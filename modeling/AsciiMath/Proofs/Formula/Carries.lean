import AsciiMath.Proofs.Formula.Content

/-!
# Reading loses no content

Whatever is looked for among the tokens that a judgment takes is found in the formula that it finds.
This goes by induction on derivations, with a second property that operands need: where a formula
begins and ends with brackets that can be stripped, these are not looked for.
-/

namespace AsciiMath.Formula

/-- What is looked for is found again, in a formula that is read or in the tokens that are left. -/
structure Carried (V : String → Prop) [DecidablePred V] (ordered : Prop)
    (before : List (String × String)) (found : Formula) (after : List Placed) : Prop where
  agree : Agree ordered before (content V found ++ given V after)
  strips : Strips V found

section

variable {V : String → Prop} [DecidablePred V] {ordered : Prop}

namespace Carried

variable {before : List (String × String)} {first second whole : Formula}
  {tokens middle after : List Placed}

/-- A token that is not looked for may come first. -/
theorem cons {placed : Placed} (fits : Fits V ordered placed.token) {category : Category}
    (hcategory : placed.category = category) (other : category.isLeaf = false)
    (h : Carried V ordered (given V tokens) whole after) :
    Carried V ordered (given V (placed :: tokens)) whole after := by
  rwa [given_cons_eq fits hcategory other]

theorem cons_onto {placed : Placed} (fits : Fits V ordered placed.token) {category : Category}
    (hcategory : placed.category = category) (other : category.isLeaf = false)
    {front : List (String × String)} (h : Carried V ordered (front ++ given V tokens) whole after) :
    Carried V ordered (front ++ given V (placed :: tokens)) whole after := by
  rwa [given_cons_eq fits hcategory other]

theorem of_nothing (h : content V whole = []) (strips : Strips V whole) :
    Carried V ordered (given V tokens) whole tokens :=
  ⟨.of_eq (by rw [h, List.nil_append]), strips⟩

/-- The argument of something whose content is known. -/
theorem onto {front : List (String × String)} (h : Carried V ordered (given V tokens) second after)
    (same : content V whole = front ++ content V second) (strips : Strips V whole) :
    Carried V ordered (front ++ given V tokens) whole after := by
  refine ⟨?_, strips⟩
  rw [same, List.append_assoc]
  exact h.agree.append_left front

theorem trans (h : Carried V ordered before whole middle)
    (more : Strips V whole → Carried V ordered (content V whole ++ given V middle) first after) :
    Carried V ordered before first after :=
  ⟨h.agree.trans (more h.strips).agree, (more h.strips).strips⟩

end Carried

theorem content_binary_stripped {first second : Formula} (hfirst : Strips V first)
    (hsecond : Strips V second) (template : String) :
    content V (.binary template first.stripBrackets second.stripBrackets) =
      content V first ++ content V second := by
  rw [content_binary, show _ = _ from hfirst, show _ = _ from hsecond]

theorem strips_leaf (template source : String) : Strips V (.leaf template source) :=
  strips_of_groupBody?_eq_none rfl

theorem strips_unary (template : String) (argument : Formula) :
    Strips V (.unary template argument) := strips_of_groupBody?_eq_none rfl

theorem strips_binary (template : String) (first second : Formula) :
    Strips V (.binary template first second) := strips_of_groupBody?_eq_none rfl

namespace Carried

variable {before : List (String × String)} {first second : Formula}
  {tokens middle after : List Placed}

/-- A token that is written as a leaf, and is not looked for. -/
theorem leaf_alone {placed : Placed} (fits : Fits V ordered placed.token) {category : Category}
    (hcategory : placed.category = category) (other : category.isLeaf = false) (template : String)
    (tokens : List Placed) :
    Carried V ordered (given V (placed :: tokens)) (.leaf template placed.token.value) tokens := by
  have alone : Carried V ordered (given V tokens) (.leaf template placed.token.value) tokens :=
    of_nothing (content_leaf_eq_nil (fits.not_mem hcategory other)) (strips_leaf _ _)
  exact alone.cons fits hcategory other

theorem unary (h : Carried V ordered before first after) (template : String) :
    Carried V ordered before (.unary template first.stripBrackets) after := by
  refine ⟨?_, strips_unary _ _⟩
  rw [content_unary, show _ = _ from h.strips]
  exact h.agree

/-- The second argument of an operator behind its first one. -/
theorem pairWith (h : Carried V ordered (given V tokens) second after) (hfirst : Strips V first)
    (template : String) :
    Carried V ordered (content V first ++ given V tokens)
      (.binary template first.stripBrackets second.stripBrackets) after :=
  h.onto (content_binary_stripped hfirst h.strips template) (strips_binary _ _ _)

theorem binary (hfirst : Carried V ordered (given V tokens) first middle)
    (hsecond : Carried V ordered (given V middle) second after) (template : String) :
    Carried V ordered (given V tokens)
      (.binary template first.stripBrackets second.stripBrackets) after :=
  hfirst.trans fun strips ↦ hsecond.pairWith strips template

/-- The arguments in the other order. -/
theorem binary_swapped (unordered : ¬ ordered)
    (hfirst : Carried V ordered (given V tokens) first middle)
    (hsecond : Carried V ordered (given V middle) second after) (template : String) :
    Carried V ordered (given V tokens)
      (.binary template second.stripBrackets first.stripBrackets) after := by
  have swapped := (hfirst.binary hsecond template).agree.perm
  refine ⟨⟨?_, fun strict ↦ absurd strict unordered⟩, strips_binary _ _ _⟩
  rw [content_binary_stripped hfirst.strips hsecond.strips] at swapped
  rw [content_binary_stripped hsecond.strips hfirst.strips]
  exact swapped.trans (List.perm_append_comm.append_right _)

theorem withScript {base argument : Formula} (h : Carried V ordered (given V tokens) argument after)
    (script : Token) :
    Carried V ordered (content V base ++ given V tokens)
      (withScript base script argument.stripBrackets) after := by
  refine h.onto ?_ (strips_of_groupBody?_eq_none ?_)
  · simp [Formula.withScript, show _ = _ from h.strips]
  · simp [Formula.withScript, groupBody?, isLeafFrom]

end Carried

theorem content_group {leading body : List Formula} {opener last : Formula}
    (hopener : content V opener = []) (hlast : content V last = []) :
    content V (.flat (leading ++ opener :: body ++ [last])) =
      contentOfList V leading ++ contentOfList V body := by
  simp [hopener, hlast]

/-- The brackets of a group are not looked for. -/
theorem strips_group (absent : ¬ V "") {leading : List Formula}
    (leads : Leads (Fits V ordered) leading) {opener last : Formula} (body : List Formula)
    (hopener : content V opener = []) (hlast : content V last = []) :
    Strips V (.flat (leading ++ opener :: body ++ [last])) := by
  cases leads with
  | nothing => exact strips_of_ends absent hopener hlast
  | rule token fits category flag =>
    exact strips_of_first (fits.not_opener (.inr flag))

/-- A region between brackets or bars that are not looked for. -/
theorem carried_group (absent : ¬ V "") {leading : List Formula}
    (leads : Leads (Fits V ordered) leading) {opener last : Formula} {body : List Formula}
    {inside after : List Placed} {closer : Placed} (fits : Fits V ordered closer.token)
    {category : Category} (closes : closer.category = category) (other : category.isLeaf = false)
    (hopener : content V opener = []) (hlast : content V last = [])
    (h : Agree ordered (given V inside) (contentOfList V body)) :
    Carried V ordered (contentOfList V leading ++ given V (inside ++ closer :: after))
      (.flat (leading ++ opener :: body ++ [last])) after := by
  refine ⟨?_, strips_group absent leads body hopener hlast⟩
  rw [content_group hopener hlast, given_append, given_cons_eq fits closes other, List.append_assoc]
  exact (h.append_right _).append_left _

theorem carried_grid (absent : ¬ V "") {leading : List Formula} {pieces : List GridPiece}
    {left right : String} {alignment : Alignment} {grid : Matrix Formula}
    (made : (Grid.ofPieces [] leading pieces).toMatrix left right alignment = some grid)
    {inside after : List Placed} {closer : Placed} (fits : Fits V ordered closer.token)
    {category : Category} (closes : closer.category = category) (other : category.isLeaf = false)
    (h : Agree ordered (given V inside) (contentOfPieces V pieces)) :
    Carried V ordered (contentOfList V leading ++ given V (inside ++ closer :: after))
      (.matrix grid) after := by
  refine ⟨?_, strips_of_groupBody?_eq_none rfl⟩
  rw [content_toMatrix absent made, given_append, given_cons_eq fits closes other,
    List.append_assoc]
  exact (h.append_right _).append_left _

end

/-- What is looked for among the tokens is found again. -/
abbrev Judgment.Carries (V : String → Prop) [DecidablePred V] (ordered : Prop) : Judgment → Prop
  | alone _ tokens found after | whole _ tokens found after | operand _ tokens found after =>
    Carried V ordered (given V tokens) found after
  | scripts _ _ base tokens found after | followers _ _ base tokens found after =>
    Strips V base → Carried V ordered (content V base ++ given V tokens) found after
  | brackets _ leading opener tokens found after =>
    Leads (Fits V ordered) leading → Fits V ordered opener → opener.category = .opener →
      Carried V ordered (contentOfList V leading ++ given V tokens) found after
  | sequence _ tokens found => Agree ordered (given V tokens) (contentOfList V found)
  | pieces _ _ _ tokens found => Agree ordered (given V tokens) (contentOfPieces V found)
  | order _ _ _ _ | terms _ _ _ _ => True

section

variable {V : String → Prop} [DecidablePred V] {ordered : Prop} {ruled cellBegun : Bool}
  {token : Token} {piece : GridPiece}

theorem content_ofToken_of_endsCell (fits : Fits V ordered token)
    (h : endsCell ruled cellBegun token = some piece) : content V (ofToken token) = [] := by
  rw [endsCell] at h
  split at h
  · next category => exact content_ofToken_eq_nil fits category rfl
  · split at h
    · next bar =>
      have category : token.category = .bar := by
        simp only [Bool.and_eq_true, decide_eq_true_eq] at bar
        exact bar.1.1.1
      exact content_ofToken_eq_nil fits category rfl
    · simp at h

theorem contentOfPieces_of_endsCell (h : endsCell ruled cellBegun token = some piece)
    (pieces : List GridPiece) : contentOfPieces V (piece :: pieces) = contentOfPieces V pieces := by
  cases piece with
  | formula formula => exact absurd h endsCell_ne_formula
  | _ => rfl

end

theorem Reads.carries {V : String → Prop} [DecidablePred V] {ordered : Prop} (absent : ¬ V "")
    {judgment : Judgment} (h : Reads judgment)
    (can : ∀ placed ∈ judgment.tokens, Fits V ordered placed.token) :
    judgment.Carries V ordered := by
  have nothing {tokens : List Placed} : Carried V ordered (given V tokens) empty tokens :=
    .of_nothing (content_leaf_eq_nil absent) (strips_leaf _ _)
  -- A base is stripped only when an operator behind it takes it, so that `Strips` goes along.
  induction h with
  | leaf => exact ⟨.of_eq (given_cons V _ _), strips_leaf _ _⟩
  | ruledRegion category flag opens _ ih =>
    obtain ⟨here, can⟩ := List.forall_mem_cons.1 can
    obtain ⟨next, can⟩ := List.forall_mem_cons.1 can
    have region := (ih can (.rule _ here category flag) next opens).cons_onto next opens rfl
    rw [contentOfList_cons, contentOfList_nil, List.append_nil, ← given_cons] at region
    exact region
  | bracketRegion category _ ih =>
    obtain ⟨here, can⟩ := List.forall_mem_cons.1 can
    exact (ih can .nothing here category).cons here category rfl
  | loneBar category =>
    obtain ⟨here, -⟩ := List.forall_mem_cons.1 can
    exact .leaf_alone here category rfl _ _
  | barGroup category matched _ ih =>
    obtain ⟨here, can⟩ := List.forall_mem_cons.1 can
    obtain ⟨rfl, closes, -⟩ := Region.ofBars?_eq_some matched
    obtain ⟨inside, can⟩ := List.forall_mem_append.1 can
    obtain ⟨closer, -⟩ := List.forall_mem_cons.1 can
    have bar := here.not_mem category rfl
    refine Carried.cons here category rfl ?_
    show Carried V ordered (contentOfList V [] ++ _) (.flat ([] ++ _ :: _ ++ [_])) _
    exact carried_group absent .nothing closer closes rfl (content_leaf_eq_nil bar)
      (content_leaf_eq_nil bar) (ih inside)
  | barGrid category matched _ _ fits ih =>
    obtain ⟨here, can⟩ := List.forall_mem_cons.1 can
    obtain ⟨rfl, closes, -⟩ := Region.ofBars?_eq_some matched
    obtain ⟨inside, can⟩ := List.forall_mem_append.1 can
    obtain ⟨closer, -⟩ := List.forall_mem_cons.1 can
    refine Carried.cons here category rfl ?_
    exact carried_grid absent fits closer closes rfl (ih inside)
  | prefixed category _ ih =>
    obtain ⟨here, can⟩ := List.forall_mem_cons.1 can
    rcases category with category | category
    · exact ((ih can).unary _).cons here category rfl
    · exact ((ih can).unary _).cons here category rfl
  | prefixedPair category reads _ ihFirst ihSecond =>
    obtain ⟨here, can⟩ := List.forall_mem_cons.1 can
    have second := ihSecond (reads.proceeds.forall_mem can)
    exact ((ihFirst can).binary second _).cons here category rfl
  | leadingSign category _ _ ih =>
    obtain ⟨here, can⟩ := List.forall_mem_cons.1 can
    refine Carried.cons here category rfl ⟨?_, strips_of_first (here.not_opener (.inl category))⟩
    simpa [content_ofToken_eq_nil here category rfl] using (ih can).agree
  | sign category =>
    obtain ⟨here, -⟩ := List.forall_mem_cons.1 can
    exact .leaf_alone here category rfl _ _
  | unscripted category =>
    obtain ⟨here, -⟩ := List.forall_mem_cons.1 can
    exact (nothing.binary nothing _).cons here category rfl
  | scriptedOnce category scripted _ _ ih =>
    obtain ⟨here, can⟩ := List.forall_mem_cons.1 can
    obtain ⟨script, can⟩ := List.forall_mem_cons.1 can
    refine .cons here category rfl (.cons script scripted rfl ?_)
    split
    · exact (ih can).binary nothing _
    · exact nothing.binary (ih can) _
  | scriptedTwice category scripted reads otherScripted _ _ ihFirst ihSecond =>
    obtain ⟨here, can⟩ := List.forall_mem_cons.1 can
    obtain ⟨script, can⟩ := List.forall_mem_cons.1 can
    obtain ⟨other, canSecond⟩ := List.forall_mem_cons.1 (reads.proceeds.forall_mem can)
    have second := (ihSecond canSecond).cons other otherScripted rfl
    refine .cons here category rfl (.cons script scripted rfl ?_)
    split
    · exact (ihFirst can).binary second _
    · exact (ihFirst can).binary_swapped (fun strict ↦ here.scripts strict category) second _
  | derivativeBare category | derivativeBy category =>
    obtain ⟨here, -⟩ := List.forall_mem_cons.1 can
    exact absurd category here.derivative
  | mark category =>
    obtain ⟨here, -⟩ := List.forall_mem_cons.1 can
    rcases category with category | category
    · exact .leaf_alone here category rfl _ _
    · exact .leaf_alone here category rfl _ _
  | strayCloser category =>
    obtain ⟨here, -⟩ := List.forall_mem_cons.1 can
    exact .leaf_alone here category rfl _ _
  | strayOperator category =>
    obtain ⟨here, -⟩ := List.forall_mem_cons.1 can
    rcases category with category | category
    · exact .leaf_alone here category rfl _ _
    · exact .leaf_alone here category rfl _ _
  | whole reads _ ih ihFollows =>
    exact (ih can).trans (ihFollows (reads.proceeds.takes.forall_mem can))
  | missing => exact nothing
  | present _ _ ih => exact ih can
  | scriptsEnd => exact fun strips ↦ ⟨.of_eq rfl, strips⟩
  | scriptsStep category reads _ ih ihMore =>
    obtain ⟨here, can⟩ := List.forall_mem_cons.1 can
    have more := ihMore (reads.proceeds.forall_mem can)
    exact fun _ ↦ (((ih can).withScript _).cons_onto here category rfl).trans more
  | followersEnd => exact fun strips ↦ ⟨.of_eq rfl, strips⟩
  | scriptFollows category reads _ ih ihMore =>
    obtain ⟨here, can⟩ := List.forall_mem_cons.1 can
    have more := ihMore (reads.proceeds.forall_mem can)
    exact fun _ ↦ (((ih can).withScript _).cons_onto here category rfl).trans more
  | infixFollows category reads readsScripts _ ih ihScripts ihMore =>
    obtain ⟨here, can⟩ := List.forall_mem_cons.1 can
    have canScripts := reads.proceeds.forall_mem can
    have second := (ih can).trans (ihScripts canScripts)
    have more := ihMore (readsScripts.proceeds.forall_mem canScripts)
    exact fun hbase ↦ ((second.pairWith hbase _).cons_onto here category rfl).trans more
  | postfixFollows category _ ihMore =>
    obtain ⟨here, can⟩ := List.forall_mem_cons.1 can
    exact fun _ ↦ (ihMore can (strips_unary _ _)).cons_onto here category rfl
  | unclosed _ _ ih =>
    intro leads canOpen opens
    have hopener := content_ofToken_eq_nil canOpen opens rfl
    have hends : content V (.leaf "\\right." "") = [] := content_leaf_eq_nil absent
    refine ⟨?_, strips_group absent leads _ hopener hends⟩
    rw [content_group hopener hends, given_nil, List.append_nil]
    exact (ih can).append_left _
  | group matched _ _ ih =>
    intro leads canOpen opens
    obtain ⟨rfl, closes, -⟩ := Region.ofBrackets?_eq_some matched
    obtain ⟨inside, can⟩ := List.forall_mem_append.1 can
    obtain ⟨closer, -⟩ := List.forall_mem_cons.1 can
    exact carried_group absent leads closer closes rfl (content_ofToken_eq_nil canOpen opens rfl)
      (content_ofToken_eq_nil closer closes rfl) (ih inside)
  | grid matched _ _ fits ih =>
    intro leads canOpen opens
    obtain ⟨rfl, closes, -⟩ := Region.ofBrackets?_eq_some matched
    obtain ⟨inside, can⟩ := List.forall_mem_append.1 can
    obtain ⟨closer, -⟩ := List.forall_mem_cons.1 can
    exact carried_grid absent fits closer closes rfl (ih inside)
  | sequenceEnd => exact .of_eq rfl
  | sequenceStep reads _ ih ihMore =>
    have more := ihMore (reads.proceeds.takes.forall_mem can)
    exact (ih can).agree.trans (more.append_left _)
  | piecesEnd => exact .of_eq rfl
  | pieceMark ends _ ih =>
    obtain ⟨here, can⟩ := List.forall_mem_cons.1 can
    show Agree ordered (given V _) (contentOfPieces V _)
    rw [given_cons, content_ofToken_of_endsCell here ends, contentOfPieces_of_endsCell ends]
    exact ih can
  | pieceFormula _ reads _ ih ihMore =>
    have more := ihMore (reads.proceeds.takes.forall_mem can)
    exact (ih can).agree.trans (more.append_left _)
  | noOrder | withOrder | groupTerms | singleTerm => trivial

theorem given_ofTokens (V : String → Prop) [DecidablePred V] (tokens : List Token) :
    given V (Placed.ofTokens tokens) = contentOfTokens V tokens := by
  conv_rhs => rw [← Placed.map_token_ofTokens tokens]
  rw [contentOfTokens, List.filter_map, List.map_map]
  rfl

/-- The leaves whose source is looked for are the tokens with such a value. Their order is the same
if there is no operator over and under which scripts are written. -/
theorem content_perm_tokens {V : String → Prop} [DecidablePred V] {tokens : List Token}
    {formula : Formula} (read : ofTokens tokens = .ok formula) (absent : ¬ V "")
    (leaf : ∀ token ∈ tokens, V token.value → token.category.isLeaf)
    (derivative : ∀ token ∈ tokens, token.category ≠ .derivative)
    (plain : ∀ token ∈ tokens, token.category = .sign ∨ token.flag = some .rowRule →
      token.value ∉ groupOpeners) :
    (content V formula).Perm (contentOfTokens V tokens) ∧
      ((∀ token ∈ tokens, token.category ≠ .optionalScripts) →
        content V formula = contentOfTokens V tokens) := by
  obtain ⟨children, rfl, reads⟩ := reads_of_ofTokens read
  have fits : ∀ placed ∈ Placed.ofTokens tokens,
      Fits V (∀ token ∈ tokens, token.category ≠ .optionalScripts) placed.token := by
    intro placed hplaced
    have hmem := Placed.token_mem_of_mem_ofTokens hplaced
    exact ⟨leaf _ hmem, derivative _ hmem, plain _ hmem, fun strict ↦ strict _ hmem⟩
  have agree := reads.carries absent fits
  rw [Judgment.Carries, given_ofTokens, ← content_root V children] at agree
  exact ⟨agree.perm.symm, fun strict ↦ (agree.eq strict).symm⟩

/-- An arrow with a script under it and then one over it. -/
def scriptedArrow : List Token :=
  [⟨"xrarr", "\\xrightarrow[ $2 ]\x7b $1 \x7d", .optionalScripts, true, none, ⟨1, 1⟩⟩,
    ⟨"_", "_\x7b $1 \x7d", .script, true, none, ⟨1, 6⟩⟩, .literal ['a'] .run ⟨1, 7⟩,
    ⟨"^", "^\x7b $1 \x7d", .script, true, none, ⟨1, 8⟩⟩, .literal ['b'] .run ⟨1, 9⟩]

theorem content_perm_scriptedArrow : ∃ formula, ofTokens scriptedArrow = .ok formula ∧
    content (· ∈ ["a", "b"]) formula = [("b", "b"), ("a", "a")] ∧
    (content (· ∈ ["a", "b"]) formula).Perm [("a", "a"), ("b", "b")] := by
  refine ⟨_, rfl, by decide +kernel, ?_⟩
  exact (@content_perm_tokens (· ∈ ["a", "b"]) _ scriptedArrow _ rfl (by decide) (by decide)
    (by decide) (by decide)).1

end AsciiMath.Formula
