import AsciiMath.Proofs.Engine.Alignment
import AsciiMath.Proofs.Formula.Lookahead
import AsciiMath.Proofs.Keyword.Longest
import AsciiMath.Proofs.Tex.Places
import AsciiMath.Proofs.Token.Verbatim
import Mathlib.Data.List.Infix

/-!
# Arguments are written as they stand

Some standard keywords take the text behind them and set it in TeX of their own. Whatever is in the
text, it reaches the output unaltered: it is scanned as one token, read as one leaf, and filled into
the template of its keyword without being looked at again.
-/

namespace AsciiMath

namespace Template

/-- The one place of a template takes the argument, and nothing else changes. -/
theorem apply_one {front back : String} (hfront : '$' ∉ front.toList) (hback : '$' ∉ back.toList)
    (argument : String) : apply (front ++ "$1" ++ back) [argument] = front ++ argument ++ back := by
  have place : "$1".toList = ['$', '1'] := by decide
  have kept := fill_of_notMem hback [argument.toList]
  rw [apply, ← String.toList_inj, String.toList_ofList]
  simp only [String.toList_append, place, List.append_assoc, List.cons_append, List.nil_append,
    List.map_cons, List.map_nil]
  rw [fill_append hfront, Tex.fill_place rfl, kept]

end Template

/-- A keyword whose argument is written as it stands, between two pieces of TeX. -/
structure Verbatim where
  keyword : String
  flag : Flag
  front : String
  back : String
  nonempty : keyword.toList ≠ [] := by decide
  solid : ∀ c ∈ keyword.toList.head?, ¬ Text.isBlank c := by rintro c ⟨⟩; decide
  /-- There is no place but the one between the two pieces. -/
  plain : '$' ∉ front.toList ∧ '$' ∉ back.toList := by decide

namespace Verbatim

def symbol (verbatim : Verbatim) : Symbol :=
  ⟨verbatim.front ++ "$1" ++ verbatim.back, .prefixUnary, some verbatim.flag⟩

def text : Verbatim :=
  { keyword := "text", flag := .rawText, front := "\\text\x7b", back := "\x7d" }

def mbox : Verbatim :=
  { keyword := "mbox", flag := .rawText, front := "\\mbox\x7b", back := "\x7d" }

def op : Verbatim :=
  { keyword := "op", flag := .rawText, front := "\\operatorname\x7b", back := "\x7d" }

def tex : Verbatim := { keyword := "tex", flag := .texLiteral, front := "", back := "" }

def hspace : Verbatim :=
  { keyword := "hspace", flag := .lengthLiteral, front := "\\hspace\x7b", back := "\x7d" }

end Verbatim

def Standard.verbatims : List Verbatim := [.text, .mbox, .op, .tex, .hspace]

theorem Standard.lookup_verbatim : ∀ verbatim ∈ verbatims,
    symbols.reverse.lookup verbatim.keyword = some verbatim.symbol := by
  decide +kernel

/-- A character with which an argument in delimiters can begin, or the blanks before it. -/
def opensArgument (c : Char) : Bool := Text.isBlank c || c ∈ ['(', '\x22']

/-- No other keyword takes one of these and goes on with the start of an argument. -/
theorem Standard.not_opensArgument : ∀ entry ∈ symbols, ∀ verbatim ∈ verbatims,
    verbatim.keyword.toList <+: entry.1.toList →
      (entry.1.toList.drop verbatim.keyword.toList.length).head?.all (!opensArgument ·) := by
  decide +kernel

theorem Standard.unquoted : ∀ entry ∈ symbols, entry.1.toList.head? ≠ some '\x22' := by
  decide +kernel

theorem Standard.longest?_of_verbatim {table : SymbolTable}
    (built : SymbolTable.standard = .ok table) {verbatim : Verbatim} (mem : verbatim ∈ verbatims)
    {rest : List Char} (opens : ∀ c ∈ rest.head?, opensArgument c) :
    KeywordMap.longest? table (verbatim.keyword.toList ++ rest) =
      some (Text.byteLength verbatim.keyword.toList, verbatim.symbol) := by
  have known : table.trie.get? verbatim.keyword.toList = some verbatim.symbol := by
    rw [Trie.get?_ofEntries (SymbolTable.trie_of_ofEntries built)]
    exact lookup_verbatim verbatim mem
  -- In itself the keyword is the longest one, and no longer one goes on into its argument.
  have alone : IsLongestKey table.trie.get? verbatim.keyword.toList _ :=
    .present (List.prefix_refl _) known fun _ within _ ↦ within.length_le
  refine (table.trie.longest?_isLongestKey _).unique (alone.append fun c cs starts ↦ ?_)
  by_contra longer
  obtain ⟨symbol, found⟩ := Option.ne_none_iff_exists'.1 longer
  have entry : (String.ofList (verbatim.keyword.toList ++ c :: cs), symbol) ∈ symbols :=
    SymbolTable.mem_of_get? built (by rwa [SymbolTable.get?, String.toList_ofList])
  obtain ⟨more, rfl⟩ := starts
  have ends := not_opensArgument _ entry verbatim mem (by simp)
  simp [opens c rfl] at ends

namespace Formula

theorem ofTokens_unary (keyword template : String) (flag : Option Flag) (start place : Position)
    (inside : List Char) : ofTokens [⟨keyword, template, .prefixUnary, true, flag, start⟩,
        .literal inside .text place] =
      .ok (.root [.unary template (.leaf (String.ofList inside) (String.ofList inside))]) := by
  rfl

theorem joinShown_singleton (part : String) : joinShown [part] = part := by
  by_cases h : part = "" <;> simp [joinShown, h]

end Formula

/-- An argument that takes all the text behind its keyword reaches the output as it stands. -/
theorem convert_of_takes {verbatim : Verbatim} (mem : verbatim ∈ Standard.verbatims)
    {rest inside : List Char} (opens : ∀ c ∈ rest.head?, opensArgument c)
    (takes : Cursor.Takes verbatim.flag rest inside []) :
    convert (verbatim.keyword ++ String.ofList rest) =
      verbatim.front ++ String.ofList inside ++ verbatim.back := by
  obtain ⟨table, built⟩ := SymbolTable.ofEntries_eq_ok Standard.symbols
  have found := Standard.longest?_of_verbatim built mem opens
  obtain ⟨place, scanned⟩ :=
    tokenize_argument table.fits verbatim.nonempty verbatim.solid found rfl takes
  rw [String.ofList_append, String.ofList_toList] at scanned
  rw [convert_eq built scanned, Verbatim.symbol, Formula.ofTokens_unary]
  change Formula.joinShown [Template.apply _ [String.ofList inside]] = _
  rw [Formula.joinShown_singleton, Template.apply_one verbatim.plain.1 verbatim.plain.2]

theorem convert_balanced {verbatim : Verbatim} (mem : verbatim ∈ Standard.verbatims)
    (raw : verbatim.flag = .rawText) {text : String} (balanced : Balanced text.toList) :
    convert (verbatim.keyword ++ "(" ++ text ++ ")") =
      verbatim.front ++ text ++ verbatim.back := by
  have inline : ∀ c ∈ [], Text.isInlineBlank c := by simp
  have takes := Cursor.takes_of_balanced inline [] balanced
  rw [← raw] at takes
  have whole := convert_of_takes mem (by rintro c ⟨⟩; decide) takes
  have input : verbatim.keyword ++ "(" ++ text ++ ")" =
      verbatim.keyword ++ String.ofList ([] ++ '(' :: (text.toList ++ [')'])) := by
    simp [← String.toList_inj]
  rw [input, whole, String.ofList_toList]

theorem convert_unquoted {verbatim : Verbatim} (mem : verbatim ∈ Standard.verbatims)
    (quoted : verbatim.flag ∈ [.texLiteral, .lengthLiteral]) {gap text : String}
    (inline : ∀ c ∈ gap.toList, Text.isInlineBlank c) (unquoted : '\x22' ∉ text.toList) :
    convert (verbatim.keyword ++ gap ++ "\x22" ++ text ++ "\x22") =
      verbatim.front ++ text ++ verbatim.back := by
  have takes := Cursor.takes_of_unquoted inline [] unquoted quoted
  have opens : ∀ c ∈ (gap.toList ++ '\x22' :: (text.toList ++ ['\x22'])).head?,
      opensArgument c := by
    intro c hc
    cases hgap : gap.toList with
    | nil =>
      rw [hgap] at hc
      obtain rfl := Option.some.inj hc
      decide
    | cons d ds =>
      rw [hgap] at hc
      obtain rfl := Option.some.inj hc
      obtain ⟨blank, -⟩ := Bool.and_eq_true_iff.1 (inline d (by simp [hgap]))
      simp [opensArgument, blank]
  have whole := convert_of_takes mem opens takes
  have input : verbatim.keyword ++ gap ++ "\x22" ++ text ++ "\x22" =
      verbatim.keyword ++ String.ofList (gap.toList ++ '\x22' :: (text.toList ++ ['\x22'])) := by
    simp [← String.toList_inj]
  rw [input, whole, String.ofList_toList]

/-- A text in quotes that no keyword stands before is set as text. -/
theorem convert_quotation {text : String} (unquoted : '\x22' ∉ text.toList) :
    convert ("\x22" ++ text ++ "\x22") = "\\text\x7b" ++ text ++ "\x7d" := by
  obtain ⟨table, built⟩ := SymbolTable.ofEntries_eq_ok Standard.symbols
  have plain : KeywordMap.startsKeyword table ('\x22' :: (text.toList ++ ['\x22'])) = false := by
    rw [← Bool.not_eq_true, SymbolTable.startsKeyword_iff built]
    rintro ⟨entry, mem, nonempty, starts⟩
    obtain ⟨c, cs, hkey⟩ := List.exists_cons_of_ne_nil (mt String.toList_eq_nil_iff.1 nonempty)
    rw [hkey] at starts
    obtain ⟨rfl, -⟩ := List.cons_prefix_cons.1 starts
    exact Standard.unquoted entry mem (by rw [hkey]; rfl)
  have scanned := tokenize_quotation table.fits unquoted plain
  have quoted : String.ofList ('\x22' :: (text.toList ++ ['\x22'])) = "\x22" ++ text ++ "\x22" := by
    simp [← String.toList_inj]
  rw [quoted, String.ofList_toList] at scanned
  have point := not_isAlignPoint_text text text
  rw [convert_eq built scanned, Formula.ofTokens_leaves (by simp [Category.isLeaf])]
  simp only [Formula.tex, List.map_cons, List.map_nil, Formula.ofToken, List.any_cons, point]
  exact Formula.joinShown_singleton _

/-- Whatever stands in an argument in parentheses that are balanced, or in quotes, is written as it
stands. -/
theorem convert_verbatim (text : String) :
    (Balanced text.toList →
      convert ("text(" ++ text ++ ")") = "\\text\x7b" ++ text ++ "\x7d" ∧
      convert ("mbox(" ++ text ++ ")") = "\\mbox\x7b" ++ text ++ "\x7d" ∧
      convert ("op(" ++ text ++ ")") = "\\operatorname\x7b" ++ text ++ "\x7d") ∧
    ('\x22' ∉ text.toList →
      convert ("\x22" ++ text ++ "\x22") = "\\text\x7b" ++ text ++ "\x7d" ∧
      ∀ gap : String, (∀ c ∈ gap.toList, Text.isInlineBlank c) →
        convert ("tex" ++ gap ++ "\x22" ++ text ++ "\x22") = text ∧
        convert ("hspace" ++ gap ++ "\x22" ++ text ++ "\x22") =
          "\\hspace\x7b" ++ text ++ "\x7d") := by
  constructor
  · intro balanced
    have written (verbatim : Verbatim) (mem : verbatim ∈ Standard.verbatims)
        (raw : verbatim.flag = .rawText) {start : String}
        (hstart : start = verbatim.keyword ++ "(") :
        convert (start ++ text ++ ")") = verbatim.front ++ text ++ verbatim.back := by
      rw [hstart, convert_balanced mem raw balanced]
    exact ⟨written .text (by simp [Standard.verbatims]) rfl (by decide),
      written .mbox (by simp [Standard.verbatims]) rfl (by decide),
      written .op (by simp [Standard.verbatims]) rfl (by decide)⟩
  · intro unquoted
    refine ⟨convert_quotation unquoted, fun gap inline ↦ ⟨?_, ?_⟩⟩
    · have bare : convert ("tex" ++ gap ++ "\x22" ++ text ++ "\x22") = "" ++ text ++ "" :=
        @convert_unquoted .tex (by simp [Standard.verbatims]) (by decide) gap text inline unquoted
      rwa [String.empty_append, String.append_empty] at bare
    · exact @convert_unquoted .hspace (by simp [Standard.verbatims]) (by decide) gap text inline
        unquoted

/-- Inside are keywords, a blank line, an alignment point, brackets and a place of a template. -/
theorem convert_verbatim_keywords : Balanced "alpha (\n\n) & [|$1".toList ∧
    '\x22' ∉ "alpha (\n\n) & [|$1".toList ∧
    convert ("op(" ++ "alpha (\n\n) & [|$1" ++ ")") =
      "\\operatorname\x7b" ++ "alpha (\n\n) & [|$1" ++ "\x7d" ∧
    convert ("tex" ++ " " ++ "\x22" ++ "alpha (\n\n) & [|$1" ++ "\x22") =
      "alpha (\n\n) & [|$1" := by
  have balanced : Balanced "alpha (\n\n) & [|$1".toList := by
    refine ⟨fun front h ↦ ?_, by decide⟩
    have fronts : ∀ front ∈ "alpha (\n\n) & [|$1".toList.inits,
        front.count ')' ≤ front.count '(' := by
      decide
    exact fronts front ((List.mem_inits front _).2 h)
  have unquoted : '\x22' ∉ "alpha (\n\n) & [|$1".toList := by decide
  have inline : ∀ c ∈ " ".toList, Text.isInlineBlank c := List.all_eq_true.1 (by decide)
  obtain ⟨group, quoted⟩ := convert_verbatim "alpha (\n\n) & [|$1"
  exact ⟨balanced, unquoted, (group balanced).2.2, ((quoted unquoted).2 " " inline).1⟩

end AsciiMath
