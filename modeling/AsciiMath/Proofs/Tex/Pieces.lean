import Mathlib.Data.List.Basic

/-!
# TeX in pieces

TeX is read from left to right as control words, which are a backslash with letters, as control
symbols, which are a backslash with one other character, and as plain characters. It is well nested
if delimiters, environments and braces are closed in the order in which they were opened, each by
its own kind. What is read of two texts is what is read of each, if no control word runs on from
one to the other.
-/

namespace AsciiMath.Tex

inductive Piece where
  | word (name : List Char)
  | symbol (c : Char)
  | plain (c : Char)
deriving DecidableEq, Repr

/-- What a reader has begun: nothing, a control sequence, or a control word. -/
inductive Mode where
  | between
  | escape
  | word (name : List Char)
deriving DecidableEq, Repr

namespace Mode

def next (mode : Mode) (c : Char) : Mode :=
  match mode with
  | .between => if c = '\\' then .escape else .between
  | .escape => if c.isAlpha then .word [c] else .between
  | .word name =>
    if c.isAlpha then .word (name ++ [c]) else if c = '\\' then .escape else .between

/-- The pieces that are complete once a character is read. -/
def completes (mode : Mode) (c : Char) : List Piece :=
  match mode with
  | .between => if c = '\\' then [] else [.plain c]
  | .escape => if c.isAlpha then [] else [.symbol c]
  | .word name =>
    if c.isAlpha then [] else .word name :: if c = '\\' then [] else [.plain c]

/-- The piece that the end of the text completes. -/
def last : Mode → List Piece
  | .between => []
  | .escape => [.plain '\\']
  | .word name => [.word name]

def after (mode : Mode) (text : List Char) : Mode := text.foldl next mode

end Mode

def piecesFrom : Mode → List Char → List Piece
  | mode, [] => mode.last
  | mode, c :: text => mode.completes c ++ piecesFrom (mode.next c) text

/-- All pieces of a text. -/
def pieces (text : String) : List Piece := piecesFrom .between text.toList

/-- What is opened by one piece and closed by another. -/
inductive Pair where
  | delimiters
  | environment
  | braces
deriving DecidableEq, Repr

namespace Piece

def opens? : Piece → Option Pair
  | .word name =>
    if name = "left".toList then some .delimiters
    else if name = "begin".toList then some .environment
    else none
  | .symbol _ => none
  | .plain c => if c = '\x7b' then some .braces else none

def closes? : Piece → Option Pair
  | .word name =>
    if name = "right".toList then some .delimiters
    else if name = "end".toList then some .environment
    else none
  | .symbol _ => none
  | .plain c => if c = '\x7d' then some .braces else none

/-- The pairs that are open behind a piece, the innermost first; none if it closes another pair than
the innermost. -/
def nest (opened : List Pair) (piece : Piece) : Option (List Pair) :=
  match piece.opens?, piece.closes? with
  | some pair, _ => some (pair :: opened)
  | none, some pair => if opened.head? = some pair then some opened.tail else none
  | none, none => some opened

end Piece

def nestAll (opened : List Pair) (pieces : List Piece) : Option (List Pair) :=
  pieces.foldlM Piece.nest opened

/-- All pairs are closed in order and none is left open. -/
def WellNested (text : String) : Prop := nestAll [] (pieces text) = some []

instance (text : String) : Decidable (WellNested text) :=
  inferInstanceAs (Decidable (nestAll [] (pieces text) = some []))

example : WellNested "\\left( \\frac\x7b a \x7d\x7b \\sqrt\x7b b \x7d \x7d \\right." := by
  decide +kernel

example : ¬ WellNested "\\left( \x7b \\right) \x7d" := by decide +kernel

theorem Piece.nest_append {opened after : List Pair} {piece : Piece}
    (h : piece.nest opened = some after) (below : List Pair) :
    piece.nest (opened ++ below) = some (after ++ below) := by
  unfold Piece.nest at h ⊢
  split at h
  · obtain rfl := Option.some.inj h
    rfl
  · split at h
    · next hhead =>
      obtain rfl := Option.some.inj h
      cases opened with
      | nil => simp at hhead
      | cons pair opened => simpa using hhead
    · simp at h
  · obtain rfl := Option.some.inj h
    rfl

@[simp] theorem nestAll_nil (opened : List Pair) : nestAll opened [] = some opened := rfl

theorem nestAll_cons (opened : List Pair) (piece : Piece) (pieces : List Piece) :
    nestAll opened (piece :: pieces) = (piece.nest opened).bind (nestAll · pieces) := by
  rw [nestAll, List.foldlM_cons]
  rfl

theorem nestAll_append (opened : List Pair) (front back : List Piece) :
    nestAll opened (front ++ back) = (nestAll opened front).bind (nestAll · back) := by
  rw [nestAll, List.foldlM_append]
  rfl

/-- Pairs that were open before do not matter. -/
theorem nestAll_frame {opened after : List Pair} {pieces : List Piece}
    (h : nestAll opened pieces = some after) (below : List Pair) :
    nestAll (opened ++ below) pieces = some (after ++ below) := by
  induction pieces generalizing opened with
  | nil =>
    obtain rfl := Option.some.inj h
    rfl
  | cons piece pieces ih =>
    rw [nestAll_cons] at h ⊢
    obtain ⟨middle, hpiece, hmore⟩ := Option.bind_eq_some_iff.1 h
    rw [Piece.nest_append hpiece below]
    exact ih hmore

/-- No piece runs on into the text behind it. -/
def Mode.EndsBefore (mode : Mode) (back : List Char) : Prop :=
  mode = .between ∨ mode ≠ .escape ∧ ∀ c ∈ back.head?, ¬ c.isAlpha

theorem Mode.EndsBefore.piecesFrom_eq {mode : Mode} {back : List Char} (h : mode.EndsBefore back) :
    piecesFrom mode back = mode.last ++ piecesFrom .between back := by
  rcases h with rfl | ⟨hescape, hhead⟩
  · rfl
  · cases mode with
    | between => rfl
    | escape => exact absurd rfl hescape
    | word name =>
      cases back with
      | nil => simp [piecesFrom, last]
      | cons c back =>
        have hc : ¬ c.isAlpha := hhead c rfl
        by_cases hslash : c = '\\' <;>
          simp [piecesFrom, completes, Mode.next, last, hc, hslash]

theorem Mode.EndsBefore.after_eq {mode : Mode} {c : Char} {back : List Char}
    (h : mode.EndsBefore (c :: back)) :
    mode.after (c :: back) = Mode.after .between (c :: back) := by
  rcases h with rfl | ⟨hescape, hhead⟩
  · rfl
  · have hc : ¬ c.isAlpha := hhead c rfl
    have hnext : mode.next c = Mode.next .between c := by
      cases mode with
      | between => rfl
      | escape => exact absurd rfl hescape
      | word name => exact if_neg hc
    rw [Mode.after, List.foldl_cons, hnext]
    rfl

theorem Mode.EndsBefore.after_eq_escape {mode : Mode} {back : List Char}
    (h : mode.EndsBefore back) (hafter : mode.after back = .escape) :
    Mode.after .between back = .escape := by
  cases back with
  | nil =>
    rcases h with rfl | ⟨hescape, -⟩
    · exact hafter
    · exact absurd hafter hescape
  | cons c back => rwa [← h.after_eq]

theorem after_append (mode : Mode) (front back : List Char) :
    mode.after (front ++ back) = (mode.after front).after back := List.foldl_append

theorem piecesFrom_append {mode : Mode} {front back : List Char}
    (h : (mode.after front).EndsBefore back) :
    piecesFrom mode (front ++ back) = piecesFrom mode front ++ piecesFrom .between back := by
  induction front generalizing mode with
  | nil => exact h.piecesFrom_eq
  | cons c front ih =>
    rw [List.cons_append, piecesFrom, piecesFrom, ih h, List.append_assoc]

/-- Text that turns the pairs that are open before it into those that are open behind it, and that
does not end inside an escape. -/
def TurnsFrom (mode : Mode) (before after : List Pair) (text : List Char) : Prop :=
  mode.after text ≠ .escape ∧ nestAll before (piecesFrom mode text) = some after

instance (mode : Mode) (before after : List Pair) (text : List Char) :
    Decidable (TurnsFrom mode before after text) :=
  inferInstanceAs (Decidable (_ ∧ _))

abbrev Turns (before after : List Pair) (text : List Char) : Prop :=
  TurnsFrom .between before after text

theorem TurnsFrom.frame {mode : Mode} {before after : List Pair} {text : List Char}
    (h : TurnsFrom mode before after text) (below : List Pair) :
    TurnsFrom mode (before ++ below) (after ++ below) text :=
  ⟨h.1, nestAll_frame h.2 below⟩

theorem turns_nil (opened : List Pair) : Turns opened opened [] := ⟨by simp [Mode.after], rfl⟩

theorem turnsFrom_cons {mode : Mode} {before after : List Pair} {c : Char} {text : List Char} :
    TurnsFrom mode before after (c :: text) ↔
      ∃ middle, nestAll before (mode.completes c) = some middle ∧
        TurnsFrom (mode.next c) middle after text := by
  unfold TurnsFrom
  rw [piecesFrom, nestAll_append, Option.bind_eq_some_iff]
  constructor
  · rintro ⟨hescape, middle, hmiddle, hafter⟩
    exact ⟨middle, hmiddle, hescape, hafter⟩
  · rintro ⟨middle, hmiddle, hescape, hafter⟩
    exact ⟨hescape, middle, hmiddle, hafter⟩

theorem TurnsFrom.append {mode : Mode} {before middle after : List Pair} {front back : List Char}
    (hfront : TurnsFrom mode before middle front) (hback : Turns middle after back)
    (ends : (mode.after front).EndsBefore back) : TurnsFrom mode before after (front ++ back) := by
  refine ⟨?_, ?_⟩
  · intro hescape
    rw [after_append] at hescape
    exact hback.1 (ends.after_eq_escape hescape)
  · rw [piecesFrom_append ends, nestAll_append, hfront.2]
    exact hback.2

/-- A text that closes all it opens, whatever it stands in. -/
abbrev Nested (text : List Char) : Prop := Turns [] [] text

theorem Nested.turns {text : List Char} (h : Nested text) (opened : List Pair) :
    Turns opened opened text := h.frame opened

theorem starts_of_head? {text : List Char} {c : Char} (h : text.head? = some c)
    (hc : ¬ c.isAlpha) : ∀ c ∈ text.head?, ¬ c.isAlpha := by
  intro d hd
  obtain rfl := Option.some.inj (h.symm.trans hd)
  exact hc

theorem TurnsFrom.append_of_starts {mode : Mode} {before middle after : List Pair}
    {front back : List Char} (hfront : TurnsFrom mode before middle front)
    (hback : Turns middle after back) (starts : ∀ c ∈ back.head?, ¬ c.isAlpha) :
    TurnsFrom mode before after (front ++ back) :=
  hfront.append hback (.inr ⟨hfront.1, starts⟩)

theorem TurnsFrom.append_of_settled {mode : Mode} {before middle after : List Pair}
    {front back : List Char} (hfront : TurnsFrom mode before middle front)
    (hback : Turns middle after back) (settled : mode.after front = .between) :
    TurnsFrom mode before after (front ++ back) :=
  hfront.append hback (.inl settled)

end AsciiMath.Tex
