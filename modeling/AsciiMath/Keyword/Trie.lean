import AsciiMath.Keyword.Lookup
import AsciiMath.Text.Quoted

/-!
# Keyword tries

A trie holds values under keys over a fixed alphabet. A key with a character outside the alphabet is
refused and leaves the trie as it was. Looking up the longest key at the start of a text walks one
path and needs no second look at any character.
-/

namespace AsciiMath

inductive AlphabetError where
  | empty
  | notOneCharacter (entry : String)
  | outside (character : Char) (key : String)
deriving DecidableEq, Repr

def AlphabetError.message : AlphabetError → String
  | .empty => "trie alphabet is empty"
  | .notOneCharacter entry =>
    "alphabet entry " ++ Text.quoteString entry ++ " is not a single character"
  | .outside character key =>
    "character " ++ Text.quoteChar character ++ " of key " ++ Text.quoteString key ++
      " is outside the trie alphabet"

/-- The branches below one node: the first of them, what grows below it, and the ones beside it. -/
inductive Branches (α : Type) where
  | nil
  | branch (label : Char) (value : Option α) (below beside : Branches α)
deriving DecidableEq, Repr

namespace Branches

variable {α : Type}

def get? : Branches α → Char → List Char → Option α
  | .nil, _, _ => none
  | .branch label value below beside, c, cs =>
    if label = c then
      match cs with
      | [] => value
      | d :: ds => below.get? d ds
    else
      beside.get? c cs

/-- A single path that spells a key. -/
def path (value : α) : Char → List Char → Branches α
  | c, [] => .branch c (some value) .nil .nil
  | c, d :: ds => .branch c none (path value d ds) .nil

def insert (value : α) : Branches α → Char → List Char → Branches α
  | .nil, c, cs => path value c cs
  | .branch label held below beside, c, cs =>
    if label = c then
      match cs with
      | [] => .branch label (some value) below beside
      | d :: ds => .branch label held (below.insert value d ds) beside
    else
      .branch label held below (beside.insert value c cs)

/-- The longest key that starts the text, with its length in bytes. -/
def longest? : Branches α → List Char → Option (Nat × α)
  | .nil, _ => none
  | .branch _ _ _ _, [] => none
  | .branch label value below beside, c :: cs =>
    if label = c then
      match below.longest? cs with
      | some (length, found) => some (c.utf8Size + length, found)
      | none => value.map (c.utf8Size, ·)
    else
      beside.longest? (c :: cs)

end Branches

/-- The value of the empty key stands beside the branches for all other keys. -/
structure Trie (α : Type) where
  alphabet : List Char
  root : Option α
  branches : Branches α
deriving DecidableEq, Repr

namespace Trie

variable {α : Type}

def empty (alphabet : List Char) : Trie α := ⟨alphabet, none, .nil⟩

/-- The character that an entry of an alphabet names. -/
def onlyChar (entry : String) : Except AlphabetError Char :=
  match entry.toList with
  | [c] => .ok c
  | _ => .error (.notOneCharacter entry)

/-- Each entry names one character, and repeated entries count once. -/
def ofAlphabet (entries : List String) : Except AlphabetError (Trie α) := do
  let characters ← entries.mapM onlyChar
  if characters.isEmpty then .error .empty
  return empty (characters.foldr List.insert [])

def alphabetSize (trie : Trie α) : Nat := trie.alphabet.length

def containsChar (trie : Trie α) (c : Char) : Bool := c ∈ trie.alphabet

def get? (trie : Trie α) (key : List Char) : Option α :=
  match key with
  | [] => trie.root
  | c :: cs => trie.branches.get? c cs

/-- The trie as if the key's characters were in its alphabet. -/
def put (trie : Trie α) (key : List Char) (value : α) : Trie α :=
  match key with
  | [] => { trie with root := some value }
  | c :: cs => { trie with branches := trie.branches.insert value c cs }

/-- The new trie, after the value that the key had before. -/
def insert (trie : Trie α) (key : String) (value : α) :
    Except AlphabetError (Option α × Trie α) :=
  match key.toList.find? fun c => !trie.containsChar c with
  | some c => .error (.outside c key)
  | none => .ok (trie.get? key.toList, trie.put key.toList value)

/-- The alphabet is the space and the characters of the keys; of two entries with one key, the later
one counts. -/
def ofEntries (entries : List (String × α)) : Except AlphabetError (Trie α) := do
  let start ← ofAlphabet (" " :: entries.flatMap fun entry => entry.1.toList.map (·.toString))
  entries.foldlM (fun trie entry => (·.2) <$> trie.insert entry.1 entry.2) start

def longest? (trie : Trie α) (text : List Char) : Option (Nat × α) :=
  (trie.branches.longest? text).or (trie.root.map (0, ·))

instance : KeywordMap (Trie α) α := ⟨longest?⟩

end Trie

end AsciiMath
