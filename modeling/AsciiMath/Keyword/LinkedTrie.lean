import AsciiMath.Keyword.Trie

/-!
# Tries of numbered nodes

A trie can be kept as a row of nodes that name each other by number. Each node has one slot for
every character of the alphabet, with the number of the node behind that character if there is one,
and the first node is the root. Nothing in such a row keeps a number from being out of range, so
each look at a node or a slot is checked, and a look that fails is a fault.
-/

namespace AsciiMath

/-- What is not there where a trie is looked at. -/
inductive IndexFault where
  | character (character : Char)
  | node (index : Nat)
  | slot (index : Nat)
deriving DecidableEq, Repr

structure TrieNode (α : Type) where
  children : Array (Option Nat)
  value : Option α
deriving DecidableEq, Repr

namespace TrieNode

variable {α : Type}

def empty (width : Nat) : TrieNode α := ⟨.replicate width none, none⟩

def child (node : TrieNode α) (slot : Nat) : Except IndexFault (Option Nat) :=
  match node.children[slot]? with
  | some child => .ok child
  | none => .error (.slot slot)

end TrieNode

/-- The slot of a character is its place in the alphabet. -/
structure LinkedTrie (α : Type) where
  alphabet : List Char
  nodes : Array (TrieNode α)
deriving DecidableEq, Repr

namespace LinkedTrie

variable {α : Type}

/-- The root alone. -/
def empty (alphabet : List Char) : LinkedTrie α := ⟨alphabet, #[.empty alphabet.length]⟩

/-- An alphabet with one more character, unless it is there already. -/
def enter (alphabet : List Char) (c : Char) : List Char :=
  if c ∈ alphabet then alphabet else alphabet ++ [c]

/-- Each entry names one character, and repeated entries count once. -/
def ofAlphabet (entries : List String) : Except AlphabetError (LinkedTrie α) := do
  let alphabet := (← entries.mapM Trie.onlyChar).foldl enter []
  if alphabet.isEmpty then .error .empty
  return empty alphabet

def alphabetSize (trie : LinkedTrie α) : Nat := trie.alphabet.length

def containsChar (trie : LinkedTrie α) (c : Char) : Bool := c ∈ trie.alphabet

def slot? (trie : LinkedTrie α) (c : Char) : Option Nat := trie.alphabet.idxOf? c

def node (trie : LinkedTrie α) (index : Nat) : Except IndexFault (TrieNode α) :=
  match trie.nodes[index]? with
  | some node => .ok node
  | none => .error (.node index)

def child (trie : LinkedTrie α) (index slot : Nat) : Except IndexFault (Option Nat) := do
  (← trie.node index).child slot

/-- The node behind a character, which need not be in the alphabet. -/
def follow (trie : LinkedTrie α) (index : Nat) (c : Char) : Except IndexFault (Option Nat) :=
  match trie.slot? c with
  | some slot => trie.child index slot
  | none => .ok none

/-- One more node at the end of the row, whose number the parent has in the given slot. -/
def link (trie : LinkedTrie α) (index slot : Nat) (parent : TrieNode α) : LinkedTrie α :=
  let children := parent.children.setIfInBounds slot (some trie.nodes.size)
  let nodes := trie.nodes.push (.empty trie.alphabet.length)
  { trie with nodes := nodes.setIfInBounds index { parent with children } }

def grow (trie : LinkedTrie α) (index slot : Nat) : Except IndexFault (LinkedTrie α) := do
  let parent ← trie.node index
  let _ ← parent.child slot
  return trie.link index slot parent

/-- The node at the end of a path, with the trie after nodes have been added where the path has
none. -/
def reach (trie : LinkedTrie α) (index : Nat) :
    List Char → Except IndexFault (LinkedTrie α × Nat)
  | [] => .ok (trie, index)
  | c :: cs =>
    match trie.slot? c with
    | none => .error (.character c)
    | some slot => do
      match ← trie.child index slot with
      | some child => trie.reach child cs
      | none => (← trie.grow index slot).reach trie.nodes.size cs

def store (trie : LinkedTrie α) (index : Nat) (node : TrieNode α) (value : α) : LinkedTrie α :=
  { trie with nodes := trie.nodes.setIfInBounds index { node with value := some value } }

/-- The value that a node had before, with the trie in which it has the new one. -/
def replace (trie : LinkedTrie α) (index : Nat) (value : α) :
    Except IndexFault (Option α × LinkedTrie α) := do
  let node ← trie.node index
  return (node.value, trie.store index node value)

/-- The value that the key had before or the reason to refuse the key, with the trie after that. -/
def insert (trie : LinkedTrie α) (key : String) (value : α) :
    Except IndexFault (Except AlphabetError (Option α) × LinkedTrie α) :=
  match key.toList.find? fun c => !trie.containsChar c with
  | some c => .ok (.error (.outside c key), trie)
  | none => do
    let (grown, index) ← trie.reach 0 key.toList
    let (held, stored) ← grown.replace index value
    return (.ok held, stored)

def getFrom (trie : LinkedTrie α) (index : Nat) : List Char → Except IndexFault (Option α)
  | [] => (·.value) <$> trie.node index
  | c :: cs => do
    match ← trie.follow index c with
    | some child => trie.getFrom child cs
    | none => return none

def get? (trie : LinkedTrie α) (key : String) : Except IndexFault (Option α) :=
  trie.getFrom 0 key.toList

/-- The longest key below a node, where the given one is the longest so far. -/
def longestFrom (trie : LinkedTrie α) (index length : Nat) (best : Option (Nat × α)) :
    List Char → Except IndexFault (Option (Nat × α))
  | [] => .ok best
  | c :: cs => do
    match ← trie.follow index c with
    | some child =>
      let length := length + c.utf8Size
      let longer := (← trie.node child).value.map (length, ·)
      trie.longestFrom child length (longer.or best) cs
    | none => return best

/-- The longest key that starts the text, with its length in bytes. -/
def longest? (trie : LinkedTrie α) (text : List Char) : Except IndexFault (Option (Nat × α)) := do
  let root ← trie.node 0
  trie.longestFrom 0 0 (root.value.map (0, ·)) text

def startsKeyword (trie : LinkedTrie α) (text : List Char) : Except IndexFault Bool := do
  match ← trie.longest? text with
  | some (length, _) => return 0 < length
  | none => return false

/-- The trie after all entries have been inserted, if none of them is refused. -/
def insertEntries (trie : LinkedTrie α) :
    List (String × α) → Except IndexFault (Except AlphabetError (LinkedTrie α))
  | [] => .ok (.ok trie)
  | (key, value) :: entries => do
    match ← trie.insert key value with
    | (.ok _, stored) => stored.insertEntries entries
    | (.error cause, _) => return .error cause

/-- The space and the characters of the keys. -/
def alphabetOf (entries : List (String × α)) : List String :=
  " " :: entries.flatMap fun entry => entry.1.toList.map (·.toString)

/-- Of two entries with one key, the later one counts. -/
def ofEntries (entries : List (String × α)) :
    Except IndexFault (Except AlphabetError (LinkedTrie α)) :=
  match ofAlphabet (alphabetOf entries) with
  | .ok start => start.insertEntries entries
  | .error cause => .ok (.error cause)

end LinkedTrie

end AsciiMath
