import AsciiMath.Keyword.LinkedTrie
import AsciiMath.Proofs.Keyword.Longest
import Mathlib.Data.List.Induction

/-!
# Well-linked tries

In a trie that is well linked all nodes have a slot for each character, all links lead forward to
nodes that are there, and no two of them to the same node. So nothing is out of range on a walk,
different keys end at different nodes, and a look-up finds the value at the node where its key ends.
-/

namespace AsciiMath

variable {α : Type}

theorem TrieNode.child_of_lt {node : TrieNode α} {slot : Nat} (h : slot < node.children.size) :
    node.child slot = .ok node.children[slot] := by
  rw [child, Array.getElem?_eq_getElem h]

namespace LinkedTrie

/-- The number in a slot of a node, if all of these are there. -/
def linked (trie : LinkedTrie α) (index slot : Nat) : Option Nat :=
  (trie.nodes[index]?.bind (·.children[slot]?)).join

def valueAt (trie : LinkedTrie α) (index : Nat) : Option α := trie.nodes[index]?.bind (·.value)

structure WellLinked (trie : LinkedTrie α) : Prop where
  root : 0 < trie.nodes.size
  width : ∀ (index : Nat) (node : TrieNode α), trie.nodes[index]? = some node →
    node.children.size = trie.alphabet.length
  forward : ∀ index slot child, trie.linked index slot = some child →
    index < child ∧ child < trie.nodes.size
  unshared : ∀ index slot index' slot' child, trie.linked index slot = some child →
    trie.linked index' slot' = some child → index = index' ∧ slot = slot'

/-- The node behind a character. -/
def after (trie : LinkedTrie α) (index : Nat) (c : Char) : Option Nat :=
  (trie.slot? c).bind (trie.linked index)

/-- The node at the end of a path. -/
def walk (trie : LinkedTrie α) (index : Nat) (path : List Char) : Option Nat :=
  path.foldlM trie.after index

/-- The value at the end of the path from the root that spells a key. -/
def held (trie : LinkedTrie α) (key : List Char) : Option α := (trie.walk 0 key).bind trie.valueAt

@[simp] theorem walk_nil (trie : LinkedTrie α) (index : Nat) : trie.walk index [] = some index :=
  rfl

theorem walk_cons (trie : LinkedTrie α) (index : Nat) (c : Char) (cs : List Char) :
    trie.walk index (c :: cs) = (trie.after index c).bind (trie.walk · cs) := List.foldlM_cons

theorem walk_append (trie : LinkedTrie α) (index : Nat) (front back : List Char) :
    trie.walk index (front ++ back) = (trie.walk index front).bind (trie.walk · back) :=
  List.foldlM_append

theorem walk_concat (trie : LinkedTrie α) (index : Nat) (front : List Char) (c : Char) :
    trie.walk index (front ++ [c]) = (trie.walk index front).bind (trie.after · c) := by
  rw [walk_append]
  congr 1
  funext child
  rw [walk_cons]
  exact Option.bind_fun_some _

theorem slot?_eq_some {trie : LinkedTrie α} {c : Char} {slot : Nat}
    (h : trie.slot? c = some slot) : trie.alphabet[slot]? = some c := by
  obtain ⟨within, hc, -⟩ := List.idxOf?_eq_some_iff.1 h
  rw [List.getElem?_eq_getElem within, hc]

theorem slot?_lt {trie : LinkedTrie α} {c : Char} {slot : Nat} (h : trie.slot? c = some slot) :
    slot < trie.alphabet.length := (List.getElem?_eq_some_iff.1 (slot?_eq_some h)).1

theorem exists_slot? {trie : LinkedTrie α} {c : Char} (h : c ∈ trie.alphabet) :
    ∃ slot, trie.slot? c = some slot := by
  rw [← Option.isSome_iff_exists, ← Option.ne_none_iff_isSome]
  exact fun none ↦ List.idxOf?_eq_none_iff.1 none h

theorem linked_of_size_le {trie : LinkedTrie α} {index : Nat} (h : trie.nodes.size ≤ index)
    (slot : Nat) : trie.linked index slot = none := by
  simp [linked, Array.getElem?_eq_none h]

theorem valueAt_of_size_le {trie : LinkedTrie α} {index : Nat} (h : trie.nodes.size ≤ index) :
    trie.valueAt index = none := by
  simp [valueAt, Array.getElem?_eq_none h]

theorem exists_node {trie : LinkedTrie α} {index : Nat} (h : index < trie.nodes.size) :
    ∃ node, trie.node index = .ok node ∧ trie.nodes[index]? = some node := by
  have hnode := Array.getElem?_eq_getElem h
  exact ⟨trie.nodes[index], by rw [node, hnode], hnode⟩

theorem value_node {trie : LinkedTrie α} {index : Nat} (h : index < trie.nodes.size) :
    (·.value) <$> trie.node index = .ok (trie.valueAt index) := by
  obtain ⟨node, hnode, hnodes⟩ := exists_node h
  rw [hnode, valueAt, hnodes]
  rfl

namespace WellLinked

variable {trie : LinkedTrie α} (well : trie.WellLinked)

include well

theorem child_eq {index slot : Nat} (hindex : index < trie.nodes.size)
    (hslot : slot < trie.alphabet.length) :
    trie.child index slot = .ok (trie.linked index slot) := by
  obtain ⟨node, hnode, hnodes⟩ := exists_node hindex
  have within : slot < node.children.size := by rwa [well.width index node hnodes]
  rw [child, hnode, linked, hnodes, Option.bind_some, Array.getElem?_eq_getElem within]
  exact TrieNode.child_of_lt within

theorem follow_eq {index : Nat} (hindex : index < trie.nodes.size) (c : Char) :
    trie.follow index c = .ok (trie.after index c) := by
  unfold follow after
  cases hslot : trie.slot? c with
  | none => rfl
  | some slot => exact well.child_eq hindex (slot?_lt hslot)

theorem after_forward {index child : Nat} {c : Char} (h : trie.after index c = some child) :
    index < child ∧ child < trie.nodes.size := by
  obtain ⟨slot, -, hlinked⟩ := Option.bind_eq_some_iff.1 h
  exact well.forward index slot child hlinked

theorem after_inj {index index' child : Nat} {c c' : Char} (h : trie.after index c = some child)
    (h' : trie.after index' c' = some child) : index = index' ∧ c = c' := by
  obtain ⟨slot, hslot, hlinked⟩ := Option.bind_eq_some_iff.1 h
  obtain ⟨slot', hslot', hlinked'⟩ := Option.bind_eq_some_iff.1 h'
  obtain ⟨rfl, rfl⟩ := well.unshared _ _ _ _ _ hlinked hlinked'
  exact ⟨rfl, Option.some.inj ((slot?_eq_some hslot).symm.trans (slot?_eq_some hslot'))⟩

theorem walk_lt {index node : Nat} {path : List Char} (hindex : index < trie.nodes.size)
    (h : trie.walk index path = some node) : node < trie.nodes.size := by
  induction path generalizing index with
  | nil =>
    obtain rfl := Option.some.inj h
    exact hindex
  | cons c cs ih =>
    rw [walk_cons] at h
    obtain ⟨child, hchild, hwalk⟩ := Option.bind_eq_some_iff.1 h
    exact ih (well.after_forward hchild).2 hwalk

/-- Different keys end at different nodes. -/
theorem walk_inj {key key' : List Char} {node : Nat} (h : trie.walk 0 key = some node)
    (h' : trie.walk 0 key' = some node) : key = key' := by
  -- From the end of the keys: one link alone leads to the node, and none leads to the root.
  induction key using List.reverseRecOn generalizing key' node with
  | nil =>
    obtain rfl := Option.some.inj h
    rcases List.eq_nil_or_concat key' with rfl | ⟨front', c', rfl⟩
    · rfl
    · rw [List.concat_eq_append, walk_concat] at h'
      obtain ⟨index', -, hafter'⟩ := Option.bind_eq_some_iff.1 h'
      exact absurd (well.after_forward hafter').1 (Nat.not_lt_zero index')
  | append_singleton front c ih =>
    rw [walk_concat] at h
    obtain ⟨index, hindex, hafter⟩ := Option.bind_eq_some_iff.1 h
    rcases List.eq_nil_or_concat key' with rfl | ⟨front', c', rfl⟩
    · obtain rfl := Option.some.inj h'
      exact absurd (well.after_forward hafter).1 (Nat.not_lt_zero index)
    · rw [List.concat_eq_append, walk_concat] at h'
      obtain ⟨index', hindex', hafter'⟩ := Option.bind_eq_some_iff.1 h'
      obtain ⟨rfl, rfl⟩ := well.after_inj hafter hafter'
      rw [ih hindex hindex', List.concat_eq_append]

theorem getFrom_eq {index : Nat} (hindex : index < trie.nodes.size) (key : List Char) :
    trie.getFrom index key = .ok ((trie.walk index key).bind trie.valueAt) := by
  induction key generalizing index with
  | nil => exact value_node hindex
  | cons c cs ih =>
    rw [getFrom, well.follow_eq hindex, walk_cons]
    cases hchild : trie.after index c with
    | none => rfl
    | some child => exact ih (well.after_forward hchild).2

theorem get?_eq (key : String) : trie.get? key = .ok (trie.held key.toList) :=
  well.getFrom_eq well.root key.toList

theorem longestFrom_isLongestKey {index : Nat} {front : List Char} {best : Option (Nat × α)}
    (place : trie.walk 0 front = some index) (longest : IsLongestKey trie.held front best)
    (back : List Char) :
    ∃ found, trie.longestFrom index (Text.byteLength front) best back = .ok found ∧
      IsLongestKey trie.held (front ++ back) found := by
  have hindex := well.walk_lt well.root place
  induction back generalizing index front best with
  | nil => exact ⟨best, rfl, by rwa [List.append_nil]⟩
  | cons c cs ih =>
    rw [longestFrom, well.follow_eq hindex]
    cases hchild : trie.after index c with
    | none =>
      refine ⟨best, rfl, longest.append fun d ds more ↦ ?_⟩
      obtain ⟨rfl, -⟩ := List.cons_prefix_cons.1 more
      rw [held, walk_append, place, Option.bind_some, walk_cons, hchild]
      rfl
    | some child =>
      have hchildren := (well.after_forward hchild).2
      have further : trie.walk 0 (front ++ [c]) = some child := by
        rw [walk_concat, place, Option.bind_some, hchild]
      obtain ⟨node, hnode, hnodes⟩ := exists_node hchildren
      have hheld : trie.held (front ++ [c]) = node.value := by
        rw [held, further, Option.bind_some, valueAt, hnodes, Option.bind_some]
      have step := longest.concat c
      rw [hheld] at step
      have rest := ih further step hchildren
      have next : (do
          let node ← trie.node child
          trie.longestFrom child (Text.byteLength front + c.utf8Size)
            ((node.value.map (Text.byteLength front + c.utf8Size, ·)).or best) cs) =
          trie.longestFrom child (Text.byteLength (front ++ [c]))
            ((node.value.map (Text.byteLength (front ++ [c]), ·)).or best) cs := by
        rw [hnode, Text.byteLength_append]
        rfl
      rw [List.append_assoc, ← next] at rest
      exact rest

theorem longest?_isLongestKey (text : List Char) :
    ∃ found, trie.longest? text = .ok found ∧ IsLongestKey trie.held text found := by
  obtain ⟨node, hnode, hnodes⟩ := exists_node well.root
  have hheld : trie.held [] = node.value := by
    rw [held, walk_nil, Option.bind_some, valueAt, hnodes, Option.bind_some]
  have start : IsLongestKey trie.held [] ((trie.held []).map (0, ·)) := .nil
  rw [hheld] at start
  rw [longest?, hnode]
  exact well.longestFrom_isLongestKey (walk_nil trie 0) start text

end WellLinked

end LinkedTrie

end AsciiMath
