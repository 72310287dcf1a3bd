import AsciiMath.Proofs.Keyword.Linked

/-!
# Inserts into linked tries

A trie stays well linked where a node is added or a value is stored. A new node holds no value, so
no key has another value after it, and since different keys end at different nodes a value that is
stored is the value of one key alone.
-/

namespace AsciiMath

variable {α : Type}

namespace LinkedTrie

section Link

variable {trie : LinkedTrie α} {index slot : Nat} {parent : TrieNode α}

theorem size_link : (trie.link index slot parent).nodes.size = trie.nodes.size + 1 := by
  simp [link]

theorem getElem?_link (hindex : index < trie.nodes.size) (i : Nat) :
    (trie.link index slot parent).nodes[i]? =
      if i = index then
        some { parent with
          children := parent.children.setIfInBounds slot (some trie.nodes.size) }
      else if i = trie.nodes.size then some (.empty trie.alphabet.length)
      else trie.nodes[i]? := by
  simp only [link, Array.getElem?_setIfInBounds, Array.getElem?_push, Array.size_push]
  by_cases here : i = index
  · rw [if_pos here.symm, if_pos (Nat.lt_succ_of_lt hindex), if_pos here]
  · rw [if_neg fun same ↦ here same.symm, if_neg here]

theorem linked_link (hnode : trie.nodes[index]? = some parent)
    (within : slot < parent.children.size) (i s : Nat) :
    (trie.link index slot parent).linked i s =
      if i = index ∧ s = slot then some trie.nodes.size else trie.linked i s := by
  have hindex := (Array.getElem?_eq_some_iff.1 hnode).1
  rw [linked, getElem?_link hindex]
  split
  · next here =>
    subst here
    rw [Option.bind_some, Array.getElem?_setIfInBounds, linked, hnode, Option.bind_some]
    by_cases same : s = slot
    · subst same
      rw [if_pos rfl, if_pos within, if_pos ⟨rfl, rfl⟩]
      rfl
    · rw [if_neg fun h ↦ same h.symm, if_neg fun h ↦ same h.2]
  · next elsewhere =>
    rw [if_neg fun h : i = index ∧ s = slot ↦ elsewhere h.1]
    split
    · next new =>
      rw [linked_of_size_le (Nat.le_of_eq new.symm), Option.bind_some, TrieNode.empty,
        Array.getElem?_replicate]
      split <;> rfl
    · rfl

theorem valueAt_link (hnode : trie.nodes[index]? = some parent) (i : Nat) :
    (trie.link index slot parent).valueAt i = trie.valueAt i := by
  have hindex := (Array.getElem?_eq_some_iff.1 hnode).1
  rw [valueAt, getElem?_link hindex]
  split
  · next here =>
    subst here
    rw [valueAt, hnode]
    rfl
  · split
    · next new =>
      rw [valueAt_of_size_le (Nat.le_of_eq new.symm)]
      rfl
    · rfl

end Link

/-- What a trie is after one more node has been added behind the given slot. -/
structure Grown (trie : LinkedTrie α) (index slot : Nat) (grown : LinkedTrie α) : Prop where
  alphabet : grown.alphabet = trie.alphabet
  linked : ∀ i s, grown.linked i s =
    if i = index ∧ s = slot then some trie.nodes.size else trie.linked i s
  valueAt : ∀ i, grown.valueAt i = trie.valueAt i
  well : grown.WellLinked

namespace WellLinked

variable {trie : LinkedTrie α} (well : trie.WellLinked)

include well

/-- Only the new link leads to the new node. -/
theorem link_well {index slot : Nat} {parent : TrieNode α}
    (hnode : trie.nodes[index]? = some parent) (within : slot < parent.children.size) :
    (trie.link index slot parent).WellLinked := by
  have hindex := (Array.getElem?_eq_some_iff.1 hnode).1
  have hlinked := linked_link hnode within
  have old {i s child : Nat} (h : trie.linked i s = some child) : child ≠ trie.nodes.size :=
    Nat.ne_of_lt (well.forward i s child h).2
  refine ⟨?_, fun i node hi ↦ ?_, fun i s child hchild ↦ ?_, fun i s i' s' child h h' ↦ ?_⟩
  · rw [size_link]
    exact Nat.succ_pos _
  · rw [getElem?_link hindex] at hi
    split at hi
    · obtain rfl := Option.some.inj hi
      simpa [link] using well.width index parent hnode
    · split at hi
      · obtain rfl := Option.some.inj hi
        simp [TrieNode.empty, link]
      · exact well.width i node hi
  · rw [size_link]
    rw [hlinked] at hchild
    split at hchild
    · next here =>
      obtain rfl := Option.some.inj hchild
      exact ⟨here.1 ▸ hindex, Nat.lt_succ_self _⟩
    · have forward := well.forward i s child hchild
      exact ⟨forward.1, Nat.lt_succ_of_lt forward.2⟩
  · rw [hlinked] at h h'
    split at h
    · next here =>
      obtain rfl := Option.some.inj h
      split at h'
      · next there => exact ⟨here.1.trans there.1.symm, here.2.trans there.2.symm⟩
      · exact absurd rfl (old h')
    · split at h'
      · obtain rfl := Option.some.inj h'
        exact absurd rfl (old h)
      · exact well.unshared i s i' s' child h h'

theorem exists_grown {index slot : Nat} (hindex : index < trie.nodes.size)
    (hslot : slot < trie.alphabet.length) :
    ∃ grown, trie.grow index slot = .ok grown ∧ Grown trie index slot grown := by
  obtain ⟨parent, hparent, hnode⟩ := exists_node hindex
  have within : slot < parent.children.size := by rwa [well.width index parent hnode]
  refine ⟨trie.link index slot parent, ?_, rfl, linked_link hnode within, valueAt_link hnode,
    well.link_well hnode within⟩
  rw [grow, hparent]
  change (do let _ ← parent.child slot; return trie.link index slot parent) = _
  rw [TrieNode.child_of_lt within]
  rfl

end WellLinked

namespace Grown

variable {trie grown : LinkedTrie α} {index slot : Nat} (h : Grown trie index slot grown)

include h

theorem after_eq (i : Nat) (c : Char) : grown.after i c =
    if i = index ∧ trie.slot? c = some slot then some trie.nodes.size else trie.after i c := by
  have same : grown.slot? c = trie.slot? c := by rw [slot?, slot?, h.alphabet]
  rw [after, after, same]
  cases hslot : trie.slot? c with
  | none => simp
  | some s => simp [h.linked]

theorem after_size (c : Char) (hindex : index < trie.nodes.size) :
    grown.after trie.nodes.size c = none := by
  rw [h.after_eq, if_neg fun at_index ↦ Nat.ne_of_gt hindex at_index.1, after]
  cases trie.slot? c with
  | none => rfl
  | some s => exact linked_of_size_le (Nat.le_refl _) s

/-- A path ends where it did, or where it ended nowhere it may end at the new node. -/
theorem walk_eq (free : trie.linked index slot = none) (hindex : index < trie.nodes.size)
    (i : Nat) (path : List Char) : grown.walk i path = trie.walk i path ∨
      trie.walk i path = none ∧ grown.walk i path = some trie.nodes.size := by
  induction path generalizing i with
  | nil => exact .inl rfl
  | cons c cs ih =>
    rw [walk_cons, walk_cons, h.after_eq]
    split
    · next taken =>
      obtain ⟨rfl, hslot⟩ := taken
      have blocked : trie.after i c = none := by rw [after, hslot, Option.bind_some, free]
      rw [blocked, Option.bind_some, Option.bind_none]
      cases cs with
      | nil => exact .inr ⟨rfl, rfl⟩
      | cons d ds =>
        rw [walk_cons, h.after_size d hindex]
        exact .inl rfl
    · cases trie.after i c with
      | none => exact .inl rfl
      | some child => exact ih child

/-- No key has another value. -/
theorem held_eq (free : trie.linked index slot = none) (hindex : index < trie.nodes.size) :
    grown.held = trie.held := by
  funext key
  rw [held, held, funext h.valueAt]
  rcases h.walk_eq free hindex 0 key with same | ⟨none, new⟩
  · rw [same]
  · rw [none, new, Option.bind_none, Option.bind_some]
    exact valueAt_of_size_le (Nat.le_refl _)

end Grown

/-- A path of known characters can be grown to its end, and no key gets or loses a value by it. -/
theorem WellLinked.exists_reach {trie : LinkedTrie α} (well : trie.WellLinked) {index : Nat}
    {front path : List Char} (place : trie.walk 0 front = some index)
    (known : ∀ c ∈ path, c ∈ trie.alphabet) :
    ∃ grown node, trie.reach index path = .ok (grown, node) ∧ grown.WellLinked ∧
      grown.alphabet = trie.alphabet ∧ grown.held = trie.held ∧
      grown.walk 0 (front ++ path) = some node := by
  induction path generalizing trie index front with
  | nil => exact ⟨trie, index, rfl, well, rfl, rfl, by rwa [List.append_nil]⟩
  | cons c cs ih =>
    obtain ⟨first, others⟩ := List.forall_mem_cons.1 known
    obtain ⟨slot, hslot⟩ := exists_slot? first
    have hindex := well.walk_lt well.root place
    have hafter : trie.after index c = trie.linked index slot := by
      rw [after, hslot, Option.bind_some]
    rw [reach, hslot, List.append_cons]
    dsimp only
    rw [well.child_eq hindex (slot?_lt hslot)]
    cases hchild : trie.linked index slot with
    | some child =>
      refine ih well ?_ others
      rw [walk_concat, place, Option.bind_some, hafter, hchild]
    | none =>
      obtain ⟨grown, hgrow, h⟩ := well.exists_grown hindex (slot?_lt hslot)
      have further : grown.walk 0 (front ++ [c]) = some trie.nodes.size := by
        have front_place : grown.walk 0 front = some index := by
          rcases h.walk_eq hchild hindex 0 front with same | ⟨nowhere, -⟩
          · rw [same, place]
          · cases nowhere.symm.trans place
        rw [walk_concat, front_place, Option.bind_some, h.after_eq, if_pos ⟨rfl, hslot⟩]
      obtain ⟨last, node, hreach, hwell, halphabet, hheld, hwalk⟩ :=
        ih h.well further (by rwa [h.alphabet])
      refine ⟨last, node, ?_, hwell, halphabet.trans h.alphabet,
        hheld.trans (h.held_eq hchild hindex), hwalk⟩
      change (do (← trie.grow index slot).reach trie.nodes.size cs) = _
      rw [hgrow]
      exact hreach

section Store

variable {trie : LinkedTrie α} {index : Nat} {node : TrieNode α} (value : α)
  (hnode : trie.nodes[index]? = some node)

include hnode

theorem getElem?_store (i : Nat) : (trie.store index node value).nodes[i]? =
    if i = index then some { node with value := some value } else trie.nodes[i]? := by
  have hindex := (Array.getElem?_eq_some_iff.1 hnode).1
  rw [store, Array.getElem?_setIfInBounds]
  by_cases here : i = index
  · rw [if_pos here.symm, if_pos hindex, if_pos here]
  · rw [if_neg fun same ↦ here same.symm, if_neg here]

theorem linked_store : (trie.store index node value).linked = trie.linked := by
  funext i s
  rw [linked, getElem?_store value hnode]
  split
  · next here =>
    subst here
    rw [linked, hnode]
    rfl
  · rfl

theorem valueAt_store (i : Nat) : (trie.store index node value).valueAt i =
    if i = index then some value else trie.valueAt i := by
  rw [valueAt, getElem?_store value hnode]
  split <;> rfl

theorem walk_store : (trie.store index node value).walk = trie.walk := by
  have hafter : (trie.store index node value).after = trie.after := by
    funext i c
    rw [after, linked_store value hnode]
    rfl
  funext i path
  rw [walk, hafter, walk]

theorem WellLinked.store_well (well : trie.WellLinked) :
    (trie.store index node value).WellLinked := by
  have hlinked := linked_store value hnode
  have size : (trie.store index node value).nodes.size = trie.nodes.size :=
    Array.size_setIfInBounds
  refine ⟨by rw [size]; exact well.root, fun i other hi ↦ ?_, ?_, ?_⟩
  · rw [getElem?_store value hnode] at hi
    split at hi
    · obtain rfl := Option.some.inj hi
      exact well.width index node hnode
    · exact well.width i other hi
  · rw [hlinked, size]
    exact well.forward
  · rw [hlinked]
    exact well.unshared

/-- Only the key that ends at the node has another value. -/
theorem held_store (well : trie.WellLinked) {key : List Char}
    (place : trie.walk 0 key = some index) (other : List Char) :
    (trie.store index node value).held other =
      if other = key then some value else trie.held other := by
  rw [held, walk_store value hnode, held]
  cases hwalk : trie.walk 0 other with
  | none =>
    rw [if_neg]
    · rfl
    · rintro rfl
      cases hwalk.symm.trans place
  | some last =>
    rw [Option.bind_some, Option.bind_some, valueAt_store value hnode]
    have same : last = index ↔ other = key := by
      constructor
      · rintro rfl
        exact well.walk_inj hwalk place
      · rintro rfl
        exact Option.some.inj (hwalk.symm.trans place)
    simp only [same]

end Store

theorem insert_refused {trie : LinkedTrie α} {key : String} {c : Char}
    (h : key.toList.find? (fun c ↦ !trie.containsChar c) = some c) (value : α) :
    trie.insert key value = .ok (.error (.outside c key), trie) := by
  rw [insert, h]

theorem WellLinked.exists_insert {trie : LinkedTrie α} (well : trie.WellLinked) {key : String}
    (known : ∀ c ∈ key.toList, c ∈ trie.alphabet) (value : α) :
    ∃ stored, trie.insert key value = .ok (.ok (trie.held key.toList), stored) ∧
      stored.WellLinked ∧ stored.alphabet = trie.alphabet ∧
      ∀ other, stored.held other =
        if other = key.toList then some value else trie.held other := by
  obtain ⟨grown, index, hreach, hwell, halphabet, hheld, hwalk⟩ :=
    well.exists_reach (walk_nil trie 0) known
  obtain ⟨node, hnode, hnodes⟩ := exists_node (hwell.walk_lt hwell.root hwalk)
  have allowed : key.toList.find? (fun c ↦ !trie.containsChar c) = none := by
    rw [List.find?_eq_none]
    intro c hc
    simp [containsChar, known c hc]
  have hvalue : node.value = trie.held key.toList := by
    rw [← hheld, held, ← List.nil_append key.toList, hwalk, Option.bind_some, valueAt, hnodes]
    rfl
  refine ⟨grown.store index node value, ?_, hwell.store_well value hnodes, halphabet,
    fun other ↦ ?_⟩
  · rw [insert, allowed, ← hvalue]
    simp only [hreach, replace, hnode, bind, Except.bind]
    rfl
  · rw [held_store value hnodes hwell hwalk, hheld, List.nil_append]

end LinkedTrie

end AsciiMath
