import Twister.LinkedHeap

/-! A singly linked list with a pointer to its last block: blocks are hung behind the last
one and taken off at the root. -/
namespace Twister

section Window
variable {α : Type} {xs : List α} {x : α} {k : ℕ}

/-- A window that is not full yet grows. -/
lemma rtake_snoc_of_lt (h : xs.length < k) : (xs ++ [x]).rtake k = xs.rtake k ++ [x] := by
  have hshort : xs.length - k = 0 := by omega
  have hfull : (xs ++ [x]).length - k = 0 := by simp; omega
  rw [List.rtake, List.rtake, hshort, hfull, List.drop_zero, List.drop_zero]

/-- A full window drops its first element. -/
lemma rtake_snoc_of_le (hk : 0 < k) (h : k ≤ xs.length) :
    (xs ++ [x]).rtake k = (xs.rtake k).tail ++ [x] := by
  obtain ⟨j, rfl⟩ : ∃ j, k = j + 1 := ⟨k - 1, by omega⟩
  have hdrop : xs.length - j = xs.length - (j + 1) + 1 := by omega
  rw [List.rtake_concat_succ, List.rtake, List.rtake, hdrop, List.tail_drop]

lemma rtake_length (xs : List α) (k : ℕ) : (xs.rtake k).length = min xs.length k := by
  rw [List.rtake, List.length_drop]
  omega

lemma map_rtake {β : Type} (g : α → β) (xs : List α) (k : ℕ) :
    (xs.rtake k).map g = (xs.map g).rtake k := by
  rw [List.rtake, List.rtake, List.map_drop, List.length_map]

end Window

variable {α : Type} {h : Heap (Node α)} {root last : Option ℕ} {xs : List (ℕ × α)}

/-- The list at `root` ends with the block at `last`. Both are null when it is empty. -/
structure LinkedQueue (h : Heap (Node α)) (root last : Option ℕ) (xs : List (ℕ × α)) : Prop where
  chain : Chain h root xs none
  last_eq : last = (xs.map Prod.fst).getLast?

/-- `last->next = entry` -/
def linkBehind (h : Heap (Node α)) (last : Option ℕ) (entry : ℕ) : Outcome (Heap (Node α)) := do
  let node ← h.load last
  h.store last ⟨node.val, some entry⟩

namespace LinkedQueue

lemma singleton (h : Heap (Node α)) (a : ℕ) (v : α) :
    LinkedQueue (h.write a ⟨v, none⟩) (some a) (some a) [(a, v)] where
  chain := ⟨rfl, none, Heap.write_cell_self h a _, rfl⟩
  last_eq := rfl

lemma fresh_ne (hq : LinkedQueue h root last xs) {a : ℕ} (ha : h.cell a = none) :
    ∀ x ∈ xs, x.1 ≠ a := hq.chain.fresh_ne ha

/-- A new block is hung behind the last one. No block outside the list changes. -/
lemma linkBehind_ret (hq : LinkedQueue h root last xs) (hne : xs ≠ []) {a : ℕ}
    (ha : h.cell a = none) (v : α) :
    ∃ h', linkBehind (h.write a ⟨v, none⟩) last a = .ret h' ∧
      LinkedQueue h' root (some a) (xs ++ [(a, v)]) ∧
      ∀ b, (∀ x ∈ xs ++ [(a, v)], x.1 ≠ b) → h'.cell b = h.cell b := by
  rcases List.eq_nil_or_concat xs with rfl | ⟨pre, ⟨l, w⟩, rfl⟩
  · exact absurd rfl hne
  rw [List.concat_eq_append] at hq ⊢
  have hlast : last = some l := by simpa using hq.last_eq
  have hla : l ≠ a := hq.fresh_ne ha (l, w) (by simp)
  obtain ⟨r, -, -, n, hn, rfl⟩ := Chain.append.mp hq.chain
  have hl : (h.write a ⟨v, none⟩).cell l = some ⟨w, none⟩ := by
    rw [Heap.write_cell_ne _ _ hla, hn]
  refine ⟨(h.write a ⟨v, none⟩).write l ⟨w, some a⟩, ?_, ⟨?_, by simp⟩, ?_⟩
  · rw [linkBehind, hlast, Heap.load_some hl, Outcome.ret_bind, Heap.store_some _ hl]
  · rw [List.append_assoc]
    refine (hq.chain.snoc ha (v := v)).frame fun x _ => ?_
    by_cases hxl : x.1 = l
    · rw [hxl, Heap.write_cell_self, Heap.write_cell_ne _ _ hla, Heap.write_cell_self]
    · rw [Heap.write_cell_ne _ _ hxl]
      by_cases hxa : x.1 = a
      · rw [hxa, Heap.write_cell_self, Heap.write_cell_self]
      · rw [Heap.write_cell_ne _ _ hxa, Heap.write_cell_ne _ _ hxa, Heap.write_cell_ne _ _ hxl]
  · intro b hb
    have hbl : l ≠ b := hb (l, w) (by simp)
    have hba : a ≠ b := hb (a, v) (by simp)
    rw [Heap.write_cell_ne _ _ hbl.symm, Heap.write_cell_ne _ _ hba.symm]

/-- The first block is released; what is left starts at its successor. -/
lemma release_first {b : ℕ} {w : α} {rest : List (ℕ × α)}
    (hq : LinkedQueue h root last ((b, w) :: rest)) (hne : rest ≠ []) :
    root = some b ∧ ∃ n, h.cell b = some ⟨w, n⟩ ∧ LinkedQueue (h.release b) n last rest := by
  obtain ⟨hroot, n, hn, -⟩ := hq.chain
  refine ⟨hroot, n, hn, hq.chain.tail hn, ?_⟩
  obtain ⟨x, rest, rfl⟩ := List.exists_cons_of_ne_nil hne
  rw [hq.last_eq]
  simp

end LinkedQueue
end Twister
