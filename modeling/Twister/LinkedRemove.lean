import Twister.LinkedHeap

/-! Removal from a singly linked list behind a searched predecessor, and what is left
of a list when the wrong block is released or a link is not set. -/
namespace Twister

namespace Chain
variable {α : Type} {h h' : Heap (Node α)} {p q r : Option ℕ} {xs ys : List (ℕ × α)}

/-- Two chains of one length from the same pointer end at the same pointer. -/
lemma end_unique (hx : Chain h p xs q) (hy : Chain h p ys r) (hl : xs.length = ys.length) :
    q = r := by
  induction xs generalizing p ys with
  | nil =>
    obtain rfl := List.eq_nil_of_length_eq_zero hl.symm
    exact hx.symm.trans hy
  | cons x xs ih =>
    cases ys with
    | nil => simp at hl
    | cons y ys =>
      obtain ⟨-, n, ht, ht'⟩ := head_unique hx hy
      exact ih ht ht' (by simpa using hl)

/-- Once a block of a list is dead, no list starts at its root. -/
lemma broken {a : ℕ} {v : α} {pre rest : List (ℕ × α)}
    (hc : Chain h p (pre ++ (a, v) :: rest) q) (he : ∀ x ∈ pre, h'.cell x.1 = h.cell x.1)
    (hdead : h'.cell a = none) : ¬ ∃ zs, Chain h' p zs none := by
  rintro ⟨zs, hz⟩
  induction pre generalizing p zs with
  | nil =>
    obtain ⟨rfl, -⟩ := hc
    cases zs with
    | nil => cases hz
    | cons z zs =>
      obtain ⟨hp, n, hn, -⟩ := hz
      obtain rfl : a = z.1 := by simpa using hp
      rw [hdead] at hn
      cases hn
  | cons x pre ih =>
    obtain ⟨rfl, n, hn, ht⟩ := hc
    cases zs with
    | nil => cases hz
    | cons z zs =>
      obtain ⟨hp, n', hn', ht'⟩ := hz
      have ha : x.1 = z.1 := by simpa using hp
      rw [← ha, he x (by simp), hn] at hn'
      have hv : x.2 = z.2 ∧ n = n' := by simpa using hn'
      exact ih ht (fun y hy => he y (by simp [hy])) zs (hv.2 ▸ ht')

/-- The link of the last block decides where the chain ends. -/
lemma set_last {a : ℕ} {v : α} (hc : Chain (h.write a ⟨v, none⟩) p (xs ++ [(a, v)]) none)
    (n : Option ℕ) : Chain (h.write a ⟨v, n⟩) p (xs ++ [(a, v)]) n := by
  have hnd := hc.nodup
  rw [List.map_append, List.nodup_append] at hnd
  obtain ⟨r, h1, hr, -⟩ := append.mp hc
  refine append.mpr ⟨r, h1.frame fun x hx => ?_, hr, n, by simp, rfl⟩
  have hne : x.1 ≠ a := hnd.2.2 x.1 (List.mem_map_of_mem hx) a (by simp)
  rw [Heap.write_cell_ne _ _ hne, Heap.write_cell_ne _ _ hne]

lemma head_ne {a : ℕ} {v : α} (hc : Chain h p ((a, v) :: xs) none) : ∀ x ∈ xs, x.1 ≠ a := by
  have hnd := hc.nodup
  rw [List.map_cons, List.nodup_cons] at hnd
  exact fun x hx he => hnd.1 (List.mem_map.mpr ⟨x, hx, he⟩)

/-- What a walk meets at a block: the way on, and enough fuel for it. -/
lemma walk {a fuel : ℕ} {v : α} (hc : Chain h p ((a, v) :: xs) none)
    (hf : ((a, v) :: xs).length < fuel) :
    p = some a ∧ ∃ n k, h.cell a = some ⟨v, n⟩ ∧ Chain h n xs none ∧ (∀ x ∈ xs, x.1 ≠ a) ∧
      fuel = k + 1 ∧ xs.length < k := by
  have hne := hc.head_ne
  obtain ⟨hp, n, ha, ht⟩ := hc
  rw [List.length_cons] at hf
  exact ⟨hp, n, fuel - 1, ha, ht, hne, by omega, by omega⟩

/-- Addresses are distinct, so dropping the block at `a` drops one entry. -/
lemma filter_ne {a : ℕ} {v : α} {pre post : List (ℕ × α)}
    (hc : Chain h p (pre ++ (a, v) :: post) none) :
    (pre ++ (a, v) :: post).filter (fun x => x.1 ≠ a) = pre ++ post := by
  have hnd := hc.nodup
  simp only [List.map_append, List.map_cons, List.nodup_append, List.nodup_cons] at hnd
  have hpre : ∀ x ∈ pre, x.1 ≠ a := fun x hx =>
    hnd.2.2 x.1 (List.mem_map_of_mem hx) a (by simp)
  have hpost : ∀ x ∈ post, x.1 ≠ a := fun x hx he =>
    hnd.2.1.1 (List.mem_map.mpr ⟨x, hx, he⟩)
  simp only [List.filter_append, ne_eq, decide_not, decide_true, Bool.not_true,
    Bool.false_eq_true, not_false_eq_true, List.filter_cons_of_neg]
  rw [List.filter_eq_self.mpr (by simpa using hpre), List.filter_eq_self.mpr (by simpa using hpost)]

/-- A new value in a block, its link kept. -/
lemma set_val {a : ℕ} {v : α} {n : Option ℕ} {pre post : List (ℕ × α)}
    (hc : Chain h p (pre ++ (a, v) :: post) none) (ha : h.cell a = some ⟨v, n⟩) (w : α) :
    Chain (h.write a ⟨w, n⟩) p (pre ++ (a, w) :: post) none := by
  have hnd := hc.nodup
  rw [List.map_append, List.nodup_append] at hnd
  obtain ⟨r, h1, h2⟩ := append.mp hc
  have hpost := h2.head_ne
  obtain ⟨hr, m, hm, h3⟩ := h2
  obtain rfl : m = n := by simpa using hm.symm.trans ha
  refine append.mpr ⟨r, h1.write_of_notMem _ fun x hx => ?_, hr, m, by simp,
    h3.write_of_notMem _ hpost⟩
  exact hnd.2.2 x.1 (List.mem_map_of_mem hx) a (by simp)

/-- Unlinking releases the unlinked block only. -/
lemma cut_dead_iff {a b : ℕ} {v : α} {n : Option ℕ} {m : Node α} (ha : h.cell a = some m)
    (hab : a ≠ b) (x : ℕ) :
    ((h.write a ⟨v, n⟩).release b).cell x = none ↔ h.cell x = none ∨ x = b := by
  by_cases hxb : x = b
  · simp [hxb, Heap.release]
  by_cases hxa : x = a
  · subst hxa
    simp [Heap.release_cell_ne _ hab, ha, hxb]
  · simp [Heap.release_cell_ne _ hxb, Heap.write_cell_ne _ _ hxa, hxb]

end Chain

section Search
variable {α : Type} {h : Heap (Node α)} {p : Option ℕ} {xs : List (ℕ × α)}

/-- `while (ptr->next != target) { if (ptr->next == NULL) return -1; ptr = ptr->next; }` -/
def findPrev (h : Heap (Node α)) (target : Option ℕ) : ℕ → ℕ → Outcome (Option ℕ)
  | 0, _ => .timeout
  | fuel + 1, a => do
    let node ← h.load (some a)
    if node.next = target then .ret (some a)
    else match node.next with
      | none => .ret none
      | some b => findPrev h target fuel b

lemma findPrev_found {fuel a b l : ℕ} {v w : α} {pre rest : List (ℕ × α)}
    (hc : Chain h (some a) (pre ++ (l, w) :: (b, v) :: rest) none) (hf : pre.length < fuel) :
    findPrev h (some b) fuel a = .ret (some l) := by
  induction pre generalizing a fuel with
  | nil =>
    obtain ⟨ha, n, hn, hb, -⟩ := hc
    obtain ⟨fuel, rfl⟩ := Nat.exists_eq_add_of_lt hf
    obtain rfl : a = l := by simpa using ha
    simp [findPrev, Heap.load_some hn, hb]
  | cons x pre ih =>
    have hnd := hc.nodup
    obtain ⟨ha, n, hn, ht⟩ := hc
    obtain ⟨fuel, rfl⟩ : ∃ k, fuel = k + 1 := ⟨fuel - 1, by omega⟩
    obtain rfl : a = x.1 := by simpa using ha
    -- the successor is in front of the target, so it is neither null nor the target
    obtain ⟨c, rfl, hcb⟩ : ∃ c, n = some c ∧ c ≠ b := by
      cases pre with
      | nil =>
        refine ⟨l, ht.1, fun he => ?_⟩
        simp [he] at hnd
      | cons y pre =>
        refine ⟨y.1, ht.1, fun he => ?_⟩
        simp [he] at hnd
    have hne : ¬ (some c = some b) := fun he => hcb (Option.some.inj he)
    simp only [findPrev, Heap.load_some hn, Outcome.ret_bind, if_neg hne]
    exact ih ht (by simpa using hf)

lemma findPrev_absent {fuel a b : ℕ} {v : α} (hc : Chain h (some a) ((a, v) :: xs) none)
    (hb : ∀ x ∈ xs, x.1 ≠ b) (hf : xs.length < fuel) :
    findPrev h (some b) fuel a = .ret none := by
  induction xs generalizing a v fuel with
  | nil =>
    obtain ⟨-, n, hn, rfl⟩ := hc
    obtain ⟨fuel, rfl⟩ := Nat.exists_eq_add_of_lt hf
    simp [findPrev, Heap.load_some hn]
  | cons x xs ih =>
    obtain ⟨-, n, hn, ht⟩ := hc
    obtain ⟨fuel, rfl⟩ : ∃ k, fuel = k + 1 := ⟨fuel - 1, by omega⟩
    obtain rfl : n = some x.1 := ht.1
    have hne : ¬ (some x.1 = some b) := fun he => hb x (by simp) (Option.some.inj he)
    simp only [findPrev, Heap.load_some hn, Outcome.ret_bind, if_neg hne]
    exact ih ht (fun y hy => hb y (by simp [hy])) (by simpa using hf)

/-- The null pointer is found behind the last block. -/
lemma findPrev_null {fuel a l : ℕ} {w : α} {pre : List (ℕ × α)}
    (hc : Chain h (some a) (pre ++ [(l, w)]) none) (hf : pre.length < fuel) :
    findPrev h none fuel a = .ret (some l) := by
  induction pre generalizing a fuel with
  | nil =>
    obtain ⟨ha, n, hn, rfl⟩ := hc
    obtain ⟨fuel, rfl⟩ := Nat.exists_eq_add_of_lt hf
    obtain rfl : a = l := by simpa using ha
    simp [findPrev, Heap.load_some hn]
  | cons x pre ih =>
    obtain ⟨ha, n, hn, ht⟩ := hc
    obtain ⟨fuel, rfl⟩ : ∃ k, fuel = k + 1 := ⟨fuel - 1, by omega⟩
    obtain rfl : a = x.1 := by simpa using ha
    cases n with
    | none => cases pre <;> simp [Chain] at ht
    | some b =>
      simp only [findPrev, Heap.load_some hn, Outcome.ret_bind]
      exact ih ht (by simpa using hf)

/-- The search for a block that is in the list but not at its head. -/
lemma findPrev_behind {a l : ℕ} {v w : α} {pre rest : List (ℕ × α)}
    (hc : Chain h p (pre ++ (l, w) :: (a, v) :: rest) none) :
    ∃ first, p = some first ∧ first ≠ a ∧ l ≠ a ∧
      findPrev h (some a) (h.top + 1) first = .ret (some l) := by
  have hlen := hc.length_le_top
  have hnd := hc.nodup
  obtain ⟨first, rfl, hne⟩ : ∃ first, p = some first ∧ first ≠ a := by
    cases pre with
    | nil =>
      refine ⟨l, hc.1, fun he => ?_⟩
      simp [he] at hnd
    | cons y pre =>
      refine ⟨y.1, hc.1, fun he => ?_⟩
      simp [he] at hnd
  have hla : l ≠ a := by
    rintro rfl
    simp [List.nodup_append] at hnd
  refine ⟨first, rfl, hne, hla, findPrev_found hc ?_⟩
  simp only [List.length_append] at hlen
  omega

lemma findPrev_missing {a first : ℕ} (hc : Chain h (some first) xs none)
    (ha : ∀ x ∈ xs, x.1 ≠ a) :
    first ≠ a ∧ findPrev h (some a) (h.top + 1) first = .ret none := by
  cases xs with
  | nil => cases hc
  | cons x xs =>
    have hlen := hc.length_le_top
    obtain rfl : first = x.1 := Option.some.inj hc.1
    refine ⟨ha x (by simp), findPrev_absent hc (fun y hy => ha y (by simp [hy])) ?_⟩
    simp only [List.length_cons] at hlen
    omega

/-- The list at `p` runs into the released block `d`. -/
structure Severed (h : Heap (Node α)) (p : Option ℕ) (front : List (ℕ × α)) (d : ℕ) : Prop where
  chain : Chain h p front (some d)
  dead : h.cell d = none
  length_le : front.length ≤ h.top

lemma Severed.write {front : List (ℕ × α)} {a d : ℕ} (hs : Severed h p front d)
    (ha : ∀ x ∈ front, x.1 ≠ a) (hd : d ≠ a) (b : Node α) : Severed (h.write a b) p front d where
  chain := hs.chain.write_of_notMem b ha
  dead := by rw [Heap.write_cell_ne h b hd, hs.dead]
  length_le := hs.length_le.trans (le_max_left _ _)

/-- Releasing a block in the middle severs the list there and leaves what is behind. -/
lemma Chain.sever {l : ℕ} {w : α} {pre rest : List (ℕ × α)}
    (hc : Chain h p (pre ++ (l, w) :: rest) none) {m n : Option ℕ}
    (hl : h.cell l = some ⟨w, m⟩) :
    Severed ((h.write l ⟨w, n⟩).release l) p pre l ∧
      Chain ((h.write l ⟨w, n⟩).release l) m rest none ∧
      ∀ x ∈ rest, (∀ y ∈ pre, y.1 ≠ x.1) ∧ l ≠ x.1 := by
  have hlen := hc.length_le_top
  have hnd := hc.nodup
  rw [List.map_append, List.nodup_append] at hnd
  have hpre : ∀ y ∈ pre, ∀ x ∈ (l, w) :: rest, y.1 ≠ x.1 := fun y hy x hx =>
    hnd.2.2 y.1 (List.mem_map_of_mem hy) x.1 (List.mem_map_of_mem hx)
  obtain ⟨r, hfront, hback⟩ := append.mp hc
  have hne := hback.head_ne
  obtain ⟨rfl, k, hk, ht⟩ := hback
  obtain rfl : k = m := by simpa using hk.symm.trans hl
  have hfl : ∀ y ∈ pre, y.1 ≠ l := fun y hy => hpre y hy (l, w) (by simp)
  refine ⟨⟨(hfront.write_of_notMem _ hfl).release_of_notMem hfl, by simp [Heap.release], ?_⟩,
    (ht.write_of_notMem _ hne).release_of_notMem hne, fun x hx => ⟨fun y hy => ?_, ?_⟩⟩
  · refine le_trans ?_ (le_max_left h.top (l + 1))
    simp only [List.length_append] at hlen
    omega
  · exact hpre y hy x (by simp [hx])
  · exact (hne x hx).symm

lemma findPrev_dead {front : List (ℕ × α)} {fuel a d first : ℕ}
    (hc : Chain h (some first) front (some d)) (hdead : h.cell d = none)
    (ha : ∀ x ∈ front, x.1 ≠ a) (hd : d ≠ a) (hf : front.length < fuel) :
    findPrev h (some a) fuel first = .fault := by
  induction front generalizing first fuel with
  | nil =>
    obtain ⟨fuel, rfl⟩ := Nat.exists_eq_add_of_lt hf
    obtain rfl : first = d := Option.some.inj hc
    simp [findPrev, Heap.load, hdead]
  | cons x front ih =>
    obtain ⟨hx, n, hn, ht⟩ := hc
    obtain ⟨fuel, rfl⟩ : ∃ k, fuel = k + 1 := ⟨fuel - 1, by omega⟩
    obtain rfl : first = x.1 := Option.some.inj hx
    obtain ⟨c, rfl, hca⟩ : ∃ c, n = some c ∧ c ≠ a := by
      cases front with
      | nil => exact ⟨d, ht, hd⟩
      | cons y front => exact ⟨y.1, ht.1, ha y (by simp)⟩
    have hne : ¬ (some c = some a) := fun he => hca (Option.some.inj he)
    simp only [findPrev, Heap.load_some hn, Outcome.ret_bind, if_neg hne]
    exact ih ht (fun y hy => ha y (by simp [hy])) (by simpa using hf)

/-- The search for another block in a severed list touches the released one. -/
lemma Severed.findPrev_fault {front : List (ℕ × α)} {a d : ℕ} (hs : Severed h p front d)
    (ha : ∀ x ∈ front, x.1 ≠ a) (hd : d ≠ a) :
    ∃ first, p = some first ∧ first ≠ a ∧
      findPrev h (some a) (h.top + 1) first = .fault := by
  obtain ⟨first, rfl, hne⟩ : ∃ first, p = some first ∧ first ≠ a := by
    cases front with
    | nil => exact ⟨d, hs.chain, hd⟩
    | cons y front => exact ⟨y.1, hs.chain.1, ha y (by simp)⟩
  exact ⟨first, rfl, hne,
    findPrev_dead hs.chain hs.dead ha hd (Nat.lt_succ_of_le hs.length_le)⟩

/-- A block is not in the list, at its head, or behind another block. -/
lemma position (a : ℕ) (xs : List (ℕ × α)) :
    (∀ x ∈ xs, x.1 ≠ a) ∨ (∃ v post, xs = (a, v) :: post) ∨
      ∃ pre l w v post, xs = pre ++ (l, w) :: (a, v) :: post := by
  by_cases hx : ∃ x ∈ xs, x.1 = a
  · obtain ⟨⟨b, v⟩, hmem, rfl⟩ := hx
    obtain ⟨pre, post, rfl⟩ := List.append_of_mem hmem
    rcases List.eq_nil_or_concat pre with rfl | ⟨pre, ⟨l, w⟩, rfl⟩
    · exact Or.inr (Or.inl ⟨v, post, rfl⟩)
    · exact Or.inr (Or.inr ⟨pre, l, w, v, post, by simp⟩)
  · exact Or.inl fun x hx' he => hx ⟨x, hx', he⟩

/-- The list at the root consists of these blocks, in order. -/
def Holds (h : Heap (Node α)) (p : Option ℕ) (as : List ℕ) : Prop :=
  ∃ xs, Chain h p xs none ∧ xs.map Prod.fst = as

lemma holds_nil : Holds h p [] ↔ p = none := by
  constructor
  · rintro ⟨xs, hc, hx⟩
    obtain rfl := List.map_eq_nil_iff.mp hx
    exact hc
  · rintro rfl
    exact ⟨[], rfl, rfl⟩

end Search

section Append
variable {α : Type} {h : Heap (Node α)} {p : Option ℕ} {xs : List (ℕ × α)}

/-- `pushBack` with the fields of the new block filled in by `fill`; its link stays what
the allocator left. The null pointer of a failed allocation is dereferenced. -/
def pushFilled (fill : α → α) (h : Heap (Node α)) (root : Option ℕ) (mem : Malloc (Node α)) :
    Outcome (Heap (Node α) × Option ℕ × Option ℕ) := do
  let (heap, root, ptr) ← pushBack h root mem
  let node ← heap.load ptr
  let heap ← heap.store ptr ⟨fill node.val, node.next⟩
  .ret (heap, root, ptr)

lemma pushFilled_none (fill : α → α) {mem : Malloc (Node α)} (hc : Chain h p xs none)
    (hm : mem.pick h = none) : pushFilled fill h p mem = .fault := by
  obtain ⟨h', hpush, -⟩ := pushBack_none hc hm
  simp [pushFilled, hpush, Heap.load]

lemma pushFilled_some (fill : α → α) {a : ℕ} {junk : Node α} {mem : Malloc (Node α)}
    (hc : Chain h p xs none) (hm : mem.pick h = some (a, junk)) :
    ∃ h' p', pushFilled fill h p mem = .ret (h', p', some a) ∧
      Chain h' p' (xs ++ [(a, fill junk.val)]) junk.next := by
  obtain ⟨h', p', hpush, hcell, hchain⟩ := pushBack_some hc hm
  refine ⟨h'.write a ⟨fill junk.val, junk.next⟩, p', ?_, (hchain _).set_last _⟩
  simp [pushFilled, hpush, Heap.load_some hcell, Heap.store_some _ hcell]

lemma pushFilled_block {fill : α → α} {a : ℕ} {junk : Node α} {mem : Malloc (Node α)}
    {h' : Heap (Node α)} {p' ptr : Option ℕ} (hm : mem.pick h = some (a, junk))
    (hpush : pushFilled fill h p mem = .ret (h', p', ptr)) :
    ptr = some a ∧ h'.cell a = some ⟨fill junk.val, junk.next⟩ := by
  obtain ⟨⟨h₁, p₁, ptr₁⟩, hback, hpush⟩ := Outcome.bind_eq_ret.mp hpush
  obtain ⟨rfl, hcell⟩ := pushBack_block hm hback
  simp only [Heap.load_some hcell, Heap.store_some _ hcell, Outcome.ret_bind] at hpush
  obtain ⟨rfl, -, rfl⟩ : _ = h' ∧ p₁ = p' ∧ some a = ptr := by simpa using hpush
  exact ⟨rfl, Heap.write_cell_self _ _ _⟩

/-- The caller may go on to change the value of the new block. -/
lemma pushFilled_write (fill : α → α) {a : ℕ} {junk : Node α} {mem : Malloc (Node α)}
    (hc : Chain h p xs none) (hm : mem.pick h = some (a, junk)) :
    ∃ h' p', pushFilled fill h p mem = .ret (h', p', some a) ∧
      h'.cell a = some ⟨fill junk.val, junk.next⟩ ∧
      ∀ v, Chain (h'.write a ⟨v, junk.next⟩) p' (xs ++ [(a, v)]) junk.next := by
  obtain ⟨h', p', hpush, hcell, hchain⟩ := pushBack_some hc hm
  refine ⟨h'.write a ⟨fill junk.val, junk.next⟩, p', ?_, Heap.write_cell_self _ _ _, fun v => ?_⟩
  · simp [pushFilled, hpush, Heap.load_some hcell, Heap.store_some _ hcell]
  · exact ((hchain v).set_last junk.next).frame fun x _ => by simp [Heap.write]

/-- The new block ends the list exactly when its link was null. -/
lemma pushFilled_holds_iff {as : List ℕ} {mem : Malloc (Node α)} (fill : α → α)
    (hh : Holds h p as) :
    (∃ h' p' ptr, pushFilled fill h p mem = .ret (h', p', ptr) ∧
        Holds h' p' (as ++ ptr.toList)) ↔
      ∃ a junk, mem.pick h = some (a, junk) ∧ junk.next = none := by
  obtain ⟨xs, hc, rfl⟩ := hh
  cases hm : mem.pick h with
  | none => simp [pushFilled_none fill hc hm]
  | some block =>
    obtain ⟨a, junk⟩ := block
    obtain ⟨h', p', hpush, hc'⟩ := pushFilled_some fill hc hm
    constructor
    · rintro ⟨k, r, ptr, hpush', zs, hz, hmap⟩
      obtain ⟨rfl, rfl, rfl⟩ : h' = k ∧ p' = r ∧ some a = ptr := by simpa [hpush] using hpush'
      refine ⟨a, junk, rfl, hc'.end_unique hz ?_⟩
      simpa using (congrArg List.length hmap).symm
    · rintro ⟨b, junk', hb, hn⟩
      obtain ⟨rfl, rfl⟩ : a = b ∧ junk = junk' := by simpa using hb
      exact ⟨h', p', some a, hpush, _, hn ▸ hc', by simp⟩

end Append
end Twister
