import Twister.Outcome

/-! Singly linked lists in an explicit heap. Blocks are released one by one and
touching a block that is not live is a fault, so a list that is walked, extended
or cut in place has to be shown live at every access. -/
namespace Twister

/-- Finitely many live blocks: nothing lives at or above `top`. -/
structure Heap (β : Type) where
  cell : ℕ → Option β
  top : ℕ
  dead_above : ∀ a, top ≤ a → cell a = none

/-- A block of a singly linked list. The null pointer is `none`. -/
structure Node (α : Type) where
  val : α
  next : Option ℕ
  deriving DecidableEq, Repr

/-- One call of an allocator that does not clear memory: a block that is not
live, with whatever it holds, or the null pointer. -/
structure Malloc (β : Type) where
  pick : Heap β → Option (ℕ × β)
  fresh : ∀ h a b, pick h = some (a, b) → h.cell a = none

def Malloc.bump {β : Type} (junk : β) : Malloc β where
  pick h := some (h.top, junk)
  fresh h a b hp := by
    obtain ⟨rfl, -⟩ : h.top = a ∧ junk = b := by simpa using hp
    exact h.dead_above h.top le_rfl

def Malloc.exhausted {β : Type} : Malloc β where
  pick _ := none
  fresh h a b hp := by cases hp

/-- The block at `a` handed out again, with what it last held. -/
def Malloc.reuse {β : Type} (a : ℕ) (junk : β) : Malloc β where
  pick h := if (h.cell a).isNone then some (a, junk) else none
  fresh h b c hp := by
    obtain ⟨hn, heq⟩ := Option.ite_none_right_eq_some.mp hp
    obtain ⟨rfl, -⟩ : a = b ∧ junk = c := by simpa using heq
    exact Option.isNone_iff_eq_none.mp hn

namespace Heap
variable {α β : Type}

def empty : Heap β := ⟨fun _ => none, 0, fun _ _ => rfl⟩

def write (h : Heap β) (a : ℕ) (b : β) : Heap β where
  cell := Function.update h.cell a (some b)
  top := max h.top (a + 1)
  dead_above := by
    intro x hx
    have hne : x ≠ a := by omega
    rw [Function.update_of_ne hne]
    exact h.dead_above x (by omega)

def release (h : Heap β) (a : ℕ) : Heap β where
  cell := Function.update h.cell a none
  top := h.top
  dead_above := by
    intro x hx
    by_cases hne : x = a
    · simp [hne]
    · rw [Function.update_of_ne hne]
      exact h.dead_above x hx

@[simp] lemma write_cell_self (h : Heap β) (a : ℕ) (b : β) :
    (h.write a b).cell a = some b := by simp [write]
lemma write_cell_ne (h : Heap β) {a x : ℕ} (b : β) (hx : x ≠ a) :
    (h.write a b).cell x = h.cell x := by simp [write, hx]
lemma release_cell_ne (h : Heap β) {a x : ℕ} (hx : x ≠ a) :
    (h.release a).cell x = h.cell x := by simp [release, hx]

def load (h : Heap β) : Option ℕ → Outcome β
  | none => .fault
  | some a => match h.cell a with
    | none => .fault
    | some b => .ret b

def store (h : Heap β) (p : Option ℕ) (b : β) : Outcome (Heap β) :=
  match p with
  | none => .fault
  | some a => match h.cell a with
    | none => .fault
    | some _ => .ret (h.write a b)

/-- Releasing the null pointer does nothing, releasing a dead block faults. -/
def free (h : Heap β) : Option ℕ → Outcome (Heap β)
  | none => .ret h
  | some a => match h.cell a with
    | none => .fault
    | some _ => .ret (h.release a)

lemma load_some {h : Heap β} {a : ℕ} {b : β} (hc : h.cell a = some b) :
    h.load (some a) = .ret b := by simp [load, hc]
lemma store_some {h : Heap β} {a : ℕ} {b : β} (c : β) (hc : h.cell a = some b) :
    h.store (some a) c = .ret (h.write a c) := by simp [store, hc]
lemma free_some {h : Heap β} {a : ℕ} {b : β} (hc : h.cell a = some b) :
    h.free (some a) = .ret (h.release a) := by simp [free, hc]

lemma load_eq_ret {h : Heap β} {a : ℕ} {b : β} :
    h.load (some a) = .ret b ↔ h.cell a = some b := by
  cases hc : h.cell a <;> simp [load, hc]

lemma lt_top (h : Heap β) {a : ℕ} {b : β} (hc : h.cell a = some b) : a < h.top := by
  refine Nat.lt_of_not_le fun hle => ?_
  rw [h.dead_above a hle] at hc
  cases hc

end Heap

/-- Addresses and values met on the way from `p` to `q`. -/
def Chain {α : Type} (h : Heap (Node α)) : Option ℕ → List (ℕ × α) → Option ℕ → Prop
  | p, [], q => p = q
  | p, (a, v) :: xs, q => p = some a ∧ ∃ n, h.cell a = some ⟨v, n⟩ ∧ Chain h n xs q

namespace Chain
variable {α : Type} {h h' : Heap (Node α)} {p q r : Option ℕ} {xs ys : List (ℕ × α)}

lemma append : Chain h p (xs ++ ys) q ↔ ∃ r, Chain h p xs r ∧ Chain h r ys q := by
  induction xs generalizing p with
  | nil => simp [Chain]
  | cons x xs ih =>
    simp only [List.cons_append, Chain, ih]
    constructor
    · rintro ⟨hp, n, hn, r, h1, h2⟩
      exact ⟨r, ⟨hp, n, hn, h1⟩, h2⟩
    · rintro ⟨r, ⟨hp, n, hn, h1⟩, h2⟩
      exact ⟨hp, n, hn, r, h1, h2⟩

/-- A chain only depends on the blocks it visits. -/
lemma frame (hc : Chain h p xs q) (he : ∀ x ∈ xs, h'.cell x.1 = h.cell x.1) :
    Chain h' p xs q := by
  induction xs generalizing p with
  | nil => exact hc
  | cons x xs ih =>
    obtain ⟨hp, n, hn, ht⟩ := hc
    refine ⟨hp, n, ?_, ih ht fun y hy => he y (by simp [hy])⟩
    rw [he x (by simp), hn]

lemma live (hc : Chain h p xs q) {x : ℕ × α} (hx : x ∈ xs) :
    ∃ n, h.cell x.1 = some ⟨x.2, n⟩ := by
  induction xs generalizing p with
  | nil => simp at hx
  | cons y ys ih =>
    obtain ⟨_, n, hn, ht⟩ := hc
    rcases List.mem_cons.mp hx with rfl | hx
    · exact ⟨n, hn⟩
    · exact ih ht hx

/-- Two chains from one pointer start with the same block and go on from the same pointer. -/
lemma head_unique {x y : ℕ × α} (hx : Chain h p (x :: xs) q) (hy : Chain h p (y :: ys) r) :
    x = y ∧ ∃ n, Chain h n xs q ∧ Chain h n ys r := by
  obtain ⟨hp, n, hn, ht⟩ := hx
  obtain ⟨hp', n', hn', ht'⟩ := hy
  have ha : x.1 = y.1 := by simpa [hp] using hp'
  rw [← ha, hn] at hn'
  have hv : x.2 = y.2 ∧ n = n' := by simpa using hn'
  exact ⟨Prod.ext ha hv.1, n, ht, hv.2 ▸ ht'⟩

lemma unique (hx : Chain h p xs none) (hy : Chain h p ys none) : xs = ys := by
  induction xs generalizing p ys with
  | nil =>
    cases ys with
    | nil => rfl
    | cons y ys => obtain ⟨hp, _⟩ := hy; simp [Chain, hp] at hx
  | cons x xs ih =>
    cases ys with
    | nil => obtain ⟨hp, _⟩ := hx; simp [Chain, hp] at hy
    | cons y ys =>
      obtain ⟨rfl, n, ht, ht'⟩ := head_unique hx hy
      rw [ih ht ht']

/-- Null termination excludes a cycle. -/
lemma nodup (hc : Chain h p xs none) : (xs.map Prod.fst).Nodup := by
  induction xs generalizing p with
  | nil => simp
  | cons x xs ih =>
    obtain ⟨hp, n, hn, ht⟩ := hc
    simp only [List.map_cons, List.nodup_cons]
    refine ⟨?_, ih ht⟩
    intro hm
    obtain ⟨y, hy, hxy⟩ := List.mem_map.mp hm
    -- a repeated address makes the chain a proper suffix of itself
    obtain ⟨pre, post, rfl⟩ := List.append_of_mem hy
    obtain ⟨r, h1, h2⟩ := append.mp ht
    have hr : r = some x.1 := by rw [h2.1, ← hxy]
    have hself : Chain h r (x :: (pre ++ y :: post)) none := ⟨hr, n, hn, ht⟩
    have hlen := congrArg List.length (unique h2 hself)
    simp at hlen
    omega

lemma length_le_top (hc : Chain h p xs none) : xs.length ≤ h.top := by
  have hsub : xs.map Prod.fst ⊆ List.range h.top := by
    intro a ha
    obtain ⟨x, hx, rfl⟩ := List.mem_map.mp ha
    obtain ⟨n, hn⟩ := hc.live hx
    exact List.mem_range.mpr (h.lt_top hn)
  have hle := (hc.nodup.subperm hsub).length_le
  simpa only [List.length_map, List.length_range] using hle

lemma fresh_ne (hc : Chain h p xs q) {a : ℕ} (ha : h.cell a = none) :
    ∀ x ∈ xs, x.1 ≠ a := by
  rintro x hx rfl
  obtain ⟨n, hn⟩ := hc.live hx
  simp [hn] at ha

lemma write_of_notMem (hc : Chain h p xs q) {a : ℕ} (b : Node α) (ha : ∀ x ∈ xs, x.1 ≠ a) :
    Chain (h.write a b) p xs q :=
  hc.frame fun x hx => Heap.write_cell_ne h b (ha x hx)

lemma release_of_notMem (hc : Chain h p xs q) {a : ℕ} (ha : ∀ x ∈ xs, x.1 ≠ a) :
    Chain (h.release a) p xs q :=
  hc.frame fun x hx => Heap.release_cell_ne h (ha x hx)

/-- Redirecting the successor pointer of `a` past `b` drops everything between the two. -/
lemma cut (pre : List (ℕ × α)) {a b : ℕ} {v w : α} {n : Option ℕ} {mid rest : List (ℕ × α)}
    (hc : Chain h p (pre ++ (a, v) :: (mid ++ (b, w) :: rest)) none)
    (hb : h.cell b = some ⟨w, n⟩) :
    Chain ((h.write a ⟨v, n⟩).release b) p (pre ++ (a, v) :: rest) none := by
  have hnd := hc.nodup
  simp only [List.map_append, List.map_cons, List.nodup_append, List.nodup_cons, List.mem_cons,
    List.mem_append] at hnd
  obtain ⟨-, ⟨ha, -, ⟨hbrest, -⟩, -⟩, hpre⟩ := hnd
  have hab : a ≠ b := fun he => ha (by simp [he])
  have hrest : ∀ x ∈ rest, x.1 ≠ a ∧ x.1 ≠ b := by
    intro x hx
    have hm : x.1 ∈ rest.map Prod.fst := List.mem_map_of_mem hx
    exact ⟨fun he => ha (he ▸ by simp [hm]), fun he => hbrest (he ▸ hm)⟩
  have hfront : ∀ x ∈ pre, x.1 ≠ a ∧ x.1 ≠ b := by
    intro x hx
    have hm : x.1 ∈ pre.map Prod.fst := List.mem_map_of_mem hx
    exact ⟨hpre _ hm _ (Or.inl rfl), hpre _ hm _ (Or.inr (Or.inr (Or.inl rfl)))⟩
  obtain ⟨r, h1, hr, m, _, h2⟩ := append.mp hc
  obtain ⟨s, _, _, k, hk, h3⟩ := append.mp h2
  have hkn : k = n := by simpa using hk.symm.trans hb
  refine append.mpr ⟨r, ?_, hr, n, ?_, ?_⟩
  · exact (h1.write_of_notMem _ fun x hx => (hfront x hx).1).release_of_notMem
      fun x hx => (hfront x hx).2
  · rw [Heap.release_cell_ne _ hab, Heap.write_cell_self]
  · exact ((hkn ▸ h3).write_of_notMem _ fun x hx => (hrest x hx).1).release_of_notMem
      fun x hx => (hrest x hx).2

lemma tail {b : ℕ} {w : α} {n : Option ℕ} {rest : List (ℕ × α)}
    (hc : Chain h p ((b, w) :: rest) none) (hb : h.cell b = some ⟨w, n⟩) :
    Chain (h.release b) n rest none := by
  have hnd := hc.nodup
  obtain ⟨_, k, hk, ht⟩ := hc
  have hkn : k = n := by simpa using hk.symm.trans hb
  refine (hkn ▸ ht).release_of_notMem fun x hx he => ?_
  have hm : x.1 ∈ rest.map Prod.fst := List.mem_map_of_mem hx
  exact (List.nodup_cons.mp hnd).1 (he ▸ hm)

lemma snoc {a l : ℕ} {v w : α} {pre : List (ℕ × α)}
    (hc : Chain h p (pre ++ [(l, w)]) none) (ha : h.cell a = none) :
    Chain ((h.write l ⟨w, some a⟩).write a ⟨v, none⟩) p (pre ++ [(l, w), (a, v)]) none := by
  have hne := hc.fresh_ne ha
  have hnd := hc.nodup
  have hla : l ≠ a := hne (l, w) (by simp)
  have hpl : ∀ x ∈ pre, x.1 ≠ l := by
    rintro x hx rfl
    simp only [List.map_append, List.map_cons, List.map_nil] at hnd
    have hm : x.1 ∈ pre.map Prod.fst := List.mem_map_of_mem hx
    exact List.disjoint_of_nodup_append hnd hm (by simp)
  obtain ⟨r, h1, hr, _⟩ := append.mp hc
  refine append.mpr ⟨r, ?_, hr, some a, ?_, rfl, none, ?_, rfl⟩
  · exact (h1.write_of_notMem _ hpl).write_of_notMem _ fun x hx => hne x (by simp [hx])
  · rw [Heap.write_cell_ne _ _ hla, Heap.write_cell_self]
  · rw [Heap.write_cell_self]

end Chain

section Walks
variable {α : Type} {h : Heap (Node α)} {p : Option ℕ} {xs : List (ℕ × α)}

/-- Walk until `hit` or the null pointer. A walk of more than `top` steps is on a
cycle. -/
def findNode (h : Heap (Node α)) (hit : α → Bool) : ℕ → Option ℕ → Outcome (Option ℕ)
  | 0, _ => .timeout
  | _ + 1, none => .ret none
  | fuel + 1, some a => do
    let node ← h.load (some a)
    if hit node.val then .ret (some a) else findNode h hit fuel node.next

lemma findNode_spec {fuel : ℕ} (hit : α → Bool) (hc : Chain h p xs none) (hf : xs.length < fuel) :
    findNode h hit fuel p = .ret ((xs.find? fun x => hit x.2).map Prod.fst) := by
  induction xs generalizing p fuel with
  | nil =>
    obtain ⟨fuel, rfl⟩ := Nat.exists_eq_add_of_lt hf
    obtain rfl : p = none := hc
    simp [findNode]
  | cons x xs ih =>
    obtain ⟨rfl, n, hn, ht⟩ := hc
    obtain ⟨fuel, rfl⟩ : ∃ k, fuel = k + 1 := ⟨fuel - 1, by omega⟩
    have hlt : xs.length < fuel := by simpa using hf
    simp only [findNode, Heap.load_some hn, Outcome.ret_bind, List.find?_cons]
    cases hx : hit x.2 with
    | true => simp
    | false => simpa using ih ht hlt

/-- `while (ptr->next != NULL) ptr = ptr->next;` -/
def lastNode (h : Heap (Node α)) : ℕ → ℕ → Outcome ℕ
  | 0, _ => .timeout
  | fuel + 1, a => do
    let node ← h.load (some a)
    match node.next with
    | none => .ret a
    | some b => lastNode h fuel b

lemma lastNode_spec {fuel a l : ℕ} {w : α} {pre : List (ℕ × α)}
    (hc : Chain h (some a) (pre ++ [(l, w)]) none) (hf : pre.length < fuel) :
    lastNode h fuel a = .ret l := by
  induction pre generalizing a fuel with
  | nil =>
    obtain ⟨ha, n, hn, rfl⟩ := hc
    obtain ⟨fuel, rfl⟩ := Nat.exists_eq_add_of_lt hf
    obtain rfl : a = l := by simpa using ha
    simp [lastNode, Heap.load_some hn]
  | cons x pre ih =>
    obtain ⟨ha, n, hn, ht⟩ := hc
    obtain ⟨fuel, rfl⟩ : ∃ k, fuel = k + 1 := ⟨fuel - 1, by omega⟩
    obtain rfl : a = x.1 := by simpa using ha
    cases n with
    | none => cases pre <;> simp [Chain] at ht
    | some b =>
      simp only [lastNode, Heap.load_some hn, Outcome.ret_bind]
      exact ih ht (by simp at hf; omega)

/-- Allocate a block and hang it behind the last one, or make it the root of an
empty list. Returns the heap, the root and the new block, which still holds what
the allocator left in it. A failed allocation stores the null pointer. -/
def pushBack (h : Heap (Node α)) (root : Option ℕ) (mem : Malloc (Node α)) :
    Outcome (Heap (Node α) × Option ℕ × Option ℕ) :=
  match root with
  | none =>
    match mem.pick h with
    | none => .ret (h, none, none)
    | some (a, junk) => .ret (h.write a junk, some a, some a)
  | some r => do
    let l ← lastNode h (h.top + 1) r
    let last ← h.load (some l)
    match mem.pick h with
    | none =>
      let h' ← h.store (some l) ⟨last.val, none⟩
      .ret (h', some r, none)
    | some (a, junk) =>
      let h' ← (h.write a junk).store (some l) ⟨last.val, some a⟩
      .ret (h', some r, some a)

lemma pushBack_none {mem : Malloc (Node α)} (hc : Chain h p xs none) (hm : mem.pick h = none) :
    ∃ h', pushBack h p mem = .ret (h', p, none) ∧ Chain h' p xs none := by
  have hf := hc.length_le_top
  rcases List.eq_nil_or_concat xs with rfl | ⟨pre, ⟨l, w⟩, rfl⟩
  · obtain rfl : p = none := hc
    exact ⟨h, by simp [pushBack, hm], rfl⟩
  · rw [List.concat_eq_append] at hc hf
    obtain ⟨r, rfl⟩ : ∃ r, p = some r := by cases pre <;> exact ⟨_, hc.1⟩
    have hl : lastNode h (h.top + 1) r = .ret l := lastNode_spec hc (by simp at hf; omega)
    obtain ⟨s, _, hs, n, hn, rfl⟩ := Chain.append.mp hc
    refine ⟨h.write l ⟨w, none⟩, ?_, ?_⟩
    · simp [pushBack, hl, hm, Heap.load_some hn, Heap.store_some _ hn]
    · rw [List.concat_eq_append]
      refine hc.frame fun x hx => ?_
      by_cases hxl : x.1 = l
      · rw [hxl, Heap.write_cell_self, hn]
      · exact Heap.write_cell_ne h _ hxl

/-- After the caller has filled the new block, the list is one longer. -/
lemma pushBack_some {a : ℕ} {junk : Node α} {mem : Malloc (Node α)}
    (hc : Chain h p xs none) (hm : mem.pick h = some (a, junk)) :
    ∃ h' p', pushBack h p mem = .ret (h', p', some a) ∧ h'.cell a = some junk ∧
      ∀ v, Chain (h'.write a ⟨v, none⟩) p' (xs ++ [(a, v)]) none := by
  have ha := mem.fresh _ _ _ hm
  have hf := hc.length_le_top
  rcases List.eq_nil_or_concat xs with rfl | ⟨pre, ⟨l, w⟩, rfl⟩
  · obtain rfl : p = none := hc
    exact ⟨h.write a junk, some a, by simp [pushBack, hm], by simp,
      fun v => ⟨rfl, none, by simp, rfl⟩⟩
  · rw [List.concat_eq_append] at hc hf
    obtain ⟨r, rfl⟩ : ∃ r, p = some r := by cases pre <;> exact ⟨_, hc.1⟩
    have hl : lastNode h (h.top + 1) r = .ret l := lastNode_spec hc (by simp at hf; omega)
    have hla : l ≠ a := hc.fresh_ne ha (l, w) (by simp)
    obtain ⟨s, _, hs, n, hn, rfl⟩ := Chain.append.mp hc
    have hn' : (h.write a junk).cell l = some ⟨w, none⟩ := by
      rw [Heap.write_cell_ne _ _ hla, hn]
    refine ⟨(h.write a junk).write l ⟨w, some a⟩, some r, ?_, ?_, ?_⟩
    · simp [pushBack, hl, hm, Heap.load_some hn, Heap.store_some _ hn']
    · rw [Heap.write_cell_ne _ _ hla.symm, Heap.write_cell_self]
    · intro v
      rw [List.concat_eq_append, List.append_assoc]
      refine (hc.snoc ha (v := v)).frame fun x _ => ?_
      by_cases hxa : x.1 = a
      · simp [hxa]
      · by_cases hxl : x.1 = l
        · rw [hxl, Heap.write_cell_ne _ _ hla, Heap.write_cell_self, Heap.write_cell_ne _ _ hla,
            Heap.write_cell_self]
        · simp [Heap.write, hxa, hxl]

/-- The block that was handed out is the one returned, in any list. -/
lemma pushBack_block {a : ℕ} {junk : Node α} {mem : Malloc (Node α)} {h' : Heap (Node α)}
    {p' ptr : Option ℕ} (hm : mem.pick h = some (a, junk))
    (hpush : pushBack h p mem = .ret (h', p', ptr)) : ptr = some a ∧ h'.cell a = some junk := by
  cases p with
  | none =>
    obtain ⟨rfl, -, rfl⟩ : h.write a junk = h' ∧ some a = p' ∧ some a = ptr := by
      simpa [pushBack, hm] using hpush
    exact ⟨rfl, Heap.write_cell_self _ _ _⟩
  | some r =>
    obtain ⟨l, -, hpush⟩ := Outcome.bind_eq_ret.mp hpush
    obtain ⟨last, hlast, hpush⟩ := Outcome.bind_eq_ret.mp hpush
    rw [hm] at hpush
    have hl := Heap.load_eq_ret.mp hlast
    have hla : l ≠ a := by
      rintro rfl
      rw [mem.fresh _ _ _ hm] at hl
      cases hl
    have hl' : (h.write a junk).cell l = some last := by rw [Heap.write_cell_ne _ _ hla, hl]
    simp only [Heap.store_some _ hl', Outcome.ret_bind] at hpush
    obtain ⟨rfl, -, rfl⟩ : _ = h' ∧ some r = p' ∧ some a = ptr := by simpa using hpush
    exact ⟨rfl, by rw [Heap.write_cell_ne _ _ hla.symm, Heap.write_cell_self]⟩

end Walks
end Twister
