import Twister.EventLoop
import Twister.Run

/-! What registration and removal do to the three handle queues, call by call and
over every sequence of calls. -/
namespace Twister

section Register
variable {st : LoopState} {a : ℕ}

structure SameTx (st st' : LoopState) : Prop where
  heap : st'.tx = st.tx
  queue : st'.loop.txHandleQueue = st.loop.txHandleQueue

structure SameTimer (st st' : LoopState) : Prop where
  heap : st'.timer = st.timer
  queue : st'.loop.timerHandleQueue = st.loop.timerHandleQueue

/-- A transmit handle is registered and given its callback. -/
lemma twTxRegister {mem : Malloc (Node TwTx)} {junk : Node TwTx} {xs : List (ℕ × TwTx)}
    (hc : Chain st.tx st.loop.txHandleQueue xs none) (hm : mem.pick st.tx = some (a, junk))
    (cb : ℕ) :
    ∃ st₁ st₂ v, twTxInit mem st = .ret (some a, st₁) ∧
      twTxStart (some a) cb st₁ = .ret (0, st₂) ∧ SameTimer st st₂ ∧ v.txCb = cb ∧
      Chain st₂.tx st₂.loop.txHandleQueue (xs ++ [(a, v)]) junk.next := by
  obtain ⟨heap, root, hpush, hcell, hchain⟩ := pushFilled_write
    (fun x : TwTx => { x with handleType := twTxHandle }) hc hm
  let st₁ : LoopState := { st with
    tx := heap
    loop := { st.loop with
      txHandleQueue := root, activeHandles := st.loop.activeHandles + 1 } }
  let v : TwTx := { junk.val with handleType := twTxHandle, txCb := cb }
  refine ⟨st₁, { st₁ with tx := heap.write a ⟨v, junk.next⟩ }, v, ?_, ?_, ⟨rfl, rfl⟩, rfl, hchain v⟩
  · simp only [twTxInit, hpush, Outcome.ret_bind, st₁]
  · simp only [twTxStart, st₁, Heap.load_some hcell, Heap.store_some _ hcell, Outcome.ret_bind, v]

/-- The same for a timer handle. -/
lemma twTimerRegister {mem : Malloc (Node TwTimer)} {junk : Node TwTimer}
    {xs : List (ℕ × TwTimer)} (hc : Chain st.timer st.loop.timerHandleQueue xs none)
    (hm : mem.pick st.timer = some (a, junk)) (cb : ℕ) (timeout hz : UInt64) :
    ∃ st₁ st₂ v, twTimerInit mem st = .ret (some a, st₁) ∧
      twTimerStart (some a) cb timeout hz st₁ = .ret (0, st₂) ∧ SameTx st st₂ ∧ v.timerCb = cb ∧
      Chain st₂.timer st₂.loop.timerHandleQueue (xs ++ [(a, v)]) junk.next := by
  obtain ⟨heap, root, hpush, hcell, hchain⟩ := pushFilled_write
    (fun x : TwTimer => { x with handleType := twTimerHandle }) hc hm
  let st₁ : LoopState := { st with
    timer := heap
    loop := { st.loop with
      timerHandleQueue := root, activeHandles := st.loop.activeHandles + 1 } }
  let v : TwTimer :=
    { junk.val with handleType := twTimerHandle, timerCb := cb, timeout := timeout * (hz / 1000) }
  refine ⟨st₁, { st₁ with timer := heap.write a ⟨v, junk.next⟩ }, v, ?_, ?_, ⟨rfl, rfl⟩, rfl,
    hchain v⟩
  · simp only [twTimerInit, hpush, Outcome.ret_bind, st₁]
  · simp only [twTimerStart, st₁, Heap.load_some hcell, Heap.store_some _ hcell, Outcome.ret_bind,
      v]

end Register

section Unregister
variable {st : LoopState} {a : ℕ}

/-- Removal of a timer looks at the timer queue only and leaves the transmit queue alone. -/
lemma twTimerUnregister_frame {st' l : LoopState} {p : Option ℕ} (hsame : SameTimer st st')
    (h : twTimerUnregister p st = .ret (0, l)) :
    ∃ l', twTimerUnregister p st' = .ret (0, l') ∧ SameTimer l l' ∧ SameTx st' l' := by
  have hne : ¬ notRegistered = 0 := by decide
  unfold twTimerUnregister at h ⊢
  rw [hsame.queue, hsame.heap]
  cases hroot : st.loop.timerHandleQueue with
  | none => simp [hroot, hne] at h
  | some first =>
    simp only [hroot] at h ⊢
    by_cases hfirst : some first = p
    · rw [if_pos hfirst] at h ⊢
      obtain ⟨node, hnode, h⟩ := Outcome.bind_eq_ret.mp h
      obtain ⟨heap, hheap, h⟩ := Outcome.bind_eq_ret.mp h
      obtain rfl : _ = l := by simpa using h
      simp only [hnode, hheap, Outcome.ret_bind]
      exact ⟨_, rfl, ⟨rfl, rfl⟩, ⟨rfl, rfl⟩⟩
    · rw [if_neg hfirst] at h ⊢
      obtain ⟨found, hfound, h⟩ := Outcome.bind_eq_ret.mp h
      cases found with
      | none => simp [hne] at h
      | some prev =>
        obtain ⟨node, hnode, h⟩ := Outcome.bind_eq_ret.mp h
        obtain ⟨before, hbefore, h⟩ := Outcome.bind_eq_ret.mp h
        obtain ⟨heap, hheap, h⟩ := Outcome.bind_eq_ret.mp h
        obtain ⟨heap', hheap', h⟩ := Outcome.bind_eq_ret.mp h
        obtain rfl : _ = l := by simpa using h
        simp only [hfound, hnode, hbefore, hheap, hheap', Outcome.ret_bind]
        exact ⟨_, rfl, ⟨rfl, hsame.queue.trans hroot⟩, ⟨rfl, rfl⟩⟩

lemma twTimerUnregister_absent {xs : List (ℕ × TwTimer)}
    (hc : Chain st.timer st.loop.timerHandleQueue xs none) (ha : ∀ x ∈ xs, x.1 ≠ a) :
    twTimerUnregister (some a) st = .ret (notRegistered, st) := by
  cases hq : st.loop.timerHandleQueue with
  | none => simp only [twTimerUnregister, hq]
  | some first =>
    obtain ⟨hne, hfind⟩ := findPrev_missing (hq ▸ hc) ha
    simp [twTimerUnregister, hq, hne, hfind]

/-- A registered timer handle is taken out of the queue and its block alone is released. -/
lemma twTimerUnregister_registered {v : TwTimer} {pre post : List (ℕ × TwTimer)}
    (hc : Chain st.timer st.loop.timerHandleQueue (pre ++ (a, v) :: post) none) :
    ∃ heap root, twTimerUnregister (some a) st = .ret (0, { st with
        timer := heap
        loop := { st.loop with
          timerHandleQueue := root, activeHandles := st.loop.activeHandles - 1 } }) ∧
      Chain heap root (pre ++ post) none ∧
      ∀ x, heap.cell x = none ↔ st.timer.cell x = none ∨ x = a := by
  obtain ⟨n, ha⟩ := hc.live (List.mem_append_right pre List.mem_cons_self)
  rcases List.eq_nil_or_concat pre with rfl | ⟨pre, ⟨l, w⟩, rfl⟩
  · have hq : st.loop.timerHandleQueue = some a := hc.1
    refine ⟨st.timer.release a, n, ?_, hc.tail ha, fun x => ?_⟩
    · simp [twTimerUnregister, hq, Heap.load_some ha, Heap.free_some ha]
    · by_cases hx : x = a <;> simp [Heap.release, hx]
  · rw [List.concat_eq_append, List.append_assoc, List.singleton_append] at hc
    rw [List.concat_eq_append, List.append_assoc, List.singleton_append]
    obtain ⟨m, hl⟩ := hc.live (List.mem_append_right pre List.mem_cons_self)
    obtain ⟨first, hq, hne, hla, hfind⟩ := findPrev_behind hc
    have hstored : (st.timer.write l ⟨w, n⟩).cell a = some ⟨v, n⟩ := by
      rw [Heap.write_cell_ne _ _ hla.symm, ha]
    have hsplit : Chain st.timer st.loop.timerHandleQueue
        (pre ++ (l, w) :: ([] ++ (a, v) :: post)) none := hc
    refine ⟨_, _, ?_, hsplit.cut pre ha, fun x => Chain.cut_dead_iff hl hla x⟩
    simp [twTimerUnregister, hq, hne, hfind, Heap.load_some ha, Heap.load_some hl,
      Heap.store_some _ hl, Heap.free_some hstored]

/-- With a null handle the search runs to the end of the queue and the handle is then
dereferenced. -/
lemma twTimerUnregister_null {xs : List (ℕ × TwTimer)}
    (hc : Chain st.timer st.loop.timerHandleQueue xs none) (hx : xs ≠ []) :
    twTimerUnregister none st = .fault := by
  have hlen := hc.length_le_top
  obtain ⟨pre, ⟨l, w⟩, rfl⟩ := (List.eq_nil_or_concat xs).resolve_left hx
  rw [List.concat_eq_append] at hc hlen
  cases hq : st.loop.timerHandleQueue with
  | none => cases pre <;> simp [hq, Chain] at hc
  | some first =>
    have hfind : findPrev st.timer none (st.timer.top + 1) first = .ret (some l) := by
      refine findPrev_null (hq ▸ hc) ?_
      simp only [List.length_append] at hlen
      omega
    simp [twTimerUnregister, hq, hfind, Heap.load]

lemma twTxUnregister_null : twTxUnregister none st = .ret (notRegistered, st) := by
  cases hq : st.loop.txHandleQueue <;> simp [twTxUnregister, hq]

lemma twTxUnregister_absent {xs : List (ℕ × TwTx)}
    (hc : Chain st.tx st.loop.txHandleQueue xs none) (ha : ∀ x ∈ xs, x.1 ≠ a) :
    twTxUnregister (some a) st = .ret (notRegistered, st) := by
  cases hq : st.loop.txHandleQueue with
  | none => simp only [twTxUnregister, hq]
  | some first =>
    obtain ⟨hne, hfind⟩ := findPrev_missing (hq ▸ hc) ha
    simp [twTxUnregister, hq, hne, hfind]

lemma twTxUnregister_head {v : TwTx} {n : Option ℕ} {post : List (ℕ × TwTx)}
    (hc : Chain st.tx st.loop.txHandleQueue ((a, v) :: post) none)
    (ha : st.tx.cell a = some ⟨v, n⟩) :
    twTxUnregister (some a) st = .ret (0, { st with
        tx := st.tx.release a
        loop := { st.loop with
          txHandleQueue := n, activeHandles := st.loop.activeHandles - 1 } }) := by
  have hq : st.loop.txHandleQueue = some a := hc.1
  simp [twTxUnregister, hq, Heap.load_some ha, Heap.free_some ha]

/-- Behind the head the handle in front is unlinked from the handle and released; the
handle itself stays, now unreachable. -/
lemma twTxUnregister_behind {l : ℕ} {v w : TwTx} {n : Option ℕ} {pre post : List (ℕ × TwTx)}
    (hc : Chain st.tx st.loop.txHandleQueue (pre ++ (l, w) :: (a, v) :: post) none)
    (ha : st.tx.cell a = some ⟨v, n⟩) :
    l ≠ a ∧ twTxUnregister (some a) st = .ret (0, { st with
        tx := (st.tx.write l ⟨w, n⟩).release l
        loop := { st.loop with activeHandles := st.loop.activeHandles - 1 } }) := by
  obtain ⟨m, hl⟩ := hc.live (List.mem_append_right pre List.mem_cons_self)
  obtain ⟨first, hq, hne, hla, hfind⟩ := findPrev_behind hc
  refine ⟨hla, ?_⟩
  simp [twTxUnregister, hq, hne, hfind, Heap.load_some ha, Heap.load_some hl,
    Heap.store_some _ hl, Heap.free_some (Heap.write_cell_self st.tx l ⟨w, n⟩)]

/-- The contract of the call: a registered handle is removed and its block alone
released, any other pointer is refused. -/
def UnregistersTx (h : Option ℕ) (xs : List (ℕ × TwTx)) (st : LoopState) : Prop :=
  if ∃ x ∈ xs, some x.1 = h then
    ∃ st', twTxUnregister h st = .ret (0, st') ∧
      Chain st'.tx st'.loop.txHandleQueue (xs.filter fun x => some x.1 ≠ h) none ∧
      (∀ b, st'.tx.cell b = none ↔ st.tx.cell b = none ∨ some b = h) ∧
      st'.loop.activeHandles = st.loop.activeHandles - 1
  else twTxUnregister h st = .ret (notRegistered, st)

lemma not_unregistersTx_behind {l : ℕ} {v w : TwTx} {pre post : List (ℕ × TwTx)}
    (hc : Chain st.tx st.loop.txHandleQueue (pre ++ (l, w) :: (a, v) :: post) none) :
    ¬ UnregistersTx (some a) (pre ++ (l, w) :: (a, v) :: post) st := by
  have hmem : (a, v) ∈ pre ++ (l, w) :: (a, v) :: post := by simp
  obtain ⟨n, ha⟩ := hc.live hmem
  obtain ⟨m, hl⟩ := hc.live (List.mem_append_right pre List.mem_cons_self)
  obtain ⟨hla, hcall⟩ := twTxUnregister_behind hc ha
  rw [UnregistersTx, if_pos ⟨(a, v), hmem, rfl⟩]
  rintro ⟨st', hret, -, hdead, -⟩
  obtain rfl : _ = st' := congrArg Prod.snd (Outcome.ret.inj (hcall.symm.trans hret))
  have hlive := (hdead l).mp (by simp [Heap.release])
  simp [hl, hla] at hlive

/-- The contract is kept exactly when the handle is not behind the head of the queue. -/
theorem twTxUnregister_exact_iff {xs : List (ℕ × TwTx)} (h : Option ℕ)
    (hc : Chain st.tx st.loop.txHandleQueue xs none) :
    UnregistersTx h xs st ↔ ∀ x ∈ xs.tail, some x.1 ≠ h := by
  cases h with
  | none => simp [UnregistersTx, twTxUnregister_null]
  | some a =>
    rcases position a xs with habs | ⟨v, post, rfl⟩ | ⟨pre, l, w, v, post, rfl⟩
    · have hno : ¬ ∃ x ∈ xs, some x.1 = some a :=
        fun ⟨x, hx, he⟩ => habs x hx (Option.some.inj he)
      rw [UnregistersTx, if_neg hno]
      refine iff_of_true (twTxUnregister_absent hc habs) fun x hx => ?_
      simpa using habs x (List.mem_of_mem_tail hx)
    · obtain ⟨n, ha⟩ := hc.live List.mem_cons_self
      have hrest : ∀ x ∈ post, some x.1 ≠ some a :=
        fun x hx he => hc.head_ne x hx (Option.some.inj he)
      have hfilter : ((a, v) :: post).filter (fun x => some x.1 ≠ some a) = post := by
        rw [List.filter_cons_of_neg (by simp), List.filter_eq_self]
        exact fun x hx => decide_eq_true (hrest x hx)
      rw [UnregistersTx, if_pos ⟨(a, v), by simp, rfl⟩]
      refine iff_of_true ⟨_, twTxUnregister_head hc ha, ?_, fun b => ?_, rfl⟩ hrest
      · rw [hfilter]
        exact hc.tail ha
      · by_cases hb : b = a <;> simp [Heap.release, hb]
    · refine iff_of_false (not_unregistersTx_behind hc) fun hno => hno (a, v) ?_ rfl
      cases pre <;> simp

def blankTx : TwTx := ⟨twTxHandle, 0, 0⟩

def twoTx : LoopState where
  loop := ⟨2, none, some 0, none, 0⟩
  rx := .empty
  tx := (Heap.empty.write 0 ⟨blankTx, some 1⟩).write 1 ⟨blankTx, none⟩
  timer := .empty

lemma twoTx_lists :
    Chain twoTx.tx twoTx.loop.txHandleQueue [(0, blankTx), (1, blankTx)] none :=
  ⟨rfl, some 1, rfl, rfl, none, rfl, rfl⟩

theorem twTxUnregister_exact_twoTx :
    UnregistersTx (some 0) [(0, blankTx), (1, blankTx)] twoTx :=
  (twTxUnregister_exact_iff (some 0) twoTx_lists).mpr (by decide)

/-- Removing the second of two handles releases the first one. -/
theorem twTxUnregister_frees_neighbour :
    ¬ UnregistersTx (some 1) [(0, blankTx), (1, blankTx)] twoTx :=
  fun h => not_unregistersTx_behind (show Chain _ _ ([] ++ _) _ from twoTx_lists) h

/-- The same contract for a timer handle, with the state the call leaves written out: it
differs from the old one in the timer queue and the count only. -/
def UnregistersTimer (a : ℕ) (xs : List (ℕ × TwTimer)) (st : LoopState) : Prop :=
  if ∃ x ∈ xs, x.1 = a then
    ∃ heap root, twTimerUnregister (some a) st = .ret (0, { st with
        timer := heap
        loop := { st.loop with
          timerHandleQueue := root, activeHandles := st.loop.activeHandles - 1 } }) ∧
      Chain heap root (xs.filter fun x => x.1 ≠ a) none ∧
      ∀ b, heap.cell b = none ↔ st.timer.cell b = none ∨ b = a
  else twTimerUnregister (some a) st = .ret (notRegistered, st)

/-- Removal of a timer keeps the contract at every position of the queue. -/
theorem twTimerUnregister_exact {xs : List (ℕ × TwTimer)} (a : ℕ)
    (hc : Chain st.timer st.loop.timerHandleQueue xs none) : UnregistersTimer a xs st := by
  unfold UnregistersTimer
  split_ifs with hreg
  · obtain ⟨⟨b, v⟩, hmem, rfl⟩ := hreg
    obtain ⟨pre, post, rfl⟩ := List.append_of_mem hmem
    obtain ⟨heap, root, hcall, hlist, hdead⟩ := twTimerUnregister_registered hc
    refine ⟨heap, root, hcall, ?_, hdead⟩
    rw [hc.filter_ne]
    exact hlist
  · exact twTimerUnregister_absent hc fun x hx he => hreg ⟨x, hx, he⟩

def blankTimer : TwTimer := ⟨twTimerHandle, 0, 0, 0⟩

def twoTimers : LoopState where
  loop := ⟨2, none, none, some 0, 0⟩
  rx := .empty
  tx := .empty
  timer := (Heap.empty.write 0 ⟨blankTimer, some 1⟩).write 1 ⟨blankTimer, none⟩

theorem twTimerUnregister_exact_second :
    UnregistersTimer 1 [(0, blankTimer), (1, blankTimer)] twoTimers :=
  twTimerUnregister_exact 1 ⟨rfl, some 1, rfl, rfl, none, rfl, rfl⟩

end Unregister
end Twister
