import Twister.TimerRun

/-! The loop as a schedule. As long as no callback touches the queues, a run of the loop is the
run of an abstract schedule over the handles in queue order: every transmit handle is called at
every reading, and each timer on its own count, whatever the other handles are. -/
namespace Twister

/-- The registered handles, in queue order. -/
structure Schedule where
  txs : List (ℕ × TwTx)
  timers : List (ℕ × TwTimer)

namespace Schedule

def stamped (r : UInt64) (x : ℕ × TwTx) : ℕ × TwTx := (x.1, { x.2 with lastRunTime := r })

def fired (r : UInt64) (y : ℕ × TwTimer) : ℕ × TwTimer :=
  if y.2.due r then (y.1, { y.2 with lastRunTime := r }) else y

def step (s : Schedule) (r : UInt64) : Schedule := ⟨s.txs.map (stamped r), s.timers.map (fired r)⟩

def calls (s : Schedule) (r : UInt64) : List Call := txCalls s.txs ++ timerCalls r s.timers

def run : Schedule → List UInt64 → List (UInt64 × Call)
  | _, [] => []
  | s, r :: rs => (s.calls r).map (fun c => (r, c)) ++ run (s.step r) rs

end Schedule

/-- The queues list the handles of the schedule. -/
structure Queues (st : LoopState) (s : Schedule) : Prop where
  tx : Chain st.tx st.loop.txHandleQueue s.txs none
  timer : Chain st.timer st.loop.timerHandleQueue s.timers none

/-- What a callback may leave: the receive handles may be others. -/
structure SameHandles (st st' : LoopState) : Prop where
  tx : SameTx st st'
  timer : SameTimer st st'
  active : st'.loop.activeHandles = st.loop.activeHandles

/-- No callback registers or removes a transmit or timer handle. -/
structure Callbacks.Quiet (cbs : Callbacks) : Prop where
  tx : ∀ cb a st, ∃ st', cbs.tx cb a st = .ret st' ∧ SameHandles st st'
  timer : ∀ cb a st, ∃ st', cbs.timer cb a st = .ret st' ∧ SameHandles st st'

section Refinement
variable {cbs : Callbacks} {r : UInt64} {fuel : ℕ} {q : Option ℕ} {st : LoopState} {s : Schedule}

/-- The loop over the transmit handles has run. -/
structure TxPass (cbs : Callbacks) (r : UInt64) (fuel : ℕ) (q : Option ℕ) (st : LoopState)
    (pre rest : List (ℕ × TwTx)) (st' : LoopState) : Prop where
  run : txCallbacks cbs r fuel q st = .ret (st', txCalls rest)
  queue : Chain st'.tx st'.loop.txHandleQueue (pre ++ rest.map (Schedule.stamped r)) none
  timer : SameTimer st st'
  active : st'.loop.activeHandles = st.loop.activeHandles

lemma txCallbacks_pass (hcbs : cbs.Quiet) (pre : List (ℕ × TwTx)) {rest : List (ℕ × TwTx)}
    (hc : Chain st.tx st.loop.txHandleQueue (pre ++ rest) none) (hq : Chain st.tx q rest none)
    (hf : rest.length < fuel) : ∃ st', TxPass cbs r fuel q st pre rest st' := by
  induction rest generalizing pre q st fuel with
  | nil =>
    obtain rfl : q = none := hq
    exact ⟨st, by rw [txCallbacks]; rfl, by simpa using hc, ⟨rfl, rfl⟩, rfl⟩
  | cons x rest ih =>
    obtain ⟨a, v⟩ := x
    obtain ⟨rfl, n, fuel, ha, ht, hne, rfl, hlen⟩ := hq.walk hf
    obtain ⟨st₁, hcall, hsame⟩ := hcbs.tx v.txCb a st
    -- the handle is stamped where it stands
    have ha₁ : st₁.tx.cell a = some ⟨v, n⟩ := by rw [hsame.tx.heap, ha]
    have hset : Chain (st₁.stampTx r a ⟨v, n⟩).tx (st₁.stampTx r a ⟨v, n⟩).loop.txHandleQueue
        (pre ++ [Schedule.stamped r (a, v)] ++ rest) none := by
      have hc₁ : Chain st₁.tx st₁.loop.txHandleQueue (pre ++ (a, v) :: rest) none := by
        rwa [hsame.tx.heap, hsame.tx.queue]
      rw [List.append_assoc]
      exact hc₁.set_val ha₁ _
    have hrest : Chain (st₁.stampTx r a ⟨v, n⟩).tx n rest none := by
      have ht₁ : Chain st₁.tx n rest none := by rwa [hsame.tx.heap]
      exact ht₁.write_of_notMem _ hne
    obtain ⟨st', hpass⟩ := ih _ hset hrest hlen
    refine ⟨st', ?_, by simpa using hpass.queue, ?_, hpass.active.trans hsame.active⟩
    · have hrun := hpass.run
      simp only [LoopState.stampTx] at hrun
      simp only [txCallbacks, Heap.load_some ha, hcall, Heap.load_some ha₁,
        Heap.store_some _ ha₁, Outcome.ret_bind, hrun]
      rfl
    · exact ⟨hpass.timer.heap.trans hsame.timer.heap, hpass.timer.queue.trans hsame.timer.queue⟩

/-- The loop over the timer handles has run. -/
structure TimerPass (cbs : Callbacks) (r : UInt64) (fuel : ℕ) (q : Option ℕ) (st : LoopState)
    (pre rest : List (ℕ × TwTimer)) (st' : LoopState) : Prop where
  run : timerCallbacks cbs r fuel q st = .ret (st', timerCalls r rest)
  queue : Chain st'.timer st'.loop.timerHandleQueue (pre ++ rest.map (Schedule.fired r)) none
  tx : SameTx st st'
  active : st'.loop.activeHandles = st.loop.activeHandles

lemma timerCallbacks_pass (hcbs : cbs.Quiet) (pre : List (ℕ × TwTimer))
    {rest : List (ℕ × TwTimer)}
    (hc : Chain st.timer st.loop.timerHandleQueue (pre ++ rest) none)
    (hq : Chain st.timer q rest none) (hf : rest.length < fuel) :
    ∃ st', TimerPass cbs r fuel q st pre rest st' := by
  induction rest generalizing pre q st fuel with
  | nil =>
    obtain rfl : q = none := hq
    exact ⟨st, by rw [timerCallbacks]; rfl, by simpa using hc, ⟨rfl, rfl⟩, rfl⟩
  | cons y rest ih =>
    obtain ⟨a, v⟩ := y
    obtain ⟨rfl, n, fuel, ha, ht, hne, rfl, hlen⟩ := hq.walk hf
    by_cases hdue : v.due r
    · obtain ⟨st₁, hcall, hsame⟩ := hcbs.timer v.timerCb a st
      have ha₁ : st₁.timer.cell a = some ⟨v, n⟩ := by rw [hsame.timer.heap, ha]
      have hfired : Schedule.fired r (a, v) = (a, { v with lastRunTime := r }) := if_pos hdue
      have hset : Chain (st₁.stampTimer r a ⟨v, n⟩).timer
          (st₁.stampTimer r a ⟨v, n⟩).loop.timerHandleQueue
          (pre ++ [Schedule.fired r (a, v)] ++ rest) none := by
        have hc₁ : Chain st₁.timer st₁.loop.timerHandleQueue (pre ++ (a, v) :: rest) none := by
          rwa [hsame.timer.heap, hsame.timer.queue]
        rw [List.append_assoc, hfired]
        exact hc₁.set_val ha₁ _
      have hrest : Chain (st₁.stampTimer r a ⟨v, n⟩).timer n rest none := by
        have ht₁ : Chain st₁.timer n rest none := by rwa [hsame.timer.heap]
        exact ht₁.write_of_notMem _ hne
      obtain ⟨st', hpass⟩ := ih _ hset hrest hlen
      refine ⟨st', ?_, by simpa using hpass.queue, ?_, hpass.active.trans hsame.active⟩
      · have hrun := hpass.run
        have hcalls : timerCalls r ((a, v) :: rest) = .timer a v.timerCb :: timerCalls r rest := by
          simp [timerCalls, hdue]
        simp only [LoopState.stampTimer] at hrun
        simp only [timerCallbacks, Heap.load_some ha, hdue, ↓reduceIte, hcall, Heap.load_some ha₁,
          Heap.store_some _ ha₁, Outcome.ret_bind, hrun, hcalls]
      · exact ⟨hpass.tx.heap.trans hsame.tx.heap, hpass.tx.queue.trans hsame.tx.queue⟩
    · have hfired : Schedule.fired r (a, v) = (a, v) := if_neg hdue
      have hsplit : Chain st.timer st.loop.timerHandleQueue (pre ++ [(a, v)] ++ rest) none := by
        simpa using hc
      obtain ⟨st', hpass⟩ := ih _ hsplit ht hlen
      refine ⟨st', ?_, by simpa [hfired] using hpass.queue, hpass.tx, hpass.active⟩
      have hcalls : timerCalls r ((a, v) :: rest) = timerCalls r rest := by
        simp [timerCalls, hdue]
      rw [timerCallbacks_skip ha hdue, hpass.run, hcalls]

/-- One turn of the loop is one step of the schedule. -/
lemma turn_step (hcbs : cbs.Quiet) (hq : Queues st s) (hactive : st.loop.activeHandles ≠ 0)
    (htx : s.txs.length < fuel) (htimer : s.timers.length < fuel) :
    ∃ st', turn cbs fuel st r = .ret (st', (s.calls r).map fun c => (r, c)) ∧
      Queues st' (s.step r) ∧ st'.loop.activeHandles = st.loop.activeHandles := by
  obtain ⟨st₁, htxs⟩ := txCallbacks_pass (r := r) hcbs [] hq.tx hq.tx htx
  have hqueue : Chain st₁.timer st₁.loop.timerHandleQueue s.timers none := by
    rw [htxs.timer.heap, htxs.timer.queue]
    exact hq.timer
  obtain ⟨st₂, htimers⟩ := timerCallbacks_pass (r := r) hcbs [] hqueue hqueue htimer
  have hopen : st.loop.activeHandles > 0 := UInt8.pos_iff_ne_zero.mpr hactive
  have hphase : callbackPhase cbs r fuel st = .ret (st₂, s.calls r) := by
    rw [callbackPhase, if_pos hopen]
    simp only [htxs.run, htimers.run, Outcome.ret_bind, Schedule.calls]
  refine ⟨st₂, by rw [turn, hphase, Outcome.ret_bind], ⟨?_, htimers.queue⟩,
    htimers.active.trans htxs.active⟩
  rw [htimers.tx.heap, htimers.tx.queue]
  exact htxs.queue

lemma runOps_turn (hcbs : cbs.Quiet) (hq : Queues st s) (hactive : st.loop.activeHandles ≠ 0)
    (htx : s.txs.length < fuel) (htimer : s.timers.length < fuel) (rs : List UInt64) :
    ∃ st', runOps (turn cbs fuel) st rs = .ret (st', s.run rs) := by
  induction rs generalizing st s with
  | nil => exact ⟨st, rfl⟩
  | cons r rs ih =>
    obtain ⟨st₁, hturn, hq₁, hactive₁⟩ := turn_step (r := r) hcbs hq hactive htx htimer
    have htx₁ : (s.step r).txs.length < fuel := by simpa [Schedule.step] using htx
    have htimer₁ : (s.step r).timers.length < fuel := by simpa [Schedule.step] using htimer
    obtain ⟨st', hrun⟩ := ih hq₁ (hactive₁ ▸ hactive) htx₁ htimer₁
    exact ⟨st', by rw [runOps, hturn, Outcome.ret_bind, hrun]; rfl⟩

/-- With the count at zero nothing is called, whatever is registered. -/
lemma runOps_turn_idle (hactive : st.loop.activeHandles = 0) (rs : List UInt64) :
    runOps (turn cbs fuel) st rs = .ret (st, []) := by
  have hclosed : ¬ st.loop.activeHandles > 0 := by
    rw [hactive]
    decide
  induction rs with
  | nil => rfl
  | cons r rs ih =>
    have hturn : turn cbs fuel st r = .ret (st, []) := by
      rw [turn, callbackPhase, if_neg hclosed]
      rfl
    rw [runOps, hturn, Outcome.ret_bind, ih]
    rfl

end Refinement

section Firing
variable {s : Schedule}

/-- The readings at which a timer on its own would fire. -/
def fires (timeout : UInt64) : UInt64 → List UInt64 → List UInt64
  | _, [] => []
  | last, r :: rs => if r - last > timeout then r :: fires timeout r rs else fires timeout last rs

def Call.isTx (h : ℕ) : Call → Bool
  | .tx a _ => a = h
  | .timer _ _ => false

/-- The readings at which the transmit handle was called. -/
def sendings (h : ℕ) (es : List (UInt64 × Call)) : List UInt64 :=
  (es.filter fun e => e.2.isTx h).map Prod.fst

/-- The handles of each queue have addresses of their own. -/
structure Schedule.Distinct (s : Schedule) : Prop where
  txs : (s.txs.map Prod.fst).Nodup
  timers : (s.timers.map Prod.fst).Nodup

lemma Schedule.fired_fst (r : UInt64) (y : ℕ × TwTimer) : (fired r y).1 = y.1 := by
  unfold fired
  split
  · rfl
  · rfl

lemma Schedule.Distinct.step (h : s.Distinct) (r : UInt64) : (s.step r).Distinct := by
  have htxs : Prod.fst ∘ stamped r = Prod.fst := rfl
  have htimers : Prod.fst ∘ fired r = Prod.fst := funext (fired_fst r)
  refine ⟨?_, ?_⟩
  · rw [Schedule.step, List.map_map, htxs]
    exact h.txs
  · rw [Schedule.step, List.map_map, htimers]
    exact h.timers

lemma countP_txCalls_isTimer (h : ℕ) (xs : List (ℕ × TwTx)) :
    (txCalls xs).countP (Call.isTimer h) = 0 := by
  simp [txCalls, List.countP_eq_zero, Call.isTimer]

lemma countP_timerCalls_isTx (h : ℕ) (r : UInt64) (ys : List (ℕ × TwTimer)) :
    (timerCalls r ys).countP (Call.isTx h) = 0 := by
  simp [timerCalls, List.countP_eq_zero, Call.isTx]

lemma countP_txCalls {xs : List (ℕ × TwTx)} (hnd : (xs.map Prod.fst).Nodup) {x : ℕ × TwTx}
    (hx : x ∈ xs) : (txCalls xs).countP (Call.isTx x.1) = 1 := by
  have hcount : (txCalls xs).countP (Call.isTx x.1) = (xs.map Prod.fst).count x.1 := by
    rw [txCalls, List.countP_map, List.count, List.countP_map]
    refine List.countP_congr fun y _ => ?_
    simp [Call.isTx]
  rw [hcount, List.count_eq_one_of_mem hnd (List.mem_map_of_mem hx)]

lemma countP_timerCalls (r : UInt64) {ys : List (ℕ × TwTimer)} (hnd : (ys.map Prod.fst).Nodup)
    {y : ℕ × TwTimer} (hy : y ∈ ys) :
    (timerCalls r ys).countP (Call.isTimer y.1) = if y.2.due r then 1 else 0 := by
  induction ys with
  | nil => cases hy
  | cons z ys ih =>
    rw [List.map_cons, List.nodup_cons] at hnd
    have hcons : (timerCalls r (z :: ys)).countP (Call.isTimer y.1) =
        (if z.2.due r ∧ z.1 = y.1 then 1 else 0) + (timerCalls r ys).countP (Call.isTimer y.1) := by
      by_cases hdue : z.2.due r
      · simp [timerCalls, hdue, List.countP_cons, Call.isTimer, Nat.add_comm]
      · simp [timerCalls, hdue]
    rw [hcons]
    rcases List.mem_cons.mp hy with rfl | hy
    · -- no other handle has its address
      have hnone : (timerCalls r ys).countP (Call.isTimer y.1) = 0 := by
        rw [List.countP_eq_zero]
        intro c hc
        obtain ⟨z, hz, rfl⟩ := List.mem_map.mp hc
        have hne : z.1 ≠ y.1 := fun he =>
          hnd.1 (he ▸ List.mem_map_of_mem (List.mem_of_mem_filter hz))
        simpa [Call.isTimer] using hne
      simp [hnone]
    · have hne : z.1 ≠ y.1 := fun he => hnd.1 (he ▸ List.mem_map_of_mem hy)
      simp [hne, ih hnd.2 hy]

lemma firings_stamped (h : ℕ) (r : UInt64) (calls : List Call) :
    firings h (calls.map fun c => (r, c)) =
      List.replicate (calls.countP (Call.isTimer h)) r := by
  simp only [firings, List.filter_map, List.map_map, List.countP_eq_length_filter]
  exact List.map_const'

lemma sendings_stamped (h : ℕ) (r : UInt64) (calls : List Call) :
    sendings h (calls.map fun c => (r, c)) =
      List.replicate (calls.countP (Call.isTx h)) r := by
  simp only [sendings, List.filter_map, List.map_map, List.countP_eq_length_filter]
  exact List.map_const'

lemma sendings_append (h : ℕ) (es es' : List (UInt64 × Call)) :
    sendings h (es ++ es') = sendings h es ++ sendings h es' := by simp [sendings]

/-- Every transmit handle is called once at every reading. -/
lemma sendings_run (hd : s.Distinct) {x : ℕ × TwTx} (hx : x ∈ s.txs) (rs : List UInt64) :
    sendings x.1 (s.run rs) = rs := by
  induction rs generalizing s x with
  | nil => rfl
  | cons r rs ih =>
    have hnext : Schedule.stamped r x ∈ (s.step r).txs := List.mem_map_of_mem hx
    rw [Schedule.run, sendings_append, sendings_stamped, Schedule.calls, List.countP_append,
      countP_txCalls hd.txs hx, countP_timerCalls_isTx]
    exact congrArg (r :: ·) (ih (x := Schedule.stamped r x) (hd.step r) hnext)

/-- Every timer fires as it would on its own. -/
lemma firings_run (hd : s.Distinct) {y : ℕ × TwTimer} (hy : y ∈ s.timers) (rs : List UInt64) :
    firings y.1 (s.run rs) = fires y.2.timeout y.2.lastRunTime rs := by
  induction rs generalizing s y with
  | nil => rfl
  | cons r rs ih =>
    have hnext : Schedule.fired r y ∈ (s.step r).timers := List.mem_map_of_mem hy
    have hrest := ih (hd.step r) hnext
    rw [Schedule.fired_fst] at hrest
    rw [Schedule.run, firings_append, firings_stamped, Schedule.calls, List.countP_append,
      countP_txCalls_isTimer, countP_timerCalls r hd.timers hy, hrest, fires]
    by_cases hdue : y.2.due r
    · have hlate : r - y.2.lastRunTime > y.2.timeout := by simpa [TwTimer.due] using hdue
      rw [if_pos hdue, if_pos hlate, Schedule.fired, if_pos hdue]
      rfl
    · have hearly : ¬ r - y.2.lastRunTime > y.2.timeout := by simpa [TwTimer.due] using hdue
      rw [if_neg hdue, if_neg hearly, Schedule.fired, if_neg hdue]
      rfl

end Firing

section Punctual
variable {timeout last lo : UInt64} {g : ℕ} {rs : List UInt64}

/-- The clock does not go back, and no turn takes more than `g` cycles. -/
def Steady (g : ℕ) (readings : List UInt64) : Prop :=
  readings.IsChain fun a b => a ≤ b ∧ b.toNat ≤ a.toNat + g

/-- Each firing is more than the timeout after the one before and at most a turn later than
that; at the end the next one is not overdue. -/
def Punctual (timeout g : ℕ) (last : ℕ) : List UInt64 → UInt64 → Prop
  | [], now => now.toNat ≤ last + timeout
  | r :: rs, now => last + timeout < r.toNat ∧ r.toNat ≤ last + timeout + g ∧
      Punctual timeout g r.toNat rs now

lemma fires_punctual (hlast : last ≤ lo) (hlo : lo.toNat ≤ last.toNat + timeout.toNat)
    (hsteady : Steady g (lo :: rs)) :
    Punctual timeout.toNat g last.toNat (fires timeout last rs) (rs.getLastD lo) := by
  induction rs generalizing last lo with
  | nil => exact hlo
  | cons r rs ih =>
    obtain ⟨⟨hle, hgap⟩, hrest⟩ := List.isChain_cons_cons.mp hsteady
    have hlast' : last ≤ r := UInt64.le_trans hlast hle
    have hsub : (r - last).toNat = r.toNat - last.toNat := UInt64.toNat_sub_of_le _ _ hlast'
    rw [UInt64.le_iff_toNat_le] at hlast hle
    rw [fires, List.getLastD_cons]
    by_cases hdue : r - last > timeout
    · rw [if_pos hdue]
      rw [gt_iff_lt, UInt64.lt_iff_toNat_lt, hsub] at hdue
      exact ⟨by omega, by omega, ih (UInt64.le_refl r) (by omega) hrest⟩
    · rw [if_neg hdue]
      rw [gt_iff_lt, UInt64.lt_iff_toNat_lt, hsub] at hdue
      exact ih hlast' (by omega) hrest

/-- The number of firings in a span: no fewer than the timeout and a turn for each allow, and no
more than the timeout for each allows. -/
def InProportion (timeout g span n : ℕ) : Prop :=
  n * (timeout + 1) ≤ span ∧ span ≤ n * (timeout + g) + timeout

lemma Punctual.count {timeout last : ℕ} {fs : List UInt64} {now : UInt64}
    (h : Punctual timeout g last fs now) (hnow : last ≤ now.toNat) (hfs : ∀ f ∈ fs, f ≤ now) :
    InProportion timeout g (now.toNat - last) fs.length := by
  unfold InProportion
  induction fs generalizing last with
  | nil =>
    have hend : now.toNat ≤ last + timeout := h
    simp only [List.length_nil]
    omega
  | cons r rs ih =>
    obtain ⟨hearly, hlate, hrest⟩ := h
    have hr := UInt64.le_iff_toNat_le.mp (hfs r List.mem_cons_self)
    obtain ⟨hmin, hmax⟩ := ih hrest hr fun f hf => hfs f (List.mem_cons_of_mem r hf)
    simp only [List.length_cons, Nat.add_mul]
    omega

lemma fires_sublist (timeout last : UInt64) (rs : List UInt64) :
    (fires timeout last rs).Sublist rs := by
  fun_induction fires timeout last rs with
  | case1 last => exact List.Sublist.refl []
  | case2 last r rs hdue ih => exact ih.cons_cons r
  | case3 last r rs hdue ih => exact ih.cons r

lemma Steady.le_last (h : Steady g (lo :: rs)) : ∀ r ∈ lo :: rs, r ≤ rs.getLastD lo := by
  induction rs generalizing lo with
  | nil =>
    intro r hr
    rw [List.mem_singleton.mp hr]
    exact UInt64.le_refl lo
  | cons r₀ rs ih =>
    obtain ⟨⟨hle, -⟩, hrest⟩ := List.isChain_cons_cons.mp h
    have hlast := ih hrest
    intro r hr
    rw [List.getLastD_cons]
    rcases List.mem_cons.mp hr with rfl | hr
    · exact UInt64.le_trans hle (hlast r₀ List.mem_cons_self)
    · exact hlast r hr

end Punctual

section Loop
variable {cbs : Callbacks} {fuel : ℕ} {st : LoopState} {s : Schedule}

lemma Queues.distinct (h : Queues st s) : s.Distinct := ⟨h.tx.nodup, h.timer.nodup⟩

/-- What the calls of a run are: none if the count is zero, and otherwise each transmit handle at
every reading and each timer as it would fire on its own. -/
structure Serves (active : UInt8) (s : Schedule) (rs : List UInt64) (es : List (UInt64 × Call)) :
    Prop where
  idle : active = 0 → es = []
  txs : active ≠ 0 → ∀ x ∈ s.txs, sendings x.1 es = rs
  timers : active ≠ 0 → ∀ y ∈ s.timers, firings y.1 es = fires y.2.timeout y.2.lastRunTime rs

/-- The callback phases never stop, and serve each handle as if it were alone. -/
theorem loop_serves (hcbs : cbs.Quiet) (hq : Queues st s) (htx : s.txs.length < fuel)
    (htimer : s.timers.length < fuel) (rs : List UInt64) :
    ∃ st' es, runOps (turn cbs fuel) st rs = .ret (st', es) ∧
      Serves st.loop.activeHandles s rs es := by
  by_cases hactive : st.loop.activeHandles = 0
  · refine ⟨st, [], runOps_turn_idle hactive rs, fun _ => rfl, ?_, ?_⟩
    · exact fun hne => absurd hactive hne
    · exact fun hne => absurd hactive hne
  · obtain ⟨st', hrun⟩ := runOps_turn hcbs hq hactive htx htimer rs
    refine ⟨st', s.run rs, hrun, fun h => absurd h hactive, ?_, ?_⟩
    · exact fun _ x hx => sendings_run hq.distinct hx rs
    · exact fun _ y hy => firings_run hq.distinct hy rs

/-- A loop with one transmit handle and one timer. -/
def sendingLoop (v : TwTimer) : LoopState where
  loop := ⟨2, none, some 0, some 0, 0⟩
  rx := .empty
  tx := Heap.empty.write 0 ⟨blankTx, none⟩
  timer := Heap.empty.write 0 ⟨v, none⟩

lemma sendingLoop_queues (v : TwTimer) : Queues (sendingLoop v) ⟨[(0, blankTx)], [(0, v)]⟩ :=
  ⟨⟨rfl, none, rfl, rfl⟩, rfl, none, rfl, rfl⟩

lemma quietCallbacks_quiet : quietCallbacks.Quiet where
  tx _ _ st := ⟨st, rfl, ⟨rfl, rfl⟩, ⟨rfl, rfl⟩, rfl⟩
  timer _ _ st := ⟨st, rfl, ⟨rfl, rfl⟩, ⟨rfl, rfl⟩, rfl⟩

theorem loop_serves_two : ∃ st' es,
    runOps (turn quietCallbacks 2) (sendingLoop blankTimer) [3, 7] = .ret (st', es) ∧
      Serves 2 ⟨[(0, blankTx)], [(0, blankTimer)]⟩ [3, 7] es :=
  loop_serves quietCallbacks_quiet (sendingLoop_queues blankTimer) (by decide) (by decide) [3, 7]

/-- A timer that is not overdue fires punctually, and so in proportion to the time that passes,
whatever else the loop has to call. -/
theorem loop_punctual (hcbs : cbs.Quiet) (hq : Queues st s) (hactive : st.loop.activeHandles ≠ 0)
    (htx : s.txs.length < fuel) (htimer : s.timers.length < fuel) {y : ℕ × TwTimer}
    (hy : y ∈ s.timers) (lo : UInt64) (hlast : y.2.lastRunTime ≤ lo)
    (hlo : lo.toNat ≤ y.2.lastRunTime.toNat + y.2.timeout.toNat) {g : ℕ} (rs : List UInt64)
    (hsteady : Steady g (lo :: rs)) :
    ∃ st' es, runOps (turn cbs fuel) st rs = .ret (st', es) ∧
      Punctual y.2.timeout.toNat g y.2.lastRunTime.toNat (firings y.1 es) (rs.getLastD lo) ∧
      InProportion y.2.timeout.toNat g ((rs.getLastD lo).toNat - y.2.lastRunTime.toNat)
        (firings y.1 es).length := by
  obtain ⟨st', hrun⟩ := runOps_turn hcbs hq hactive htx htimer rs
  have hpunctual := fires_punctual hlast hlo hsteady
  have hfires := firings_run hq.distinct hy rs
  have hle := hsteady.le_last
  have hnow := UInt64.le_iff_toNat_le.mp (UInt64.le_trans hlast (hle lo List.mem_cons_self))
  refine ⟨st', s.run rs, hrun, hfires ▸ hpunctual, ?_⟩
  rw [hfires]
  refine hpunctual.count hnow fun f hf => hle f (List.mem_cons_of_mem lo ?_)
  exact (fires_sublist _ _ rs).subset hf

theorem loop_punctual_three : ∃ st' es,
    runOps (turn quietCallbacks 2) (sendingLoop ⟨5, 0, 4, 0⟩) [3, 6, 8] = .ret (st', es) ∧
      Punctual 4 3 0 (firings 0 es) 8 ∧ InProportion 4 3 8 (firings 0 es).length :=
  loop_punctual quietCallbacks_quiet (sendingLoop_queues ⟨5, 0, 4, 0⟩) (by decide) (by decide)
    (by decide) List.mem_cons_self 0 (by decide) (by decide) [3, 6, 8] (by simp [Steady])

end Loop
end Twister

