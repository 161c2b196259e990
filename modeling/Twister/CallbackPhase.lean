import Twister.HandleQueues

/-! The callback phase of `tw_run`: every transmit callback and then every due timer
callback is invoked while the phase itself holds a pointer into the queue. -/
namespace Twister

/-- What the code at a callback address does when called for a handle. -/
structure Callbacks where
  tx : ℕ → ℕ → LoopState → Outcome LoopState
  timer : ℕ → ℕ → LoopState → Outcome LoopState

inductive Call
  | tx (handle cb : ℕ)
  | timer (handle cb : ℕ)
  deriving DecidableEq, Repr

def txCallbacks (cbs : Callbacks) (currTimeCycle : UInt64) :
    ℕ → Option ℕ → LoopState → Outcome (LoopState × List Call)
  | _, none, st => .ret (st, [])
  | 0, some _, _ => .timeout
  | fuel + 1, some a, st => do
    let node ← st.tx.load (some a)
    let st ← cbs.tx node.val.txCb a st
    let left ← st.tx.load (some a)
    let heap ← st.tx.store (some a) ⟨{ left.val with lastRunTime := currTimeCycle }, left.next⟩
    let (st, calls) ← txCallbacks cbs currTimeCycle fuel left.next { st with tx := heap }
    .ret (st, .tx a node.val.txCb :: calls)

/-- `curr_time_cycle - last_run_time > timeout`, in unsigned arithmetic. -/
def TwTimer.due (currTimeCycle : UInt64) (t : TwTimer) : Bool :=
  currTimeCycle - t.lastRunTime > t.timeout

def timerCallbacks (cbs : Callbacks) (currTimeCycle : UInt64) :
    ℕ → Option ℕ → LoopState → Outcome (LoopState × List Call)
  | _, none, st => .ret (st, [])
  | 0, some _, _ => .timeout
  | fuel + 1, some a, st => do
    let node ← st.timer.load (some a)
    if node.val.due currTimeCycle then
      let st ← cbs.timer node.val.timerCb a st
      let left ← st.timer.load (some a)
      let heap ← st.timer.store (some a)
        ⟨{ left.val with lastRunTime := currTimeCycle }, left.next⟩
      let (st, calls) ← timerCallbacks cbs currTimeCycle fuel left.next { st with timer := heap }
      .ret (st, .timer a node.val.timerCb :: calls)
    else timerCallbacks cbs currTimeCycle fuel node.next st

def callbackPhase (cbs : Callbacks) (currTimeCycle : UInt64) (fuel : ℕ) (st : LoopState) :
    Outcome (LoopState × List Call) :=
  if st.loop.activeHandles > 0 then do
    let (st, txCalls) ← txCallbacks cbs currTimeCycle fuel st.loop.txHandleQueue st
    let (st, timerCalls) ← timerCallbacks cbs currTimeCycle fuel st.loop.timerHandleQueue st
    .ret (st, txCalls ++ timerCalls)
  else .ret (st, [])

/-- The two kinds of callback of the smoke test and of `twiperf`. -/
inductive CbAction
  | leavesQueues
  | unregistersSelf
  deriving DecidableEq, Repr

def selfCallbacks (tx timer : ℕ → CbAction) : Callbacks where
  tx cb a st := match tx cb with
    | .leavesQueues => .ret st
    | .unregistersSelf => do
      let (_, st) ← twTxUnregister (some a) st
      .ret st
  timer cb a st := match timer cb with
    | .leavesQueues => .ret st
    | .unregistersSelf => do
      let (_, st) ← twTimerUnregister (some a) st
      .ret st

/-- `last_run_time` of the handle at `a` is set, its link kept. -/
def LoopState.stampTx (st : LoopState) (curr : UInt64) (a : ℕ) (node : Node TwTx) : LoopState :=
  { st with tx := st.tx.write a ⟨{ node.val with lastRunTime := curr }, node.next⟩ }

def LoopState.stampTimer (st : LoopState) (curr : UInt64) (a : ℕ) (node : Node TwTimer) :
    LoopState :=
  { st with timer := st.timer.write a ⟨{ node.val with lastRunTime := curr }, node.next⟩ }

section Step
variable {tx timer : ℕ → CbAction} {curr : UInt64} {fuel a : ℕ} {st st' : LoopState}
  {n : Option ℕ}

lemma timerCallbacks_skip {cbs : Callbacks} {t : TwTimer} (ha : st.timer.cell a = some ⟨t, n⟩)
    (hdue : ¬ t.due curr) :
    timerCallbacks cbs curr (fuel + 1) (some a) st = timerCallbacks cbs curr fuel n st := by
  simp [timerCallbacks, Heap.load_some ha, hdue]

lemma timerCallbacks_next {t : TwTimer} (ha : st.timer.cell a = some ⟨t, n⟩)
    (hdue : t.due curr) (hcb : timer t.timerCb = .leavesQueues) :
    timerCallbacks (selfCallbacks tx timer) curr (fuel + 1) (some a) st = (do
      let (st, calls) ← timerCallbacks (selfCallbacks tx timer) curr fuel n
        (st.stampTimer curr a ⟨t, n⟩)
      .ret (st, .timer a t.timerCb :: calls)) := by
  simp [timerCallbacks, Heap.load_some ha, Heap.store_some _ ha, hdue, selfCallbacks, hcb,
    LoopState.stampTimer]

/-- A due timer that removes itself is written to after its block was released. -/
lemma timerCallbacks_freed {t : TwTimer} {code : UInt8} (ha : st.timer.cell a = some ⟨t, n⟩)
    (hdue : t.due curr) (hcb : timer t.timerCb = .unregistersSelf)
    (hcall : twTimerUnregister (some a) st = .ret (code, st'))
    (hdead : st'.timer.cell a = none) :
    timerCallbacks (selfCallbacks tx timer) curr (fuel + 1) (some a) st = .fault := by
  have hload : st'.timer.load (some a) = .fault := by simp [Heap.load, hdead]
  simp [timerCallbacks, Heap.load_some ha, hdue, selfCallbacks, hcb, hcall, hload]

lemma txCallbacks_next {t : TwTx} (ha : st.tx.cell a = some ⟨t, n⟩)
    (hcb : tx t.txCb = .leavesQueues) :
    txCallbacks (selfCallbacks tx timer) curr (fuel + 1) (some a) st = (do
      let (st, calls) ← txCallbacks (selfCallbacks tx timer) curr fuel n
        (st.stampTx curr a ⟨t, n⟩)
      .ret (st, .tx a t.txCb :: calls)) := by
  simp [txCallbacks, Heap.load_some ha, Heap.store_some _ ha, selfCallbacks, hcb,
    LoopState.stampTx]

lemma txCallbacks_unregister {t : TwTx} {code : UInt8} (ha : st.tx.cell a = some ⟨t, n⟩)
    (hcb : tx t.txCb = .unregistersSelf)
    (hcall : twTxUnregister (some a) st = .ret (code, st')) :
    txCallbacks (selfCallbacks tx timer) curr (fuel + 1) (some a) st = (do
      let left ← st'.tx.load (some a)
      let heap ← st'.tx.store (some a) ⟨{ left.val with lastRunTime := curr }, left.next⟩
      let (st, calls) ← txCallbacks (selfCallbacks tx timer) curr fuel left.next
        { st' with tx := heap }
      .ret (st, .tx a t.txCb :: calls)) := by
  simp [txCallbacks, Heap.load_some ha, selfCallbacks, hcb, hcall]

lemma txCallbacks_fault {t : TwTx} (ha : st.tx.cell a = some ⟨t, n⟩)
    (hcb : tx t.txCb = .unregistersSelf) (hcall : twTxUnregister (some a) st = .fault) :
    txCallbacks (selfCallbacks tx timer) curr (fuel + 1) (some a) st = .fault := by
  simp [txCallbacks, Heap.load_some ha, selfCallbacks, hcb, hcall]

end Step

section TimerPhase
variable {tx timer : ℕ → CbAction} {curr : UInt64}

def timerCalls (curr : UInt64) (ys : List (ℕ × TwTimer)) : List Call :=
  (ys.filter fun y => y.2.due curr).map fun y => .timer y.1 y.2.timerCb

/-- No due timer removes itself. -/
def TimersStay (timer : ℕ → CbAction) (curr : UInt64) (ys : List (ℕ × TwTimer)) : Prop :=
  ∀ y ∈ ys, y.2.due curr → timer y.2.timerCb = .leavesQueues

lemma timersStay_cons {y : ℕ × TwTimer} {ys : List (ℕ × TwTimer)} :
    TimersStay timer curr (y :: ys) ↔
      (y.2.due curr → timer y.2.timerCb = .leavesQueues) ∧ TimersStay timer curr ys := by
  simp [TimersStay]

variable (tx timer curr) in
lemma timerCallbacks_spec {fuel : ℕ} {st : LoopState} {q : Option ℕ}
    (pre : List (ℕ × TwTimer)) {rest : List (ℕ × TwTimer)}
    (hc : Chain st.timer st.loop.timerHandleQueue (pre ++ rest) none)
    (hq : Chain st.timer q rest none) (hf : rest.length < fuel) :
    (TimersStay timer curr rest →
      ∃ st', timerCallbacks (selfCallbacks tx timer) curr fuel q st =
        .ret (st', timerCalls curr rest)) ∧
    (¬ TimersStay timer curr rest →
      timerCallbacks (selfCallbacks tx timer) curr fuel q st = .fault) := by
  induction rest generalizing pre q st fuel with
  | nil =>
    obtain rfl : q = none := hq
    exact ⟨fun _ => ⟨st, by simp [timerCallbacks, timerCalls]⟩,
      fun hstay => absurd (by simp [TimersStay]) hstay⟩
  | cons y rest ih =>
    obtain ⟨a, v⟩ := y
    obtain ⟨rfl, n, fuel, ha, ht, hne, rfl, hlen⟩ := hq.walk hf
    rw [timersStay_cons]
    by_cases hdue : v.due curr
    · cases hcb : timer v.timerCb with
      | leavesQueues =>
        have hset : Chain (st.stampTimer curr a ⟨v, n⟩).timer st.loop.timerHandleQueue
            ((pre ++ [(a, { v with lastRunTime := curr })]) ++ rest) none := by
          rw [List.append_assoc]
          exact hc.set_val ha _
        have hrest : Chain (st.stampTimer curr a ⟨v, n⟩).timer n rest none :=
          ht.write_of_notMem _ hne
        rw [timerCallbacks_next ha hdue hcb]
        obtain ⟨hok, hbad⟩ := ih _ hset hrest hlen
        refine ⟨fun hstay => ?_, fun hstay => ?_⟩
        · obtain ⟨st', hst'⟩ := hok hstay.2
          exact ⟨st', by simp [hst', timerCalls, hdue]⟩
        · rw [hbad fun hrest => hstay ⟨fun _ => rfl, hrest⟩, Outcome.fault_bind]
      | unregistersSelf =>
        obtain ⟨heap, root, hcall, -, hdead⟩ := twTimerUnregister_registered hc
        refine ⟨fun hstay => ?_, fun _ => ?_⟩
        · simp [hdue] at hstay
        · exact timerCallbacks_freed ha hdue hcb hcall ((hdead a).mpr (Or.inr rfl))
    · have hsplit : Chain st.timer st.loop.timerHandleQueue ((pre ++ [(a, v)]) ++ rest) none := by
        simpa using hc
      have hcalls : timerCalls curr ((a, v) :: rest) = timerCalls curr rest := by
        simp [timerCalls, hdue]
      simpa [timerCallbacks_skip ha hdue, hdue, hcalls] using ih _ hsplit ht hlen

end TimerPhase

section TxPhase
variable {tx timer : ℕ → CbAction} {curr : UInt64} {q : Option ℕ} {rest : List (ℕ × TwTx)}
  {fuel : ℕ} {st : LoopState}

def txCalls (xs : List (ℕ × TwTx)) : List Call :=
  xs.map fun x => .tx x.1 x.2.txCb

/-- How many of the handles remove themselves when called. -/
def leavers (tx : ℕ → CbAction) (xs : List (ℕ × TwTx)) : ℕ :=
  xs.countP fun x => tx x.2.txCb = .unregistersSelf

/-- The loop over the transmit handles returned after these calls and left the timers
alone. -/
def TxRan (tx timer : ℕ → CbAction) (curr : UInt64) (fuel : ℕ) (q : Option ℕ) (st : LoopState)
    (calls : List Call) : Prop :=
  ∃ st', txCallbacks (selfCallbacks tx timer) curr fuel q st = .ret (st', calls) ∧
    st'.timer = st.timer ∧ st'.loop.timerHandleQueue = st.loop.timerHandleQueue

lemma TxRan.cons {a : ℕ} {t : TwTx} {n : Option ℕ} {calls : List Call}
    (ha : st.tx.cell a = some ⟨t, n⟩) (hcb : tx t.txCb = .leavesQueues)
    (h : TxRan tx timer curr fuel n (st.stampTx curr a ⟨t, n⟩) calls) :
    TxRan tx timer curr (fuel + 1) (some a) st (.tx a t.txCb :: calls) := by
  obtain ⟨st', hrun, htimer, hloop⟩ := h
  exact ⟨st', by rw [txCallbacks_next ha hcb, hrun]; rfl, htimer, hloop⟩

lemma twTxUnregister_severed {front : List (ℕ × TwTx)} {a d : ℕ}
    (hs : Severed st.tx st.loop.txHandleQueue front d) (ha : ∀ x ∈ front, x.1 ≠ a)
    (hd : d ≠ a) : twTxUnregister (some a) st = .fault := by
  obtain ⟨first, hq, hne, hfind⟩ := hs.findPrev_fault ha hd
  simp [twTxUnregister, hq, hne, hfind]

/-- Once the queue is severed the loop itself goes on, but the next removal faults. -/
lemma txCallbacks_severed {front : List (ℕ × TwTx)} {d : ℕ}
    (hs : Severed st.tx st.loop.txHandleQueue front d) (hq : Chain st.tx q rest none)
    (hfront : ∀ x ∈ rest, (∀ y ∈ front, y.1 ≠ x.1) ∧ d ≠ x.1) (hf : rest.length < fuel) :
    (leavers tx rest = 0 → TxRan tx timer curr fuel q st (txCalls rest)) ∧
    (leavers tx rest ≠ 0 →
      txCallbacks (selfCallbacks tx timer) curr fuel q st = .fault) := by
  induction rest generalizing q st fuel with
  | nil =>
    obtain rfl : q = none := hq
    exact ⟨fun _ => ⟨st, by simp [txCallbacks, txCalls], rfl, rfl⟩, fun hl => absurd rfl hl⟩
  | cons x rest ih =>
    obtain ⟨a, v⟩ := x
    obtain ⟨rfl, n, fuel, ha, ht, hne, rfl, hlen⟩ := hq.walk hf
    obtain ⟨hfa, hda⟩ := hfront (a, v) (by simp)
    cases hcb : tx v.txCb with
    | leavesQueues =>
      have hl : leavers tx ((a, v) :: rest) = leavers tx rest := by simp [leavers, hcb]
      have hs' : Severed (st.stampTx curr a ⟨v, n⟩).tx st.loop.txHandleQueue front d :=
        hs.write hfa hda _
      have hrest : Chain (st.stampTx curr a ⟨v, n⟩).tx n rest none := ht.write_of_notMem _ hne
      obtain ⟨hok, hbad⟩ := ih hs' hrest (fun x hx => hfront x (by simp [hx])) hlen
      rw [hl]
      refine ⟨fun hzero => (hok hzero).cons ha hcb, fun hpos => ?_⟩
      rw [txCallbacks_next ha hcb, hbad hpos, Outcome.fault_bind]
    | unregistersSelf =>
      refine ⟨fun hzero => ?_, fun _ => ?_⟩
      · simp [leavers, hcb] at hzero
      · exact txCallbacks_fault ha hcb (twTxUnregister_severed hs hfa hda)

/-- The first of the handles does not remove itself. -/
def HeadStays (tx : ℕ → CbAction) (xs : List (ℕ × TwTx)) : Prop :=
  ∀ x ∈ xs.head?, tx x.2.txCb = .leavesQueues

/-- A handle behind the head that removes itself survives its own removal, because the
handle in front of it is released instead. -/
lemma txCallbacks_behind {l a : ℕ} {w v : TwTx} {pre : List (ℕ × TwTx)}
    (hc : Chain st.tx st.loop.txHandleQueue (pre ++ (l, w) :: (a, v) :: rest) none)
    (hcb : tx v.txCb = .unregistersSelf) (hf : rest.length < fuel) :
    (leavers tx rest = 0 →
      TxRan tx timer curr (fuel + 1) (some a) st (txCalls ((a, v) :: rest))) ∧
    (leavers tx rest ≠ 0 →
      txCallbacks (selfCallbacks tx timer) curr (fuel + 1) (some a) st = .fault) := by
  have hmem : (a, v) ∈ pre ++ (l, w) :: (a, v) :: rest := by simp
  obtain ⟨n, ha⟩ := hc.live hmem
  obtain ⟨m, hl⟩ := hc.live (List.mem_append_right pre List.mem_cons_self)
  obtain ⟨-, hcall⟩ := twTxUnregister_behind hc ha
  obtain ⟨hs, hself, hapart⟩ := hc.sever (n := n) hl
  obtain ⟨hfa, hda⟩ := hapart (a, v) (by simp)
  have hne := hself.head_ne
  obtain ⟨rfl, k, hk, ht⟩ := hself
  obtain rfl : k = n := by
    rw [Heap.release_cell_ne _ hda.symm, Heap.write_cell_ne _ _ hda.symm, ha] at hk
    simpa using hk.symm
  obtain ⟨st', hst'⟩ : ∃ st', { st with
      tx := (st.tx.write l ⟨w, k⟩).release l
      loop := { st.loop with activeHandles := st.loop.activeHandles - 1 } } = st' := ⟨_, rfl⟩
  rw [hst'] at hcall
  have hs' : Severed (st'.stampTx curr a ⟨v, k⟩).tx st'.loop.txHandleQueue pre l := by
    rw [← hst']
    exact hs.write hfa hda _
  have hrest : Chain (st'.stampTx curr a ⟨v, k⟩).tx k rest none := by
    rw [← hst']
    exact ht.write_of_notMem _ hne
  have ha' : st'.tx.cell a = some ⟨v, k⟩ := by rw [← hst', ← hk]
  have hstep : txCallbacks (selfCallbacks tx timer) curr (fuel + 1) (some a) st = (do
      let (st, calls) ← txCallbacks (selfCallbacks tx timer) curr fuel k
        (st'.stampTx curr a ⟨v, k⟩)
      .ret (st, .tx a v.txCb :: calls)) := by
    rw [txCallbacks_unregister ha hcb hcall]
    simp only [Heap.load_some ha', Heap.store_some _ ha', Outcome.ret_bind, LoopState.stampTx]
  have hfront : ∀ x ∈ rest, (∀ y ∈ pre, y.1 ≠ x.1) ∧ l ≠ x.1 :=
    fun x hx => hapart x (by simp [hx])
  refine ⟨fun hzero => ?_, fun hpos => ?_⟩
  · have hran : TxRan tx timer curr fuel k (st'.stampTx curr a ⟨v, k⟩) (txCalls rest) :=
      (txCallbacks_severed hs' hrest hfront hf).1 hzero
    obtain ⟨st₁, hrun, htimer, hloop⟩ := hran
    refine ⟨st₁, by rw [hstep, hrun]; rfl, htimer.trans ?_, hloop.trans ?_⟩
    · simp [LoopState.stampTx, ← hst']
    · simp [LoopState.stampTx, ← hst']
  · rw [hstep, (txCallbacks_severed hs' hrest hfront hf).2 hpos, Outcome.fault_bind]

variable (tx timer curr) in
lemma txCallbacks_spec (pre : List (ℕ × TwTx))
    (hc : Chain st.tx st.loop.txHandleQueue (pre ++ rest) none) (hq : Chain st.tx q rest none)
    (hf : rest.length < fuel) :
    ((pre = [] → HeadStays tx rest) ∧ leavers tx rest ≤ 1 →
      TxRan tx timer curr fuel q st (txCalls rest)) ∧
    (¬ ((pre = [] → HeadStays tx rest) ∧ leavers tx rest ≤ 1) →
      txCallbacks (selfCallbacks tx timer) curr fuel q st = .fault) := by
  induction rest generalizing pre q st fuel with
  | nil =>
    obtain rfl : q = none := hq
    exact ⟨fun _ => ⟨st, by simp [txCallbacks, txCalls], rfl, rfl⟩,
      fun hl => absurd (by simp [HeadStays, leavers]) hl⟩
  | cons x rest ih =>
    obtain ⟨a, v⟩ := x
    obtain ⟨rfl, n, fuel, ha, ht, hne, rfl, hlen⟩ := hq.walk hf
    cases hcb : tx v.txCb with
    | leavesQueues =>
      have hset : Chain (st.stampTx curr a ⟨v, n⟩).tx st.loop.txHandleQueue
          ((pre ++ [(a, { v with lastRunTime := curr })]) ++ rest) none := by
        rw [List.append_assoc]
        exact hc.set_val ha _
      have hrest : Chain (st.stampTx curr a ⟨v, n⟩).tx n rest none := ht.write_of_notMem _ hne
      obtain ⟨hok, hbad⟩ := ih _ hset hrest hlen
      have hcond : ((pre = [] → HeadStays tx ((a, v) :: rest)) ∧
          leavers tx ((a, v) :: rest) ≤ 1) ↔ leavers tx rest ≤ 1 := by
        simp [HeadStays, leavers, hcb]
      rw [hcond]
      refine ⟨fun hle => (hok ⟨by simp, hle⟩).cons ha hcb, fun hgt => ?_⟩
      rw [txCallbacks_next ha hcb, hbad fun h => hgt h.2, Outcome.fault_bind]
    | unregistersSelf =>
      have hcount : leavers tx ((a, v) :: rest) = leavers tx rest + 1 := by
        simp [leavers, hcb]
      rcases List.eq_nil_or_concat pre with rfl | ⟨pre, ⟨l, w⟩, rfl⟩
      · refine ⟨fun hsafe => ?_, fun _ => ?_⟩
        · simp [HeadStays, hcb] at hsafe
        · have hload : (st.tx.release a).load (some a) = .fault := by
            simp [Heap.load, Heap.release]
          rw [txCallbacks_unregister ha hcb (twTxUnregister_head hc ha)]
          simp only [hload, Outcome.fault_bind]
      · rw [List.concat_eq_append, List.append_assoc, List.singleton_append] at hc
        obtain ⟨hok, hbad⟩ := txCallbacks_behind hc hcb hlen
        have hcond : ((pre.concat (l, w) = [] → HeadStays tx ((a, v) :: rest)) ∧
            leavers tx ((a, v) :: rest) ≤ 1) ↔ leavers tx rest = 0 := by
          simp [hcount]
        rw [hcond]
        exact ⟨hok, hbad⟩

end TxPhase

/-- The phase returns after calling every transmit callback and then every due timer
callback, each once and in queue order. -/
def PhaseComplete (tx timer : ℕ → CbAction) (curr : UInt64) (fuel : ℕ) (st : LoopState)
    (xs : List (ℕ × TwTx)) (ys : List (ℕ × TwTimer)) : Prop :=
  ∃ st', callbackPhase (selfCallbacks tx timer) curr fuel st =
    .ret (st', txCalls xs ++ timerCalls curr ys)

/-- The guard is open or there is nothing to call, the first transmit handle stays, at most
one of the others removes itself, and no due timer does. -/
structure PhaseSafe (tx timer : ℕ → CbAction) (curr : UInt64) (active : UInt8)
    (xs : List (ℕ × TwTx)) (ys : List (ℕ × TwTimer)) : Prop where
  guard : active ≠ 0 ∨ xs = [] ∧ ∀ y ∈ ys, ¬ y.2.due curr
  head : HeadStays tx xs
  others : leavers tx xs ≤ 1
  timers : TimersStay timer curr ys

section Phase
variable {tx timer : ℕ → CbAction} {curr : UInt64} {fuel : ℕ} {st : LoopState}
  {xs : List (ℕ × TwTx)} {ys : List (ℕ × TwTimer)}

lemma phaseComplete_closed_iff (hguard : st.loop.activeHandles = 0) :
    PhaseComplete tx timer curr fuel st xs ys ↔ xs = [] ∧ ∀ y ∈ ys, ¬ y.2.due curr := by
  have hclosed : ¬ st.loop.activeHandles > 0 := by simp [hguard]
  have hnone : txCalls xs ++ timerCalls curr ys = [] ↔ xs = [] ∧ ∀ y ∈ ys, ¬ y.2.due curr := by
    simp only [txCalls, timerCalls, List.append_eq_nil_iff, List.map_eq_nil_iff,
      List.filter_eq_nil_iff]
  rw [← hnone]
  unfold PhaseComplete callbackPhase
  rw [if_neg hclosed]
  constructor
  · rintro ⟨st', hret⟩
    exact (congrArg Prod.snd (Outcome.ret.inj hret)).symm
  · intro hnil
    exact ⟨st, by rw [hnil]⟩

lemma phaseComplete_open_iff (hguard : st.loop.activeHandles ≠ 0)
    (hx : Chain st.tx st.loop.txHandleQueue xs none)
    (hy : Chain st.timer st.loop.timerHandleQueue ys none)
    (hfx : xs.length < fuel) (hfy : ys.length < fuel) :
    PhaseComplete tx timer curr fuel st xs ys ↔
      (HeadStays tx xs ∧ leavers tx xs ≤ 1) ∧ TimersStay timer curr ys := by
  have hopen : st.loop.activeHandles > 0 := UInt8.pos_iff_ne_zero.mpr hguard
  have htx := txCallbacks_spec tx timer curr [] hx hx hfx
  unfold PhaseComplete callbackPhase
  rw [if_pos hopen]
  by_cases hsafe : HeadStays tx xs ∧ leavers tx xs ≤ 1
  · obtain ⟨st₁, hrun, htimer, hloop⟩ := htx.1 ⟨fun _ => hsafe.1, hsafe.2⟩
    have hy₁ : Chain st₁.timer st₁.loop.timerHandleQueue ys none := by rwa [htimer, hloop]
    have htimers := timerCallbacks_spec tx timer curr [] hy₁ hy₁ hfy
    simp only [hrun, Outcome.ret_bind]
    by_cases hstay : TimersStay timer curr ys
    · obtain ⟨st₂, hrun₂⟩ := htimers.1 hstay
      exact iff_of_true ⟨st₂, by simp [hrun₂]⟩ ⟨hsafe, hstay⟩
    · refine iff_of_false ?_ fun h => hstay h.2
      simp [htimers.2 hstay]
  · refine iff_of_false ?_ fun h => hsafe h.1
    simp [htx.2 fun h => hsafe ⟨h.1 rfl, h.2⟩]

end Phase

/-- A pass calls every handle that is due, once and in order, exactly when the count lets
it start and no callback takes away a handle it still needs. -/
theorem callbackPhase_complete_iff (tx timer : ℕ → CbAction) (curr : UInt64) {fuel : ℕ}
    {st : LoopState} {xs : List (ℕ × TwTx)} {ys : List (ℕ × TwTimer)}
    (hx : Chain st.tx st.loop.txHandleQueue xs none)
    (hy : Chain st.timer st.loop.timerHandleQueue ys none)
    (hfx : xs.length < fuel) (hfy : ys.length < fuel) :
    PhaseComplete tx timer curr fuel st xs ys ↔
      PhaseSafe tx timer curr st.loop.activeHandles xs ys := by
  by_cases hguard : st.loop.activeHandles = 0
  · rw [phaseComplete_closed_iff hguard]
    constructor
    · rintro ⟨rfl, hidle⟩
      refine ⟨Or.inr ⟨rfl, hidle⟩, by simp [HeadStays], by simp [leavers], fun y hmem hdue => ?_⟩
      exact absurd hdue (hidle y hmem)
    · exact fun hsafe => hsafe.guard.resolve_left fun hne => hne hguard
  · rw [phaseComplete_open_iff hguard hx hy hfx hfy]
    constructor
    · rintro ⟨⟨hhead, hothers⟩, htimers⟩
      exact ⟨Or.inl hguard, hhead, hothers, htimers⟩
    · exact fun hsafe => ⟨⟨hsafe.head, hsafe.others⟩, hsafe.timers⟩

def leavingTx : TwTx := { blankTx with txCb := 1 }

/-- Two handles, of which the second has another callback. -/
def mixedTx : LoopState :=
  { twoTx with tx := (Heap.empty.write 0 ⟨blankTx, some 1⟩).write 1 ⟨leavingTx, none⟩ }

/-- Callback `1` unregisters its own handle. -/
def oneLeaves (cb : ℕ) : CbAction := if cb = 1 then .unregistersSelf else .leavesQueues

lemma mixedTx_lists :
    Chain mixedTx.tx mixedTx.loop.txHandleQueue [(0, blankTx), (1, leavingTx)] none :=
  ⟨rfl, some 1, rfl, rfl, none, rfl, rfl⟩

theorem callbackPhase_complete_mixedTx :
    PhaseComplete oneLeaves (fun _ => .leavesQueues) 0 3 mixedTx
      [(0, blankTx), (1, leavingTx)] [] :=
  (callbackPhase_complete_iff _ _ 0 mixedTx_lists (show Chain mixedTx.timer _ [] none from rfl)
    (by decide) (by decide)).mpr
    ⟨Or.inl (by decide), by simp [HeadStays, oneLeaves, blankTx], by decide,
      by simp [TimersStay]⟩

/-- The callback of the first transmit handle removes it, as in the smoke test; its
`last_run_time` is then written in the released block. -/
theorem callbackPhase_touches_freed :
    callbackPhase (selfCallbacks (fun _ => .unregistersSelf) fun _ => .leavesQueues) 0 3 twoTx =
        .fault ∧
      ¬ PhaseComplete (fun _ => .unregistersSelf) (fun _ => .leavesQueues) 0 3 twoTx
        [(0, blankTx), (1, blankTx)] [] := by
  have hfault : callbackPhase (selfCallbacks (fun _ => .unregistersSelf) fun _ => .leavesQueues)
      0 3 twoTx = .fault := rfl
  refine ⟨hfault, ?_⟩
  rintro ⟨st', hret⟩
  rw [hfault] at hret
  cases hret

end Twister
