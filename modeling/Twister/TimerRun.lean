import Twister.CallbackPhase

/-! When a timer fires: turns of the loop at successive readings of the cycle counter,
and the readings at which one handle is called. -/
namespace Twister

/-- One turn of the loop. The calls are stamped with the reading it took. -/
def turn (cbs : Callbacks) (fuel : ℕ) (st : LoopState) (currTimeCycle : UInt64) :
    Outcome (LoopState × List (UInt64 × Call)) := do
  let (st, calls) ← callbackPhase cbs currTimeCycle fuel st
  .ret (st, calls.map fun c => (currTimeCycle, c))

def Call.isTimer (h : ℕ) : Call → Bool
  | .tx _ _ => false
  | .timer a _ => a = h

/-- The readings at which the handle was called. -/
def firings (h : ℕ) (es : List (UInt64 × Call)) : List UInt64 :=
  (es.filter fun e => e.2.isTimer h).map Prod.fst

/-- Each firing is more than `cycles` after the one before, the first after `since`. -/
def OnTime (cycles : ℕ) : ℕ → List UInt64 → Prop
  | _, [] => True
  | since, r :: rs => since + cycles < r.toNat ∧ OnTime cycles r.toNat rs

/-- The fields of the handle at `h`, its link apart. -/
def handleAt (st : LoopState) (h : ℕ) : Option TwTimer := (st.timer.cell h).map Node.val

/-- No callback changes the handle: it is not restarted and not removed. -/
structure Callbacks.Keep (cbs : Callbacks) (h : ℕ) : Prop where
  tx : ∀ cb a st st', cbs.tx cb a st = .ret st' → handleAt st' h = handleAt st h
  timer : ∀ cb a st st', cbs.timer cb a st = .ret st' → handleAt st' h = handleAt st h

/-- The handle is left alone, or it was due, is called once, and is stamped. -/
def FiresOnce (curr : UInt64) (h : ℕ) (v : TwTimer) (st : LoopState) (calls : List Call) : Prop :=
  calls.countP (Call.isTimer h) = 0 ∧ handleAt st h = some v ∨
    v.due curr ∧ calls.countP (Call.isTimer h) = 1 ∧
      handleAt st h = some { v with lastRunTime := curr }

section Turn
variable {cbs : Callbacks} {curr : UInt64} {fuel h : ℕ} {q : Option ℕ} {st st' : LoopState}
  {calls : List Call} {v : TwTimer}

lemma handleAt_eq {node : Node TwTimer} (hcell : st.timer.cell h = some node)
    (hv : handleAt st h = some v) : node.val = v := by
  simpa [handleAt, hcell] using hv

lemma handleAt_write_ne {a : ℕ} (node : Node TwTimer) (ha : a ≠ h) :
    handleAt { st with timer := st.timer.write a node } h = handleAt st h := by
  simp only [handleAt]
  rw [Heap.write_cell_ne _ _ ha.symm]

lemma handleAt_write_self (node : Node TwTimer) :
    handleAt { st with timer := st.timer.write h node } h = some node.val := by
  simp [handleAt]

lemma txCallbacks_keep (hk : cbs.Keep h)
    (hrun : txCallbacks cbs curr fuel q st = .ret (st', calls)) :
    calls.countP (Call.isTimer h) = 0 ∧ handleAt st' h = handleAt st h := by
  fun_induction txCallbacks cbs curr fuel q st generalizing calls with
  | case1 fuel st =>
    obtain ⟨rfl, rfl⟩ := Prod.mk.inj (Outcome.ret.inj hrun)
    exact ⟨rfl, rfl⟩
  | case2 => cases hrun
  | case3 fuel a st ih =>
    obtain ⟨node, -, hrun⟩ := Outcome.bind_eq_ret.mp hrun
    obtain ⟨st₁, hcb, hrun⟩ := Outcome.bind_eq_ret.mp hrun
    obtain ⟨left, -, hrun⟩ := Outcome.bind_eq_ret.mp hrun
    obtain ⟨heap, -, hrun⟩ := Outcome.bind_eq_ret.mp hrun
    obtain ⟨⟨st₂, rest⟩, hrest, hret⟩ := Outcome.bind_eq_ret.mp hrun
    obtain ⟨rfl, rfl⟩ : st₂ = st' ∧ .tx a node.val.txCb :: rest = calls := by simpa using hret
    obtain ⟨hnone, hkeep⟩ := ih st₁ left heap hrest
    have hkept : handleAt st₁ h = handleAt st h := hk.tx _ _ _ _ hcb
    exact ⟨by simpa [Call.isTimer] using hnone, hkeep.trans hkept⟩

/-- A handle that has just been stamped is not due, so a second visit skips it. -/
lemma not_due_stamped (v : TwTimer) : ¬ { v with lastRunTime := curr }.due curr := by
  simp [TwTimer.due]

lemma FiresOnce.cons_other {a cb : ℕ} (hf : FiresOnce curr h v st calls) (ha : a ≠ h) :
    FiresOnce curr h v st (.timer a cb :: calls) := by
  have hcount : (Call.timer a cb :: calls).countP (Call.isTimer h) =
      calls.countP (Call.isTimer h) := by simp [Call.isTimer, ha]
  rw [FiresOnce, hcount]
  exact hf

lemma FiresOnce.cons_self {cb : ℕ} (hdue : v.due curr)
    (hf : FiresOnce curr h { v with lastRunTime := curr } st calls) :
    FiresOnce curr h v st (.timer h cb :: calls) := by
  rcases hf with ⟨hnone, hv⟩ | ⟨hagain, -⟩
  · exact Or.inr ⟨hdue, by simp [Call.isTimer, hnone], hv⟩
  · exact absurd hagain (not_due_stamped v)

lemma timerCallbacks_firesOnce (hk : cbs.Keep h) (hv : handleAt st h = some v)
    (hrun : timerCallbacks cbs curr fuel q st = .ret (st', calls)) :
    FiresOnce curr h v st' calls := by
  fun_induction timerCallbacks cbs curr fuel q st generalizing calls v with
  | case1 fuel st =>
    obtain ⟨rfl, rfl⟩ := Prod.mk.inj (Outcome.ret.inj hrun)
    exact Or.inl ⟨rfl, hv⟩
  | case2 => cases hrun
  | case3 fuel a st ihCalled ihSkipped =>
    obtain ⟨node, hnode, hrun⟩ := Outcome.bind_eq_ret.mp hrun
    by_cases hdue : node.val.due curr
    · rw [if_pos hdue] at hrun
      obtain ⟨st₁, hcb, hrun⟩ := Outcome.bind_eq_ret.mp hrun
      obtain ⟨left, hleft, hrun⟩ := Outcome.bind_eq_ret.mp hrun
      rw [Heap.store_some _ (Heap.load_eq_ret.mp hleft), Outcome.ret_bind] at hrun
      obtain ⟨⟨st₂, rest⟩, hrest, hret⟩ := Outcome.bind_eq_ret.mp hrun
      obtain ⟨rfl, rfl⟩ : st₂ = st' ∧ .timer a node.val.timerCb :: rest = calls := by
        simpa using hret
      have hv₁ : handleAt st₁ h = some v := (hk.timer _ _ _ _ hcb).trans hv
      by_cases ha : a = h
      · subst ha
        obtain rfl := handleAt_eq (Heap.load_eq_ret.mp hnode) hv
        have hsame := handleAt_eq (Heap.load_eq_ret.mp hleft) hv₁
        refine FiresOnce.cons_self hdue (ihCalled st₁ left _ ?_ hrest)
        rw [handleAt_write_self, hsame]
      · exact (ihCalled st₁ left _ ((handleAt_write_ne _ ha).trans hv₁) hrest).cons_other ha
    · rw [if_neg hdue] at hrun
      exact ihSkipped node hv hrun

lemma callbackPhase_firesOnce (hk : cbs.Keep h) (hv : handleAt st h = some v)
    (hrun : callbackPhase cbs curr fuel st = .ret (st', calls)) :
    FiresOnce curr h v st' calls := by
  unfold callbackPhase at hrun
  split at hrun
  · obtain ⟨⟨st₁, txs⟩, htx, hrun⟩ := Outcome.bind_eq_ret.mp hrun
    obtain ⟨⟨st₂, timers⟩, htimer, hret⟩ := Outcome.bind_eq_ret.mp hrun
    obtain ⟨rfl, rfl⟩ : st₂ = st' ∧ txs ++ timers = calls := by simpa using hret
    obtain ⟨hnone, hkeep⟩ := txCallbacks_keep hk htx
    have hfires := timerCallbacks_firesOnce hk (hkeep.trans hv) htimer
    rwa [FiresOnce, List.countP_append, hnone, Nat.zero_add]
  · obtain ⟨rfl, rfl⟩ : st = st' ∧ [] = calls := by simpa using hrun
    exact Or.inl ⟨rfl, hv⟩

/-- What one turn does to the handle: it fires at the reading if it was due, or not at
all. -/
lemma turn_fires {es : List (UInt64 × Call)} (hk : cbs.Keep h) (hv : handleAt st h = some v)
    (hrun : turn cbs fuel st curr = .ret (st', es)) :
    firings h es = [] ∧ handleAt st' h = some v ∨
      v.due curr ∧ firings h es = [curr] ∧ handleAt st' h = some { v with lastRunTime := curr } := by
  obtain ⟨⟨st₁, calls⟩, hphase, hret⟩ := Outcome.bind_eq_ret.mp hrun
  obtain ⟨rfl, rfl⟩ : st₁ = st' ∧ calls.map (fun c => (curr, c)) = es := by simpa using hret
  have hcount : firings h (calls.map fun c => (curr, c)) =
      List.replicate (calls.countP (Call.isTimer h)) curr := by
    simp only [firings, List.filter_map, List.map_map, List.countP_eq_length_filter]
    exact List.map_const'
  rw [hcount]
  rcases callbackPhase_firesOnce hk hv hphase with ⟨hnone, hv'⟩ | ⟨hdue, hone, hv'⟩
  · exact Or.inl ⟨by rw [hnone]; rfl, hv'⟩
  · exact Or.inr ⟨hdue, by rw [hone]; rfl, hv'⟩

lemma firings_append (h : ℕ) (es es' : List (UInt64 × Call)) :
    firings h (es ++ es') = firings h es ++ firings h es' := by simp [firings]

end Turn

section Deadline

/-- `timeout` milliseconds in cycles, before it is cut to 64 bits. -/
def cyclesOf (hz timeout : UInt64) : ℕ := timeout.toNat * (hz.toNat / 1000)

/-- From the start on, as long as the clock has not passed the deadline, the count since
`last_run_time` does not exceed the timeout that was stored. -/
def DeadlineKept (hz timeout start lastRunTime : UInt64) : Prop :=
  let cycles := cyclesOf hz timeout
  min ((start - lastRunTime).toNat + min cycles (2 ^ 64 - 1 - start.toNat)) (2 ^ 64 - 1) ≤
    cycles % 2 ^ 64

variable {hz timeout start last : UInt64}

lemma timeout_toNat : (timeout * (hz / 1000)).toNat = cyclesOf hz timeout % 2 ^ 64 := by
  simp [cyclesOf]

/-- Firing at a reading that is due is on time, whatever the reading. -/
lemma deadlineKept_iff : DeadlineKept hz timeout start last ↔
    ∀ r : UInt64, start ≤ r → timeout * (hz / 1000) < r - last →
      start.toNat + cyclesOf hz timeout < r.toNat := by
  have hs := start.toNat_lt
  have hl := last.toNat_lt
  unfold DeadlineKept
  constructor
  · intro hkept r hr hdue
    have hrt := r.toNat_lt
    rw [UInt64.le_iff_toNat_le] at hr
    rw [UInt64.lt_iff_toNat_lt, timeout_toNat, UInt64.toNat_sub] at hdue
    rw [UInt64.toNat_sub] at hkept
    omega
  · intro hall
    -- the last reading up to the deadline before the count since `last_run_time` wraps
    by_contra hlate
    rw [UInt64.toNat_sub] at hlate
    obtain ⟨k, hk⟩ : ∃ k, k = min (min (cyclesOf hz timeout) (2 ^ 64 - 1 - start.toNat))
      (2 ^ 64 - 1 - (2 ^ 64 - last.toNat + start.toNat) % 2 ^ 64) := ⟨_, rfl⟩
    have hkt : (UInt64.ofNat (start.toNat + k)).toNat = start.toNat + k := by
      rw [UInt64.toNat_ofNat']
      omega
    have hdue := hall (UInt64.ofNat (start.toNat + k))
    rw [UInt64.le_iff_toNat_le, UInt64.lt_iff_toNat_lt, timeout_toNat, UInt64.toNat_sub, hkt]
      at hdue
    omega

/-- With a deadline that the clock can pass, only a handle stamped at its start will do. -/
theorem deadlineKept_iff_fresh (h : start.toNat + cyclesOf hz timeout < 2 ^ 64 - 1) :
    DeadlineKept hz timeout start last ↔ last = start := by
  have hs := start.toNat_lt
  have hl := last.toNat_lt
  unfold DeadlineKept
  rw [← UInt64.toNat_inj, UInt64.toNat_sub]
  omega

end Deadline

section Run
variable {cbs : Callbacks} {fuel h : ℕ} {st st' : LoopState} {hz timeout : UInt64}
  {es : List (UInt64 × Call)} {readings : List UInt64}

/-- After a firing the next one is on time. -/
lemma due_after_firing {v : TwTimer} {r r' : UInt64} (hv : v.timeout = timeout * (hz / 1000))
    (hfits : cyclesOf hz timeout < 2 ^ 64) (hle : r ≤ r')
    (hdue : { v with lastRunTime := r }.due r') :
    r.toNat + cyclesOf hz timeout < r'.toNat := by
  have hr := r.toNat_lt
  have hr' := r'.toNat_lt
  simp only [TwTimer.due, gt_iff_lt, decide_eq_true_eq, hv] at hdue
  rw [UInt64.lt_iff_toNat_lt, timeout_toNat, UInt64.toNat_sub] at hdue
  rw [UInt64.le_iff_toNat_le] at hle
  omega

/-- `since` is when the handle was started or fired last, `lo` the reading before. -/
lemma run_onTime {since : ℕ} {lo : UInt64} {v : TwTimer} (hk : cbs.Keep h)
    (hv : handleAt st h = some v) (htimeout : v.timeout = timeout * (hz / 1000))
    (hfirst : ∀ r, lo ≤ r → v.due r → since + cyclesOf hz timeout < r.toNat)
    (hsorted : (lo :: readings).Pairwise (· ≤ ·))
    (hrun : runOps (turn cbs fuel) st readings = .ret (st', es)) :
    OnTime (cyclesOf hz timeout) since (firings h es) := by
  induction readings generalizing st es since lo v with
  | nil =>
    obtain ⟨rfl, rfl⟩ : st = st' ∧ [] = es := by simpa [runOps] using hrun
    trivial
  | cons r rs ih =>
    obtain ⟨⟨st₁, es₁⟩, hturn, hrun⟩ := Outcome.bind_eq_ret.mp hrun
    obtain ⟨⟨st₂, es₂⟩, hrest, hret⟩ := Outcome.bind_eq_ret.mp hrun
    obtain ⟨rfl, rfl⟩ : st₂ = st' ∧ es₁ ++ es₂ = es := by simpa using hret
    obtain ⟨hlo, hrs⟩ := List.pairwise_cons.mp hsorted
    have hle : lo ≤ r := hlo r (by simp)
    rw [firings_append]
    rcases turn_fires hk hv hturn with ⟨hnone, hv'⟩ | ⟨hdue, hone, hv'⟩
    · rw [hnone, List.nil_append]
      exact ih hv' htimeout (fun r' hr' => hfirst r' (UInt64.le_trans hle hr')) hrs hrest
    · have hpast := hfirst r hle hdue
      have hfits : cyclesOf hz timeout < 2 ^ 64 := by
        have hr := r.toNat_lt
        omega
      rw [hone, List.singleton_append]
      refine ⟨hpast, ih hv' htimeout ?_ hrs hrest⟩
      exact fun r' hr' hdue' => due_after_firing htimeout hfits hr' hdue'

end Run

section Start
variable {mem : Malloc (Node TwTimer)} {st st₁ st₂ : LoopState} {h cb : ℕ} {junk : TwTimer}
  {link : Option ℕ} {hz timeout start : UInt64}

/-- What registration and start leave in the handle: `last_run_time` is still what the
allocator returned. -/
lemma handleAt_started (hpick : mem.pick st.timer = some (h, ⟨junk, link⟩))
    (hinit : twTimerInit mem st = .ret (some h, st₁))
    (hstart : twTimerStart (some h) cb timeout hz st₁ = .ret (0, st₂)) :
    handleAt st₂ h =
      some ⟨twTimerHandle, junk.lastRunTime, timeout * (hz / 1000), cb⟩ := by
  obtain ⟨⟨heap, root, ptr⟩, hpush, hret⟩ := Outcome.bind_eq_ret.mp hinit
  obtain ⟨rfl, hcell⟩ := pushFilled_block hpick hpush
  obtain ⟨-, rfl⟩ := Prod.mk.inj (Outcome.ret.inj hret)
  simp only [twTimerStart, Heap.load_some hcell, Heap.store_some _ hcell, Outcome.ret_bind]
    at hstart
  obtain ⟨-, rfl⟩ := Prod.mk.inj (Outcome.ret.inj hstart)
  simp [handleAt]

/-- A timer that was registered in a block holding `junk` and started at clock value
`start` never fires early, whatever else the loop has to do. -/
def NeverEarly (hz timeout start : UInt64) (junk : TwTimer) (cb : ℕ) : Prop :=
  ∀ (mem : Malloc (Node TwTimer)) (st st₁ st₂ loop : LoopState) (h : ℕ) (link : Option ℕ),
    mem.pick st.timer = some (h, ⟨junk, link⟩) → twTimerInit mem st = .ret (some h, st₁) →
    twTimerStart (some h) cb timeout hz st₁ = .ret (0, st₂) →
    -- other handles may have been registered before the loop runs
    handleAt loop h = handleAt st₂ h →
    ∀ (cbs : Callbacks) (fuel : ℕ) (readings : List UInt64), cbs.Keep h →
      (start :: readings).Pairwise (· ≤ ·) →
      ∀ loop' es, runOps (turn cbs fuel) loop readings = .ret (loop', es) →
        OnTime (cyclesOf hz timeout) start.toNat (firings h es)

lemma neverEarly_of_due
    (hdue : ∀ r : UInt64, start ≤ r → timeout * (hz / 1000) < r - junk.lastRunTime →
      start.toNat + cyclesOf hz timeout < r.toNat) : NeverEarly hz timeout start junk cb := by
  intro mem st st₁ st₂ loop h link hpick hinit hstart hsame cbs fuel readings hk hsorted
    loop' es hrun
  have hv := hsame.trans (handleAt_started hpick hinit hstart)
  refine run_onTime hk hv rfl (fun r hr hd => hdue r hr ?_) hsorted hrun
  simpa [TwTimer.due] using hd

/-- A loop whose only handle is the timer. -/
def oneTimer (v : TwTimer) : LoopState where
  loop := ⟨1, none, none, some 0, 0⟩
  rx := .empty
  tx := .empty
  timer := Heap.empty.write 0 ⟨v, none⟩

def quietCallbacks : Callbacks := selfCallbacks (fun _ => .leavesQueues) fun _ => .leavesQueues

lemma quietCallbacks_keep (h : ℕ) : quietCallbacks.Keep h where
  tx := by
    rintro cb a st st' ⟨⟩
    rfl
  timer := by
    rintro cb a st st' ⟨⟩
    rfl

lemma oneTimer_fires {v : TwTimer} {r : UInt64} (hdue : v.due r) :
    ∃ loop', runOps (turn quietCallbacks 1) (oneTimer v) [r] =
      .ret (loop', [(r, .timer 0 v.timerCb)]) := by
  have hcell : (oneTimer v).timer.cell 0 = some ⟨v, none⟩ := Heap.write_cell_self _ _ _
  have htimers : timerCallbacks quietCallbacks r 1 (some 0) (oneTimer v) =
      .ret ((oneTimer v).stampTimer r 0 ⟨v, none⟩, [.timer 0 v.timerCb]) :=
    timerCallbacks_next hcell hdue rfl
  have hturn : turn quietCallbacks 1 (oneTimer v) r =
      .ret ((oneTimer v).stampTimer r 0 ⟨v, none⟩, [(r, .timer 0 v.timerCb)]) := by
    have hactive : (oneTimer v).loop.activeHandles > 0 :=
      show (1 : UInt8) > 0 by decide
    have htx : txCallbacks quietCallbacks r 1 (oneTimer v).loop.txHandleQueue (oneTimer v) =
      .ret (oneTimer v, []) := rfl
    have hqueue : (oneTimer v).loop.timerHandleQueue = some 0 := rfl
    simp only [turn, callbackPhase, if_pos hactive, htx, hqueue, htimers, Outcome.ret_bind]
    rfl
  exact ⟨_, by rw [runOps, hturn]; rfl⟩

lemma NeverEarly.due (hnever : NeverEarly hz timeout start junk cb) {r : UInt64}
    (hr : start ≤ r) (hdue : timeout * (hz / 1000) < r - junk.lastRunTime) :
    start.toNat + cyclesOf hz timeout < r.toNat := by
  let v : TwTimer := ⟨twTimerHandle, junk.lastRunTime, timeout * (hz / 1000), cb⟩
  obtain ⟨loop', hrun⟩ := oneTimer_fires (v := v) (r := r) (decide_eq_true hdue)
  have hsorted : [start, r].Pairwise (· ≤ ·) := by simpa using hr
  let st : LoopState := ⟨⟨0, none, none, none, 0⟩, .empty, .empty, .empty⟩
  have hontime := hnever (.bump ⟨junk, none⟩) st _ _ (oneTimer v) 0 none rfl rfl rfl rfl
    quietCallbacks 1 [r] (quietCallbacks_keep 0) hsorted loop' _ hrun
  exact hontime.1

theorem timer_neverEarly_iff (hz timeout start : UInt64) (junk : TwTimer) (cb : ℕ) :
    NeverEarly hz timeout start junk cb ↔ DeadlineKept hz timeout start junk.lastRunTime := by
  rw [deadlineKept_iff]
  exact ⟨fun hnever r hr hdue => hnever.due hr hdue, neverEarly_of_due⟩

/-- A timer of 250 ms in a block that was zero, started a quarter of an hour after the
machine: it fires at once. -/
theorem timer_fires_at_once :
    ¬ NeverEarly 1000000000 250 1000000000000 ⟨0, 0, 0, 0⟩ 0 :=
  fun hnever => absurd (hnever.due (r := 1000000000000) (by decide) (by decide)) (by decide)

end Start
end Twister
