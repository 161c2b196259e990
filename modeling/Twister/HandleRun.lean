import Twister.HandleQueues

/-! Sequences of registrations and removals on one event loop: when its queues list
exactly the registered handles, and when `active_handles` counts them. -/
namespace Twister

inductive HandleKind
  | rx
  | tx
  | timer
  deriving DecidableEq, Repr

inductive HandleEvent
  | registered (kind : HandleKind) (ptr : Option ℕ)
  | unregistered (kind : HandleKind) (ptr : Option ℕ)
  deriving DecidableEq, Repr

inductive LoopOp
  | rxInit (mem : Malloc (Node TwRx))
  | txInit (mem : Malloc (Node TwTx))
  | timerInit (mem : Malloc (Node TwTimer))
  | txUnregister (handle : Option ℕ)
  | timerUnregister (handle : Option ℕ)

def execLoop (st : LoopState) : LoopOp → Outcome (LoopState × List HandleEvent)
  | .rxInit mem => do
    let (ptr, st) ← twRxInit mem st
    .ret (st, [.registered .rx ptr])
  | .txInit mem => do
    let (ptr, st) ← twTxInit mem st
    .ret (st, [.registered .tx ptr])
  | .timerInit mem => do
    let (ptr, st) ← twTimerInit mem st
    .ret (st, [.registered .timer ptr])
  | .txUnregister handle => do
    let (code, st) ← twTxUnregister handle st
    .ret (st, if code = 0 then [.unregistered .tx handle] else [])
  | .timerUnregister handle => do
    let (code, st) ← twTimerUnregister handle st
    .ret (st, if code = 0 then [.unregistered .timer handle] else [])

def noteHandle (kind : HandleKind) (as : List ℕ) : HandleEvent → List ℕ
  | .registered k ptr => if k = kind then as ++ ptr.toList else as
  | .unregistered k ptr => if k = kind then as.filter (fun a => some a ≠ ptr) else as

/-- The handles of one kind that a history leaves registered, oldest first. -/
def registered (kind : HandleKind) (es : List HandleEvent) : List ℕ :=
  es.foldl (noteHandle kind) []

@[simp] lemma registered_snoc (kind : HandleKind) (es : List HandleEvent) (e : HandleEvent) :
    registered kind (es ++ [e]) = noteHandle kind (registered kind es) e := by
  simp [registered]

/-- Each queue is a null terminated list of exactly the registered handles. -/
structure QueuesHold (st : LoopState) (es : List HandleEvent) : Prop where
  rx : Holds st.rx st.loop.rxHandleQueue (registered .rx es)
  tx : Holds st.tx st.loop.txHandleQueue (registered .tx es)
  timer : Holds st.timer st.loop.timerHandleQueue (registered .timer es)

/-- Any registration; of removals only those of a registered timer handle. -/
def TimerRemovals (_ : LoopState) (es : List HandleEvent) : LoopOp → Prop
  | .rxInit _ | .txInit _ | .timerInit _ => True
  | .txUnregister _ => False
  | .timerUnregister handle => ∃ a ∈ registered .timer es, handle = some a

/-- The block handed out for the new handle has a null link. -/
def LinkIsNull (st : LoopState) : LoopOp → Prop
  | .rxInit mem => ∃ a junk, mem.pick st.rx = some (a, junk) ∧ junk.next = none
  | .txInit mem => ∃ a junk, mem.pick st.tx = some (a, junk) ∧ junk.next = none
  | .timerInit mem => ∃ a junk, mem.pick st.timer = some (a, junk) ∧ junk.next = none
  | .txUnregister _ | .timerUnregister _ => True

lemma rxInit_queuesHold_iff {st : LoopState} {es : List HandleEvent} (hq : QueuesHold st es)
    (mem : Malloc (Node TwRx)) :
    (∃ st' es', execLoop st (.rxInit mem) = .ret (st', es') ∧ QueuesHold st' (es ++ es')) ↔
      LinkIsNull st (.rxInit mem) := by
  rw [LinkIsNull, ← pushFilled_holds_iff (fun x => { x with handleType := twUdpHandle }) hq.rx]
  simp only [execLoop, twRxInit, bind_assoc, Outcome.ret_bind, Outcome.exists_bind_ret,
    Prod.exists]
  refine exists₃_congr fun heap root ptr => and_congr_right fun _ =>
    ⟨fun hold => ?_, fun hold => ?_⟩
  · simpa [noteHandle] using hold.rx
  · exact ⟨by simpa [noteHandle] using hold, by simpa [noteHandle] using hq.tx,
      by simpa [noteHandle] using hq.timer⟩

lemma txInit_queuesHold_iff {st : LoopState} {es : List HandleEvent} (hq : QueuesHold st es)
    (mem : Malloc (Node TwTx)) :
    (∃ st' es', execLoop st (.txInit mem) = .ret (st', es') ∧ QueuesHold st' (es ++ es')) ↔
      LinkIsNull st (.txInit mem) := by
  rw [LinkIsNull, ← pushFilled_holds_iff (fun x => { x with handleType := twTxHandle }) hq.tx]
  simp only [execLoop, twTxInit, bind_assoc, Outcome.ret_bind, Outcome.exists_bind_ret,
    Prod.exists]
  refine exists₃_congr fun heap root ptr => and_congr_right fun _ =>
    ⟨fun hold => ?_, fun hold => ?_⟩
  · simpa [noteHandle] using hold.tx
  · exact ⟨by simpa [noteHandle] using hq.rx, by simpa [noteHandle] using hold,
      by simpa [noteHandle] using hq.timer⟩

lemma timerInit_queuesHold_iff {st : LoopState} {es : List HandleEvent} (hq : QueuesHold st es)
    (mem : Malloc (Node TwTimer)) :
    (∃ st' es', execLoop st (.timerInit mem) = .ret (st', es') ∧ QueuesHold st' (es ++ es')) ↔
      LinkIsNull st (.timerInit mem) := by
  rw [LinkIsNull,
    ← pushFilled_holds_iff (fun x => { x with handleType := twTimerHandle }) hq.timer]
  simp only [execLoop, twTimerInit, bind_assoc, Outcome.ret_bind, Outcome.exists_bind_ret,
    Prod.exists]
  refine exists₃_congr fun heap root ptr => and_congr_right fun _ =>
    ⟨fun hold => ?_, fun hold => ?_⟩
  · simpa [noteHandle] using hold.timer
  · exact ⟨by simpa [noteHandle] using hq.rx, by simpa [noteHandle] using hq.tx,
      by simpa [noteHandle] using hold⟩

lemma timerUnregister_queuesHold {st : LoopState} {es : List HandleEvent} {a : ℕ}
    (hq : QueuesHold st es) (ha : a ∈ registered .timer es) :
    ∃ st' es', execLoop st (.timerUnregister (some a)) = .ret (st', es') ∧
      QueuesHold st' (es ++ es') := by
  obtain ⟨xs, hc, hmap⟩ := hq.timer
  obtain ⟨⟨b, v⟩, hmem, rfl⟩ := List.mem_map.mp (hmap ▸ ha)
  obtain ⟨pre, post, rfl⟩ := List.append_of_mem hmem
  obtain ⟨heap, root, hcall, hc', -⟩ := twTimerUnregister_registered hc
  refine ⟨_, _, by rw [execLoop, hcall]; rfl, ?_, ?_, pre ++ post, hc', ?_⟩
  · simpa [noteHandle] using hq.rx
  · simpa [noteHandle] using hq.tx
  · have hfilter := congrArg (List.map Prod.fst) hc.filter_ne
    rw [if_pos rfl, registered_snoc, ← hmap, noteHandle, if_pos rfl, List.filter_map, ← hfilter]
    congr 1
    simp [Function.comp_def]

lemma execLoop_queuesHold_iff {st : LoopState} {es : List HandleEvent} {op : LoopOp}
    (hq : QueuesHold st es) (hop : TimerRemovals st es op) :
    (∃ st' es', execLoop st op = .ret (st', es') ∧ QueuesHold st' (es ++ es')) ↔
      LinkIsNull st op := by
  cases op with
  | rxInit mem => exact rxInit_queuesHold_iff hq mem
  | txInit mem => exact txInit_queuesHold_iff hq mem
  | timerInit mem => exact timerInit_queuesHold_iff hq mem
  | txUnregister handle => exact hop.elim
  | timerUnregister handle =>
    obtain ⟨a, ha, rfl⟩ := hop
    exact iff_of_true (timerUnregister_queuesHold hq ha) trivial

/-- The queues hold the registered handles exactly when `malloc` happened to return null
heads and every handle was allocated with a null link. -/
theorem handleQueues_hold_iff (block : TwLoop) (timeToRun : UInt16) {loop : TwLoop}
    (hloop : twDefaultLoop (some block) timeToRun = .ret loop) (rx : Heap (Node TwRx))
    (tx : Heap (Node TwTx)) (timer : Heap (Node TwTimer)) {ops : List LoopOp}
    (hops : EachCall execLoop ⟨loop, rx, tx, timer⟩ TimerRemovals ops) :
    Throughout execLoop ⟨loop, rx, tx, timer⟩ (fun _ st es => QueuesHold st es) ops ↔
      (block.rxHandleQueue = none ∧ block.txHandleQueue = none ∧
        block.timerHandleQueue = none) ∧
      EachStep execLoop ⟨loop, rx, tx, timer⟩ LinkIsNull ops := by
  obtain rfl : _ = loop := Outcome.ret.inj hloop
  by_cases hnull : block.rxHandleQueue = none ∧ block.txHandleQueue = none ∧
      block.timerHandleQueue = none
  · have hgood : QueuesHold ⟨{ block with secsToRun := timeToRun }, rx, tx, timer⟩ [] :=
      ⟨holds_nil.mpr hnull.1, holds_nil.mpr hnull.2.1, holds_nil.mpr hnull.2.2⟩
    rw [throughout_iff_of_step hgood (fun _ _ _ _ => execLoop_queuesHold_iff) hops]
    exact ⟨fun hall => ⟨hnull, hall⟩, fun hall => hall.2⟩
  · refine iff_of_false (fun hall => hnull ?_) fun hall => hnull hall.1
    obtain ⟨s, es, hrun, hrx, htx, htimer⟩ := hall [] List.nil_prefix
    obtain ⟨rfl, rfl⟩ : _ = s ∧ [] = es := by simpa [runOps] using hrun
    exact ⟨holds_nil.mp hrx, holds_nil.mp htx, holds_nil.mp htimer⟩

def zeroTx : Node TwTx := ⟨⟨0, 0, 0⟩, none⟩

def zeroTimer : Node TwTimer := ⟨⟨0, 0, 0, 0⟩, none⟩

def zeroLoop : TwLoop := ⟨0, none, none, none, 0⟩

def zeroState : LoopState := ⟨zeroLoop, .empty, .empty, .empty⟩

theorem handleQueues_hold_twoTimers :
    Throughout execLoop zeroState (fun _ st es => QueuesHold st es)
      [.timerInit (.bump zeroTimer), .timerInit (.bump zeroTimer)] := by
  refine (handleQueues_hold_iff zeroLoop 0 rfl .empty .empty .empty ?_).mpr ⟨by decide, ?_⟩
  · exact eachCall_cons rfl trivial (eachCall_cons rfl trivial (eachCall_nil _ _ _))
  · exact eachCall_cons rfl ⟨0, zeroTimer, rfl, rfl⟩
      (eachCall_cons rfl ⟨1, zeroTimer, rfl, rfl⟩ (eachCall_nil _ _ _))

/-- Two timers, the first one removed, and its block returned for a third one with the
link to the second still in it: the second and the third now link to each other. -/
def staleOps : List LoopOp :=
  [.timerInit (.bump zeroTimer), .timerInit (.bump zeroTimer), .timerUnregister (some 0),
    .timerInit (.reuse 0 ⟨blankTimer, some 1⟩)]

theorem handleQueues_cycle : EachCall execLoop zeroState TimerRemovals staleOps ∧
    ¬ Throughout execLoop zeroState (fun _ st es => QueuesHold st es) staleOps := by
  constructor
  · refine eachCall_cons rfl trivial (eachCall_cons rfl trivial (eachCall_cons rfl ?_
      (eachCall_cons rfl trivial (eachCall_nil _ _ _))))
    exact ⟨0, by decide, rfl⟩
  · intro hall
    obtain ⟨s, es, hrun, hold⟩ := hall staleOps List.prefix_rfl
    obtain ⟨rfl, rfl⟩ : _ = s ∧ _ = es := Prod.mk.inj (Outcome.ret.inj hrun)
    obtain ⟨zs, hz, hmap⟩ := hold.timer
    have hreg : zs.map Prod.fst = [1, 0] := hmap.trans (by decide)
    have hend := hz.end_unique (show Chain _ _ [(1, blankTimer), (0, blankTimer)] (some 1) from
      ⟨rfl, some 0, rfl, rfl, some 1, rfl, rfl⟩) (by simpa using congrArg List.length hreg)
    cases hend

/-- `active_handles` is the number of transmit and timer handles, so that the guard of
the callback phase is open exactly when there is a callback to run. -/
def HandlesCounted (st : LoopState) : Prop :=
  ∃ xs ys, Chain st.tx st.loop.txHandleQueue xs none ∧
    Chain st.timer st.loop.timerHandleQueue ys none ∧
    st.loop.activeHandles.toNat = xs.length + ys.length ∧
    (0 < st.loop.activeHandles ↔ xs ≠ [] ∨ ys ≠ [])

/-- Transmit and timer handles only, their blocks cleared. -/
def ZeroedBlocks (st : LoopState) (_ : List HandleEvent) : LoopOp → Prop
  | .rxInit _ => False
  | .txInit mem => ∃ a, mem.pick st.tx = some (a, zeroTx)
  | .timerInit mem => ∃ a, mem.pick st.timer = some (a, zeroTimer)
  | .txUnregister _ | .timerUnregister _ => True

/-- The counter has room for one more handle, no transmit handle behind the head is
removed, and no null timer handle while there are timers. -/
def CountKept (st : LoopState) : LoopOp → Prop
  | .rxInit _ => True
  | .txInit _ | .timerInit _ => st.loop.activeHandles ≠ 255
  | .txUnregister handle =>
    ∀ xs, Chain st.tx st.loop.txHandleQueue xs none → ∀ x ∈ xs.tail, some x.1 ≠ handle
  | .timerUnregister handle => handle = none → st.loop.timerHandleQueue = none

lemma guard_iff {α β : Type} {n : UInt8} {xs : List α} {ys : List β}
    (hn : n.toNat = xs.length + ys.length) : 0 < n ↔ xs ≠ [] ∨ ys ≠ [] := by
  rw [UInt8.lt_iff_toNat_lt, hn, ← List.length_pos_iff, ← List.length_pos_iff]
  simp only [UInt8.toNat_zero]
  omega

lemma uint8_succ_toNat (n : UInt8) : (n + 1).toNat = n.toNat + 1 ↔ n ≠ 255 := by
  have hlt := n.toNat_lt
  rw [UInt8.toNat_add, ne_eq, ← UInt8.toNat_inj]
  simp only [UInt8.reduceToNat]
  omega

lemma uint8_pred_toNat {n : UInt8} {k : ℕ} (hn : n.toNat = k + 1) : (n - 1).toNat = k := by
  have hle : (1 : UInt8) ≤ n := by
    rw [UInt8.le_iff_toNat_le, hn]
    simp
  rw [UInt8.toNat_sub_of_le _ _ hle, hn]
  simp

lemma HandlesCounted.intro {st : LoopState} {xs : List (ℕ × TwTx)} {ys : List (ℕ × TwTimer)}
    (hx : Chain st.tx st.loop.txHandleQueue xs none)
    (hy : Chain st.timer st.loop.timerHandleQueue ys none)
    (hn : st.loop.activeHandles.toNat = xs.length + ys.length) : HandlesCounted st :=
  ⟨xs, ys, hx, hy, hn, guard_iff hn⟩

lemma handlesCounted_iff {st : LoopState} {xs : List (ℕ × TwTx)} {ys : List (ℕ × TwTimer)}
    (hx : Chain st.tx st.loop.txHandleQueue xs none)
    (hy : Chain st.timer st.loop.timerHandleQueue ys none) :
    HandlesCounted st ↔ st.loop.activeHandles.toNat = xs.length + ys.length := by
  constructor
  · rintro ⟨xs', ys', hx', hy', hn, -⟩
    rw [hx.unique hx', hy.unique hy', hn]
  · exact HandlesCounted.intro hx hy

section CountStep
variable {st : LoopState} {xs : List (ℕ × TwTx)} {ys : List (ℕ × TwTimer)}
  (hx : Chain st.tx st.loop.txHandleQueue xs none)
  (hy : Chain st.timer st.loop.timerHandleQueue ys none)
  (hn : st.loop.activeHandles.toNat = xs.length + ys.length)
include hx hy hn

lemma txInit_counted_iff {mem : Malloc (Node TwTx)} {a : ℕ}
    (hm : mem.pick st.tx = some (a, zeroTx)) :
    (∃ st' es', execLoop st (.txInit mem) = .ret (st', es') ∧ HandlesCounted st') ↔
      st.loop.activeHandles ≠ 255 := by
  obtain ⟨heap, root, hpush, hx'⟩ :=
    pushFilled_some (fun x => { x with handleType := twTxHandle }) hx hm
  simp only [execLoop, twTxInit, hpush, Outcome.ret_bind, Outcome.exists_ret]
  refine Iff.trans (handlesCounted_iff hx' hy) ?_
  rw [← uint8_succ_toNat, hn]
  simp only [List.length_append, List.length_singleton]
  omega

lemma timerInit_counted_iff {mem : Malloc (Node TwTimer)} {a : ℕ}
    (hm : mem.pick st.timer = some (a, zeroTimer)) :
    (∃ st' es', execLoop st (.timerInit mem) = .ret (st', es') ∧ HandlesCounted st') ↔
      st.loop.activeHandles ≠ 255 := by
  obtain ⟨heap, root, hpush, hy'⟩ :=
    pushFilled_some (fun x => { x with handleType := twTimerHandle }) hy hm
  simp only [execLoop, twTimerInit, hpush, Outcome.ret_bind, Outcome.exists_ret]
  refine Iff.trans (handlesCounted_iff hx hy') ?_
  rw [← uint8_succ_toNat, hn]
  simp only [List.length_append, List.length_singleton]
  omega

lemma txUnregister_counted_iff (handle : Option ℕ) :
    (∃ st' es', execLoop st (.txUnregister handle) = .ret (st', es') ∧ HandlesCounted st') ↔
      ∀ x ∈ xs.tail, some x.1 ≠ handle := by
  have hcounted := HandlesCounted.intro hx hy hn
  cases handle with
  | none =>
    simp only [execLoop, twTxUnregister_null, Outcome.ret_bind, Outcome.exists_ret]
    exact iff_of_true hcounted fun x _ => Option.some_ne_none x.1
  | some a =>
    rcases position a xs with habs | ⟨v, post, rfl⟩ | ⟨pre, l, w, v, post, rfl⟩
    · simp only [execLoop, twTxUnregister_absent hx habs, Outcome.ret_bind, Outcome.exists_ret]
      refine iff_of_true hcounted fun x hmem he => ?_
      exact habs x (List.mem_of_mem_tail hmem) (Option.some.inj he)
    · obtain ⟨n, ha⟩ := hx.live List.mem_cons_self
      simp only [execLoop, twTxUnregister_head hx ha, Outcome.ret_bind, Outcome.exists_ret]
      refine iff_of_true (HandlesCounted.intro (hx.tail ha) hy ?_) fun x hmem he => ?_
      · refine uint8_pred_toNat ?_
        rw [hn, List.length_cons]
        omega
      · exact hx.head_ne x hmem (Option.some.inj he)
    · have hmem : (a, v) ∈ pre ++ (l, w) :: (a, v) :: post := by simp
      obtain ⟨n, ha⟩ := hx.live hmem
      simp only [execLoop, (twTxUnregister_behind hx ha).2, Outcome.ret_bind, Outcome.exists_ret]
      refine iff_of_false ?_ fun hno => hno (a, v) (by cases pre <;> simp) rfl
      rintro ⟨xs', ys', hx', -⟩
      have hnd := hx.nodup
      refine hx.broken (fun x hpre => ?_) (by simp [Heap.release]) ⟨xs', hx'⟩
      have hne : x.1 ≠ l := by
        rw [List.map_append, List.nodup_append] at hnd
        exact hnd.2.2 x.1 (List.mem_map_of_mem hpre) l (by simp)
      rw [Heap.release_cell_ne _ hne, Heap.write_cell_ne _ _ hne]

lemma timerUnregister_counted_iff (handle : Option ℕ) :
    (∃ st' es', execLoop st (.timerUnregister handle) = .ret (st', es') ∧ HandlesCounted st') ↔
      (handle = none → st.loop.timerHandleQueue = none) := by
  have hcounted := HandlesCounted.intro hx hy hn
  cases handle with
  | none =>
    cases ys with
    | nil =>
      have hq : st.loop.timerHandleQueue = none := hy
      simp only [execLoop, twTimerUnregister, hq, Outcome.ret_bind, Outcome.exists_ret]
      exact iff_of_true hcounted fun _ => trivial
    | cons y ys =>
      simp [execLoop, twTimerUnregister_null hy (List.cons_ne_nil y ys), hy.1]
  | some a =>
    refine iff_of_true ?_ (by simp)
    rcases position a ys with habs | hpos
    · simp only [execLoop, twTimerUnregister_absent hy habs, Outcome.ret_bind, Outcome.exists_ret]
      exact hcounted
    · obtain ⟨pre, v, post, rfl⟩ : ∃ pre v post, ys = pre ++ (a, v) :: post := by
        rcases hpos with ⟨v, post, rfl⟩ | ⟨pre, l, w, v, post, rfl⟩
        · exact ⟨[], v, post, rfl⟩
        · exact ⟨pre ++ [(l, w)], v, post, by simp⟩
      obtain ⟨heap, root, hcall, hy', -⟩ := twTimerUnregister_registered hy
      simp only [execLoop, hcall, Outcome.ret_bind, Outcome.exists_ret]
      refine HandlesCounted.intro hx hy' (uint8_pred_toNat ?_)
      rw [hn]
      simp only [List.length_append, List.length_cons]
      omega

end CountStep

lemma execLoop_counted_iff {st : LoopState} {es : List HandleEvent} {op : LoopOp}
    (hcounted : HandlesCounted st) (hop : ZeroedBlocks st es op) :
    (∃ st' es', execLoop st op = .ret (st', es') ∧ HandlesCounted st') ↔ CountKept st op := by
  obtain ⟨xs, ys, hx, hy, hn, -⟩ := hcounted
  cases op with
  | rxInit mem => exact hop.elim
  | txInit mem =>
    obtain ⟨a, hm⟩ := hop
    exact txInit_counted_iff hx hy hn hm
  | timerInit mem =>
    obtain ⟨a, hm⟩ := hop
    exact timerInit_counted_iff hx hy hn hm
  | txUnregister handle =>
    rw [txUnregister_counted_iff hx hy hn handle]
    constructor
    · intro hkept zs hz
      rwa [hz.unique hx]
    · exact fun hkept => hkept xs hx
  | timerUnregister handle => exact timerUnregister_counted_iff hx hy hn handle

/-- From a cleared loop, the counter is right throughout exactly those runs whose every
call keeps it. -/
theorem activeHandles_counts_iff (timeToRun : UInt16) {loop : TwLoop}
    (hloop : twDefaultLoop (some zeroLoop) timeToRun = .ret loop) (rx : Heap (Node TwRx))
    (tx : Heap (Node TwTx)) (timer : Heap (Node TwTimer)) {ops : List LoopOp}
    (hops : EachCall execLoop ⟨loop, rx, tx, timer⟩ ZeroedBlocks ops) :
    Throughout execLoop ⟨loop, rx, tx, timer⟩ (fun _ st _ => HandlesCounted st) ops ↔
      EachStep execLoop ⟨loop, rx, tx, timer⟩ CountKept ops := by
  obtain rfl : _ = loop := Outcome.ret.inj hloop
  have hgood : HandlesCounted ⟨{ zeroLoop with secsToRun := timeToRun }, rx, tx, timer⟩ :=
    ⟨[], [], rfl, rfl, rfl, guard_iff rfl⟩
  exact throughout_iff_of_step hgood (fun _ _ _ _ => execLoop_counted_iff) hops

theorem activeHandles_counts_oneEach :
    Throughout execLoop zeroState (fun _ st _ => HandlesCounted st)
      [.txInit (.bump zeroTx), .timerInit (.bump zeroTimer), .timerUnregister (some 0)] := by
  refine (activeHandles_counts_iff 0 rfl .empty .empty .empty ?_).mpr ?_
  · exact eachCall_cons rfl ⟨0, rfl⟩ (eachCall_cons rfl ⟨0, rfl⟩
      (eachCall_cons rfl trivial (eachCall_nil _ _ _)))
  · exact eachCall_cons rfl (show (0 : UInt8) ≠ 255 by decide)
      (eachCall_cons rfl (show (1 : UInt8) ≠ 255 by decide)
        (eachCall_cons rfl (by simp [CountKept]) (eachCall_nil _ _ _)))

def removeSecondTx : List LoopOp :=
  [.txInit (.bump zeroTx), .txInit (.bump zeroTx), .txUnregister (some 1)]

/-- After the removal of the second of two transmit handles the queue starts at a
released block, and there is no length for the counter to equal. -/
theorem activeHandles_miscounts : EachCall execLoop zeroState ZeroedBlocks removeSecondTx ∧
    ¬ Throughout execLoop zeroState (fun _ st _ => HandlesCounted st) removeSecondTx := by
  constructor
  · exact eachCall_cons rfl ⟨0, rfl⟩ (eachCall_cons rfl ⟨1, rfl⟩
      (eachCall_cons rfl trivial (eachCall_nil _ _ _)))
  · intro hall
    obtain ⟨s, es, hrun, xs, ys, hx, -⟩ := hall removeSecondTx List.prefix_rfl
    obtain ⟨rfl, rfl⟩ : _ = s ∧ _ = es := Prod.mk.inj (Outcome.ret.inj hrun)
    rcases xs with _ | ⟨⟨a, v⟩, xs⟩
    · cases hx
    · obtain ⟨hq, n, hn, -⟩ := hx
      obtain rfl : 0 = a := Option.some.inj hq
      cases hn

end Twister
