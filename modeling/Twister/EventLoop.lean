import Twister.LinkedRemove

/-! The handle queues of the event loop: registration of receive, transmit and timer
handles, and their removal. Handles of the three kinds are blocks of different types,
so each kind has a heap of its own. -/
namespace Twister

def twUdpHandle : UInt8 := 0x01
def twTxHandle : UInt8 := 0x04
def twTimerHandle : UInt8 := 0x05

/-- `tw_rx_t`; callbacks are code addresses. -/
structure TwRx where
  handleType : UInt8
  recvCb : ℕ
  deriving DecidableEq, Repr

/-- `tw_tx_t` -/
structure TwTx where
  handleType : UInt8
  lastRunTime : UInt64
  txCb : ℕ
  deriving DecidableEq, Repr

/-- `tw_timer_t`; the timeout is in timer cycles. -/
structure TwTimer where
  handleType : UInt8
  lastRunTime : UInt64
  timeout : UInt64
  timerCb : ℕ
  deriving DecidableEq, Repr

/-- `tw_loop_t` -/
structure TwLoop where
  activeHandles : UInt8
  rxHandleQueue : Option ℕ
  txHandleQueue : Option ℕ
  timerHandleQueue : Option ℕ
  secsToRun : UInt16
  deriving DecidableEq, Repr

structure LoopState where
  loop : TwLoop
  rx : Heap (Node TwRx)
  tx : Heap (Node TwTx)
  timer : Heap (Node TwTimer)

/-- The block is not cleared: only `secs_to_run` is set. -/
def twDefaultLoop (block : Option TwLoop) (timeToRun : UInt16) : Outcome TwLoop :=
  match block with
  | none => .fault
  | some block => .ret { block with secsToRun := timeToRun }

def twRxInit (mem : Malloc (Node TwRx)) (st : LoopState) : Outcome (Option ℕ × LoopState) := do
  let (heap, root, ptr) ← pushFilled (fun x => { x with handleType := twUdpHandle })
    st.rx st.loop.rxHandleQueue mem
  .ret (ptr, { st with rx := heap, loop := { st.loop with rxHandleQueue := root } })

def twTxInit (mem : Malloc (Node TwTx)) (st : LoopState) : Outcome (Option ℕ × LoopState) := do
  let (heap, root, ptr) ← pushFilled (fun x => { x with handleType := twTxHandle })
    st.tx st.loop.txHandleQueue mem
  .ret (ptr, { st with
    tx := heap
    loop := { st.loop with
      txHandleQueue := root, activeHandles := st.loop.activeHandles + 1 } })

def twTxStart (txHandle : Option ℕ) (txCb : ℕ) (st : LoopState) : Outcome (Int × LoopState) :=
  match txHandle with
  | none => .ret (-1, st)
  | some _ => do
    let node ← st.tx.load txHandle
    let heap ← st.tx.store txHandle ⟨{ node.val with txCb }, node.next⟩
    .ret (0, { st with tx := heap })

def twTimerInit (mem : Malloc (Node TwTimer)) (st : LoopState) :
    Outcome (Option ℕ × LoopState) := do
  let (heap, root, ptr) ← pushFilled (fun x => { x with handleType := twTimerHandle })
    st.timer st.loop.timerHandleQueue mem
  .ret (ptr, { st with
    timer := heap
    loop := { st.loop with
      timerHandleQueue := root, activeHandles := st.loop.activeHandles + 1 } })

/-- `hz` is the frequency of the cycle counter. `last_run_time` is not set. -/
def twTimerStart (timerHandle : Option ℕ) (timerCb : ℕ) (timeout hz : UInt64)
    (st : LoopState) : Outcome (Int × LoopState) :=
  match timerHandle with
  | none => .ret (-1, st)
  | some _ => do
    let node ← st.timer.load timerHandle
    let heap ← st.timer.store timerHandle
      ⟨{ node.val with timerCb, timeout := timeout * (hz / 1000) }, node.next⟩
    .ret (0, { st with timer := heap })

/-- `(uint8_t) -1` -/
def notRegistered : UInt8 := 255

def twTimerUnregister (timerHandle : Option ℕ) (st : LoopState) :
    Outcome (UInt8 × LoopState) :=
  match st.loop.timerHandleQueue with
  | none => .ret (notRegistered, st)
  | some first =>
    if some first = timerHandle then do
      let node ← st.timer.load timerHandle
      let heap ← st.timer.free timerHandle
      .ret (0, { st with
        timer := heap
        loop := { st.loop with
          timerHandleQueue := node.next, activeHandles := st.loop.activeHandles - 1 } })
    else do
      match ← findPrev st.timer timerHandle (st.timer.top + 1) first with
      | none => .ret (notRegistered, st)
      | some prev =>
        let node ← st.timer.load timerHandle
        let before ← st.timer.load (some prev)
        let heap ← st.timer.store (some prev) ⟨before.val, node.next⟩
        let heap ← heap.free timerHandle
        .ret (0, { st with
          timer := heap
          loop := { st.loop with activeHandles := st.loop.activeHandles - 1 } })

def twTxUnregister (transmitHandle : Option ℕ) (st : LoopState) : Outcome (UInt8 × LoopState) :=
  match st.loop.txHandleQueue with
  | none => .ret (notRegistered, st)
  | some first =>
    if transmitHandle = none then .ret (notRegistered, st)
    else if some first = transmitHandle then do
      let node ← st.tx.load transmitHandle
      let heap ← st.tx.free transmitHandle
      .ret (0, { st with
        tx := heap
        loop := { st.loop with
          txHandleQueue := node.next, activeHandles := st.loop.activeHandles - 1 } })
    else do
      match ← findPrev st.tx transmitHandle (st.tx.top + 1) first with
      | none => .ret (notRegistered, st)
      | some prev =>
        let node ← st.tx.load transmitHandle
        let before ← st.tx.load (some prev)
        let heap ← st.tx.store (some prev) ⟨before.val, node.next⟩
        -- the block released here is the one in front of the handle
        let heap ← heap.free (some prev)
        .ret (0, { st with
          tx := heap
          loop := { st.loop with activeHandles := st.loop.activeHandles - 1 } })

end Twister
