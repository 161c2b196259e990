import Twister.ArpTable
import Twister.RootSweep
import Twister.TimerFuncs

/-! Packets that wait for the ARP entry of their next hop. They stand in a linked
list, in arrival order, next to a counter that limits its length. -/
namespace Twister

def maxQueuedPkts : UInt32 := 1024

structure QueuedPkt where
  pkt : Mbuf
  timercycle : UInt64
  arpIp : UInt32
  portId : UInt16

structure QueueState where
  heap : Heap (Node QueuedPkt)
  rootQueuedPkt : Option ℕ
  totalQueuedPkts : UInt32

/-- The clock rate, set from the hardware before any packet is queued, and the time
limit in seconds. -/
structure QueueLimits where
  oneSec : UInt64
  oneSec_ne : oneSec ≠ 0
  queuedPktTimeLimit : UInt64

def twAddPktToQueue (mem : Malloc (Node QueuedPkt)) (currTimerCycle : UInt64) (st : QueueState)
    (pkt : Mbuf) (arpIpOfPkt : UInt32) (portId : UInt16) :
    Outcome (Int × QueueState × List PktEffect) :=
  if st.totalQueuedPkts ≥ maxQueuedPkts then .ret (-1, st, [.free pkt])
  else do
    let (heap, root, pktToQueue) ← pushBack st.heap st.rootQueuedPkt mem
    match pktToQueue with
    | none => .ret (-1, ⟨heap, root, st.totalQueuedPkts⟩, [])
    | some _ =>
      let heap ← heap.store pktToQueue
        ⟨⟨pkt, currTimerCycle, rteCpuToBe32 arpIpOfPkt, portId⟩, none⟩
      .ret (0, ⟨heap, root, st.totalQueuedPkts + 1⟩, [])

/-- Takes and returns the two cursors that the source passes by reference. -/
def twDeleteQueuedPkt (st : QueueState) (prevQueuedPkt currQueuedPkt : Option ℕ) :
    Outcome (QueueState × Option ℕ × Option ℕ) := do
  let curr ← st.heap.load currQueuedPkt
  let (heap, root, prevQueuedPkt) ←
    if currQueuedPkt = st.rootQueuedPkt then
      pure (st.heap, curr.next, curr.next)
    else do
      let prev ← st.heap.load prevQueuedPkt
      let heap ← st.heap.store prevQueuedPkt ⟨prev.val, curr.next⟩
      pure (heap, st.rootQueuedPkt, prevQueuedPkt)
  let heap ← heap.free currQueuedPkt
  .ret (⟨heap, root, st.totalQueuedPkts - 1⟩, prevQueuedPkt, curr.next)

def twSendQueuedPkt (st : QueueState) (prevQueuedPkt currQueuedPkt : Option ℕ)
    (ethMac : EtherAddr) :
    Outcome (QueueState × Option ℕ × Option ℕ × List PktEffect) := do
  let curr ← st.heap.load currQueuedPkt
  let pkt := curr.val.pkt.setDAddr ethMac
  let portId := curr.val.portId.toUInt8
  let (st, prevQueuedPkt, currQueuedPkt) ← twDeleteQueuedPkt st prevQueuedPkt currQueuedPkt
  -- lowered once by the deletion and once more here
  .ret (⟨st.heap, st.rootQueuedPkt, st.totalQueuedPkts - 1⟩, prevQueuedPkt, currQueuedPkt,
    [.addToTxQueue pkt portId])

def updateLoop (lim : QueueLimits) (arp : ArpState) (currTimerCycle : UInt64) :
    ℕ → QueueState → Option ℕ → Option ℕ → Outcome (QueueState × List PktEffect)
  | 0, _, _, _ => .timeout
  | _ + 1, st, _, none => .ret (st, [])
  | fuel + 1, st, prevQueuedPkt, some c => do
    let curr ← st.heap.load (some c)
    let timeDiff ← twGetTimeDiff currTimerCycle curr.val.timercycle lim.oneSec
    if timeDiff < lim.queuedPktTimeLimit then
      match ← twSearchArpTable arp curr.val.arpIp with
      | some a => do
        let arpEntry ← arp.heap.load (some a)
        let (st, prev, next, es) ← twSendQueuedPkt st prevQueuedPkt (some c) arpEntry.val.ethMac
        let (st, rest) ← updateLoop lim arp currTimerCycle fuel st prev next
        .ret (st, es ++ rest)
      -- the trailing cursor is not advanced
      | none => updateLoop lim arp currTimerCycle fuel st prevQueuedPkt curr.next
    else do
      let (st, prev, next) ← twDeleteQueuedPkt st prevQueuedPkt (some c)
      let (st, rest) ← updateLoop lim arp currTimerCycle fuel st prev next
      .ret (st, .free curr.val.pkt :: rest)

def twUpdateQueuedPkts (lim : QueueLimits) (arp : ArpState) (currTimerCycle : UInt64)
    (st : QueueState) : Outcome (Int × QueueState × List PktEffect) := do
  let (st, es) ←
    updateLoop lim arp currTimerCycle (st.heap.top + 1) st st.rootQueuedPkt st.rootQueuedPkt
  .ret (0, st, es)

end Twister
