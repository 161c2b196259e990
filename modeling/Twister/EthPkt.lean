import Twister.ArpHandshake
import Twister.QueueRun

/-! Outgoing packets: the Ethernet header is put in front and the packet is sent, or
waits in the queue until the ARP entry of its next hop is there. -/
namespace Twister

/-- The header but for the destination address. -/
def ethHeader (info : PortInfo) (ethType : UInt16) (m : Mbuf) : Mbuf :=
  let m := rtePktmbufPrepend m sizeofEtherHdr
  let m := m.setEtherType (rteCpuToBe16 ethType)
  m.setSAddr info.ethMac

/-- `arp_ip`: the destination itself in the subnet of the port, its gateway otherwise. -/
def nextHop (info : PortInfo) (dstIp : UInt32) : UInt32 :=
  if info.startIpAddr &&& info.subnetMask = dstIp &&& info.subnetMask then dstIp
  else info.gatewayIp

def twEthPktCtor (ports : PortTable) (pools : MbufPools) (mem : Malloc (Node QueuedPkt))
    (clock : UInt64) (arp : ArpState) (queue : QueueState) (m : Mbuf) (portId : UInt8)
    (ethType : UInt16) (dstIp : UInt32) : Outcome (Int × QueueState × List PktEffect) := do
  let info ← portInfo ports portId
  let m := ethHeader info ethType m
  let arpIp := nextHop info dstIp
  match ← twSearchArpTable arp (rteCpuToBe32 arpIp) with
  | none =>
    let (failed, queue, es) ← twAddPktToQueue mem clock queue m arpIp portId.toUInt16
    if failed = 0 then
      let (_, request) ← twConstructArpPacket ports pools arpIp portId
      .ret (0, queue, es ++ request)
    else .ret (0, queue, es)
  | some a =>
    let arpTablePtr ← arp.heap.load (some a)
    .ret (0, queue, [.addToTxQueue (m.setDAddr arpTablePtr.val.ethMac) portId])

section Ctor
variable {ports : PortTable} {pools : MbufPools} {mem : Malloc (Node QueuedPkt)} {clock : UInt64}
  {arp : ArpState} {queue : QueueState} {m : Mbuf} {portId : UInt8} {ethType : UInt16}
  {dstIp : UInt32} {info : PortInfo}

lemma twEthPktCtor_unresolved (hinfo : portInfo ports portId = .ret info)
    (harp : twSearchArpTable arp (rteCpuToBe32 (nextHop info dstIp)) = .ret none) :
    twEthPktCtor ports pools mem clock arp queue m portId ethType dstIp = (do
      let (failed, queue, es) ← twAddPktToQueue mem clock queue (ethHeader info ethType m)
        (nextHop info dstIp) portId.toUInt16
      if failed = 0 then
        let (_, request) ← twConstructArpPacket ports pools (nextHop info dstIp) portId
        .ret (0, queue, es ++ request)
      else .ret (0, queue, es)) := by
  simp [twEthPktCtor, hinfo, harp]

lemma twEthPktCtor_resolved {a : ℕ} {entry : Node ArpEntry}
    (hinfo : portInfo ports portId = .ret info)
    (harp : twSearchArpTable arp (rteCpuToBe32 (nextHop info dstIp)) = .ret (some a))
    (hentry : arp.heap.load (some a) = .ret entry) :
    twEthPktCtor ports pools mem clock arp queue m portId ethType dstIp =
      .ret (0, queue,
        [.addToTxQueue ((ethHeader info ethType m).setDAddr entry.val.ethMac) portId]) := by
  simp [twEthPktCtor, hinfo, harp, hentry]

/-- Adding to the queue grows it by exactly this node, if it grows it. -/
lemma twAddPktToQueue_grows {xs : List (ℕ × QueuedPkt)} {a : ℕ} {q : QueuedPkt} {r : Int}
    {queue' : QueueState} {es : List PktEffect} {pkt : Mbuf} {arpIp : UInt32} {port : UInt16}
    (hqueue : queue.Lists xs)
    (hcall : twAddPktToQueue mem clock queue pkt arpIp port = .ret (r, queue', es))
    (hlater : queue'.Lists (xs ++ [(a, q)])) :
    q = ⟨pkt, clock, rteCpuToBe32 arpIp, port⟩ := by
  by_cases hfull : queue.totalQueuedPkts ≥ maxQueuedPkts
  · rw [twAddPktToQueue_full hfull] at hcall
    obtain ⟨-, rfl, -⟩ : -1 = r ∧ queue = queue' ∧ _ = es := by simpa using hcall
    simpa using congrArg List.length (Chain.unique hqueue hlater)
  · cases hm : mem.pick queue.heap with
    | none =>
      obtain ⟨st', hadd, hlist, -⟩ := twAddPktToQueue_none hqueue hfull hm clock pkt arpIp port
      obtain ⟨-, rfl, -⟩ : -1 = r ∧ st' = queue' ∧ [] = es := by simpa [hcall] using hadd.symm
      simpa using congrArg List.length (Chain.unique hlist hlater)
    | some block =>
      obtain ⟨b, junk⟩ := block
      obtain ⟨st', hadd, hlist, -⟩ := twAddPktToQueue_some hqueue hfull hm clock pkt arpIp port
      obtain ⟨-, rfl, -⟩ : 0 = r ∧ st' = queue' ∧ [] = es := by simpa [hcall] using hadd.symm
      have hlast := List.append_cancel_left (Chain.unique hlater hlist)
      exact (Prod.mk.inj (List.cons.inj hlast).1).2

/-- What a call that leaves one more packet waiting has put into the queue. -/
lemma twEthPktCtor_queued {xs : List (ℕ × QueuedPkt)} {a : ℕ} {q : QueuedPkt} {r : Int}
    {queue' : QueueState} {es : List PktEffect} (hqueue : queue.Lists xs)
    (hcall : twEthPktCtor ports pools mem clock arp queue m portId ethType dstIp =
      .ret (r, queue', es)) (hlater : queue'.Lists (xs ++ [(a, q)])) :
    ∃ info, portInfo ports portId = .ret info ∧
      q = ⟨ethHeader info ethType m, clock, rteCpuToBe32 (nextHop info dstIp),
        portId.toUInt16⟩ := by
  obtain ⟨info, hinfo, hcall⟩ := Outcome.bind_eq_ret.mp hcall
  obtain ⟨found, hsearch, hcall⟩ := Outcome.bind_eq_ret.mp hcall
  refine ⟨info, hinfo, ?_⟩
  cases found with
  | some b =>
    obtain ⟨entry, -, hret⟩ := Outcome.bind_eq_ret.mp hcall
    obtain ⟨-, rfl, -⟩ : 0 = r ∧ queue = queue' ∧ _ = es := by simpa using hret
    simpa using congrArg List.length (Chain.unique hqueue hlater)
  | none =>
    obtain ⟨⟨failed, queue₁, es₁⟩, hadd, hrest⟩ := Outcome.bind_eq_ret.mp hcall
    suffices hsame : queue₁ = queue' by
      subst hsame
      exact twAddPktToQueue_grows hqueue hadd hlater
    dsimp only at hrest
    split at hrest
    · obtain ⟨⟨sent, request⟩, -, hret⟩ := Outcome.bind_eq_ret.mp hrest
      exact congrArg (fun x => x.2.1) (Outcome.ret.inj hret)
    · exact congrArg (fun x => x.2.1) (Outcome.ret.inj hrest)

end Ctor

/-- A packet that had to wait leaves as the frame, and through the port, that it would
have left through at once had the later ARP table been there already. -/
theorem queuedPkt_sent_as_direct {ports : PortTable} {pools : MbufPools}
    {mem : Malloc (Node QueuedPkt)} {clock : UInt64} {arp : ArpState} {queue queue' : QueueState}
    {m : Mbuf} {portId : UInt8} {ethType : UInt16} {dstIp : UInt32} {r : Int}
    {es : List PktEffect} {xs : List (ℕ × QueuedPkt)} {a : ℕ} {q : QueuedPkt}
    (hqueue : queue.Lists xs)
    (hcall : twEthPktCtor ports pools mem clock arp queue m portId ethType dstIp =
      .ret (r, queue', es)) (hqueued : queue'.Lists (xs ++ [(a, q)]))
    -- some time later, with the node still queued and its next hop in the table `T`
    {st st' : QueueState} {c : ℕ} {n prev prev' next' : Option ℕ} {sent : List PktEffect}
    (hnode : st.heap.cell c = some ⟨q, n⟩) {T : ArpState} {b : ℕ} {entry : Node ArpEntry}
    (hfound : twSearchArpTable T q.arpIp = .ret (some b))
    (hentry : T.heap.load (some b) = .ret entry)
    (hsend : twSendQueuedPkt st prev (some c) entry.val.ethMac = .ret (st', prev', next', sent))
    (queue₂ : QueueState) :
    ∃ frame, sent = [.addToTxQueue frame portId] ∧
      twEthPktCtor ports pools mem clock T queue₂ m portId ethType dstIp =
        .ret (0, queue₂, [.addToTxQueue frame portId]) := by
  obtain ⟨info, hinfo, rfl⟩ := twEthPktCtor_queued hqueue hcall hqueued
  refine ⟨_, ?_, twEthPktCtor_resolved hinfo hfound hentry⟩
  rw [twSendQueuedPkt, Heap.load_some hnode, Outcome.ret_bind] at hsend
  obtain ⟨⟨st₁, prev₁, next₁⟩, -, hret⟩ := Outcome.bind_eq_ret.mp hsend
  have hsent := congrArg (fun x => x.2.2.2) (Outcome.ret.inj hret)
  simpa using hsent.symm

/-- Host 5 sends to host 6, whose address it does not know yet. -/
def payload : Mbuf := ⟨1, fun _ => 0, mbufBufLen, headroom, 20⟩

def oneEntry (ip : UInt32) (mac : EtherAddr) : ArpState where
  heap := Heap.empty.write 0 ⟨⟨ip, mac, 0⟩, none⟩
  arpTableRoot := some 0
  arpTableSize := 1

def waiting : QueuedPkt :=
  ⟨ethHeader (hostPorts 5 0) etherTypeIPv4 payload, 0, rteCpuToBe32 0x0a0a0106, 0⟩

def oneWaitingPkt : QueueState where
  heap := (Heap.empty.write 0 ⟨queuedAt 0, none⟩).write 0 ⟨waiting, none⟩
  rootQueuedPkt := some 0
  totalQueuedPkts := 1

theorem queuedPkt_sent_as_direct_five_six :
    ∃ st' prev' next' sent frame,
      twSendQueuedPkt oneWaitingPkt (some 0) (some 0) (fun _ => 6) =
        .ret (st', prev', next', sent) ∧
      sent = [.addToTxQueue frame 0] ∧
      twEthPktCtor (hostPorts 5) zeroPool (.bump ⟨queuedAt 0, none⟩) 0
          (oneEntry 0x0a0a0106 fun _ => 6) emptyQueue payload 0 etherTypeIPv4 0x0a0a0106 =
        .ret (0, emptyQueue, [.addToTxQueue frame 0]) := by
  have hempty : emptyQueue.Lists [] := rfl
  obtain ⟨es, hcall⟩ : ∃ es, twEthPktCtor (hostPorts 5) zeroPool (.bump ⟨queuedAt 0, none⟩) 0
      .empty emptyQueue payload 0 etherTypeIPv4 0x0a0a0106 = .ret (0, oneWaitingPkt, es) :=
    ⟨_, rfl⟩
  have hqueued : oneWaitingPkt.Lists ([] ++ [(0, waiting)]) := ⟨rfl, none, rfl, rfl⟩
  have hnode : oneWaitingPkt.heap.cell 0 = some ⟨waiting, none⟩ := rfl
  have hfound : twSearchArpTable (oneEntry 0x0a0a0106 fun _ => 6) waiting.arpIp =
      .ret (some 0) := rfl
  have hentry : (oneEntry 0x0a0a0106 fun _ => 6).heap.load (some 0) =
      .ret ⟨⟨0x0a0a0106, fun _ => 6, 0⟩, none⟩ := rfl
  obtain ⟨st', prev', next', sent, hsend⟩ : ∃ st' prev' next' sent,
      twSendQueuedPkt oneWaitingPkt (some 0) (some 0) (fun _ => 6) =
        .ret (st', prev', next', sent) := ⟨_, _, _, _, rfl⟩
  obtain ⟨frame, hsent, hdirect⟩ :=
    queuedPkt_sent_as_direct hempty hcall hqueued hnode hfound hentry hsend emptyQueue
  exact ⟨st', prev', next', sent, frame, hsend, hsent, hdirect⟩

section Disposal
variable (info : PortInfo) (hop : UInt32) (port : UInt8) (pkt : Mbuf) (queue : QueueState)
  (xs : List (ℕ × QueuedPkt)) (queue' : QueueState) (es : List PktEffect)

/-- The packet was handed to the transmit queue and nothing else happened. -/
def Transmitted : Prop :=
  queue' = queue ∧ ∃ mac, es = [.addToTxQueue (pkt.setDAddr mac) port]

/-- The packet is in one new node at the end of the queue and its next hop was asked for. -/
def Waits : Prop :=
  (∃ a q, queue'.Lists (xs ++ [(a, q)]) ∧ q.pkt = pkt) ∧
    queue'.totalQueuedPkts = queue.totalQueuedPkts + 1 ∧
    ∃ request, IsRequest info hop request ∧ es = [.addToTxQueue request port]

/-- The packet was freed, the queue is as before, and nothing was sent. -/
def Dropped : Prop :=
  queue'.Lists xs ∧ queue'.totalQueuedPkts = queue.totalQueuedPkts ∧ es = [.free pkt]

end Disposal

section Atomic
variable (ports : PortTable) (pools : MbufPools) (mem : Malloc (Node QueuedPkt))
  (clock : UInt64) (arp : ArpState) (ys : List (ℕ × ArpEntry)) (queue : QueueState)
  (xs : List (ℕ × QueuedPkt)) (m : Mbuf) (p : Fin maxEthPorts) (ethType : UInt16)
  (dstIp : UInt32)

/-- The packet is in one place after the call; the result of `tw_add_pkt_to_queue`, when
it is called, decides between the queue and the release. -/
def CtorDisposes : Prop :=
  let hop := nextHop (ports p) dstIp
  let pkt := ethHeader (ports p) ethType m
  ∃ queue' es,
    twEthPktCtor ports pools mem clock arp queue m (portByte p) ethType dstIp =
      .ret (0, queue', es) ∧
    (Transmitted (portByte p) pkt queue queue' es ∨
      Waits (ports p) hop (portByte p) pkt queue xs queue' es ∨
      Dropped pkt queue xs queue' es) ∧
    (entryOf ys hop = none → ∀ code st es',
      twAddPktToQueue mem clock queue pkt hop (portByte p).toUInt16 = .ret (code, st, es') →
        (code = -1 → Dropped pkt queue xs queue' es) ∧
        (code = 0 → Waits (ports p) hop (portByte p) pkt queue xs queue' es))

/-- The packet would have to wait and the queue has room for it, but there is no memory
for its node or no buffer for the request. -/
def ShortOfMemory : Prop :=
  entryOf ys (nextHop (ports p) dstIp) = none ∧ ¬ queue.totalQueuedPkts ≥ maxQueuedPkts ∧
    (mem.pick queue.heap = none ∨ pools.next (portByte p) = none)

end Atomic

section Cases
variable {ports : PortTable} {pools : MbufPools} {mem : Malloc (Node QueuedPkt)} {clock : UInt64}
  {arp : ArpState} {ys : List (ℕ × ArpEntry)} (harp : arp.Lists ys) {queue : QueueState}
  {xs : List (ℕ × QueuedPkt)} (hqueue : queue.Lists xs) {m : Mbuf} {p : Fin maxEthPorts}
  {ethType : UInt16} {dstIp : UInt32}

include harp

lemma search_of_none {ip : UInt32} (hnone : entryOf ys ip = none) :
    twSearchArpTable arp (rteCpuToBe32 ip) = .ret none := by
  obtain ⟨r, hr, hiff⟩ := twSearchArpTable_isNone harp (rteCpuToBe32 ip)
  rw [rteBeToCpu32_rteCpuToBe32] at hiff
  rw [hr, hiff.mpr hnone]

lemma search_of_some {ip : UInt32} (hsome : entryOf ys ip ≠ none) :
    ∃ a node, twSearchArpTable arp (rteCpuToBe32 ip) = .ret (some a) ∧
      arp.heap.load (some a) = .ret node := by
  rw [twSearchArpTable_eq harp, rteBeToCpu32_rteCpuToBe32]
  cases hf : ys.find? fun y => y.2.ipAddr = ip with
  | none => exact absurd (by rw [entryOf_eq, hf, Option.map_none]) hsome
  | some y =>
    obtain ⟨n, hn⟩ := Chain.live harp (List.mem_of_find?_eq_some hf)
    exact ⟨y.1, _, rfl, Heap.load_some hn⟩

lemma ctorDisposes_resolved (hsome : entryOf ys (nextHop (ports p) dstIp) ≠ none) :
    CtorDisposes ports pools mem clock arp ys queue xs m p ethType dstIp := by
  obtain ⟨a, node, hsearch, hload⟩ := search_of_some harp hsome
  exact ⟨queue, _, twEthPktCtor_resolved (portInfo_portByte ports p) hsearch hload,
    Or.inl ⟨rfl, node.val.ethMac, rfl⟩, fun hnone => absurd hnone hsome⟩

omit harp in
/-- Once the result of the queue is known, so is what remains to be shown. -/
lemma ctorDisposes_queue_iff {code : Int} {st : QueueState} {es es' : List PktEffect}
    (hnone : entryOf ys (nextHop (ports p) dstIp) = none)
    (hadd : twAddPktToQueue mem clock queue (ethHeader (ports p) ethType m)
      (nextHop (ports p) dstIp) (portByte p).toUInt16 = .ret (code, st, es'))
    (hcall : twEthPktCtor ports pools mem clock arp queue m (portByte p) ethType dstIp =
      .ret (0, st, es)) :
    CtorDisposes ports pools mem clock arp ys queue xs m p ethType dstIp ↔
      (Transmitted (portByte p) (ethHeader (ports p) ethType m) queue st es ∨
        Waits (ports p) (nextHop (ports p) dstIp) (portByte p) (ethHeader (ports p) ethType m)
          queue xs st es ∨
        Dropped (ethHeader (ports p) ethType m) queue xs st es) ∧
      (code = -1 → Dropped (ethHeader (ports p) ethType m) queue xs st es) ∧
      (code = 0 → Waits (ports p) (nextHop (ports p) dstIp) (portByte p)
        (ethHeader (ports p) ethType m) queue xs st es) := by
  constructor
  · rintro ⟨queue', fs, hcall', hplace, hcode⟩
    obtain ⟨rfl, rfl⟩ : st = queue' ∧ es = fs := by simpa [hcall] using hcall'
    exact ⟨hplace, hcode hnone code st es' hadd⟩
  · rintro ⟨hplace, hcode⟩
    refine ⟨st, es, hcall, hplace, fun _ code' st' fs hadd' => ?_⟩
    obtain ⟨rfl, -⟩ : code = code' ∧ _ := by simpa [hadd] using hadd'
    exact hcode

include hqueue

lemma ctorDisposes_full (hnone : entryOf ys (nextHop (ports p) dstIp) = none)
    (hfull : queue.totalQueuedPkts ≥ maxQueuedPkts) :
    CtorDisposes ports pools mem clock arp ys queue xs m p ethType dstIp := by
  have hadd : twAddPktToQueue mem clock queue (ethHeader (ports p) ethType m)
      (nextHop (ports p) dstIp) (portByte p).toUInt16 =
      .ret (-1, queue, [.free (ethHeader (ports p) ethType m)]) :=
    twAddPktToQueue_full hfull clock _ _ _
  have hdropped : Dropped (ethHeader (ports p) ethType m) queue xs queue
      [.free (ethHeader (ports p) ethType m)] := ⟨hqueue, rfl, rfl⟩
  refine (ctorDisposes_queue_iff hnone hadd ?_).mpr
    ⟨Or.inr (Or.inr hdropped), fun _ => hdropped, fun h => absurd h (by decide)⟩
  rw [twEthPktCtor_unresolved (portInfo_portByte ports p) (search_of_none harp hnone), hadd]
  rfl

lemma not_ctorDisposes_noNode (hnone : entryOf ys (nextHop (ports p) dstIp) = none)
    (hroom : ¬ queue.totalQueuedPkts ≥ maxQueuedPkts) (hmem : mem.pick queue.heap = none) :
    ¬ CtorDisposes ports pools mem clock arp ys queue xs m p ethType dstIp := by
  obtain ⟨st, hadd, -⟩ := twAddPktToQueue_none hqueue hroom hmem clock
    (ethHeader (ports p) ethType m) (nextHop (ports p) dstIp) (portByte p).toUInt16
  have hcall : twEthPktCtor ports pools mem clock arp queue m (portByte p) ethType dstIp =
      .ret (0, st, []) := by
    rw [twEthPktCtor_unresolved (portInfo_portByte ports p) (search_of_none harp hnone), hadd]
    rfl
  intro h
  have hdropped := ((ctorDisposes_queue_iff hnone hadd hcall).mp h).2.1 rfl
  cases hdropped.2.2

lemma ctorDisposes_node_iff (hnone : entryOf ys (nextHop (ports p) dstIp) = none)
    (hroom : ¬ queue.totalQueuedPkts ≥ maxQueuedPkts) (hmem : mem.pick queue.heap ≠ none) :
    CtorDisposes ports pools mem clock arp ys queue xs m p ethType dstIp ↔
      pools.next (portByte p) ≠ none := by
  obtain ⟨⟨a, junk⟩, hpick⟩ := Option.ne_none_iff_exists'.mp hmem
  obtain ⟨st, hadd, hlist, htotal⟩ := twAddPktToQueue_some hqueue hroom hpick clock
    (ethHeader (ports p) ethType m) (nextHop (ports p) dstIp) (portByte p).toUInt16
  have hcall : twEthPktCtor ports pools mem clock arp queue m (portByte p) ethType dstIp = (do
      let (_, request) ←
        twConstructArpPacket ports pools (nextHop (ports p) dstIp) (portByte p)
      .ret (0, st, request)) := by
    rw [twEthPktCtor_unresolved (portInfo_portByte ports p) (search_of_none harp hnone), hadd]
    rfl
  cases hpool : pools.next (portByte p) with
  | none =>
    have hfault : twConstructArpPacket ports pools (nextHop (ports p) dstIp) (portByte p) =
        .fault := by
      unfold MbufPools.next at hpool
      simp only [twConstructArpPacket, hpool]
    rw [hfault, Outcome.fault_bind] at hcall
    refine iff_of_false ?_ fun h => h rfl
    rintro ⟨queue', es, hret, -⟩
    rw [hcall] at hret
    cases hret
  | some buffer =>
    obtain ⟨addr, stale⟩ := buffer
    rw [twConstructArpPacket_ret ports hpool, Outcome.ret_bind] at hcall
    refine iff_of_true ((ctorDisposes_queue_iff hnone hadd hcall).mpr ?_) (by simp)
    have hwaits : Waits (ports p) (nextHop (ports p) dstIp) (portByte p)
        (ethHeader (ports p) ethType m) queue xs st
        [.addToTxQueue (fillRequest (ports p) (nextHop (ports p) dstIp)
          (rtePktmbufAlloc addr stale)) (portByte p)] :=
      ⟨⟨a, _, hlist, rfl⟩, htotal, _, fillRequest_isRequest _ _ _ _, rfl⟩
    exact ⟨Or.inr (Or.inl hwaits), fun h => absurd h (by decide), fun _ => hwaits⟩

end Cases

/-- The packet ends in one place unless it has to wait and memory is short. -/
theorem twEthPktCtor_disposes_iff (ports : PortTable) (pools : MbufPools)
    (mem : Malloc (Node QueuedPkt)) (clock : UInt64) {arp : ArpState}
    {ys : List (ℕ × ArpEntry)} (harp : arp.Lists ys) {queue : QueueState}
    {xs : List (ℕ × QueuedPkt)} (hqueue : queue.Lists xs) (m : Mbuf) (p : Fin maxEthPorts)
    (ethType : UInt16) (dstIp : UInt32) :
    CtorDisposes ports pools mem clock arp ys queue xs m p ethType dstIp ↔
      ¬ ShortOfMemory ports pools mem ys queue p dstIp := by
  unfold ShortOfMemory
  by_cases hnone : entryOf ys (nextHop (ports p) dstIp) = none
  · by_cases hfull : queue.totalQueuedPkts ≥ maxQueuedPkts
    · exact iff_of_true (ctorDisposes_full harp hqueue hnone hfull) fun h => h.2.1 hfull
    · by_cases hmem : mem.pick queue.heap = none
      · exact iff_of_false (not_ctorDisposes_noNode harp hqueue hnone hfull hmem)
          fun h => h ⟨hnone, hfull, Or.inl hmem⟩
      · rw [ctorDisposes_node_iff harp hqueue hnone hfull hmem]
        simp [hnone, hfull, hmem]
  · exact iff_of_true (ctorDisposes_resolved harp hnone) fun h => hnone h.1

theorem twEthPktCtor_disposes_queued :
    CtorDisposes (hostPorts 5) zeroPool (.bump ⟨queuedAt 0, none⟩) 0 .empty [] emptyQueue []
      payload 0 etherTypeIPv4 0x0a0a0106 :=
  (twEthPktCtor_disposes_iff _ _ _ 0 (show ArpState.empty.Lists [] from rfl)
    (show emptyQueue.Lists [] from rfl) payload 0 etherTypeIPv4 0x0a0a0106).mpr
    (by simp [ShortOfMemory, Malloc.bump, MbufPools.next, zeroPool])

/-- Without memory for the node the packet is in the queue no more than it was sent or
freed. -/
theorem twEthPktCtor_leaks_noNode :
    twEthPktCtor (hostPorts 5) zeroPool .exhausted 0 .empty emptyQueue payload 0 etherTypeIPv4
        0x0a0a0106 = .ret (0, emptyQueue, []) ∧
      ¬ CtorDisposes (hostPorts 5) zeroPool .exhausted 0 .empty [] emptyQueue [] payload 0
        etherTypeIPv4 0x0a0a0106 := by
  refine ⟨rfl, ?_⟩
  rintro ⟨queue', es, hret, hplace, -⟩
  obtain rfl : [] = es := congrArg (fun x => x.2.2) (Outcome.ret.inj hret)
  rcases hplace with ⟨-, mac, hes⟩ | ⟨-, -, request, -, hes⟩ | ⟨-, -, hes⟩
  · cases hes
  · cases hes
  · cases hes

end Twister
