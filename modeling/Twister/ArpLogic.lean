import Twister.ArpTable
import Twister.IpString

/-! Handling of received ARP packets and construction of requests. A reply is built
in place over the request it answers. -/
namespace Twister

def broadcastmac : EtherAddr := fun _ => 0xff
def querycastmac : EtherAddr := fun _ => 0x00

/-- The field copies of a reply, in the order of the source. -/
def overwriteWithReply (info : PortInfo) (pkt : Mbuf) : Mbuf :=
  let pkt := pkt.setArpOp sizeofEtherHdr (rteCpuToBe16 arpOpReply)
  let pkt := pkt.setArpTha sizeofEtherHdr (pkt.arpSha sizeofEtherHdr)
  let pkt := pkt.setArpSha sizeofEtherHdr info.ethMac
  let pkt := pkt.setArpTip sizeofEtherHdr (pkt.arpSip sizeofEtherHdr)
  let pkt := pkt.setArpSip sizeofEtherHdr (rteCpuToBe32 info.startIpAddr)
  let pkt := pkt.setDAddr pkt.sAddr
  pkt.setSAddr info.ethMac

def twSendArpReply (ports : PortTable) (pkt : Mbuf) (portId : UInt8) :
    Outcome (Int × List PktEffect) := do
  let info ← portInfo ports portId
  .ret (0, [.addToTxQueue (overwriteWithReply info pkt) portId])

def twProcessArpReply (mem : Malloc (Node ArpEntry)) (st : ArpState) (pkt : Mbuf)
    (portId : UInt8) : Outcome (Int × ArpState × List PktEffect) := do
  match ← twSearchArpTable st (pkt.arpSip sizeofEtherHdr) with
  | none =>
    let (failed, st) ←
      twAddArpEntry mem st (pkt.arpSip sizeofEtherHdr) (pkt.arpSha sizeofEtherHdr) portId
    if failed ≠ 0 then .ret (-1, st, [.free pkt]) else .ret (0, st, [.free pkt])
  | some _ => .ret (0, st, [.free pkt])

def twParseArp (ports : PortTable) (mem : Malloc (Node ArpEntry)) (st : ArpState) (pkt : Mbuf)
    (portId : UInt8) : Outcome (Int × ArpState × List PktEffect) := do
  if rteBeToCpu16 (pkt.arpOp sizeofEtherHdr) = arpOpRequest then
    let info ← portInfo ports portId
    if rteBeToCpu32 (pkt.arpTip sizeofEtherHdr) = info.startIpAddr then
      let st ← match ← twSearchArpTable st (pkt.arpSip sizeofEtherHdr) with
        | none => do
          let (_, st) ←
            twAddArpEntry mem st (pkt.arpSip sizeofEtherHdr) (pkt.arpSha sizeofEtherHdr) portId
          .ret st
        | some _ => .ret st
      let (_, es) ← twSendArpReply ports pkt portId
      .ret (0, st, es)
    else .ret (0, st, [.free pkt])
  else if rteBeToCpu16 (pkt.arpOp sizeofEtherHdr) = arpOpReply then
    let (_, st, es) ← twProcessArpReply mem st pkt portId
    .ret (0, st, es)
  else .ret (0, st, [.free pkt])

/-- The memory pools packets are built in: the socket of each device and the next
buffer of each pool, with whatever its last user left in it. -/
structure MbufPools where
  rteEthDevSocketId : UInt8 → Int
  txMempool : Int → Option (ℕ × Bytes)

/-- The buffer the pool of the port would give next. -/
def MbufPools.next (pools : MbufPools) (portId : UInt8) : Option (ℕ × Bytes) :=
  pools.txMempool (if pools.rteEthDevSocketId portId = -1 then 0
    else pools.rteEthDevSocketId portId)

def fillRequest (info : PortInfo) (ip : UInt32) (m : Mbuf) : Mbuf :=
  let m := rtePktmbufAppend m sizeofArpHdr
  let m := m.setArpOp 0 (rteCpuToBe16 arpOpRequest)
  let m := m.setArpPro 0 (rteCpuToBe16 etherTypeIPv4)
  let m := m.setArpPln 0 4
  let m := m.setArpHln 0 6
  let m := m.setArpHrd 0 (rteCpuToBe16 arpHrdEther)
  let m := m.setArpSha 0 info.ethMac
  let m := m.setArpTha 0 querycastmac
  let m := m.setArpSip 0 (rteCpuToBe32 info.startIpAddr)
  let m := m.setArpTip 0 (rteCpuToBe32 ip)
  let m := rtePktmbufPrepend m sizeofEtherHdr
  let m := m.setEtherType (rteCpuToBe16 etherTypeARP)
  let m := m.setSAddr info.ethMac
  m.setDAddr broadcastmac

def twConstructArpPacket (ports : PortTable) (pools : MbufPools) (ip : UInt32) (portId : UInt8) :
    Outcome (Int × List PktEffect) := do
  let socketId := pools.rteEthDevSocketId portId
  let socketId := if socketId = -1 then 0 else socketId
  match pools.txMempool socketId with
  -- an exhausted pool yields the null pointer, which is dereferenced
  | none => .fault
  | some (addr, stale) =>
    let info ← portInfo ports portId
    .ret (0, [.addToTxQueue (fillRequest info ip (rtePktmbufAlloc addr stale)) portId])

/-- What the returned pointer points to. `stack` and `ipArr` are what the locals of the
address conversion hold. -/
def twSearchArpEntry (stack : ℕ → Int) (ipArr : Fin 4 → UInt8) (st : ArpState)
    (ipString : CString) : Outcome (Option EtherAddr) := do
  let ipAddr ← twConvertIpStrToDec stack ipArr ipString
  match ← twSearchArpTable st (rteCpuToBe32 ipAddr) with
  | none => .ret none
  | some a => do
    let arpEntry ← st.heap.load (some a)
    .ret (some arpEntry.val.ethMac)

lemma twSearchArpEntry_renders {st : ArpState} {xs : List (ℕ × ArpEntry)} {s : CString}
    {ip : UInt32} (h : st.Lists xs) (hs : Renders s ip) (stack : ℕ → Int)
    (ipArr : Fin 4 → UInt8) :
    twSearchArpEntry stack ipArr st s = .ret ((entryOf xs ip).map ArpEntry.ethMac) := by
  rw [twSearchArpEntry, twConvertIpStrToDec_renders hs, Outcome.ret_bind, twSearchArpTable_eq h,
    rteBeToCpu32_rteCpuToBe32, entryOf_eq]
  cases hf : xs.find? fun x => x.2.ipAddr = ip with
  | none => rfl
  | some x =>
    obtain ⟨n, hn⟩ := Chain.live h (List.mem_of_find?_eq_some hf)
    simp [Heap.load_some hn]

section Packets

structure IsRequest (info : PortInfo) (ip : UInt32) (m : Mbuf) : Prop where
  dataLen : m.dataLen = sizeofEtherHdr + sizeofArpHdr
  etherType : m.etherType = rteCpuToBe16 etherTypeARP
  dAddr : m.dAddr = broadcastmac
  sAddr : m.sAddr = info.ethMac
  arpOp : m.arpOp sizeofEtherHdr = rteCpuToBe16 arpOpRequest
  arpSha : m.arpSha sizeofEtherHdr = info.ethMac
  arpSip : m.arpSip sizeofEtherHdr = rteCpuToBe32 info.startIpAddr
  arpTip : m.arpTip sizeofEtherHdr = rteCpuToBe32 ip

lemma fillRequest_addr (info : PortInfo) (ip : UInt32) (addr : ℕ) (stale : Bytes) :
    (fillRequest info ip (rtePktmbufAlloc addr stale)).addr = addr := by
  simp only [fillRequest, Mbuf.setDAddr, Mbuf.setSAddr, Mbuf.setEtherType, Mbuf.setArpTip,
    Mbuf.setArpSip, Mbuf.setArpTha, Mbuf.setArpSha, Mbuf.setArpHrd, Mbuf.setArpHln, Mbuf.setArpPln,
    Mbuf.setArpPro, Mbuf.setArpOp, Mbuf.store_addr, rtePktmbufPrepend_addr, rtePktmbufAppend_addr,
    rtePktmbufAlloc]

lemma fillRequest_isRequest (info : PortInfo) (ip : UInt32) (addr : ℕ) (stale : Bytes) :
    IsRequest info ip (fillRequest info ip (rtePktmbufAlloc addr stale)) := by
  have happ : rtePktmbufAppend (rtePktmbufAlloc addr stale) sizeofArpHdr =
      ⟨addr, stale, mbufBufLen, headroom, sizeofArpHdr⟩ := by
    simp [rtePktmbufAppend, rtePktmbufAlloc, mbufBufLen, headroom, sizeofArpHdr]
  simp only [fillRequest, happ]
  constructor
  · simp [Mbuf.setDAddr, Mbuf.setSAddr, Mbuf.setEtherType, rtePktmbufPrepend, Mbuf.setArpTip,
      Mbuf.setArpSip, Mbuf.setArpTha, Mbuf.setArpSha, Mbuf.setArpHrd, Mbuf.setArpHln,
      Mbuf.setArpPln, Mbuf.setArpPro, Mbuf.setArpOp, sizeofEtherHdr, headroom, sizeofArpHdr]
  all_goals
    simp (disch := first | omega | (simp [headroom])) only [Mbuf.etherType, Mbuf.setEtherType,
      Mbuf.dAddr, Mbuf.setDAddr, Mbuf.sAddr, Mbuf.setSAddr, Mbuf.arpOp, Mbuf.setArpOp, Mbuf.arpSha,
      Mbuf.setArpSha, Mbuf.arpSip, Mbuf.setArpSip, Mbuf.arpTip, Mbuf.setArpTip, Mbuf.setArpTha,
      Mbuf.setArpHrd, Mbuf.setArpPro, Mbuf.setArpHln, Mbuf.setArpPln, sizeofEtherHdr,
      Mbuf.load_store_self, Mbuf.load_store_of_disjoint, rtePktmbufPrepend_load,
      le16_bytes16, le32_bytes32]

structure IsReply (info : PortInfo) (m m' : Mbuf) : Prop where
  addr : m'.addr = m.addr
  dataLen : m'.dataLen = m.dataLen
  etherType : m'.etherType = m.etherType
  dAddr : m'.dAddr = m.sAddr
  sAddr : m'.sAddr = info.ethMac
  arpOp : m'.arpOp sizeofEtherHdr = rteCpuToBe16 arpOpReply
  arpSha : m'.arpSha sizeofEtherHdr = info.ethMac
  arpSip : m'.arpSip sizeofEtherHdr = rteCpuToBe32 info.startIpAddr
  arpTha : m'.arpTha sizeofEtherHdr = m.arpSha sizeofEtherHdr
  arpTip : m'.arpTip sizeofEtherHdr = m.arpSip sizeofEtherHdr

lemma overwriteWithReply_isReply (info : PortInfo) (m : Mbuf) :
    IsReply info m (overwriteWithReply info m) := by
  constructor
  · rfl
  · rfl
  all_goals
    simp (disch := omega) only [overwriteWithReply, Mbuf.etherType, Mbuf.dAddr, Mbuf.setDAddr,
      Mbuf.sAddr, Mbuf.setSAddr, Mbuf.arpOp, Mbuf.setArpOp, Mbuf.arpSha, Mbuf.setArpSha,
      Mbuf.arpSip, Mbuf.setArpSip, Mbuf.arpTha, Mbuf.setArpTha, Mbuf.arpTip, Mbuf.setArpTip,
      sizeofEtherHdr, Mbuf.load_store_self, Mbuf.load_store_of_disjoint, le16_bytes16,
      le32_bytes32, bytes32_le32]

lemma twConstructArpPacket_ret (ports : PortTable) {pools : MbufPools} {p : Fin maxEthPorts}
    {addr : ℕ} {stale : Bytes}
    (hpool : pools.txMempool (if pools.rteEthDevSocketId (portByte p) = -1 then 0
      else pools.rteEthDevSocketId (portByte p)) = some (addr, stale)) (ip : UInt32) :
    twConstructArpPacket ports pools ip (portByte p) =
      .ret (0, [.addToTxQueue (fillRequest (ports p) ip (rtePktmbufAlloc addr stale))
        (portByte p)]) := by
  simp only [twConstructArpPacket, hpool, portInfo_portByte, Outcome.ret_bind]

/-- A request is only built for a port of the table and with a buffer to build it in. -/
lemma twConstructArpPacket_inv {ports : PortTable} {pools : MbufPools} {ip : UInt32}
    {portId : UInt8} {r : Int × List PktEffect}
    (h : twConstructArpPacket ports pools ip portId = .ret r) :
    portId.toNat < maxEthPorts ∧ pools.next portId ≠ none := by
  change (match pools.next portId with
    | none => .fault
    | some (addr, stale) => do
      let info ← portInfo ports portId
      .ret (0, [.addToTxQueue (fillRequest info ip (rtePktmbufAlloc addr stale)) portId])) =
    Outcome.ret r at h
  cases hnext : pools.next portId with
  | none =>
    rw [hnext] at h
    cases h
  | some buffer =>
    rw [hnext] at h
    obtain ⟨info, hinfo, -⟩ := Outcome.bind_eq_ret.mp h
    refine ⟨?_, by simp⟩
    by_contra hport
    rw [portInfo, dif_neg hport] at hinfo
    cases hinfo

end Packets

section Parse
variable {ports : PortTable} {mem : Malloc (Node ArpEntry)} {st : ArpState}
  {xs : List (ℕ × ArpEntry)}

/-- The packet is a request for the address of the port. -/
def AsksFor (info : PortInfo) (pkt : Mbuf) : Prop :=
  rteBeToCpu16 (pkt.arpOp sizeofEtherHdr) = arpOpRequest ∧
    rteBeToCpu32 (pkt.arpTip sizeofEtherHdr) = info.startIpAddr

def Teaches (info : PortInfo) (pkt : Mbuf) : Prop :=
  rteBeToCpu16 (pkt.arpOp sizeofEtherHdr) = arpOpReply ∨ AsksFor info pkt

instance (info : PortInfo) (pkt : Mbuf) : Decidable (AsksFor info pkt) :=
  inferInstanceAs (Decidable (_ ∧ _))
instance (info : PortInfo) (pkt : Mbuf) : Decidable (Teaches info pkt) :=
  inferInstanceAs (Decidable (_ ∨ _))

/-- The sender's binding as the packet states it. -/
def stated (pkt : Mbuf) (portId : UInt8) : ArpEntry :=
  ⟨rteBeToCpu32 (pkt.arpSip sizeofEtherHdr), pkt.arpSha sizeofEtherHdr, portId⟩

def taught (info : PortInfo) (pkt : Mbuf) (portId : UInt8) : List ArpEntry :=
  if Teaches info pkt then [stated pkt portId] else []

def parseEffects (info : PortInfo) (pkt : Mbuf) (portId : UInt8) : List PktEffect :=
  if AsksFor info pkt then [.addToTxQueue (overwriteWithReply info pkt) portId] else [.free pkt]

/-- The packet states a binding that the table lacks, so an entry is allocated. -/
def NeedsEntry (info : PortInfo) (xs : List (ℕ × ArpEntry)) (pkt : Mbuf) : Prop :=
  Teaches info pkt ∧ entryOf xs (rteBeToCpu32 (pkt.arpSip sizeofEtherHdr)) = none

/-- What a receiver reads of a packet that holds its ARP header is in the frame. -/
lemma arpFields_congr {m m' : Mbuf} (h : m.frame = m'.frame)
    (hlen : sizeofEtherHdr + sizeofArpHdr ≤ m.dataLen) :
    m.arpOp sizeofEtherHdr = m'.arpOp sizeofEtherHdr ∧
    m.arpSha sizeofEtherHdr = m'.arpSha sizeofEtherHdr ∧
    m.arpSip sizeofEtherHdr = m'.arpSip sizeofEtherHdr ∧
    m.arpTip sizeofEtherHdr = m'.arpTip sizeofEtherHdr := by
  have hfit : sizeofEtherHdr + 28 ≤ m.dataLen := hlen
  exact ⟨congrArg le16 (Mbuf.load_congr h (by omega)), Mbuf.load_congr h (by omega),
    congrArg le32 (Mbuf.load_congr h (by omega)), congrArg le32 (Mbuf.load_congr h (by omega))⟩

lemma IsRequest.congr {info : PortInfo} {ip : UInt32} {m m' : Mbuf} (hr : IsRequest info ip m)
    (h : m.frame = m'.frame) : IsRequest info ip m' := by
  have hlen : sizeofEtherHdr + 28 ≤ m.dataLen := hr.dataLen.ge
  have hether : sizeofEtherHdr = 14 := rfl
  obtain ⟨hop, hsha, hsip, htip⟩ := arpFields_congr h hlen
  refine ⟨?_, ?_, ?_, ?_, hop ▸ hr.arpOp, hsha ▸ hr.arpSha, hsip ▸ hr.arpSip, htip ▸ hr.arpTip⟩
  · rw [← m'.frame_length, ← h, m.frame_length, hr.dataLen]
  · rw [← hr.etherType]
    exact congrArg le16 (Mbuf.load_congr h (by omega)).symm
  · rw [← hr.dAddr]
    exact (Mbuf.load_congr h (by omega)).symm
  · rw [← hr.sAddr]
    exact (Mbuf.load_congr h (by omega)).symm

lemma not_request_of_reply {pkt : Mbuf}
    (h : rteBeToCpu16 (pkt.arpOp sizeofEtherHdr) = arpOpReply) :
    rteBeToCpu16 (pkt.arpOp sizeofEtherHdr) ≠ arpOpRequest := by
  rw [h]
  decide

lemma IsRequest.asksFor {info info' : PortInfo} {ip : UInt32} {m : Mbuf}
    (h : IsRequest info ip m) (hip : ip = info'.startIpAddr) : AsksFor info' m :=
  ⟨by rw [h.arpOp, rteBeToCpu16_rteCpuToBe16], by rw [h.arpTip, rteBeToCpu32_rteCpuToBe32, hip]⟩

/-- Parsing returns unless an entry is needed and cannot be allocated. The table
learns what the packet teaches, and the packet is answered or freed. -/
theorem twParseArp_ret (ports : PortTable) (h : st.Lists xs) (p : Fin maxEthPorts) {pkt : Mbuf}
    (hm : NeedsEntry (ports p) xs pkt → mem.pick st.heap ≠ none) :
    ∃ st' xs', twParseArp ports mem st pkt (portByte p) =
        .ret (0, st', parseEffects (ports p) pkt (portByte p)) ∧
      st'.Lists xs' ∧ (st.Sized xs → st'.Sized xs') ∧
      Learns xs xs' (taught (ports p) pkt (portByte p)) := by
  -- the cases of the dispatch; the two that learn share the guarded insertion
  have hidle : Learns xs xs [] := ⟨List.prefix_rfl, rfl⟩
  by_cases hreq : rteBeToCpu16 (pkt.arpOp sizeofEtherHdr) = arpOpRequest
  · by_cases htip : rteBeToCpu32 (pkt.arpTip sizeofEtherHdr) = (ports p).startIpAddr
    · have hask : AsksFor (ports p) pkt := ⟨hreq, htip⟩
      have hteach : Teaches (ports p) pkt := Or.inr hask
      simp only [twParseArp, if_pos hreq, portInfo_portByte, Outcome.ret_bind, if_pos htip,
        twSendArpReply, parseEffects, if_pos hask, taught, if_pos hteach]
      rcases search_or_add mem h (pkt.arpSip sizeofEtherHdr) (pkt.arpSha sizeofEtherHdr)
          (portByte p) with ⟨a, hs, -, hl⟩ | ⟨hs, hnone, hadd⟩
      · exact ⟨st, xs, by simp only [hs, Outcome.ret_bind], h, id, hl⟩
      · obtain ⟨st', xs', ha, hlist, hsize, hl⟩ := hadd (hm ⟨hteach, hnone⟩)
        exact ⟨st', xs', by simp only [hs, ha, Outcome.ret_bind], hlist, hsize, hl⟩
    · have hask : ¬ AsksFor (ports p) pkt := fun hk => htip hk.2
      have hteach : ¬ Teaches (ports p) pkt := fun ht =>
        ht.elim (fun hr => not_request_of_reply hr hreq) hask
      simp only [twParseArp, if_pos hreq, portInfo_portByte, Outcome.ret_bind, if_neg htip,
        parseEffects, if_neg hask, taught, if_neg hteach]
      exact ⟨st, xs, rfl, h, id, hidle⟩
  · have hask : ¬ AsksFor (ports p) pkt := fun hk => hreq hk.1
    by_cases hrep : rteBeToCpu16 (pkt.arpOp sizeofEtherHdr) = arpOpReply
    · have hteach : Teaches (ports p) pkt := Or.inl hrep
      simp only [twParseArp, if_neg hreq, if_pos hrep, twProcessArpReply, parseEffects,
        if_neg hask, taught, if_pos hteach]
      rcases search_or_add mem h (pkt.arpSip sizeofEtherHdr) (pkt.arpSha sizeofEtherHdr)
          (portByte p) with ⟨a, hs, -, hl⟩ | ⟨hs, hnone, hadd⟩
      · exact ⟨st, xs, by simp only [hs, Outcome.ret_bind], h, id, hl⟩
      · obtain ⟨st', xs', ha, hlist, hsize, hl⟩ := hadd (hm ⟨hteach, hnone⟩)
        exact ⟨st', xs', by simp [hs, ha], hlist, hsize, hl⟩
    · have hteach : ¬ Teaches (ports p) pkt := fun ht => ht.elim hrep hask
      simp only [twParseArp, if_neg hreq, if_neg hrep, parseEffects, if_neg hask, taught,
        if_neg hteach]
      exact ⟨st, xs, rfl, h, id, hidle⟩

theorem twParseArp_exit (h : st.Lists xs) (p : Fin maxEthPorts) {pkt : Mbuf}
    (hn : NeedsEntry (ports p) xs pkt) (hm : mem.pick st.heap = none) :
    twParseArp ports mem st pkt (portByte p) = .exit "CAN'T ALLOCATE ARP TABLE ENTRY\n" := by
  obtain ⟨hteach, hnone⟩ := hn
  obtain ⟨r, hr, hiff⟩ := twSearchArpTable_isNone h (pkt.arpSip sizeofEtherHdr)
  obtain rfl : r = none := hiff.mpr hnone
  have hadd := twAddArpEntry_none h hm (pkt.arpSip sizeofEtherHdr) (pkt.arpSha sizeofEtherHdr)
    (portByte p)
  cases hteach with
  | inl hrep =>
    simp only [twParseArp, if_neg (not_request_of_reply hrep), if_pos hrep, twProcessArpReply, hr,
      hadd, Outcome.ret_bind, Outcome.exit_bind]
  | inr hask =>
    simp only [twParseArp, if_pos hask.1, portInfo_portByte, Outcome.ret_bind, if_pos hask.2, hr,
      hadd, Outcome.exit_bind]

theorem twParseArp_inv (h : st.Lists xs) (p : Fin maxEthPorts) {pkt : Mbuf} {r : Int}
    {st' : ArpState} {es : List PktEffect}
    (hrun : twParseArp ports mem st pkt (portByte p) = .ret (r, st', es)) :
    es = parseEffects (ports p) pkt (portByte p) ∧ ∃ xs', st'.Lists xs' ∧
      Learns xs xs' (taught (ports p) pkt (portByte p)) := by
  have hm : NeedsEntry (ports p) xs pkt → mem.pick st.heap ≠ none := by
    intro hn hnone
    rw [twParseArp_exit h p hn hnone] at hrun
    cases hrun
  obtain ⟨st₁, xs', hret, hlist, -, hl⟩ := twParseArp_ret ports h p hm
  rw [hret] at hrun
  cases hrun
  exact ⟨rfl, xs', hlist, hl⟩

end Parse
end Twister
