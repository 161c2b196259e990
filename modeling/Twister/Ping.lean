import Twister.IcmpEcho

/-! The ping application: requests are built in recycled buffers, one at each timer tick. -/
namespace Twister

section Model

def twGetSubnetMask (ports : PortTable) (portName : CString) : Outcome UInt32 := do
  let info ← portAt ports (twEthNameToId ports portName)
  .ret info.subnetMask

def twGetGatewayIp (ports : PortTable) (portName : CString) : Outcome UInt32 := do
  let info ← portAt ports (twEthNameToId ports portName)
  .ret info.gatewayIp

/-- What an allocating call finds: the packet pools, and the next block for a description
with the port it last named. -/
structure BufEnv where
  pools : MbufPools
  block : Option (Fin maxEthPorts)

def twNewBuffer (env : BufEnv) (bufferSize : UInt16) : Outcome TwBuf :=
  match env.pools.txMempool 0, env.block with
  | some (addr, stale), some portName =>
    let pkt := rtePktmbufAlloc addr stale
    let pkt := if bufferSize ≠ 0 then rtePktmbufAppend pkt bufferSize.toNat else pkt
    .ret ⟨pkt, pkt.dataOff, bufferSize, portName⟩
  | _, _ => .fault

structure PingApp extends Tw0App where
  pingIp : UInt32

/-- The globals of the application. `dstEthAddr` is the address in the ARP entry found. -/
structure PingState where
  ping : Int
  arpCounter : Int
  pingCount : UInt32
  replyCount : UInt32
  dstEthAddr : Option EtherAddr

def isSameNetwork (ports : PortTable) (ip : UInt32) : Outcome Bool := do
  let mask ← twGetSubnetMask ports tw0
  let ipAddr ← twGetIpAddr ports tw0
  .ret (ip &&& mask == ipAddr &&& mask)

namespace Ping

def buffSize : UInt16 := 74

def fillIcmp (pingCount : UInt32) (m : Mbuf) : Mbuf :=
  let icmp := sizeofEtherHdr + sizeofIpv4Hdr
  let m := m.setIcmpType icmp 8
  let m := m.setIcmpCode icmp 0
  let m := m.setIcmpIdentifier icmp 0x1337
  let m := m.setIcmpSequence icmp pingCount.toUInt16
  let m := m.setIcmpCksum icmp 0
  m.setIcmpCksum icmp (twCalcsum (m.bytesAt icmp sizeofIcmpEcho))

def fillIp (srcIp dstIp : UInt32) (size : UInt16) (m : Mbuf) : Mbuf :=
  let ip := sizeofEtherHdr
  let m := m.setIpTotalLength ip (rteCpuToBe16 (size - UInt16.ofNat sizeofEtherHdr))
  let m := m.setIpProto ip icmpProtoId
  let m := m.setIpSrc ip (rteCpuToBe32 srcIp)
  let m := m.setIpDst ip (rteCpuToBe32 dstIp)
  let m := m.setIpVersionIhl ip 0x45
  let m := m.setIpTtl ip 63
  let m := m.setIpCksum ip 0
  let (m, cksum) := twIpv4Cksum m ip
  m.setIpCksum ip cksum

def fillEther (dst src : EtherAddr) (m : Mbuf) : Mbuf :=
  let m := m.setEtherType (rteCpuToBe16 etherTypeIPv4)
  let m := m.setDAddr dst
  m.setSAddr src

/-- The host itself or the gateway. -/
def firstHop (app : PingApp) : Outcome UInt32 := do
  let same ← isSameNetwork app.ports app.pingIp
  if same then .ret app.pingIp else twGetGatewayIp app.ports tw0

def pktTx (app : PingApp) (env : BufEnv) (arp : ArpState) (st : PingState) :
    Outcome (PingState × List PktEffect) :=
  if st.ping = 1 then
    match st.dstEthAddr with
    | none => do
      let firstHopIp ← firstHop app
      match ← twSearchArpTable arp (rteBeToCpu32 firstHopIp) with
      | none => do
        let es ← twSendArpRequest app.ports env.pools firstHopIp tw0
        .ret ({ st with arpCounter := st.arpCounter + 1 }, es)
      | some a => do
        let entry ← arp.heap.load (some a)
        .ret ({ st with dstEthAddr := some entry.val.ethMac }, [])
    | some dstEthAddr => do
      let txBuf ← twNewBuffer env buffSize
      let pingCount := st.pingCount + 1
      let txBuf := txBuf.edit (fillIcmp pingCount)
      let ipAddr ← twGetIpAddr app.ports tw0
      let txBuf := txBuf.edit (fillIp ipAddr app.pingIp txBuf.size)
      let mac ← twGetEtherAddr app.ports tw0
      let txBuf := txBuf.edit (fillEther dstEthAddr mac)
      -- what is freed behind this is the description
      .ret ({ st with pingCount }, [.addToTxQueue txBuf.pkt app.tw0Id])
  else .ret (st, [])

def pktRx (app : PingApp) (st : PingState) (buffer : TwBuf) :
    Outcome (PingState × TwBuf × List PktEffect) :=
  let icmp := sizeofEtherHdr + sizeofIpv4Hdr
  if buffer.hdr.ipProto sizeofEtherHdr = icmpProtoId then
    if buffer.hdr.icmpType icmp = 0 then
      .ret ({ st with replyCount := st.replyCount + 1 }, buffer, [.free buffer.pkt])
    else if buffer.hdr.icmpType icmp = 8 then do
      let mac ← twGetEtherAddr app.ports tw0
      let buffer := buffer.edit (answerPing mac)
      -- `break` leaves the switch, and the packet is freed behind it
      .ret (st, buffer, [.addToTxQueue buffer.pkt app.tw0Id, .free buffer.pkt])
    else .ret (st, buffer, [.free buffer.pkt])
  else .ret (st, buffer, [.free buffer.pkt])

end Ping
end Model

namespace Ping
section Request
variable {s : ℕ → Prop} {m m' : Mbuf} {pingCount srcIp dstIp : UInt32} {dst src : EtherAddr}
  {j : ℕ}

/-- The message before its checksum. -/
def icmpFields (pingCount : UInt32) (m : Mbuf) : Mbuf :=
  ((((m.setIcmpType 34 8).setIcmpCode 34 0).setIcmpIdentifier 34 0x1337).setIcmpSequence 34
    pingCount.toUInt16).setIcmpCksum 34 0

/-- The header before its checksum. -/
def ipFields (srcIp dstIp : UInt32) (m : Mbuf) : Mbuf :=
  ((((((m.setIpTotalLength 14 (rteCpuToBe16 60)).setIpProto 14 icmpProtoId).setIpSrc 14
    (rteCpuToBe32 srcIp)).setIpDst 14 (rteCpuToBe32 dstIp)).setIpVersionIhl 14 0x45).setIpTtl 14
    63).setIpCksum 14 0

lemma fillIcmp_eq (pingCount : UInt32) (m : Mbuf) : fillIcmp pingCount m =
    (icmpFields pingCount m).setIcmpCksum 34
      (twCalcsum ((icmpFields pingCount m).bytesAt 34 sizeofIcmpEcho)) := by rfl

lemma fillIp_eq (srcIp dstIp : UInt32) (m : Mbuf) : fillIp srcIp dstIp buffSize m =
    (twIpv4Cksum (ipFields srcIp dstIp m) 14).1.setIpCksum 14
      (twIpv4Cksum (ipFields srcIp dstIp m) 14).2 := by rfl

lemma agreeOn_fillIcmp (h : Mbuf.AgreeOn s m m') (pingCount : UInt32) :
    Mbuf.AgreeOn (fun j => s j ∨ 34 ≤ j ∧ j < 42) (fillIcmp pingCount m)
      (fillIcmp pingCount m') := by
  have hfields : Mbuf.AgreeOn (fun j => s j ∨ 34 ≤ j ∧ j < 42) (icmpFields pingCount m)
      (icmpFields pingCount m') :=
    (((((h.store _).store _).store _).store _).store _).mono fun j hj => by grind
  have hbytes := hfields.bytesAt (p := 34) (n := sizeofIcmpEcho) fun i hi => Or.inr ⟨by omega, by
    simp only [sizeofIcmpEcho] at hi
    omega⟩
  rw [fillIcmp_eq, fillIcmp_eq, hbytes]
  exact (hfields.store _).mono fun j hj => Or.inl hj

/-- The header has bytes that are not written. -/
lemma agreeOn_fillIp (h : Mbuf.AgreeOn s m m') (hs : ∀ j, j = 15 ∨ 18 ≤ j ∧ j < 22 → s j)
    (srcIp dstIp : UInt32) : Mbuf.AgreeOn (fun j => s j ∨ 14 ≤ j ∧ j < 34)
      (fillIp srcIp dstIp buffSize m) (fillIp srcIp dstIp buffSize m') := by
  have hfields : Mbuf.AgreeOn (fun j => s j ∨ 14 ≤ j ∧ j < 34) (ipFields srcIp dstIp m)
      (ipFields srcIp dstIp m') :=
    (((((((h.store _).store _).store _).store _).store _).store _).store _).mono
      fun j hj => by grind
  have hclear : Mbuf.AgreeOn (fun j => s j ∨ 14 ≤ j ∧ j < 34)
      ((ipFields srcIp dstIp m).setIpCksum 14 0) ((ipFields srcIp dstIp m').setIpCksum 14 0) :=
    (hfields.store _).mono fun j hj => Or.inl hj
  have hbytes := hclear.bytesAt (p := 14) (n := sizeofIpv4Hdr) fun i hi => Or.inr ⟨by omega, by
    simp only [sizeofIpv4Hdr] at hi
    omega⟩
  have hcksum : (twIpv4Cksum (ipFields srcIp dstIp m) 14).2 =
      (twIpv4Cksum (ipFields srcIp dstIp m') 14).2 := congrArg rteIpv4Cksum hbytes
  rw [fillIp_eq, fillIp_eq, hcksum]
  exact (hclear.store _).mono fun j hj => Or.inl hj

def request (pingCount srcIp dstIp : UInt32) (dst src : EtherAddr) (m : Mbuf) : Mbuf :=
  fillEther dst src (fillIp srcIp dstIp buffSize (fillIcmp pingCount m))

/-- Type of service, packet id, fragment offset and the data. -/
def Unwritten (j : ℕ) : Prop := j = 15 ∨ 18 ≤ j ∧ j < 22 ∨ 42 ≤ j ∧ j < 74

lemma request_byteAt (pingCount srcIp dstIp : UInt32) (dst src : EtherAddr) (m : Mbuf)
    (hj : Unwritten j) :
    (request pingCount srcIp dstIp dst src m).byteAt j = m.byteAt j := by
  unfold Unwritten at hj
  simp (disch := omega) only [request, fillEther, Mbuf.setSAddr, Mbuf.setDAddr, Mbuf.setEtherType,
    fillIp_eq, twIpv4Cksum, Mbuf.setIpCksum, ipFields, Mbuf.setIpTtl, Mbuf.setIpVersionIhl,
    Mbuf.setIpDst, Mbuf.setIpSrc, Mbuf.setIpProto, Mbuf.setIpTotalLength, fillIcmp_eq,
    Mbuf.setIcmpCksum, icmpFields, Mbuf.setIcmpSequence, Mbuf.setIcmpIdentifier, Mbuf.setIcmpCode,
    Mbuf.setIcmpType, Mbuf.byteAt_store_of_out]

lemma request_agree (h : Mbuf.AgreeOn Unwritten m m') (pingCount srcIp dstIp : UInt32)
    (dst src : EtherAddr) : Mbuf.AgreeOn (fun j => j < 74)
      (request pingCount srcIp dstIp dst src m) (request pingCount srcIp dstIp dst src m') := by
  have hip := agreeOn_fillIp (agreeOn_fillIcmp h pingCount)
    (fun j hj => Or.inl (by unfold Unwritten; omega)) srcIp dstIp
  refine (((hip.store _).store _).store _).mono fun j hj => ?_
  unfold Unwritten
  omega

lemma fillEther_byteAt (hj : 14 ≤ j) : (fillEther dst src m).byteAt j = m.byteAt j := by
  simp (disch := omega) only [fillEther, Mbuf.setSAddr, Mbuf.setDAddr, Mbuf.setEtherType,
    Mbuf.byteAt_store_of_out]

lemma fillIp_byteAt (hj : 34 ≤ j) : (fillIp srcIp dstIp buffSize m).byteAt j = m.byteAt j := by
  simp (disch := omega) only [fillIp_eq, twIpv4Cksum, Mbuf.setIpCksum, ipFields, Mbuf.setIpTtl,
    Mbuf.setIpVersionIhl, Mbuf.setIpDst, Mbuf.setIpSrc, Mbuf.setIpProto, Mbuf.setIpTotalLength,
    Mbuf.byteAt_store_of_out]

lemma request_ipCksum (pingCount srcIp dstIp : UInt32) (dst src : EtherAddr) (m : Mbuf) :
    Verifies ((request pingCount srcIp dstIp dst src m).bytesAt 14 20) := by
  have hbytes : (request pingCount srcIp dstIp dst src m).bytesAt 14 20 =
      (fillIp srcIp dstIp buffSize (fillIcmp pingCount m)).bytesAt 14 20 :=
    Mbuf.bytesAt_congr fun i _ => fillEther_byteAt (by omega)
  rw [hbytes, fillIp_eq]
  exact Mbuf.verifies_setIpCksum _ 14

lemma request_totalLength (pingCount srcIp dstIp : UInt32) (dst src : EtherAddr) (m : Mbuf) :
    totalLength (request pingCount srcIp dstIp dst src m) = 60 := by
  have hether : sizeofEtherHdr = 14 := by rfl
  simp (disch := omega) only [totalLength, hether, request, fillEther, Mbuf.setSAddr,
    Mbuf.setDAddr, Mbuf.setEtherType, fillIp_eq, twIpv4Cksum, Mbuf.setIpCksum, ipFields,
    Mbuf.setIpTtl, Mbuf.setIpVersionIhl, Mbuf.setIpDst, Mbuf.setIpSrc, Mbuf.setIpProto,
    Mbuf.setIpTotalLength, Mbuf.load_store_of_disjoint, Mbuf.load_store_self, le16_bytes16,
    rteBeToCpu16_rteCpuToBe16]
  rfl

lemma request_icmpCksum_iff (pingCount srcIp dstIp : UInt32) (dst src : EtherAddr) (m : Mbuf) :
    Verifies ((request pingCount srcIp dstIp dst src m).bytesAt 34 40) ↔
      65535 ∣ (words (m.bytesAt 42 32)).sum := by
  have hheader : (request pingCount srcIp dstIp dst src m).bytesAt 34 8 =
      (fillIcmp pingCount m).bytesAt 34 8 :=
    Mbuf.bytesAt_congr fun i _ => by
      rw [request, fillEther_byteAt (by omega), fillIp_byteAt (by omega)]
  have hdata : (request pingCount srcIp dstIp dst src m).bytesAt 42 32 = m.bytesAt 42 32 :=
    Mbuf.bytesAt_congr fun i _ => request_byteAt pingCount srcIp dstIp dst src m
      (by unfold Unwritten; omega)
  rw [show 40 = 8 + 32 from rfl, Mbuf.bytesAt_append, hheader, hdata]
  refine verifies_append_iff ?_ ?_
  · rw [Mbuf.bytesAt_length]
    decide
  · rw [fillIcmp_eq]
    exact Mbuf.verifies_setIcmpCksum _ 34

/-- Buffer, start and length of the packet stay. -/
structure SamePacket (m m' : Mbuf) : Prop where
  addr : m'.addr = m.addr
  dataOff : m'.dataOff = m.dataOff
  dataLen : m'.dataLen = m.dataLen

lemma fillIcmp_same (pingCount : UInt32) (m : Mbuf) : SamePacket m (fillIcmp pingCount m) := by
  constructor <;> simp only [fillIcmp_eq, icmpFields, Mbuf.setIcmpCksum, Mbuf.setIcmpSequence,
    Mbuf.setIcmpIdentifier, Mbuf.setIcmpCode, Mbuf.setIcmpType, Mbuf.store_addr,
    Mbuf.store_dataOff, Mbuf.store_dataLen]

lemma fillIp_same (srcIp dstIp : UInt32) (m : Mbuf) :
    SamePacket m (fillIp srcIp dstIp buffSize m) := by
  constructor <;> simp only [fillIp_eq, twIpv4Cksum, ipFields, Mbuf.setIpCksum, Mbuf.setIpTtl,
    Mbuf.setIpVersionIhl, Mbuf.setIpDst, Mbuf.setIpSrc, Mbuf.setIpProto, Mbuf.setIpTotalLength,
    Mbuf.store_addr, Mbuf.store_dataOff, Mbuf.store_dataLen]

lemma fillEther_same (dst src : EtherAddr) (m : Mbuf) : SamePacket m (fillEther dst src m) := by
  constructor <;> simp only [fillEther, Mbuf.setSAddr, Mbuf.setDAddr, Mbuf.setEtherType,
    Mbuf.store_addr, Mbuf.store_dataOff, Mbuf.store_dataLen]

end Request

section Stale
variable {env env' : BufEnv} {st : PingState} {dst : EtherAddr} {addr addr' : ℕ}
  {stale stale' : Bytes} {q q' : Fin maxEthPorts}

/-- The buffer a request is built in. -/
def fresh (addr : ℕ) (stale : Bytes) : Mbuf := ⟨addr, stale, mbufBufLen, headroom, 74⟩

/-- The request that a tick sends. -/
def sentRequest (app : PingApp) (st : PingState) (dst : EtherAddr) (m : Mbuf) : Mbuf :=
  request (st.pingCount + 1) (app.ports app.port).startIpAddr app.pingIp dst app.mac m

lemma sentRequest_addr (app : PingApp) (st : PingState) (dst : EtherAddr) (m : Mbuf) :
    (sentRequest app st dst m).addr = m.addr := by
  rw [sentRequest, request, (fillEther_same _ _ _).addr, (fillIp_same _ _ _).addr,
    (fillIcmp_same _ _).addr]

lemma sentRequest_dataLen (app : PingApp) (st : PingState) (dst : EtherAddr) (m : Mbuf) :
    (sentRequest app st dst m).dataLen = m.dataLen := by
  rw [sentRequest, request, (fillEther_same _ _ _).dataLen, (fillIp_same _ _ _).dataLen,
    (fillIcmp_same _ _).dataLen]

lemma pktTx_request (app : PingApp) (arp : ArpState) (hping : st.ping = 1)
    (hdst : st.dstEthAddr = some dst)
    (hpool : env.pools.txMempool 0 = some (addr, stale)) (hblock : env.block = some q) :
    pktTx app env arp st = .ret ({ st with pingCount := st.pingCount + 1 },
      [.addToTxQueue (sentRequest app st dst (fresh addr stale)) (portByte app.port)]) := by
  have hbuf : twNewBuffer env buffSize = .ret ⟨fresh addr stale, headroom, buffSize, q⟩ := by
    have happend : rtePktmbufAppend (rtePktmbufAlloc addr stale) buffSize.toNat =
        fresh addr stale := if_neg (by simp [buffSize, rtePktmbufAlloc, mbufBufLen, headroom])
    have hsize : buffSize ≠ 0 := by decide
    simp only [twNewBuffer, hpool, hblock, if_pos hsize, happend, fresh]
  have hicmp := (fillIcmp_same (st.pingCount + 1) (fresh addr stale)).dataOff
  have hip := (fillIp_same (app.ports app.port).startIpAddr app.pingIp
    (fillIcmp (st.pingCount + 1) (fresh addr stale))).dataOff
  have hether := (fillEther_same dst app.mac (fillIp (app.ports app.port).startIpAddr app.pingIp
    buffSize (fillIcmp (st.pingCount + 1) (fresh addr stale)))).dataOff
  have hstart : headroom = (fresh addr stale).dataOff := by rfl
  simp only [pktTx, hping, ↓reduceIte, hdst, hbuf, Outcome.ret_bind, app.twGetIpAddr_eq,
    app.twGetEtherAddr_eq, app.tw0Id_eq]
  rw [TwBuf.edit_pkt hstart hicmp]
  simp only
  rw [TwBuf.edit_pkt (hstart.trans hicmp.symm) hip]
  simp only
  rw [TwBuf.edit_pkt ((hstart.trans hicmp.symm).trans hip.symm) hether]
  rfl

/-- The bytes that no request has written, in two buffers. -/
def SameStale (stale stale' : Bytes) : Prop :=
  ∀ j, Unwritten j → stale (headroom + j) = stale' (headroom + j)

/-- The data that a request is sent with. -/
def staleData (stale : Bytes) : List UInt8 := (fresh 0 stale).bytesAt 42 32

structure IsRequest (m : Mbuf) : Prop where
  dataLen : m.dataLen = 74
  ipCksum : Verifies (m.bytesAt 14 20)
  icmpCksum : Verifies (m.bytesAt 34 (totalLength m - 20))

/-- The requests built in two buffers are the same frame, and valid. -/
def Independent (app : PingApp) (env env' : BufEnv) (arp : ArpState) (st : PingState) : Prop :=
  ∃ st' pkt pkt', pktTx app env arp st =
      .ret (st', [.addToTxQueue pkt (portByte app.port)]) ∧
    pktTx app env' arp st = .ret (st', [.addToTxQueue pkt' (portByte app.port)]) ∧
    pkt.frame = pkt'.frame ∧ IsRequest pkt ∧ IsRequest pkt'

lemma sentRequest_frame_iff (addr addr' : ℕ) (app : PingApp) (st : PingState) (dst : EtherAddr) :
    (sentRequest app st dst (fresh addr stale)).frame =
      (sentRequest app st dst (fresh addr' stale')).frame ↔ SameStale stale stale' := by
  have hlen := sentRequest_dataLen app st dst (fresh addr stale)
  have hlen' := sentRequest_dataLen app st dst (fresh addr' stale')
  rw [Mbuf.frame_eq_iff (hlen.trans hlen'.symm), hlen]
  constructor
  · intro h j hj
    have hlt : j < 74 := by
      unfold Unwritten at hj
      omega
    have hbyte := h j hlt
    rwa [sentRequest, sentRequest, request_byteAt _ _ _ _ _ _ hj,
      request_byteAt _ _ _ _ _ _ hj] at hbyte
  · intro h
    have hagree : Mbuf.AgreeOn Unwritten (fresh addr stale) (fresh addr' stale') := h
    exact request_agree hagree (st.pingCount + 1) (app.ports app.port).startIpAddr app.pingIp dst
      app.mac

lemma sentRequest_isRequest_iff (addr : ℕ) (app : PingApp) (st : PingState) (dst : EtherAddr) :
    IsRequest (sentRequest app st dst (fresh addr stale)) ↔
      65535 ∣ (words (staleData stale)).sum := by
  have hlen := request_totalLength (st.pingCount + 1) (app.ports app.port).startIpAddr app.pingIp
    dst app.mac (fresh addr stale)
  have hcksum := request_icmpCksum_iff (st.pingCount + 1) (app.ports app.port).startIpAddr
    app.pingIp dst app.mac (fresh addr stale)
  constructor
  · intro h
    have hicmp := h.icmpCksum
    rw [sentRequest, hlen] at hicmp
    exact hcksum.mp hicmp
  · intro h
    refine ⟨sentRequest_dataLen app st dst _, request_ipCksum _ _ _ _ _ _, ?_⟩
    rw [sentRequest, hlen]
    exact hcksum.mpr h

lemma independent_iff (app : PingApp) (arp : ArpState) (hping : st.ping = 1)
    (hdst : st.dstEthAddr = some dst) (hpool : env.pools.txMempool 0 = some (addr, stale))
    (hblock : env.block = some q) (hpool' : env'.pools.txMempool 0 = some (addr', stale'))
    (hblock' : env'.block = some q') :
    Independent app env env' arp st ↔
      (sentRequest app st dst (fresh addr stale)).frame =
          (sentRequest app st dst (fresh addr' stale')).frame ∧
        IsRequest (sentRequest app st dst (fresh addr stale)) ∧
        IsRequest (sentRequest app st dst (fresh addr' stale')) := by
  have hsent := pktTx_request app arp hping hdst hpool hblock
  have hsent' := pktTx_request app arp hping hdst hpool' hblock'
  constructor
  · rintro ⟨st', pkt, pkt', hpkt, hpkt', hframe, hvalid, hvalid'⟩
    rw [hsent] at hpkt
    rw [hsent'] at hpkt'
    obtain ⟨-, rfl⟩ : _ ∧ sentRequest app st dst (fresh addr stale) = pkt := by simpa using hpkt
    obtain ⟨-, rfl⟩ : _ ∧ sentRequest app st dst (fresh addr' stale') = pkt' := by
      simpa using hpkt'
    exact ⟨hframe, hvalid, hvalid'⟩
  · rintro ⟨hframe, hvalid, hvalid'⟩
    exact ⟨_, _, _, hsent, hsent', hframe, hvalid, hvalid'⟩

def pinger : PingApp := ⟨echoServer, 0x0a000001⟩

/-- The address of the first hop has been found. -/
def resolved : PingState := ⟨1, 0, 0, 0, some fun _ => 2⟩

def poolOf (stale : Bytes) : BufEnv := ⟨⟨fun _ => 0, fun _ => some (0, stale)⟩, some 0⟩

/-- A request depends on what its buffer held before, in the bytes that are not written; and
its checksum leaves out the data, which it sends as it was. -/
theorem pktTx_independent_iff (app : PingApp) (arp : ArpState) (hping : st.ping = 1)
    (hdst : st.dstEthAddr = some dst) (hpool : env.pools.txMempool 0 = some (addr, stale))
    (hblock : env.block = some q) (hpool' : env'.pools.txMempool 0 = some (addr', stale'))
    (hblock' : env'.block = some q') :
    Independent app env env' arp st ↔
      SameStale stale stale' ∧ 65535 ∣ (words (staleData stale)).sum ∧
        65535 ∣ (words (staleData stale')).sum := by
  rw [independent_iff app arp hping hdst hpool hblock hpool' hblock', sentRequest_frame_iff,
    sentRequest_isRequest_iff, sentRequest_isRequest_iff]

/-- What one buffer held where the request writes its version does not show. -/
theorem pktTx_independent_version :
    Independent pinger (poolOf fun _ => 0)
      (poolOf fun j => if j = headroom + 14 then 0x60 else 0) .empty resolved := by
  refine (pktTx_independent_iff pinger .empty rfl rfl rfl rfl rfl rfl).mpr
    ⟨fun j hj => ?_, by decide, by decide⟩
  have hne : headroom + j ≠ headroom + 14 := by
    unfold Unwritten at hj
    omega
  exact (if_neg hne).symm

/-- Another type of service left in one of the buffers, and data left in both. -/
theorem pktTx_leaks :
    ¬ Independent pinger (poolOf fun _ => 0)
        (poolOf fun j => if j = headroom + 15 then 1 else 0) .empty resolved ∧
      ¬ Independent pinger (poolOf fun _ => 1) (poolOf fun _ => 1) .empty resolved := by
  constructor
  · intro h
    have hframe := ((independent_iff pinger .empty rfl rfl rfl rfl rfl rfl).mp h).1
    rw [sentRequest_frame_iff] at hframe
    exact absurd (hframe 15 (Or.inl rfl)) (by decide)
  · intro h
    have hvalid := ((independent_iff pinger .empty rfl rfl rfl rfl rfl rfl).mp h).2.1
    rw [sentRequest_isRequest_iff] at hvalid
    exact absurd hvalid (by decide)

end Stale
end Ping
end Twister
