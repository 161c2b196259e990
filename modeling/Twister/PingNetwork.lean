import Twister.ArpNetwork
import Twister.Exchange
import Twister.GatewayRun
import Twister.Ping

/-! The ping application and a program that answers it, on links that lose and reorder frames.
Every line that is printed accounts for one request, and the time in it counts from the last
request that was sent, whichever one is answered. -/
namespace Twister.Ping
open Exchange

section Model

/-- The buffer into which a frame is received, the slot of its port, and the memory there is. -/
structure RxEnv extends GwEnv where
  addr : ℕ
  stale : Bytes
  slot : Fin maxEthPorts

def rxMbuf (e : RxEnv) (f : List UInt8) : Mbuf :=
  ⟨e.addr, e.stale.store headroom f.get, mbufBufLen, headroom, f.length⟩

/-- What the event loop does with a frame before any callback. -/
inductive Received
  | arp (arp : ArpState) (es : List PktEffect)
  | ipv4 (buffer : TwBuf)
  | other

def classify (ports : PortTable) (e : RxEnv) (arp : ArpState) (f : List UInt8) :
    Outcome Received := do
  let pkt ← untag (f.length + 1) (rxMbuf e f)
  let ethType := rteBeToCpu16 pkt.etherType
  if ethType = etherTypeARP then do
    let (_, arp, es) ← twParseArp ports e.mem arp pkt (portByte e.slot)
    .ret (.arp arp es)
  else if ethType = etherTypeIPv4 then .ret (.ipv4 (describe pkt e.slot))
  else .ret .other

/-- What a request asks and its reply shows: the host, the sequence number and the time to
live. -/
structure Probe where
  ip : UInt32
  sequence : UInt16
  ttl : UInt8
  deriving DecidableEq

/-- A request with the clock when it was built. -/
structure Sent where
  probe : Probe
  time : ℕ

/-- A printed line with the clock when it was printed. -/
structure Line where
  probe : Probe
  now : ℕ
  time : Int

/-- The application with the ARP table; `t2` is the clock at the last request. -/
structure Pinger where
  app : PingState
  arp : ArpState
  t2 : ℕ

structure TickEnv where
  buf : BufEnv
  now : ℕ

structure HearEnv extends RxEnv where
  now : ℕ

def frameEtherType (f : List UInt8) : UInt16 := rteBeToCpu16 (le16 (frameLoad f 12 2))

def frameByte (f : List UInt8) (off : ℕ) : UInt8 := f.getD off 0

def frameProbe (f : List UInt8) (ipOff : ℕ) : Probe :=
  ⟨le32 (frameLoad f ipOff 4), le16 (frameLoad f 40 2), frameByte f 22⟩

/-- The host is the destination of a request and the source of a reply. -/
def probeOf (f : List UInt8) : Option Probe :=
  if frameEtherType f = etherTypeIPv4 then
    some (frameProbe f (if frameByte f 34 = 8 then 30 else 26))
  else none

def tick (app : PingApp) (e : TickEnv) (s : Pinger) :
    Outcome (Pinger × List (List UInt8) × List Sent) := do
  let (st, es) ← pktTx app e.buf s.arp s.app
  let t2 := if s.app.ping = 1 ∧ s.app.dstEthAddr.isSome then e.now else s.t2
  .ret (⟨st, s.arp, t2⟩, framesOf es, ((framesOf es).filterMap probeOf).map fun p => ⟨p, e.now⟩)

/-- `printf("64 bytes from %s: icmp_seq=%d ttl=%d time=%fms\n", ...)` -/
def printed (b : TwBuf) (t1 t2 : ℕ) : List Line :=
  let icmp := sizeofEtherHdr + sizeofIpv4Hdr
  if b.hdr.ipProto sizeofEtherHdr = icmpProtoId ∧ b.hdr.icmpType icmp = 0 then
    [⟨⟨b.hdr.ipSrc sizeofEtherHdr, le16 (b.hdr.load (icmp + 6) 2),
      b.hdr.byteAt (sizeofEtherHdr + 8)⟩, t1, t1 - t2⟩]
  else []

def hear (app : PingApp) (e : HearEnv) (s : Pinger) (f : List UInt8) :
    Outcome (Pinger × List (List UInt8) × List Line) := do
  match ← classify app.ports e.toRxEnv s.arp f with
  | .arp arp es => .ret ({ s with arp }, framesOf es, [])
  | .ipv4 buffer => do
    let (st, _, es) ← pktRx app s.app buffer
    .ret ({ s with app := st }, framesOf es, printed buffer e.now s.t2)
  | .other => .ret (s, [], [])

/-- What the last line is printed from. Of the loss it has the quotient that is subtracted from
one, without the arithmetic of `float`. -/
structure Statistics where
  transmitted : Int
  received : UInt32
  loss : Option (UInt32 × Int)

def sigHandler (st : PingState) : Statistics :=
  if 0 < st.pingCount then
    ⟨st.pingCount.toInt32.toInt, st.replyCount, some (st.replyCount, st.pingCount.toNat)⟩
  else if 0 < st.arpCounter then
    ⟨st.arpCounter, st.replyCount, some (st.replyCount, st.arpCounter)⟩
  else ⟨st.pingCount.toInt32.toInt, st.replyCount, none⟩

/-- A signal inside a callback finds each counter as it was before the call or as it is after. -/
structure Seen (before after st : PingState) : Prop where
  pingCount : st.pingCount = before.pingCount ∨ st.pingCount = after.pingCount
  replyCount : st.replyCount = before.replyCount ∨ st.replyCount = after.replyCount
  arpCounter : st.arpCounter = before.arpCounter ∨ st.arpCounter = after.arpCounter

end Model

section Frames
variable {f : List UInt8} {e : RxEnv} {m : Mbuf} {off n : ℕ}

lemma rxMbuf_frame (e : RxEnv) (f : List UInt8) : (rxMbuf e f).frame = f := by
  have hload : (rxMbuf e f).load 0 f.length = f.get := Bytes.load_store_self _ _ _
  have hframe : (rxMbuf e f).frame = List.ofFn ((rxMbuf e f).load 0 f.length) := by rfl
  rw [hframe, hload, List.ofFn_get]

lemma byteAt_eq_frameByte (h : off < m.dataLen) : m.byteAt off = frameByte m.frame off :=
  congrFun (Mbuf.load_eq_frameLoad h) ⟨0, Nat.one_pos⟩

lemma rxMbuf_byteAt (e : RxEnv) (h : off < f.length) :
    (rxMbuf e f).byteAt off = frameByte f off := by
  have hlen : off < (rxMbuf e f).dataLen := h
  rw [byteAt_eq_frameByte hlen, rxMbuf_frame]

lemma rxMbuf_load (e : RxEnv) (h : off + n ≤ f.length) :
    (rxMbuf e f).load off n = frameLoad f off n := by
  have hlen : off + n ≤ (rxMbuf e f).dataLen := h
  rw [Mbuf.load_eq_frameLoad hlen, rxMbuf_frame]

structure IsArp (f : List UInt8) : Prop where
  length : 14 ≤ f.length
  etherType : frameEtherType f = etherTypeARP

/-- An ICMP echo message in a frame of the size that the application sends. -/
structure IsEcho (icmpType : UInt8) (f : List UInt8) : Prop where
  length : f.length = 74
  etherType : frameEtherType f = etherTypeIPv4
  proto : frameByte f 23 = icmpProtoId
  icmpType : frameByte f 34 = icmpType

lemma IsArp.probeOf (h : IsArp f) : probeOf f = none := by
  have harp : etherTypeARP ≠ etherTypeIPv4 := by decide
  rw [Ping.probeOf, h.etherType, if_neg harp]

lemma isArp_frame (hlen : 14 ≤ m.dataLen) (htype : m.etherType = rteCpuToBe16 etherTypeARP) :
    IsArp m.frame := by
  refine ⟨m.frame_length ▸ hlen, ?_⟩
  rw [frameEtherType, ← Mbuf.load_eq_frameLoad (by omega)]
  exact congrArg rteBeToCpu16 htype

lemma isEcho_frame {icmpType : UInt8} (hlen : m.dataLen = 74)
    (htype : m.etherType = rteCpuToBe16 etherTypeIPv4) (hproto : m.ipProto 14 = icmpProtoId)
    (hicmp : m.icmpType 34 = icmpType) : IsEcho icmpType m.frame := by
  refine ⟨m.frame_length ▸ hlen, ?_, ?_, ?_⟩
  · rw [frameEtherType, ← Mbuf.load_eq_frameLoad (by omega)]
    exact congrArg rteBeToCpu16 htype
  · rw [← byteAt_eq_frameByte (by omega)]
    exact hproto
  · rw [← byteAt_eq_frameByte (by omega)]
    exact hicmp

lemma frameProbe_frame (hlen : m.dataLen = 74) {ipOff : ℕ} (hip : ipOff ≤ 30) :
    frameProbe m.frame ipOff = ⟨le32 (m.load ipOff 4), le16 (m.load 40 2), m.byteAt 22⟩ := by
  rw [frameProbe, ← Mbuf.load_eq_frameLoad (by omega), ← Mbuf.load_eq_frameLoad (by omega),
    ← byteAt_eq_frameByte (by omega)]

lemma untag_plain {fuel : ℕ} (h : rteBeToCpu16 m.etherType ≠ etherTypeVLAN) :
    untag (fuel + 1) m = .ret m := by
  rw [untag, if_neg h]

lemma rxMbuf_etherType (e : RxEnv) (h : 14 ≤ f.length) :
    rteBeToCpu16 (rxMbuf e f).etherType = frameEtherType f := by
  rw [Mbuf.etherType, rxMbuf_load e (by omega), frameEtherType]

lemma classify_ipv4 (ports : PortTable) (e : RxEnv) (arp : ArpState) {icmpType : UInt8}
    (h : IsEcho icmpType f) :
    classify ports e arp f = .ret (.ipv4 (describe (rxMbuf e f) e.slot)) := by
  have hlen := h.length
  have htype := (rxMbuf_etherType e (f := f) (by omega)).trans h.etherType
  have hvlan : rteBeToCpu16 (rxMbuf e f).etherType ≠ etherTypeVLAN := by
    rw [htype]
    decide
  have harp : etherTypeIPv4 ≠ etherTypeARP := by decide
  rw [classify, untag_plain hvlan, Outcome.ret_bind]
  simp only [htype, if_neg harp, ↓reduceIte]

/-- ARP leaves a list, and what it sends is ARP. -/
lemma classify_arp (ports : PortTable) (hmem : ∀ h, e.mem.pick h ≠ none) {arp : ArpState}
    (hlists : ∃ xs, arp.Lists xs) (h : IsArp f) :
    ∃ arp' es, classify ports e arp f = .ret (.arp arp' es) ∧ (∃ xs, arp'.Lists xs) ∧
      ∀ g ∈ framesOf es, IsArp g := by
  obtain ⟨xs, hxs⟩ := hlists
  have htype := (rxMbuf_etherType e h.length).trans h.etherType
  have hvlan : rteBeToCpu16 (rxMbuf e f).etherType ≠ etherTypeVLAN := by
    rw [htype]
    decide
  have hneeds : NeedsEntry (ports e.slot) xs (rxMbuf e f) → e.mem.pick arp.heap ≠ none :=
    fun _ => hmem _
  obtain ⟨arp', xs', hparse, hxs', -, -⟩ := twParseArp_ret ports hxs e.slot hneeds
  refine ⟨arp', parseEffects (ports e.slot) (rxMbuf e f) (portByte e.slot), ?_, ⟨xs', hxs'⟩, ?_⟩
  · rw [classify, untag_plain hvlan, Outcome.ret_bind]
    simp only [htype, ↓reduceIte, hparse, Outcome.ret_bind]
  · intro g hg
    simp only [parseEffects] at hg
    split at hg
    · rw [framesOf_addToTxQueue, List.mem_singleton] at hg
      have hreply := overwriteWithReply_isReply (ports e.slot) (rxMbuf e f)
      subst hg
      refine isArp_frame (hreply.dataLen ▸ h.length) (hreply.etherType.trans ?_)
      rw [← htype]
      exact (bswap16_bswap16 _).symm
    · rw [framesOf_free] at hg
      cases hg

end Frames

section Requests
variable {app : PingApp} {env : BufEnv} {arp : ArpState} {st : PingState} {m : Mbuf}

/-- The frame of a request, for `m` of its size. -/
lemma request_isEcho (pingCount srcIp dstIp : UInt32) (dst src : EtherAddr)
    (hlen : m.dataLen = 74) :
    IsEcho 8 (request pingCount srcIp dstIp dst src m).frame ∧
      frameProbe (request pingCount srcIp dstIp dst src m).frame 30 =
        ⟨rteCpuToBe32 dstIp, pingCount.toUInt16, 63⟩ := by
  have hsize : (request pingCount srcIp dstIp dst src m).dataLen = 74 := by
    rw [request, (fillEther_same _ _ _).dataLen, (fillIp_same _ _ _).dataLen,
      (fillIcmp_same _ _).dataLen, hlen]
  refine ⟨isEcho_frame hsize ?_ ?_ ?_, ?_⟩
  · simp (disch := omega) only [request, fillEther, Mbuf.etherType, Mbuf.setSAddr, Mbuf.setDAddr,
      Mbuf.setEtherType, Mbuf.load_store_of_disjoint, Mbuf.load_store_self, le16_bytes16]
  · simp (disch := omega) only [request, fillEther, Mbuf.ipProto, Mbuf.setSAddr, Mbuf.setDAddr,
      Mbuf.setEtherType, fillIp_eq, twIpv4Cksum, Mbuf.setIpCksum, ipFields, Mbuf.setIpTtl,
      Mbuf.setIpVersionIhl, Mbuf.setIpDst, Mbuf.setIpSrc, Mbuf.setIpProto,
      Mbuf.load_store_of_disjoint, Mbuf.load_store_self]
  · simp (disch := omega) only [request, fillEther, Mbuf.icmpType, Mbuf.setSAddr, Mbuf.setDAddr,
      Mbuf.setEtherType, fillIp_eq, twIpv4Cksum, Mbuf.setIpCksum, ipFields, Mbuf.setIpTtl,
      Mbuf.setIpVersionIhl, Mbuf.setIpDst, Mbuf.setIpSrc, Mbuf.setIpProto, Mbuf.setIpTotalLength,
      fillIcmp_eq, Mbuf.setIcmpCksum, icmpFields, Mbuf.setIcmpSequence, Mbuf.setIcmpIdentifier,
      Mbuf.setIcmpCode, Mbuf.setIcmpType, Mbuf.load_store_of_disjoint, Mbuf.load_store_self]
  · have hload (m : Mbuf) : m.byteAt 22 = m.load 22 1 0 := by rfl
    rw [frameProbe_frame hsize (by omega), hload]
    simp (disch := omega) only [request, fillEther, Mbuf.setSAddr, Mbuf.setDAddr,
      Mbuf.setEtherType, fillIp_eq, twIpv4Cksum, Mbuf.setIpCksum, ipFields, Mbuf.setIpTtl,
      Mbuf.setIpVersionIhl, Mbuf.setIpDst, Mbuf.setIpSrc, Mbuf.setIpProto, Mbuf.setIpTotalLength,
      fillIcmp_eq, Mbuf.setIcmpCksum, icmpFields, Mbuf.setIcmpSequence,
      Mbuf.load_store_of_disjoint, Mbuf.load_store_self, le16_bytes16, le32_bytes32]

lemma firstHop_ret (app : PingApp) : ∃ ip, firstHop app = .ret ip := by
  simp only [firstHop, isSameNetwork, twGetSubnetMask, twGetGatewayIp, app.located, portAt_val,
    app.twGetIpAddr_eq, Outcome.ret_bind]
  split
  · exact ⟨_, rfl⟩
  · exact ⟨_, rfl⟩

def BufEnv.Ready (env : BufEnv) : Prop :=
  (∀ socket, env.pools.txMempool socket ≠ none) ∧ env.block ≠ none

/-- While the address is not known the counters of the pings stay and only ARP is sent. -/
lemma pktTx_resolving (app : PingApp) (hping : st.ping = 1) (hdst : st.dstEthAddr = none)
    (hlists : ∃ xs, arp.Lists xs) (hready : BufEnv.Ready env) :
    ∃ st' es, pktTx app env arp st = .ret (st', es) ∧ st'.ping = 1 ∧
      st'.pingCount = st.pingCount ∧ st'.replyCount = st.replyCount ∧
      ∀ f ∈ framesOf es, IsArp f := by
  obtain ⟨xs, hxs⟩ := hlists
  obtain ⟨hop, hhop⟩ := firstHop_ret app
  simp only [pktTx, if_pos hping, hdst, hhop, Outcome.ret_bind]
  obtain ⟨r, hsearch, hnone⟩ := twSearchArpTable_isNone hxs (rteBeToCpu32 hop)
  cases hentry : entryOf xs (rteBeToCpu32 (rteBeToCpu32 hop)) with
  | none =>
    obtain rfl : r = none := hnone.mpr hentry
    have hid : twEthNameToId app.ports tw0 ≠ -1 := by
      rw [app.located]
      exact fun h => absurd (Int.natCast_nonneg app.port.val) (by omega)
    obtain ⟨p, addr, stale, hsend⟩ :=
      twSendArpRequest_ret hop hid (hready.1 _ : env.pools.next _ ≠ none)
    simp only [hsearch, Outcome.ret_bind, hsend]
    refine ⟨_, _, rfl, hping, rfl, rfl, fun f hf => ?_⟩
    rw [framesOf_addToTxQueue, List.mem_singleton] at hf
    have hrequest := fillRequest_isRequest (app.ports p) hop addr stale
    rw [hf]
    exact isArp_frame (hrequest.dataLen ▸ by decide) hrequest.etherType
  | some e =>
    obtain ⟨a, node, hfound, hload, -⟩ :=
      ArpState.entry_eq_some.mp ((entry_eq hxs (rteBeToCpu32 hop)).trans (by rw [hentry]))
    simp only [hfound, Outcome.ret_bind, hload]
    exact ⟨_, _, rfl, hping, rfl, rfl, fun f hf => absurd hf List.not_mem_nil⟩

end Requests

section Responders
variable {f : List UInt8} {e : RxEnv} {pingIp : UInt32}

def IsRequestFor (pingIp : UInt32) (f : List UInt8) : Prop :=
  IsEcho 8 f ∧ le32 (frameLoad f 30 4) = rteCpuToBe32 pingIp

/-- A program that turns a request for its address round, and beside that sends ARP only. -/
structure Responder (pingIp : UInt32) where
  State : Type
  receive : RxEnv → State → List UInt8 → Outcome (State × List (List UInt8))
  Valid : State → Prop
  arp : ∀ {e s f}, (∀ h, e.mem.pick h ≠ none) → Valid s → IsArp f →
    ∃ s' fs, receive e s f = .ret (s', fs) ∧ Valid s' ∧ ∀ g ∈ fs, IsArp g
  request : ∀ {e s f}, Valid s → IsRequestFor pingIp f →
    ∃ s' mac, receive e s f = .ret (s', [(answerPing mac (rxMbuf e f)).frame]) ∧ Valid s'

lemma IsEcho.rxMbuf_ipProto {icmpType : UInt8} (h : IsEcho icmpType f) (e : RxEnv) :
    (rxMbuf e f).ipProto sizeofEtherHdr = icmpProtoId := by
  have hlen := h.length
  have hbyte : (rxMbuf e f).byteAt 23 = frameByte f 23 := rxMbuf_byteAt e (by omega)
  exact hbyte.trans h.proto

/-- A reply in a frame of the same size, about the same host with the same number. -/
lemma answerPing_isEcho (mac : EtherAddr) (e : RxEnv) (h : IsEcho 8 f) :
    IsEcho 0 (answerPing mac (rxMbuf e f)).frame ∧
      frameProbe (answerPing mac (rxMbuf e f)).frame 26 = frameProbe f 30 := by
  have hlen : (rxMbuf e f).dataLen = 74 := h.length
  have hproto := h.rxMbuf_ipProto e
  have hturned := answerPing_turned mac hproto
  have hsize := hturned.dataLen.trans hlen
  have hseq : (answerPing mac (rxMbuf e f)).load 40 2 = (rxMbuf e f).load 40 2 := by
    refine Mbuf.load_congr_byteAt fun i hi => ?_
    rw [answerPing_message mac hproto (by omega), echoIcmp_byteAt (by omega)]
  have hframe := rxMbuf_frame e f
  refine ⟨isEcho_frame hsize ?_ ((hturned.ipKept 9 (by decide)).trans hproto) ?_, ?_⟩
  · rw [hturned.etherType, Mbuf.etherType, rxMbuf_load e (by have := h.length; omega)]
    rw [← h.etherType, frameEtherType]
    exact (bswap16_bswap16 _).symm
  · rw [Mbuf.icmpType, Mbuf.load_byteAt]
    exact (answerPing_message mac hproto le_rfl).trans (echoIcmp_type _ _)
  · rw [frameProbe_frame hsize (by decide), hseq, hturned.ipKept 8 (by decide)]
    rw [← hframe, frameProbe_frame hlen (by decide), hframe]
    exact congrArg (Probe.mk · _ _) hturned.ipSrc

namespace IcmpEcho

def receive (app : Tw0App) (e : RxEnv) (arp : ArpState) (f : List UInt8) :
    Outcome (ArpState × List (List UInt8)) := do
  match ← classify app.ports e arp f with
  | .arp arp es => .ret (arp, framesOf es)
  | .ipv4 buffer => do
    let (arp, _, es) ← Twister.IcmpEcho.replyPayload app e.mem arp buffer
    .ret (arp, framesOf es)
  | .other => .ret (arp, [])

end IcmpEcho

/-- The ping echo answers for any address. -/
def icmpEcho (app : Tw0App) (pingIp : UInt32) : Responder pingIp where
  State := ArpState
  receive := IcmpEcho.receive app
  Valid arp := ∃ xs, arp.Lists xs
  arp hmem hlists harp := by
    obtain ⟨arp', es, hclassify, hlists', hes⟩ := classify_arp app.ports hmem hlists harp
    exact ⟨arp', framesOf es, by rw [IcmpEcho.receive, hclassify]; rfl, hlists', hes⟩
  request {e s f} hlists hrequest := by
    have hlen := hrequest.1.length
    have htype := (rxMbuf_etherType e (f := f) (by omega)).trans hrequest.1.etherType
    have hreply : Twister.IcmpEcho.replyPayload app e.mem s (describe (rxMbuf e f) e.slot) = _ :=
      echoPayload_ipv4 e.mem s (answerPing_dataOff app.mac) rfl htype
    refine ⟨s, app.mac, ?_, hlists⟩
    rw [IcmpEcho.receive, classify_ipv4 app.ports e s hrequest.1]
    simp only [Outcome.ret_bind, hreply]
    rfl

namespace Gateway

/-- The frames that leave on the port. -/
def frames (port : Fin maxEthPorts) : GwCall → List (List UInt8)
  | .sendPkt pkt portId => if portId = portByte port then [pkt.frame] else []
  | .sendArpRequest es | .arpParser es =>
    ((PktEffect.sent es).filter fun x => x.2 = portByte port).map fun x => x.1.frame
  | _ => []

/-- A frame that is received on the port. -/
def receive (gw : Twister.Gateway) (port : Fin maxEthPorts) (e : RxEnv) (st : GwState)
    (f : List UInt8) : Outcome (GwState × List (List UInt8)) := do
  match ← classify gw.ports { e with slot := port } st.arp f with
  | .arp arp es => .ret ({ st with arp }, framesOf es)
  | .ipv4 buffer => do
    let (st, calls) ← replyPayload gw e.toGwEnv { st with tempBuffer := buffer } .tempBuffer
    .ret (st, calls.flatMap (frames port))
  | .other => .ret (st, [])

lemma replyPayload_pinged {gw : Twister.Gateway} (env : GwEnv) (st : GwState)
    {portName : CString} {port : Fin maxEthPorts}
    (hdata : st.tempBuffer.data = st.tempBuffer.pkt.dataOff)
    (htype : rteBeToCpu16 st.tempBuffer.pkt.etherType = etherTypeIPv4)
    (hpinged : pinged gw (st.tempBuffer.pkt.ipDst sizeofEtherHdr) = .ret (some portName))
    (hport : twEthNameToId gw.ports portName = port.val) :
    ∃ st', replyPayload gw env st .tempBuffer = .ret (st',
        [.sendPkt (answerPing (gw.ports port).ethMac st.tempBuffer.pkt) (portByte port)]) ∧
      st'.arp = st.arp := by
  have hhdr : st.tempBuffer.hdr = st.tempBuffer.pkt := by rw [TwBuf.hdr, hdata]
  have hmac : twGetEtherAddr gw.ports portName = .ret (gw.ports port).ethMac := by
    rw [twGetEtherAddr, hport, portAt_val]
    rfl
  have harp : etherTypeIPv4 ≠ etherTypeARP := by decide
  have hcheck : checkGatewayPing gw st .tempBuffer = .ret (0, st.setBuf .tempBuffer
      (st.tempBuffer.edit (answerPing (gw.ports port).ethMac)),
      [.sendPkt (answerPing (gw.ports port).ethMac st.tempBuffer.pkt) (portByte port)]) := by
    rw [← hhdr] at hpinged
    refine Outcome.bind_eq_ret.mpr ⟨some portName, hpinged, Outcome.bind_eq_ret.mpr ⟨_, hmac, ?_⟩⟩
    rw [hport, portIdByte_val, GwState.buf, TwBuf.edit_pkt hdata (answerPing_dataOff _ _)]
  refine ⟨st.setBuf .tempBuffer (st.tempBuffer.edit (answerPing (gw.ports port).ethMac)), ?_, rfl⟩
  simp only [replyPayload, GwState.buf, hhdr, htype, if_neg harp, ↓reduceIte, hcheck,
    Outcome.ret_bind, ne_eq, not_true_eq_false]

end Gateway

/-- The gateway answers for the address of the port on which it is asked, if a route names the
port first. -/
def gateway (gw : Twister.Gateway) (port : Fin maxEthPorts) (portName : CString)
    (hpinged : pinged gw (rteCpuToBe32 pingIp) = .ret (some portName))
    (hport : twEthNameToId gw.ports portName = port.val) : Responder pingIp where
  State := GwState
  receive := Gateway.receive gw port
  Valid st := ∃ xs, st.arp.Lists xs
  arp {e s f} hmem hlists harp := by
    obtain ⟨arp', es, hclassify, hlists', hes⟩ :=
      classify_arp (e := { e with slot := port }) gw.ports hmem hlists harp
    exact ⟨{ s with arp := arp' }, framesOf es, by rw [Gateway.receive, hclassify]; rfl, hlists',
      hes⟩
  request {e s f} hlists hrequest := by
    have hlen := hrequest.1.length
    have hmbuf : rxMbuf { e with slot := port } f = rxMbuf e f := by rfl
    have htype := (rxMbuf_etherType e (f := f) (by omega)).trans hrequest.1.etherType
    have hdst : (rxMbuf e f).ipDst sizeofEtherHdr = rteCpuToBe32 pingIp := by
      have hload : (rxMbuf e f).load 30 4 = frameLoad f 30 4 := rxMbuf_load e (by omega)
      rw [← hrequest.2, ← hload]
      rfl
    obtain ⟨st', hreply, harp⟩ := Gateway.replyPayload_pinged e.toGwEnv
      { s with tempBuffer := describe (rxMbuf e f) port } rfl htype (hdst.symm ▸ hpinged) hport
    refine ⟨st', (gw.ports port).ethMac, ?_, harp ▸ hlists⟩
    rw [Gateway.receive, classify_ipv4 gw.ports _ s.arp hrequest.1, hmbuf]
    simp only [Outcome.ret_bind, hreply, List.flatMap_singleton, Gateway.frames, ↓reduceIte]
    rfl

end Responders

section Network
variable {app : PingApp} {s : Pinger} {sent : List Sent} {reported : List Line}
  {f : List UInt8}

/-- What the request after `k` others asks. -/
def nthProbe (app : PingApp) (k : ℕ) : Probe :=
  ⟨rteCpuToBe32 app.pingIp, (UInt32.ofNat (k + 1)).toUInt16, 63⟩

def lastTime (sent : List Sent) : ℕ := (sent.getLast?.map Sent.time).getD 0

/-- The time that a line shows is counted from the last request. -/
def TimedFrom (sent : List Sent) (x : Line) : Prop := x.time = x.now - lastTime sent

structure Counts (app : PingApp) (s : Pinger) (sent : List Sent) (reported : List Line) :
    Prop where
  lists : ∃ xs, s.arp.Lists xs
  ping : s.app.ping = 1
  pingCount : s.app.pingCount = UInt32.ofNat sent.length
  replyCount : s.app.replyCount = UInt32.ofNat reported.length
  probes : sent.map Sent.probe = (List.range sent.length).map (nthProbe app)
  t2 : s.t2 = lastTime sent

lemma filterMap_probeOf_arp {fs : List (List UInt8)} (h : ∀ f ∈ fs, IsArp f) :
    fs.filterMap probeOf = [] :=
  List.filterMap_eq_nil_iff.mpr fun f hf => (h f hf).probeOf

lemma IsEcho.probeOf_request (h : IsEcho 8 f) : probeOf f = some (frameProbe f 30) := by
  rw [probeOf, if_pos h.etherType, if_pos h.icmpType]

lemma IsEcho.probeOf_reply (h : IsEcho 0 f) : probeOf f = some (frameProbe f 26) := by
  have htype : frameByte f 34 ≠ 8 := by
    rw [h.icmpType]
    decide
  rw [probeOf, if_pos h.etherType, if_neg htype]

lemma Counts.resolving (h : Counts app s sent reported) (hdst : s.app.dstEthAddr = none)
    {e : TickEnv} (hready : BufEnv.Ready e.buf) :
    ∃ s' fs, tick app e s = .ret (s', fs, []) ∧ Counts app s' sent reported ∧
      ∀ f ∈ fs, IsArp f := by
  obtain ⟨st', es, htx, hping, hcount, hreply, hes⟩ :=
    pktTx_resolving app h.ping hdst h.lists hready
  refine ⟨⟨st', s.arp, s.t2⟩, framesOf es, ?_, ?_, hes⟩
  · rw [tick, htx]
    simp [hdst, filterMap_probeOf_arp hes]
  · exact ⟨h.lists, hping, hcount.trans h.pingCount, hreply.trans h.replyCount, h.probes, h.t2⟩

lemma Counts.sends (h : Counts app s sent reported) {dst : EtherAddr}
    (hdst : s.app.dstEthAddr = some dst) {e : TickEnv} (hready : BufEnv.Ready e.buf) :
    ∃ s' f, tick app e s = .ret (s', [f], [⟨nthProbe app sent.length, e.now⟩]) ∧
      Counts app s' (sent ++ [⟨nthProbe app sent.length, e.now⟩]) reported ∧
      IsRequestFor app.pingIp f ∧ probeOf f = some (nthProbe app sent.length) := by
  obtain ⟨⟨addr, stale⟩, hpool⟩ := Option.ne_none_iff_exists'.mp (hready.1 0)
  obtain ⟨q, hblock⟩ := Option.ne_none_iff_exists'.mp hready.2
  have htx := pktTx_request app s.arp h.ping hdst hpool hblock
  have hsent : IsEcho 8 (sentRequest app s.app dst (fresh addr stale)).frame ∧
      frameProbe (sentRequest app s.app dst (fresh addr stale)).frame 30 =
        ⟨rteCpuToBe32 app.pingIp, (s.app.pingCount + 1).toUInt16, 63⟩ :=
    request_isEcho (s.app.pingCount + 1) (app.ports app.port).startIpAddr app.pingIp dst app.mac rfl
  have hcount : s.app.pingCount + 1 = UInt32.ofNat (sent.length + 1) := by
    rw [h.pingCount, UInt32.ofNat_add]
    rfl
  -- of the request only what it asks matters
  generalize sentRequest app s.app dst (fresh addr stale) = m at htx hsent
  obtain ⟨hecho, hprobe⟩ := hsent
  rw [hcount] at hprobe
  have hof : probeOf m.frame = some (nthProbe app sent.length) :=
    hecho.probeOf_request.trans (congrArg some hprobe)
  refine ⟨⟨{ s.app with pingCount := s.app.pingCount + 1 }, s.arp, e.now⟩, m.frame, ?_, ?_,
    ⟨hecho, congrArg Probe.ip hprobe⟩, hof⟩
  · simp only [Ping.tick, htx, Outcome.ret_bind, framesOf_addToTxQueue, List.filterMap_cons, hof,
      List.filterMap_nil, List.map_cons, List.map_nil, h.ping, hdst, Option.isSome_some, and_self,
      ↓reduceIte]
  · refine ⟨h.lists, h.ping, hcount.trans (by simp), h.replyCount, ?_, by simp [lastTime]⟩
    simp [h.probes, List.range_succ]

lemma Counts.tick (h : Counts app s sent reported) {e : TickEnv} (hready : BufEnv.Ready e.buf) :
    ∃ s' fs xs, tick app e s = .ret (s', fs, xs) ∧ Counts app s' (sent ++ xs) reported ∧
      (∀ f ∈ fs, IsArp f ∨ IsRequestFor app.pingIp f) ∧
      fs.filterMap probeOf = xs.map Sent.probe := by
  cases hdst : s.app.dstEthAddr with
  | none =>
    obtain ⟨s', fs, htick, hcounts, hfs⟩ := h.resolving hdst hready
    exact ⟨s', fs, [], htick, by simpa using hcounts, fun f hf => Or.inl (hfs f hf),
      filterMap_probeOf_arp hfs⟩
  | some dst =>
    obtain ⟨s', f, htick, hcounts, hrequest, hof⟩ := h.sends hdst hready
    refine ⟨s', [f], _, htick, hcounts, fun g hg => Or.inr ?_, by simp [hof]⟩
    rwa [List.mem_singleton.mp hg]

lemma Counts.hear (h : Counts app s sent reported) {e : HearEnv}
    (hmem : ∀ heap, e.mem.pick heap ≠ none) (hf : IsArp f ∨ IsEcho 0 f) :
    ∃ s' fs xs, hear app e s f = .ret (s', fs, xs) ∧ Counts app s' sent (reported ++ xs) ∧
      (∀ g ∈ fs, IsArp g) ∧ xs.map Line.probe = (probeOf f).toList ∧
      ∀ x ∈ xs, TimedFrom sent x := by
  rcases hf with hf | hf
  · obtain ⟨arp, es, hclassify, hlists, hes⟩ := classify_arp app.ports hmem h.lists hf
    refine ⟨{ s with arp }, framesOf es, [], by rw [Ping.hear, hclassify]; rfl, ?_, hes, ?_, ?_⟩
    · simpa using ⟨hlists, h.ping, h.pingCount, h.replyCount, h.probes, h.t2⟩
    · rw [hf.probeOf]
      rfl
    · exact fun x hx => absurd hx List.not_mem_nil
  · have hlen := hf.length
    have hproto : (describe (rxMbuf e.toRxEnv f) e.slot).hdr.ipProto sizeofEtherHdr =
        icmpProtoId := hf.rxMbuf_ipProto e.toRxEnv
    have htype : (describe (rxMbuf e.toRxEnv f) e.slot).hdr.icmpType
        (sizeofEtherHdr + sizeofIpv4Hdr) = 0 := by
      have hbyte : (rxMbuf e.toRxEnv f).byteAt 34 = frameByte f 34 :=
        rxMbuf_byteAt e.toRxEnv (by omega)
      exact hbyte.trans hf.icmpType
    have hprobe : frameProbe f 26 = ⟨le32 ((rxMbuf e.toRxEnv f).load 26 4),
        le16 ((rxMbuf e.toRxEnv f).load 40 2), (rxMbuf e.toRxEnv f).byteAt 22⟩ := by
      have hmbuf := frameProbe_frame (m := rxMbuf e.toRxEnv f) hlen (by decide : 26 ≤ 30)
      rwa [rxMbuf_frame] at hmbuf
    refine ⟨{ s with app := { s.app with replyCount := s.app.replyCount + 1 } }, [],
      [⟨frameProbe f 26, e.now, e.now - s.t2⟩], ?_, ?_, ?_, ?_, ?_⟩
    · rw [Ping.hear, classify_ipv4 app.ports e.toRxEnv s.arp hf]
      simp only [Outcome.ret_bind, pktRx, printed, hproto, htype, ↓reduceIte, and_self,
        framesOf_free, hprobe]
      rfl
    · refine ⟨h.lists, h.ping, h.pingCount, ?_, h.probes, h.t2⟩
      rw [h.replyCount, List.length_append, UInt32.ofNat_add]
      rfl
    · exact fun g hg => absurd hg List.not_mem_nil
    · rw [hf.probeOf_reply]
      rfl
    · intro x hx
      rw [List.mem_singleton.mp hx, TimedFrom, h.t2]

def peers (app : PingApp) (r : Responder app.pingIp) :
    Peers Pinger r.State (List UInt8) Sent Line TickEnv RxEnv HearEnv :=
  ⟨tick app, r.receive, Ping.hear app⟩

def spec (app : PingApp) (r : Responder app.pingIp) :
    Spec Pinger r.State (List UInt8) Probe Sent Line TickEnv RxEnv HearEnv where
  token := probeOf
  sentToken := Sent.probe
  reportedToken := Line.probe
  Client := Counts app
  Server := r.Valid
  Request f := IsArp f ∨ IsRequestFor app.pingIp f
  Answer f := IsArp f ∨ IsEcho 0 f
  Report := TimedFrom
  CanAct e := BufEnv.Ready e.buf
  CanServe e := ∀ h, e.mem.pick h ≠ none
  CanAnswer e := ∀ h, e.mem.pick h ≠ none

lemma peers_meets (app : PingApp) (r : Responder app.pingIp) :
    Meets (peers app r) (spec app r) where
  act h he := h.tick he
  serve {s e f} hs hf he := by
    rcases hf with hf | hf
    · obtain ⟨s', fs, hreceive, hs', hfs⟩ := r.arp he hs hf
      refine ⟨s', fs, hreceive, hs', fun g hg => Or.inl (hfs g hg), ?_⟩
      simp only [spec, filterMap_probeOf_arp hfs, hf.probeOf, Option.toList_none]
    · obtain ⟨s', mac, hreceive, hs'⟩ := r.request (e := e) hs hf
      obtain ⟨hecho, hprobe⟩ := answerPing_isEcho mac e hf.1
      refine ⟨s', _, hreceive, hs', fun g hg => Or.inr ?_, ?_⟩
      · rwa [List.mem_singleton.mp hg]
      · simp only [spec, List.filterMap_cons, hecho.probeOf_reply, List.filterMap_nil,
          hf.1.probeOf_request, hprobe, Option.toList_some]
  answer h hf he := by
    obtain ⟨s', fs, xs, hhear, hcounts, hfs, hprobes, htimes⟩ := h.hear he hf
    exact ⟨s', fs, xs, hhear, hcounts, fun g hg => Or.inl (hfs g hg), filterMap_probeOf_arp hfs,
      hprobes, htimes⟩

/-- Nothing has been sent yet. -/
structure Fresh (s : Pinger) : Prop where
  lists : ∃ xs, s.arp.Lists xs
  ping : s.app.ping = 1
  pingCount : s.app.pingCount = 0
  replyCount : s.app.replyCount = 0
  t2 : s.t2 = 0

lemma Fresh.counts (h : Fresh s) : Counts app s [] [] :=
  ⟨h.lists, h.ping, h.pingCount, h.replyCount, rfl, h.t2⟩

/-- What the handler prints for a state of the counters: from the first request on the replies
counted over the requests counted, before it over the ARP requests. -/
structure Summary (es : List (Event Probe Sent Line)) (st : PingState) : Prop where
  requested : 0 < (sentOf es).length → (sentOf es).length < 2 ^ 32 →
    (sigHandler st).transmitted = (UInt32.ofNat (sentOf es).length).toInt32.toInt ∧
    (sigHandler st).received = UInt32.ofNat (reportedOf es).length ∧
    (sigHandler st).loss = some (UInt32.ofNat (reportedOf es).length, ((sentOf es).length : Int))
  unresolved : sentOf es = [] →
    (sigHandler st).loss = if 0 < st.arpCounter then some (0, st.arpCounter) else none

/-- The requests are numbered in turn, and each is printed once, lost or on its way. -/
structure Course {ρ : Type} (app : PingApp) (s : Net Pinger ρ (List UInt8))
    (es : List (Event Probe Sent Line)) : Prop where
  sent : (sentOf es).map Sent.probe = (List.range (sentOf es).length).map (nthProbe app)
  pingCount : s.client.app.pingCount = UInt32.ofNat (sentOf es).length
  replyCount : s.client.app.replyCount = UInt32.ofNat (reportedOf es).length
  balance : (↑((sentOf es).map Sent.probe) : Multiset Probe) =
    ↑((reportedOf es).map Line.probe) + ↑(lostOf es) +
      (tokens probeOf s.toServer + tokens probeOf s.toClient)
  missing : (sentOf es).length = (reportedOf es).length + (lostOf es).length +
    (tokens probeOf s.toServer + tokens probeOf s.toClient).card

lemma Counts.summary {es : List (Event Probe Sent Line)}
    (h : Counts app s (sentOf es) (reportedOf es))
    (hle : (reportedOf es).length ≤ (sentOf es).length) : Summary es s.app := by
  constructor
  · intro hpos hlt
    have hsent : s.app.pingCount.toNat = (sentOf es).length := by
      rw [h.pingCount, UInt32.toNat_ofNat_of_lt' hlt]
    have hcount : 0 < s.app.pingCount := by
      rw [UInt32.lt_iff_toNat_lt, hsent]
      exact hpos
    rw [sigHandler, if_pos hcount, hsent, h.replyCount, h.pingCount]
    exact ⟨rfl, rfl, rfl⟩
  · intro hnone
    have hping : s.app.pingCount = 0 := by
      rw [h.pingCount, hnone]
      rfl
    have hreply : s.app.replyCount = 0 := by
      rw [hnone, List.length_nil, Nat.le_zero] at hle
      rw [h.replyCount, hle]
      rfl
    rw [sigHandler, if_neg (by rw [hping]; decide), hreply]
    split_ifs <;> rfl

lemma course_of_account {r : Responder app.pingIp} {s : Net Pinger r.State (List UInt8)}
    {es : List (Event Probe Sent Line)} (h : Account (spec app r) s es) :
    Course app s es ∧ Summary es s.client.app := by
  have hcard := congrArg Multiset.card h.balance
  simp only [spec, Multiset.card_add, Multiset.coe_card, List.length_map] at hcard
  refine ⟨⟨h.client.probes, h.client.pingCount, h.client.replyCount, h.balance, ?_⟩,
    h.client.summary (by omega)⟩
  rw [Multiset.card_add]
  exact hcard

/-- What the handler reads. -/
def counters (st : PingState) : UInt32 × UInt32 × Int :=
  (st.pingCount, st.replyCount, st.arpCounter)

lemma Summary.congr {es : List (Event Probe Sent Line)} {st st' : PingState}
    (h : counters st = counters st') (hsummary : Summary es st) : Summary es st' := by
  obtain ⟨hping, hrest⟩ := Prod.mk.inj h
  obtain ⟨hreply, harp⟩ := Prod.mk.inj hrest
  have hprint : sigHandler st = sigHandler st' := by
    rw [sigHandler, hping, hreply, harp, sigHandler]
  exact ⟨hprint ▸ hsummary.requested, hprint ▸ harp ▸ hsummary.unresolved⟩

/-- A callback advances one counter at most. -/
def AdvancesOne (before after : PingState) : Prop :=
  after.replyCount = before.replyCount ∧
      (after.pingCount = before.pingCount ∨ after.arpCounter = before.arpCounter) ∨
    after.pingCount = before.pingCount ∧ after.arpCounter = before.arpCounter

lemma AdvancesOne.rfl (st : PingState) : AdvancesOne st st := Or.inr ⟨Eq.refl _, Eq.refl _⟩

/-- So a signal inside it finds the counters of before, or those of after. -/
lemma AdvancesOne.seen {before after st : PingState} (h : AdvancesOne before after)
    (hseen : Seen before after st) :
    counters st = counters before ∨ counters st = counters after := by
  obtain ⟨hping, hreply, harp⟩ := hseen
  simp only [counters, Prod.mk.injEq]
  rcases h with ⟨hsame, hsame' | hsame'⟩ | ⟨hsame, hsame'⟩
  · rw [hsame, or_self] at hreply
    rw [hsame', or_self] at hping
    exact harp.imp (fun h => ⟨hping, hreply, h⟩)
      fun h => ⟨hping.trans hsame'.symm, hreply.trans hsame.symm, h⟩
  · rw [hsame, or_self] at hreply
    rw [hsame', or_self] at harp
    exact hping.imp (fun h => ⟨h, hreply, harp⟩)
      fun h => ⟨h, hreply.trans hsame.symm, harp.trans hsame'.symm⟩
  · rw [hsame, or_self] at hping
    rw [hsame', or_self] at harp
    exact hreply.imp (fun h => ⟨hping, h, harp⟩)
      fun h => ⟨hping.trans hsame.symm, h, harp.trans hsame'.symm⟩

lemma pktTx_advances {env : BufEnv} {arp : ArpState} {st st' : PingState} {es : List PktEffect}
    (h : pktTx app env arp st = .ret (st', es)) : AdvancesOne st st' := by
  unfold pktTx at h
  split at h
  · split at h
    · obtain ⟨firstHopIp, -, h⟩ := Outcome.bind_eq_ret.mp h
      obtain ⟨found, -, h⟩ := Outcome.bind_eq_ret.mp h
      cases found with
      | none =>
        obtain ⟨fs, -, h⟩ := Outcome.bind_eq_ret.mp h
        obtain ⟨rfl, rfl⟩ := Prod.mk.inj (Outcome.ret.inj h)
        exact Or.inl ⟨rfl, Or.inl rfl⟩
      | some a =>
        obtain ⟨entry, -, h⟩ := Outcome.bind_eq_ret.mp h
        obtain ⟨rfl, rfl⟩ := Prod.mk.inj (Outcome.ret.inj h)
        exact Or.inl ⟨rfl, Or.inl rfl⟩
    · obtain ⟨txBuf, -, h⟩ := Outcome.bind_eq_ret.mp h
      obtain ⟨ipAddr, -, h⟩ := Outcome.bind_eq_ret.mp h
      obtain ⟨mac, -, h⟩ := Outcome.bind_eq_ret.mp h
      obtain ⟨rfl, rfl⟩ := Prod.mk.inj (Outcome.ret.inj h)
      exact Or.inl ⟨rfl, Or.inr rfl⟩
  · obtain ⟨rfl, rfl⟩ := Prod.mk.inj (Outcome.ret.inj h)
    exact AdvancesOne.rfl st

lemma pktRx_advances {st st' : PingState} {buffer buffer' : TwBuf} {es : List PktEffect}
    (h : pktRx app st buffer = .ret (st', buffer', es)) : AdvancesOne st st' := by
  unfold pktRx at h
  dsimp only at h
  split_ifs at h
  · obtain ⟨rfl, -⟩ := Prod.mk.inj (Outcome.ret.inj h)
    exact Or.inr ⟨rfl, rfl⟩
  · obtain ⟨mac, -, h⟩ := Outcome.bind_eq_ret.mp h
    obtain ⟨rfl, -⟩ := Prod.mk.inj (Outcome.ret.inj h)
    exact AdvancesOne.rfl st
  · obtain ⟨rfl, -⟩ := Prod.mk.inj (Outcome.ret.inj h)
    exact AdvancesOne.rfl st
  · obtain ⟨rfl, -⟩ := Prod.mk.inj (Outcome.ret.inj h)
    exact AdvancesOne.rfl st

lemma hear_advances {e : HearEnv} {s' : Pinger} {fs : List (List UInt8)} {xs : List Line}
    (h : Ping.hear app e s f = .ret (s', fs, xs)) : AdvancesOne s.app s'.app := by
  obtain ⟨received, -, h⟩ := Outcome.bind_eq_ret.mp h
  cases received with
  | arp arp es =>
    obtain ⟨rfl, -⟩ := Prod.mk.inj (Outcome.ret.inj h)
    exact AdvancesOne.rfl s.app
  | ipv4 buffer =>
    obtain ⟨⟨st, buffer', es⟩, hrx, h⟩ := Outcome.bind_eq_ret.mp h
    obtain ⟨rfl, -⟩ := Prod.mk.inj (Outcome.ret.inj h)
    exact pktRx_advances hrx
  | other =>
    obtain ⟨rfl, -⟩ := Prod.mk.inj (Outcome.ret.inj h)
    exact AdvancesOne.rfl s.app

lemma step_advances {r : Responder app.pingIp} {s s' : Net Pinger r.State (List UInt8)}
    {es : List (Event Probe Sent Line)} {o : Exchange.Op TickEnv RxEnv HearEnv}
    (h : Exchange.step (peers app r) probeOf s o = .ret (s', es)) :
    AdvancesOne s.client.app s'.client.app := by
  refine step_client (R := fun s s' => AdvancesOne s.app s'.app) (fun s => AdvancesOne.rfl s.app)
    ?_ (fun _ _ _ _ _ _ hanswer => hear_advances hanswer) h
  intro e s s' fs xs hact
  obtain ⟨⟨st, es'⟩, htx, hact⟩ := Outcome.bind_eq_ret.mp hact
  obtain ⟨rfl, -⟩ := Prod.mk.inj (Outcome.ret.inj hact)
  exact pktTx_advances htx

/-- The account at a point of a run, and what a signal prints there or inside the call that comes
next: that call counts as done once its counter is advanced. -/
def Accounted (app : PingApp) (r : Responder app.pingIp) (s : Net Pinger r.State (List UInt8))
    (es : List (Event Probe Sent Line)) : Prop :=
  Course app s es ∧ Summary es s.client.app ∧
    ∀ o, (spec app r).Can o → ∃ s' es', Exchange.step (peers app r) probeOf s o = .ret (s', es') ∧
      ∀ st, Seen s.client.app s'.client.app st → Summary es st ∨ Summary (es ++ es') st

variable {os : List (Exchange.Op TickEnv RxEnv HearEnv)}

/-- Whatever the links lose or reorder, the application accounts for its requests. -/
theorem ping_account (app : PingApp) (r : Responder app.pingIp) {r₀ : r.State} (hs : Fresh s)
    (hr : r.Valid r₀) (hcan : ∀ o ∈ os, (spec app r).Can o) :
    Throughout (Exchange.step (peers app r) probeOf) ⟨s, r₀, [], []⟩
      (fun _ s es => Accounted app r s es) os := by
  intro pre hpre
  have hruns {os : List (Exchange.Op TickEnv RxEnv HearEnv)}
      (hcan : ∀ o ∈ os, (spec app r).Can o) :=
    (peers_meets app r).throughout hs.counts hr hcan os List.prefix_rfl
  have hpreCan : ∀ o ∈ pre, (spec app r).Can o := fun o ho => hcan o (hpre.subset ho)
  obtain ⟨s', es, hrun, haccount⟩ := hruns hpreCan
  obtain ⟨hcourse, hsummary⟩ := course_of_account haccount
  refine ⟨s', es, hrun, hcourse, hsummary, fun o ho => ?_⟩
  -- the call that is interrupted, as the last one of a longer run
  obtain ⟨s'', es'', hlonger, haccount'⟩ :=
    hruns (List.forall_mem_append.mpr ⟨hpreCan, List.forall_mem_singleton.mpr ho⟩)
  rw [runOps_snoc hrun] at hlonger
  obtain ⟨⟨t, fs⟩, hstep, hlast⟩ := Outcome.bind_eq_ret.mp hlonger
  obtain ⟨rfl, rfl⟩ := Prod.mk.inj (Outcome.ret.inj hlast)
  refine ⟨t, fs, hstep, fun st hseen => ?_⟩
  rcases (step_advances hstep).seen hseen with hbefore | hafter
  · exact Or.inl (hsummary.congr hbefore.symm)
  · exact Or.inr ((course_of_account haccount').2.congr hafter.symm)

def resolvedPinger : Pinger := ⟨resolved, .empty, 0⟩

def rxInto : RxEnv := ⟨plentiful, 3, fun _ => 0, 0⟩

/-- Two requests, the first of which is answered. -/
def lateReply : List (Exchange.Op TickEnv RxEnv HearEnv) :=
  [.act ⟨poolOf fun _ => 0, 10⟩, .act ⟨poolOf fun _ => 0, 20⟩, .serve 0 rxInto,
    .answer 0 ⟨rxInto, 25⟩]

lemma lateReply_can (app : PingApp) (r : Responder app.pingIp) :
    ∀ o ∈ lateReply, (spec app r).Can o := by
  intro o ho
  simp only [lateReply, List.mem_cons, List.not_mem_nil, or_false] at ho
  rcases ho with rfl | rfl | rfl | rfl
  · exact ⟨fun _ => Option.some_ne_none _, Option.some_ne_none _⟩
  · exact ⟨fun _ => Option.some_ne_none _, Option.some_ne_none _⟩
  · exact fun _ => Option.some_ne_none _
  · exact fun _ => Option.some_ne_none _

lemma resolvedPinger_fresh : Fresh resolvedPinger := ⟨⟨[], rfl⟩, rfl, rfl, rfl, rfl⟩

theorem ping_account_echo :
    Throughout (Exchange.step (peers pinger (icmpEcho echoServer pinger.pingIp)) probeOf)
      ⟨resolvedPinger, .empty, [], []⟩
      (fun _ s es => Accounted pinger (icmpEcho echoServer pinger.pingIp) s es) lateReply :=
  ping_account pinger (icmpEcho echoServer pinger.pingIp) resolvedPinger_fresh ⟨[], rfl⟩
    (lateReply_can _ _)

/-- The time in a line counts from the request that was sent last before it was printed. -/
theorem ping_times (app : PingApp) (r : Responder app.pingIp) {r₀ : r.State} (hs : Fresh s)
    (hr : r.Valid r₀) (hcan : ∀ o ∈ os, (spec app r).Can o) :
    Throughout (Exchange.step (peers app r) probeOf) ⟨s, r₀, [], []⟩
      (fun _ _ es => Reports TimedFrom [] es) os := by
  intro pre hpre
  obtain ⟨s', es, hrun, haccount⟩ := (peers_meets app r).throughout hs.counts hr hcan pre hpre
  exact ⟨s', es, hrun, haccount.reports⟩

/-- The first port of the gateway is pinged. -/
def gatewayPinger : PingApp := ⟨echoServer, 0x0a0a0105⟩

def firstPort : Responder gatewayPinger.pingIp :=
  gateway oneRoute 0 tw0 (by rfl) (by rfl)

theorem ping_times_gateway :
    Throughout (Exchange.step (peers gatewayPinger firstPort) probeOf)
      ⟨resolvedPinger, idleGateway, [], []⟩
      (fun _ _ es => Reports TimedFrom [] es) lateReply :=
  ping_times gatewayPinger firstPort resolvedPinger_fresh ⟨[], rfl⟩ (lateReply_can _ _)

end Network
end Twister.Ping
