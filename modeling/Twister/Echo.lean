import Twister.FrameBytes
import Twister.GatewayReply

/-! What the echo applications share: a packet is turned round in its own buffer, addresses
exchanged in both headers, and sent back on `tw0`. -/
namespace Twister

section Parts
variable {m : Mbuf} {mac : EtherAddr} {ip j : ℕ}

/-- The two addresses exchanged and the header checksum renewed. -/
def swapIp (m : Mbuf) (ip : ℕ) : Mbuf :=
  let dstIp := m.ipDst ip
  let srcIp := m.ipSrc ip
  let m := m.setIpDst ip srcIp
  let m := m.setIpSrc ip dstIp
  let (m, cksum) := twIpv4Cksum m ip
  m.setIpCksum ip cksum

def turnEther (mac : EtherAddr) (m : Mbuf) : Mbuf := (m.setDAddr m.sAddr).setSAddr mac

lemma swapIp_byteAt (h : j < ip + 10 ∨ ip + 20 ≤ j) : (swapIp m ip).byteAt j = m.byteAt j := by
  simp (disch := omega) only [swapIp, twIpv4Cksum, Mbuf.setIpCksum, Mbuf.setIpSrc, Mbuf.setIpDst,
    Mbuf.byteAt_store_of_out]

lemma swapIp_ipSrc (m : Mbuf) (ip : ℕ) : (swapIp m ip).ipSrc ip = m.ipDst ip := by
  simp (disch := omega) only [swapIp, twIpv4Cksum, Mbuf.setIpCksum, Mbuf.ipSrc, Mbuf.setIpSrc,
    Mbuf.load_store_of_disjoint, Mbuf.load_store_self, le32_bytes32]

lemma swapIp_ipDst (m : Mbuf) (ip : ℕ) : (swapIp m ip).ipDst ip = m.ipSrc ip := by
  simp (disch := omega) only [swapIp, twIpv4Cksum, Mbuf.setIpCksum, Mbuf.ipDst, Mbuf.setIpSrc,
    Mbuf.setIpDst, Mbuf.load_store_of_disjoint, Mbuf.load_store_self, le32_bytes32]

lemma swapIp_verifies (m : Mbuf) (ip : ℕ) :
    Verifies ((swapIp m ip).bytesAt ip sizeofIpv4Hdr) :=
  Mbuf.verifies_setIpCksum ((m.setIpDst ip (m.ipSrc ip)).setIpSrc ip (m.ipDst ip)) ip

lemma turnEther_byteAt (h : 12 ≤ j) : (turnEther mac m).byteAt j = m.byteAt j := by
  simp (disch := omega) only [turnEther, Mbuf.setSAddr, Mbuf.setDAddr, Mbuf.byteAt_store_of_out]

lemma turnEther_dAddr (mac : EtherAddr) (m : Mbuf) : (turnEther mac m).dAddr = m.sAddr := by
  simp (disch := omega) only [turnEther, Mbuf.setSAddr, Mbuf.setDAddr, Mbuf.dAddr,
    Mbuf.load_store_of_disjoint, Mbuf.load_store_self]

lemma turnEther_sAddr (mac : EtherAddr) (m : Mbuf) : (turnEther mac m).sAddr = mac := by
  simp only [turnEther, Mbuf.setSAddr, Mbuf.sAddr, Mbuf.load_store_self]

end Parts

section Turned
variable {m m' m₁ m₁' : Mbuf} {mac : EtherAddr}

/-- The same packet up to the end of the IPv4 header. -/
structure SameHead (m m' : Mbuf) : Prop where
  addr : m.addr = m'.addr
  dataLen : m.dataLen = m'.dataLen
  bytes : ∀ i < 34, m.byteAt i = m'.byteAt i

lemma SameHead.refl (m : Mbuf) : SameHead m m := ⟨rfl, rfl, fun _ _ => rfl⟩

lemma SameHead.load (h : SameHead m m') {off n : ℕ} (hb : off + n ≤ 34) :
    m.load off n = m'.load off n :=
  Mbuf.load_congr_byteAt fun i _ => h.bytes (off + i) (by omega)

lemma SameHead.turnEther (mac : EtherAddr) (h : SameHead m m') :
    SameHead (turnEther mac m) (turnEther mac m') := by
  refine ⟨h.addr, h.dataLen, fun i hi => ?_⟩
  have hsrc : m.sAddr = m'.sAddr := h.load (by decide)
  simp only [Twister.turnEther, Mbuf.setSAddr, Mbuf.setDAddr, hsrc]
  exact Mbuf.byteAt_store_congr _ (Mbuf.byteAt_store_congr _ (h.bytes i hi))

/-- `m'` goes from `mac` to the sender of `m`, with the IPv4 addresses exchanged, everything
else in the two headers kept and a header checksum that verifies. -/
structure Turned (mac : EtherAddr) (m m' : Mbuf) : Prop where
  addr : m'.addr = m.addr
  dataLen : m'.dataLen = m.dataLen
  dAddr : m'.dAddr = m.sAddr
  sAddr : m'.sAddr = mac
  etherType : m'.etherType = m.etherType
  ipSrc : m'.ipSrc 14 = m.ipDst 14
  ipDst : m'.ipDst 14 = m.ipSrc 14
  ipKept : ∀ i < 10, m'.byteAt (14 + i) = m.byteAt (14 + i)
  ipCksum : Verifies (m'.bytesAt 14 20)

lemma Turned.congr (h : Turned mac m m') (hm : SameHead m m₁) (hm' : SameHead m' m₁') :
    Turned mac m₁ m₁' where
  addr := by rw [← hm'.addr, h.addr, hm.addr]
  dataLen := by rw [← hm'.dataLen, h.dataLen, hm.dataLen]
  dAddr := by
    have hd := h.dAddr
    rwa [Mbuf.dAddr, Mbuf.sAddr, hm'.load (by decide), hm.load (by decide)] at hd
  sAddr := by
    have hs := h.sAddr
    rwa [Mbuf.sAddr, hm'.load (by decide)] at hs
  etherType := by
    have ht := h.etherType
    rwa [Mbuf.etherType, Mbuf.etherType, hm'.load (by decide), hm.load (by decide)] at ht
  ipSrc := by
    have hs := h.ipSrc
    rwa [Mbuf.ipSrc, Mbuf.ipDst, hm'.load (by decide), hm.load (by decide)] at hs
  ipDst := by
    have hd := h.ipDst
    rwa [Mbuf.ipDst, Mbuf.ipSrc, hm'.load (by decide), hm.load (by decide)] at hd
  ipKept := fun i hi => by
    rw [← hm'.bytes _ (by omega), h.ipKept i hi, hm.bytes _ (by omega)]
  ipCksum := by
    have hbytes : m'.bytesAt 14 20 = m₁'.bytesAt 14 20 :=
      Mbuf.bytesAt_congr fun i _ => hm'.bytes (14 + i) (by omega)
    rw [← hbytes]
    exact h.ipCksum

lemma turned (mac : EtherAddr) (m : Mbuf) :
    Turned mac m (turnEther mac (swapIp m sizeofEtherHdr)) := by
  have hether : sizeofEtherHdr = 14 := rfl
  -- behind the Ethernet addresses only the IPv4 part counts, in front of it only the other
  have hip : ∀ {off n}, 12 ≤ off → (turnEther mac (swapIp m 14)).load off n =
      (swapIp m 14).load off n := fun h =>
    Mbuf.load_congr_byteAt fun i _ => turnEther_byteAt (by omega)
  constructor
  · rfl
  · rfl
  · rw [turnEther_dAddr]
    exact Mbuf.load_congr_byteAt fun i hi => swapIp_byteAt (by omega)
  · exact turnEther_sAddr mac _
  · refine congrArg le16 (Mbuf.load_congr_byteAt fun i hi => ?_)
    rw [turnEther_byteAt (by omega), swapIp_byteAt (by omega)]
  · rw [← swapIp_ipSrc]
    exact congrArg le32 (hip (by decide))
  · rw [← swapIp_ipDst]
    exact congrArg le32 (hip (by decide))
  · intro i hi
    rw [turnEther_byteAt (by omega), swapIp_byteAt (by omega)]
  · have hbytes : (turnEther mac (swapIp m 14)).bytesAt 14 20 = (swapIp m 14).bytesAt 14 20 :=
      Mbuf.bytesAt_congr fun i _ => turnEther_byteAt (by omega)
    rw [hether, hbytes]
    exact swapIp_verifies m 14

end Turned

section Server

/-- An application on `tw0`, which is configured. -/
structure Tw0App where
  ports : PortTable
  port : Fin maxEthPorts
  located : twEthNameToId ports tw0 = port.val

lemma portAt_val (ports : PortTable) (p : Fin maxEthPorts) :
    portAt ports (p.val : Int) = .ret (ports p) := by
  have hp := p.isLt
  rw [portAt, dif_pos (by omega)]
  rfl

namespace Tw0App
variable (app : Tw0App)

/-- What a pointer to the address of the port refers to. -/
def mac : EtherAddr := (app.ports app.port).ethMac

def tw0Id : UInt8 := portIdByte (twEthNameToId app.ports tw0)

lemma tw0Id_eq : app.tw0Id = portByte app.port := by rw [tw0Id, app.located, portIdByte_val]

lemma twGetEtherAddr_eq : twGetEtherAddr app.ports tw0 = .ret app.mac := by
  rw [twGetEtherAddr, app.located, portAt_val]
  rfl

lemma twGetIpAddr_eq :
    twGetIpAddr app.ports tw0 = .ret (app.ports app.port).startIpAddr := by
  rw [twGetIpAddr, app.located, portAt_val]
  rfl

/-- An ARP request is sent in a buffer that was allocated for it. -/
lemma twSendArpRequest_allocates {pools : MbufPools} {ip : UInt32} {es : List PktEffect}
    (h : twSendArpRequest app.ports pools ip tw0 = .ret es) :
    ∃ pkt socket stale, es = [.addToTxQueue pkt (portByte app.port)] ∧
      pools.txMempool socket = some (pkt.addr, stale) := by
  obtain ⟨-, hnext⟩ := twSendArpRequest_inv h
  obtain ⟨⟨addr, stale⟩, hpool⟩ := Option.ne_none_iff_exists'.mp hnext
  rw [app.located, portIdByte_val] at hpool
  rw [twSendArpRequest, app.located, portIdByte_val,
    twConstructArpPacket_ret app.ports hpool] at h
  exact ⟨_, _, stale, (Outcome.ret.inj h).symm, hpool.trans (by rw [fillRequest_addr])⟩

end Tw0App

/-- The callback of the echo servers, with what each does to an IPv4 packet. -/
def echoPayload (answer : EtherAddr → Mbuf → Mbuf) (app : Tw0App)
    (mem : Malloc (Node ArpEntry)) (arp : ArpState) (buffer : TwBuf) :
    Outcome (ArpState × TwBuf × List PktEffect) :=
  let ethType := rteBeToCpu16 buffer.hdr.etherType
  if ethType = etherTypeARP then do
    let (_, arp, es) ← twParseArp app.ports mem arp buffer.pkt app.tw0Id
    .ret (arp, buffer, es)
  else if ethType = etherTypeIPv4 then
    let buffer := buffer.edit (answer app.mac)
    .ret (arp, buffer, [.addToTxQueue buffer.pkt app.tw0Id])
  else .ret (arp, buffer, [])

lemma TwBuf.edit_pkt {b : TwBuf} (hdata : b.data = b.pkt.dataOff) {f : Mbuf → Mbuf}
    (hf : (f b.pkt).dataOff = b.pkt.dataOff) : b.edit f = { b with pkt := f b.pkt } := by
  have hhdr : b.hdr = b.pkt := by rw [TwBuf.hdr, hdata]
  rw [TwBuf.edit, hhdr, ← hf]

lemma echoPayload_ipv4 {answer : EtherAddr → Mbuf → Mbuf} {app : Tw0App} {b : TwBuf}
    (mem : Malloc (Node ArpEntry)) (arp : ArpState)
    (hanswer : ∀ m, (answer app.mac m).dataOff = m.dataOff) (hdata : b.data = b.pkt.dataOff)
    (htype : rteBeToCpu16 b.pkt.etherType = etherTypeIPv4) :
    echoPayload answer app mem arp b = .ret (arp, { b with pkt := answer app.mac b.pkt },
      [.addToTxQueue (answer app.mac b.pkt) (portByte app.port)]) := by
  have hhdr : b.hdr = b.pkt := by rw [TwBuf.hdr, hdata]
  have harp : etherTypeIPv4 ≠ etherTypeARP := by decide
  simp only [echoPayload, hhdr, htype, if_neg harp, ↓reduceIte, TwBuf.edit_pkt hdata (hanswer _),
    app.tw0Id_eq]

def echoServer : Tw0App := ⟨twPorts, 0, rfl⟩

end Server
end Twister
