import Twister.IcmpEcho
import Twister.IperfStats

/-! The two UDP echo servers. The address of the UDP header is computed on a pointer that
already counts in headers, so the ports are exchanged 140 bytes too far into the frame. -/
namespace Twister

section Model

/-- `(struct udp_hdr *) ipHdr_d + sizeof(struct ipv4_hdr)` -/
def udpHdrD : ℕ := sizeofEtherHdr + sizeofIpv4Hdr * sizeofUdpHdr

/-- `cut` is what the ports lose in the globals between. -/
def swapPorts (cut : UInt16 → UInt16) (m : Mbuf) (udp : ℕ) : Mbuf :=
  let dstPort := cut (m.udpDst udp)
  let srcPort := cut (m.udpSrc udp)
  let m := m.setUdpDst udp srcPort
  let m := m.setUdpSrc udp dstPort
  m.setUdpCksum udp 0

def replyUdp (cut : UInt16 → UInt16) (mac : EtherAddr) (m : Mbuf) : Mbuf :=
  let m := swapIp m sizeofEtherHdr
  let m := swapPorts cut m udpHdrD
  turnEther mac m

/-- A port in a `uint8_t`. -/
def lowByte (x : UInt16) : UInt16 := x.toUInt8.toUInt16

/-- `reply_payload` of the UDP echo. -/
def UdpEcho.replyPayload : Tw0App → Malloc (Node ArpEntry) → ArpState → TwBuf →
    Outcome (ArpState × TwBuf × List PktEffect) := echoPayload (replyUdp lowByte)

/-- `reply_udp_payload` of the bandwidth test takes any packet for UDP. -/
def Iperf.replyUdpPayload (app : Tw0App) (testStats : IperfStats) (buffer : TwBuf) :
    IperfStats × TwBuf × List PktEffect :=
  let testStats := { testStats with datagramsRecv := testStats.datagramsRecv + 1 }
  let buffer := buffer.edit (replyUdp id app.mac)
  ({ testStats with datagramsSent := testStats.datagramsSent + 1 }, buffer,
    [.addToTxQueue buffer.pkt app.tw0Id])

end Model

section Bytes
variable {m m' : Mbuf} {cut : UInt16 → UInt16} {p j : ℕ}

lemma swapPorts_byteAt (h : j < p ∨ p + 4 ≤ j ∧ j < p + 6 ∨ p + 8 ≤ j) :
    (swapPorts cut m p).byteAt j = m.byteAt j := by
  simp (disch := omega) only [swapPorts, Mbuf.setUdpCksum, Mbuf.setUdpSrc, Mbuf.setUdpDst,
    Mbuf.byteAt_store_of_out]

lemma swapPorts_src (i : Fin 2) :
    (swapPorts cut m p).byteAt (p + i) = bytes16 (cut (m.udpDst p)) i := by
  simp only [swapPorts, Mbuf.setUdpCksum]
  rw [Mbuf.byteAt_store_of_out _ _ (by omega), Mbuf.setUdpSrc, Mbuf.byteAt_store]

lemma swapPorts_dst (i : Fin 2) :
    (swapPorts cut m p).byteAt (p + 2 + i) = bytes16 (cut (m.udpSrc p)) i := by
  simp only [swapPorts, Mbuf.setUdpCksum, Mbuf.setUdpSrc]
  rw [Mbuf.byteAt_store_of_out _ _ (by omega), Mbuf.byteAt_store_of_out _ _ (by omega),
    Mbuf.setUdpDst, Mbuf.byteAt_store]

lemma swapPorts_cksum (i : Fin 2) : (swapPorts cut m p).byteAt (p + 6 + i) = 0 := by
  simp only [swapPorts, Mbuf.setUdpCksum, Mbuf.byteAt_store]
  fin_cases i <;> rfl

/-- The three words that a swap of ports writes, and what it leaves. -/
lemma swapPorts_cases (p j : ℕ) : (j < p ∨ p + 4 ≤ j ∧ j < p + 6 ∨ p + 8 ≤ j) ∨
    (∃ i : Fin 2, j = p + i) ∨ (∃ i : Fin 2, j = p + 2 + i) ∨ ∃ i : Fin 2, j = p + 6 + i := by
  by_cases hout : j < p ∨ p + 4 ≤ j ∧ j < p + 6 ∨ p + 8 ≤ j
  · exact Or.inl hout
  · refine Or.inr ?_
    by_cases hsrc : j < p + 2
    · exact Or.inl ⟨⟨j - p, by omega⟩, by simp only; omega⟩
    · by_cases hdst : j < p + 4
      · exact Or.inr (Or.inl ⟨⟨j - (p + 2), by omega⟩, by simp only; omega⟩)
      · exact Or.inr (Or.inr ⟨⟨j - (p + 6), by omega⟩, by simp only; omega⟩)

/-- Behind the IPv4 header only the exchange of ports counts. -/
lemma replyUdp_byteAt (mac : EtherAddr) (hj : 34 ≤ j) :
    (replyUdp cut mac m).byteAt j = (swapPorts cut m 174).byteAt j := by
  have hkeep : ∀ {k}, 34 ≤ k → (swapIp m 14).byteAt k = m.byteAt k := fun hk =>
    swapIp_byteAt (by omega)
  have hsrc : (swapIp m 14).udpSrc 174 = m.udpSrc 174 :=
    congrArg le16 (Mbuf.load_congr_byteAt fun i _ => hkeep (by omega))
  have hdst : (swapIp m 14).udpDst 174 = m.udpDst 174 :=
    congrArg le16 (Mbuf.load_congr_byteAt fun i _ => hkeep (by omega))
  rw [replyUdp, turnEther_byteAt (by omega)]
  change (swapPorts cut (swapIp m 14) 174).byteAt j = _
  rcases swapPorts_cases 174 j with hout | ⟨i, rfl⟩ | ⟨i, rfl⟩ | ⟨i, rfl⟩
  · rw [swapPorts_byteAt hout, swapPorts_byteAt hout, hkeep hj]
  · rw [swapPorts_src, swapPorts_src, hdst]
  · rw [swapPorts_dst, swapPorts_dst, hsrc]
  · rw [swapPorts_cksum, swapPorts_cksum]

lemma replyUdp_turned (cut : UInt16 → UInt16) (mac : EtherAddr) (m : Mbuf) :
    Turned mac m (replyUdp cut mac m) := by
  have hhead : SameHead (swapIp m 14) (swapPorts cut (swapIp m 14) 174) :=
    ⟨rfl, rfl, fun i hi => (swapPorts_byteAt (Or.inl (by omega))).symm⟩
  exact (turned mac m).congr (.refl m) (hhead.turnEther mac)

/-- The real UDP header is not written. -/
lemma replyUdp_udp (cut : UInt16 → UInt16) (mac : EtherAddr) (m : Mbuf) {off n : ℕ}
    (hoff : 34 ≤ off) (hn : off + n ≤ 174) : (replyUdp cut mac m).load off n = m.load off n := by
  refine Mbuf.load_congr_byteAt fun i hi => ?_
  rw [replyUdp_byteAt mac (by omega), swapPorts_byteAt (Or.inl (by omega))]

end Bytes

section Echo
variable {m m₁ m₂ : Mbuf} {cut : UInt16 → UInt16} {mac mac' : EtherAddr}

structure IsUdp (m : Mbuf) : Prop where
  etherType : rteBeToCpu16 m.etherType = etherTypeIPv4
  versionIhl : m.byteAt 14 = 0x45
  proto : m.ipProto sizeofEtherHdr = udpProtoId
  fits : 42 ≤ m.dataLen

/-- Both endpoints exchanged, no checksum, and nothing else changed. -/
structure UdpEchoed (mac : EtherAddr) (m m' : Mbuf) : Prop extends Turned mac m m' where
  srcPort : m'.udpSrc 34 = m.udpDst 34
  dstPort : m'.udpDst 34 = m.udpSrc 34
  cksum : m'.udpCksum 34 = 0
  kept : ∀ i, 38 ≤ i → i < m.dataLen → i ≠ 40 → i ≠ 41 → m'.byteAt i = m.byteAt i

structure Restored (m m' : Mbuf) : Prop where
  ipSrc : m'.ipSrc 14 = m.ipSrc 14
  ipDst : m'.ipDst 14 = m.ipDst 14
  srcPort : m'.udpSrc 34 = m.udpSrc 34
  dstPort : m'.udpDst 34 = m.udpDst 34
  payload : ∀ i, 42 ≤ i → i < m.dataLen → m'.byteAt i = m.byteAt i

lemma UdpEchoed.restored (h : UdpEchoed mac m m₁) (h' : UdpEchoed mac' m₁ m₂) :
    Restored m m₂ where
  ipSrc := by rw [h'.ipSrc, h.ipDst]
  ipDst := by rw [h'.ipDst, h.ipSrc]
  srcPort := by rw [h'.srcPort, h.dstPort]
  dstPort := by rw [h'.dstPort, h.srcPort]
  payload := fun i hi hlen => by
    rw [h'.kept i (by omega) (h.dataLen ▸ hlen) (by omega) (by omega),
      h.kept i (by omega) hlen (by omega) (by omega)]

/-- The exchange 140 bytes too far changes none of the bytes of the frame. -/
structure Spared (cut : UInt16 → UInt16) (m : Mbuf) : Prop where
  src : ∀ i : Fin 2, 174 + i < m.dataLen → m.byteAt (174 + i) = bytes16 (cut (m.udpDst 174)) i
  dst : ∀ i : Fin 2, 176 + i < m.dataLen → m.byteAt (176 + i) = bytes16 (cut (m.udpSrc 174)) i
  cksum : ∀ i : Fin 2, 180 + i < m.dataLen → m.byteAt (180 + i) = 0

/-- The datagram already is what its echo should be. -/
structure SelfEcho (cut : UInt16 → UInt16) (m : Mbuf) : Prop extends Spared cut m where
  ports : m.udpSrc 34 = m.udpDst 34
  noCksum : m.udpCksum 34 = 0

lemma spared_iff (cut : UInt16 → UInt16) (m : Mbuf) : Spared cut m ↔
    ∀ j < m.dataLen, (swapPorts cut m 174).byteAt j = m.byteAt j := by
  constructor
  · intro h j hj
    rcases swapPorts_cases 174 j with hout | ⟨i, rfl⟩ | ⟨i, rfl⟩ | ⟨i, rfl⟩
    · exact swapPorts_byteAt hout
    · rw [swapPorts_src, h.src i hj]
    · rw [swapPorts_dst, h.dst i hj]
    · rw [swapPorts_cksum, h.cksum i hj]
  · intro h
    refine ⟨fun i hi => ?_, fun i hi => ?_, fun i hi => ?_⟩
    · rw [← h _ hi, swapPorts_src]
    · rw [← h _ hi, ← swapPorts_dst]
    · rw [← h _ hi, ← swapPorts_cksum i]

lemma replyUdp_echoed_iff (mac : EtherAddr) :
    UdpEchoed mac m (replyUdp cut mac m) ↔ SelfEcho cut m := by
  have hsrc : (replyUdp cut mac m).udpSrc 34 = m.udpSrc 34 :=
    congrArg le16 (replyUdp_udp cut mac m (by decide) (by decide))
  have hdst : (replyUdp cut mac m).udpDst 34 = m.udpDst 34 :=
    congrArg le16 (replyUdp_udp cut mac m (by decide) (by decide))
  have hcksum : (replyUdp cut mac m).udpCksum 34 = m.udpCksum 34 :=
    congrArg le16 (replyUdp_udp cut mac m (by decide) (by decide))
  constructor
  · intro h
    refine ⟨(spared_iff cut m).mpr fun j hj => ?_, ?_, ?_⟩
    · by_cases hout : j < 174
      · exact swapPorts_byteAt (Or.inl hout)
      · rw [← replyUdp_byteAt mac (by omega)]
        exact h.kept j (by omega) hj (by omega) (by omega)
    · rw [← hsrc, h.srcPort]
    · rw [← hcksum, h.cksum]
  · intro h
    refine ⟨replyUdp_turned cut mac m, ?_, ?_, ?_, fun i hi hlen _ _ => ?_⟩
    · rw [hsrc, h.ports]
    · rw [hdst, h.ports]
    · rw [hcksum, h.noCksum]
    · rw [replyUdp_byteAt mac (by omega)]
      exact (spared_iff cut m).mp h.toSpared i hlen

/-- The globals keep or clear each byte of a port. -/
def Bytewise (cut : UInt16 → UInt16) : Prop :=
  ∃ keep : Fin 2 → UInt8 → UInt8, (∀ x i, bytes16 (cut x) i = keep i (bytes16 x i)) ∧
    ∀ i b, keep i (keep i b) = keep i b

lemma bytewise_id : Bytewise id := ⟨fun _ b => b, fun _ _ => rfl, fun _ _ => rfl⟩

lemma bytewise_lowByte : Bytewise lowByte := by
  refine ⟨![fun b => b, fun _ => 0], fun x i => ?_, fun i b => ?_⟩
  · fin_cases i
    · refine UInt8.toNat_inj.mp ?_
      simp [lowByte, bytes16]
    · simp [lowByte, bytes16]
  · fin_cases i <;> rfl

/-- The echo of such a datagram is one again. -/
lemma SelfEcho.replyUdp (hcut : Bytewise cut) (mac : EtherAddr) (h : SelfEcho cut m) :
    SelfEcho cut (replyUdp cut mac m) := by
  obtain ⟨keep, hkeep, hidem⟩ := hcut
  have hechoed := (replyUdp_echoed_iff mac).mpr h
  have hbytes : ∀ j, 34 ≤ j → (Twister.replyUdp cut mac m).byteAt j =
      (swapPorts cut m 174).byteAt j := fun j hj => replyUdp_byteAt mac hj
  have hsrc : (Twister.replyUdp cut mac m).udpSrc 174 = cut (m.udpDst 174) := by
    rw [Mbuf.udpSrc, ← le16_bytes16 (cut (m.udpDst 174))]
    refine congrArg le16 (funext fun i => ?_)
    rw [Mbuf.load_byteAt, hbytes _ (by omega), swapPorts_src]
  have hdst : (Twister.replyUdp cut mac m).udpDst 174 = cut (m.udpSrc 174) := by
    rw [Mbuf.udpDst, ← le16_bytes16 (cut (m.udpSrc 174))]
    refine congrArg le16 (funext fun i => ?_)
    rw [Mbuf.load_byteAt, hbytes _ (by omega), swapPorts_dst]
  have hown : ∀ i, bytes16 (m.udpSrc 174) i = m.byteAt (174 + i) := fun i => by
    rw [Mbuf.udpSrc, bytes16_le16, Mbuf.load_byteAt]
  have hother : ∀ i, bytes16 (m.udpDst 174) i = m.byteAt (176 + i) := fun i => by
    rw [Mbuf.udpDst, bytes16_le16, Mbuf.load_byteAt]
  refine ⟨⟨fun i hi => ?_, fun i hi => ?_, fun i hi => ?_⟩, ?_, hechoed.cksum⟩
  · have hfirst := h.src i (hechoed.dataLen ▸ hi)
    rw [hbytes _ (by omega), swapPorts_src, hdst, hkeep, hkeep, hkeep, hown, hfirst, hkeep]
    simp only [hidem]
  · have hsecond := h.dst i (hechoed.dataLen ▸ hi)
    rw [hbytes _ (by omega), swapPorts_dst, hsrc, hkeep, hkeep, hkeep, hother, hsecond, hkeep]
    simp only [hidem]
  · rw [hbytes _ (by omega), swapPorts_cksum]
  · rw [hechoed.srcPort, hechoed.dstPort, h.ports]

/-- The callback of a server, as far as it concerns the packet. -/
abbrev EchoCallback := Tw0App → TwBuf → Outcome (TwBuf × List PktEffect)

def Iperf.callback (testStats : IperfStats) : EchoCallback := fun app b =>
  .ret (Iperf.replyUdpPayload app testStats b).2

def UdpEcho.callback (mem : Malloc (Node ArpEntry)) (arp : ArpState) : EchoCallback :=
  fun app b => do
    let (_, b, es) ← UdpEcho.replyPayload app mem arp b
    .ret (b, es)

/-- The packet goes back on `tw0` with the endpoints exchanged, and the same callback at its
sender would restore it. -/
def EchoesUdp (callback : EchoCallback) (app : Tw0App) (b : TwBuf) : Prop :=
  ∃ pkt, callback app b = .ret ({ b with pkt }, [.addToTxQueue pkt (portByte app.port)]) ∧
    UdpEchoed app.mac b.pkt pkt ∧
    ∀ sender : Tw0App, ∃ pkt', callback sender { b with pkt } =
      .ret ({ b with pkt := pkt' }, [.addToTxQueue pkt' (portByte sender.port)]) ∧
      Restored b.pkt pkt'

/-- The callback answers IPv4 packets with `replyUdp`. -/
def Replies (cut : UInt16 → UInt16) (callback : EchoCallback) : Prop :=
  ∀ (app : Tw0App) (b : TwBuf), b.data = b.pkt.dataOff →
    rteBeToCpu16 b.pkt.etherType = etherTypeIPv4 →
    callback app b = .ret ({ b with pkt := replyUdp cut app.mac b.pkt },
      [.addToTxQueue (replyUdp cut app.mac b.pkt) (portByte app.port)])

lemma iperf_replies (testStats : IperfStats) : Replies id (Iperf.callback testStats) := by
  intro app b hdata _
  have hedit := TwBuf.edit_pkt hdata (f := replyUdp id app.mac) rfl
  rw [Iperf.callback, Iperf.replyUdpPayload, hedit, app.tw0Id_eq]

lemma udpEcho_replies (mem : Malloc (Node ArpEntry)) (arp : ArpState) :
    Replies lowByte (UdpEcho.callback mem arp) := by
  intro app b hdata htype
  rw [UdpEcho.callback, UdpEcho.replyPayload, echoPayload_ipv4 mem arp (fun _ => rfl) hdata htype]
  rfl

lemma echoesUdp_iff {callback : EchoCallback} (hcut : Bytewise cut)
    (hreplies : Replies cut callback) (app : Tw0App) {b : TwBuf}
    (hdata : b.data = b.pkt.dataOff) (hudp : IsUdp b.pkt) :
    EchoesUdp callback app b ↔ SelfEcho cut b.pkt := by
  have hreply := hreplies app b hdata hudp.etherType
  constructor
  · rintro ⟨pkt, hpkt, hechoed, -⟩
    rw [hreply] at hpkt
    have heq : replyUdp cut app.mac b.pkt = pkt :=
      congrArg (fun r => r.1.pkt) (Outcome.ret.inj hpkt)
    rw [← heq] at hechoed
    exact (replyUdp_echoed_iff app.mac).mp hechoed
  · intro hself
    have hechoed := (replyUdp_echoed_iff app.mac).mpr hself
    refine ⟨replyUdp cut app.mac b.pkt, hreply, hechoed, fun sender => ?_⟩
    have htype : rteBeToCpu16 (replyUdp cut app.mac b.pkt).etherType = etherTypeIPv4 := by
      rw [hechoed.etherType, hudp.etherType]
    have hagain := hself.replyUdp hcut app.mac
    exact ⟨_, hreplies sender { b with pkt := replyUdp cut app.mac b.pkt } hdata htype,
      hechoed.restored ((replyUdp_echoed_iff sender.mac).mpr hagain)⟩

/-- A datagram from port 7 without a checksum, zero but for one byte of its data. -/
def datagram (dstPort mark : UInt8) (dataLen : ℕ) : Mbuf where
  addr := 0
  buf j := if j = headroom + 174 then mark else
    [0, 0, 0, 0, 0, 0, 2, 2, 2, 2, 2, 2, 8, 0, 0x45, 0, 0, 30, 0, 0, 0, 0, 64, 17, 0x66, 0xcd,
      10, 0, 0, 2, 10, 0, 0, 1, 0, 7, 0, dstPort, 0, 10, 0, 0].getD (j - headroom) 0
  bufLen := mbufBufLen
  dataOff := headroom
  dataLen := dataLen

lemma shortDatagram_isUdp {dstPort : UInt8} (h : dstPort = 7 ∨ dstPort = 9) :
    IsUdp (datagram dstPort 0 44) := by
  rcases h with rfl | rfl <;> constructor <;> decide

lemma longDatagram_isUdp : IsUdp (datagram 7 1 200) := by constructor <;> decide

/-- Both servers echo a datagram as they should only if it already is its own echo and ends
before the misplaced header or has nothing there that the exchange changes. -/
theorem udpServers_echo_iff (app : Tw0App) (testStats : IperfStats)
    (mem : Malloc (Node ArpEntry)) (arp : ArpState) {b : TwBuf}
    (hdata : b.data = b.pkt.dataOff) (hudp : IsUdp b.pkt) :
    (EchoesUdp (Iperf.callback testStats) app b ↔ SelfEcho id b.pkt) ∧
      (EchoesUdp (UdpEcho.callback mem arp) app b ↔ SelfEcho lowByte b.pkt) :=
  ⟨echoesUdp_iff bytewise_id (iperf_replies testStats) app hdata hudp,
    echoesUdp_iff bytewise_lowByte (udpEcho_replies mem arp) app hdata hudp⟩

theorem udpServers_echo_short :
    EchoesUdp (Iperf.callback noStats) echoServer (describe (datagram 7 0 44) 0) ∧
      EchoesUdp (UdpEcho.callback (.bump zeroEntry) .empty) echoServer
        (describe (datagram 7 0 44) 0) := by
  have hiff := udpServers_echo_iff echoServer noStats (.bump zeroEntry) .empty
    (b := describe (datagram 7 0 44) 0) rfl (shortDatagram_isUdp (Or.inl rfl))
  have hspared : ∀ cut, Spared cut (datagram 7 0 44) := fun cut => by
    have hlen : (datagram 7 0 44).dataLen = 44 := rfl
    exact ⟨fun i hi => by omega, fun i hi => by omega, fun i hi => by omega⟩
  exact ⟨hiff.1.mpr ⟨hspared id, by decide, by decide⟩,
    hiff.2.mpr ⟨hspared lowByte, by decide, by decide⟩⟩

/-- A datagram for another port goes back to that port, and of a long one the data changes. -/
theorem udpServers_keep_ports :
    (¬ EchoesUdp (Iperf.callback noStats) echoServer (describe (datagram 9 0 44) 0) ∧
      ¬ EchoesUdp (UdpEcho.callback (.bump zeroEntry) .empty) echoServer
        (describe (datagram 9 0 44) 0)) ∧
    ¬ EchoesUdp (Iperf.callback noStats) echoServer (describe (datagram 7 1 200) 0) ∧
      ¬ EchoesUdp (UdpEcho.callback (.bump zeroEntry) .empty) echoServer
        (describe (datagram 7 1 200) 0) := by
  have hiperf : ∀ {m}, IsUdp m → EchoesUdp (Iperf.callback noStats) echoServer (describe m 0) →
      SelfEcho id m := fun hudp =>
    (echoesUdp_iff bytewise_id (iperf_replies noStats) echoServer rfl hudp).mp
  have hecho : ∀ {m}, IsUdp m → EchoesUdp (UdpEcho.callback (.bump zeroEntry) .empty) echoServer
      (describe m 0) → SelfEcho lowByte m := fun hudp =>
    (echoesUdp_iff bytewise_lowByte (udpEcho_replies (.bump zeroEntry) .empty) echoServer rfl
      hudp).mp
  have hshort := shortDatagram_isUdp (Or.inr rfl)
  refine ⟨⟨fun h => ?_, fun h => ?_⟩, fun h => ?_, fun h => ?_⟩
  · exact absurd (hiperf hshort h).ports (by decide)
  · exact absurd (hecho hshort h).ports (by decide)
  · exact absurd ((hiperf longDatagram_isUdp h).src 0 (by decide)) (by decide)
  · exact absurd ((hecho longDatagram_isUdp h).src 0 (by decide)) (by decide)

end Echo
end Twister
