import Twister.Echo

/-! The ping echo. Its replies have both headers turned; the ICMP checksum only covers the
first eight bytes of the message. -/
namespace Twister

section Model
variable {m : Mbuf} {icmp j : ℕ}

/-- `reply_payload` of the ping echo does to an IPv4 packet what the gateway does to one for
itself. -/
def IcmpEcho.replyPayload : Tw0App → Malloc (Node ArpEntry) → ArpState → TwBuf →
    Outcome (ArpState × TwBuf × List PktEffect) := echoPayload answerPing

/-- The request made a reply, with a checksum of its first eight bytes. -/
def echoIcmp (m : Mbuf) (icmp : ℕ) : Mbuf :=
  let m := m.setIcmpType icmp 0
  let m := m.setIcmpCksum icmp 0
  m.setIcmpCksum icmp (twCalcsum (m.bytesAt icmp sizeofIcmpEcho))

lemma echoIcmp_byteAt (h : j ≠ icmp ∧ j ≠ icmp + 2 ∧ j ≠ icmp + 3) :
    (echoIcmp m icmp).byteAt j = m.byteAt j := by
  simp (disch := omega) only [echoIcmp, Mbuf.setIcmpCksum, Mbuf.setIcmpType,
    Mbuf.byteAt_store_of_out]

lemma echoIcmp_type (m : Mbuf) (icmp : ℕ) : (echoIcmp m icmp).byteAt icmp = 0 := by
  simp (disch := omega) only [echoIcmp, Mbuf.setIcmpCksum, Mbuf.byteAt_store_of_out]
  exact Mbuf.byteAt_store m icmp (fun _ : Fin 1 => 0) 0

lemma echoIcmp_verifies (m : Mbuf) (icmp : ℕ) :
    Verifies ((echoIcmp m icmp).bytesAt icmp sizeofIcmpEcho) :=
  Mbuf.verifies_setIcmpCksum (m.setIcmpType icmp 0) icmp

lemma answerPing_icmp (mac : EtherAddr) (h : m.ipProto sizeofEtherHdr = icmpProtoId) :
    answerPing mac m = turnEther mac (swapIp (echoIcmp m (sizeofEtherHdr + sizeofIpv4Hdr))
      sizeofEtherHdr) := by
  simp only [answerPing, if_pos h]
  rfl

lemma answerPing_dataOff (mac : EtherAddr) (m : Mbuf) : (answerPing mac m).dataOff = m.dataOff := by
  simp only [answerPing]
  split_ifs <;> rfl

end Model

section Ping
variable {m : Mbuf}

def totalLength (m : Mbuf) : ℕ := (rteBeToCpu16 (le16 (m.load (sizeofEtherHdr + 2) 2))).toNat

/-- An echo request: an IPv4 header without options, and an ICMP message that fills the rest
of the declared length. Both verify. -/
structure IsPing (m : Mbuf) : Prop where
  etherType : rteBeToCpu16 m.etherType = etherTypeIPv4
  versionIhl : m.byteAt 14 = 0x45
  proto : m.ipProto sizeofEtherHdr = icmpProtoId
  ipCksum : Verifies (m.bytesAt 14 20)
  icmpType : m.byteAt 34 = 8
  icmpCode : m.byteAt 35 = 0
  holds : 28 ≤ totalLength m
  fits : 14 + totalLength m ≤ m.dataLen
  icmpCksum : Verifies (m.bytesAt 34 (totalLength m - 20))

/-- The reply in the same buffer. -/
structure IsPong (mac : EtherAddr) (m m' : Mbuf) : Prop extends Turned mac m m' where
  icmpType : m'.byteAt 34 = 0
  icmpCode : m'.byteAt 35 = m.byteAt 35
  icmpKept : ∀ i, 38 ≤ i → i < m.dataLen → m'.byteAt i = m.byteAt i
  icmpCksum : Verifies (m'.bytesAt 34 (totalLength m - 20))

/-- The message behind identifier and sequence number. -/
def pingData (m : Mbuf) : List UInt8 := m.bytesAt 42 (totalLength m - 28)

lemma answerPing_turned (mac : EtherAddr) (h : m.ipProto sizeofEtherHdr = icmpProtoId) :
    Turned mac m (answerPing mac m) := by
  rw [answerPing_icmp mac h]
  have hicmp : sizeofEtherHdr + sizeofIpv4Hdr = 34 := rfl
  have hhead : SameHead (echoIcmp m 34) m := ⟨rfl, rfl, fun i hi => echoIcmp_byteAt (by omega)⟩
  rw [hicmp]
  exact (turned mac _).congr hhead (.refl _)

/-- Behind the two headers only the ICMP part counts. -/
lemma answerPing_message (mac : EtherAddr) (h : m.ipProto sizeofEtherHdr = icmpProtoId) {j : ℕ}
    (hj : 34 ≤ j) : (answerPing mac m).byteAt j = (echoIcmp m 34).byteAt j := by
  have hether : sizeofEtherHdr = 14 := rfl
  rw [answerPing_icmp mac h, turnEther_byteAt (by omega), swapIp_byteAt (by omega)]
  rfl

/-- The checksum covers the header of the message, so the data has to add nothing. -/
lemma answerPing_icmpCksum_iff (mac : EtherAddr) (h : IsPing m) :
    Verifies ((answerPing mac m).bytesAt 34 (totalLength m - 20)) ↔
      65535 ∣ (words (pingData m)).sum := by
  have hlen := h.holds
  have hheader : (answerPing mac m).bytesAt 34 8 = (echoIcmp m 34).bytesAt 34 8 :=
    Mbuf.bytesAt_congr fun i _ => answerPing_message mac h.proto (by omega)
  have hdata : (answerPing mac m).bytesAt 42 (totalLength m - 28) = pingData m :=
    Mbuf.bytesAt_congr fun i _ => by
      rw [answerPing_message mac h.proto (by omega), echoIcmp_byteAt (by omega)]
  have hsplit : totalLength m - 20 = 8 + (totalLength m - 28) := by omega
  rw [hsplit, Mbuf.bytesAt_append, hdata, hheader]
  refine verifies_append_iff ?_ (echoIcmp_verifies m 34)
  rw [Mbuf.bytesAt_length]
  decide

lemma answerPing_isPong_iff (mac : EtherAddr) (h : IsPing m) :
    IsPong mac m (answerPing mac m) ↔ 65535 ∣ (words (pingData m)).sum := by
  rw [← answerPing_icmpCksum_iff mac h]
  refine ⟨fun hpong => hpong.icmpCksum, fun hcksum => ?_⟩
  refine ⟨answerPing_turned mac h.proto, ?_, ?_, fun i hi _ => ?_, hcksum⟩
  · rw [answerPing_message mac h.proto (by decide), echoIcmp_type]
  · rw [answerPing_message mac h.proto (by decide), echoIcmp_byteAt (by decide)]
  · rw [answerPing_message mac h.proto (by omega), echoIcmp_byteAt (by omega)]

/-- The callback sends the packet back on `tw0` as a reply to it. -/
def IcmpEcho.Answers (app : Tw0App) (mem : Malloc (Node ArpEntry)) (arp : ArpState)
    (b : TwBuf) : Prop :=
  ∃ pkt, IcmpEcho.replyPayload app mem arp b =
    .ret (arp, { b with pkt }, [.addToTxQueue pkt (portByte app.port)]) ∧ IsPong app.mac b.pkt pkt

lemma answers_iff_isPong (app : Tw0App) (mem : Malloc (Node ArpEntry)) (arp : ArpState)
    {b : TwBuf} (hdata : b.data = b.pkt.dataOff) (h : IsPing b.pkt) :
    IcmpEcho.Answers app mem arp b ↔ IsPong app.mac b.pkt (answerPing app.mac b.pkt) := by
  have hreply : IcmpEcho.replyPayload app mem arp b = _ :=
    echoPayload_ipv4 mem arp (answerPing_dataOff app.mac) hdata h.etherType
  constructor
  · rintro ⟨pkt, hpkt, hpong⟩
    rw [hreply] at hpkt
    have heq : answerPing app.mac b.pkt = pkt :=
      congrArg (fun r => r.2.1.pkt) (Outcome.ret.inj hpkt)
    rwa [heq]
  · intro hpong
    exact ⟨answerPing app.mac b.pkt, hreply, hpong⟩

/-- A ping of two data bytes, the first of which is zero. -/
def smallPing (d : UInt8) : Mbuf where
  addr := 0
  buf j := [0, 0, 0, 0, 0, 0, 2, 2, 2, 2, 2, 2, 8, 0, 0x45, 0, 0, 30, 0, 0, 0, 0, 64, 1, 0x66, 0xdd,
    10, 0, 0, 2, 10, 0, 0, 1, 8, 0, 0xf7, 0xfd - d, 0, 1, 0, 1, 0, d].getD (j - headroom) 0
  bufLen := mbufBufLen
  dataOff := headroom
  dataLen := 44

lemma smallPing_isPing {d : UInt8} (hd : d = 0 ∨ d = 1) : IsPing (smallPing d) := by
  rcases hd with rfl | rfl <;> constructor <;> decide

/-- A ping is answered by a valid reply if its data adds nothing to a checksum, and by a
message with a wrong checksum otherwise. -/
theorem icmpEcho_answers_iff (app : Tw0App) (mem : Malloc (Node ArpEntry)) (arp : ArpState)
    {b : TwBuf} (hdata : b.data = b.pkt.dataOff) (h : IsPing b.pkt) :
    IcmpEcho.Answers app mem arp b ↔ 65535 ∣ (words (pingData b.pkt)).sum := by
  rw [answers_iff_isPong app mem arp hdata h]
  exact answerPing_isPong_iff app.mac h

theorem icmpEcho_answers_zeros :
    IcmpEcho.Answers echoServer (.bump zeroEntry) .empty (describe (smallPing 0) 0) := by
  refine (icmpEcho_answers_iff echoServer (.bump zeroEntry) .empty rfl
    (smallPing_isPing (Or.inl rfl))).mpr ?_
  decide

/-- One data byte that is not zero. -/
theorem icmpEcho_wrong_checksum : IsPing (smallPing 1) ∧
    ¬ IcmpEcho.Answers echoServer (.bump zeroEntry) .empty (describe (smallPing 1) 0) := by
  have hping := smallPing_isPing (Or.inr rfl)
  refine ⟨hping, fun hanswers => ?_⟩
  rw [answers_iff_isPong echoServer (.bump zeroEntry) .empty rfl hping] at hanswers
  have hsum := (answerPing_isPong_iff echoServer.mac hping).mp hanswers
  exact absurd hsum (by decide)

end Ping
end Twister
