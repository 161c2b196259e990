import Twister.ReceiveRun

/-! The second Ethernet demultiplexer, `tw_eth_pkt_parser`, against the receive
dispatch of `tw_run`: after a VLAN tag the one parses ARP whatever follows, the other
looks at the inner ether type. -/
namespace Twister

def acceptBrdcast : Bool := true

def twEthPktParser (ports : PortTable) (mem : Malloc (Node ArpEntry)) (st : ArpState)
    (pkt : Mbuf) (portId : UInt8) : Outcome (Int × ArpState × List PktEffect) := do
  let info ← portInfo ports portId
  if pkt.dAddr = info.ethMac ∨ pkt.dAddr = broadcastmac ∧ acceptBrdcast then
    if rteBeToCpu16 pkt.etherType = etherTypeARP then
      let (_, st, es) ← twParseArp ports mem st pkt portId
      .ret (0, st, es)
    else if rteBeToCpu16 pkt.etherType = etherTypeVLAN then
      let pkt ← rteVlanStrip pkt
      let (_, st, es) ← twParseArp ports mem st pkt portId
      .ret (0, st, es)
    else .ret (0, st, [.free pkt])
  else .ret (0, st, [.free pkt])

/-- What removing one tag does to the buffer: the addresses move up to the inner ether
type and everything behind them stays where it is. -/
structure Stripped (m m' : Mbuf) : Prop where
  dataLen : m'.dataLen + sizeofVlanHdr = m.dataLen
  addrs : m'.load 0 12 = m.load 0 12
  rest : ∀ off n, 12 ≤ off → m'.load off n = m.load (off + sizeofVlanHdr) n

lemma rteVlanStrip_stripped {m : Mbuf} (hv : rteBeToCpu16 m.etherType = etherTypeVLAN)
    (hlen : sizeofVlanHdr ≤ m.dataLen) : ∃ m', rteVlanStrip m = .ret m' ∧ Stripped m m' := by
  have hadj : rtePktmbufAdj m sizeofVlanHdr = some (Mbuf.mk m.addr m.buf m.bufLen
      (m.dataOff + sizeofVlanHdr) (m.dataLen - sizeofVlanHdr)) := if_neg (Nat.not_lt.mpr hlen)
  refine ⟨Mbuf.store (Mbuf.mk m.addr m.buf m.bufLen (m.dataOff + sizeofVlanHdr)
    (m.dataLen - sizeofVlanHdr)) 0 (m.load 0 12), ?_, ?_, ?_, fun off n hoff => ?_⟩
  · simp only [rteVlanStrip, etherType_of_vlan hv, ne_eq, not_true_eq_false, if_false, hadj]
  · exact Nat.sub_add_cancel hlen
  · exact Mbuf.load_store_self _ _ _
  · rw [Mbuf.load_store_of_disjoint _ _ (by omega)]
    simp only [Mbuf.load]
    congr 1
    omega

section Agree
variable (ports : PortTable) (mem : Malloc (Node ArpEntry)) (st : ArpState) (pkt : Mbuf)
  (p : Fin maxEthPorts)

/-- The ARP table a call leaves and the replies it enqueued. -/
def parserArp : Outcome (ArpState × List (Mbuf × UInt8)) := do
  let (_, st, es) ← twEthPktParser ports mem st pkt (portByte p)
  .ret (st, PktEffect.sent es)

def RxCall.sent : RxCall → List (Mbuf × UInt8)
  | .parseArp _ _ _ _ es => PktEffect.sent es
  | .recvCb _ => []

def dispatchArp : Outcome (ArpState × List (Mbuf × UInt8)) := do
  let (st, calls) ← dispatch ports passive st ⟨p, portByte p, ⟨pkt, mem⟩⟩
  .ret (st, calls.flatMap RxCall.sent)

/-- The two agree, and a frame that is not ARP behind its tag has no effect. -/
def DemuxAgree : Prop :=
  parserArp ports mem st pkt p = dispatchArp ports mem st pkt p ∧
    (innerType pkt ≠ etherTypeARP → parserArp ports mem st pkt p = .ret (st, []))

/-- Where the ARP header of a tagged frame would be, the packet has a request for the
port's address, or a reply from an address the table does not know. -/
def LooksLikeArp (info : PortInfo) (xs : List (ℕ × ArpEntry)) (pkt : Mbuf) : Prop :=
  let body := sizeofEtherHdr + sizeofVlanHdr
  rteBeToCpu16 (pkt.arpOp body) = arpOpRequest ∧ rteBeToCpu32 (pkt.arpTip body) = info.startIpAddr ∨
    rteBeToCpu16 (pkt.arpOp body) = arpOpReply ∧
      entryOf xs (rteBeToCpu32 (pkt.arpSip body)) = none

end Agree

section Cases
variable {ports : PortTable} {mem : Malloc (Node ArpEntry)} {st : ArpState} {pkt : Mbuf}
  {p : Fin maxEthPorts} {xs : List (ℕ × ArpEntry)}

def parsedArp (ports : PortTable) (mem : Malloc (Node ArpEntry)) (st : ArpState) (pkt : Mbuf)
    (p : Fin maxEthPorts) : Outcome (ArpState × List (Mbuf × UInt8)) := do
  let (_, st, es) ← twParseArp ports mem st pkt (portByte p)
  .ret (st, PktEffect.sent es)

/-- The packet is answered or adds an entry. -/
def Matters (info : PortInfo) (xs : List (ℕ × ArpEntry)) (pkt : Mbuf) : Prop :=
  AsksFor info pkt ∨ rteBeToCpu16 (pkt.arpOp sizeofEtherHdr) = arpOpReply ∧
    entryOf xs (rteBeToCpu32 (pkt.arpSip sizeofEtherHdr)) = none

lemma twParseArp_idle (h : st.Lists xs) (hm : ¬ Matters (ports p) xs pkt) :
    twParseArp ports mem st pkt (portByte p) = .ret (0, st, [.free pkt]) := by
  rw [Matters, not_or, not_and] at hm
  by_cases hreq : rteBeToCpu16 (pkt.arpOp sizeofEtherHdr) = arpOpRequest
  · have htip : rteBeToCpu32 (pkt.arpTip sizeofEtherHdr) ≠ (ports p).startIpAddr :=
      fun he => hm.1 ⟨hreq, he⟩
    simp only [twParseArp, if_pos hreq, portInfo_portByte, Outcome.ret_bind, if_neg htip]
  · by_cases hrep : rteBeToCpu16 (pkt.arpOp sizeofEtherHdr) = arpOpReply
    · obtain ⟨r, hr, hiff⟩ := twSearchArpTable_isNone h (pkt.arpSip sizeofEtherHdr)
      obtain ⟨a, rfl⟩ := Option.ne_none_iff_exists'.mp fun he => hm.2 hrep (hiff.mp he)
      simp only [twParseArp, if_neg hreq, if_pos hrep, twProcessArpReply, hr, Outcome.ret_bind]
    · simp only [twParseArp, if_neg hreq, if_neg hrep]

lemma twParseArp_matters (h : st.Lists xs) (hm : Matters (ports p) xs pkt) :
    parsedArp ports mem st pkt p ≠ .ret (st, []) := by
  by_cases hmem : NeedsEntry (ports p) xs pkt → mem.pick st.heap ≠ none
  · obtain ⟨st', xs', hrun, hlist, -, hl⟩ := twParseArp_ret ports h p hmem
    intro hidle
    rw [parsedArp, hrun] at hidle
    obtain ⟨rfl, hsent⟩ : st' = st ∧
        PktEffect.sent (parseEffects (ports p) pkt (portByte p)) = [] := by
      simpa using hidle
    rcases hm with hask | ⟨hrep, hnone⟩
    · simp [parseEffects, if_pos hask, PktEffect.sent] at hsent
    · have hteach : Teaches (ports p) pkt := Or.inl hrep
      rw [taught, if_pos hteach] at hl
      obtain ⟨a, hnew, -⟩ := hl.new hnone
      have hlen := congrArg List.length (Chain.unique h (hnew ▸ hlist))
      simp at hlen
  · rw [Classical.not_imp, not_not] at hmem
    rw [parsedArp, twParseArp_exit h p hmem.1 hmem.2]
    intro hidle
    cases hidle

/-- A parse has no effect exactly when the packet does not matter. -/
lemma parsedArp_idle_iff (h : st.Lists xs) :
    parsedArp ports mem st pkt p = .ret (st, []) ↔ ¬ Matters (ports p) xs pkt := by
  constructor
  · exact fun hidle hm => twParseArp_matters h hm hidle
  · intro hm
    rw [parsedArp, twParseArp_idle h hm]
    rfl

lemma dispatchArp_eq {m : Mbuf} (htag : untag (pkt.dataLen + 1) pkt = .ret m) :
    dispatchArp ports mem st pkt p =
      if rteBeToCpu16 m.etherType = etherTypeARP then parsedArp ports mem st m p
      else .ret (st, []) := by
  have hbyte : UInt8.ofNat p.val = portByte p := rfl
  unfold dispatchArp dispatch
  simp only [htag, Outcome.ret_bind, hbyte]
  split
  · simp [parsedArp, RxCall.sent]
  · split
    · rw [dif_pos p.isLt]
      rfl
    · rfl

lemma parserArp_eq (hdst : pkt.dAddr = (ports p).ethMac ∨ pkt.dAddr = broadcastmac) :
    parserArp ports mem st pkt p =
      if rteBeToCpu16 pkt.etherType = etherTypeARP then parsedArp ports mem st pkt p
      else if rteBeToCpu16 pkt.etherType = etherTypeVLAN then (do
        let m ← rteVlanStrip pkt
        parsedArp ports mem st m p)
      else .ret (st, []) := by
  have haccept : pkt.dAddr = (ports p).ethMac ∨ pkt.dAddr = broadcastmac ∧ acceptBrdcast := by
    simpa [acceptBrdcast] using hdst
  unfold parserArp twEthPktParser
  simp only [portInfo_portByte, Outcome.ret_bind, if_pos haccept]
  split
  · simp [parsedArp]
  · split
    · simp [parsedArp]
    · rfl

lemma Stripped.etherType {m m' : Mbuf} (hs : Stripped m m') :
    m'.etherType = le16 (m.load 16 2) := congrArg le16 (hs.rest 12 2 le_rfl)

lemma Stripped.matters_iff {m m' : Mbuf} (hs : Stripped m m') (info : PortInfo) :
    Matters info xs m' ↔ LooksLikeArp info xs m := by
  have hop : m'.arpOp sizeofEtherHdr = m.arpOp (sizeofEtherHdr + sizeofVlanHdr) :=
    congrArg le16 (hs.rest _ _ (by decide))
  have hsip : m'.arpSip sizeofEtherHdr = m.arpSip (sizeofEtherHdr + sizeofVlanHdr) :=
    congrArg le32 (hs.rest _ _ (by decide))
  have htip : m'.arpTip sizeofEtherHdr = m.arpTip (sizeofEtherHdr + sizeofVlanHdr) :=
    congrArg le32 (hs.rest _ _ (by decide))
  simp only [Matters, AsksFor, LooksLikeArp, hop, hsip, htip]

lemma untag_stripped {m m' : Mbuf} (hv : rteBeToCpu16 m.etherType = etherTypeVLAN)
    (hlen : 0 < m.dataLen) (hstrip : rteVlanStrip m = .ret m')
    (hinner : rteBeToCpu16 m'.etherType ≠ etherTypeVLAN) :
    untag (m.dataLen + 1) m = .ret m' := by
  obtain ⟨k, hk⟩ : ∃ k, m.dataLen = k + 1 := ⟨m.dataLen - 1, by omega⟩
  rw [untag, if_pos hv, hstrip, Outcome.ret_bind, hk, untag, if_neg hinner]

end Cases

/-- For a frame with at most one tag the demultiplexers agree unless the frame is tagged,
is not ARP, and has something that looks like ARP in the place of the ARP header. -/
theorem demux_agree_iff (ports : PortTable) (mem : Malloc (Node ArpEntry)) {st : ArpState}
    {xs : List (ℕ × ArpEntry)} (h : st.Lists xs) {pkt : Mbuf} (p : Fin maxEthPorts)
    (hlen : 46 ≤ pkt.dataLen) (htag : innerType pkt ≠ etherTypeVLAN)
    (hdst : pkt.dAddr = (ports p).ethMac ∨ pkt.dAddr = broadcastmac) :
    DemuxAgree ports mem st pkt p ↔
      ¬ (rteBeToCpu16 pkt.etherType = etherTypeVLAN ∧ innerType pkt ≠ etherTypeARP ∧
        LooksLikeArp (ports p) xs pkt) := by
  have hvlan : etherTypeVLAN ≠ etherTypeARP := by decide
  rw [DemuxAgree, parserArp_eq hdst]
  by_cases hv : rteBeToCpu16 pkt.etherType = etherTypeVLAN
  · obtain ⟨m, hstrip, hs⟩ := rteVlanStrip_stripped hv (Nat.le_trans (by decide) hlen)
    have hinner : rteBeToCpu16 m.etherType = innerType pkt := by
      rw [hs.etherType, innerType, if_pos hv]
    have huntag := untag_stripped hv (by omega) hstrip (hinner ▸ htag)
    rw [dispatchArp_eq huntag, hinner, if_neg (hv ▸ hvlan), if_pos hv, hstrip, Outcome.ret_bind]
    by_cases harp : innerType pkt = etherTypeARP
    · simp [harp]
    · rw [if_neg harp, parsedArp_idle_iff h, hs.matters_iff]
      simp [hv, harp]
  · have huntag : untag (pkt.dataLen + 1) pkt = .ret pkt := by rw [untag, if_neg hv]
    rw [dispatchArp_eq huntag, if_neg hv, innerType, if_neg hv]
    refine iff_of_true ⟨rfl, fun harp => if_neg harp⟩ fun hbad => hv hbad.1

/-- A broadcast frame with a tag, the given inner ether type, and the given opcode where
the ARP header would have it. -/
def taggedFrame (inner op : UInt16) : Mbuf :=
  let m : Mbuf := ⟨0, fun _ => 0, mbufBufLen, headroom, 60⟩
  let m := m.setDAddr broadcastmac
  let m := m.setEtherType (rteCpuToBe16 etherTypeVLAN)
  let m := m.store 16 (bytes16 (rteCpuToBe16 inner))
  m.setArpOp (sizeofEtherHdr + sizeofVlanHdr) (rteCpuToBe16 op)

lemma taggedFrame_fields (inner op : UInt16) :
    (taggedFrame inner op).dAddr = broadcastmac ∧
      rteBeToCpu16 (taggedFrame inner op).etherType = etherTypeVLAN ∧
      innerType (taggedFrame inner op) = inner ∧
      rteBeToCpu16 ((taggedFrame inner op).arpOp (sizeofEtherHdr + sizeofVlanHdr)) = op := by
  have htype : rteBeToCpu16 (taggedFrame inner op).etherType = etherTypeVLAN := by
    simp (disch := decide) [taggedFrame, Mbuf.etherType, Mbuf.setArpOp, Mbuf.setEtherType,
      Mbuf.load_store_of_disjoint]
  refine ⟨?_, htype, ?_, ?_⟩
  · simp (disch := decide) [taggedFrame, Mbuf.dAddr, Mbuf.setDAddr, Mbuf.setArpOp,
      Mbuf.setEtherType, Mbuf.load_store_of_disjoint]
  · rw [innerType, if_pos htype]
    simp (disch := decide) [taggedFrame, Mbuf.setArpOp, Mbuf.load_store_of_disjoint]
  · simp [taggedFrame, Mbuf.arpOp, Mbuf.setArpOp]

theorem demux_agree_ipv4 :
    DemuxAgree twPorts (.bump zeroEntry) .empty (taggedFrame etherTypeIPv4 0) 0 := by
  obtain ⟨hdst, -, hinner, hop⟩ := taggedFrame_fields etherTypeIPv4 0
  have hempty : ArpState.empty.Lists [] := rfl
  refine (demux_agree_iff twPorts (.bump zeroEntry) hempty 0 (by decide) ?_ (Or.inr hdst)).mpr ?_
  · rw [hinner]
    decide
  · rintro ⟨-, -, ⟨hreq, -⟩ | ⟨hrep, -⟩⟩
    · rw [hop] at hreq
      revert hreq
      decide
    · rw [hop] at hrep
      revert hrep
      decide

/-- A tagged IPv4 frame with the number of an ARP reply at the right place adds an entry
to the table of the one, and none to that of the other. -/
theorem demux_disagree_ipv4 :
    innerType (taggedFrame etherTypeIPv4 arpOpReply) = etherTypeIPv4 ∧
      ¬ DemuxAgree twPorts (.bump zeroEntry) .empty (taggedFrame etherTypeIPv4 arpOpReply) 0 := by
  obtain ⟨-, -, hinner, -⟩ := taggedFrame_fields etherTypeIPv4 arpOpReply
  refine ⟨hinner, ?_⟩
  rintro ⟨-, hidle⟩
  have hstay := hidle (by rw [hinner]; decide)
  have hroot := congrArg (fun o => match o with
    | .ret x => x.1.arpTableRoot
    | _ => none) hstay
  revert hroot
  decide

end Twister
