import Twister.Gateway

/-! What one call of the gateway's receive callback comes to, by what it finds in the
route table and the ARP table. -/
namespace Twister

section Reply
variable (gw : Gateway)

def pinged (dstAddr : UInt32) : Outcome (Option CString) :=
  findPinged gw.ports gw.routes dstAddr (gw.routes.heap.top + 1) gw.routes.routeTableRoot

/-- The route of the address and the name its entry reads as. -/
def RoutedOn (dstAddr : UInt32) (portName : CString) : Prop :=
  ∃ a route, twSearchRoute gw.routes dstAddr = .ret (some a) ∧
    gw.routes.heap.load (some a) = .ret route ∧ gw.routes.nameOf route = .ret portName

/-- The packet is a ping of the gateway, has no route, or has a route that reads as one
of the two ports and a resolved destination. -/
def Settles (arp : ArpState) (dstAddr : UInt32) : Prop :=
  (∃ portName, pinged gw dstAddr = .ret (some portName)) ∨
    pinged gw dstAddr = .ret none ∧
      (twSearchRoute gw.routes dstAddr = .ret none ∨
        (RoutedOn gw dstAddr tw0 ∨ RoutedOn gw dstAddr tw1) ∧
          ∃ e, arp.entry dstAddr = .ret (some e))

/-- The destination is not resolved, and a request can be sent on the port of the
route. -/
def Parks (arp : ArpState) (pools : MbufPools) (dstAddr : UInt32) : Prop :=
  pinged gw dstAddr = .ret none ∧ twSearchArpTable arp dstAddr = .ret none ∧
    ∃ portName, RoutedOn gw dstAddr portName ∧ twEthNameToId gw.ports portName ≠ -1 ∧
      pools.next (portIdByte (twEthNameToId gw.ports portName)) ≠ none

end Reply

section Requests
variable {ports : PortTable} {pools : MbufPools} {ip : UInt32} {portName : CString}

lemma portIdByte_val (p : Fin maxEthPorts) : portIdByte (p.val : Int) = portByte p := by
  have hp := p.isLt
  have hmax : maxEthPorts = 8 := rfl
  have hmod : ((p.val : Int) % 256).toNat = p.val := by omega
  rw [portIdByte, hmod, portByte]

lemma twSendArpRequest_ret (ip : UInt32) (hid : twEthNameToId ports portName ≠ -1)
    (hpool : pools.next (portIdByte (twEthNameToId ports portName)) ≠ none) :
    ∃ p addr stale, twSendArpRequest ports pools ip portName =
      .ret [.addToTxQueue (fillRequest (ports p) ip (rtePktmbufAlloc addr stale))
        (portByte p)] := by
  rcases twEthNameToId_spec ports portName with h | ⟨p, -, hp⟩
  · exact absurd h hid
  · obtain ⟨⟨addr, stale⟩, hnext⟩ := Option.ne_none_iff_exists'.mp hpool
    rw [hp, portIdByte_val] at hnext
    unfold twSendArpRequest
    rw [hp, portIdByte_val, twConstructArpPacket_ret ports hnext]
    exact ⟨p, addr, stale, rfl⟩

lemma twSendArpRequest_inv {es : List PktEffect}
    (h : twSendArpRequest ports pools ip portName = .ret es) :
    twEthNameToId ports portName ≠ -1 ∧
      pools.next (portIdByte (twEthNameToId ports portName)) ≠ none := by
  obtain ⟨r, hr, -⟩ := Outcome.bind_eq_ret.mp h
  obtain ⟨hport, hnext⟩ := twConstructArpPacket_inv hr
  refine ⟨fun hid => ?_, hnext⟩
  rw [hid] at hport
  exact absurd hport (by decide)

end Requests

section Replied
variable {gw : Gateway} {env : GwEnv} {st : GwState}

lemma twGetEtherAddr_of_ip {ports : PortTable} {portName : CString} {ip : UInt32}
    (h : twGetIpAddr ports portName = .ret ip) :
    ∃ mac, twGetEtherAddr ports portName = .ret mac := by
  obtain ⟨info, hinfo, -⟩ := Outcome.bind_eq_ret.mp h
  exact ⟨info.ethMac, by rw [twGetEtherAddr, hinfo]; rfl⟩

/-- The name that the walk returns is the name of a port. -/
lemma findPinged_some {ports : PortTable} {routes : RouteTable} {dstAddr : UInt32} {fuel : ℕ}
    {p : Option ℕ} {portName : CString}
    (h : findPinged ports routes dstAddr fuel p = .ret (some portName)) :
    ∃ ip, twGetIpAddr ports portName = .ret ip := by
  induction fuel generalizing p with
  | zero => cases h
  | succ fuel ih =>
    cases p with
    | none => cases h
    | some a =>
      obtain ⟨route, -, h⟩ := Outcome.bind_eq_ret.mp h
      obtain ⟨name, -, h⟩ := Outcome.bind_eq_ret.mp h
      obtain ⟨ip, hip, h⟩ := Outcome.bind_eq_ret.mp h
      by_cases hit : ip = rteBeToCpu32 dstAddr
      · rw [if_pos hit] at h
        obtain rfl : name = portName := by simpa using h
        exact ⟨ip, hip⟩
      · rw [if_neg hit] at h
        exact ih h

/-- The call hands the packet to `tw_send_pkt` or to `tw_free_pkt`. -/
inductive GwCall.Disposes (n : ℕ) : GwCall → Prop
  | send (pkt : Mbuf) (portId : UInt8) (h : pkt.addr = n) : Disposes n (.sendPkt pkt portId)
  | free (pkt : Mbuf) (h : pkt.addr = n) : Disposes n (.freePkt pkt)

lemma TwBuf.edit_addr (b : TwBuf) {f : Mbuf → Mbuf} (hf : ∀ m, (f m).addr = m.addr) :
    (b.edit f).pkt.addr = b.pkt.addr := hf b.hdr

lemma answerPing_addr (mac : EtherAddr) (m : Mbuf) : (answerPing mac m).addr = m.addr := by
  simp only [answerPing]
  split <;> rfl

variable (gw) in
lemma forwardOn_addr (portName : CString) (b : TwBuf) :
    (forwardOn gw portName b).1.pkt.addr = b.pkt.addr := by
  unfold forwardOn
  split
  · rfl
  · split <;> rfl

variable (gw) in
lemma forwardOn_disposes {portName : CString} (h : portName = tw0 ∨ portName = tw1) (b : TwBuf) :
    ∃ c, (forwardOn gw portName b).2 = [c] ∧ c.Disposes b.pkt.addr := by
  rcases h with rfl | rfl
  · exact ⟨_, rfl, .send _ _ rfl⟩
  · exact ⟨_, rfl, .send _ _ rfl⟩

namespace RoutedOn
variable {dstAddr : UInt32} {portName portName' : CString}

lemma search_ne_none (h : RoutedOn gw dstAddr portName) :
    twSearchRoute gw.routes dstAddr ≠ .ret none := by
  obtain ⟨a, route, hsearch, -⟩ := h
  rw [hsearch]
  exact fun hnone => nomatch Outcome.ret.inj hnone

lemma unique (h : RoutedOn gw dstAddr portName) (h' : RoutedOn gw dstAddr portName') :
    portName = portName' := by
  obtain ⟨a, route, hsearch, hload, hname⟩ := h
  obtain ⟨a', route', hsearch', hload', hname'⟩ := h'
  obtain rfl : a = a' := by simpa [hsearch] using hsearch'
  obtain rfl : route = route' := by simpa [hload] using hload'
  simpa [hname] using hname'

end RoutedOn

/-- What handling a packet can come to: it is disposed of, parked, or left behind. -/
inductive Replied (gw : Gateway) (pools : MbufPools) (st : GwState) :
    GwState → List GwCall → Prop
  | settled (b : TwBuf) (c : GwCall)
      (h : Settles gw st.arp (st.tempBuffer.hdr.ipDst sizeofEtherHdr))
      (haddr : b.pkt.addr = st.tempBuffer.pkt.addr) (hc : c.Disposes st.tempBuffer.pkt.addr) :
      Replied gw pools st { st with tempBuffer := b } [c]
  | parked (es : List PktEffect)
      (h : Parks gw st.arp pools (st.tempBuffer.hdr.ipDst sizeofEtherHdr)) :
      Replied gw pools st { st with sqPktQ := (twSqPush st.sqPktQ .tempBuffer).2 }
        (.sendArpRequest es :: pushCall st.sqPktQ st.tempBuffer.pkt)
  | lost (b : TwBuf) (h : ¬ Settles gw st.arp (st.tempBuffer.hdr.ipDst sizeofEtherHdr))
      (h' : ¬ Parks gw st.arp pools (st.tempBuffer.hdr.ipDst sizeofEtherHdr))
      (haddr : b.pkt.addr = st.tempBuffer.pkt.addr) :
      Replied gw pools st { st with tempBuffer := b } []

lemma replyPayload_ipv4 (hip : rteBeToCpu16 st.tempBuffer.hdr.etherType = etherTypeIPv4) :
    replyPayload gw env st .tempBuffer = (do
      let r ← checkGatewayPing gw st .tempBuffer
      if r.1 ≠ 0 then routePkt gw env r.2.1 .tempBuffer else .ret (r.2.1, r.2.2)) := by
  have harp : ¬ rteBeToCpu16 st.tempBuffer.hdr.etherType = etherTypeARP := by
    rw [hip]
    decide
  unfold replyPayload
  rw [GwState.buf, if_neg harp, if_pos hip]

lemma forwardOn_other {portName : CString} (h : ¬ (portName = tw0 ∨ portName = tw1)) (b : TwBuf) :
    (forwardOn gw portName b).2 = [] := by
  rw [not_or] at h
  rw [forwardOn, if_neg h.1, if_neg h.2]

/-- A resolved packet goes out on one of the two ports, or nowhere. -/
lemma forwardOn_replied (pools : MbufPools) {portName : CString} {e : ArpEntry}
    (hping : pinged gw (st.tempBuffer.hdr.ipDst sizeofEtherHdr) = .ret none)
    (hrouted : RoutedOn gw (st.tempBuffer.hdr.ipDst sizeofEtherHdr) portName)
    (he : st.arp.entry (st.tempBuffer.hdr.ipDst sizeofEtherHdr) = .ret (some e)) {b : TwBuf}
    (hb : b.pkt.addr = st.tempBuffer.pkt.addr) :
    Replied gw pools st { st with tempBuffer := (forwardOn gw portName b).1 }
      (forwardOn gw portName b).2 := by
  have haddr : (forwardOn gw portName b).1.pkt.addr = st.tempBuffer.pkt.addr :=
    (forwardOn_addr gw portName b).trans hb
  by_cases htw : portName = tw0 ∨ portName = tw1
  · obtain ⟨c, hc, hdisp⟩ := forwardOn_disposes gw htw b
    have hports : RoutedOn gw (st.tempBuffer.hdr.ipDst sizeofEtherHdr) tw0 ∨
        RoutedOn gw (st.tempBuffer.hdr.ipDst sizeofEtherHdr) tw1 := by
      rcases htw with rfl | rfl
      · exact Or.inl hrouted
      · exact Or.inr hrouted
    rw [hc]
    exact .settled _ c (Or.inr ⟨hping, Or.inr ⟨hports, e, he⟩⟩) haddr (hb ▸ hdisp)
  · rw [forwardOn_other htw b]
    refine .lost _ ?_ ?_ haddr
    · rintro (⟨name, hping'⟩ | ⟨-, hdrop | ⟨htw0 | htw1, -⟩⟩)
      · rw [hping] at hping'
        cases hping'
      · exact hrouted.search_ne_none hdrop
      · exact htw (Or.inl (hrouted.unique htw0))
      · exact htw (Or.inr (hrouted.unique htw1))
    · rintro ⟨-, hnone, -⟩
      obtain ⟨a, node, hfound, -⟩ := ArpState.entry_eq_some.mp he
      rw [hnone] at hfound
      cases hfound

lemma routePkt_replied {st' : GwState} {calls : List GwCall}
    (hping : pinged gw (st.tempBuffer.hdr.ipDst sizeofEtherHdr) = .ret none)
    (h : routePkt gw env st .tempBuffer = .ret (st', calls)) :
    Replied gw env.pools st st' calls := by
  obtain ⟨found, hsearch, h⟩ := Outcome.bind_eq_ret.mp h
  cases found with
  | none =>
    obtain ⟨rfl, rfl⟩ := Prod.mk.inj (Outcome.ret.inj h)
    exact .settled st.tempBuffer _ (Or.inr ⟨hping, Or.inl hsearch⟩) rfl (.free _ rfl)
  | some a =>
    obtain ⟨route, hload, h⟩ := Outcome.bind_eq_ret.mp h
    obtain ⟨bound, hbound, h⟩ := Outcome.bind_eq_ret.mp h
    cases bound with
    | none =>
      obtain ⟨portName, hname, h⟩ := Outcome.bind_eq_ret.mp h
      obtain ⟨es, hes, h⟩ := Outcome.bind_eq_ret.mp h
      obtain ⟨rfl, rfl⟩ := Prod.mk.inj (Outcome.ret.inj h)
      exact .parked es ⟨hping, hbound, portName, ⟨a, route, hsearch, hload, hname⟩,
        twSendArpRequest_inv hes⟩
    | some e =>
      obtain ⟨entry, hentry, h⟩ := Outcome.bind_eq_ret.mp h
      obtain ⟨portName, hname, h⟩ := Outcome.bind_eq_ret.mp h
      have hb : (st.tempBuffer.edit fun m => m.setDAddr entry.val.ethMac).pkt.addr =
          st.tempBuffer.pkt.addr := TwBuf.edit_addr _ fun _ => rfl
      have hreplied := forwardOn_replied env.pools hping
        ⟨a, route, hsearch, hload, hname⟩
        (ArpState.entry_eq_some.mpr ⟨e, entry, hbound, hentry, rfl⟩) hb
      obtain ⟨hst, hcalls⟩ := Prod.mk.inj (Outcome.ret.inj h)
      rw [← hst, ← hcalls]
      exact hreplied

theorem replyPayload_replied {st' : GwState} {calls : List GwCall}
    (h : replyPayload gw env st .tempBuffer = .ret (st', calls))
    (hip : rteBeToCpu16 st.tempBuffer.hdr.etherType = etherTypeIPv4) :
    Replied gw env.pools st st' calls := by
  rw [replyPayload_ipv4 hip] at h
  obtain ⟨r, hcheck, h⟩ := Outcome.bind_eq_ret.mp h
  obtain ⟨found, hfound, hcheck⟩ := Outcome.bind_eq_ret.mp hcheck
  cases found with
  | none =>
    obtain rfl := Outcome.ret.inj hcheck
    exact routePkt_replied hfound h
  | some portName =>
    obtain ⟨mac, -, hcheck⟩ := Outcome.bind_eq_ret.mp hcheck
    obtain rfl := Outcome.ret.inj hcheck
    obtain ⟨rfl, rfl⟩ := Prod.mk.inj (Outcome.ret.inj h)
    have haddr : (st.tempBuffer.edit (answerPing mac)).pkt.addr = st.tempBuffer.pkt.addr :=
      TwBuf.edit_addr _ (answerPing_addr mac)
    exact .settled _ _ (Or.inl ⟨portName, hfound⟩) haddr (.send _ _ haddr)

lemma checkGatewayPing_none
    (h : pinged gw (st.tempBuffer.hdr.ipDst sizeofEtherHdr) = .ret none) :
    checkGatewayPing gw st .tempBuffer = .ret (1, st, []) :=
  Outcome.bind_eq_ret.mpr ⟨none, h, rfl⟩

lemma checkGatewayPing_some {portName : CString}
    (h : pinged gw (st.tempBuffer.hdr.ipDst sizeofEtherHdr) = .ret (some portName)) :
    ∃ st' calls, checkGatewayPing gw st .tempBuffer = .ret (0, st', calls) := by
  obtain ⟨ip, hip⟩ := findPinged_some h
  obtain ⟨mac, hmac⟩ := twGetEtherAddr_of_ip hip
  exact ⟨_, _, Outcome.bind_eq_ret.mpr
    ⟨some portName, h, Outcome.bind_eq_ret.mpr ⟨mac, hmac, rfl⟩⟩⟩

lemma routePkt_dropped
    (h : twSearchRoute gw.routes (st.tempBuffer.hdr.ipDst sizeofEtherHdr) = .ret none) :
    ∃ st' calls, routePkt gw env st .tempBuffer = .ret (st', calls) :=
  ⟨_, _, Outcome.bind_eq_ret.mpr ⟨none, h, rfl⟩⟩

lemma routePkt_resolved {portName : CString} {e : ArpEntry}
    (hrouted : RoutedOn gw (st.tempBuffer.hdr.ipDst sizeofEtherHdr) portName)
    (he : st.arp.entry (st.tempBuffer.hdr.ipDst sizeofEtherHdr) = .ret (some e)) :
    ∃ st' calls, routePkt gw env st .tempBuffer = .ret (st', calls) := by
  obtain ⟨a, route, hsearch, hload, hname⟩ := hrouted
  obtain ⟨x, node, hfound, hnode, -⟩ := ArpState.entry_eq_some.mp he
  exact ⟨_, _, Outcome.bind_eq_ret.mpr ⟨some a, hsearch, Outcome.bind_eq_ret.mpr ⟨route, hload,
    Outcome.bind_eq_ret.mpr ⟨some x, hfound, Outcome.bind_eq_ret.mpr ⟨node, hnode,
      Outcome.bind_eq_ret.mpr ⟨portName, hname, rfl⟩⟩⟩⟩⟩⟩

lemma routePkt_unresolved {portName : CString}
    (hrouted : RoutedOn gw (st.tempBuffer.hdr.ipDst sizeofEtherHdr) portName)
    (hnone : twSearchArpTable st.arp (st.tempBuffer.hdr.ipDst sizeofEtherHdr) = .ret none)
    (hid : twEthNameToId gw.ports portName ≠ -1)
    (hpool : env.pools.next (portIdByte (twEthNameToId gw.ports portName)) ≠ none) :
    ∃ p addr stale, routePkt gw env st .tempBuffer =
      .ret ({ st with sqPktQ := (twSqPush st.sqPktQ .tempBuffer).2 },
        .sendArpRequest [.addToTxQueue (fillRequest (gw.ports p)
            (st.tempBuffer.hdr.ipDst sizeofEtherHdr) (rtePktmbufAlloc addr stale)) (portByte p)] ::
          pushCall st.sqPktQ st.tempBuffer.pkt) := by
  obtain ⟨a, route, hsearch, hload, hname⟩ := hrouted
  obtain ⟨p, addr, stale, hes⟩ := twSendArpRequest_ret (st.tempBuffer.hdr.ipDst sizeofEtherHdr)
    hid hpool
  exact ⟨p, addr, stale, Outcome.bind_eq_ret.mpr ⟨some a, hsearch,
    Outcome.bind_eq_ret.mpr ⟨route, hload, Outcome.bind_eq_ret.mpr ⟨none, hnone,
      Outcome.bind_eq_ret.mpr ⟨portName, hname, Outcome.bind_eq_ret.mpr ⟨_, hes, rfl⟩⟩⟩⟩⟩⟩

variable (gw env st) in
theorem replyPayload_returns (hip : rteBeToCpu16 st.tempBuffer.hdr.etherType = etherTypeIPv4)
    (h : Settles gw st.arp (st.tempBuffer.hdr.ipDst sizeofEtherHdr) ∨
      Parks gw st.arp env.pools (st.tempBuffer.hdr.ipDst sizeofEtherHdr)) :
    ∃ st' calls, replyPayload gw env st .tempBuffer = .ret (st', calls) := by
  rw [replyPayload_ipv4 hip]
  rcases h with (⟨portName, hping⟩ | ⟨hping, hroute⟩) |
    ⟨hping, hnone, portName, hrouted, hid, hpool⟩
  · obtain ⟨st', calls, hcheck⟩ := checkGatewayPing_some hping
    exact ⟨st', calls, by rw [hcheck]; rfl⟩
  · rw [checkGatewayPing_none hping, Outcome.ret_bind, if_pos one_ne_zero]
    rcases hroute with hdrop | ⟨htw0 | htw1, e, he⟩
    · exact routePkt_dropped hdrop
    · exact routePkt_resolved htw0 he
    · exact routePkt_resolved htw1 he
  · rw [checkGatewayPing_none hping, Outcome.ret_bind, if_pos one_ne_zero]
    obtain ⟨p, addr, stale, hroute⟩ := routePkt_unresolved hrouted hnone hid hpool
    exact ⟨_, _, hroute⟩

lemma Settles.not_parks {arp : ArpState} {pools : MbufPools} {dstAddr : UInt32}
    (h : Settles gw arp dstAddr) : ¬ Parks gw arp pools dstAddr := by
  rintro ⟨hping, hnone, portName, hrouted, -⟩
  rcases h with ⟨name, hping'⟩ | ⟨-, hdrop | ⟨-, e, he⟩⟩
  · rw [hping] at hping'
    cases hping'
  · exact hrouted.search_ne_none hdrop
  · obtain ⟨x, node, hfound, -⟩ := ArpState.entry_eq_some.mp he
    rw [hnone] at hfound
    cases hfound

end Replied
end Twister
