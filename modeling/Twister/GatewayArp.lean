import Twister.ArpHandshake
import Twister.GatewayRun

/-! The ARP request that the gateway sends for a packet it cannot forward yet. The address
is taken from the packet in network order and converted once more when the request is
built. -/
namespace Twister

section Request
variable (gw : Gateway) (env : GwEnv) (st : GwState)

/-- The four bytes of the destination address of the packet. -/
def wireDst : Fin 4 → UInt8 := st.tempBuffer.hdr.load (sizeofEtherHdr + 16) 4

/-- The four bytes of the target address of a request. -/
def wireTarget (m : Mbuf) : Fin 4 → UInt8 := m.load (sizeofEtherHdr + 24) 4

/-- No port of the gateway has the destination for its address. -/
def Foreign : Prop :=
  ∀ p, (gw.ports p).startIpAddr ≠ rteBeToCpu32 (st.tempBuffer.hdr.ipDst sizeofEtherHdr)

instance : Decidable (Foreign gw st) := inferInstanceAs (Decidable (∀ _, _ ≠ _))

/-- A packet with a route, whose next destination is unknown. -/
structure NeedsArp : Prop where
  ipv4 : rteBeToCpu16 st.tempBuffer.hdr.etherType = etherTypeIPv4
  routed : ∃ a, twSearchRoute gw.routes (st.tempBuffer.hdr.ipDst sizeofEtherHdr) = .ret (some a)
  unresolved : twSearchArpTable st.arp (st.tempBuffer.hdr.ipDst sizeofEtherHdr) = .ret none

/-- The walk over the routes finds no port with the address and meets no unknown name, the route
reads as the name of a port, and there is a buffer for the request. -/
def CanAsk : Prop :=
  pinged gw (st.tempBuffer.hdr.ipDst sizeofEtherHdr) = .ret none ∧
    ∃ portName, RoutedOn gw (st.tempBuffer.hdr.ipDst sizeofEtherHdr) portName ∧
      twEthNameToId gw.ports portName ≠ -1 ∧
        env.pools.next (portIdByte (twEthNameToId gw.ports portName)) ≠ none

/-- The host that was asked for states its address. -/
structure Answers (request reply : Mbuf) : Prop where
  arpOp : rteBeToCpu16 (reply.arpOp sizeofEtherHdr) = arpOpReply
  sender : reply.load (sizeofEtherHdr + 14) 4 = wireTarget request

/-- The call sends a request for the destination of the packet, and an answer to it makes
the destination known. -/
def AsksForDst : Prop :=
  ∃ st' m portId rest, replyPayload gw env st .tempBuffer =
      .ret (st', .sendArpRequest [.addToTxQueue m portId] :: rest) ∧
    wireTarget m = wireDst st ∧
    ∀ reply mem (p : Fin maxEthPorts), Answers m reply → mem.pick st'.arp.heap ≠ none →
      ∃ arp es e, twParseArp gw.ports mem st'.arp reply (portByte p) = .ret (0, arp, es) ∧
        twSearchArpTable arp (st.tempBuffer.hdr.ipDst sizeofEtherHdr) = .ret (some e)

end Request

section Asking
variable {gw : Gateway} {env : GwEnv} {st : GwState}

lemma le32_injective : Function.Injective le32 := Function.LeftInverse.injective bytes32_le32

lemma bswap32_le32 (b : Fin 4 → UInt8) : bswap32 (le32 b) = le32 fun i => b i.rev := by
  rw [bswap32, bytes32_le32]

/-- The target address of the request is the destination backwards. -/
lemma wireTarget_fillRequest (st : GwState) (info : PortInfo) (addr : ℕ) (stale : Bytes)
    (i : Fin 4) :
    wireTarget (fillRequest info (st.tempBuffer.hdr.ipDst sizeofEtherHdr)
      (rtePktmbufAlloc addr stale)) i = wireDst st i.rev := by
  have hreq := fillRequest_isRequest info (st.tempBuffer.hdr.ipDst sizeofEtherHdr) addr stale
  have hbytes : le32 (wireTarget (fillRequest info (st.tempBuffer.hdr.ipDst sizeofEtherHdr)
      (rtePktmbufAlloc addr stale))) = le32 fun i => wireDst st i.rev :=
    hreq.arpTip.trans (bswap32_le32 (wireDst st))
  exact congrFun (le32_injective hbytes) i

lemma NeedsArp.reply (h : NeedsArp gw st) (hcan : CanAsk gw env st) :
    ∃ p addr stale, replyPayload gw env st .tempBuffer =
      .ret ({ st with sqPktQ := (twSqPush st.sqPktQ .tempBuffer).2 },
        .sendArpRequest [.addToTxQueue (fillRequest (gw.ports p)
            (st.tempBuffer.hdr.ipDst sizeofEtherHdr) (rtePktmbufAlloc addr stale)) (portByte p)] ::
          pushCall st.sqPktQ st.tempBuffer.pkt) := by
  obtain ⟨hping, portName, hrouted, hid, hpool⟩ := hcan
  obtain ⟨p, addr, stale, hroute⟩ := routePkt_unresolved hrouted h.unresolved hid hpool
  refine ⟨p, addr, stale, ?_⟩
  rw [replyPayload_ipv4 h.ipv4, checkGatewayPing_none hping, Outcome.ret_bind,
    if_pos one_ne_zero, hroute]

/-- Only a packet that is parked makes the gateway send a request. -/
lemma canAsk_of_request {st' : GwState} {es : List PktEffect} {rest : List GwCall}
    (hip : rteBeToCpu16 st.tempBuffer.hdr.etherType = etherTypeIPv4)
    (h : replyPayload gw env st .tempBuffer = .ret (st', .sendArpRequest es :: rest)) :
    CanAsk gw env st := by
  generalize hcalls : GwCall.sendArpRequest es :: rest = calls at h
  cases replyPayload_replied h hip with
  | settled b c hs haddr hc =>
    obtain ⟨rfl, -⟩ := List.cons.inj hcalls
    cases hc
  | parked es' hp => exact ⟨hp.1, hp.2.2⟩
  | lost b => cases hcalls

lemma twParseArp_resolves {arp : ArpState} {xs : List (ℕ × ArpEntry)} (harp : arp.Lists xs)
    {dst : UInt32} (hnone : twSearchArpTable arp dst = .ret none) {reply : Mbuf}
    (hop : rteBeToCpu16 (reply.arpOp sizeofEtherHdr) = arpOpReply)
    (hsip : reply.arpSip sizeofEtherHdr = dst) {mem : Malloc (Node ArpEntry)}
    (hm : mem.pick arp.heap ≠ none) (ports : PortTable) (p : Fin maxEthPorts) :
    ∃ arp' es e, twParseArp ports mem arp reply (portByte p) = .ret (0, arp', es) ∧
      twSearchArpTable arp' dst = .ret (some e) := by
  subst hsip
  obtain ⟨r, hr, hiff⟩ := twSearchArpTable_isNone harp (reply.arpSip sizeofEtherHdr)
  have hno := hiff.mp (Outcome.ret.inj (hr.symm.trans hnone))
  obtain ⟨arp', a, hrun, hlist, hfound⟩ := twParseArp_learns ports p harp hm (Or.inl hop) hno
  obtain ⟨e, node, hsearch, -⟩ := ArpState.entry_eq_some.mp ((entry_eq hlist _).trans
    (congrArg Outcome.ret hfound))
  exact ⟨arp', _, e, hrun, hsearch⟩

/-- A request for the destination is possible only where the swap is invisible. -/
lemma AsksForDst.palindrome (h : NeedsArp gw st) (hasks : AsksForDst gw env st) :
    CanAsk gw env st ∧ ∀ i, wireDst st i = wireDst st i.rev := by
  obtain ⟨st', m, portId, rest, hreply, htarget, -⟩ := hasks
  have hcan := canAsk_of_request h.ipv4 hreply
  obtain ⟨p, addr, stale, hreply'⟩ := h.reply hcan
  refine ⟨hcan, fun i => ?_⟩
  rw [hreply'] at hreply
  obtain ⟨-, hcalls⟩ := Prod.mk.inj (Outcome.ret.inj hreply)
  have hsent := GwCall.sendArpRequest.inj (List.cons.inj hcalls).1
  obtain ⟨hm, -⟩ := PktEffect.addToTxQueue.inj (List.cons.inj hsent).1
  have hback := wireTarget_fillRequest st (gw.ports p) addr stale i
  rw [hm, htarget] at hback
  exact hback

/-- The gateway asks for the right address exactly if it can ask at all and the address
reads the same backwards. -/
theorem asksForDst_iff {xs : List (ℕ × ArpEntry)} (harp : st.arp.Lists xs) (h : NeedsArp gw st) :
    AsksForDst gw env st ↔ CanAsk gw env st ∧ ∀ i, wireDst st i = wireDst st i.rev := by
  refine ⟨AsksForDst.palindrome h, fun ⟨hcan, hsame⟩ => ?_⟩
  obtain ⟨p, addr, stale, hreply⟩ := h.reply hcan
  have htarget : wireTarget (fillRequest (gw.ports p) (st.tempBuffer.hdr.ipDst sizeofEtherHdr)
      (rtePktmbufAlloc addr stale)) = wireDst st :=
    funext fun i => (wireTarget_fillRequest st (gw.ports p) addr stale i).trans (hsame i).symm
  refine ⟨_, _, _, _, hreply, htarget, fun reply mem q hans hm => ?_⟩
  exact twParseArp_resolves harp h.unresolved hans.arpOp
    (congrArg le32 (hans.sender.trans htarget)) hm gw.ports q

/-- The gateway with a packet for 5.5.5.5. -/
def fivesGateway : GwState :=
  { idleGateway with
    tempBuffer := describe (transitPkt.setIpDst sizeofEtherHdr (rteCpuToBe32 0x05050505)) 0 }

theorem asksForDst_fives : AsksForDst oneRoute plentiful fivesGateway := by
  have harp : fivesGateway.arp.Lists [] := rfl
  have hneeds : NeedsArp oneRoute fivesGateway := ⟨by decide, ⟨0, rfl⟩, rfl⟩
  exact (asksForDst_iff harp hneeds).mpr
    ⟨⟨rfl, tw0, ⟨0, _, rfl, rfl, rfl⟩, by decide, fun h => nomatch h⟩, by decide⟩

/-- 10.0.0.0/8 on `tw0` ahead of everything on `tw1`, in blocks a cache line apart. -/
def twoRouteGateway : Gateway :=
  { oneRoute with
    routes := ⟨(Heap.empty.write 0 ⟨⟨0x0a, 0, 0xff, ![0x74, 0x77, 0x30]⟩, some 1⟩).write 1
      ⟨⟨0, 0, 0, ![0x74, 0x77, 0x31]⟩, none⟩, some 0, fun a => UInt64.ofNat (64 * (a + 1)), 2⟩ }

/-- For the packet to 10.10.9.9 the request asks for 9.9.10.10. With a second route no request for
5.5.5.5 is sent, since the name of the first route reads as that of no port. -/
theorem gateway_asks_backwards :
    (idleGateway.arp.Lists [] ∧ Foreign oneRoute idleGateway ∧ NeedsArp oneRoute idleGateway ∧
      CanAsk oneRoute plentiful idleGateway ∧ ¬ AsksForDst oneRoute plentiful idleGateway) ∧
    fivesGateway.arp.Lists [] ∧ Foreign twoRouteGateway fivesGateway ∧
      NeedsArp twoRouteGateway fivesGateway ∧
      replyPayload twoRouteGateway plentiful fivesGateway .tempBuffer = .fault ∧
      ¬ AsksForDst twoRouteGateway plentiful fivesGateway := by
  have hneeds : NeedsArp oneRoute idleGateway := ⟨by decide, ⟨0, rfl⟩, rfl⟩
  have hfault : replyPayload twoRouteGateway plentiful fivesGateway .tempBuffer = .fault := rfl
  refine ⟨⟨rfl, by decide, hneeds, ⟨transit_parks.1, transit_parks.2.2⟩, fun hasks => ?_⟩, rfl,
    by decide, ⟨by decide, ⟨1, rfl⟩, rfl⟩, hfault, fun hasks => ?_⟩
  · have h0 := (AsksForDst.palindrome hneeds hasks).2 0
    exact absurd h0 (by decide)
  · obtain ⟨st', m, portId, rest, hreply, -⟩ := hasks
    rw [hfault] at hreply
    cases hreply

end Asking
end Twister
