import Twister.ArpLogic

/-! A network of nodes that exchange ARP packets. Any node may ask for any address,
and any frame in flight may reach any port of any node, again and again, or be lost. -/
namespace Twister

/-- The port tables of the nodes and which entries are ports on the network. -/
structure NetConfig (ι : Type) where
  ports : ι → PortTable
  attached : ι → Finset (Fin maxEthPorts)

structure NetState (ι : Type) where
  arp : ι → ArpState
  inFlight : List (List UInt8)

def frameArpSha (f : List UInt8) : EtherAddr := frameLoad f (sizeofEtherHdr + 8) 6
def frameArpSip (f : List UInt8) : UInt32 := le32 (frameLoad f (sizeofEtherHdr + 14) 4)

def framesOf (es : List PktEffect) : List (List UInt8) :=
  (PktEffect.sent es).map fun x => x.1.frame

@[simp] lemma framesOf_free (m : Mbuf) : framesOf [.free m] = [] := rfl
@[simp] lemma framesOf_addToTxQueue (m : Mbuf) (portId : UInt8) :
    framesOf [.addToTxQueue m portId] = [m.frame] := rfl

namespace NetConfig
variable {ι : Type} (cfg : NetConfig ι)

def Owns (ip : UInt32) (mac : EtherAddr) : Prop :=
  ∃ i, ∃ p ∈ cfg.attached i, (cfg.ports i p).startIpAddr = ip ∧ (cfg.ports i p).ethMac = mac

/-- A delivered frame stays in flight, so that it can be delivered again. -/
inductive Step [DecidableEq ι] : NetState ι → NetState ι → Prop
  | request {s : NetState ι} {i : ι} {p : Fin maxEthPorts} {pools : MbufPools} {ip : UInt32}
      {r : Int} {es : List PktEffect} (hp : p ∈ cfg.attached i)
      (hrun : twConstructArpPacket (cfg.ports i) pools ip (portByte p) = .ret (r, es)) :
      Step s ⟨s.arp, s.inFlight ++ framesOf es⟩
  | deliver {s : NetState ι} {i : ι} {p : Fin maxEthPorts} {pkt : Mbuf}
      {mem : Malloc (Node ArpEntry)} {r : Int} {st : ArpState} {es : List PktEffect}
      (hf : pkt.frame ∈ s.inFlight) (hp : p ∈ cfg.attached i)
      (hrun : twParseArp (cfg.ports i) mem (s.arp i) pkt (portByte p) = .ret (r, st, es)) :
      Step s ⟨Function.update s.arp i st, s.inFlight ++ framesOf es⟩
  | lose {s : NetState ι} {f : List UInt8} : Step s ⟨s.arp, s.inFlight.erase f⟩

def quiet : NetState ι := ⟨fun _ => ArpState.empty, []⟩

def Reachable [DecidableEq ι] (s : NetState ι) : Prop :=
  Relation.ReflTransGen cfg.Step quiet s

def TableSound (st : ArpState) : Prop :=
  ∃ xs, st.Lists xs ∧ ∀ x ∈ xs, cfg.Owns x.2.ipAddr x.2.ethMac

/-- The frame holds a whole ARP header, and its sender fields are true. -/
def FrameSound (f : List UInt8) : Prop :=
  sizeofEtherHdr + sizeofArpHdr ≤ f.length ∧
    cfg.Owns (rteBeToCpu32 (frameArpSip f)) (frameArpSha f)

structure Sound (s : NetState ι) : Prop where
  tables : ∀ i, cfg.TableSound (s.arp i)
  frames : ∀ f ∈ s.inFlight, cfg.FrameSound f

variable {cfg}

lemma frameSound_iff {m : Mbuf} (hlen : sizeofEtherHdr + sizeofArpHdr ≤ m.dataLen) :
    cfg.FrameSound m.frame ↔
      cfg.Owns (rteBeToCpu32 (m.arpSip sizeofEtherHdr)) (m.arpSha sizeofEtherHdr) := by
  have hfit : sizeofEtherHdr + 28 ≤ m.dataLen := hlen
  have hsha : m.arpSha sizeofEtherHdr = frameArpSha m.frame :=
    Mbuf.load_eq_frameLoad (by omega)
  have hsip : m.arpSip sizeofEtherHdr = frameArpSip m.frame :=
    congrArg le32 (Mbuf.load_eq_frameLoad (by omega))
  rw [hsha, hsip, FrameSound, m.frame_length]
  exact and_iff_right hlen

lemma request_sound {i : ι} {p : Fin maxEthPorts} {pools : MbufPools} {ip : UInt32} {r : Int}
    {es : List PktEffect} (hp : p ∈ cfg.attached i)
    (hrun : twConstructArpPacket (cfg.ports i) pools ip (portByte p) = .ret (r, es)) :
    ∀ f ∈ framesOf es, cfg.FrameSound f := by
  simp only [twConstructArpPacket] at hrun
  split at hrun
  · cases hrun
  · rename_i addr stale _
    rw [portInfo_portByte, Outcome.ret_bind] at hrun
    cases hrun
    have hreq := fillRequest_isRequest (cfg.ports i p) ip addr stale
    intro f hf
    rw [framesOf_addToTxQueue, List.mem_singleton] at hf
    rw [hf, frameSound_iff hreq.dataLen.ge, hreq.arpSip, hreq.arpSha, rteBeToCpu32_rteCpuToBe32]
    exact ⟨i, p, hp, rfl, rfl⟩

/-- A sound frame leaves the receiver's table sound and is answered by a sound frame. -/
lemma deliver_sound {i : ι} {p : Fin maxEthPorts} {pkt : Mbuf} {mem : Malloc (Node ArpEntry)}
    {st st' : ArpState} {r : Int} {es : List PktEffect} (ht : cfg.TableSound st)
    (hf : cfg.FrameSound pkt.frame) (hp : p ∈ cfg.attached i)
    (hrun : twParseArp (cfg.ports i) mem st pkt (portByte p) = .ret (r, st', es)) :
    cfg.TableSound st' ∧ ∀ f ∈ framesOf es, cfg.FrameSound f := by
  obtain ⟨xs, hlist, hown⟩ := ht
  have hlen : sizeofEtherHdr + sizeofArpHdr ≤ pkt.dataLen := pkt.frame_length ▸ hf.1
  have hsender := (frameSound_iff hlen).mp hf
  obtain ⟨rfl, xs', hlist', hl⟩ := twParseArp_inv hlist p hrun
  refine ⟨⟨xs', hlist', fun x hx => ?_⟩, ?_⟩
  · have hb : x.2 ∈ bindings xs' := List.mem_map_of_mem hx
    rw [hl.bindings_eq] at hb
    rcases FirstWins.mem_foldl_learn _ hb with hold | hnew
    · obtain ⟨y, hy, he⟩ := List.mem_map.mp hold
      exact he ▸ hown y hy
    · simp only [taught] at hnew
      split at hnew
      · rw [List.mem_singleton.mp hnew]
        exact hsender
      · cases hnew
  · intro f hmem
    simp only [parseEffects] at hmem
    split at hmem
    · rw [framesOf_addToTxQueue, List.mem_singleton] at hmem
      have hrep := overwriteWithReply_isReply (cfg.ports i p) pkt
      rw [hmem, frameSound_iff (hrep.dataLen ▸ hlen), hrep.arpSip, hrep.arpSha,
        rteBeToCpu32_rteCpuToBe32]
      exact ⟨i, p, hp, rfl, rfl⟩
    · rw [framesOf_free] at hmem
      cases hmem

lemma step_sound [DecidableEq ι] {s s' : NetState ι} (h : cfg.Sound s) (hs : cfg.Step s s') :
    cfg.Sound s' := by
  cases hs with
  | request hp hrun =>
    refine ⟨h.tables, fun f hf => ?_⟩
    rcases List.mem_append.mp hf with hf | hf
    · exact h.frames f hf
    · exact request_sound hp hrun f hf
  | @deliver i p pkt mem r st es hf hp hrun =>
    obtain ⟨htable, hframes⟩ := deliver_sound (h.tables i) (h.frames _ hf) hp hrun
    refine ⟨fun j => ?_, fun f hf => ?_⟩
    · by_cases hj : j = i
      · subst hj
        simpa using htable
      · simpa [hj] using h.tables j
    · rcases List.mem_append.mp hf with hf | hf
      · exact h.frames f hf
      · exact hframes f hf
  | lose => exact ⟨h.tables, fun f hf => h.frames f (List.mem_of_mem_erase hf)⟩

lemma quiet_sound : cfg.Sound quiet :=
  ⟨fun _ => ⟨[], rfl, fun _ hx => nomatch hx⟩, fun _ hf => nomatch hf⟩

lemma Reachable.invariant [DecidableEq ι] {s : NetState ι} {P : NetState ι → Prop}
    (h : cfg.Reachable s) (init : P quiet) (keep : ∀ s s', P s → cfg.Step s s' → P s') : P s := by
  induction h with
  | refl => exact init
  | tail _ hs ih => exact keep _ _ ih hs

theorem arpNetwork_sound [DecidableEq ι] {s : NetState ι} (h : cfg.Reachable s) : cfg.Sound s :=
  h.invariant quiet_sound fun _ _ => step_sound

/-- Two nodes with one port each, 10.10.1.5 and 10.10.1.6. -/
def pair : NetConfig Bool where
  ports i _ := ⟨fun _ => if i then 2 else 1, [], if i then 0x0a0a0106 else 0x0a0a0105, 0, 0⟩
  attached _ := {0}

/-- One has asked for the other, which has answered and knows it now. -/
lemma pair_answered : ∃ s, pair.Reachable s ∧ s.inFlight.length = 2 ∧
    ∃ x, (s.arp true).Lists [x] := by
  let request := fillRequest (pair.ports false 0) 0x0a0a0106 (rtePktmbufAlloc 0 fun _ => 0)
  let pools : MbufPools := ⟨fun _ => 0, fun _ => some (0, fun _ => 0)⟩
  let mem : Malloc (Node ArpEntry) := .bump ⟨⟨0, fun _ => 0, 0⟩, none⟩
  have hpool : pools.txMempool (if pools.rteEthDevSocketId (portByte 0) = -1 then 0
      else pools.rteEthDevSocketId (portByte 0)) = some (0, fun _ => 0) := rfl
  have hreq := twConstructArpPacket_ret (pair.ports false) hpool 0x0a0a0106
  have hask : AsksFor (pair.ports true 0) request :=
    (fillRequest_isRequest (pair.ports false 0) 0x0a0a0106 0 fun _ => 0).asksFor rfl
  have hempty : ArpState.empty.Lists [] := rfl
  have hpick : mem.pick ArpState.empty.heap ≠ none := Option.some_ne_none _
  obtain ⟨st, xs, hrun, hlists, -, hlearns⟩ := twParseArp_ret (pair.ports true) hempty 0
    fun _ : NeedsEntry (pair.ports true 0) [] request => hpick
  have hasked : pair.Step quiet _ := .request (by decide) hreq
  have hanswered : pair.Step ⟨fun _ => ArpState.empty, [request.frame]⟩ _ :=
    .deliver (i := true) (List.mem_singleton_self _) (by decide) hrun
  refine ⟨_, (Relation.ReflTransGen.refl.tail hasked).tail hanswered, ?_, ?_⟩
  · simp [parseEffects, hask]
  · have hteaches : Teaches (pair.ports true 0) request := Or.inr hask
    have hbindings : bindings xs = [stated request (portByte 0)] := by
      rw [hlearns.bindings_eq, taught, if_pos hteaches]
      rfl
    obtain ⟨x, rfl, -⟩ := List.map_eq_singleton_iff.mp hbindings
    exact ⟨x, hlists⟩

theorem arpNetwork_sound_pair :
    ∃ s, pair.Reachable s ∧ s.inFlight.length = 2 ∧ pair.Sound s := by
  obtain ⟨s, hreach, hlen, -⟩ := pair_answered
  exact ⟨s, hreach, hlen, arpNetwork_sound hreach⟩

/-- Delivering a packet on a port of a node in a reachable state returns, with no answer but in
the name of a port of the network, or ends the node for want of memory. It neither faults nor
loops. -/
theorem reachable_deliver [DecidableEq ι] {s : NetState ι} (h : cfg.Reachable s) {i : ι}
    {p : Fin maxEthPorts} (hp : p ∈ cfg.attached i) (pkt : Mbuf) (mem : Malloc (Node ArpEntry)) :
    (∃ st es, twParseArp (cfg.ports i) mem (s.arp i) pkt (portByte p) = .ret (0, st, es) ∧
      ∀ m portId, .addToTxQueue m portId ∈ es →
        cfg.Owns (rteBeToCpu32 (m.arpSip sizeofEtherHdr)) (m.arpSha sizeofEtherHdr)) ∨
      mem.pick (s.arp i).heap = none ∧ twParseArp (cfg.ports i) mem (s.arp i) pkt (portByte p) =
        .exit "CAN'T ALLOCATE ARP TABLE ENTRY\n" := by
  have hsound : cfg.Sound s := h.invariant quiet_sound fun _ _ => step_sound
  obtain ⟨xs, hlist, -⟩ := hsound.tables i
  by_cases hm : NeedsEntry (cfg.ports i p) xs pkt → mem.pick (s.arp i).heap ≠ none
  · obtain ⟨st, -, hrun, -⟩ := twParseArp_ret (cfg.ports i) hlist p hm
    refine Or.inl ⟨st, _, hrun, fun m portId hmem => ?_⟩
    unfold parseEffects at hmem
    split at hmem
    · obtain ⟨rfl, rfl⟩ := PktEffect.addToTxQueue.inj (List.mem_singleton.mp hmem)
      have hreply := overwriteWithReply_isReply (cfg.ports i p) pkt
      rw [hreply.arpSip, hreply.arpSha, rteBeToCpu32_rteCpuToBe32]
      exact ⟨i, p, hp, rfl, rfl⟩
    · cases List.mem_singleton.mp hmem
  · rw [Classical.not_imp, not_not] at hm
    exact Or.inr ⟨hm.2, twParseArp_exit hlist p hm.1 hm.2⟩

theorem reachable_deliver_pair :
    ∃ s x, pair.Reachable s ∧ (s.arp true).Lists [x] ∧
      ∃ st es, twParseArp (pair.ports true) (.bump zeroEntry) (s.arp true)
          (fillRequest (pair.ports false 0) 0x0a0a0106 (rtePktmbufAlloc 0 fun _ => 0))
          (portByte 0) = .ret (0, st, es) ∧
        ∀ m portId, .addToTxQueue m portId ∈ es →
          pair.Owns (rteBeToCpu32 (m.arpSip sizeofEtherHdr)) (m.arpSha sizeofEtherHdr) := by
  obtain ⟨s, hreach, -, x, hlists⟩ := pair_answered
  refine ⟨s, x, hreach, hlists, ?_⟩
  have hattached : (0 : Fin maxEthPorts) ∈ pair.attached true := Finset.mem_singleton_self 0
  exact (reachable_deliver hreach hattached _ (.bump zeroEntry)).resolve_right
    fun h => absurd h.1 (Option.some_ne_none _)

end NetConfig
end Twister
