import Twister.Receive

/-! An application in the event loop. The loop answers and frees ARP packets itself, so what its
callbacks send and what the loop does with the packets it receives are told apart. -/
namespace Twister

section Model
variable {α : Type}

/-- A callback of the application has sent something, the loop is done with a packet that came in
(behind its tags) on a port, or the process has ended with a message. -/
inductive AppEvent (α : Type)
  | sent (x : α)
  | handled (slot : Fin maxEthPorts) (pkt : Mbuf) (e : PktEffect)
  | exits (message : String)

/-- The dispatch of a received packet, for a callback that leaves the ARP table alone. -/
def appReceive (ports : PortTable) (recvCb : TwBuf → List (AppEvent α))
    (mem : Malloc (Node ArpEntry)) (arp : ArpState) (pkt : Mbuf) (slot : Fin maxEthPorts) :
    Outcome (ArpState × List (AppEvent α)) := do
  let pkt ← untag (pkt.dataLen + 1) pkt
  let ethType := rteBeToCpu16 pkt.etherType
  if ethType = etherTypeARP then do
    let (_, arp, es) ← twParseArp ports mem arp pkt (portByte slot)
    .ret (arp, es.map (.handled slot pkt))
  else if ethType = etherTypeIPv4 then
    .ret (arp, recvCb ⟨pkt, pkt.dataOff, UInt16.ofNat pkt.dataLen, slot⟩)
  else .ret (arp, [])

end Model

namespace AppEvent
variable {α : Type} {es : List (AppEvent α)} {ports : PortTable}

def sent? : AppEvent α → Option α
  | sent x => some x
  | handled _ _ _ => none
  | exits _ => none

/-- What the callbacks have sent. -/
def sentOf (es : List (AppEvent α)) : List α := es.filterMap sent?

lemma sentOf_append (es es' : List (AppEvent α)) : sentOf (es ++ es') = sentOf es ++ sentOf es' :=
  List.filterMap_append

lemma sentOf_sent (xs : List α) : sentOf (xs.map sent) = xs := by
  rw [sentOf, List.filterMap_map]
  exact List.filterMap_some

/-- The process has not ended. -/
def Running (es : List (AppEvent α)) : Prop := ∀ message, exits message ∉ es

/-- A received packet is freed, or it asks for the address of its port and goes back there as the
answer. -/
inductive Owed (ports : PortTable) : AppEvent α → Prop
  | frees (slot : Fin maxEthPorts) (pkt : Mbuf) : Owed ports (handled slot pkt (.free pkt))
  | replies {slot : Fin maxEthPorts} {pkt : Mbuf} (hasks : AsksFor (ports slot) pkt) :
      Owed ports (handled slot pkt
        (.addToTxQueue (overwriteWithReply (ports slot) pkt) (portByte slot)))

lemma sentOf_owed (h : ∀ ev ∈ es, ev.Owed ports) : sentOf es = [] := by
  refine List.filterMap_eq_nil_iff.mpr fun ev hev => ?_
  cases h ev hev with
  | frees => rfl
  | replies => rfl

lemma running_append {es' : List (AppEvent α)} :
    Running (es ++ es') ↔ Running es ∧ Running es' := by
  simp only [Running, List.mem_append, not_or, forall_and]

lemma parse_owed (ports : PortTable) (pkt : Mbuf) (slot : Fin maxEthPorts) :
    ∀ ev ∈ (parseEffects (ports slot) pkt (portByte slot)).map (handled (α := α) slot pkt),
      ev.Owed ports := by
  intro ev hev
  unfold parseEffects at hev
  split at hev
  · rename_i hasks
    obtain rfl := List.mem_singleton.mp hev
    exact .replies hasks
  · obtain rfl := List.mem_singleton.mp hev
    exact .frees slot pkt

end AppEvent

section Receive
variable {α : Type} {recvCb : TwBuf → List (AppEvent α)} {arp : ArpState}
  {xs : List (ℕ × ArpEntry)}

/-- The callback frees every IPv4 packet. -/
def Frees (recvCb : TwBuf → List (AppEvent α)) : Prop :=
  ∀ b : TwBuf, b.data = b.pkt.dataOff → rteBeToCpu16 b.pkt.etherType = etherTypeIPv4 →
    recvCb b = [.handled b.portName b.pkt (.free b.pkt)]

/-- A packet that comes in faults on tags that run off its end, ends the process for want of
memory, or is freed or answered by the loop, which can only add to the ARP table. -/
lemma appReceive_cases (ports : PortTable) (hfrees : Frees recvCb) (mem : Malloc (Node ArpEntry))
    (hlists : arp.Lists xs) (pkt : Mbuf) (slot : Fin maxEthPorts) :
    (untag (pkt.dataLen + 1) pkt = .fault ∧
        appReceive ports recvCb mem arp pkt slot = .fault) ∨
      appReceive ports recvCb mem arp pkt slot = .exit "CAN'T ALLOCATE ARP TABLE ENTRY\n" ∨
      ∃ arp' es xs', appReceive ports recvCb mem arp pkt slot = .ret (arp', es) ∧
        arp'.Lists xs' ∧ xs <+: xs' ∧ ∀ ev ∈ es, ev.Owed ports := by
  unfold appReceive
  rcases untag_ret_or_fault (Nat.lt_succ_self pkt.dataLen) with ⟨pkt', hpkt⟩ | hpkt
  · simp only [hpkt, Outcome.ret_bind]
    right
    split
    · by_cases hneeds : NeedsEntry (ports slot) xs pkt' ∧ mem.pick arp.heap = none
      · left
        rw [twParseArp_exit hlists slot hneeds.1 hneeds.2, Outcome.exit_bind]
      · right
        obtain ⟨arp', xs', hret, hlists', -, hlearns⟩ := twParseArp_ret ports hlists slot
          fun hn hnone => hneeds ⟨hn, hnone⟩
        rw [hret, Outcome.ret_bind]
        exact ⟨arp', _, xs', rfl, hlists', hlearns.grows, AppEvent.parse_owed ports pkt' slot⟩
    · right
      split
      · rename_i htype
        have hcb := hfrees ⟨pkt', pkt'.dataOff, UInt16.ofNat pkt'.dataLen, slot⟩ rfl htype
        rw [hcb]
        refine ⟨arp, _, xs, rfl, hlists, List.prefix_rfl, ?_⟩
        exact List.forall_mem_singleton.mpr (.frees slot pkt')
      · exact ⟨arp, [], xs, rfl, hlists, List.prefix_rfl, List.forall_mem_nil _⟩
  · rw [hpkt]
    exact Or.inl ⟨rfl, rfl⟩

lemma appReceive_ret {ports : PortTable} (hfrees : Frees recvCb) {mem : Malloc (Node ArpEntry)}
    (hlists : arp.Lists xs) {pkt : Mbuf} {slot : Fin maxEthPorts} {arp' : ArpState}
    {es : List (AppEvent α)} (h : appReceive ports recvCb mem arp pkt slot = .ret (arp', es)) :
    (∃ xs', arp'.Lists xs' ∧ xs <+: xs') ∧ ∀ ev ∈ es, ev.Owed ports := by
  rcases appReceive_cases ports hfrees mem hlists pkt slot with
    ⟨-, hfault⟩ | hexit | ⟨_, _, xs', hret, hlists', hgrows, howed⟩
  · rw [hfault] at h
    cases h
  · rw [hexit] at h
    cases h
  · obtain ⟨rfl, rfl⟩ := Prod.mk.inj (Outcome.ret.inj (hret.symm.trans h))
    exact ⟨⟨xs', hlists', hgrows⟩, howed⟩

end Receive
end Twister
