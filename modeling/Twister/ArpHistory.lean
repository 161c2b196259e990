import Twister.ArpLogic
import Twister.Run

/-! The ARP table after a whole history of received packets. -/
namespace Twister

/-- A received packet with its port, and an allocator that has memory left. -/
structure ArpArrival where
  pkt : Mbuf
  port : Fin maxEthPorts
  mem : Malloc (Node ArpEntry)
  allocates : ∀ h, mem.pick h ≠ none

def execArp (ports : PortTable) (st : ArpState) (f : ArpArrival) :
    Outcome (ArpState × List PktEffect) := do
  let (_, st, es) ← twParseArp ports f.mem st f.pkt (portByte f.port)
  .ret (st, es)

namespace ArpArrival

def taught (ports : PortTable) (f : ArpArrival) : List ArpEntry :=
  Twister.taught (ports f.port) f.pkt (portByte f.port)

/-- The packet is a reply or a request for its receiver, and its sender has the address. -/
def Binds (ports : PortTable) (ip : UInt32) (f : ArpArrival) : Prop :=
  rteBeToCpu32 (f.pkt.arpSip sizeofEtherHdr) = ip ∧ Teaches (ports f.port) f.pkt

instance (ports : PortTable) (ip : UInt32) : DecidablePred (Binds ports ip) := fun f =>
  inferInstanceAs (Decidable (_ ∧ Teaches (ports f.port) f.pkt))

end ArpArrival

/-- The table is what an association list learns from the history. -/
def Remembers (ports : PortTable) (fs : List ArpArrival) (st : ArpState) : Prop :=
  ∃ xs, st.Lists xs ∧ st.Sized xs ∧ bindings xs =
    (fs.flatMap (ArpArrival.taught ports)).foldl (FirstWins.learn ArpEntry.ipAddr) []

lemma execArp_remembers {ports : PortTable} {fs : List ArpArrival} {st : ArpState}
    (h : Remembers ports fs st) (f : ArpArrival) :
    ∃ st' es, execArp ports st f = .ret (st', es) ∧ Remembers ports (fs ++ [f]) st' := by
  obtain ⟨xs, hlist, hsize, hb⟩ := h
  obtain ⟨st', xs', hrun, hlist', hsize', hl⟩ :=
    twParseArp_ret ports hlist f.port fun _ : NeedsEntry (ports f.port) xs f.pkt =>
      f.allocates st.heap
  refine ⟨st', parseEffects (ports f.port) f.pkt (portByte f.port), ?_, xs', hlist',
    hsize' hsize, ?_⟩
  · simp only [execArp, hrun, Outcome.ret_bind]
  · rw [hl.bindings_eq, hb, List.flatMap_append, List.foldl_append]
    simp [ArpArrival.taught]

lemma lookup_taught (ports : PortTable) (fs : List ArpArrival) (ip : UInt32) :
    FirstWins.lookup ArpEntry.ipAddr (fs.flatMap (ArpArrival.taught ports)) ip =
      (fs.find? fun f => f.Binds ports ip).map fun f =>
        ⟨ip, f.pkt.arpSha sizeofEtherHdr, portByte f.port⟩ := by
  induction fs with
  | nil => rfl
  | cons f fs ih =>
    rw [List.flatMap_cons, FirstWins.lookup_append, ih, List.find?_cons]
    by_cases ht : Teaches (ports f.port) f.pkt
    · have hone : f.taught ports = [stated f.pkt (portByte f.port)] := if_pos ht
      by_cases hip : rteBeToCpu32 (f.pkt.arpSip sizeofEtherHdr) = ip
      · have hb : f.Binds ports ip := ⟨hip, ht⟩
        simp [hone, hb, FirstWins.lookup, stated, hip]
      · have hb : ¬ f.Binds ports ip := fun h => hip h.1
        simp [hone, hb, FirstWins.lookup, stated, hip]
    · have hnil : f.taught ports = [] := if_neg ht
      have hb : ¬ f.Binds ports ip := fun h => ht h.2
      simp [hnil, hb, FirstWins.lookup]

theorem arpTable_firstBinding (ports : PortTable) (fs : List ArpArrival) :
    ∃ st es xs, runOps (execArp ports) ArpState.empty fs = .ret (st, es) ∧ st.Lists xs ∧
      (xs.map fun x => x.2.ipAddr).Nodup ∧ st.arpTableSize.toNat = xs.length % 2 ^ 32 ∧
      ∀ ip, st.entry (rteCpuToBe32 ip) = .ret ((fs.find? fun f => f.Binds ports ip).map fun f =>
          ⟨ip, f.pkt.arpSha sizeofEtherHdr, portByte f.port⟩) ∧
        (twSearchArpTable st (rteCpuToBe32 ip) = .ret none ↔ ∀ f ∈ fs, ¬ f.Binds ports ip) := by
  have hstart : Remembers ports [] ArpState.empty := ⟨[], rfl, rfl, rfl⟩
  have hall : ∃ st es, runOps (execArp ports) ArpState.empty fs = .ret (st, es) ∧
      Remembers ports fs st :=
    run_invariant (J := fun os st _ => Remembers ports os st) hstart
      (fun os s es o h => execArp_remembers h o) fs
  obtain ⟨st, es, hrun, xs, hlist, hsize, hb⟩ := hall
  have hlookup : ∀ ip, entryOf xs ip = (fs.find? fun f => f.Binds ports ip).map fun f =>
      ⟨ip, f.pkt.arpSha sizeofEtherHdr, portByte f.port⟩ := by
    intro ip
    rw [entryOf, hb, FirstWins.lookup_foldl_learn, lookup_taught]
    rfl
  refine ⟨st, es, xs, hrun, hlist, ?_, ?_, fun ip => ⟨?_, ?_⟩⟩
  · have hnodup := FirstWins.foldl_learn_keys_nodup ArpEntry.ipAddr
      (fs.flatMap (ArpArrival.taught ports)) (t := []) List.nodup_nil
    rw [← hb, bindings, List.map_map] at hnodup
    exact hnodup
  · rw [show st.arpTableSize = _ from hsize, UInt32.toNat_ofNat']
  · rw [entry_eq hlist, rteBeToCpu32_rteCpuToBe32, hlookup]
  · obtain ⟨r, hr, hnone⟩ := twSearchArpTable_isNone hlist (rteCpuToBe32 ip)
    rw [rteBeToCpu32_rteCpuToBe32, hlookup] at hnone
    rw [hr, Outcome.ret.injEq, hnone]
    simp [List.find?_eq_none]

end Twister
