import Twister.FirstWins
import Twister.LinkedHeap
import Twister.Mbuf

/-! The ARP table, a linked list that is searched from the root and extended at its
end. Entries hold the address in host order, callers pass it in network order. -/
namespace Twister

structure ArpEntry where
  ipAddr : UInt32
  ethMac : EtherAddr
  portId : UInt8
  deriving DecidableEq

def zeroEntry : Node ArpEntry := ⟨⟨0, fun _ => 0, 0⟩, none⟩

structure ArpState where
  heap : Heap (Node ArpEntry)
  arpTableRoot : Option ℕ
  arpTableSize : UInt32

def twSearchArpTable (st : ArpState) (ipToSearch : UInt32) : Outcome (Option ℕ) :=
  let ipToSearch := rteBeToCpu32 ipToSearch
  findNode st.heap (fun e => e.ipAddr = ipToSearch) (st.heap.top + 1) st.arpTableRoot

def twAddArpEntry (mem : Malloc (Node ArpEntry)) (st : ArpState) (ipToAdd : UInt32)
    (macToAdd : EtherAddr) (portId : UInt8) : Outcome (Int × ArpState) := do
  let (heap, root, arpTablePtr) ← pushBack st.heap st.arpTableRoot mem
  match arpTablePtr with
  | none => .exit "CAN'T ALLOCATE ARP TABLE ENTRY\n"
  | some _ =>
    let heap ← heap.store arpTablePtr ⟨⟨rteBeToCpu32 ipToAdd, macToAdd, portId⟩, none⟩
    .ret (0, ⟨heap, root, st.arpTableSize + 1⟩)

namespace ArpState

def empty : ArpState := ⟨Heap.empty, none, 0⟩

/-- What a caller reads through the pointer that a search returned. -/
def entry (st : ArpState) (ip : UInt32) : Outcome (Option ArpEntry) := do
  match ← twSearchArpTable st ip with
  | none => .ret none
  | some a => do
    let node ← st.heap.load (some a)
    .ret (some node.val)

/-- An entry is read through the pointer that the search found. -/
lemma entry_eq_some {st : ArpState} {ip : UInt32} {e : ArpEntry} :
    st.entry ip = .ret (some e) ↔ ∃ a node, twSearchArpTable st ip = .ret (some a) ∧
      st.heap.load (some a) = .ret node ∧ node.val = e := by
  unfold ArpState.entry
  rw [Outcome.bind_eq_ret]
  constructor
  · rintro ⟨found, hfound, h⟩
    cases found with
    | none => cases h
    | some a =>
      obtain ⟨node, hnode, he⟩ := Outcome.bind_eq_ret.mp h
      exact ⟨a, node, hfound, hnode, by simpa using he⟩
  · rintro ⟨a, node, hfound, hnode, rfl⟩
    exact ⟨some a, hfound, Outcome.bind_eq_ret.mpr ⟨node, hnode, rfl⟩⟩

/-- The table is the null-terminated list `xs`. -/
def Lists (st : ArpState) (xs : List (ℕ × ArpEntry)) : Prop :=
  Chain st.heap st.arpTableRoot xs none

def Sized (st : ArpState) (xs : List (ℕ × ArpEntry)) : Prop :=
  st.arpTableSize = UInt32.ofNat xs.length

end ArpState

def bindings (xs : List (ℕ × ArpEntry)) : List ArpEntry := xs.map Prod.snd

def entryOf (xs : List (ℕ × ArpEntry)) (ip : UInt32) : Option ArpEntry :=
  FirstWins.lookup ArpEntry.ipAddr (bindings xs) ip

section Refinement
variable {st : ArpState} {xs : List (ℕ × ArpEntry)} {mem : Malloc (Node ArpEntry)}

lemma entryOf_eq (xs : List (ℕ × ArpEntry)) (ip : UInt32) :
    entryOf xs ip = (xs.find? fun x => x.2.ipAddr = ip).map Prod.snd := by
  simp only [entryOf, FirstWins.lookup, bindings, List.find?_map]
  rfl

lemma twSearchArpTable_eq (h : st.Lists xs) (ip : UInt32) :
    twSearchArpTable st ip =
      .ret ((xs.find? fun x => x.2.ipAddr = rteBeToCpu32 ip).map Prod.fst) :=
  findNode_spec _ h (Nat.lt_succ_of_le (Chain.length_le_top h))

lemma twSearchArpTable_isNone (h : st.Lists xs) (ip : UInt32) :
    ∃ r, twSearchArpTable st ip = .ret r ∧ (r = none ↔ entryOf xs (rteBeToCpu32 ip) = none) :=
  ⟨_, twSearchArpTable_eq h ip, by simp [entryOf_eq]⟩

theorem entry_eq (h : st.Lists xs) (ip : UInt32) :
    st.entry ip = .ret (entryOf xs (rteBeToCpu32 ip)) := by
  rw [ArpState.entry, twSearchArpTable_eq h, entryOf_eq]
  cases hf : xs.find? fun x => x.2.ipAddr = rteBeToCpu32 ip with
  | none => rfl
  | some x =>
    obtain ⟨n, hn⟩ := Chain.live h (List.mem_of_find?_eq_some hf)
    simp [Heap.load_some hn]

lemma twAddArpEntry_none (h : st.Lists xs) (hm : mem.pick st.heap = none) (ip : UInt32)
    (mac : EtherAddr) (portId : UInt8) :
    twAddArpEntry mem st ip mac portId = .exit "CAN'T ALLOCATE ARP TABLE ENTRY\n" := by
  obtain ⟨heap, hpush, -⟩ := pushBack_none h hm
  simp [twAddArpEntry, hpush]

lemma twAddArpEntry_some {a : ℕ} {junk : Node ArpEntry} (h : st.Lists xs)
    (hm : mem.pick st.heap = some (a, junk)) (ip : UInt32) (mac : EtherAddr) (portId : UInt8) :
    ∃ st', twAddArpEntry mem st ip mac portId = .ret (0, st') ∧
      st'.Lists (xs ++ [(a, ⟨rteBeToCpu32 ip, mac, portId⟩)]) ∧
      st'.arpTableSize = st.arpTableSize + 1 := by
  obtain ⟨heap, root, hpush, hcell, hchain⟩ := pushBack_some h hm
  refine ⟨⟨heap.write a ⟨⟨rteBeToCpu32 ip, mac, portId⟩, none⟩, root, st.arpTableSize + 1⟩, ?_,
    hchain _, rfl⟩
  simp only [twAddArpEntry, hpush, Outcome.ret_bind, Heap.store_some _ hcell]

/-- `xs'` is what the list becomes when it learns the entries in order. -/
structure Learns (xs xs' : List (ℕ × ArpEntry)) (es : List ArpEntry) : Prop where
  grows : xs <+: xs'
  bindings_eq : bindings xs' = es.foldl (FirstWins.learn ArpEntry.ipAddr) (bindings xs)

/-- An address that is bound is found and keeps its binding, another one can be
added. Both callers of the insertion guard it this way. -/
lemma search_or_add (mem : Malloc (Node ArpEntry)) (h : st.Lists xs) (sip : UInt32)
    (sha : EtherAddr) (portId : UInt8) :
    (∃ a, twSearchArpTable st sip = .ret (some a) ∧
      entryOf xs (rteBeToCpu32 sip) ≠ none ∧
      Learns xs xs [⟨rteBeToCpu32 sip, sha, portId⟩]) ∨
    (twSearchArpTable st sip = .ret none ∧ entryOf xs (rteBeToCpu32 sip) = none ∧
      (mem.pick st.heap ≠ none → ∃ st' xs', twAddArpEntry mem st sip sha portId = .ret (0, st') ∧
        st'.Lists xs' ∧ (st.Sized xs → st'.Sized xs') ∧
        Learns xs xs' [⟨rteBeToCpu32 sip, sha, portId⟩])) := by
  obtain ⟨r, hr, hnone⟩ := twSearchArpTable_isNone h sip
  cases r with
  | some a =>
    have hb : entryOf xs (rteBeToCpu32 sip) ≠ none := fun he => by simpa using hnone.mpr he
    obtain ⟨b, he⟩ := Option.ne_none_iff_exists'.mp hb
    have hkeep := FirstWins.learn_known ArpEntry.ipAddr
      (e := ⟨rteBeToCpu32 sip, sha, portId⟩) he
    exact Or.inl ⟨a, hr, hb, List.prefix_rfl, hkeep.symm⟩
  | none =>
    refine Or.inr ⟨hr, hnone.mp rfl, fun hm => ?_⟩
    obtain ⟨⟨a, junk⟩, hpick⟩ := Option.ne_none_iff_exists'.mp hm
    obtain ⟨st', hadd, hlist, hsize⟩ := twAddArpEntry_some h hpick sip sha portId
    refine ⟨st', _, hadd, hlist, fun hs => ?_, List.prefix_append _ _, ?_⟩
    · simp [ArpState.Sized, hsize, show st.arpTableSize = _ from hs]
    · have hnew := FirstWins.learn_new ArpEntry.ipAddr
        (e := ⟨rteBeToCpu32 sip, sha, portId⟩) (hnone.mp rfl)
      rw [List.foldl_cons, List.foldl_nil, hnew]
      simp [bindings]

lemma Learns.new {xs' : List (ℕ × ArpEntry)} {e : ArpEntry} (hl : Learns xs xs' [e])
    (hnone : entryOf xs e.ipAddr = none) :
    ∃ a, xs' = xs ++ [(a, e)] ∧ entryOf xs' e.ipAddr = some e := by
  have hb : bindings xs' = bindings xs ++ [e] := by
    rw [hl.bindings_eq, List.foldl_cons, List.foldl_nil, FirstWins.learn_new _ hnone]
  obtain ⟨zs, rfl⟩ := hl.grows
  have hz : zs.map Prod.snd = [e] := by simpa [bindings] using hb
  obtain ⟨⟨a, e'⟩, rfl, rfl⟩ := List.map_eq_singleton_iff.mp hz
  refine ⟨a, rfl, ?_⟩
  rw [entryOf, hb, FirstWins.lookup_append,
    show FirstWins.lookup _ (bindings xs) _ = none from hnone]
  simp [FirstWins.lookup]

end Refinement
end Twister
