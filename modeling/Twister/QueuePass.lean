import Twister.QueuedPkts

/-! One pass over the pending queue. Each packet has expired, is resolved or waits;
the pass is described by these fates alone. -/
namespace Twister

inductive Fate
  | expired
  | resolved (ethMac : EtherAddr)
  | waiting

namespace Fate

def isWaiting : Fate → Bool
  | waiting => true
  | _ => false

def isResolved : Fate → Bool
  | resolved _ => true
  | _ => false

/-- By how much the pass lowers the counter. -/
def charge : Fate → UInt32
  | expired => 1
  | resolved _ => 2
  | waiting => 0

def effects (q : QueuedPkt) : Fate → List PktEffect
  | expired => [.free q.pkt]
  | resolved ethMac => [.addToTxQueue (q.pkt.setDAddr ethMac) q.portId.toUInt8]
  | waiting => []

end Fate

/-- `ys` is the ARP table. -/
def fate (lim : QueueLimits) (ys : List (ℕ × ArpEntry)) (now : UInt64) (q : QueuedPkt) : Fate :=
  if timeDiff now q.timercycle lim.oneSec < lim.queuedPktTimeLimit then
    match entryOf ys (rteBeToCpu32 q.arpIp) with
    | some e => .resolved e.ethMac
    | none => .waiting
  else .expired

def QueueState.Lists (st : QueueState) (xs : List (ℕ × QueuedPkt)) : Prop :=
  Chain st.heap st.rootQueuedPkt xs none

section Delete
variable {st : QueueState} {kept rest : List (ℕ × QueuedPkt)} {c : ℕ} {q : QueuedPkt}

/-- Deleting behind the root cursor keeps the first node and what follows the
deleted one. -/
lemma twDeleteQueuedPkt_spec (h : st.Lists (kept ++ (c, q) :: rest)) :
    ∃ st' next, twDeleteQueuedPkt st st.rootQueuedPkt (some c) =
        .ret (st', st'.rootQueuedPkt, next) ∧
      st'.Lists (kept.take 1 ++ rest) ∧ Chain st'.heap next rest none ∧
      st'.totalQueuedPkts = st.totalQueuedPkts - 1 := by
  obtain ⟨n, hn⟩ := Chain.live h (x := (c, q)) (by simp)
  -- with nothing in front the node is the root, and the root pointer moves instead
  cases kept with
  | nil =>
    have hroot : some c = st.rootQueuedPkt := h.1.symm
    have htail := Chain.tail h hn
    refine ⟨⟨st.heap.release c, n, st.totalQueuedPkts - 1⟩, n, ?_, htail, htail, rfl⟩
    simp [twDeleteQueuedPkt, Heap.load_some hn, ← hroot, Heap.free_some hn]
  | cons x mid =>
    obtain ⟨r, v⟩ := x
    have hroot : st.rootQueuedPkt = some r := h.1
    obtain ⟨k, hk⟩ := Chain.live h (x := (r, v)) (by simp)
    have hrc : c ≠ r := by
      have hnd := Chain.nodup h
      simp only [List.cons_append, List.map_cons, List.nodup_cons, List.map_append] at hnd
      exact fun he => hnd.1 (by simp [he])
    have hcut := Chain.cut [] h hn
    have hfree : (st.heap.write r ⟨v, n⟩).cell c = some ⟨q, n⟩ := by
      rw [Heap.write_cell_ne _ _ hrc, hn]
    refine ⟨⟨(st.heap.write r ⟨v, n⟩).release c, some r, st.totalQueuedPkts - 1⟩, n,
      ?_, ?_, ?_, rfl⟩
    · simp [twDeleteQueuedPkt, Heap.load_some hn, hroot, hrc, Heap.load_some hk,
        Heap.store_some _ hk, Heap.free_some hfree]
    · simpa [QueueState.Lists, hroot] using hcut
    · obtain ⟨_, m, hm, hrest⟩ := hcut
      have hrc' : r ≠ c := hrc.symm
      rw [Heap.release_cell_ne _ hrc', Heap.write_cell_self] at hm
      obtain rfl : n = m := by simpa using hm
      exact hrest

lemma twSendQueuedPkt_spec (h : st.Lists (kept ++ (c, q) :: rest)) (ethMac : EtherAddr) :
    ∃ st' next, twSendQueuedPkt st st.rootQueuedPkt (some c) ethMac =
        .ret (st', st'.rootQueuedPkt, next, Fate.effects q (.resolved ethMac)) ∧
      st'.Lists (kept.take 1 ++ rest) ∧ Chain st'.heap next rest none ∧
      st'.totalQueuedPkts = st.totalQueuedPkts - 2 := by
  obtain ⟨n, hn⟩ := Chain.live h (x := (c, q)) (by simp)
  obtain ⟨st', next, hdel, hlist, hrest, htotal⟩ := twDeleteQueuedPkt_spec h
  refine ⟨⟨st'.heap, st'.rootQueuedPkt, st'.totalQueuedPkts - 1⟩, next, ?_, hlist, hrest, ?_⟩
  · simp [twSendQueuedPkt, Heap.load_some hn, hdel, Fate.effects]
  · simp only [htotal]
    rw [sub_sub]
    rfl

end Delete

section Pass
variable {lim : QueueLimits} {arp : ArpState} {ys : List (ℕ × ArpEntry)} {now : UInt64}
  {st : QueueState} {xs : List (ℕ × QueuedPkt)}

def waits (lim : QueueLimits) (ys : List (ℕ × ArpEntry)) (now : UInt64) (x : ℕ × QueuedPkt) :
    Bool := (fate lim ys now x.2).isWaiting

def passEffects (lim : QueueLimits) (ys : List (ℕ × ArpEntry)) (now : UInt64)
    (xs : List (ℕ × QueuedPkt)) : List PktEffect :=
  xs.flatMap fun x => (fate lim ys now x.2).effects x.2

def passCharge (lim : QueueLimits) (ys : List (ℕ × ArpEntry)) (now : UInt64)
    (xs : List (ℕ × QueuedPkt)) : UInt32 :=
  (xs.map fun x => (fate lim ys now x.2).charge).sum

lemma passEffects_cons (x : ℕ × QueuedPkt) (xs : List (ℕ × QueuedPkt)) :
    passEffects lim ys now (x :: xs) =
      (fate lim ys now x.2).effects x.2 ++ passEffects lim ys now xs := rfl

lemma passCharge_cons (x : ℕ × QueuedPkt) (xs : List (ℕ × QueuedPkt)) :
    passCharge lim ys now (x :: xs) = (fate lim ys now x.2).charge + passCharge lim ys now xs := by
  simp [passCharge]

lemma fate_of_search (harp : arp.Lists ys) (q : QueuedPkt)
    (hfresh : timeDiff now q.timercycle lim.oneSec < lim.queuedPktTimeLimit) :
    (twSearchArpTable arp q.arpIp = .ret none ∧ fate lim ys now q = .waiting) ∨
    ∃ a node, twSearchArpTable arp q.arpIp = .ret (some a) ∧ arp.heap.load (some a) = .ret node ∧
      fate lim ys now q = .resolved node.val.ethMac := by
  rw [twSearchArpTable_eq harp]
  simp only [fate, if_pos hfresh, entryOf_eq]
  cases hf : ys.find? fun x => x.2.ipAddr = rteBeToCpu32 q.arpIp with
  | none => exact Or.inl ⟨rfl, rfl⟩
  | some y =>
    obtain ⟨n, hn⟩ := Chain.live harp (List.mem_of_find?_eq_some hf)
    exact Or.inr ⟨y.1, ⟨y.2, n⟩, rfl, Heap.load_some hn, rfl⟩

/-- One round of the loop at the node `(c, q)`, with the trailing cursor on the root:
the list in front of the next node is that of the sweep. -/
lemma updateLoop_step (lim : QueueLimits) (now : UInt64) (harp : arp.Lists ys) (fuel : ℕ) {c : ℕ}
    {q : QueuedPkt} {kept rest : List (ℕ × QueuedPkt)} (h : st.Lists (kept ++ (c, q) :: rest))
    (hcurr : Chain st.heap (some c) ((c, q) :: rest) none) :
    ∃ st₁ next, updateLoop lim arp now (fuel + 1) st st.rootQueuedPkt (some c) = (do
        let r ← updateLoop lim arp now fuel st₁ st₁.rootQueuedPkt next
        .ret (r.1, (fate lim ys now q).effects q ++ r.2)) ∧
      st₁.Lists (RootSweep.step (waits lim ys now) kept (c, q) ++ rest) ∧
      Chain st₁.heap next rest none ∧
      st₁.totalQueuedPkts = st.totalQueuedPkts - (fate lim ys now q).charge := by
  obtain ⟨-, n, hn, hnext⟩ := hcurr
  simp only [updateLoop, Heap.load_some hn, Outcome.ret_bind, twGetTimeDiff_ret lim.oneSec_ne]
  by_cases hfresh : timeDiff now q.timercycle lim.oneSec < lim.queuedPktTimeLimit
  · rw [if_pos hfresh]
    rcases fate_of_search harp q hfresh with ⟨hs, hfate⟩ | ⟨a, node, hs, hload, hfate⟩
    · have hw : waits lim ys now (c, q) = true := by simp [waits, hfate, Fate.isWaiting]
      refine ⟨st, n, ?_, ?_, hnext, by simp [hfate, Fate.charge]⟩
      · simp [hs, hfate, Fate.effects]
      · simpa [RootSweep.step, hw] using h
    · have hw : waits lim ys now (c, q) = false := by simp [waits, hfate, Fate.isWaiting]
      obtain ⟨st₁, next, hsend, hlist, hrest, htotal⟩ := twSendQueuedPkt_spec h node.val.ethMac
      refine ⟨st₁, next, ?_, ?_, hrest, by rw [htotal, hfate, Fate.charge]⟩
      · simp only [hs, Outcome.ret_bind, hload, hsend, hfate]
      · simpa [RootSweep.step, hw] using hlist
  · have hfate : fate lim ys now q = .expired := by simp [fate, hfresh]
    have hw : waits lim ys now (c, q) = false := by simp [waits, hfate, Fate.isWaiting]
    obtain ⟨st₁, next, hdel, hlist, hrest, htotal⟩ := twDeleteQueuedPkt_spec h
    rw [if_neg hfresh]
    refine ⟨st₁, next, ?_, ?_, hrest, by rw [htotal, hfate, Fate.charge]⟩
    · simp only [hdel, Outcome.ret_bind, hfate]
      rfl
    · simpa [RootSweep.step, hw] using hlist

lemma updateLoop_spec (lim : QueueLimits) (now : UInt64) (harp : arp.Lists ys) {fuel : ℕ}
    (kept : List (ℕ × QueuedPkt)) {rest : List (ℕ × QueuedPkt)} {curr : Option ℕ}
    (h : st.Lists (kept ++ rest)) (hcurr : Chain st.heap curr rest none)
    (hf : rest.length < fuel) :
    ∃ st', updateLoop lim arp now fuel st st.rootQueuedPkt curr =
        .ret (st', passEffects lim ys now rest) ∧
      st'.Lists (RootSweep.sweep (waits lim ys now) kept rest) ∧
      st'.totalQueuedPkts = st.totalQueuedPkts - passCharge lim ys now rest := by
  induction rest generalizing st kept curr fuel with
  | nil =>
    obtain rfl : curr = none := hcurr
    obtain ⟨fuel, rfl⟩ := Nat.exists_eq_add_of_lt hf
    exact ⟨st, by simp [updateLoop, passEffects], by simpa [RootSweep.sweep] using h,
      by simp [passCharge]⟩
  | cons x rest ih =>
    obtain ⟨c, q⟩ := x
    obtain rfl : curr = some c := hcurr.1
    obtain ⟨fuel, rfl⟩ : ∃ k, fuel = k + 1 := ⟨fuel - 1, by omega⟩
    obtain ⟨st₁, next, hstep, hlist₁, hrest, htotal₁⟩ :=
      updateLoop_step lim now harp fuel h hcurr
    obtain ⟨st', hrun, hlist, htotal⟩ := ih _ hlist₁ hrest (by simpa using hf)
    refine ⟨st', ?_, hlist, ?_⟩
    · rw [hstep, hrun, Outcome.ret_bind, passEffects_cons]
    · rw [htotal, htotal₁, passCharge_cons, sub_sub]

/-- The pass terminates; its effects and its charge are those of the fates, and its
list is the sweep. -/
theorem twUpdateQueuedPkts_spec (lim : QueueLimits) (now : UInt64) (harp : arp.Lists ys)
    (h : st.Lists xs) :
    ∃ st', twUpdateQueuedPkts lim arp now st = .ret (0, st', passEffects lim ys now xs) ∧
      st'.Lists (RootSweep.sweep (waits lim ys now) [] xs) ∧
      st'.totalQueuedPkts = st.totalQueuedPkts - passCharge lim ys now xs := by
  obtain ⟨st', hrun, hlist, htotal⟩ := updateLoop_spec lim now harp [] h h
    (Nat.lt_succ_of_le (Chain.length_le_top h))
  exact ⟨st', by simp only [twUpdateQueuedPkts, hrun, Outcome.ret_bind], hlist, htotal⟩

/-- The one effect that ends the life of a queued packet of that fate. A packet leaves
on the port its node names. -/
def Disposes (lim : QueueLimits) (ys : List (ℕ × ArpEntry)) (now : UInt64) (x : ℕ × QueuedPkt)
    (e : PktEffect) : Prop :=
  match fate lim ys now x.2 with
  | .expired => e = .free x.2.pkt
  | .resolved ethMac => ∃ portId, e = .addToTxQueue (x.2.pkt.setDAddr ethMac) portId ∧
      portId.toNat = x.2.portId.toNat
  | .waiting => False

/-- The waiting nodes stay, in order; every other packet is disposed of once, in
order, and nothing else happens. -/
structure ExactPass (lim : QueueLimits) (ys : List (ℕ × ArpEntry)) (now : UInt64)
    (xs : List (ℕ × QueuedPkt)) (st' : QueueState) (es : List PktEffect) : Prop where
  remaining : st'.Lists (xs.filter (waits lim ys now))
  disposed : List.Forall₂ (Disposes lim ys now) (xs.filter fun x => !waits lim ys now x) es

def PortsFit (lim : QueueLimits) (ys : List (ℕ × ArpEntry)) (now : UInt64)
    (xs : List (ℕ × QueuedPkt)) : Prop :=
  ∀ x ∈ xs, (fate lim ys now x.2).isResolved → x.2.portId.toNat < 256

lemma passEffects_disposed_iff (xs : List (ℕ × QueuedPkt)) :
    List.Forall₂ (Disposes lim ys now) (xs.filter fun x => !waits lim ys now x)
      (passEffects lim ys now xs) ↔ PortsFit lim ys now xs := by
  induction xs with
  | nil => simp [passEffects, PortsFit]
  | cons x xs ih =>
    rw [passEffects_cons]
    have hrest : PortsFit lim ys now (x :: xs) ↔
        ((fate lim ys now x.2).isResolved → x.2.portId.toNat < 256) ∧ PortsFit lim ys now xs := by
      simp [PortsFit]
    rw [hrest, ← ih]
    cases hx : fate lim ys now x.2 with
    | waiting =>
      have hw : waits lim ys now x = true := by simp [waits, hx, Fate.isWaiting]
      simp [hw, Fate.effects, Fate.isResolved]
    | expired =>
      have hw : waits lim ys now x = false := by simp [waits, hx, Fate.isWaiting]
      simp [hw, Fate.effects, Fate.isResolved, Disposes, hx]
    | resolved ethMac =>
      have hw : waits lim ys now x = false := by simp [waits, hx, Fate.isWaiting]
      simp [hw, Fate.effects, Fate.isResolved, Disposes, hx]

theorem updatePass_exact_iff (lim : QueueLimits) (now : UInt64) (harp : arp.Lists ys) (h : st.Lists xs) :
    ∃ st' es, twUpdateQueuedPkts lim arp now st = .ret (0, st', es) ∧
      (ExactPass lim ys now xs st' es ↔
        RootSweep.stranded (waits lim ys now) false xs = [] ∧ PortsFit lim ys now xs) := by
  obtain ⟨st', hrun, hlist, -⟩ := twUpdateQueuedPkts_spec lim now harp h
  refine ⟨st', _, hrun, ?_⟩
  rw [← RootSweep.sweep_eq_filter_iff, ← passEffects_disposed_iff]
  constructor
  · intro hp
    exact ⟨Chain.unique hlist hp.remaining, hp.disposed⟩
  · intro hp
    exact ⟨hp.1 ▸ hlist, hp.2⟩

end Pass

section Instances

def tenSeconds : QueueLimits := ⟨1, by decide, 10⟩

def queuedAt (timercycle : UInt64) : QueuedPkt :=
  ⟨rtePktmbufAlloc 0 fun _ => 0, timercycle, 0x0101a8c0, 0⟩

def twoQueued : QueueState where
  heap := (Heap.empty.write 0 ⟨queuedAt 95, some 1⟩).write 1 ⟨queuedAt 0, none⟩
  rootQueuedPkt := some 0
  totalQueuedPkts := 2

lemma twoQueued_lists : twoQueued.Lists [(0, queuedAt 95), (1, queuedAt 0)] :=
  ⟨rfl, some 1, rfl, rfl, none, rfl, rfl⟩

theorem updatePass_exact_twoQueued :
    ∃ st' es, twUpdateQueuedPkts tenSeconds ArpState.empty 100 twoQueued = .ret (0, st', es) ∧
      ExactPass tenSeconds [] 100 [(0, queuedAt 95), (1, queuedAt 0)] st' es := by
  have hempty : ArpState.empty.Lists [] := rfl
  obtain ⟨st', es, hrun, hiff⟩ := updatePass_exact_iff tenSeconds 100 hempty twoQueued_lists
  exact ⟨st', es, hrun, hiff.mpr ⟨rfl, by simp [PortsFit, queuedAt]⟩⟩

def threeQueued : QueueState where
  heap := ((Heap.empty.write 0 ⟨queuedAt 95, some 1⟩).write 1 ⟨queuedAt 95, some 2⟩).write 2
    ⟨queuedAt 0, none⟩
  rootQueuedPkt := some 0
  totalQueuedPkts := 3

/-- The second packet still waits, but the deletion of the third unlinks it. -/
theorem updatePass_strands_second :
    threeQueued.Lists [(0, queuedAt 95), (1, queuedAt 95), (2, queuedAt 0)] ∧
    ∃ st' es, twUpdateQueuedPkts tenSeconds ArpState.empty 100 threeQueued = .ret (0, st', es) ∧
      ¬ ExactPass tenSeconds [] 100 [(0, queuedAt 95), (1, queuedAt 95), (2, queuedAt 0)] st' es := by
  have hlists : threeQueued.Lists [(0, queuedAt 95), (1, queuedAt 95), (2, queuedAt 0)] :=
    ⟨rfl, some 1, rfl, rfl, some 2, rfl, rfl, none, rfl, rfl⟩
  have hempty : ArpState.empty.Lists [] := rfl
  obtain ⟨st', hrun, hlist, -⟩ := twUpdateQueuedPkts_spec tenSeconds 100 hempty hlists
  refine ⟨hlists, st', _, hrun, fun hp => ?_⟩
  have hlen := congrArg List.length (Chain.unique hlist hp.remaining)
  revert hlen
  decide

end Instances
end Twister
