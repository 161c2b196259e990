import Twister.QueuePass
import Twister.Run

/-! Runs of the pending queue: packets are added and passes are made in any order,
and the counter is compared with the list after every call. -/
namespace Twister

/-- A well-formed ARP table and its entries. -/
structure ArpSnapshot where
  table : ArpState
  entries : List (ℕ × ArpEntry)
  lists : table.Lists entries

inductive QueueOp
  | add (pkt : Mbuf) (arpIp : UInt32) (portId : UInt16) (clock : UInt64)
      (mem : Malloc (Node QueuedPkt))
  | update (now : UInt64) (arp : ArpSnapshot)

def execQueue (lim : QueueLimits) (st : QueueState) : QueueOp → Outcome (QueueState × List PktEffect)
  | .add pkt arpIp portId clock mem => do
    let (_, st, es) ← twAddPktToQueue mem clock st pkt arpIp portId
    .ret (st, es)
  | .update now arp => do
    let (_, st, es) ← twUpdateQueuedPkts lim arp.table now st
    .ret (st, es)

def emptyQueue : QueueState := ⟨Heap.empty, none, 0⟩

/-- The counter is the length of the list, which keeps to its limit, and a queue with
room takes a packet whenever a node can be allocated. -/
structure CounterOk (st : QueueState) (xs : List (ℕ × QueuedPkt)) : Prop where
  lists : st.Lists xs
  counted : st.totalQueuedPkts.toNat = xs.length
  bounded : xs.length ≤ maxQueuedPkts.toNat
  room : xs.length < maxQueuedPkts.toNat → ∀ mem clock pkt arpIp portId,
    mem.pick st.heap ≠ none → ∃ st', twAddPktToQueue mem clock st pkt arpIp portId =
      .ret (0, st', [])

section Add
variable {st : QueueState} {xs : List (ℕ × QueuedPkt)} {mem : Malloc (Node QueuedPkt)}

lemma twAddPktToQueue_full (hfull : st.totalQueuedPkts ≥ maxQueuedPkts) (clock : UInt64)
    (pkt : Mbuf) (arpIp : UInt32) (portId : UInt16) :
    twAddPktToQueue mem clock st pkt arpIp portId = .ret (-1, st, [.free pkt]) := if_pos hfull

lemma twAddPktToQueue_none (h : st.Lists xs) (hroom : ¬ st.totalQueuedPkts ≥ maxQueuedPkts)
    (hm : mem.pick st.heap = none) (clock : UInt64) (pkt : Mbuf) (arpIp : UInt32)
    (portId : UInt16) :
    ∃ st', twAddPktToQueue mem clock st pkt arpIp portId = .ret (-1, st', []) ∧
      st'.Lists xs ∧ st'.totalQueuedPkts = st.totalQueuedPkts := by
  obtain ⟨heap, hpush, hchain⟩ := pushBack_none h hm
  refine ⟨⟨heap, st.rootQueuedPkt, st.totalQueuedPkts⟩, ?_, hchain, rfl⟩
  simp only [twAddPktToQueue, if_neg hroom, hpush, Outcome.ret_bind]

lemma twAddPktToQueue_some {a : ℕ} {junk : Node QueuedPkt} (h : st.Lists xs)
    (hroom : ¬ st.totalQueuedPkts ≥ maxQueuedPkts) (hm : mem.pick st.heap = some (a, junk))
    (clock : UInt64) (pkt : Mbuf) (arpIp : UInt32) (portId : UInt16) :
    ∃ st', twAddPktToQueue mem clock st pkt arpIp portId = .ret (0, st', []) ∧
      st'.Lists (xs ++ [(a, ⟨pkt, clock, rteCpuToBe32 arpIp, portId⟩)]) ∧
      st'.totalQueuedPkts = st.totalQueuedPkts + 1 := by
  obtain ⟨heap, root, hpush, hcell, hchain⟩ := pushBack_some h hm
  refine ⟨⟨heap.write a ⟨⟨pkt, clock, rteCpuToBe32 arpIp, portId⟩, none⟩, root,
    st.totalQueuedPkts + 1⟩, ?_, hchain _, rfl⟩
  simp only [twAddPktToQueue, if_neg hroom, hpush, Outcome.ret_bind, Heap.store_some _ hcell]

lemma counter_has_room (hc : st.totalQueuedPkts.toNat = xs.length)
    (hroom : xs.length < maxQueuedPkts.toNat) : ¬ st.totalQueuedPkts ≥ maxQueuedPkts := by
  intro hge
  have hle : maxQueuedPkts.toNat ≤ st.totalQueuedPkts.toNat := UInt32.le_iff_toNat_le.mp hge
  omega

lemma CounterOk.of_counted (h : st.Lists xs) (hc : st.totalQueuedPkts.toNat = xs.length)
    (hb : xs.length ≤ maxQueuedPkts.toNat) : CounterOk st xs where
  lists := h
  counted := hc
  bounded := hb
  room := by
    intro hroom mem clock pkt arpIp portId hm
    obtain ⟨⟨a, junk⟩, hpick⟩ := Option.ne_none_iff_exists'.mp hm
    obtain ⟨st', hadd, -⟩ := twAddPktToQueue_some h (counter_has_room hc hroom) hpick clock pkt
      arpIp portId
    exact ⟨st', hadd⟩

lemma execQueue_add (lim : QueueLimits) (h : st.Lists xs) (pkt : Mbuf) (arpIp : UInt32)
    (portId : UInt16) (clock : UInt64) (mem : Malloc (Node QueuedPkt)) :
    ∃ st' es xs', execQueue lim st (.add pkt arpIp portId clock mem) = .ret (st', es) ∧
      st'.Lists xs' ∧ (CounterOk st xs → CounterOk st' xs') := by
  by_cases hfull : st.totalQueuedPkts ≥ maxQueuedPkts
  · exact ⟨st, [.free pkt], xs, by simp [execQueue, twAddPktToQueue_full hfull], h, id⟩
  · cases hm : mem.pick st.heap with
    | none =>
      obtain ⟨st', hadd, hlist, htotal⟩ := twAddPktToQueue_none h hfull hm clock pkt arpIp portId
      refine ⟨st', [], xs, by simp [execQueue, hadd], hlist, fun hok => ?_⟩
      exact .of_counted hlist (by rw [htotal, hok.counted]) hok.bounded
    | some block =>
      obtain ⟨a, junk⟩ := block
      obtain ⟨st', hadd, hlist, htotal⟩ := twAddPktToQueue_some h hfull hm clock pkt arpIp portId
      refine ⟨st', [], _, by simp [execQueue, hadd], hlist, fun hok => ?_⟩
      have hlt : st.totalQueuedPkts.toNat < maxQueuedPkts.toNat :=
        Nat.lt_of_not_le fun hle => hfull (UInt32.le_iff_toNat_le.mpr hle)
      have hmax : maxQueuedPkts.toNat = 1024 := rfl
      have hcount := hok.counted
      have hsum : (st.totalQueuedPkts + 1).toNat = st.totalQueuedPkts.toNat + 1 := by
        rw [UInt32.toNat_add]
        simp
        omega
      refine .of_counted hlist ?_ ?_
      · simp only [htotal, hsum, hcount, List.length_append, List.length_singleton]
      · simp only [List.length_append, List.length_singleton]
        omega

end Add

section Update
variable {lim : QueueLimits} {ys : List (ℕ × ArpEntry)} {now : UInt64}

def resolves (lim : QueueLimits) (ys : List (ℕ × ArpEntry)) (now : UInt64) (x : ℕ × QueuedPkt) :
    Bool := (fate lim ys now x.2).isResolved

lemma passCharge_add (lim : QueueLimits) (ys : List (ℕ × ArpEntry)) (now : UInt64)
    (xs : List (ℕ × QueuedPkt)) :
    passCharge lim ys now xs + UInt32.ofNat (xs.filter (waits lim ys now)).length =
      UInt32.ofNat (xs.length + xs.countP (resolves lim ys now)) := by
  induction xs with
  | nil => rfl
  | cons x xs ih =>
    rw [passCharge_cons]
    cases hx : fate lim ys now x.2 with
    | waiting =>
      have hw : waits lim ys now x = true := by simp [waits, hx, Fate.isWaiting]
      have hr : ¬ resolves lim ys now x = true := by simp [resolves, hx, Fate.isResolved]
      rw [List.filter_cons_of_pos hw, List.countP_cons_of_neg hr, List.length_cons,
        List.length_cons, Nat.add_right_comm, UInt32.ofNat_add _ 1,
        UInt32.ofNat_add (xs.length + _) 1, ← ih, Fate.charge]
      abel
    | expired =>
      have hw : ¬ waits lim ys now x = true := by simp [waits, hx, Fate.isWaiting]
      have hr : ¬ resolves lim ys now x = true := by simp [resolves, hx, Fate.isResolved]
      rw [List.filter_cons_of_neg hw, List.countP_cons_of_neg hr, List.length_cons,
        Nat.add_right_comm, UInt32.ofNat_add _ 1, ← ih, Fate.charge, add_assoc, add_comm]
      rfl
    | resolved ethMac =>
      have hw : ¬ waits lim ys now x = true := by simp [waits, hx, Fate.isWaiting]
      have hr : resolves lim ys now x = true := by simp [resolves, hx, Fate.isResolved]
      have hsum : xs.length + 1 + (xs.countP (resolves lim ys now) + 1) =
          xs.length + xs.countP (resolves lim ys now) + 2 := by omega
      rw [List.filter_cons_of_neg hw, List.countP_cons_of_pos hr, List.length_cons, hsum,
        UInt32.ofNat_add _ 2, ← ih, Fate.charge, add_assoc, add_comm]
      rfl

lemma uint32_ofNat_inj {m n : ℕ} (hm : m < 2 ^ 32) (hn : n < 2 ^ 32) :
    UInt32.ofNat m = UInt32.ofNat n ↔ m = n := by
  constructor
  · intro h
    have ht := congrArg UInt32.toNat h
    rwa [UInt32.toNat_ofNat', UInt32.toNat_ofNat', Nat.mod_eq_of_lt hm, Nat.mod_eq_of_lt hn] at ht
  · intro h
    rw [h]

/-- A pass that starts with an exact counter ends with one exactly when it sends as
many packets as it strands. -/
lemma counter_after_pass {total total' : UInt32} {xs : List (ℕ × QueuedPkt)}
    (htotal : total.toNat = xs.length) (hb : xs.length ≤ maxQueuedPkts.toNat)
    (hafter : total' = total - passCharge lim ys now xs) :
    total'.toNat = (RootSweep.sweep (waits lim ys now) [] xs).length ↔
      xs.countP (resolves lim ys now) =
        (RootSweep.stranded (waits lim ys now) false xs).length := by
  have hmax : maxQueuedPkts.toNat = 1024 := rfl
  have hcharge := passCharge_add lim ys now xs
  have hsweep := RootSweep.sweep_length (waits lim ys now) xs
  have hw : (xs.filter (waits lim ys now)).length ≤ xs.length := List.length_filter_le _ _
  have hr : xs.countP (resolves lim ys now) ≤ xs.length := List.countP_le_length
  generalize xs.countP (resolves lim ys now) = r at *
  generalize (xs.filter (waits lim ys now)).length = w at *
  generalize (RootSweep.sweep (waits lim ys now) [] xs).length = l at *
  have htot : total = UInt32.ofNat xs.length := by
    rw [← htotal, UInt32.ofNat_toNat]
  -- all lengths are small, so equality modulo 2 ^ 32 is equality
  have hdiff : total' + UInt32.ofNat r = UInt32.ofNat w := by
    rw [hafter, htot, eq_sub_of_add_eq hcharge, UInt32.ofNat_add]
    abel
  calc total'.toNat = l
      ↔ total' = UInt32.ofNat l := by
        constructor
        · intro h
          rw [← h, UInt32.ofNat_toNat]
        · intro h
          rw [h, UInt32.toNat_ofNat', Nat.mod_eq_of_lt (by omega)]
    _ ↔ UInt32.ofNat w = UInt32.ofNat (l + r) := by
        rw [← hdiff, UInt32.ofNat_add]
        exact (add_left_inj _).symm
    _ ↔ w = l + r := uint32_ofNat_inj (by omega) (by omega)
    _ ↔ r = (RootSweep.stranded (waits lim ys now) false xs).length := by omega

/-- The step condition: a pass resolves as many packets as it strands. -/
def Balanced (lim : QueueLimits) (st : QueueState) : QueueOp → Prop
  | .add .. => True
  | .update now arp => ∀ xs, st.Lists xs → xs.countP (resolves lim arp.entries now) =
      (RootSweep.stranded (waits lim arp.entries now) false xs).length

lemma execQueue_update (lim : QueueLimits) {st : QueueState} {xs : List (ℕ × QueuedPkt)}
    (h : st.Lists xs) (now : UInt64) (arp : ArpSnapshot) :
    ∃ st' es xs', execQueue lim st (.update now arp) = .ret (st', es) ∧ st'.Lists xs' ∧
      (CounterOk st xs → (CounterOk st' xs' ↔ Balanced lim st (.update now arp))) := by
  obtain ⟨st', hrun, hlist, htotal⟩ := twUpdateQueuedPkts_spec lim now arp.lists h
  refine ⟨st', passEffects lim arp.entries now xs, _,
    by simp only [execQueue, hrun, Outcome.ret_bind], hlist, fun hok => ?_⟩
  have hiff := counter_after_pass hok.counted hok.bounded htotal
  have hsub := (RootSweep.sweep_sublist (waits lim arp.entries now) [] xs).length_le
  constructor
  · intro hok' zs hzs
    rw [Chain.unique hzs h]
    exact hiff.mp hok'.counted
  · intro hbal
    refine .of_counted hlist (hiff.mpr (hbal xs h)) ?_
    have hfil : (xs.filter (waits lim arp.entries now)).length ≤ xs.length :=
      List.length_filter_le _ _
    have hbound := hok.bounded
    simp only [List.nil_append] at hsub
    omega

theorem queueCounter_iff_balanced (lim : QueueLimits) (ops : List QueueOp) :
    Throughout (execQueue lim) emptyQueue (fun _ st _ => ∃ xs, CounterOk st xs) ops ↔
      EachStep (execQueue lim) emptyQueue (Balanced lim) ops := by
  refine throughout_iff_eachStep (J := fun _ st _ => ∃ xs, st.Lists xs) ⟨[], rfl⟩
    ⟨[], .of_counted rfl rfl (by decide)⟩ ?_ ops
  intro os st es op hJ
  obtain ⟨xs, h⟩ := hJ
  cases op with
  | add pkt arpIp portId clock mem =>
    obtain ⟨st', es', xs', hrun, hlist, hkeep⟩ := execQueue_add lim h pkt arpIp portId clock mem
    refine ⟨st', es', hrun, ⟨xs', hlist⟩, fun hP => ?_⟩
    obtain ⟨zs, hok⟩ := hP
    obtain rfl := Chain.unique hok.lists h
    exact ⟨fun _ => trivial, fun _ => ⟨xs', hkeep hok⟩⟩
  | update now arp =>
    obtain ⟨st', es', xs', hrun, hlist, hiff⟩ := execQueue_update lim h now arp
    refine ⟨st', es', hrun, ⟨xs', hlist⟩, fun hP => ?_⟩
    obtain ⟨zs, hok⟩ := hP
    obtain rfl := Chain.unique hok.lists h
    rw [← hiff hok]
    constructor
    · intro hP'
      obtain ⟨zs', hok'⟩ := hP'
      rwa [Chain.unique hlist hok'.lists]
    · intro hok'
      exact ⟨xs', hok'⟩

end Update

section Wrap

def gatewayKnown : ArpSnapshot where
  table := ⟨Heap.empty.write 0 ⟨⟨0xc0a80101, fun _ => 1, 0⟩, none⟩, some 0, 1⟩
  entries := [(0, ⟨0xc0a80101, fun _ => 1, 0⟩)]
  lists := ⟨rfl, none, rfl, rfl⟩

def oneSent : List QueueOp :=
  [.add (rtePktmbufAlloc 0 fun _ => 0) 0xc0a80101 0 0 (.bump ⟨queuedAt 0, none⟩),
    .update 0 gatewayKnown]

/-- One packet queued and sent leaves an empty list and a counter of 2^32 - 1. -/
theorem queueCounter_wraps_oneSent :
    ¬ Throughout (execQueue tenSeconds) emptyQueue (fun _ st _ => ∃ xs, CounterOk st xs)
      oneSent := by
  intro h
  have hend : ∃ st es, runOps (execQueue tenSeconds) emptyQueue oneSent = .ret (st, es) ∧
      st.totalQueuedPkts = 0xffffffff := ⟨_, _, rfl, rfl⟩
  obtain ⟨st, es, hrun, htotal⟩ := hend
  obtain ⟨st', es', hrun', xs, hok⟩ := h oneSent List.prefix_rfl
  obtain ⟨rfl, rfl⟩ : st = st' ∧ es = es' := by simpa [hrun] using hrun'
  have hcount := hok.counted
  have hbound := hok.bounded
  rw [htotal] at hcount
  have hmax : maxQueuedPkts.toNat = 1024 := rfl
  have hbig : (0xffffffff : UInt32).toNat = 4294967295 := rfl
  omega

end Wrap
end Twister
