import Twister.GatewayRun

/-! The gateway's waiting queue on its own: pushes, and passes in which every packet that
is replayed may or may not be pushed again. -/
namespace Twister
variable {β : Type}

section Pass

/-- A call of `tw_sq_push`, with what the slot that it writes held before. -/
structure SqPush (β : Type) where
  pkt : β
  replaced : Option β

namespace SqPkt

/-- What lies in the slot that the next push writes. -/
def target (q : SqPkt β) : Option β :=
  if h : q.nPkts.toNat < maxQueuePackets then q.pkt ⟨q.nPkts.toNat, h⟩ else none

/-- The callback has pushed the packet of slot `i` again, or has not. The slot is cleared
only afterwards. -/
def replaySlot (q : SqPkt β) (i : Fin maxQueuePackets) (p : β) (again : Bool) : SqPkt β :=
  let q := if again then (twSqPush q p).2 else q
  ⟨Function.update q.pkt i none, q.nPkts - 1⟩

/-- The loop of `update_queue`, with the pushes made during it. -/
def replaySlots (again : Fin maxQueuePackets → Bool) :
    List (Fin maxQueuePackets) → SqPkt β → SqPkt β × List (SqPush β)
  | [], q => (q, [])
  | i :: is, q =>
    match q.pkt i with
    | none => replaySlots again is q
    | some p =>
      let (q', pushes) := replaySlots again is (q.replaySlot i p (again i))
      (q', if again i then ⟨p, q.target⟩ :: pushes else pushes)

def replayQueue (again : Fin maxQueuePackets → Bool) (q : SqPkt β) : SqPkt β × List (SqPush β) :=
  if twNQueue q < 1 then (q, []) else replaySlots again (List.finRange maxQueuePackets) q

lemma replaySlots_none {again : Fin maxQueuePackets → Bool} {i : Fin maxQueuePackets}
    {is : List (Fin maxQueuePackets)} {q : SqPkt β} (h : q.pkt i = none) :
    replaySlots again (i :: is) q = replaySlots again is q := by
  rw [replaySlots, h]

lemma replaySlots_some {again : Fin maxQueuePackets → Bool} {i : Fin maxQueuePackets}
    {is : List (Fin maxQueuePackets)} {q : SqPkt β} {p : β} (h : q.pkt i = some p) :
    replaySlots again (i :: is) q =
      ((replaySlots again is (q.replaySlot i p (again i))).1,
        if again i then ⟨p, q.target⟩ :: (replaySlots again is (q.replaySlot i p (again i))).2
        else (replaySlots again is (q.replaySlot i p (again i))).2) := by
  rw [replaySlots, h]

lemma replaySlots_congr {again again' : Fin maxQueuePackets → Bool}
    {is : List (Fin maxQueuePackets)} (h : ∀ i ∈ is, again i = again' i) (q : SqPkt β) :
    replaySlots again is q = replaySlots again' is q := by
  induction is generalizing q with
  | nil => rfl
  | cons i is ih =>
    have hrest : ∀ j ∈ is, again j = again' j := fun j hj => h j (List.mem_cons_of_mem i hj)
    cases hi : q.pkt i with
    | none => rw [replaySlots_none hi, replaySlots_none hi, ih hrest]
    | some p =>
      rw [replaySlots_some hi, replaySlots_some hi, h i List.mem_cons_self, ih hrest]

end SqPkt
end Pass

section Model
variable {gw : Gateway} {st st' : GwState} {calls : List GwCall}

/-- The callback touches the queue only by a push of the packet it was given. -/
lemma replyPayload_queue {env : GwEnv} {buffer : TwBufPtr}
    (h : replyPayload gw env st buffer = .ret (st', calls)) :
    ∃ again : Bool, st'.sqPktQ =
      if again then (twSqPush st.sqPktQ buffer).2 else st.sqPktQ := by
  cases buffer
  by_cases hip : rteBeToCpu16 st.tempBuffer.hdr.etherType = etherTypeIPv4
  · cases replyPayload_replied h hip with
    | settled => exact ⟨false, rfl⟩
    | parked => exact ⟨true, rfl⟩
    | lost => exact ⟨false, rfl⟩
  · refine ⟨false, ?_⟩
    unfold replyPayload at h
    by_cases harp : rteBeToCpu16 st.tempBuffer.hdr.etherType = etherTypeARP
    · rw [GwState.buf, if_pos harp] at h
      obtain ⟨r, -, hret⟩ := Outcome.bind_eq_ret.mp h
      obtain ⟨rfl, -⟩ := Prod.mk.inj (Outcome.ret.inj hret)
      rfl
    · rw [GwState.buf, if_neg harp, if_neg hip] at h
      obtain ⟨rfl, -⟩ := Prod.mk.inj (Outcome.ret.inj h)
      rfl

theorem updateSlots_replays {env : Fin maxQueuePackets → GwEnv}
    {is : List (Fin maxQueuePackets)} (hnodup : is.Nodup)
    (h : updateSlots gw env is st = .ret (st', calls)) :
    ∃ again, st'.sqPktQ = (st.sqPktQ.replaySlots again is).1 := by
  induction is generalizing st calls with
  | nil =>
    obtain ⟨rfl, -⟩ := Prod.mk.inj (Outcome.ret.inj h)
    exact ⟨fun _ => false, rfl⟩
  | cons i is ih =>
    obtain ⟨hi, hnodup⟩ := List.nodup_cons.mp hnodup
    cases hslot : st.sqPktQ.pkt i with
    | none =>
      rw [updateSlots, hslot] at h
      obtain ⟨again, hagain⟩ := ih hnodup h
      exact ⟨again, by rw [SqPkt.replaySlots_none hslot, hagain]⟩
    | some buffer =>
      obtain ⟨st₁, calls₁, rest, hreply, hrest, -⟩ := updateSlots_used hslot h
      obtain ⟨first, hfirst⟩ := replyPayload_queue hreply
      obtain ⟨again, hagain⟩ := ih hnodup hrest
      refine ⟨Function.update again i first, ?_⟩
      have hcongr : ∀ j ∈ is, Function.update again i first j = again j := by
        intro j hj
        have hne : j ≠ i := fun he => hi (he ▸ hj)
        exact Function.update_of_ne hne first again
      rw [SqPkt.replaySlots_some hslot, Function.update_self, SqPkt.replaySlots_congr hcongr,
        hagain, SqPkt.replaySlot, hfirst]

/-- A pass of the gateway acts on its queue as a pass in which some of the replayed packets
are pushed again. -/
theorem updateQueue_replays {env : Fin maxQueuePackets → GwEnv}
    (h : updateQueue gw env st = .ret (st', calls)) :
    ∃ again, st'.sqPktQ = (st.sqPktQ.replayQueue again).1 := by
  unfold updateQueue at h
  unfold SqPkt.replayQueue
  split_ifs at h ⊢
  · obtain ⟨rfl, -⟩ := Prod.mk.inj (Outcome.ret.inj h)
    exact ⟨fun _ => false, rfl⟩
  · exact updateSlots_replays (List.nodup_finRange _) h

end Model

section Invariant

namespace SqPkt

/-- The slots in use. -/
def occupied (q : SqPkt β) : Finset (Fin maxQueuePackets) :=
  Finset.univ.filter fun i => (q.pkt i).isSome

/-- The counter counts the packets, and they fill the array from its start. -/
structure Represents (q : SqPkt β) : Prop where
  count : q.nPkts.toNat = q.occupied.card
  bound : q.nPkts.toNat ≤ maxQueuePackets
  filled : ∀ i, i ∈ q.occupied ↔ i.val < q.nPkts.toNat

@[simp] lemma mem_occupied {q : SqPkt β} {i : Fin maxQueuePackets} :
    i ∈ q.occupied ↔ ∃ p, q.pkt i = some p := by
  simp [occupied, Option.isSome_iff_exists]

lemma notMem_occupied {q : SqPkt β} {i : Fin maxQueuePackets} :
    i ∉ q.occupied ↔ q.pkt i = none := by
  simp [occupied]

/-- Slots filled from the start are as many as the counter says. -/
lemma Represents.of_filled {q : SqPkt β} (hbound : q.nPkts.toNat ≤ maxQueuePackets)
    (hfilled : ∀ i, i ∈ q.occupied ↔ i.val < q.nPkts.toNat) : q.Represents := by
  refine ⟨?_, hbound, hfilled⟩
  have hset : q.occupied = Finset.univ.filter fun i : Fin maxQueuePackets =>
      i.val < q.nPkts.toNat := by
    ext i
    simp [hfilled]
  rw [hset, Fin.card_filter_val_lt, Nat.min_eq_right hbound]

lemma Represents.empty : (SqPkt.empty : SqPkt β).Represents :=
  .of_filled (Nat.zero_le _) fun i => by simp [SqPkt.empty]

section Push
variable {q : SqPkt β} (p : β)

lemma twSqPush_full (h : ¬ q.nPkts.toNat < maxQueuePackets) : (twSqPush q p).2 = q := by
  rw [twSqPush, dif_neg h]

lemma twSqPush_pkt (h : q.nPkts.toNat < maxQueuePackets) :
    (twSqPush q p).2.pkt = Function.update q.pkt ⟨q.nPkts.toNat, h⟩ (some p) := by
  rw [twSqPush, dif_pos h]

lemma twSqPush_nPkts (h : q.nPkts.toNat < maxQueuePackets) :
    (twSqPush q p).2.nPkts.toNat = q.nPkts.toNat + 1 := by
  have hmax : maxQueuePackets = 1000 := rfl
  rw [twSqPush, dif_pos h, UInt32.toNat_add, UInt32.toNat_one]
  omega

lemma twSqPush_occupied (h : q.nPkts.toNat < maxQueuePackets) :
    (twSqPush q p).2.occupied = insert ⟨q.nPkts.toNat, h⟩ q.occupied := by
  ext i
  by_cases hi : i = ⟨q.nPkts.toNat, h⟩
  · simp [twSqPush_pkt p h, hi]
  · simp [twSqPush_pkt p h, hi]

end Push

lemma Represents.target {q : SqPkt β} (h : q.Represents) : q.target = none := by
  unfold SqPkt.target
  split_ifs with hlt
  · rw [← notMem_occupied, h.filled]
    exact lt_irrefl _
  · rfl

lemma Represents.push {q : SqPkt β} (h : q.Represents) (p : β) : (twSqPush q p).2.Represents := by
  by_cases hlt : q.nPkts.toNat < maxQueuePackets
  · refine .of_filled (by rwa [twSqPush_nPkts p hlt]) fun i => ?_
    rw [twSqPush_occupied p hlt, twSqPush_nPkts p hlt, Finset.mem_insert, h.filled, Fin.ext_iff,
      Nat.lt_succ_iff_lt_or_eq, or_comm]
  · rwa [twSqPush_full p hlt]

section Replay
variable {q : SqPkt β} {i : Fin maxQueuePackets} {again : Fin maxQueuePackets → Bool}

lemma replaySlot_pkt_self (q : SqPkt β) (i : Fin maxQueuePackets) (p : β) (a : Bool) :
    (q.replaySlot i p a).pkt i = none := by
  simp [replaySlot]

lemma replaySlot_false_occupied (p : β) :
    (q.replaySlot i p false).occupied = q.occupied.erase i := by
  ext j
  by_cases hj : j = i
  · simp [replaySlot, hj]
  · simp [replaySlot, hj]

lemma replaySlot_false_nPkts (h : 0 < q.nPkts.toNat) (p : β) :
    (q.replaySlot i p false).nPkts.toNat = q.nPkts.toNat - 1 := by
  have hle : 1 ≤ q.nPkts := UInt32.le_iff_toNat_le.mpr h
  exact UInt32.toNat_sub_of_le q.nPkts 1 hle

lemma twSqPush_mem_occupied (hi : i ∈ q.occupied) (p : β) : i ∈ (twSqPush q p).2.occupied := by
  by_cases hlt : q.nPkts.toNat < maxQueuePackets
  · rw [twSqPush_occupied p hlt]
    exact Finset.mem_insert_of_mem hi
  · rwa [twSqPush_full p hlt]

lemma card_twSqPush_le (h : q.occupied.card ≤ q.nPkts.toNat) (p : β) :
    (twSqPush q p).2.occupied.card ≤ (twSqPush q p).2.nPkts.toNat := by
  by_cases hlt : q.nPkts.toNat < maxQueuePackets
  · rw [twSqPush_occupied p hlt, twSqPush_nPkts p hlt]
    exact (Finset.card_insert_le _ _).trans (Nat.succ_le_succ h)
  · rwa [twSqPush_full p hlt]

/-- The counter never falls below the number of packets, although pushes may overwrite
some. -/
lemma card_replaySlot_le (hi : i ∈ q.occupied) (h : q.occupied.card ≤ q.nPkts.toNat) (p : β)
    (a : Bool) : (q.replaySlot i p a).occupied.card ≤ (q.replaySlot i p a).nPkts.toNat := by
  have hclear : ∀ q : SqPkt β, i ∈ q.occupied → q.occupied.card ≤ q.nPkts.toNat →
      (q.replaySlot i p false).occupied.card ≤ (q.replaySlot i p false).nPkts.toNat := by
    intro q hi h
    have hpos : 0 < q.occupied.card := Finset.card_pos.mpr ⟨i, hi⟩
    rw [replaySlot_false_occupied, replaySlot_false_nPkts (hpos.trans_le h),
      Finset.card_erase_of_mem hi]
    exact Nat.sub_le_sub_right h 1
  cases a with
  | false => exact hclear q hi h
  | true => exact hclear _ (twSqPush_mem_occupied hi p) (card_twSqPush_le h p)

/-- A replay pushes behind at least its own packet, so never to the first slot. -/
lemma replaySlot_first (hi : i ∈ q.occupied) (h : q.occupied.card ≤ q.nPkts.toNat)
    (h0 : q.pkt 0 = none) (p : β) (a : Bool) : (q.replaySlot i p a).pkt 0 = none := by
  have hpos : 0 < q.nPkts.toNat := (Finset.card_pos.mpr ⟨i, hi⟩).trans_le h
  have hpush : (twSqPush q p).2.pkt 0 = none := by
    by_cases hlt : q.nPkts.toNat < maxQueuePackets
    · have hne : (0 : Fin maxQueuePackets) ≠ ⟨q.nPkts.toNat, hlt⟩ := fun he =>
        hpos.ne (congrArg Fin.val he)
      rw [twSqPush_pkt p hlt, Function.update_of_ne hne, h0]
    · rw [twSqPush_full p hlt, h0]
  by_cases hz : 0 = i
  · rw [hz, replaySlot_pkt_self]
  · cases a with
    | false => exact (Function.update_of_ne hz _ _).trans h0
    | true => exact (Function.update_of_ne hz _ _).trans hpush

lemma replaySlots_first (again : Fin maxQueuePackets → Bool) (is : List (Fin maxQueuePackets))
    (h : q.occupied.card ≤ q.nPkts.toNat) (h0 : q.pkt 0 = none) :
    (q.replaySlots again is).1.pkt 0 = none := by
  induction is generalizing q with
  | nil => exact h0
  | cons i is ih =>
    cases hi : q.pkt i with
    | none =>
      rw [replaySlots_none hi]
      exact ih h h0
    | some p =>
      have hmem : i ∈ q.occupied := mem_occupied.mpr ⟨p, hi⟩
      rw [replaySlots_some hi]
      exact ih (card_replaySlot_le hmem h p _) (replaySlot_first hmem h h0 p _)

/-- A pass that pushes nothing again empties the queue. -/
lemma replaySlots_disposed {is : List (Fin maxQueuePackets)} (h : q.nPkts.toNat = q.occupied.card)
    (hin : ∀ j ∈ q.occupied, j ∈ is) (hno : ∀ j ∈ q.occupied, again j = false) :
    q.replaySlots again is = (.empty, []) := by
  induction is generalizing q with
  | nil =>
    have hnone : q.occupied = ∅ := Finset.eq_empty_of_forall_notMem fun j hj => by
      simpa using hin j hj
    have hpkt : q.pkt = fun _ => none := funext fun j =>
      notMem_occupied.mp (by rw [hnone]; exact Finset.notMem_empty j)
    have hn : q.nPkts = 0 := UInt32.toNat_inj.mp (by rw [h, hnone]; rfl)
    rw [replaySlots, SqPkt.empty, ← hpkt, ← hn]
  | cons i is ih =>
    cases hi : q.pkt i with
    | none =>
      rw [replaySlots_none hi]
      refine ih h (fun j hj => (List.mem_cons.mp (hin j hj)).resolve_left ?_) hno
      rintro rfl
      exact notMem_occupied.mpr hi hj
    | some p =>
      have hmem : i ∈ q.occupied := mem_occupied.mpr ⟨p, hi⟩
      have hpos : 0 < q.nPkts.toNat := h ▸ Finset.card_pos.mpr ⟨i, hmem⟩
      have hrest : (q.replaySlot i p false).replaySlots again is = (.empty, []) := by
        refine ih ?_ (fun j hj => ?_) fun j hj => ?_
        · rw [replaySlot_false_nPkts hpos, replaySlot_false_occupied,
            Finset.card_erase_of_mem hmem, h]
        · rw [replaySlot_false_occupied, Finset.mem_erase] at hj
          exact (List.mem_cons.mp (hin j hj.2)).resolve_left hj.1
        · rw [replaySlot_false_occupied, Finset.mem_erase] at hj
          exact hno j hj.2
      rw [replaySlots_some hi, hno i hmem, hrest]
      rfl

/-- A packet that waits where the callback pushes again is pushed, whatever comes before. -/
lemma replaySlots_pushes {is : List (Fin maxQueuePackets)} (hin : i ∈ is) (hi : i ∈ q.occupied)
    (hagain : again i = true) : (q.replaySlots again is).2 ≠ [] := by
  induction is generalizing q with
  | nil => simp at hin
  | cons j is ih =>
    cases hj : q.pkt j with
    | none =>
      have hne : i ≠ j := by
        rintro rfl
        exact notMem_occupied.mpr hj hi
      rw [replaySlots_none hj]
      exact ih ((List.mem_cons.mp hin).resolve_left hne) hi
    | some p =>
      rw [replaySlots_some hj]
      cases haj : again j with
      | true => simp
      | false =>
        have hne : i ≠ j := by
          rintro rfl
          rw [hagain] at haj
          cases haj
        refine ih ((List.mem_cons.mp hin).resolve_left hne) ?_
        rw [replaySlot_false_occupied]
        exact Finset.mem_erase.mpr ⟨hne, hi⟩

end Replay

section Queue
variable {q : SqPkt β} {again : Fin maxQueuePackets → Bool}

lemma Represents.replayQueue_used (h : q.Represents) (hpos : 0 < q.nPkts.toNat) :
    q.replayQueue again = q.replaySlots again (List.finRange maxQueuePackets) := by
  have hmax : maxQueuePackets = 1000 := rfl
  have hbound := h.bound
  have hn : ¬ q.nPkts < 1 := fun hlt => by
    have hlt' : q.nPkts.toNat < 1 := UInt32.lt_iff_toNat_lt.mp hlt
    omega
  have hint : q.nPkts.toInt32.toInt = q.nPkts.toNat :=
    BitVec.toInt_eq_toNat_of_lt (show 2 * q.nPkts.toNat < 2 ^ 32 by omega)
  rw [replayQueue, twNQueue, if_neg hn, hint, if_neg (by omega)]

lemma replayQueue_unused (h : q.nPkts.toNat = 0) : q.replayQueue again = (q, []) := by
  have hn : q.nPkts = 0 := UInt32.toNat_inj.mp h
  unfold replayQueue twNQueue
  rw [hn]
  rfl

lemma Represents.eq_empty (h : q.Represents) (h0 : q.nPkts.toNat = 0) : q = .empty := by
  have hpkt : q.pkt = fun _ => none := funext fun i => by
    rw [← notMem_occupied, h.filled, h0]
    exact Nat.not_lt_zero _
  have hn : q.nPkts = 0 := UInt32.toNat_inj.mp h0
  rw [SqPkt.empty, ← hpkt, ← hn]

lemma Represents.replayQueue_disposed (h : q.Represents)
    (hno : ∀ i : Fin maxQueuePackets, i.val < q.nPkts.toNat → again i = false) :
    q.replayQueue again = (.empty, []) := by
  rcases Nat.eq_zero_or_pos q.nPkts.toNat with h0 | hpos
  · rw [replayQueue_unused h0, h.eq_empty h0]
  · rw [h.replayQueue_used hpos]
    exact replaySlots_disposed h.count (fun j _ => List.mem_finRange j)
      fun j hj => hno j ((h.filled j).mp hj)

/-- The first slot is cleared first, and what is pushed again goes behind it. -/
lemma Represents.replayQueue_first (h : q.Represents) (hpos : 0 < q.nPkts.toNat) :
    (q.replayQueue again).1.pkt 0 = none := by
  obtain ⟨rest, hrange⟩ := finRange_slots
  obtain ⟨p, hp⟩ := mem_occupied.mp ((h.filled 0).mpr hpos)
  rw [h.replayQueue_used hpos, hrange, replaySlots_some hp]
  exact replaySlots_first again _ (card_replaySlot_le (mem_occupied.mpr ⟨p, hp⟩) h.count.ge p _)
    (replaySlot_pkt_self q 0 p _)

/-- If a pass leaves a queue in order that still holds every packet it pushed again, then it
pushed none. -/
lemma Represents.none_again (h : q.Represents) (h' : (q.replayQueue again).1.Represents)
    (hkept : ∀ e ∈ (q.replayQueue again).2, ∃ i, (q.replayQueue again).1.pkt i = some e.pkt)
    (i : Fin maxQueuePackets) (hi : i.val < q.nPkts.toNat) : again i = false := by
  have hpos : 0 < q.nPkts.toNat := Nat.zero_lt_of_lt hi
  by_contra hagain
  rw [Bool.not_eq_false] at hagain
  have hpushed : (q.replayQueue again).2 ≠ [] := by
    rw [h.replayQueue_used hpos]
    exact replaySlots_pushes (List.mem_finRange i) ((h.filled i).mpr hi) hagain
  obtain ⟨e, he⟩ := List.exists_mem_of_ne_nil _ hpushed
  obtain ⟨j, hj⟩ := hkept e he
  -- some slot is in use, so the first one is
  have hcount := (h'.filled j).mp (mem_occupied.mpr ⟨e.pkt, hj⟩)
  have hfirst : (0 : Fin maxQueuePackets) ∈ (q.replayQueue again).1.occupied :=
    (h'.filled 0).mpr (Nat.zero_lt_of_lt hcount)
  exact notMem_occupied.mpr (h.replayQueue_first hpos) hfirst

end Queue
end SqPkt
end Invariant

section Runs

inductive SqOp (β : Type)
  | push (pkt : β)
  | pass (again : Fin maxQueuePackets → Bool)

/-- The queue, and the packets that the last operation pushed again. -/
structure SqRun (β : Type) where
  queue : SqPkt β
  again : List β

def stepSq (s : SqRun β) : SqOp β → Outcome (SqRun β × List (SqPush β))
  | .push pkt => .ret (⟨(twSqPush s.queue pkt).2, []⟩, [⟨pkt, s.queue.target⟩])
  | .pass again =>
    let (queue, pushes) := s.queue.replayQueue again
    .ret (⟨queue, pushes.map SqPush.pkt⟩, pushes)

/-- The queue is in order, no push has overwritten a packet, and what the last operation
pushed again is there. -/
structure QueueSound (s : SqRun β) (pushes : List (SqPush β)) : Prop where
  represents : s.queue.Represents
  kept : ∀ e ∈ pushes, e.replaced = none
  again : ∀ p ∈ s.again, ∃ i, s.queue.pkt i = some p

/-- No packet that waits is pushed again. -/
def NoneAgain (s : SqRun β) : SqOp β → Prop
  | .push _ => True
  | .pass again => ∀ i : Fin maxQueuePackets, i.val < s.queue.nPkts.toNat → again i = false

lemma QueueSound.push {s : SqRun β} {pushes : List (SqPush β)} (h : QueueSound s pushes)
    (pkt : β) :
    QueueSound ⟨(twSqPush s.queue pkt).2, []⟩ (pushes ++ [⟨pkt, s.queue.target⟩]) := by
  refine ⟨h.represents.push pkt, fun e he => ?_, by simp⟩
  rcases List.mem_append.mp he with he | he
  · exact h.kept e he
  · rw [List.mem_singleton.mp he]
    exact h.represents.target

lemma QueueSound.pass_iff {s : SqRun β} {pushes : List (SqPush β)} (h : QueueSound s pushes)
    (again : Fin maxQueuePackets → Bool) :
    QueueSound ⟨(s.queue.replayQueue again).1, (s.queue.replayQueue again).2.map SqPush.pkt⟩
      (pushes ++ (s.queue.replayQueue again).2) ↔ NoneAgain s (.pass again) := by
  constructor
  · intro h'
    exact h.represents.none_again h'.represents fun e he =>
      h'.again e.pkt (List.mem_map_of_mem he)
  · intro hno
    rw [h.represents.replayQueue_disposed hno, List.append_nil]
    exact ⟨.empty, h.kept, by simp⟩

/-- The queue keeps its representation throughout exactly those runs in which no pass
pushes a packet again. -/
theorem queueSound_iff (os : List (SqOp β)) :
    Throughout stepSq ⟨.empty, []⟩ (fun _ s pushes => QueueSound s pushes) os ↔
      EachStep stepSq ⟨.empty, []⟩ NoneAgain os := by
  have hinit : QueueSound (⟨.empty, []⟩ : SqRun β) [] := ⟨.empty, by simp, by simp⟩
  refine throughout_iff_eachStep (J := fun _ _ _ => True) trivial hinit
    (fun _ s pushes o _ => ?_) os
  cases o with
  | push pkt => exact ⟨_, _, rfl, trivial, fun h => iff_of_true (h.push pkt) trivial⟩
  | pass again => exact ⟨_, _, rfl, trivial, fun h => h.pass_iff again⟩

lemma replaySlots_idle {q : SqPkt β} (h : q.pkt = fun _ => none)
    (again : Fin maxQueuePackets → Bool) (is : List (Fin maxQueuePackets)) :
    q.replaySlots again is = (q, []) := by
  induction is with
  | nil => rfl
  | cons i is ih => rw [SqPkt.replaySlots_none (by rw [h]), ih]

/-- The packet goes to the second slot, is replayed from there once more, and is cleared
with that slot. -/
lemma replayQueue_single (p : β) :
    (SqPkt.single 0 p 1).replayQueue (fun _ => true) =
      (⟨fun _ => none, 1⟩, [⟨p, none⟩, ⟨p, some p⟩]) := by
  obtain ⟨rest, hrange⟩ := finRange_slots
  have hn : ∀ i, (twSqPush (SqPkt.single i p 1) p).2.nPkts - 1 = 1 := fun i => by
    have hlt : (SqPkt.single i p 1).nPkts.toNat < maxQueuePackets := show 1 < 1000 by decide
    rw [twSqPush, dif_pos hlt]
    exact add_sub_cancel_right (1 : UInt32) 1
  have hfirst : (SqPkt.single 0 p 1).replaySlot 0 p true = .single 1 p 1 := by
    simp only [SqPkt.replaySlot, if_true, twSqPush_first_clear, hn]
    rfl
  have hsecond : (SqPkt.single 1 p 1).replaySlot 1 p true = ⟨fun _ => none, 1⟩ := by
    simp only [SqPkt.replaySlot, if_true, twSqPush_second_clear, hn]
  have hused : ¬ twNQueue (SqPkt.single 0 p 1) < 1 := by
    change ¬ (1 : Int) < 1
    decide
  rw [SqPkt.replayQueue, if_neg hused, hrange,
    SqPkt.replaySlots_some (SqPkt.single_pkt.mpr ⟨rfl, rfl⟩), hfirst,
    SqPkt.replaySlots_some (SqPkt.single_pkt.mpr ⟨rfl, rfl⟩), hsecond, replaySlots_idle rfl]
  rfl

/-- A packet whose destination stays unresolved is gone after one pass, and the counter
says that one is waiting. -/
theorem queue_forgets_packet :
    runOps stepSq ⟨.empty, []⟩ [.push TwBufPtr.tempBuffer, .pass fun _ => true] =
        .ret (⟨⟨fun _ => none, 1⟩, [.tempBuffer, .tempBuffer]⟩,
          [⟨.tempBuffer, none⟩, ⟨.tempBuffer, none⟩, ⟨.tempBuffer, some .tempBuffer⟩]) ∧
      ¬ Throughout stepSq ⟨.empty, []⟩ (fun _ s pushes => QueueSound s pushes)
        [.push TwBufPtr.tempBuffer, .pass fun _ => true] := by
  have hrun : runOps stepSq ⟨.empty, []⟩ [.push TwBufPtr.tempBuffer, .pass fun _ => true] =
      .ret (⟨⟨fun _ => none, 1⟩, [.tempBuffer, .tempBuffer]⟩,
        [⟨.tempBuffer, none⟩, ⟨.tempBuffer, none⟩, ⟨.tempBuffer, some .tempBuffer⟩]) := by
    simp only [runOps, stepSq, Outcome.ret_bind, twSqPush_empty, replayQueue_single]
    rfl
  refine ⟨hrun, fun hall => ?_⟩
  obtain ⟨s, pushes, hrun', hsound⟩ := hall _ List.prefix_rfl
  obtain ⟨rfl, rfl⟩ := Prod.mk.inj (Outcome.ret.inj (hrun.symm.trans hrun'))
  exact absurd (hsound.kept ⟨.tempBuffer, some .tempBuffer⟩ (by simp)) (by simp)

end Runs
end Twister
