import Twister.GatewayReply

/-! Runs of the gateway: arrivals, additions to the ARP table and timer ticks in any
order, and where every packet that was received has got to. -/
namespace Twister

section System

/-- The gateway and the number of packets the loop has handed to it. -/
structure GwSys extends GwState where
  received : ℕ

inductive GwOp
  | arrive (pkt : Mbuf) (ipv4 : rteBeToCpu16 pkt.etherType = etherTypeIPv4)
      (portName : Fin maxEthPorts) (env : GwEnv)
  | addArpEntry (ip : UInt32) (mac : EtherAddr) (portId : UInt8) (mem : Malloc (Node ArpEntry))
  | tick (env : Fin maxQueuePackets → GwEnv)

/-- Receptions are numbered, and the number stands for the address of the packet. -/
def stepGw (gw : Gateway) (s : GwSys) : GwOp → Outcome (GwSys × List GwCall)
  | .arrive pkt _ portName env => do
    let tempBuffer := describe { pkt with addr := s.received } portName
    let (st, calls) ← replyPayload gw env { s.toGwState with tempBuffer } .tempBuffer
    .ret (⟨st, s.received + 1⟩, calls)
  | .addArpEntry ip mac portId mem => do
    let (_, arp) ← twAddArpEntry mem s.arp ip mac portId
    .ret ({ s with arp }, [])
  | .tick env => do
    let (st, calls) ← updateQueue gw env s.toGwState
    .ret (⟨st, s.received⟩, calls)

end System

section Custody

def GwCall.sends (n : ℕ) : GwCall → Bool
  | .sendPkt pkt _ => pkt.addr = n
  | _ => false

def GwCall.frees (n : ℕ) : GwCall → Bool
  | .freePkt pkt => pkt.addr = n
  | _ => false

def sentCount (calls : List GwCall) (n : ℕ) : ℕ := calls.countP (GwCall.sends n)
def freedCount (calls : List GwCall) (n : ℕ) : ℕ := calls.countP (GwCall.frees n)

/-- The slot is in use and its description is of packet `n`. -/
def Describes (st : GwState) (n : ℕ) (i : Fin maxQueuePackets) : Prop :=
  ∃ buffer, st.sqPktQ.pkt i = some buffer ∧ (st.buf buffer).pkt.addr = n

inductive InOnePlace (st : GwState) (calls : List GwCall) (n : ℕ) : Prop
  | parked (slot : ∃! i, Describes st n i) (hs : sentCount calls n = 0)
      (hf : freedCount calls n = 0)
  | sent (slot : ∀ i, ¬ Describes st n i) (hs : sentCount calls n = 1)
      (hf : freedCount calls n = 0)
  | freed (slot : ∀ i, ¬ Describes st n i) (hs : sentCount calls n = 0)
      (hf : freedCount calls n = 1)

def GwCall.pushedAt (i : Fin maxQueuePackets) : GwCall → Option ℕ
  | .sqPush j pkt => if j = i then some pkt.addr else none
  | _ => none

/-- The packet that was parked in the slot last. -/
def lastPushed (calls : List GwCall) (i : Fin maxQueuePackets) : Option ℕ :=
  (calls.filterMap (GwCall.pushedAt i)).getLast?

/-- What is replayed from a slot is what was parked in it. -/
def ReplaysPushed (calls : List GwCall) : Prop :=
  ∀ pre i pkt post, calls = pre ++ .replay i pkt :: post → lastPushed pre i = some pkt.addr

structure NoneLost (s : GwSys) (calls : List GwCall) : Prop where
  places : ∀ n < s.received, InOnePlace s.toGwState calls n
  replays : ReplaysPushed calls

def Untouched (calls : List GwCall) (n : ℕ) : Prop :=
  sentCount calls n = 0 ∧ freedCount calls n = 0

def SettledOnce (calls : List GwCall) (n : ℕ) : Prop :=
  sentCount calls n = 1 ∧ freedCount calls n = 0 ∨ sentCount calls n = 0 ∧ freedCount calls n = 1

lemma sentCount_append (calls calls' : List GwCall) (n : ℕ) :
    sentCount (calls ++ calls') n = sentCount calls n + sentCount calls' n := List.countP_append

lemma freedCount_append (calls calls' : List GwCall) (n : ℕ) :
    freedCount (calls ++ calls') n = freedCount calls n + freedCount calls' n :=
  List.countP_append

lemma Untouched.append {calls calls' : List GwCall} {n : ℕ} (h : Untouched calls n)
    (h' : Untouched calls' n) : Untouched (calls ++ calls') n := by
  constructor
  · rw [sentCount_append, h.1, h'.1]
  · rw [freedCount_append, h.2, h'.2]

lemma GwCall.Disposes.once {c : GwCall} {n : ℕ} (h : c.Disposes n) : SettledOnce [c] n := by
  cases h with
  | send pkt portId h => exact Or.inl ⟨by simp [sentCount, GwCall.sends, h], rfl⟩
  | free pkt h => exact Or.inr ⟨rfl, by simp [freedCount, GwCall.frees, h]⟩

lemma GwCall.Disposes.others {c : GwCall} {a n : ℕ} (h : c.Disposes a) (hn : n ≠ a) :
    Untouched [c] n := by
  cases h with
  | send pkt portId h => exact ⟨by simp [sentCount, GwCall.sends, h, hn.symm], rfl⟩
  | free pkt h => exact ⟨rfl, by simp [freedCount, GwCall.frees, h, hn.symm]⟩

variable {st st' : GwState} {calls calls' : List GwCall} {n : ℕ}

/-- A packet that is in no slot stays where it went. -/
lemma InOnePlace.keep (h : InOnePlace st calls n) (hno : ∀ i, ¬ Describes st n i)
    (hno' : ∀ i, ¬ Describes st' n i) (hu : Untouched calls' n) :
    InOnePlace st' (calls ++ calls') n := by
  cases h with
  | parked slot hs hf =>
    obtain ⟨i, hi, -⟩ := slot
    exact absurd hi (hno i)
  | sent slot hs hf =>
    exact .sent hno' (by rw [sentCount_append, hs, hu.1]) (by rw [freedCount_append, hf, hu.2])
  | freed slot hs hf =>
    exact .freed hno' (by rw [sentCount_append, hs, hu.1]) (by rw [freedCount_append, hf, hu.2])

lemma InOnePlace.dispose (hu : Untouched calls n) (hno' : ∀ i, ¬ Describes st' n i)
    (hd : SettledOnce calls' n) : InOnePlace st' (calls ++ calls') n := by
  rcases hd with ⟨hs, hf⟩ | ⟨hs, hf⟩
  · exact .sent hno' (by rw [sentCount_append, hu.1, hs]) (by rw [freedCount_append, hu.2, hf])
  · exact .freed hno' (by rw [sentCount_append, hu.1, hs]) (by rw [freedCount_append, hu.2, hf])

lemma InOnePlace.untouched (h : InOnePlace st calls n) {i : Fin maxQueuePackets}
    (hi : Describes st n i) : Untouched calls n := by
  cases h with
  | parked slot hs hf => exact ⟨hs, hf⟩
  | sent slot => exact absurd hi (slot i)
  | freed slot => exact absurd hi (slot i)

/-- A packet in no slot that was neither sent nor freed is lost. -/
lemma Untouched.lost (h : Untouched calls n) (hno : ∀ i, ¬ Describes st n i) :
    ¬ InOnePlace st calls n := by
  intro hplace
  cases hplace with
  | parked slot =>
    obtain ⟨i, hi, -⟩ := slot
    exact hno i hi
  | sent slot hs => exact absurd (h.1.symm.trans hs) (by decide)
  | freed slot hs hf => exact absurd (h.2.symm.trans hf) (by decide)

lemma pushCall_untouched (q : SqPkt TwBufPtr) (pkt : Mbuf) (n : ℕ) :
    Untouched (pushCall q pkt) n := by
  unfold pushCall
  split <;> exact ⟨rfl, rfl⟩

lemma Replied.addr {gw : Gateway} {pools : MbufPools} (h : Replied gw pools st st' calls) :
    st'.tempBuffer.pkt.addr = st.tempBuffer.pkt.addr := by
  cases h with
  | settled b c h haddr => exact haddr
  | parked es h => rfl
  | lost b h h' haddr => exact haddr

/-- No packet but the one at hand is sent or freed. -/
lemma Replied.others {gw : Gateway} {pools : MbufPools} (h : Replied gw pools st st' calls)
    (hn : n ≠ st.tempBuffer.pkt.addr) : Untouched calls n := by
  cases h with
  | settled b c h haddr hc => exact hc.others hn
  | parked es h =>
    obtain ⟨hs, hf⟩ := pushCall_untouched st.sqPktQ st.tempBuffer.pkt n
    exact ⟨hs, hf⟩
  | lost b => exact ⟨rfl, rfl⟩

lemma Replied.unsettled {gw : Gateway} {pools : MbufPools} (h : Replied gw pools st st' calls)
    (hns : ¬ Settles gw st.arp (st.tempBuffer.hdr.ipDst sizeofEtherHdr)) :
    st' = { st with sqPktQ := (twSqPush st.sqPktQ .tempBuffer).2 } ∧ (∀ n, Untouched calls n) ∨
      ∃ b, st' = { st with tempBuffer := b } ∧ ∀ n, Untouched calls n := by
  cases h with
  | settled b c h => exact absurd h hns
  | parked es h =>
    exact Or.inl ⟨rfl, fun n => pushCall_untouched st.sqPktQ st.tempBuffer.pkt n⟩
  | lost b => exact Or.inr ⟨b, rfl, fun n => ⟨rfl, rfl⟩⟩

lemma ReplaysPushed.snoc {c : GwCall} (h : ReplaysPushed calls)
    (hc : ∀ i pkt, c = .replay i pkt → lastPushed calls i = some pkt.addr) :
    ReplaysPushed (calls ++ [c]) := by
  intro pre i pkt post heq
  rcases List.eq_nil_or_concat post with rfl | ⟨post', c', rfl⟩
  · obtain ⟨rfl, hlast⟩ := List.append_inj' heq rfl
    exact hc i pkt (List.singleton_inj.mp hlast)
  · have heq' : calls ++ [c] = (pre ++ .replay i pkt :: post') ++ [c'] := by
      rw [heq]
      simp
    exact h pre i pkt post' (List.append_inj' heq' rfl).1

end Custody

section Slots
variable {β : Type}

namespace SqPkt

def empty : SqPkt β := ⟨fun _ => none, 0⟩

/-- One packet in slot `i`. -/
def single (i : Fin maxQueuePackets) (p : β) (nPkts : UInt32) : SqPkt β :=
  ⟨Function.update (fun _ => none) i (some p), nPkts⟩

lemma single_clear (i : Fin maxQueuePackets) (p : β) (n : UInt32) :
    Function.update (single i p n).pkt i none = fun _ => none := by
  rw [single, Function.update_idem, Function.update_eq_self_iff]

lemma single_pkt {i j : Fin maxQueuePackets} {p q : β} {n : UInt32} :
    (single i p n).pkt j = some q ↔ j = i ∧ p = q := by
  unfold single
  by_cases hj : j = i
  · subst hj
    simp
  · simp [hj]

end SqPkt

lemma twSqPush_empty (p : β) : (twSqPush SqPkt.empty p).2 = .single 0 p 1 := rfl

/-- A packet pushed again from slot 0 goes to slot 1. -/
lemma twSqPush_first_clear (p : β) :
    Function.update (twSqPush (SqPkt.single 0 p 1) p).2.pkt 0 none = (SqPkt.single 1 p 1).pkt := by
  change Function.update (Function.update (SqPkt.single 0 p 1).pkt 1 (some p)) 0 none = _
  rw [Function.update_comm (by decide), SqPkt.single_clear]
  rfl

/-- A packet pushed again from slot 1 goes to slot 1, which is cleared then. -/
lemma twSqPush_second_clear (p : β) :
    Function.update (twSqPush (SqPkt.single 1 p 1) p).2.pkt 1 none = fun _ => none := by
  change Function.update (Function.update (SqPkt.single 1 p 1).pkt 1 (some p)) 1 none = _
  rw [Function.update_idem, SqPkt.single_clear]

variable {gw : Gateway} {env : Fin maxQueuePackets → GwEnv}

lemma updateSlots_idle {st : GwState} (h : st.sqPktQ.pkt = fun _ => none)
    (is : List (Fin maxQueuePackets)) : updateSlots gw env is st = .ret (st, []) := by
  induction is with
  | nil => rfl
  | cons i is ih =>
    have hi : st.sqPktQ.pkt i = none := by rw [h]
    rw [updateSlots, hi]
    exact ih

lemma finRange_two (n : ℕ) : ∃ rest, List.finRange (n + 2) = 0 :: 1 :: rest := by
  refine ⟨((List.finRange n).map Fin.succ).map Fin.succ, ?_⟩
  rw [List.finRange_succ, List.finRange_succ]
  rfl

lemma updateSlots_used {st : GwState} {i : Fin maxQueuePackets} {p : TwBufPtr}
    (hi : st.sqPktQ.pkt i = some p) {is : List (Fin maxQueuePackets)} {r : GwState × List GwCall}
    (h : updateSlots gw env (i :: is) st = .ret r) :
    ∃ st' calls rest, replyPayload gw (env i) st p = .ret (st', calls) ∧
      updateSlots gw env is { st' with sqPktQ :=
        ⟨Function.update st'.sqPktQ.pkt i none, st'.sqPktQ.nPkts - 1⟩ } = .ret (r.1, rest) ∧
      r.2 = .replay i (st.buf p).pkt :: calls ++ rest := by
  rw [updateSlots, hi] at h
  obtain ⟨⟨st', calls⟩, hreply, h⟩ := Outcome.bind_eq_ret.mp h
  obtain ⟨⟨st'', rest⟩, hrest, h⟩ := Outcome.bind_eq_ret.mp h
  obtain rfl := Outcome.ret.inj h
  exact ⟨st', calls, rest, hreply, hrest, rfl⟩

lemma finRange_slots : ∃ rest, List.finRange maxQueuePackets = 0 :: 1 :: rest := finRange_two 998

lemma updateQueue_used {st : GwState} (h : st.sqPktQ.nPkts = 1) :
    updateQueue gw env st = updateSlots gw env (List.finRange maxQueuePackets) st := by
  have hn : ¬ twNQueue st.sqPktQ < 1 := by
    unfold twNQueue
    rw [h]
    decide
  rw [updateQueue, if_neg hn]

lemma updateQueue_empty {st : GwState} (h : st.sqPktQ = .empty) :
    updateQueue gw env st = .ret (st, []) := by
  unfold updateQueue twNQueue
  rw [h]
  rfl

lemma replay_untouched (i : Fin maxQueuePackets) (pkt : Mbuf) (n : ℕ) :
    Untouched [.replay i pkt] n := ⟨rfl, rfl⟩

/-- The rest of a pass after the packet was pushed again to slot 1. -/
lemma updateSlots_loses {st : GwState} {is : List (Fin maxQueuePackets)}
    {r : GwState × List GwCall} (hrun : updateSlots gw env (1 :: is) st = .ret r)
    (hq : st.sqPktQ = .single 1 .tempBuffer 1)
    (hip : rteBeToCpu16 st.tempBuffer.hdr.etherType = etherTypeIPv4)
    (h : ¬ Settles gw st.arp (st.tempBuffer.hdr.ipDst sizeofEtherHdr)) :
    (r.1.sqPktQ.pkt = fun _ => none) ∧ ∀ n, Untouched r.2 n := by
  have hslot : st.sqPktQ.pkt 1 = some .tempBuffer := by
    rw [hq]
    exact SqPkt.single_pkt.mpr ⟨rfl, rfl⟩
  obtain ⟨st', calls, rest, hreply, hrun, hcalls⟩ := updateSlots_used hslot hrun
  obtain ⟨hclear, hu⟩ :
      (Function.update st'.sqPktQ.pkt 1 none = fun _ => none) ∧ ∀ n, Untouched calls n := by
    rcases (replyPayload_replied hreply hip).unsettled h with ⟨rfl, hu⟩ | ⟨b, rfl, hu⟩
    · simp only [hq]
      exact ⟨twSqPush_second_clear TwBufPtr.tempBuffer, hu⟩
    · simp only [hq]
      exact ⟨SqPkt.single_clear 1 TwBufPtr.tempBuffer 1, hu⟩
  rw [updateSlots_idle hclear] at hrun
  obtain ⟨hst, rfl⟩ := Prod.mk.inj (Outcome.ret.inj hrun)
  rw [← hst, hcalls]
  exact ⟨hclear, fun n => ((replay_untouched 1 _ n).append (hu n)).append ⟨rfl, rfl⟩⟩

variable {st : GwState} (hq : st.sqPktQ = .single 0 .tempBuffer 1)
  (hip : rteBeToCpu16 st.tempBuffer.hdr.etherType = etherTypeIPv4)
include hq hip

variable (env) in
/-- A parked packet that can be disposed of leaves the queue empty. -/
lemma updateQueue_settles
    (h : Settles gw st.arp (st.tempBuffer.hdr.ipDst sizeofEtherHdr)) :
    ∃ b c, updateQueue gw env st = .ret ({ st with sqPktQ := .empty, tempBuffer := b },
        [.replay 0 st.tempBuffer.pkt, c]) ∧
      c.Disposes st.tempBuffer.pkt.addr := by
  obtain ⟨st', calls, hreply⟩ := replyPayload_returns gw (env 0) st hip (Or.inl h)
  obtain ⟨rest, hrange⟩ := finRange_slots
  have hslot : st.sqPktQ.pkt 0 = some .tempBuffer := by rw [hq]; rfl
  cases replyPayload_replied hreply hip with
  | settled b c _ _ hc =>
    refine ⟨b, c, ?_, hc⟩
    have hclear : Function.update st.sqPktQ.pkt 0 none = fun _ => none := by
      rw [hq, SqPkt.single_clear]
    rw [updateQueue_used (by rw [hq]; rfl), hrange, updateSlots, hslot]
    simp only [hreply, Outcome.ret_bind, hclear]
    rw [updateSlots_idle rfl, hq]
    rfl
  | parked es hparks => exact absurd hparks h.not_parks
  | lost b hlost => exact absurd h hlost

/-- A parked packet that cannot be disposed of leaves every slot empty and is neither
sent nor freed. -/
lemma updateQueue_loses
    (h : ¬ Settles gw st.arp (st.tempBuffer.hdr.ipDst sizeofEtherHdr)) {r : GwState × List GwCall}
    (hrun : updateQueue gw env st = .ret r) :
    (r.1.sqPktQ.pkt = fun _ => none) ∧ ∀ n, Untouched r.2 n := by
  obtain ⟨is, hrange⟩ := finRange_slots
  rw [updateQueue_used (by rw [hq]; rfl), hrange] at hrun
  obtain ⟨st₁, calls₁, rest₁, hreply₁, hrun, hcalls⟩ :=
    updateSlots_used (p := .tempBuffer) (by rw [hq]; rfl) hrun
  rw [hcalls]
  rcases (replyPayload_replied hreply₁ hip).unsettled h with ⟨rfl, hu₁⟩ | ⟨b, rfl, hu₁⟩
  · -- the packet went to slot 1, where the same pass finds it again
    have hsecond : (⟨Function.update (twSqPush st.sqPktQ TwBufPtr.tempBuffer).2.pkt 0 none,
        (twSqPush st.sqPktQ TwBufPtr.tempBuffer).2.nPkts - 1⟩ : SqPkt TwBufPtr) =
          .single 1 .tempBuffer 1 := by
      rw [hq, twSqPush_first_clear]
      rfl
    obtain ⟨hidle, hu₂⟩ := updateSlots_loses hrun hsecond hip h
    exact ⟨hidle, fun n => ((replay_untouched 0 _ n).append (hu₁ n)).append (hu₂ n)⟩
  · have hidle : Function.update st.sqPktQ.pkt 0 none = fun _ => none := by
      rw [hq, SqPkt.single_clear]
    rw [updateSlots_idle hidle] at hrun
    obtain ⟨hst, rfl⟩ := Prod.mk.inj (Outcome.ret.inj hrun)
    rw [← hst]
    exact ⟨hidle, fun n => ((replay_untouched 0 _ n).append (hu₁ n)).append ⟨rfl, rfl⟩⟩

end Slots
section Runs
variable (gw : Gateway)

/-- A packet arrives only while none is parked and can be disposed of or parked, and a
tick finds the parked packet only when it can be disposed of. -/
def GwAllowed (s : GwSys) : GwOp → Prop
  | .arrive pkt _ _ env => (∀ i, s.sqPktQ.pkt i = none) ∧
      (Settles gw s.arp (pkt.ipDst sizeofEtherHdr) ∨
        Parks gw s.arp env.pools (pkt.ipDst sizeofEtherHdr))
  | .addArpEntry _ _ _ _ => True
  | .tick _ => (∀ i, s.sqPktQ.pkt i = none) ∨
      Settles gw s.arp (s.tempBuffer.hdr.ipDst sizeofEtherHdr)

/-- An addition gets its block. -/
def GwLegal (s : GwSys) (_ : List GwCall) : GwOp → Prop
  | .addArpEntry _ _ _ mem => mem.pick s.arp.heap ≠ none
  | _ => True

/-- Nothing is parked, or the packet received last is, in slot 0. -/
inductive GwQueue (s : GwSys) (calls : List GwCall) : Prop
  | idle (hq : s.sqPktQ = .empty)
  | holding (hq : s.sqPktQ = .single 0 .tempBuffer 1)
      (haddr : s.tempBuffer.pkt.addr + 1 = s.received)
      (hip : rteBeToCpu16 s.tempBuffer.hdr.etherType = etherTypeIPv4)
      (hpush : lastPushed calls 0 = some s.tempBuffer.pkt.addr)

structure GwInv (s : GwSys) (calls : List GwCall) : Prop where
  kept : NoneLost s calls
  unseen : ∀ n, s.received ≤ n → Untouched calls n
  arp : ∃ xs, s.arp.Lists xs
  queue : GwQueue s calls

variable {gw} {s : GwSys} {calls : List GwCall}

lemma not_describes_idle {st : GwState} (hq : st.sqPktQ.pkt = fun _ => none) (n : ℕ)
    (i : Fin maxQueuePackets) : ¬ Describes st n i := by
  rintro ⟨buffer, hslot, -⟩
  rw [hq] at hslot
  cases hslot

lemma not_describes_of_addr {st : GwState} {n : ℕ} (h : st.tempBuffer.pkt.addr ≠ n)
    (i : Fin maxQueuePackets) : ¬ Describes st n i := by
  rintro ⟨buffer, -, haddr⟩
  cases buffer
  exact h haddr

lemma describes_single {st : GwState} (hq : st.sqPktQ = .single 0 .tempBuffer 1) {n : ℕ}
    {i : Fin maxQueuePackets} :
    Describes st n i ↔ i = 0 ∧ st.tempBuffer.pkt.addr = n := by
  unfold Describes
  rw [hq]
  constructor
  · rintro ⟨buffer, hslot, haddr⟩
    obtain ⟨hi, rfl⟩ := SqPkt.single_pkt.mp hslot
    exact ⟨hi, haddr⟩
  · rintro ⟨hi, haddr⟩
    exact ⟨.tempBuffer, SqPkt.single_pkt.mpr ⟨hi, rfl⟩, haddr⟩

lemma GwQueue.idle_of_unused (h : GwQueue s calls) (hno : ∀ i, s.sqPktQ.pkt i = none) :
    s.sqPktQ = .empty := by
  cases h with
  | idle hq => exact hq
  | holding hq =>
    have hslot := hno 0
    rw [hq] at hslot
    cases hslot

/-- A packet that is disposed of as it arrives. -/
lemma GwInv.arrive_settled (h : GwInv s calls) (hq : s.sqPktQ = .empty) {b : TwBuf} {c : GwCall}
    (hc : c.Disposes s.received) :
    GwInv ⟨{ s.toGwState with tempBuffer := b }, s.received + 1⟩ (calls ++ [c]) := by
  have hno : ∀ n i, ¬ Describes { s.toGwState with tempBuffer := b } n i :=
    not_describes_idle (by rw [hq]; rfl)
  refine ⟨⟨fun n hn => ?_, ?_⟩, fun n hn => ?_, h.arp, .idle hq⟩
  · rcases Nat.lt_succ_iff_lt_or_eq.mp hn with hlt | rfl
    · exact (h.kept.places n hlt).keep (not_describes_idle (by rw [hq]; rfl) n) (hno n)
        (hc.others (Nat.ne_of_lt hlt))
    · exact .dispose (h.unseen _ le_rfl) (hno _) hc.once
  · apply h.kept.replays.snoc
    rintro i pkt rfl
    cases hc
  · exact (h.unseen n (Nat.le_of_succ_le hn)).append (hc.others (Nat.ne_of_gt hn))

lemma lastPushed_snoc (i : Fin maxQueuePackets) (pkt : Mbuf) :
    lastPushed (calls ++ [.sqPush i pkt]) i = some pkt.addr := by
  simp [lastPushed, GwCall.pushedAt]

/-- A packet that is parked as it arrives. -/
lemma GwInv.arrive_parked (h : GwInv s calls) (hq : s.sqPktQ = .empty) {b : TwBuf}
    (haddr : b.pkt.addr = s.received)
    (hip : rteBeToCpu16 b.hdr.etherType = etherTypeIPv4) (es : List PktEffect) :
    GwInv ⟨⟨s.arp, .single 0 .tempBuffer 1, b⟩, s.received + 1⟩
      (calls ++ [.sendArpRequest es, .sqPush 0 b.pkt]) := by
  have hu : ∀ n, Untouched [.sendArpRequest es, .sqPush 0 b.pkt] n := fun n => ⟨rfl, rfl⟩
  have hslot : ∀ n i, Describes ⟨s.arp, .single 0 .tempBuffer 1, b⟩ n i ↔ i = 0 ∧ b.pkt.addr = n :=
    fun n i => describes_single rfl
  have hsplit : calls ++ [.sendArpRequest es, .sqPush 0 b.pkt] =
      (calls ++ [.sendArpRequest es]) ++ [.sqPush 0 b.pkt] := by simp
  refine ⟨⟨fun n hn => ?_, ?_⟩, fun n hn => ?_, h.arp, ?_⟩
  · rcases Nat.lt_succ_iff_lt_or_eq.mp hn with hlt | rfl
    · apply (h.kept.places n hlt).keep (not_describes_idle (by rw [hq]; rfl) n) _ (hu n)
      intro i hi
      have hn := ((hslot n i).mp hi).2
      omega
    · obtain ⟨hs, hf⟩ := (h.unseen s.received le_rfl).append (hu s.received)
      exact .parked ⟨0, (hslot _ 0).mpr ⟨rfl, haddr⟩, fun i hi => ((hslot _ i).mp hi).1⟩ hs hf
  · rw [hsplit]
    apply ReplaysPushed.snoc
    · exact h.kept.replays.snoc fun i pkt hc => nomatch hc
    · exact fun i pkt hc => nomatch hc
  · exact (h.unseen n (Nat.le_of_succ_le hn)).append (hu n)
  · refine .holding rfl (by rw [haddr]) hip ?_
    rw [hsplit]
    exact lastPushed_snoc 0 b.pkt

/-- A parked packet that a tick disposes of. -/
lemma GwInv.tick_settled (h : GwInv s calls) (hq : s.sqPktQ = .single 0 .tempBuffer 1)
    (haddr : s.tempBuffer.pkt.addr + 1 = s.received)
    (hpush : lastPushed calls 0 = some s.tempBuffer.pkt.addr) {b : TwBuf} {c : GwCall}
    (hc : c.Disposes s.tempBuffer.pkt.addr) :
    GwInv ⟨⟨s.arp, .empty, b⟩, s.received⟩ (calls ++ [.replay 0 s.tempBuffer.pkt, c]) := by
  have hno : ∀ n i, ¬ Describes ⟨s.arp, .empty, b⟩ n i := not_describes_idle rfl
  have hothers : ∀ n, n ≠ s.tempBuffer.pkt.addr →
      Untouched [.replay 0 s.tempBuffer.pkt, c] n := fun n hn =>
    (replay_untouched 0 _ n).append (hc.others hn)
  have honce : SettledOnce [.replay 0 s.tempBuffer.pkt, c] s.tempBuffer.pkt.addr := hc.once
  have hsplit : calls ++ [.replay 0 s.tempBuffer.pkt, c] =
      (calls ++ [.replay 0 s.tempBuffer.pkt]) ++ [c] := by simp
  refine ⟨⟨fun n hn => ?_, ?_⟩, fun n hn => ?_, h.arp, .idle rfl⟩
  · have hplace := h.kept.places n hn
    by_cases hlast : n = s.tempBuffer.pkt.addr
    · subst hlast
      exact .dispose (hplace.untouched ((describes_single hq).mpr ⟨rfl, rfl⟩)) (hno _) honce
    · exact hplace.keep (fun i hi => hlast ((describes_single hq).mp hi).2.symm) (hno n)
        (hothers n hlast)
  · rw [hsplit]
    apply ReplaysPushed.snoc
    · apply h.kept.replays.snoc
      intro i pkt hr
      obtain ⟨rfl, rfl⟩ := GwCall.replay.inj hr
      exact hpush
    · rintro i pkt rfl
      cases hc
  · have hlt : s.tempBuffer.pkt.addr < n := Nat.lt_of_lt_of_le (Nat.lt_of_succ_le haddr.le) hn
    exact (h.unseen n hn).append (hothers n hlt.ne')

lemma GwInv.learn (h : GwInv s calls) {arp : ArpState} (harp : ∃ xs, arp.Lists xs) :
    GwInv { s with arp } calls := by
  refine ⟨⟨fun n hn => ?_, h.kept.replays⟩, h.unseen, harp, ?_⟩
  · cases h.kept.places n hn with
    | parked slot hs hf => exact .parked slot hs hf
    | sent slot hs hf => exact .sent slot hs hf
    | freed slot hs hf => exact .freed slot hs hf
  · cases h.queue with
    | idle hq => exact .idle hq
    | holding hq haddr hip hpush => exact .holding hq haddr hip hpush

lemma GwInv.arrive_step (h : GwInv s calls) {pkt : Mbuf}
    (ipv4 : rteBeToCpu16 pkt.etherType = etherTypeIPv4) (portName : Fin maxEthPorts) {env : GwEnv}
    (hno : ∀ i, s.sqPktQ.pkt i = none)
    (hdst : Settles gw s.arp (pkt.ipDst sizeofEtherHdr) ∨
      Parks gw s.arp env.pools (pkt.ipDst sizeofEtherHdr)) :
    ∃ s' calls', stepGw gw s (.arrive pkt ipv4 portName env) = .ret (s', calls') ∧
      GwInv s' (calls ++ calls') := by
  have hq := h.queue.idle_of_unused hno
  have hip : rteBeToCpu16 (describe { pkt with addr := s.received } portName).hdr.etherType =
      etherTypeIPv4 := ipv4
  obtain ⟨st', calls', hreply⟩ := replyPayload_returns gw env { s.toGwState with
    tempBuffer := describe { pkt with addr := s.received } portName } hip hdst
  refine ⟨⟨st', s.received + 1⟩, calls', by rw [stepGw, hreply]; rfl, ?_⟩
  cases replyPayload_replied hreply hip with
  | settled b c _ _ hc => exact h.arrive_settled hq hc
  | parked es _ =>
    simp only [hq, twSqPush_empty]
    exact h.arrive_parked hq rfl hip es
  | lost b hns hnp => exact absurd hdst (not_or.mpr ⟨hns, hnp⟩)

lemma GwInv.tick_step (h : GwInv s calls) (env : Fin maxQueuePackets → GwEnv)
    (hallowed : GwAllowed gw s (.tick env)) :
    ∃ s' calls', stepGw gw s (.tick env) = .ret (s', calls') ∧ GwInv s' (calls ++ calls') := by
  cases h.queue with
  | idle hq =>
    refine ⟨s, [], by rw [stepGw, updateQueue_empty hq]; rfl, ?_⟩
    rw [List.append_nil]
    exact h
  | holding hq haddr hip hpush =>
    have hsettles : Settles gw s.arp (s.tempBuffer.hdr.ipDst sizeofEtherHdr) := by
      refine hallowed.resolve_left fun hno => ?_
      have hslot := hno 0
      rw [hq] at hslot
      cases hslot
    obtain ⟨b, c, hrun, hc⟩ := updateQueue_settles env hq hip hsettles
    exact ⟨_, _, by rw [stepGw, hrun]; rfl, h.tick_settled hq haddr hpush hc⟩

/-- An allowed step of the gateway returns and keeps every packet in one place. -/
lemma GwInv.step (h : GwInv s calls) {o : GwOp} (hlegal : GwLegal s calls o)
    (hallowed : GwAllowed gw s o) :
    ∃ s' calls', stepGw gw s o = .ret (s', calls') ∧ GwInv s' (calls ++ calls') := by
  cases o with
  | arrive pkt ipv4 portName env => exact h.arrive_step ipv4 portName hallowed.1 hallowed.2
  | addArpEntry ip mac portId mem =>
    obtain ⟨xs, hxs⟩ := h.arp
    obtain ⟨⟨a, junk⟩, hpick⟩ := Option.ne_none_iff_exists'.mp hlegal
    obtain ⟨arp, hadd, hlists, -⟩ := twAddArpEntry_some hxs hpick ip mac portId
    refine ⟨{ s with arp }, [], by rw [stepGw, hadd]; rfl, ?_⟩
    rw [List.append_nil]
    exact h.learn ⟨_, hlists⟩
  | tick env => exact h.tick_step env hallowed

/-- The parked packet has been neither sent nor freed. -/
lemma GwInv.parked_untouched (h : GwInv s calls) (hq : s.sqPktQ = .single 0 .tempBuffer 1)
    (haddr : s.tempBuffer.pkt.addr + 1 = s.received) :
    Untouched calls s.tempBuffer.pkt.addr :=
  (h.kept.places _ (Nat.lt_of_succ_le haddr.le)).untouched
    ((describes_single hq).mpr ⟨rfl, rfl⟩)

lemma GwInv.arrive_allowed (h : GwInv s calls) {pkt : Mbuf}
    {ipv4 : rteBeToCpu16 pkt.etherType = etherTypeIPv4} {portName : Fin maxEthPorts}
    {env : GwEnv} {s' : GwSys} {calls' : List GwCall}
    (hstep : stepGw gw s (.arrive pkt ipv4 portName env) = .ret (s', calls'))
    (hkept : NoneLost s' (calls ++ calls')) :
    GwAllowed gw s (.arrive pkt ipv4 portName env) := by
  obtain ⟨⟨st', calls''⟩, hreply, hret⟩ := Outcome.bind_eq_ret.mp hstep
  obtain ⟨rfl, rfl⟩ := Prod.mk.inj (Outcome.ret.inj hret)
  have hreplied := replyPayload_replied hreply ipv4
  cases h.queue with
  | idle hq =>
    refine ⟨fun i => by rw [hq]; rfl, ?_⟩
    cases hreplied with
    | settled b c hs => exact Or.inl hs
    | parked es hp => exact Or.inr hp
    | lost b =>
      have hu : Untouched (calls ++ []) s.received := (h.unseen _ le_rfl).append ⟨rfl, rfl⟩
      exact absurd (hkept.places s.received (Nat.lt_succ_self _))
        (hu.lost (not_describes_idle (by rw [hq]; rfl) _))
  | holding hq haddr =>
    -- the description is overwritten, and the parked packet with it
    have hne : s.tempBuffer.pkt.addr ≠ s.received := by omega
    have hafter : ∀ i, ¬ Describes st' s.tempBuffer.pkt.addr i :=
      not_describes_of_addr fun hst => hne (hst.symm.trans hreplied.addr)
    have hlast : s.tempBuffer.pkt.addr < s.received + 1 := by omega
    exact absurd (hkept.places _ hlast)
      (((h.parked_untouched hq haddr).append (hreplied.others hne)).lost hafter)

lemma GwInv.tick_allowed (h : GwInv s calls) {env : Fin maxQueuePackets → GwEnv} {s' : GwSys}
    {calls' : List GwCall} (hstep : stepGw gw s (.tick env) = .ret (s', calls'))
    (hkept : NoneLost s' (calls ++ calls')) : GwAllowed gw s (.tick env) := by
  cases h.queue with
  | idle hq => exact Or.inl fun i => by rw [hq]; rfl
  | holding hq haddr hip =>
    apply Or.inr
    by_contra hns
    obtain ⟨⟨st', calls''⟩, hrun, hret⟩ := Outcome.bind_eq_ret.mp hstep
    obtain ⟨rfl, rfl⟩ := Prod.mk.inj (Outcome.ret.inj hret)
    obtain ⟨hidle, hu⟩ := updateQueue_loses hq hip hns hrun
    exact absurd (hkept.places _ (Nat.lt_of_succ_le haddr.le))
      (((h.parked_untouched hq haddr).append (hu _)).lost (not_describes_idle hidle _))

/-- A step that is not allowed leaves some packet nowhere, if it returns. -/
lemma GwInv.allowed (h : GwInv s calls) {o : GwOp} {s' : GwSys} {calls' : List GwCall}
    (hstep : stepGw gw s o = .ret (s', calls')) (hkept : NoneLost s' (calls ++ calls')) :
    GwAllowed gw s o := by
  cases o with
  | arrive pkt ipv4 portName env => exact h.arrive_allowed hstep hkept
  | addArpEntry ip mac portId mem => trivial
  | tick env => exact h.tick_allowed hstep hkept

/-- From an empty queue, no packet is lost or handled twice throughout exactly those runs
whose every step is allowed. -/
theorem gateway_noneLost_iff {st : GwState} {xs : List (ℕ × ArpEntry)} (harp : st.arp.Lists xs)
    (hq : st.sqPktQ = .empty) {os : List GwOp}
    (hlegal : EachCall (stepGw gw) ⟨st, 0⟩ GwLegal os) :
    Throughout (stepGw gw) ⟨st, 0⟩ (fun _ s calls => NoneLost s calls) os ↔
      EachStep (stepGw gw) ⟨st, 0⟩ (GwAllowed gw) os := by
  have hinit : GwInv ⟨st, 0⟩ [] := by
    refine ⟨⟨fun n hn => absurd hn (Nat.not_lt_zero n), ?_⟩, fun n _ => ⟨rfl, rfl⟩, ⟨xs, harp⟩,
      .idle hq⟩
    intro pre i pkt post heq
    simp at heq
  exact throughout_iff_of_invariant (J := fun _ s calls => GwInv s calls) hinit
    (fun _ s calls h => h.kept) (fun _ s calls o h hl hc => h.step hl hc)
    (fun _ s calls o h _ s' calls' hstep hkept => h.allowed hstep hkept) hlegal

/-- One route, for every destination, on the first of two ports. -/
def oneRoute : Gateway where
  ports i := ⟨fun _ => portByte i, [0x74, 0x77, 0x30 + portByte i],
    0x0a0a0105 + (portByte i).toUInt32, 0, 0⟩
  routes := ⟨Heap.empty.write 0 ⟨⟨0, 0, 0, ![0x74, 0x77, 0x30]⟩, none⟩, some 0, fun _ => 64, 1⟩
  dstEth0 _ := 0
  dstEth1 _ := 1

def plentiful : GwEnv :=
  ⟨⟨fun _ => 0, fun _ => some (0, fun _ => 0)⟩, .bump ⟨⟨0, fun _ => 0, 0⟩, none⟩⟩

/-- An IPv4 packet for 10.10.9.9. -/
def transitPkt : Mbuf :=
  ((⟨0, fun _ => 0, mbufBufLen, headroom, 60⟩ : Mbuf).setEtherType
    (rteCpuToBe16 etherTypeIPv4)).setIpDst sizeofEtherHdr (rteCpuToBe32 0x0a0a0909)

def idleGateway : GwState := ⟨.empty, .empty, describe transitPkt 0⟩

def arriveTransit : GwOp := .arrive transitPkt (by decide) 0 plentiful

lemma transit_parks : Parks oneRoute .empty plentiful.pools (transitPkt.ipDst sizeofEtherHdr) :=
  ⟨rfl, rfl, tw0, ⟨0, _, rfl, rfl, rfl⟩, by decide, fun h => nomatch h⟩

theorem gateway_noneLost_resolved :
    Throughout (stepGw oneRoute) ⟨idleGateway, 0⟩ (fun _ s calls => NoneLost s calls)
      [arriveTransit, .addArpEntry (rteCpuToBe32 0x0a0a0909) (fun _ => 9) 0 plentiful.mem,
        .tick fun _ => plentiful] := by
  have harp : idleGateway.arp.Lists [] := rfl
  apply (gateway_noneLost_iff harp rfl ?_).mpr
  · refine eachCall_cons rfl ⟨fun _ => rfl, Or.inr transit_parks⟩
      (eachCall_cons rfl trivial (eachCall_singleton (Or.inr ?_)))
    exact Or.inr ⟨rfl, Or.inr ⟨Or.inl ⟨0, _, rfl, rfl, rfl⟩, _, rfl⟩⟩
  · refine eachCall_of_forall fun o ho s calls => ?_
    simp only [List.mem_cons, List.not_mem_nil, or_false] at ho
    rcases ho with rfl | rfl | rfl
    · trivial
    · exact Option.some_ne_none _
    · trivial

/-- A second packet takes over the description of the first, which is parked. -/
theorem gateway_loses_parked :
    EachCall (stepGw oneRoute) ⟨idleGateway, 0⟩ GwLegal [arriveTransit, arriveTransit] ∧
    ¬ Throughout (stepGw oneRoute) ⟨idleGateway, 0⟩ (fun _ s calls => NoneLost s calls)
      [arriveTransit, arriveTransit] := by
  have hlegal : ∀ o ∈ [arriveTransit, arriveTransit], ∀ s calls, GwLegal s calls o := by
    intro o ho s calls
    obtain rfl : o = arriveTransit := by simpa using ho
    trivial
  refine ⟨eachCall_of_forall hlegal, fun hall => ?_⟩
  obtain ⟨s, calls, hrun, hkept⟩ := hall _ List.prefix_rfl
  obtain ⟨rfl, rfl⟩ : _ = s ∧ _ = calls := Prod.mk.inj (Outcome.ret.inj hrun)
  refine Untouched.lost ?_ ?_ (hkept.places 0 Nat.zero_lt_two)
  · exact ⟨rfl, rfl⟩
  · exact not_describes_of_addr Nat.one_ne_zero

end Runs
end Twister
