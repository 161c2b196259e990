import Twister.Tx

/-! The transmit buffers refine one bounded list of packets per port. -/
namespace Twister
variable {μ : Type}

namespace MbufTable

lemma first_length {t : MbufTable μ} {n : ℕ} (h : n ≤ maxTxPktBurst) : (t.first n).length = n := by
  simpa [first] using h

lemma first_getElem {t : MbufTable μ} {n r : ℕ} (hr : r < (t.first n).length)
    (h : r < maxTxPktBurst) : (t.first n)[r] = t.mTable ⟨r, h⟩ := by
  simp [first]

lemma first_zero (t : MbufTable μ) : t.first 0 = [] := by simp [first]

lemma first_update {t : MbufTable μ} {i : Fin maxTxPktBurst} (m : μ) (len : Int) :
    MbufTable.first ⟨len, Function.update t.mTable i m⟩ (i.val + 1) = t.first i.val ++ [m] := by
  have hi := i.isLt
  apply List.ext_getElem
  · rw [first_length (by omega), List.length_append, first_length (by omega)]
    rfl
  · intro j h₁ h₂
    have hj : j < i.val + 1 := by simpa [first_length (t := t) hi.le] using h₂
    rw [first_getElem _ (by omega)]
    by_cases he : j = i.val
    · subst he
      simp [List.getElem_append_right, first_length hi.le]
    · have hlt : j < i.val := by omega
      have hne : (⟨j, by omega⟩ : Fin maxTxPktBurst) ≠ i := fun h => he (congrArg Fin.val h)
      rw [List.getElem_append_left (by rw [first_length hi.le]; exact hlt),
        first_getElem _ (by omega)]
      exact Function.update_of_ne hne _ _

end MbufTable

/-- Entering the loop below `n` frees every entry from there to `n` and leaves the
index at `n`. -/
lemma freeTail_spec {t : MbufTable μ} {n r fuel : ℕ} (hr : r < n) (hn : n ≤ maxTxPktBurst)
    (hf : n - r ≤ fuel) : freeTail t n fuel r = .ret ((t.first n).drop r, n) := by
  induction fuel generalizing r with
  | zero => omega
  | succ fuel ih =>
    have hlt : r < maxTxPktBurst := by omega
    have hlen : r < (t.first n).length := by rw [MbufTable.first_length hn]; exact hr
    rw [List.drop_eq_getElem_cons hlen, MbufTable.first_getElem hlen hlt]
    simp only [freeTail, MbufTable.entry, dif_pos hlt, Outcome.ret_bind]
    by_cases hnext : r + 1 < n
    · rw [if_pos hnext, ih hnext (by omega)]
      rfl
    · have he : r + 1 = n := by omega
      rw [if_neg hnext, he, List.drop_of_length_le (by rw [MbufTable.first_length hn])]

def burst (nic : Nic) (port : UInt8) (ms : List μ) : List (TxEvent μ) :=
  (ms.take (nic.accept port ms.length)).map (.accepted port) ++
    (ms.drop (nic.accept port ms.length)).map (.dropped port)

def TwStats.sent (stats : TwStats) (k : ℕ) : TwStats :=
  { stats with pktsTx := stats.pktsTx + UInt64.ofNat k }

lemma txSlot_ret {port : ℕ} {p : Fin maxEthPorts} (h : port = p.val) : txSlot port = .ret p := by
  subst h
  simp [txSlot]

/-- A burst sends or drops each of the first `n` packets and counts only the sent ones. -/
theorem twSendBurst_eq (nic : Nic) (st : TxState μ) {n : ℕ} {port : UInt8} {p : Fin maxEthPorts}
    (hp : port.toNat = p.val) (hn : n ≤ maxTxPktBurst) :
    twSendBurst nic st n port = .ret ({ st with stats := st.stats.sent (nic.accept port n) },
      burst nic port ((st.conf.txMbufs p).first n)) := by
  have hm : maxTxPktBurst = 32 := rfl
  have hmod : n % 65536 = n := Nat.mod_eq_of_lt (by omega)
  have hle := nic.accept_le port n
  have htake : ((st.conf.txMbufs p).first n).take (nic.accept port n) =
      (st.conf.txMbufs p).first (nic.accept port n) := by
    simp [MbufTable.first, ← List.map_take, List.take_take, hle]
  have hread : (st.conf.txMbufs p).readFirst (nic.accept port n) =
      .ret ((st.conf.txMbufs p).first (nic.accept port n)) := if_pos (by omega)
  simp only [twSendBurst, txSlot_ret hp, hmod, Outcome.ret_bind, hread, burst,
    MbufTable.first_length hn, htake]
  by_cases hk : nic.accept port n < n
  · rw [if_pos hk, freeTail_spec hk hn (by omega)]
    simp [TwStats.sent]
  · rw [if_neg hk, List.drop_of_length_le (by rw [MbufTable.first_length hn]; omega)]
    simp [TwStats.sent]

abbrev TxQueues (μ : Type) := Fin maxEthPorts → List μ

namespace LcoreConf

def queues (c : LcoreConf μ) : TxQueues μ := fun p => (c.txMbufs p).buffered

def Bounded (c : LcoreConf μ) : Prop :=
  ∀ p, 0 ≤ (c.txMbufs p).len ∧ (c.txMbufs p).len < maxTxPktBurst

lemma Bounded.toNat_lt {c : LcoreConf μ} (h : c.Bounded) (p : Fin maxEthPorts) :
    (c.txMbufs p).len.toNat < maxTxPktBurst := by
  have := h p
  omega

lemma Bounded.asUnsigned {c : LcoreConf μ} (h : c.Bounded) (p : Fin maxEthPorts) :
    asUnsigned (c.txMbufs p).len = (c.txMbufs p).len.toNat := by
  have h₁ := h p
  have hm : maxTxPktBurst = 32 := rfl
  unfold Twister.asUnsigned
  omega

lemma queues_length {c : LcoreConf μ} (h : c.Bounded) (p : Fin maxEthPorts) :
    ((c.queues p).length : Int) = (c.txMbufs p).len := by
  have := h p
  rw [queues, MbufTable.buffered, MbufTable.first_length (h.toNat_lt p).le]
  omega

lemma setTable_bounded {c : LcoreConf μ} (h : c.Bounded) {p : Fin maxEthPorts} {t : MbufTable μ}
    (ht : 0 ≤ t.len ∧ t.len < maxTxPktBurst) : (c.setTable p t).Bounded := by
  intro q
  by_cases hq : q = p
  · subst hq; simpa [setTable] using ht
  · simpa [setTable, hq] using h q

lemma setTable_setLen (c : LcoreConf μ) (p : Fin maxEthPorts) (t : MbufTable μ) (len : Int) :
    (c.setTable p t).setLen p len = c.setTable p { t with len := len } := by
  simp [setTable, setLen]

lemma setTable_queues (c : LcoreConf μ) (p : Fin maxEthPorts) (t : MbufTable μ) :
    (c.setTable p t).queues = Function.update c.queues p t.buffered := by
  funext q
  by_cases hq : q = p
  · subst hq; simp [queues, setTable]
  · simp [queues, setTable, hq]

end LcoreConf

namespace TxEvent

def isAccepted : TxEvent μ → Bool
  | .accepted _ _ => true
  | .dropped _ _ => false

def isDropped (e : TxEvent μ) : Bool := !e.isAccepted

lemma countP_add_countP (es : List (TxEvent μ)) :
    es.countP isAccepted + es.countP isDropped = es.length := by
  induction es with
  | nil => rfl
  | cons e es ih =>
    rw [List.countP_cons, List.countP_cons, List.length_cons, ← ih]
    cases e <;> simp [isAccepted, isDropped] <;> omega

def port : TxEvent μ → UInt8
  | .accepted port _ => port
  | .dropped port _ => port

def mbuf : TxEvent μ → μ
  | .accepted _ m => m
  | .dropped _ m => m

end TxEvent

lemma burst_nil (nic : Nic) (port : UInt8) : burst nic port ([] : List μ) = [] := by simp [burst]

lemma burst_length (nic : Nic) (port : UInt8) (ms : List μ) :
    (burst nic port ms).length = ms.length := by
  have := nic.accept_le port ms.length
  simp [burst]
  omega

lemma burst_accepted (nic : Nic) (port : UInt8) (ms : List μ) :
    (burst nic port ms).countP TxEvent.isAccepted = nic.accept port ms.length := by
  have h := nic.accept_le port ms.length
  have ha : TxEvent.isAccepted ∘ TxEvent.accepted port = fun _ : μ => true := rfl
  have hd : TxEvent.isAccepted ∘ TxEvent.dropped port = fun _ : μ => false := rfl
  rw [burst, List.countP_append, List.countP_map, List.countP_map, ha, hd]
  simp [h]

namespace TwStats

@[simp] lemma sent_zero (stats : TwStats) : stats.sent 0 = stats := by simp [sent]

lemma sent_sent (stats : TwStats) (a b : ℕ) : (stats.sent a).sent b = stats.sent (a + b) := by
  simp [sent, UInt64.ofNat_add, add_assoc]

end TwStats

namespace TxQueues

def push (nic : Nic) (q : TxQueues μ) (m : μ) (p : Fin maxEthPorts) :
    TxQueues μ × List (TxEvent μ) :=
  if (q p).length + 1 = maxTxPktBurst then
    (Function.update q p [], burst nic (portByte p) (q p ++ [m]))
  else (Function.update q p (q p ++ [m]), [])

def drainEvents (nic : Nic) (q : TxQueues μ) : ℕ → List (TxEvent μ)
  | 0 => []
  | n + 1 => drainEvents nic q n ++
      if h : n < maxEthPorts then burst nic (portByte ⟨n, h⟩) (q ⟨n, h⟩) else []

def drain (nic : Nic) (q : TxQueues μ) (n : ℕ) : TxQueues μ × List (TxEvent μ) :=
  (fun p => if p.val < n then [] else q p, drainEvents nic q n)

end TxQueues

theorem twAddPktToTxQueue_refines (nic : Nic) (st : TxState μ) (m : μ) (p : Fin maxEthPorts)
    (hb : st.conf.Bounded) :
    ∃ st', twAddPktToTxQueue nic st m (portByte p) =
        .ret (st', (st.conf.queues.push nic m p).2) ∧
      st'.conf.Bounded ∧ st'.conf.queues = (st.conf.queues.push nic m p).1 ∧
      st'.conf.numPort = st.conf.numPort ∧ st'.prevTsc = st.prevTsc ∧
      st'.stats = st.stats.sent
        ((st.conf.queues.push nic m p).2.countP TxEvent.isAccepted) := by
  have hlt := hb.toNat_lt p
  have hlen : (st.conf.queues p).length = (st.conf.txMbufs p).len.toNat := by
    have := LcoreConf.queues_length hb p
    omega
  -- the table after the store, before its length is written back
  generalize ht : (⟨(st.conf.txMbufs p).len, Function.update (st.conf.txMbufs p).mTable
    ⟨_, hlt⟩ m⟩ : MbufTable μ) = t
  have hset : (st.conf.txMbufs p).setEntry (st.conf.txMbufs p).len.toNat m = .ret t := by
    rw [← ht]
    exact dif_pos hlt
  have hfirst : ∀ len, MbufTable.first ⟨len, t.mTable⟩ ((st.conf.txMbufs p).len.toNat + 1) =
      st.conf.queues p ++ [m] := by
    intro len
    rw [← ht]
    exact MbufTable.first_update (i := ⟨_, hlt⟩) m len
  simp only [twAddPktToTxQueue, txSlot_ret (portByte_toNat p), Outcome.ret_bind, hb.asUnsigned,
    hset, TxQueues.push, hlen]
  by_cases hfull : (st.conf.txMbufs p).len.toNat + 1 = maxTxPktBurst
  · have hitems : t.first maxTxPktBurst = st.conf.queues p ++ [m] := by
      rw [← hfull]
      exact hfirst t.len
    have hl : (st.conf.queues p ++ [m]).length = maxTxPktBurst := by simp [hlen, hfull]
    rw [if_pos hfull, if_pos hfull, twSendBurst_eq nic _ (portByte_toNat p) le_rfl]
    have htab : (st.conf.setTable p t).txMbufs p = t := by simp [LcoreConf.setTable]
    simp only [htab, hitems, Outcome.ret_bind, LcoreConf.setTable_setLen]
    refine ⟨_, rfl, ?_, ?_, rfl, rfl, ?_⟩
    · exact LcoreConf.setTable_bounded hb ⟨le_rfl, by simp [maxTxPktBurst]⟩
    · rw [LcoreConf.setTable_queues, MbufTable.buffered]
      simp [MbufTable.first_zero]
    · rw [burst_accepted, hl]
  · rw [if_neg hfull, if_neg hfull, LcoreConf.setTable_setLen]
    refine ⟨_, rfl, ?_, ?_, rfl, rfl, by simp⟩
    · exact LcoreConf.setTable_bounded hb ⟨by positivity, by simp; omega⟩
    · rw [LcoreConf.setTable_queues, MbufTable.buffered]
      exact congrArg _ (hfirst _)

def LcoreConf.drained (c : LcoreConf μ) (n : ℕ) : LcoreConf μ :=
  { c with txMbufs := fun p =>
      if p.val < n then { c.txMbufs p with len := 0 } else c.txMbufs p }

namespace LcoreConf

lemma drained_zero (c : LcoreConf μ) : c.drained 0 = c := by simp [drained]

lemma drained_txMbufs_self (c : LcoreConf μ) (p : Fin maxEthPorts) :
    (c.drained p.val).txMbufs p = c.txMbufs p := by simp [drained]

lemma drained_setLen (c : LcoreConf μ) (p : Fin maxEthPorts) :
    (c.drained p.val).setLen p 0 = c.drained (p.val + 1) := by
  simp only [setLen, setTable, drained_txMbufs_self]
  simp only [drained, LcoreConf.mk.injEq, true_and]
  funext q
  by_cases hq : q = p
  · subst hq; simp
  · have hne : q.val ≠ p.val := fun h => hq (Fin.ext h)
    rw [Function.update_of_ne hq]
    by_cases hlt : q.val < p.val
    · rw [if_pos hlt, if_pos (by omega)]
    · rw [if_neg hlt, if_neg (by omega)]

lemma drained_succ_of_empty {c : LcoreConf μ} {p : Fin maxEthPorts} (h : (c.txMbufs p).len = 0) :
    c.drained (p.val + 1) = c.drained p.val := by
  rw [← drained_setLen, setLen, setTable, drained_txMbufs_self]
  have ht : ({ c.txMbufs p with len := 0 } : MbufTable μ) = (c.drained p.val).txMbufs p := by
    rw [drained_txMbufs_self, ← h]
  rw [ht, Function.update_eq_self]

lemma drained_bounded {c : LcoreConf μ} (h : c.Bounded) (n : ℕ) : (c.drained n).Bounded := by
  intro p
  by_cases hp : p.val < n
  · simp [drained, hp, maxTxPktBurst]
  · simpa [drained, hp] using h p

lemma drained_queues (c : LcoreConf μ) (nic : Nic) (n : ℕ) :
    (c.drained n).queues = (c.queues.drain nic n).1 := by
  funext p
  by_cases hp : p.val < n
  · simp [queues, drained, TxQueues.drain, hp, MbufTable.buffered, MbufTable.first_zero]
  · simp [queues, drained, TxQueues.drain, hp]

end LcoreConf

lemma drainLoop_eq (nic : Nic) (cur : UInt32) (st : TxState μ) (hb : st.conf.Bounded) {n : ℕ}
    (hn : n ≤ maxEthPorts) :
    ∃ st', runOps (drainPort nic cur) st (List.range n) =
        .ret (st', (st.conf.queues.drain nic n).2) ∧ st'.conf = st.conf.drained n ∧
      st'.stats = st.stats.sent ((st.conf.queues.drain nic n).2.countP TxEvent.isAccepted) := by
  induction n with
  | zero =>
    exact ⟨st, rfl, st.conf.drained_zero.symm, by simp [TxQueues.drain, TxQueues.drainEvents]⟩
  | succ n ih =>
    obtain ⟨s, hrun, hconf, hstats⟩ := ih (by omega)
    obtain ⟨p, rfl⟩ : ∃ p : Fin maxEthPorts, n = p.val := ⟨⟨n, by omega⟩, rfl⟩
    have htab : s.conf.txMbufs p = st.conf.txMbufs p := by
      rw [hconf, LcoreConf.drained_txMbufs_self]
    have hev : (st.conf.queues.drain nic (p.val + 1)).2 =
        (st.conf.queues.drain nic p.val).2 ++ burst nic (portByte p) (st.conf.queues p) := by
      simp [TxQueues.drain, TxQueues.drainEvents]
    rw [List.range_succ, runOps_snoc hrun, hev, List.countP_append, ← TwStats.sent_sent, ← hstats]
    simp only [drainPort, txSlot_ret rfl, Outcome.ret_bind, htab]
    by_cases hl : (st.conf.txMbufs p).len = 0
    · have hq : st.conf.queues p = [] := by
        simp [LcoreConf.queues, MbufTable.buffered, hl, MbufTable.first_zero]
      rw [if_pos hl, hq, burst_nil, LcoreConf.drained_succ_of_empty hl]
      exact ⟨s, rfl, hconf, by simp⟩
    · have hle : asUnsigned (st.conf.txMbufs p).len ≤ maxTxPktBurst := by
        rw [hb.asUnsigned]
        exact (hb.toNat_lt p).le
      have hsend : twSendBurst nic s (asUnsigned (st.conf.txMbufs p).len) (UInt8.ofNat p.val) = _ :=
        twSendBurst_eq nic s (portByte_toNat p) hle
      rw [if_neg hl, hsend]
      have hitems : (s.conf.txMbufs p).first (asUnsigned (st.conf.txMbufs p).len) =
          st.conf.queues p := by
        rw [htab, hb.asUnsigned]
        rfl
      have hlen : asUnsigned (st.conf.txMbufs p).len = (st.conf.queues p).length := by
        have := LcoreConf.queues_length hb p
        rw [hb.asUnsigned]
        omega
      simp only [Outcome.ret_bind, hitems]
      refine ⟨_, rfl, ?_, ?_⟩
      · rw [hconf, LcoreConf.drained_setLen]
      · rw [burst_accepted, hlen]
        rfl

def drainDue (hz tsc : UInt64) (st : TxState μ) : Prop :=
  (diffTsc tsc st.prevTsc).toUInt64 > drainTsc hz

instance (hz tsc : UInt64) (st : TxState μ) : Decidable (drainDue hz tsc st) :=
  inferInstanceAs (Decidable (_ > _))

/-- A due call empties the buffers of the ports with ids below `num_port`. -/
theorem twTimelyBurst_due {hz tsc : UInt64} {st : TxState μ} (nic : Nic) (hb : st.conf.Bounded)
    (hn : st.conf.numPort.toNat ≤ maxEthPorts) (hd : drainDue hz tsc st) :
    ∃ st', twTimelyBurst hz nic tsc st =
        .ret (st', (st.conf.queues.drain nic st.conf.numPort.toNat).2) ∧
      st'.conf = st.conf.drained st.conf.numPort.toNat ∧
      st'.stats = st.stats.sent
        ((st.conf.queues.drain nic st.conf.numPort.toNat).2.countP TxEvent.isAccepted) := by
  obtain ⟨st', hrun, hconf, hstats⟩ := drainLoop_eq nic tsc.toUInt32 st hb hn
  exact ⟨st', (if_pos hd).trans hrun, hconf, hstats⟩

lemma twTimelyBurst_idle {hz tsc : UInt64} {st : TxState μ} (nic : Nic)
    (hd : ¬ drainDue hz tsc st) : twTimelyBurst hz nic tsc st = .ret (st, []) := if_neg hd

inductive TxOp (μ : Type)
  | add (m : μ) (port : Fin maxEthPorts) (nic : Nic)
  | timely (tsc : UInt64) (nic : Nic)

def execTx (hz : UInt64) (st : TxState μ) : TxOp μ → Outcome (TxState μ × List (TxEvent μ))
  | .add m port nic => twAddPktToTxQueue nic st m (portByte port)
  | .timely tsc nic => twTimelyBurst hz nic tsc st

/-- The same calls on lists of packets. -/
def absTx (hz : UInt64) (st : TxState μ) : TxOp μ → TxQueues μ × List (TxEvent μ)
  | .add m port nic => st.conf.queues.push nic m port
  | .timely tsc nic =>
    if drainDue hz tsc st then st.conf.queues.drain nic st.conf.numPort.toNat
    else (st.conf.queues, [])

/-- A transmit state whose buffers are bounded and whose engine has at most the
ports there are. -/
structure TxState.Valid (st : TxState μ) : Prop where
  bounded : st.conf.Bounded
  ports : st.conf.numPort.toNat ≤ maxEthPorts

theorem execTx_refines (hz : UInt64) {st : TxState μ} (hv : st.Valid) (op : TxOp μ) :
    ∃ st', execTx hz st op = .ret (st', (absTx hz st op).2) ∧ st'.Valid ∧
      st'.conf.numPort = st.conf.numPort ∧ st'.conf.queues = (absTx hz st op).1 ∧
      st'.stats = st.stats.sent ((absTx hz st op).2.countP TxEvent.isAccepted) := by
  obtain ⟨hb, hn⟩ := hv
  cases op with
  | add m port nic =>
    obtain ⟨st', hrun, hb', hq, hnum, -, hs⟩ := twAddPktToTxQueue_refines nic st m port hb
    exact ⟨st', hrun, ⟨hb', hnum ▸ hn⟩, hnum, hq, hs⟩
  | timely tsc nic =>
    by_cases hd : drainDue hz tsc st
    · obtain ⟨st', hrun, hconf, hs⟩ := twTimelyBurst_due nic hb hn hd
      have hnum : st'.conf.numPort = st.conf.numPort := by rw [hconf]; rfl
      simp only [absTx, if_pos hd]
      refine ⟨st', hrun, ⟨?_, hnum ▸ hn⟩, hnum, ?_, hs⟩
      · rw [hconf]
        exact LcoreConf.drained_bounded hb _
      · rw [hconf, LcoreConf.drained_queues _ nic]
    · simp only [absTx, if_neg hd]
      exact ⟨st, twTimelyBurst_idle nic hd, ⟨hb, hn⟩, rfl, rfl, by simp⟩

end Twister
