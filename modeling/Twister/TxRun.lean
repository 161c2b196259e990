import Twister.TxRefinement

/-! Whole runs of one engine's transmit buffers: order and ownership of the packets,
the transmit counters, and the reach of the drain timer. -/
namespace Twister
variable {μ : Type}

section Fifo

/-- The packets that have left the buffer of a port, in the order they left. -/
def leftPort (p : Fin maxEthPorts) (es : List (TxEvent μ)) : List μ :=
  (es.filter fun e => e.port = portByte p).map TxEvent.mbuf

def TxOp.enqueues (p : Fin maxEthPorts) : TxOp μ → List μ
  | .add m port _ => if port = p then [m] else []
  | .timely _ _ => []

def enqueued (p : Fin maxEthPorts) (ops : List (TxOp μ)) : List μ := ops.flatMap (TxOp.enqueues p)

lemma leftPort_append (p : Fin maxEthPorts) (es es' : List (TxEvent μ)) :
    leftPort p (es ++ es') = leftPort p es ++ leftPort p es' := by simp [leftPort]

lemma burst_port {nic : Nic} {port : UInt8} {ms : List μ} {e : TxEvent μ}
    (he : e ∈ burst nic port ms) : e.port = port := by
  simp only [burst, List.mem_append, List.mem_map] at he
  rcases he with ⟨m, -, rfl⟩ | ⟨m, -, rfl⟩ <;> rfl

lemma leftPort_burst (nic : Nic) (p p' : Fin maxEthPorts) (ms : List μ) :
    leftPort p (burst nic (portByte p') ms) = if p' = p then ms else [] := by
  by_cases h : p' = p
  · subst h
    have hall : (burst nic (portByte p') ms).filter (fun e => e.port = portByte p') =
        burst nic (portByte p') ms := by
      apply List.filter_eq_self.mpr
      intro e he
      simp [burst_port he]
    rw [leftPort, hall, if_pos rfl, burst, List.map_append, List.map_map, List.map_map]
    have ha : TxEvent.mbuf ∘ TxEvent.accepted (portByte p') = (id : μ → μ) := rfl
    have hd : TxEvent.mbuf ∘ TxEvent.dropped (portByte p') = (id : μ → μ) := rfl
    rw [ha, hd, List.map_id, List.map_id, List.take_append_drop]
  · have hne : portByte p' ≠ portByte p := fun he => h (portByte_injective he)
    rw [if_neg h, leftPort, List.map_eq_nil_iff, List.filter_eq_nil_iff]
    intro e he
    simp [burst_port he, hne]

lemma leftPort_drainEvents (nic : Nic) (q : TxQueues μ) (n : ℕ) (p : Fin maxEthPorts) :
    leftPort p (q.drainEvents nic n) = if p.val < n then q p else [] := by
  induction n with
  | zero => simp [TxQueues.drainEvents, leftPort]
  | succ n ih =>
    rw [TxQueues.drainEvents, leftPort_append, ih]
    by_cases hn : n < maxEthPorts
    · rw [dif_pos hn, leftPort_burst]
      by_cases hp : p.val = n
      · subst hp; simp
      · have hne : (⟨n, hn⟩ : Fin maxEthPorts) ≠ p := fun h => hp (congrArg Fin.val h).symm
        rw [if_neg hne, List.append_nil]
        exact if_congr (by omega) rfl rfl
    · have hp := p.isLt
      rw [dif_neg hn, if_pos (by omega), if_pos (by omega)]
      simp [leftPort]

/-- One call moves packets from the front of a buffer to the outside and puts a new
one at its end. -/
lemma absTx_fifo (hz : UInt64) (st : TxState μ) (op : TxOp μ) (p : Fin maxEthPorts) :
    leftPort p (absTx hz st op).2 ++ (absTx hz st op).1 p =
      st.conf.queues p ++ op.enqueues p := by
  cases op with
  | add m port nic =>
    simp only [absTx, TxQueues.push, TxOp.enqueues]
    split_ifs with hfull hp hp
    · subst hp; simp [leftPort_burst]
    · have hne : p ≠ port := fun h => hp h.symm
      simp [leftPort_burst, hp, hne]
    · subst hp; simp [leftPort]
    · have hne : p ≠ port := fun h => hp h.symm
      simp [leftPort, hne]
  | timely tsc nic =>
    rw [TxOp.enqueues, List.append_nil]
    by_cases hd : drainDue hz tsc st
    · rw [absTx, if_pos hd]
      simp only [TxQueues.drain, leftPort_drainEvents]
      split_ifs <;> simp
    · rw [absTx, if_neg hd]
      simp [leftPort]

structure InOrder (ops : List (TxOp μ)) (st : TxState μ) (es : List (TxEvent μ)) : Prop where
  bounds : ∀ p, 0 ≤ (st.conf.txMbufs p).len ∧ (st.conf.txMbufs p).len < maxTxPktBurst
  order : ∀ p, leftPort p es ++ (st.conf.txMbufs p).buffered = enqueued p ops

/-- No call accesses a buffer out of bounds, since that is a fault, and what has left
a port followed by what it still buffers is what was enqueued for it. -/
theorem txBuffers_fifo (hz : UInt64) {st₀ : TxState μ}
    (hnum : st₀.conf.numPort.toNat ≤ maxEthPorts) (hempty : ∀ p, (st₀.conf.txMbufs p).len = 0)
    (ops : List (TxOp μ)) : Throughout (execTx hz) st₀ InOrder ops := by
  have hb : st₀.conf.Bounded := fun p => by simp [hempty p, maxTxPktBurst]
  refine throughout_of_invariant (J := fun ops st es => st.Valid ∧ InOrder ops st es)
    ⟨⟨hb, hnum⟩, hb, fun p => ?_⟩ ?_ (fun _ _ _ h => h.2) ops
  · simp [leftPort, enqueued, MbufTable.buffered, hempty p, MbufTable.first_zero]
  · intro os st es op hJ
    obtain ⟨hv, hin⟩ := hJ
    obtain ⟨st', hstep, hv', -, hq, -⟩ := execTx_refines hz hv op
    refine ⟨st', _, hstep, hv', hv'.bounded, fun p => ?_⟩
    have hb' : (st'.conf.txMbufs p).buffered = (absTx hz st op).1 p := congrFun hq p
    have hnew : enqueued p (os ++ [op]) = enqueued p os ++ op.enqueues p := by simp [enqueued]
    rw [leftPort_append, hb', List.append_assoc, absTx_fifo, hnew, ← hin.order p]
    simp [LcoreConf.queues]

def idleTx : TxState ℕ where
  conf := ⟨[], 1, fun _ => 0, fun _ => ⟨0, fun _ => 0⟩⟩
  stats := ⟨0, 0, 0⟩
  prevTsc := 0

def nicTwo : Nic := ⟨fun _ n => min n 2, fun _ _ => Nat.min_le_left _ _⟩

theorem txBuffers_fifo_idleTx :
    Throughout (execTx 1000000) idleTx InOrder [.add 7 0 nicTwo, .timely 5000 nicTwo] :=
  txBuffers_fifo 1000000 (by decide) (fun _ => rfl) _

end Fifo

section Accounting

def TxOp.count : TxOp μ → ℕ
  | .add _ _ _ => 1
  | .timely _ _ => 0

def enqueuedCount (ops : List (TxOp μ)) : ℕ := (ops.map TxOp.count).sum

def TxQueues.total (q : TxQueues μ) : ℕ := ∑ p, (q p).length

/-- The counters agree with what happened to the packets. -/
structure Accounted (ops : List (TxOp μ)) (st : TxState μ) (es : List (TxEvent μ)) : Prop where
  tx : st.stats.pktsTx = UInt64.ofNat (es.countP TxEvent.isAccepted)
  dropped : st.stats.pktsDropped = UInt64.ofNat (es.countP TxEvent.isDropped)
  total : st.stats.pktsTx + st.stats.pktsDropped +
    UInt64.ofNat (∑ p, (st.conf.txMbufs p).len.toNat) = UInt64.ofNat (enqueuedCount ops)
  exact : enqueuedCount ops < 2 ^ 64 →
    st.stats.pktsTx.toNat + st.stats.pktsDropped.toNat + ∑ p, (st.conf.txMbufs p).len.toNat =
      enqueuedCount ops

/-- The device takes every packet of every burst that the call makes. -/
def TakesAll (hz : UInt64) (st : TxState μ) : TxOp μ → Prop
  | .add _ port nic => (st.conf.txMbufs port).len + 1 = maxTxPktBurst →
      nic.accept (portByte port) maxTxPktBurst = maxTxPktBurst
  | .timely tsc nic => drainDue hz tsc st → ∀ p : Fin maxEthPorts,
      p.val < st.conf.numPort.toNat → nic.accept (portByte p) (st.conf.txMbufs p).len.toNat =
        (st.conf.txMbufs p).len.toNat

lemma burst_dropped (nic : Nic) (port : UInt8) (ms : List μ) :
    (burst nic port ms).countP TxEvent.isDropped = ms.length - nic.accept port ms.length := by
  have h := TxEvent.countP_add_countP (burst nic port ms)
  rw [burst_accepted, burst_length] at h
  omega

lemma burst_dropped_eq_zero (nic : Nic) (port : UInt8) (ms : List μ) :
    (burst nic port ms).countP TxEvent.isDropped = 0 ↔
      nic.accept port ms.length = ms.length := by
  have h := nic.accept_le port ms.length
  rw [burst_dropped]
  omega

lemma drainEvents_dropped (nic : Nic) (q : TxQueues μ) (n : ℕ) :
    (q.drainEvents nic n).countP TxEvent.isDropped = 0 ↔ ∀ p : Fin maxEthPorts, p.val < n →
      nic.accept (portByte p) (q p).length = (q p).length := by
  induction n with
  | zero => simp [TxQueues.drainEvents]
  | succ n ih =>
    rw [TxQueues.drainEvents, List.countP_append, Nat.add_eq_zero_iff, ih]
    constructor
    · rintro ⟨hlow, hn⟩ p hp
      rcases Nat.lt_succ_iff_lt_or_eq.mp hp with hp | rfl
      · exact hlow p hp
      · rw [dif_pos p.isLt, burst_dropped_eq_zero] at hn
        exact hn
    · intro h
      refine ⟨fun p hp => h p (by omega), ?_⟩
      by_cases hn : n < maxEthPorts
      · rw [dif_pos hn, burst_dropped_eq_zero]
        exact h ⟨n, hn⟩ (by simp)
      · simp [hn]

lemma absTx_dropped (hz : UInt64) {st : TxState μ} (hv : st.Valid) (op : TxOp μ) :
    (absTx hz st op).2.countP TxEvent.isDropped = 0 ↔ TakesAll hz st op := by
  have hlen : ∀ p, (st.conf.queues p).length = (st.conf.txMbufs p).len.toNat := by
    intro p
    have := LcoreConf.queues_length hv.bounded p
    omega
  cases op with
  | add m port nic =>
    have hb := hv.bounded port
    have hiff : (st.conf.queues port).length + 1 = maxTxPktBurst ↔
        (st.conf.txMbufs port).len + 1 = maxTxPktBurst := by
      rw [hlen]
      omega
    simp only [absTx, TxQueues.push, TakesAll]
    by_cases hfull : (st.conf.queues port).length + 1 = maxTxPktBurst
    · rw [if_pos hfull, burst_dropped_eq_zero, List.length_append, List.length_singleton, hfull]
      exact ⟨fun h _ => h, fun h => h (hiff.mp hfull)⟩
    · rw [if_neg hfull]
      simp only [List.countP_nil, true_iff]
      exact fun h => absurd (hiff.mpr h) hfull
  | timely tsc nic =>
    by_cases hd : drainDue hz tsc st
    · rw [absTx, if_pos hd, TxQueues.drain, drainEvents_dropped]
      simp only [TakesAll, hlen, hd, true_implies]
    · rw [absTx, if_neg hd]
      simp only [List.countP_nil, TakesAll, hd, false_implies]

lemma drainEvents_port {nic : Nic} {q : TxQueues μ} {n : ℕ} {e : TxEvent μ}
    (he : e ∈ q.drainEvents nic n) : ∃ p, e.port = portByte p := by
  induction n with
  | zero => simp [TxQueues.drainEvents] at he
  | succ n ih =>
    rcases List.mem_append.mp he with he | he
    · exact ih he
    · by_cases hn : n < maxEthPorts
      · rw [dif_pos hn] at he
        exact ⟨⟨n, hn⟩, burst_port he⟩
      · simp [hn] at he

lemma absTx_port {hz : UInt64} {st : TxState μ} {op : TxOp μ} {e : TxEvent μ}
    (he : e ∈ (absTx hz st op).2) : ∃ p, e.port = portByte p := by
  cases op with
  | add m port nic =>
    simp only [absTx, TxQueues.push] at he
    split_ifs at he with hfull
    · exact ⟨port, burst_port he⟩
    · simp at he
  | timely tsc nic =>
    by_cases hd : drainDue hz tsc st
    · rw [absTx, if_pos hd] at he
      exact drainEvents_port he
    · rw [absTx, if_neg hd] at he
      simp at he

/-- Over all ports, the packets that have left. -/
lemma sum_leftPort {es : List (TxEvent μ)} (h : ∀ e ∈ es, ∃ p, e.port = portByte p) :
    ∑ p, (leftPort p es : Multiset μ) = es.map TxEvent.mbuf := by
  induction es with
  | nil => simp [leftPort]
  | cons e es ih =>
    obtain ⟨p, hp⟩ := h e (by simp)
    have hcons : ∀ p', (leftPort p' (e :: es) : Multiset μ) =
        (if p' = p then {e.mbuf} else 0) + (leftPort p' es : Multiset μ) := by
      intro p'
      by_cases hp' : p' = p
      · simp [leftPort, hp', hp]
      · have hne : portByte p ≠ portByte p' := fun he => hp' (portByte_injective he).symm
        simp [leftPort, hp', hp, hne]
    simp only [hcons, Finset.sum_add_distrib, ih fun x hx => h x (by simp [hx])]
    simp

/-- The packets that a call puts into the buffers. -/
def TxOp.packets : TxOp μ → List μ
  | .add m _ _ => [m]
  | .timely _ _ => []

lemma sum_enqueues (op : TxOp μ) : ∑ p, (op.enqueues p : Multiset μ) = op.packets := by
  cases op with
  | add m port nic =>
    have hone : ∀ p, (TxOp.enqueues p (.add m port nic) : Multiset μ) =
        if port = p then {m} else 0 := by
      intro p
      simp only [TxOp.enqueues]
      split_ifs <;> rfl
    simp [hone, TxOp.packets]
  | timely tsc nic => simp [TxOp.enqueues, TxOp.packets]

/-- A call takes out of the buffers what it does not leave in them. -/
lemma absTx_conserves (hz : UInt64) (st : TxState μ) (op : TxOp μ) :
    ((absTx hz st op).2.map TxEvent.mbuf : Multiset μ) + ∑ p, ((absTx hz st op).1 p : Multiset μ) =
      ∑ p, (st.conf.queues p : Multiset μ) + (op.packets : Multiset μ) := by
  rw [← sum_leftPort fun e he => absTx_port he, ← sum_enqueues, ← Finset.sum_add_distrib,
    ← Finset.sum_add_distrib]
  refine Finset.sum_congr rfl fun p _ => ?_
  rw [Multiset.coe_add, Multiset.coe_add, absTx_fifo]

lemma absTx_total (hz : UInt64) (st : TxState μ) (op : TxOp μ) :
    (absTx hz st op).2.length + (absTx hz st op).1.total =
      st.conf.queues.total + op.count := by
  have hcard := congrArg Multiset.card (absTx_conserves hz st op)
  have hcount : op.packets.length = op.count := by cases op <;> rfl
  simpa [TxQueues.total, hcount] using hcard

/-- What the counters hold whatever the device does: the drop counter never moves. -/
structure Counted (ops : List (TxOp μ)) (st : TxState μ) (es : List (TxEvent μ)) : Prop where
  valid : st.Valid
  tx : st.stats.pktsTx = UInt64.ofNat (es.countP TxEvent.isAccepted)
  dropped : st.stats.pktsDropped = 0
  total : es.length + st.conf.queues.total = enqueuedCount ops

lemma Counted.sum_len {ops : List (TxOp μ)} {st : TxState μ} {es : List (TxEvent μ)}
    (h : Counted ops st es) : ∑ p, (st.conf.txMbufs p).len.toNat = st.conf.queues.total := by
  refine Finset.sum_congr rfl fun p _ => ?_
  have := LcoreConf.queues_length h.valid.bounded p
  omega

lemma Counted.step (hz : UInt64) {ops : List (TxOp μ)} {st : TxState μ} {es : List (TxEvent μ)}
    (h : Counted ops st es) (op : TxOp μ) :
    ∃ st', execTx hz st op = .ret (st', (absTx hz st op).2) ∧
      Counted (ops ++ [op]) st' (es ++ (absTx hz st op).2) := by
  obtain ⟨st', hstep, hv, -, hq, hs⟩ := execTx_refines hz h.valid op
  refine ⟨st', hstep, hv, ?_, ?_, ?_⟩
  · rw [hs, TwStats.sent, List.countP_append, UInt64.ofNat_add, ← h.tx]
  · rw [hs, TwStats.sent, h.dropped]
  · have ht := absTx_total hz st op
    have ho := h.total
    rw [hq, List.length_append]
    simp only [enqueuedCount, List.map_append, List.sum_append, List.map_cons, List.map_nil,
      List.sum_cons, List.sum_nil] at ho ⊢
    omega

lemma Counted.accounted_iff {ops : List (TxOp μ)} {st : TxState μ} {es : List (TxEvent μ)}
    (h : Counted ops st es) :
    Accounted ops st es ↔ UInt64.ofNat (es.countP TxEvent.isDropped) = 0 := by
  have hsplit := TxEvent.countP_add_countP es
  have htot := h.total
  constructor
  · intro ha
    rw [← ha.dropped, h.dropped]
  · intro hz
    refine ⟨h.tx, by rw [h.dropped, hz], ?_, ?_⟩
    · rw [h.tx, h.dropped, h.sum_len, ← htot, ← hsplit, UInt64.ofNat_add, UInt64.ofNat_add, hz]
    · intro hlt
      have hd : es.countP TxEvent.isDropped = 0 := by
        have := congrArg UInt64.toNat hz
        simp at this
        omega
      have ha : (UInt64.ofNat (es.countP TxEvent.isAccepted)).toNat =
          es.countP TxEvent.isAccepted := by
        simp
        omega
      rw [h.tx, h.dropped, h.sum_len, ha]
      simp
      omega

lemma TxState.Valid.total_le {st : TxState μ} (hv : st.Valid) : st.conf.queues.total ≤ 256 := by
  calc st.conf.queues.total ≤ ∑ _p : Fin maxEthPorts, 32 := by
        refine Finset.sum_le_sum fun p _ => ?_
        have hl := LcoreConf.queues_length hv.bounded p
        have hb := hv.bounded p
        have hm : maxTxPktBurst = 32 := rfl
        omega
    _ = 256 := by
        rw [Finset.sum_const, Finset.card_univ, Fintype.card_fin]
        rfl

/-- The counters are right at every point of a run exactly when the device takes
every packet of every burst: the drop counter stays at zero. -/
theorem txAccounting_iff_takesAll (hz : UInt64) {st₀ : TxState μ}
    (hnum : st₀.conf.numPort.toNat ≤ maxEthPorts) (hempty : ∀ p, (st₀.conf.txMbufs p).len = 0)
    (htx : st₀.stats.pktsTx = 0) (hdropped : st₀.stats.pktsDropped = 0) (ops : List (TxOp μ)) :
    Throughout (execTx hz) st₀ Accounted ops ↔ EachStep (execTx hz) st₀ (TakesAll hz) ops := by
  have hb : st₀.conf.Bounded := fun p => by simp [hempty p, maxTxPktBurst]
  have hcounted : Counted [] st₀ [] := by
    refine ⟨⟨hb, hnum⟩, htx, hdropped, ?_⟩
    simp [TxQueues.total, LcoreConf.queues, MbufTable.buffered, hempty, MbufTable.first_zero,
      enqueuedCount]
  refine throughout_iff_eachStep hcounted (hcounted.accounted_iff.mpr rfl) ?_ ops
  intro os st es op h
  obtain ⟨st', hstep, h'⟩ := h.step hz op
  refine ⟨st', _, hstep, h', fun ha => ?_⟩
  have hzero := h.accounted_iff.mp ha
  have hsmall : (absTx hz st op).2.countP TxEvent.isDropped < 2 ^ 64 := by
    have h₁ := List.countP_le_length (p := TxEvent.isDropped) (l := (absTx hz st op).2)
    have h₂ := absTx_total hz st op
    have h₃ := h.valid.total_le
    have h₄ : op.count ≤ 1 := by cases op <;> simp [TxOp.count]
    omega
  rw [h'.accounted_iff, ← absTx_dropped hz h.valid, List.countP_append, UInt64.ofNat_add, hzero,
    zero_add]
  constructor
  · intro he
    have := congrArg UInt64.toNat he
    simp at this
    omega
  · intro he
    rw [he]
    rfl

def nicNone : Nic := ⟨fun _ _ => 0, fun _ _ => Nat.zero_le _⟩

theorem txAccounting_idleTx :
    Throughout (execTx 1000000) idleTx Accounted [.add 7 0 nicTwo, .timely 5000 nicTwo] ↔
      EachStep (execTx 1000000) idleTx (TakesAll 1000000)
        [.add 7 0 nicTwo, .timely 5000 nicTwo] :=
  txAccounting_iff_takesAll 1000000 (by decide) (fun _ => rfl) rfl rfl _

/-- One packet that the device refuses is freed and not counted. -/
theorem txAccounting_refused :
    ¬ Throughout (execTx 1000000) idleTx Accounted [.add 7 0 nicNone, .timely 5000 nicNone] := by
  intro h
  obtain ⟨st, es, hrun, hacc⟩ := h _ (List.prefix_refl _)
  have hval : (match runOps (execTx 1000000) idleTx [.add 7 0 nicNone, .timely 5000 nicNone] with
      | .ret (s, fs) => (s.stats.pktsDropped, fs.countP TxEvent.isDropped)
      | _ => (7, 7)) = (0, 1) := by decide
  rw [hrun] at hval
  obtain ⟨h₁, h₂⟩ := Prod.mk.injEq _ _ _ _ ▸ hval
  have hd := hacc.dropped
  rw [h₁, h₂] at hd
  exact absurd hd (by decide)

end Accounting

section Drain

/-- After a call the managed ports have nothing buffered and the others what they had. -/
def FlushesManaged (c c' : LcoreConf μ) : Prop :=
  (∀ p, portByte p ∈ c.managed → (c'.txMbufs p).len = 0) ∧
    ∀ p, portByte p ∉ c.managed → c'.txMbufs p = c.txMbufs p

lemma flushesManaged_drained_iff (c : LcoreConf μ) :
    FlushesManaged c (c.drained c.numPort.toNat) ↔ ∀ p, (c.txMbufs p).len ≠ 0 →
      (portByte p ∈ c.managed ↔ p.val < c.numPort.toNat) := by
  have hcase : ∀ p, (c.drained c.numPort.toNat).txMbufs p =
      if p.val < c.numPort.toNat then { c.txMbufs p with len := 0 } else c.txMbufs p :=
    fun _ => rfl
  constructor
  · rintro ⟨hman, hother⟩ p hlen
    constructor
    · intro hp
      by_contra hlt
      have := hman p hp
      rw [hcase, if_neg hlt] at this
      exact hlen this
    · intro hlt
      by_contra hp
      have := congrArg MbufTable.len (hother p hp)
      rw [hcase, if_pos hlt] at this
      exact hlen this.symm
  · intro h
    refine ⟨fun p hp => ?_, fun p hp => ?_⟩
    · rw [hcase]
      split_ifs with hlt
      · rfl
      · by_contra hlen
        exact hlt ((h p hlen).mp hp)
    · rw [hcase]
      split_ifs with hlt
      · have hlen : (c.txMbufs p).len = 0 := by
          by_contra hlen
          exact hp ((h p hlen).mpr hlt)
        rw [← hlen]
      · rfl

/-- `prev_tsc` keeps the low half of the reading `last`, so the test sees the low half of the
cycles since then. -/
lemma drainDue_iff {hz tsc last : UInt64} {st : TxState μ}
    (hlast : st.prevTsc.toUInt32 = last.toUInt32) :
    drainDue hz tsc st ↔ drainTsc hz < (tsc - last).toUInt32.toUInt64 := by
  have hdiff : diffTsc tsc st.prevTsc = (tsc - last).toUInt32 := by
    rw [diffTsc, UInt64.toUInt32_sub, UInt64.toUInt32_sub, hlast, UInt32.toUInt32_toUInt64]
  rw [drainDue, hdiff]

/-- Without a flush the managed ports have to be empty. -/
lemma flushesManaged_self_iff (c : LcoreConf μ) :
    FlushesManaged c c ↔ ∀ p, (c.txMbufs p).len ≠ 0 → portByte p ∉ c.managed := by
  constructor
  · rintro ⟨hman, -⟩ p hlen hp
    exact hlen (hman p hp)
  · intro h
    refine ⟨fun p hp => ?_, fun _ _ => rfl⟩
    by_contra hlen
    exact h p hlen hp

/-- For an engine configured by any mapping calls, and `last` the reading at the last flush, a
drain does what it is for exactly when every port with packets waiting is managed if and only if
the low 32 bits of the time since then exceed the drain time and the id of the port is below the
number of managed ports. -/
theorem timelyBurst_flushesManaged_iff {ports : PortTable} {confs₀ confs : LcoreTable μ}
    {calls : List (CString × CString)} (hinit : ∀ e, (confs₀ e).numPort = 0)
    (hok : ∀ call ∈ calls, Mappable ports confs₀ call.1 call.2)
    (hfit : ∀ e, (portsOf ports confs₀ calls e).length ≤ maxEthPorts)
    (hmap : mapPorts ports confs₀ calls = .ret confs) (e : Fin maxLcores) {st : TxState μ}
    (hconf : st.conf = { confs e with txMbufs := st.conf.txMbufs }) (hb : st.conf.Bounded)
    (hz tsc : UInt64) {last : UInt64} (hlast : st.prevTsc.toUInt32 = last.toUInt32) (nic : Nic) :
    ∃ st' es, twTimelyBurst hz nic tsc st = .ret (st', es) ∧
      (FlushesManaged st.conf st'.conf ↔ ∀ p, (st.conf.txMbufs p).len ≠ 0 →
        (portByte p ∈ portsOf ports confs₀ calls e ↔
          drainTsc hz < (tsc - last).toUInt32.toUInt64 ∧
            p.val < (portsOf ports confs₀ calls e).length)) := by
  obtain ⟨hman, hnum⟩ := mapPorts_fresh hinit hok hfit hmap e
  have hman' : st.conf.managed = portsOf ports confs₀ calls e := by
    rw [← hman, hconf]
    rfl
  have hnum' : st.conf.numPort.toNat = (portsOf ports confs₀ calls e).length := by
    rw [← hnum, hconf]
  rw [← drainDue_iff hlast]
  by_cases hdue : drainDue hz tsc st
  · obtain ⟨st', hburst, hconf', -⟩ := twTimelyBurst_due nic hb (hnum' ▸ hfit e) hdue
    refine ⟨st', _, hburst, ?_⟩
    rw [hconf', flushesManaged_drained_iff, hman', hnum']
    simp only [hdue, true_and]
  · refine ⟨st, [], twTimelyBurst_idle nic hdue, ?_⟩
    simp only [flushesManaged_self_iff, hman', hdue, false_and, iff_false]

def oneWaiting (c : LcoreConf ℕ) (port : Fin maxEthPorts) : TxState ℕ where
  conf := { c with txMbufs := fun p => ⟨if p = port then 1 else 0, fun _ => 7⟩ }
  stats := ⟨0, 0, 0⟩
  prevTsc := 0

lemma oneWaiting_bounded (c : LcoreConf ℕ) (port : Fin maxEthPorts) :
    (oneWaiting c port).conf.Bounded := by
  intro p
  simp only [oneWaiting]
  split_ifs <;> decide

theorem timelyBurst_flushesManaged_tw0 :
    ∃ confs, mapPorts twPorts idleEngines [(twName 0, engineName 0)] = .ret confs ∧
      ∃ st' es, twTimelyBurst 1000000 nicTwo 5000 (oneWaiting (confs 0) 0) = .ret (st', es) ∧
        FlushesManaged (oneWaiting (confs 0) 0).conf st'.conf := by
  obtain ⟨confs, hmap⟩ : ∃ confs, mapPorts twPorts idleEngines [(twName 0, engineName 0)] =
      .ret confs := ⟨_, rfl⟩
  have hlast : (oneWaiting (confs 0) 0).prevTsc.toUInt32 = (0 : UInt64).toUInt32 := rfl
  obtain ⟨st', es, hburst, hiff⟩ := timelyBurst_flushesManaged_iff (fun _ => rfl) (by decide)
    (by decide) hmap 0 rfl (oneWaiting_bounded (confs 0) 0) 1000000 5000 hlast nicTwo
  refine ⟨confs, hmap, st', es, hburst, hiff.mpr fun p hp => ?_⟩
  obtain rfl : p = 0 := by
    by_contra hne
    exact hp (if_neg hne)
  decide

/-- An engine that manages only `tw1` never drains it, and one that manages only `tw0` does not
drain it 100 cycles after the low half of the counter has come round. -/
theorem timelyBurst_misses_managed :
    (∃ confs st' es, mapPorts twPorts idleEngines [(twName 1, engineName 0)] = .ret confs ∧
      drainTsc 1000000 < 5000 - (oneWaiting (confs 0) 1).prevTsc ∧
      twTimelyBurst 1000000 nicTwo 5000 (oneWaiting (confs 0) 1) = .ret (st', es) ∧
      ¬ FlushesManaged (oneWaiting (confs 0) 1).conf st'.conf) ∧
    ∃ confs st' es, mapPorts twPorts idleEngines [(twName 0, engineName 0)] = .ret confs ∧
      drainTsc 1000000 < 4294967396 - (oneWaiting (confs 0) 0).prevTsc ∧
      twTimelyBurst 1000000 nicTwo 4294967396 (oneWaiting (confs 0) 0) = .ret (st', es) ∧
      ¬ FlushesManaged (oneWaiting (confs 0) 0).conf st'.conf := by
  constructor
  · refine ⟨_, _, _, rfl, by decide, rfl, fun h => ?_⟩
    have hlen := h.1 1 (by decide)
    revert hlen
    decide
  · refine ⟨_, _, _, rfl, by decide, rfl, fun h => ?_⟩
    have hlen := h.1 0 (by decide)
    revert hlen
    decide

end Drain
end Twister
