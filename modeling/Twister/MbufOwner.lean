import Twister.TxRun

/-! Who holds each packet buffer while an application runs: the transmit slots, the device
after a burst, or the pool. Buffers are named by their addresses, and a buffer that the
application itself holds is in none of the three. -/
namespace Twister

/-- `pool` has a free buffer once for each time that it was returned. -/
structure Owners where
  tx : TxState ℕ
  pool : List ℕ
  device : List ℕ

def PktEffect.pkt : PktEffect → Mbuf
  | .free pkt => pkt
  | .addToTxQueue pkt _ => pkt

def PktEffect.addr (e : PktEffect) : ℕ := e.pkt.addr

namespace Owners
variable {s : Owners}

def slots (s : Owners) : Multiset ℕ := ∑ p, (s.tx.conf.queues p : Multiset ℕ)

def held (s : Owners) : Multiset ℕ := s.slots + s.pool + s.device

/-- The device owns what it has accepted; the rest of a burst is freed. -/
def settle (s : Owners) (es : List (TxEvent ℕ)) : Owners where
  tx := s.tx
  pool := (es.filter TxEvent.isDropped).map TxEvent.mbuf ++ s.pool
  device := (es.filter TxEvent.isAccepted).map TxEvent.mbuf ++ s.device

def afterTx (s : Owners) (r : TxState ℕ × List (TxEvent ℕ)) : Owners :=
  { s with tx := r.1 }.settle r.2

def dispose (nic : Nic) (s : Owners) : PktEffect → Outcome (Owners × List (TxEvent ℕ))
  | .free pkt => .ret ({ s with pool := pkt.addr :: s.pool }, [])
  | .addToTxQueue pkt portId => do
    let r ← twAddPktToTxQueue nic s.tx pkt.addr portId
    .ret (s.afterTx r, r.2)

def flush (hz tsc : UInt64) (nic : Nic) (s : Owners) :
    Outcome (Owners × List (TxEvent ℕ)) := do
  let r ← twTimelyBurst hz nic tsc s.tx
  .ret (s.afterTx r, r.2)

/-- Buffers leave the pool for an allocation or for the device to receive into. -/
def take (s : Owners) (addrs : List ℕ) : Owners := { s with pool := s.pool.diff addrs }

/-- The device has sent the packet and frees it. -/
def complete (s : Owners) (addr : ℕ) : Owners :=
  { s with pool := addr :: s.pool, device := s.device.erase addr }

/-- Every packet of a burst is accepted or dropped. -/
lemma dropped_add_accepted (es : List (TxEvent ℕ)) :
    ((es.filter TxEvent.isDropped).map TxEvent.mbuf : Multiset ℕ) +
      (es.filter TxEvent.isAccepted).map TxEvent.mbuf = es.map TxEvent.mbuf := by
  induction es with
  | nil => rfl
  | cons e es ih =>
    cases e with
    | accepted port m =>
      simp only [List.filter_cons, TxEvent.isDropped, TxEvent.isAccepted, Bool.not_true,
        Bool.false_eq_true, ↓reduceIte, List.map_cons, ← Multiset.cons_coe, ← ih,
        Multiset.add_cons]
    | dropped port m =>
      simp only [List.filter_cons, TxEvent.isDropped, TxEvent.isAccepted, Bool.not_false,
        Bool.false_eq_true, ↓reduceIte, List.map_cons, ← Multiset.cons_coe, ← ih,
        Multiset.cons_add]

lemma settle_held (s : Owners) (es : List (TxEvent ℕ)) :
    (s.settle es).held = s.held + (es.map TxEvent.mbuf : Multiset ℕ) := by
  simp only [held, slots, settle, ← Multiset.coe_add, ← dropped_add_accepted es]
  abel

/-- A transmit call moves packets from the slots to the two others. -/
lemma execTx_held (hz : UInt64) (hv : s.tx.Valid) (op : TxOp ℕ) :
    ∃ r, execTx hz s.tx op = .ret r ∧ (s.afterTx r).tx.Valid ∧
      (s.afterTx r).held = s.held + (op.packets : Multiset ℕ) := by
  obtain ⟨tx, hrun, hvalid, -, hq, -⟩ := execTx_refines hz hv op
  have hcons := absTx_conserves hz s.tx op
  refine ⟨(tx, (absTx hz s.tx op).2), hrun, hvalid, ?_⟩
  rw [afterTx, settle_held]
  simp only [held, slots, hq]
  calc ∑ p, ((absTx hz s.tx op).1 p : Multiset ℕ) + s.pool + s.device +
        ((absTx hz s.tx op).2.map TxEvent.mbuf : Multiset ℕ)
      = (((absTx hz s.tx op).2.map TxEvent.mbuf : Multiset ℕ) +
          ∑ p, ((absTx hz s.tx op).1 p : Multiset ℕ)) + (s.pool + s.device) := by abel
    _ = (∑ p, (s.tx.conf.queues p : Multiset ℕ) + op.packets) + (s.pool + s.device) := by
        rw [hcons]
    _ = ∑ p, (s.tx.conf.queues p : Multiset ℕ) + s.pool + s.device + op.packets := by abel

lemma dispose_held (nic : Nic) (hv : s.tx.Valid) (e : PktEffect)
    (hport : ∀ pkt portId, e = .addToTxQueue pkt portId → ∃ p, portId = portByte p) :
    ∃ s' es, dispose nic s e = .ret (s', es) ∧ s'.tx.Valid ∧ s'.held = s.held + {e.addr} := by
  cases e with
  | free pkt =>
    refine ⟨_, _, rfl, hv, ?_⟩
    simp only [held, slots, PktEffect.addr, PktEffect.pkt, ← Multiset.cons_coe,
      ← Multiset.singleton_add]
    abel
  | addToTxQueue pkt portId =>
    obtain ⟨p, rfl⟩ := hport pkt portId rfl
    obtain ⟨r, hrun, hvalid, hheld⟩ := execTx_held 0 hv (.add pkt.addr p nic)
    have hadd : twAddPktToTxQueue nic s.tx pkt.addr (portByte p) = .ret r := hrun
    refine ⟨s.afterTx r, r.2, ?_, hvalid, ?_⟩
    · rw [dispose, hadd]
      rfl
    · simpa [TxOp.packets, PktEffect.addr, PktEffect.pkt] using hheld

lemma flush_held (hz tsc : UInt64) (nic : Nic) (hv : s.tx.Valid) :
    ∃ s' es, flush hz tsc nic s = .ret (s', es) ∧ s'.tx.Valid ∧ s'.held = s.held ∧
      s.pool ⊆ s'.pool := by
  obtain ⟨r, hrun, hvalid, hheld⟩ := execTx_held hz hv (.timely tsc nic)
  have hburst : twTimelyBurst hz nic tsc s.tx = .ret r := hrun
  refine ⟨s.afterTx r, r.2, ?_, hvalid, by simpa [TxOp.packets] using hheld,
    List.subset_append_right _ _⟩
  rw [flush, hburst]
  rfl

/-- All that a callback does with packets. -/
lemma runDispose_held (nic : Nic) (hv : s.tx.Valid) {es : List PktEffect}
    (hport : ∀ pkt portId, .addToTxQueue pkt portId ∈ es → ∃ p, portId = portByte p) :
    ∃ s' fs, runOps (dispose nic) s es = .ret (s', fs) ∧ s'.tx.Valid ∧
      s'.held = s.held + (es.map PktEffect.addr : Multiset ℕ) := by
  induction es generalizing s with
  | nil => exact ⟨s, [], rfl, hv, by simp⟩
  | cons e es ih =>
    obtain ⟨s', fs, hfirst, hv', hheld⟩ := dispose_held nic hv e
      (fun pkt portId he => hport pkt portId (he ▸ List.mem_cons_self))
    obtain ⟨s'', fs', hrest, hv'', hheld'⟩ := ih hv'
      (fun pkt portId he => hport pkt portId (List.mem_cons_of_mem e he))
    refine ⟨s'', fs ++ fs', ?_, hv'', ?_⟩
    · rw [runOps, hfirst, Outcome.ret_bind, hrest]
      rfl
    · rw [hheld', hheld, List.map_cons, ← Multiset.cons_coe, ← Multiset.singleton_add, add_assoc]

/-- Nothing that a callback does takes a buffer from the pool. -/
lemma runDispose_pool {nic : Nic} {s' : Owners} {es : List PktEffect} {fs : List (TxEvent ℕ)}
    (h : runOps (dispose nic) s es = .ret (s', fs)) : s.pool ⊆ s'.pool := by
  induction es generalizing s fs with
  | nil =>
    obtain ⟨rfl, -⟩ : s = s' ∧ _ := by simpa [runOps] using h
    exact List.Subset.refl s.pool
  | cons e es ih =>
    rw [runOps] at h
    obtain ⟨⟨t, ft⟩, hfirst, h⟩ := Outcome.bind_eq_ret.mp h
    obtain ⟨⟨u, fu⟩, hrest, hret⟩ := Outcome.bind_eq_ret.mp h
    obtain ⟨rfl, -⟩ : u = s' ∧ _ := by simpa using hret
    refine List.Subset.trans ?_ (ih hrest)
    cases e with
    | free pkt =>
      obtain ⟨rfl, -⟩ : _ = t ∧ _ := by simpa [dispose] using hfirst
      exact List.subset_cons_self _ _
    | addToTxQueue pkt portId =>
      obtain ⟨r, -, hret⟩ := Outcome.bind_eq_ret.mp hfirst
      obtain ⟨rfl, -⟩ : s.afterTx r = t ∧ _ := by simpa using hret
      exact List.subset_append_right _ _

lemma take_held {addrs : List ℕ} (h : (addrs : Multiset ℕ) ≤ s.pool) :
    (s.take addrs).held + (addrs : Multiset ℕ) = s.held := by
  have hpool : (s.pool.diff addrs : Multiset ℕ) + addrs = s.pool := by
    rw [← Multiset.coe_sub, tsub_add_cancel_of_le h]
  calc s.slots + (s.pool.diff addrs : Multiset ℕ) + s.device + addrs
      = s.slots + ((s.pool.diff addrs : Multiset ℕ) + addrs) + s.device := by abel
    _ = s.held := by rw [hpool, held]

/-- What a callback takes from the pool and disposes of once stays held once. -/
lemma takeDispose_held (nic : Nic) (hv : s.tx.Valid) (es : List PktEffect)
    (hport : ∀ pkt portId, .addToTxQueue pkt portId ∈ es → ∃ p, portId = portByte p)
    (hpool : (es.map PktEffect.addr : Multiset ℕ) ≤ s.pool) :
    ∃ s' fs, runOps (dispose nic) (s.take (es.map PktEffect.addr)) es = .ret (s', fs) ∧
      s'.tx.Valid ∧ s'.held = s.held := by
  have hvtake : (s.take (es.map PktEffect.addr)).tx.Valid := hv
  obtain ⟨s', fs, hrun, hv', hheld⟩ := runDispose_held nic hvtake hport
  exact ⟨s', fs, hrun, hv', by rw [hheld, take_held hpool]⟩

/-- At most one packet, sent in a buffer from the pool. -/
lemma takeSend_held (nic : Nic) (hv : s.tx.Valid) {es : List PktEffect}
    (h : es = [] ∨ ∃ pkt p, es = [.addToTxQueue pkt (portByte p)] ∧ pkt.addr ∈ s.pool) :
    ∃ s' fs, runOps (dispose nic) (s.take (es.map PktEffect.addr)) es = .ret (s', fs) ∧
      s'.tx.Valid ∧ s'.held = s.held := by
  refine takeDispose_held nic hv es (fun m portId hm => ?_) ?_
  · rcases h with rfl | ⟨pkt, p, rfl, -⟩
    · simp at hm
    · exact ⟨p, (PktEffect.addToTxQueue.inj (List.mem_singleton.mp hm)).2⟩
  · rcases h with rfl | ⟨pkt, p, rfl, hpkt⟩
    · exact Multiset.zero_le _
    · simpa [PktEffect.addr, PktEffect.pkt] using hpkt

lemma complete_held {addr : ℕ} (h : addr ∈ s.device) : (s.complete addr).held = s.held := by
  have hdevice : addr ::ₘ (s.device.erase addr : Multiset ℕ) = s.device := by
    rw [← Multiset.coe_erase, Multiset.cons_erase (by simpa using h)]
  calc s.slots + (addr :: s.pool : List ℕ) + (s.device.erase addr : Multiset ℕ)
      = s.slots + s.pool + addr ::ₘ (s.device.erase addr : Multiset ℕ) := by
        rw [← Multiset.cons_coe, Multiset.add_cons, Multiset.add_cons, Multiset.cons_add]
    _ = s.held := by rw [hdevice, held]

lemma slots_nodup (h : s.held.Nodup) : s.slots.Nodup :=
  (Multiset.nodup_add.mp (Multiset.nodup_add.mp h).1).1

/-- With no buffer held twice, none that the device owns is in the pool. -/
lemma device_not_mem_pool (h : s.held.Nodup) {a : ℕ} (ha : a ∈ s.device) : a ∉ s.pool := by
  have hdisj := (Multiset.nodup_add.mp h).2.2
  exact fun hpool => Multiset.disjoint_left.mp hdisj
    (Multiset.mem_add.mpr (Or.inr (by simpa using hpool))) (by simpa using ha)

/-- With no buffer held twice, none that waits in a slot is in the pool. -/
lemma not_mem_pool (h : s.held.Nodup) {p : Fin maxEthPorts} {a : ℕ}
    (ha : a ∈ (s.tx.conf.txMbufs p).buffered) : a ∉ s.pool := by
  have hslots : a ∈ s.slots := Multiset.mem_sum.mpr ⟨p, Finset.mem_univ p, ha⟩
  have hdisj := (Multiset.nodup_add.mp (Multiset.nodup_add.mp h).1).2.2
  exact fun hpool => Multiset.disjoint_left.mp hdisj hslots (by simpa using hpool)

lemma pool_nodup (h : s.held.Nodup) : s.pool.Nodup :=
  (Multiset.nodup_add.mp (Multiset.nodup_add.mp h).1).2.1

end Owners

def idleOwners : Owners := ⟨idleTx, [0, 1, 2], []⟩

lemma idleOwners_held : idleOwners.held = ([0, 1, 2] : List ℕ) := by
  have hslots : idleOwners.slots = 0 := Finset.sum_eq_zero fun p _ => rfl
  rw [Owners.held, hslots]
  rfl

lemma idleOwners_nodup : idleOwners.held.Nodup := by
  rw [idleOwners_held]
  decide

lemma idleOwners_valid : idleOwners.tx.Valid :=
  ⟨fun _ => ⟨le_rfl, show (0 : Int) < maxTxPktBurst by decide⟩, by decide⟩

end Twister
