import Twister.MbufOwner
import Twister.Ping

/-! Runs of the ping application, with the owner of every packet buffer. A request that the
application answers is queued for transmission and freed at once. -/
namespace Twister
namespace Ping

section Calls
variable {app : PingApp} {env : BufEnv} {arp : ArpState} {st st' : PingState} {es : List PktEffect}
  {b : TwBuf}

def IsEchoRequest (m : Mbuf) : Prop :=
  m.ipProto sizeofEtherHdr = icmpProtoId ∧ m.icmpType (sizeofEtherHdr + sizeofIpv4Hdr) = 8

instance decidableIsEchoRequest (m : Mbuf) : Decidable (IsEchoRequest m) := instDecidableAnd

/-- Freed or queued, once. -/
def ConsumedOnce (addr : ℕ) (es : List PktEffect) : Prop := ∃ e, es = [e] ∧ e.addr = addr

lemma pktRx_request (app : PingApp) (st : PingState) (h : IsEchoRequest b.hdr) :
    pktRx app st b = .ret (st, b.edit (answerPing app.mac),
      [.addToTxQueue (b.edit (answerPing app.mac)).pkt (portByte app.port),
        .free (b.edit (answerPing app.mac)).pkt]) := by
  have htype : ¬ b.hdr.icmpType (sizeofEtherHdr + sizeofIpv4Hdr) = 0 := by
    rw [h.2]
    decide
  simp only [pktRx, if_pos h.1, if_neg htype, if_pos h.2, app.twGetEtherAddr_eq, Outcome.ret_bind,
    app.tw0Id_eq]

lemma pktRx_other (app : PingApp) (st : PingState) (h : ¬ IsEchoRequest b.hdr) :
    ∃ st', pktRx app st b = .ret (st', b, [.free b.pkt]) := by
  simp only [pktRx]
  split_ifs with hproto hreply hrequest
  · exact ⟨_, rfl⟩
  · exact absurd ⟨hproto, hrequest⟩ h
  · exact ⟨_, rfl⟩
  · exact ⟨_, rfl⟩

lemma twNewBuffer_inv {size : UInt16} (h : twNewBuffer env size = .ret b) :
    ∃ addr stale q, env.pools.txMempool 0 = some (addr, stale) ∧ env.block = some q := by
  unfold twNewBuffer at h
  cases hpool : env.pools.txMempool 0 with
  | none => simp [hpool] at h
  | some r =>
    cases hblock : env.block with
    | none => simp [hpool, hblock] at h
    | some q => exact ⟨r.1, r.2, q, rfl, rfl⟩

/-- A tick sends at most one packet, in a buffer it has allocated. -/
lemma pktTx_allocates (h : pktTx app env arp st = .ret (st', es)) :
    es = [] ∨ ∃ pkt socket stale, es = [.addToTxQueue pkt (portByte app.port)] ∧
      env.pools.txMempool socket = some (pkt.addr, stale) := by
  by_cases hping : st.ping = 1
  · cases hdst : st.dstEthAddr with
    | none =>
      simp only [pktTx, if_pos hping, hdst] at h
      obtain ⟨firstHopIp, -, h⟩ := Outcome.bind_eq_ret.mp h
      obtain ⟨found, -, h⟩ := Outcome.bind_eq_ret.mp h
      cases found with
      | none =>
        obtain ⟨fs, hfs, he⟩ := Outcome.bind_eq_ret.mp h
        obtain ⟨-, rfl⟩ : _ ∧ fs = es := by simpa using he
        exact Or.inr (app.twSendArpRequest_allocates hfs)
      | some a =>
        obtain ⟨entry, -, he⟩ := Outcome.bind_eq_ret.mp h
        obtain ⟨-, rfl⟩ : _ ∧ [] = es := by simpa using he
        exact Or.inl rfl
    | some dst =>
      have hbuf := h
      simp only [pktTx, if_pos hping, hdst] at hbuf
      obtain ⟨txBuf, hbuf, -⟩ := Outcome.bind_eq_ret.mp hbuf
      obtain ⟨addr, stale, q, hpool, hblock⟩ := twNewBuffer_inv hbuf
      rw [pktTx_request app arp hping hdst hpool hblock] at h
      obtain ⟨-, rfl⟩ : _ ∧ [_] = es := by simpa using h
      refine Or.inr ⟨_, 0, stale, rfl, hpool.trans ?_⟩
      rw [sentRequest_addr]
      rfl
  · simp only [pktTx, if_neg hping] at h
    obtain ⟨-, rfl⟩ : _ ∧ [] = es := by simpa using h
    exact Or.inl rfl

/-- The application with the owner of every buffer. -/
structure Sys where
  app : PingState
  owners : Owners

inductive Op
  | recv (pkt : Mbuf) (port : Fin maxEthPorts) (nic : Nic)
  | tick (env : BufEnv) (arp : ArpState) (nic : Nic)
  | flush (tsc : UInt64) (nic : Nic)
  | complete (addr : ℕ)

/-- What `pkt_rx` has done with a packet. -/
structure Consumed where
  addr : ℕ
  effects : List PktEffect

def step (app : PingApp) (hz : UInt64) (s : Sys) : Op → Outcome (Sys × List Consumed)
  | .recv pkt port nic => do
    let (st, _, es) ← pktRx app s.app (describe pkt port)
    let (owners, _) ← runOps (Owners.dispose nic) (s.owners.take [pkt.addr]) es
    .ret (⟨st, owners⟩, [⟨pkt.addr, es⟩])
  | .tick env arp nic => do
    let (st, es) ← pktTx app env arp s.app
    let (owners, _) ← runOps (Owners.dispose nic) (s.owners.take (es.map PktEffect.addr)) es
    .ret (⟨st, owners⟩, [])
  | .flush tsc nic => do
    let (owners, _) ← s.owners.flush hz tsc nic
    .ret (⟨s.app, owners⟩, [])
  | .complete addr => .ret (⟨s.app, s.owners.complete addr⟩, [])

/-- Packets are received into free buffers and built in free buffers, and the device frees
what it owns. -/
def Legal (s : Sys) (_ : List Consumed) : Op → Prop
  | .recv pkt _ _ => pkt.addr ∈ s.owners.pool
  | .tick env _ _ => ∀ socket addr stale,
      env.pools.txMempool socket = some (addr, stale) → addr ∈ s.owners.pool
  | .flush _ _ => True
  | .complete addr => addr ∈ s.owners.device

structure Safe (_ : List Op) (s : Sys) (es : List Consumed) : Prop where
  once : ∀ c ∈ es, ConsumedOnce c.addr c.effects
  slots : ∀ p, ∀ a ∈ (s.owners.tx.conf.txMbufs p).buffered, a ∉ s.owners.pool
  pool : s.owners.pool.Nodup

def NoRequest (_ : Sys) (_ : List Consumed) : Op → Prop
  | .recv pkt _ _ => ¬ IsEchoRequest pkt
  | _ => True

end Calls

section Run
variable {app : PingApp} {hz : UInt64} {s₀ s s' : Sys} {es es' : List Consumed}

/-- No buffer is lost or held twice. -/
structure Kept (s₀ : Sys) (_ : List Op) (s : Sys) (es : List Consumed) : Prop where
  valid : s.owners.tx.Valid
  held : s.owners.held = s₀.owners.held
  once : ∀ c ∈ es, ConsumedOnce c.addr c.effects

lemma Kept.safe {os : List Op} (hnodup : s₀.owners.held.Nodup) (h : Kept s₀ os s es) :
    Safe os s es := by
  have hheld : s.owners.held.Nodup := h.held ▸ hnodup
  exact ⟨h.once, fun p a ha => Owners.not_mem_pool hheld ha, Owners.pool_nodup hheld⟩

variable (app hz) in
lemma step_recv {pkt : Mbuf} (hv : s.owners.tx.Valid) (hpool : pkt.addr ∈ s.owners.pool)
    (hother : ¬ IsEchoRequest pkt) (port : Fin maxEthPorts) (nic : Nic) :
    ∃ s', step app hz s (.recv pkt port nic) = .ret (s', [⟨pkt.addr, [.free pkt]⟩]) ∧
      s'.owners.tx.Valid ∧ s'.owners.held = s.owners.held := by
  obtain ⟨st, hrx⟩ : ∃ st, pktRx app s.app (describe pkt port) =
      .ret (st, describe pkt port, [.free pkt]) := pktRx_other app s.app hother
  obtain ⟨owners, fs, hrun, hv', hheld⟩ := Owners.takeDispose_held nic hv [.free pkt]
    (by simp) (by simpa [PktEffect.addr, PktEffect.pkt] using hpool)
  have hrun' : runOps (Owners.dispose nic) (s.owners.take [pkt.addr]) [.free pkt] = _ := hrun
  refine ⟨⟨st, owners⟩, ?_, hv', hheld⟩
  simp only [step, hrx, Outcome.ret_bind, hrun']

variable (app hz) in
/-- The packet is queued or already sent, and free. -/
lemma step_request {pkt : Mbuf} (hv : s.owners.tx.Valid) (hrequest : IsEchoRequest pkt)
    (port : Fin maxEthPorts) (nic : Nic) :
    ∃ s' reply, step app hz s (.recv pkt port nic) = .ret (s',
      [⟨pkt.addr, [.addToTxQueue reply (portByte app.port), .free reply]⟩]) := by
  obtain ⟨b, hrx⟩ : ∃ b : TwBuf, pktRx app s.app (describe pkt port) =
      .ret (s.app, b, [.addToTxQueue b.pkt (portByte app.port), .free b.pkt]) :=
    ⟨_, pktRx_request app s.app hrequest⟩
  have hvtake : (s.owners.take [pkt.addr]).tx.Valid := hv
  have hport : ∀ m portId, PktEffect.addToTxQueue m portId ∈
      [.addToTxQueue b.pkt (portByte app.port), .free b.pkt] → ∃ p, portId = portByte p := by
    intro m portId hm
    simp only [List.mem_cons, List.not_mem_nil, or_false, reduceCtorEq] at hm
    exact ⟨app.port, (PktEffect.addToTxQueue.inj hm).2⟩
  obtain ⟨owners, fs, hrun, -, -⟩ := Owners.runDispose_held nic hvtake hport
  refine ⟨⟨s.app, owners⟩, b.pkt, ?_⟩
  simp only [step, hrx, Outcome.ret_bind, hrun]

lemma step_tick {env : BufEnv} {arp : ArpState} {nic : Nic} (hv : s.owners.tx.Valid)
    (hlegal : Legal s es (.tick env arp nic))
    (h : step app hz s (.tick env arp nic) = .ret (s', es')) :
    es' = [] ∧ s'.owners.tx.Valid ∧ s'.owners.held = s.owners.held := by
  obtain ⟨⟨st, effects⟩, htx, h⟩ := Outcome.bind_eq_ret.mp h
  obtain ⟨owners, fs, hrun, hv', hheld⟩ := Owners.takeSend_held nic hv
    ((pktTx_allocates htx).imp_right fun ⟨pkt, socket, stale, he, halloc⟩ =>
      ⟨pkt, app.port, he, hlegal socket pkt.addr stale halloc⟩)
  simp only [hrun, Outcome.ret_bind] at h
  obtain ⟨rfl, rfl⟩ : ⟨st, owners⟩ = s' ∧ [] = es' := by simpa using h
  exact ⟨rfl, hv', hheld⟩

/-- What one call preserves. -/
lemma Kept.step {os : List Op} {o : Op} (hkept : Kept s₀ os s es) (hlegal : Legal s es o)
    (hallowed : NoRequest s es o) (h : step app hz s o = .ret (s', es')) :
    Kept s₀ (os ++ [o]) s' (es ++ es') := by
  cases o with
  | recv pkt port nic =>
    obtain ⟨t, ht, hvalid, hheld⟩ := step_recv app hz hkept.valid hlegal hallowed port nic
    obtain ⟨rfl, rfl⟩ : t = s' ∧ [⟨pkt.addr, [.free pkt]⟩] = es' := by simpa [ht] using h
    refine ⟨hvalid, hheld.trans hkept.held, fun c hc => ?_⟩
    rcases List.mem_append.mp hc with hc | hc
    · exact hkept.once c hc
    · rw [List.mem_singleton.mp hc]
      exact ⟨_, rfl, rfl⟩
  | tick env arp nic =>
    obtain ⟨rfl, hvalid, hheld⟩ := step_tick hkept.valid hlegal h
    exact ⟨hvalid, hheld.trans hkept.held, by simpa using hkept.once⟩
  | flush tsc nic =>
    obtain ⟨owners, fs, hflush, hvalid, hheld, -⟩ := Owners.flush_held hz tsc nic hkept.valid
    simp only [Ping.step, hflush, Outcome.ret_bind] at h
    obtain ⟨rfl, rfl⟩ : ⟨s.app, owners⟩ = s' ∧ [] = es' := by simpa using h
    exact ⟨hvalid, hheld.trans hkept.held, by simpa using hkept.once⟩
  | complete addr =>
    obtain ⟨rfl, rfl⟩ : ⟨s.app, s.owners.complete addr⟩ = s' ∧ [] = es' := by
      simpa [Ping.step] using h
    exact ⟨hkept.valid, (Owners.complete_held hlegal).trans hkept.held, by simpa using hkept.once⟩

def idlePing : Sys := ⟨resolved, idleOwners⟩

def zeroPkt : Mbuf := ⟨1, fun _ => 0, mbufBufLen, headroom, 60⟩

/-- In a run of the application no buffer is freed while it is queued, and none freed twice,
exactly if it receives no echo request. -/
theorem ping_safe_iff (app : PingApp) (hz : UInt64) (hv : s₀.owners.tx.Valid)
    (hnodup : s₀.owners.held.Nodup) {os : List Op}
    (legal : EachCall (step app hz) s₀ Legal os) :
    Always (step app hz) s₀ Safe os ↔ EachCall (step app hz) s₀ NoRequest os := by
  have hinit : Kept s₀ [] s₀ [] := ⟨hv, rfl, by simp⟩
  refine always_iff_eachCall hinit (fun os s es => Kept.safe hnodup) ?_ ?_ legal
  · intro os s es o hkept hlegal hallowed s' es' hstep
    exact hkept.step hlegal hallowed hstep
  · intro os s es o hkept hlegal hnot
    cases o with
    | recv pkt port nic =>
      obtain ⟨s', reply, hstep⟩ := step_request app hz hkept.valid (not_not.mp hnot) port nic
      refine ⟨s', _, hstep, fun hsafe => ?_⟩
      obtain ⟨e, he, -⟩ := hsafe.once _ (List.mem_append_right es List.mem_cons_self)
      simp at he
    | tick env arp nic => exact absurd trivial hnot
    | flush tsc nic => exact absurd trivial hnot
    | complete addr => exact absurd trivial hnot

theorem ping_safe_three : Always (step pinger 1000000) idlePing Safe
    [.recv zeroPkt 0 nicTwo, .tick (poolOf fun _ => 0) .empty nicTwo, .flush 5000 nicTwo] := by
  have hv : idlePing.owners.tx.Valid := idleOwners_valid
  have hnodup : idlePing.owners.held.Nodup := idleOwners_nodup
  refine (ping_safe_iff pinger 1000000 hv hnodup ?_).mpr ?_
  · have hrecv : Legal idlePing [] (.recv zeroPkt 0 nicTwo) := show 1 ∈ [0, 1, 2] by decide
    refine eachCall_cons rfl hrecv (eachCall_cons rfl ?_ (eachCall_singleton trivial))
    intro socket addr stale halloc
    obtain ⟨rfl, -⟩ : 0 = addr ∧ _ := by simpa [poolOf] using halloc
    decide
  · have hother : ¬ IsEchoRequest zeroPkt := by decide
    refine eachCall_of_forall fun o ho s es => ?_
    simp only [List.mem_cons, List.not_mem_nil, or_false] at ho
    rcases ho with rfl | rfl | rfl
    · exact hother
    · trivial
    · trivial

/-- An echo request is in a transmit slot and in the pool at once. -/
theorem ping_frees_queued :
    EachCall (step pinger 1000000) idlePing Legal [.recv (smallPing 0) 0 nicTwo] ∧
      ¬ Always (step pinger 1000000) idlePing Safe [.recv (smallPing 0) 0 nicTwo] ∧
      ∃ s es, runOps (step pinger 1000000) idlePing [.recv (smallPing 0) 0 nicTwo] =
        .ret (s, es) ∧ 0 ∈ (s.owners.tx.conf.txMbufs 0).buffered ∧ 0 ∈ s.owners.pool := by
  have hlegal : EachCall (step pinger 1000000) idlePing Legal [.recv (smallPing 0) 0 nicTwo] :=
    eachCall_singleton (show 0 ∈ [0, 1, 2] by decide)
  have hrun : ∃ s es, runOps (step pinger 1000000) idlePing [.recv (smallPing 0) 0 nicTwo] =
      .ret (s, es) ∧ 0 ∈ (s.owners.tx.conf.txMbufs 0).buffered ∧ 0 ∈ s.owners.pool :=
    ⟨_, _, rfl, by decide, by decide⟩
  refine ⟨hlegal, fun hsafe => ?_, hrun⟩
  obtain ⟨s, es, hs, hslot, hpool⟩ := hrun
  exact (hsafe _ List.prefix_rfl s es hs).slots 0 0 hslot hpool

end Run
end Ping
end Twister
