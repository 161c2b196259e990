import Twister.Iperf
import Twister.MbufOwner

/-! Runs of the client's event loop, with the owner of every packet buffer. The one transmit
buffer is allocated once; after its first transmission it is the device's, then the pool's,
and the client writes and queues it again all the same. -/
namespace Twister
namespace Iperf

section Calls
variable {test : IperfTest} {env : ConnectEnv} {timerHandle : Option ℕ} {st st' : IperfState}
  {es : List PktEffect}

lemma makePkt_addr (test : IperfTest) (serverMac : EtherAddr) (now : UInt64) (size : UInt16)
    (m : Mbuf) : (makePkt test serverMac now size m).addr = m.addr := by
  simp only [makePkt, setPayload, twIpv4Cksum, Mbuf.setSAddr, Mbuf.setDAddr, Mbuf.setEtherType,
    Mbuf.setIpCksum, Mbuf.setIpTtl, Mbuf.setIpVersionIhl, Mbuf.setIpDst, Mbuf.setIpSrc,
    Mbuf.setIpProto, Mbuf.setIpTotalLength, Mbuf.setUdpCksum, Mbuf.setUdpLen, Mbuf.setUdpDst,
    Mbuf.setUdpSrc, Mbuf.store_addr]

/-- The same buffer with the same bounds, whatever it holds. -/
structure SameBuf (t t' : TwBuf) : Prop where
  addr : t'.pkt.addr = t.pkt.addr
  data : t'.data = t.data
  dataOff : t'.pkt.dataOff = t.pkt.dataOff

lemma sameBuf_edit (t : TwBuf) {f : Mbuf → Mbuf} (hf : ∀ m, (f m).addr = m.addr) :
    SameBuf t (t.edit f) := ⟨t.edit_addr hf, rfl, rfl⟩

/-- A tick of the connect timer keeps the transmit buffer and sends at most one packet, in a
buffer it has allocated. -/
lemma twUdpConnect_allocates (h : twUdpConnect test env timerHandle st = .ret (st', es)) :
    SameBuf st.txBuf st'.txBuf ∧ st'.arp = st.arp ∧
      (es = [] ∨ ∃ pkt socket stale, es = [.addToTxQueue pkt (portByte test.port)] ∧
        env.pools.txMempool socket = some (pkt.addr, stale)) := by
  unfold twUdpConnect at h
  split_ifs at h with hcount
  obtain ⟨found, -, h⟩ := Outcome.bind_eq_ret.mp h
  cases found with
  | none =>
    obtain ⟨fs, hfs, he⟩ := Outcome.bind_eq_ret.mp h
    obtain ⟨rfl, rfl⟩ : _ = st' ∧ fs = es := by simpa using he
    exact ⟨⟨rfl, rfl, rfl⟩, rfl, Or.inr (test.twSendArpRequest_allocates hfs)⟩
  | some a =>
    obtain ⟨entry, -, h⟩ := Outcome.bind_eq_ret.mp h
    obtain ⟨st₁, hconnect, he⟩ := Outcome.bind_eq_ret.mp h
    obtain ⟨rfl, rfl⟩ : st₁ = st' ∧ [] = es := by simpa using he
    obtain ⟨loop, rfl⟩ := connect_inv hconnect
    refine ⟨?_, rfl, Or.inl rfl⟩
    exact sameBuf_edit st.txBuf (makePkt_addr test entry.val.ethMac env.now st.txBuf.size)

end Calls

section Model

/-- The client with the owner of every buffer; `leaked` are received packets that the
dispatch has dropped without freeing them. -/
structure Sys where
  app : IperfState
  owners : Owners
  leaked : List ℕ

/-- What is not the client's: in a slot, with the device, in the pool or lost. -/
def Sys.elsewhere (s : Sys) : Multiset ℕ := s.owners.held + s.leaked

inductive Op
  | connect (env : ConnectEnv) (timerHandle : Option ℕ) (nic : Nic)
  | recv (pkt : Mbuf) (slot : Fin maxEthPorts) (mem : Malloc (Node ArpEntry)) (now : UInt64)
      (nic : Nic)
  | tx (currTimeCycle now : UInt64) (nic : Nic)
  | stats
  | flush (tsc : UInt64) (nic : Nic)
  | complete (addr : ℕ)

/-- `pkt_tx` writes a time stamp and queues its buffer, with what was not the client's at that
moment; or the device has sent a datagram from that buffer, with the stamp that was in it. -/
inductive Event
  | wrote (stamp : UInt64) (before : Multiset ℕ)
  | out (stamp : UInt64)

def writes (es : List Event) : List (UInt64 × Multiset ℕ) :=
  es.filterMap fun
    | .wrote stamp before => some (stamp, before)
    | .out _ => none

def outs (es : List Event) : List UInt64 :=
  es.filterMap fun
    | .wrote _ _ => none
    | .out stamp => some stamp

@[simp] lemma writes_append (es es' : List Event) : writes (es ++ es') = writes es ++ writes es' :=
  List.filterMap_append

@[simp] lemma outs_append (es es' : List Event) : outs (es ++ es') = outs es ++ outs es' :=
  List.filterMap_append

/-- Whatever is put into the buffer, the client's pointer sees it. -/
def sees (st : IperfState) (pkt : Mbuf) : IperfState :=
  if pkt.addr = st.txBuf.pkt.addr then { st with txBuf := { st.txBuf with pkt } } else st

/-- The dispatch of a received packet behind its tags. -/
def receive (test : IperfTest) (mem : Malloc (Node ArpEntry)) (now : UInt64) (st : IperfState)
    (pkt : Mbuf) (slot : Fin maxEthPorts) : Outcome (IperfState × List PktEffect) :=
  if rteBeToCpu16 pkt.etherType = etherTypeARP then do
    let (_, arp, es) ← twParseArp test.ports mem st.arp pkt (portByte slot)
    .ret ({ st with arp }, es)
  else if rteBeToCpu16 pkt.etherType = etherTypeIPv4 then pktRx test now st (describe pkt slot)
  else .ret (st, [])

/-- The client sends no other IPv4 packets, only ARP. -/
def IsDatagram (m : Mbuf) : Prop := rteBeToCpu16 m.etherType = etherTypeIPv4

instance decidableIsDatagram (m : Mbuf) : Decidable (IsDatagram m) :=
  inferInstanceAs (Decidable (_ = _))

def step (test : IperfTest) (hz : UInt64) (s : Sys) : Op → Outcome (Sys × List Event)
  | .connect env timerHandle nic => do
    let (app, es) ← twUdpConnect test env timerHandle s.app
    let (owners, _) ← runOps (Owners.dispose nic) (s.owners.take (es.map PktEffect.addr)) es
    .ret (⟨app, owners, s.leaked⟩, [])
  | .recv pkt slot mem now nic => do
    let pkt ← untag (pkt.dataLen + 1) pkt
    let (app, es) ← receive test mem now (sees s.app pkt) pkt slot
    let (owners, _) ← runOps (Owners.dispose nic) (s.owners.take [pkt.addr]) es
    .ret (⟨(es.map PktEffect.pkt).foldl sees app, owners,
      [pkt.addr].diff (es.map PktEffect.addr) ++ s.leaked⟩, [])
  | .tx currTimeCycle now nic => do
    let (app, es) := pktTx test currTimeCycle now s.app
    let (owners, _) ← runOps (Owners.dispose nic) s.owners es
    .ret (⟨app, owners, s.leaked⟩, es.map fun _ => .wrote now s.elsewhere)
  | .stats =>
    .ret ({ s with app.testStats := (printPerfStats s.app.testStats).1 }, [])
  | .flush tsc nic => do
    let (owners, _) ← s.owners.flush hz tsc nic
    .ret ({ s with owners }, [])
  | .complete addr =>
    .ret ({ s with owners := s.owners.complete addr },
      if addr = s.app.txBuf.pkt.addr ∧ IsDatagram s.app.txBuf.pkt then
        [.out (payload s.app.txBuf.pkt)] else [])

/-- The connect timer runs until the server is found and the transmit callback after that;
buffers are allocated and received into from the pool, and the device frees what it owns. -/
def Legal (s : Sys) (_ : List Event) : Op → Prop
  | .connect env _ _ => s.app.serverMac = none ∧ ∀ socket addr stale,
      env.pools.txMempool socket = some (addr, stale) → addr ∈ s.owners.pool
  | .recv pkt _ _ _ _ => pkt.addr ∈ s.owners.pool
  | .tx _ _ _ => s.app.serverMac ≠ none
  | .complete addr => addr ∈ s.owners.device
  | .stats | .flush _ _ => True

/-- No buffer is in two slots, `pkt_tx` has only used its buffer while it was the client's,
and what went out had the stamps that were written for it. -/
structure Exclusive (_ : List Op) (s : Sys) (es : List Event) : Prop where
  slots : s.owners.slots.Nodup
  fresh : ∀ w ∈ writes es, s.app.txBuf.pkt.addr ∉ w.2
  stamps : (outs es).Sublist ((writes es).map Prod.fst)

/-- No due call of `pkt_tx` after another. -/
def SendsOnce (test : IperfTest) (s : Sys) (es : List Event) : Op → Prop
  | .tx currTimeCycle _ _ => currTimeCycle - s.app.prevTimeCycle > test.ppsDelay → writes es = []
  | _ => True

end Model

section Run
variable {test : IperfTest} {hz : UInt64} {b : ℕ} {s s' : Sys} {es es' : List Event}

structure Unsent (b : ℕ) (s : Sys) (es : List Event) : Prop where
  writes : writes es = []
  outs : outs es = []
  fresh : b ∉ s.elsewhere
  data : s.app.txBuf.data = s.app.txBuf.pkt.dataOff

/-- The datagram is no longer under way. -/
def Gone (b : ℕ) (s : Sys) : Prop :=
  b ∈ s.owners.pool ∨ b ∈ s.leaked ∨ ¬ IsDatagram s.app.txBuf.pkt

structure Sent (b : ℕ) (s : Sys) (es : List Event) (stamp : UInt64) (before : Multiset ℕ) :
    Prop where
  writes : writes es = [(stamp, before)]
  fresh : b ∉ before
  passed : b ∈ s.elsewhere
  connected : s.app.serverMac ≠ none
  stamped : Gone b s ∨ payload s.app.txBuf.pkt = stamp ∧ outs es = []
  outs : (outs es).Sublist [stamp]

structure Inv (b : ℕ) (_ : List Op) (s : Sys) (es : List Event) : Prop where
  valid : s.owners.tx.Valid
  lists : ∃ xs, s.app.arp.Lists xs
  addr : s.app.txBuf.pkt.addr = b
  nodup : s.elsewhere.Nodup
  phase : Unsent b s es ∨ ∃ stamp before, Sent b s es stamp before

lemma Inv.held_nodup {os : List Op} (h : Inv b os s es) : s.owners.held.Nodup :=
  (Multiset.nodup_add.mp h.nodup).1

lemma Unsent.not_mem_pool (h : Unsent b s es) : b ∉ s.owners.pool := fun hpool =>
  h.fresh (by simp [Sys.elsewhere, Owners.held, hpool])

lemma Inv.exclusive {os : List Op} (h : Inv b os s es) : Exclusive os s es := by
  refine ⟨Owners.slots_nodup h.held_nodup, ?_, ?_⟩
  · intro w hw
    rw [h.addr]
    rcases h.phase with hunsent | ⟨stamp, before, hsent⟩
    · rw [hunsent.writes] at hw
      simp at hw
    · rw [hsent.writes, List.mem_singleton] at hw
      rw [hw]
      exact hsent.fresh
  · rcases h.phase with hunsent | ⟨stamp, before, hsent⟩
    · rw [hunsent.outs, hunsent.writes]
      exact List.Sublist.refl []
    · rw [hsent.writes]
      exact hsent.outs

/-- A call that moves buffers between the others, and touches the transmit buffer only if it
is in the pool. -/
lemma Inv.keep {os : List Op} {o : Op} (h : Inv b os s es) (hvalid : s'.owners.tx.Valid)
    (hlists : ∃ xs, s'.app.arp.Lists xs) (helse : s'.elsewhere = s.elsewhere)
    (haddr : s'.app.txBuf.pkt.addr = s.app.txBuf.pkt.addr)
    (hsame : b ∉ s.owners.pool → s'.app.txBuf = s.app.txBuf)
    (hmac : s.app.serverMac ≠ none → s'.app.serverMac ≠ none) (hgone : Gone b s → Gone b s') :
    Inv b (os ++ [o]) s' (es ++ []) := by
  rw [List.append_nil]
  refine ⟨hvalid, hlists, haddr.trans h.addr, helse ▸ h.nodup, ?_⟩
  rcases h.phase with hunsent | ⟨stamp, before, hsent⟩
  · refine Or.inl ⟨hunsent.writes, hunsent.outs, helse ▸ hunsent.fresh, ?_⟩
    rw [hsame hunsent.not_mem_pool]
    exact hunsent.data
  · refine Or.inr ⟨stamp, before, hsent.writes, hsent.fresh, helse ▸ hsent.passed,
      hmac hsent.connected, ?_, hsent.outs⟩
    by_cases hb : b ∈ s.owners.pool
    · exact Or.inl (hgone (Or.inl hb))
    · rw [hsame hb]
      exact hsent.stamped.imp_left hgone

/-- What is already lost or returned stays so while the buffer is untouched. -/
lemma Gone.mono (h : Gone b s) (hpool : s.owners.pool ⊆ s'.owners.pool)
    (hleaked : s.leaked ⊆ s'.leaked) (hsame : s'.app.txBuf = s.app.txBuf) : Gone b s' := by
  rcases h with hb | hb | hb
  · exact Or.inl (hpool hb)
  · exact Or.inr (Or.inl (hleaked hb))
  · exact Or.inr (Or.inr (hsame ▸ hb))

lemma step_connect {env : ConnectEnv} {timerHandle : Option ℕ} {nic : Nic} {os : List Op}
    (hinv : Inv b os s es) (hlegal : Legal s es (.connect env timerHandle nic))
    (h : step test hz s (.connect env timerHandle nic) = .ret (s', es')) :
    Inv b (os ++ [.connect env timerHandle nic]) s' (es ++ es') := by
  obtain ⟨⟨app, effects⟩, hconnect, h⟩ := Outcome.bind_eq_ret.mp h
  obtain ⟨hbuf, harp, halloc⟩ := twUdpConnect_allocates hconnect
  obtain ⟨owners, fs, hrun, hv, hheld⟩ := Owners.takeSend_held nic hinv.valid
    (halloc.imp_right fun ⟨pkt, socket, stale, he, hpkt⟩ =>
      ⟨pkt, test.port, he, hlegal.2 socket pkt.addr stale hpkt⟩)
  simp only [hrun, Outcome.ret_bind] at h
  obtain ⟨rfl, rfl⟩ : ⟨app, owners, s.leaked⟩ = s' ∧ [] = es' := by simpa using h
  have helse : Sys.elsewhere ⟨app, owners, s.leaked⟩ = s.elsewhere :=
    congrArg (· + (s.leaked : Multiset ℕ)) hheld
  -- the buffer has not been sent, so it is not among those allocated here
  rcases hinv.phase with hunsent | ⟨stamp, before, hsent⟩
  · rw [List.append_nil]
    refine ⟨hv, harp ▸ hinv.lists, hbuf.addr.trans hinv.addr, helse ▸ hinv.nodup, Or.inl ?_⟩
    exact ⟨hunsent.writes, hunsent.outs, helse ▸ hunsent.fresh,
      hbuf.data.trans (hunsent.data.trans hbuf.dataOff.symm)⟩
  · exact absurd hlegal.1 hsent.connected

lemma sees_of_ne {st : IperfState} {pkt : Mbuf} (h : pkt.addr ≠ st.txBuf.pkt.addr) :
    sees st pkt = st := if_neg h

lemma sees_addr (st : IperfState) (pkt : Mbuf) :
    (sees st pkt).txBuf.pkt.addr = st.txBuf.pkt.addr := by
  rw [sees]
  split_ifs with h
  · exact h
  · rfl

lemma sees_rest (st : IperfState) (pkt : Mbuf) :
    (sees st pkt).serverMac = st.serverMac ∧ (sees st pkt).arp = st.arp := by
  rw [sees]
  split_ifs <;> exact ⟨rfl, rfl⟩

/-- What becomes of a received packet: the dispatch has no case for it, it is freed, or it is
turned into an ARP reply. -/
inductive Fate (pkt : Mbuf) (slot : Fin maxEthPorts) : List PktEffect → Prop
  | leaked : Fate pkt slot []
  | freed : Fate pkt slot [.free pkt]
  | answered {reply : Mbuf} (haddr : reply.addr = pkt.addr) (hother : ¬ IsDatagram reply) :
      Fate pkt slot [.addToTxQueue reply (portByte slot)]

lemma receive_fate {mem : Malloc (Node ArpEntry)} {now : UInt64} {st st' : IperfState}
    {pkt : Mbuf} {slot : Fin maxEthPorts} {effects : List PktEffect}
    (hlists : ∃ xs, st.arp.Lists xs)
    (h : receive test mem now st pkt slot = .ret (st', effects)) :
    Fate pkt slot effects ∧ st'.txBuf = st.txBuf ∧ st'.serverMac = st.serverMac ∧
      ∃ xs, st'.arp.Lists xs := by
  unfold receive at h
  split_ifs at h with harp hip
  · obtain ⟨⟨r, arp, fs⟩, hparse, he⟩ := Outcome.bind_eq_ret.mp h
    obtain ⟨rfl, rfl⟩ : _ = st' ∧ fs = effects := by simpa using he
    obtain ⟨xs, hlists⟩ := hlists
    obtain ⟨rfl, xs', hlists', -⟩ := twParseArp_inv hlists slot hparse
    refine ⟨?_, rfl, rfl, xs', hlists'⟩
    unfold parseEffects
    split_ifs with hask
    · have hreply := overwriteWithReply_isReply (test.ports slot) pkt
      refine .answered hreply.addr ?_
      rw [IsDatagram, hreply.etherType, harp]
      decide
    · exact .freed
  · obtain ⟨testStats, -, he⟩ := Outcome.bind_eq_ret.mp h
    obtain ⟨rfl, rfl⟩ : _ = st' ∧ [.free pkt] = effects := by simpa [describe] using he
    exact ⟨.freed, rfl, rfl, hlists⟩
  · obtain ⟨rfl, rfl⟩ : st = st' ∧ [] = effects := by simpa using h
    exact ⟨.leaked, rfl, rfl, hlists⟩

/-- Whatever becomes of the packet, its buffer stays out of the client's hands. -/
lemma Fate.elsewhere {pkt : Mbuf} {slot : Fin maxEthPorts} {effects : List PktEffect}
    (hfate : Fate pkt slot effects) (nic : Nic) (hv : s.owners.tx.Valid)
    (hpool : pkt.addr ∈ s.owners.pool) (app : IperfState) :
    ∃ owners fs, runOps (Owners.dispose nic) (s.owners.take [pkt.addr]) effects =
        .ret (owners, fs) ∧ owners.tx.Valid ∧
      Sys.elsewhere ⟨app, owners, [pkt.addr].diff (effects.map PktEffect.addr) ++ s.leaked⟩ =
        s.elsewhere := by
  have hle : (([pkt.addr] : List ℕ) : Multiset ℕ) ≤ s.owners.pool := by simpa using hpool
  cases hfate with
  | leaked =>
    refine ⟨s.owners.take [pkt.addr], [], rfl, hv, ?_⟩
    have htake := Owners.take_held hle
    simp only [Sys.elsewhere, List.map_nil, List.diff_nil, ← Multiset.coe_add, ← add_assoc, htake]
  | freed =>
    obtain ⟨owners, fs, hrun, hv', hheld⟩ := Owners.takeDispose_held nic hv [.free pkt] (by simp)
      hle
    refine ⟨owners, fs, hrun, hv', ?_⟩
    simp [Sys.elsewhere, hheld, PktEffect.addr, PktEffect.pkt]
  | @answered reply haddr hother =>
    have heq : [pkt.addr] = [PktEffect.addToTxQueue reply (portByte slot)].map PktEffect.addr :=
      congrArg (fun a => [a]) haddr.symm
    obtain ⟨owners, fs, hrun, hv', hheld⟩ := Owners.takeSend_held nic hv
      (Or.inr ⟨reply, slot, rfl, haddr ▸ hpool⟩)
    rw [← heq] at hrun ⊢
    refine ⟨owners, fs, hrun, hv', ?_⟩
    simp [Sys.elsewhere, hheld]

/-- A packet received into the buffer ends its time as a datagram. -/
lemma Fate.gone {pkt : Mbuf} {slot : Fin maxEthPorts} {effects : List PktEffect}
    (hfate : Fate pkt slot effects) {nic : Nic} {owners owners' : Owners}
    {fs : List (TxEvent ℕ)} {app : IperfState} (haddr : app.txBuf.pkt.addr = pkt.addr)
    (h : runOps (Owners.dispose nic) owners effects = .ret (owners', fs)) (leaked : List ℕ) :
    Gone pkt.addr ⟨(effects.map PktEffect.pkt).foldl sees app, owners',
      [pkt.addr].diff (effects.map PktEffect.addr) ++ leaked⟩ := by
  cases hfate with
  | leaked => exact Or.inr (Or.inl List.mem_cons_self)
  | freed =>
    obtain ⟨rfl, -⟩ : _ = owners' ∧ _ := by simpa [runOps, Owners.dispose] using h
    exact Or.inl List.mem_cons_self
  | @answered reply hreply hother =>
    refine Or.inr (Or.inr ?_)
    have hsees : (sees app reply).txBuf.pkt = reply := by
      rw [sees, if_pos (hreply.trans haddr.symm)]
    simpa [PktEffect.pkt, hsees] using hother

lemma Fate.pkt_addr {pkt : Mbuf} {slot : Fin maxEthPorts} {effects : List PktEffect}
    (hfate : Fate pkt slot effects) : ∀ m ∈ effects.map PktEffect.pkt, m.addr = pkt.addr := by
  cases hfate with
  | leaked => simp
  | freed => simp [PktEffect.pkt]
  | answered haddr hother => simpa [PktEffect.pkt] using haddr

lemma foldl_sees (st : IperfState) (ms : List Mbuf) :
    (ms.foldl sees st).txBuf.pkt.addr = st.txBuf.pkt.addr ∧
      (ms.foldl sees st).serverMac = st.serverMac ∧ (ms.foldl sees st).arp = st.arp := by
  induction ms generalizing st with
  | nil => exact ⟨rfl, rfl, rfl⟩
  | cons m ms ih =>
    obtain ⟨haddr, hmac, harp⟩ := ih (sees st m)
    obtain ⟨hmac', harp'⟩ := sees_rest st m
    exact ⟨haddr.trans (sees_addr st m), hmac.trans hmac', harp.trans harp'⟩

lemma foldl_sees_of_ne {st : IperfState} {ms : List Mbuf}
    (h : ∀ m ∈ ms, m.addr ≠ st.txBuf.pkt.addr) : ms.foldl sees st = st := by
  induction ms with
  | nil => rfl
  | cons m ms ih =>
    rw [List.foldl_cons, sees_of_ne (h m List.mem_cons_self)]
    exact ih fun m' hm' => h m' (List.mem_cons_of_mem m hm')

lemma step_recv {pkt : Mbuf} {slot : Fin maxEthPorts} {mem : Malloc (Node ArpEntry)}
    {now : UInt64} {nic : Nic} {os : List Op} (hinv : Inv b os s es)
    (hlegal : pkt.addr ∈ s.owners.pool)
    (h : step test hz s (.recv pkt slot mem now nic) = .ret (s', es')) :
    Inv b (os ++ [.recv pkt slot mem now nic]) s' (es ++ es') := by
  obtain ⟨m, htag, h⟩ := Outcome.bind_eq_ret.mp h
  obtain ⟨⟨app, effects⟩, hreceive, h⟩ := Outcome.bind_eq_ret.mp h
  rw [← untag_addr htag] at hlegal
  obtain ⟨hmac₀, harp₀⟩ := sees_rest s.app m
  obtain ⟨hfate, hbuf, hmac, hlists⟩ := receive_fate (harp₀ ▸ hinv.lists) hreceive
  obtain ⟨hfaddr, hfmac, hfarp⟩ := foldl_sees app (effects.map PktEffect.pkt)
  obtain ⟨owners, fs, hrun, hv, helse⟩ := hfate.elsewhere nic hinv.valid hlegal
    ((effects.map PktEffect.pkt).foldl sees app)
  simp only [hrun, Outcome.ret_bind] at h
  obtain ⟨rfl, rfl⟩ : _ = s' ∧ [] = es' := by simpa using h
  have haddr : app.txBuf.pkt.addr = s.app.txBuf.pkt.addr := by rw [hbuf, sees_addr]
  have hother : m.addr ≠ b → ((effects.map PktEffect.pkt).foldl sees app).txBuf = s.app.txBuf := by
    intro hne
    have hne₀ : m.addr ≠ s.app.txBuf.pkt.addr := by rwa [hinv.addr]
    rw [foldl_sees_of_ne, hbuf, sees_of_ne hne₀]
    intro m' hm'
    rw [hfate.pkt_addr m' hm', haddr]
    exact hne₀
  refine hinv.keep hv (hfarp ▸ hlists) helse (hfaddr.trans haddr) ?_ ?_ ?_
  · exact fun hb => hother fun heq => hb (heq ▸ hlegal)
  · rw [hfmac, hmac, hmac₀]
    exact id
  · intro hgone
    by_cases heq : m.addr = b
    · subst heq
      exact hfate.gone (haddr.trans hinv.addr) hrun s.leaked
    · have htake : b ∈ s.owners.pool → b ∈ owners.pool := by
        intro hb
        refine Owners.runDispose_pool hrun ?_
        rw [Owners.take, List.diff_cons, List.diff_nil]
        exact (List.mem_erase_of_ne fun he => heq he.symm).mpr hb
      rcases hgone with hb | hb | hb
      · exact Or.inl (htake hb)
      · exact Or.inr (Or.inl (List.mem_append_right _ hb))
      · refine Or.inr (Or.inr ?_)
        rw [hother heq]
        exact hb

lemma pktTx_idle {currTimeCycle : UInt64} (now : UInt64) {st : IperfState}
    (h : ¬ currTimeCycle - st.prevTimeCycle > test.ppsDelay) :
    pktTx test currTimeCycle now st = (st, []) := if_neg h

variable (test) in
lemma pktTx_due {currTimeCycle : UInt64} (now : UInt64) {st : IperfState}
    (h : currTimeCycle - st.prevTimeCycle > test.ppsDelay) :
    ∃ st', pktTx test currTimeCycle now st =
        (st', [.addToTxQueue st'.txBuf.pkt (portByte test.port)]) ∧
      st'.txBuf = st.txBuf.edit (fun m => setPayload m offset now) ∧
      st'.serverMac = st.serverMac ∧ st'.arp = st.arp := by
  rw [pktTx, if_pos h, test.tw0Id_eq]
  exact ⟨_, rfl, rfl, rfl, rfl⟩

/-- The stamp stands in the frame. -/
lemma payload_edit {t : TwBuf} (hdata : t.data = t.pkt.dataOff) (now : UInt64) :
    payload (t.edit fun m => setPayload m offset now).pkt = now := by
  have hset : ∀ m, (setPayload m offset now).dataOff = m.dataOff := fun _ => rfl
  rw [TwBuf.edit_pkt hdata (hset t.pkt), payload, setPayload, Mbuf.load_store_self, le64_bytes64]

variable (test hz) in
/-- A due call queues the buffer, whoever holds it. -/
lemma step_due {currTimeCycle : UInt64} (now : UInt64) (nic : Nic) (hv : s.owners.tx.Valid)
    (hdue : currTimeCycle - s.app.prevTimeCycle > test.ppsDelay) :
    ∃ s', step test hz s (.tx currTimeCycle now nic) = .ret (s', [.wrote now s.elsewhere]) ∧
      s'.owners.tx.Valid ∧ s'.elsewhere = s.elsewhere + {s.app.txBuf.pkt.addr} ∧
      s'.app.txBuf = s.app.txBuf.edit (fun m => setPayload m offset now) ∧
      s'.app.serverMac = s.app.serverMac ∧ s'.app.arp = s.app.arp := by
  obtain ⟨st, htx, hbuf, hmac, harp⟩ := pktTx_due test now hdue
  have hport : ∀ m portId, PktEffect.addToTxQueue m portId ∈
      [.addToTxQueue st.txBuf.pkt (portByte test.port)] → ∃ p, portId = portByte p := by
    intro m portId hm
    exact ⟨test.port, (PktEffect.addToTxQueue.inj (List.mem_singleton.mp hm)).2⟩
  obtain ⟨owners, fs, hrun, hv', hheld⟩ := Owners.runDispose_held nic hv hport
  have haddr : st.txBuf.pkt.addr = s.app.txBuf.pkt.addr := by
    rw [hbuf]
    exact TwBuf.edit_addr s.app.txBuf fun _ => rfl
  refine ⟨⟨st, owners, s.leaked⟩, ?_, hv', ?_, hbuf, hmac, harp⟩
  · simp only [step, htx, hrun, Outcome.ret_bind, List.map_cons, List.map_nil]
  · simp only [Sys.elsewhere, hheld, ← haddr, List.map_cons, List.map_nil, PktEffect.addr,
      PktEffect.pkt, Multiset.coe_singleton]
    abel

lemma step_tx {currTimeCycle now : UInt64} {nic : Nic} {os : List Op}
    (hinv : Inv b os s es) (hlegal : s.app.serverMac ≠ none)
    (honce : SendsOnce test s es (.tx currTimeCycle now nic))
    (h : step test hz s (.tx currTimeCycle now nic) = .ret (s', es')) :
    Inv b (os ++ [.tx currTimeCycle now nic]) s' (es ++ es') := by
  by_cases hdue : currTimeCycle - s.app.prevTimeCycle > test.ppsDelay
  · obtain ⟨t, ht, hv, helse, hbuf, hmac, harp⟩ := step_due test hz now nic hinv.valid hdue
    obtain ⟨rfl, rfl⟩ : t = s' ∧ [.wrote now s.elsewhere] = es' := by simpa [ht] using h
    have haddr : t.app.txBuf.pkt.addr = s.app.txBuf.pkt.addr := by
      rw [hbuf]
      exact TwBuf.edit_addr s.app.txBuf fun _ => rfl
    rw [hinv.addr] at helse
    rcases hinv.phase with hunsent | ⟨stamp, before, hsent⟩
    · have hnodup : t.elsewhere.Nodup := by
        rw [helse]
        refine Multiset.nodup_add.mpr ⟨hinv.nodup, Multiset.nodup_singleton b, ?_⟩
        exact Multiset.disjoint_singleton.mpr hunsent.fresh
      refine ⟨hv, harp ▸ hinv.lists, haddr.trans hinv.addr, hnodup, Or.inr ⟨now, s.elsewhere, ?_⟩⟩
      refine ⟨?_, hunsent.fresh, ?_, hmac ▸ hlegal, Or.inr ⟨?_, ?_⟩, ?_⟩
      · rw [writes_append, hunsent.writes]
        rfl
      · rw [helse]
        exact Multiset.mem_add.mpr (Or.inr (Multiset.mem_singleton_self b))
      · rw [hbuf]
        exact payload_edit hunsent.data now
      · rw [outs_append, hunsent.outs]
        rfl
      · rw [outs_append, hunsent.outs]
        exact List.nil_sublist [now]
    · have hnone := honce hdue
      rw [hsent.writes] at hnone
      simp at hnone
  · simp only [step, pktTx_idle now hdue, runOps, Outcome.ret_bind, List.map_nil] at h
    obtain ⟨rfl, rfl⟩ : s = s' ∧ [] = es' := by simpa using h
    exact hinv.keep hinv.valid hinv.lists rfl rfl (fun _ => rfl) id id

lemma step_complete {addr : ℕ} {os : List Op} (hinv : Inv b os s es)
    (hlegal : addr ∈ s.owners.device)
    (h : step test hz s (.complete addr) = .ret (s', es')) :
    Inv b (os ++ [.complete addr]) s' (es ++ es') := by
  have helse : Sys.elsewhere { s with owners := s.owners.complete addr } = s.elsewhere :=
    congrArg (· + (s.leaked : Multiset ℕ)) (Owners.complete_held hlegal)
  have hpool : s.owners.pool ⊆ (s.owners.complete addr).pool := List.subset_cons_self _ _
  simp only [step, hinv.addr] at h
  by_cases hout : addr = b ∧ IsDatagram s.app.txBuf.pkt
  · obtain ⟨rfl, hdatagram⟩ := hout
    rw [if_pos ⟨rfl, hdatagram⟩] at h
    obtain ⟨rfl, rfl⟩ : _ = s' ∧ [_] = es' := by simpa using h
    rcases hinv.phase with hunsent | ⟨stamp, before, hsent⟩
    · exact absurd (by simp [Sys.elsewhere, Owners.held, hlegal]) hunsent.fresh
    · -- the device has the buffer, so the datagram is under way
      have hway : ¬ Gone addr s := by
        rintro (hb | hb | hb)
        · exact Owners.device_not_mem_pool hinv.held_nodup hlegal hb
        · have hheld : addr ∈ s.owners.held := by simp [Owners.held, hlegal]
          exact Multiset.disjoint_left.mp (Multiset.nodup_add.mp hinv.nodup).2.2 hheld
            (by simpa using hb)
        · exact hb hdatagram
      obtain ⟨hpayload, houts⟩ := hsent.stamped.resolve_left hway
      refine ⟨hinv.valid, hinv.lists, hinv.addr, helse ▸ hinv.nodup, Or.inr ⟨stamp, before, ?_⟩⟩
      refine ⟨?_, hsent.fresh, helse ▸ hsent.passed, hsent.connected, ?_, ?_⟩
      · rw [writes_append, hsent.writes]
        rfl
      · exact Or.inl (Or.inl List.mem_cons_self)
      · rw [outs_append, houts, hpayload]
        exact List.Sublist.refl [stamp]
  · rw [if_neg hout] at h
    obtain ⟨rfl, rfl⟩ : _ = s' ∧ [] = es' := by simpa using h
    exact hinv.keep hinv.valid hinv.lists helse rfl (fun _ => rfl) id fun hgone =>
      hgone.mono hpool (List.Subset.refl _) rfl

/-- What one call preserves. -/
lemma Inv.step {os : List Op} {o : Op} (hinv : Inv b os s es) (hlegal : Legal s es o)
    (honce : SendsOnce test s es o) (h : step test hz s o = .ret (s', es')) :
    Inv b (os ++ [o]) s' (es ++ es') := by
  cases o with
  | connect env timerHandle nic => exact step_connect hinv hlegal h
  | recv pkt slot mem now nic => exact step_recv hinv hlegal h
  | tx currTimeCycle now nic => exact step_tx hinv hlegal honce h
  | stats =>
    obtain ⟨rfl, rfl⟩ : _ = s' ∧ [] = es' := by simpa [Iperf.step] using h
    exact hinv.keep hinv.valid hinv.lists rfl rfl (fun _ => rfl) id id
  | flush tsc nic =>
    obtain ⟨owners, fs, hflush, hvalid, hheld, hpool⟩ := Owners.flush_held hz tsc nic hinv.valid
    simp only [Iperf.step, hflush, Outcome.ret_bind] at h
    obtain ⟨rfl, rfl⟩ : { s with owners } = s' ∧ [] = es' := by simpa using h
    exact hinv.keep hvalid hinv.lists (congrArg (· + (s.leaked : Multiset ℕ)) hheld) rfl
      (fun _ => rfl) id fun hgone => hgone.mono hpool (List.Subset.refl _) rfl
  | complete addr => exact step_complete hinv hlegal h

def idleIperf : Sys where
  app := ⟨0, some fun _ => 2, ⟨⟨3, fun _ => 0, mbufBufLen, headroom, 60⟩, headroom, 60, 0⟩, 0,
    noStats, ⟨⟨0, none, none, none, 0⟩, .empty, .empty, .empty⟩, .empty⟩
  owners := idleOwners
  leaked := []

lemma idleIperf_elsewhere : idleIperf.elsewhere = ([0, 1, 2] : List ℕ) := by
  have hheld : idleIperf.owners.held = ([0, 1, 2] : List ℕ) := idleOwners_held
  rw [Sys.elsewhere, hheld]
  rfl

/-- In a run of the client its transmit buffer is never in two slots, is never written or
queued when it is not the client's, and goes out with the stamp written for it, exactly if
`pkt_tx` sends only once. -/
theorem iperf_exclusive_iff (test : IperfTest) (hz : UInt64) {s₀ : Sys}
    (hv : s₀.owners.tx.Valid) (harp : ∃ xs, s₀.app.arp.Lists xs) (hnodup : s₀.elsewhere.Nodup)
    (hbuf : s₀.app.txBuf.pkt.addr ∉ s₀.elsewhere)
    (hdata : s₀.app.txBuf.data = s₀.app.txBuf.pkt.dataOff) {os : List Op}
    (legal : EachCall (step test hz) s₀ Legal os) :
    Always (step test hz) s₀ Exclusive os ↔ EachCall (step test hz) s₀ (SendsOnce test) os := by
  have hinit : Inv s₀.app.txBuf.pkt.addr [] s₀ [] :=
    ⟨hv, harp, rfl, hnodup, Or.inl ⟨rfl, rfl, hbuf, hdata⟩⟩
  refine always_iff_eachCall hinit (fun os s es => Inv.exclusive) ?_ ?_ legal
  · intro os s es o hinv hlegal honce s' es' hstep
    exact hinv.step hlegal honce hstep
  · intro os s es o hinv hlegal hnot
    cases o with
    | tx currTimeCycle now nic =>
      obtain ⟨hdue, hwrites⟩ : currTimeCycle - s.app.prevTimeCycle > test.ppsDelay ∧
        writes es ≠ [] := by simpa [SendsOnce] using hnot
      obtain ⟨s', hstep, -, -, htxBuf, -⟩ := step_due test hz now nic hinv.valid hdue
      refine ⟨s', _, hstep, fun hexcl => ?_⟩
      -- the second use finds the buffer with the owner that the first has given it
      have hfresh := hexcl.fresh (now, s.elsewhere) (by simp [writes])
      have haddr : s'.app.txBuf.pkt.addr = s.app.txBuf.pkt.addr :=
        htxBuf ▸ TwBuf.edit_addr s.app.txBuf fun _ => rfl
      rw [haddr, hinv.addr] at hfresh
      rcases hinv.phase with hunsent | ⟨stamp, before, hsent⟩
      · exact hwrites hunsent.writes
      · exact hfresh hsent.passed
    | connect env timerHandle nic => exact absurd trivial hnot
    | recv pkt slot mem now nic => exact absurd trivial hnot
    | stats => exact absurd trivial hnot
    | flush tsc nic => exact absurd trivial hnot
    | complete addr => exact absurd trivial hnot

theorem iperf_exclusive_once : Always (step iperfClient 1000000) idleIperf Exclusive
    [.tx 10 11 nicTwo, .flush 5000 nicTwo, .complete 3] := by
  have hv : idleIperf.owners.tx.Valid := idleOwners_valid
  have hnodup : idleIperf.elsewhere.Nodup := by
    rw [idleIperf_elsewhere]
    decide
  have hbuf : idleIperf.app.txBuf.pkt.addr ∉ idleIperf.elsewhere := by
    rw [idleIperf_elsewhere]
    decide
  refine (iperf_exclusive_iff iperfClient 1000000 hv ⟨[], rfl⟩ hnodup hbuf rfl
    ?_).mpr ?_
  · refine eachCall_cons rfl ?_ (eachCall_cons rfl trivial (eachCall_singleton ?_))
    · exact Option.some_ne_none _
    · exact show 3 ∈ [3] by decide
  · refine eachCall_cons rfl (fun _ => rfl) (eachCall_of_forall fun o ho s es => ?_)
    simp only [List.mem_cons, List.not_mem_nil, or_false] at ho
    rcases ho with rfl | rfl
    · trivial
    · trivial

/-- Two sends before a flush: the buffer is in two slots. -/
theorem iperf_queues_twice :
    EachCall (step iperfClient 1000000) idleIperf Legal [.tx 10 11 nicTwo, .tx 20 21 nicTwo] ∧
      ¬ Always (step iperfClient 1000000) idleIperf Exclusive
        [.tx 10 11 nicTwo, .tx 20 21 nicTwo] ∧
      ∃ s es, runOps (step iperfClient 1000000) idleIperf
        [.tx 10 11 nicTwo, .tx 20 21 nicTwo] = .ret (s, es) ∧
        (s.owners.tx.conf.txMbufs 0).buffered = [3, 3] := by
  have hrun : ∃ s es, runOps (step iperfClient 1000000) idleIperf
      [.tx 10 11 nicTwo, .tx 20 21 nicTwo] = .ret (s, es) ∧
      (s.owners.tx.conf.txMbufs 0).buffered = [3, 3] := ⟨_, _, rfl, rfl⟩
  refine ⟨?_, fun hexcl => ?_, hrun⟩
  · refine eachCall_cons rfl ?_ (eachCall_singleton ?_)
    · exact Option.some_ne_none _
    · exact Option.some_ne_none _
  · obtain ⟨s, es, hs, hslots⟩ := hrun
    have hnodup := (hexcl _ List.prefix_rfl s es hs).slots
    have hle : ((s.owners.tx.conf.txMbufs 0).buffered : Multiset ℕ) ≤ s.owners.slots :=
      Finset.single_le_sum (fun _ _ => Multiset.zero_le _) (Finset.mem_univ 0)
    rw [hslots] at hle
    exact absurd (Multiset.nodup_of_le hle hnodup) (by decide)

end Run
end Iperf
end Twister
