import Twister.HandleQueues
import Twister.Iperf

/-! How the client connects: ticks of the connect timer between additions to the ARP table.
After four ticks without an entry for the server the fifth does not look any more. -/
namespace Twister
namespace Iperf
namespace Connect

section Tick
variable {test : IperfTest} {env : ConnectEnv} {h : ℕ} {st st' : IperfState}
  {txs : List (ℕ × TwTx)} {timers : List (ℕ × TwTimer)}

/-- The ARP table has the server's address. -/
def Resolved (test : IperfTest) (st : IperfState) : Prop :=
  ∃ xs, st.arp.Lists xs ∧ ∃ x ∈ xs, x.2.ipAddr = rteBeToCpu32 test.serverIp

/-- One transmit handle more, for `pkt_tx`, and a timer for the statistics in place of the
connect timer `h`. -/
structure Connected (test : IperfTest) (h : ℕ) (st st' : IperfState) : Prop where
  tx : ∀ txs, Chain st.loop.tx st.loop.loop.txHandleQueue txs none → ∃ a v, v.txCb = test.pktTx ∧
    Chain st'.loop.tx st'.loop.loop.txHandleQueue (txs ++ [(a, v)]) none
  timer : ∀ timers, Chain st.loop.timer st.loop.loop.timerHandleQueue timers none →
    ∃ b v, v.timerCb = test.printPerfStats ∧
      Chain st'.loop.timer st'.loop.loop.timerHandleQueue
        (timers.filter (fun x => x.1 ≠ h) ++ [(b, v)]) none

/-- For both handles there is memory, and its link field happens to be null. The second block
is allocated after the connect timer's is released. -/
structure Room (env : ConnectEnv) (h : ℕ) (st : IperfState) : Prop where
  tx : ∃ a junk, env.txMem.pick st.loop.tx = some (a, junk) ∧ junk.next = none
  timer : ∃ l, twTimerUnregister (some h) st.loop = .ret (0, l) ∧
    ∃ b junk, env.timerMem.pick l.timer = some (b, junk) ∧ junk.next = none

lemma resolved_iff {xs : List (ℕ × ArpEntry)} (hl : st.arp.Lists xs) :
    Resolved test st ↔ (xs.find? fun x => x.2.ipAddr = rteBeToCpu32 test.serverIp) ≠ none := by
  have hfind : (xs.find? fun x => x.2.ipAddr = rteBeToCpu32 test.serverIp) ≠ none ↔
      ∃ x ∈ xs, x.2.ipAddr = rteBeToCpu32 test.serverIp := by simp
  rw [hfind]
  constructor
  · rintro ⟨ys, hl', hx⟩
    rwa [Chain.unique hl hl']
  · exact fun hx => ⟨xs, hl, hx⟩

/-- The connect timer leaves the queue. -/
lemma unregister_connect (htimer : Chain st.loop.timer st.loop.loop.timerHandleQueue timers none)
    (hreg : ∃ x ∈ timers, x.1 = h) :
    ∃ l, twTimerUnregister (some h) st.loop = .ret (0, l) ∧
      Chain l.timer l.loop.timerHandleQueue (timers.filter fun x => x.1 ≠ h) none := by
  obtain ⟨⟨b, v⟩, hmem, rfl⟩ := hreg
  obtain ⟨pre, post, rfl⟩ := List.append_of_mem hmem
  obtain ⟨heap, root, hcall, hlist, -⟩ := twTimerUnregister_registered htimer
  refine ⟨_, hcall, ?_⟩
  rw [htimer.filter_ne]
  exact hlist

variable (test) in
/-- What the branch for a resolved server does, given memory: both new handles end their
queues with whatever link the memory had. -/
lemma connect_ret {a b : ℕ} {txJunk : Node TwTx} {timerJunk : Node TwTimer} {l : LoopState}
    (serverMac : EtherAddr) (htx : Chain st.loop.tx st.loop.loop.txHandleQueue txs none)
    (hunreg : twTimerUnregister (some h) st.loop = .ret (0, l))
    (htimer : Chain l.timer l.loop.timerHandleQueue timers none)
    (ha : env.txMem.pick st.loop.tx = some (a, txJunk))
    (hb : env.timerMem.pick l.timer = some (b, timerJunk)) :
    ∃ st' v w, connect test env (some h) st serverMac = .ret st' ∧ v.txCb = test.pktTx ∧
      Chain st'.loop.tx st'.loop.loop.txHandleQueue (txs ++ [(a, v)]) txJunk.next ∧
      w.timerCb = test.printPerfStats ∧
      Chain st'.loop.timer st'.loop.loop.timerHandleQueue (timers ++ [(b, w)]) timerJunk.next := by
  obtain ⟨l₁, l₂, v, hinit, hstart, hsame, hv, hchain⟩ := twTxRegister htx ha test.pktTx
  obtain ⟨l₃, hunreg', hsame', htx'⟩ := twTimerUnregister_frame hsame hunreg
  rw [← hsame'.heap, ← hsame'.queue] at htimer
  rw [← hsame'.heap] at hb
  obtain ⟨l₄, l₅, w, hinit', hstart', htx'', hw, hchain'⟩ :=
    twTimerRegister htimer hb test.printPerfStats 1000 env.hz
  refine ⟨{ st with
    serverMac := some serverMac
    txBuf := st.txBuf.edit (makePkt test serverMac env.now st.txBuf.size)
    loop := l₅ }, v, w, ?_, hv, ?_, hw, hchain'⟩
  · simp only [connect, hinit, hstart, hunreg', hinit', hstart', Outcome.ret_bind, reduceCtorEq,
      ↓reduceIte, ne_eq, not_true_eq_false]
  · simpa only [htx''.heap, htx''.queue, htx'.heap, htx'.queue] using hchain

/-- Without memory for one of the handles a null pointer is written through. -/
lemma connect_fault {l : LoopState} (serverMac : EtherAddr)
    (htx : Chain st.loop.tx st.loop.loop.txHandleQueue txs none)
    (hunreg : twTimerUnregister (some h) st.loop = .ret (0, l))
    (htimer : Chain l.timer l.loop.timerHandleQueue timers none)
    (hno : env.txMem.pick st.loop.tx = none ∨ env.timerMem.pick l.timer = none) :
    connect test env (some h) st serverMac = .fault := by
  cases ha : env.txMem.pick st.loop.tx with
  | none => simp only [connect, twTxInit, pushFilled_none _ htx ha, Outcome.fault_bind]
  | some block =>
    obtain ⟨a, junk⟩ := block
    have hb : env.timerMem.pick l.timer = none := hno.resolve_left (by simp [ha])
    obtain ⟨l₁, l₂, v, hinit, hstart, hsame, -, -⟩ := twTxRegister htx ha test.pktTx
    obtain ⟨l₃, hunreg', hsame', -⟩ := twTimerUnregister_frame hsame hunreg
    rw [← hsame'.heap, ← hsame'.queue] at htimer
    rw [← hsame'.heap] at hb
    simp only [connect, hinit, hstart, hunreg', twTimerInit, pushFilled_none _ htimer hb,
      Outcome.ret_bind, Outcome.fault_bind, reduceCtorEq, ↓reduceIte, ne_eq, not_true_eq_false]

variable (test) in
lemma connect_connected_iff (serverMac : EtherAddr)
    (htx : Chain st.loop.tx st.loop.loop.txHandleQueue txs none)
    (htimer : Chain st.loop.timer st.loop.loop.timerHandleQueue timers none)
    (hreg : ∃ x ∈ timers, x.1 = h) :
    (∃ st', connect test env (some h) st serverMac = .ret st' ∧ Connected test h st st') ↔
      Room env h st := by
  obtain ⟨l, hunreg, hrest⟩ := unregister_connect htimer hreg
  constructor
  · rintro ⟨st', hret, hconn⟩
    have hsome : ¬ (env.txMem.pick st.loop.tx = none ∨ env.timerMem.pick l.timer = none) := by
      intro hno
      rw [connect_fault serverMac htx hunreg hrest hno] at hret
      cases hret
    obtain ⟨hne, hne'⟩ := not_or.mp hsome
    obtain ⟨⟨a, junk⟩, ha⟩ := Option.ne_none_iff_exists'.mp hne
    obtain ⟨⟨b, junk'⟩, hb⟩ := Option.ne_none_iff_exists'.mp hne'
    obtain ⟨st'', v, w, hret', -, hchain, -, hchain'⟩ :=
      connect_ret test serverMac htx hunreg hrest ha hb
    obtain rfl : st' = st'' := Outcome.ret.inj (hret.symm.trans hret')
    -- a queue that ends is as long as the one with the new handle, so that one ends too
    obtain ⟨c, x, -, hends⟩ := hconn.tx txs htx
    obtain ⟨d, y, -, hends'⟩ := hconn.timer timers htimer
    exact ⟨⟨a, junk, ha, hchain.end_unique hends (by simp)⟩,
      ⟨l, hunreg, b, junk', hb, hchain'.end_unique hends' (by simp)⟩⟩
  · rintro ⟨⟨a, junk, ha, hnull⟩, ⟨l', hunreg', b, junk', hb, hnull'⟩⟩
    obtain rfl : l = l' := (Prod.ext_iff.mp (Outcome.ret.inj (hunreg.symm.trans hunreg'))).2
    obtain ⟨st', v, w, hret, hv, hchain, hw, hchain'⟩ :=
      connect_ret test serverMac htx hunreg hrest ha hb
    refine ⟨st', hret, ⟨fun txs' htx' => ?_, fun timers' htimer' => ?_⟩⟩
    · rw [← htx.unique htx']
      exact ⟨a, v, hv, hnull ▸ hchain⟩
    · rw [← htimer.unique htimer']
      exact ⟨b, w, hw, hnull' ▸ hchain'⟩

variable (env h) in
lemma twUdpConnect_resolved {xs : List (ℕ × ArpEntry)} (hl : st.arp.Lists xs)
    (hr : Resolved test st) (hcount : st.arpCount < 4) :
    ∃ serverMac, twUdpConnect test env (some h) st =
      (do let st' ← connect test env (some h) st serverMac; .ret (st', [])) := by
  obtain ⟨x, hx⟩ := Option.ne_none_iff_exists'.mp ((resolved_iff hl).mp hr)
  obtain ⟨n, hn⟩ := Chain.live hl (List.mem_of_find?_eq_some hx)
  refine ⟨x.2.ethMac, ?_⟩
  simp only [twUdpConnect, if_pos hcount, twSearchArpTable_eq hl, hx, Option.map_some,
    Outcome.ret_bind, Heap.load_some hn]

variable (env) in
lemma twUdpConnect_unresolved {xs : List (ℕ × ArpEntry)} (hl : st.arp.Lists xs)
    (hr : ¬ Resolved test st) (hcount : st.arpCount < 4) :
    twUdpConnect test env (some h) st = (do
      let es ← twSendArpRequest test.ports env.pools (rteCpuToBe32 test.serverIp) tw0
      .ret ({ st with arpCount := st.arpCount + 1 }, es)) := by
  have hx := not_not.mp (mt (resolved_iff hl).mpr hr)
  simp only [twUdpConnect, if_pos hcount, twSearchArpTable_eq hl, hx, Option.map_none,
    Outcome.ret_bind]

lemma twUdpConnect_late (hcount : ¬ st.arpCount < 4) :
    twUdpConnect test env (some h) st = .exit notFound := if_neg hcount

/-- What a tick is for: it connects if the server is resolved, and gives up only if not. -/
structure TickOk (test : IperfTest) (env : ConnectEnv) (h : ℕ) (st : IperfState) : Prop where
  connects : Resolved test st → ∃ st' es, twUdpConnect test env (some h) st = .ret (st', es) ∧
    Connected test h st st'
  givesUp : twUdpConnect test env (some h) st = .exit notFound → ¬ Resolved test st

lemma tickOk_iff {xs : List (ℕ × ArpEntry)} (hl : st.arp.Lists xs)
    (htx : Chain st.loop.tx st.loop.loop.txHandleQueue txs none)
    (htimer : Chain st.loop.timer st.loop.loop.timerHandleQueue timers none)
    (hreg : ∃ x ∈ timers, x.1 = h) :
    TickOk test env h st ↔ (Resolved test st → st.arpCount < 4 ∧ Room env h st) := by
  constructor
  · intro hok hr
    obtain ⟨st', es, hret, hconn⟩ := hok.connects hr
    have hcount : st.arpCount < 4 := by
      by_contra hlate
      rw [twUdpConnect_late hlate] at hret
      cases hret
    refine ⟨hcount, ?_⟩
    obtain ⟨serverMac, htick⟩ := twUdpConnect_resolved env h hl hr hcount
    rw [htick] at hret
    obtain ⟨st'', hcall, he⟩ := Outcome.bind_eq_ret.mp hret
    obtain ⟨rfl, -⟩ : st'' = st' ∧ [] = es := by simpa using he
    exact (connect_connected_iff test serverMac htx htimer hreg).mp ⟨st'', hcall, hconn⟩
  · intro hin
    have hconnects : Resolved test st → ∃ st' es,
        twUdpConnect test env (some h) st = .ret (st', es) ∧ Connected test h st st' := by
      intro hr
      obtain ⟨hcount, hroom⟩ := hin hr
      obtain ⟨serverMac, htick⟩ := twUdpConnect_resolved env h hl hr hcount
      obtain ⟨st', hcall, hconn⟩ := (connect_connected_iff test serverMac htx htimer hreg).mpr
        hroom
      refine ⟨st', [], ?_, hconn⟩
      rw [htick, hcall]
      rfl
    refine ⟨hconnects, fun hexit hr => ?_⟩
    obtain ⟨st', es, hret, -⟩ := hconnects hr
    rw [hexit] at hret
    cases hret

end Tick

section Run
variable {test : IperfTest} {h : ℕ} {s₀ st st' : IperfState} {es es' : List PktEffect}

inductive Op
  | tick (env : ConnectEnv)
  | learn (mem : Malloc (Node ArpEntry)) (ip : UInt32) (mac : EtherAddr) (portId : UInt8)

/-- `h` is the handle of the connect timer. -/
def step (test : IperfTest) (h : ℕ) (st : IperfState) :
    Op → Outcome (IperfState × List PktEffect)
  | .tick env => twUdpConnect test env (some h) st
  | .learn mem ip mac portId => do
    let (_, arp) ← twAddArpEntry mem st.arp ip mac portId
    .ret ({ st with arp }, [])

/-- The tick that connects is the last one. -/
def Legal (st : IperfState) (_ : List PktEffect) : Op → Prop
  | .tick _ => st.serverMac = none
  | .learn _ _ _ _ => True

def TicksOk (test : IperfTest) (h : ℕ) (st : IperfState) (_ : List PktEffect) : Op → Prop
  | .tick env => TickOk test env h st
  | .learn _ _ _ _ => True

/-- The server is resolved before four requests have been sent, and there is memory. -/
def InTime (test : IperfTest) (h : ℕ) (st : IperfState) (es : List PktEffect) : Op → Prop
  | .tick env => Resolved test st → es.length < 4 ∧ Room env h st
  | .learn _ _ _ _ => True

structure Inv (h : ℕ) (_ : List Op) (st : IperfState) (es : List PktEffect) : Prop where
  lists : ∃ xs, st.arp.Lists xs
  count : st.arpCount = es.length
  few : es.length ≤ 4
  queues : st.serverMac = none →
    (∃ txs, Chain st.loop.tx st.loop.loop.txHandleQueue txs none) ∧
      ∃ timers, Chain st.loop.timer st.loop.loop.timerHandleQueue timers none ∧
        ∃ x ∈ timers, x.1 = h

/-- What one call preserves. -/
lemma Inv.step {os : List Op} {o : Op} (hinv : Inv h os st es)
    (hstep : step test h st o = .ret (st', es')) : Inv h (os ++ [o]) st' (es ++ es') := by
  obtain ⟨xs, hl⟩ := hinv.lists
  cases o with
  | tick env =>
    have htick : twUdpConnect test env (some h) st = .ret (st', es') := hstep
    have hcount : st.arpCount < 4 := by
      by_contra hlate
      rw [twUdpConnect_late hlate] at htick
      cases htick
    by_cases hr : Resolved test st
    · obtain ⟨serverMac, heq⟩ := twUdpConnect_resolved env h hl hr hcount
      rw [heq] at htick
      obtain ⟨st'', hcall, he⟩ := Outcome.bind_eq_ret.mp htick
      obtain ⟨rfl, rfl⟩ : st'' = st' ∧ [] = es' := by simpa using he
      obtain ⟨loop, rfl⟩ := connect_inv hcall
      rw [List.append_nil]
      exact ⟨⟨xs, hl⟩, hinv.count, hinv.few, fun hmac => nomatch hmac⟩
    · rw [twUdpConnect_unresolved env hl hr hcount] at htick
      obtain ⟨fs, hfs, he⟩ := Outcome.bind_eq_ret.mp htick
      obtain ⟨rfl, rfl⟩ : _ = st' ∧ fs = es' := by simpa using he
      obtain ⟨pkt, socket, stale, rfl, -⟩ := test.twSendArpRequest_allocates hfs
      have hlen := hinv.count
      refine ⟨⟨xs, hl⟩, ?_, ?_, hinv.queues⟩
      · simp [hlen]
      · rw [List.length_append, List.length_singleton]
        omega
  | learn mem ip mac portId =>
    obtain ⟨⟨r, arp⟩, hadd, he⟩ := Outcome.bind_eq_ret.mp hstep
    obtain ⟨rfl, rfl⟩ : _ = st' ∧ [] = es' := by simpa using he
    rw [List.append_nil]
    refine ⟨?_, hinv.count, hinv.few, hinv.queues⟩
    cases hm : mem.pick st.arp.heap with
    | none =>
      rw [twAddArpEntry_none hl hm] at hadd
      cases hadd
    | some block =>
      obtain ⟨arp', hadd', hl', -⟩ := twAddArpEntry_some hl hm ip mac portId
      obtain ⟨-, rfl⟩ : _ ∧ arp' = arp := by simpa [hadd'] using hadd
      exact ⟨_, hl'⟩

lemma Inv.ticksOk_iff {os : List Op} {o : Op} (hinv : Inv h os st es) (hlegal : Legal st es o) :
    TicksOk test h st es o ↔ InTime test h st es o := by
  cases o with
  | tick env =>
    obtain ⟨xs, hl⟩ := hinv.lists
    obtain ⟨⟨txs, htx⟩, timers, htimer, hreg⟩ := hinv.queues hlegal
    have hcount : st.arpCount < 4 ↔ es.length < 4 := by
      rw [hinv.count]
      omega
    simp only [TicksOk, InTime, tickOk_iff hl htx htimer hreg, hcount]
  | learn mem ip mac portId => exact Iff.rfl

/-- The connect timer is registered and nothing has been sent. -/
def startIperf : IperfState where
  arpCount := 0
  serverMac := none
  txBuf := ⟨⟨3, fun _ => 0, mbufBufLen, headroom, 60⟩, headroom, 60, 0⟩
  prevTimeCycle := 0
  testStats := noStats
  loop := ⟨⟨1, none, none, some 0, 0⟩, .empty, .empty, Heap.empty.write 0 ⟨blankTimer, none⟩⟩
  arp := .empty

def roomyEnv : ConnectEnv where
  pools := ⟨fun _ => 0, fun _ => some (0, fun _ => 0)⟩
  txMem := .bump ⟨blankTx, none⟩
  timerMem := .bump ⟨blankTimer, none⟩
  hz := 1000000
  now := 5

def serverReply : Op := .learn (.bump zeroEntry) 0x0a000001 (fun _ => 2) 0

/-- The client connects at every tick that finds the server resolved and gives up only at one
that does not, with at most four requests before, exactly if no tick finds the server resolved
after four have not, and each that finds it has memory for the two handles. -/
theorem iperf_connects_iff (test : IperfTest) {h : ℕ} {s₀ : IperfState} {os : List Op}
    (harp : ∃ xs, s₀.arp.Lists xs) (hcount : s₀.arpCount = 0)
    (htx : ∃ txs, Chain s₀.loop.tx s₀.loop.loop.txHandleQueue txs none)
    (htimer : ∃ timers, Chain s₀.loop.timer s₀.loop.loop.timerHandleQueue timers none ∧
      ∃ x ∈ timers, x.1 = h) (legal : EachCall (step test h) s₀ Legal os) :
    (EachCall (step test h) s₀ (TicksOk test h) os ∧
      Always (step test h) s₀ (fun _ _ es => es.length ≤ 4) os) ↔
      EachCall (step test h) s₀ (InTime test h) os := by
  have hinit : Inv h [] s₀ [] := ⟨harp, by simpa using hcount, by simp, fun _ => ⟨htx, htimer⟩⟩
  have hinv : Always (step test h) s₀ (Inv h) os :=
    always_of_keep hinit fun pre o _ st es _ hinv st' es' hstep => hinv.step hstep
  have hcalls : ∀ pre o, pre ++ [o] <+: os → ∀ st es, runOps (step test h) s₀ pre = .ret (st, es) →
      (TicksOk test h st es o ↔ InTime test h st es o) := fun pre o hpre st es hrun =>
    (hinv pre ((List.prefix_append pre [o]).trans hpre) st es hrun).ticksOk_iff
      (legal pre o hpre st es hrun)
  constructor
  · rintro ⟨hok, -⟩ pre o hpre st es hrun
    exact (hcalls pre o hpre st es hrun).mp (hok pre o hpre st es hrun)
  · intro hin
    refine ⟨fun pre o hpre st es hrun => ?_, fun pre hpre st es hrun => ?_⟩
    · exact (hcalls pre o hpre st es hrun).mpr (hin pre o hpre st es hrun)
    · exact (hinv pre hpre st es hrun).few

theorem iperf_connects_second :
    EachCall (step iperfClient 0) startIperf (TicksOk iperfClient 0)
        [.tick roomyEnv, serverReply, .tick roomyEnv] ∧
      Always (step iperfClient 0) startIperf (fun _ _ es => es.length ≤ 4)
        [.tick roomyEnv, serverReply, .tick roomyEnv] := by
  have harp : ∃ xs, startIperf.arp.Lists xs := ⟨[], rfl⟩
  have htx : ∃ txs, Chain startIperf.loop.tx startIperf.loop.loop.txHandleQueue txs none :=
    ⟨[], rfl⟩
  have htimer : ∃ timers, Chain startIperf.loop.timer startIperf.loop.loop.timerHandleQueue timers
      none ∧ ∃ x ∈ timers, x.1 = 0 := ⟨[(0, blankTimer)], ⟨rfl, none, rfl, rfl⟩, by simp⟩
  refine (iperf_connects_iff iperfClient harp rfl htx htimer ?_).mpr ?_
  · exact eachCall_cons rfl rfl (eachCall_cons rfl trivial (eachCall_singleton rfl))
  · have hroom : ∀ st : IperfState, st.loop = startIperf.loop → Room roomyEnv 0 st := by
      intro st hloop
      refine ⟨⟨0, ⟨blankTx, none⟩, ?_, rfl⟩, ?_⟩
      · rw [hloop]
        rfl
      · rw [hloop]
        exact ⟨_, rfl, _, ⟨blankTimer, none⟩, rfl, rfl⟩
    refine eachCall_cons rfl (fun _ => ⟨by decide, hroom _ rfl⟩) (eachCall_cons rfl trivial
      (eachCall_singleton fun _ => ⟨by decide, hroom _ rfl⟩))

/-- The reply arrives between the fourth and the fifth tick, and the fifth gives up. -/
theorem iperf_gives_up_resolved :
    EachCall (step iperfClient 0) startIperf Legal
        (List.replicate 4 (.tick roomyEnv) ++ [serverReply, .tick roomyEnv]) ∧
      ¬ EachCall (step iperfClient 0) startIperf (TicksOk iperfClient 0)
        (List.replicate 4 (.tick roomyEnv) ++ [serverReply, .tick roomyEnv]) ∧
      ∃ st es, runOps (step iperfClient 0) startIperf
          (List.replicate 4 (.tick roomyEnv) ++ [serverReply]) = .ret (st, es) ∧
        Resolved iperfClient st ∧
        twUdpConnect iperfClient roomyEnv (some 0) st = .exit notFound := by
  have hrun : ∃ st es, runOps (step iperfClient 0) startIperf
      (List.replicate 4 (.tick roomyEnv) ++ [serverReply]) = .ret (st, es) ∧
      Resolved iperfClient st ∧
      twUdpConnect iperfClient roomyEnv (some 0) st = .exit notFound := by
    refine ⟨_, _, rfl, ⟨[(0, ⟨rteBeToCpu32 0x0a000001, fun _ => 2, 0⟩)], ?_, ?_⟩, rfl⟩
    · exact ⟨rfl, none, rfl, rfl⟩
    · decide
  refine ⟨?_, fun hok => ?_, hrun⟩
  · refine eachCall_cons rfl rfl (eachCall_cons rfl rfl (eachCall_cons rfl rfl
      (eachCall_cons rfl rfl (eachCall_cons rfl trivial (eachCall_singleton rfl)))))
  · obtain ⟨st, es, hst, hres, hexit⟩ := hrun
    have htick : TickOk iperfClient roomyEnv 0 st := hok _ (.tick roomyEnv) (by simp) st es hst
    exact htick.givesUp hexit hres

end Run
end Connect
end Iperf
end Twister
