import Twister.AppLoop
import Twister.Ping

/-! The two tools that resolve an address. Each sends a request at every tick of its timer and
gives up after a few, in the call that has sent the last one. The one looks for the answer in the
ARP table, the other waits for a frame that the event loop hands to no callback. -/
namespace Twister.ArpTools

section Model

/-- The ARP table and the static counter of the timer callback. -/
structure Sys where
  arp : ArpState
  count : Int

inductive Op
  | tick (env : BufEnv)
  | rx (pkt : Mbuf) (slot : Fin maxEthPorts) (mem : Malloc (Node ArpEntry))

/-- The callbacks of a tool. -/
structure Tool where
  ports : PortTable
  checkArp : BufEnv → Sys → Outcome (Int × List (AppEvent PktEffect))
  replyPayload : TwBuf → List (AppEvent PktEffect)

def step (tool : Tool) (s : Sys) : Op → Outcome (Sys × List (AppEvent PktEffect))
  | .tick env => do
    let (count, es) ← tool.checkArp env s
    .ret ({ s with count }, es)
  | .rx pkt slot mem => do
    let (arp, es) ← appReceive tool.ports tool.replyPayload mem s.arp pkt slot
    .ret ({ s with arp }, es)

/-- The counter is compared behind the request that it counts: the call that gives up has put one
more into the queue. -/
def giveUpAfter (bound : ℕ) (message : String) (count : Int) (send : Outcome (List PktEffect)) :
    Outcome (Int × List (AppEvent PktEffect)) := do
  let es ← send
  .ret (count + 1, es.map .sent ++ if count + 1 > bound then [.exits message] else [])

def hexDigit (d : UInt8) : Char := Char.ofNat (if d < 10 then 48 + d.toNat else 55 + d.toNat)

/-- The format `%02X:%02X:%02X:%02X:%02X:%02X`. -/
def macText (mac : EtherAddr) : String :=
  ":".intercalate
    ((List.ofFn mac).map fun b => String.ofList [hexDigit (b / 16), hexDigit (b % 16)])

def inetNtoa (ip : UInt32) : String := ".".intercalate ((List.ofFn (bytes32 ip)).map toString)

variable (stack : ℕ → Int) (ipArr : Fin 4 → UInt8)

def arpTool (app : Tw0App) (ip : CString) : Tool where
  ports := app.ports
  checkArp env s := do
    match ← twSearchArpEntry stack ipArr s.arp ip with
    | none =>
      giveUpAfter 5 "arp not resolved.\n" s.count (do
        let ipAddr ← twConvertIpStrToDec stack ipArr ip
        twSendArpRequest app.ports env.pools ipAddr tw0)
    | some dstEthAddr =>
      .ret (s.count, [.exits ("MAC address: " ++ macText dstEthAddr ++ "\n")])
  replyPayload buffer := [.handled buffer.portName buffer.pkt (.free buffer.pkt)]

def etherTypeRARP : UInt16 := 0x8035
def arpOpRevrequest : UInt16 := 3
def buffSize : UInt16 := 42

def fillRarp (mac : EtherAddr) (m : Mbuf) : Mbuf :=
  let rarp := sizeofEtherHdr
  let m := m.setArpOp rarp (rteCpuToBe16 arpOpRevrequest)
  let m := m.setArpPro rarp (rteCpuToBe16 etherTypeIPv4)
  let m := m.setArpPln rarp 4
  let m := m.setArpHln rarp 6
  let m := m.setArpHrd rarp (rteCpuToBe16 arpHrdEther)
  let m := m.setArpSha rarp mac
  let m := m.setArpTha rarp mac
  let m := m.setArpSip rarp 0
  let m := m.setArpTip rarp 0
  let m := m.setEtherType (rteCpuToBe16 etherTypeRARP)
  let m := m.setDAddr broadcastmac
  m.setSAddr mac

def sendRarp (app : Tw0App) (env : BufEnv) : Outcome (List PktEffect) := do
  let txBuf ← twNewBuffer env buffSize
  let mac ← twGetEtherAddr app.ports tw0
  .ret [.addToTxQueue (txBuf.edit (fillRarp mac)).pkt app.tw0Id]

def rarpTool (app : Tw0App) : Tool where
  ports := app.ports
  checkArp env s := giveUpAfter 4 "Address not resolved.\n" s.count (sendRarp app env)
  replyPayload buffer :=
    let eth := buffer.hdr
    if rteBeToCpu16 eth.etherType = etherTypeRARP then
      [.exits ("Resolved IP for MAC(" ++ macText eth.dAddr ++ ") = " ++
        inetNtoa (eth.arpTip sizeofEtherHdr) ++ " \n ")]
    else [.handled buffer.portName buffer.pkt (.free buffer.pkt)]

end Model

section Runs
variable {tool : Tool} {bound : ℕ} {s s' : Sys} {es es' : List (AppEvent PktEffect)}
  {os : List Op} {o : Op}

/-- A call of the timer ends the process, or sends one packet and counts it, and ends the process
behind it once the bound is passed. -/
def Tool.Retries (tool : Tool) (bound : ℕ) : Prop :=
  ∀ env s count es, tool.checkArp env s = .ret (count, es) →
    (∃ message, es = [.exits message]) ∨ ∃ e message, count = s.count + 1 ∧
      es = .sent e :: if s.count + 1 > bound then [.exits message] else []

lemma giveUpAfter_sends {message : String} {count count' : Int} {send : Outcome (List PktEffect)}
    (hone : ∀ fs, send = .ret fs → ∃ e, fs = [e])
    (h : giveUpAfter bound message count send = .ret (count', es)) :
    ∃ e, count' = count + 1 ∧
      es = .sent e :: if count + 1 > bound then [.exits message] else [] := by
  obtain ⟨fs, hsend, h⟩ := Outcome.bind_eq_ret.mp h
  obtain ⟨e, rfl⟩ := hone fs hsend
  obtain ⟨rfl, rfl⟩ := Prod.mk.inj (Outcome.ret.inj h)
  exact ⟨e, rfl, rfl⟩

/-- What has been counted, while the process runs, and how far it can get. -/
structure Inv (bound : ℕ) (_ : List Op) (s : Sys) (es : List (AppEvent PktEffect)) : Prop where
  lists : ∃ xs, s.arp.Lists xs
  count : AppEvent.Running es →
    s.count = (AppEvent.sentOf es).length ∧ (AppEvent.sentOf es).length ≤ bound
  few : (AppEvent.sentOf es).length ≤ bound + 1

/-- A tick that has a packet to send sends it, also the one that gives up. -/
lemma Inv.tick (hinv : Inv bound os s es) (hrunning : AppEvent.Running es) {message : String}
    {env : BufEnv} {e : PktEffect}
    (hcheck : tool.checkArp env s = giveUpAfter bound message s.count (.ret [e])) :
    step tool s (.tick env) = .ret ({ s with count := s.count + 1 },
      .sent e :: if (AppEvent.sentOf es).length = bound then [.exits message] else []) := by
  obtain ⟨hcount, hfew⟩ := hinv.count hrunning
  have hlast : s.count + 1 > bound ↔ (AppEvent.sentOf es).length = bound := by omega
  rw [step, hcheck, giveUpAfter, Outcome.ret_bind, Outcome.ret_bind]
  simp only [hlast, List.map_singleton, List.singleton_append]

/-- A packet that comes in faults on tags that run off its end, ends the process for want of
memory, or is freed or answered by the loop: the tool itself takes no notice. -/
def Received (tool : Tool) (s : Sys) (pkt : Mbuf) (slot : Fin maxEthPorts)
    (mem : Malloc (Node ArpEntry)) : Prop :=
  (untag (pkt.dataLen + 1) pkt = .fault ∧ step tool s (.rx pkt slot mem) = .fault) ∨
    step tool s (.rx pkt slot mem) = .exit "CAN'T ALLOCATE ARP TABLE ENTRY\n" ∨
    ∃ s' es', step tool s (.rx pkt slot mem) = .ret (s', es') ∧ ∀ ev ∈ es', ev.Owed tool.ports

lemma Inv.received (hfrees : Frees tool.replyPayload) (hinv : Inv bound os s es) (pkt : Mbuf)
    (slot : Fin maxEthPorts) (mem : Malloc (Node ArpEntry)) : Received tool s pkt slot mem := by
  obtain ⟨xs, hlists⟩ := hinv.lists
  rw [Received, ArpTools.step]
  rcases appReceive_cases tool.ports hfrees mem hlists pkt slot with
    ⟨htag, hfault⟩ | hexit | ⟨arp', es', xs', hret, -, -, howed⟩
  · rw [hfault]
    exact Or.inl ⟨htag, rfl⟩
  · rw [hexit]
    exact Or.inr (Or.inl rfl)
  · rw [hret]
    exact Or.inr (Or.inr ⟨_, es', rfl, howed⟩)

lemma Inv.ticked (hretries : tool.Retries bound) (hinv : Inv bound os s es)
    (hrunning : AppEvent.Running es) (os' : List Op) {env : BufEnv} {count : Int}
    {fs : List (AppEvent PktEffect)} (h : tool.checkArp env s = .ret (count, fs)) :
    Inv bound os' { s with count } (es ++ fs) := by
  obtain ⟨hcount, hfew⟩ := hinv.count hrunning
  rcases hretries env s count fs h with ⟨message, rfl⟩ | ⟨e, message, rfl, rfl⟩
  · refine ⟨hinv.lists, fun hrun => ?_, ?_⟩
    · exact absurd List.mem_cons_self ((AppEvent.running_append.mp hrun).2 message)
    · rw [AppEvent.sentOf_append]
      exact (List.append_nil (AppEvent.sentOf es)).symm ▸ hfew.trans (Nat.le_succ bound)
  · -- the packet is counted, whether or not the process ends behind it
    have hsent : (AppEvent.sentOf (es ++ .sent e ::
        if s.count + 1 > bound then [.exits message] else [])).length =
          (AppEvent.sentOf es).length + 1 := by
      rw [AppEvent.sentOf_append, List.length_append]
      split_ifs <;> rfl
    refine ⟨hinv.lists, fun hrun => ?_, by rw [hsent]; omega⟩
    have hmore : ¬ s.count + 1 > bound := by
      intro hlast
      rw [if_pos hlast] at hrun
      exact absurd (List.mem_cons_of_mem _ List.mem_cons_self)
        ((AppEvent.running_append.mp hrun).2 message)
    rw [hsent]
    push_cast
    omega

lemma Inv.heard (hinv : Inv bound os s es) (hrunning : AppEvent.Running es) (os' : List Op)
    {arp : ArpState} (hlists : ∃ xs, arp.Lists xs) {fs : List (AppEvent PktEffect)}
    (howed : ∀ ev ∈ fs, ev.Owed tool.ports) : Inv bound os' { s with arp } (es ++ fs) := by
  have hsent : AppEvent.sentOf (es ++ fs) = AppEvent.sentOf es := by
    rw [AppEvent.sentOf_append, AppEvent.sentOf_owed howed, List.append_nil]
  refine ⟨hlists, fun _ => ?_, ?_⟩
  · rw [hsent]
    exact hinv.count hrunning
  · rw [hsent]
    exact hinv.few

lemma Inv.step (hretries : tool.Retries bound) (hfrees : Frees tool.replyPayload)
    (hinv : Inv bound os s es) (hrunning : AppEvent.Running es)
    (h : ArpTools.step tool s o = .ret (s', es')) : Inv bound (os ++ [o]) s' (es ++ es') := by
  cases o with
  | tick env =>
    obtain ⟨⟨count, fs⟩, hcheck, h⟩ := Outcome.bind_eq_ret.mp h
    obtain ⟨rfl, rfl⟩ := Prod.mk.inj (Outcome.ret.inj h)
    exact hinv.ticked hretries hrunning _ hcheck
  | rx pkt slot mem =>
    obtain ⟨xs, hlists⟩ := hinv.lists
    obtain ⟨⟨arp, fs⟩, hreceive, h⟩ := Outcome.bind_eq_ret.mp h
    obtain ⟨rfl, rfl⟩ := Prod.mk.inj (Outcome.ret.inj h)
    obtain ⟨⟨xs', hlists', -⟩, howed⟩ := appReceive_ret hfrees hlists hreceive
    exact hinv.heard hrunning _ ⟨xs', hlists'⟩ howed

/-- The packets sent: up to the bound while the process runs, one more when it gives up. -/
def Few (bound : ℕ) (_ : List Op) (_ : Sys) (es : List (AppEvent PktEffect)) : Prop :=
  (AppEvent.sentOf es).length ≤ bound + 1 ∧
    (AppEvent.Running es → (AppEvent.sentOf es).length ≤ bound)

/-- From a fresh start on: what every call that is reached does, if the invariant decides it. -/
lemma course (hretries : tool.Retries bound) (hfrees : Frees tool.replyPayload) {s₀ : Sys}
    (harp : ∃ xs, s₀.arp.Lists xs) (hcount : s₀.count = 0)
    {L C : Sys → List (AppEvent PktEffect) → Op → Prop}
    (hlegal : ∀ s es o, L s es o → AppEvent.Running es)
    (hcall : ∀ os s es o, Inv bound os s es → L s es o → C s es o)
    (legal : EachCall (ArpTools.step tool) s₀ L os) :
    EachCall (ArpTools.step tool) s₀ C os ∧ Always (ArpTools.step tool) s₀ (Few bound) os := by
  have hinv : Always (ArpTools.step tool) s₀ (Inv bound) os :=
    always_of_keep ⟨harp, fun _ => ⟨hcount, Nat.zero_le bound⟩, Nat.zero_le _⟩
      fun pre o hpre s es hrun hinv s' es' hstep =>
        hinv.step hretries hfrees (hlegal s es o (legal pre o hpre s es hrun)) hstep
  refine ⟨fun pre o hpre s es hrun => ?_, fun pre hpre s es hrun => ?_⟩
  · have hbefore := hinv pre ((List.prefix_append pre [o]).trans hpre) s es hrun
    exact hcall pre s es o hbefore (legal pre o hpre s es hrun)
  · have hafter := hinv pre hpre s es hrun
    exact ⟨hafter.few, fun hrunning => (hafter.count hrunning).2⟩

end Runs

section Arp
variable {app : Tw0App} {stack : ℕ → Int} {ipArr : Fin 4 → UInt8} {text : CString} {ip : UInt32}
  {os : List Op} {s : Sys} {es : List (AppEvent PktEffect)}

lemma twSendArpRequest_isRequest {pools : MbufPools}
    (hpool : pools.next (portByte app.port) ≠ none) (ip : UInt32) :
    ∃ m, twSendArpRequest app.ports pools ip tw0 = .ret [.addToTxQueue m (portByte app.port)] ∧
      IsRequest (app.ports app.port) ip m := by
  obtain ⟨⟨addr, stale⟩, hnext⟩ := Option.ne_none_iff_exists'.mp hpool
  refine ⟨_, ?_, fillRequest_isRequest (app.ports app.port) ip addr stale⟩
  rw [twSendArpRequest, app.located, portIdByte_val, twConstructArpPacket_ret app.ports hnext]
  rfl

lemma arpTool_retries (stack : ℕ → Int) (ipArr : Fin 4 → UInt8) (app : Tw0App) (text : CString) :
    (arpTool stack ipArr app text).Retries 5 := by
  intro env s count es h
  obtain ⟨found, -, h⟩ := Outcome.bind_eq_ret.mp h
  cases found with
  | some mac =>
    obtain ⟨-, rfl⟩ := Prod.mk.inj (Outcome.ret.inj h)
    exact Or.inl ⟨_, rfl⟩
  | none =>
    obtain ⟨e, hcount, hes⟩ := giveUpAfter_sends (fun fs hsend => by
      obtain ⟨ipAddr, -, hsend⟩ := Outcome.bind_eq_ret.mp hsend
      obtain ⟨pkt, socket, stale, rfl, -⟩ := app.twSendArpRequest_allocates hsend
      exact ⟨_, rfl⟩) h
    exact Or.inr ⟨e, _, hcount, hes⟩

lemma arpTool_frees (stack : ℕ → Int) (ipArr : Fin 4 → UInt8) (app : Tw0App) (text : CString) :
    Frees (arpTool stack ipArr app text).replyPayload := fun _ _ _ => rfl

/-- The process still runs and a tick has a buffer for its request. -/
def ArpLegal (app : Tw0App) (_ : Sys) (es : List (AppEvent PktEffect)) (o : Op) : Prop :=
  AppEvent.Running es ∧ ∀ env, o = .tick env → env.pools.next (portByte app.port) ≠ none

/-- A tick prints the address that the table has and ends the process, or else sends a request;
the one that finds five of them sent ends the process behind its own. -/
def ArpCall (tool : Tool) (app : Tw0App) (ip : UInt32) (s : Sys) (es : List (AppEvent PktEffect)) :
    Op → Prop
  | .tick env => ∀ xs, s.arp.Lists xs →
    (∀ e, entryOf xs ip = some e → step tool s (.tick env) =
      .ret (s, [.exits ("MAC address: " ++ macText e.ethMac ++ "\n")])) ∧
    (entryOf xs ip = none → ∃ m, IsRequest (app.ports app.port) ip m ∧
      step tool s (.tick env) = .ret ({ s with count := s.count + 1 },
        .sent (.addToTxQueue m (portByte app.port)) ::
          if (AppEvent.sentOf es).length = 5 then [.exits "arp not resolved.\n"] else []))
  | .rx pkt slot mem => Received tool s pkt slot mem

lemma arpCall_of_inv (htext : Renders text ip) {o : Op} (hinv : Inv 5 os s es)
    (hlegal : ArpLegal app s es o) : ArpCall (arpTool stack ipArr app text) app ip s es o := by
  cases o with
  | rx pkt slot mem => exact hinv.received (arpTool_frees stack ipArr app text) pkt slot mem
  | tick env =>
    intro xs hlists
    have hsearch := twSearchArpEntry_renders hlists htext stack ipArr
    obtain ⟨m, hsend, hrequest⟩ := twSendArpRequest_isRequest (hlegal.2 env rfl) ip
    refine ⟨fun e he => ?_, fun hnone => ⟨m, hrequest, hinv.tick hlegal.1 ?_⟩⟩
    · simp only [step, arpTool, hsearch, he, Option.map_some, Outcome.ret_bind]
    · simp only [arpTool, hsearch, hnone, Option.map_none, Outcome.ret_bind,
        twConvertIpStrToDec_renders htext, hsend]

/-- The ARP tool ends at the first tick that finds the address in the table, or at the sixth tick,
which puts a request into the queue and does not wait for its answer. -/
theorem arpTool_course (stack : ℕ → Int) (ipArr : Fin 4 → UInt8) (app : Tw0App)
    (htext : Renders text ip) {s₀ : Sys} (harp : ∃ xs, s₀.arp.Lists xs) (hcount : s₀.count = 0)
    (legal : EachCall (step (arpTool stack ipArr app text)) s₀ (ArpLegal app) os) :
    EachCall (step (arpTool stack ipArr app text)) s₀
        (ArpCall (arpTool stack ipArr app text) app ip) os ∧
      Always (step (arpTool stack ipArr app text)) s₀ (Few 5) os :=
  course (arpTool_retries stack ipArr app text) (arpTool_frees stack ipArr app text) harp hcount
    (fun _ _ _ hlegal => hlegal.1) (fun _ _ _ _ hinv hlegal => arpCall_of_inv htext hinv hlegal)
    legal

def oneBuffer : BufEnv := ⟨⟨fun _ => 0, fun _ => some (7, fun _ => 0)⟩, some 0⟩

/-- The text `1.1.1.1`. -/
def onesText : CString := [0x31, 0x2e, 0x31, 0x2e, 0x31, 0x2e, 0x31]

theorem arpTool_course_six :
    EachCall (step (arpTool (fun _ => 0) (fun _ => 0) echoServer onesText)) ⟨.empty, 0⟩
        (ArpCall (arpTool (fun _ => 0) (fun _ => 0) echoServer onesText) echoServer 0x01010101)
        (List.replicate 6 (.tick oneBuffer)) ∧
      Always (step (arpTool (fun _ => 0) (fun _ => 0) echoServer onesText)) ⟨.empty, 0⟩
        (Few 5) (List.replicate 6 (.tick oneBuffer)) := by
  have htext : Renders onesText 0x01010101 :=
    ⟨⟨[1], by decide, by decide, by decide⟩, ⟨[1], by decide, by decide, by decide⟩,
      ⟨[1], by decide, by decide, by decide⟩, ⟨[1], by decide, by decide, by decide⟩, rfl,
      by decide⟩
  have hlegal : ∀ s es, AppEvent.Running es → ArpLegal echoServer s es (.tick oneBuffer) := by
    rintro s es hrunning
    refine ⟨hrunning, fun env henv => ?_⟩
    obtain rfl := Op.tick.inj henv
    exact Option.some_ne_none _
  refine arpTool_course (fun _ => 0) (fun _ => 0) echoServer htext ⟨[], rfl⟩ rfl ?_
  -- none of the first five ticks ends the process
  refine eachCall_cons rfl (hlegal _ _ ?_) (eachCall_cons rfl (hlegal _ _ ?_)
    (eachCall_cons rfl (hlegal _ _ ?_) (eachCall_cons rfl (hlegal _ _ ?_)
      (eachCall_cons rfl (hlegal _ _ ?_) (eachCall_singleton (hlegal _ _ ?_))))))
  all_goals
    intro message hmem
    simp at hmem

end Arp

section Rarp
variable {app : Tw0App} {os : List Op} {s : Sys} {es : List (AppEvent PktEffect)}

/-- What is sent: a request for the own address, by the own hardware address. -/
structure IsRarpRequest (mac : EtherAddr) (m : Mbuf) : Prop where
  etherType : m.etherType = rteCpuToBe16 etherTypeRARP
  dAddr : m.dAddr = broadcastmac
  sAddr : m.sAddr = mac
  arpOp : m.arpOp sizeofEtherHdr = rteCpuToBe16 arpOpRevrequest
  arpSha : m.arpSha sizeofEtherHdr = mac
  arpTha : m.arpTha sizeofEtherHdr = mac

lemma fillRarp_isRarpRequest (mac : EtherAddr) (m : Mbuf) : IsRarpRequest mac (fillRarp mac m) := by
  simp only [fillRarp]
  constructor
  all_goals
    simp (disch := decide) only [Mbuf.etherType, Mbuf.setEtherType, Mbuf.dAddr, Mbuf.setDAddr,
      Mbuf.sAddr, Mbuf.setSAddr, Mbuf.arpOp, Mbuf.setArpOp, Mbuf.arpSha, Mbuf.setArpSha,
      Mbuf.arpTha, Mbuf.setArpTha, Mbuf.setArpPro, Mbuf.setArpPln, Mbuf.setArpHln, Mbuf.setArpHrd,
      Mbuf.setArpSip, Mbuf.setArpTip, Mbuf.load_store_self, Mbuf.load_store_of_disjoint,
      le16_bytes16]

lemma fillRarp_dataOff (mac : EtherAddr) (m : Mbuf) : (fillRarp mac m).dataOff = m.dataOff := by
  simp only [fillRarp, Mbuf.setSAddr, Mbuf.setDAddr, Mbuf.setEtherType, Mbuf.setArpTip,
    Mbuf.setArpSip, Mbuf.setArpTha, Mbuf.setArpSha, Mbuf.setArpHrd, Mbuf.setArpHln, Mbuf.setArpPln,
    Mbuf.setArpPro, Mbuf.setArpOp, Mbuf.store_dataOff]

lemma sendRarp_isRarpRequest {env : BufEnv} (hpool : env.pools.txMempool 0 ≠ none)
    (hblock : env.block ≠ none) :
    ∃ m, sendRarp app env = .ret [.addToTxQueue m (portByte app.port)] ∧
      IsRarpRequest app.mac m := by
  obtain ⟨⟨addr, stale⟩, hpool⟩ := Option.ne_none_iff_exists'.mp hpool
  obtain ⟨portName, hblock⟩ := Option.ne_none_iff_exists'.mp hblock
  obtain ⟨b, hbuf, hdata⟩ : ∃ b, twNewBuffer env buffSize = .ret b ∧ b.data = b.pkt.dataOff := by
    unfold twNewBuffer
    rw [hpool, hblock]
    dsimp only
    generalize (if buffSize ≠ 0 then _ else _) = pkt
    exact ⟨⟨pkt, pkt.dataOff, buffSize, portName⟩, rfl, rfl⟩
  refine ⟨_, ?_, fillRarp_isRarpRequest app.mac b.pkt⟩
  rw [sendRarp, hbuf, Outcome.ret_bind, app.twGetEtherAddr_eq, Outcome.ret_bind, app.tw0Id_eq,
    TwBuf.edit_pkt hdata (fillRarp_dataOff app.mac b.pkt)]

lemma rarpTool_retries (app : Tw0App) : (rarpTool app).Retries 4 := by
  intro env s count es h
  obtain ⟨e, hcount, hes⟩ := giveUpAfter_sends (fun fs hsend => by
    obtain ⟨txBuf, -, hsend⟩ := Outcome.bind_eq_ret.mp hsend
    obtain ⟨mac, -, hsend⟩ := Outcome.bind_eq_ret.mp hsend
    obtain rfl := Outcome.ret.inj hsend
    exact ⟨_, rfl⟩) h
  exact Or.inr ⟨e, _, hcount, hes⟩

/-- The branch that prints the answer is for a type that the loop does not hand out. -/
lemma rarpTool_frees (app : Tw0App) : Frees (rarpTool app).replyPayload := by
  intro b hdata htype
  have hhdr : b.hdr = b.pkt := by rw [TwBuf.hdr, hdata]
  have hother : rteBeToCpu16 b.hdr.etherType ≠ etherTypeRARP := by
    rw [hhdr, htype]
    decide
  exact if_neg hother

/-- The process still runs and a tick has a buffer for its request. -/
def RarpLegal (_ : Sys) (es : List (AppEvent PktEffect)) (o : Op) : Prop :=
  AppEvent.Running es ∧
    ∀ env, o = .tick env → env.pools.txMempool 0 ≠ none ∧ env.block ≠ none

/-- A tick sends a request; the one that finds four of them sent ends the process behind its
own. -/
def RarpCall (app : Tw0App) (s : Sys) (es : List (AppEvent PktEffect)) : Op → Prop
  | .tick env => ∃ m, IsRarpRequest app.mac m ∧
    step (rarpTool app) s (.tick env) = .ret ({ s with count := s.count + 1 },
      .sent (.addToTxQueue m (portByte app.port)) ::
        if (AppEvent.sentOf es).length = 4 then [.exits "Address not resolved.\n"] else [])
  | .rx pkt slot mem => Received (rarpTool app) s pkt slot mem

lemma rarpCall_of_inv {o : Op} (hinv : Inv 4 os s es) (hlegal : RarpLegal s es o) :
    RarpCall app s es o := by
  cases o with
  | rx pkt slot mem => exact hinv.received (rarpTool_frees app) pkt slot mem
  | tick env =>
    obtain ⟨hpool, hblock⟩ := hlegal.2 env rfl
    obtain ⟨m, hsend, hrequest⟩ : ∃ m, sendRarp app env =
        .ret [.addToTxQueue m (portByte app.port)] ∧ IsRarpRequest app.mac m :=
      sendRarp_isRarpRequest hpool hblock
    refine ⟨m, hrequest, hinv.tick hlegal.1 ?_⟩
    rw [← hsend]
    rfl

/-- The RARP tool puts five requests into the queue and says behind the fifth that there was no
answer, whatever was received. -/
theorem rarpTool_course (app : Tw0App) {s₀ : Sys} (harp : ∃ xs, s₀.arp.Lists xs)
    (hcount : s₀.count = 0) (legal : EachCall (step (rarpTool app)) s₀ RarpLegal os) :
    EachCall (step (rarpTool app)) s₀ (RarpCall app) os ∧
      Always (step (rarpTool app)) s₀ (Few 4) os :=
  course (rarpTool_retries app) (rarpTool_frees app) harp hcount (fun _ _ _ hlegal => hlegal.1)
    (fun _ _ _ _ => rarpCall_of_inv) legal

theorem rarpTool_course_five :
    EachCall (step (rarpTool echoServer)) ⟨.empty, 0⟩ (RarpCall echoServer)
        (List.replicate 5 (.tick oneBuffer)) ∧
      Always (step (rarpTool echoServer)) ⟨.empty, 0⟩ (Few 4)
        (List.replicate 5 (.tick oneBuffer)) := by
  have hlegal : ∀ s es, AppEvent.Running es → RarpLegal s es (.tick oneBuffer) := by
    rintro s es hrunning
    refine ⟨hrunning, fun env henv => ?_⟩
    obtain rfl := Op.tick.inj henv
    exact ⟨Option.some_ne_none _, Option.some_ne_none _⟩
  refine rarpTool_course echoServer ⟨[], rfl⟩ rfl ?_
  refine eachCall_cons rfl (hlegal _ _ ?_) (eachCall_cons rfl (hlegal _ _ ?_)
    (eachCall_cons rfl (hlegal _ _ ?_) (eachCall_cons rfl (hlegal _ _ ?_)
      (eachCall_singleton (hlegal _ _ ?_)))))
  all_goals
    intro message hmem
    simp at hmem

end Rarp

end Twister.ArpTools
