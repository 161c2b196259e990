import Twister.LcoreInit

/-! The start of the library behind the port mask: the interface file, the memory pools, the
engines and the devices. The test of the environment makes the same calls but for the file, which
gives the ports their queues. -/
namespace Twister
variable {μ : Type}

section Model

def maxNumaSockets : ℕ := 2

/-- A call that fails the start. -/
inductive Failure
  | rxMempool (numaSocket : ℕ)
  | txMempool (numaSocket : ℕ)
  | configure (ret : Int) (portId : UInt8)
  | rxQueue (ret : Int) (portId : UInt8)
  | txQueue (ret : Int) (portId : UInt8)
  | start (ret : Int) (portId : UInt8)

/-- The last words of the library. -/
def Failure.text : Failure → String
  | rxMempool numaSocket => s!"Cannot init rx mempool on NUMA node {numaSocket}\n"
  | txMempool numaSocket => s!"Cannot init tx mempool on NUMA node {numaSocket}\n"
  | configure ret portId => s!"Cannot configure device: err={ret}, port={portId}\n"
  | rxQueue ret portId | txQueue ret portId =>
    s!"rte_eth_rx_queue_setup:err={ret}, port={portId}\n"
  | start ret portId => s!"Cannot start port {portId} ({ret})\n"

/-- What the library and the test have in common: a failed call ends it, the library with the
process, the test with a result of -1. -/
abbrev Start := ExceptT Failure Outcome

def check (ret : Int) (failure : Int → Failure) : Start Unit :=
  if ret < 0 then throw (failure ret) else pure ()

/-- A device, with the answers of its driver. -/
structure EthDev where
  maxRxQueues : UInt16
  maxTxQueues : UInt16
  macAddr : EtherAddr
  numaNode : Int
  devConfigure : Int
  rxQueueSetup : ℕ → Int
  txQueueSetup : ℕ → Int
  devStart : Int

/-- The queues that are set up, and whether the device runs. -/
structure DevState where
  started : Bool
  rxQueues : List ℕ
  txQueues : List ℕ

/-- The fields of `port_info` that only the start reads. -/
structure PortQueues where
  numRxQueues : UInt8
  numTxQueues : UInt8
  socketId : UInt8

structure EthState extends EthPorts where
  queues : Fin maxEthPorts → PortQueues
  devices : Fin maxEthPorts → DevState

/-- Which pools there are. -/
structure Pools where
  rxMempool : Fin maxNumaSockets → Bool
  txMempool : Fin maxNumaSockets → Bool

/-- What the start meets. The names of the pools are what the stack holds, since nothing is
written to them. -/
structure Machine where
  devCount : UInt8
  devs : Fin maxEthPorts → EthDev
  rteMalloc : Fin maxEthPorts → Bool
  rxMempoolName : CString
  txMempoolName : CString
  rxRoom : ℕ → Bool
  txRoom : ℕ → Bool
  lcores : LcoreEnv

/-- A pool needs memory and a name that no pool has. -/
def rteMempoolCreate (taken : List CString) (room : Bool) (name : CString) : Bool :=
  room && !taken.contains name

def createPools (m : Machine) (st : List CString × Pools) (numaSocket : ℕ) :
    Start (List CString × Pools) :=
  if h : numaSocket < maxNumaSockets then
    let taken := m.rxMempoolName :: st.1
    if rteMempoolCreate st.1 (m.rxRoom numaSocket) m.rxMempoolName then
      if rteMempoolCreate taken (m.txRoom numaSocket) m.txMempoolName then
        pure (m.txMempoolName :: taken,
          { rxMempool := Function.update st.2.rxMempool ⟨numaSocket, h⟩ true
            txMempool := Function.update st.2.txMempool ⟨numaSocket, h⟩ true })
      else throw (.txMempool numaSocket)
    else throw (.rxMempool numaSocket)
  else ExceptT.lift .fault

def twCreateRxTxMempools (m : Machine) (numNumaSockets : UInt8) (pools : Pools) : Start Pools := do
  let st ← (List.range numNumaSockets.toNat).foldlM (createPools m) ([], pools)
  pure st.2

/-- What is checked before the driver is asked. -/
def rteEthDevConfigure (dev : EthDev) (state : DevState) (nbRxQ nbTxQ : UInt16) : Int :=
  if state.started then -16
  else if nbRxQ = 0 ∧ nbTxQ = 0 then -22
  else if nbRxQ > dev.maxRxQueues then -22
  else if nbTxQ > dev.maxTxQueues then -22
  else dev.devConfigure

/-- The size of the private data is read from the pool at once. -/
def rteEthRxQueueSetup (dev : EthDev) (pools : Pools) (socketId : Int) (queueId : ℕ) :
    Outcome Int :=
  if h : 0 ≤ socketId ∧ socketId.toNat < maxNumaSockets then
    if pools.rxMempool ⟨socketId.toNat, h.2⟩ then .ret (dev.rxQueueSetup queueId) else .fault
  else .fault

def socketOf (dev : EthDev) : Int := if dev.numaNode = -1 then 0 else dev.numaNode

/-- The port with its device started. -/
def portUp (m : Machine) (st : EthState) (portId : Fin maxEthPorts) : EthState :=
  let q := st.queues portId
  { st with
    portInfo := Function.update st.portInfo portId
      { st.portInfo portId with ethMac := (m.devs portId).macAddr }
    queues := Function.update st.queues portId
      { q with socketId := UInt8.ofInt (socketOf (m.devs portId)) }
    devices := Function.update st.devices portId
      ⟨true, List.range q.numRxQueues.toNat, List.range q.numTxQueues.toNat⟩ }

def initPort (m : Machine) (pools : Pools) (appPortMask : UInt16) (st : EthState)
    (portId : Fin maxEthPorts) : Start EthState :=
  if portEnabled appPortMask portId then do
    let dev := m.devs portId
    let q := st.queues portId
    check (rteEthDevConfigure dev (st.devices portId) q.numRxQueues.toUInt16
      q.numTxQueues.toUInt16) (.configure · (portByte portId))
    -- the address is stored to the block that was asked for
    ExceptT.lift (if m.rteMalloc portId then .ret () else .fault)
    (List.range q.numRxQueues.toNat).forM fun counter => do
      let ret ← ExceptT.lift (rteEthRxQueueSetup dev pools (socketOf dev) counter)
      check ret (.rxQueue · (portByte portId))
    (List.range q.numTxQueues.toNat).forM fun counter =>
      check (dev.txQueueSetup counter) (.txQueue · (portByte portId))
    check dev.devStart (.start · (portByte portId))
    pure (portUp m st portId)
  else pure { st with availableEthPorts := st.availableEthPorts - 1 }

/-- The ports of the devices that there are. -/
def presentPorts (devCount : UInt8) : List (Fin maxEthPorts) :=
  (List.finRange maxEthPorts).take (portTotal devCount).toNat

def ethPortInit (m : Machine) (pools : Pools) (appPortMask : UInt16) (st : EthState) :
    Start EthState :=
  if m.devCount = 0 then ExceptT.lift (.exit "No Ethernet ports\n")
  else
    let total := portTotal m.devCount
    (presentPorts m.devCount).foldlM (initPort m pools appPortMask)
      { st with totalEthPorts := total, availableEthPorts := total }

/-- `rte_exit` and `rte_panic`. -/
def orExit {α : Type} (x : Start α) : Outcome α := do
  match ← x.run with
  | .ok a => .ret a
  | .error failure => .exit failure.text

/-- The first component is `port_info_counter`. -/
def loadQueues (jsonFile : List PortObject) (appPortMask : UInt16)
    (st : UInt8 × (Fin maxEthPorts → PortQueues)) (portId : Fin maxEthPorts) :
    UInt8 × (Fin maxEthPorts → PortQueues) :=
  if portEnabled appPortMask portId then
    (st.1 + 1,
      if jsonFile.any fun o => o.portName = some (ethString st.1) then
        Function.update st.2 portId { st.2 portId with numRxQueues := 1, numTxQueues := 1 }
      else st.2)
  else st

/-- The queues that reading the file gives the ports. -/
def queuesFrom (devCount : UInt8) (appPortMask : UInt16) (jsonFile : Option (List PortObject))
    (queues : Fin maxEthPorts → PortQueues) : Fin maxEthPorts → PortQueues :=
  match jsonFile with
  | none => queues
  | some jsonFile =>
    ((presentPorts devCount).foldl (loadQueues jsonFile appPortMask) (0, queues)).2

structure Globals (μ : Type) where
  eth : EthState
  pools : Pools
  lcores : Lcores μ

variable (stack : ℕ → Int) (ipArr : Fin 4 → UInt8)

/-- `initEalEnv` leaves the port mask. What the file reader returns is not looked at. -/
def twInitGlobal (m : Machine) (initEalEnv : Outcome UInt16)
    (jsonFile : Option (List PortObject)) (g : Globals μ) : Outcome (Globals μ) := do
  let appPortMask ← initEalEnv
  let (_, conf) ← twGetPortConfJsonVals stack ipArr m.devCount appPortMask jsonFile g.eth.toEthPorts
  let eth : EthState :=
    { g.eth with
      toEthPorts := conf
      queues := queuesFrom m.devCount appPortMask jsonFile g.eth.queues }
  let pools ← orExit (twCreateRxTxMempools m g.lcores.numNumaSockets g.pools)
  let lcores := twLcoreConfInit m.lcores g.lcores
  let eth ← orExit (ethPortInit m pools appPortMask eth)
  .ret ⟨eth, pools, lcores⟩

/-- `main` of the environment test. `initEalEnv` returns a status besides the mask. -/
def envSmoke (m : Machine) (uid : ℕ) (initEalEnv : Outcome (Int × UInt16)) (g : Globals μ) :
    Outcome Int :=
  if uid ≠ 0 then
    .exit "Permission denied: Please run the test using sudo to use Hugepages!\n"
  else do
    let (status, appPortMask) ← initEalEnv
    if status ≠ 0 then .ret (-1)
    else do
      match ← (twCreateRxTxMempools m g.lcores.numNumaSockets g.pools).run with
      | .error _ => .ret (-1)
      | .ok pools => do
        match ← (ethPortInit m pools appPortMask g.eth).run with
        | .error _ => .ret (-1)
        | .ok _ => .ret 0

end Model

section Attempts
variable {α β : Type}

lemma Start.bind_ok {x : Start α} {f : α → Start β} {b : β} :
    (x >>= f).run = .ret (.ok b) ↔ ∃ a, x.run = .ret (.ok a) ∧ (f a).run = .ret (.ok b) := by
  rw [ExceptT.run_bind, Outcome.bind_eq_ret]
  constructor
  · rintro ⟨r, hr, h⟩
    cases r with
    | ok a => exact ⟨a, hr, h⟩
    | error failure => cases Outcome.ret.inj h
  · rintro ⟨a, ha, h⟩
    exact ⟨.ok a, ha, h⟩

lemma Start.bind_error {x : Start α} {failure : Failure} (h : x.run = .ret (.error failure))
    (f : α → Start β) : (x >>= f).run = .ret (.error failure) := by
  rw [ExceptT.run_bind, h]
  rfl

lemma Start.lift_ok {x : Outcome α} {a : α} :
    (ExceptT.lift x : Start α).run = .ret (.ok a) ↔ x = .ret a := by
  cases x with
  | ret value => exact ⟨fun h => congrArg _ (Except.ok.inj (Outcome.ret.inj h)), fun h => h ▸ rfl⟩
  | exit message => exact ⟨fun h => (nomatch h), fun h => (nomatch h)⟩
  | fault => exact ⟨fun h => (nomatch h), fun h => (nomatch h)⟩
  | timeout => exact ⟨fun h => (nomatch h), fun h => (nomatch h)⟩

lemma Start.pure_ok {a b : α} : (pure a : Start α).run = .ret (.ok b) ↔ a = b := by
  rw [ExceptT.run_pure]
  exact ⟨fun h => Except.ok.inj (Outcome.ret.inj h), fun h => h ▸ rfl⟩

lemma check_ok {ret : Int} {failure : Int → Failure} {u : Unit} :
    (check ret failure).run = .ret (.ok u) ↔ 0 ≤ ret := by
  unfold check
  split
  · rename_i h
    exact ⟨fun h => (nomatch h), fun h' => absurd h' (not_le.mpr h)⟩
  · rename_i h
    exact ⟨fun _ => not_lt.mp h, fun _ => rfl⟩

lemma check_error {ret : Int} (failure : Int → Failure) (h : ret < 0) :
    (check ret failure).run = .ret (.error (failure ret)) := by
  rw [check, if_pos h]
  rfl

lemma Start.forM_ok {f : α → Start Unit} {xs : List α} {u : Unit} :
    (xs.forM f).run = .ret (.ok u) ↔ ∀ x ∈ xs, (f x).run = .ret (.ok u) := by
  induction xs with
  | nil => exact ⟨fun _ _ h => absurd h List.not_mem_nil, fun _ => rfl⟩
  | cons x xs ih =>
    rw [List.forM, Start.bind_ok, List.forall_mem_cons, ← ih]
    exact ⟨fun ⟨_, hx, hxs⟩ => ⟨hx, hxs⟩, fun ⟨hx, hxs⟩ => ⟨u, hx, hxs⟩⟩

end Attempts

section Ports
variable {m : Machine} {pools : Pools} {appPortMask : UInt16} {st st' : EthState}
  {p : Fin maxEthPorts} {ps : List (Fin maxEthPorts)}

/-- Every call for the port succeeds. -/
structure PortReady (m : Machine) (pools : Pools) (q : PortQueues) (d : DevState)
    (p : Fin maxEthPorts) : Prop where
  configures : 0 ≤ rteEthDevConfigure (m.devs p) d q.numRxQueues.toUInt16 q.numTxQueues.toUInt16
  rteMalloc : m.rteMalloc p
  rxQueues : ∀ i < q.numRxQueues.toNat, ∃ ret,
    rteEthRxQueueSetup (m.devs p) pools (socketOf (m.devs p)) i = .ret ret ∧ 0 ≤ ret
  txQueues : ∀ i < q.numTxQueues.toNat, 0 ≤ (m.devs p).txQueueSetup i
  starts : 0 ≤ (m.devs p).devStart

lemma initPort_ok (hen : portEnabled appPortMask p) :
    (initPort m pools appPortMask st p).run = .ret (.ok st') ↔
      PortReady m pools (st.queues p) (st.devices p) p ∧ portUp m st p = st' := by
  have hroom : ∀ u, (if m.rteMalloc p then Outcome.ret () else .fault) = .ret u ↔
      m.rteMalloc p := by
    cases m.rteMalloc p <;> simp
  simp only [initPort, if_pos hen, Start.bind_ok, Start.forM_ok, Start.lift_ok, Start.pure_ok,
    check_ok, List.mem_range, hroom, exists_const]
  constructor
  · rintro ⟨hconf, hmac, hrx, htx, hstart, hup⟩
    exact ⟨⟨hconf, hmac, hrx, htx, hstart⟩, hup⟩
  · rintro ⟨⟨hconf, hmac, hrx, htx, hstart⟩, hup⟩
    exact ⟨hconf, hmac, hrx, htx, hstart, hup⟩

/-- What a port leaves that is passed without failure. -/
def passPort (m : Machine) (appPortMask : UInt16) (st : EthState) (p : Fin maxEthPorts) :
    EthState :=
  if portEnabled appPortMask p then portUp m st p
  else { st with availableEthPorts := st.availableEthPorts - 1 }

variable (m appPortMask st) in
lemma passPort_of_ne {i : Fin maxEthPorts} (hne : i ≠ p) :
    (passPort m appPortMask st p).queues i = st.queues i ∧
      (passPort m appPortMask st p).devices i = st.devices i ∧
      (passPort m appPortMask st p).portInfo i = st.portInfo i := by
  unfold passPort
  split
  · exact ⟨Function.update_of_ne hne _ _, Function.update_of_ne hne _ _,
      Function.update_of_ne hne _ _⟩
  · exact ⟨rfl, rfl, rfl⟩

lemma initPorts_ok (hnd : ps.Nodup) :
    (ps.foldlM (initPort m pools appPortMask) st).run = .ret (.ok st') ↔
      (∀ p ∈ ps, portEnabled appPortMask p →
        PortReady m pools (st.queues p) (st.devices p) p) ∧
      ps.foldl (passPort m appPortMask) st = st' := by
  induction ps generalizing st with
  | nil =>
    rw [List.foldlM_nil, Start.pure_ok]
    exact ⟨fun h => ⟨fun _ hp => absurd hp List.not_mem_nil, h⟩, fun h => h.2⟩
  | cons p ps ih =>
    obtain ⟨hp, hnd⟩ := List.nodup_cons.mp hnd
    -- the other ports are as before this one
    have hothers : (∀ i ∈ ps, portEnabled appPortMask i →
        PortReady m pools ((passPort m appPortMask st p).queues i)
          ((passPort m appPortMask st p).devices i) i) ↔
        ∀ i ∈ ps, portEnabled appPortMask i →
          PortReady m pools (st.queues i) (st.devices i) i := by
      refine forall₂_congr fun i hi => ?_
      have hne : i ≠ p := fun h => hp (h ▸ hi)
      obtain ⟨hqueues, hdevices, -⟩ := passPort_of_ne m appPortMask st hne
      rw [hqueues, hdevices]
    rw [List.foldlM_cons, Start.bind_ok, List.foldl_cons, List.forall_mem_cons, ← hothers]
    by_cases hen : portEnabled appPortMask p
    · have hpass : passPort m appPortMask st p = portUp m st p := if_pos hen
      simp only [initPort_ok hen, hpass]
      constructor
      · rintro ⟨st₁, ⟨hready, rfl⟩, hrest⟩
        obtain ⟨hall, hfold⟩ := (ih hnd).mp hrest
        exact ⟨⟨fun _ => hready, hall⟩, hfold⟩
      · rintro ⟨⟨hready, hall⟩, hfold⟩
        exact ⟨_, ⟨hready hen, rfl⟩, (ih hnd).mpr ⟨hall, hfold⟩⟩
    · have hskip : initPort m pools appPortMask st p = pure (passPort m appPortMask st p) := by
        rw [initPort, passPort, if_neg hen, if_neg hen]
      simp only [hskip, Start.pure_ok]
      constructor
      · rintro ⟨st₁, rfl, hrest⟩
        obtain ⟨hall, hfold⟩ := (ih hnd).mp hrest
        exact ⟨⟨fun h => absurd h hen, hall⟩, hfold⟩
      · rintro ⟨⟨-, hall⟩, hfold⟩
        exact ⟨_, rfl, (ih hnd).mpr ⟨hall, hfold⟩⟩

variable (m appPortMask st) in
lemma passPorts_notMem {i : Fin maxEthPorts} (hi : i ∉ ps) :
    (ps.foldl (passPort m appPortMask) st).queues i = st.queues i ∧
      (ps.foldl (passPort m appPortMask) st).devices i = st.devices i ∧
      (ps.foldl (passPort m appPortMask) st).portInfo i = st.portInfo i := by
  induction ps generalizing st with
  | nil => exact ⟨rfl, rfl, rfl⟩
  | cons p ps ih =>
    rw [List.mem_cons, not_or] at hi
    obtain ⟨hqueues, hdevices, hinfo⟩ := ih (passPort m appPortMask st p) hi.2
    obtain ⟨hqueues', hdevices', hinfo'⟩ := passPort_of_ne m appPortMask st hi.1
    exact ⟨hqueues.trans hqueues', hdevices.trans hdevices', hinfo.trans hinfo'⟩

variable (m st) in
/-- An enabled port runs with the queues it had been given, another one is as before. -/
lemma passPorts_mem (hnd : ps.Nodup) (hp : p ∈ ps) :
    (portEnabled appPortMask p →
      (ps.foldl (passPort m appPortMask) st).devices p =
          ⟨true, List.range (st.queues p).numRxQueues.toNat,
            List.range (st.queues p).numTxQueues.toNat⟩ ∧
        (ps.foldl (passPort m appPortMask) st).portInfo p =
          { st.portInfo p with ethMac := (m.devs p).macAddr }) ∧
      (¬ portEnabled appPortMask p →
        (ps.foldl (passPort m appPortMask) st).devices p = st.devices p) := by
  induction ps generalizing st with
  | nil => exact absurd hp List.not_mem_nil
  | cons i ps ih =>
    obtain ⟨hi, hnd⟩ := List.nodup_cons.mp hnd
    rw [List.foldl_cons]
    by_cases hip : p = i
    · subst hip
      obtain ⟨-, hdevices, hinfo⟩ := passPorts_notMem m appPortMask (passPort m appPortMask st p) hi
      rw [hdevices, hinfo]
      refine ⟨fun hen => ?_, fun hen => ?_⟩
      · rw [passPort, if_pos hen]
        exact ⟨Function.update_self .., Function.update_self ..⟩
      · rw [passPort, if_neg hen]
    · have hpass := passPort_of_ne m appPortMask st hip
      have hrest := ih (passPort m appPortMask st i) hnd ((List.mem_cons.mp hp).resolve_left hip)
      rwa [hpass.1, hpass.2.1, hpass.2.2] at hrest

/-- The ports that are not enabled are taken off. -/
lemma passPorts_available (ps : List (Fin maxEthPorts)) (st : EthState) :
    (ps.foldl (passPort m appPortMask) st).availableEthPorts =
      st.availableEthPorts -
        UInt8.ofNat (ps.countP fun p : Fin maxEthPorts => ¬ portEnabled appPortMask p) := by
  induction ps generalizing st with
  | nil => exact (UInt8.sub_zero _).symm
  | cons p ps ih =>
    rw [List.foldl_cons, ih]
    by_cases hen : portEnabled appPortMask p
    · rw [passPort, if_pos hen, List.countP_cons_of_neg (by simpa using hen)]
      rfl
    · rw [passPort, if_neg hen, List.countP_cons_of_pos (by simpa using hen), UInt8.ofNat_add]
      show st.availableEthPorts - 1 - _ = st.availableEthPorts - (_ + 1)
      grind

end Ports

section Start
variable {m : Machine} {appPortMask : UInt16} {file : List PortObject}

lemma presentPorts_nodup (devCount : UInt8) : (presentPorts devCount).Nodup :=
  (List.nodup_finRange maxEthPorts).sublist (List.take_sublist _ _)

lemma mem_presentPorts {devCount : UInt8} {p : Fin maxEthPorts} :
    p ∈ presentPorts devCount ↔ p.val < (portTotal devCount).toNat := by
  rw [presentPorts, List.mem_take_iff_getElem]
  simp only [List.getElem_finRange, List.length_finRange]
  constructor
  · rintro ⟨i, hi, rfl⟩
    exact lt_of_lt_of_le hi (min_le_left _ _)
  · intro h
    exact ⟨p.val, lt_min h p.isLt, rfl⟩

lemma presentPorts_length (devCount : UInt8) :
    (presentPorts devCount).length = (portTotal devCount).toNat := by
  rw [presentPorts, List.length_take, List.length_finRange, min_eq_left (portTotal_le devCount)]

/-- The queues of a port that the file names. -/
def queuesOf (file : List PortObject) (appPortMask : UInt16) (q : PortQueues)
    (p : Fin maxEthPorts) : PortQueues :=
  if file.any fun o => o.portName = some (nameOf appPortMask p) then
    { q with numRxQueues := 1, numTxQueues := 1 }
  else q

lemma loadQueues_take (file : List PortObject) (appPortMask : UInt16)
    (queues : Fin maxEthPorts → PortQueues) {n : ℕ} (hn : n ≤ maxEthPorts) :
    (((List.finRange maxEthPorts).take n).foldl (loadQueues file appPortMask) (0, queues)).1 =
        enabledBelow appPortMask n ∧
      ∀ p, (((List.finRange maxEthPorts).take n).foldl (loadQueues file appPortMask)
          (0, queues)).2 p =
        if p.val < n ∧ portEnabled appPortMask p then queuesOf file appPortMask (queues p) p
        else queues p := by
  induction n with
  | zero => exact ⟨rfl, fun p => (if_neg fun h => absurd h.1 (Nat.not_lt_zero _)).symm⟩
  | succ n ih =>
    obtain ⟨hcount, hqueues⟩ := ih (Nat.le_of_succ_le hn)
    rw [finRange_take_succ hn, List.foldl_append, List.foldl_cons, List.foldl_nil, loadQueues,
      hcount, enabledBelow]
    have hself := hqueues ⟨n, hn⟩
    rw [if_neg fun h => absurd h.1 (lt_irrefl n)] at hself
    have hlater : ∀ p : Fin maxEthPorts, p ≠ ⟨n, hn⟩ → (p.val < n + 1 ↔ p.val < n) := by
      intro p hne
      have hval : p.val ≠ n := fun h => hne (Fin.ext h)
      omega
    by_cases hen : portEnabled appPortMask n
    · simp only [hen, if_true]
      refine ⟨trivial, fun p => ?_⟩
      by_cases hp : p = ⟨n, hn⟩
      · subst hp
        simp only [hen, and_true, Nat.lt_succ_self, if_true]
        split
        · rename_i hname
          rw [Function.update_self, hself]
          exact (if_pos hname).symm
        · rename_i hname
          rw [hself]
          exact (if_neg hname).symm
      · simp only [hlater p hp, ← hqueues p]
        split
        · exact Function.update_of_ne hp _ _
        · rfl
    · simp only [hen, Bool.false_eq_true, if_false]
      refine ⟨hcount, fun p => ?_⟩
      by_cases hp : p = ⟨n, hn⟩
      · subst hp
        rw [if_neg fun h => hen h.2]
        exact hself
      · simp only [hlater p hp, ← hqueues p]

lemma queuesFrom_eq (file : List PortObject) (devCount : UInt8) (appPortMask : UInt16)
    (queues : Fin maxEthPorts → PortQueues) {p : Fin maxEthPorts}
    (hp : Configured appPortMask (portTotal devCount).toNat p) :
    queuesFrom devCount appPortMask (some file) queues p =
      queuesOf file appPortMask (queues p) p := by
  rw [queuesFrom, presentPorts,
    (loadQueues_take file appPortMask queues (portTotal_le devCount)).2 p]
  exact if_pos hp

/-- There is memory for both pools, and the stack happens to hold two names for them. -/
structure PoolsReady (m : Machine) : Prop where
  rxRoom : m.rxRoom 0
  txRoom : m.txRoom 0
  names : m.txMempoolName ≠ m.rxMempoolName

/-- The pools of the first socket, which is the only one that gets some. -/
def firstPools : Pools := ⟨fun i => i.val = 0, fun i => i.val = 0⟩

/-- The globals before the start. -/
structure Fresh (g : Globals μ) : Prop where
  lcores : ∃ txMbufs, g.lcores = staticLcores txMbufs
  pools : g.pools = ⟨fun _ => false, fun _ => false⟩
  queues : ∀ p, (g.eth.queues p).numRxQueues = 0 ∧ (g.eth.queues p).numTxQueues = 0
  idle : ∀ p, (g.eth.devices p).started = false

lemma twCreateRxTxMempools_ok {pools : Pools} :
    (twCreateRxTxMempools m 1 ⟨fun _ => false, fun _ => false⟩).run = .ret (.ok pools) ↔
      PoolsReady m ∧ firstPools = pools := by
  have hone : List.range (UInt8.toNat 1) = [0] := rfl
  have hfirst : Function.update (fun _ : Fin maxNumaSockets => false) ⟨0, by decide⟩ true =
      fun i => decide (i.val = 0) := by decide
  have hrx : rteMempoolCreate [] (m.rxRoom 0) m.rxMempoolName ↔ m.rxRoom 0 := by
    simp [rteMempoolCreate]
  have htx : rteMempoolCreate [m.rxMempoolName] (m.txRoom 0) m.txMempoolName ↔
      m.txRoom 0 ∧ m.txMempoolName ≠ m.rxMempoolName := by
    simp [rteMempoolCreate]
  simp only [twCreateRxTxMempools, hone, List.foldlM_cons, List.foldlM_nil, Start.bind_ok,
    Start.pure_ok, createPools, dif_pos (show 0 < maxNumaSockets by decide), hrx, htx, hfirst]
  constructor
  · rintro ⟨_, ⟨_, h, rfl⟩, rfl⟩
    split_ifs at h with hrx htx
    · obtain rfl := Start.pure_ok.mp h
      exact ⟨⟨hrx, htx.1, htx.2⟩, rfl⟩
    · cases Outcome.ret.inj h
    · cases Outcome.ret.inj h
  · rintro ⟨⟨hrx, htx, hnames⟩, rfl⟩
    rw [if_pos hrx, if_pos ⟨htx, hnames⟩]
    exact ⟨_, ⟨_, rfl, rfl⟩, rfl⟩

/-- The file names the port, and every call for it succeeds. -/
structure DeviceReady (m : Machine) (file : List PortObject) (appPortMask : UInt16)
    (p : Fin maxEthPorts) : Prop where
  named : ∃ o ∈ file, o.portName = some (nameOf appPortMask p)
  maxRxQueues : (m.devs p).maxRxQueues ≠ 0
  maxTxQueues : (m.devs p).maxTxQueues ≠ 0
  configures : 0 ≤ (m.devs p).devConfigure
  rteMalloc : m.rteMalloc p
  socket : (m.devs p).numaNode = -1 ∨ (m.devs p).numaNode = 0
  rxQueue : 0 ≤ (m.devs p).rxQueueSetup 0
  txQueue : 0 ≤ (m.devs p).txQueueSetup 0
  starts : 0 ≤ (m.devs p).devStart

lemma rteEthDevConfigure_one {dev : EthDev} {d : DevState} (hidle : d.started = false) :
    0 ≤ rteEthDevConfigure dev d 1 1 ↔
      dev.maxRxQueues ≠ 0 ∧ dev.maxTxQueues ≠ 0 ∧ 0 ≤ dev.devConfigure := by
  have hpos : ∀ n : UInt16, n < 1 ↔ n = 0 := by
    intro n
    rw [UInt16.lt_iff_toNat_lt, ← UInt16.toNat_inj]
    exact Nat.lt_one_iff
  have hne : ¬ ((1 : UInt16) = 0 ∧ (1 : UInt16) = 0) := by decide
  rw [rteEthDevConfigure, hidle, if_neg Bool.false_ne_true, if_neg hne]
  simp only [gt_iff_lt, hpos]
  split
  · rename_i h
    simp [h]
  · rename_i h
    split
    · rename_i h'
      simp [h']
    · rename_i h'
      simp [h, h']

lemma rteEthDevConfigure_zero (dev : EthDev) (d : DevState) : rteEthDevConfigure dev d 0 0 < 0 := by
  rw [rteEthDevConfigure]
  split
  · decide
  · rw [if_pos ⟨rfl, rfl⟩]
    decide

lemma rteEthRxQueueSetup_first {dev : EthDev} {i : ℕ} :
    (∃ ret, rteEthRxQueueSetup dev firstPools (socketOf dev) i = .ret ret ∧ 0 ≤ ret) ↔
      (dev.numaNode = -1 ∨ dev.numaNode = 0) ∧ 0 ≤ dev.rxQueueSetup i := by
  have hsocket : socketOf dev = 0 ↔ dev.numaNode = -1 ∨ dev.numaNode = 0 := by
    unfold socketOf
    split <;> simp [*]
  rw [← hsocket]
  unfold rteEthRxQueueSetup
  split
  · rename_i hbound
    have hzero : (socketOf dev).toNat = 0 ↔ socketOf dev = 0 := by omega
    simp only [firstPools, hzero, decide_eq_true_eq]
    split
    · rename_i h
      simp [h]
    · rename_i h
      simp [h]
  · rename_i hbound
    have hne : socketOf dev ≠ 0 := fun h => hbound (by rw [h]; decide)
    simp [hne]

lemma portReady_iff {q : PortQueues} {d : DevState} {p : Fin maxEthPorts}
    (hrx : q.numRxQueues = 0) (htx : q.numTxQueues = 0) (hidle : d.started = false) :
    PortReady m firstPools (queuesOf file appPortMask q p) d p ↔
      DeviceReady m file appPortMask p := by
  have hnamed : (file.any fun o => o.portName = some (nameOf appPortMask p)) ↔
      ∃ o ∈ file, o.portName = some (nameOf appPortMask p) := by
    simp [List.any_eq_true]
  unfold queuesOf
  split
  · rename_i h
    constructor
    · rintro ⟨hconf, hmac, hrxq, htxq, hstart⟩
      obtain ⟨hmaxrx, hmaxtx, hdev⟩ := (rteEthDevConfigure_one hidle).mp hconf
      obtain ⟨hsocket, hsetup⟩ := rteEthRxQueueSetup_first.mp (hrxq 0 Nat.one_pos)
      exact ⟨hnamed.mp h, hmaxrx, hmaxtx, hdev, hmac, hsocket, hsetup, htxq 0 Nat.one_pos, hstart⟩
    · intro hready
      refine ⟨(rteEthDevConfigure_one hidle).mpr ⟨hready.maxRxQueues, hready.maxTxQueues,
        hready.configures⟩, hready.rteMalloc, fun i hi => ?_, fun i hi => ?_, hready.starts⟩
      · obtain rfl : i = 0 := Nat.lt_one_iff.mp hi
        exact rteEthRxQueueSetup_first.mpr ⟨hready.socket, hready.rxQueue⟩
      · obtain rfl : i = 0 := Nat.lt_one_iff.mp hi
        exact hready.txQueue
  · rename_i h
    refine ⟨fun hready => ?_, fun hready => absurd (hnamed.mpr hready.named) h⟩
    have hconf := hready.configures
    rw [hrx, htx] at hconf
    exact absurd (rteEthDevConfigure_zero (m.devs p) d) (not_lt.mpr hconf)

lemma ethPortInit_ok {pools : Pools} {st st' : EthState} :
    (ethPortInit m pools appPortMask st).run = .ret (.ok st') ↔
      m.devCount ≠ 0 ∧ (∀ p, Configured appPortMask (portTotal m.devCount).toNat p →
        PortReady m pools (st.queues p) (st.devices p) p) ∧
      (presentPorts m.devCount).foldl (passPort m appPortMask)
        { st with totalEthPorts := portTotal m.devCount
                  availableEthPorts := portTotal m.devCount } = st' := by
  unfold ethPortInit
  split
  · rename_i h
    exact ⟨fun h' => (nomatch h'), fun h' => absurd h h'.1⟩
  · rename_i h
    rw [initPorts_ok (presentPorts_nodup m.devCount)]
    simp only [mem_presentPorts, ne_eq, h, not_false_eq_true, true_and, Configured, and_imp]

lemma orExit_ret {α : Type} {x : Start α} {a : α} : orExit x = .ret a ↔ x.run = .ret (.ok a) := by
  unfold orExit
  rw [Outcome.bind_eq_ret]
  constructor
  · rintro ⟨r, hr, h⟩
    cases r with
    | ok b =>
      obtain rfl := Outcome.ret.inj h
      exact hr
    | error failure => cases h
  · intro h
    exact ⟨.ok a, h, rfl⟩

/-- Everything that the start needs. -/
structure MachineReady (m : Machine) (file : List PortObject) (appPortMask : UInt16) : Prop where
  devCount : m.devCount ≠ 0
  pools : PoolsReady m
  devices : ∀ p, Configured appPortMask (portTotal m.devCount).toNat p →
    DeviceReady m file appPortMask p

/-- The enabled ports run, each with one queue in each direction, under its name and with the
address of its device. No other device was touched. -/
structure Up (m : Machine) (appPortMask : UInt16) (g g' : Globals μ) : Prop where
  device : ∀ p, Configured appPortMask (portTotal m.devCount).toNat p →
    g'.eth.devices p = ⟨true, [0], [0]⟩
  others : ∀ p, ¬ Configured appPortMask (portTotal m.devCount).toNat p →
    g'.eth.devices p = g.eth.devices p
  info : ∀ p, Configured appPortMask (portTotal m.devCount).toNat p →
    (g'.eth.portInfo p).portName = nameOf appPortMask p ∧
      (g'.eth.portInfo p).ethMac = (m.devs p).macAddr
  available : g'.eth.availableEthPorts.toNat =
    (presentPorts m.devCount).countP fun p : Fin maxEthPorts => portEnabled appPortMask p
  engines : Started m.lcores g'.lcores.conf

variable {g g' : Globals μ} {stack : ℕ → Int} {ipArr : Fin 4 → UInt8}

/-- The start taken apart, behind a file that was read. -/
lemma twInitGlobal_ret {conf : EthPorts} (hdev : m.devCount ≠ 0) (hg : Fresh g)
    (hload : twGetPortConfJsonVals stack ipArr m.devCount appPortMask (some file)
      g.eth.toEthPorts = .ret (0, conf)) :
    twInitGlobal stack ipArr m (.ret appPortMask) (some file) g = .ret g' ↔
      MachineReady m file appPortMask ∧
        ⟨(presentPorts m.devCount).foldl (passPort m appPortMask)
          { g.eth with
            totalEthPorts := portTotal m.devCount
            availableEthPorts := portTotal m.devCount
            portInfo := conf.portInfo
            queues := queuesFrom m.devCount appPortMask (some file) g.eth.queues },
          firstPools, twLcoreConfInit m.lcores g.lcores⟩ = g' := by
  obtain ⟨txMbufs, hlcores⟩ := hg.lcores
  have hsockets : g.lcores.numNumaSockets = 1 := by rw [hlcores]; rfl
  have hready : (∀ p, Configured appPortMask (portTotal m.devCount).toNat p →
      PortReady m firstPools (queuesFrom m.devCount appPortMask (some file) g.eth.queues p)
        (g.eth.devices p) p) ↔
      ∀ p, Configured appPortMask (portTotal m.devCount).toNat p →
        DeviceReady m file appPortMask p := by
    refine forall₂_congr fun p hp => ?_
    rw [queuesFrom_eq file m.devCount appPortMask g.eth.queues hp]
    exact portReady_iff (hg.queues p).1 (hg.queues p).2 (hg.idle p)
  simp only [twInitGlobal, Outcome.ret_bind, hload, Outcome.bind_eq_ret, orExit_ret, hsockets,
    hg.pools, twCreateRxTxMempools_ok, ethPortInit_ok]
  constructor
  · rintro ⟨pools, ⟨hpools, rfl⟩, eth, ⟨-, hports, rfl⟩, h⟩
    exact ⟨⟨hdev, hpools, hready.mp hports⟩, Outcome.ret.inj h⟩
  · rintro ⟨⟨-, hpools, hports⟩, rfl⟩
    exact ⟨firstPools, ⟨hpools, rfl⟩, _, ⟨hdev, hready.mpr hports, rfl⟩, rfl⟩

/-- Without a device the process ends in the file reader. -/
lemma twInitGlobal_noDevice (hdev : m.devCount = 0) :
    twInitGlobal stack ipArr m (.ret appPortMask) (some file) g = .exit "No Ethernet ports\n" := by
  rw [twInitGlobal, Outcome.ret_bind, twGetPortConfJsonVals, if_pos hdev]
  rfl

/-- The counter ends at the number of enabled ports. -/
lemma available_count (devCount : UInt8) (appPortMask : UInt16) :
    (portTotal devCount - UInt8.ofNat ((presentPorts devCount).countP
      fun p : Fin maxEthPorts => ¬ portEnabled appPortMask p)).toNat =
      (presentPorts devCount).countP fun p : Fin maxEthPorts => portEnabled appPortMask p := by
  have hsplit := List.length_eq_countP_add_countP
    (fun p : Fin maxEthPorts => portEnabled appPortMask p) (l := presentPorts devCount)
  rw [presentPorts_length] at hsplit
  have htotal : (portTotal devCount).toNat < 2 ^ 8 := (portTotal devCount).toNat_lt
  have hoff : (UInt8.ofNat ((presentPorts devCount).countP
      fun p : Fin maxEthPorts => ¬ portEnabled appPortMask p)).toNat = _ :=
    UInt8.toNat_ofNat_of_lt' (show _ < 2 ^ 8 by omega)
  rw [UInt8.toNat_sub_of_le _ _ (UInt8.le_iff_toNat_le.mpr (by omega)), hoff]
  omega

lemma twInitGlobal_brings (hfile : FileWellFormed file) (hg : Fresh g)
    (h : twInitGlobal stack ipArr m (.ret appPortMask) (some file) g = .ret g') :
    MachineReady m file appPortMask ∧ Up m appPortMask g g' := by
  have hdev : m.devCount ≠ 0 := fun hzero => by
    rw [twInitGlobal_noDevice hzero] at h
    cases h
  obtain ⟨conf, hload, hports⟩ :=
    twGetPortConfJsonVals_loaded appPortMask stack ipArr hfile hdev g.eth.toEthPorts
  obtain ⟨hready, rfl⟩ := (twInitGlobal_ret hdev hg hload).mp h
  obtain ⟨txMbufs, hlcores⟩ := hg.lcores
  have hnd := presentPorts_nodup m.devCount
  refine ⟨hready, fun p hp => ?_, fun p hp => ?_, fun p hp => ?_, ?_, ?_⟩
  · have hnamed : (file.any fun o => o.portName = some (nameOf appPortMask p)) := by
      simpa [List.any_eq_true] using (hready.devices p hp).named
    dsimp only
    rw [((passPorts_mem m _ hnd (mem_presentPorts.mpr hp.1)).1 hp.2).1]
    simp only [queuesFrom_eq file m.devCount appPortMask g.eth.queues hp, queuesOf, if_pos hnamed]
    rfl
  · dsimp only
    by_cases hmem : p ∈ presentPorts m.devCount
    · exact (passPorts_mem m _ hnd hmem).2 fun hen => hp ⟨mem_presentPorts.mp hmem, hen⟩
    · exact (passPorts_notMem m appPortMask _ hmem).2.1
  · dsimp only
    rw [((passPorts_mem m _ hnd (mem_presentPorts.mpr hp.1)).1 hp.2).2]
    exact ⟨hports.portName hfile hp, rfl⟩
  · dsimp only
    rw [passPorts_available]
    exact available_count m.devCount appPortMask
  · rw [hlcores]
    exact twLcoreConfInit_started m.lcores txMbufs

/-- The start succeeds exactly on a machine that has all it needs, and then the enabled ports run
and nothing else was touched. -/
theorem twInitGlobal_up (stack : ℕ → Int) (ipArr : Fin 4 → UInt8) (m : Machine)
    (hfile : FileWellFormed file) (hg : Fresh g) (appPortMask : UInt16) :
    ((∃ g', twInitGlobal stack ipArr m (.ret appPortMask) (some file) g = .ret g') ↔
      MachineReady m file appPortMask) ∧
      ∀ g', twInitGlobal stack ipArr m (.ret appPortMask) (some file) g = .ret g' →
        Up m appPortMask g g' := by
  refine ⟨⟨fun ⟨g', h⟩ => (twInitGlobal_brings hfile hg h).1, fun hready => ?_⟩,
    fun g' h => (twInitGlobal_brings hfile hg h).2⟩
  obtain ⟨conf, hload, -⟩ :=
    twGetPortConfJsonVals_loaded appPortMask stack ipArr hfile hready.devCount g.eth.toEthPorts
  exact ⟨_, (twInitGlobal_ret hready.devCount hg hload).mpr ⟨hready, rfl⟩⟩

/-- One device that works, on the first socket. -/
def oneDevice : Machine where
  devCount := 1
  devs _ := ⟨1, 1, fun _ => 2, 0, 0, fun _ => 0, fun _ => 0, 0⟩
  rteMalloc _ := true
  rxMempoolName := [0x72]
  txMempoolName := [0x74]
  rxRoom _ := true
  txRoom _ := true
  lcores := ⟨fun e => e = 0, fun _ => 0⟩

def freshGlobals : Globals ℕ where
  eth := { unsetPorts with queues := fun _ => ⟨0, 0, 0⟩, devices := fun _ => ⟨false, [], []⟩ }
  pools := ⟨fun _ => false, fun _ => false⟩
  lcores := staticLcores fun _ => ⟨0, fun _ => 0⟩

lemma freshGlobals_fresh : Fresh freshGlobals :=
  ⟨⟨_, rfl⟩, rfl, fun _ => ⟨rfl, rfl⟩, fun _ => rfl⟩

/-- The file names the one port. -/
lemma oneDevice_ready (appPortMask : UInt16) :
    MachineReady oneDevice (tw0File [repeated 1]) appPortMask := by
  refine ⟨by decide, ⟨rfl, rfl, by decide⟩, fun p hp => ?_⟩
  obtain rfl : p = 0 := by
    have hlt : p.val < 1 := hp.1
    exact Fin.ext (Nat.lt_one_iff.mp hlt)
  exact ⟨⟨_, List.mem_singleton.mpr rfl, rfl⟩, by decide, by decide, le_rfl, rfl, Or.inr rfl,
    le_rfl, le_rfl, le_rfl⟩

theorem twInitGlobal_up_one :
    ∃ g', twInitGlobal (fun _ => 0) (fun _ => 0) oneDevice (.ret 1) (some (tw0File [repeated 1]))
      freshGlobals = .ret g' ∧ g'.eth.devices 0 = ⟨true, [0], [0]⟩ := by
  have hfile : FileWellFormed (tw0File [repeated 1]) :=
    tw0File_wellFormed (List.cons_ne_nil 1 []) (by decide)
  obtain ⟨hiff, hup⟩ := twInitGlobal_up (fun _ => 0) (fun _ => 0) oneDevice hfile
    freshGlobals_fresh 1
  obtain ⟨g', h⟩ := hiff.mpr (oneDevice_ready 1)
  exact ⟨g', h, (hup g' h).device 0 ⟨by decide, by decide⟩⟩

/-- A port without queues that is enabled fails the start, whatever its device is. -/
lemma initPorts_noQueues (m : Machine) (pools : Pools) (st : EthState)
    {ps : List (Fin maxEthPorts)}
    (hqueues : ∀ p, (st.queues p).numRxQueues = 0 ∧ (st.queues p).numTxQueues = 0)
    {p : Fin maxEthPorts} (hp : p ∈ ps) (hen : portEnabled appPortMask p) :
    ∃ failure, (ps.foldlM (initPort m pools appPortMask) st).run = .ret (.error failure) := by
  induction ps generalizing st with
  | nil => exact absurd hp List.not_mem_nil
  | cons i ps ih =>
    rw [List.foldlM_cons]
    by_cases hi : portEnabled appPortMask i
    · have hret := rteEthDevConfigure_zero (m.devs i) (st.devices i)
      have hfails : (initPort m pools appPortMask st i).run =
          .ret (.error (.configure (rteEthDevConfigure (m.devs i) (st.devices i) 0 0)
            (portByte i))) := by
        rw [initPort, if_pos hi]
        dsimp only
        rw [(hqueues i).1, (hqueues i).2]
        exact Start.bind_error (check_error _ hret) _
      exact ⟨_, Start.bind_error hfails _⟩
    · have hskip : initPort m pools appPortMask st i =
          pure { st with availableEthPorts := st.availableEthPorts - 1 } := if_neg hi
      rw [hskip, pure_bind]
      exact ih _ hqueues ((List.mem_cons.mp hp).resolve_left fun h => hi (h ▸ hen))

/-- With its pools the test depends on the devices alone. -/
lemma envSmoke_eq (hg : Fresh g) (hready : PoolsReady m) :
    envSmoke m 0 (.ret (0, appPortMask)) g = (do
      match ← (ethPortInit m firstPools appPortMask g.eth).run with
      | .error _ => .ret (-1)
      | .ok _ => .ret 0) := by
  obtain ⟨txMbufs, hlcores⟩ := hg.lcores
  have hsockets : g.lcores.numNumaSockets = 1 := by rw [hlcores]; rfl
  have hpools := twCreateRxTxMempools_ok.mpr ⟨hready, rfl⟩
  simp only [envSmoke, ne_eq, not_true_eq_false, if_false, Outcome.ret_bind, hsockets, hg.pools,
    hpools]

lemma envSmoke_pools (hg : Fresh g) (h : envSmoke m 0 (.ret (0, appPortMask)) g = .ret 0) :
    PoolsReady m := by
  obtain ⟨txMbufs, hlcores⟩ := hg.lcores
  have hsockets : g.lcores.numNumaSockets = 1 := by rw [hlcores]; rfl
  simp only [envSmoke, ne_eq, not_true_eq_false, if_false, Outcome.ret_bind, hsockets, hg.pools,
    Outcome.bind_eq_ret] at h
  obtain ⟨r, hpools, h⟩ := h
  cases r with
  | error failure => cases Outcome.ret.inj h
  | ok pools => exact (twCreateRxTxMempools_ok.mp hpools).1

/-- The environment test passes exactly where no device is enabled. Where the library starts a
port the test fails: it does not read the file that gives the ports their queues. -/
theorem envSmoke_passes_iff (stack : ℕ → Int) (ipArr : Fin 4 → UInt8) (m : Machine)
    (hfile : FileWellFormed file) (hg : Fresh g) (appPortMask : UInt16) :
    (envSmoke m 0 (.ret (0, appPortMask)) g = .ret 0 ↔ m.devCount ≠ 0 ∧ PoolsReady m ∧
      ∀ p, ¬ Configured appPortMask (portTotal m.devCount).toNat p) ∧
    ∀ g', twInitGlobal stack ipArr m (.ret appPortMask) (some file) g = .ret g' →
      (∃ p, (g'.eth.devices p).started) →
        envSmoke m 0 (.ret (0, appPortMask)) g = .ret (-1) := by
  constructor
  · constructor
    · intro h
      have hready := envSmoke_pools hg h
      rw [envSmoke_eq hg hready, Outcome.bind_eq_ret] at h
      obtain ⟨r, heth, h⟩ := h
      cases r with
      | error failure => cases Outcome.ret.inj h
      | ok eth =>
        obtain ⟨hdev, hports, -⟩ := ethPortInit_ok.mp heth
        refine ⟨hdev, hready, fun p hp => ?_⟩
        have hconf := (hports p hp).configures
        rw [(hg.queues p).1, (hg.queues p).2] at hconf
        exact absurd (rteEthDevConfigure_zero (m.devs p) (g.eth.devices p)) (not_lt.mpr hconf)
    · rintro ⟨hdev, hready, hnone⟩
      rw [envSmoke_eq hg hready, ethPortInit_ok.mpr ⟨hdev, fun p hp => absurd hp (hnone p), rfl⟩]
      rfl
  · rintro g' h ⟨p, hp⟩
    obtain ⟨hready, hup⟩ := twInitGlobal_brings hfile hg h
    have hconf : Configured appPortMask (portTotal m.devCount).toNat p := by
      by_contra hnot
      rw [hup.others p hnot, hg.idle p] at hp
      exact Bool.false_ne_true hp
    obtain ⟨failure, hfails⟩ := initPorts_noQueues m firstPools
      { g.eth with totalEthPorts := portTotal m.devCount
                   availableEthPorts := portTotal m.devCount }
      hg.queues (mem_presentPorts.mpr hconf.1) hconf.2
    rw [envSmoke_eq hg hready.pools, ethPortInit, if_neg hready.devCount]
    dsimp only
    rw [hfails]
    rfl

theorem envSmoke_passes_one :
    envSmoke oneDevice 0 (.ret (0, 1)) freshGlobals = .ret (-1) := by
  have hfile : FileWellFormed (tw0File [repeated 1]) :=
    tw0File_wellFormed (List.cons_ne_nil 1 []) (by decide)
  obtain ⟨conf, hload, -⟩ := twGetPortConfJsonVals_loaded 1 (fun _ => 0) (fun _ => 0) hfile
    (oneDevice_ready 1).devCount freshGlobals.eth.toEthPorts
  have hstart := (twInitGlobal_ret (oneDevice_ready 1).devCount freshGlobals_fresh hload).mpr
    ⟨oneDevice_ready 1, rfl⟩
  have hup := (twInitGlobal_brings hfile freshGlobals_fresh hstart).2
  refine (envSmoke_passes_iff (fun _ => 0) (fun _ => 0) oneDevice hfile freshGlobals_fresh 1).2
    _ hstart ⟨0, ?_⟩
  rw [hup.device 0 ⟨by decide, by decide⟩]

end Start

end Twister
