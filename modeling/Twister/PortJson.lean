import Twister.IpString

/-! The interface configuration file. The tool writes the first address of every
entry of a port, the library keeps the last address of the last one. -/
namespace Twister

section Model

/-- An element of `ip_addrs`. -/
structure IpObject where
  ipAddress : CString
  subnetMask : CString
  gatewayIp : CString

/-- `portName` is `none` when the value is not a string. -/
structure PortObject where
  portName : Option CString
  ipAddrs : List IpObject

structure EthPorts where
  totalEthPorts : UInt8
  availableEthPorts : UInt8
  portInfo : PortTable

/-- The format `tw%d`. -/
def ethString (portInfoCounter : UInt8) : CString :=
  [0x74, 0x77] ++ (Nat.toDigits 10 portInfoCounter.toNat).map fun c => UInt8.ofNat c.toNat

def portEnabled (appPortMask : UInt16) (portId : ℕ) : Bool :=
  appPortMask &&& (1 <<< UInt16.ofNat portId) ≠ 0

/-- `cJSON_GetObjectItem(subitem, key)->valuestring`, which the callers dereference. -/
def valuestring : Option CString → Outcome CString
  | none => .fault
  | some s => .ret s

/-- A loop over a JSON array. Its counter is a byte, which no size above 255 stops. -/
def byteLoop {α β : Type} (body : β → α → Outcome β) (b : β) (items : List α) : Outcome β := do
  let b ← (items.take 256).foldlM body b
  if items.length < 256 then .ret b else .timeout

variable (stack : ℕ → Int) (ipArr : Fin 4 → UInt8)

def loadAddress (info : PortInfo) (subdictip : IpObject) : Outcome PortInfo := do
  let startIpAddr ← twConvertIpStrToDec stack ipArr subdictip.ipAddress
  let gatewayIp ← twConvertIpStrToDec stack ipArr subdictip.gatewayIp
  let subnetMask ← twConvertIpStrToDec stack ipArr subdictip.subnetMask
  .ret { info with startIpAddr, gatewayIp, subnetMask }

def loadEntry (ethName : CString) (info : PortInfo) (subitem : PortObject) : Outcome PortInfo :=
  match subitem.portName with
  | some currPortNameStr =>
    if ethName ≠ currPortNameStr then .ret info
    else byteLoop (loadAddress stack ipArr) info subitem.ipAddrs
  | none => .ret info

/-- The first component is `port_info_counter`. -/
def loadPort (jsonFile : List PortObject) (appPortMask : UInt16) (st : UInt8 × EthPorts)
    (portId : Fin maxEthPorts) : Outcome (UInt8 × EthPorts) :=
  if portEnabled appPortMask portId then do
    let ethName := ethString st.1
    let info ← byteLoop (loadEntry stack ipArr ethName)
      { st.2.portInfo portId with portName := ethName } jsonFile
    .ret (st.1 + 1, { st.2 with portInfo := Function.update st.2.portInfo portId info })
  else .ret (st.1, { st.2 with availableEthPorts := st.2.availableEthPorts - 1 })

def portTotal (devCount : UInt8) : UInt8 :=
  if devCount > UInt8.ofNat maxEthPorts then UInt8.ofNat maxEthPorts else devCount

/-- `jsonFile` is `none` when the file does not parse. -/
def twGetPortConfJsonVals (devCount : UInt8) (appPortMask : UInt16)
    (jsonFile : Option (List PortObject)) (conf : EthPorts) : Outcome (Int × EthPorts) :=
  match jsonFile with
  | none => .ret (-1, conf)
  | some jsonFile =>
    if devCount = 0 then .exit "No Ethernet ports\n"
    else do
      let total := portTotal devCount
      let st ← ((List.finRange maxEthPorts).take total.toNat).foldlM
        (loadPort stack ipArr jsonFile appPortMask)
        (0, { conf with totalEthPorts := total, availableEthPorts := total })
      .ret (0, st.2)

def asText (s : CString) : String := String.ofList (s.map fun c => Char.ofNat c.toNat)

def configureEntry (portName : CString) (address : IpObject) (entry : PortObject) :
    Outcome PortObject :=
  if entry.portName = some portName then
    match entry.ipAddrs with
    | [] => .fault
    | _ :: rest => .ret { entry with ipAddrs := address :: rest }
  else .ret entry

/-- What the tool writes back to the file. -/
def configureInterface (twisterJson : List PortObject) (portName : CString)
    (address : IpObject) : Outcome (List PortObject) := do
  let written ← twisterJson.mapM (configureEntry portName address)
  if twisterJson.any (fun entry => entry.portName = some portName) then .ret written
  else .exit (asText portName ++ " Device not found!")

end Model

/-- The three values of a port that come from the file. -/
structure IpConf where
  startIpAddr : UInt32
  subnetMask : UInt32
  gatewayIp : UInt32
  deriving DecidableEq

def PortInfo.ipConf (info : PortInfo) : IpConf :=
  ⟨info.startIpAddr, info.subnetMask, info.gatewayIp⟩

def PortInfo.put (info : PortInfo) (conf : IpConf) : PortInfo :=
  { info with startIpAddr := conf.startIpAddr, subnetMask := conf.subnetMask,
              gatewayIp := conf.gatewayIp }

/-- The texts are dotted quads of the values. -/
structure IpObject.Denotes (e : IpObject) (conf : IpConf) : Prop where
  ipAddress : Renders e.ipAddress conf.startIpAddr
  subnetMask : Renders e.subnetMask conf.subnetMask
  gatewayIp : Renders e.gatewayIp conf.gatewayIp

structure PortObject.WellFormed (o : PortObject) : Prop where
  nonempty : o.ipAddrs ≠ []
  short : o.ipAddrs.length < 256
  denotes : ∀ e ∈ o.ipAddrs, ∃ conf, e.Denotes conf

structure FileWellFormed (file : List PortObject) : Prop where
  short : file.length < 256
  entry : ∀ o ∈ file, o.WellFormed

/-- All addresses of a port, in the order of the file. -/
def addresses (file : List PortObject) (name : CString) : List IpObject :=
  (file.filter fun o => o.portName = some name).flatMap PortObject.ipAddrs

section Load
variable {stack : ℕ → Int} {ipArr : Fin 4 → UInt8}

lemma byteLoop_eq {α β : Type} {items : List α} (h : items.length < 256)
    (body : β → α → Outcome β) (b : β) : byteLoop body b items = items.foldlM body b := by
  unfold byteLoop
  rw [List.take_of_length_le (by omega)]
  simp only [if_pos h, Outcome.bind_ret]

lemma loadAddress_denotes {e : IpObject} {conf : IpConf} (h : e.Denotes conf) (info : PortInfo) :
    loadAddress stack ipArr info e = .ret (info.put conf) := by
  simp only [loadAddress, twConvertIpStrToDec_renders h.ipAddress,
    twConvertIpStrToDec_renders h.subnetMask, twConvertIpStrToDec_renders h.gatewayIp,
    Outcome.ret_bind, PortInfo.put]

/-- The texts determine the values. -/
lemma IpObject.Denotes.unique {e : IpObject} {conf conf' : IpConf} (h : e.Denotes conf)
    (h' : e.Denotes conf') : conf = conf' := by
  cases conf
  cases conf'
  rw [IpConf.mk.injEq]
  exact ⟨h.ipAddress.unique h'.ipAddress, h.subnetMask.unique h'.subnetMask,
    h.gatewayIp.unique h'.gatewayIp⟩

/-- Each address overwrites the one before. -/
lemma loadAddresses_snoc {es : List IpObject} (hes : ∀ e ∈ es, ∃ conf, e.Denotes conf)
    {e : IpObject} {conf : IpConf} (he : e.Denotes conf) (info : PortInfo) :
    (es ++ [e]).foldlM (loadAddress stack ipArr) info = .ret (info.put conf) := by
  induction es generalizing info with
  | nil =>
    rw [List.nil_append, List.foldlM_cons, loadAddress_denotes he, Outcome.ret_bind]
    rfl
  | cons e' es ih =>
    obtain ⟨conf', he'⟩ := hes e' (by simp)
    rw [List.cons_append, List.foldlM_cons, loadAddress_denotes he', Outcome.ret_bind,
      ih (fun x hx => hes x (by simp [hx]))]
    rfl

lemma loadEntry_eq {o : PortObject} (ho : o.WellFormed) (name : CString) (info : PortInfo) :
    loadEntry stack ipArr name info o =
      (addresses [o] name).foldlM (loadAddress stack ipArr) info := by
  unfold loadEntry addresses
  cases hname : o.portName with
  | none =>
    simp [hname]
    rfl
  | some n =>
    by_cases hn : name = n
    · subst hn
      simp [hname, byteLoop_eq ho.short]
    · simp [hname, hn, Ne.symm hn]
      rfl

lemma addresses_cons (o : PortObject) (file : List PortObject) (name : CString) :
    addresses (o :: file) name = addresses [o] name ++ addresses file name := by
  unfold addresses
  rw [← List.singleton_append, List.filter_append, List.flatMap_append]

lemma loadEntries_eq {file : List PortObject} (hfile : ∀ o ∈ file, o.WellFormed)
    (name : CString) (info : PortInfo) :
    file.foldlM (loadEntry stack ipArr name) info =
      (addresses file name).foldlM (loadAddress stack ipArr) info := by
  induction file generalizing info with
  | nil => rfl
  | cons o file ih =>
    have hrest : ∀ o' ∈ file, o'.WellFormed := fun x hx => hfile x (by simp [hx])
    rw [List.foldlM_cons, loadEntry_eq (hfile o (by simp)), addresses_cons o file,
      List.foldlM_append]
    simp only [ih hrest]

lemma mem_addresses {file : List PortObject} (hfile : ∀ o ∈ file, o.WellFormed) {name : CString}
    {e : IpObject} (he : e ∈ addresses file name) : ∃ conf, e.Denotes conf := by
  obtain ⟨o, ho, heo⟩ := List.mem_flatMap.mp he
  exact (hfile o (List.mem_filter.mp ho).1).denotes e heo

/-- A port gets the last address the file has for its name. -/
lemma loadEntries_last {file : List PortObject} (hfile : FileWellFormed file) {name : CString}
    {e : IpObject} {conf : IpConf} (hlast : (addresses file name).getLast? = some e)
    (he : e.Denotes conf) (info : PortInfo) :
    byteLoop (loadEntry stack ipArr name) info file = .ret (info.put conf) := by
  obtain ⟨es, hes⟩ := List.getLast?_eq_some_iff.mp hlast
  rw [byteLoop_eq hfile.short, loadEntries_eq hfile.entry, hes]
  exact loadAddresses_snoc
    (fun x hx => mem_addresses hfile.entry (by rw [hes]; exact List.mem_append_left _ hx)) he info

lemma loadEntries_absent {file : List PortObject} (hfile : FileWellFormed file) {name : CString}
    (hnone : (addresses file name).getLast? = none) (info : PortInfo) :
    byteLoop (loadEntry stack ipArr name) info file = .ret info := by
  rw [byteLoop_eq hfile.short, loadEntries_eq hfile.entry, List.getLast?_eq_none_iff.mp hnone]
  rfl

variable (stack ipArr) in
lemma loadEntries_ret {file : List PortObject} (hfile : FileWellFormed file) (name : CString)
    (info : PortInfo) :
    ∃ info', byteLoop (loadEntry stack ipArr name) info file = .ret info' ∧
      info'.portName = info.portName := by
  cases hlast : (addresses file name).getLast? with
  | none => exact ⟨_, loadEntries_absent hfile hlast info, rfl⟩
  | some e =>
    obtain ⟨conf, he⟩ := mem_addresses hfile.entry (List.mem_of_getLast? hlast)
    exact ⟨_, loadEntries_last hfile hlast he info, rfl⟩

end Load

section Ports
variable (appPortMask : UInt16)

/-- The number of enabled ports before a port. -/
def enabledBelow : ℕ → UInt8
  | 0 => 0
  | n + 1 => if portEnabled appPortMask n then enabledBelow n + 1 else enabledBelow n

/-- The name an enabled port gets. -/
def nameOf (portId : Fin maxEthPorts) : CString := ethString (enabledBelow appPortMask portId)

/-- The port is among the first `n` and enabled. -/
def Configured (n : ℕ) (portId : Fin maxEthPorts) : Prop :=
  portId.val < n ∧ portEnabled appPortMask portId

variable {appPortMask} {stack : ℕ → Int} {ipArr : Fin 4 → UInt8}

/-- The table after the first `n` ports: a configured port was loaded from its
old contents under its name, the others are as before. -/
structure PortsLoaded (stack : ℕ → Int) (ipArr : Fin 4 → UInt8) (appPortMask : UInt16)
    (file : List PortObject) (n : ℕ) (before after : PortTable) : Prop where
  loaded : ∀ k, Configured appPortMask n k →
    byteLoop (loadEntry stack ipArr (nameOf appPortMask k))
      { before k with portName := nameOf appPortMask k } file = .ret (after k)
  kept : ∀ k, ¬ Configured appPortMask n k → after k = before k

lemma configured_succ {n : ℕ} {k : Fin maxEthPorts} :
    Configured appPortMask (n + 1) k ↔
      Configured appPortMask n k ∨ k.val = n ∧ portEnabled appPortMask k := by
  unfold Configured
  rw [Nat.lt_succ_iff_lt_or_eq, or_and_right]

namespace PortsLoaded
variable {file : List PortObject} {n : ℕ} {before after : PortTable}

lemma enabled (h : PortsLoaded stack ipArr appPortMask file n before after)
    {k : Fin maxEthPorts} (hk : k.val = n) (hen : portEnabled appPortMask k) {info : PortInfo}
    (hload : byteLoop (loadEntry stack ipArr (nameOf appPortMask k))
      { before k with portName := nameOf appPortMask k } file = .ret info) :
    PortsLoaded stack ipArr appPortMask file (n + 1) before (Function.update after k info) := by
  constructor
  · intro j hj
    rcases configured_succ.mp hj with hold | ⟨hval, -⟩
    · have hne : j ≠ k := fun he => absurd hold.1 (by rw [he, hk]; exact lt_irrefl n)
      rw [Function.update_of_ne hne]
      exact h.loaded j hold
    · obtain rfl : j = k := Fin.ext (hval.trans hk.symm)
      rw [Function.update_self]
      exact hload
  · intro j hj
    have hne : j ≠ k := fun he => hj (configured_succ.mpr (Or.inr (by rw [he]; exact ⟨hk, hen⟩)))
    rw [Function.update_of_ne hne]
    exact h.kept j fun hold => hj (configured_succ.mpr (Or.inl hold))

lemma disabled (h : PortsLoaded stack ipArr appPortMask file n before after)
    (hen : ¬ portEnabled appPortMask n) :
    PortsLoaded stack ipArr appPortMask file (n + 1) before after := by
  have hsame : ∀ k, Configured appPortMask (n + 1) k ↔ Configured appPortMask n k := by
    intro k
    rw [configured_succ, or_iff_left]
    rintro ⟨hval, hk⟩
    exact hen (hval ▸ hk)
  exact ⟨fun k hk => h.loaded k ((hsame k).mp hk), fun k hk => h.kept k fun hc =>
    hk ((hsame k).mpr hc)⟩

end PortsLoaded

lemma loadPort_step {file : List PortObject} (hfile : FileWellFormed file) {before : PortTable}
    {conf : EthPorts} {k : Fin maxEthPorts}
    (hports : PortsLoaded stack ipArr appPortMask file k before conf.portInfo) :
    ∃ conf', loadPort stack ipArr file appPortMask (enabledBelow appPortMask k, conf) k =
        .ret (enabledBelow appPortMask (k + 1), conf') ∧
      PortsLoaded stack ipArr appPortMask file (k + 1) before conf'.portInfo := by
  unfold loadPort
  rw [enabledBelow]
  by_cases hen : portEnabled appPortMask k
  · have hfresh : conf.portInfo k = before k := hports.kept k fun h => lt_irrefl _ h.1
    obtain ⟨info, hload, -⟩ := loadEntries_ret stack ipArr hfile (nameOf appPortMask k)
      { before k with portName := nameOf appPortMask k }
    simp only [if_pos hen, hfresh]
    refine ⟨{ conf with portInfo := Function.update conf.portInfo k info }, ?_,
      hports.enabled rfl hen hload⟩
    unfold nameOf at hload
    rw [hload]
    rfl
  · simp only [if_neg hen]
    exact ⟨_, rfl, hports.disabled hen⟩

lemma finRange_take_succ {m n : ℕ} (hn : n < m) :
    (List.finRange m).take (n + 1) = (List.finRange m).take n ++ [⟨n, hn⟩] := by
  rw [List.take_add_one]
  simp [hn]

variable (appPortMask stack ipArr) in
lemma loadPorts_take {file : List PortObject} (hfile : FileWellFormed file) (conf : EthPorts)
    {n : ℕ} (hn : n ≤ maxEthPorts) :
    ∃ conf', ((List.finRange maxEthPorts).take n).foldlM
        (loadPort stack ipArr file appPortMask) (0, conf) =
          .ret (enabledBelow appPortMask n, conf') ∧
      PortsLoaded stack ipArr appPortMask file n conf.portInfo conf'.portInfo := by
  induction n with
  | zero => exact ⟨conf, rfl, fun k hk => absurd hk.1 (Nat.not_lt_zero _), fun k _ => rfl⟩
  | succ n ih =>
    obtain ⟨conf₁, hrun, hports⟩ := ih (Nat.le_of_succ_le hn)
    obtain ⟨conf', hstep, hports'⟩ := loadPort_step hfile (k := ⟨n, hn⟩) hports
    refine ⟨conf', ?_, hports'⟩
    rw [finRange_take_succ hn, List.foldlM_append, hrun, Outcome.ret_bind, List.foldlM_cons, hstep]
    rfl

lemma portTotal_le (devCount : UInt8) : (portTotal devCount).toNat ≤ maxEthPorts := by
  have hmax : (UInt8.ofNat maxEthPorts).toNat = maxEthPorts := rfl
  unfold portTotal
  split
  · exact hmax.le
  · rename_i h
    exact UInt8.le_iff_toNat_le.mp (UInt8.not_lt.mp h)

variable (appPortMask stack ipArr) in
theorem twGetPortConfJsonVals_loaded {file : List PortObject} (hfile : FileWellFormed file)
    {devCount : UInt8} (hdev : devCount ≠ 0) (conf : EthPorts) :
    ∃ conf', twGetPortConfJsonVals stack ipArr devCount appPortMask (some file) conf =
        .ret (0, conf') ∧
      PortsLoaded stack ipArr appPortMask file (portTotal devCount).toNat conf.portInfo
        conf'.portInfo := by
  obtain ⟨conf', hrun, hports⟩ := loadPorts_take appPortMask stack ipArr hfile
    { conf with totalEthPorts := portTotal devCount, availableEthPorts := portTotal devCount }
    (portTotal_le devCount)
  refine ⟨conf', ?_, hports⟩
  simp only [twGetPortConfJsonVals, if_neg hdev]
  rw [hrun]
  rfl

lemma PortsLoaded.portName {file : List PortObject} (hfile : FileWellFormed file) {n : ℕ}
    {before after : PortTable}
    (h : PortsLoaded stack ipArr appPortMask file n before after) {k : Fin maxEthPorts}
    (hk : Configured appPortMask n k) : (after k).portName = nameOf appPortMask k := by
  obtain ⟨info, hload, hname⟩ := loadEntries_ret stack ipArr hfile (nameOf appPortMask k)
    { before k with portName := nameOf appPortMask k }
  rw [h.loaded k hk] at hload
  rw [Outcome.ret.inj hload, hname]

lemma PortsLoaded.ipConf_last {file : List PortObject} (hfile : FileWellFormed file) {n : ℕ}
    {before after : PortTable} (h : PortsLoaded stack ipArr appPortMask file n before after)
    {k : Fin maxEthPorts} (hk : Configured appPortMask n k) {e : IpObject} {conf : IpConf}
    (hlast : (addresses file (nameOf appPortMask k)).getLast? = some e) (he : e.Denotes conf) :
    (after k).ipConf = conf := by
  have hload := h.loaded k hk
  rw [loadEntries_last hfile hlast he] at hload
  rw [← Outcome.ret.inj hload]
  rfl

/-- Two files with the same addresses for its name give a port the same entry. -/
lemma PortsLoaded.congr {file file' : List PortObject} (hfile : FileWellFormed file)
    (hfile' : FileWellFormed file') {n : ℕ} {start before after : PortTable}
    (h : PortsLoaded stack ipArr appPortMask file n start before)
    (h' : PortsLoaded stack ipArr appPortMask file' n start after) {k : Fin maxEthPorts}
    (hk : Configured appPortMask n k)
    (hsame : addresses file' (nameOf appPortMask k) = addresses file (nameOf appPortMask k)) :
    after k = before k := by
  have hold := h.loaded k hk
  have hnew := h'.loaded k hk
  rw [byteLoop_eq hfile.short, loadEntries_eq hfile.entry] at hold
  rw [byteLoop_eq hfile'.short, loadEntries_eq hfile'.entry, hsame, hold] at hnew
  exact (Outcome.ret.inj hnew).symm

end Ports

section Write

/-- The entry after the tool changed its first address. -/
def PortObject.configured (p : CString) (address : IpObject) (o : PortObject) : PortObject :=
  if o.portName = some p then { o with ipAddrs := address :: o.ipAddrs.tail } else o

variable {p : CString} {address : IpObject} {conf : IpConf} {file : List PortObject}

lemma PortObject.configured_portName (o : PortObject) :
    (o.configured p address).portName = o.portName := by
  unfold PortObject.configured
  split <;> rfl

lemma configureEntry_eq {o : PortObject} (h : o.ipAddrs ≠ []) :
    configureEntry p address o = .ret (o.configured p address) := by
  unfold configureEntry PortObject.configured
  by_cases hp : o.portName = some p
  · obtain ⟨e, es, hes⟩ := List.exists_cons_of_ne_nil h
    rw [if_pos hp, if_pos hp, hes]
    rfl
  · rw [if_neg hp, if_neg hp]

lemma configureEntries_eq (h : ∀ o ∈ file, o.ipAddrs ≠ []) :
    file.mapM (configureEntry p address) = .ret (file.map (PortObject.configured p address)) := by
  induction file with
  | nil => rfl
  | cons o file ih =>
    rw [List.mapM_cons, configureEntry_eq (h o (by simp)), ih fun x hx => h x (by simp [hx])]
    rfl

lemma configureInterface_found (h : ∀ o ∈ file, o.ipAddrs ≠ [])
    (hp : ∃ o ∈ file, o.portName = some p) :
    configureInterface file p address = .ret (file.map (PortObject.configured p address)) := by
  have hany : file.any (fun o => o.portName = some p) = true := by simpa using hp
  simp only [configureInterface, configureEntries_eq h, hany, if_true, Outcome.ret_bind]

lemma PortObject.WellFormed.configured {o : PortObject} (ho : o.WellFormed)
    (ha : address.Denotes conf) : (o.configured p address).WellFormed := by
  unfold PortObject.configured
  split
  · refine ⟨List.cons_ne_nil _ _, ?_, ?_⟩
    · have hshort := ho.short
      have hpos := List.length_pos_iff.mpr ho.nonempty
      simp only [List.length_cons, List.length_tail]
      omega
    · intro e he
      rcases List.mem_cons.mp he with rfl | hmem
      · exact ⟨conf, ha⟩
      · exact ho.denotes e (List.mem_of_mem_tail hmem)
  · exact ho

/-- The tool writes a well-formed file. -/
lemma FileWellFormed.configured (hfile : FileWellFormed file) (ha : address.Denotes conf) :
    FileWellFormed (file.map (PortObject.configured p address)) := by
  refine ⟨by rw [List.length_map]; exact hfile.short, ?_⟩
  intro o ho
  obtain ⟨o', ho', rfl⟩ := List.mem_map.mp ho
  exact (hfile.entry o' ho').configured ha

lemma filter_configured (q : CString) :
    (file.map (PortObject.configured p address)).filter (fun o => o.portName = some q) =
      (file.filter fun o => o.portName = some q).map (PortObject.configured p address) := by
  rw [List.filter_map]
  congr 1
  apply List.filter_congr
  intro o _
  simp only [Function.comp_apply, PortObject.configured_portName]

lemma addresses_configured_ne {q : CString} (hq : q ≠ p) :
    addresses (file.map (PortObject.configured p address)) q = addresses file q := by
  unfold addresses
  rw [filter_configured, List.flatMap_map]
  apply List.flatMap_congr
  intro o ho
  have hname : o.portName = some q := by simpa using (List.mem_filter.mp ho).2
  have hne : o.portName ≠ some p := by
    rw [hname]
    exact fun h => hq (Option.some.inj h)
  rw [PortObject.configured, if_neg hne]

lemma addresses_getLast {q : CString} {o : PortObject} (ho : o.ipAddrs ≠ [])
    (hlast : (file.filter fun o => o.portName = some q).getLast? = some o) :
    (addresses file q).getLast? = o.ipAddrs.getLast? := by
  obtain ⟨os, hos⟩ := List.getLast?_eq_some_iff.mp hlast
  unfold addresses
  rw [hos, List.flatMap_append, List.flatMap_singleton, List.getLast?_append_of_ne_nil _ ho]

/-- The last entry of the port has one address, or its last one already denotes
the values. -/
def LastEntryAgrees (file : List PortObject) (p : CString) (conf : IpConf) : Prop :=
  ∀ o, (file.filter fun o => o.portName = some p).getLast? = some o →
    o.ipAddrs.length = 1 ∨ ∃ e, o.ipAddrs.getLast? = some e ∧ e.Denotes conf

lemma exists_last_entry (hp : ∃ o ∈ file, o.portName = some p) :
    ∃ o ∈ file, o.portName = some p ∧
      (file.filter fun o => o.portName = some p).getLast? = some o := by
  obtain ⟨o, ho, hname⟩ := hp
  have hne : (file.filter fun o => o.portName = some p) ≠ [] :=
    List.ne_nil_of_mem (List.mem_filter.mpr ⟨ho, by simpa using hname⟩)
  obtain ⟨o', hlast⟩ := Option.ne_none_iff_exists'.mp (mt List.getLast?_eq_none_iff.mp hne)
  have hmem := List.mem_filter.mp (List.mem_of_getLast? hlast)
  exact ⟨o', hmem.1, by simpa using hmem.2, hlast⟩

/-- What the library reads for the port after the tool has written. -/
lemma addresses_configured_self (hfile : FileWellFormed file) (ha : address.Denotes conf)
    (hp : ∃ o ∈ file, o.portName = some p) :
    ∃ e conf', (addresses (file.map (PortObject.configured p address)) p).getLast? = some e ∧
      e.Denotes conf' ∧ (conf' = conf ↔ LastEntryAgrees file p conf) := by
  obtain ⟨o, hmem, hname, hlast⟩ := exists_last_entry hp
  have hafter : (addresses (file.map (PortObject.configured p address)) p).getLast? =
      (address :: o.ipAddrs.tail).getLast? := by
    have hset : o.configured p address = { o with ipAddrs := address :: o.ipAddrs.tail } :=
      if_pos hname
    have hlast' := congrArg (Option.map (PortObject.configured p address)) hlast
    rw [← List.getLast?_map, ← filter_configured, Option.map_some, hset] at hlast'
    exact addresses_getLast (List.cons_ne_nil _ _) hlast'
  have hagrees : LastEntryAgrees file p conf ↔
      o.ipAddrs.length = 1 ∨ ∃ e, o.ipAddrs.getLast? = some e ∧ e.Denotes conf := by
    unfold LastEntryAgrees
    rw [hlast]
    simp
  rw [hafter, hagrees]
  have hwf := hfile.entry o hmem
  match hes : o.ipAddrs with
  | [] => exact absurd hes hwf.nonempty
  | [_] => exact ⟨address, conf, rfl, ha, by simp⟩
  | x :: y :: ys =>
    obtain ⟨e, he⟩ := Option.ne_none_iff_exists'.mp
      (mt List.getLast?_eq_none_iff.mp (List.cons_ne_nil y ys))
    obtain ⟨conf', hden⟩ := hwf.denotes e
      (by rw [hes]; exact List.mem_cons_of_mem x (List.mem_of_getLast? he))
    refine ⟨e, conf', by simpa using he, hden, ?_⟩
    constructor
    · rintro rfl
      exact Or.inr ⟨e, by simpa using he, hden⟩
    · rintro (hone | ⟨e', he', hden'⟩)
      · simp at hone
      · obtain rfl : e = e' := by simpa [he] using he'
        exact hden.unique hden'

end Write

section Agreement

/-- The tool returns, and the library then gives the port of that name the values
written and every other enabled port the values it would have got before. -/
def LoadedAsWritten (stack : ℕ → Int) (ipArr : Fin 4 → UInt8) (devCount : UInt8)
    (appPortMask : UInt16) (ports : EthPorts) (file : List PortObject) (p : CString)
    (address : IpObject) (conf : IpConf) : Prop :=
  ∃ file', configureInterface file p address = .ret file' ∧
    (devCount ≠ 0 → ∃ before after,
      twGetPortConfJsonVals stack ipArr devCount appPortMask (some file) ports =
        .ret (0, before) ∧
      twGetPortConfJsonVals stack ipArr devCount appPortMask (some file') ports =
        .ret (0, after) ∧
      ∀ k, Configured appPortMask (portTotal devCount).toNat k →
        (after.portInfo k).ipConf =
          if (after.portInfo k).portName = p then conf else (before.portInfo k).ipConf)

/-- Some enabled port gets the name. -/
def NamesEnabled (devCount : UInt8) (appPortMask : UInt16) (p : CString) : Prop :=
  ∃ k, Configured appPortMask (portTotal devCount).toNat k ∧ nameOf appPortMask k = p

/-- The tool and the library agree on a file exactly when the port is not in use or its
last address is the one written. -/
theorem configureInterface_loaded_iff (stack : ℕ → Int) (ipArr : Fin 4 → UInt8)
    (devCount : UInt8) (appPortMask : UInt16) (ports : EthPorts) {file : List PortObject}
    (hfile : FileWellFormed file) {p : CString} (hp : ∃ o ∈ file, o.portName = some p)
    {address : IpObject} {conf : IpConf} (ha : address.Denotes conf) :
    LoadedAsWritten stack ipArr devCount appPortMask ports file p address conf ↔
      (NamesEnabled devCount appPortMask p → LastEntryAgrees file p conf) := by
  have hfile' : FileWellFormed (file.map (PortObject.configured p address)) := hfile.configured ha
  obtain ⟨e, conf', hlast, hden, hiff⟩ := addresses_configured_self hfile ha hp
  rw [LoadedAsWritten, configureInterface_found (fun o ho => (hfile.entry o ho).nonempty) hp]
  constructor
  · rintro ⟨_, ⟨⟩, hload⟩ ⟨k, hk, hname⟩
    have hdev : devCount ≠ 0 := by
      rintro rfl
      exact Nat.not_lt_zero _ hk.1
    obtain ⟨_, after, -, hrun, hall⟩ := hload hdev
    obtain ⟨after', hrun', hports⟩ :=
      twGetPortConfJsonVals_loaded appPortMask stack ipArr hfile' hdev ports
    obtain rfl : after' = after := by simpa [hrun] using hrun'.symm
    have hval := hall k hk
    rw [if_pos ((hports.portName hfile' hk).trans hname),
      hports.ipConf_last hfile' hk (hname ▸ hlast) hden] at hval
    exact hiff.mp hval
  · intro hcond
    refine ⟨_, rfl, fun hdev => ?_⟩
    obtain ⟨before, hrun, hports⟩ :=
      twGetPortConfJsonVals_loaded appPortMask stack ipArr hfile hdev ports
    obtain ⟨after, hrun', hports'⟩ :=
      twGetPortConfJsonVals_loaded appPortMask stack ipArr hfile' hdev ports
    refine ⟨before, after, hrun, hrun', fun k hk => ?_⟩
    rw [hports'.portName hfile' hk]
    by_cases hname : nameOf appPortMask k = p
    · rw [if_pos hname, hports'.ipConf_last hfile' hk (hname ▸ hlast) hden]
      exact hiff.mpr (hcond ⟨k, hk, hname⟩)
    · rw [if_neg hname, hports.congr hfile hfile' hports' hk (addresses_configured_ne hname)]

def oneDigit (d : Fin 10) : Octet :=
  ⟨[d], le_rfl, by simp, by have := d.isLt; simp only [List.foldl_cons, List.foldl_nil]; omega⟩

/-- The quad that repeats a digit, for all three texts. -/
def repeated (d : Fin 10) : IpObject :=
  let text := dottedQuad (oneDigit d) (oneDigit d) (oneDigit d) (oneDigit d)
  ⟨text, text, text⟩

def repeatedConf (d : Fin 10) : IpConf :=
  let ip := twIpArrToDec fun _ => UInt8.ofNat d.val
  ⟨ip, ip, ip⟩

lemma repeated_denotes (d : Fin 10) : (repeated d).Denotes (repeatedConf d) := by
  have h : Renders (repeated d).ipAddress (repeatedConf d).startIpAddr := by
    refine ⟨oneDigit d, oneDigit d, oneDigit d, oneDigit d, rfl, ?_⟩
    revert d
    decide
  exact ⟨h, h, h⟩

def tw0File (es : List IpObject) : List PortObject := [⟨some (ethString 0), es⟩]

lemma tw0File_wellFormed {ds : List (Fin 10)} (hne : ds ≠ []) (hshort : ds.length < 256) :
    FileWellFormed (tw0File (ds.map repeated)) := by
  refine ⟨by simp [tw0File], fun o ho => ?_⟩
  obtain rfl := List.mem_singleton.mp ho
  refine ⟨by simpa using hne, by simpa using hshort, fun e he => ?_⟩
  obtain ⟨d, -, rfl⟩ := List.mem_map.mp he
  exact ⟨_, repeated_denotes d⟩

def unsetPorts : EthPorts := ⟨0, 0, fun _ => ⟨fun _ => 0, [], 0, 0, 0⟩⟩

theorem configureInterface_loaded_tw0 :
    LoadedAsWritten (fun _ => 0) (fun _ => 0) 1 1 unsetPorts (tw0File [repeated 1]) (ethString 0)
      (repeated 3) (repeatedConf 3) := by
  have hfile : FileWellFormed (tw0File ([1].map repeated)) :=
    tw0File_wellFormed (by decide) (by decide)
  apply (configureInterface_loaded_iff _ _ _ _ _ hfile ⟨_, List.mem_singleton.mpr rfl, rfl⟩
    (repeated_denotes 3)).mpr
  rintro - o ho
  obtain rfl : _ = o := Option.some.inj ho
  exact Or.inl rfl

/-- The second address of the entry hides the one that was written. -/
theorem configureInterface_not_loaded :
    FileWellFormed (tw0File [repeated 1, repeated 2]) ∧ (repeated 3).Denotes (repeatedConf 3) ∧
    ¬ LoadedAsWritten (fun _ => 0) (fun _ => 0) 1 1 unsetPorts
      (tw0File [repeated 1, repeated 2]) (ethString 0) (repeated 3) (repeatedConf 3) := by
  have hfile : FileWellFormed (tw0File ([1, 2].map repeated)) :=
    tw0File_wellFormed (by decide) (by decide)
  have hfile' : FileWellFormed (tw0File ([3, 2].map repeated)) :=
    tw0File_wellFormed (by decide) (by decide)
  refine ⟨hfile, repeated_denotes 3, ?_⟩
  rintro ⟨_, ⟨⟩, hload⟩
  obtain ⟨_, after, -, hrun, hall⟩ := hload (by decide)
  obtain ⟨after', hrun', hports⟩ :=
    twGetPortConfJsonVals_loaded 1 (fun _ => 0) (fun _ => 0) hfile' (by decide : (1 : UInt8) ≠ 0)
      unsetPorts
  obtain rfl : after' = after := (Prod.mk.inj (Outcome.ret.inj (hrun'.symm.trans hrun))).2
  have hk : Configured 1 (portTotal 1).toNat 0 := ⟨by decide, by decide⟩
  have hname : (after'.portInfo 0).portName = ethString 0 := hports.portName hfile' hk
  have hval := hall 0 hk
  rw [if_pos hname, hports.ipConf_last hfile' hk rfl (repeated_denotes 2)] at hval
  exact absurd hval (by decide)

end Agreement
end Twister
