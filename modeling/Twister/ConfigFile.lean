import Twister.CJsonSafe
import Twister.PortJson

/-! The configuration file from its bytes on: the file is read to a block, the block to items,
and the items are looked up by name. On every text of a configuration the ports are loaded as
from the list of its entries. -/
namespace Twister
open CJson

section Model

/-- An item with its `child`. -/
abbrev Item := Fields × Items

/-- The block has one byte behind the file, which is not written. -/
def twRegisterfile (lastByte : UInt8) : Option (List UInt8) → Outcome Ptr
  | none => .exit "No file with specified name found\n"
  | some data => .ret (data ++ [lastByte])

variable (ok : ℕ → Bool)

def twParseJsonFile (m : Alloc) (lastByte : UInt8) (file : Option (List UInt8)) :
    Outcome (Option Item) := do
  let rawjson ← twRegisterfile lastByte file
  let (_, parsed) ← parse ok m rawjson
  .ret (parsed.map fun (item, child, _) => (item, child))

/-- `cJSON_GetObjectItem(item, string)`, which every caller dereferences. -/
def getObjectItem (item : Item) (string : CString) : Outcome Item :=
  match item.2.getObjectItem string with
  | none => .fault
  | some found => .ret found

/-- A loop over `cJSON_GetArrayItem(array, i)` with a byte for `i`. -/
def arrayLoop {β : Type} (body : β → Item → Outcome β) (b : β) (array : Item) : Outcome β :=
  byteLoop (fun b i =>
    match array.2.getArrayItem i with
    | none => .fault
    | some item => body b item) b (List.range array.2.getArraySize)

/-- The names `port_name`, `ip_addrs`, `ip_address`, `gateway_ip` and `subnet_mask`. -/
def portNameKey : CString := [0x70, 0x6f, 0x72, 0x74, 0x5f, 0x6e, 0x61, 0x6d, 0x65]
def ipAddrsKey : CString := [0x69, 0x70, 0x5f, 0x61, 0x64, 0x64, 0x72, 0x73]
def ipAddressKey : CString := [0x69, 0x70, 0x5f, 0x61, 0x64, 0x64, 0x72, 0x65, 0x73, 0x73]
def gatewayIpKey : CString := [0x67, 0x61, 0x74, 0x65, 0x77, 0x61, 0x79, 0x5f, 0x69, 0x70]
def subnetMaskKey : CString := [0x73, 0x75, 0x62, 0x6e, 0x65, 0x74, 0x5f, 0x6d, 0x61, 0x73, 0x6b]

variable (stack : ℕ → Int) (ipArr : Fin 4 → UInt8)

def itemIp (subdictip : Item) (string : CString) : Outcome UInt32 := do
  let item ← getObjectItem subdictip string
  let ipStr ← valuestring item.1.valuestring
  twConvertIpStrToDec stack ipArr ipStr

def itemAddress (info : PortInfo) (subdictip : Item) : Outcome PortInfo := do
  let startIpAddr ← itemIp stack ipArr subdictip ipAddressKey
  let gatewayIp ← itemIp stack ipArr subdictip gatewayIpKey
  let subnetMask ← itemIp stack ipArr subdictip subnetMaskKey
  .ret { info with startIpAddr, gatewayIp, subnetMask }

def itemEntry (ethName : CString) (info : PortInfo) (subitem : Item) : Outcome PortInfo := do
  let name ← getObjectItem subitem portNameKey
  match name.1.valuestring with
  | some currPortNameStr =>
    if ethName ≠ currPortNameStr then .ret info
    else
      let ipAddrs ← getObjectItem subitem ipAddrsKey
      arrayLoop (itemAddress stack ipArr) info ipAddrs
  | none => .ret info

def itemPort (jsonFile : Item) (appPortMask : UInt16) (st : UInt8 × EthPorts)
    (portId : Fin maxEthPorts) : Outcome (UInt8 × EthPorts) :=
  if portEnabled appPortMask portId then do
    let ethName := ethString st.1
    let info ← arrayLoop (itemEntry stack ipArr ethName)
      { st.2.portInfo portId with portName := ethName } jsonFile
    .ret (st.1 + 1, { st.2 with portInfo := Function.update st.2.portInfo portId info })
  else .ret (st.1, { st.2 with availableEthPorts := st.2.availableEthPorts - 1 })

/-- `tw_get_port_conf_json_vals` on the bytes of the file. -/
def twGetPortConfFileVals (m : Alloc) (lastByte : UInt8) (devCount : UInt8) (appPortMask : UInt16)
    (file : Option (List UInt8)) (conf : EthPorts) : Outcome (Int × EthPorts) := do
  match ← twParseJsonFile ok m lastByte file with
  | none => .ret (-1, conf)
  | some jsonFile =>
    if devCount = 0 then .exit "No Ethernet ports\n"
    else do
      let total := portTotal devCount
      let st ← ((List.finRange maxEthPorts).take total.toNat).foldlM
        (itemPort stack ipArr jsonFile appPortMask)
        (0, { conf with totalEthPorts := total, availableEthPorts := total })
      .ret (0, st.2)

end Model

section Nodes

/-- The item of a value: what the callers read of it. -/
structure IsItem (item : Item) (v : Json .value) : Prop where
  valuestring : item.1.valuestring = v.str?.map Subtype.val
  child : item.2 = itemsOf v

lemma isItem_fieldsOf {item : Fields} (hitem : item.valuestring = none) (v : Json .value) :
    IsItem (fieldsOf v item, itemsOf v) v := by
  refine ⟨?_, rfl⟩
  cases v with
  | bool b => cases b <;> exact hitem
  | str s => rfl
  | _ => exact hitem

lemma getArraySize_itemsOf {k : Shape} (v : Json k) :
    (itemsOf v).getArraySize = v.children.length := by
  induction v with
  | array es ih => exact ih
  | object ms ih => exact ih
  | elem v es _ ih => exact congrArg (· + 1) ih
  | member name v ms _ ih => exact congrArg (· + 1) ih
  | _ => rfl

lemma getArrayItem_itemsOf {k : Shape} {v : Json k} {i : ℕ} {u : Json .value}
    (h : v.children[i]? = some u) :
    ∃ item, (itemsOf v).getArrayItem i = some item ∧ IsItem item u := by
  induction v generalizing i with
  | array es ih => exact ih h
  | object ms ih => exact ih h
  | elem v es _ ih =>
    cases i with
    | zero =>
      obtain rfl := Option.some.inj h
      exact ⟨_, rfl, isItem_fieldsOf rfl v⟩
    | succ i => exact ih h
  | member name v ms _ ih =>
    cases i with
    | zero =>
      obtain rfl := Option.some.inj h
      exact ⟨_, rfl, isItem_fieldsOf rfl v⟩
    | succ i => exact ih h
  | _ => cases h

/-- A name that `cJSON_GetObjectItem` takes for `string`. -/
def named (string : CString) (name : Str) : Bool := sameName (some name.1) string

lemma getObjectItem_itemsOf {k : Shape} {v : Json k} {string : CString} {u : Json .value}
    (h : v.find? (named string) = some u) :
    ∃ item, (itemsOf v).getObjectItem string = some item ∧ IsItem item u := by
  induction v with
  | array es => cases h
  | object ms ih => exact ih h
  | elem v es => cases h
  | member name v ms _ ih =>
    have hname : (fieldsOf v (namedItem name)).string = some name.1 := by
      cases v with
      | bool b => cases b <;> rfl
      | _ => rfl
    rw [Json.find?] at h
    rw [itemsOf, Items.getObjectItem, hname]
    by_cases hn : named string name = true
    · rw [if_pos hn] at h
      obtain rfl := Option.some.inj h
      exact ⟨_, if_pos hn, isItem_fieldsOf rfl v⟩
    · rw [if_neg hn] at h
      obtain ⟨item, hitem, hisItem⟩ := ih h
      exact ⟨item, (if_neg hn).trans hitem, hisItem⟩
  | _ => cases h

lemma IsItem.getObjectItem {item : Item} {v u : Json .value} (h : IsItem item v)
    {string : CString} (hfind : v.find? (named string) = some u) :
    ∃ found, getObjectItem item string = .ret found ∧ IsItem found u := by
  obtain ⟨found, hfound, hisItem⟩ := getObjectItem_itemsOf hfind
  refine ⟨found, ?_, hisItem⟩
  rw [Twister.getObjectItem, h.child, hfound]

lemma foldlM_range {α β : Type} {items : List α} {g : β → ℕ → Outcome β}
    {f : β → α → Outcome β} (h : ∀ i a, items[i]? = some a → ∀ b, g b i = f b a) (b : β) :
    (List.range items.length).foldlM g b = items.foldlM f b := by
  induction items using List.reverseRecOn generalizing b with
  | nil => rfl
  | append_singleton items a ih =>
    have hinit : ∀ i a', items[i]? = some a' → ∀ b, g b i = f b a' := fun i a' hi =>
      h i a' (by rw [List.getElem?_append_left (List.getElem?_eq_some_iff.mp hi).1, hi])
    have hlast : ∀ b, g b items.length = f b a := h items.length a (by simp)
    rw [List.length_append, List.length_singleton, List.range_succ, List.foldlM_append,
      List.foldlM_append, ih hinit]
    simp only [List.foldlM_cons, List.foldlM_nil, hlast]

/-- A loop over the items of related objects does what the loop over the objects does. -/
lemma arrayLoop_eq {α β : Type} {R : Json .value → α → Prop} {body : β → Item → Outcome β}
    {f : β → α → Outcome β} (hbody : ∀ b item u a, IsItem item u → R u a → body b item = f b a)
    {array : Item} {v : Json .value} (harray : IsItem array v) {objects : List α}
    (hobjects : List.Forall₂ R v.children objects) (b : β) :
    arrayLoop body b array = byteLoop f b objects := by
  have hlen : array.2.getArraySize = objects.length := by
    rw [harray.child, getArraySize_itemsOf, hobjects.length_eq]
  have htake : (List.range objects.length).take 256 =
      List.range (objects.take 256).length := by
    rw [List.take_range, List.length_take]
  unfold arrayLoop byteLoop
  rw [hlen, htake, List.length_range, foldlM_range]
  intro i a ha b
  have hi : objects[i]? = some a := by
    rw [List.getElem?_take] at ha
    split at ha
    · exact ha
    · cases ha
  obtain ⟨hlt, hget⟩ := List.getElem?_eq_some_iff.mp hi
  have hchild : i < v.children.length := hobjects.length_eq ▸ hlt
  obtain ⟨item, hitem, hisItem⟩ := getArrayItem_itemsOf (List.getElem?_eq_getElem hchild)
  have hR := (List.forall₂_iff_get.mp hobjects).2 i hchild hlt
  rw [harray.child, hitem]
  exact hbody b item _ a hisItem (hget ▸ hR)

end Nodes

section Refinement
variable {ok : ℕ → Bool} {stack : ℕ → Int} {ipArr : Fin 4 → UInt8}

/-- The value of the member of that name is a string. -/
def HasText (v : Json .value) (string : CString) (s : CString) : Prop :=
  ∃ text : Str, v.find? (named string) = some (.str text) ∧ text.1 = s

structure DescribesIp (v : Json .value) (o : IpObject) : Prop where
  ipAddress : HasText v ipAddressKey o.ipAddress
  subnetMask : HasText v subnetMaskKey o.subnetMask
  gatewayIp : HasText v gatewayIpKey o.gatewayIp

/-- The addresses are looked up in an entry whose name is a string. -/
structure DescribesPort (v : Json .value) (o : PortObject) : Prop where
  portName : ∃ u, v.find? (named portNameKey) = some u ∧ o.portName = u.str?.map Subtype.val
  ipAddrs : o.portName ≠ none →
    ∃ u, v.find? (named ipAddrsKey) = some u ∧ List.Forall₂ DescribesIp u.children o.ipAddrs

/-- The value holds these entries. -/
def DescribesFile (v : Json .value) (file : List PortObject) : Prop :=
  List.Forall₂ DescribesPort v.children file

lemma itemIp_eq {item : Item} {v : Json .value} (hitem : IsItem item v) {string s : CString}
    (h : HasText v string s) :
    itemIp stack ipArr item string = twConvertIpStrToDec stack ipArr s := by
  obtain ⟨text, hfind, rfl⟩ := h
  obtain ⟨found, hfound, hisItem⟩ := hitem.getObjectItem hfind
  rw [itemIp, hfound, Outcome.ret_bind, hisItem.valuestring]
  rfl

lemma itemAddress_eq (info : PortInfo) (item : Item) (v : Json .value) (o : IpObject)
    (hitem : IsItem item v) (h : DescribesIp v o) :
    itemAddress stack ipArr info item = loadAddress stack ipArr info o := by
  rw [itemAddress, itemIp_eq hitem h.ipAddress, itemIp_eq hitem h.gatewayIp,
    itemIp_eq hitem h.subnetMask, loadAddress]

lemma itemEntry_eq (ethName : CString) (info : PortInfo) (item : Item) (v : Json .value)
    (o : PortObject) (hitem : IsItem item v) (h : DescribesPort v o) :
    itemEntry stack ipArr ethName info item = loadEntry stack ipArr ethName info o := by
  obtain ⟨u, hfind, hname⟩ := h.portName
  obtain ⟨found, hfound, hisItem⟩ := hitem.getObjectItem hfind
  rw [itemEntry, hfound, Outcome.ret_bind, hisItem.valuestring, ← hname, loadEntry]
  cases hport : o.portName with
  | none => rfl
  | some name =>
    dsimp only
    by_cases hne : ethName ≠ name
    · rw [if_pos hne, if_pos hne]
    · rw [if_neg hne, if_neg hne]
      obtain ⟨a, hfind', haddrs⟩ := h.ipAddrs (by rw [hport]; exact Option.some_ne_none name)
      obtain ⟨array, harray, hisItem'⟩ := hitem.getObjectItem hfind'
      rw [harray, Outcome.ret_bind]
      exact arrayLoop_eq itemAddress_eq hisItem' haddrs info

lemma itemPort_eq {jsonFile : Item} {v : Json .value} (hisItem : IsItem jsonFile v)
    {file : List PortObject} (hfile : DescribesFile v file) (appPortMask : UInt16) :
    itemPort stack ipArr jsonFile appPortMask = loadPort stack ipArr file appPortMask := by
  have hloop : ∀ name info, arrayLoop (itemEntry stack ipArr name) info jsonFile =
      byteLoop (loadEntry stack ipArr name) info file :=
    fun name info => arrayLoop_eq (itemEntry_eq name) hisItem hfile info
  funext st portId
  simp only [itemPort, loadPort, hloop]

lemma twParseJsonFile_text (hok : Plenty ok) {v : Json .value} {w t rest : List UInt8}
    (hw : Json.Ws w) (ht : Json.Text v t) {lastByte : UInt8} (hends : Ends v (rest ++ [lastByte]))
    (m : Alloc) :
    twParseJsonFile ok m lastByte (some (w ++ (t ++ rest))) =
      .ret (some (fieldsOf v newItem, itemsOf v)) := by
  obtain ⟨mem, hparse⟩ := parse_text hok hw ht hends m
  have hblock : w ++ (t ++ rest) ++ [lastByte] = w ++ (t ++ (rest ++ [lastByte])) := by
    simp only [List.append_assoc]
  rw [twParseJsonFile, twRegisterfile, hblock, Outcome.ret_bind, hparse]
  rfl

/-- On every text of a file the ports are loaded as from the entries it holds. -/
lemma twGetPortConfFileVals_eq (hok : Plenty ok) {es : Json .elements} {file : List PortObject}
    (hfile : DescribesFile (.array es) file) {w t : List UInt8} (hw : Json.Ws w)
    (ht : Json.Text (.array es) t) (rest : List UInt8) (m : Alloc) (lastByte devCount : UInt8)
    (appPortMask : UInt16) (conf : EthPorts) :
    twGetPortConfFileVals ok stack ipArr m lastByte devCount appPortMask
        (some (w ++ (t ++ rest))) conf =
      twGetPortConfJsonVals stack ipArr devCount appPortMask (some file) conf := by
  have hends : Ends (.array es) (rest ++ [lastByte]) := trivial
  have hisItem : IsItem (fieldsOf (.array es) newItem, itemsOf (.array es)) (.array es) :=
    isItem_fieldsOf rfl _
  rw [twGetPortConfFileVals, twParseJsonFile_text hok hw ht hends, Outcome.ret_bind]
  simp only [itemPort_eq hisItem hfile, twGetPortConfJsonVals]

/-- What a run over the ports leaves when each port in use gets its name and the last address
the file has for it. -/
structure LastAddressed (appPortMask : UInt16) (total : ℕ) (file : List PortObject)
    (before after : PortTable) : Prop where
  name : ∀ k, Configured appPortMask total k → (after k).portName = nameOf appPortMask k
  last : ∀ k e ipConf, Configured appPortMask total k →
    (addresses file (nameOf appPortMask k)).getLast? = some e → e.Denotes ipConf →
      (after k).ipConf = ipConf
  absent : ∀ k, Configured appPortMask total k → addresses file (nameOf appPortMask k) = [] →
    (after k).ipConf = (before k).ipConf
  others : ∀ k, ¬ Configured appPortMask total k → after k = before k

lemma PortsLoaded.lastAddressed {appPortMask : UInt16} {total : ℕ} {file : List PortObject}
    (hwf : FileWellFormed file) {before after : PortTable}
    (h : PortsLoaded stack ipArr appPortMask file total before after) :
    LastAddressed appPortMask total file before after where
  name := fun _ hk => h.portName hwf hk
  last := fun _ _ _ hk hlast he => h.ipConf_last hwf hk hlast he
  absent := by
    intro k hk hnone
    have hload := h.loaded k hk
    rw [loadEntries_absent hwf (List.getLast?_eq_none_iff.mpr hnone)] at hload
    rw [← Outcome.ret.inj hload]
    rfl
  others := h.kept

/-- From the bytes of the file to the ports, on every text of a well-formed file and whatever the
unwritten byte behind it is. -/
theorem twGetPortConfFileVals_last (hok : Plenty ok) {es : Json .elements}
    {file : List PortObject} (hfile : DescribesFile (.array es) file) (hwf : FileWellFormed file)
    {w t : List UInt8} (hw : Json.Ws w) (ht : Json.Text (.array es) t) (rest : List UInt8)
    (m : Alloc) (lastByte : UInt8) {devCount : UInt8} (hdev : devCount ≠ 0) (appPortMask : UInt16)
    (stack : ℕ → Int) (ipArr : Fin 4 → UInt8) (conf : EthPorts) :
    ∃ conf', twGetPortConfFileVals ok stack ipArr m lastByte devCount appPortMask
        (some (w ++ (t ++ rest))) conf = .ret (0, conf') ∧
      LastAddressed appPortMask (portTotal devCount).toNat file conf.portInfo conf'.portInfo := by
  obtain ⟨conf', hrun, hports⟩ :=
    twGetPortConfJsonVals_loaded appPortMask stack ipArr hwf hdev conf
  refine ⟨conf', ?_, hports.lastAddressed hwf⟩
  rw [twGetPortConfFileVals_eq hok hfile hw ht, hrun]

/-- The entry of the first port with one address. -/
def tw0Json (quad : Str) : Json .elements :=
  .elem (.object (.member ⟨ipAddrsKey, by decide⟩ (.array (.elem (.object
    (.member ⟨ipAddressKey, by decide⟩ (.str quad) (.member ⟨gatewayIpKey, by decide⟩ (.str quad)
      (.member ⟨subnetMaskKey, by decide⟩ (.str quad) .noMembers)))) .noElems))
    (.member ⟨portNameKey, by decide⟩ (.str ⟨ethString 0, by decide⟩) .noMembers))) .noElems

lemma exists_tw0Text {quad : Str} (hquad : Json.Unescaped quad) :
    ∃ t, Json.Text (.array (tw0Json quad)) t := by
  have hws : Json.Ws [] := fun _ h => absurd h List.not_mem_nil
  have hkey : ∀ {s : Str}, Json.Unescaped s → Json.StrBody s s := fun hs => hs.strBody
  have hip : Json.Text (.str quad) _ := .str (hkey hquad)
  refine ⟨_, .array (.lastElem hws (.object (.member hws (hkey (by decide +kernel)) hws hws
    (.array (.lastElem hws (.object (.member hws (hkey (by decide +kernel)) hws hws hip hws
      (.member hws (hkey (by decide +kernel)) hws hws hip hws
        (.lastMember hws (hkey (by decide +kernel)) hws hws hip hws)))) hws)) hws
    (.lastMember hws (hkey (by decide +kernel)) hws hws (.str (hkey (by decide +kernel))) hws)))
    hws)⟩

lemma describesFile_tw0 (d : Fin 10) (hd : 0 ∉ (repeated d).ipAddress) :
    DescribesFile (.array (tw0Json ⟨(repeated d).ipAddress, hd⟩)) (tw0File [repeated d]) := by
  refine .cons ⟨⟨_, rfl, rfl⟩, fun _ => ⟨_, rfl, .cons ⟨?_, ?_, ?_⟩ .nil⟩⟩ .nil
  all_goals exact ⟨⟨_, hd⟩, rfl, rfl⟩

theorem twGetPortConfFileVals_last_tw0 :
    ∃ t conf', twGetPortConfFileVals (fun _ => true) (fun _ => 0) (fun _ => 0) ⟨0, 0, 0⟩ 0x5d 1 1
        (some ([] ++ (t ++ [0x0a]))) unsetPorts = .ret (0, conf') ∧
      LastAddressed 1 (portTotal 1).toNat (tw0File [repeated 1]) unsetPorts.portInfo
        conf'.portInfo := by
  have hzero : 0 ∉ (repeated 1).ipAddress := by decide
  have hquad : Json.Unescaped (repeated 1).ipAddress := by decide +kernel
  obtain ⟨t, ht⟩ := @exists_tw0Text ⟨_, hzero⟩ hquad
  have hws : Json.Ws [] := fun _ h => absurd h List.not_mem_nil
  have hwf : FileWellFormed (tw0File [repeated 1]) :=
    @tw0File_wellFormed [1] (List.cons_ne_nil _ _) (by decide)
  obtain ⟨conf', hrun, hlast⟩ := twGetPortConfFileVals_last (fun _ => rfl)
    (describesFile_tw0 1 hzero) hwf hws ht [0x0a] ⟨0, 0, 0⟩ 0x5d (show (1 : UInt8) ≠ 0 by decide) 1
    (fun _ => 0) (fun _ => 0) unsetPorts
  exact ⟨t, conf', hrun, hlast⟩

end Refinement
end Twister
