import Twister.ConfigFile
import Twister.GatewayLoad
import Twister.UdpSend

/-! The files that two applications read for themselves, from their bytes on: the routes of the
gateway and the parameters of the UDP sender. -/
namespace Twister
open CJson

section Model
variable (ok : ℕ → Bool) (stack : ℕ → Int) (ipArr : Fin 4 → UInt8)

/-- The names `net_addr`, `gateway` and `net_mask`. -/
def netAddrKey : CString := [0x6e, 0x65, 0x74, 0x5f, 0x61, 0x64, 0x64, 0x72]
def gatewayKey : CString := [0x67, 0x61, 0x74, 0x65, 0x77, 0x61, 0x79]
def netMaskKey : CString := [0x6e, 0x65, 0x74, 0x5f, 0x6d, 0x61, 0x73, 0x6b]

def itemRoute (mem : Malloc (Node Route)) (routes : RouteTable) (subitem : Item) :
    Outcome RouteTable := do
  let netAddrTmp ← itemIp stack ipArr subitem netAddrKey
  let gatewayTmp ← itemIp stack ipArr subitem gatewayKey
  let netMaskTmp ← itemIp stack ipArr subitem netMaskKey
  let name ← getObjectItem subitem portNameKey
  let portNameTmp ← valuestring name.1.valuestring
  let (_, routes) ← twAddRouteEntry mem routes netAddrTmp netMaskTmp gatewayTmp portNameTmp
  .ret routes

/-- `parse_user_params` of the gateway on the bytes of the file. -/
def parseRouteFile (mem : Malloc (Node Route)) (m : Alloc) (lastByte : UInt8)
    (file : Option (List UInt8)) (routes : RouteTable) : Outcome (Int × RouteTable) := do
  match ← twParseJsonFile ok m lastByte file with
  | none => .ret (-1, routes)
  | some jsonFile => do
    let routes ← arrayLoop (itemRoute stack ipArr mem) routes jsonFile
    .ret (0, routes)

namespace UdpSend

/-- The names `ServerIP`, `ServerPort`, `Payload`, `testRuntime` and `ppsLimit`. -/
def serverIpKey : CString := [0x53, 0x65, 0x72, 0x76, 0x65, 0x72, 0x49, 0x50]
def serverPortKey : CString := [0x53, 0x65, 0x72, 0x76, 0x65, 0x72, 0x50, 0x6f, 0x72, 0x74]
def payloadKey : CString := [0x50, 0x61, 0x79, 0x6c, 0x6f, 0x61, 0x64]
def testRuntimeKey : CString := [0x74, 0x65, 0x73, 0x74, 0x52, 0x75, 0x6e, 0x74, 0x69, 0x6d, 0x65]
def ppsLimitKey : CString := [0x70, 0x70, 0x73, 0x4c, 0x69, 0x6d, 0x69, 0x74]

def itemNumber (subitem : Item) (string : CString) : Outcome UInt64 := do
  let item ← getObjectItem subitem string
  number item.1.valuestring

def itemParams (_ : ParamState) (subitem : Item) : Outcome ParamState := do
  let serverIp ← itemIp stack ipArr subitem serverIpKey
  let serverPort ← itemNumber subitem serverPortKey
  let payload ← itemNumber subitem payloadKey
  let testRuntime ← itemNumber subitem testRuntimeKey
  let ppsLimit ← itemNumber subitem ppsLimitKey
  .ret ⟨⟨serverIp, serverPort.toUInt16, payload.toUInt16, ppsLimit.toUInt32,
    testRuntime.toUInt32⟩, payload.toUInt16.toUInt64⟩

/-- `parse_user_params` of the sender on the bytes of the file. -/
def parseParamFile (m : Alloc) (lastByte : UInt8) (file : Option (List UInt8))
    (st : ParamState) : Outcome (Int × ParamState) := do
  match ← twParseJsonFile ok m lastByte file with
  | none => .ret (-1, st)
  | some jsonFile => do
    let st ← arrayLoop (itemParams stack ipArr) st jsonFile
    .ret (0, st)

/-- The start of `main`, which does not look at the result of the parser. -/
def startDelay (m : Alloc) (lastByte : UInt8) (file : Option (List UInt8)) (tscHz : UInt64)
    (st : ParamState) : Outcome (ParamState × UInt64) := do
  let (_, st) ← parseParamFile ok stack ipArr m lastByte file st
  if st.userParams.ppsLimit = 0 then .fault
  else .ret (st, tscHz / st.userParams.ppsLimit.toUInt64)

end UdpSend
end Model

section Texts
variable {v : Json .value} {item : Item} {string : CString}

/-- The member of that name is the string that the object has. -/
def HoldsText (v : Json .value) (string : CString) (text : Option CString) : Prop :=
  ∃ s, text = some s ∧ HasText v string s

lemma valuestring_holds (hitem : IsItem item v) {text : Option CString}
    (h : HoldsText v string text) :
    ∃ found, getObjectItem item string = .ret found ∧ found.1.valuestring = text := by
  obtain ⟨s, rfl, text, hfind, rfl⟩ := h
  obtain ⟨found, hfound, hisItem⟩ := hitem.getObjectItem hfind
  exact ⟨found, hfound, hisItem.valuestring⟩

/-- An array is read whatever follows it in the file. -/
lemma twParseJsonFile_array {ok : ℕ → Bool} (hok : Plenty ok) {es : Json .elements}
    {w t : List UInt8} (hw : Json.Ws w) (ht : Json.Text (.array es) t) (rest : List UInt8)
    (m : Alloc) (lastByte : UInt8) :
    ∃ jsonFile, twParseJsonFile ok m lastByte (some (w ++ (t ++ rest))) = .ret (some jsonFile) ∧
      IsItem jsonFile (.array es) := by
  have hends : Ends (.array es) (rest ++ [lastByte]) := trivial
  exact ⟨_, twParseJsonFile_text hok hw ht hends m, isItem_fieldsOf rfl _⟩

lemma ws_nil : Json.Ws [] := fun _ h => absurd h List.not_mem_nil

end Texts

section Routes
variable {ok : ℕ → Bool} {stack : ℕ → Int} {ipArr : Fin 4 → UInt8} {mem : Malloc (Node Route)}
  {routes : RouteTable} {file : List RouteObject} {confs : List RouteConf}

structure DescribesRoute (v : Json .value) (o : RouteObject) : Prop where
  netAddr : HoldsText v netAddrKey o.netAddr
  gateway : HoldsText v gatewayKey o.gateway
  netMask : HoldsText v netMaskKey o.netMask
  portName : HoldsText v portNameKey o.portName

lemma itemRoute_eq (routes : RouteTable) (item : Item) (v : Json .value) (o : RouteObject)
    (hitem : IsItem item v) (h : DescribesRoute v o) :
    itemRoute stack ipArr mem routes item = loadRoute stack ipArr mem routes o := by
  obtain ⟨net, hnet, hnetText⟩ := h.netAddr
  obtain ⟨gateway, hgateway, hgatewayText⟩ := h.gateway
  obtain ⟨mask, hmask, hmaskText⟩ := h.netMask
  obtain ⟨name, hname, hvalue⟩ := valuestring_holds hitem h.portName
  simp only [itemRoute, loadRoute, itemIp_eq hitem hnetText, itemIp_eq hitem hgatewayText,
    itemIp_eq hitem hmaskText, hname, hvalue, hnet, hgateway, hmask, valuestring,
    Outcome.ret_bind]

lemma parseRouteFile_eq (hok : Plenty ok) {es : Json .elements}
    (hfile : List.Forall₂ DescribesRoute (Json.array es).children file) (hshort : file.length ≤ 255)
    {w t : List UInt8} (hw : Json.Ws w) (ht : Json.Text (.array es) t) (rest : List UInt8)
    (m : Alloc) (lastByte : UInt8) (routes : RouteTable) :
    parseRouteFile ok stack ipArr mem m lastByte (some (w ++ (t ++ rest))) routes = (do
      let routes ← file.foldlM (loadRoute stack ipArr mem) routes
      .ret (0, routes)) := by
  obtain ⟨jsonFile, hparse, hisItem⟩ := twParseJsonFile_array hok hw ht rest m lastByte
  rw [parseRouteFile, hparse, Outcome.ret_bind]
  dsimp only
  rw [arrayLoop_eq itemRoute_eq hisItem hfile, byteLoop_eq (by omega)]

/-- The call that loads the route. -/
def RouteConf.call (c : RouteConf) (mem : Malloc (Node Route)) : RouteCall :=
  ⟨c.netAddr, c.netMask, c.gateway, c.portName, mem⟩

lemma loadRoute_call {o : RouteObject} {c : RouteConf} (h : o.Denotes c)
    (hname : 2 ≤ c.portName.length) (hmem : ∀ heap, mem.pick heap ≠ none)
    {xs : List (ℕ × Route)} (hlist : Chain routes.heap routes.routeTableRoot xs none) :
    ∃ routes' a, loadRoute stack ipArr mem routes o = .ret routes' ∧
      Chain routes'.heap routes'.routeTableRoot (xs ++ [(a, (c.call mem).entry)]) none ∧
      routes'.routeTableSize = routes.routeTableSize + 1 := by
  obtain ⟨⟨a, junk⟩, hpick⟩ := Option.ne_none_iff_exists'.mp (hmem routes.heap)
  obtain ⟨routes', hadd, hlist', hsize⟩ := twAddRouteEntry_some hlist hpick (copyName_ret hname)
    c.netAddr c.netMask c.gateway
  exact ⟨routes', a, by rw [loadRoute_eq h, hadd, Outcome.ret_bind], hlist', hsize⟩

lemma loadRoutes_entries (stack : ℕ → Int) (ipArr : Fin 4 → UInt8)
    (hfile : List.Forall₂ RouteObject.Denotes file confs)
    (hnames : ∀ c ∈ confs, 2 ≤ c.portName.length) (hmem : ∀ heap, mem.pick heap ≠ none)
    {xs : List (ℕ × Route)} (hlist : Chain routes.heap routes.routeTableRoot xs none) :
    ∃ routes' ys, file.foldlM (loadRoute stack ipArr mem) routes = .ret routes' ∧
      Chain routes'.heap routes'.routeTableRoot (xs ++ ys) none ∧
      ys.map Prod.snd = (confs.map (·.call mem)).map RouteCall.entry ∧
      routes'.routeTableSize = routes.routeTableSize + UInt32.ofNat confs.length := by
  induction hfile generalizing routes xs with
  | nil => exact ⟨routes, [], rfl, by rwa [List.append_nil], rfl, (UInt32.add_zero _).symm⟩
  | @cons o c file confs ho _ ih =>
    obtain ⟨routes₁, a, hload, hlist₁, hsize₁⟩ :=
      loadRoute_call ho (hnames c List.mem_cons_self) hmem hlist
    obtain ⟨routes', ys, hrun, hlist', hentries, hsize'⟩ :=
      ih (fun d hd => hnames d (List.mem_cons_of_mem c hd)) hlist₁
    refine ⟨routes', (a, (c.call mem).entry) :: ys, ?_, ?_, ?_, ?_⟩
    · rw [List.foldlM_cons, hload, Outcome.ret_bind, hrun]
    · rwa [List.append_assoc] at hlist'
    · rw [List.map_cons, hentries]
      rfl
    · rw [hsize', hsize₁, List.length_cons, UInt32.ofNat_add, UInt32.add_assoc, UInt32.add_comm 1]
      rfl

/-- From the bytes of the route file to the choice of a route: on every text of up to 255 routes the
gateway sends a destination to the first one in the file that covers it. -/
theorem parseRouteFile_selects (hok : Plenty ok) (stack : ℕ → Int) (ipArr : Fin 4 → UInt8)
    (hmem : ∀ heap, mem.pick heap ≠ none) {es : Json .elements}
    (hobjects : List.Forall₂ DescribesRoute (Json.array es).children file)
    (hfile : List.Forall₂ RouteObject.Denotes file confs) (hshort : confs.length ≤ 255)
    (hnames : ∀ c ∈ confs, 2 ≤ c.portName.length) {w t : List UInt8} (hw : Json.Ws w)
    (ht : Json.Text (.array es) t) (rest : List UInt8) (m : Alloc) (lastByte : UInt8)
    (hroot : routes.routeTableRoot = none) (hsize : routes.routeTableSize = 0) :
    ∃ routes' xs, parseRouteFile ok stack ipArr mem m lastByte (some (w ++ (t ++ rest))) routes =
        .ret (0, routes') ∧ SelectsFirst (confs.map (·.call mem)) routes' xs := by
  obtain ⟨routes', xs, hrun, hlist, hentries, hsize'⟩ := loadRoutes_entries stack ipArr hfile
    hnames hmem (show Chain routes.heap routes.routeTableRoot [] none from hroot)
  refine ⟨routes', xs, ?_, selectsFirst_of_entries hlist hentries ?_⟩
  · rw [parseRouteFile_eq hok hobjects (hfile.length_eq ▸ hshort) hw ht, hrun, Outcome.ret_bind]
  · rw [hsize', hsize, UInt32.zero_add, List.length_map]

end Routes

section Objects

/-- An object whose members are strings. -/
def strMembers : List (Str × Str) → Json .members
  | [] => .noMembers
  | (name, s) :: rest => .member name (.str s) (strMembers rest)

lemma exists_strMembersText {pairs : List (Str × Str)}
    (h : ∀ x ∈ pairs, Json.Unescaped x.1 ∧ Json.Unescaped x.2) :
    ∃ t, Json.Text (strMembers pairs) t := by
  induction pairs with
  | nil => exact ⟨[], .noMembers ws_nil⟩
  | cons x pairs ih =>
    obtain ⟨hname, hs⟩ := h x List.mem_cons_self
    obtain ⟨t, ht⟩ := ih fun y hy => h y (List.mem_cons_of_mem x hy)
    have hstr : Json.Text (.str x.2) _ := .str hs.strBody
    cases pairs with
    | nil => exact ⟨_, .lastMember ws_nil hname.strBody ws_nil ws_nil hstr ws_nil⟩
    | cons y pairs => exact ⟨_, .member ws_nil hname.strBody ws_nil ws_nil hstr ws_nil ht⟩

/-- The elements of an array of such objects. -/
def strObjects : List (List (Str × Str)) → Json .elements
  | [] => .noElems
  | pairs :: rest => .elem (.object (strMembers pairs)) (strObjects rest)

lemma exists_strObjectsText {objects : List (List (Str × Str))}
    (h : ∀ pairs ∈ objects, ∀ x ∈ pairs, Json.Unescaped x.1 ∧ Json.Unescaped x.2) :
    ∃ t, Json.Text (strObjects objects) t := by
  induction objects with
  | nil => exact ⟨[], .noElems ws_nil⟩
  | cons pairs objects ih =>
    obtain ⟨u, hu⟩ := exists_strMembersText (h pairs List.mem_cons_self)
    obtain ⟨t, ht⟩ := ih fun ps hps => h ps (List.mem_cons_of_mem pairs hps)
    cases objects with
    | nil => exact ⟨_, .lastElem ws_nil (.object hu) ws_nil⟩
    | cons ps objects => exact ⟨_, .elem ws_nil (.object hu) ws_nil ht⟩

def tenQuad : Str := ⟨dottedQuad octetTen octetOne octetOne octetOne, by decide⟩

lemma portNameKey_terminated : 0 ∉ portNameKey := by decide

def oneQuad : Str := ⟨dottedQuad octetOne octetOne octetOne octetOne, by decide⟩

/-- The members of a route whose three addresses are one. -/
def routePairs (quad name : Str) : List (Str × Str) :=
  [(⟨netAddrKey, by decide⟩, quad), (⟨gatewayKey, by decide⟩, quad),
    (⟨netMaskKey, by decide⟩, quad), (⟨portNameKey, portNameKey_terminated⟩, name)]

lemma routePairs_describes (quad name : Str) :
    DescribesRoute (.object (strMembers (routePairs quad name)))
      ⟨some quad.1, some quad.1, some quad.1, some name.1⟩ :=
  ⟨⟨_, rfl, quad, rfl, rfl⟩, ⟨_, rfl, quad, rfl, rfl⟩, ⟨_, rfl, quad, rfl, rfl⟩,
    ⟨_, rfl, name, rfl, rfl⟩⟩

def routeEntries : List (List (Str × Str)) :=
  [routePairs tenQuad ⟨tw0, tenConf.terminated⟩, routePairs oneQuad ⟨tw1, broadConf.terminated⟩]

theorem parseRouteFile_selects_two :
    ∃ t routes xs, parseRouteFile (fun _ => true) (fun _ => 0) (fun _ => 0) bumpRoutes ⟨0, 0, 0⟩
        0x0a (some ([] ++ (t ++ []))) (emptyRoutes 64) = .ret (0, routes) ∧
      SelectsFirst ([tenConf, broadConf].map (·.call bumpRoutes)) routes xs := by
  obtain ⟨t, ht⟩ := exists_strObjectsText (show ∀ pairs ∈ routeEntries, ∀ x ∈ pairs,
    Json.Unescaped x.1 ∧ Json.Unescaped x.2 by decide +kernel)
  have hobjects : List.Forall₂ DescribesRoute (Json.array (strObjects routeEntries)).children
      [tenObject, broadObject] :=
    .cons (routePairs_describes tenQuad _) (.cons (routePairs_describes oneQuad _) .nil)
  obtain ⟨routes, xs, hrun, hselects⟩ := parseRouteFile_selects (fun _ => rfl) (fun _ => 0)
    (fun _ => 0) bumpRoutes_pick hobjects twoObjects_denote
    (show [tenConf, broadConf].length ≤ 255 by decide) (by decide) ws_nil (.array ht) []
    ⟨0, 0, 0⟩ 0x0a (show (emptyRoutes 64).routeTableRoot = none from rfl) rfl
  exact ⟨_, routes, xs, hrun, hselects⟩

end Objects

namespace UdpSend
section Params
variable {ok : ℕ → Bool} {stack : ℕ → Int} {ipArr : Fin 4 → UInt8} {file : List ParamObject}
  {confs : List ParamConf} {st : ParamState}

structure DescribesParams (v : Json .value) (o : ParamObject) : Prop where
  serverIp : HoldsText v serverIpKey o.serverIp
  serverPort : HoldsText v serverPortKey o.serverPort
  payload : HoldsText v payloadKey o.payload
  testRuntime : HoldsText v testRuntimeKey o.testRuntime
  ppsLimit : HoldsText v ppsLimitKey o.ppsLimit

lemma itemNumber_eq {item : Item} {v : Json .value} (hitem : IsItem item v) {string : CString}
    {text : Option CString} (h : HoldsText v string text) :
    itemNumber item string = number text := by
  obtain ⟨found, hfound, hvalue⟩ := valuestring_holds hitem h
  rw [itemNumber, hfound, Outcome.ret_bind, hvalue]

lemma itemParams_eq (st : ParamState) (item : Item) (v : Json .value) (o : ParamObject)
    (hitem : IsItem item v) (h : DescribesParams v o) :
    itemParams stack ipArr st item = loadParams stack ipArr st o := by
  obtain ⟨ip, hip, hipText⟩ := h.serverIp
  simp only [itemParams, loadParams, itemIp_eq hitem hipText, itemNumber_eq hitem h.serverPort,
    itemNumber_eq hitem h.payload, itemNumber_eq hitem h.testRuntime,
    itemNumber_eq hitem h.ppsLimit, hip, valuestring, Outcome.ret_bind]

lemma startDelay_eq (hok : Plenty ok) {es : Json .elements}
    (hfile : List.Forall₂ DescribesParams (Json.array es).children file) {w t : List UInt8}
    (hw : Json.Ws w) (ht : Json.Text (.array es) t) (rest : List UInt8) (m : Alloc)
    (lastByte : UInt8) (tscHz : UInt64) (st : ParamState) :
    startDelay ok stack ipArr m lastByte (some (w ++ (t ++ rest))) tscHz st =
      ppsDelay stack ipArr (some file) tscHz st := by
  obtain ⟨jsonFile, hparse, hisItem⟩ := twParseJsonFile_array hok hw ht rest m lastByte
  rw [startDelay, parseParamFile, hparse, Outcome.ret_bind]
  dsimp only
  rw [arrayLoop_eq itemParams_eq hisItem hfile, ppsDelay, parseUserParams]

lemma getLast?_denotes (h : List.Forall₂ ParamObject.Denotes file confs) :
    (file = [] ∧ confs = []) ∨
      ∃ o c, file.getLast? = some o ∧ confs.getLast? = some c ∧ o.Denotes c := by
  induction h with
  | nil => exact Or.inl ⟨rfl, rfl⟩
  | @cons o c file confs ho _ ih =>
    right
    rcases ih with ⟨rfl, rfl⟩ | ⟨o', c', hfile, hconfs, hlast⟩
    · exact ⟨o, c, rfl, rfl, ho⟩
    · exact ⟨o', c', by simp [List.getLast?_cons, hfile], by simp [List.getLast?_cons, hconfs],
        hlast⟩

lemma ParamConf.HeldBy.ppsLimit_eq {c : ParamConf} (h : c.HeldBy st) :
    st.userParams.ppsLimit = UInt32.ofNat (decimal c.ppsLimit) := by
  apply UInt32.toNat_inj.mp
  rw [h.ppsLimit, UInt32.toNat_ofNat']

/-- With this entry the sender starts at the delay of its limit, which is taken modulo 2^32. -/
def StartsWith (c : ParamConf) (tscHz : UInt64) (started : Outcome (ParamState × UInt64)) : Prop :=
  ∃ st, started = .ret (st, tscHz / (UInt32.ofNat (decimal c.ppsLimit)).toUInt64) ∧ c.HeldBy st

/-- From the bytes of the parameter file to the delay: on every text of up to 255 entries the last
one decides, and without an entry, or with a limit that is a multiple of 2^32, the sender divides by
zero. -/
theorem startDelay_last (hok : Plenty ok) (stack : ℕ → Int) (ipArr : Fin 4 → UInt8)
    {es : Json .elements} (hobjects : List.Forall₂ DescribesParams (Json.array es).children file)
    (hfile : List.Forall₂ ParamObject.Denotes file confs) (hshort : confs.length ≤ 255)
    {w t : List UInt8} (hw : Json.Ws w) (ht : Json.Text (.array es) t) (rest : List UInt8)
    (m : Alloc) (lastByte : UInt8) (tscHz : UInt64) (hzero : st.userParams.ppsLimit = 0) :
    let started := startDelay ok stack ipArr m lastByte (some (w ++ (t ++ rest))) tscHz st
    (∀ c, confs.getLast? = some c → ¬ 2 ^ 32 ∣ decimal c.ppsLimit → StartsWith c tscHz started) ∧
      ((∀ c, confs.getLast? = some c → 2 ^ 32 ∣ decimal c.ppsLimit) → started = .fault) := by
  have hlen := hfile.length_eq
  have hdenotes : ∀ o ∈ file, ∃ c, o.Denotes c := by
    intro o ho
    obtain ⟨i, hi, rfl⟩ := List.mem_iff_getElem.mp ho
    exact ⟨_, (List.forall₂_iff_get.mp hfile).2 i hi (hlen ▸ hi)⟩
  obtain ⟨st', hrun, hnil, hheld⟩ := loadFile_last stack ipArr st hdenotes
  have hdelay : startDelay ok stack ipArr m lastByte (some (w ++ (t ++ rest))) tscHz st =
      if st'.userParams.ppsLimit = 0 then .fault
      else .ret (st', tscHz / st'.userParams.ppsLimit.toUInt64) := by
    rw [startDelay_eq hok hobjects hw ht, ppsDelay, parseUserParams_eq (by omega), hrun,
      Outcome.ret_bind, Outcome.ret_bind]
  dsimp only
  rw [hdelay]
  rcases getLast?_denotes hfile with ⟨hempty, rfl⟩ | ⟨o, c, hlast, hconf, ho⟩
  · refine ⟨fun c hc => absurd hc (Option.some_ne_none c).symm, fun _ => if_pos ?_⟩
    rw [hnil hempty, hzero]
  · have hc := hheld o c hlast ho
    have hiff : st'.userParams.ppsLimit = 0 ↔ 2 ^ 32 ∣ decimal c.ppsLimit := by
      rw [Nat.dvd_iff_mod_eq_zero, ← hc.ppsLimit, ← UInt32.toNat_zero, UInt32.toNat_inj]
    rw [hconf]
    refine ⟨fun c' hc' hnot => ?_, fun hall => if_pos (hiff.mpr (hall c rfl))⟩
    obtain rfl := Option.some.inj hc'
    rw [if_neg (mt hiff.mp hnot), hc.ppsLimit_eq]
    exact ⟨st', rfl, hc⟩

/-- The globals before the file is read. -/
def noParams : ParamState := ⟨⟨0, 0, 0, 0, 0⟩, 0⟩

/-- 10.1.1.1, and one digit for every number. -/
def digitConf (d : Fin 10) : ParamConf := ⟨0x0a010101, [d], [d], [d], [d]⟩

def digitObject (d : Fin 10) : ParamObject :=
  let number := some [digitChar d]
  ⟨some tenQuad, number, number, number, number⟩

lemma digit_terminated (d : Fin 10) : 0 ∉ [digitChar d] := by
  revert d
  decide

def digitPairs (d : Fin 10) : List (Str × Str) :=
  let number : Str := ⟨[digitChar d], digit_terminated d⟩
  [(⟨serverIpKey, by decide⟩, tenQuad), (⟨serverPortKey, by decide⟩, number),
    (⟨payloadKey, by decide⟩, number), (⟨testRuntimeKey, by decide⟩, number),
    (⟨ppsLimitKey, by decide⟩, number)]

lemma digitObject_denotes (d : Fin 10) : (digitObject d).Denotes (digitConf d) := by
  have hip : Renders tenQuad.1 0x0a010101 :=
    ⟨octetTen, octetOne, octetOne, octetOne, rfl, by decide⟩
  refine ⟨⟨_, rfl, hip⟩, ?_, ?_, ?_, ?_⟩
  all_goals exact ⟨rfl, by simp [digitConf]⟩

lemma digitPairs_describes (d : Fin 10) :
    DescribesParams (.object (strMembers (digitPairs d))) (digitObject d) := by
  refine ⟨⟨_, rfl, tenQuad, rfl, rfl⟩, ?_, ?_, ?_, ?_⟩
  all_goals exact ⟨_, rfl, ⟨[digitChar d], digit_terminated d⟩, rfl, rfl⟩

/-- The limit zero of the first entry, by which the sender would divide, is gone with the second
one. -/
theorem startDelay_last_two :
    ∃ t, StartsWith (digitConf 2) 3000000000 (startDelay (fun _ => true) (fun _ => 0) (fun _ => 0)
      ⟨0, 0, 0⟩ 0x0a (some ([] ++ (t ++ []))) 3000000000 noParams) := by
  obtain ⟨t, ht⟩ := exists_strObjectsText (show ∀ pairs ∈ [digitPairs 0, digitPairs 2],
    ∀ x ∈ pairs, Json.Unescaped x.1 ∧ Json.Unescaped x.2 by decide +kernel)
  have hobjects : List.Forall₂ DescribesParams
      (Json.array (strObjects [digitPairs 0, digitPairs 2])).children
      [digitObject 0, digitObject 2] :=
    .cons (digitPairs_describes 0) (.cons (digitPairs_describes 2) .nil)
  have hstart := (startDelay_last (fun _ => rfl) (fun _ => 0) (fun _ => 0) hobjects
    (.cons (digitObject_denotes 0) (.cons (digitObject_denotes 2) .nil))
    (show [digitConf 0, digitConf 2].length ≤ 255 by decide) ws_nil (.array ht) []
    ⟨0, 0, 0⟩ 0x0a 3000000000 (show noParams.userParams.ppsLimit = 0 from rfl)).1
  exact ⟨_, hstart (digitConf 2) rfl (by decide)⟩

end Params
end UdpSend
end Twister
