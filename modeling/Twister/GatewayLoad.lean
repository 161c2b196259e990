import Twister.GatewaySelect
import Twister.PortJson

/-! The route file of the gateway. The loop over its entries counts in a byte. -/
namespace Twister

section Model

/-- An element of the file. A key that is missing or has no string is `none`. -/
structure RouteObject where
  netAddr : Option CString
  gateway : Option CString
  netMask : Option CString
  portName : Option CString

variable (stack : ℕ → Int) (ipArr : Fin 4 → UInt8) (mem : Malloc (Node Route))

def loadRoute (routes : RouteTable) (subitem : RouteObject) : Outcome RouteTable := do
  let netAddr ← valuestring subitem.netAddr
  let netAddrTmp ← twConvertIpStrToDec stack ipArr netAddr
  let gateway ← valuestring subitem.gateway
  let gatewayTmp ← twConvertIpStrToDec stack ipArr gateway
  let netMask ← valuestring subitem.netMask
  let netMaskTmp ← twConvertIpStrToDec stack ipArr netMask
  let portNameTmp ← valuestring subitem.portName
  let (_, routes) ← twAddRouteEntry mem routes netAddrTmp netMaskTmp gatewayTmp portNameTmp
  .ret routes

/-- `for(i = 0; i < cJSON_GetArraySize(json_file); i++)`, where `i` is a `uint8_t`. -/
def routeLoop (jsonFile : List RouteObject) : ℕ → UInt8 → RouteTable → Outcome RouteTable
  | 0, _, _ => .timeout
  | fuel + 1, i, routes =>
    if h : i.toNat < jsonFile.length then do
      let routes ← loadRoute stack ipArr mem routes (jsonFile.get ⟨i.toNat, h⟩)
      routeLoop jsonFile fuel (i + 1) routes
    else .ret routes

/-- `jsonFile` is `none` when the file does not parse. -/
def parseUserParams (fuel : ℕ) (jsonFile : Option (List RouteObject)) (routes : RouteTable) :
    Outcome (Int × RouteTable) :=
  match jsonFile with
  | none => .ret (-1, routes)
  | some jsonFile => do
    let routes ← routeLoop stack ipArr mem jsonFile fuel 0 routes
    .ret (0, routes)

end Model

/-- A route in host order, with the name of its port. -/
structure RouteConf where
  netAddr : UInt32
  gateway : UInt32
  netMask : UInt32
  portName : CString
  terminated : 0 ∉ portName

/-- The texts of the object are dotted quads of the values. -/
structure RouteObject.Denotes (o : RouteObject) (c : RouteConf) : Prop where
  netAddr : ∃ s, o.netAddr = some s ∧ Renders s c.netAddr
  gateway : ∃ s, o.gateway = some s ∧ Renders s c.gateway
  netMask : ∃ s, o.netMask = some s ∧ Renders s c.netMask
  portName : o.portName = some c.portName

/-- The entry is the route: its values in network order, and the name up to a zero or to the
end of the array. -/
structure RouteConf.HeldBy (c : RouteConf) (r : Route) : Prop where
  netAddr : r.netAddr = rteCpuToBe32 c.netAddr
  gateway : r.gateway = rteCpuToBe32 c.gateway
  netMask : r.netMask = rteCpuToBe32 c.netMask
  portName : (List.ofFn r.portName).takeWhile (fun b => b ≠ 0) = c.portName

/-- The file is loaded: the call returns 0 and the table lists the routes in order. -/
def LoadsRoutes (stack : ℕ → Int) (ipArr : Fin 4 → UInt8) (mem : Malloc (Node Route))
    (file : List RouteObject) (confs : List RouteConf) (routes : RouteTable) : Prop :=
  ∃ fuel routes' xs, parseUserParams stack ipArr mem fuel (some file) routes = .ret (0, routes') ∧
    Chain routes'.heap routes'.routeTableRoot xs none ∧
    List.Forall₂ (fun c x => c.HeldBy x.2) confs xs

section Load
variable {stack : ℕ → Int} {ipArr : Fin 4 → UInt8} {mem : Malloc (Node Route)}
  {routes : RouteTable} {file : List RouteObject} {confs : List RouteConf}

/-- The name fits the array, and three bytes of it can be read. -/
def RouteConf.Fits (c : RouteConf) : Prop := 2 ≤ c.portName.length ∧ c.portName.length ≤ 3

lemma takeWhile_firstThree {c : RouteConf} (h : c.Fits) :
    (List.ofFn (firstThree c.portName)).takeWhile (fun b => b ≠ 0) = c.portName := by
  obtain ⟨h2, h3⟩ := h
  have hname := c.terminated
  generalize c.portName = name at h2 h3 hname
  match name, h2, h3, hname with
  | [x, y], _, _, hname =>
    obtain ⟨hx, hy⟩ : x ≠ 0 ∧ y ≠ 0 := by simpa [eq_comm] using hname
    simp [firstThree, hx, hy]
  | [x, y, z], _, _, hname =>
    obtain ⟨hx, hy, hz⟩ : x ≠ 0 ∧ y ≠ 0 ∧ z ≠ 0 := by simpa [eq_comm] using hname
    simp [firstThree, hx, hy, hz]

lemma loadRoute_eq {o : RouteObject} {c : RouteConf} (h : o.Denotes c) :
    loadRoute stack ipArr mem routes o = (do
      let (_, routes) ← twAddRouteEntry mem routes c.netAddr c.netMask c.gateway c.portName
      .ret routes) := by
  obtain ⟨s, hs, hnet⟩ := h.netAddr
  obtain ⟨t, ht, hgateway⟩ := h.gateway
  obtain ⟨u, hu, hmask⟩ := h.netMask
  simp only [loadRoute, hs, ht, hu, h.portName, valuestring, Outcome.ret_bind,
    twConvertIpStrToDec_renders hnet, twConvertIpStrToDec_renders hgateway,
    twConvertIpStrToDec_renders hmask]

variable (stack ipArr) in
lemma loadRoute_ret {o : RouteObject} {c : RouteConf} (h : o.Denotes c) (hfits : c.Fits)
    (hmem : ∀ heap, mem.pick heap ≠ none) {xs : List (ℕ × Route)}
    (hlist : Chain routes.heap routes.routeTableRoot xs none) :
    ∃ routes' x, loadRoute stack ipArr mem routes o = .ret routes' ∧
      Chain routes'.heap routes'.routeTableRoot (xs ++ [x]) none ∧ c.HeldBy x.2 := by
  obtain ⟨⟨a, junk⟩, hpick⟩ := Option.ne_none_iff_exists'.mp (hmem routes.heap)
  obtain ⟨routes', hadd, hlist', -⟩ := twAddRouteEntry_some hlist hpick
    (copyName_ret hfits.1) c.netAddr c.netMask c.gateway
  refine ⟨routes', _, ?_, hlist', rfl, rfl, rfl, takeWhile_firstThree hfits⟩
  rw [loadRoute_eq h, hadd, Outcome.ret_bind]

/-- Three bytes of the name have to be readable. -/
lemma loadRoute_inv {o : RouteObject} {c : RouteConf} (h : o.Denotes c) {routes' : RouteTable}
    (hret : loadRoute stack ipArr mem routes o = .ret routes') : 2 ≤ c.portName.length := by
  rw [loadRoute_eq h] at hret
  obtain ⟨r, hadd, -⟩ := Outcome.bind_eq_ret.mp hret
  obtain ⟨⟨heap, root, ptr⟩, -, hadd⟩ := Outcome.bind_eq_ret.mp hadd
  cases ptr with
  | none => cases hadd
  | some p =>
    obtain ⟨portName, hcopy, -⟩ := Outcome.bind_eq_ret.mp hadd
    obtain ⟨x, -, hcopy⟩ := Outcome.bind_eq_ret.mp hcopy
    obtain ⟨y, -, hcopy⟩ := Outcome.bind_eq_ret.mp hcopy
    obtain ⟨z, hz, -⟩ := Outcome.bind_eq_ret.mp hcopy
    by_contra hshort
    have hfault : charAt c.portName 2 = .fault := charAt_fault (by omega)
    rw [hfault] at hz
    cases hz

/-- No value of the counter is as large as the size. -/
lemma routeLoop_never (hlong : 256 ≤ file.length) (fuel : ℕ) (i : UInt8) (routes : RouteTable)
    (r : RouteTable) : routeLoop stack ipArr mem file fuel i routes ≠ .ret r := by
  induction fuel generalizing i routes with
  | zero => exact fun h => nomatch h
  | succ fuel ih =>
    have hi : i.toNat < file.length := lt_of_lt_of_le i.toNat_lt hlong
    intro h
    rw [routeLoop, dif_pos hi] at h
    obtain ⟨routes', -, h⟩ := Outcome.bind_eq_ret.mp h
    exact ih (i + 1) routes' h

lemma succ_toNat {i : UInt8} (h : i.toNat < 255) : (i + 1).toNat = i.toNat + 1 := by
  rw [UInt8.toNat_add, UInt8.toNat_one]
  exact Nat.mod_eq_of_lt (by omega)

variable (stack ipArr) in
/-- Up to 255 entries the loop takes the ones that are left, each once. -/
lemma routeLoop_loads (hshort : file.length ≤ 255) (hmem : ∀ heap, mem.pick heap ≠ none)
    (pre : List RouteObject) {rest : List RouteObject} {i : UInt8} (hfile : file = pre ++ rest)
    (hi : i.toNat = pre.length) {cs : List RouteConf}
    (hrest : List.Forall₂ RouteObject.Denotes rest cs) (hfits : ∀ c ∈ cs, c.Fits)
    {xs : List (ℕ × Route)} (hlist : Chain routes.heap routes.routeTableRoot xs none) :
    ∃ routes' ys, routeLoop stack ipArr mem file (rest.length + 1) i routes = .ret routes' ∧
      Chain routes'.heap routes'.routeTableRoot (xs ++ ys) none ∧
      List.Forall₂ (fun c x => c.HeldBy x.2) cs ys := by
  induction hrest generalizing pre i routes xs with
  | nil =>
    have hend : ¬ i.toNat < file.length := by simp [hfile, hi]
    exact ⟨routes, [], by rw [routeLoop, dif_neg hend], by simpa using hlist, .nil⟩
  | @cons o c rest cs ho hrest ih =>
    have hlt : i.toNat < file.length := by simp [hfile, hi]
    have hget : file.get ⟨i.toNat, hlt⟩ = o := by simp [hfile, hi]
    obtain ⟨routes', x, hload, hlist', hheld⟩ :=
      loadRoute_ret stack ipArr ho (hfits c List.mem_cons_self) hmem hlist
    have hnext : (i + 1).toNat = (pre ++ [o]).length := by
      rw [succ_toNat (by omega), hi, List.length_append]
      rfl
    obtain ⟨routes'', ys, hloop, hlist'', hys⟩ := ih (pre ++ [o])
      (by rw [hfile, List.append_assoc]; rfl) hnext
      (fun c' hc' => hfits c' (List.mem_cons_of_mem c hc')) hlist'
    refine ⟨routes'', x :: ys, ?_, ?_, .cons hheld hys⟩
    · rw [List.length_cons, routeLoop, dif_pos hlt, hget, hload, Outcome.ret_bind, hloop]
    · rwa [List.append_assoc] at hlist''

/-- A loop that returned has read three bytes of every name. -/
lemma routeLoop_names (hshort : file.length ≤ 255) {fuel : ℕ} (pre : List RouteObject)
    {rest : List RouteObject} {i : UInt8} (hfile : file = pre ++ rest)
    (hi : i.toNat = pre.length) {cs : List RouteConf}
    (hrest : List.Forall₂ RouteObject.Denotes rest cs) {r : RouteTable}
    (hret : routeLoop stack ipArr mem file fuel i routes = .ret r) :
    ∀ c ∈ cs, 2 ≤ c.portName.length := by
  induction hrest generalizing pre i routes fuel with
  | nil => exact fun c hc => nomatch hc
  | @cons o c rest cs ho hrest ih =>
    have hlt : i.toNat < file.length := by simp [hfile, hi]
    have hget : file.get ⟨i.toNat, hlt⟩ = o := by simp [hfile, hi]
    cases fuel with
    | zero => cases hret
    | succ fuel =>
      rw [routeLoop, dif_pos hlt, hget] at hret
      obtain ⟨routes', hload, hret⟩ := Outcome.bind_eq_ret.mp hret
      have hnext : (i + 1).toNat = (pre ++ [o]).length := by
        rw [succ_toNat (by omega), hi, List.length_append]
        rfl
      have htail := ih (pre ++ [o]) (by rw [hfile, List.append_assoc]; rfl) hnext hret
      intro c' hc'
      rcases List.mem_cons.mp hc' with rfl | hc'
      · exact loadRoute_inv ho hload
      · exact htail c' hc'

lemma RouteConf.HeldBy.length_le {c : RouteConf} {r : Route} (h : c.HeldBy r) :
    c.portName.length ≤ 3 := by
  rw [← h.portName]
  exact (List.takeWhile_prefix _).length_le.trans_eq (List.length_ofFn ..)

lemma names_short {xs : List (ℕ × Route)} (h : List.Forall₂ (fun c x => c.HeldBy x.2) confs xs) :
    ∀ c ∈ confs, c.portName.length ≤ 3 := by
  induction h with
  | nil => exact fun c hc => nomatch hc
  | cons hx _ ih => exact List.forall_mem_cons.mpr ⟨hx.length_le, ih⟩

lemma not_loadsRoutes_of_long (hlong : 256 ≤ file.length) :
    ¬ LoadsRoutes stack ipArr mem file confs routes := by
  rintro ⟨fuel, routes', xs, hparse, -⟩
  obtain ⟨r, hloop, -⟩ := Outcome.bind_eq_ret.mp hparse
  exact routeLoop_never hlong fuel 0 routes r hloop

/-- A file of routes is loaded into an empty table exactly if it has at most 255 entries and
every name has two or three characters. A longer file keeps the loop going for ever. -/
theorem parseUserParams_loads_iff (hroot : routes.routeTableRoot = none)
    (hmem : ∀ heap, mem.pick heap ≠ none) (hfile : List.Forall₂ RouteObject.Denotes file confs) :
    LoadsRoutes stack ipArr mem file confs routes ↔ file.length ≤ 255 ∧ ∀ c ∈ confs, c.Fits := by
  constructor
  · intro hloads
    have hshort : file.length ≤ 255 := by
      by_contra hlong
      exact not_loadsRoutes_of_long (by omega) hloads
    obtain ⟨fuel, routes', xs, hparse, -, hheld⟩ := hloads
    obtain ⟨r, hloop, -⟩ := Outcome.bind_eq_ret.mp hparse
    have hnames := routeLoop_names hshort [] rfl rfl hfile hloop
    exact ⟨hshort, fun c hc => ⟨hnames c hc, names_short hheld c hc⟩⟩
  · rintro ⟨hshort, hfits⟩
    obtain ⟨routes', ys, hloop, hlist, hheld⟩ := routeLoop_loads stack ipArr hshort hmem
      [] (i := 0) rfl rfl hfile hfits
      (show Chain routes.heap routes.routeTableRoot [] none from hroot)
    refine ⟨file.length + 1, routes', ys, ?_, hlist, hheld⟩
    rw [parseUserParams, hloop, Outcome.ret_bind]

/-- 10.1.1.1 behind itself on `tw0`. -/
def tenConf : RouteConf := ⟨0x0a010101, 0x0a010101, 0x0a010101, tw0, by decide⟩

def tenObject : RouteObject :=
  let quad := some (dottedQuad octetTen octetOne octetOne octetOne)
  ⟨quad, quad, quad, some tw0⟩

/-- An object with one quad in place of three denotes a route with that address three times. -/
lemma denotes_quad {quad name : CString} {ip : UInt32} (hquad : Renders quad ip)
    (hname : 0 ∉ name) : RouteObject.Denotes ⟨some quad, some quad, some quad, some name⟩
      ⟨ip, ip, ip, name, hname⟩ :=
  ⟨⟨quad, rfl, hquad⟩, ⟨quad, rfl, hquad⟩, ⟨quad, rfl, hquad⟩, rfl⟩

/-- 1.1.1.1 behind itself on `tw1`; its mask lets it cover 11.1.1.1 as `tenConf` does. -/
def broadConf : RouteConf := ⟨0x01010101, 0x01010101, 0x01010101, tw1, by decide⟩

def broadObject : RouteObject :=
  let quad := some (dottedQuad octetOne octetOne octetOne octetOne)
  ⟨quad, quad, quad, some tw1⟩

lemma twoObjects_denote :
    List.Forall₂ RouteObject.Denotes [tenObject, broadObject] [tenConf, broadConf] := by
  have hten : Renders (dottedQuad octetTen octetOne octetOne octetOne) 0x0a010101 :=
    ⟨octetTen, octetOne, octetOne, octetOne, rfl, by decide⟩
  have hone : Renders (dottedQuad octetOne octetOne octetOne octetOne) 0x01010101 :=
    ⟨octetOne, octetOne, octetOne, octetOne, rfl, by decide⟩
  exact .cons (denotes_quad hten tenConf.terminated)
    (.cons (denotes_quad hone broadConf.terminated) .nil)

def bumpRoutes : Malloc (Node Route) := .bump ⟨⟨0, 0, 0, fun _ => 0⟩, none⟩

lemma bumpRoutes_pick (heap : Heap (Node Route)) : bumpRoutes.pick heap ≠ none :=
  Option.some_ne_none _

theorem parseUserParams_loads_two :
    LoadsRoutes (fun _ => 0) (fun _ => 0) bumpRoutes [tenObject, broadObject]
      [tenConf, broadConf] (emptyRoutes 64) :=
  (parseUserParams_loads_iff rfl bumpRoutes_pick twoObjects_denote).mpr
    ⟨by decide, by simp [RouteConf.Fits, tenConf, broadConf, tw0, tw1]⟩

/-- With 256 entries the loop does not end, whatever the fuel. -/
theorem parseUserParams_loops_256 :
    (∀ fuel r, parseUserParams (fun _ => 0) (fun _ => 0) bumpRoutes fuel
      (some (List.replicate 256 tenObject)) (emptyRoutes 64) ≠ .ret r) ∧
    ¬ LoadsRoutes (fun _ => 0) (fun _ => 0) bumpRoutes (List.replicate 256 tenObject)
      (List.replicate 256 tenConf) (emptyRoutes 64) := by
  have hlong : 256 ≤ (List.replicate 256 tenObject).length := (List.length_replicate ..).ge
  refine ⟨fun fuel r hret => ?_, not_loadsRoutes_of_long hlong⟩
  obtain ⟨routes, hloop, -⟩ := Outcome.bind_eq_ret.mp hret
  exact routeLoop_never hlong fuel 0 (emptyRoutes 64) routes hloop

end Load
end Twister
