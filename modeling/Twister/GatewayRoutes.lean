import Twister.Gateway

/-! The route table as it is loaded. The name of a port has three characters and no
terminator, so what it reads as depends on where the next entry lies. -/
namespace Twister

section Names

/-- `tw0` to `tw7` -/
def portNameOf (k : Fin maxEthPorts) : CString := twName (portByte k)

lemma zero_notMem_portNameOf (k : Fin maxEthPorts) : 0 ∉ portNameOf k := by
  revert k
  decide

lemma copyName_portNameOf (k : Fin maxEthPorts) :
    ∃ portName, copyName (portNameOf k) = .ret portName ∧ List.ofFn portName = portNameOf k :=
  ⟨![0x74, 0x77, 0x30 + portByte k], rfl, rfl⟩

lemma bytes64_first (x : UInt64) :
    ∃ rest, List.ofFn (bytes64 x) = UInt8.ofNat x.toNat :: rest := by
  refine ⟨List.ofFn fun i : Fin 7 => bytes64 x i.succ, ?_⟩
  rw [List.ofFn_succ, bytes64, Fin.val_zero, pow_zero, Nat.div_one]

/-- A name without zeros is read back exactly if a zero follows it at once. -/
lemma takeWhile_eq_name_iff {name rest : List UInt8} {b : UInt8} (hname : 0 ∉ name) :
    (name ++ b :: rest).takeWhile (fun c => c ≠ 0) = name ↔ b = 0 := by
  have hall : ∀ c ∈ name, decide (c ≠ 0) = true := fun c hc =>
    decide_eq_true fun h => hname (h ▸ hc)
  rw [List.takeWhile_append_of_pos hall]
  by_cases hb : b = 0
  · simp [hb]
  · simp [hb]

lemma nameOf_eq_iff (routes : RouteTable) {route : Route} (next : Option ℕ) {k : Fin maxEthPorts}
    (hroute : List.ofFn route.portName = portNameOf k) :
    routes.nameOf ⟨route, next⟩ = .ret (portNameOf k) ↔
      (routes.pointer next).toNat % 256 = 0 := by
  obtain ⟨rest, hrest⟩ := bytes64_first (routes.pointer next)
  have hzero : UInt8.ofNat (routes.pointer next).toNat = 0 ↔
      (routes.pointer next).toNat % 256 = 0 := by
    rw [← UInt8.toNat_inj, UInt8.toNat_ofNat']
    rfl
  rw [← hzero, RouteTable.nameOf, hroute, hrest]
  constructor
  · intro h
    split_ifs at h
    exact (takeWhile_eq_name_iff (zero_notMem_portNameOf k)).mp (Outcome.ret.inj h)
  · intro hb
    rw [if_pos (by simp [hb]), (takeWhile_eq_name_iff (zero_notMem_portNameOf k)).mpr hb]

end Names

section Add
variable {routes : RouteTable} {xs : List (ℕ × Route)} {mem : Malloc (Node Route)}

/-- A new entry goes behind the last one. -/
lemma twAddRouteEntry_some {a : ℕ} {junk : Node Route} {portId : CString}
    {portName : Fin 3 → UInt8} (h : Chain routes.heap routes.routeTableRoot xs none)
    (hpick : mem.pick routes.heap = some (a, junk)) (hcopy : copyName portId = .ret portName)
    (netToAdd netmaskToAdd gatewayToAdd : UInt32) :
    ∃ routes', twAddRouteEntry mem routes netToAdd netmaskToAdd gatewayToAdd portId =
        .ret (0, routes') ∧
      Chain routes'.heap routes'.routeTableRoot (xs ++ [(a, ⟨rteBeToCpu32 netToAdd,
        rteBeToCpu32 gatewayToAdd, rteBeToCpu32 netmaskToAdd, portName⟩)]) none ∧
      routes'.routeTableSize = routes.routeTableSize + 1 := by
  obtain ⟨heap, root, hpush, hcell, hchain⟩ := pushBack_some h hpick
  refine ⟨⟨heap.write a ⟨⟨rteBeToCpu32 netToAdd, rteBeToCpu32 gatewayToAdd,
    rteBeToCpu32 netmaskToAdd, portName⟩, none⟩, root, routes.address,
    routes.routeTableSize + 1⟩, ?_, hchain _, rfl⟩
  simp only [twAddRouteEntry, hpush, hcopy, Heap.store_some _ hcell, Outcome.ret_bind]

end Add

section Load

/-- The arguments of one call, and the allocator it finds. -/
structure RouteAdd where
  netToAdd : UInt32
  netmaskToAdd : UInt32
  gatewayToAdd : UInt32
  port : Fin maxEthPorts
  mem : Malloc (Node Route)

/-- Emits the name that the entry was added with. -/
def stepRoute (routes : RouteTable) (o : RouteAdd) : Outcome (RouteTable × List CString) := do
  let (_, routes) ← twAddRouteEntry o.mem routes o.netToAdd o.netmaskToAdd o.gatewayToAdd
    (portNameOf o.port)
  .ret (routes, [portNameOf o.port])

/-- The entry reads as the name, which leads to a port of that name. -/
def FindsPort (ports : PortTable) (routes : RouteTable) (x : ℕ × Route) (name : CString) : Prop :=
  ∃ route, routes.heap.load (some x.1) = .ret route ∧ routes.nameOf route = .ret name ∧
    ∃ i : Fin maxEthPorts, (ports i).portName = name ∧ twEthNameToId ports name = i.val

/-- The entries hold the names of configured ports, in order. -/
def HoldNames (ports : PortTable) : List (ℕ × Route) → List CString → Prop :=
  List.Forall₂ fun x name => (∃ k, name = portNameOf k) ∧ List.ofFn x.2.portName = name ∧
    ∃ i, (ports i).portName = name

/-- The entries behind the first lie at multiples of 256. -/
def RestAligned (routes : RouteTable) (xs : List (ℕ × Route)) : Prop :=
  ∀ x ∈ xs.tail, (routes.address x.1).toNat % 256 = 0

variable {ports : PortTable} {routes : RouteTable} {xs : List (ℕ × Route)} {names : List CString}

lemma stepRoute_ret (h : Chain routes.heap routes.routeTableRoot xs none)
    (hnames : HoldNames ports xs names) {o : RouteAdd} (hmem : o.mem.pick routes.heap ≠ none)
    (hport : ∃ i, (ports i).portName = portNameOf o.port) :
    ∃ routes' x, stepRoute routes o = .ret (routes', [portNameOf o.port]) ∧
      Chain routes'.heap routes'.routeTableRoot (xs ++ [x]) none ∧
      HoldNames ports (xs ++ [x]) (names ++ [portNameOf o.port]) := by
  obtain ⟨⟨a, junk⟩, hpick⟩ := Option.ne_none_iff_exists'.mp hmem
  obtain ⟨portName, hcopy, hname⟩ := copyName_portNameOf o.port
  obtain ⟨routes', hadd, hchain, -⟩ := twAddRouteEntry_some h hpick hcopy o.netToAdd
    o.netmaskToAdd o.gatewayToAdd
  refine ⟨routes', _, ?_, hchain, ?_⟩
  · rw [stepRoute, hadd, Outcome.ret_bind]
  · exact List.rel_append hnames (.cons ⟨⟨o.port, rfl⟩, hname, hport⟩ .nil)

/-- An entry reads on into the address of the one behind it. -/
lemma findsPort_iff {a : ℕ} {route : Route} {next : Option ℕ} {name : CString}
    (hcell : routes.heap.cell a = some ⟨route, next⟩) (hk : ∃ k, name = portNameOf k)
    (hname : List.ofFn route.portName = name) (hport : ∃ i, (ports i).portName = name) :
    FindsPort ports routes (a, route) name ↔ (routes.pointer next).toNat % 256 = 0 := by
  obtain ⟨k, rfl⟩ := hk
  obtain ⟨i, hi⟩ := hport
  rw [← nameOf_eq_iff routes next hname]
  constructor
  · rintro ⟨route', hload, hread, -⟩
    obtain rfl : ⟨route, next⟩ = route' := by simpa [Heap.load_some hcell] using hload
    exact hread
  · exact fun hread => ⟨_, Heap.load_some hcell, hread, twEthNameToId_found hi⟩

lemma findPorts_iff {p : Option ℕ} (h : Chain routes.heap p xs none)
    (hnames : HoldNames ports xs names) :
    List.Forall₂ (FindsPort ports routes) xs names ↔ RestAligned routes xs := by
  induction hnames generalizing p with
  | nil => simp [RestAligned]
  | @cons x name xs names hx _ ih =>
    obtain ⟨rfl, next, hcell, hrest⟩ := h
    rw [List.forall₂_cons, ih hrest, findsPort_iff hcell hx.1 hx.2.1 hx.2.2]
    -- the entry behind this one is the head of the rest
    cases xs with
    | nil =>
      obtain rfl : next = none := hrest
      simp [RestAligned, RouteTable.pointer]
    | cons y ys =>
      obtain ⟨rfl, -⟩ := hrest
      simp [RestAligned, RouteTable.pointer]

lemma load_routes (hempty : routes.routeTableRoot = none) {os : List RouteAdd}
    (hports : ∀ o ∈ os, ∃ i, (ports i).portName = portNameOf o.port)
    (hmem : EachCall stepRoute routes (fun s _ o => o.mem.pick s.heap ≠ none) os) :
    ∃ routes' names, runOps stepRoute routes os = .ret (routes', names) ∧
      names = os.map (fun o => portNameOf o.port) ∧
      ∃ xs, Chain routes'.heap routes'.routeTableRoot xs none ∧ HoldNames ports xs names := by
  have hinit : ∃ xs, Chain routes.heap routes.routeTableRoot xs none ∧ HoldNames ports xs [] :=
    ⟨[], hempty, .nil⟩
  refine runOps_reaches (J := fun os s names => names = os.map (fun o => portNameOf o.port) ∧
      ∃ xs, Chain s.heap s.routeTableRoot xs none ∧ HoldNames ports xs names)
    (C := fun _ o => ∃ i, (ports i).portName = portNameOf o.port) ⟨rfl, hinit⟩
    ?_ hmem (fun pre o s names hpre _ _ => ?_) List.prefix_rfl
  · rintro os s names o ⟨rfl, xs, hchain, hnames⟩ hmem hport
    obtain ⟨s', x, hstep, hchain', hnames'⟩ := stepRoute_ret hchain hnames hmem hport
    exact ⟨s', _, hstep, by simp, xs ++ [x], hchain', hnames'⟩
  · exact hports o (hpre.subset (by simp))

/-- Loading into an empty table returns with one entry for each call. All of them find their
port exactly if each one behind the first lies at an address whose low byte is zero. -/
theorem routes_findPorts_iff (hempty : routes.routeTableRoot = none) {os : List RouteAdd}
    (hports : ∀ o ∈ os, ∃ i, (ports i).portName = portNameOf o.port)
    (hmem : EachCall stepRoute routes (fun s _ o => o.mem.pick s.heap ≠ none) os) :
    ∃ routes' xs names, runOps stepRoute routes os = .ret (routes', names) ∧
      names = os.map (fun o => portNameOf o.port) ∧
      Chain routes'.heap routes'.routeTableRoot xs none ∧
      (List.Forall₂ (FindsPort ports routes') xs names ↔ RestAligned routes' xs) := by
  obtain ⟨routes', names, hrun, hlist, xs, hchain, hnames⟩ := load_routes hempty hports hmem
  exact ⟨routes', xs, names, hrun, hlist, hchain, findPorts_iff hchain hnames⟩

/-- An empty table whose blocks lie `step` bytes apart. -/
def emptyRoutes (step : ℕ) : RouteTable := ⟨.empty, none, fun a => UInt64.ofNat (step * (a + 1)), 0⟩

/-- 10.0.0.0/8 on `tw0` and 20.0.0.0/8 on `tw1`. -/
def twoRoutes : List RouteAdd :=
  let mem : Malloc (Node Route) := .bump ⟨⟨0, 0, 0, fun _ => 0⟩, none⟩
  [⟨0x0a000000, 0xff000000, 0, 0, mem⟩, ⟨0x14000000, 0xff000000, 0, 1, mem⟩]

theorem routes_findPorts_aligned :
    ∃ routes xs names, runOps stepRoute (emptyRoutes 256) twoRoutes = .ret (routes, names) ∧
      Chain routes.heap routes.routeTableRoot xs none ∧
      List.Forall₂ (FindsPort twPorts routes) xs names := by
  have hports : ∀ o ∈ twoRoutes, ∃ i, (twPorts i).portName = portNameOf o.port :=
    fun o _ => ⟨o.port, rfl⟩
  have hmem : EachCall stepRoute (emptyRoutes 256) (fun s _ o => o.mem.pick s.heap ≠ none)
      twoRoutes :=
    eachCall_cons rfl (fun h => nomatch h) (eachCall_singleton fun h => nomatch h)
  obtain ⟨routes, xs, names, hrun, -, hchain, hiff⟩ :=
    routes_findPorts_iff (show (emptyRoutes 256).routeTableRoot = none from rfl) hports hmem
  refine ⟨routes, xs, names, hrun, hchain, hiff.mpr fun x _ => ?_⟩
  obtain ⟨rfl, -⟩ : _ = routes ∧ _ = names := Prod.mk.inj (Outcome.ret.inj hrun)
  change (256 * (x.1 + 1)) % 2 ^ 64 % 256 = 0
  omega

/-- At the distance of a cache line the second entry lies at 0x80, and the name of the first
reads on into that byte. -/
theorem routes_lose_port :
    ∃ routes xs names, runOps stepRoute (emptyRoutes 64) twoRoutes = .ret (routes, names) ∧
      Chain routes.heap routes.routeTableRoot xs none ∧
      ¬ List.Forall₂ (FindsPort twPorts routes) xs names ∧
      ∃ route, routes.heap.load routes.routeTableRoot = .ret route ∧
        routes.nameOf route = .ret [0x74, 0x77, 0x30, 0x80] ∧
        twEthNameToId twPorts [0x74, 0x77, 0x30, 0x80] = -1 := by
  refine ⟨_, [(0, _), (1, _)], _, rfl, ⟨rfl, _, rfl, rfl, _, rfl, rfl⟩, fun hall => ?_, _, rfl, rfl,
    by decide⟩
  obtain ⟨route, hload, hread, -⟩ := (List.forall₂_cons.mp hall).1
  obtain rfl := Outcome.ret.inj hload
  exact absurd (Outcome.ret.inj hread) (by decide)

end Load
end Twister
