import Twister.GatewayRoutes

/-! Which route a destination selects. The entries are stored byte-swapped and compared
with the destination as it stands in the packet. -/
namespace Twister

section Names

/-- The first three bytes of a name, its terminator included. -/
def firstThree (name : CString) : Fin 3 → UInt8 := fun i => (name ++ [0]).getD i 0

lemma charAt_getD {name : CString} {i : ℕ} (h : i ≤ name.length) :
    charAt name i = .ret ((name ++ [0]).getD i 0) := by
  rw [charAt, if_neg (by omega), Int.toNat_natCast, List.getD_eq_getElem?_getD]
  rcases Nat.lt_or_eq_of_le h with hlt | rfl
  · rw [List.getElem?_append_left hlt, List.getElem?_eq_getElem hlt]
    rfl
  · simp

lemma copyName_ret {name : CString} (h : 2 ≤ name.length) :
    copyName name = .ret (firstThree name) := by
  have h0 : charAt name 0 = .ret (firstThree name 0) := charAt_getD (i := 0) (by omega)
  have h1 : charAt name 1 = .ret (firstThree name 1) := charAt_getD (i := 1) (by omega)
  have h2 : charAt name 2 = .ret (firstThree name 2) := charAt_getD (i := 2) (by omega)
  have heta : ![firstThree name 0, firstThree name 1, firstThree name 2] = firstThree name := by
    funext i
    fin_cases i <;> rfl
  rw [copyName, h0, h1, h2, ← heta]
  rfl

end Names

section Select

/-- The arguments of one call in host order, and the allocator it finds. -/
structure RouteCall where
  netToAdd : UInt32
  netmaskToAdd : UInt32
  gatewayToAdd : UInt32
  portId : CString
  mem : Malloc (Node Route)

namespace RouteCall

/-- The entry that the call adds. -/
def entry (o : RouteCall) : Route :=
  ⟨rteBeToCpu32 o.netToAdd, rteBeToCpu32 o.gatewayToAdd, rteBeToCpu32 o.netmaskToAdd,
    firstThree o.portId⟩

def Covers (o : RouteCall) (d : UInt32) : Prop := d &&& o.netmaskToAdd = o.netToAdd

instance (o : RouteCall) (d : UInt32) : Decidable (o.Covers d) :=
  inferInstanceAs (Decidable (_ = _))

/-- A block is left, and the name has the three bytes that are copied. -/
def CanAdd (o : RouteCall) (routes : RouteTable) : Prop :=
  o.mem.pick routes.heap ≠ none ∧ 2 ≤ o.portId.length

end RouteCall

/-- Emits what the call returns. -/
def stepAdd (routes : RouteTable) (o : RouteCall) : Outcome (RouteTable × List Int) := do
  let (status, routes) ← twAddRouteEntry o.mem routes o.netToAdd o.netmaskToAdd o.gatewayToAdd
    o.portId
  .ret (routes, [status])

/-- The table has one entry for each call, in order, and a destination leads to the entry of
the first call that covers it. -/
structure SelectsFirst (os : List RouteCall) (routes : RouteTable) (xs : List (ℕ × Route)) :
    Prop where
  list : Chain routes.heap routes.routeTableRoot xs none
  entries : xs.map Prod.snd = os.map RouteCall.entry
  size : routes.routeTableSize = UInt32.ofNat os.length
  found : ∀ d pre o post, os = pre ++ o :: post → (∀ o' ∈ pre, ¬ o'.Covers d) → o.Covers d →
    ∃ x, xs[pre.length]? = some x ∧ twSearchRoute routes (rteCpuToBe32 d) = .ret (some x.1)
  null : ∀ d, twSearchRoute routes (rteCpuToBe32 d) = .ret none ↔ ∀ o ∈ os, ¬ o.Covers d

variable {routes : RouteTable} {xs : List (ℕ × Route)} {os : List RouteCall}

/-- A stored entry matches a packet exactly if the call covers the destination. -/
lemma entry_matches_iff (o : RouteCall) (d : UInt32) :
    o.entry.netMask &&& rteCpuToBe32 d = o.entry.netAddr ↔ o.Covers d := by
  change bswap32 o.netmaskToAdd &&& bswap32 d = bswap32 o.netToAdd ↔ _
  rw [← bswap32_and, bswap32_injective.eq_iff, UInt32.and_comm]
  rfl

lemma twSearchRoute_eq (h : Chain routes.heap routes.routeTableRoot xs none) (ip : UInt32) :
    twSearchRoute routes ip =
      .ret ((xs.find? fun x => x.2.netMask &&& ip = x.2.netAddr).map Prod.fst) :=
  findNode_spec _ h (Nat.lt_succ_of_le h.length_le_top)

lemma find?_eq_none_of_entries (hentries : xs.map Prod.snd = os.map RouteCall.entry)
    (d : UInt32) :
    xs.find? (fun x => x.2.netMask &&& rteCpuToBe32 d = x.2.netAddr) = none ↔
      ∀ o ∈ os, ¬ o.Covers d := by
  have hall : (∀ r ∈ xs.map Prod.snd, ¬ r.netMask &&& rteCpuToBe32 d = r.netAddr) ↔
      ∀ o ∈ os, ¬ o.Covers d := by
    rw [hentries]
    simp only [List.forall_mem_map, entry_matches_iff]
  rw [← hall, List.find?_eq_none, List.forall_mem_map]
  simp only [decide_eq_true_eq]

lemma selectsFirst_of_entries (hlist : Chain routes.heap routes.routeTableRoot xs none)
    (hentries : xs.map Prod.snd = os.map RouteCall.entry)
    (hsize : routes.routeTableSize = UInt32.ofNat os.length) : SelectsFirst os routes xs := by
  refine ⟨hlist, hentries, hsize, fun d pre o post hos hpre ho => ?_, fun d => ?_⟩
  · rw [hos, List.map_append, List.map_cons] at hentries
    obtain ⟨ys, zs, rfl, hys, hzs⟩ := List.map_eq_append_iff.mp hentries
    obtain ⟨x, zs, rfl, hx, -⟩ := List.map_eq_cons_iff.mp hzs
    have hlen : ys.length = pre.length := by simpa using congrArg List.length hys
    have hfirst := (find?_eq_none_of_entries hys d).mpr hpre
    have hhit : x.2.netMask &&& rteCpuToBe32 d = x.2.netAddr := by
      rw [hx]
      exact (entry_matches_iff o d).mpr ho
    refine ⟨x, by simp [← hlen], ?_⟩
    rw [twSearchRoute_eq hlist, List.find?_append, hfirst, Option.none_or]
    simp only [List.find?_cons, decide_eq_true hhit, Option.map_some]
  · rw [twSearchRoute_eq hlist, Outcome.ret.injEq, Option.map_eq_none_iff,
      find?_eq_none_of_entries hentries]

lemma stepAdd_ret (hlist : Chain routes.heap routes.routeTableRoot xs none) {o : RouteCall}
    (hadd : o.CanAdd routes) :
    ∃ routes' a, stepAdd routes o = .ret (routes', [0]) ∧
      Chain routes'.heap routes'.routeTableRoot (xs ++ [(a, o.entry)]) none ∧
      routes'.routeTableSize = routes.routeTableSize + 1 := by
  obtain ⟨⟨a, junk⟩, hpick⟩ := Option.ne_none_iff_exists'.mp hadd.1
  obtain ⟨routes', hcall, hlist', hsize⟩ := twAddRouteEntry_some hlist hpick
    (copyName_ret hadd.2) o.netToAdd o.netmaskToAdd o.gatewayToAdd
  exact ⟨routes', a, by rw [stepAdd, hcall, Outcome.ret_bind], hlist', hsize⟩

/-- Adding any routes to an empty table returns, and the table then selects the first route
that covers a destination. -/
theorem routes_selectFirst (hroot : routes.routeTableRoot = none)
    (hsize : routes.routeTableSize = 0)
    (hadd : EachCall stepAdd routes (fun s _ o => o.CanAdd s) os) :
    ∃ routes' codes xs, runOps stepAdd routes os = .ret (routes', codes) ∧
      SelectsFirst os routes' xs := by
  have hinit : ∃ xs, Chain routes.heap routes.routeTableRoot xs none ∧
      xs.map Prod.snd = ([] : List RouteCall).map RouteCall.entry ∧
      routes.routeTableSize = UInt32.ofNat 0 := ⟨[], hroot, rfl, hsize⟩
  have hreach := runOps_reaches
    (J := fun os s _ => ∃ xs, Chain s.heap s.routeTableRoot xs none ∧
      xs.map Prod.snd = os.map RouteCall.entry ∧ s.routeTableSize = UInt32.ofNat os.length)
    (C := fun _ _ => True) hinit ?_ hadd (fun _ _ _ _ _ _ _ => trivial) List.prefix_rfl
  · obtain ⟨routes', codes, hrun, xs, hlist, hentries, hsize'⟩ := hreach
    exact ⟨routes', codes, xs, hrun, selectsFirst_of_entries hlist hentries hsize'⟩
  · rintro pre s codes o ⟨xs, hlist, hentries, hsize⟩ hcan -
    obtain ⟨s', a, hstep, hlist', hsize'⟩ := stepAdd_ret hlist hcan
    refine ⟨s', [0], hstep, xs ++ [(a, o.entry)], hlist', ?_, ?_⟩
    · rw [List.map_append, List.map_append, hentries]
      rfl
    · rw [hsize', hsize, List.length_append, List.length_singleton, UInt32.ofNat_add]
      rfl

/-- 10.1.0.0/16 on `tw1` ahead of 10.0.0.0/8 on `tw0`. -/
def nestedRoutes : List RouteCall :=
  let mem : Malloc (Node Route) := .bump ⟨⟨0, 0, 0, fun _ => 0⟩, none⟩
  [⟨0x0a010000, 0xffff0000, 0, tw1, mem⟩, ⟨0x0a000000, 0xff000000, 0, tw0, mem⟩]

theorem routes_selectFirst_nested :
    ∃ routes codes xs, runOps stepAdd (emptyRoutes 64) nestedRoutes = .ret (routes, codes) ∧
      SelectsFirst nestedRoutes routes xs :=
  routes_selectFirst rfl rfl
    (eachCall_cons rfl ⟨(fun h => nomatch h), by decide⟩
      (eachCall_singleton ⟨(fun h => nomatch h), by decide⟩))

end Select
end Twister
