import Twister.InitFuncs
import Twister.ReceiveRun
import Twister.Startup
import Twister.TxRun

/-! An application from its start: which ports it gets, and in which slots of its engine. The loop
takes a slot for a port when it receives and when it drains, which is right for the ports that the
configuration tool enables. -/
namespace Twister
variable {μ : Type}

section Model
variable (stack : ℕ → Int) (ipArr : Fin 4 → UInt8)

/-- The calls by which an application maps its first `n` ports. -/
def firstPorts (n : ℕ) : List (CString × CString) :=
  (List.range n).map fun k => (ethString (UInt8.ofNat k), engineString 0)

/-- What every application begins with. -/
def startApp (m : Machine) (initEalEnv : Outcome UInt16) (jsonFile : Option (List PortObject))
    (n : ℕ) (g : Globals μ) : Outcome (Globals μ) := do
  let g ← twInitGlobal stack ipArr m initEalEnv jsonFile g
  let conf ← mapPorts g.eth.portInfo g.lcores.conf (firstPorts n)
  .ret { g with lcores := { g.lcores with conf } }

end Model

section Names
variable {appPortMask : UInt16} {n : ℕ} {p : Fin maxEthPorts}

/-- The enabled ones of the first `n` ports. -/
def enabledPorts (appPortMask : UInt16) (n : ℕ) : List (Fin maxEthPorts) :=
  ((List.finRange maxEthPorts).take n).filter fun p => portEnabled appPortMask p

lemma mem_enabledPorts : p ∈ enabledPorts appPortMask n ↔ Configured appPortMask n p := by
  rw [enabledPorts, List.mem_filter, List.mem_take_iff_getElem]
  simp only [List.getElem_finRange, List.length_finRange]
  constructor
  · rintro ⟨⟨i, hi, rfl⟩, hen⟩
    exact ⟨lt_of_lt_of_le hi (min_le_left _ _), hen⟩
  · rintro ⟨hlt, hen⟩
    exact ⟨⟨p.val, lt_min hlt p.isLt, rfl⟩, hen⟩

lemma enabledPorts_length_le : (enabledPorts appPortMask n).length ≤ maxEthPorts :=
  calc (enabledPorts appPortMask n).length
      ≤ ((List.finRange maxEthPorts).take n).length := List.length_filter_le _ _
    _ ≤ (List.finRange maxEthPorts).length := List.length_take_le' _ _
    _ = maxEthPorts := List.length_finRange

lemma enabledPorts_succ (hn : n < maxEthPorts) : enabledPorts appPortMask (n + 1) =
    enabledPorts appPortMask n ++ if portEnabled appPortMask n then [⟨n, hn⟩] else [] := by
  rw [enabledPorts, finRange_take_succ hn, List.filter_append, List.filter_singleton,
    cond_eq_ite]
  rfl

/-- The counter of the names numbers the enabled ports. -/
lemma enabledBelow_eq (hn : n ≤ maxEthPorts) :
    enabledBelow appPortMask n = UInt8.ofNat (enabledPorts appPortMask n).length := by
  induction n with
  | zero => rfl
  | succ n ih =>
    rw [enabledBelow, enabledPorts_succ hn]
    by_cases hen : portEnabled appPortMask n
    · rw [if_pos hen, if_pos hen, ih (Nat.le_of_succ_le hn), List.length_append, UInt8.ofNat_add]
      rfl
    · rw [if_neg hen, if_neg hen, ih (Nat.le_of_succ_le hn), List.append_nil]

lemma enabledBelow_getElem (hn : n ≤ maxEthPorts) {k : ℕ}
    (hk : k < (enabledPorts appPortMask n).length) :
    enabledBelow appPortMask (enabledPorts appPortMask n)[k] = UInt8.ofNat k := by
  induction n with
  | zero => exact absurd hk (Nat.not_lt_zero k)
  | succ n ih =>
    have hsucc : enabledPorts appPortMask (n + 1) = _ := enabledPorts_succ hn
    rcases Nat.lt_or_ge k (enabledPorts appPortMask n).length with hold | hnew
    · have hget : (enabledPorts appPortMask (n + 1))[k] = (enabledPorts appPortMask n)[k] := by
        simp only [hsucc, List.getElem_append_left hold]
      rw [hget]
      exact ih (Nat.le_of_succ_le hn) hold
    · -- the port that was added is the last one
      by_cases hen : portEnabled appPortMask n
      · rw [if_pos hen] at hsucc
        have hk' := hk
        rw [hsucc, List.length_append, List.length_singleton] at hk'
        obtain rfl : k = (enabledPorts appPortMask n).length := by omega
        have hget : (enabledPorts appPortMask (n + 1))[(enabledPorts appPortMask n).length] =
            ⟨n, hn⟩ := by
          simp only [hsucc, List.getElem_concat_length]
        rw [hget]
        exact enabledBelow_eq (Nat.le_of_succ_le hn)
      · rw [if_neg hen, List.append_nil] at hsucc
        rw [hsucc] at hk
        omega

lemma ethString_injective : ∀ j k : Fin (maxEthPorts + 1),
    ethString (UInt8.ofNat j.val) = ethString (UInt8.ofNat k.val) → j = k := by decide

lemma ethString_ne_nil (k : UInt8) : ethString k ≠ [] := List.cons_ne_nil _ _

/-- The names of a table behind the start: those of the enabled ports, the others blank. -/
structure Named (appPortMask : UInt16) (n : ℕ) (ports : PortTable) : Prop where
  enabled : ∀ p, Configured appPortMask n p → (ports p).portName = nameOf appPortMask p
  blank : ∀ p, ¬ Configured appPortMask n p → (ports p).portName = []

variable {ports : PortTable}

/-- A port with the name `tw%d` is the enabled port of that number. -/
lemma Named.number (h : Named appPortMask n ports) (hn : n ≤ maxEthPorts) {k : ℕ}
    (hk : k ≤ maxEthPorts) (hp : (ports p).portName = ethString (UInt8.ofNat k)) :
    ∃ hk : k < (enabledPorts appPortMask n).length, (enabledPorts appPortMask n)[k] = p := by
  have hconf : Configured appPortMask n p := by
    by_contra hconf
    exact ethString_ne_nil _ (hp.symm.trans (h.blank p hconf))
  obtain ⟨i, hi, rfl⟩ := List.getElem_of_mem (mem_enabledPorts.mpr hconf)
  have hlen : (enabledPorts appPortMask n).length ≤ maxEthPorts := enabledPorts_length_le
  rw [h.enabled _ hconf, nameOf, enabledBelow_getElem hn hi] at hp
  have hik := ethString_injective ⟨i, by omega⟩ ⟨k, by omega⟩ hp
  obtain rfl : i = k := Fin.mk.inj hik
  exact ⟨hi, rfl⟩

lemma Named.twEthNameToId (h : Named appPortMask n ports) (hn : n ≤ maxEthPorts) {k : ℕ}
    (hk : k < (enabledPorts appPortMask n).length) :
    twEthNameToId ports (ethString (UInt8.ofNat k)) = (enabledPorts appPortMask n)[k].val := by
  have hmem := mem_enabledPorts.mp (List.getElem_mem hk)
  have hname : (ports (enabledPorts appPortMask n)[k]).portName = ethString (UInt8.ofNat k) := by
    rw [h.enabled _ hmem, nameOf, enabledBelow_getElem hn hk]
  obtain ⟨j, hj, hid⟩ := twEthNameToId_found hname
  have hlen : (enabledPorts appPortMask n).length ≤ maxEthPorts := enabledPorts_length_le
  obtain ⟨hlt, rfl⟩ := h.number hn (by omega) hj
  exact hid

lemma Named.twEthNameToId_none (h : Named appPortMask n ports) (hn : n ≤ maxEthPorts) {k : ℕ}
    (hk : (enabledPorts appPortMask n).length ≤ k) (hmax : k ≤ maxEthPorts) :
    Twister.twEthNameToId ports (ethString (UInt8.ofNat k)) = -1 := by
  rcases twEthNameToId_spec ports (ethString (UInt8.ofNat k)) with hnone | ⟨p, hp, -⟩
  · exact hnone
  · obtain ⟨hlt, -⟩ := h.number hn hmax hp
    omega

end Names

section Slots
variable {appPortMask : UInt16} {total n : ℕ} {ports : PortTable} {confs : LcoreTable μ}
  {e : Fin maxLcores}

/-- The first enabled ports stand in the slots of one engine, and no other engine has a port. -/
structure Slots (appPortMask : UInt16) (total n : ℕ) (e : Fin maxLcores) (confs : LcoreTable μ) :
    Prop where
  managed : (confs e).managed = ((enabledPorts appPortMask total).take n).map portByte
  others : ∀ i, i ≠ e → (confs i).managed = []
  numPort : ∀ i, (confs i).numPort.toNat ≤ maxEthPorts

lemma mapPorts_append (ports : PortTable) (confs : LcoreTable μ)
    (calls calls' : List (CString × CString)) :
    mapPorts ports confs (calls ++ calls') = (do
      let confs ← mapPorts ports confs calls
      mapPorts ports confs calls') := List.foldlM_append

lemma mapPorts_unmappable {calls : List (CString × CString)}
    (h : ∀ call ∈ calls, ¬ Mappable ports confs call.1 call.2) :
    mapPorts ports confs calls = .ret confs := by
  induction calls with
  | nil => rfl
  | cons call calls ih =>
    have hfirst := twMapPortToEngine_unmappable (h call List.mem_cons_self)
    rw [mapPorts, List.foldlM_cons, hfirst, Outcome.ret_bind]
    exact ih fun c hc => h c (List.mem_cons_of_mem call hc)

lemma firstPorts_add (c d : ℕ) : firstPorts (c + d) = firstPorts c ++
    (List.range d).map fun k => (ethString (UInt8.ofNat (c + k)), engineString 0) := by
  rw [firstPorts, List.range_add, List.map_append, List.map_map]
  rfl

lemma portsOf_firstPorts (hnamed : Named appPortMask total ports) (htotal : total ≤ maxEthPorts)
    (hengine : twEngineNameToLcoreId confs (engineString 0) = e.val) {c : ℕ}
    (hc : c ≤ (enabledPorts appPortMask total).length) (i : Fin maxLcores) :
    portsOf ports confs (firstPorts c) i =
      if i = e then ((enabledPorts appPortMask total).take c).map portByte else [] := by
  rw [portsOf, firstPorts, List.filter_map]
  by_cases hi : i = e
  · subst hi
    have hall : (List.range c).filter ((fun call : CString × CString =>
        twEngineNameToLcoreId confs call.2 = i.val) ∘
          fun k => (ethString (UInt8.ofNat k), engineString 0)) = List.range c :=
      List.filter_eq_self.mpr fun k _ => by simp [hengine]
    rw [hall, if_pos rfl, List.map_map]
    refine List.ext_getElem (by simp [hc]) fun k hk _ => ?_
    simp only [List.length_map, List.length_range] at hk
    have hk' : k < (enabledPorts appPortMask total).length := by omega
    simp only [List.getElem_map, List.getElem_range, Function.comp_apply, List.getElem_take,
      hnamed.twEthNameToId htotal hk', Int.toNat_natCast]
    rfl
  · have hnone : (List.range c).filter ((fun call : CString × CString =>
        twEngineNameToLcoreId confs call.2 = i.val) ∘
          fun k => (ethString (UInt8.ofNat k), engineString 0)) = [] := by
      have hne : (e.val : Int) ≠ i.val := fun he => hi (Fin.ext (by exact_mod_cast he.symm))
      refine List.filter_eq_nil_iff.mpr fun k _ => ?_
      simpa [hengine] using hne
    rw [hnone, if_neg hi, List.map_nil, List.map_nil]

/-- The mapping calls of an application behind the start. -/
lemma mapPorts_firstPorts (hnamed : Named appPortMask total ports) (htotal : total ≤ maxEthPorts)
    (hengine : twEngineNameToLcoreId confs (engineString 0) = e.val)
    (hfresh : ∀ i, (confs i).numPort = 0) (hn : n ≤ maxEthPorts) :
    ∃ confs', mapPorts ports confs (firstPorts n) = .ret confs' ∧
      Slots appPortMask total n e confs' := by
  -- names beyond the enabled ports are not known, so that their calls do nothing
  obtain ⟨c, d, rfl, hc, hd⟩ : ∃ c d, n = c + d ∧
      c ≤ (enabledPorts appPortMask total).length ∧
      (d = 0 ∨ c = (enabledPorts appPortMask total).length) := by
    rcases Nat.le_total n (enabledPorts appPortMask total).length with hle | hge
    · exact ⟨n, 0, rfl, hle, Or.inl rfl⟩
    · exact ⟨_, n - (enabledPorts appPortMask total).length, by omega, le_rfl, Or.inr rfl⟩
  have hports := portsOf_firstPorts hnamed htotal hengine hc
  have hlen : ∀ i, (portsOf ports confs (firstPorts c) i).length ≤ maxEthPorts := by
    intro i
    rw [hports i]
    split
    · simp only [List.length_map, List.length_take]
      omega
    · exact Nat.zero_le _
  have hmap : ∀ call ∈ firstPorts c, Mappable ports confs call.1 call.2 := by
    intro call hcall
    obtain ⟨k, hk, rfl⟩ := List.mem_map.mp hcall
    have hk' : k < (enabledPorts appPortMask total).length :=
      (List.mem_range.mp hk).trans_le hc
    refine ⟨?_, ?_⟩
    · rw [hnamed.twEthNameToId htotal hk']
      omega
    · rw [hengine]
      omega
  obtain ⟨confs', hrun, hgain⟩ := mapPorts_spec hmap fun i => by
    rw [hfresh i]
    simpa using hlen i
  have hrest : mapPorts ports confs' ((List.range d).map fun k =>
      (ethString (UInt8.ofNat (c + k)), engineString 0)) = .ret confs' := by
    refine mapPorts_unmappable fun call hcall => ?_
    obtain ⟨k, hk, rfl⟩ := List.mem_map.mp hcall
    have hkd := List.mem_range.mp hk
    rintro ⟨hknown, -⟩
    exact hknown (hnamed.twEthNameToId_none htotal (by omega) (by omega))
  have hzero : ∀ i, (confs i).managed = [] := fun i => by simp [LcoreConf.managed, hfresh i]
  refine ⟨confs', ?_, ?_, ?_, ?_⟩
  · rw [firstPorts_add, mapPorts_append, hrun, Outcome.ret_bind, hrest]
  · rw [hgain.managed, hzero, List.nil_append, hports, if_pos rfl]
    rcases hd with rfl | rfl
    · rfl
    · rw [List.take_length, List.take_of_length_le (Nat.le_add_right _ _)]
  · intro i hi
    rw [hgain.managed, hzero, List.nil_append, hports, if_neg hi]
  · intro i
    rw [hgain.numPort, hfresh i, UInt8.toNat_zero, Nat.zero_add]
    exact hlen i

end Slots

section Confusion
variable {ports : PortTable} {conf : LcoreConf μ}

/-- Every packet that the loop handles is handled for the port it arrived on. -/
def Attributes (ports : PortTable) (conf : LcoreConf μ) : Prop :=
  ∀ (dev : RxDevice) (handle : RxHandle) (stats : TwStats) (st : ArpState), (∃ xs, st.Lists xs) →
    ∀ stats' st' cs, rxPhase dev ports handle conf stats st = .ret (stats', st', cs) →
      Attributed ports ((received dev conf.managed).filter (RxItem.Handled ·)) cs

/-- A due drain empties the buffers of the ports of the engine and no others. -/
def Drains (conf : LcoreConf μ) : Prop :=
  ∀ (st : TxState μ), st.conf = { conf with txMbufs := st.conf.txMbufs } → st.conf.Bounded →
    ∀ (hz tsc : UInt64) (nic : Nic), drainDue hz tsc st →
      ∃ st' es, twTimelyBurst hz nic tsc st = .ret (st', es) ∧ FlushesManaged st.conf st'.conf

def arpFrame : RxPkt := ⟨plainFrame etherTypeARP, .bump ⟨⟨0, fun _ => 0, 0⟩, none⟩⟩

/-- A device on which every port has an ARP frame. -/
def arpOnAll : RxDevice where
  rteEthRxBurst _ _ := [arpFrame]
  burst_le _ _ := by decide

lemma mem_received_arpOnAll {managed : List UInt8} {i : ℕ} {p : UInt8}
    (h : managed[i]? = some p) :
    ⟨i, p, arpFrame⟩ ∈ (received arpOnAll managed).filter (RxItem.Handled ·) := by
  have hslot : (slotsOf arpOnAll managed)[i]? = some ⟨p, [arpFrame]⟩ := by
    simp [slotsOf, List.getElem?_zipIdx, h, arpOnAll]
  rw [List.mem_filter, received, rxItems, List.mem_flatMap]
  refine ⟨⟨(⟨p, [arpFrame]⟩, i), List.mem_zipIdx_iff_getElem?.mpr hslot, ?_⟩, ?_⟩
  · exact List.mem_map.mpr ⟨arpFrame, List.mem_singleton.mpr rfl, rfl⟩
  · exact decide_eq_true (Or.inl (plainFrame_wireType (by decide)))

lemma rxPhase_arpOnAll (ports : PortTable) (stats : TwStats)
    (hn : conf.numPort.toNat ≤ maxEthPorts) :
    ∃ stats' st' cs,
      rxPhase arpOnAll ports passive conf stats ArpState.empty = .ret (stats', st', cs) ∧
      HandledInSlot ports ((received arpOnAll conf.managed).filter (RxItem.Handled ·)) cs := by
  have hpkt : ∀ item ∈ received arpOnAll conf.managed, item.rx = arpFrame := by
    intro item hitem
    simp only [received, rxItems, slotsOf, arpOnAll, List.mem_flatMap, List.mem_map] at hitem
    obtain ⟨⟨slot, i⟩, hslot, rx, hrx, rfl⟩ := hitem
    have hget := List.mem_zipIdx_iff_getElem?.mp hslot
    rw [List.getElem?_map, Option.map_eq_some_iff] at hget
    obtain ⟨x, -, rfl⟩ := hget
    exact List.mem_singleton.mp hrx
  have hempty : ArpState.empty.Lists [] := rfl
  rcases rxPhase_spec arpOnAll ports passive stats hn hempty with
    hret | ⟨-, item, hitem, heap, hnone⟩ | ⟨-, item, hitem, hnot⟩
  · exact hret
  · rw [hpkt item hitem] at hnone
    cases hnone
  · rw [hpkt item hitem] at hnot
    exact absurd ⟨_, plainFrame_untag (by decide)⟩ hnot

lemma attributes_iff (ports : PortTable) (hn : conf.numPort.toNat ≤ maxEthPorts) :
    Attributes ports conf ↔ ∀ (i : ℕ) (p : UInt8), conf.managed[i]? = some p → p.toNat = i := by
  constructor
  · intro h i p hip
    obtain ⟨stats', st', cs, hrun, hcalls⟩ := rxPhase_arpOnAll ports ⟨0, 0, 0⟩ hn
    have hright := (attributed_iff hcalls).mp
      (h arpOnAll passive ⟨0, 0, 0⟩ ArpState.empty ⟨[], rfl⟩ stats' st' cs hrun)
    exact hright _ (mem_received_arpOnAll hip)
  · intro h dev handle stats st hlists stats' st' cs hrun
    obtain ⟨xs, hxs⟩ := hlists
    rcases rxPhase_spec dev ports handle stats hn hxs with
      ⟨_, _, _, hret, hcalls⟩ | ⟨hexit, -⟩ | ⟨hfault, -⟩
    · rw [hrun] at hret
      obtain ⟨rfl, rfl, rfl⟩ : _ ∧ _ ∧ _ := by simpa using hret
      refine (attributed_iff hcalls).mpr fun item hitem => ?_
      exact h _ _ (received_slot (List.mem_of_mem_filter hitem))
    · rw [hrun] at hexit
      cases hexit
    · rw [hrun] at hfault
      cases hfault

/-- Every port has a packet waiting. -/
def allWaiting (conf : LcoreConf μ) : TxState μ where
  conf := { conf with txMbufs := fun p => { conf.txMbufs p with len := 1 } }
  stats := ⟨0, 0, 0⟩
  prevTsc := 0

lemma drains_iff (hn : conf.numPort.toNat ≤ maxEthPorts) :
    Drains conf ↔ ∀ p, portByte p ∈ conf.managed ↔ p.val < conf.numPort.toNat := by
  constructor
  · intro h p
    have hb : (allWaiting conf).conf.Bounded := fun p => by
      simp only [allWaiting]
      decide
    have hdue : drainDue 1000000 5000 (allWaiting conf) :=
      show (diffTsc 5000 0).toUInt64 > drainTsc 1000000 by decide
    obtain ⟨st', es, hburst, hflush⟩ := h (allWaiting conf) rfl hb 1000000 5000 nicNone hdue
    obtain ⟨st'', hburst', hconf, -⟩ := twTimelyBurst_due nicNone hb hn hdue
    obtain ⟨rfl, -⟩ := Prod.mk.inj (Outcome.ret.inj (hburst.symm.trans hburst'))
    rw [hconf] at hflush
    exact (flushesManaged_drained_iff _).mp hflush p one_ne_zero
  · intro h st hconf hb hz tsc nic hdue
    have hmanaged : st.conf.managed = conf.managed := by
      rw [hconf]
      rfl
    have hnum : st.conf.numPort = conf.numPort := by rw [hconf]
    obtain ⟨st', hburst, hconf', -⟩ := twTimelyBurst_due nic hb (hnum ▸ hn) hdue
    refine ⟨st', _, hburst, ?_⟩
    rw [hconf', flushesManaged_drained_iff, hmanaged, hnum]
    exact fun p _ => h p

end Confusion

section Gaps
variable {appPortMask : UInt16} {total n : ℕ} {e : Fin maxLcores} {confs : LcoreTable μ}

/-- No port is left out before the ones that are used. -/
def Gapless (appPortMask : UInt16) (total n : ℕ) : Prop :=
  ∀ i < ((enabledPorts appPortMask total).take n).length, portEnabled appPortMask i

lemma enabledPorts_length_le_total : (enabledPorts appPortMask total).length ≤ total :=
  calc (enabledPorts appPortMask total).length
      ≤ ((List.finRange maxEthPorts).take total).length := List.length_filter_le _ _
    _ ≤ total := List.length_take_le _ _

/-- A port has no more enabled ports before it than its number. -/
lemma le_enabledPorts_getElem (htotal : total ≤ maxEthPorts) {k : ℕ}
    (hk : k < (enabledPorts appPortMask total).length) :
    (enabledPorts appPortMask (enabledPorts appPortMask total)[k]).length = k := by
  have hp : (enabledPorts appPortMask total)[k].val ≤ maxEthPorts :=
    (enabledPorts appPortMask total)[k].isLt.le
  have hlen : (enabledPorts appPortMask total).length ≤ maxEthPorts := enabledPorts_length_le
  have hlen' : (enabledPorts appPortMask (enabledPorts appPortMask total)[k]).length ≤
      maxEthPorts := enabledPorts_length_le
  have hmax : maxEthPorts < 2 ^ 8 := by decide
  have heq := (enabledBelow_eq hp).symm.trans (enabledBelow_getElem htotal hk)
  have hnat := congrArg UInt8.toNat heq
  rwa [UInt8.toNat_ofNat_of_lt' (show _ < 2 ^ 8 by omega),
    UInt8.toNat_ofNat_of_lt' (show _ < 2 ^ 8 by omega)] at hnat

lemma Gapless.getElem (h : Gapless appPortMask total n) (htotal : total ≤ maxEthPorts) {i : ℕ}
    (hi : i < ((enabledPorts appPortMask total).take n).length) :
    ((enabledPorts appPortMask total).take n)[i].val = i := by
  have hlen : ((enabledPorts appPortMask total).take n).length ≤
      (enabledPorts appPortMask total).length := List.length_take_le' _ _
  have htotal' : (enabledPorts appPortMask total).length ≤ total := enabledPorts_length_le_total
  have hall : enabledPorts appPortMask i = (List.finRange maxEthPorts).take i := by
    refine List.filter_eq_self.mpr fun p hp => ?_
    rw [List.mem_take_iff_getElem] at hp
    obtain ⟨j, hj, rfl⟩ := hp
    rw [List.getElem_finRange]
    refine h j (lt_trans ?_ hi)
    exact lt_of_lt_of_le hj (min_le_left _ _)
  have hmem : (⟨i, by omega⟩ : Fin maxEthPorts) ∈ enabledPorts appPortMask total :=
    mem_enabledPorts.mpr ⟨show i < total by omega, h i hi⟩
  obtain ⟨j, hj, hget⟩ := List.getElem_of_mem hmem
  have hrank := le_enabledPorts_getElem htotal hj
  rw [hget, hall, List.length_take, List.length_finRange] at hrank
  obtain rfl : i = j := by omega
  rw [List.getElem_take, hget]

lemma slots_gapless_iff (htotal : total ≤ maxEthPorts) :
    (∀ (i : ℕ) (p : UInt8),
      (((enabledPorts appPortMask total).take n).map portByte)[i]? = some p → p.toNat = i) ↔
      Gapless appPortMask total n := by
  constructor
  · intro h i hi
    have hget : (((enabledPorts appPortMask total).take n).map portByte)[i]? =
        some (portByte ((enabledPorts appPortMask total).take n)[i]) := by
      rw [List.getElem?_map, List.getElem?_eq_getElem hi, Option.map_some]
    have hp := h i _ hget
    rw [portByte_toNat] at hp
    have hmem := List.mem_of_mem_take (List.getElem_mem hi)
    rw [← hp]
    exact (mem_enabledPorts.mp hmem).2
  · intro h i p hp
    rw [List.getElem?_map, Option.map_eq_some_iff] at hp
    obtain ⟨q, hq, rfl⟩ := hp
    obtain ⟨hi, rfl⟩ := List.getElem?_eq_some_iff.mp hq
    rw [portByte_toNat, h.getElem htotal hi]

lemma members_gapless_iff (htotal : total ≤ maxEthPorts) :
    (∀ p, portByte p ∈ ((enabledPorts appPortMask total).take n).map portByte ↔
      p.val < ((enabledPorts appPortMask total).take n).length) ↔ Gapless appPortMask total n := by
  have hlen : ((enabledPorts appPortMask total).take n).length ≤ maxEthPorts :=
    (List.length_take_le' _ _).trans enabledPorts_length_le
  have hmem : ∀ p, portByte p ∈ ((enabledPorts appPortMask total).take n).map portByte ↔
      p ∈ (enabledPorts appPortMask total).take n :=
    fun p => List.mem_map_of_injective portByte_injective
  simp only [hmem]
  constructor
  · intro h i hi
    have hp := (h ⟨i, by omega⟩).mpr hi
    exact (mem_enabledPorts.mp (List.mem_of_mem_take hp)).2
  · intro h p
    constructor
    · intro hp
      obtain ⟨i, hi, rfl⟩ := List.getElem_of_mem hp
      rwa [h.getElem htotal hi]
    · intro hp
      have hget : ((enabledPorts appPortMask total).take n)[p.val] = p :=
        Fin.ext (h.getElem htotal hp)
      rw [← hget]
      exact List.getElem_mem hp

lemma Slots.numPort_eq (h : Slots appPortMask total n e confs) :
    (confs e).numPort.toNat = ((enabledPorts appPortMask total).take n).length := by
  rw [← LcoreConf.managed_length (h.numPort e), h.managed, List.length_map]

/-- The two places where the loop takes a slot for a port are right under the same condition. -/
lemma Slots.right_iff (h : Slots appPortMask total n e confs) (htotal : total ≤ maxEthPorts)
    (ports : PortTable) :
    (Attributes ports (confs e) ↔ Gapless appPortMask total n) ∧
      (Drains (confs e) ↔ Gapless appPortMask total n) := by
  rw [attributes_iff ports (h.numPort e), drains_iff (h.numPort e), h.managed, h.numPort_eq]
  exact ⟨slots_gapless_iff htotal, members_gapless_iff htotal⟩

end Gaps

section Start
variable {m : Machine} {appPortMask : UInt16} {file : List PortObject} {g : Globals μ}
  {stack : ℕ → Int} {ipArr : Fin 4 → UInt8} {n : ℕ} {e : Fin maxLcores}

lemma passPorts_portName (ps : List (Fin maxEthPorts)) (st : EthState) (p : Fin maxEthPorts) :
    ((ps.foldl (passPort m appPortMask) st).portInfo p).portName = (st.portInfo p).portName := by
  induction ps generalizing st with
  | nil => rfl
  | cons i ps ih =>
    rw [List.foldl_cons, ih, passPort]
    split
    · by_cases hp : p = i
      · subst hp
        have hself : (portUp m st p).portInfo p =
            { st.portInfo p with ethMac := (m.devs p).macAddr } := Function.update_self ..
        rw [hself]
      · exact congrArg PortInfo.portName (Function.update_of_ne hp ..)
    · rfl

/-- The tables that the start leaves on a machine that is ready. -/
lemma twInitGlobal_tables (stack : ℕ → Int) (ipArr : Fin 4 → UInt8) (hfile : FileWellFormed file)
    (hg : Fresh g) (hblank : ∀ p, (g.eth.portInfo p).portName = [])
    (hready : MachineReady m file appPortMask) :
    ∃ g', twInitGlobal stack ipArr m (.ret appPortMask) (some file) g = .ret g' ∧
      Named appPortMask (portTotal m.devCount).toNat g'.eth.portInfo ∧
      g'.lcores = twLcoreConfInit m.lcores g.lcores := by
  obtain ⟨conf, hload, hports⟩ :=
    twGetPortConfJsonVals_loaded appPortMask stack ipArr hfile hready.devCount g.eth.toEthPorts
  refine ⟨_, (twInitGlobal_ret hready.devCount hg hload).mpr ⟨hready, rfl⟩, ⟨?_, ?_⟩, rfl⟩
  · intro p hp
    rw [passPorts_portName]
    exact hports.portName hfile hp
  · intro p hp
    rw [passPorts_portName]
    exact (congrArg PortInfo.portName (hports.kept p hp)).trans (hblank p)

/-- The engine of an application is the first lcore that runs. -/
structure FirstEngine (env : LcoreEnv) (e : Fin maxLcores) : Prop where
  running : env.rteLcoreIsEnabled e
  rank : env.rank e = 0

lemma startApp_ret (stack : ℕ → Int) (ipArr : Fin 4 → UInt8) (hfile : FileWellFormed file)
    (hg : Fresh g) (hblank : ∀ p, (g.eth.portInfo p).portName = [])
    (hready : MachineReady m file appPortMask) (he : FirstEngine m.lcores e)
    (hn : n ≤ maxEthPorts) :
    ∃ g', startApp stack ipArr m (.ret appPortMask) (some file) n g = .ret g' ∧
      Slots appPortMask (portTotal m.devCount).toNat n e g'.lcores.conf := by
  obtain ⟨g₁, hinit, hnamed, hlcores⟩ :=
    twInitGlobal_tables stack ipArr hfile hg hblank hready
  obtain ⟨txMbufs, hstatic⟩ := hg.lcores
  rw [hstatic] at hlcores
  have hengine : twEngineNameToLcoreId g₁.lcores.conf (engineString 0) = e.val := by
    have hinit := twEngineNameToLcoreId_init m.lcores txMbufs he.running
    rw [he.rank] at hinit
    rw [hlcores]
    exact hinit
  have hfresh : ∀ i, (g₁.lcores.conf i).numPort = 0 := by
    rw [hlcores]
    exact (twLcoreConfInit_started m.lcores txMbufs).numPort
  obtain ⟨conf, hmap, hslots⟩ :=
    mapPorts_firstPorts hnamed (portTotal_le m.devCount) hengine hfresh hn
  refine ⟨{ g₁ with lcores := { g₁.lcores with conf } }, ?_, hslots⟩
  rw [startApp, hinit, Outcome.ret_bind, hmap, Outcome.ret_bind]

/-- An application has its first ports in the slots of its engine, and the loop is right about
them exactly if no port before them is left out. -/
theorem startApp_right_iff (stack : ℕ → Int) (ipArr : Fin 4 → UInt8)
    (hfile : FileWellFormed file) (hg : Fresh g) (hblank : ∀ p, (g.eth.portInfo p).portName = [])
    (hready : MachineReady m file appPortMask) (he : FirstEngine m.lcores e)
    (hn : n ≤ maxEthPorts) :
    ∃ g', startApp stack ipArr m (.ret appPortMask) (some file) n g = .ret g' ∧
      Slots appPortMask (portTotal m.devCount).toNat n e g'.lcores.conf ∧
      (Attributes g'.eth.portInfo (g'.lcores.conf e) ↔
        Gapless appPortMask (portTotal m.devCount).toNat n) ∧
      (Drains (g'.lcores.conf e) ↔ Gapless appPortMask (portTotal m.devCount).toNat n) := by
  obtain ⟨g', hstart, hslots⟩ := startApp_ret stack ipArr hfile hg hblank hready he hn
  exact ⟨g', hstart, hslots, hslots.right_iff (portTotal_le m.devCount) g'.eth.portInfo⟩

def threeDevices : Machine := { oneDevice with devCount := 3 }

/-- The first two ports, each with the address that repeats a digit. -/
def twoPorts (d e : Fin 10) : List PortObject :=
  [⟨some (ethString 0), [repeated d]⟩, ⟨some (ethString 1), [repeated e]⟩]

lemma threeDevices_firstEngine : FirstEngine threeDevices.lcores 0 := ⟨rfl, by decide⟩

lemma twoPorts_wellFormed (d e : Fin 10) : FileWellFormed (twoPorts d e) := by
  refine ⟨by simp [twoPorts], fun o ho => ?_⟩
  simp only [twoPorts, List.mem_cons, List.not_mem_nil, or_false] at ho
  rcases ho with rfl | rfl
  · exact ⟨by simp, by simp, List.forall_mem_singleton.mpr ⟨_, repeated_denotes d⟩⟩
  · exact ⟨by simp, by simp, List.forall_mem_singleton.mpr ⟨_, repeated_denotes e⟩⟩

/-- Of the three devices at most two are enabled. -/
lemma threeDevices_ready {appPortMask : UInt16} {d e : Fin 10}
    (h : ∀ p : Fin maxEthPorts, p.val < 3 → portEnabled appPortMask p →
      enabledBelow appPortMask p = 0 ∨ enabledBelow appPortMask p = 1) :
    MachineReady threeDevices (twoPorts d e) appPortMask := by
  refine ⟨by decide, ⟨rfl, rfl, by decide⟩, fun p hp => ?_⟩
  have hnamed : ∃ o ∈ twoPorts d e, o.portName = some (nameOf appPortMask p) := by
    rw [nameOf]
    rcases h p hp.1 hp.2 with hfirst | hsecond
    · exact ⟨_, List.mem_cons_self, by rw [hfirst]⟩
    · exact ⟨_, List.mem_cons_of_mem _ List.mem_cons_self, by rw [hsecond]⟩
  have hqueues : (1 : UInt16) ≠ 0 := by decide
  exact ⟨hnamed, hqueues, hqueues, le_rfl, rfl, Or.inr rfl, le_rfl, le_rfl, le_rfl⟩

/-- The first and the last of three devices are enabled, and the gap confuses the loop. -/
theorem startApp_right_gap :
    ∃ g', startApp (fun _ => 0) (fun _ => 0) threeDevices (.ret 5) (some (twoPorts 1 2)) 2
        freshGlobals = .ret g' ∧
      Slots 5 3 2 0 g'.lcores.conf ∧
      ¬ Attributes g'.eth.portInfo (g'.lcores.conf 0) ∧ ¬ Drains (g'.lcores.conf 0) := by
  have hready : MachineReady threeDevices (twoPorts 1 2) 5 := threeDevices_ready (by decide)
  obtain ⟨g', hstart, hslots, hattributes, hdrains⟩ := startApp_right_iff (fun _ => 0)
    (fun _ => 0) (twoPorts_wellFormed 1 2) freshGlobals_fresh (fun _ => rfl) hready
    threeDevices_firstEngine (show 2 ≤ maxEthPorts by decide)
  have hgap : ¬ Gapless 5 3 2 := fun h => absurd (h 1 (by decide)) (by decide)
  exact ⟨g', hstart, hslots, mt hattributes.mp hgap, mt hdrains.mp hgap⟩

end Start

section Configured
variable {devices whitelist blacklist : List CString} {cores : ℤ} {totalCpus : ℕ} {api : ApiConf}
  {file : List PortObject} {g : Globals μ} {n : ℕ} {e : Fin maxLcores}

end Configured
end Twister
