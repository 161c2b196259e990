import Twister.LcoreConf
import Twister.PortJson

/-! Engines from the start on: their names, and the ports that are mapped to them. Only the
lcores that run are named, and a call that maps a port does not check that a slot is left. -/
namespace Twister
variable {μ : Type}

section Model

/-- The format `engine%d`. -/
def engineString (lcoreInfoCounter : UInt8) : CString :=
  [0x65, 0x6e, 0x67, 0x69, 0x6e, 0x65] ++
    (Nat.toDigits 10 lcoreInfoCounter.toNat).map fun c => UInt8.ofNat c.toNat

/-- The fields of an engine that are set here and not read again. -/
structure LcoreInfo where
  coreIdExternal : UInt8
  socketId : UInt8
  coreRx : UInt8
  coreTx : UInt8
  coreWorking : UInt8

structure Lcores (μ : Type) where
  conf : LcoreTable μ
  info : Fin maxLcores → LcoreInfo
  numNumaSockets : UInt8

/-- Which lcores run, and on which socket. -/
structure LcoreEnv where
  rteLcoreIsEnabled : Fin maxLcores → Bool
  rteLcoreToSocketId : Fin maxLcores → UInt32

/-- The first component is `lcore_info_counter`. -/
def initLcore (env : LcoreEnv) (st : UInt8 × Lcores μ) (lcoreId : Fin maxLcores) :
    UInt8 × Lcores μ :=
  if env.rteLcoreIsEnabled lcoreId then
    let currentLcoreCpuid := (env.rteLcoreToSocketId lcoreId).toUInt8
    (st.1 + 1,
      { conf := Function.update st.2.conf lcoreId
          { st.2.conf lcoreId with coreName := engineString st.1, numPort := 0 }
        info := Function.update st.2.info lcoreId ⟨st.1, currentLcoreCpuid, 1, 1, 1⟩
        numNumaSockets :=
          if currentLcoreCpuid.toNat + 1 ≥ st.2.numNumaSockets.toNat then currentLcoreCpuid
          else st.2.numNumaSockets })
  else st

def twLcoreConfInit (env : LcoreEnv) (lcores : Lcores μ) : Lcores μ :=
  ((List.finRange maxLcores).foldl (initLcore env) (0, lcores)).2

/-- The globals at the start of the process. -/
def staticLcores (txMbufs : Fin maxEthPorts → MbufTable μ) : Lcores μ where
  conf _ := ⟨[], 0, fun _ => 0, txMbufs⟩
  info _ := ⟨0, 0, 0, 0, 0⟩
  numNumaSockets := 1

end Model

section Init
variable {env : LcoreEnv} {lcores : Lcores μ} {e : Fin maxLcores}

/-- How many running lcores precede `e`. -/
def LcoreEnv.rank (env : LcoreEnv) (e : Fin maxLcores) : ℕ :=
  ((List.finRange maxLcores).filter env.rteLcoreIsEnabled).idxOf e

/-- An engine as it is after the start: named, and without ports. -/
def LcoreConf.named (c : LcoreConf μ) (k : ℕ) : LcoreConf μ :=
  { c with coreName := engineString (UInt8.ofNat k), numPort := 0 }

/-- What the lcores passed so far have become, and how many of them run. -/
lemma initLcores_spec (env : LcoreEnv) (lcores : Lcores μ) {is : List (Fin maxLcores)}
    (hnd : is.Nodup) :
    (is.foldl (initLcore env) (0, lcores)).1 =
        UInt8.ofNat (is.filter env.rteLcoreIsEnabled).length ∧
      ∀ e, (is.foldl (initLcore env) (0, lcores)).2.conf e =
        if e ∈ is.filter env.rteLcoreIsEnabled then
          (lcores.conf e).named ((is.filter env.rteLcoreIsEnabled).idxOf e)
        else lcores.conf e := by
  induction is using List.reverseRecOn with
  | nil => exact ⟨rfl, fun e => rfl⟩
  | append_singleton is i ih =>
    obtain ⟨hnd, -, hdisj⟩ := List.nodup_append.mp hnd
    have hi : i ∉ is.filter env.rteLcoreIsEnabled := fun hmem =>
      hdisj i (List.mem_of_mem_filter hmem) i List.mem_cons_self rfl
    obtain ⟨hcount, hconf⟩ := ih hnd
    rw [List.foldl_append, List.foldl_cons, List.foldl_nil, List.filter_append, initLcore]
    by_cases hrun : env.rteLcoreIsEnabled i
    -- the new name is numbered by the lcores that run before it
    · rw [if_pos hrun, List.filter_cons_of_pos hrun, List.filter_nil]
      refine ⟨?_, fun e => ?_⟩
      · simp only [hcount, List.length_append, List.length_singleton, UInt8.ofNat_add]
        rfl
      · by_cases he : e = i
        · subst he
          have hmem : e ∈ is.filter env.rteLcoreIsEnabled ++ [e] := by simp
          have hself : (is.foldl (initLcore env) (0, lcores)).2.conf e = lcores.conf e := by
            rw [hconf e, if_neg hi]
          simp only [Function.update_self, if_pos hmem, hself, hcount, LcoreConf.named,
            List.idxOf_append_of_notMem hi, List.idxOf_cons_self, Nat.add_zero]
        · simp only [Function.update_of_ne he, hconf e, List.mem_append, List.mem_singleton, he,
            or_false]
          split_ifs with hmem
          · rw [List.idxOf_append_of_mem hmem]
          · rfl
    · rw [if_neg hrun, List.filter_cons_of_neg hrun, List.filter_nil, List.append_nil]
      exact ⟨hcount, hconf⟩

/-- The lcores that run are named in order, the others keep what they held. -/
theorem twLcoreConfInit_conf (env : LcoreEnv) (lcores : Lcores μ) (e : Fin maxLcores) :
    (twLcoreConfInit env lcores).conf e =
      if env.rteLcoreIsEnabled e then (lcores.conf e).named (env.rank e) else lcores.conf e := by
  rw [twLcoreConfInit, (initLcores_spec env lcores (List.nodup_finRange _)).2 e]
  simp only [List.mem_filter, List.mem_finRange, true_and]
  rfl

lemma LcoreEnv.mem_running (h : env.rteLcoreIsEnabled e) :
    e ∈ (List.finRange maxLcores).filter env.rteLcoreIsEnabled :=
  List.mem_filter.mpr ⟨List.mem_finRange e, h⟩

lemma LcoreEnv.rank_lt (h : env.rteLcoreIsEnabled e) : env.rank e < maxLcores := by
  calc env.rank e < ((List.finRange maxLcores).filter env.rteLcoreIsEnabled).length :=
        List.idxOf_lt_length_of_mem (env.mem_running h)
    _ ≤ (List.finRange maxLcores).length := List.length_filter_le _ _
    _ = maxLcores := List.length_finRange

lemma engineString_fits : ∀ k : Fin maxLcores,
    (engineString (UInt8.ofNat k.val)).length + 1 ≤ 10 := by decide

lemma engineString_injective : ∀ j k : Fin maxLcores,
    engineString (UInt8.ofNat j.val) = engineString (UInt8.ofNat k.val) → j = k := by decide

lemma LcoreEnv.rank_inj {e' : Fin maxLcores} (h : env.rteLcoreIsEnabled e)
    (heq : env.rank e = env.rank e') : e = e' :=
  (List.idxOf_inj (env.mem_running h)).mp heq

lemma engineString_ne_nil (k : UInt8) : engineString k ≠ [] := List.cons_ne_nil _ _

/-- Only the lcores that run have a name, and no engine has a port yet. -/
structure Started (env : LcoreEnv) (confs : LcoreTable μ) : Prop where
  coreName_eq_nil : ∀ e, (confs e).coreName = [] ↔ ¬ env.rteLcoreIsEnabled e
  numPort : ∀ e, (confs e).numPort = 0

theorem twLcoreConfInit_started (env : LcoreEnv) (txMbufs : Fin maxEthPorts → MbufTable μ) :
    Started env (twLcoreConfInit env (staticLcores txMbufs)).conf := by
  constructor <;> intro e <;> rw [twLcoreConfInit_conf] <;> split_ifs with hrun
  · simp [LcoreConf.named, engineString_ne_nil, hrun]
  · simp [staticLcores, hrun]
  · rfl
  · rfl

/-- Every name fits the ten characters of `core_name` with its terminator. -/
theorem coreName_fits (env : LcoreEnv) (txMbufs : Fin maxEthPorts → MbufTable μ)
    (e : Fin maxLcores) :
    ((twLcoreConfInit env (staticLcores txMbufs)).conf e).coreName.length + 1 ≤ 10 := by
  rw [twLcoreConfInit_conf]
  split_ifs with hrun
  · exact engineString_fits ⟨_, env.rank_lt hrun⟩
  · simp [staticLcores]

/-- The name of an lcore that runs leads to it. -/
theorem twEngineNameToLcoreId_init (env : LcoreEnv) (txMbufs : Fin maxEthPorts → MbufTable μ)
    (h : env.rteLcoreIsEnabled e) :
    twEngineNameToLcoreId (twLcoreConfInit env (staticLcores txMbufs)).conf
      (engineString (UInt8.ofNat (env.rank e))) = e.val := by
  have hconf := twLcoreConfInit_conf env (staticLcores txMbufs)
  have hname : ((twLcoreConfInit env (staticLcores txMbufs)).conf e).coreName =
      engineString (UInt8.ofNat (env.rank e)) := by
    rw [hconf e, if_pos h]
    rfl
  obtain ⟨j, -, hj, hid⟩ := foldl_last_hit_of_mem
    (fun j => ((twLcoreConfInit env (staticLcores txMbufs)).conf j).coreName =
      engineString (UInt8.ofNat (env.rank e))) (List.mem_finRange e) hname (-1)
  have hrun : env.rteLcoreIsEnabled j := by
    by_contra hidle
    rw [(twLcoreConfInit_started env txMbufs).coreName_eq_nil j |>.mpr hidle] at hj
    exact engineString_ne_nil _ hj.symm
  rw [hconf j, if_pos hrun] at hj
  have hrank := engineString_injective ⟨_, env.rank_lt hrun⟩ ⟨_, env.rank_lt h⟩ hj
  obtain rfl := env.rank_inj hrun (Fin.mk.inj hrank)
  exact hid

end Init

section Calls
variable {ports : PortTable} {confs confs' : LcoreTable μ} {e : Fin maxLcores}
  {calls : List (CString × CString)} {call : CString × CString}

/-- The call gives its port to engine `e`. -/
def MapsTo (ports : PortTable) (confs : LcoreTable μ) (e : Fin maxLcores)
    (call : CString × CString) : Prop :=
  Mappable ports confs call.1 call.2 ∧ twEngineNameToLcoreId confs call.2 = e.val

instance decidableMapsTo (ports : PortTable) (confs : LcoreTable μ) (e : Fin maxLcores)
    (call : CString × CString) : Decidable (MapsTo ports confs e call) :=
  inferInstanceAs (Decidable (_ ∧ _))

/-- How many of the calls give a port to engine `e`. -/
def mappedTo (ports : PortTable) (confs : LcoreTable μ) (e : Fin maxLcores)
    (calls : List (CString × CString)) : ℕ := calls.countP fun call => MapsTo ports confs e call

lemma mappable_congr (h : ∀ e, (confs' e).coreName = (confs e).coreName) :
    Mappable ports confs' call.1 call.2 ↔ Mappable ports confs call.1 call.2 := by
  rw [Mappable, Mappable, twEngineNameToLcoreId_congr h]

lemma mapsTo_congr (h : ∀ e, (confs' e).coreName = (confs e).coreName) :
    MapsTo ports confs' e call ↔ MapsTo ports confs e call := by
  rw [MapsTo, MapsTo, mappable_congr h, twEngineNameToLcoreId_congr h]

lemma Mappable.engine (h : Mappable ports confs call.1 call.2) :
    ∃ e, MapsTo ports confs e call := by
  obtain ⟨e, he⟩ := (twEngineNameToLcoreId_spec confs call.2).resolve_left h.2
  exact ⟨e, h, he⟩

lemma MapsTo.unique {e' : Fin maxLcores} (h : MapsTo ports confs e call)
    (h' : MapsTo ports confs e' call) : e = e' := by
  have heq : (e.val : Int) = e'.val := h.2.symm.trans h'.2
  exact Fin.ext (by exact_mod_cast heq)

/-- A call with an unknown name does nothing. -/
lemma twMapPortToEngine_unmappable (h : ¬ Mappable ports confs call.1 call.2) :
    twMapPortToEngine ports confs call.1 call.2 = .ret confs := by
  unfold twMapPortToEngine
  exact if_neg h

lemma twMapPortToEngine_full (h : MapsTo ports confs e call)
    (hfull : maxEthPorts ≤ (confs e).numPort.toNat) :
    twMapPortToEngine ports confs call.1 call.2 = .fault := by
  rw [twMapPortToEngine_known h.1 h.2, dif_neg (Nat.not_lt.mpr hfull)]

/-- The table after the call has given its port to engine `e`. -/
def mappedTable (ports : PortTable) (confs : LcoreTable μ) (call : CString × CString)
    (e : Fin maxLcores) (slot : Fin maxEthPorts) : LcoreTable μ :=
  Function.update confs e
    ((confs e).addPort slot (UInt8.ofNat (twEthNameToId ports call.1).toNat))

/-- What a call that returns has done. -/
lemma twMapPortToEngine_cases
    (h : twMapPortToEngine ports confs call.1 call.2 = .ret confs') :
    (¬ Mappable ports confs call.1 call.2 ∧ confs' = confs) ∨
      ∃ e, ∃ hs : (confs e).numPort.toNat < maxEthPorts, MapsTo ports confs e call ∧
        confs' = mappedTable ports confs call e ⟨_, hs⟩ := by
  by_cases hm : Mappable ports confs call.1 call.2
  · obtain ⟨e, he⟩ := hm.engine
    rcases Nat.lt_or_ge (confs e).numPort.toNat maxEthPorts with hs | hfull
    · rw [twMapPortToEngine_eq hm he.2 hs] at h
      exact Or.inr ⟨e, hs, he, (Outcome.ret.inj h).symm⟩
    · rw [twMapPortToEngine_full he hfull] at h
      cases h
  · rw [twMapPortToEngine_unmappable hm] at h
    exact Or.inl ⟨hm, (Outcome.ret.inj h).symm⟩

lemma mappedTable_coreName (hs : (confs e).numPort.toNat < maxEthPorts) (x : Fin maxLcores) :
    (mappedTable ports confs call e ⟨_, hs⟩ x).coreName = (confs x).coreName := by
  by_cases hx : x = e
  · subst hx
    rw [mappedTable, Function.update_self]
    rfl
  · rw [mappedTable, Function.update_of_ne hx]

lemma mappedTable_numPort (h : MapsTo ports confs e call)
    (hs : (confs e).numPort.toNat < maxEthPorts) (x : Fin maxLcores) :
    (mappedTable ports confs call e ⟨_, hs⟩ x).numPort.toNat =
      (confs x).numPort.toNat + mappedTo ports confs x [call] := by
  by_cases hx : x = e
  · subst hx
    rw [mappedTable, Function.update_self, LcoreConf.addPort_numPort hs]
    simp [mappedTo, h]
  · have hnot : ¬ MapsTo ports confs x call := fun hto => hx (hto.unique h)
    rw [mappedTable, Function.update_of_ne hx]
    simp [mappedTo, hnot]

/-- Calls that all return keep the names and count the ports of each engine. -/
theorem mapPorts_counts (h : mapPorts ports confs calls = .ret confs') :
    (∀ e, (confs' e).coreName = (confs e).coreName) ∧
      ∀ e, (confs' e).numPort.toNat = (confs e).numPort.toNat + mappedTo ports confs e calls := by
  induction calls generalizing confs with
  | nil =>
    obtain rfl : confs = confs' := Outcome.ret.inj h
    exact ⟨fun e => rfl, fun e => rfl⟩
  | cons call calls ih =>
    obtain ⟨confs₁, hcall, hrest⟩ := Outcome.bind_eq_ret.mp h
    have hone : (∀ e, (confs₁ e).coreName = (confs e).coreName) ∧
        ∀ e, (confs₁ e).numPort.toNat =
          (confs e).numPort.toNat + mappedTo ports confs e [call] := by
      rcases twMapPortToEngine_cases hcall with ⟨hm, rfl⟩ | ⟨e, hs, hto, rfl⟩
      · refine ⟨fun e => rfl, fun e => ?_⟩
        have hnot : ¬ MapsTo ports confs₁ e call := fun hto => hm hto.1
        simp [mappedTo, hnot]
      · exact ⟨mappedTable_coreName hs, mappedTable_numPort hto hs⟩
    obtain ⟨hnames, hcounts⟩ := ih hrest
    refine ⟨fun e => (hnames e).trans (hone.1 e), fun e => ?_⟩
    have hsame : mappedTo ports confs₁ e calls = mappedTo ports confs e calls := by
      simp only [mappedTo, mapsTo_congr hone.1]
    have hsplit : mappedTo ports confs e (call :: calls) =
        mappedTo ports confs e [call] + mappedTo ports confs e calls := by
      rw [mappedTo, mappedTo, mappedTo, ← List.countP_append, List.singleton_append]
    rw [hcounts e, hone.2 e, hsame, hsplit, Nat.add_assoc]

lemma mapPorts_snoc (h : mapPorts ports confs calls = .ret confs') :
    mapPorts ports confs (calls ++ [call]) = twMapPortToEngine ports confs' call.1 call.2 := by
  have hrun : mapPorts ports confs (calls ++ [call]) = (do
      let c ← mapPorts ports confs calls
      mapPorts ports c [call]) := List.foldlM_append
  have hone : mapPorts ports confs' [call] = (do
      let c ← twMapPortToEngine ports confs' call.1 call.2
      .ret c) := rfl
  rw [hrun, h, Outcome.ret_bind, hone, Outcome.bind_ret]

/-- A call with known names does not leave the table as it was. -/
lemma MapsTo.changes (h : MapsTo ports confs e call) :
    twMapPortToEngine ports confs call.1 call.2 ≠ .ret confs := by
  intro hret
  rcases twMapPortToEngine_cases hret with ⟨hm, -⟩ | ⟨e', hs, hto, hconfs⟩
  · exact hm h.1
  · have hcount := mappedTable_numPort hto hs e'
    rw [← hconfs] at hcount
    simp [mappedTo, hto] at hcount

end Calls

section Within
variable {ports : PortTable} {env : LcoreEnv} {confs confs' : LcoreTable μ} {e : Fin maxLcores}
  {calls : List (CString × CString)} {call : CString × CString}

/-- The name of a port that has been given one. -/
def KnownPort (ports : PortTable) (name : CString) : Prop :=
  name ≠ [] ∧ ∃ p, (ports p).portName = name

/-- The name of an lcore that runs. -/
def KnownEngine (env : LcoreEnv) (confs : LcoreTable μ) (name : CString) : Prop :=
  ∃ e, env.rteLcoreIsEnabled e ∧ (confs e).coreName = name

/-- Every engine has at most eight ports, and they are ports that have a name. -/
structure InTable (ports : PortTable) (confs : LcoreTable μ) : Prop where
  numPort : ∀ e, (confs e).numPort.toNat ≤ maxEthPorts
  managed : ∀ e, ∀ id ∈ (confs e).managed,
    ∃ name, KnownPort ports name ∧ twEthNameToId ports name = id.toNat

/-- No call writes outside the table, after each one the table is in order, and a call that
names an unknown port or engine changes nothing. -/
def MapsWithin (ports : PortTable) (env : LcoreEnv) (confs : LcoreTable μ)
    (calls : List (CString × CString)) : Prop :=
  ∀ pre, pre <+: calls → ∃ confs', mapPorts ports confs pre = .ret confs' ∧ InTable ports confs' ∧
    ∀ call, pre ++ [call] <+: calls →
      ¬ (KnownPort ports call.1 ∧ KnownEngine env confs' call.2) →
      twMapPortToEngine ports confs' call.1 call.2 = .ret confs'

lemma Mappable.portName (h : Mappable ports confs call.1 call.2) :
    ∃ p, (ports p).portName = call.1 := by
  obtain ⟨p, hp, -⟩ := (twEthNameToId_spec ports call.1).resolve_left h.1
  exact ⟨p, hp⟩

lemma Mappable.coreName (h : Mappable ports confs call.1 call.2) :
    ∃ e, (confs e).coreName = call.2 := by
  rcases foldl_last_hit (fun i => (confs i).coreName = call.2) (List.finRange maxLcores) (-1) with
    hnone | ⟨e, -, he, -⟩
  · exact absurd hnone h.2
  · exact ⟨e, he⟩

/-- If the names resolve, neither is the blank one that unset ports and idle lcores have. -/
def Proper (ports : PortTable) (confs : LcoreTable μ) (call : CString × CString) : Prop :=
  Mappable ports confs call.1 call.2 → call.1 ≠ [] ∧ call.2 ≠ []

/-- The names of a call that resolve are known exactly if they are not blank. -/
lemma known_iff (hnamed : ∀ e, (confs e).coreName = [] ↔ ¬ env.rteLcoreIsEnabled e)
    (hm : Mappable ports confs call.1 call.2) :
    KnownPort ports call.1 ∧ KnownEngine env confs call.2 ↔ call.1 ≠ [] ∧ call.2 ≠ [] := by
  constructor
  · rintro ⟨hport, e, hrun, he⟩
    refine ⟨hport.1, fun hnil => ?_⟩
    exact (hnamed e).mp (he.trans hnil) hrun
  · rintro ⟨hport, hcore⟩
    obtain ⟨e, he⟩ := hm.coreName
    have hrun : env.rteLcoreIsEnabled e := by
      by_contra hidle
      exact hcore (he.symm.trans ((hnamed e).mpr hidle))
    exact ⟨⟨hport, hm.portName⟩, e, hrun, he⟩

/-- Mapping ports does not change the names. -/
lemma Started.named (h : Started env confs) (hrun : mapPorts ports confs calls = .ret confs')
    (e : Fin maxLcores) : (confs' e).coreName = [] ↔ ¬ env.rteLcoreIsEnabled e := by
  rw [(mapPorts_counts hrun).1 e, h.coreName_eq_nil e]

lemma Started.inTable (h : Started env confs) : InTable ports confs where
  numPort e := by simp [h.numPort e]
  managed e id hid := by simp [LcoreConf.managed, h.numPort e] at hid

/-- The id that is stored is the one that was found. -/
lemma Mappable.portId (h : Mappable ports confs call.1 call.2) :
    twEthNameToId ports call.1 = (UInt8.ofNat (twEthNameToId ports call.1).toNat).toNat := by
  obtain ⟨p, -, hp⟩ := (twEthNameToId_spec ports call.1).resolve_left h.1
  rw [hp, Int.toNat_natCast]
  exact congrArg Nat.cast (portByte_toNat p).symm

lemma InTable.mapped (h : InTable ports confs) (hto : MapsTo ports confs e call)
    (hport : KnownPort ports call.1) (hs : (confs e).numPort.toNat < maxEthPorts) :
    InTable ports (mappedTable ports confs call e ⟨_, hs⟩) := by
  constructor <;> intro x <;> by_cases hx : x = e
  · subst hx
    rw [mappedTable, Function.update_self, LcoreConf.addPort_numPort hs]
    exact hs
  · rw [mappedTable, Function.update_of_ne hx]
    exact h.numPort x
  · subst hx
    rw [mappedTable, Function.update_self, LcoreConf.addPort_managed hs]
    intro id hid
    rcases List.mem_append.mp hid with hid | hid
    · exact h.managed x id hid
    · obtain rfl := List.mem_singleton.mp hid
      exact ⟨call.1, hport, hto.1.portId⟩
  · rw [mappedTable, Function.update_of_ne hx]
    exact h.managed x

/-- Up to eight proper calls for each engine keep the table in order. -/
lemma mapPorts_inTable (hstart : Started env confs)
    (hproper : ∀ call ∈ calls, Proper ports confs call)
    (hroom : ∀ e, mappedTo ports confs e calls ≤ maxEthPorts) :
    ∃ confs', mapPorts ports confs calls = .ret confs' ∧ InTable ports confs' := by
  induction calls using List.reverseRecOn with
  | nil => exact ⟨confs, rfl, hstart.inTable⟩
  | append_singleton calls call ih =>
    have hsplit : ∀ e, mappedTo ports confs e (calls ++ [call]) =
        mappedTo ports confs e calls + mappedTo ports confs e [call] := fun e => List.countP_append
    obtain ⟨confs₁, hrun, htable⟩ := ih (fun c hc => hproper c (List.mem_append_left _ hc))
      fun e => by
        have hle := hroom e
        rw [hsplit] at hle
        omega
    obtain ⟨hnames, hcounts⟩ := mapPorts_counts hrun
    rw [mapPorts_snoc hrun]
    by_cases hm : Mappable ports confs₁ call.1 call.2
    · obtain ⟨e, hto⟩ := hm.engine
      have hto₀ := (mapsTo_congr hnames).mp hto
      have hport : KnownPort ports call.1 :=
        ⟨(hproper call (by simp) hto₀.1).1, hto₀.1.portName⟩
      have hs : (confs₁ e).numPort.toNat < maxEthPorts := by
        have hle := hroom e
        have hone : mappedTo ports confs e [call] = 1 := by simp [mappedTo, hto₀]
        rw [hsplit, hone] at hle
        rw [hcounts e, hstart.numPort e, UInt8.toNat_zero, Nat.zero_add]
        exact hle
      exact ⟨_, twMapPortToEngine_eq hm hto.2 hs, htable.mapped hto hport hs⟩
    · exact ⟨confs₁, twMapPortToEngine_unmappable hm, htable⟩

lemma mapsWithin_of_proper (hstart : Started env confs)
    (hproper : ∀ call ∈ calls, Proper ports confs call)
    (hroom : ∀ e, mappedTo ports confs e calls ≤ maxEthPorts) :
    MapsWithin ports env confs calls := by
  intro pre hpre
  obtain ⟨confs', hrun, htable⟩ := mapPorts_inTable hstart
    (fun call hcall => hproper call (hpre.subset hcall))
    fun e => (hpre.sublist.countP_le).trans (hroom e)
  refine ⟨confs', hrun, htable, fun call hnext hunknown => twMapPortToEngine_unmappable ?_⟩
  intro hm
  have hnames := (mapPorts_counts hrun).1
  have hcall := hproper call (hnext.subset (by simp)) ((mappable_congr hnames).mp hm)
  exact hunknown ((known_iff (hstart.named hrun) hm).mpr hcall)

/-- A call that resolves a blank name changes the table. -/
lemma MapsWithin.proper (hstart : Started env confs) (h : MapsWithin ports env confs calls) :
    ∀ call ∈ calls, Proper ports confs call := by
  intro call hcall hm
  obtain ⟨pre, post, rfl⟩ := List.append_of_mem hcall
  have hnext : pre ++ [call] <+: pre ++ call :: post := ⟨post, by simp⟩
  obtain ⟨confs', hrun, -, hkept⟩ := h pre (List.prefix_append pre _)
  have hnames := (mapPorts_counts hrun).1
  have hm' := (mappable_congr hnames).mpr hm
  obtain ⟨e, hto⟩ := hm'.engine
  -- an unknown name would have to leave the table as it is
  rw [← known_iff (hstart.named hrun) hm']
  by_contra hunknown
  exact hto.changes (hkept call hnext hunknown)

lemma MapsWithin.room (hstart : Started env confs) (h : MapsWithin ports env confs calls)
    (e : Fin maxLcores) : mappedTo ports confs e calls ≤ maxEthPorts := by
  obtain ⟨confs', hrun, htable, -⟩ := h calls List.prefix_rfl
  have hcount := (mapPorts_counts hrun).2 e
  rw [hstart.numPort e, UInt8.toNat_zero, Nat.zero_add] at hcount
  rw [← hcount]
  exact htable.numPort e

/-- The call after the eighth for an engine writes outside its table. -/
lemma mapPorts_full (hstart : Started env confs) (hto : MapsTo ports confs e call)
    (hfull : mappedTo ports confs e calls = maxEthPorts)
    (hrun : mapPorts ports confs calls = .ret confs') :
    mapPorts ports confs (calls ++ [call]) = .fault := by
  obtain ⟨hnames, hcounts⟩ := mapPorts_counts hrun
  rw [mapPorts_snoc hrun]
  refine twMapPortToEngine_full ((mapsTo_congr hnames).mpr hto) ?_
  rw [hcounts e, hstart.numPort e, hfull]
  exact Nat.le_add_left _ _

/-- What is known by name are the ports that the configuration enables. -/
theorem knownPort_loaded_iff (stack : ℕ → Int) (ipArr : Fin 4 → UInt8) (appPortMask : UInt16)
    {file : List PortObject} (hfile : FileWellFormed file) {devCount : UInt8}
    (hdev : devCount ≠ 0) :
    ∃ conf, twGetPortConfJsonVals stack ipArr devCount appPortMask (some file) unsetPorts =
        .ret (0, conf) ∧
      ∀ name, KnownPort conf.portInfo name ↔ NamesEnabled devCount appPortMask name := by
  obtain ⟨conf, hrun, hports⟩ :=
    twGetPortConfJsonVals_loaded appPortMask stack ipArr hfile hdev unsetPorts
  refine ⟨conf, hrun, fun name => ⟨?_, ?_⟩⟩
  · rintro ⟨hne, p, rfl⟩
    have hp : Configured appPortMask (portTotal devCount).toNat p := by
      by_contra hnot
      rw [hports.kept p hnot] at hne
      exact hne rfl
    exact ⟨p, hp, (hports.portName hfile hp).symm⟩
  · rintro ⟨p, hp, rfl⟩
    exact ⟨List.cons_ne_nil _ _, p, hports.portName hfile hp⟩

/-- From the start on, calls stay within the table exactly if at most eight of them find an
engine with a port, and none does so with a blank name. -/
theorem mapPorts_within_iff (ports : PortTable) (env : LcoreEnv)
    (txMbufs : Fin maxEthPorts → MbufTable μ) (calls : List (CString × CString)) :
    MapsWithin ports env (twLcoreConfInit env (staticLcores txMbufs)).conf calls ↔
      (∀ call ∈ calls, Proper ports (twLcoreConfInit env (staticLcores txMbufs)).conf call) ∧
      ∀ e, mappedTo ports (twLcoreConfInit env (staticLcores txMbufs)).conf e calls ≤
        maxEthPorts := by
  have hstart := twLcoreConfInit_started env txMbufs
  constructor
  · intro h
    exact ⟨h.proper hstart, h.room hstart⟩
  · rintro ⟨hproper, hroom⟩
    exact mapsWithin_of_proper hstart hproper hroom

def masterOnly : LcoreEnv := ⟨fun e => e = 0, fun _ => 0⟩

/-- One port with a name. -/
def tw0Only : PortTable := fun p => ⟨fun _ => 0, if p = 0 then twName 0 else [], 0, 0, 0⟩

def masterConf : LcoreTable ℕ :=
  (twLcoreConfInit masterOnly (staticLcores fun _ => ⟨0, fun _ => 0⟩)).conf

def tw0Calls (n : ℕ) : List (CString × CString) := List.replicate n (twName 0, engineString 0)

lemma tw0Calls_proper (n : ℕ) {call : CString × CString} (hcall : call ∈ tw0Calls n) :
    Proper tw0Only masterConf call := by
  intro _
  rw [List.eq_of_mem_replicate hcall]
  exact ⟨List.cons_ne_nil _ _, List.cons_ne_nil _ _⟩

lemma tw0Calls_mapsTo : MapsTo tw0Only masterConf 0 (twName 0, engineString 0) := by decide

lemma tw0Calls_room (e : Fin maxLcores) :
    mappedTo tw0Only masterConf e (tw0Calls 8) ≤ maxEthPorts := List.countP_le_length

/-- Eight mappings of one port fill the engine. -/
theorem mapPorts_within_eight : MapsWithin tw0Only masterOnly masterConf (tw0Calls 8) :=
  (mapPorts_within_iff _ _ _ _).mpr ⟨fun _ hcall => tw0Calls_proper 8 hcall, tw0Calls_room⟩

/-- The ninth mapping writes behind the table; and a blank name maps a port that has none. -/
theorem mapPorts_overflows :
    mapPorts tw0Only masterConf (tw0Calls 9) = .fault ∧
    ¬ MapsWithin tw0Only masterOnly masterConf (tw0Calls 9) ∧
    ¬ MapsWithin tw0Only masterOnly masterConf [([], engineString 0)] := by
  have hstart : Started masterOnly masterConf := twLcoreConfInit_started _ _
  have hfault : mapPorts tw0Only masterConf (tw0Calls 9) = .fault := by
    have hcount : mappedTo tw0Only masterConf 0 (tw0Calls 8) = maxEthPorts := by
      rw [mappedTo, tw0Calls, List.countP_replicate, if_pos (decide_eq_true tw0Calls_mapsTo)]
      rfl
    obtain ⟨confs, hrun, -⟩ :=
      mapPorts_inTable hstart (fun _ hcall => tw0Calls_proper 8 hcall) tw0Calls_room
    rw [tw0Calls, List.replicate_succ']
    exact mapPorts_full hstart tw0Calls_mapsTo hcount hrun
  refine ⟨hfault, fun h => ?_, fun h => ?_⟩
  · obtain ⟨confs, hrun, -⟩ := h _ List.prefix_rfl
    rw [hfault] at hrun
    cases hrun
  · have hm : Mappable tw0Only masterConf [] (engineString 0) := by decide
    exact (h.proper hstart _ List.mem_cons_self hm).1 rfl

end Within
end Twister
