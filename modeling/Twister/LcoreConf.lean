import Twister.PortConf

/-! Engines: one logical core each, with the ports it manages and one transmit
buffer per device port. -/
namespace Twister

def maxLcores : ℕ := 16
def maxTxPktBurst : ℕ := 32

instance : NeZero maxLcores := ⟨by decide⟩

structure MbufTable (μ : Type) where
  len : Int
  mTable : Fin maxTxPktBurst → μ

/-- `managedPort` is indexed by slot, `txMbufs` by device port id. -/
structure LcoreConf (μ : Type) where
  coreName : CString
  numPort : UInt8
  managedPort : Fin maxEthPorts → UInt8
  txMbufs : Fin maxEthPorts → MbufTable μ

abbrev LcoreTable (μ : Type) := Fin maxLcores → LcoreConf μ

variable {μ : Type}

namespace LcoreConf

/-- The ports in the occupied slots, in slot order. -/
def managed (c : LcoreConf μ) : List UInt8 :=
  ((List.finRange maxEthPorts).take c.numPort.toNat).map c.managedPort

lemma managed_length {c : LcoreConf μ} (h : c.numPort.toNat ≤ maxEthPorts) :
    c.managed.length = c.numPort.toNat := by
  simpa [managed] using h

def addPort (c : LcoreConf μ) (slot : Fin maxEthPorts) (port : UInt8) : LcoreConf μ :=
  { c with managedPort := Function.update c.managedPort slot port, numPort := c.numPort + 1 }

lemma addPort_numPort {c : LcoreConf μ} (hs : c.numPort.toNat < maxEthPorts) (port : UInt8) :
    (c.addPort ⟨_, hs⟩ port).numPort.toNat = c.numPort.toNat + 1 := by
  have hm : maxEthPorts = 8 := rfl
  simp only [addPort, UInt8.toNat_add]
  simp
  omega

lemma addPort_managed {c : LcoreConf μ} (hs : c.numPort.toNat < maxEthPorts) (port : UInt8) :
    (c.addPort ⟨_, hs⟩ port).managed = c.managed ++ [port] := by
  have hnum := addPort_numPort hs port
  have htake : (List.finRange maxEthPorts).take (c.numPort.toNat + 1) =
      (List.finRange maxEthPorts).take c.numPort.toNat ++ [⟨_, hs⟩] := by
    rw [List.take_add_one]
    simp [hs]
  have hold : ∀ i ∈ (List.finRange maxEthPorts).take c.numPort.toNat,
      Function.update c.managedPort ⟨_, hs⟩ port i = c.managedPort i := by
    intro i hi
    refine Function.update_of_ne ?_ _ _
    rintro rfl
    obtain ⟨j, hj, he⟩ := List.mem_iff_getElem.mp hi
    have hv : j = c.numPort.toNat := by simpa using congrArg Fin.val he
    simp at hj
    omega
  rw [managed, hnum, htake, List.map_append, managed, ← List.map_congr_left hold]
  simp [addPort]

end LcoreConf

/-- The last engine of that name, or -1. -/
def twEngineNameToLcoreId (confs : LcoreTable μ) (name : CString) : Int :=
  (List.finRange maxLcores).foldl
    (fun engnId i => if (confs i).coreName = name then (i.val : Int) else engnId) (-1)

def Mappable (ports : PortTable) (confs : LcoreTable μ) (portName coreName : CString) : Prop :=
  twEthNameToId ports portName ≠ -1 ∧ twEngineNameToLcoreId confs coreName ≠ -1

instance (ports : PortTable) (confs : LcoreTable μ) (portName coreName : CString) :
    Decidable (Mappable ports confs portName coreName) := inferInstanceAs (Decidable (_ ∧ _))

def twMapPortToEngine (ports : PortTable) (confs : LcoreTable μ) (portName coreName : CString) :
    Outcome (LcoreTable μ) :=
  let portIdResolved := twEthNameToId ports portName
  let engineIdResolved := twEngineNameToLcoreId confs coreName
  if portIdResolved ≠ -1 ∧ engineIdResolved ≠ -1 then
    if he : engineIdResolved.toNat < maxLcores then
      let engine : Fin maxLcores := ⟨engineIdResolved.toNat, he⟩
      -- the source does not check that a slot is left
      if hs : (confs engine).numPort.toNat < maxEthPorts then
        .ret (Function.update confs engine
          ((confs engine).addPort ⟨_, hs⟩ (UInt8.ofNat portIdResolved.toNat)))
      else .fault
    else .fault
  else .ret confs

def mapPorts (ports : PortTable) (confs : LcoreTable μ) (calls : List (CString × CString)) :
    Outcome (LcoreTable μ) :=
  calls.foldlM (fun c call => twMapPortToEngine ports c call.1 call.2) confs

/-- The ids of the ports that the calls give to engine `e`, in call order. -/
def portsOf (ports : PortTable) (confs : LcoreTable μ) (calls : List (CString × CString))
    (e : Fin maxLcores) : List UInt8 :=
  (calls.filter fun call => twEngineNameToLcoreId confs call.2 = e.val).map fun call =>
    UInt8.ofNat (twEthNameToId ports call.1).toNat

lemma twEngineNameToLcoreId_congr {confs confs' : LcoreTable μ}
    (h : ∀ e, (confs' e).coreName = (confs e).coreName) (name : CString) :
    twEngineNameToLcoreId confs' name = twEngineNameToLcoreId confs name := by
  simp [twEngineNameToLcoreId, h]

lemma twEngineNameToLcoreId_spec (confs : LcoreTable μ) (name : CString) :
    twEngineNameToLcoreId confs name = -1 ∨
      ∃ e : Fin maxLcores, twEngineNameToLcoreId confs name = e.val := by
  rcases foldl_last_hit (fun i => (confs i).coreName = name) (List.finRange maxLcores) (-1) with
    h | ⟨e, -, -, he⟩
  · exact Or.inl h
  · exact Or.inr ⟨e, he⟩

/-- With both names known, only the free slot is left to decide. -/
lemma twMapPortToEngine_known {ports : PortTable} {confs : LcoreTable μ}
    {portName coreName : CString} {e : Fin maxLcores}
    (hm : Mappable ports confs portName coreName)
    (he : twEngineNameToLcoreId confs coreName = e.val) :
    twMapPortToEngine ports confs portName coreName =
      if hs : (confs e).numPort.toNat < maxEthPorts then .ret (Function.update confs e
        ((confs e).addPort ⟨_, hs⟩ (UInt8.ofNat (twEthNameToId ports portName).toNat)))
      else .fault := by
  have hen : (twEngineNameToLcoreId confs coreName).toNat = e.val := by rw [he]; simp
  have hlt : (twEngineNameToLcoreId confs coreName).toNat < maxLcores := hen ▸ e.isLt
  have hfin : (⟨(twEngineNameToLcoreId confs coreName).toNat, hlt⟩ : Fin maxLcores) = e :=
    Fin.ext hen
  have hk : twEthNameToId ports portName ≠ -1 ∧ twEngineNameToLcoreId confs coreName ≠ -1 := hm
  unfold twMapPortToEngine
  simp only
  rw [if_pos hk, dif_pos hlt]
  simp only [hfin]

lemma twMapPortToEngine_eq {ports : PortTable} {confs : LcoreTable μ} {portName coreName : CString}
    {e : Fin maxLcores} (hm : Mappable ports confs portName coreName)
    (he : twEngineNameToLcoreId confs coreName = e.val)
    (hs : (confs e).numPort.toNat < maxEthPorts) :
    twMapPortToEngine ports confs portName coreName = .ret (Function.update confs e
      ((confs e).addPort ⟨_, hs⟩ (UInt8.ofNat (twEthNameToId ports portName).toNat))) := by
  rw [twMapPortToEngine_known hm he, dif_pos hs]

/-- `confs'` is `confs` with the ports that the calls give to each engine appended. -/
structure Gains (ports : PortTable) (confs : LcoreTable μ) (calls : List (CString × CString))
    (confs' : LcoreTable μ) : Prop where
  coreName : ∀ e, (confs' e).coreName = (confs e).coreName
  managed : ∀ e, (confs' e).managed = (confs e).managed ++ portsOf ports confs calls e
  numPort : ∀ e, (confs' e).numPort.toNat =
    (confs e).numPort.toNat + (portsOf ports confs calls e).length
  txMbufs : ∀ e, (confs' e).txMbufs = (confs e).txMbufs

lemma portsOf_append (ports : PortTable) (confs : LcoreTable μ)
    (calls calls' : List (CString × CString)) (e : Fin maxLcores) :
    portsOf ports confs (calls ++ calls') e =
      portsOf ports confs calls e ++ portsOf ports confs calls' e := by
  simp [portsOf]

lemma portsOf_congr {confs confs' : LcoreTable μ}
    (h : ∀ e, (confs' e).coreName = (confs e).coreName) (ports : PortTable)
    (calls : List (CString × CString)) (e : Fin maxLcores) :
    portsOf ports confs' calls e = portsOf ports confs calls e := by
  simp only [portsOf, twEngineNameToLcoreId_congr h]

namespace Gains
variable {ports : PortTable} {confs confs' confs'' : LcoreTable μ}
  {calls calls' : List (CString × CString)}

lemma refl (ports : PortTable) (confs : LcoreTable μ) : Gains ports confs [] confs := by
  constructor <;> intro e <;> simp [portsOf]

lemma mappable (h : Gains ports confs calls confs') {portName coreName : CString} :
    Mappable ports confs' portName coreName ↔ Mappable ports confs portName coreName := by
  rw [Mappable, Mappable, twEngineNameToLcoreId_congr h.coreName]

lemma trans (h : Gains ports confs calls confs') (h' : Gains ports confs' calls' confs'') :
    Gains ports confs (calls ++ calls') confs'' := by
  have hports := portsOf_congr h.coreName ports calls'
  constructor <;> intro e
  · rw [h'.coreName, h.coreName]
  · rw [h'.managed, h.managed, hports, portsOf_append, List.append_assoc]
  · rw [h'.numPort, h.numPort, hports, portsOf_append, List.length_append, Nat.add_assoc]
  · rw [h'.txMbufs, h.txMbufs]

end Gains

/-- A call with known names and a free slot appends the port to its engine. -/
lemma twMapPortToEngine_gains {ports : PortTable} {confs : LcoreTable μ}
    {call : CString × CString} (hm : Mappable ports confs call.1 call.2)
    (hfit : ∀ e, (confs e).numPort.toNat + (portsOf ports confs [call] e).length ≤ maxEthPorts) :
    ∃ confs', twMapPortToEngine ports confs call.1 call.2 = .ret confs' ∧
      Gains ports confs [call] confs' := by
  obtain ⟨e, he⟩ := (twEngineNameToLcoreId_spec confs call.2).resolve_left hm.2
  have hself : portsOf ports confs [call] e = [UInt8.ofNat (twEthNameToId ports call.1).toNat] := by
    simp [portsOf, he]
  have hother : ∀ x, x ≠ e → portsOf ports confs [call] x = [] := by
    intro x hx
    have hne : ¬ ((e.val : Int) = x.val) := fun h => hx (Fin.ext (by exact_mod_cast h.symm))
    simp [portsOf, he, hne]
  have hs : (confs e).numPort.toNat < maxEthPorts := by
    have hroom := hfit e
    rw [hself, List.length_singleton] at hroom
    omega
  refine ⟨_, twMapPortToEngine_eq hm he hs, ?_⟩
  constructor <;> intro x <;> by_cases hx : x = e
  · subst hx
    simp [LcoreConf.addPort]
  · simp [hx]
  · subst hx
    rw [Function.update_self, hself, LcoreConf.addPort_managed hs]
  · rw [Function.update_of_ne hx, hother x hx, List.append_nil]
  · subst hx
    rw [Function.update_self, hself, List.length_singleton]
    exact LcoreConf.addPort_numPort hs _
  · rw [Function.update_of_ne hx, hother x hx, List.length_nil, Nat.add_zero]
  · subst hx
    simp [LcoreConf.addPort]
  · simp [hx]

/-- Calls with known names, at most eight for an engine, give each engine its
ports in call order and touch nothing else. -/
theorem mapPorts_spec {ports : PortTable} {confs : LcoreTable μ} {calls : List (CString × CString)}
    (hm : ∀ call ∈ calls, Mappable ports confs call.1 call.2)
    (hfit : ∀ e, (confs e).numPort.toNat + (portsOf ports confs calls e).length ≤ maxEthPorts) :
    ∃ confs', mapPorts ports confs calls = .ret confs' ∧ Gains ports confs calls confs' := by
  induction calls generalizing confs with
  | nil => exact ⟨confs, rfl, .refl ports confs⟩
  | cons call calls ih =>
    have hsplit : ∀ e, portsOf ports confs (call :: calls) e =
        portsOf ports confs [call] e ++ portsOf ports confs calls e := portsOf_append ports confs
      [call] calls
    obtain ⟨confs₁, hcall, hgain⟩ := twMapPortToEngine_gains (hm call (by simp)) fun e => by
      have hroom := hfit e
      rw [hsplit, List.length_append] at hroom
      omega
    obtain ⟨confs', hrun, hgain'⟩ := @ih confs₁
      (fun k hk => hgain.mappable.mpr (hm k (by simp [hk]))) fun e => by
        have hroom := hfit e
        rw [hsplit, List.length_append] at hroom
        rw [hgain.numPort, portsOf_congr hgain.coreName]
        omega
    refine ⟨confs', ?_, hgain.trans hgain'⟩
    rw [mapPorts, List.foldlM_cons, hcall, Outcome.ret_bind]
    exact hrun

lemma mapPorts_fresh {ports : PortTable} {confs₀ confs : LcoreTable μ}
    {calls : List (CString × CString)} (hinit : ∀ e, (confs₀ e).numPort = 0)
    (hok : ∀ call ∈ calls, Mappable ports confs₀ call.1 call.2)
    (hfit : ∀ e, (portsOf ports confs₀ calls e).length ≤ maxEthPorts)
    (hmap : mapPorts ports confs₀ calls = .ret confs) (e : Fin maxLcores) :
    (confs e).managed = portsOf ports confs₀ calls e ∧
      (confs e).numPort.toNat = (portsOf ports confs₀ calls e).length := by
  obtain ⟨confs', hrun, hgain⟩ := mapPorts_spec hok (fun x => by simpa [hinit x] using hfit x)
  obtain rfl : confs' = confs := by simpa [hmap] using hrun.symm
  have hzero : (confs₀ e).managed = [] := by simp [LcoreConf.managed, hinit e]
  constructor
  · rw [hgain.managed, hzero, List.nil_append]
  · rw [hgain.numPort, hinit e, UInt8.toNat_zero, Nat.zero_add]

section Instances

def twName (i : UInt8) : CString := [0x74, 0x77, 0x30 + i]
def engineName (i : UInt8) : CString := [0x65, 0x6e, 0x67, 0x69, 0x6e, 0x65, 0x30 + i]

def twPorts : PortTable := fun i =>
  ⟨fun _ => portByte i, twName (portByte i), 0x0a0a0105 + UInt32.ofNat i.val, 0, 0⟩

def idleEngines : LcoreTable ℕ := fun e =>
  ⟨engineName (UInt8.ofNat e.val), 0, fun _ => 0, fun _ => ⟨0, fun _ => 0⟩⟩

end Instances
end Twister
