import Twister.Mbuf

/-! Configured ports. The device port id is the index into the port table. -/
namespace Twister

/-- The bytes of a C string before its terminator. -/
abbrev CString := List UInt8

def maxEthPorts : ℕ := 8

instance : NeZero maxEthPorts := ⟨by decide⟩

/-- `eth_mac` is the address the pointer of the source refers to. -/
structure PortInfo where
  ethMac : EtherAddr
  portName : CString
  startIpAddr : UInt32
  gatewayIp : UInt32
  subnetMask : UInt32

abbrev PortTable := Fin maxEthPorts → PortInfo

def portInfo (ports : PortTable) (portId : UInt8) : Outcome PortInfo :=
  if h : portId.toNat < maxEthPorts then .ret (ports ⟨portId.toNat, h⟩) else .fault

/-- The device port id as the `uint8_t` the calls pass. -/
def portByte (p : Fin maxEthPorts) : UInt8 := UInt8.ofNat p.val

@[simp] lemma portByte_toNat (p : Fin maxEthPorts) : (portByte p).toNat = p.val := by
  have hp := p.isLt
  have hm : maxEthPorts = 8 := rfl
  simp [portByte]
  omega

lemma portByte_injective : Function.Injective portByte := by
  intro p q h
  have := congrArg UInt8.toNat h
  simpa [Fin.ext_iff] using this

lemma portInfo_portByte (ports : PortTable) (p : Fin maxEthPorts) :
    portInfo ports (portByte p) = .ret (ports p) := by
  have h : (portByte p).toNat < maxEthPorts := by rw [portByte_toNat]; exact p.isLt
  unfold portInfo
  rw [dif_pos h]
  exact congrArg (fun i => Outcome.ret (ports i)) (Fin.ext (portByte_toNat p))

/-- The last port of that name, or -1. -/
def twEthNameToId (ports : PortTable) (name : CString) : Int :=
  (List.finRange maxEthPorts).foldl
    (fun prtId i => if (ports i).portName = name then (i.val : Int) else prtId) (-1)

lemma foldl_last_hit {n : ℕ} (hit : Fin n → Prop) [DecidablePred hit] (is : List (Fin n))
    (d : Int) :
    let r := is.foldl (fun acc i => if hit i then (i.val : Int) else acc) d
    r = d ∨ ∃ i ∈ is, hit i ∧ r = i.val := by
  induction is generalizing d with
  | nil => exact Or.inl rfl
  | cons i is ih =>
    simp only [List.foldl_cons]
    by_cases hi : hit i
    · rcases ih (i.val : Int) with h | ⟨j, hj, hh, he⟩
      · exact Or.inr ⟨i, by simp, hi, by simpa [hi] using h⟩
      · exact Or.inr ⟨j, by simp [hj], hh, by simpa [hi] using he⟩
    · rcases ih d with h | ⟨j, hj, hh, he⟩
      · exact Or.inl (by simpa [hi] using h)
      · exact Or.inr ⟨j, by simp [hj], hh, by simpa [hi] using he⟩

lemma foldl_last_hit_of_mem {n : ℕ} (hit : Fin n → Prop) [DecidablePred hit] {is : List (Fin n)}
    {i : Fin n} (hmem : i ∈ is) (hi : hit i) (d : Int) :
    ∃ j ∈ is, hit j ∧ is.foldl (fun acc i => if hit i then (i.val : Int) else acc) d = j.val := by
  induction is generalizing d with
  | nil => simp at hmem
  | cons k is ih =>
    rw [List.foldl_cons]
    by_cases hk : hit k
    · rw [if_pos hk]
      rcases foldl_last_hit hit is (k.val : Int) with h | ⟨j, hj, hh, he⟩
      · exact ⟨k, List.mem_cons_self, hk, h⟩
      · exact ⟨j, List.mem_cons_of_mem k hj, hh, he⟩
    · have hne : i ≠ k := fun he => hk (he ▸ hi)
      rw [if_neg hk]
      obtain ⟨j, hj, hh, he⟩ := ih ((List.mem_cons.mp hmem).resolve_left hne) d
      exact ⟨j, List.mem_cons_of_mem k hj, hh, he⟩

/-- A name that some port has leads to a port of that name. -/
lemma twEthNameToId_found {ports : PortTable} {name : CString} {i : Fin maxEthPorts}
    (h : (ports i).portName = name) :
    ∃ j : Fin maxEthPorts, (ports j).portName = name ∧ twEthNameToId ports name = j.val := by
  obtain ⟨j, -, hj, he⟩ := foldl_last_hit_of_mem (fun j => (ports j).portName = name)
    (List.mem_finRange i) h (-1)
  exact ⟨j, hj, he⟩

theorem twEthNameToId_spec (ports : PortTable) (name : CString) :
    twEthNameToId ports name = -1 ∨
      ∃ i : Fin maxEthPorts, (ports i).portName = name ∧ twEthNameToId ports name = i.val := by
  rcases foldl_last_hit (fun i => (ports i).portName = name) (List.finRange maxEthPorts) (-1) with
    h | ⟨i, -, hi, he⟩
  · exact Or.inl h
  · exact Or.inr ⟨i, hi, he⟩

end Twister
