import Twister.PortJson
import Twister.StrToInt

/-! The parameters of the UDP sender. Every number of its file is kept in 16 or 32 bits, where
the decimal conversion is right. -/
namespace Twister.UdpSend

section Model

/-- An element of the file. A key that is missing or has no string is `none`. -/
structure ParamObject where
  serverIp : Option CString
  serverPort : Option CString
  payload : Option CString
  testRuntime : Option CString
  ppsLimit : Option CString

structure UserParams where
  serverIp : UInt32
  serverPort : UInt16
  payloadSize : UInt16
  ppsLimit : UInt32
  testRuntime : UInt32

/-- The parameters, and `tw_stats.payload_size`. -/
structure ParamState where
  userParams : UserParams
  statsPayloadSize : UInt64

/-- The length that `strlen` finds is passed as a `uint8_t`. -/
def number (value : Option CString) : Outcome UInt64 := do
  let str ← valuestring value
  twConvertStrToInt str (UInt8.ofNat str.length)

variable (stack : ℕ → Int) (ipArr : Fin 4 → UInt8)

def loadParams (_ : ParamState) (subitem : ParamObject) : Outcome ParamState := do
  let ipStr ← valuestring subitem.serverIp
  let serverIp ← twConvertIpStrToDec stack ipArr ipStr
  let serverPort ← number subitem.serverPort
  let payload ← number subitem.payload
  let testRuntime ← number subitem.testRuntime
  let ppsLimit ← number subitem.ppsLimit
  .ret ⟨⟨serverIp, serverPort.toUInt16, payload.toUInt16, ppsLimit.toUInt32,
    testRuntime.toUInt32⟩, payload.toUInt16.toUInt64⟩

/-- `jsonFile` is `none` when the file does not parse. -/
def parseUserParams (jsonFile : Option (List ParamObject)) (st : ParamState) :
    Outcome (Int × ParamState) :=
  match jsonFile with
  | none => .ret (-1, st)
  | some jsonFile => do
    let st ← byteLoop (loadParams stack ipArr) st jsonFile
    .ret (0, st)

/-- The start of `main`, up to the delay between two packets. The result of the parser is
not looked at. -/
def ppsDelay (jsonFile : Option (List ParamObject)) (tscHz : UInt64) (st : ParamState) :
    Outcome (ParamState × UInt64) := do
  let (_, st) ← parseUserParams stack ipArr jsonFile st
  if st.userParams.ppsLimit = 0 then .fault
  else .ret (st, tscHz / st.userParams.ppsLimit.toUInt64)

end Model

/-- The values of an entry, the numbers by their digits. -/
structure ParamConf where
  serverIp : UInt32
  serverPort : List (Fin 10)
  payload : List (Fin 10)
  testRuntime : List (Fin 10)
  ppsLimit : List (Fin 10)

/-- The texts of the object are a dotted quad and digits, at most 255 of them. -/
structure ParamObject.Denotes (o : ParamObject) (c : ParamConf) : Prop where
  serverIp : ∃ s, o.serverIp = some s ∧ Renders s c.serverIp
  serverPort : o.serverPort = some (c.serverPort.map digitChar) ∧ c.serverPort.length ≤ 255
  payload : o.payload = some (c.payload.map digitChar) ∧ c.payload.length ≤ 255
  testRuntime : o.testRuntime = some (c.testRuntime.map digitChar) ∧ c.testRuntime.length ≤ 255
  ppsLimit : o.ppsLimit = some (c.ppsLimit.map digitChar) ∧ c.ppsLimit.length ≤ 255

/-- Every number is kept modulo the range of its field. -/
structure ParamConf.HeldBy (c : ParamConf) (st : ParamState) : Prop where
  serverIp : st.userParams.serverIp = c.serverIp
  serverPort : st.userParams.serverPort.toNat = decimal c.serverPort % 2 ^ 16
  payload : st.userParams.payloadSize.toNat = decimal c.payload % 2 ^ 16
  testRuntime : st.userParams.testRuntime.toNat = decimal c.testRuntime % 2 ^ 32
  ppsLimit : st.userParams.ppsLimit.toNat = decimal c.ppsLimit % 2 ^ 32
  stats : st.statsPayloadSize.toNat = decimal c.payload % 2 ^ 16

section Load
variable {stack : ℕ → Int} {ipArr : Fin 4 → UInt8} {file : List ParamObject} {o : ParamObject}
  {c : ParamConf} {st : ParamState}

lemma number_digits {digits : List (Fin 10)} {value : Option CString}
    (h : value = some (digits.map digitChar) ∧ digits.length ≤ 255) :
    ∃ num, number value = .ret num ∧ num.toUInt32.toNat = decimal digits % 2 ^ 32 ∧
      num.toUInt16.toNat = decimal digits % 2 ^ 16 := by
  obtain ⟨rfl, hlen⟩ := h
  obtain ⟨num, hnum, hlow⟩ := twConvertStrToInt_low hlen
  refine ⟨num, ?_, hlow, ?_⟩
  · rw [number, valuestring, Outcome.ret_bind, List.length_map, hnum]
  · rw [UInt64.toNat_toUInt32] at hlow
    rw [UInt64.toNat_toUInt16]
    omega

lemma loadParams_held (stack : ℕ → Int) (ipArr : Fin 4 → UInt8) (h : o.Denotes c)
    (st : ParamState) : ∃ st', loadParams stack ipArr st o = .ret st' ∧ c.HeldBy st' := by
  obtain ⟨s, hs, hip⟩ := h.serverIp
  obtain ⟨port, hport, -, hport16⟩ := number_digits h.serverPort
  obtain ⟨payload, hpayload, -, hpayload16⟩ := number_digits h.payload
  obtain ⟨runtime, hruntime, hruntime32, -⟩ := number_digits h.testRuntime
  obtain ⟨pps, hpps, hpps32, -⟩ := number_digits h.ppsLimit
  refine ⟨⟨⟨c.serverIp, port.toUInt16, payload.toUInt16, pps.toUInt32, runtime.toUInt32⟩,
    payload.toUInt16.toUInt64⟩, ?_, ⟨rfl, hport16, hpayload16, hruntime32, hpps32, ?_⟩⟩
  · simp only [loadParams, hs, valuestring, Outcome.ret_bind, twConvertIpStrToDec_renders hip,
      hport, hpayload, hruntime, hpps]
  · rw [UInt16.toNat_toUInt64, hpayload16]

lemma loadFile_last (stack : ℕ → Int) (ipArr : Fin 4 → UInt8) (st : ParamState)
    (hfile : ∀ o ∈ file, ∃ c, o.Denotes c) :
    ∃ st', file.foldlM (loadParams stack ipArr) st = .ret st' ∧ (file = [] → st' = st) ∧
      ∀ o c, file.getLast? = some o → o.Denotes c → c.HeldBy st' := by
  induction file using List.reverseRecOn with
  | nil => exact ⟨st, rfl, fun _ => rfl, fun o c hlast => by cases hlast⟩
  | append_singleton file o ih =>
    obtain ⟨st₁, hrun, -⟩ := ih fun x hx => hfile x (List.mem_append_left _ hx)
    obtain ⟨c, ho⟩ := hfile o (by simp)
    obtain ⟨st', hload, -⟩ := loadParams_held stack ipArr ho st₁
    refine ⟨st', ?_, fun hnil => ?_, fun x d hlast hx => ?_⟩
    · rw [List.foldlM_append, hrun, Outcome.ret_bind, List.foldlM_cons, hload, Outcome.ret_bind]
      rfl
    · simp at hnil
    · obtain rfl : o = x := by simpa using hlast
      obtain ⟨st'', hload', hheld⟩ := loadParams_held stack ipArr hx st₁
      rw [hload] at hload'
      rwa [Outcome.ret.inj hload']

lemma parseUserParams_eq (hshort : file.length < 256) :
    parseUserParams stack ipArr (some file) st = (do
      let st ← file.foldlM (loadParams stack ipArr) st
      .ret (0, st)) := by
  rw [parseUserParams, byteLoop_eq hshort]

end Load
end Twister.UdpSend
