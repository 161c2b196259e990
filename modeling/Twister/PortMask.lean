import Twister.PortConf

/-! The port mask argument: read as a hexadecimal number, returned as an `int` and kept in
sixteen bits. -/
namespace Twister

section Strtoul

def isSpace (c : UInt8) : Bool := c = 0x20 ∨ 0x09 ≤ c ∧ c ≤ 0x0d

def hexValue (c : UInt8) : Option ℕ :=
  if 0x30 ≤ c ∧ c ≤ 0x39 then some (c.toNat - 0x30)
  else if 0x41 ≤ c ∧ c ≤ 0x46 then some (c.toNat - 0x41 + 10)
  else if 0x61 ≤ c ∧ c ≤ 0x66 then some (c.toNat - 0x61 + 10)
  else none

def isHex (c : UInt8) : Bool := (hexValue c).isSome

/-- An optional sign: whether it is a minus, and what follows. -/
def readSign : CString → Bool × CString
  | [] => (false, [])
  | c :: s => if c = 0x2d then (true, s) else if c = 0x2b then (false, s) else (false, c :: s)

/-- An optional `0x`, which only counts in front of a digit. -/
def skipPrefix (s : CString) : CString :=
  if s[0]? = some 0x30 ∧ (s[1]? = some 0x78 ∨ s[1]? = some 0x58) ∧ (s[2]?.any isHex) then s.drop 2
  else s

def hexNumber (digits : CString) : ℕ :=
  digits.foldl (fun n c => 16 * n + (hexValue c).getD 0) 0

/-- `strtoul(nptr, &end, 16)` with an `unsigned long` of 64 bits: the value and the text from
`end` on. Without digits `end` is the start. -/
def strtoul (nptr : CString) : UInt64 × CString :=
  let (minus, s) := readSign (nptr.dropWhile isSpace)
  let s := skipPrefix s
  let digits := s.takeWhile isHex
  if digits = [] then (0, nptr)
  else
    let n := hexNumber digits
    let value : UInt64 :=
      if 2 ^ 64 ≤ n then UInt64.ofNat (2 ^ 64 - 1)
      else if minus then -UInt64.ofNat n else UInt64.ofNat n
    (value, s.dropWhile isHex)

end Strtoul

section Model

/-- The value is cut to an `int`, as is every error to -1. -/
def twParsePortmask (portmask : CString) : Int32 :=
  let (pm, stop) := strtoul portmask
  if portmask = [] ∨ stop ≠ [] then -1
  else if pm = 0 then -1
  else pm.toUInt32.toInt32

/-- What a call of `getopt_long` finds with the options `p:`. -/
inductive GetoptResult
  | portmask (optarg : CString)
  | unknown
  deriving DecidableEq

/-- All calls of `getopt_long` over the arguments behind the program name: what they return
and how many arguments they consume. The caller stops at the first unknown option. -/
def getoptLong : List CString → List GetoptResult × ℕ
  | [] => ([], 0)
  | arg :: args =>
    if arg = [0x2d, 0x2d] then ([], 1)
    else if arg = [0x2d, 0x70] then
      match args with
      | [] => ([.unknown], 1)
      | optarg :: args =>
        let (rest, n) := getoptLong args
        (.portmask optarg :: rest, n + 2)
    else if arg.take 2 = [0x2d, 0x70] then
      let (rest, n) := getoptLong args
      (.portmask (arg.drop 2) :: rest, n + 1)
    else if arg[0]? = some 0x2d ∧ 2 ≤ arg.length then ([.unknown], 1)
    -- an operand, which is moved behind the options
    else getoptLong args

/-- `app_port_mask = tw_parse_portmask(optarg)`, which keeps sixteen bits. -/
def maskOf (optarg : CString) : UInt16 := (twParsePortmask optarg).toUInt32.toUInt16

def parseOpts (optind : ℕ) : List GetoptResult → UInt16 → Int × UInt16
  | [], appPortMask => ((optind : Int) - 1, appPortMask)
  | .unknown :: _, appPortMask => (-1, appPortMask)
  | .portmask optarg :: rest, _ =>
    let appPortMask := maskOf optarg
    if appPortMask = 0 then (-1, appPortMask) else parseOpts optind rest appPortMask

/-- What the call returns and the mask it leaves. -/
def twParseTwisterArgs (argv : List CString) (appPortMask : UInt16) : Int × UInt16 :=
  let (opts, n) := getoptLong argv.tail
  parseOpts (n + 1) opts appPortMask

end Model

section Validate
variable {s : CString}

/-- The text is the argument of `-p`, apart or joined to it. -/
def PassedAsMask (s : CString) (argv : List CString) : Prop :=
  ∃ prgname, argv = [prgname, [0x2d, 0x70], s] ∨ s ≠ [] ∧ argv = [prgname, [0x2d, 0x70] ++ s]

/-- A hexadecimal number from 1 to 0xffff and nothing else. -/
def IsMask (s : CString) : Prop :=
  s ≠ [] ∧ (strtoul s).2 = [] ∧ 1 ≤ (strtoul s).1.toNat ∧ (strtoul s).1.toNat ≤ 0xffff

/-- The call refuses what is no mask and keeps what is one. -/
structure Validates (s : CString) (r : Int × UInt16) : Prop where
  refuses : r.1 = -1 ↔ ¬ IsMask s
  keeps : r.1 ≠ -1 → r.2.toNat = (strtoul s).1.toNat

lemma parseOpts_portmask (optind : ℕ) (s : CString) (mask : UInt16) :
    parseOpts optind [.portmask s] mask =
      if maskOf s = 0 then (-1, 0) else ((optind : Int) - 1, maskOf s) := by
  simp only [parseOpts]
  split_ifs with hzero
  · rw [hzero]
  · rfl

lemma twParseTwisterArgs_eq {argv : List CString} (h : PassedAsMask s argv) (mask : UInt16) :
    ∃ code : Int, 0 ≤ code ∧ twParseTwisterArgs argv mask =
      if maskOf s = 0 then (-1, 0) else (code, maskOf s) := by
  obtain ⟨prgname, rfl | ⟨hs, rfl⟩⟩ := h
  · exact ⟨2, by decide, parseOpts_portmask 3 s mask⟩
  · obtain ⟨c, cs, rfl⟩ := List.exists_cons_of_ne_nil hs
    have hopts : getoptLong [[0x2d, 0x70] ++ c :: cs] = ([.portmask (c :: cs)], 1) := by
      simp [getoptLong]
    refine ⟨1, by decide, ?_⟩
    rw [twParseTwisterArgs, List.tail_cons, hopts]
    exact parseOpts_portmask 2 (c :: cs) mask

lemma maskOf_bad (h : s = [] ∨ (strtoul s).2 ≠ [] ∨ (strtoul s).1 = 0) : maskOf s = 0xffff := by
  have hparse : twParsePortmask s = -1 := by
    rcases h with hempty | hrest | hzero
    · exact if_pos (Or.inl hempty)
    · exact if_pos (Or.inr hrest)
    · unfold twParsePortmask
      simp only [hzero, if_true, ite_self]
  rw [maskOf, hparse]
  rfl

lemma maskOf_number (hne : s ≠ []) (hrest : (strtoul s).2 = []) (hzero : (strtoul s).1 ≠ 0) :
    (maskOf s).toNat = (strtoul s).1.toNat % 65536 := by
  have hparse : twParsePortmask s = (strtoul s).1.toUInt32.toInt32 := by
    unfold twParsePortmask
    simp [hne, hrest, hzero]
  have hbits : (strtoul s).1.toUInt32.toInt32.toUInt32 = (strtoul s).1.toUInt32 := rfl
  rw [maskOf, hparse, hbits, UInt32.toNat_toUInt16, UInt64.toNat_toUInt32]
  omega

/-- The error code passes for the mask of all ports. -/
lemma not_validates_bad (h : s = [] ∨ (strtoul s).2 ≠ [] ∨ (strtoul s).1 = 0) {code : Int}
    (hcode : 0 ≤ code) : ¬ Validates s (code, 0xffff) := by
  intro hval
  have hno : ¬ IsMask s := by
    rintro ⟨hne, hrest, hpos, -⟩
    rcases h with hempty | hrest' | hzero
    · exact hne hempty
    · exact hrest' hrest
    · rw [hzero] at hpos
      exact absurd hpos (by decide)
  have hrefused : code = -1 := hval.refuses.mpr hno
  omega

lemma isMask_iff (hne : s ≠ []) (hrest : (strtoul s).2 = []) (hzero : (strtoul s).1 ≠ 0) :
    IsMask s ↔ (strtoul s).1.toNat ≤ 0xffff := by
  have hpos : 0 < (strtoul s).1.toNat :=
    Nat.pos_of_ne_zero fun he => hzero (UInt64.toNat_inj.mp he)
  exact ⟨fun h => h.2.2.2, fun hle => ⟨hne, hrest, hpos, hle⟩⟩

/-- A number is refused exactly if its low sixteen bits are zero. -/
lemma validates_number_iff (hne : s ≠ []) (hrest : (strtoul s).2 = [])
    (hzero : (strtoul s).1 ≠ 0) {code : Int} (hcode : 0 ≤ code) :
    Validates s (if maskOf s = 0 then (-1, 0) else (code, maskOf s)) ↔
      (strtoul s).1.toNat ≤ 0xffff ∨ (strtoul s).1.toNat % 65536 = 0 := by
  have hmask := maskOf_number hne hrest hzero
  have hnumber := isMask_iff hne hrest hzero
  have hcleared : maskOf s = 0 ↔ (strtoul s).1.toNat % 65536 = 0 := by
    rw [← UInt16.toNat_inj, hmask]
    rfl
  by_cases hclear : maskOf s = 0
  · rw [if_pos hclear]
    have hlow := hcleared.mp hclear
    refine iff_of_true ⟨iff_of_true rfl fun h => ?_, fun h => absurd rfl h⟩ (Or.inr hlow)
    obtain ⟨-, -, hpos, hle⟩ := h
    omega
  · rw [if_neg hclear]
    have haccepted : code ≠ -1 := by omega
    constructor
    · intro hval
      refine Or.inl (hnumber.mp ?_)
      by_contra hno
      exact haccepted (hval.refuses.mpr hno)
    · rintro (hle | hlow)
      · refine ⟨iff_of_false haccepted (not_not.mpr (hnumber.mpr hle)), fun _ => ?_⟩
        change (maskOf s).toNat = _
        rw [hmask]
        omega
      · exact absurd (hcleared.mpr hlow) hclear

/-- Texts that are no number are let through, as are numbers too large whose low sixteen bits
are not all zero. -/
theorem twParseTwisterArgs_validates_iff {argv : List CString} (h : PassedAsMask s argv)
    (mask : UInt16) :
    Validates s (twParseTwisterArgs argv mask) ↔ s ≠ [] ∧ (strtoul s).2 = [] ∧
      (strtoul s).1 ≠ 0 ∧ ((strtoul s).1.toNat ≤ 0xffff ∨ (strtoul s).1.toNat % 65536 = 0) := by
  obtain ⟨code, hcode, hcall⟩ := twParseTwisterArgs_eq h mask
  rw [hcall]
  by_cases hbad : s = [] ∨ (strtoul s).2 ≠ [] ∨ (strtoul s).1 = 0
  · rw [maskOf_bad hbad, if_neg (by decide)]
    refine iff_of_false (not_validates_bad hbad hcode) ?_
    rintro ⟨hne, hrest, hzero, -⟩
    rcases hbad with hempty | hrest' | hzero'
    · exact hne hempty
    · exact hrest' hrest
    · exact hzero hzero'
  · rw [not_or, not_or, not_not] at hbad
    obtain ⟨hne, hrest, hzero⟩ := hbad
    rw [validates_number_iff hne hrest hzero hcode]
    exact ⟨fun hnum => ⟨hne, hrest, hzero, hnum⟩, fun hnum => hnum.2.2.2⟩

/-- `0x3` -/
theorem twParseTwisterArgs_validates_three :
    Validates [0x30, 0x78, 0x33]
      (twParseTwisterArgs [[], [0x2d, 0x70], [0x30, 0x78, 0x33]] 0) :=
  (twParseTwisterArgs_validates_iff ⟨[], Or.inl rfl⟩ 0).mpr (by decide)

/-- The empty text is taken for the mask of all ports, and `1ffff` for 0xffff. -/
theorem twParseTwisterArgs_accepts_empty :
    twParseTwisterArgs [[], [0x2d, 0x70], []] 0 = (2, 0xffff) ∧
      ¬ Validates [] (twParseTwisterArgs [[], [0x2d, 0x70], []] 0) ∧
    twParseTwisterArgs [[], [0x2d, 0x70], [0x31, 0x66, 0x66, 0x66, 0x66]] 0 = (2, 0xffff) ∧
      (strtoul [0x31, 0x66, 0x66, 0x66, 0x66]).1 = 0x1ffff := by
  refine ⟨by decide, fun hval => ?_, by decide, by decide⟩
  have hcode : (2 : Int) = -1 := hval.refuses.mpr fun hmask => hmask.1 rfl
  exact absurd hcode (by decide)

end Validate
end Twister
