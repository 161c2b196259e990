import Twister.ConfigFile
import Twister.PortMask

/-! The start of the library: the tool writes the masks of the selected devices and cores to a
file, the library copies them to argument blocks of fixed sizes and reads the port mask back. -/
namespace Twister
open CJson

section Tool

/-- `int(text, 2)` of a text of ones and zeros. -/
def ofBinary (bits : List Bool) : ℕ := bits.foldl (fun n b => 2 * n + b.toNat) 0

def hexChar (d : ℕ) : UInt8 := UInt8.ofNat (if d < 10 then 0x30 + d else 0x57 + d)

/-- `hex(n)`. A number that does not fit a machine word ends with an `L`. -/
def hex (n : ℕ) : CString :=
  [0x30, 0x78] ++ (if n = 0 then [0x30] else ((Nat.digits 16 n).map hexChar).reverse) ++
    if n < 2 ^ 63 then [] else [0x4c]

def getCoremask (cores : ℤ) (totalCpus : ℕ) : Outcome CString :=
  if totalCpus = 0 then .exit "invalid literal for int() with base 2: ''"
  else .ret (hex (ofBinary ((List.range totalCpus).map fun i : ℕ => decide (cores > (i : ℤ)))))

def getPortmask (whitelist : List CString) : CString :=
  hex (ofBinary (if whitelist.length = 0 then [false] else List.replicate whitelist.length true))

/-- What the tool writes to the file. -/
structure ApiConf where
  coremask : CString
  portmask : CString
  blacklist : List CString

def configure (devices whitelist blacklist : List CString) (cores : ℤ) (totalCpus : ℕ) :
    Outcome ApiConf := do
  let coremask ← getCoremask cores totalCpus
  if whitelist.any (· ∈ blacklist) then
    .exit "whitelist conflicts with blacklist in twister.conf"
  else if ¬ whitelist.all (· ∈ devices) then
    .exit "whitelist interfaces in twister.conf do not exist"
  else .ret ⟨coremask, getPortmask whitelist, blacklist⟩

end Tool

section Library

structure TwConf where
  portmask : Option CString
  coremask : Option CString
  blacklist : List (Option CString)

/-- The names `portmask`, `coremask` and `blacklist`. -/
def portmaskKey : CString := [0x70, 0x6f, 0x72, 0x74, 0x6d, 0x61, 0x73, 0x6b]
def coremaskKey : CString := [0x63, 0x6f, 0x72, 0x65, 0x6d, 0x61, 0x73, 0x6b]
def blacklistKey : CString := [0x62, 0x6c, 0x61, 0x63, 0x6b, 0x6c, 0x69, 0x73, 0x74]

variable (ok : ℕ → Bool)

def arrayStrings (array : Item) : Outcome (List (Option CString)) :=
  (List.range array.2.getArraySize).mapM fun i =>
    match array.2.getArrayItem i with
    | none => .fault
    | some item => .ret item.1.valuestring

def twParseConf (m : Alloc) (lastByte : UInt8) (file : Option (List UInt8)) : Outcome TwConf := do
  match ← twParseJsonFile ok m lastByte file with
  | none => .fault
  | some jsonFile =>
    let portmask ← getObjectItem jsonFile portmaskKey
    let coremask ← getObjectItem jsonFile coremaskKey
    let blacklistObject ← getObjectItem jsonFile blacklistKey
    let blacklist ← arrayStrings blacklistObject
    .ret ⟨portmask.1.valuestring, coremask.1.valuestring, blacklist⟩

/-- `strcpy` to a block of `size` bytes. -/
def strcpy (size : ℕ) (src : Option CString) : Outcome CString := do
  let s ← valuestring src
  if s.length < size then .ret s else .fault

/-- `strcpy(argv[6], twister_config.blacklist[0])`. -/
def firstDevice (blacklist : List (Option CString)) : Outcome CString :=
  match blacklist with
  | [] => .fault
  | first :: _ => strcpy 12 first

/-- The places of `argv1`, which `tw_init_global` passes. -/
def argv1Slots : ℕ := 1

/-- The length of a PCI id such as `0000:00:00.0`. -/
def pciIdLen : ℕ := 12

/-- The arguments `ab -c <coremask> -n 4 -b <device> -- -p <portmask>`. -/
def ealArgs (coremask device portmask : CString) : List CString :=
  [[0x61, 0x62], [0x2d, 0x63], coremask, [0x2d, 0x6e], [0x34], [0x2d, 0x62], device, [0x2d, 0x2d],
    [0x2d, 0x70], portmask]

/-- Ten blocks are stored to `argv`, which has `slots` places, and three of them get a value of
the file. The call leaves the port mask. -/
def twInitEalEnv (rteEalInit : List CString → Int × List CString) (uid slots : ℕ) (m : Alloc)
    (lastByte : UInt8) (file : Option (List UInt8)) (appPortMask : UInt16) : Outcome UInt16 :=
  if uid ≠ 0 then .exit
    "Permission denied: Please run the application using sudo to use Hugepages!\n"
  else do
    let conf ← twParseConf ok m lastByte file
    if slots < 10 then .fault
    else
      let coremask ← strcpy 5 conf.coremask
      let device ← firstDevice conf.blacklist
      let portmask ← strcpy 4 conf.portmask
      let (ret, argv) := rteEalInit (ealArgs coremask device portmask)
      if ret < 0 then .exit "Invalid EAL arguments\n"
      else
        let (ret, appPortMask) := twParseTwisterArgs (argv.drop ret.toNat) appPortMask
        if ret < 0 then .exit "Invalid commandline arguments\n" else .ret appPortMask

end Library

section Masks

lemma foldl_binary (n : ℕ) (bits : List Bool) :
    bits.foldl (fun n b => 2 * n + b.toNat) n = n * 2 ^ bits.length + ofBinary bits := by
  induction bits generalizing n with
  | nil => simp [ofBinary]
  | cons b bits ih =>
    rw [ofBinary, List.foldl_cons, List.foldl_cons, ih, ih (2 * 0 + _), List.length_cons]
    ring

lemma ofBinary_ones (n : ℕ) : ofBinary (List.replicate n true) = 2 ^ n - 1 := by
  induction n with
  | zero => rfl
  | succ n ih =>
    rw [List.replicate_succ, ofBinary, List.foldl_cons, foldl_binary, ih, List.length_replicate]
    have hpos : 0 < 2 ^ n := by positivity
    simp only [Bool.toNat_true]
    omega

lemma ofBinary_zeros (n : ℕ) : ofBinary (List.replicate n false) = 0 := by
  induction n with
  | zero => rfl
  | succ n ih =>
    rw [List.replicate_succ, ofBinary, List.foldl_cons, foldl_binary, ih]
    simp

/-- The first `cores` of the processors, which are the highest bits. -/
lemma coreBits_eq (cores : ℤ) (totalCpus : ℕ) :
    ((List.range totalCpus).map fun i : ℕ => decide (cores > (i : ℤ))) =
      List.replicate (min cores.toNat totalCpus) true ++
        List.replicate (totalCpus - min cores.toNat totalCpus) false := by
  apply List.ext_getElem
  · simp only [List.length_map, List.length_range, List.length_append, List.length_replicate]
    omega
  · intro i h₁ h₂
    simp only [List.length_map, List.length_range] at h₁
    simp only [List.getElem_map, List.getElem_range, List.getElem_append, List.length_replicate,
      List.getElem_replicate]
    split
    · rename_i hi
      exact decide_eq_true (by omega)
    · rename_i hi
      exact decide_eq_false (by omega)

lemma coreBits_value (cores : ℤ) (totalCpus : ℕ) :
    ofBinary ((List.range totalCpus).map fun i : ℕ => decide (cores > (i : ℤ))) =
      (2 ^ min cores.toNat totalCpus - 1) * 2 ^ (totalCpus - min cores.toNat totalCpus) := by
  rw [coreBits_eq, ofBinary, List.foldl_append, foldl_binary, List.length_replicate,
    ofBinary_zeros, Nat.add_zero]
  exact congrArg (· * _) (ofBinary_ones _)

/-- A text of at most fifteen digits is the one of a small number. -/
lemma hex_length_le {n j : ℕ} (hj : 1 ≤ j) (hj' : j ≤ 15) :
    (hex n).length ≤ 2 + j ↔ n < 16 ^ j := by
  have hpos : 0 < 16 ^ j := by positivity
  by_cases hn : n = 0
  · subst hn
    have hlen : (hex 0).length = 3 := rfl
    rw [hlen]
    exact ⟨fun _ => hpos, fun _ => by omega⟩
  · have hdigits : (Nat.digits 16 n).length ≤ j ↔ n < 16 ^ j :=
      Nat.digits_length_le_iff (by norm_num) n
    have hpow : 16 ^ j ≤ 2 ^ 63 := by
      calc 16 ^ j ≤ 16 ^ 15 := Nat.pow_le_pow_right (by norm_num) hj'
        _ ≤ 2 ^ 63 := by norm_num
    rw [← hdigits]
    unfold hex
    rw [if_neg hn]
    simp only [List.length_append, List.length_cons, List.length_nil, List.length_reverse,
      List.length_map]
    split
    · simp only [List.length_nil]
      omega
    · simp only [List.length_singleton]
      omega

end Masks

section Parse
variable {ok : ℕ → Bool}

def IsText (v : Json .value) (s : CString) : Prop := v.str?.map Subtype.val = some s

/-- The value holds what the tool writes, its members in any order. -/
structure DescribesApi (v : Json .value) (conf : ApiConf) : Prop where
  coremask : HasText v coremaskKey conf.coremask
  portmask : HasText v portmaskKey conf.portmask
  blacklist : ∃ u, v.find? (named blacklistKey) = some u ∧
    List.Forall₂ IsText u.children conf.blacklist

lemma arrayStrings_eq {array : Item} {v : Json .value} (harray : IsItem array v)
    {ss : List CString} (h : List.Forall₂ IsText v.children ss) :
    arrayStrings array = .ret (ss.map some) := by
  have hitem : ∀ i (hi : i < ss.length), ∃ item, array.2.getArrayItem i = some item ∧
      item.1.valuestring = some ss[i] := by
    intro i hi
    have hchild : i < v.children.length := h.length_eq ▸ hi
    obtain ⟨item, hget, hisItem⟩ := getArrayItem_itemsOf (List.getElem?_eq_getElem hchild)
    have htext := (List.forall₂_iff_get.mp h).2 i hchild hi
    exact ⟨item, by rw [harray.child, hget], hisItem.valuestring.trans htext⟩
  have hall : ∀ k ≤ ss.length, ((List.range k).mapM fun i =>
      match array.2.getArrayItem i with
      | none => Outcome.fault
      | some item => .ret item.1.valuestring) = .ret ((ss.take k).map some) := by
    intro k hk
    induction k with
    | zero => rfl
    | succ k ih =>
      obtain ⟨item, hget, hvalue⟩ := hitem k hk
      rw [List.range_succ, List.mapM_append, ih (Nat.le_of_succ_le hk), List.mapM_cons, hget,
        List.take_succ_eq_append_getElem hk, List.map_append]
      simp [hvalue]
      rfl
  rw [arrayStrings, harray.child, getArraySize_itemsOf, h.length_eq, ← harray.child,
    hall _ le_rfl, List.take_length]

lemma twParseConf_text (hok : Plenty ok) {ms : Json .members} {conf : ApiConf}
    (h : DescribesApi (.object ms) conf) {w t : List UInt8} (hw : Json.Ws w)
    (ht : Json.Text (.object ms) t) (rest : List UInt8) (m : Alloc) (lastByte : UInt8) :
    twParseConf ok m lastByte (some (w ++ (t ++ rest))) =
      .ret ⟨some conf.portmask, some conf.coremask, conf.blacklist.map some⟩ := by
  have hends : Ends (.object ms) (rest ++ [lastByte]) := trivial
  have hisItem : IsItem (fieldsOf (.object ms) newItem, itemsOf (.object ms)) (.object ms) :=
    isItem_fieldsOf rfl _
  obtain ⟨core, hcore, hcoretext⟩ := h.coremask
  obtain ⟨port, hport, hporttext⟩ := h.portmask
  obtain ⟨u, hlist, hstrings⟩ := h.blacklist
  obtain ⟨corenode, hcoreitem, hcorenode⟩ := hisItem.getObjectItem hcore
  obtain ⟨portnode, hportitem, hportnode⟩ := hisItem.getObjectItem hport
  obtain ⟨array, harray, harraynode⟩ := hisItem.getObjectItem hlist
  rw [twParseConf, twParseJsonFile_text hok hw ht hends, Outcome.ret_bind]
  simp only [hportitem, hcoreitem, harray, arrayStrings_eq harraynode hstrings, Outcome.ret_bind,
    hcorenode.valuestring, hportnode.valuestring, Json.str?, Option.map_some, hcoretext, hporttext]

end Parse

section Start
variable {ok : ℕ → Bool} {devices whitelist blacklist : List CString} {cores : ℤ} {totalCpus : ℕ}
  {api : ApiConf}

lemma configure_ret (h : configure devices whitelist blacklist cores totalCpus = .ret api) :
    api.coremask = hex ((2 ^ min cores.toNat totalCpus - 1) *
        2 ^ (totalCpus - min cores.toNat totalCpus)) ∧
      api.portmask = getPortmask whitelist ∧ api.blacklist = blacklist := by
  obtain ⟨coremask, hcore, h⟩ := Outcome.bind_eq_ret.mp h
  split at h
  · cases h
  · split at h
    · cases h
    · obtain rfl := Outcome.ret.inj h
      refine ⟨?_, rfl, rfl⟩
      unfold getCoremask at hcore
      split at hcore
      · cases hcore
      · rw [← Outcome.ret.inj hcore, coreBits_value]

/-- The mask of the first ports, which no device makes a single zero. -/
lemma getPortmask_eq (whitelist : List CString) :
    getPortmask whitelist = hex (2 ^ whitelist.length - 1) := by
  unfold getPortmask
  split
  · rename_i hlen
    rw [hlen]
    rfl
  · rw [ofBinary_ones]

lemma portmask_fits_iff (whitelist : List CString) :
    (getPortmask whitelist).length < 4 ↔ whitelist.length ≤ 4 := by
  rw [getPortmask_eq, Nat.lt_succ_iff, show 3 = 2 + 1 from rfl,
    hex_length_le le_rfl (by norm_num)]
  constructor
  · intro h
    by_contra hlen
    have hpow : 2 ^ 5 ≤ 2 ^ whitelist.length := Nat.pow_le_pow_right two_pos (by omega)
    omega
  · intro h
    have hpow : 2 ^ whitelist.length ≤ 2 ^ 4 := Nat.pow_le_pow_right two_pos h
    omega

lemma coremask_fits_iff (k j : ℕ) :
    (hex ((2 ^ k - 1) * 2 ^ j)).length < 5 ↔ k = 0 ∨ k + j ≤ 8 := by
  rw [Nat.lt_succ_iff, show 4 = 2 + 2 from rfl, hex_length_le (by norm_num) (by norm_num)]
  cases k with
  | zero => simp
  | succ k =>
    have hlow : 2 ^ k ≤ 2 ^ (k + 1) - 1 := by
      have hpos : 0 < 2 ^ k := by positivity
      rw [Nat.pow_succ]
      omega
    have hhigh : 2 ^ (k + 1) - 1 < 2 ^ (k + 1) := Nat.sub_lt (by positivity) one_pos
    constructor
    · intro h
      right
      by_contra hlen
      have hpow : 2 ^ 8 ≤ 2 ^ k * 2 ^ j := by
        rw [← pow_add]
        exact Nat.pow_le_pow_right two_pos (by omega)
      have hle := Nat.mul_le_mul_right (2 ^ j) hlow
      omega
    · intro h
      have h := h.resolve_left (Nat.succ_ne_zero k)
      calc (2 ^ (k + 1) - 1) * 2 ^ j < 2 ^ (k + 1) * 2 ^ j :=
            Nat.mul_lt_mul_of_pos_right hhigh (by positivity)
        _ = 2 ^ (k + 1 + j) := (pow_add 2 (k + 1) j).symm
        _ ≤ 2 ^ 8 := Nat.pow_le_pow_right two_pos h

/-- As many ports are enabled as there are devices, and all of them for none. -/
lemma maskOf_portmask {n : ℕ} (hn : n ≤ maxEthPorts) : maskOf (hex (2 ^ n - 1)) ≠ 0 ∧
    ∀ i < 16, (portEnabled (maskOf (hex (2 ^ n - 1))) i ↔ n = 0 ∨ i < n) := by
  have hmax : n ≤ 8 := hn
  have hmask : hex (2 ^ n - 1) =
      [[0x30, 0x78, 0x30], [0x30, 0x78, 0x31], [0x30, 0x78, 0x33], [0x30, 0x78, 0x37],
        [0x30, 0x78, 0x66], [0x30, 0x78, 0x31, 0x66], [0x30, 0x78, 0x33, 0x66],
        [0x30, 0x78, 0x37, 0x66], [0x30, 0x78, 0x66, 0x66]].getD n [] := by
    interval_cases n <;> simp [hex, hexChar]
  rw [hmask]
  clear hmask hn
  interval_cases n <;> decide +kernel

/-- The blocks of the arguments have room for what the tool writes. -/
structure Fits (slots : ℕ) (whitelist blacklist : List CString) (cores : ℤ) (totalCpus : ℕ) :
    Prop where
  slots : 10 ≤ slots
  ports : whitelist.length ≤ 4
  cpus : cores ≤ 0 ∨ totalCpus ≤ 8
  device : ∃ first rest, blacklist = first :: rest ∧ first.length < 12

lemma strcpy_some (size : ℕ) (s : CString) :
    strcpy size (some s) = if s.length < size then .ret s else .fault := rfl

/-- The environment takes the arguments up to `--`, behind which it puts the name. -/
def Accepts (rteEalInit : List CString → Int × List CString) (argv : List CString) : Prop :=
  rteEalInit argv = (7, argv.set 7 [0x61, 0x62])

lemma masks_fit (hconf : configure devices whitelist blacklist cores totalCpus = .ret api) :
    (api.coremask.length < 5 ↔ cores ≤ 0 ∨ totalCpus ≤ 8) ∧
      (api.portmask.length < 4 ↔ whitelist.length ≤ 4) := by
  obtain ⟨hcore, hport, -⟩ := configure_ret hconf
  rw [hcore, coremask_fits_iff, hport, portmask_fits_iff]
  exact ⟨by omega, Iff.rfl⟩

/-- On every text of what the tool writes the start has the masks and the first device to copy. -/
lemma twInitEalEnv_fits (hok : Plenty ok)
    (hconf : configure devices whitelist blacklist cores totalCpus = .ret api)
    {ms : Json .members} (hapi : DescribesApi (.object ms) api) {w t : List UInt8}
    (hw : Json.Ws w) (ht : Json.Text (.object ms) t) (rest : List UInt8) (m : Alloc)
    (lastByte : UInt8) {rteEalInit : List CString → Int × List CString} {slots : ℕ}
    (appPortMask : UInt16) (hfits : Fits slots whitelist blacklist cores totalCpus)
    {first : CString} {others : List CString} (hblack : blacklist = first :: others)
    (haccepts : Accepts rteEalInit (ealArgs api.coremask first api.portmask)) :
    ∃ mask,
      twInitEalEnv ok rteEalInit 0 slots m lastByte (some (w ++ (t ++ rest))) appPortMask =
        .ret mask ∧ ∀ i < 16, (portEnabled mask i ↔ whitelist = [] ∨ i < whitelist.length) := by
  obtain ⟨-, hport, hlist⟩ := configure_ret hconf
  have hparse := twParseConf_text hok hapi hw ht rest m lastByte
  obtain ⟨hslots, hports, hcpus, first', others', hblack', hfirst⟩ := hfits
  obtain ⟨rfl, rfl⟩ : first = first' ∧ others = others' := by
    rw [hblack] at hblack'
    exact List.cons.inj hblack'
  have hcorefits : api.coremask.length < 5 := (masks_fit hconf).1.mpr hcpus
  have hportfits : api.portmask.length < 4 := (masks_fit hconf).2.mpr hports
  obtain ⟨hne, henabled⟩ := maskOf_portmask (hports.trans (by decide))
  have hpassed : PassedAsMask api.portmask
      (((ealArgs api.coremask first api.portmask).set 7 [0x61, 0x62]).drop 7) :=
    ⟨_, Or.inl rfl⟩
  obtain ⟨code, hcode, hargs⟩ := twParseTwisterArgs_eq hpassed appPortMask
  rw [hport, getPortmask_eq, if_neg hne, ← getPortmask_eq, ← hport] at hargs
  refine ⟨maskOf (hex (2 ^ whitelist.length - 1)), ?_, ?_⟩
  · have hseven : ¬ (7 : Int) < 0 := by norm_num
    rw [Accepts] at haccepts
    simp only [twInitEalEnv, hparse, Outcome.ret_bind, hlist, hblack, List.map_cons, firstDevice,
      strcpy_some, if_pos hcorefits, if_pos hfirst, if_pos hportfits, if_neg (not_lt.mpr hslots),
      haccepts, hseven, if_false, ne_eq, not_true_eq_false]
    rw [show Int.toNat 7 = 7 from rfl, hargs, if_neg (not_lt.mpr hcode), hport, getPortmask_eq]
  · intro i hi
    rw [henabled i hi, List.length_eq_zero_iff]

/-- Without that room a block is overrun. -/
lemma twInitEalEnv_overruns (hok : Plenty ok)
    (hconf : configure devices whitelist blacklist cores totalCpus = .ret api)
    {ms : Json .members} (hapi : DescribesApi (.object ms) api) {w t : List UInt8}
    (hw : Json.Ws w) (ht : Json.Text (.object ms) t) (rest : List UInt8) (m : Alloc)
    (lastByte : UInt8) (rteEalInit : List CString → Int × List CString) {slots : ℕ}
    (appPortMask : UInt16) (hfits : ¬ Fits slots whitelist blacklist cores totalCpus) :
    twInitEalEnv ok rteEalInit 0 slots m lastByte (some (w ++ (t ++ rest))) appPortMask =
      .fault := by
  obtain ⟨-, -, hlist⟩ := configure_ret hconf
  have hparse := twParseConf_text hok hapi hw ht rest m lastByte
  obtain ⟨hcorefits, hportfits⟩ := masks_fit hconf
  simp only [twInitEalEnv, hparse, Outcome.ret_bind, hlist, strcpy_some, ne_eq,
    not_true_eq_false, if_false]
  by_cases hslots : slots < 10
  · rw [if_pos hslots]
  rw [if_neg hslots]
  by_cases hcpus : api.coremask.length < 5
  · rw [if_pos hcpus, Outcome.ret_bind]
    cases hblack : blacklist with
    | nil => rfl
    | cons first others =>
      rw [List.map_cons, firstDevice, strcpy_some]
      by_cases hfirst : first.length < 12
      · rw [if_pos hfirst, Outcome.ret_bind]
        by_cases hports : api.portmask.length < 4
        · exact absurd ⟨not_lt.mp hslots, hportfits.mp hports, hcorefits.mp hcpus, first, others,
            hblack, hfirst⟩ hfits
        · rw [if_neg hports, Outcome.fault_bind]
      · rw [if_neg hfirst, Outcome.fault_bind]
  · rw [if_neg hcpus, Outcome.fault_bind]

/-- The start on every text of what the tool writes. In the array that the library passes there is
no room for the arguments, and in none for a PCI id; only with room for all does it get to the
enabled ports. -/
theorem twInitEalEnv_configured (hok : Plenty ok)
    (hconf : configure devices whitelist blacklist cores totalCpus = .ret api)
    {ms : Json .members} (hapi : DescribesApi (.object ms) api) {w t : List UInt8}
    (hw : Json.Ws w) (ht : Json.Text (.object ms) t) (rest : List UInt8) (m : Alloc)
    (lastByte : UInt8) (rteEalInit : List CString → Int × List CString) (slots : ℕ)
    (appPortMask : UInt16) :
    twInitEalEnv ok rteEalInit 0 argv1Slots m lastByte (some (w ++ (t ++ rest))) appPortMask =
      .fault ∧
    (∀ first others, blacklist = first :: others → first.length = pciIdLen →
      twInitEalEnv ok rteEalInit 0 slots m lastByte (some (w ++ (t ++ rest))) appPortMask =
        .fault) ∧
    (¬ Fits slots whitelist blacklist cores totalCpus →
      twInitEalEnv ok rteEalInit 0 slots m lastByte (some (w ++ (t ++ rest))) appPortMask =
        .fault) ∧
    (Fits slots whitelist blacklist cores totalCpus →
      ∀ first others, blacklist = first :: others →
        Accepts rteEalInit (ealArgs api.coremask first api.portmask) → ∃ mask,
          twInitEalEnv ok rteEalInit 0 slots m lastByte (some (w ++ (t ++ rest))) appPortMask =
            .ret mask ∧
          ∀ i < 16, (portEnabled mask i ↔ whitelist = [] ∨ i < whitelist.length)) := by
  have hover {slots : ℕ} (hfits : ¬ Fits slots whitelist blacklist cores totalCpus) :=
    twInitEalEnv_overruns hok hconf hapi hw ht rest m lastByte rteEalInit appPortMask hfits
  refine ⟨hover fun hfits => absurd hfits.slots (by decide), fun first others hblack hlen =>
    hover fun hfits => ?_, hover, fun hfits first others hblack =>
      twInitEalEnv_fits hok hconf hapi hw ht rest m lastByte appPortMask hfits hblack⟩
  obtain ⟨first', others', hblack', hshort⟩ := hfits.device
  rw [hblack] at hblack'
  rw [← (List.cons.inj hblack').1, hlen] at hshort
  exact absurd hshort (by decide)

/-- The members in the order of the file that comes with the library. -/
def apiJson (coremask portmask device : Str) : Json .members :=
  .member ⟨blacklistKey, by decide⟩ (.array (.elem (.str device) .noElems))
    (.member ⟨coremaskKey, by decide⟩ (.str coremask)
      (.member ⟨portmaskKey, by decide⟩ (.str portmask) .noMembers))

lemma exists_apiText {coremask portmask device : Str} (hcore : Json.Unescaped coremask)
    (hport : Json.Unescaped portmask) (hdevice : Json.Unescaped device) :
    ∃ t, Json.Text (.object (apiJson coremask portmask device)) t := by
  have hws : Json.Ws [] := fun _ h => absurd h List.not_mem_nil
  have hstr : ∀ {s : Str}, Json.Unescaped s → Json.StrBody s s := fun hs => hs.strBody
  exact ⟨_, .object (.member hws (hstr (by decide +kernel)) hws hws
    (.array (.lastElem hws (.str (hstr hdevice)) hws)) hws
    (.member hws (hstr (by decide +kernel)) hws hws (.str (hstr hcore)) hws
      (.lastMember hws (hstr (by decide +kernel)) hws hws (.str (hstr hport)) hws)))⟩

/-- One device of two and both cores are selected. -/
lemma oneOfTwo_described : ∃ api ms t,
    configure [[0x65], [0x66]] [[0x65]] [[0x66]] 2 2 = .ret api ∧
      DescribesApi (.object ms) api ∧ Json.Text (.object ms) t := by
  have hhex : hex 3 = [0x30, 0x78, 0x33] ∧ hex 1 = [0x30, 0x78, 0x31] := by
    refine ⟨?_, ?_⟩ <;> simp [hex, hexChar]
  have hconf : configure [[0x65], [0x66]] [[0x65]] [[0x66]] 2 2 =
      .ret ⟨[0x30, 0x78, 0x33], [0x30, 0x78, 0x31], [[0x66]]⟩ := by
    rw [← hhex.1, ← hhex.2]
    rfl
  have hcore : Json.Unescaped [0x30, 0x78, 0x33] := by decide +kernel
  have hport : Json.Unescaped [0x30, 0x78, 0x31] := by decide +kernel
  have hdevice : Json.Unescaped [0x66] := by decide +kernel
  obtain ⟨t, ht⟩ := @exists_apiText ⟨_, by decide⟩ ⟨_, by decide⟩ ⟨_, by decide⟩ hcore hport hdevice
  have hapi : DescribesApi (.object (apiJson ⟨[0x30, 0x78, 0x33], by decide⟩
      ⟨[0x30, 0x78, 0x31], by decide⟩ ⟨[0x66], by decide⟩))
      ⟨[0x30, 0x78, 0x33], [0x30, 0x78, 0x31], [[0x66]]⟩ :=
    ⟨⟨_, rfl, rfl⟩, ⟨_, rfl, rfl⟩, _, rfl, .cons rfl .nil⟩
  exact ⟨_, _, t, hconf, hapi, ht⟩

lemma oneOfTwo_fits : Fits 10 [[0x65]] [[0x66]] 2 2 :=
  ⟨le_rfl, by decide, Or.inr (by decide), [0x66], [], rfl, by decide⟩

/-- The first port is enabled and no other, if there were room. -/
theorem twInitEalEnv_configured_one :
    ∃ t mask, twInitEalEnv (fun _ => true) (fun argv => (7, argv.set 7 [0x61, 0x62])) 0 argv1Slots
        ⟨0, 0, 0⟩ 0 (some ([] ++ (t ++ []))) 0 = .fault ∧
      twInitEalEnv (fun _ => true) (fun argv => (7, argv.set 7 [0x61, 0x62])) 0 10 ⟨0, 0, 0⟩
        0 (some ([] ++ (t ++ []))) 0 = .ret mask ∧
      ∀ i < 16, (portEnabled mask i ↔ [[0x65]] = ([] : List CString) ∨ i < [[0x65]].length) := by
  obtain ⟨api, ms, t, hconf, hapi, ht⟩ := oneOfTwo_described
  have hws : Json.Ws [] := fun _ h => absurd h List.not_mem_nil
  obtain ⟨hargv1, -, -, hroom⟩ := twInitEalEnv_configured (fun _ => rfl) hconf hapi hws ht []
    ⟨0, 0, 0⟩ 0 (fun argv => (7, argv.set 7 [0x61, 0x62])) 10 0
  obtain ⟨mask, hrun, hmask⟩ := hroom oneOfTwo_fits _ _ rfl rfl
  exact ⟨t, mask, hargv1, hrun, hmask⟩

end Start
end Twister
