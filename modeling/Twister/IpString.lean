import Twister.PortConf

/-! Reading IPv4 addresses from text: positions of the dots, at most three
characters between two of them, and decimal conversion of each group. -/
namespace Twister

/-- `str[i]`. The terminator follows the last byte. -/
def charAt (str : CString) (i : Int) : Outcome UInt8 :=
  if i < 0 then .fault
  else match str[i.toNat]? with
    | some c => .ret c
    | none => if i.toNat = str.length then .ret 0 else .fault

def twStrLen (str : CString) : UInt8 := UInt8.ofNat (str.takeWhile fun c => c ≠ 0).length

def findFrom (c instances : UInt8) : List UInt8 → Int → UInt8 → (ℕ → Int) → UInt8 × (ℕ → Int)
  | [], _, qCount, quoteLoc => (qCount, quoteLoc)
  | x :: xs, i, qCount, quoteLoc =>
    if x = c ∧ qCount < instances then
      findFrom c instances xs (i + 1) (qCount + 1) (Function.update quoteLoc qCount.toNat i)
    else findFrom c instances xs (i + 1) qCount quoteLoc

def twFindChar (str : CString) (quoteLoc : ℕ → Int) (c instances : UInt8) : UInt8 × (ℕ → Int) :=
  let (qCount, quoteLoc) :=
    findFrom c instances (str.take (twStrLen str).toNat) 0 0 quoteLoc
  (if qCount ≠ instances then 0 else qCount, quoteLoc)

def twPower (base : UInt8) : ℕ → Int32
  | 0 => 1
  | exp + 1 => Int32.ofNat base.toNat * twPower base exp

def digitTerm (c : UInt8) (exp : ℕ) : UInt64 :=
  -- characters are signed, and the product is an int
  ((c.toInt8.toInt32 - 48) * twPower 10 exp).toInt64.toUInt64

def convertFrom (str : CString) (n : ℕ) : ℕ → UInt64 → Outcome UInt64
  | 0, num => .ret num
  | count + 1, num => do
    let c ← charAt str count
    convertFrom str n count (num + digitTerm c (n - 1 - count))

def twConvertStrToInt (str : CString) (n : UInt8) : Outcome UInt64 :=
  convertFrom str n.toNat n.toNat 0

/-- The group between two positions, padded with zeros to three characters. -/
def octetText (value : CString) (lo hi : Int) : Outcome (Option CString) :=
  if hi - (lo + 1) = 1 then do
    let c ← charAt value (hi - 1)
    .ret (some [0x30, 0x30, c])
  else if hi - (lo + 1) = 2 then do
    let b ← charAt value (hi - 2)
    let c ← charAt value (hi - 1)
    .ret (some [0x30, b, c])
  else if hi - (lo + 1) = 3 then do
    let a ← charAt value (hi - 3)
    let b ← charAt value (hi - 2)
    let c ← charAt value (hi - 1)
    .ret (some [a, b, c])
  else .ret none

def octetLoop (value : CString) (ip : ℕ → Int) :
    List (Fin 4) → (Fin 4 → UInt8) → Outcome (UInt8 × (Fin 4 → UInt8))
  | [], ipVar => .ret (1, ipVar)
  | n :: ns, ipVar => do
    match ← octetText value (ip n) (ip (n + 1)) with
    | none => .ret (0, ipVar)
    | some temp =>
      let num ← twConvertStrToInt temp 3
      octetLoop value ip ns (Function.update ipVar n num.toUInt8)

/-- `stack` is what the position array holds before it is written. A position that
is not found stays as it was. -/
def twConvertStrToIparr (stack : ℕ → Int) (value : CString) (ipVar : Fin 4 → UInt8) :
    Outcome (UInt8 × (Fin 4 → UInt8)) :=
  let (_, quoteLoc) := twFindChar value stack 0x2e 3
  let ip : ℕ → Int := fun k =>
    if k = 0 then -1 else if k = 4 then (twStrLen value).toNat else quoteLoc (k - 1)
  octetLoop value ip (List.finRange 4) ipVar

def twIpArrToDec (ip : Fin 4 → UInt8) : UInt32 :=
  ((ip 0).toUInt32 <<< 24) + ((ip 1).toUInt32 <<< 16) + ((ip 2).toUInt32 <<< 8) + (ip 3).toUInt32

def twIpDecToArr (ip : UInt32) : Fin 4 → UInt8 :=
  ![(ip >>> 24).toUInt8, (ip >>> 16).toUInt8, (ip >>> 8).toUInt8, ip.toUInt8]

def twConvertIpStrToDec (stack : ℕ → Int) (ipArr : Fin 4 → UInt8) (ipStr : CString) :
    Outcome UInt32 := do
  let (ok, ipArr) ← twConvertStrToIparr stack ipStr ipArr
  if ok ≠ 0 then .ret (twIpArrToDec ipArr) else .ret 0

section Octet

def digitChar (d : Fin 10) : UInt8 := UInt8.ofNat (48 + d.val)

/-- One to three decimal digits, leading zeros allowed, of value at most 255. -/
structure Octet where
  digits : List (Fin 10)
  nonempty : 1 ≤ digits.length
  short : digits.length ≤ 3
  bounded : digits.foldl (fun n d => 10 * n + d.val) 0 ≤ 255

namespace Octet

def value (o : Octet) : ℕ := o.digits.foldl (fun n d => 10 * n + d.val) 0
def text (o : Octet) : CString := o.digits.map digitChar

@[simp] lemma text_length (o : Octet) : o.text.length = o.digits.length := by simp [text]

lemma toNat_ofNat_value (o : Octet) : (UInt8.ofNat o.value).toNat = o.value :=
  Nat.mod_eq_of_lt (Nat.lt_succ_of_le o.bounded)

lemma text_char {o : Octet} {c : UInt8} (h : c ∈ o.text) : c ≠ 0x2e ∧ c ≠ 0 := by
  have hdigit : ∀ d : Fin 10, digitChar d ≠ 0x2e ∧ digitChar d ≠ 0 := by decide
  obtain ⟨d, -, rfl⟩ := List.mem_map.mp h
  exact hdigit d

end Octet

lemma charAt_fault {value : CString} {i : Int} (hi : value.length < i) :
    charAt value i = .fault := by
  have hnone : value[i.toNat]? = none := List.getElem?_eq_none (by omega)
  rw [charAt, if_neg (by omega), hnone]
  exact if_neg (by omega)

lemma charAt_group {pre group post : CString} {i : ℕ} {c : UInt8} {j : Int}
    (hc : group[i]? = some c) (hj : j = pre.length + i) :
    charAt (pre ++ (group ++ post)) j = .ret c := by
  obtain ⟨hlt, -⟩ := List.getElem?_eq_some_iff.mp hc
  subst hj
  have hindex : ((pre.length : Int) + i).toNat = pre.length + i := by omega
  rw [charAt, if_neg (by omega), hindex, List.getElem?_append_right (by omega),
    Nat.add_sub_cancel_left, List.getElem?_append_left hlt, hc]

lemma digitTerm_digitChar (d : Fin 10) : digitTerm (digitChar d) 0 = UInt64.ofNat d.val ∧
    digitTerm (digitChar d) 1 = UInt64.ofNat (10 * d.val) ∧
    digitTerm (digitChar d) 2 = UInt64.ofNat (100 * d.val) := by
  revert d
  decide

lemma twConvertStrToInt_three (x y z : Fin 10) :
    twConvertStrToInt [digitChar x, digitChar y, digitChar z] 3 =
      .ret (UInt64.ofNat (100 * x.val + 10 * y.val + z.val)) := by
  have h : twConvertStrToInt [digitChar x, digitChar y, digitChar z] 3 =
      .ret (0 + digitTerm (digitChar z) 0 + digitTerm (digitChar y) 1 +
        digitTerm (digitChar x) 2) := rfl
  rw [h, (digitTerm_digitChar z).1, (digitTerm_digitChar y).2.1, (digitTerm_digitChar x).2.2,
    UInt64.ofNat_add, UInt64.ofNat_add]
  congr 1
  abel

lemma digits_read {digits : List (Fin 10)} (hne : 1 ≤ digits.length) (hshort : digits.length ≤ 3)
    {pre : CString} (post : CString) {lo hi : Int} (hlo : lo + 1 = pre.length)
    (hhi : hi = pre.length + digits.length) :
    ∃ temp, octetText (pre ++ (digits.map digitChar ++ post)) lo hi = .ret (some temp) ∧
      twConvertStrToInt temp 3 =
        .ret (UInt64.ofNat (digits.foldl (fun n d => 10 * n + d.val) 0)) := by
  have hd : hi - (lo + 1) = digits.length := by omega
  match digits, hne, hshort, hhi, hd with
  | [z], _, _, hhi, hd =>
    refine ⟨[digitChar 0, digitChar 0, digitChar z], ?_, by simp [twConvertStrToInt_three]⟩
    have hz : charAt (pre ++ ([z].map digitChar ++ post)) (hi - 1) = .ret (digitChar z) :=
      charAt_group (i := 0) rfl (by simp at hhi; omega)
    rw [octetText, hd, hz]
    rfl
  | [y, z], _, _, hhi, hd =>
    refine ⟨[digitChar 0, digitChar y, digitChar z], ?_, by simp [twConvertStrToInt_three]⟩
    have hy : charAt (pre ++ ([y, z].map digitChar ++ post)) (hi - 2) = .ret (digitChar y) :=
      charAt_group (i := 0) rfl (by simp at hhi; omega)
    have hz : charAt (pre ++ ([y, z].map digitChar ++ post)) (hi - 1) = .ret (digitChar z) :=
      charAt_group (i := 1) rfl (by simp at hhi; omega)
    rw [octetText, hd, hy, hz]
    rfl
  | [x, y, z], _, _, hhi, hd =>
    refine ⟨[digitChar x, digitChar y, digitChar z], ?_, by
      rw [twConvertStrToInt_three]
      congr 2
      simp
      ring⟩
    have hx : charAt (pre ++ ([x, y, z].map digitChar ++ post)) (hi - 3) = .ret (digitChar x) :=
      charAt_group (i := 0) rfl (by simp at hhi; omega)
    have hy : charAt (pre ++ ([x, y, z].map digitChar ++ post)) (hi - 2) = .ret (digitChar y) :=
      charAt_group (i := 1) rfl (by simp at hhi; omega)
    have hz : charAt (pre ++ ([x, y, z].map digitChar ++ post)) (hi - 1) = .ret (digitChar z) :=
      charAt_group (i := 2) rfl (by simp at hhi; omega)
    rw [octetText, hd, hx, hy, hz]
    rfl

lemma octetLoop_cons (o : Octet) (pre post : CString) {value : CString} {ip : ℕ → Int}
    {n : Fin 4} {ns : List (Fin 4)} {ipVar : Fin 4 → UInt8}
    (hvalue : value = pre ++ (o.text ++ post))
    (hlo : ip n + 1 = pre.length) (hhi : ip (n + 1) = pre.length + o.digits.length) :
    octetLoop value ip (n :: ns) ipVar =
      octetLoop value ip ns (Function.update ipVar n (UInt8.ofNat o.value)) := by
  obtain ⟨temp, htext, hnum⟩ := digits_read o.nonempty o.short post hlo hhi
  have hread : octetText value (ip n) (ip (n + 1)) = .ret (some temp) := hvalue ▸ htext
  have hbyte : (UInt64.ofNat o.value).toUInt8 = UInt8.ofNat o.value := by
    apply UInt8.toNat_inj.mp
    simp
  simp only [octetLoop, hread, Outcome.ret_bind, hnum, ← hbyte]
  rfl

end Octet

section Quad

def dottedQuad (a b c d : Octet) : CString :=
  a.text ++ 0x2e :: (b.text ++ 0x2e :: (c.text ++ 0x2e :: d.text))

/-- The text is a dotted quad of the address. -/
def Renders (s : CString) (ip : UInt32) : Prop :=
  ∃ a b c d : Octet, s = dottedQuad a b c d ∧
    ip.toNat = a.value * 2 ^ 24 + b.value * 2 ^ 16 + c.value * 2 ^ 8 + d.value

lemma findFrom_skip {c : UInt8} (instances : UInt8) {xs : List UInt8} (hx : ∀ x ∈ xs, x ≠ c)
    (ys : List UInt8) (i : Int) (qCount : UInt8) (quoteLoc : ℕ → Int) :
    findFrom c instances (xs ++ ys) i qCount quoteLoc =
      findFrom c instances ys (i + xs.length) qCount quoteLoc := by
  induction xs generalizing i with
  | nil => simp
  | cons x xs ih =>
    have hne : ¬ (x = c ∧ qCount < instances) := fun h => hx x (by simp) h.1
    rw [List.cons_append, findFrom, if_neg hne, ih fun y hy => hx y (by simp [hy])]
    congr 1
    simp only [List.length_cons]
    push_cast
    ring

lemma findFrom_hit {c instances qCount : UInt8} (hq : qCount < instances) (xs : List UInt8)
    (i : Int) (quoteLoc : ℕ → Int) :
    findFrom c instances (c :: xs) i qCount quoteLoc =
      findFrom c instances xs (i + 1) (qCount + 1) (Function.update quoteLoc qCount.toNat i) := by
  rw [findFrom, if_pos ⟨rfl, hq⟩]

variable {a b c d : Octet}

lemma dottedQuad_length :
    (dottedQuad a b c d).length =
      a.digits.length + b.digits.length + c.digits.length + d.digits.length + 3 := by
  simp [dottedQuad]
  omega

/-- Lengths are kept in eight bits. -/
lemma twStrLen_toNat {s : CString} (h0 : 0 ∉ s) : (twStrLen s).toNat = s.length % 256 := by
  have hall : s.takeWhile (fun c => c ≠ 0) = s := by
    refine List.takeWhile_eq_self_iff.mpr fun c hc => ?_
    simpa using fun h : c = 0 => h0 (h ▸ hc)
  rw [twStrLen, hall, UInt8.toNat_ofNat']

lemma twStrLen_dottedQuad :
    (twStrLen (dottedQuad a b c d)).toNat = (dottedQuad a b c d).length := by
  have hnul : 0 ∉ dottedQuad a b c d := by
    have htext : ∀ o : Octet, 0 ∉ o.text := fun o h => (Octet.text_char h).2 rfl
    simp [dottedQuad, htext]
  have hlen : (dottedQuad a b c d).length < 256 := by
    rw [dottedQuad_length]
    have ha := a.short
    have hb := b.short
    have hc := c.short
    have hd := d.short
    omega
  rw [twStrLen_toNat hnul, Nat.mod_eq_of_lt hlen]

lemma twFindChar_dottedQuad (stack : ℕ → Int) :
    (twFindChar (dottedQuad a b c d) stack 0x2e 3).2 =
      Function.update (Function.update (Function.update stack 0 (a.digits.length : Int)) 1
        (a.digits.length + b.digits.length + 1 : Int)) 2
        (a.digits.length + b.digits.length + c.digits.length + 2 : Int) := by
  have hdot : ∀ o : Octet, ∀ x ∈ o.text, x ≠ 0x2e := fun o x hx => (Octet.text_char hx).1
  have hend : ∀ (i : Int) (loc : ℕ → Int),
      findFrom 0x2e 3 d.text i 3 loc = (3, loc) := by
    intro i loc
    have h := findFrom_skip 3 (hdot d) [] i 3 loc
    rwa [List.append_nil] at h
  have hfind : findFrom 0x2e 3 (dottedQuad a b c d) 0 0 stack = (3,
      Function.update (Function.update (Function.update stack 0 (0 + (a.text.length : Int))) 1
        (0 + a.text.length + 1 + b.text.length)) 2
        (0 + a.text.length + 1 + b.text.length + 1 + c.text.length)) := by
    rw [dottedQuad, findFrom_skip 3 (hdot a), findFrom_hit (by decide), findFrom_skip 3 (hdot b),
      findFrom_hit (by decide), findFrom_skip 3 (hdot c), findFrom_hit (by decide)]
    exact hend _ _
  simp only [twFindChar, twStrLen_dottedQuad, List.take_length, hfind, Octet.text_length]
  congr 1
  · congr 1
    · congr 1
      ring
    · ring
  · ring

theorem twConvertStrToIparr_dottedQuad (stack : ℕ → Int) (ipVar : Fin 4 → UInt8) :
    twConvertStrToIparr stack (dottedQuad a b c d) ipVar =
      .ret (1, ![UInt8.ofNat a.value, UInt8.ofNat b.value, UInt8.ofNat c.value,
        UInt8.ofNat d.value]) := by
  have hrange : List.finRange 4 = [0, 1, 2, 3] := rfl
  simp only [twConvertStrToIparr, twFindChar_dottedQuad, twStrLen_dottedQuad, hrange]
  generalize hpos : (fun k : ℕ => if k = 0 then (-1 : Int) else _) = ip
  have h0 : ip 0 = -1 := by simp [← hpos]
  have h1 : ip 1 = a.digits.length := by simp [← hpos]
  have h2 : ip 2 = a.digits.length + b.digits.length + 1 := by simp [← hpos]
  have h3 : ip 3 = a.digits.length + b.digits.length + c.digits.length + 2 := by simp [← hpos]
  have h4 : ip 4 = a.digits.length + b.digits.length + c.digits.length + d.digits.length + 3 := by
    simp [← hpos, dottedQuad_length]
  rw [octetLoop_cons a [] (0x2e :: (b.text ++ 0x2e :: (c.text ++ 0x2e :: d.text)))
      (by simp [dottedQuad]) (by simp [h0]) (by simp [h1]),
    octetLoop_cons b (a.text ++ [0x2e]) (0x2e :: (c.text ++ 0x2e :: d.text))
      (by simp [dottedQuad]) (by simp [h1]) (by simp [h2]; ring),
    octetLoop_cons c (a.text ++ 0x2e :: b.text ++ [0x2e]) (0x2e :: d.text)
      (by simp [dottedQuad]) (by simp [h2]; ring) (by simp [h3]; ring),
    octetLoop_cons d (a.text ++ 0x2e :: b.text ++ 0x2e :: c.text ++ [0x2e]) []
      (by simp [dottedQuad]) (by simp [h3]; ring) (by simp [h4]; ring)]
  simp only [octetLoop]
  congr 2
  funext k
  fin_cases k <;> rfl

lemma twIpArrToDec_toNat (w x y z : UInt8) :
    (twIpArrToDec ![w, x, y, z]).toNat =
      w.toNat * 2 ^ 24 + x.toNat * 2 ^ 16 + y.toNat * 2 ^ 8 + z.toNat := by
  have hw := w.toNat_lt
  have hx := x.toNat_lt
  have hy := y.toNat_lt
  have hz := z.toNat_lt
  simp [twIpArrToDec, Nat.shiftLeft_eq]
  omega

/-- Every rendering of an address is read as the address. -/
theorem twConvertIpStrToDec_renders {s : CString} {ip : UInt32} (h : Renders s ip)
    (stack : ℕ → Int) (ipArr : Fin 4 → UInt8) : twConvertIpStrToDec stack ipArr s = .ret ip := by
  obtain ⟨a, b, c, d, rfl, hip⟩ := h
  have hdec : twIpArrToDec ![UInt8.ofNat a.value, UInt8.ofNat b.value, UInt8.ofNat c.value,
      UInt8.ofNat d.value] = ip := by
    apply UInt32.toNat_inj.mp
    rw [twIpArrToDec_toNat, a.toNat_ofNat_value, b.toNat_ofNat_value, c.toNat_ofNat_value,
      d.toNat_ofNat_value, hip]
  simp only [twConvertIpStrToDec, twConvertStrToIparr_dottedQuad, Outcome.ret_bind, hdec]
  rfl

lemma Renders.unique {s : CString} {ip ip' : UInt32} (h : Renders s ip) (h' : Renders s ip') :
    ip = ip' := by
  have hread := twConvertIpStrToDec_renders h (fun _ => 0) fun _ => 0
  rw [twConvertIpStrToDec_renders h'] at hread
  exact (Outcome.ret.inj hread).symm

lemma twIpArrToDec_twIpDecToArr (ip : UInt32) : twIpArrToDec (twIpDecToArr ip) = ip := by
  have hip := ip.toNat_lt
  apply UInt32.toNat_inj.mp
  rw [twIpDecToArr, twIpArrToDec_toNat]
  simp [Nat.shiftRight_eq_div_pow]
  omega

lemma twIpDecToArr_twIpArrToDec (ip : Fin 4 → UInt8) : twIpDecToArr (twIpArrToDec ip) = ip := by
  have h0 := (ip 0).toNat_lt
  have h1 := (ip 1).toNat_lt
  have h2 := (ip 2).toNat_lt
  have h3 := (ip 3).toNat_lt
  have heta : ip = ![ip 0, ip 1, ip 2, ip 3] := by
    funext k
    fin_cases k <;> rfl
  have hdec := twIpArrToDec_toNat (ip 0) (ip 1) (ip 2) (ip 3)
  rw [← heta] at hdec
  funext k
  apply UInt8.toNat_inj.mp
  fin_cases k <;> simp [twIpDecToArr, hdec, Nat.shiftRight_eq_div_pow] <;> omega

/-- The reader stores the four values of the text. -/
structure ReadsQuad (stack : ℕ → Int) (ipVar : Fin 4 → UInt8) (a b c d : Octet) : Prop where
  iparr : ∃ arr, twConvertStrToIparr stack (dottedQuad a b c d) ipVar = .ret (1, arr) ∧
    (arr 0).toNat = a.value ∧ (arr 1).toNat = b.value ∧ (arr 2).toNat = c.value ∧
      (arr 3).toNat = d.value
  dec : ∃ ip, twConvertIpStrToDec stack ipVar (dottedQuad a b c d) = .ret ip ∧
    ip.toNat = a.value * 2 ^ 24 + b.value * 2 ^ 16 + c.value * 2 ^ 8 + d.value

lemma quad_lt (a b c d : Octet) :
    a.value * 2 ^ 24 + b.value * 2 ^ 16 + c.value * 2 ^ 8 + d.value < 2 ^ 32 := by
  have ha : a.value ≤ 255 := a.bounded
  have hb : b.value ≤ 255 := b.bounded
  have hc : c.value ≤ 255 := c.bounded
  have hd : d.value ≤ 255 := d.bounded
  omega

lemma readsQuad (stack : ℕ → Int) (ipVar : Fin 4 → UInt8) (a b c d : Octet) :
    ReadsQuad stack ipVar a b c d := by
  constructor
  · exact ⟨_, twConvertStrToIparr_dottedQuad stack ipVar, a.toNat_ofNat_value,
      b.toNat_ofNat_value, c.toNat_ofNat_value, d.toNat_ofNat_value⟩
  · obtain ⟨ip, hip⟩ : ∃ ip : UInt32, ip.toNat =
        a.value * 2 ^ 24 + b.value * 2 ^ 16 + c.value * 2 ^ 8 + d.value :=
      ⟨.ofNat _, UInt32.toNat_ofNat'.trans (Nat.mod_eq_of_lt (quad_lt a b c d))⟩
    exact ⟨ip, twConvertIpStrToDec_renders ⟨a, b, c, d, rfl, hip⟩ stack ipVar, hip⟩

/-- Dotted quads are read at their value, the two forms of an address convert into each
other, and an address whose bytes are written out in any way is read back. -/
theorem dottedQuad_roundTrip (stack : ℕ → Int) (ipVar : Fin 4 → UInt8) :
    (∀ a b c d : Octet, ReadsQuad stack ipVar a b c d) ∧
      (∀ ip, twIpArrToDec (twIpDecToArr ip) = ip) ∧
      (∀ arr, twIpDecToArr (twIpArrToDec arr) = arr) ∧
      ∀ ip (o : Fin 4 → Octet), (∀ i, (o i).value = (twIpDecToArr ip i).toNat) →
        twConvertIpStrToDec stack ipVar (dottedQuad (o 0) (o 1) (o 2) (o 3)) = .ret ip := by
  refine ⟨readsQuad stack ipVar, twIpArrToDec_twIpDecToArr, twIpDecToArr_twIpArrToDec,
    fun ip o ho => ?_⟩
  refine twConvertIpStrToDec_renders ⟨o 0, o 1, o 2, o 3, rfl, ?_⟩ stack ipVar
  have hdec := twIpArrToDec_toNat (twIpDecToArr ip 0) (twIpDecToArr ip 1) (twIpDecToArr ip 2)
    (twIpDecToArr ip 3)
  rw [ho, ho, ho, ho, ← hdec]
  exact congrArg UInt32.toNat (twIpArrToDec_twIpDecToArr ip).symm

def octetTen : Octet := ⟨[0, 1, 0], by decide, by decide, by decide⟩
def octetOne : Octet := ⟨[1], by decide, by decide, by decide⟩

/-- `010.1.1.1` -/
theorem dottedQuad_roundTrip_ten :
    twConvertIpStrToDec (fun _ => 0) (fun _ => 0)
      (dottedQuad octetTen octetOne octetOne octetOne) = .ret 0x0a010101 :=
  (dottedQuad_roundTrip (fun _ => 0) fun _ => 0).2.2.2 0x0a010101
    ![octetTen, octetOne, octetOne, octetOne] (by decide)

end Quad
end Twister
