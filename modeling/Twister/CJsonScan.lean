import Twister.CJson

/-! The tokens of the reader: blanks, numbers and strings are read as the JSON grammar has
them, whatever stands behind them. -/
namespace Twister.CJson
open Json

section Blanks

lemma skip_ws {w : List UInt8} (hw : Ws w) (p : Ptr) : skip (w ++ p) = skip p := by
  induction w with
  | nil => rfl
  | cons c w ih =>
    have hc : c ≠ 0 ∧ c ≤ 32 := by
      rcases hw c (by simp) with rfl | rfl | rfl | rfl <;> decide
    rw [List.cons_append, skip, if_pos hc]
    exact ih fun d hd => hw d (by simp [hd])

lemma skip_ret {c : UInt8} (hc : 32 < c) (p : Ptr) : skip (c :: p) = .ret (c :: p) := by
  rw [skip, if_neg fun h => absurd hc (UInt8.not_lt.mpr h.2)]

/-- Blanks in front of a byte that is none. -/
lemma skip_padded {w : List UInt8} (hw : Ws w) {c : UInt8} (hc : 32 < c) (p : Ptr) :
    skip (w ++ c :: p) = .ret (c :: p) := by
  rw [skip_ws hw, skip_ret hc]

end Blanks

section Numbers

/-- What may follow a number. -/
def Stops (rest : Ptr) : Prop :=
  ∃ c p, rest = c :: p ∧ ¬ IsDigit c ∧ c ≠ 0x2e ∧ c ≠ 0x65 ∧ c ≠ 0x45

lemma digitLoop_digits {α : Type} (f : α → UInt8 → α) (a : α) {ds : List UInt8}
    (hds : ∀ c ∈ ds, IsDigit c) {c : UInt8} (hc : ¬ IsDigit c) (p : Ptr) :
    digitLoop f a (ds ++ c :: p) = .ret (ds.foldl f a, c :: p) := by
  induction ds generalizing a with
  | nil => exact if_neg hc
  | cons d ds ih =>
    have hd : 0x30 ≤ d ∧ d ≤ 0x39 := hds d (by simp)
    rw [List.cons_append, digitLoop, if_pos hd, ih _ fun e he => hds e (by simp [he]),
      List.foldl_cons]

/-- What a scale of zero is after a number of decrements. -/
def scaled (count : ℕ) : Float := (fun scale : Float => scale - 1.0)^[count] 0.0

lemma foldl_addScaled (n : Float) (ds : List UInt8) :
    ds.foldl addScaled (n, 0.0) = (ds.foldl addDigit n, scaled ds.length) := by
  rw [scaled, ← List.foldl_const]
  generalize (0.0 : Float) = scale
  induction ds generalizing n scale with
  | nil => rfl
  | cons d ds ih => exact ih (addDigit n d) (scale - 1.0)

/-- A number as it is computed in `double`, in the order of the source. -/
def toDouble (d : Decimal) : Float :=
  (if d.neg then -1.0 else 1.0) * d.digits.foldl addDigit 0.0 *
    Float.pow 10.0 (scaled d.scale + Float.ofInt d.exponent)

/-- `subscale * signsubscale` of an exponent that fits. -/
lemma subscale_eq {n : ℕ} (hn : n < 2 ^ 31) (sign : Option Bool) :
    (Int32.ofNat n * (if sign = some true then -1 else 1)).toInt =
      if sign = some true then -(n : ℤ) else n := by
  have hval : (Int32.ofNat n).toInt = n := Int32.toInt_ofNat_of_lt hn
  split_ifs
  · rw [Int32.toInt_mul, hval]
    have : (-1 : Int32).toInt = -1 := rfl
    rw [this, mul_neg_one, Int.bmod_eq_of_le] <;> omega
  · rw [Int32.mul_one, hval]

lemma digit_ne_sign {c : UInt8} (hc : IsDigit c) : c ≠ 0x2b ∧ c ≠ 0x2d := by
  constructor <;> rintro rfl <;> exact absurd hc (by decide)

lemma parseExponent_text (e : Option Exponent) {rest : Ptr} (h : Stops rest) :
    parseExponent (Number.expText e ++ rest) = .ret (Number.expValue e, rest) := by
  obtain ⟨c, p, rfl, hdigit, -, he, hE⟩ := h
  cases e with
  | none =>
    have hmark : ¬ (c = 0x65 ∨ c = 0x45) := by simp [he, hE]
    simp [parseExponent, Number.expText, Number.expValue, deref, hmark]
  | some e =>
    obtain ⟨mark, hmark, sign, digits, hds, hne, hsmall⟩ := e
    have hloop : digitLoop (fun n c => 10 * n + (c.toNat - 0x30)) 0 (digits ++ c :: p) =
        .ret (decimal digits, c :: p) := digitLoop_digits _ 0 hds hdigit p
    have hscale := subscale_eq hsmall sign
    obtain ⟨d, ds, rfl⟩ := List.exists_cons_of_ne_nil hne
    have hd := digit_ne_sign (hds d (by simp))
    rcases sign with _ | _ | _ <;>
      simp_all [parseExponent, parseExpSign, Number.expText, Number.expValue, Exponent.text,
        Exponent.value, Exponent.signText, deref]

/-- A text behind the digits of a number, which no digit continues. -/
def Breaks (rest : Ptr) : Prop := ∃ c p, rest = c :: p ∧ ¬ IsDigit c ∧ c ≠ 0x2e

lemma breaks_expText (e : Option Exponent) {rest : Ptr} (h : Stops rest) :
    Breaks (Number.expText e ++ rest) := by
  cases e with
  | none =>
    obtain ⟨c, p, rfl, hdigit, hdot, -⟩ := h
    exact ⟨c, p, rfl, hdigit, hdot⟩
  | some e =>
    refine ⟨e.mark, _, rfl, ?_, ?_⟩ <;> rcases e.mark_ok with h | h <;> rw [h] <;> decide

lemma parseFraction_text {frac : List UInt8} (hfrac : ∀ c ∈ frac, IsDigit c) (n : Float)
    {rest : Ptr} (h : Breaks rest) :
    parseFraction n (Number.fracText frac ++ rest) =
      .ret ((frac.foldl addDigit n, scaled frac.length), rest) := by
  obtain ⟨c, p, rfl, hdigit, hdot⟩ := h
  cases frac with
  | nil =>
    rw [Number.fracText, if_pos rfl, List.nil_append, parseFraction, deref, Outcome.ret_bind,
      if_neg hdot]
    rfl
  | cons d ds =>
    have hd : 0x30 ≤ d ∧ d ≤ 0x39 := hfrac d (by simp)
    have hloop := digitLoop_digits addScaled (n, 0.0) hfrac hdigit p
    rw [foldl_addScaled] at hloop
    simpa [parseFraction, Number.fracText, deref, hd] using hloop

lemma fracText_head (frac : List UInt8) {rest : Ptr} (h : Breaks rest) :
    ∃ c p, Number.fracText frac ++ rest = c :: p ∧ ¬ IsDigit c := by
  obtain ⟨c, p, rfl, hdigit, -⟩ := h
  cases frac with
  | nil => exact ⟨c, p, rfl, hdigit⟩
  | cons d ds => exact ⟨0x2e, d :: (ds ++ c :: p), rfl, by decide⟩

lemma parseIntegral_text {int : List UInt8}
    (hint : int = [0x30] ∨ ∃ c cs, int = c :: cs ∧ 0x31 ≤ c ∧ c ≤ 0x39 ∧ ∀ d ∈ cs, IsDigit d)
    {rest : Ptr} (h : ∃ c p, rest = c :: p ∧ ¬ IsDigit c) :
    parseIntegral (int ++ rest) = .ret ((Number.intDigits int).foldl addDigit 0.0, rest) := by
  obtain ⟨c, p, rfl, hdigit⟩ := h
  rcases hint with rfl | ⟨d, ds, rfl, hlo, hhi, hds⟩
  · have hc : ¬ (0x31 ≤ c ∧ c ≤ 0x39) := fun hc =>
      hdigit ⟨UInt8.le_trans (by decide) hc.1, hc.2⟩
    simp [parseIntegral, deref, hc, Number.intDigits]
  · have hall : ∀ e ∈ d :: ds, IsDigit e := by
      intro e he
      rcases List.mem_cons.mp he with rfl | he
      · exact ⟨UInt8.le_trans (by decide) hlo, hhi⟩
      · exact hds e he
    have hne : d ≠ 0x30 := by
      rintro rfl
      exact absurd hlo (by decide)
    have hloop := digitLoop_digits addDigit 0.0 hall hdigit p
    have hint : Number.intDigits (d :: ds) = d :: ds :=
      if_neg fun h => hne (List.cons.inj h).1
    rw [hint, ← hloop]
    simp [parseIntegral, deref, hne, hlo, hhi]

lemma int_head (x : Number) : ∃ c cs, x.int = c :: cs ∧ IsDigit c := by
  rcases x.int_ok with h | ⟨c, cs, h, hlo, hhi, -⟩
  · exact ⟨0x30, [], h, by decide⟩
  · exact ⟨c, cs, h, UInt8.le_trans (by decide) hlo, hhi⟩

/-- The item of a number. -/
def numberItem (d : Decimal) (item : Fields) : Fields :=
  { item with valuedouble := toDouble d, valueint := castInt (toDouble d), type := .number }

/-- A number is read to its value in `double`. -/
theorem parseNumber_text (x : Number) (item : Fields) {rest : Ptr} (h : Stops rest) :
    parseNumber item (x.text ++ rest) = .ret (numberItem x.value item, rest) := by
  have hexp := breaks_expText x.exp h
  have hint := parseIntegral_text x.int_ok (fracText_head x.frac hexp)
  have hfrac := parseFraction_text x.frac_ok ((Number.intDigits x.int).foldl addDigit 0.0) hexp
  have hexponent := parseExponent_text x.exp h
  obtain ⟨c, cs, hhead, hc⟩ := int_head x
  have hsign : c ≠ 0x2d := (digit_ne_sign hc).2
  rw [← List.foldl_append] at hfrac
  rw [numberItem, toDouble, Number.value]
  generalize (Number.intDigits x.int ++ x.frac).foldl addDigit 0.0 = n at hfrac
  unfold parseNumber parseSign Number.text
  simp only [List.append_assoc] at hint hfrac hexponent ⊢
  cases x.neg with
  | true => simp [deref, hint, hfrac, hexponent]
  | false =>
    have hderef : ∀ p, deref (x.int ++ p) = .ret c := by
      intro p
      rw [hhead]
      rfl
    simp [hderef, hsign, hint, hfrac, hexponent]

end Numbers

section Characters

lemma hexLoop_digits {ds : List UInt8} {h n : ℕ} (hds : hexFrom h ds = some n) (p : Ptr) :
    hexLoop h ds.length (ds ++ p) = .ret n := by
  induction ds generalizing h with
  | nil => rw [hexFrom, Option.some.injEq] at hds; rw [hds]; rfl
  | cons c ds ih =>
    rw [hexFrom, Option.bind_eq_some_iff] at hds
    obtain ⟨d, hc, hds⟩ := hds
    simp [hexLoop, deref, hc, ih hds]

lemma parseHex4_text {ds : List UInt8} {n : ℕ} (h : Hex4 ds n) (p : Ptr) :
    parseHex4 (ds ++ p) = .ret n := by
  have hloop := hexLoop_digits h.2 p
  rwa [h.1] at hloop

lemma continuation_eq (uc : ℕ) : (uc ||| 0x80) &&& 0xBF = uc % 64 + 128 := by
  have hlow : (uc ||| 0x80) &&& 0xBF = (uc % 2 ^ 8 ||| 0x80) &&& 0xBF := by
    apply Nat.eq_of_testBit_eq
    intro i
    rw [Nat.testBit_and, Nat.testBit_and, Nat.testBit_or, Nat.testBit_or,
      Nat.testBit_mod_two_pow]
    rcases Nat.lt_or_ge i 8 with hi | hi
    · simp [hi]
    · have hmask : Nat.testBit 0xBF i = false :=
        Nat.testBit_lt_two_pow (lt_of_lt_of_le (by norm_num) (Nat.pow_le_pow_right two_pos hi))
      simp [hmask]
  have hbyte : ∀ x < 2 ^ 8, (x ||| 0x80) &&& 0xBF = x % 64 + 128 := by decide +kernel
  rw [hlow, hbyte _ (Nat.mod_lt _ (by norm_num))]
  omega

/-- The bytes written for a character are its encoding. -/
lemma utf8_char (ch : Char) : utf8 ch.toNat = String.utf8EncodeChar ch := by
  have hmax : ch.toNat < 0x110000 := by
    have := ch.valid
    simp only [UInt32.isValidChar, Nat.isValidChar] at this
    change ch.val.toNat < _
    omega
  have h2 : ∀ x < 32, x ||| 0xC0 = x % 32 + 192 := by decide
  have h3 : ∀ x < 16, x ||| 0xE0 = x % 16 + 224 := by decide
  have h4 : ∀ x < 8, x ||| 0xF0 = x % 8 + 240 := by decide
  change utf8 ch.val.toNat = _
  change ch.val.toNat < _ at hmax
  unfold utf8 String.utf8EncodeChar utf8Len
  generalize ch.val.toNat = v at hmax
  dsimp only
  by_cases hv1 : v < 0x80
  · rw [if_pos hv1, if_pos (by omega)]
    simp [utf8From, firstByteMark]
  rw [if_neg hv1, if_neg (show ¬ v ≤ 127 by omega)]
  have hdiv : v / 64 / 64 = v / 4096 ∧ v / 4096 / 64 = v / 262144 := by omega
  by_cases hv2 : v < 0x800
  · rw [if_pos hv2, if_pos (by omega)]
    have hlead := h2 (v / 64) (by omega)
    simp [utf8From, firstByteMark, continuation_eq, Nat.shiftRight_eq_div_pow, hlead]
  rw [if_neg hv2, if_neg (show ¬ v ≤ 2047 by omega)]
  by_cases hv3 : v < 0x10000
  · rw [if_pos hv3, if_pos (by omega)]
    have hlead := h3 (v / 4096) (by omega)
    simp [utf8From, firstByteMark, continuation_eq, Nat.shiftRight_eq_div_pow, hdiv, hlead]
  · rw [if_neg hv3, if_neg (by omega)]
    have hlead := h4 (v / 262144) (by omega)
    simp [utf8From, firstByteMark, continuation_eq, Nat.shiftRight_eq_div_pow, hdiv, hlead]

/-- The character of a pair of surrogates. -/
lemma surrogates_eq {n : ℕ} (hlo : 0x10000 ≤ n) (hhi : n < 0x110000) :
    0x10000 + ((((0xd800 + (n - 0x10000) / 0x400) &&& 0x3FF) <<< 10) |||
      ((0xdc00 + (n - 0x10000) % 0x400) &&& 0x3FF)) = n := by
  have hmask : ∀ x : ℕ, x &&& 0x3FF = x % 2 ^ 10 := fun x => Nat.and_two_pow_sub_one_eq_mod x 10
  rw [hmask, hmask, ← Nat.shiftLeft_add_eq_or_of_lt (Nat.mod_lt _ (by norm_num)),
    Nat.shiftLeft_eq]
  omega

end Characters

section Strings

lemma char_not_surrogate (ch : Char) : ¬ (0xD800 ≤ ch.toNat ∧ ch.toNat ≤ 0xDFFF) := by
  have h := ch.valid
  simp only [UInt32.isValidChar, Nat.isValidChar] at h
  change ¬ (_ ≤ ch.val.toNat ∧ ch.val.toNat ≤ _)
  omega

lemma char_lt (ch : Char) : ch.toNat < 0x110000 := by
  have h := ch.valid
  simp only [UInt32.isValidChar, Nat.isValidChar] at h
  change ch.val.toNat < _
  omega

lemma exists_four {ds : List UInt8} (h : ds.length = 4) : ∃ a b c d, ds = [a, b, c, d] :=
  match ds, h with
  | [a, b, c, d], _ => ⟨a, b, c, d, rfl⟩

/-- The pointer is left on the last digit. -/
lemma unicodeEscape_text {ch : Char} {ds : List UInt8} (hds : Hex4 ds ch.toNat)
    (hne : ch.toNat ≠ 0) (p : Ptr) :
    ∃ d, unicodeEscape (0x75 :: (ds ++ p)) = .ret (String.utf8EncodeChar ch, d :: p) := by
  have hsur := char_not_surrogate ch
  have hlow : ¬ (0xDC00 ≤ ch.toNat ∧ ch.toNat ≤ 0xDFFF ∨ ch.toNat = 0) := by omega
  have hhigh : ¬ (0xD800 ≤ ch.toNat ∧ ch.toNat ≤ 0xDBFF) := by omega
  have hhex := parseHex4_text hds p
  obtain ⟨a, b, c, d, rfl⟩ := exists_four hds.1
  refine ⟨d, ?_⟩
  rw [unicodeEscape, List.tail_cons, hhex, Outcome.ret_bind, if_neg hlow, if_neg hhigh, utf8_char]
  rfl

lemma unicodeEscape_pair {ch : Char} {hi lo : List UInt8} (hch : 0x10000 ≤ ch.toNat)
    (hhi : Hex4 hi (0xd800 + (ch.toNat - 0x10000) / 0x400))
    (hlo : Hex4 lo (0xdc00 + (ch.toNat - 0x10000) % 0x400)) (p : Ptr) :
    ∃ d, unicodeEscape (0x75 :: (hi ++ 0x5c :: 0x75 :: (lo ++ p))) =
      .ret (String.utf8EncodeChar ch, d :: p) := by
  have hmax := char_lt ch
  have hpair := surrogates_eq hch hmax
  have hfirst := parseHex4_text hhi (0x5c :: 0x75 :: (lo ++ p))
  have hsecond := parseHex4_text hlo p
  generalize huc : 0xd800 + (ch.toNat - 0x10000) / 0x400 = uc at hpair hfirst
  generalize huc2 : 0xdc00 + (ch.toNat - 0x10000) % 0x400 = uc2 at hpair hsecond
  have hlow : ¬ (0xDC00 ≤ uc ∧ uc ≤ 0xDFFF ∨ uc = 0) := by omega
  have hhigh : 0xD800 ≤ uc ∧ uc ≤ 0xDBFF := by omega
  have hsnd : ¬ (uc2 < 0xDC00 ∨ 0xDFFF < uc2) := by omega
  obtain ⟨a, b, c, d, rfl⟩ := exists_four hhi.1
  obtain ⟨a', b', c', d', rfl⟩ := exists_four hlo.1
  refine ⟨d', ?_⟩
  rw [unicodeEscape, List.tail_cons, hfirst, Outcome.ret_bind, if_neg hlow, if_pos hhigh]
  simp only [List.cons_append, List.nil_append, List.drop_succ_cons, List.drop_zero, deref,
    Outcome.ret_bind, ne_eq, not_true_eq_false, if_false] at hsecond ⊢
  rw [hsecond, Outcome.ret_bind, if_neg hsnd, hpair, utf8_char]

lemma scanLen_raw {c : UInt8} (h0 : c ≠ 0) (hq : c ≠ 0x22) (hb : c ≠ 0x5c) {p : Ptr} {n : ℕ}
    (hp : scanLen p = .ret n) : scanLen (c :: p) = .ret (n + 1) := by
  rw [scanLen.eq_def]
  simp [h0, hq, hb, hp]

lemma scanLen_escape (c : UInt8) {p : Ptr} {n : ℕ} (hp : scanLen p = .ret n) :
    scanLen (0x5c :: c :: p) = .ret (n + 1) := by
  rw [scanLen.eq_def]
  simp [hp]

lemma hexDigit_plain {c : UInt8} {d : ℕ} (h : hexDigit c = some d) :
    c ≠ 0 ∧ c ≠ 0x22 ∧ c ≠ 0x5c := by
  refine ⟨?_, ?_, ?_⟩ <;> rintro rfl <;> exact absurd h (by simp [hexDigit])

/-- The first pass counts every hexadecimal digit. -/
lemma scanLen_hex {ds : List UInt8} {h n : ℕ} (hds : hexFrom h ds = some n) {p : Ptr} {k : ℕ}
    (hp : scanLen p = .ret k) : scanLen (ds ++ p) = .ret (k + ds.length) := by
  induction ds generalizing h with
  | nil => exact hp
  | cons c ds ih =>
    rw [hexFrom, Option.bind_eq_some_iff] at hds
    obtain ⟨d, hc, hds⟩ := hds
    obtain ⟨h0, hq, hb⟩ := hexDigit_plain hc
    exact scanLen_raw h0 hq hb (ih hds)

lemma store_ret {size : ℕ} {out bytes : List UInt8} (h : out.length + bytes.length ≤ size) :
    store size out bytes = .ret (out ++ bytes) := if_pos h

lemma unescape_eq {c d : UInt8} (h : (c, d) ∈ escapes) : c ≠ 0x75 ∧ unescape c = d := by
  simp only [escapes, List.mem_cons, Prod.mk.injEq, List.not_mem_nil, or_false] at h
  rcases h with ⟨rfl, rfl⟩ | ⟨rfl, rfl⟩ | ⟨rfl, rfl⟩ | ⟨rfl, rfl⟩ | ⟨rfl, rfl⟩ | ⟨rfl, rfl⟩ |
    ⟨rfl, rfl⟩ | ⟨rfl, rfl⟩ <;> decide

lemma utf8_short (ch : Char) {k : ℕ} (hk : 4 ≤ k) : (String.utf8EncodeChar ch).length ≤ k := by
  rw [String.length_utf8EncodeChar]
  exact le_trans ch.utf8Size_le_four hk

/-- How the two passes read the body of a string: the first finds room for what the second
writes. -/
structure ReadsBody (t s : List UInt8) (rest : Ptr) (n : ℕ) : Prop where
  scan : scanLen (t ++ 0x22 :: rest) = .ret n
  room : s.length ≤ n
  decode : ∀ size fuel out, t.length < fuel → out.length + n ≤ size →
    decodeLoop size fuel out (t ++ 0x22 :: rest) = .ret (out ++ s, 0x22 :: rest)

namespace ReadsBody
variable {t s : List UInt8} {rest : Ptr} {n : ℕ}

lemma nil (rest : Ptr) : ReadsBody [] [] rest 0 where
  scan := by
    rw [List.nil_append, scanLen.eq_def]
    simp
  room := le_rfl
  decode := by
    intro size fuel out hfuel hsize
    obtain ⟨fuel, rfl⟩ := Nat.exists_eq_succ_of_ne_zero (Nat.ne_of_gt hfuel)
    simp [decodeLoop, deref]

lemma raw (h : ReadsBody t s rest n) {c : UInt8} (h0 : c ≠ 0) (hq : c ≠ 0x22) (hb : c ≠ 0x5c) :
    ReadsBody (c :: t) (c :: s) rest (n + 1) where
  scan := scanLen_raw h0 hq hb h.scan
  room := Nat.succ_le_succ h.room
  decode := by
    intro size fuel out hfuel hsize
    obtain ⟨fuel, rfl⟩ := Nat.exists_eq_succ_of_ne_zero (Nat.ne_of_gt (Nat.zero_lt_of_lt hfuel))
    have hstore := @store_ret size out [c] (by simp; omega)
    have hrest := h.decode size fuel (out ++ [c]) (by simpa using hfuel) (by simp; omega)
    simp [decodeLoop, deref, h0, hq, hb, hstore, hrest]

/-- An escape at `c` that leaves its pointer on its last byte. -/
lemma escaped (h : ReadsBody t s rest n) {c : UInt8} {u b : List UInt8} {k : ℕ}
    (hscan : scanLen (0x5c :: c :: (u ++ (t ++ 0x22 :: rest))) = .ret (n + k))
    (hb : b.length ≤ k)
    (hstep : ∀ size fuel out, out.length + k ≤ size →
      decodeLoop size (fuel + 1) out (0x5c :: c :: (u ++ (t ++ 0x22 :: rest))) =
        decodeLoop size fuel (out ++ b) (t ++ 0x22 :: rest)) :
    ReadsBody (0x5c :: c :: (u ++ t)) (b ++ s) rest (n + k) where
  scan := by simpa using hscan
  room := by
    rw [List.length_append]
    have := h.room
    omega
  decode := by
    intro size fuel out hfuel hsize
    obtain ⟨fuel, rfl⟩ := Nat.exists_eq_succ_of_ne_zero (Nat.ne_of_gt (Nat.zero_lt_of_lt hfuel))
    simp only [List.length_cons, List.length_append] at hfuel
    have hrest := h.decode size fuel (out ++ b) (by omega) (by rw [List.length_append]; omega)
    simp only [List.cons_append, List.append_assoc]
    rw [hstep size fuel out (by omega), hrest, List.append_assoc]

lemma escape (h : ReadsBody t s rest n) {c d : UInt8} (hc : (c, d) ∈ escapes) :
    ReadsBody (0x5c :: c :: t) (d :: s) rest (n + 1) := by
  obtain ⟨hu, hd⟩ := unescape_eq hc
  refine h.escaped (c := c) (u := []) (b := [d]) (scanLen_escape c h.scan) le_rfl ?_
  intro size fuel out hsize
  have hstore := @store_ret size out [d] (by simpa using hsize)
  simp [decodeLoop, deref, hu, hd, hstore]

lemma unicode (h : ReadsBody t s rest n) {ch : Char} {ds : List UInt8} (hds : Hex4 ds ch.toNat)
    (hne : ch.toNat ≠ 0) :
    ReadsBody (0x5c :: 0x75 :: (ds ++ t)) (String.utf8EncodeChar ch ++ s) rest (n + 5) := by
  have hscan := scanLen_escape 0x75 (scanLen_hex hds.2 h.scan)
  rw [hds.1] at hscan
  refine h.escaped hscan (utf8_short ch (by omega)) ?_
  intro size fuel out hsize
  obtain ⟨d, hesc⟩ := unicodeEscape_text hds hne (t ++ 0x22 :: rest)
  have hstore := @store_ret size out (String.utf8EncodeChar ch)
    (le_trans (Nat.add_le_add_left (utf8_short ch (by omega)) _) hsize)
  simp [decodeLoop, deref, hesc, hstore]

lemma pair (h : ReadsBody t s rest n) {ch : Char} {hi lo : List UInt8} (hch : 0x10000 ≤ ch.toNat)
    (hhi : Hex4 hi (0xd800 + (ch.toNat - 0x10000) / 0x400))
    (hlo : Hex4 lo (0xdc00 + (ch.toNat - 0x10000) % 0x400)) :
    ReadsBody (0x5c :: 0x75 :: (hi ++ 0x5c :: 0x75 :: (lo ++ t))) (String.utf8EncodeChar ch ++ s)
      rest (n + 10) := by
  have hscan := scanLen_escape 0x75 (scanLen_hex hhi.2
    (scanLen_escape 0x75 (scanLen_hex hlo.2 h.scan)))
  rw [hhi.1, hlo.1] at hscan
  have hbody := h.escaped (c := 0x75) (u := hi ++ 0x5c :: 0x75 :: lo)
    (b := String.utf8EncodeChar ch) (k := 10) (by simpa using hscan) (utf8_short ch (by omega)) ?_
  · simpa using hbody
  intro size fuel out hsize
  obtain ⟨d, hesc⟩ := unicodeEscape_pair hch hhi hlo (t ++ 0x22 :: rest)
  have hstore := @store_ret size out (String.utf8EncodeChar ch)
    (le_trans (Nat.add_le_add_left (utf8_short ch (by omega)) _) hsize)
  simp [decodeLoop, deref, hesc, hstore]

end ReadsBody

/-- A string is read to the bytes it stands for. -/
lemma readsBody {t s : List UInt8} (h : StrBody t s) (rest : Ptr) : ∃ n, ReadsBody t s rest n := by
  induction h with
  | nil => exact ⟨0, .nil rest⟩
  | raw hlo hq hb _ ih =>
    obtain ⟨n, hn⟩ := ih
    refine ⟨n + 1, hn.raw ?_ hq hb⟩
    rintro rfl
    exact absurd hlo (by decide)
  | escape hc _ ih =>
    obtain ⟨n, hn⟩ := ih
    exact ⟨n + 1, hn.escape hc⟩
  | unicode hds hne _ ih =>
    obtain ⟨n, hn⟩ := ih
    exact ⟨n + 5, hn.unicode hds hne⟩
  | pair hch hhi hlo _ ih =>
    obtain ⟨n, hn⟩ := ih
    exact ⟨n + 10, hn.pair hch hhi hlo⟩

lemma takeWhile_terminated {s : List UInt8} (hs : 0 ∉ s) :
    (s ++ [0]).takeWhile (· ≠ 0) = s := by
  rw [List.takeWhile_append_of_pos]
  · simp
  · intro c hc
    simp only [ne_eq, decide_not, Bool.not_eq_eq_eq_not, Bool.not_true, decide_eq_false_iff_not]
    rintro rfl
    exact hs hc

variable {ok : ℕ → Bool}

/-- Every call of `cJSON_malloc` succeeds. -/
def Plenty (ok : ℕ → Bool) : Prop := ∀ n, ok n = true

lemma malloc_plenty (hok : Plenty ok) (m : Alloc) :
    m.malloc ok = (true, { m with calls := m.calls + 1, allocated := m.allocated + 1 }) :=
  if_pos (hok m.calls)

/-- A string is read to its bytes, whatever stands behind it. -/
theorem parseString_text (hok : Plenty ok) {t : List UInt8} {s : Str} (h : StrBody t s)
    (g : Globals) (item : Fields) (rest : Ptr) :
    ∃ mem, parseString ok g item (quoted t ++ rest) =
      .ret ({ g with mem }, { item with valuestring := some s, type := .string }, some rest) := by
  obtain ⟨n, hn⟩ := readsBody h rest
  refine ⟨{ g.mem with calls := g.mem.calls + 1, allocated := g.mem.allocated + 1 }, ?_⟩
  have hdecode := hn.decode (n + 1) (quoted t ++ rest).length [] (by simp [quoted]) (by simp)
  have hstore := @store_ret (n + 1) s.1 [0] (by simpa using hn.room)
  have htake := takeWhile_terminated s.2
  simp only [quoted, List.cons_append, List.append_assoc, List.nil_append] at hdecode ⊢
  simp only [parseString, deref, Outcome.ret_bind, ne_eq, not_true_eq_false, if_false, if_true,
    List.tail_cons, hn.scan, malloc_plenty hok, hdecode, hstore] at htake ⊢
  rw [htake]

end Strings

end Twister.CJson
