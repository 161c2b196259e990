import Twister.IpString
import Twister.NarrowSum

/-! Decimal conversion of longer texts. Each digit is multiplied by its power of ten as
an `int`, the sum of the products is a `uint64_t`. -/
namespace Twister

open NarrowSum

/-- The number that the digits denote, most significant digit first. -/
def decimal (digits : List (Fin 10)) : ℕ := Nat.ofDigits 10 (digits.reverse.map Fin.val)

/-- The product of each digit and its power of ten, for digits that `k` more follow. -/
def places (k : ℕ) : List (Fin 10) → List ℤ
  | [] => []
  | d :: digits => (d.val * 10 ^ (k + digits.length) : ℕ) :: places k digits

section Decimal
variable {digits : List (Fin 10)} {d : Fin 10} {k : ℕ} {x : ℤ}

lemma decimal_cons (d : Fin 10) (digits : List (Fin 10)) :
    decimal (d :: digits) = d.val * 10 ^ digits.length + decimal digits := by
  rw [decimal, List.reverse_cons, List.map_append, Nat.ofDigits_append, List.length_map,
    List.length_reverse, List.map_singleton, Nat.ofDigits_singleton, decimal]
  ring

lemma decimal_lt (digits : List (Fin 10)) : decimal digits < 10 ^ digits.length := by
  have hlt : ∀ x ∈ digits.reverse.map Fin.val, x < 10 := by
    intro x hx
    obtain ⟨d, -, rfl⟩ := List.mem_map.mp hx
    exact d.isLt
  simpa [decimal] using Nat.ofDigits_lt_base_pow_length (by decide) hlt

lemma places_snoc (k : ℕ) (digits : List (Fin 10)) (d : Fin 10) :
    places k (digits ++ [d]) = places (k + 1) digits ++ [((d.val * 10 ^ k : ℕ) : ℤ)] := by
  induction digits with
  | nil => rfl
  | cons c digits ih =>
    have hexp : k + (digits.length + 1) = k + 1 + digits.length := by omega
    simp only [List.cons_append, places, ih, List.length_append, List.length_singleton, hexp]

lemma places_length (k : ℕ) (digits : List (Fin 10)) :
    (places k digits).length = digits.length := by
  induction digits with
  | nil => rfl
  | cons d digits ih => simp [places, ih]

lemma places_sum (digits : List (Fin 10)) : (places 0 digits).sum = decimal digits := by
  induction digits with
  | nil => rfl
  | cons d digits ih =>
    rw [places, List.sum_cons, ih, decimal_cons, Nat.zero_add, Nat.cast_add]

lemma mem_places (hx : x ∈ places k digits) :
    ∃ (d : Fin 10) (e : ℕ), x = (d.val * 10 ^ e : ℕ) := by
  induction digits with
  | nil => cases hx
  | cons d digits ih =>
    rcases List.mem_cons.mp hx with rfl | hx
    · exact ⟨d, _, rfl⟩
    · exact ih hx

lemma places_nonneg (hx : x ∈ places k digits) : 0 ≤ x := by
  obtain ⟨d, e, rfl⟩ := mem_places hx
  exact Int.natCast_nonneg _

lemma digit_eq_zero {e : ℕ} (he : 10 ≤ e) (hlt : d.val * 10 ^ e < 3 * 10 ^ 9) : d.val = 0 := by
  by_contra hne
  have hpow : 10 ^ 10 ≤ 10 ^ e := Nat.pow_le_pow_right (by decide) he
  have hmul : 1 * 10 ^ 10 ≤ d.val * 10 ^ e := Nat.mul_le_mul (by omega) hpow
  omega

/-- A product of a digit and a power of ten fits an `int` exactly if it is below three
thousand million: 2000000000 does and 3000000000 does not. -/
lemma digit_place_lt_iff (d : Fin 10) (e : ℕ) :
    d.val * 10 ^ e < 2 ^ 31 ↔ d.val * 10 ^ e < 3 * 10 ^ 9 := by
  have hd := d.isLt
  rcases Nat.lt_or_ge e 10 with he | he
  · interval_cases e <;> omega
  · refine ⟨fun hlt => by omega, fun hlt => ?_⟩
    rw [digit_eq_zero he hlt, Nat.zero_mul]
    decide

/-- The lower digits do not carry over the bound. -/
lemma digit_place_add_lt {e low : ℕ} (hplace : d.val * 10 ^ e < 3 * 10 ^ 9)
    (hlow : low < 10 ^ e) (hlt : low < 3 * 10 ^ 9) : d.val * 10 ^ e + low < 3 * 10 ^ 9 := by
  rcases Nat.lt_or_ge e 10 with he | he
  · have hsplit : 3 * 10 ^ 9 = 3 * 10 ^ (9 - e) * 10 ^ e := by
      rw [Nat.mul_assoc, ← pow_add, Nat.sub_add_cancel (by omega)]
    rw [hsplit] at hplace ⊢
    have hd : d.val + 1 ≤ 3 * 10 ^ (9 - e) := Nat.lt_of_mul_lt_mul_right hplace
    have hmul : (d.val + 1) * 10 ^ e ≤ 3 * 10 ^ (9 - e) * 10 ^ e := Nat.mul_le_mul_right _ hd
    rw [Nat.add_mul, Nat.one_mul] at hmul
    omega
  · rw [digit_eq_zero he hplace, Nat.zero_mul, Nat.zero_add]
    exact hlt

/-- All products fit an `int` exactly if the number is below three thousand million. -/
lemma places_fit_iff (digits : List (Fin 10)) :
    (∀ x ∈ places 0 digits, x < 2 ^ 31) ↔ decimal digits < 3 * 10 ^ 9 := by
  induction digits with
  | nil => simp [places, decimal]
  | cons d digits ih =>
    have hhead : ((d.val * 10 ^ (0 + digits.length) : ℕ) : ℤ) < 2 ^ 31 ↔
        d.val * 10 ^ digits.length < 3 * 10 ^ 9 := by
      rw [← digit_place_lt_iff, Nat.zero_add]
      norm_cast
    rw [places, List.forall_mem_cons, ih, hhead, decimal_cons]
    constructor
    · rintro ⟨hplace, hlt⟩
      exact digit_place_add_lt hplace (decimal_lt digits) hlt
    · intro hlt
      omega

end Decimal

section Convert

lemma uint64_ofInt_toNat (x : ℤ) : ((UInt64.ofInt x).toNat : ℤ) = x % 2 ^ 64 := by
  rw [UInt64.ofInt, UInt64.toNat_ofNat']
  omega

lemma toUInt64_eq_ofInt (x : Int64) : x.toUInt64 = UInt64.ofInt x.toInt := by
  have hbits : x.toInt = (x.toUInt64.toNat : ℤ).bmod (2 ^ 64) := x.toBitVec.toInt_eq_toNat_bmod
  have hmod : (x.toUInt64.toNat : ℤ).bmod (2 ^ 64) % 2 ^ 64 = x.toUInt64.toNat % 2 ^ 64 := by
    exact_mod_cast Int.bmod_emod
  have hlt := x.toUInt64.toNat_lt
  rw [← UInt64.toNat_inj, ← Int.natCast_inj, uint64_ofInt_toNat, hbits, hmod]
  omega

lemma twPower_toInt (e : ℕ) : (twPower 10 e).toInt = Int.bmod (10 ^ e) (2 ^ 32) := by
  induction e with
  | zero => decide
  | succ e ih =>
    have hbase : (Int32.ofNat (10 : UInt8).toNat).toInt = 10 := by decide
    rw [twPower, Int32.toInt_mul, ih, hbase, Int.mul_bmod_bmod, pow_succ (10 : ℤ) e, mul_comm]

/-- The product as an `int`, converted to `uint64_t`. -/
lemma digitTerm_eq (d : Fin 10) (e : ℕ) :
    digitTerm (digitChar d) e = UInt64.ofInt (Int.bmod (d.val * 10 ^ e : ℕ) (2 ^ 32)) := by
  have hd : ((digitChar d).toInt8.toInt32 - 48).toInt = d.val := by
    revert d
    decide
  have hint : (((digitChar d).toInt8.toInt32 - 48) * twPower 10 e).toInt =
      Int.bmod (d.val * 10 ^ e : ℕ) (2 ^ 32) := by
    rw [Int32.toInt_mul, hd, twPower_toInt, Int.mul_bmod_bmod]
    norm_cast
  rw [digitTerm, toUInt64_eq_ofInt, Int32.toInt_toInt64, hint]

/-- The loop adds the products of the digits in front of the counter. -/
lemma convertFrom_digits (front back : List (Fin 10)) (num : UInt64) :
    convertFrom ((front ++ back).map digitChar) (front.length + back.length) front.length num =
      .ret (num + UInt64.ofInt (wrapped (2 ^ 32) (places back.length front))) := by
  induction front using List.reverseRecOn generalizing back num with
  | nil =>
    have hzero : UInt64.ofInt 0 = 0 := by decide
    simp [convertFrom, wrapped, places, hzero]
  | append_singleton front d ih =>
    have hchar : charAt ((front ++ [d] ++ back).map digitChar) front.length =
        .ret (digitChar d) := by
      simp only [List.map_append, List.append_assoc]
      have hgroup : (List.map digitChar [d])[0]? = some (digitChar d) := rfl
      exact charAt_group hgroup (by simp)
    have hexp : front.length + 1 + back.length - 1 - front.length = back.length := by omega
    have hlen : front.length + (back.length + 1) = front.length + 1 + back.length := by omega
    have hrest := ih (d :: back) (num + digitTerm (digitChar d) back.length)
    rw [List.append_cons, List.length_cons, hlen] at hrest
    rw [List.length_append, List.length_singleton, convertFrom, hchar, Outcome.ret_bind, hexp,
      hrest, places_snoc, wrapped_snoc, UInt64.ofInt_add, digitTerm_eq, UInt64.add_assoc,
      UInt64.add_comm (UInt64.ofInt (Int.bmod _ _))]

/-- Every text of at most 255 digits converts, to the sum of the products as `int`s. -/
lemma twConvertStrToInt_digits {digits : List (Fin 10)} (hlen : digits.length ≤ 255) :
    twConvertStrToInt (digits.map digitChar) (UInt8.ofNat digits.length) =
      .ret (UInt64.ofInt (wrapped (2 ^ 32) (places 0 digits))) := by
  have hn : (UInt8.ofNat digits.length).toNat = digits.length := Nat.mod_eq_of_lt (by omega)
  have hrun := convertFrom_digits digits [] 0
  rw [List.append_nil, List.length_nil, Nat.add_zero] at hrun
  rw [twConvertStrToInt, hn, hrun, zero_add]

lemma wrapped_places_iff {digits : List (Fin 10)} (hlen : digits.length ≤ 19) :
    wrapped (2 ^ 32) (places 0 digits) ≡ decimal digits [ZMOD 2 ^ 64] ↔
      decimal digits < 3 * 10 ^ 9 := by
  have hlt : decimal digits < 10 ^ 19 :=
    (decimal_lt digits).trans_le (Nat.pow_le_pow_right (by decide) hlen)
  have hfit : (places 0 digits).sum + (places 0 digits).length * (((2 ^ 32 : ℕ) : ℤ) / 2) <
      ((2 ^ 32 : ℕ) : ℤ) * ((2 ^ 32 : ℕ) : ℤ) := by
    rw [places_sum, places_length]
    norm_num
    omega
  have hiff := wrapped_modEq_iff (by decide) (fun x hx => places_nonneg hx) hfit
  have hwide : ((2 ^ 32 : ℕ) : ℤ) * ((2 ^ 32 : ℕ) : ℤ) = 2 ^ 64 := by norm_num
  have hhalf : (((2 ^ 32 : ℕ) : ℤ) + 1) / 2 = 2 ^ 31 := by norm_num
  rwa [places_sum, hwide, hhalf, places_fit_iff] at hiff

/-- Up to nineteen digits the conversion is exact for the numbers below three thousand
million and for no others. -/
theorem twConvertStrToInt_exact_iff {digits : List (Fin 10)} (hlen : digits.length ≤ 19) :
    (∃ num, twConvertStrToInt (digits.map digitChar) (UInt8.ofNat digits.length) = .ret num ∧
      num.toNat = decimal digits) ↔ decimal digits < 3 * 10 ^ 9 := by
  have hlt : decimal digits < 10 ^ 19 :=
    (decimal_lt digits).trans_le (Nat.pow_le_pow_right (by decide) hlen)
  have hself : (decimal digits : ℤ) % 2 ^ 64 = decimal digits :=
    Int.emod_eq_of_lt (by omega) (by omega)
  have hnum := uint64_ofInt_toNat (wrapped (2 ^ 32) (places 0 digits))
  rw [twConvertStrToInt_digits (by omega), ← wrapped_places_iff hlen, Int.ModEq, ← hnum, hself,
    Int.natCast_inj]
  simp

theorem twConvertStrToInt_exact_largest :
    ∃ num, twConvertStrToInt ([2, 9, 9, 9, 9, 9, 9, 9, 9, 9].map digitChar) 10 = .ret num ∧
      num.toNat = 2999999999 :=
  (@twConvertStrToInt_exact_iff [2, 9, 9, 9, 9, 9, 9, 9, 9, 9] (by decide)).mpr (by decide)

/-- The product 3 * 1000000000 does not fit an `int`, and its sign is extended. -/
theorem twConvertStrToInt_wraps :
    decimal [3, 0, 0, 0, 0, 0, 0, 0, 0, 0] = 3000000000 ∧
    twConvertStrToInt ([3, 0, 0, 0, 0, 0, 0, 0, 0, 0].map digitChar) 10 =
      .ret 18446744072414584320 ∧
    ¬ ∃ num, twConvertStrToInt ([3, 0, 0, 0, 0, 0, 0, 0, 0, 0].map digitChar) 10 = .ret num ∧
      num.toNat = decimal [3, 0, 0, 0, 0, 0, 0, 0, 0, 0] := by
  have hnum : twConvertStrToInt ([3, 0, 0, 0, 0, 0, 0, 0, 0, 0].map digitChar) 10 =
      .ret 18446744072414584320 := by rfl
  refine ⟨by decide, hnum, ?_⟩
  rintro ⟨num, hret, hexact⟩
  obtain rfl := Outcome.ret.inj (hnum.symm.trans hret)
  revert hexact
  decide

/-- The low 32 bits are right for every text. -/
theorem twConvertStrToInt_low {digits : List (Fin 10)} (hlen : digits.length ≤ 255) :
    ∃ num, twConvertStrToInt (digits.map digitChar) (UInt8.ofNat digits.length) = .ret num ∧
      num.toUInt32.toNat = decimal digits % 2 ^ 32 := by
  refine ⟨_, twConvertStrToInt_digits hlen, ?_⟩
  have hnum := uint64_ofInt_toNat (wrapped (2 ^ 32) (places 0 digits))
  have hlow := wrapped_modEq (2 ^ 32) (places 0 digits)
  rw [places_sum, Int.ModEq, Nat.cast_pow, Nat.cast_ofNat] at hlow
  rw [UInt64.toNat_toUInt32]
  omega

end Convert
end Twister
