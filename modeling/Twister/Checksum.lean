import Twister.Ipv4
import Twister.OnesComplement

/-! `tw_calcsum` against the Internet checksum: they agree unless the buffer has an odd
length and its last byte, which is added as a signed character, is negative. What either
checksum routine stores makes the sum of the words the largest word. -/
namespace Twister

section Words

/-- The 16-bit words of a buffer, an odd last byte padded with a zero. -/
def words : List UInt8 → List ℕ
  | [] => []
  | [x] => [x.toNat]
  | x :: y :: rest => (x.toNat + 256 * y.toNat) :: words rest

/-- The complement of the ones' complement sum of the words. -/
def internetChecksum (b : List UInt8) : ℕ := 65535 - OnesComplement.sum 65535 (words b)

/-- The last byte is one without a partner and is negative as a character. -/
def NegativeTail (b : List UInt8) : Prop := Odd b.length ∧ ∃ x ∈ b.getLast?, 128 ≤ x

/-- What the sign of the last byte adds to the sum, modulo 2^64. -/
def signExcess : List UInt8 → ℕ
  | [] => 0
  | [x] => if 128 ≤ x then 2 ^ 64 - 256 else 0
  | _ :: _ :: rest => signExcess rest

variable {b : List UInt8}

lemma words_le : ∀ x ∈ words b, x ≤ 65535 := by
  fun_induction words b with
  | case1 => simp
  | case2 x =>
    have hx := x.toNat_lt
    simp
    omega
  | case3 x y rest ih =>
    have hx := x.toNat_lt
    have hy := y.toNat_lt
    intro z hz
    rcases List.mem_cons.mp hz with rfl | hz
    · omega
    · exact ih z hz

lemma words_length : (words b).length = (b.length + 1) / 2 := by
  fun_induction words b with
  | case1 => simp
  | case2 x => simp
  | case3 x y rest ih =>
    simp only [List.length_cons]
    omega

lemma words_append {b' : List UInt8} (heven : Even b.length) :
    words (b ++ b') = words b ++ words b' := by
  fun_induction words b with
  | case1 => rfl
  | case2 x => exact absurd heven (show ¬ Even 1 by decide)
  | case3 x y rest ih =>
    have hrest : Even rest.length := by
      simpa [Nat.even_add_one] using heven
    rw [List.cons_append, List.cons_append, words, ih hrest, List.cons_append]

lemma words_sum_le (hlen : b.length ≤ 65535) : (words b).sum ≤ 32768 * 65535 := by
  have hsum := List.sum_le_card_nsmul (words b) 65535 words_le
  have hcount := words_length (b := b)
  rw [smul_eq_mul] at hsum
  exact hsum.trans (Nat.mul_le_mul_right _ (by omega))

lemma negativeTail_cons_cons {x y : UInt8} (hne : b ≠ []) :
    NegativeTail (x :: y :: b) ↔ NegativeTail b := by
  obtain ⟨z, zs, rfl⟩ := List.exists_cons_of_ne_nil hne
  simp only [NegativeTail, List.length_cons, List.getLast?_cons_cons]
  have hodd : Odd (zs.length + 1 + 1 + 1) ↔ Odd (zs.length + 1) := by
    simp only [Nat.odd_iff]
    omega
  rw [hodd]

lemma signExcess_cases : ¬ NegativeTail b ∧ signExcess b = 0 ∨
    NegativeTail b ∧ signExcess b = 2 ^ 64 - 256 := by
  fun_induction signExcess b with
  | case1 => exact Or.inl ⟨by simp [NegativeTail], rfl⟩
  | case2 x hx => exact Or.inr ⟨⟨odd_one, x, rfl, hx⟩, rfl⟩
  | case3 x hx => exact Or.inl ⟨by simpa [NegativeTail] using hx, rfl⟩
  | case4 x y rest ih =>
    cases rest with
    | nil =>
      refine Or.inl ⟨fun hneg => ?_, rfl⟩
      exact absurd hneg.1 (show ¬ Odd 2 by decide)
    | cons z rest => rwa [negativeTail_cons_cons (List.cons_ne_nil z rest)]

/-- A character is signed: above 127 its value is 256 less. -/
lemma signed_toNat (x : UInt8) :
    x.toInt8.toInt64.toUInt64.toNat = x.toNat + if 128 ≤ x then 2 ^ 64 - 256 else 0 := by
  have hx := x.toNat_lt
  have hbits : x.toInt8.toInt64.toUInt64.toNat = (x.toBitVec.signExtend 64).toNat := rfl
  have hmsb : x.toBitVec.msb = decide (128 ≤ x) := BitVec.msb_eq_decide _
  rw [hbits, BitVec.toNat_signExtend, hmsb]
  simp only [BitVec.toNat_setWidth, UInt8.toNat_toBitVec, decide_eq_true_eq]
  split_ifs <;> omega

lemma calcsumFrom_toNat (sum : UInt64) :
    (calcsumFrom sum b).toNat = (sum.toNat + (words b).sum + signExcess b) % 2 ^ 64 := by
  fun_induction calcsumFrom sum b with
  | case1 sum => simp [words, signExcess]
  | case2 sum x =>
    rw [UInt64.toNat_add, signed_toNat]
    simp [words, signExcess, Nat.add_assoc]
  | case3 sum x y rest ih =>
    have hx := x.toNat_lt
    have hy := y.toNat_lt
    rw [ih, UInt64.toNat_add]
    simp [words, signExcess, le16]
    omega

/-- One carry of the source, on a sum of 64 bits. -/
lemma carry_toNat (x : UInt64) :
    ((x >>> 16) + (x &&& 0xffff)).toNat = x.toNat / 65536 + x.toNat % 65536 := by
  have hx := x.toNat_lt
  have hmask : x.toNat &&& 65535 = x.toNat % 65536 := Nat.and_two_pow_sub_one_eq_mod _ 16
  have hshift : x.toNat >>> 16 = x.toNat / 65536 := Nat.shiftRight_eq_div_pow _ 16
  rw [UInt64.toNat_add, UInt64.toNat_shiftRight, UInt64.toNat_and]
  change (x.toNat >>> 16 + (x.toNat &&& 65535)) % 2 ^ 64 = _
  rw [hmask, hshift]
  omega

lemma twCalcsum_toNat {s : ℕ} (hs : (calcsumFrom 0 b).toNat = s) :
    (twCalcsum b).toNat =
      65535 - (s / 65536 + s % 65536 + (s / 65536 + s % 65536) / 65536) % 65536 := by
  have hlt := (calcsumFrom 0 b).toNat_lt
  have hcarry := carry_toNat (calcsumFrom 0 b)
  rw [hs] at hlt hcarry
  obtain ⟨y, hy⟩ : ∃ y, y = (calcsumFrom 0 b >>> 16) + (calcsumFrom 0 b &&& 0xffff) := ⟨_, rfl⟩
  have hdef : twCalcsum b = (~~~(y + y >>> 16)).toUInt16 := by
    rw [hy]
    rfl
  rw [← hy] at hcarry
  have hshift : y.toNat >>> 16 = y.toNat / 65536 := Nat.shiftRight_eq_div_pow _ 16
  rw [hdef, UInt64.toNat_toUInt16, UInt64.toNat_not, UInt64.toNat_add, UInt64.toNat_shiftRight]
  change (2 ^ 64 - 1 - (y.toNat + y.toNat >>> 16) % 2 ^ 64) % 2 ^ 16 = _
  rw [hshift, hcarry]
  omega

end Words

section Agree
variable {b : List UInt8}

/-- Two carries are enough for as many words as a buffer can have. -/
lemma two_carries {s : ℕ} (hs : s ≤ 32768 * 65535) :
    (s / 65536 + s % 65536 + (s / 65536 + s % 65536) / 65536) % 65536 =
      OnesComplement.fold 65535 s := by
  have hcarry : OnesComplement.fold 65535 (s % 65536 + s / 65536) =
      OnesComplement.fold 65535 s := OnesComplement.fold_carry (by decide) s
  rw [← hcarry, Nat.add_comm (s % 65536)]
  obtain ⟨c, hc⟩ : ∃ c, c = s / 65536 + s % 65536 := ⟨_, rfl⟩
  have hle : c ≤ 98302 := by omega
  rw [← hc]
  by_cases hsmall : c ≤ 65535
  · rw [OnesComplement.fold_of_le hsmall]
    omega
  · have hfold : OnesComplement.fold 65535 c = c - 65535 := by
      refine OnesComplement.fold_unique (by omega) ?_ (by omega)
      rw [Nat.ModEq]
      omega
    rw [hfold]
    omega

lemma internetChecksum_eq :
    internetChecksum b = 65535 - OnesComplement.fold 65535 (words b).sum := by
  rw [internetChecksum, OnesComplement.sum_eq_fold (by decide) words_le]

lemma twCalcsum_agrees (hlen : b.length ≤ 65535) (htail : ¬ NegativeTail b) :
    (twCalcsum b).toNat = internetChecksum b := by
  have hle := words_sum_le hlen
  have hsum : (calcsumFrom 0 b).toNat = (words b).sum := by
    rcases signExcess_cases (b := b) with ⟨-, hexcess⟩ | ⟨hneg, -⟩
    · rw [calcsumFrom_toNat, hexcess]
      simp only [UInt64.toNat_zero]
      omega
    · exact absurd hneg htail
  rw [twCalcsum_toNat hsum, two_carries hle, internetChecksum_eq]

lemma le_words_sum (htail : NegativeTail b) : 128 ≤ (words b).sum := by
  fun_induction words b with
  | case1 => exact absurd htail.1 (by decide)
  | case2 x =>
    obtain ⟨-, y, hy, hge⟩ := htail
    obtain rfl : x = y := by simpa using hy
    rw [UInt8.le_iff_toNat_le] at hge
    simpa using hge
  | case3 x y rest ih =>
    cases rest with
    | nil => exact absurd htail.1 (show ¬ Odd 2 by decide)
    | cons z rest =>
      have hrest := ih ((negativeTail_cons_cons (List.cons_ne_nil z rest)).mp htail)
      rw [List.sum_cons]
      omega

/-- A negative last byte makes the sum 256 too small, or, if it is the larger part, lets
it wrap. -/
lemma twCalcsum_differs (hlen : b.length ≤ 65535) (htail : NegativeTail b) :
    (twCalcsum b).toNat ≠ internetChecksum b := by
  have hle := words_sum_le hlen
  have hge := le_words_sum htail
  have hsum : (calcsumFrom 0 b).toNat = ((words b).sum + (2 ^ 64 - 256)) % 2 ^ 64 := by
    rcases signExcess_cases (b := b) with ⟨hno, -⟩ | ⟨-, hexcess⟩
    · exact absurd htail hno
    · rw [calcsumFrom_toNat, hexcess]
      simp
  obtain ⟨t, ht⟩ : ∃ t, t = (words b).sum := ⟨_, rfl⟩
  rw [internetChecksum_eq, twCalcsum_toNat hsum, ← ht]
  rw [← ht] at hle hge
  have hword := OnesComplement.fold_le (m := 65535) (n := t) (by decide)
  by_cases hbig : 256 ≤ t
  · have hwrap : (t + (2 ^ 64 - 256)) % 2 ^ 64 = t - 256 := by omega
    rw [hwrap, two_carries (by omega)]
    have hword' := OnesComplement.fold_le (m := 65535) (n := t - 256) (by decide)
    intro hsame
    have hfold : OnesComplement.fold 65535 (t - 256) = OnesComplement.fold 65535 t := by omega
    have hmod := (OnesComplement.fold_modEq 65535 (t - 256)).symm
    rw [hfold] at hmod
    have hbad : (t - 256) % 65535 = t % 65535 := hmod.trans (OnesComplement.fold_modEq 65535 t)
    omega
  · rw [OnesComplement.fold_of_le (by omega)]
    omega

end Agree

section Field
variable {b : List UInt8} {k : ℕ}

/-- The buffer with its word number `k` stored. -/
def setWord (b : List UInt8) (k : ℕ) (v : UInt16) : List UInt8 :=
  (b.set (2 * k) (bytes16 v 0)).set (2 * k + 1) (bytes16 v 1)

@[simp] lemma setWord_length (b : List UInt8) (k : ℕ) (v : UInt16) :
    (setWord b k v).length = b.length := by simp [setWord]

lemma exists_first_word (h : 1 < b.length) : ∃ x y rest, b = x :: y :: rest := by
  obtain ⟨x, rest, rfl⟩ := List.exists_cons_of_length_pos (Nat.zero_lt_of_lt h)
  obtain ⟨y, rest, rfl⟩ := List.exists_cons_of_length_pos (Nat.lt_of_succ_lt_succ h)
  exact ⟨x, y, rest, rfl⟩

lemma words_setWord (hk : 2 * k + 1 < b.length) (v : UInt16) :
    words (setWord b k v) = (words b).set k v.toNat := by
  induction k generalizing b with
  | zero =>
    obtain ⟨x, y, rest, rfl⟩ := exists_first_word hk
    have hv := v.toNat_lt
    have hword : (bytes16 v 0).toNat + 256 * (bytes16 v 1).toNat = v.toNat := by
      simp [bytes16]
      omega
    simp [setWord, words, hword]
  | succ k ih =>
    obtain ⟨x, y, rest, rfl⟩ := exists_first_word (show 1 < b.length by omega)
    have hk' : 2 * k + 1 < rest.length := by
      simp only [List.length_cons] at hk
      omega
    have hset : setWord (x :: y :: rest) (k + 1) v = x :: y :: setWord rest k v := by
      simp [setWord, Nat.mul_add]
    rw [hset, words, words, ih hk', List.set_cons_succ]

lemma negativeTail_setWord (hk : 2 * k + 1 < b.length) (v : UInt16) :
    NegativeTail (setWord b k v) ↔ NegativeTail b := by
  unfold NegativeTail
  rw [setWord_length]
  refine and_congr_right fun hodd => ?_
  -- an odd last byte belongs to no whole word
  rw [Nat.odd_iff] at hodd
  have hlast : (setWord b k v).getLast? = b.getLast? := by
    rw [List.getLast?_eq_getElem?, List.getLast?_eq_getElem?, setWord_length, setWord,
      List.getElem?_set_ne (by omega), List.getElem?_set_ne (by omega)]
  rw [hlast]

/-- Storing a word over a zero adds it to the sum. -/
lemma words_sum_setWord (hk : 2 * k + 1 < b.length) (v : UInt16) :
    (words (setWord (setWord b k 0) k v)).sum = (words (setWord b k 0)).sum + v.toNat := by
  have hkw : k < (words b).length := by
    rw [words_length]
    omega
  rw [words_setWord (by rwa [setWord_length]), words_setWord hk, List.set_set, List.sum_set,
    List.sum_set, if_pos hkw, if_pos hkw]
  simp
  ring

/-- The checksum of the buffer with its word `k` zero, stored in that word. -/
def sealed (b : List UInt8) (k : ℕ) : List UInt8 :=
  setWord (setWord b k 0) k (twCalcsum (setWord b k 0))

lemma sealed_sum (hlen : b.length ≤ 65535) (htail : ¬ NegativeTail b)
    (hk : 2 * k + 1 < b.length) : OnesComplement.sum 65535 (words (sealed b k)) = 0xffff := by
  have hzero : (twCalcsum (setWord b k 0)).toNat = internetChecksum (setWord b k 0) :=
    twCalcsum_agrees (by rwa [setWord_length]) ((negativeTail_setWord hk 0).not.mpr htail)
  have hsum : (words (sealed b k)).sum =
      (words (setWord b k 0)).sum + (twCalcsum (setWord b k 0)).toNat := words_sum_setWord hk _
  rw [OnesComplement.sum_eq_fold (by decide) words_le, hsum, hzero, internetChecksum_eq]
  exact OnesComplement.fold_add_complement (by decide) _

/-- `tw_calcsum` is the checksum of the buffer, and storing it in any word of the buffer
makes the whole sum to the largest word. -/
structure ChecksSum (b : List UInt8) : Prop where
  sum : (twCalcsum b).toNat = internetChecksum b
  seals : ∀ k, 2 * k + 1 < b.length → OnesComplement.sum 65535 (words (sealed b k)) = 0xffff

theorem twCalcsum_checksSum_iff (hlen : b.length ≤ 65535) :
    ChecksSum b ↔ (Odd b.length → ∀ x ∈ b.getLast?, x < 128) := by
  have hneg : (Odd b.length → ∀ x ∈ b.getLast?, x < 128) ↔ ¬ NegativeTail b := by
    simp [NegativeTail]
  rw [hneg]
  constructor
  · exact fun hchecks htail => twCalcsum_differs hlen htail hchecks.sum
  · exact fun htail => ⟨twCalcsum_agrees hlen htail, fun k hk => sealed_sum hlen htail hk⟩

theorem twCalcsum_checksSum_odd : ChecksSum [0x45, 0xff, 0x7f] :=
  (twCalcsum_checksSum_iff (by decide)).mpr (by simp)

theorem twCalcsum_wrong_odd : ¬ ChecksSum [0x45, 0xff, 0x80] :=
  fun hchecks => absurd hchecks.sum (by decide)

end Field

section Verify
variable {b : List UInt8} {k : ℕ}

/-- What a receiver checks. -/
def Verifies (b : List UInt8) : Prop := OnesComplement.sum 65535 (words b) = 0xffff

instance decidableVerifies : DecidablePred Verifies := fun _ => instDecidableEqNat _ _

lemma verifies_iff : Verifies b ↔ (words b).sum ≠ 0 ∧ 65535 ∣ (words b).sum := by
  rw [Verifies, OnesComplement.sum_eq_fold (by decide) words_le]
  exact OnesComplement.fold_eq_max_iff (by decide)

/-- What follows a part that verifies has to add nothing. -/
lemma verifies_append_iff {b' : List UInt8} (heven : Even b.length) (h : Verifies b) :
    Verifies (b ++ b') ↔ 65535 ∣ (words b').sum := by
  obtain ⟨hpos, hdvd⟩ := verifies_iff.mp h
  rw [verifies_iff, words_append heven, List.sum_append, Nat.dvd_add_right hdvd]
  exact and_iff_right (by omega)

lemma sealed_verifies (hlen : b.length ≤ 65535) (htail : ¬ NegativeTail b)
    (hk : 2 * k + 1 < b.length) : Verifies (sealed b k) := sealed_sum hlen htail hk

lemma rawCksumFrom_toNat (sum : UInt32) :
    (rawCksumFrom sum b).toNat = (sum.toNat + (words b).sum) % 2 ^ 32 := by
  fun_induction rawCksumFrom sum b with
  | case1 sum => simp [words]
  | case2 sum x => simp [words]
  | case3 sum x y rest ih =>
    have hx := x.toNat_lt
    have hy := y.toNat_lt
    rw [ih, UInt32.toNat_add]
    simp [words, le16]
    omega

/-- One carry of the other routine, on a sum of 32 bits. -/
lemma carry32_toNat (s : UInt32) :
    (((s &&& 0xffff0000) >>> 16) + (s &&& 0xffff)).toNat = s.toNat / 65536 + s.toNat % 65536 := by
  have hs := s.toNat_lt
  have hlow : s.toNat &&& 65535 = s.toNat % 65536 := Nat.and_two_pow_sub_one_eq_mod _ 16
  have hhigh : (s.toNat &&& 4294901760) >>> 16 = s.toNat / 65536 := by
    rw [Nat.shiftRight_and_distrib, Nat.shiftRight_eq_div_pow]
    change s.toNat / 65536 &&& (2 ^ 16 - 1) = _
    rw [Nat.and_two_pow_sub_one_eq_mod]
    omega
  rw [UInt32.toNat_add, UInt32.toNat_shiftRight, UInt32.toNat_and, UInt32.toNat_and]
  change ((s.toNat &&& 4294901760) >>> 16 + (s.toNat &&& 65535)) % 2 ^ 32 = _
  rw [hhigh, hlow]
  omega

lemma rawCksumReduce_toNat (s : UInt32) :
    (rawCksumReduce s).toNat = OnesComplement.fold 65535 s.toNat := by
  have hs := s.toNat_lt
  have hfirst := carry32_toNat s
  have hsecond := carry32_toNat (((s &&& 0xffff0000) >>> 16) + (s &&& 0xffff))
  rw [hfirst] at hsecond
  have hcarry : OnesComplement.fold 65535 (s.toNat % 65536 + s.toNat / 65536) =
      OnesComplement.fold 65535 s.toNat := OnesComplement.fold_carry (by decide) _
  rw [rawCksumReduce, UInt32.toNat_toUInt16, hsecond, ← hcarry, Nat.add_comm (s.toNat % 65536)]
  obtain ⟨c, hc⟩ : ∃ c, c = s.toNat / 65536 + s.toNat % 65536 := ⟨_, rfl⟩
  have hle : c ≤ 131070 := by omega
  rw [← hc, ← OnesComplement.fold_carry (by decide) c]
  rw [OnesComplement.fold_of_le (by omega)]
  omega

/-- The sum of the header is stored complemented, except that its zero is written 0xffff. -/
lemma rteIpv4Cksum_verifies (hlen : b.length ≤ 65535) (hk : 2 * k + 1 < b.length) :
    Verifies (setWord (setWord b k 0) k (rteIpv4Cksum (setWord b k 0))) := by
  obtain ⟨z, hz⟩ : ∃ z, z = setWord b k 0 := ⟨_, rfl⟩
  have hle : (words z).sum ≤ 32768 * 65535 := by
    rw [hz]
    exact words_sum_le (by rwa [setWord_length])
  have hraw : (rteRawCksum z).toNat = OnesComplement.fold 65535 (words z).sum := by
    rw [rteRawCksum, rawCksumReduce_toNat, rawCksumFrom_toNat, UInt32.toNat_zero, Nat.zero_add,
      Nat.mod_eq_of_lt (by omega)]
  rw [Verifies, OnesComplement.sum_eq_fold (by decide) words_le, words_sum_setWord hk, ← hz,
    rteIpv4Cksum]
  split_ifs with hmax
  · rw [hmax] at hraw ⊢
    obtain ⟨hpos, hdvd⟩ := (OnesComplement.fold_eq_max_iff (by decide)).mp hraw.symm
    rw [OnesComplement.fold_eq_max_iff (by decide)]
    exact ⟨by omega, Nat.dvd_add hdvd dvd_rfl⟩
  · have hnot : (~~~ rteRawCksum z).toNat = 65535 - (rteRawCksum z).toNat := UInt16.toNat_not _
    rw [hnot, hraw]
    exact OnesComplement.fold_add_complement (by decide) _

end Verify
end Twister
