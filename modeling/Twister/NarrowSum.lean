import Mathlib

/-! Sums whose terms are computed in a narrower signed word than the sum: each term is
replaced by its balanced residue modulo `m`, the sum is kept modulo `m * k`. -/
namespace Twister.NarrowSum

variable {m k : ℕ} {x : ℤ} {xs : List ℤ}

def wrapped (m : ℕ) (xs : List ℤ) : ℤ := (xs.map fun x => x.bmod m).sum

/-- What the residues leave out, in units of `m`. -/
def lost (m : ℕ) (xs : List ℤ) : ℤ := (xs.map fun x => x.bdiv m).sum

lemma wrapped_snoc (m : ℕ) (xs : List ℤ) (x : ℤ) :
    wrapped m (xs ++ [x]) = wrapped m xs + x.bmod m := by
  simp [wrapped]

lemma wrapped_add_lost (m : ℕ) (xs : List ℤ) : wrapped m xs + m * lost m xs = xs.sum := by
  induction xs with
  | nil => rfl
  | cons x xs ih =>
    have hx := Int.bdiv_add_bmod x m
    simp only [wrapped, lost, List.map_cons, List.sum_cons] at ih ⊢
    linarith

/-- Modulo the narrow word nothing is lost. -/
lemma wrapped_modEq (m : ℕ) (xs : List ℤ) : wrapped m xs ≡ xs.sum [ZMOD m] := by
  rw [← wrapped_add_lost m xs]
  exact (Int.modEq_add_fac_self).symm

lemma bdiv_nonneg (hm : 0 < m) (hx : 0 ≤ x) : 0 ≤ x.bdiv m := by
  have hsplit := Int.bdiv_add_bmod x m
  have hlt := Int.bmod_lt (x := x) hm
  by_contra hneg
  have hle : (m : ℤ) * x.bdiv m ≤ m * (-1) :=
    mul_le_mul_of_nonneg_left (by omega) (Int.natCast_nonneg m)
  omega

lemma mul_bdiv_le (hm : 0 < m) (x : ℤ) : m * x.bdiv m ≤ x + m / 2 := by
  have hsplit := Int.bdiv_add_bmod x m
  have hle := Int.le_bmod (x := x) hm
  omega

/-- A term survives exactly if it fits the narrow word. -/
lemma bdiv_eq_zero_iff (hm : 0 < m) (hx : 0 ≤ x) : x.bdiv m = 0 ↔ x < (m + 1) / 2 := by
  have hsplit := Int.bdiv_add_bmod x m
  constructor
  · intro hzero
    have hlt := Int.bmod_lt (x := x) hm
    rw [hzero, mul_zero, zero_add] at hsplit
    rwa [hsplit] at hlt
  · intro hlt
    rw [Int.bmod_eq_of_le (by omega) hlt] at hsplit
    have hprod : (m : ℤ) * x.bdiv m = 0 := by linarith
    rcases mul_eq_zero.mp hprod with h | h
    · omega
    · exact h

lemma lost_nonneg (hm : 0 < m) (hxs : ∀ x ∈ xs, 0 ≤ x) : 0 ≤ lost m xs := by
  refine List.sum_nonneg fun q hq => ?_
  obtain ⟨x, hx, rfl⟩ := List.mem_map.mp hq
  exact bdiv_nonneg hm (hxs x hx)

lemma mul_lost_le (hm : 0 < m) (xs : List ℤ) :
    m * lost m xs ≤ xs.sum + xs.length * (m / 2 : ℤ) := by
  induction xs with
  | nil => simp [lost]
  | cons x xs ih =>
    have hx := mul_bdiv_le hm x
    simp only [lost, List.map_cons, List.sum_cons, List.length_cons, Nat.cast_add, Nat.cast_one]
      at ih ⊢
    linarith

lemma lost_eq_zero_iff (hm : 0 < m) (hxs : ∀ x ∈ xs, 0 ≤ x) :
    lost m xs = 0 ↔ ∀ x ∈ xs, x < (m + 1) / 2 := by
  induction xs with
  | nil => simp [lost]
  | cons x xs ih =>
    have hx := hxs x List.mem_cons_self
    have hrest : ∀ y ∈ xs, 0 ≤ y := fun y hy => hxs y (List.mem_cons_of_mem x hy)
    have hhead := bdiv_nonneg hm hx
    have htail := lost_nonneg hm hrest
    rw [List.forall_mem_cons, ← bdiv_eq_zero_iff hm hx, ← ih hrest]
    change x.bdiv m + lost m xs = 0 ↔ _
    omega

/-- The wide sum is right exactly if every term fits the narrow word. What is lost
is too small to be a multiple of the wide word. -/
theorem wrapped_modEq_iff (hm : 0 < m) (hxs : ∀ x ∈ xs, 0 ≤ x)
    (hfit : xs.sum + xs.length * (m / 2 : ℤ) < m * k) :
    wrapped m xs ≡ xs.sum [ZMOD m * k] ↔ ∀ x ∈ xs, x < (m + 1) / 2 := by
  rw [← lost_eq_zero_iff hm hxs, ← wrapped_add_lost m xs]
  have hmpos : (0 : ℤ) < m := by exact_mod_cast hm
  have hnonneg := lost_nonneg hm hxs
  have hlt : lost m xs < k := lt_of_mul_lt_mul_left ((mul_lost_le hm xs).trans_lt hfit) hmpos.le
  constructor
  · intro hmod
    -- what is lost is a multiple of `k` below `k`
    have hdvd : (m * k : ℤ) ∣ m * lost m xs := by
      simpa using Int.modEq_iff_dvd.mp hmod
    exact Int.eq_zero_of_dvd_of_nonneg_of_lt hnonneg hlt
      ((mul_dvd_mul_iff_left hmpos.ne').mp hdvd)
  · intro hzero
    rw [hzero, mul_zero, add_zero]

end Twister.NarrowSum
