import Mathlib

/-! Ones' complement arithmetic on words `0..m`: sums with end-around carry, and the word
a natural number folds to. -/
namespace Twister.OnesComplement

/-- Addition with the carry added back in. -/
def add (m x y : ℕ) : ℕ := (x + y) % (m + 1) + (x + y) / (m + 1)

def sum (m : ℕ) (xs : List ℕ) : ℕ := xs.foldl (add m) 0

/-- The word that represents `n` modulo `m`; only zero folds to zero. -/
def fold (m n : ℕ) : ℕ := if n = 0 then 0 else (n - 1) % m + 1

variable {m n x y : ℕ}

lemma carry_modEq (m n : ℕ) : n % (m + 1) + n / (m + 1) ≡ n [MOD m] := by
  have hsplit : n = n % (m + 1) + n / (m + 1) + m * (n / (m + 1)) := by
    have hdiv := Nat.mod_add_div n (m + 1)
    have hexpand : (m + 1) * (n / (m + 1)) = m * (n / (m + 1)) + n / (m + 1) := by ring
    omega
  rw [Nat.ModEq]
  nth_rewrite 3 [hsplit]
  rw [Nat.add_mul_mod_self_left]

lemma fold_modEq (m n : ℕ) : fold m n ≡ n [MOD m] := by
  unfold fold
  split_ifs with hn
  · rw [hn]
  · have hpred : (n - 1) % m + 1 ≡ n - 1 + 1 [MOD m] := (Nat.mod_modEq _ _).add_right 1
    rwa [Nat.sub_add_cancel (Nat.one_le_iff_ne_zero.mpr hn)] at hpred

lemma fold_eq_zero : fold m n = 0 ↔ n = 0 := by
  unfold fold
  split_ifs with hn <;> simp [hn]

lemma fold_le (hm : 0 < m) : fold m n ≤ m := by
  unfold fold
  split_ifs
  · exact Nat.zero_le m
  · exact Nat.mod_lt _ hm

/-- A word is determined by its residue and by whether it is zero. -/
lemma fold_unique (hx : x ≤ m) (hmod : x ≡ n [MOD m]) (hzero : x = 0 ↔ n = 0) :
    fold m n = x := by
  unfold fold
  split_ifs with hn
  · exact (hzero.mpr hn).symm
  · have hxpos : x ≠ 0 := fun hx0 => hn (hzero.mp hx0)
    have hpred : x - 1 ≡ n - 1 [MOD m] := by
      refine Nat.ModEq.add_right_cancel' 1 ?_
      rwa [Nat.sub_add_cancel (Nat.one_le_iff_ne_zero.mpr hxpos),
        Nat.sub_add_cancel (Nat.one_le_iff_ne_zero.mpr hn)]
    rw [← hpred, Nat.mod_eq_of_lt (by omega)]
    omega

lemma fold_of_le (hn : n ≤ m) : fold m n = n := fold_unique hn rfl Iff.rfl

lemma fold_congr (hm : 0 < m) {k : ℕ} (hmod : n ≡ k [MOD m]) (hzero : n = 0 ↔ k = 0) :
    fold m n = fold m k :=
  fold_unique (fold_le hm) ((fold_modEq m k).trans hmod.symm) (fold_eq_zero.trans hzero.symm)

lemma fold_eq_max_iff (hm : 0 < m) : fold m n = m ↔ n ≠ 0 ∧ m ∣ n := by
  constructor
  · intro hfold
    refine ⟨fun hn => hm.ne ((fold_eq_zero.mpr hn).symm.trans hfold), ?_⟩
    have hmod := (fold_modEq m n).symm
    rw [hfold] at hmod
    exact (Nat.modEq_zero_iff_dvd.mp (hmod.trans (Nat.modEq_zero_iff_dvd.mpr dvd_rfl)))
  · rintro ⟨hn, hdvd⟩
    refine fold_unique le_rfl ?_ (by omega)
    exact (Nat.modEq_zero_iff_dvd.mpr dvd_rfl).trans (Nat.modEq_zero_iff_dvd.mpr hdvd).symm

/-- One carry does not change what a number folds to. -/
lemma fold_carry (hm : 0 < m) (n : ℕ) : fold m (n % (m + 1) + n / (m + 1)) = fold m n := by
  refine fold_congr hm (carry_modEq m n) ⟨fun hzero => ?_, fun hn => by simp [hn]⟩
  obtain ⟨hmod, hquot⟩ := Nat.add_eq_zero_iff.mp hzero
  rw [← Nat.mod_add_div n (m + 1), hmod, hquot, Nat.mul_zero]

lemma add_eq_fold (hm : 0 < m) (hx : x ≤ m) (hy : y ≤ m) : add m x y = fold m (x + y) := by
  refine (fold_unique ?_ (carry_modEq m _) ?_).symm
  · have hle : (x + y) / (m + 1) ≤ 1 := by
      refine Nat.le_of_lt_succ (Nat.div_lt_of_lt_mul ?_)
      omega
    have hdiv := Nat.mod_add_div (x + y) (m + 1)
    have hlt : (x + y) % (m + 1) < m + 1 := Nat.mod_lt _ (Nat.succ_pos m)
    interval_cases hq : (x + y) / (m + 1)
    · omega
    · omega
  · constructor
    · intro hzero
      exact fold_eq_zero.mp ((fold_carry hm (x + y)).symm.trans (by rw [hzero]; rfl))
    · intro hzero
      rw [hzero]
      simp

lemma add_fold (hm : 0 < m) (hy : y ≤ m) : add m (fold m n) y = fold m (n + y) := by
  rw [add_eq_fold hm (fold_le hm) hy]
  refine fold_congr hm ((fold_modEq m n).add_right y) ?_
  have hzero : fold m n = 0 ↔ n = 0 := fold_eq_zero
  omega

/-- The ones' complement sum is what the plain sum folds to. -/
theorem sum_eq_fold (hm : 0 < m) {xs : List ℕ} (hxs : ∀ x ∈ xs, x ≤ m) :
    sum m xs = fold m xs.sum := by
  induction xs using List.reverseRecOn with
  | nil => rfl
  | append_singleton xs x ih =>
    have hrest := ih fun y hy => hxs y (List.mem_append_left _ hy)
    rw [sum, List.foldl_append, List.foldl_cons, List.foldl_nil, ← sum, hrest,
      add_fold hm (hxs x (by simp)), List.sum_append, List.sum_singleton]

/-- A number and the complement of its word fold to the largest word. -/
lemma fold_add_complement (hm : 0 < m) (n : ℕ) : fold m (n + (m - fold m n)) = m := by
  have hle := fold_le (n := n) hm
  have hzero : fold m n = 0 ↔ n = 0 := fold_eq_zero
  refine fold_unique le_rfl ?_ (by omega)
  have hsum : fold m n + (m - fold m n) ≡ n + (m - fold m n) [MOD m] :=
    (fold_modEq m n).add_right _
  rwa [Nat.add_sub_cancel' hle] at hsum

end Twister.OnesComplement
