import Twister.Outcome

/-! Elapsed time between two readings of the cycle counter. -/
namespace Twister

/-- `abs((curr - prev) / resolution)`: the quotient is cut to an `int`, whose absolute
value is widened again. -/
def timeDiff (currTimerFreq prevTimerFreq timerResolution : UInt64) : UInt64 :=
  ((currTimerFreq - prevTimerFreq) / timerResolution).toUInt32.toInt32.abs.toInt64.toUInt64

def twGetTimeDiff (currTimerFreq prevTimerFreq timerResolution : UInt64) : Outcome UInt64 :=
  if timerResolution = 0 then .fault
  else .ret (timeDiff currTimerFreq prevTimerFreq timerResolution)

lemma twGetTimeDiff_ret {r : UInt64} (hr : r ≠ 0) (curr prev : UInt64) :
    twGetTimeDiff curr prev r = .ret (timeDiff curr prev r) := if_neg hr

def twIsTimerExpired (currTimerFreq prevTimerFreq timerResolution timeLimit : UInt64) :
    Outcome UInt8 := do
  let timeDiff ← twGetTimeDiff currTimerFreq prevTimerFreq timerResolution
  if timeDiff < timeLimit then .ret 0 else .ret 1

/-- Cycles in each unit of time, set once at the start. -/
structure TimerVals where
  oneSec : UInt64
  oneMsec : UInt64
  oneUsec : UInt64
  oneNsec : UInt64
  deriving DecidableEq, Repr

/-- `hz` is the frequency the timer reports. -/
def twInitTimerVals (hz : UInt64) : TimerVals :=
  let oneSec := hz
  let oneMsec := oneSec / 1000
  let oneUsec := oneMsec / 1000
  let oneNsec := oneUsec / 1000
  ⟨oneSec, oneMsec, oneUsec, oneNsec⟩

def twIfTimeoutMillisec (vals : TimerVals) (currTimerCycles prevTimerCycles numMillisecs : UInt64) :
    Outcome UInt8 :=
  twIsTimerExpired currTimerCycles prevTimerCycles vals.oneMsec numMillisecs

section Exact
variable {first curr prev last r : UInt64}

/-- What the difference of two readings should be. -/
def elapsed (curr prev r : UInt64) : ℕ := Nat.dist curr.toNat prev.toNat / r.toNat

/-- Over the readings from `first` to `last` the time since `prev` is exact, a timer is
expired exactly when the time is up, and from `prev` on it stays so. -/
structure ExactBetween (first prev last r : UInt64) : Prop where
  diff : ∀ curr, first ≤ curr → curr ≤ last →
    twGetTimeDiff curr prev r = .ret (UInt64.ofNat (elapsed curr prev r))
  expired : ∀ curr limit, first ≤ curr → curr ≤ last →
    twIsTimerExpired curr prev r limit =
      .ret (if limit.toNat ≤ elapsed curr prev r then 1 else 0)
  stays : ∀ curr curr' limit, prev ≤ curr → curr ≤ curr' → curr' ≤ last →
    twIsTimerExpired curr prev r limit = .ret 1 → twIsTimerExpired curr' prev r limit = .ret 1

/-- The absolute value of the low half as an `int`. The smallest `int` has none and is
widened as it is. -/
def absLow (q : ℕ) : ℕ :=
  let low := q % 2 ^ 32
  if low < 2 ^ 31 then low else if low = 2 ^ 31 then 2 ^ 64 - 2 ^ 31 else 2 ^ 32 - low

lemma abs_cut_toNat (q : UInt64) :
    q.toUInt32.toInt32.abs.toInt64.toUInt64.toNat = absLow q.toNat := by
  have hbits : q.toUInt32.toInt32.abs.toInt64.toUInt64.toNat =
      ((q.toBitVec.setWidth 32).abs.signExtend 64).toNat := rfl
  have hlow : (q.toBitVec.setWidth 32).toNat = q.toNat % 2 ^ 32 := BitVec.toNat_setWidth 32 _
  rw [hbits, absLow, ← hlow]
  generalize q.toBitVec.setWidth 32 = b
  have hb := b.isLt
  have hmsb : b.msb = decide (2 ^ 31 ≤ b.toNat) := BitVec.msb_eq_decide b
  have habs : b.abs.toNat = if b.toNat < 2 ^ 31 then b.toNat else 2 ^ 32 - b.toNat := by
    rw [BitVec.toNat_abs, hmsb]
    simp only [decide_eq_true_eq]
    split_ifs <;> omega
  rw [BitVec.toNat_signExtend, BitVec.toNat_setWidth, BitVec.msb_eq_decide, habs]
  simp only [decide_eq_true_eq]
  split_ifs <;> omega

lemma timeDiff_toNat (curr prev r : UInt64) :
    (timeDiff curr prev r).toNat =
      absLow ((2 ^ 64 - prev.toNat + curr.toNat) % 2 ^ 64 / r.toNat) := by
  rw [timeDiff, abs_cut_toNat, UInt64.toNat_div, UInt64.toNat_sub]

lemma toNat_pos_of_ne_zero (hr : r ≠ 0) : 0 < r.toNat :=
  Nat.pos_of_ne_zero fun he => hr (UInt64.toNat_inj.mp he)

lemma elapsed_of_le (h : prev ≤ curr) :
    elapsed curr prev r = (curr.toNat - prev.toNat) / r.toNat := by
  rw [elapsed, Nat.dist_comm, Nat.dist_eq_sub_of_le (UInt64.le_iff_toNat_le.mp h)]

lemma elapsed_of_ge (h : curr ≤ prev) :
    elapsed curr prev r = (prev.toNat - curr.toNat) / r.toNat := by
  rw [elapsed, Nat.dist_eq_sub_of_le (UInt64.le_iff_toNat_le.mp h)]

lemma elapsed_lt (curr prev r : UInt64) : elapsed curr prev r < 2 ^ 64 := by
  have hc := curr.toNat_lt
  have hp := prev.toNat_lt
  have hdist : Nat.dist curr.toNat prev.toNat < 2 ^ 64 := by
    unfold Nat.dist
    omega
  exact lt_of_le_of_lt (Nat.div_le_self _ _) hdist

lemma elapsed_mono {curr' : UInt64} (h : prev ≤ curr) (h' : curr ≤ curr') :
    elapsed curr prev r ≤ elapsed curr' prev r := by
  rw [elapsed_of_le h, elapsed_of_le (UInt64.le_trans h h')]
  have hle := UInt64.le_iff_toNat_le.mp h'
  exact Nat.div_le_div_right (by omega)

lemma twGetTimeDiff_exact_iff (hr : r ≠ 0) :
    twGetTimeDiff curr prev r = .ret (UInt64.ofNat (elapsed curr prev r)) ↔
      (timeDiff curr prev r).toNat = elapsed curr prev r := by
  rw [twGetTimeDiff_ret hr, Outcome.ret.injEq, ← UInt64.toNat_inj, UInt64.toNat_ofNat',
    Nat.mod_eq_of_lt (elapsed_lt curr prev r)]

lemma twIsTimerExpired_exact (hr : r ≠ 0) (h : (timeDiff curr prev r).toNat = elapsed curr prev r)
    (limit : UInt64) :
    twIsTimerExpired curr prev r limit =
      .ret (if limit.toNat ≤ elapsed curr prev r then 1 else 0) := by
  have hiff : timeDiff curr prev r < limit ↔ ¬ limit.toNat ≤ elapsed curr prev r := by
    rw [UInt64.lt_iff_toNat_lt, h, Nat.not_le]
  rw [twIsTimerExpired, twGetTimeDiff_ret hr, Outcome.ret_bind]
  by_cases hle : limit.toNat ≤ elapsed curr prev r
  · rw [if_pos hle, if_neg fun hbad => hiff.mp hbad hle]
  · rw [if_neg hle, if_pos (hiff.mpr hle)]

/-- Behind `prev` the quotient is right, and an `int` holds it if it is small. -/
lemma quotient_after (h : prev ≤ curr) :
    (2 ^ 64 - prev.toNat + curr.toNat) % 2 ^ 64 / r.toNat = elapsed curr prev r := by
  have hc := curr.toNat_lt
  have hle := UInt64.le_iff_toNat_le.mp h
  rw [elapsed_of_le h]
  congr 1
  omega

lemma exact_after (h : prev ≤ curr) (hlt : elapsed curr prev r < 2 ^ 31) :
    (timeDiff curr prev r).toNat = elapsed curr prev r := by
  rw [timeDiff_toNat, quotient_after h, absLow]
  split_ifs <;> omega

/-- Ahead of the clock the difference wraps, and dropping the sign undoes that only where
nothing is divided. -/
lemma exact_before (h : curr ≤ prev) (hlt : elapsed curr prev 1 < 2 ^ 31) :
    (timeDiff curr prev 1).toNat = elapsed curr prev 1 := by
  have hp := prev.toNat_lt
  have hle := UInt64.le_iff_toNat_le.mp h
  rw [elapsed_of_ge h, UInt64.toNat_one, Nat.div_one] at hlt ⊢
  rw [timeDiff_toNat, UInt64.toNat_one, Nat.div_one, absLow]
  split_ifs <;> omega

/-- The low half of the largest count divided by a resolution is never zero. -/
lemma low_ne_zero {n : ℕ} (hpos : 0 < n) (hn : n < 2 ^ 64) : (2 ^ 64 - 1) / n % 2 ^ 32 ≠ 0 := by
  intro hzero
  obtain ⟨k, hk⟩ := Nat.dvd_of_mod_eq_zero hzero
  have hone : 1 ≤ (2 ^ 64 - 1) / n := (Nat.one_le_div_iff hpos).mpr (by omega)
  have hkpos : 1 ≤ k := by omega
  have hlow : 2 ^ 32 * k * n ≤ 2 ^ 64 - 1 := hk ▸ Nat.div_mul_le_self _ _
  have hhigh : 2 ^ 64 - 1 < n * (2 ^ 32 * k + 1) := hk ▸ Nat.lt_mul_div_succ _ hpos
  -- the product is at most 2^32 - 1, so the remainder has to fill 2^32
  have hkn : n ≤ k * n := Nat.le_mul_of_pos_left n hkpos
  have hl : 2 ^ 32 * (k * n) ≤ 2 ^ 64 - 1 := by linarith
  have hh : 2 ^ 64 - 1 < 2 ^ 32 * (k * n) + n := by linarith
  omega

lemma resolution_of_exact_before (hr : r ≠ 0) (hahead : curr.toNat + 1 = prev.toNat)
    (h : (timeDiff curr prev r).toNat = elapsed curr prev r) : r = 1 := by
  have hpos := toNat_pos_of_ne_zero hr
  by_contra hone
  have htwo : 2 ≤ r.toNat := by
    have hne : r.toNat ≠ 1 := fun he => hone (UInt64.toNat_inj.mp he)
    omega
  have hp := prev.toNat_lt
  have hle : curr ≤ prev := UInt64.le_iff_toNat_le.mpr (by omega)
  have hwrap : (2 ^ 64 - prev.toNat + curr.toNat) % 2 ^ 64 = 2 ^ 64 - 1 := by omega
  have hzero : elapsed curr prev r = 0 := by
    rw [elapsed_of_ge hle, Nat.div_eq_of_lt (by omega)]
  have hlow := low_ne_zero hpos r.toNat_lt
  rw [timeDiff_toNat, hwrap, hzero, absLow] at h
  split_ifs at h <;> omega

lemma exists_reading {n : ℕ} (hn : n < 2 ^ 64) : ∃ c : UInt64, c.toNat = n :=
  ⟨UInt64.ofNat n, by rw [UInt64.toNat_ofNat', Nat.mod_eq_of_lt hn]⟩

/-- The reading at which the quotient is the first that an `int` cannot hold. -/
lemma exists_first_cut (hr : r ≠ 0) (h : prev ≤ last) (hlong : 2 ^ 31 ≤ elapsed last prev r) :
    ∃ curr, prev ≤ curr ∧ curr ≤ last ∧ elapsed curr prev r = 2 ^ 31 := by
  have hpos := toNat_pos_of_ne_zero hr
  have hlast := last.toNat_lt
  rw [elapsed_of_le h, Nat.le_div_iff_mul_le hpos] at hlong
  obtain ⟨c, hc⟩ : ∃ c : UInt64, c.toNat = prev.toNat + 2 ^ 31 * r.toNat :=
    exists_reading (by omega)
  have hle : prev ≤ c := UInt64.le_iff_toNat_le.mpr (by omega)
  refine ⟨c, hle, UInt64.le_iff_toNat_le.mpr (by omega), ?_⟩
  rw [elapsed_of_le hle, hc, Nat.add_sub_cancel_left, Nat.mul_div_cancel _ hpos]

lemma short_of_exact (hr : r ≠ 0) (h : prev ≤ last)
    (hexact : ∀ curr, prev ≤ curr → curr ≤ last →
      (timeDiff curr prev r).toNat = elapsed curr prev r) : elapsed last prev r < 2 ^ 31 := by
  by_contra hlong
  obtain ⟨curr, hlo, hhi, hcut⟩ := exists_first_cut hr h (Nat.le_of_not_lt hlong)
  have hdiff := hexact curr hlo hhi
  rw [timeDiff_toNat, quotient_after hlo, hcut] at hdiff
  exact absurd hdiff (by decide)

lemma one_of_exact (hr : r ≠ 0) (h : first ≤ prev)
    (hexact : ∀ curr, first ≤ curr → curr ≤ prev →
      (timeDiff curr prev r).toNat = elapsed curr prev r) :
    first = prev ∨ r = 1 ∧ elapsed first prev r < 2 ^ 31 := by
  have hp := prev.toNat_lt
  have hle := UInt64.le_iff_toNat_le.mp h
  by_cases hsame : first = prev
  · exact Or.inl hsame
  have hlt : first.toNat < prev.toNat :=
    Nat.lt_of_le_of_ne hle fun he => hsame (UInt64.toNat_inj.mp he)
  -- the reading just before `prev` rules out every other resolution
  obtain ⟨c, hc⟩ : ∃ c : UInt64, c.toNat = prev.toNat - 1 := exists_reading (by omega)
  obtain rfl : r = 1 := resolution_of_exact_before hr (by omega) <|
    hexact c (UInt64.le_iff_toNat_le.mpr (by omega)) (UInt64.le_iff_toNat_le.mpr (by omega))
  refine Or.inr ⟨rfl, ?_⟩
  by_contra hlong
  rw [elapsed_of_ge h, UInt64.toNat_one, Nat.div_one] at hlong
  obtain ⟨d, hd⟩ : ∃ d : UInt64, d.toNat = prev.toNat - 2 ^ 31 := exists_reading (by omega)
  have hdp : d ≤ prev := UInt64.le_iff_toNat_le.mpr (by omega)
  have hdiff := hexact d (UInt64.le_iff_toNat_le.mpr (by omega)) hdp
  have hwrap : (2 ^ 64 - prev.toNat + d.toNat) % 2 ^ 64 = 2 ^ 64 - 2 ^ 31 := by omega
  have hdist : prev.toNat - d.toNat = 2 ^ 31 := by omega
  rw [timeDiff_toNat, hwrap, elapsed_of_ge hdp, hdist] at hdiff
  exact absurd hdiff (by decide)

/-- Elapsed time is exact if the readings behind `prev` are less than 2^31 units behind, and
none is ahead of it, or the unit is a single cycle and they are less than 2^31 ahead; and
otherwise it is not. -/
theorem timeDiff_exactBetween_iff (hr : r ≠ 0) (hfirst : first ≤ prev) (hlast : prev ≤ last) :
    ExactBetween first prev last r ↔
      elapsed last prev r < 2 ^ 31 ∧ (first = prev ∨ r = 1 ∧ elapsed first prev r < 2 ^ 31) := by
  constructor
  · intro h
    have hexact : ∀ curr, first ≤ curr → curr ≤ last →
        (timeDiff curr prev r).toNat = elapsed curr prev r := fun curr hlo hhi =>
      (twGetTimeDiff_exact_iff hr).mp (h.diff curr hlo hhi)
    exact ⟨short_of_exact hr hlast fun curr hlo => hexact curr (UInt64.le_trans hfirst hlo),
      one_of_exact hr hfirst fun curr hlo hhi => hexact curr hlo (UInt64.le_trans hhi hlast)⟩
  · rintro ⟨hshort, hahead⟩
    have hafter : ∀ curr, prev ≤ curr → curr ≤ last →
        (timeDiff curr prev r).toNat = elapsed curr prev r := fun curr hlo hhi =>
      exact_after hlo (lt_of_le_of_lt (elapsed_mono hlo hhi) hshort)
    have hexact : ∀ curr, first ≤ curr → curr ≤ last →
        (timeDiff curr prev r).toNat = elapsed curr prev r := by
      intro curr hlo hhi
      rcases UInt64.le_total prev curr with hle | hle
      · exact hafter curr hle hhi
      · rcases hahead with rfl | ⟨rfl, hnear⟩
        · exact hafter curr hlo hhi
        · refine exact_before hle (lt_of_le_of_lt ?_ hnear)
          have hlo' := UInt64.le_iff_toNat_le.mp hlo
          rw [elapsed_of_ge hle, elapsed_of_ge (UInt64.le_trans hlo hle)]
          exact Nat.div_le_div_right (by omega)
    refine ⟨fun curr hlo hhi => (twGetTimeDiff_exact_iff hr).mpr (hexact curr hlo hhi),
      fun curr limit hlo hhi => twIsTimerExpired_exact hr (hexact curr hlo hhi) limit,
      fun curr curr' limit hlo hle hhi hexp => ?_⟩
    rw [twIsTimerExpired_exact hr (hafter curr hlo (UInt64.le_trans hle hhi))] at hexp
    rw [twIsTimerExpired_exact hr (hafter curr' (UInt64.le_trans hlo hle) hhi)]
    by_cases hup : limit.toNat ≤ elapsed curr prev r
    · rw [if_pos (hup.trans (elapsed_mono hlo hle))]
    · rw [if_neg hup] at hexp
      cases hexp

/-- One second at a resolution of a microsecond and a clock of 2 GHz. -/
theorem timeDiff_exact_second : ExactBetween 5 5 2000000005 2000 :=
  (timeDiff_exactBetween_iff (by decide) (by decide) (by decide)).mpr (by decide)

/-- After 50 days the milliseconds no longer fit, and a timestamp one cycle ahead of the
clock counts as long ago. -/
theorem timeDiff_inexact :
    elapsed 8640000000000000 0 2000000 = 4320000000 ∧
      twGetTimeDiff 8640000000000000 0 2000000 = .ret 25032704 ∧
      twIsTimerExpired 8640000000000000 0 2000000 30000000 = .ret 0 ∧
      elapsed 0 1 2000000 = 0 ∧ twGetTimeDiff 0 1 2000000 ≠ .ret 0 ∧
      twIsTimerExpired 0 1 2000000 1000 = .ret 1 := by
  decide

end Exact
end Twister
