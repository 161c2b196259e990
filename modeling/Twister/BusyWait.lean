import Twister.TimerFuncs

/-! The busy-wait sleeps. Each compares the first reading with a zero before it takes a
second one, so it only waits near the start of the clock. -/
namespace Twister

section Sleep
variable (tsc : ℕ → UInt64) (unit : UInt64)

/-- `while (curr_sleep - prev_sleep <= n)`; `i` is the number of the last reading, which
is what the loop returns. -/
def sleepLoop (n : UInt32) (prevSleep : UInt64) : ℕ → ℕ → UInt64 → Outcome ℕ
  | 0, _, _ => .timeout
  | fuel + 1, i, currSleep =>
    if currSleep - prevSleep ≤ n.toUInt64 then
      sleepLoop n prevSleep fuel (i + 1) (tsc (i + 1) / unit)
    else .ret i

/-- The three sleeps differ in the unit only. -/
def busyWait (n : UInt32) (fuel : ℕ) : Outcome ℕ :=
  if unit = 0 then .fault else sleepLoop tsc unit n (tsc 0 / unit) fuel 0 0

end Sleep

def twSleepMsec (vals : TimerVals) (tsc : ℕ → UInt64) (msec : UInt32) (fuel : ℕ) : Outcome ℕ :=
  busyWait tsc vals.oneMsec msec fuel
def twSleepUsec (vals : TimerVals) (tsc : ℕ → UInt64) (usec : UInt32) (fuel : ℕ) : Outcome ℕ :=
  busyWait tsc vals.oneUsec usec fuel
def twSleepNsec (vals : TimerVals) (tsc : ℕ → UInt64) (nsec : UInt32) (fuel : ℕ) : Outcome ℕ :=
  busyWait tsc vals.oneNsec nsec fuel

/-- A clock that does not go back and reaches every value. -/
structure Clock (tsc : ℕ → UInt64) : Prop where
  mono : ∀ i j, i ≤ j → tsc i ≤ tsc j
  grows : ∀ x, ∃ i, x ≤ tsc i

/-- Entered at the reading `first`, the sleep divides by no zero, returns only after `n`
units have passed, and does return once a clock shows one unit more. -/
structure SleepsFor (sleep : (ℕ → UInt64) → UInt32 → ℕ → Outcome ℕ) (unit : UInt64) (n : UInt32)
    (first : UInt64) : Prop where
  safe : ∀ tsc, Clock tsc → tsc 0 = first → ∀ fuel, sleep tsc n fuel ≠ .fault
  waits : ∀ tsc, Clock tsc → tsc 0 = first → ∀ fuel i, sleep tsc n fuel = .ret i →
    n.toNat * unit.toNat ≤ (tsc i).toNat - (tsc 0).toNat
  returns : ∀ tsc, Clock tsc → tsc 0 = first →
    ∀ j, (n.toNat + 1) * unit.toNat ≤ (tsc j).toNat - (tsc 0).toNat →
      ∃ fuel i, sleep tsc n fuel = .ret i

/-- There is a unit to count in, and there is nothing to wait for, or the first reading
is below one unit, or so close to the end of the range that the zero counts as later. -/
def CanWait (unit : UInt64) (n : UInt32) (first : UInt64) : Prop :=
  unit ≠ 0 ∧ (n = 0 ∨ first < unit ∨ 2 ^ 64 ≤ first.toNat / unit.toNat + n.toNat)

section Loop
variable {tsc : ℕ → UInt64} {unit prev curr first : UInt64} {n : UInt32} {fuel i j : ℕ}

lemma sleepLoop_ne_fault : sleepLoop tsc unit n prev fuel i curr ≠ .fault := by
  induction fuel generalizing i curr with
  | zero => simp [sleepLoop]
  | succ fuel ih =>
    rw [sleepLoop]
    split_ifs
    · exact ih
    · simp

/-- The loop ends at the first test or at a later reading that is past `n` units. -/
lemma sleepLoop_ret (h : sleepLoop tsc unit n prev fuel i curr = .ret j) :
    j = i ∧ n.toUInt64 < curr - prev ∨ n.toUInt64 < tsc j / unit - prev := by
  induction fuel generalizing i curr with
  | zero => simp [sleepLoop] at h
  | succ fuel ih =>
    rw [sleepLoop] at h
    split_ifs at h with hle
    · rcases ih h with ⟨rfl, hpast⟩ | hpast
      · exact Or.inr hpast
      · exact Or.inr hpast
    · obtain rfl : i = j := by simpa using h
      exact Or.inl ⟨rfl, UInt64.not_le.mp hle⟩

lemma sleepLoop_returns (hpast : n.toUInt64 < tsc j / unit - prev) {k : ℕ} (hj : i + k + 1 = j) :
    ∃ i', sleepLoop tsc unit n prev (k + 2) i curr = .ret i' := by
  induction k generalizing i curr with
  | zero =>
    subst hj
    rw [sleepLoop]
    split_ifs
    · exact ⟨i + 1, by rw [sleepLoop, if_neg (UInt64.not_le.mpr hpast)]⟩
    · exact ⟨i, rfl⟩
  | succ k ih =>
    rw [sleepLoop]
    split_ifs
    · exact ih (by omega)
    · exact ⟨i, rfl⟩

/-- Quotients more than `n` apart belong to readings more than `n` units apart. -/
lemma units_passed {a b u m : ℕ} (hu : 0 < u) (h : b / u + m < a / u) : m * u ≤ a - b := by
  have ha : (b / u + m + 1) * u ≤ a :=
    (Nat.mul_le_mul_right u h).trans (Nat.div_mul_le_self a u)
  have hb : b < (b / u + 1) * u := by
    rw [Nat.mul_comm]
    exact Nat.lt_mul_div_succ b hu
  have hsplit : (b / u + m + 1) * u = (b / u + 1) * u + m * u := by ring
  omega

lemma quotient_past {a b u m : ℕ} (hu : 0 < u) (h : (m + 1) * u ≤ a - b) :
    b / u + m < a / u := by
  have hb : b / u * u ≤ b := Nat.div_mul_le_self b u
  have hpos : 0 < (m + 1) * u := Nat.mul_pos (Nat.succ_pos m) hu
  have hsplit : (b / u + m + 1) * u = b / u * u + (m + 1) * u := by ring
  have hle : b / u + m + 1 ≤ a / u := (Nat.le_div_iff_mul_le hu).mpr (by omega)
  exact hle

lemma past_iff {later : UInt64} (hle : first ≤ later) :
    n.toUInt64 < later / unit - first / unit ↔
      first.toNat / unit.toNat + n.toNat < later.toNat / unit.toNat := by
  have hquot : first.toNat / unit.toNat ≤ later.toNat / unit.toNat :=
    Nat.div_le_div_right (UInt64.le_iff_toNat_le.mp hle)
  have hle' : first / unit ≤ later / unit := by
    rw [UInt64.le_iff_toNat_le, UInt64.toNat_div, UInt64.toNat_div]
    exact hquot
  rw [UInt64.lt_iff_toNat_lt, UInt64.toNat_sub_of_le _ _ hle', UInt64.toNat_div, UInt64.toNat_div]
  simp only [UInt32.toNat_toUInt64]
  omega

/-- The first test, before any second reading. -/
lemma leaves_at_once_iff (hu : unit ≠ 0) :
    n.toUInt64 < 0 - first / unit ↔
      ¬ (first < unit ∨ 2 ^ 64 ≤ first.toNat / unit.toNat + n.toNat) := by
  have hpos := toNat_pos_of_ne_zero hu
  have hn := n.toNat_lt
  have hf := first.toNat_lt
  have hquot := Nat.div_le_self first.toNat unit.toNat
  have hzero : first.toNat / unit.toNat = 0 ↔ first.toNat < unit.toNat :=
    Nat.div_eq_zero_iff_lt hpos
  rw [UInt64.lt_iff_toNat_lt, UInt64.lt_iff_toNat_lt, UInt64.toNat_sub, UInt64.toNat_div,
    UInt32.toNat_toUInt64]
  rw [UInt64.toNat_zero]
  generalize first.toNat / unit.toNat = q at *
  omega

/-- A clock that jumps to the end of its range after the first reading. -/
def jumpClock (first : UInt64) : ℕ → UInt64
  | 0 => first
  | _ + 1 => 18446744073709551615

lemma le_lastReading (x : UInt64) : x ≤ 18446744073709551615 := by
  have hx := x.toNat_lt
  rw [UInt64.le_iff_toNat_le]
  exact Nat.le_of_lt_succ hx

lemma jumpClock_clock (first : UInt64) : Clock (jumpClock first) where
  mono := by
    intro i j hij
    cases j with
    | zero =>
      obtain rfl : i = 0 := Nat.le_zero.mp hij
      exact UInt64.le_refl _
    | succ j => exact le_lastReading _
  grows := fun x => ⟨1, le_lastReading x⟩

lemma busyWait_sleepsFor (h : CanWait unit n first) :
    SleepsFor (fun tsc => busyWait tsc unit) unit n first := by
  obtain ⟨hu, hcan⟩ := h
  have hpos := toNat_pos_of_ne_zero hu
  constructor
  · intro tsc _ _ fuel
    simpa only [busyWait, if_neg hu] using sleepLoop_ne_fault
  · intro tsc hclock hfirst fuel i hret
    rw [busyWait, if_neg hu] at hret
    rcases sleepLoop_ret hret with ⟨rfl, honce⟩ | hpast
    · rw [hfirst, leaves_at_once_iff hu] at honce
      rcases hcan with rfl | hcan
      · simp
      · exact absurd hcan honce
    · exact units_passed hpos ((past_iff (hclock.mono 0 i (Nat.zero_le i))).mp hpast)
  · intro tsc hclock hfirst j hj
    obtain ⟨k, rfl⟩ : ∃ k, j = k + 1 := by
      refine Nat.exists_eq_succ_of_ne_zero fun h0 => ?_
      subst h0
      have hmul : 0 < (n.toNat + 1) * unit.toNat := Nat.mul_pos (Nat.succ_pos _) hpos
      omega
    have hpast := (past_iff (hclock.mono 0 (k + 1) (Nat.zero_le _))).mpr (quotient_past hpos hj)
    obtain ⟨i, hi⟩ : ∃ i, sleepLoop tsc unit n (tsc 0 / unit) (k + 2) 0 0 = .ret i :=
      sleepLoop_returns hpast (Nat.zero_add _ ▸ rfl)
    exact ⟨k + 2, i, by rw [busyWait, if_neg hu, hi]⟩

lemma canWait_of_sleepsFor (h : SleepsFor (fun tsc => busyWait tsc unit) unit n first) :
    CanWait unit n first := by
  have hu : unit ≠ 0 := by
    intro hu
    exact h.safe (jumpClock first) (jumpClock_clock first) rfl 1 (by simp [busyWait, hu])
  refine ⟨hu, ?_⟩
  by_contra hcannot
  rw [not_or] at hcannot
  have hret : busyWait (jumpClock first) unit n 1 = .ret 0 := by
    rw [busyWait, if_neg hu, sleepLoop]
    exact if_neg (UInt64.not_le.mpr ((leaves_at_once_iff hu).mpr hcannot.2))
  have hpos := toNat_pos_of_ne_zero hu
  have hn : 0 < n.toNat := Nat.pos_of_ne_zero fun he => hcannot.1 (UInt32.toNat_inj.mp he)
  have hmul : 0 < n.toNat * unit.toNat := Nat.mul_pos hn hpos
  have hwaited := h.waits (jumpClock first) (jumpClock_clock first) rfl 1 0 hret
  omega

end Loop

/-- Each sleep waits exactly when it can, by its unit and the clock value it is entered
at. -/
theorem sleeps_wait_iff (hz : UInt64) (n : UInt32) (first : UInt64) :
    (SleepsFor (twSleepMsec (twInitTimerVals hz)) (twInitTimerVals hz).oneMsec n first ↔
      CanWait (twInitTimerVals hz).oneMsec n first) ∧
    (SleepsFor (twSleepUsec (twInitTimerVals hz)) (twInitTimerVals hz).oneUsec n first ↔
      CanWait (twInitTimerVals hz).oneUsec n first) ∧
    (SleepsFor (twSleepNsec (twInitTimerVals hz)) (twInitTimerVals hz).oneNsec n first ↔
      CanWait (twInitTimerVals hz).oneNsec n first) :=
  ⟨⟨canWait_of_sleepsFor, busyWait_sleepsFor⟩, ⟨canWait_of_sleepsFor, busyWait_sleepsFor⟩,
    ⟨canWait_of_sleepsFor, busyWait_sleepsFor⟩⟩

/-- At 2 GHz and one second after the start a sleep of 100 ms returns at once. Below
1 GHz a nanosecond is no cycle at all, and the sleep divides by it. -/
theorem sleeps_do_not_wait :
    (¬ SleepsFor (twSleepMsec (twInitTimerVals 2000000000))
      (twInitTimerVals 2000000000).oneMsec 100 2000000000) ∧
    ∀ tsc n fuel, twSleepNsec (twInitTimerVals 999999999) tsc n fuel = .fault := by
  have hzero : (twInitTimerVals 999999999).oneNsec = 0 := by decide
  refine ⟨fun hwaits => ?_, fun tsc n fuel => ?_⟩
  · obtain ⟨-, hcan⟩ := canWait_of_sleepsFor hwaits
    revert hcan
    decide
  · rw [twSleepNsec, busyWait, if_pos hzero]

end Twister
