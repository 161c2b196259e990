import Mathlib

/-! A pass over a list that keeps some elements and cuts out the others with a
predecessor pointer that never leaves the first kept element. Cutting out an element
then also drops everything between that first element and the one cut out. -/
namespace Twister
namespace RootSweep

variable {α : Type} (keep : α → Bool)

/-- `kept` is what is reachable in front of the element that is looked at. -/
def step (kept : List α) (x : α) : List α := if keep x then kept ++ [x] else kept.take 1

def sweep (kept xs : List α) : List α := xs.foldl (step keep) kept

/-- The elements that are to be kept but lie between an earlier kept element and a
later one to be cut out. -/
def stranded : Bool → List α → List α
  | _, [] => []
  | passed, x :: xs =>
    if keep x then
      if passed && xs.any (fun y => !keep y) then x :: stranded true xs else stranded true xs
    else stranded passed xs

lemma sweep_sublist (kept xs : List α) :
    (sweep keep kept xs).Sublist (kept ++ xs.filter keep) := by
  induction xs generalizing kept with
  | nil => simp [sweep]
  | cons x xs ih =>
    have hih := ih (step keep kept x)
    cases hx : keep x with
    | true =>
      rw [List.filter_cons_of_pos hx, List.append_cons]
      simpa [sweep, step, hx] using hih
    | false =>
      have hnx : ¬ keep x = true := by simp [hx]
      rw [List.filter_cons_of_neg hnx]
      have hcut : (sweep keep kept (x :: xs)).Sublist (kept.take 1 ++ xs.filter keep) := by
        simpa [sweep, step, hx] using hih
      exact hcut.trans ((List.take_sublist 1 kept).append (List.Sublist.refl _))

/-- Behind a first kept element `r` the pass loses exactly the stranded elements,
and `mid` as well if anything is cut out. -/
lemma sweep_length_cons (r : α) (mid xs : List α) :
    (sweep keep (r :: mid) xs).length + (stranded keep true xs).length +
        (if xs.any (fun y => !keep y) then mid.length else 0) =
      1 + mid.length + (xs.filter keep).length := by
  induction xs generalizing mid with
  | nil => simp [sweep, stranded]; omega
  | cons x xs ih =>
    cases hx : keep x with
    | true =>
      have hih := ih (mid ++ [x])
      have hs : sweep keep (r :: mid) (x :: xs) = sweep keep (r :: (mid ++ [x])) xs := by
        simp [sweep, step, hx]
      rw [hs]
      cases hany : xs.any fun y => !keep y with
      | true => simp [stranded, hx, hany] at hih ⊢; omega
      | false => simp [stranded, hx, hany] at hih ⊢; omega
    | false =>
      have hih := ih []
      have hs : sweep keep (r :: mid) (x :: xs) = sweep keep [r] xs := by simp [sweep, step, hx]
      rw [hs]
      simp [stranded, hx] at hih ⊢
      omega

theorem sweep_length (xs : List α) :
    (sweep keep [] xs).length + (stranded keep false xs).length = (xs.filter keep).length := by
  induction xs with
  | nil => rfl
  | cons x xs ih =>
    cases hx : keep x with
    | true =>
      have hs : sweep keep [] (x :: xs) = sweep keep [x] xs := by simp [sweep, step, hx]
      have hlen := sweep_length_cons keep x [] xs
      rw [hs]
      simp [stranded, hx] at hlen ⊢
      omega
    | false =>
      have hs : sweep keep [] (x :: xs) = sweep keep [] xs := by simp [sweep, step, hx]
      rw [hs]
      simpa [stranded, hx] using ih

/-- The pass is the filter exactly when it strands nothing. -/
theorem sweep_eq_filter_iff (xs : List α) :
    sweep keep [] xs = xs.filter keep ↔ stranded keep false xs = [] := by
  have hlen := sweep_length keep xs
  constructor
  · intro h
    rw [h] at hlen
    exact List.eq_nil_of_length_eq_zero (by omega)
  · intro h
    -- a sublist of the same length is the whole list
    rw [h] at hlen
    exact (sweep_sublist keep [] xs).eq_of_length (by simpa using hlen)

end RootSweep
end Twister
