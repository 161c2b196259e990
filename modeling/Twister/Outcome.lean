import Mathlib

/-! Results of imperative code run with fuel. A call returns, ends the process
with a message, performs an invalid memory access, or runs out of fuel. -/
namespace Twister

inductive Outcome (α : Type)
  | ret (value : α)
  | exit (message : String)
  | fault
  | timeout
  deriving DecidableEq, Repr

namespace Outcome
variable {α β : Type}

def andThen (x : Outcome α) (f : α → Outcome β) : Outcome β :=
  match x with
  | .ret a => f a
  | .exit msg => .exit msg
  | .fault => .fault
  | .timeout => .timeout

instance : Monad Outcome where
  pure := .ret
  bind := andThen

instance : LawfulMonad Outcome := LawfulMonad.mk' Outcome
  (by intro α x; cases x <;> rfl) (by intros; rfl)
  (by intro α β γ x f g; cases x <;> rfl)

@[simp] lemma ret_bind (a : α) (f : α → Outcome β) : (Outcome.ret a >>= f) = f a := rfl
@[simp] lemma exit_bind (msg : String) (f : α → Outcome β) :
    (Outcome.exit msg >>= f) = .exit msg := rfl
@[simp] lemma fault_bind (f : α → Outcome β) : (Outcome.fault >>= f) = .fault := rfl
@[simp] lemma timeout_bind (f : α → Outcome β) : (Outcome.timeout >>= f) = .timeout := rfl
@[simp] lemma bind_ret (x : Outcome α) : (x >>= fun a => Outcome.ret a) = x := by
  cases x <;> rfl

/-- A call that returned did so through a returning first part. -/
lemma bind_eq_ret {x : Outcome α} {f : α → Outcome β} {b : β} :
    (x >>= f) = .ret b ↔ ∃ a, x = .ret a ∧ f a = .ret b := by
  cases x <;> simp

lemma exists_ret {γ : Type} {b : β} {c : γ} {P : β → γ → Prop} :
    (∃ b' c', ret (b, c) = ret (b', c') ∧ P b' c') ↔ P b c := by
  constructor
  · rintro ⟨_, _, ⟨⟩, hP⟩
    exact hP
  · exact fun hP => ⟨b, c, rfl, hP⟩

lemma exists_bind_ret {γ : Type} {x : Outcome α} {f : α → β × γ} {P : β → γ → Prop} :
    (∃ b c, (x >>= fun a => .ret (f a)) = .ret (b, c) ∧ P b c) ↔
      ∃ a, x = .ret a ∧ P (f a).1 (f a).2 := by
  constructor
  · rintro ⟨b, c, hx, hP⟩
    obtain ⟨a, ha, hf⟩ := bind_eq_ret.mp hx
    exact ⟨a, ha, by rwa [ret.inj hf]⟩
  · rintro ⟨a, ha, hP⟩
    exact ⟨_, _, bind_eq_ret.mpr ⟨a, ha, rfl⟩, hP⟩

lemma map_injective {f : α → β} (hf : Function.Injective f) {x y : Outcome α}
    (h : (x >>= fun a => ret (f a)) = y >>= fun a => ret (f a)) : x = y := by
  cases x <;> cases y <;> simp_all
  exact hf h

/-- The call returns, with a value that satisfies the postcondition. -/
def Returns (x : Outcome α) (Q : α → Prop) : Prop := ∃ a, x = ret a ∧ Q a

namespace Returns
variable {x : Outcome α} {f : α → Outcome β} {P : α → Prop} {Q : β → Prop}

lemma ret {a : α} (h : P a) : Returns (.ret a) P := ⟨a, rfl, h⟩

lemma bind (hx : Returns x P) (hf : ∀ a, x = .ret a → P a → Returns (f a) Q) :
    Returns (x >>= f) Q := by
  obtain ⟨a, ha, hP⟩ := hx
  rw [ha]
  exact hf a ha hP

lemma ite {c : Prop} [Decidable c] {y : Outcome α} (hx : c → Returns x P)
    (hy : ¬c → Returns y P) : Returns (if c then x else y) P := by
  split
  · exact hx ‹c›
  · exact hy ‹¬c›

lemma mono (hx : Returns x P) {P' : α → Prop} (h : ∀ a, x = .ret a → P a → P' a) :
    Returns x P' := by
  obtain ⟨a, ha, hP⟩ := hx
  exact ⟨a, ha, h a ha hP⟩

end Returns
end Outcome
end Twister
