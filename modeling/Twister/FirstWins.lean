import Mathlib

/-! Association lists in which the first binding of a key wins: a new binding is
appended when its key has none yet and dropped otherwise. -/
namespace Twister
namespace FirstWins

variable {κ β : Type} [DecidableEq κ] (key : β → κ)

def lookup (t : List β) (k : κ) : Option β := t.find? fun e => key e = k

def learn (t : List β) (e : β) : List β :=
  match lookup key t (key e) with
  | none => t ++ [e]
  | some _ => t

lemma learn_new {t : List β} {e : β} (h : lookup key t (key e) = none) :
    learn key t e = t ++ [e] := by simp [learn, h]

lemma learn_known {t : List β} {e b : β} (h : lookup key t (key e) = some b) :
    learn key t e = t := by simp [learn, h]

lemma lookup_eq_none {t : List β} {k : κ} : lookup key t k = none ↔ k ∉ t.map key := by
  simp [lookup, List.find?_eq_none]

lemma lookup_append (t t' : List β) (k : κ) :
    lookup key (t ++ t') k = (lookup key t k).or (lookup key t' k) := by
  simp [lookup, List.find?_append]

lemma lookup_learn (t : List β) (e : β) (k : κ) :
    lookup key (learn key t e) k = (lookup key t k).or (lookup key [e] k) := by
  cases h : lookup key t (key e) with
  | none => rw [learn_new key h, lookup_append]
  | some b =>
    rw [learn_known key h]
    by_cases hk : key e = k
    · rw [← hk, h, Option.some_or]
    · have hnone : lookup key [e] k = none := by simp [lookup, hk]
      rw [hnone, Option.or_none]

lemma learn_keys_nodup {t : List β} (e : β) (h : (t.map key).Nodup) :
    ((learn key t e).map key).Nodup := by
  cases hl : lookup key t (key e) with
  | none =>
    rw [learn_new key hl, List.map_append, List.map_singleton]
    exact List.nodup_append.mpr ⟨h, List.nodup_singleton _, fun a ha b hb hab => by
      rw [List.mem_singleton.mp hb] at hab
      exact (lookup_eq_none key).mp hl (hab ▸ ha)⟩
  | some b => rwa [learn_known key hl]

lemma mem_foldl_learn {es t : List β} {b : β} (h : b ∈ es.foldl (learn key) t) :
    b ∈ t ∨ b ∈ es := by
  induction es generalizing t with
  | nil => exact Or.inl h
  | cons e es ih =>
    have hstep : b ∈ learn key t e → b ∈ t ∨ b = e := by
      intro hb
      cases hl : lookup key t (key e) with
      | none => simpa [learn_new key hl] using hb
      | some x => exact Or.inl (learn_known key hl ▸ hb)
    rcases ih h with hb | hb
    · rcases hstep hb with hb | rfl
      · exact Or.inl hb
      · exact Or.inr (by simp)
    · exact Or.inr (by simp [hb])

/-- Learning a whole history answers every key with its first binding. -/
theorem lookup_foldl_learn (es t : List β) (k : κ) :
    lookup key (es.foldl (learn key) t) k = (lookup key t k).or (lookup key es k) := by
  induction es generalizing t with
  | nil => simp [lookup]
  | cons e es ih =>
    rw [List.foldl_cons, ih, lookup_learn, Option.or_assoc, ← lookup_append]
    rfl

theorem foldl_learn_keys_nodup (es : List β) {t : List β} (h : (t.map key).Nodup) :
    ((es.foldl (learn key) t).map key).Nodup := by
  induction es generalizing t with
  | nil => exact h
  | cons e es ih => exact ih (learn_keys_nodup key e h)

end FirstWins
end Twister
