import Twister.Outcome

/-! Runs of a fallible step function that emits events, and the rules by which a
property of one step becomes a property of every run. -/
namespace Twister

variable {σ ω ε : Type}

def runOps (step : σ → ω → Outcome (σ × List ε)) : σ → List ω → Outcome (σ × List ε)
  | s, [] => .ret (s, [])
  | s, o :: os => do
    let first ← step s o
    let rest ← runOps step first.1 os
    .ret (rest.1, first.2 ++ rest.2)

lemma runOps_append (step : σ → ω → Outcome (σ × List ε)) (s : σ) (os os' : List ω) :
    runOps step s (os ++ os') = (do
      let first ← runOps step s os
      let rest ← runOps step first.1 os'
      .ret (rest.1, first.2 ++ rest.2)) := by
  induction os generalizing s with
  | nil =>
    simp only [List.nil_append, runOps, Outcome.ret_bind]
    exact (Outcome.bind_ret _).symm
  | cons o os ih =>
    simp only [List.cons_append, runOps, ih, bind_assoc, Outcome.ret_bind, List.append_assoc]

lemma runOps_snoc {step : σ → ω → Outcome (σ × List ε)} {s s' : σ} {os : List ω} {es : List ε}
    (h : runOps step s os = .ret (s', es)) (o : ω) :
    runOps step s (os ++ [o]) = (do
      let last ← step s' o
      .ret (last.1, es ++ last.2)) := by
  rw [runOps_append, h, Outcome.ret_bind]
  simp only [runOps, bind_assoc, Outcome.ret_bind, List.append_nil]

/-- Two step functions that agree where an invariant of one holds have the same runs. -/
theorem runOps_congr {step step' : σ → ω → Outcome (σ × List ε)} {J : σ → Prop}
    (agree : ∀ s o, J s → step' s o = step s o)
    (keep : ∀ s o s' es, J s → step s o = .ret (s', es) → J s') {s₀ : σ} (init : J s₀)
    (os : List ω) : runOps step' s₀ os = runOps step s₀ os := by
  induction os generalizing s₀ with
  | nil => rfl
  | cons o os ih =>
    rw [runOps, runOps, agree s₀ o init]
    cases hfirst : step s₀ o with
    | ret first =>
      have hJ := keep s₀ o first.1 first.2 init hfirst
      rw [Outcome.ret_bind, Outcome.ret_bind, ih hJ]
    | exit msg => rfl
    | fault => rfl
    | timeout => rfl

/-- What holds at the start and is kept by every step holds after every run, and
no run gets stuck. The invariant may speak of the whole history. -/
theorem run_invariant {step : σ → ω → Outcome (σ × List ε)} {s₀ : σ}
    {J : List ω → σ → List ε → Prop} (init : J [] s₀ [])
    (keep : ∀ os s es o, J os s es → ∃ s' es', step s o = .ret (s', es') ∧
      J (os ++ [o]) s' (es ++ es')) (os : List ω) :
    ∃ s es, runOps step s₀ os = .ret (s, es) ∧ J os s es := by
  induction os using List.reverseRecOn with
  | nil => exact ⟨s₀, [], rfl, init⟩
  | append_singleton os o ih =>
    obtain ⟨s, es, hrun, hJ⟩ := ih
    obtain ⟨s', es', hstep, hJ'⟩ := keep os s es o hJ
    exact ⟨s', es ++ es', by rw [runOps_snoc hrun, hstep]; rfl, hJ'⟩

/-- As `run_invariant`, for steps that may end the process or fault, each for its
cause. -/
theorem run_invariant_or_stop {step : σ → ω → Outcome (σ × List ε)} {s₀ : σ}
    {J : List ω → σ → List ε → Prop} {msg : String} {Ends Faults : ω → Prop} (init : J [] s₀ [])
    {os : List ω} (keep : ∀ pre o, pre ++ [o] <+: os → ∀ s es, J pre s es →
      (∃ s' es', step s o = .ret (s', es') ∧ J (pre ++ [o]) s' (es ++ es')) ∨
        (step s o = .exit msg ∧ Ends o) ∨ (step s o = .fault ∧ Faults o)) :
    (∃ s es, runOps step s₀ os = .ret (s, es) ∧ J os s es) ∨
      (runOps step s₀ os = .exit msg ∧ ∃ o ∈ os, Ends o) ∨
      (runOps step s₀ os = .fault ∧ ∃ o ∈ os, Faults o) := by
  induction os using List.reverseRecOn with
  | nil => exact Or.inl ⟨s₀, [], rfl, init⟩
  | append_singleton os o ih =>
    rcases ih fun pre x hpre => keep pre x (hpre.trans (List.prefix_append os [o])) with
      ⟨s, es, hrun, hJ⟩ | ⟨hrun, x, hx, hc⟩ | ⟨hrun, x, hx, hc⟩
    · rcases keep os o List.prefix_rfl s es hJ with ⟨s', es', hs, hJ'⟩ | ⟨hs, hc⟩ | ⟨hs, hc⟩
      · exact Or.inl ⟨s', es ++ es', by rw [runOps_snoc hrun, hs]; rfl, hJ'⟩
      · exact Or.inr (Or.inl ⟨by rw [runOps_snoc hrun, hs]; rfl, o, by simp, hc⟩)
      · exact Or.inr (Or.inr ⟨by rw [runOps_snoc hrun, hs]; rfl, o, by simp, hc⟩)
    · exact Or.inr (Or.inl ⟨by rw [runOps_append, hrun]; rfl, x, by simp [hx], hc⟩)
    · exact Or.inr (Or.inr ⟨by rw [runOps_append, hrun]; rfl, x, by simp [hx], hc⟩)

/-- `P` holds after every prefix of the run. -/
def Throughout (step : σ → ω → Outcome (σ × List ε)) (s₀ : σ)
    (P : List ω → σ → List ε → Prop) (os : List ω) : Prop :=
  ∀ pre, pre <+: os → ∃ s es, runOps step s₀ pre = .ret (s, es) ∧ P pre s es

lemma throughout_of_invariant {step : σ → ω → Outcome (σ × List ε)} {s₀ : σ}
    {J P : List ω → σ → List ε → Prop} (init : J [] s₀ [])
    (keep : ∀ os s es o, J os s es → ∃ s' es', step s o = .ret (s', es') ∧
      J (os ++ [o]) s' (es ++ es')) (gives : ∀ os s es, J os s es → P os s es) (os : List ω) :
    Throughout step s₀ P os := by
  intro pre _
  obtain ⟨s, es, hrun, hJ⟩ := run_invariant init keep pre
  exact ⟨s, es, hrun, gives pre s es hJ⟩

/-- Every step of the run starts in a state in which `C` allows it. -/
def EachStep (step : σ → ω → Outcome (σ × List ε)) (s₀ : σ) (C : σ → ω → Prop)
    (os : List ω) : Prop :=
  ∀ pre o, pre ++ [o] <+: os → ∀ s es, runOps step s₀ pre = .ret (s, es) → C s o

/-- If from a good state exactly the steps allowed by `C` lead to a good state,
then the runs that stay good are exactly those whose steps `C` allows. -/
theorem throughout_iff_eachStep {step : σ → ω → Outcome (σ × List ε)} {s₀ : σ}
    {J P : List ω → σ → List ε → Prop} {C : σ → ω → Prop} (init : J [] s₀ [])
    (good : P [] s₀ [])
    (keep : ∀ os s es o, J os s es → ∃ s' es', step s o = .ret (s', es') ∧
      J (os ++ [o]) s' (es ++ es') ∧ (P os s es → (P (os ++ [o]) s' (es ++ es') ↔ C s o)))
    (os : List ω) : Throughout step s₀ P os ↔ EachStep step s₀ C os := by
  have hJ := run_invariant init fun os s es o h => by
    obtain ⟨s', es', hs, hj, -⟩ := keep os s es o h
    exact ⟨s', es', hs, hj⟩
  have last : ∀ pre o s es, runOps step s₀ pre = .ret (s, es) → P pre s es →
      ∃ s' es', runOps step s₀ (pre ++ [o]) = .ret (s', es') ∧ (P (pre ++ [o]) s' es' ↔ C s o) := by
    intro pre o s es hrun hP
    obtain ⟨t, ft, hrun', hj⟩ := hJ pre
    obtain ⟨rfl, rfl⟩ : t = s ∧ ft = es := by simpa [hrun] using hrun'.symm
    obtain ⟨s', es', hs, -, hiff⟩ := keep pre t ft o hj
    exact ⟨s', ft ++ es', by rw [runOps_snoc hrun, hs]; rfl, hiff hP⟩
  constructor
  · intro hall pre o hpre s es hrun
    obtain ⟨t, ft, hrun', hP⟩ := hall pre ((List.prefix_append pre [o]).trans hpre)
    obtain ⟨rfl, rfl⟩ : t = s ∧ ft = es := by simpa [hrun] using hrun'.symm
    obtain ⟨s', es', hnext, hiff⟩ := last pre o t ft hrun hP
    obtain ⟨u, fu, hrun'', hP'⟩ := hall (pre ++ [o]) hpre
    obtain ⟨rfl, rfl⟩ : u = s' ∧ fu = es' := by simpa [hnext] using hrun''.symm
    exact hiff.mp hP'
  · intro hC pre
    induction pre using List.reverseRecOn with
    | nil => exact fun _ => ⟨s₀, [], rfl, good⟩
    | append_singleton pre o ih =>
      intro hpre
      obtain ⟨s, es, hrun, hP⟩ := ih ((List.prefix_append pre [o]).trans hpre)
      obtain ⟨s', es', hnext, hiff⟩ := last pre o s es hrun hP
      exact ⟨s', es', hnext, hiff.mpr (hC pre o hpre s es hrun)⟩

/-- Every call of the run is made in a state and after a history that `L` allows. -/
def EachCall (step : σ → ω → Outcome (σ × List ε)) (s₀ : σ) (L : σ → List ε → ω → Prop)
    (os : List ω) : Prop :=
  ∀ pre o, pre ++ [o] <+: os → ∀ s es, runOps step s₀ pre = .ret (s, es) → L s es o

lemma eachCall_nil (step : σ → ω → Outcome (σ × List ε)) (s₀ : σ)
    (L : σ → List ε → ω → Prop) : EachCall step s₀ L [] := by
  intro pre o hpre
  simp at hpre

lemma eachCall_of_forall {step : σ → ω → Outcome (σ × List ε)} {s₀ : σ}
    {L : σ → List ε → ω → Prop} {os : List ω} (h : ∀ o ∈ os, ∀ s es, L s es o) :
    EachCall step s₀ L os := by
  intro pre o hpre s es _
  exact h o (hpre.subset (by simp)) s es

/-- The last call of a run need not return. -/
lemma eachCall_singleton {step : σ → ω → Outcome (σ × List ε)} {s₀ : σ}
    {L : σ → List ε → ω → Prop} {o : ω} (h : L s₀ [] o) : EachCall step s₀ L [o] := by
  intro pre x hpre s es hrun
  cases pre with
  | nil =>
    obtain ⟨rfl, rfl⟩ : s₀ = s ∧ [] = es := by simpa [runOps] using hrun
    obtain rfl : x = o := by simpa using hpre
    exact h
  | cons y pre => simp at hpre

/-- A run of calls checked from its first call on. -/
lemma eachCall_cons {step : σ → ω → Outcome (σ × List ε)} {s₀ s₁ : σ} {e₁ : List ε}
    {L : σ → List ε → ω → Prop} {o : ω} {os : List ω} (hstep : step s₀ o = .ret (s₁, e₁))
    (hfirst : L s₀ [] o) (hrest : EachCall step s₁ (fun s es => L s (e₁ ++ es)) os) :
    EachCall step s₀ L (o :: os) := by
  intro pre x hpre s es hrun
  cases pre with
  | nil =>
    obtain ⟨rfl, rfl⟩ : s₀ = s ∧ [] = es := by simpa [runOps] using hrun
    obtain rfl : x = o := by simpa using hpre
    exact hfirst
  | cons y pre =>
    obtain ⟨rfl, htail⟩ : y = o ∧ pre ++ [x] <+: os := by simpa using hpre
    rw [runOps, hstep, Outcome.ret_bind] at hrun
    obtain ⟨⟨t, ft⟩, hrun', hret⟩ := Outcome.bind_eq_ret.mp hrun
    obtain ⟨rfl, rfl⟩ : t = s ∧ e₁ ++ ft = es := by simpa using hret
    exact hrest pre x htail t ft hrun'

/-- Where allowed steps keep the invariant, it is reached as long as the steps are
allowed. -/
lemma runOps_reaches {step : σ → ω → Outcome (σ × List ε)} {s₀ : σ}
    {J : List ω → σ → List ε → Prop} {L : σ → List ε → ω → Prop} {C : σ → ω → Prop}
    (init : J [] s₀ [])
    (keep : ∀ os s es o, J os s es → L s es o → C s o →
      ∃ s' es', step s o = .ret (s', es') ∧ J (os ++ [o]) s' (es ++ es'))
    {os : List ω} (legal : EachCall step s₀ L os)
    (allowed : ∀ pre o s es, pre ++ [o] <+: os → runOps step s₀ pre = .ret (s, es) →
      J pre s es → C s o) {pre : List ω} (hpre : pre <+: os) :
    ∃ s es, runOps step s₀ pre = .ret (s, es) ∧ J pre s es := by
  induction pre using List.reverseRecOn with
  | nil => exact ⟨s₀, [], rfl, init⟩
  | append_singleton pre o ih =>
    obtain ⟨s, es, hrun, hJ⟩ := ih ((List.prefix_append pre [o]).trans hpre)
    obtain ⟨s', es', hs, hJ'⟩ := keep pre s es o hJ (legal pre o hpre s es hrun)
      (allowed pre o s es hpre hrun hJ)
    exact ⟨s', es ++ es', by rw [runOps_snoc hrun, hs]; rfl, hJ'⟩

/-- If a legal step allowed by `C` keeps the invariant, and one that is not allowed
never returns in a good state, then the runs that stay good are exactly those whose
steps `C` allows. Steps need not return. -/
theorem throughout_iff_of_invariant {step : σ → ω → Outcome (σ × List ε)} {s₀ : σ}
    {J P : List ω → σ → List ε → Prop} {L : σ → List ε → ω → Prop} {C : σ → ω → Prop}
    (init : J [] s₀ []) (gives : ∀ os s es, J os s es → P os s es)
    (keep : ∀ os s es o, J os s es → L s es o → C s o →
      ∃ s' es', step s o = .ret (s', es') ∧ J (os ++ [o]) s' (es ++ es'))
    (needs : ∀ os s es o, J os s es → L s es o → ∀ s' es', step s o = .ret (s', es') →
      P (os ++ [o]) s' (es ++ es') → C s o)
    {os : List ω} (legal : EachCall step s₀ L os) :
    Throughout step s₀ P os ↔ EachStep step s₀ C os := by
  constructor
  · intro hall
    have allowed : ∀ pre o s es, pre ++ [o] <+: os → runOps step s₀ pre = .ret (s, es) →
        J pre s es → C s o := by
      intro pre o s es hpre hrun hJ
      obtain ⟨u, fu, hnext, hP⟩ := hall (pre ++ [o]) hpre
      rw [runOps_snoc hrun] at hnext
      obtain ⟨⟨s', es'⟩, hs, he⟩ := Outcome.bind_eq_ret.mp hnext
      obtain ⟨rfl, rfl⟩ : s' = u ∧ es ++ es' = fu := by simpa using he
      exact needs pre s es o hJ (legal pre o hpre s es hrun) s' es' hs hP
    intro pre o hpre s es hrun
    obtain ⟨t, ft, hrun', hJ⟩ := runOps_reaches init keep legal allowed
      ((List.prefix_append pre [o]).trans hpre)
    obtain ⟨rfl, rfl⟩ : t = s ∧ ft = es := by simpa [hrun] using hrun'.symm
    exact allowed pre o t ft hpre hrun hJ
  · intro hC pre hpre
    obtain ⟨s, es, hrun, hJ⟩ := runOps_reaches init keep legal
      (fun pre o s es hpre hrun _ => hC pre o hpre s es hrun) hpre
    exact ⟨s, es, hrun, gives pre s es hJ⟩

/-- As `throughout_iff_eachStep`, for steps that need not return: from a good state a
legal step leads to a good state exactly if `C` allows it. -/
theorem throughout_iff_of_step {step : σ → ω → Outcome (σ × List ε)} {s₀ : σ}
    {P : List ω → σ → List ε → Prop} {L : σ → List ε → ω → Prop} {C : σ → ω → Prop}
    (good : P [] s₀ [])
    (keep : ∀ os s es o, P os s es → L s es o →
      ((∃ s' es', step s o = .ret (s', es') ∧ P (os ++ [o]) s' (es ++ es')) ↔ C s o))
    {os : List ω} (legal : EachCall step s₀ L os) :
    Throughout step s₀ P os ↔ EachStep step s₀ C os :=
  throughout_iff_of_invariant good (fun _ _ _ h => h)
    (fun os s es o hP hL hC => (keep os s es o hP hL).mpr hC)
    (fun os s es o hP hL s' es' hs hP' => (keep os s es o hP hL).mp ⟨s', es', hs, hP'⟩) legal

/-- `P` holds after every prefix of the run that returns. -/
def Always (step : σ → ω → Outcome (σ × List ε)) (s₀ : σ)
    (P : List ω → σ → List ε → Prop) (os : List ω) : Prop :=
  ∀ pre, pre <+: os → ∀ s es, runOps step s₀ pre = .ret (s, es) → P pre s es

/-- What every step of the run keeps if it returns. -/
theorem always_of_keep {step : σ → ω → Outcome (σ × List ε)} {s₀ : σ}
    {J : List ω → σ → List ε → Prop} {os : List ω} (init : J [] s₀ [])
    (keep : ∀ pre o, pre ++ [o] <+: os → ∀ s es, runOps step s₀ pre = .ret (s, es) → J pre s es →
      ∀ s' es', step s o = .ret (s', es') → J (pre ++ [o]) s' (es ++ es')) :
    Always step s₀ J os := by
  intro pre
  induction pre using List.reverseRecOn with
  | nil =>
    intro _ s es hrun
    obtain ⟨rfl, rfl⟩ : s₀ = s ∧ [] = es := by simpa [runOps] using hrun
    exact init
  | append_singleton pre o ih =>
    intro hpre s es hrun
    rw [runOps_append] at hrun
    obtain ⟨⟨t, ft⟩, hfirst, -⟩ := Outcome.bind_eq_ret.mp hrun
    rw [← runOps_append, runOps_snoc hfirst] at hrun
    obtain ⟨⟨s', es'⟩, hstep, he⟩ := Outcome.bind_eq_ret.mp hrun
    obtain ⟨rfl, rfl⟩ : s' = s ∧ ft ++ es' = es := by simpa using he
    exact keep pre o hpre t ft hfirst
      (ih ((List.prefix_append pre [o]).trans hpre) t ft hfirst) s' es' hstep

/-- If an allowed legal step keeps the invariant when it returns, and one that is not allowed
returns in a bad state, then the runs that are never bad are those whose calls are allowed. -/
theorem always_iff_eachCall {step : σ → ω → Outcome (σ × List ε)} {s₀ : σ}
    {J P : List ω → σ → List ε → Prop} {L C : σ → List ε → ω → Prop}
    (init : J [] s₀ []) (gives : ∀ os s es, J os s es → P os s es)
    (keep : ∀ os s es o, J os s es → L s es o → C s es o → ∀ s' es', step s o = .ret (s', es') →
      J (os ++ [o]) s' (es ++ es'))
    (breaks : ∀ os s es o, J os s es → L s es o → ¬ C s es o →
      ∃ s' es', step s o = .ret (s', es') ∧ ¬ P (os ++ [o]) s' (es ++ es'))
    {os : List ω} (legal : EachCall step s₀ L os) :
    Always step s₀ P os ↔ EachCall step s₀ C os := by
  constructor
  · intro hall
    have allowed : ∀ pre o, pre ++ [o] <+: os → ∀ s es, runOps step s₀ pre = .ret (s, es) →
        J pre s es → C s es o := by
      intro pre o hpre s es hrun hJ
      by_contra hnot
      obtain ⟨s', es', hstep, hbad⟩ := breaks pre s es o hJ (legal pre o hpre s es hrun) hnot
      refine hbad (hall (pre ++ [o]) hpre s' (es ++ es') ?_)
      rw [runOps_snoc hrun, hstep]
      rfl
    have hJ : Always step s₀ J os := always_of_keep init fun pre o hpre s es hrun hJ =>
      keep pre s es o hJ (legal pre o hpre s es hrun) (allowed pre o hpre s es hrun hJ)
    exact fun pre o hpre s es hrun => allowed pre o hpre s es hrun
      (hJ pre ((List.prefix_append pre [o]).trans hpre) s es hrun)
  · intro hC pre hpre s es hrun
    have hJ : Always step s₀ J os := always_of_keep init fun pre o hpre s es hrun hJ =>
      keep pre s es o hJ (legal pre o hpre s es hrun) (hC pre o hpre s es hrun)
    exact gives pre s es (hJ pre hpre s es hrun)

end Twister
