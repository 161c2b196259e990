import Twister.Run

/-! A client and a server joined by two links that lose and reorder frames but copy none. Some
frames carry a token. The account of a run: every token that was sent has been reported, was lost
or is still on its way. -/
namespace Twister.Exchange

section Model
variable {σ ρ φ τ κ π α β γ : Type}

structure Net (σ ρ φ : Type) where
  client : σ
  server : ρ
  toServer : List φ
  toClient : List φ

/-- The client acts of its own accord, or the frame at some place of a link arrives or is lost. -/
inductive Op (α β γ : Type)
  | act (e : α)
  | serve (k : ℕ) (e : β)
  | answer (k : ℕ) (e : γ)
  | loseRequest (k : ℕ)
  | loseAnswer (k : ℕ)

/-- A client records what it sends and reports what comes back. -/
inductive Event (τ κ π : Type)
  | sent (x : κ)
  | reported (x : π)
  | lost (t : τ)

structure Peers (σ ρ φ κ π α β γ : Type) where
  act : α → σ → Outcome (σ × List φ × List κ)
  serve : β → ρ → φ → Outcome (ρ × List φ)
  answer : γ → σ → φ → Outcome (σ × List φ × List π)

def step (p : Peers σ ρ φ κ π α β γ) (token : φ → Option τ) (s : Net σ ρ φ) :
    Op α β γ → Outcome (Net σ ρ φ × List (Event τ κ π))
  | .act e => do
    let (client, fs, xs) ← p.act e s.client
    .ret ({ s with client, toServer := s.toServer ++ fs }, xs.map .sent)
  | .serve k e =>
    match s.toServer[k]? with
    | none => .ret (s, [])
    | some f => do
      let (server, fs) ← p.serve e s.server f
      .ret (⟨s.client, server, s.toServer.eraseIdx k, s.toClient ++ fs⟩, [])
  | .answer k e =>
    match s.toClient[k]? with
    | none => .ret (s, [])
    | some f => do
      let (client, fs, xs) ← p.answer e s.client f
      .ret (⟨client, s.server, s.toServer ++ fs, s.toClient.eraseIdx k⟩, xs.map .reported)
  | .loseRequest k =>
    match s.toServer[k]? with
    | none => .ret (s, [])
    | some f => .ret ({ s with toServer := s.toServer.eraseIdx k }, (token f).toList.map .lost)
  | .loseAnswer k =>
    match s.toClient[k]? with
    | none => .ret (s, [])
    | some f => .ret ({ s with toClient := s.toClient.eraseIdx k }, (token f).toList.map .lost)

namespace Event

def asSent : Event τ κ π → Option κ
  | .sent x => some x
  | _ => none

def asReported : Event τ κ π → Option π
  | .reported x => some x
  | _ => none

def asLost : Event τ κ π → Option τ
  | .lost t => some t
  | _ => none

end Event

def sentOf (es : List (Event τ κ π)) : List κ := es.filterMap Event.asSent
def reportedOf (es : List (Event τ κ π)) : List π := es.filterMap Event.asReported
def lostOf (es : List (Event τ κ π)) : List τ := es.filterMap Event.asLost

/-- The tokens of the frames on a link. -/
def tokens (token : φ → Option τ) (fs : List φ) : Multiset τ := ↑(fs.filterMap token)

end Model

section Client
variable {σ ρ φ τ κ π α β γ : Type} {p : Peers σ ρ φ κ π α β γ} {token : φ → Option τ}
  {s s' : Net σ ρ φ} {es : List (Event τ κ π)} {o : Op α β γ}

/-- What relates the client before and after each of its own calls does so for every step. -/
lemma step_client {R : σ → σ → Prop} (hrefl : ∀ c, R c c)
    (hact : ∀ e c c' fs xs, p.act e c = .ret (c', fs, xs) → R c c')
    (hanswer : ∀ e c f c' fs xs, p.answer e c f = .ret (c', fs, xs) → R c c')
    (h : step p token s o = .ret (s', es)) : R s.client s'.client := by
  cases o with
  | act e =>
    obtain ⟨⟨client, fs, xs⟩, hcall, h⟩ := Outcome.bind_eq_ret.mp h
    obtain ⟨rfl, -⟩ := Prod.mk.inj (Outcome.ret.inj h)
    exact hact e s.client client fs xs hcall
  | serve k e =>
    rw [step] at h
    split at h
    · obtain ⟨rfl, -⟩ := Prod.mk.inj (Outcome.ret.inj h)
      exact hrefl _
    · obtain ⟨⟨server, fs⟩, -, h⟩ := Outcome.bind_eq_ret.mp h
      obtain ⟨rfl, -⟩ := Prod.mk.inj (Outcome.ret.inj h)
      exact hrefl _
  | answer k e =>
    rw [step] at h
    split at h
    · obtain ⟨rfl, -⟩ := Prod.mk.inj (Outcome.ret.inj h)
      exact hrefl _
    · rename_i f hf
      obtain ⟨⟨client, fs, xs⟩, hcall, h⟩ := Outcome.bind_eq_ret.mp h
      obtain ⟨rfl, -⟩ := Prod.mk.inj (Outcome.ret.inj h)
      exact hanswer e s.client f client fs xs hcall
  | loseRequest k =>
    rw [step] at h
    split at h <;> obtain ⟨rfl, -⟩ := Prod.mk.inj (Outcome.ret.inj h) <;> exact hrefl _
  | loseAnswer k =>
    rw [step] at h
    split at h <;> obtain ⟨rfl, -⟩ := Prod.mk.inj (Outcome.ret.inj h) <;> exact hrefl _

end Client

section Events
variable {τ κ π : Type} {es es' : List (Event τ κ π)}

@[simp] lemma sentOf_append (es es' : List (Event τ κ π)) :
    sentOf (es ++ es') = sentOf es ++ sentOf es' := List.filterMap_append
@[simp] lemma reportedOf_append (es es' : List (Event τ κ π)) :
    reportedOf (es ++ es') = reportedOf es ++ reportedOf es' := List.filterMap_append
@[simp] lemma lostOf_append (es es' : List (Event τ κ π)) :
    lostOf (es ++ es') = lostOf es ++ lostOf es' := List.filterMap_append

variable (xs : List κ) (ys : List π) (ts : List τ)

@[simp] lemma sentOf_sent : sentOf (xs.map .sent : List (Event τ κ π)) = xs := by
  simp [sentOf, Function.comp_def, Event.asSent]
@[simp] lemma reportedOf_sent : reportedOf (xs.map .sent : List (Event τ κ π)) = [] := by
  simp [reportedOf, Event.asReported]
@[simp] lemma lostOf_sent : lostOf (xs.map .sent : List (Event τ κ π)) = [] := by
  simp [lostOf, Event.asLost]

@[simp] lemma sentOf_reported : sentOf (ys.map .reported : List (Event τ κ π)) = [] := by
  simp [sentOf, Event.asSent]
@[simp] lemma reportedOf_reported :
    reportedOf (ys.map .reported : List (Event τ κ π)) = ys := by
  simp [reportedOf, Function.comp_def, Event.asReported]
@[simp] lemma lostOf_reported : lostOf (ys.map .reported : List (Event τ κ π)) = [] := by
  simp [lostOf, Event.asLost]

@[simp] lemma sentOf_lost : sentOf (ts.map .lost : List (Event τ κ π)) = [] := by
  simp [sentOf, Event.asSent]
@[simp] lemma reportedOf_lost : reportedOf (ts.map .lost : List (Event τ κ π)) = [] := by
  simp [reportedOf, Event.asReported]
@[simp] lemma lostOf_lost : lostOf (ts.map .lost : List (Event τ κ π)) = ts := by
  simp [lostOf, Function.comp_def, Event.asLost]

/-- Every report is right for what had been sent before it. -/
def Reports (R : List κ → π → Prop) : List κ → List (Event τ κ π) → Prop
  | _, [] => True
  | sent, .sent x :: es => Reports R (sent ++ [x]) es
  | sent, .reported x :: es => R sent x ∧ Reports R sent es
  | sent, .lost _ :: es => Reports R sent es

variable {R : List κ → π → Prop} {sent : List κ}

lemma reports_append : Reports R sent (es ++ es') ↔
    Reports R sent es ∧ Reports R (sent ++ sentOf es) es' := by
  induction es generalizing sent with
  | nil => simp [Reports, sentOf]
  | cons e es ih =>
    cases e with
    | sent x =>
      have hsent : sentOf (.sent x :: es) = x :: sentOf es := by rfl
      simp [Reports, ih, hsent]
    | reported x =>
      have hsent : sentOf (.reported x :: es) = sentOf es := by rfl
      simp [Reports, ih, hsent, and_assoc]
    | lost t =>
      have hsent : sentOf (.lost t :: es) = sentOf es := by rfl
      simp [Reports, ih, hsent]

lemma reports_of_none (h : reportedOf es = []) : Reports R sent es := by
  induction es generalizing sent with
  | nil => trivial
  | cons e es ih =>
    cases e with
    | sent x => exact ih h
    | reported x => simp [reportedOf, Event.asReported] at h
    | lost t => exact ih h

lemma reports_reported {xs : List π} (h : ∀ x ∈ xs, R sent x) :
    Reports R sent (xs.map .reported : List (Event τ κ π)) := by
  induction xs with
  | nil => trivial
  | cons x xs ih =>
    exact ⟨h x List.mem_cons_self, ih fun y hy => h y (List.mem_cons_of_mem x hy)⟩

end Events

section Account
variable {σ ρ φ τ κ π α β γ : Type}

lemma tokens_append (token : φ → Option τ) (fs gs : List φ) :
    tokens token (fs ++ gs) = tokens token fs + tokens token gs := by
  simp [tokens]

lemma tokens_eraseIdx (token : φ → Option τ) {fs : List φ} {k : ℕ} {f : φ}
    (h : fs[k]? = some f) :
    tokens token fs = ↑(token f).toList + tokens token (fs.eraseIdx k) := by
  obtain ⟨hk, rfl⟩ := List.getElem?_eq_some_iff.mp h
  have hperm := (List.getElem_cons_eraseIdx_perm hk).symm.filterMap token
  rw [tokens, Multiset.coe_eq_coe.mpr hperm, List.filterMap_cons]
  cases token fs[k] <;> rfl

/-- What the two programs are to do, and when they can. -/
structure Spec (σ ρ φ τ κ π α β γ : Type) where
  token : φ → Option τ
  sentToken : κ → τ
  reportedToken : π → τ
  Client : σ → List κ → List π → Prop
  Server : ρ → Prop
  Request : φ → Prop
  Answer : φ → Prop
  Report : List κ → π → Prop
  CanAct : α → Prop
  CanServe : β → Prop
  CanAnswer : γ → Prop

variable {spec : Spec σ ρ φ τ κ π α β γ} {p : Peers σ ρ φ κ π α β γ}

def Spec.Can (spec : Spec σ ρ φ τ κ π α β γ) : Op α β γ → Prop
  | .act e => spec.CanAct e
  | .serve _ e => spec.CanServe e
  | .answer _ e => spec.CanAnswer e
  | _ => True

/-- Only the client makes tokens and only it takes them off the links. The server passes on the
token of what it receives. -/
structure Meets (p : Peers σ ρ φ κ π α β γ) (spec : Spec σ ρ φ τ κ π α β γ) : Prop where
  act : ∀ {c sent reported e}, spec.Client c sent reported → spec.CanAct e →
    ∃ c' fs xs, p.act e c = .ret (c', fs, xs) ∧ spec.Client c' (sent ++ xs) reported ∧
      (∀ f ∈ fs, spec.Request f) ∧ fs.filterMap spec.token = xs.map spec.sentToken
  serve : ∀ {r e f}, spec.Server r → spec.Request f → spec.CanServe e →
    ∃ r' fs, p.serve e r f = .ret (r', fs) ∧ spec.Server r' ∧ (∀ g ∈ fs, spec.Answer g) ∧
      fs.filterMap spec.token = (spec.token f).toList
  answer : ∀ {c sent reported e f}, spec.Client c sent reported → spec.Answer f →
    spec.CanAnswer e → ∃ c' fs xs, p.answer e c f = .ret (c', fs, xs) ∧
      spec.Client c' sent (reported ++ xs) ∧ (∀ g ∈ fs, spec.Request g) ∧
      fs.filterMap spec.token = [] ∧ xs.map spec.reportedToken = (spec.token f).toList ∧
      ∀ x ∈ xs, spec.Report sent x

structure Account (spec : Spec σ ρ φ τ κ π α β γ) (s : Net σ ρ φ) (es : List (Event τ κ π)) :
    Prop where
  client : spec.Client s.client (sentOf es) (reportedOf es)
  server : spec.Server s.server
  requests : ∀ f ∈ s.toServer, spec.Request f
  answers : ∀ f ∈ s.toClient, spec.Answer f
  balance : (↑((sentOf es).map spec.sentToken) : Multiset τ) =
    ↑((reportedOf es).map spec.reportedToken) + ↑(lostOf es) +
      (tokens spec.token s.toServer + tokens spec.token s.toClient)
  reports : Reports spec.Report [] es

variable {s : Net σ ρ φ} {es : List (Event τ κ π)}

lemma Account.act (h : Account spec s es) (hmeets : Meets p spec) {e : α} (he : spec.CanAct e) :
    ∃ s' es', step p spec.token s (.act e) = .ret (s', es') ∧ Account spec s' (es ++ es') := by
  obtain ⟨c, fs, xs, hact, hclient, hfs, htokens⟩ := hmeets.act h.client he
  refine ⟨_, _, by rw [step, hact]; rfl, ?_⟩
  refine ⟨?_, h.server, ?_, h.answers, ?_, ?_⟩
  · simpa using hclient
  · exact fun f hf => (List.mem_append.mp hf).elim (h.requests f) (hfs f)
  · have hnew : tokens spec.token fs = ↑(xs.map spec.sentToken) := by rw [tokens, htokens]
    simp only [sentOf_append, sentOf_sent, List.map_append, ← Multiset.coe_add, h.balance,
      reportedOf_append, reportedOf_sent, List.append_nil, lostOf_append, lostOf_sent,
      tokens_append, hnew]
    abel
  · exact reports_append.mpr ⟨h.reports, reports_of_none (reportedOf_sent xs)⟩

lemma Account.serve (h : Account spec s es) (hmeets : Meets p spec) (k : ℕ) {e : β}
    (he : spec.CanServe e) : ∃ s' es', step p spec.token s (.serve k e) = .ret (s', es') ∧
      Account spec s' (es ++ es') := by
  cases hf : s.toServer[k]? with
  | none => exact ⟨s, [], by simp only [step, hf], by rwa [List.append_nil]⟩
  | some f =>
    obtain ⟨r, fs, hserve, hserver, hfs, htokens⟩ :=
      hmeets.serve h.server (h.requests f (List.mem_of_getElem? hf)) he
    refine ⟨_, [], by simp only [step, hf, hserve, Outcome.ret_bind]; rfl, ?_⟩
    rw [List.append_nil]
    refine ⟨h.client, hserver, ?_, ?_, ?_, h.reports⟩
    · exact fun g hg => h.requests g (List.mem_of_mem_eraseIdx hg)
    · exact fun g hg => (List.mem_append.mp hg).elim (h.answers g) (hfs g)
    · have hnew : tokens spec.token fs = ↑(spec.token f).toList := by rw [tokens, htokens]
      simp only [h.balance, tokens_eraseIdx spec.token hf, tokens_append, hnew]
      abel

lemma Account.answer (h : Account spec s es) (hmeets : Meets p spec) (k : ℕ) {e : γ}
    (he : spec.CanAnswer e) : ∃ s' es', step p spec.token s (.answer k e) = .ret (s', es') ∧
      Account spec s' (es ++ es') := by
  cases hf : s.toClient[k]? with
  | none => exact ⟨s, [], by simp only [step, hf], by rwa [List.append_nil]⟩
  | some f =>
    obtain ⟨c, fs, xs, hanswer, hclient, hfs, hnone, htokens, hreport⟩ :=
      hmeets.answer h.client (h.answers f (List.mem_of_getElem? hf)) he
    refine ⟨_, _, by simp only [step, hf, hanswer, Outcome.ret_bind]; rfl, ?_⟩
    refine ⟨by simpa using hclient, h.server, ?_, ?_, ?_, ?_⟩
    · exact fun g hg => (List.mem_append.mp hg).elim (h.requests g) (hfs g)
    · exact fun g hg => h.answers g (List.mem_of_mem_eraseIdx hg)
    · have hnew : tokens spec.token fs = 0 := by rw [tokens, hnone]; rfl
      simp only [sentOf_append, sentOf_reported, List.append_nil, h.balance, reportedOf_append,
        reportedOf_reported, List.map_append, htokens, ← Multiset.coe_add, lostOf_append,
        lostOf_reported, tokens_append, hnew, tokens_eraseIdx spec.token hf]
      abel
    · exact reports_append.mpr ⟨h.reports, reports_reported (by simpa using hreport)⟩

lemma Account.loseRequest (h : Account spec s es) (p : Peers σ ρ φ κ π α β γ) (k : ℕ) :
    ∃ s' es', step p spec.token s (.loseRequest k) = .ret (s', es') ∧
      Account spec s' (es ++ es') := by
  cases hf : s.toServer[k]? with
  | none => exact ⟨s, [], by simp only [step, hf], by rwa [List.append_nil]⟩
  | some f =>
    refine ⟨_, _, by simp only [step, hf]; rfl, ?_⟩
    refine ⟨by simpa using h.client, h.server, ?_, h.answers, ?_,
      reports_append.mpr ⟨h.reports, reports_of_none (reportedOf_lost _)⟩⟩
    · exact fun g hg => h.requests g (List.mem_of_mem_eraseIdx hg)
    · simp only [sentOf_append, sentOf_lost, List.append_nil, h.balance, reportedOf_append,
        reportedOf_lost, lostOf_append, lostOf_lost, ← Multiset.coe_add,
        tokens_eraseIdx spec.token hf]
      abel

lemma Account.loseAnswer (h : Account spec s es) (p : Peers σ ρ φ κ π α β γ) (k : ℕ) :
    ∃ s' es', step p spec.token s (.loseAnswer k) = .ret (s', es') ∧
      Account spec s' (es ++ es') := by
  cases hf : s.toClient[k]? with
  | none => exact ⟨s, [], by simp only [step, hf], by rwa [List.append_nil]⟩
  | some f =>
    refine ⟨_, _, by simp only [step, hf]; rfl, ?_⟩
    refine ⟨by simpa using h.client, h.server, h.requests, ?_, ?_,
      reports_append.mpr ⟨h.reports, reports_of_none (reportedOf_lost _)⟩⟩
    · exact fun g hg => h.answers g (List.mem_of_mem_eraseIdx hg)
    · simp only [sentOf_append, sentOf_lost, List.append_nil, h.balance, reportedOf_append,
        reportedOf_lost, lostOf_append, lostOf_lost, ← Multiset.coe_add,
        tokens_eraseIdx spec.token hf]
      abel

lemma Account.start {c : σ} {r : ρ} (hclient : spec.Client c [] []) (hserver : spec.Server r) :
    Account spec ⟨c, r, [], []⟩ [] where
  client := hclient
  server := hserver
  requests _ h := absurd h List.not_mem_nil
  answers _ h := absurd h List.not_mem_nil
  balance := by rfl
  reports := trivial

/-- The account is right after every prefix of every run, and no call of the run gets stuck. -/
theorem Meets.throughout (hmeets : Meets p spec) {c : σ} {r : ρ} (hclient : spec.Client c [] [])
    (hserver : spec.Server r) {os : List (Op α β γ)} (hcan : ∀ o ∈ os, spec.Can o) :
    Throughout (step p spec.token) ⟨c, r, [], []⟩ (fun _ s es => Account spec s es) os := by
  intro pre hpre
  refine runOps_reaches (J := fun _ s es => Account spec s es) (L := fun _ _ o => spec.Can o)
    (C := fun _ _ => True) (Account.start hclient hserver) ?_
    (eachCall_of_forall fun o ho _ _ => hcan o ho) (fun _ _ _ _ _ _ _ => trivial) hpre
  intro os s es o h he _
  cases o with
  | act e => exact h.act hmeets he
  | serve k e => exact h.serve hmeets k he
  | answer k e => exact h.answer hmeets k he
  | loseRequest k => exact h.loseRequest p k
  | loseAnswer k => exact h.loseAnswer p k

end Account
end Twister.Exchange
