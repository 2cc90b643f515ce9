import TicketConnect.Injector.Install

/-!
# When no target is left attached

`inject_session` detaches on every way out that follows a successful `injector_seize`. But
`injector_seize` can fail after its `PTRACE_SEIZE` has succeeded, when the `PTRACE_INTERRUPT` or the
`waitpid` after it fails, and then nobody detaches: `released_iff` is the exact condition.
-/

namespace TicketConnect

open Lib

/-- A target to which no call has been made. -/
def Ptrace.fresh (x : Tracee) : Ptrace := ⟨x, [], 0, false⟩

/-- The target is not left attached: no `PTRACE_SEIZE` succeeded, or the target has died, or the
last call made to it is a `PTRACE_DETACH`. -/
def Ptrace.Released (k : Kernel) (s : Ptrace) : Prop :=
  (∀ options, ⟨.seize options, true⟩ ∉ s.reqs) ∨ s.died = true ∨ k.gone = true ∨
    ∃ g, s.reqs.getLast? = some ⟨.detach 0, g⟩

/-- The ways through `injector_seize`: the `PTRACE_SEIZE` fails; the `PTRACE_INTERRUPT` fails, and
the target runs on, traced; there is no report; the report is a death, or a stop. -/
inductive Seized (k : Kernel) (x : Tracee) : Int → Ptrace → Prop where
  | refused (h₀ : k.grant 0 = false) :
      Seized k x (-1) ⟨x, [⟨.seize ptraceOExitkill, false⟩], 0, false⟩
  | running (h₀ : k.grant 0 = true) (h₁ : k.grant 1 = false) :
      Seized k x (-1) ⟨x, [⟨.seize ptraceOExitkill, true⟩, ⟨.interrupt, false⟩], 0, false⟩
  | unreported (h₀ : k.grant 0 = true) (h₁ : k.grant 1 = true) (h₂ : k.grant 2 = false) :
      Seized k x (-1)
        ⟨x, [⟨.seize ptraceOExitkill, true⟩, ⟨.interrupt, true⟩, ⟨.wait, false⟩], 0, false⟩
  | dead (h₀ : k.grant 0 = true) (h₁ : k.grant 1 = true) (h₂ : k.grant 2 = true) :
      Seized k x (-1)
        ⟨x, [⟨.seize ptraceOExitkill, true⟩, ⟨.interrupt, true⟩, ⟨.wait, true⟩], 0, true⟩
  | stopped (h₀ : k.grant 0 = true) (h₁ : k.grant 1 = true) (h₂ : k.grant 2 = true) :
      Seized k x 0
        ⟨x, [⟨.seize ptraceOExitkill, true⟩, ⟨.interrupt, true⟩, ⟨.wait, true⟩], 0, false⟩

/-- `injector_seize` goes one of these ways. -/
theorem Kernel.injectorSeize_seized (k : Kernel) (x : Tracee) :
    Seized k x (k.injectorSeize (.fresh x)).1 (k.injectorSeize (.fresh x)).2 := by
  cases h₀ : k.grant 0 with
  | false =>
    simpa [Kernel.injectorSeize, Kernel.ask, Ptrace.fresh, Ptrace.record, h₀] using .refused h₀
  | true =>
  cases h₁ : k.grant 1 with
  | false =>
    simpa [Kernel.injectorSeize, Kernel.ask, Ptrace.fresh, Ptrace.record, h₀, h₁]
      using .running h₀ h₁
  | true =>
  cases h₂ : k.grant 2 with
  | false =>
    simpa [Kernel.injectorSeize, Kernel.ask, Kernel.wait, Ptrace.fresh, Ptrace.record, h₀, h₁, h₂]
      using .unreported h₀ h₁ h₂
  | true =>
  cases hr : k.report 0 with
  | exited | signaled =>
    simpa [Kernel.injectorSeize, Kernel.ask, Kernel.wait, Ptrace.fresh, Ptrace.record, Report.dead,
      h₀, h₁, h₂, hr] using .dead h₀ h₁ h₂
  | stopped =>
    simpa [Kernel.injectorSeize, Kernel.ask, Kernel.wait, Ptrace.fresh, Ptrace.record, Report.dead,
      h₀, h₁, h₂, hr] using .stopped h₀ h₁ h₂

/-- The last call of `injector_detach`. -/
theorem Kernel.injectorDetach_reqs (k : Kernel) (s : Ptrace) :
    ∃ g, (k.injectorDetach s).2.reqs = s.reqs ++ [⟨.detach 0, g⟩] := by
  unfold Kernel.injectorDetach Kernel.ask
  cases k.grant s.reqs.length
  all_goals exact ⟨_, rfl⟩

/-- **No target is left attached, exactly when `injector_seize` does not fail after its
`PTRACE_SEIZE`.** The calls are numbered from 0, so 1 is the `PTRACE_INTERRUPT` and 2 the `waitpid`
of `injector_seize`. -/
theorem released_iff (k : Kernel) (resolve : CString → CString → BitVec 64) (sslPtr : BitVec 64)
    (der : Nat → BitVec 8) (derLen : BitVec 64) (x : Tracee) :
    (injectSession (ptraceRemote k) resolve sslPtr der derLen (.fresh x)).2.Released k ↔
      (∃ f : ApiFn, resolve f.lib f.sym = 0) ∨ k.grant 0 = false ∨ k.gone = true ∨
        k.grant 1 = true ∧ k.grant 2 = true := by
  by_cases hr : ∃ f : ApiFn, resolve f.lib f.sym = 0
  · obtain ⟨f, hf⟩ := hr
    rw [injectSession_unresolved _ _ _ _ _ hf]
    exact iff_of_true (.inl (by simp [Ptrace.fresh])) (.inl ⟨f, hf⟩)
  have hr' : ∀ f : ApiFn, resolve f.lib f.sym ≠ 0 := fun f hf => hr ⟨f, hf⟩
  rw [or_iff_right hr]
  have hseize := k.injectorSeize_seized x
  rcases injectSession_ends (ptraceRemote k) resolve sslPtr der derLen hr' (.fresh x) with
    ⟨hne, hout⟩ | ⟨heq, s', hout⟩
  · rw [hout]
    dsimp only [ptraceRemote] at hne ⊢
    rcases hs : k.injectorSeize (.fresh x) with ⟨r, s⟩
    rw [hs] at hseize hne
    cases hseize with
    | refused h₀ => simp [Ptrace.Released, h₀]
    | running h₀ h₁ => simp [Ptrace.Released, h₀, h₁]
    | unreported h₀ h₁ h₂ => simp [Ptrace.Released, h₀, h₂]
    | dead h₀ h₁ h₂ => simp [Ptrace.Released, h₁, h₂]
    | stopped => exact absurd rfl hne
  · obtain ⟨g, hlast⟩ := k.injectorDetach_reqs s'
    have hreleased : (k.injectorDetach s').2.Released k :=
      .inr (.inr (.inr ⟨g, by rw [hlast, List.getLast?_append_cons]; rfl⟩))
    dsimp only [ptraceRemote] at heq
    rcases hs : k.injectorSeize (.fresh x) with ⟨r, s⟩
    rw [hs] at hseize heq
    rw [hout]
    cases hseize with
    | refused | running | unreported | dead => cases heq
    | stopped _ h₁ h₂ => exact iff_of_true hreleased (.inr (.inr ⟨h₁, h₂⟩))

/-- The `waitpid` of `injector_seize` is interrupted by a signal to the injector: `inject_session`
fails, and the target stays traced, with no call after that one. -/
theorem seize_strands_target :
    let k : Kernel := { Kernel.granting (fun _ x => x) (fun _ => .stopped 19 .signal) with
      grant := (· ≠ 2) }
    let out := injectSession (ptraceRemote k) (fun _ _ => 1) 0x900 (fun _ => 0) 5
      (.fresh sampleStopped.target)
    out.1 = -1 ∧ out.2.reqs =
      [⟨.seize ptraceOExitkill, true⟩, ⟨.interrupt, true⟩, ⟨.wait, false⟩] ∧
      ¬ out.2.Released k := by
  refine ⟨by decide, by decide, ?_⟩
  rintro (h | h | h | ⟨g, h⟩)
  · exact h ptraceOExitkill (by decide)
  · cases h
  · cases h
  · cases h

end TicketConnect
