import TicketConnect.Injector.Attached

/-!
# What an injection leaves behind in the thread

The context `remote_call` saves and restores is the general registers and one word of code. A thread
has more state than that: its x87, SSE and AVX registers, which no call of the injector reads or
writes, and the signals that are on their way to it. While it is traced, a signal that is about to
be delivered stops the thread first, and the tracer decides with the signal it resumes it with: 0
discards the signal.

`World.thread` reads both off the calls that were made. The injector always resumes and detaches
with 0 (`injectSession_tracks`), so what it does not save is not preserved: `invisible_iff`.
-/

namespace TicketConnect

open Lib

/-! ## The rest of the thread -/

/-- The floating-point and vector registers of x86-64: x87 with its control, status and tag words,
and SSE and AVX with `mxcsr`. -/
structure VecRegs where
  st : Fin 8 → BitVec 80
  fctrl : BitVec 16
  fstat : BitVec 16
  ftag : BitVec 16
  ymm : Fin 16 → BitVec 256
  mxcsr : BitVec 32

/-- The kernel and the target, with what the target does to its vector registers when it is resumed
for the `n`-th time. -/
structure World where
  kernel : Kernel
  vec : Nat → VecRegs → VecRegs

/-- The signal whose delivery a report is about. -/
def Report.delivery : Report → Option Nat
  | .stopped sig .signal => some sig
  | .stopped _ .int3 | .stopped _ .event | .exited _ | .signaled _ => none

/-- A signal that stopped the thread on its delivery, and the signal the thread was resumed with
from there. -/
structure Fate where
  sig : Nat
  passed : Nat
deriving DecidableEq

/-- The thread beside its general registers: the vector registers, how often it was resumed, the
signal on whose delivery it is stopped, and what became of the signals before. -/
structure ThreadRest where
  vec : VecRegs
  resumes : Nat
  pending : Option Nat
  fates : List Fate

/-- The thread leaves its stop, with the signal `sig`. -/
def ThreadRest.leave (t : ThreadRest) (sig : Nat) : ThreadRest :=
  { t with pending := none, fates := t.fates ++ (t.pending.map (⟨·, sig⟩)).toList }

/-- What a call does to the thread: a `PTRACE_CONT` lets it run to its next stop, a `PTRACE_DETACH`
lets it go, every other call leaves it as it is. -/
def World.step (w : World) (t : ThreadRest) : Issued → ThreadRest
  | ⟨.cont sig, true⟩ =>
    { t.leave sig with
      vec := w.vec (t.resumes + 1) t.vec
      resumes := t.resumes + 1
      pending := (w.kernel.report (t.resumes + 1)).delivery }
  | ⟨.detach sig, true⟩ => t.leave sig
  | _ => t

/-- The thread after the calls of a log, from the stop at which it was seized. -/
def World.thread (w : World) (v : VecRegs) (log : List Issued) : ThreadRest :=
  log.foldl w.step ⟨v, 0, none, []⟩

/-- `SIGSTOP`. -/
def sigstop : Nat := 19

/-- The injection is invisible to the rest of the thread: once it is detached, every signal but
`SIGSTOP` was passed on to it, and its vector registers are those it was seized with. -/
def World.Invisible (w : World) (v : VecRegs) (log : List Issued) : Prop :=
  (∃ sig, ⟨.detach sig, true⟩ ∈ log) →
    (∀ f ∈ (w.thread v log).fates, f.sig ≠ sigstop → f.passed = f.sig) ∧ (w.thread v log).vec = v

/-! ## What every run keeps -/

/-- The call lets the thread leave its stop. -/
def Req.leaves : Req → Bool
  | .cont _ | .detach _ => true
  | _ => false

/-- A property of the tracer's state that every call keeps, where the thread is resumed and detached
with no signal. -/
structure Kernel.Keeps (k : Kernel) (I : Ptrace → Prop) : Prop where
  call : ∀ (s : Ptrace) (req : Req) (g : Bool) (x : Tracee) (died : Bool), req.leaves = false →
    I s → I { s.record req g with target := x, died := died }
  refused : ∀ s, I s → I (s.record (.cont 0) false)
  resumed : ∀ s, I s → I (k.resumed s)
  detach : ∀ s g, I s → I (s.record (.detach 0) g)

section Keeps
variable {k : Kernel} {I : Ptrace → Prop} {s s' : Ptrace}

/-- A call that is recorded, and nothing else. -/
theorem Kernel.Keeps.record (hk : k.Keeps I) {req : Req} (hreq : req.leaves = false) (g : Bool)
    (h : I s) : I (s.record req g) :=
  hk.call s req g s.target s.died hreq h

/-- A call that changes nothing in the target. -/
theorem Kernel.Keeps.ask (hk : k.Keeps I) {req : Req} {g : Bool} (hask : k.ask req s = (g, s'))
    (hreq : req.leaves = false) (h : I s) : I s' := by
  cases hask
  exact hk.record hreq _ h

/-- A call that changes the target. -/
theorem Kernel.Keeps.act (hk : k.Keeps I) {req : Req} {effect : Ptrace → Ptrace} {g : Bool}
    (hact : k.act req effect s = (g, s')) (hreq : req.leaves = false)
    (heffect : ∀ y : Ptrace, ∃ x, effect y = { y with target := x }) (h : I s) : I s' := by
  cases g with
  | true =>
    obtain ⟨x, hx⟩ := heffect (s.record req true)
    rw [Kernel.act_true hact, hx]
    exact hk.call s req true x s.died hreq h
  | false =>
    rw [Kernel.act_false hact]
    exact hk.record hreq false h

/-- A round of the wait loop. -/
theorem Kernel.Keeps.round (hk : k.Keeps I) {r : Option LoopExit} (hr : Round k s r s')
    (h : I s) : I s' := by
  cases hr with
  | refused => exact hk.refused s h
  | unreported => exact hk.record rfl false (hk.resumed s h)
  | dead => exact hk.call _ .wait true (k.resumed s).target true rfl (hk.resumed s h)
  | trapped | spurious => exact hk.record rfl true (hk.resumed s h)

/-- The wait loop. -/
theorem Kernel.Keeps.rounds (hk : k.Keeps I) {left : Nat} {e : LoopExit}
    (hl : Rounds k left s e s') (h : I s) : I s' := by
  induction hl with
  | exit hr | stuck hr => exact hk.round hr h
  | again hr _ ih => exact ih (hk.round hr h)

/-- `poke_byte`. -/
theorem Kernel.Keeps.pokeByte (hk : k.Keeps I) {addr : BitVec 64} {value : BitVec 8}
    {r : Option (BitVec 64)} (hp : k.pokeByte addr value s = (r, s')) (h : I s) : I s' := by
  unfold Kernel.pokeByte at hp
  split at hp
  next word errno s₁ hpeek =>
  have h₁ : I s₁ := by
    rw [(Kernel.peekText_eq hpeek).1]
    exact hk.record rfl _ h
  split at hp
  · cases hp
    exact h₁
  dsimp only at hp
  split at hp
  next hpoke => cases hp; exact hk.act hpoke rfl (fun _ => ⟨_, rfl⟩) h₁
  next hpoke => cases hp; exact hk.act hpoke rfl (fun _ => ⟨_, rfl⟩) h₁

/-- `restore:`. -/
theorem Kernel.Keeps.restore (hk : k.Keeps I) (trap word : BitVec 64) (saved : Regs) (h : I s) :
    I (k.restore trap word saved s) := by
  unfold Kernel.restore
  split
  next g s₁ hp =>
  split
  next g' s₂ hr =>
  exact hk.act hr rfl (fun _ => ⟨_, rfl⟩) (hk.act hp rfl (fun _ => ⟨_, rfl⟩) h)

/-- `remote_call`. -/
theorem Kernel.Keeps.remoteCall (hk : k.Keeps I) (func : BitVec 64) (a : CallArgs) (h : I s) :
    I (remoteCall k func a s).state := by
  unfold TicketConnect.remoteCall
  split
  next s₁ hg =>
    rw [(Kernel.getRegs_eq hg).1]
    exact hk.record rfl _ h
  next saved s₁ hg =>
  have h₁ : I s₁ := by
    rw [(Kernel.getRegs_eq hg).1]
    exact hk.record rfl _ h
  dsimp only
  split
  next s₂ hb => exact hk.pokeByte hb h₁
  next word s₂ hb =>
  have h₂ := hk.pokeByte hb h₁
  split
  next s₃ hd => exact hk.restore _ _ _ (hk.act hd rfl (fun _ => ⟨_, rfl⟩) h₂)
  next s₃ hd =>
  have h₃ := hk.act hd rfl (fun _ => ⟨_, rfl⟩) h₂
  split
  next s₄ hr => exact hk.restore _ _ _ (hk.act hr rfl (fun _ => ⟨_, rfl⟩) h₃)
  next s₄ hr =>
  have h₄ := hk.act hr rfl (fun _ => ⟨_, rfl⟩) h₃
  split
  next s₅ hl => exact hk.restore _ _ _ (hk.rounds (Kernel.waitLoop_rounds hl) h₄)
  next s₅ hl => exact hk.rounds (Kernel.waitLoop_rounds hl) h₄
  next cause s₅ hl =>
  have h₅ := hk.rounds (Kernel.waitLoop_rounds hl) h₄
  split
  next s₆ hg' =>
    rw [(Kernel.getRegs_eq hg').1]
    exact hk.restore _ _ _ (hk.record rfl _ h₅)
  next after s₆ hg' =>
    rw [(Kernel.getRegs_eq hg').1]
    exact hk.restore _ _ _ (hk.record rfl _ h₅)

/-- `injector_seize`. -/
theorem Kernel.Keeps.injectorSeize (hk : k.Keeps I) (h : I s) : I (k.injectorSeize s).2 := by
  unfold Kernel.injectorSeize
  split
  next hz => exact hk.ask hz rfl h
  next s₁ hz =>
  have h₁ := hk.ask hz rfl h
  split
  next hn => exact hk.ask hn rfl h₁
  next s₂ hn =>
  have h₂ := hk.ask hn rfl h₁
  split
  next hw => rw [Kernel.wait_none hw]; exact hk.record rfl false h₂
  next hw => rw [(Kernel.wait_stopped hw).2]; exact hk.record rfl true h₂
  next hw => rw [(Kernel.wait_some hw).2]; exact hk.call s₂ .wait true s₂.target _ rfl h₂

/-- `write_mem`. -/
theorem Kernel.Keeps.writeMem (hk : k.Keeps I) (dst : BitVec 64) (buf : Nat → BitVec 8)
    (n : BitVec 64) (h : I s) : I (k.writeMem dst buf n s).2 := by
  unfold Kernel.writeMem Kernel.processVmWritev Kernel.ask
  cases k.grant s.reqs.length with
  | false => exact hk.record rfl false h
  | true =>
    dsimp only
    split_ifs
    · exact hk.record rfl true h
    · exact hk.call s (.writev dst n) true _ s.died rfl h

/-- `injector_detach`. -/
theorem Kernel.Keeps.injectorDetach (hk : k.Keeps I) (h : I s) : I (k.injectorDetach s).2 := by
  unfold Kernel.injectorDetach Kernel.ask
  cases k.grant s.reqs.length
  all_goals exact hk.detach s _ h

/-- **What every call keeps, `inject_session` keeps.** -/
theorem Kernel.Keeps.injectSession (hk : k.Keeps I) (resolve : CString → CString → BitVec 64)
    (sslPtr : BitVec 64) (der : Nat → BitVec 8) (derLen : BitVec 64) (h : I s) :
    I (injectSession (ptraceRemote k) resolve sslPtr der derLen s).2 := by
  apply injectSession_inv (R := ptraceRemote k)
  · intro _ func args s hs
    exact hk.remoteCall func args hs
  · intro dst buf n s hs
    exact hk.writeMem dst buf n hs
  · intro s hs
    exact hk.injectorSeize hs
  · intro s hs
    exact hk.injectorDetach hs
  · exact h

end Keeps

/-! ## The thread along a run -/

section Thread
variable (w : World) (v : VecRegs)

/-- A call that does not let the thread leave its stop. -/
theorem World.step_of_leaves {req : Req} (h : req.leaves = false) (t : ThreadRest) (g : Bool) :
    w.step t ⟨req, g⟩ = t := by
  cases req with
  | cont | detach => cases h
  | _ => rfl

/-- One more call. -/
theorem World.thread_append (log : List Issued) (i : Issued) :
    w.thread v (log ++ [i]) = w.step (w.thread v log) i := by
  rw [World.thread, List.foldl_append]
  rfl

/-- Only the calls with which the thread leaves a stop matter to it. -/
theorem World.thread_filter (log : List Issued) :
    w.thread v (log.filter (·.req.leaves)) = w.thread v log := by
  induction log using List.reverseRecOn with
  | nil => rfl
  | append_singleton log i ih =>
    rw [List.filter_append, w.thread_append]
    cases hi : i.req.leaves with
    | true => rw [List.filter_singleton, hi, ← ih]; exact w.thread_append v _ i
    | false =>
      rw [List.filter_singleton, hi, w.step_of_leaves hi]
      simpa using ih

/-- A thread that leaves its stop settles what becomes of the signal it is stopped on. -/
theorem ThreadRest.forall_mem_leave {t : ThreadRest} {passed : Nat} {P : Fate → Prop}
    (hpending : ∀ sig ∈ t.pending, P ⟨sig, passed⟩) (hfates : ∀ f ∈ t.fates, P f) :
    ∀ f ∈ (t.leave passed).fates, P f := by
  intro f hf
  rcases List.mem_append.1 hf with hf | hf
  · exact hfates f hf
  · obtain ⟨sig, hsig, rfl⟩ := Option.map_eq_some_iff.1 (Option.mem_toList.1 hf)
    exact hpending sig hsig

/-- The thread read off the calls is the one the tracer has: it was resumed as often, and every
signal that stopped it was discarded. -/
structure World.Tracks (s : Ptrace) : Prop where
  resumes : (w.thread v s.reqs).resumes = s.resumes
  discards : ∀ f ∈ (w.thread v s.reqs).fates, f.passed = 0

variable {w v}

/-- A call that changes nothing in the thread. -/
theorem World.Tracks.of_step {s s' : Ptrace} (h : w.Tracks v s) {i : Issued}
    (hreqs : s'.reqs = s.reqs ++ [i]) (hresumes : s'.resumes = s.resumes)
    (hstep : w.step (w.thread v s.reqs) i = w.thread v s.reqs) : w.Tracks v s' := by
  have heq : w.thread v s'.reqs = w.thread v s.reqs := by
    rw [hreqs, w.thread_append, hstep]
  refine ⟨?_, heq ▸ h.discards⟩
  rw [heq, hresumes]
  exact h.resumes

variable (w v)

/-- Every call of the injector keeps this. -/
theorem World.keeps_tracks : w.kernel.Keeps (w.Tracks v) where
  call s req g x died hreq h := h.of_step (i := ⟨req, g⟩) rfl rfl (w.step_of_leaves hreq _ g)
  refused s h := h.of_step (i := ⟨.cont 0, false⟩) rfl rfl rfl
  resumed s h := by
    constructor
    · rw [Kernel.resumed_reqs, w.thread_append, Kernel.resumed_resumes, ← h.resumes]
      rfl
    · rw [Kernel.resumed_reqs, w.thread_append]
      exact ThreadRest.forall_mem_leave (fun _ _ => rfl) h.discards
  detach s g h := by
    cases g with
    | false => exact h.of_step (i := ⟨.detach 0, false⟩) rfl rfl rfl
    | true =>
      constructor
      · rw [Ptrace.record_reqs, w.thread_append]
        exact h.resumes
      · rw [Ptrace.record_reqs, w.thread_append]
        exact ThreadRest.forall_mem_leave (fun _ _ => rfl) h.discards

/-- **Every signal that stops the thread during the calls of `inject_session` is discarded.** -/
theorem injectSession_tracks (resolve : CString → CString → BitVec 64) (sslPtr : BitVec 64)
    (der : Nat → BitVec 8) (derLen : BitVec 64) (x : Tracee) :
    w.Tracks v (injectSession (ptraceRemote w.kernel) resolve sslPtr der derLen (.fresh x)).2 :=
  (w.keeps_tracks v).injectSession resolve sslPtr der derLen ⟨rfl, fun _ hf => nomatch hf⟩

end Thread

/-! ## When an injection is invisible -/

/-- `SIGKILL`. -/
def sigkill : Nat := 9

/-- The signals a thread can be stopped on: all but `SIGKILL`. -/
def Reportable (sig : Nat) : Prop := 0 < sig ∧ sig ≤ 64 ∧ sig ≠ sigkill

section Worlds
variable (sends : Nat → Prop) (fns : (VecRegs → VecRegs) → Prop)

/-- The worlds in which the signals that other processes send the thread during the calls are
`SIGSTOP` and those of `sends`, and the code that runs in the calls leaves the vector registers as
they are, or changes them by a function of `fns`. -/
structure World.Within (w : World) : Prop where
  signals : ∀ n sig, w.kernel.report (n + 1) = .stopped sig .signal →
    Reportable sig ∧ (sig = sigstop ∨ sends sig)
  effects : ∀ n, w.vec n = id ∨ fns (w.vec n)

variable {sends fns} {w : World}

/-- Where no signal but `SIGSTOP` is sent and nobody touches the vector registers, no call changes
what matters. -/
theorem World.Within.thread_eq (hw : w.Within sends fns)
    (hsends : ∀ sig, Reportable sig → sends sig → sig = sigstop) (hfns : ∀ f, fns f → f = id)
    (v : VecRegs) (log : List Issued) :
    (w.thread v log).vec = v ∧ (∀ sig ∈ (w.thread v log).pending, sig = sigstop) ∧
      ∀ f ∈ (w.thread v log).fates, f.sig = sigstop := by
  have hvec : ∀ n, w.vec n = id := fun n => (hw.effects n).elim id (hfns _)
  induction log using List.reverseRecOn with
  | nil => exact ⟨rfl, fun _ h => absurd h (Option.not_mem_none _), List.forall_mem_nil _⟩
  | append_singleton log i ih =>
    obtain ⟨hv, hpending, hfates⟩ := ih
    rw [w.thread_append]
    unfold World.step
    split
    next passed =>
      refine ⟨by rw [hvec]; exact hv, fun sig hsig => ?_,
        ThreadRest.forall_mem_leave hpending hfates⟩
      -- only a signal-delivery stop leaves a signal pending
      cases hr : w.kernel.report ((w.thread v log).resumes + 1) with
      | exited | signaled => rw [hr] at hsig; cases hsig
      | stopped s cause =>
        rw [hr] at hsig
        cases cause with
        | int3 | event => cases hsig
        | signal =>
          obtain rfl : s = sig := Option.some.inj hsig
          obtain ⟨hrep, hstop | hsent⟩ := hw.signals _ _ hr
          · exact hstop
          · exact hsends s hrep hsent
    next passed =>
      exact ⟨hv, fun _ h => absurd h (Option.not_mem_none _),
        ThreadRest.forall_mem_leave hpending hfates⟩
    next => exact ⟨hv, hpending, hfates⟩

end Worlds

/-! ## Worlds in which it is not -/

/-- The calls of an injection into the sample target. -/
def sampleRun (k : Kernel) : List Issued :=
  (injectSession (ptraceRemote k) (fun _ _ => 1) 0x900 (fun _ => 0) 5
    (.fresh sampleStopped.target)).2.reqs

/-- Vector registers with nothing in them. -/
def VecRegs.zero : VecRegs := ⟨fun _ => 0, 0, 0, 0, fun _ => 0, 0⟩

/-- Every call is granted, `mmap` returns 0, and the thread gets the signal `sig` while it runs
it. -/
def signalled (sig : Nat) : World where
  kernel := .granting (fun _ => Tracee.afterReturn 0) fun n =>
    if n = 1 then .stopped sig .signal else .stopped sigtrap .int3
  vec _ := id

/-- Every call is granted, `mmap` returns 0, and changes the vector registers by `f`. -/
def clobbered (f : VecRegs → VecRegs) : World where
  kernel := .granting (fun _ => Tracee.afterReturn 0) fun _ => .stopped sigtrap .int3
  vec n := if n = 1 then f else id

/-- The run with a signal ends with a detach, and the signal has stopped the thread. -/
theorem signalled_run : ∀ sig : Fin 65,
    ⟨.detach 0, true⟩ ∈ sampleRun (signalled sig).kernel ∧
      ((signalled sig).thread .zero (sampleRun (signalled sig).kernel)).fates.map (·.sig) =
        [sig.val] := by
  decide +kernel

/-- The run with a changed vector register ends with a detach, and nothing has changed it back. -/
theorem clobbered_run (f : VecRegs → VecRegs) (v : VecRegs) :
    ⟨.detach 0, true⟩ ∈ sampleRun (clobbered f).kernel ∧
      ((clobbered f).thread v (sampleRun (clobbered f).kernel)).vec = f v := by
  have hrun : (sampleRun (clobbered f).kernel).filter (·.req.leaves) =
      [⟨.cont 0, true⟩, ⟨.detach 0, true⟩] := by
    -- the calls do not depend on `f`
    change (sampleRun (clobbered id).kernel).filter (·.req.leaves) = _
    decide +kernel
  refine ⟨List.mem_of_mem_filter (p := (·.req.leaves)) ?_, ?_⟩
  · rw [hrun]
    exact .tail _ (.head _)
  · rw [← World.thread_filter, hrun]
    rfl

/-- The world with the signal `sig` is one of those that send it. -/
theorem signalled_within {sends : Nat → Prop} (fns : (VecRegs → VecRegs) → Prop) {sig : Nat}
    (hsig : Reportable sig) (hsends : sends sig) : (signalled sig).Within sends fns := by
  refine ⟨fun n s h => ?_, fun _ => .inl rfl⟩
  cases n with
  | zero =>
    obtain ⟨rfl, -⟩ := Report.stopped.inj h
    exact ⟨hsig, .inr hsends⟩
  | succ n => cases h

/-- The world with the effect `f` is one of those that have it. -/
theorem clobbered_within (sends : Nat → Prop) {fns : (VecRegs → VecRegs) → Prop}
    {f : VecRegs → VecRegs} (hf : fns f) : (clobbered f).Within sends fns := by
  refine ⟨fun _ _ h => (nomatch h), fun n => ?_⟩
  unfold clobbered
  dsimp only
  split_ifs
  exacts [.inr hf, .inl rfl]

/-- **An injection is invisible to the rest of the thread exactly where there is nothing to hide**:
no signal but `SIGSTOP` is sent to the thread during the calls, and the functions called leave the
vector registers alone. -/
theorem invisible_iff (sends : Nat → Prop) (fns : (VecRegs → VecRegs) → Prop) :
    (∀ w : World, w.Within sends fns →
      ∀ resolve sslPtr der derLen x v, w.Invisible v
        (injectSession (ptraceRemote w.kernel) resolve sslPtr der derLen (.fresh x)).2.reqs) ↔
      (∀ sig, Reportable sig → sends sig → sig = sigstop) ∧ ∀ f, fns f → f = id := by
  constructor
  · intro h
    refine ⟨fun sig hrep hsends => ?_, fun f hf => funext fun v => ?_⟩
    · by_contra hne
      have hinv := h (signalled sig) (signalled_within fns hrep hsends) (fun _ _ => 1) 0x900
        (fun _ => 0) 5 sampleStopped.target .zero
      obtain ⟨hdetach, hfates⟩ := signalled_run ⟨sig, by have := hrep.2.1; omega⟩
      obtain ⟨fate, hmem, hfate⟩ : ∃ fate ∈ ((signalled sig).thread .zero
          (sampleRun (signalled sig).kernel)).fates, fate.sig = sig := by
        rw [← List.mem_map, hfates]
        exact .head _
      -- the signal was to be passed on, and 0 was
      have hpassed := (hinv ⟨0, hdetach⟩).1 fate hmem (hfate ▸ hne)
      have hzero := (injectSession_tracks (signalled sig) .zero _ _ _ _ _).discards fate hmem
      have := hrep.1
      omega
    · have hinv := h (clobbered f) (clobbered_within sends hf) (fun _ _ => 1) 0x900
        (fun _ => 0) 5 sampleStopped.target v
      obtain ⟨hdetach, hvec⟩ := clobbered_run f v
      exact hvec.symm.trans (hinv ⟨0, hdetach⟩).2
  · rintro ⟨hsends, hfns⟩ w hw resolve sslPtr der derLen x v -
    obtain ⟨hvec, -, hfates⟩ := hw.thread_eq hsends hfns v
      (injectSession (ptraceRemote w.kernel) resolve sslPtr der derLen (.fresh x)).2.reqs
    exact ⟨fun f hf hne => absurd (hfates f hf) hne, hvec⟩

/-- `SIGTERM` arrives while the thread runs `d2i_SSL_SESSION`, which changes `ymm0`. The session is
installed; the signal never reaches the thread, and `ymm0` is not what it was. -/
theorem sigterm_lost_ymm_clobbered :
    let w : World :=
      { kernel := .granting
          (fun n => if n = 2 then id else .afterReturn (if n = 1 then 0x7f0000 else 1))
          fun n => if n = 2 then .stopped 15 .signal else .stopped sigtrap .int3
        vec n v := if n = 3 then { v with ymm := fun _ => 1 } else v }
    let out := injectSession (ptraceRemote w.kernel) (fun _ _ => 1) 0x900 (fun _ => 0) 5
      (.fresh sampleStopped.target)
    out.1 = 0 ∧ (w.thread .zero out.2.reqs).fates = [⟨15, 0⟩] ∧
      (w.thread .zero out.2.reqs).vec.ymm 0 = 1 ∧ ¬ w.Invisible .zero out.2.reqs := by
  intro w out
  have hfates : (w.thread .zero out.2.reqs).fates = [⟨15, 0⟩] := by decide +kernel
  refine ⟨by decide +kernel, hfates, by decide +kernel, fun h => ?_⟩
  obtain ⟨hpassed, -⟩ := h ⟨0, by decide +kernel⟩
  exact absurd (hpassed ⟨15, 0⟩ (by rw [hfates]; exact .head _) (by decide)) (by decide)

end TicketConnect
