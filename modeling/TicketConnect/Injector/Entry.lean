import TicketConnect.Injector.Restore
import TicketConnect.Injector.Returned

/-!
# Where a called function is entered

`remote_call` builds the registers of the call from the interrupted ones, so `orig_rax` and `rax`
are still those of the stop. When a thread is resumed with these two as a system call leaves them
that is to be restarted, the kernel moves `rip` back to the system call instruction before it
returns to user mode. `Regs.restart` is that rule, `userEntry` reads off the calls of a run with
which registers user mode is first entered, and `call_enters_iff` says from which stops the function
is entered at its first instruction.
-/

namespace TicketConnect

open Lib

/-! ## The kernel's restart rule -/

/-- `-ERESTARTSYS`, `-ERESTARTNOINTR`, `-ERESTARTNOHAND` and `-ERESTART_RESTARTBLOCK`. -/
def restartCodes : List (BitVec 64) := [-512, -513, -514, -516]

/-- The thread was stopped inside a system call that the kernel is to restart. -/
def Regs.InRestart (r : Regs) : Prop := 0 ≤ r.origRax.toInt ∧ r.rax ∈ restartCodes

instance (r : Regs) : Decidable r.InRestart := inferInstanceAs (Decidable (_ ∧ _))

/-- The registers with which user mode is entered when a stopped thread is resumed and no signal
handler is to run. The last code restarts through `restart_syscall`, whose number is 219. -/
def Regs.restart (r : Regs) : Regs :=
  if r.InRestart then
    { r with rip := r.rip - 2, rax := if r.rax = -516 then 219 else r.origRax }
  else r

/-! ## The first resume of a run -/

/-- The registers after a call, when they were `r` before it and the target did not run. -/
def Issued.regsAfter (r : Regs) : Issued → Regs
  | ⟨.setRegs regs, true⟩ => regs
  | _ => r

/-- The registers with which the target is first resumed by a list of calls, `none` when none of
them resumes it. -/
def resumeRegs : Regs → List Issued → Option Regs
  | _, [] => none
  | r, i :: rest => if i.granted ∧ i.req.isCont then some r else resumeRegs (i.regsAfter r) rest

/-- The registers with which user mode is first entered. -/
def userEntry (r : Regs) (calls : List Issued) : Option Regs :=
  (resumeRegs r calls).map Regs.restart

/-- Between two states the target was not resumed, and its registers are those last set. -/
def Ptrace.Prepares (s s' : Ptrace) : Prop :=
  ∃ new, s'.reqs = s.reqs ++ new ∧
    ∀ rest, resumeRegs s.target.regs (new ++ rest) = resumeRegs s'.target.regs rest

section Prepares
variable {k : Kernel} {s s' s'' : Ptrace}

/-- Two parts of a run. -/
theorem Ptrace.Prepares.trans (h : s.Prepares s') (h' : s'.Prepares s'') : s.Prepares s'' := by
  obtain ⟨new, heq, hregs⟩ := h
  obtain ⟨new', heq', hregs'⟩ := h'
  refine ⟨new ++ new', by rw [heq', heq, List.append_assoc], fun rest => ?_⟩
  rw [List.append_assoc, hregs, hregs']

/-- No call. -/
theorem Ptrace.Prepares.refl : s.Prepares s := ⟨[], by simp, fun _ => rfl⟩

/-- A `PTRACE_CONT` that fails. -/
theorem Ptrace.Prepares.refused : s.Prepares (s.record (.cont 0) false) :=
  ⟨[⟨.cont 0, false⟩], rfl, fun _ => rfl⟩

/-- One call that does not resume the target. -/
theorem Ptrace.Prepares.one {req : Req} {g : Bool} (hreqs : s'.reqs = s.reqs ++ [⟨req, g⟩])
    (hcont : req.isCont = false)
    (hregs : s'.target.regs = Issued.regsAfter s.target.regs ⟨req, g⟩) : s.Prepares s' := by
  refine ⟨_, hreqs, fun rest => ?_⟩
  rw [List.singleton_append, resumeRegs, if_neg (by simp [hcont]), hregs]

/-- `PTRACE_GETREGS`. -/
theorem Kernel.getRegs_prepares {r : Option Regs} (h : k.getRegs s = (r, s')) : s.Prepares s' := by
  obtain ⟨rfl, -⟩ := getRegs_eq h
  exact .one rfl rfl rfl

/-- A call that fails sets no registers. -/
theorem Issued.regsAfter_false (r : Regs) (req : Req) : Issued.regsAfter r ⟨req, false⟩ = r := by
  cases req <;> rfl

/-- A call that changes the target, other than one that resumes it. -/
theorem Kernel.act_prepares {req : Req} {effect : Ptrace → Ptrace} {g : Bool}
    (h : k.act req effect s = (g, s')) (hcont : req.isCont = false)
    (hreqs : ∀ x, (effect x).reqs = x.reqs)
    (hregs : ∀ x, (effect x).target.regs = Issued.regsAfter x.target.regs ⟨req, true⟩) :
    s.Prepares s' := by
  cases g with
  | true =>
    rw [act_true h]
    exact .one (hreqs _) hcont (hregs _)
  | false =>
    rw [act_false h]
    exact .one rfl hcont (Issued.regsAfter_false _ _).symm

/-- `poke_byte`. -/
theorem Kernel.pokeByte_prepares {addr : BitVec 64} {value : BitVec 8} {r : Option (BitVec 64)}
    (h : k.pokeByte addr value s = (r, s')) : s.Prepares s' := by
  unfold Kernel.pokeByte at h
  split at h
  next word errno s₁ hp =>
  obtain ⟨rfl, -⟩ := peekText_eq hp
  have h₁ : s.Prepares (s.record (.peekText addr) (errno == 0)) := .one rfl rfl rfl
  split at h
  · cases h
    exact h₁
  dsimp only at h
  split at h
  next hq => cases h; exact h₁.trans (act_prepares hq rfl (fun _ => rfl) fun _ => rfl)
  next hq => cases h; exact h₁.trans (act_prepares hq rfl (fun _ => rfl) fun _ => rfl)

/-- `restore:`. -/
theorem Kernel.restore_prepares (k : Kernel) (trap word : BitVec 64) (saved : Regs) (s : Ptrace) :
    s.Prepares (k.restore trap word saved s) := by
  unfold Kernel.restore
  split
  next g s₁ hp =>
  split
  next g' s₂ hr =>
  have h₁ : s.Prepares s₁ := act_prepares hp rfl (fun _ => rfl) fun _ => rfl
  exact h₁.trans (act_prepares hr rfl (fun _ => rfl) fun _ => rfl)

end Prepares

/-! ## The first resume of `remote_call` -/

/-- A call of `remote_call` resumes the target first with the registers of the call, or it does not
resume it and reports a failure. -/
def Entered (func : BitVec 64) (a : CallArgs) (s : Ptrace) (out : CallOut) : Prop :=
  ∃ new, out.state.reqs = s.reqs ++ new ∧
    (resumeRegs s.target.regs new = some (callRegs s.target.regs func a) ∨
      resumeRegs s.target.regs new = none ∧ out.ok = false)

section Entry
variable {k : Kernel} {func : BitVec 64} {a : CallArgs} {s s₁ s₂ s' : Ptrace} {out : CallOut}

/-- A wait loop starts with a `PTRACE_CONT`, and if that fails, so does the loop. -/
theorem Rounds.first {left : Nat} {e : LoopExit} (h : Rounds k left s e s') :
    (∃ rest, s'.reqs = s.reqs ++ ⟨.cont 0, true⟩ :: rest) ∨
      e = .failed ∧ s' = s.record (.cont 0) false := by
  cases h with
  | exit hr =>
    cases hr with
    | refused => exact .inr ⟨rfl, rfl⟩
    | unreported => exact .inl ⟨[⟨.wait, false⟩], by simp⟩
    | dead | trapped => exact .inl ⟨[⟨.wait, true⟩], by simp⟩
  | stuck hr => cases hr with | spurious => exact .inl ⟨[⟨.wait, true⟩], by simp⟩
  | again hr hrest =>
    cases hr with
    | spurious =>
      obtain ⟨new, hreqs, -⟩ := hrest.issues (P := fun _ => True) trivial trivial
      exact .inl ⟨⟨.wait, true⟩ :: new, by rw [hreqs]; simp⟩

/-- A failure before the target is resumed. -/
theorem Ptrace.Prepares.entered (h : s.Prepares out.state) (hok : out.ok = false) :
    Entered func a s out := by
  obtain ⟨new, hreqs, hregs⟩ := h
  have hnone := hregs []
  rw [List.append_nil] at hnone
  exact ⟨new, hreqs, .inr ⟨hnone, hok⟩⟩

/-- A run that resumes the target after the registers of the call were set. -/
theorem Ptrace.Prepares.entered_cont (h : s.Prepares s₁)
    (hregs : s₁.target.regs = callRegs s.target.regs func a) {rest : List Issued}
    (hreqs : s₂.reqs = s₁.reqs ++ ⟨.cont 0, true⟩ :: rest) (h' : s₂.Prepares out.state) :
    Entered func a s out := by
  obtain ⟨new, hnew, hresume⟩ := h
  obtain ⟨new', hnew', -⟩ := h'
  refine ⟨new ++ ⟨.cont 0, true⟩ :: (rest ++ new'), by simp [hnew', hreqs, hnew], .inl ?_⟩
  rw [hresume, resumeRegs, if_pos ⟨rfl, rfl⟩, hregs]

/-- `remote_call` resumes the target first with the registers of the call. -/
theorem remoteCall_entered (k : Kernel) (func : BitVec 64) (a : CallArgs) (s : Ptrace) :
    Entered func a s (remoteCall k func a s) := by
  unfold remoteCall
  split
  next hg => exact (Kernel.getRegs_prepares hg).entered rfl
  next saved s₁ hg =>
  have h₁ := Kernel.getRegs_prepares hg
  obtain ⟨rfl, hsaved⟩ := Kernel.getRegs_eq hg
  obtain rfl := hsaved _ rfl
  dsimp only
  split
  next hb => exact (h₁.trans (Kernel.pokeByte_prepares hb)).entered rfl
  next w s₂ hb =>
  have h₂ := h₁.trans (Kernel.pokeByte_prepares hb)
  split
  next s₃ hd =>
    have h₃ := h₂.trans (Kernel.act_prepares hd rfl (fun _ => rfl) fun _ => rfl)
    exact (h₃.trans (k.restore_prepares _ _ _ s₃)).entered rfl
  next s₃ hd =>
  have h₃ := h₂.trans (Kernel.act_prepares hd rfl (fun _ => rfl) fun _ => rfl)
  split
  next s₄ hr =>
    have h₄ := h₃.trans (Kernel.act_prepares hr rfl (fun _ => rfl) fun _ => rfl)
    exact (h₄.trans (k.restore_prepares _ _ _ s₄)).entered rfl
  next s₄ hr =>
  have h₄ := h₃.trans (Kernel.act_prepares hr rfl (fun _ => rfl) fun _ => rfl)
  have hregs : s₄.target.regs = callRegs s.target.regs func a := by
    rw [Kernel.act_true hr]
  split
  next s₅ hl =>
    have hrestore := k.restore_prepares s.target.regs.rip w s.target.regs s₅
    obtain ⟨rest, hreqs⟩ | ⟨-, rfl⟩ := (Kernel.waitLoop_rounds hl).first
    · exact h₄.entered_cont hregs hreqs hrestore
    · -- the target was not resumed
      have h₅ : s₄.Prepares (s₄.record (.cont 0) false) := .refused
      exact ((h₄.trans h₅).trans hrestore).entered rfl
  next s₅ hl =>
    obtain ⟨rest, hreqs⟩ | ⟨he, -⟩ := (Kernel.waitLoop_rounds hl).first
    · exact h₄.entered_cont hregs hreqs .refl
    · cases he
  next cause s₅ hl =>
  obtain ⟨rest, hreqs⟩ | ⟨he, -⟩ := (Kernel.waitLoop_rounds hl).first
  swap
  · cases he
  split
  next s₆ hg' =>
    have h₆ := Kernel.getRegs_prepares hg'
    exact h₄.entered_cont hregs hreqs (h₆.trans (k.restore_prepares _ _ _ s₆))
  next after s₆ hg' =>
  have h₆ := Kernel.getRegs_prepares hg'
  exact h₄.entered_cont hregs hreqs (h₆.trans (k.restore_prepares _ _ _ s₆))

end Entry

/-- The function is entered at its first instruction, with its arguments. -/
structure EntersAt (func : BitVec 64) (a : CallArgs) (entry : Regs) : Prop where
  rip : entry.rip = func
  rdi : entry.rdi = a.a0
  rsi : entry.rsi = a.a1
  rdx : entry.rdx = a.a2
  rcx : entry.rcx = a.a3
  r8 : entry.r8 = a.a4
  r9 : entry.r9 = a.a5

/-- The registers of a call restart a system call exactly when the interrupted ones do. -/
theorem callRegs_inRestart {saved : Regs} {func : BitVec 64} {a : CallArgs} :
    (callRegs saved func a).InRestart ↔ saved.InRestart := Iff.rfl

/-- User mode is entered at the function exactly when no system call is restarted. -/
theorem entersAt_restart {saved : Regs} {func : BitVec 64} {a : CallArgs} :
    EntersAt func a (callRegs saved func a).restart ↔ ¬saved.InRestart := by
  unfold Regs.restart
  constructor
  · intro h hin
    rw [if_pos (callRegs_inRestart.2 hin)] at h
    -- two bytes before the function
    have hrip : func - 2 = func := h.rip
    bv_omega
  · intro hin
    rw [if_neg (mt callRegs_inRestart.1 hin)]
    exact ⟨rfl, rfl, rfl, rfl, rfl, rfl, rfl⟩

/-- **A called function is entered at its first instruction, unless the stop is inside a system call
that is to be restarted.** For every stop of the target: in every run of `remote_call`, whichever
calls succeed and whatever the target does, the first user instruction executed after the registers
of the call are set is the function's first one, with the six arguments in their registers. This
holds exactly for the stops whose `orig_rax` is negative or whose `rax` is not a restart code. -/
theorem call_enters_iff (func : BitVec 64) (a : CallArgs) (s : Ptrace) :
    (∀ (k : Kernel) (calls : List Issued) (entry : Regs),
      (remoteCall k func a s).state.reqs = s.reqs ++ calls →
      userEntry s.target.regs calls = some entry → EntersAt func a entry) ↔
      ¬(0 ≤ s.target.regs.origRax.toInt ∧ s.target.regs.rax ∈ restartCodes) := by
  change _ ↔ ¬s.target.regs.InRestart
  constructor
  · intro h
    -- a run that resumes the target: every call is granted
    let k := Kernel.granting (fun _ x => x) fun _ => .stopped sigtrap .int3
    obtain ⟨hok, -⟩ := remoteCall_trapsAt (k := k) (s := s) (fun _ => rfl) func a (Nat.zero_le 16)
      (.here rfl : TrapsAt k.report s.resumes 0 .int3)
    obtain ⟨calls, hcalls, hresume | ⟨-, hfail⟩⟩ := remoteCall_entered k func a s
    · exact entersAt_restart.1 (h k calls _ hcalls (by rw [userEntry, hresume, Option.map_some]))
    · rw [hok] at hfail
      cases hfail
  · intro hin k calls entry hcalls hentry
    obtain ⟨new, hnew, hresume⟩ := remoteCall_entered k func a s
    obtain rfl : new = calls := List.append_cancel_left (hnew.symm.trans hcalls)
    rcases hresume with hresume | ⟨hresume, -⟩
    · rw [userEntry, hresume, Option.map_some] at hentry
      cases hentry
      exact entersAt_restart.2 hin
    · rw [userEntry, hresume] at hentry
      cases hentry

/-- A thread that is stopped in a blocking `read` enters `mmap` two bytes before its first
instruction. -/
theorem blocked_read_enters_early :
    let k := Kernel.granting (fun _ x => x) fun _ => .stopped sigtrap .int3
    let stopped := sampleStopped.target.regs
    let x : Tracee :=
      { sampleStopped.target with regs := { stopped with origRax := 0, rax := -512 } }
    let s := (k.injectorSeize { sampleStopped with target := x }).2
    let calls := (remoteCall k 0x5000 ⟨0, 4096, 3, 0x22, -1, 0⟩ s).state.reqs.drop s.reqs.length
    (k.injectorSeize { sampleStopped with target := x }).1 = 0 ∧
      (userEntry s.target.regs calls).map (·.rip) = some 0x4ffe ∧
      (userEntry s.target.regs calls).map (·.rax) = some 0 := by
  decide

end TicketConnect
