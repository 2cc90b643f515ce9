import Mathlib.Data.List.Basic
import TicketConnect.Lib.Word

/-!
# Tracing a thread

The `ptrace` side of the kernel, as the injector sees it: a traced thread with its registers and
memory, and requests that are granted or fail. What the kernel and the target decide is in
`Kernel`: which requests it grants, what the target does each time it is resumed, and what
`waitpid` then reports. A theorem over every `Kernel` covers every outcome of every request. A
request that fails changes nothing; every request is recorded in order, with its outcome.
-/

namespace TicketConnect

open Lib

/-! ## The target -/

/-- `struct user_regs_struct` of x86-64. -/
structure Regs where
  r15 : BitVec 64
  r14 : BitVec 64
  r13 : BitVec 64
  r12 : BitVec 64
  rbp : BitVec 64
  rbx : BitVec 64
  r11 : BitVec 64
  r10 : BitVec 64
  r9 : BitVec 64
  r8 : BitVec 64
  rax : BitVec 64
  rcx : BitVec 64
  rdx : BitVec 64
  rsi : BitVec 64
  rdi : BitVec 64
  origRax : BitVec 64
  rip : BitVec 64
  cs : BitVec 64
  eflags : BitVec 64
  rsp : BitVec 64
  ss : BitVec 64
  fsBase : BitVec 64
  gsBase : BitVec 64
  ds : BitVec 64
  es : BitVec 64
  fs : BitVec 64
  gs : BitVec 64
deriving DecidableEq

/-- A traced thread: its general registers and the memory it runs in. -/
structure Tracee where
  regs : Regs
  mem : ByteMem

/-! ## Requests and reports -/

/-- `PTRACE_O_EXITKILL`. -/
def ptraceOExitkill : Nat := 0x00100000

/-- `SIGTRAP`. -/
def sigtrap : Nat := 5

/-- Why a target is in a stop, in the event bits of the status and the siginfo, which the injector
does not look at: it ran into a breakpoint instruction, it is an event stop of the tracer's own
(`PTRACE_EVENT_STOP`), or a signal is about to be delivered. -/
inductive StopCause where
  | int3
  | event
  | signal
deriving DecidableEq

/-- What `waitpid` reports. -/
inductive Report where
  | exited (status : Nat)
  | signaled (sig : Nat)
  | stopped (sig : Nat) (cause : StopCause)
deriving DecidableEq

/-- `WIFEXITED(status) || WIFSIGNALED(status)`. -/
def Report.dead : Report → Bool
  | .exited _ | .signaled _ => true
  | .stopped .. => false

/-- The calls that act on the target. -/
inductive Req where
  | seize (options : Nat)
  | interrupt
  | wait
  | getRegs
  | setRegs (regs : Regs)
  | peekText (addr : BitVec 64)
  | pokeText (addr word : BitVec 64)
  | pokeData (addr word : BitVec 64)
  | cont (sig : Nat)
  | writev (addr n : BitVec 64)
  | detach (sig : Nat)
deriving DecidableEq

/-- A call that was made, and whether it succeeded. -/
structure Issued where
  req : Req
  granted : Bool
deriving DecidableEq

/-- The target and the calls made so far. `resumes` counts how often the target was resumed, `died`
says that a `waitpid` has reported its death. -/
structure Ptrace where
  target : Tracee
  reqs : List Issued
  resumes : Nat
  died : Bool

/-- What is outside the injector: whether the `n`-th call succeeds, what the target does when it is
resumed for the `n`-th time, what `waitpid` reports after that (0: after the interrupt), how many
bytes the `n`-th call writes if it is a `process_vm_writev`, and whether the target is gone at the
end although no `waitpid` said so. -/
structure Kernel where
  grant : Nat → Bool
  exec : Nat → Tracee → Tracee
  report : Nat → Report
  wrote : Nat → Nat
  gone : Bool

/-- The state with one more call recorded. -/
def Ptrace.record (s : Ptrace) (req : Req) (granted : Bool) : Ptrace :=
  { s with reqs := s.reqs ++ [⟨req, granted⟩] }

namespace Kernel

/-! ## The calls -/

/-- Make a call: whether it succeeds, and the state with the call recorded. -/
def ask (k : Kernel) (req : Req) (s : Ptrace) : Bool × Ptrace :=
  (k.grant s.reqs.length, s.record req (k.grant s.reqs.length))

/-- A call whose success changes the target. -/
def act (k : Kernel) (req : Req) (effect : Ptrace → Ptrace) (s : Ptrace) : Bool × Ptrace :=
  match k.ask req s with
  | (true, s) => (true, effect s)
  | (false, s) => (false, s)

/-- `PTRACE_GETREGS`. -/
def getRegs (k : Kernel) (s : Ptrace) : Option Regs × Ptrace :=
  match k.ask .getRegs s with
  | (true, s) => (some s.target.regs, s)
  | (false, s) => (none, s)

/-- `PTRACE_SETREGS`. -/
def setRegs (k : Kernel) (regs : Regs) : Ptrace → Bool × Ptrace :=
  k.act (.setRegs regs) fun s => { s with target := { s.target with regs } }

/-- `PTRACE_PEEKTEXT`: the word and `errno`, which a success leaves at 0; a failure returns -1. -/
def peekText (k : Kernel) (addr : BitVec 64) (s : Ptrace) : BitVec 64 × Nat × Ptrace :=
  match k.ask (.peekText addr) s with
  | (true, s) => (s.target.mem.peek addr, 0, s)
  | (false, s) => (-1, 5, s)

/-- `PTRACE_POKETEXT`. -/
def pokeText (k : Kernel) (addr word : BitVec 64) : Ptrace → Bool × Ptrace :=
  k.act (.pokeText addr word) fun s =>
    { s with target := { s.target with mem := s.target.mem.poke addr word } }

/-- `PTRACE_POKEDATA`. -/
def pokeData (k : Kernel) (addr word : BitVec 64) : Ptrace → Bool × Ptrace :=
  k.act (.pokeData addr word) fun s =>
    { s with target := { s.target with mem := s.target.mem.poke addr word } }

/-- `PTRACE_CONT`: the target runs until its next stop. -/
def cont (k : Kernel) (sig : Nat) : Ptrace → Bool × Ptrace :=
  k.act (.cont sig) fun s =>
    { s with target := k.exec (s.resumes + 1) s.target, resumes := s.resumes + 1 }

/-- `waitpid`: the report, `none` for a failure. -/
def wait (k : Kernel) (s : Ptrace) : Option Report × Ptrace :=
  match k.ask .wait s with
  | (true, s) =>
    (some (k.report s.resumes), { s with died := s.died || (k.report s.resumes).dead })
  | (false, s) => (none, s)

/-! ## `injector_seize` and `injector_detach` -/

/-- `injector_seize`. -/
def injectorSeize (k : Kernel) (s : Ptrace) : Int × Ptrace :=
  match k.ask (.seize ptraceOExitkill) s with
  | (false, s) => (-1, s)
  | (true, s) =>
    match k.ask .interrupt s with
    | (false, s) => (-1, s)
    | (true, s) =>
      match k.wait s with
      | (none, s) => (-1, s)
      | (some (.stopped ..), s) => (0, s)
      | (some _, s) => (-1, s)

/-- `injector_detach`. -/
def injectorDetach (k : Kernel) (s : Ptrace) : Int × Ptrace :=
  match k.ask (.detach 0) s with
  | (true, s) => (0, s)
  | (false, s) => (-1, s)

end Kernel

/-! ## Kernels that grant every call -/

/-- The kernel that grants every call, over a target's behaviour and its reports. -/
def Kernel.granting (exec : Nat → Tracee → Tracee) (report : Nat → Report) : Kernel where
  grant _ := true
  exec
  report
  wrote _ := 2 ^ 64
  gone := false

/-- The target after the function it runs has returned `rax` and the breakpoint at the return
address has been executed. -/
def Tracee.afterReturn (rax : BitVec 64) (x : Tracee) : Tracee :=
  { x with
    regs := { x.regs with rip := x.mem.peek x.regs.rsp + 1, rsp := x.regs.rsp + 8, rax } }

/-- A stopped target: memory all ones, registers zero but for `rip`, `rsp` and `rax`. -/
def sampleStopped : Ptrace where
  target :=
    { regs := ⟨0, 0, 0, 0, 0, 0, 0, 0, 0, 0, 0x1234, 0, 0, 0, 0, 0, 0x401000, 0, 0, 0x7ffe0000,
        0, 0, 0, 0, 0, 0, 0⟩
      mem := fun _ => 0xFF }
  reqs := []
  resumes := 0
  died := false

/-! ## What a call does -/

section Calls
variable {k : Kernel} {s s' : Ptrace}

@[simp] theorem Ptrace.record_target (s : Ptrace) (req : Req) (g : Bool) :
    (s.record req g).target = s.target := rfl

@[simp] theorem Ptrace.record_resumes (s : Ptrace) (req : Req) (g : Bool) :
    (s.record req g).resumes = s.resumes := rfl

@[simp] theorem Ptrace.record_reqs (s : Ptrace) (req : Req) (g : Bool) :
    (s.record req g).reqs = s.reqs ++ [⟨req, g⟩] := rfl

/-- A call that changes the target, when it succeeds. -/
theorem Kernel.act_true {req : Req} {effect : Ptrace → Ptrace}
    (h : k.act req effect s = (true, s')) : s' = effect (s.record req true) := by
  unfold Kernel.act Kernel.ask at h
  cases hg : k.grant s.reqs.length <;> rw [hg] at h <;> cases h
  rfl

/-- A call that changes the target, when it fails. -/
theorem Kernel.act_false {req : Req} {effect : Ptrace → Ptrace}
    (h : k.act req effect s = (false, s')) : s' = s.record req false := by
  unfold Kernel.act Kernel.ask at h
  cases hg : k.grant s.reqs.length <;> rw [hg] at h <;> cases h
  rfl

/-- `PTRACE_GETREGS` reads the registers and changes nothing. -/
theorem Kernel.getRegs_eq {r : Option Regs} (h : k.getRegs s = (r, s')) :
    s' = s.record .getRegs r.isSome ∧ ∀ regs, r = some regs → regs = s.target.regs := by
  unfold Kernel.getRegs Kernel.ask at h
  cases hg : k.grant s.reqs.length <;> rw [hg] at h <;> cases h
  all_goals exact ⟨rfl, by simp⟩

/-- `PTRACE_PEEKTEXT` reads the word and changes nothing; `errno` tells a failure from a word of
ones. -/
theorem Kernel.peekText_eq {addr word : BitVec 64} {errno : Nat}
    (h : k.peekText addr s = (word, errno, s')) :
    s' = s.record (.peekText addr) (errno == 0) ∧
      (word = -1 ∧ errno ≠ 0 ∨ word = s.target.mem.peek addr ∧ errno = 0) := by
  unfold Kernel.peekText Kernel.ask at h
  cases hg : k.grant s.reqs.length <;> rw [hg] at h <;> cases h
  · exact ⟨rfl, .inl ⟨rfl, by decide⟩⟩
  · exact ⟨rfl, .inr ⟨rfl, rfl⟩⟩

/-- A `waitpid` that fails. -/
theorem Kernel.wait_none (h : k.wait s = (none, s')) : s' = s.record .wait false := by
  unfold Kernel.wait Kernel.ask at h
  cases hg : k.grant s.reqs.length <;> rw [hg] at h <;> cases h
  rfl

/-- A `waitpid` that reports. -/
theorem Kernel.wait_some {r : Report} (h : k.wait s = (some r, s')) :
    k.report s.resumes = r ∧ s' = { s.record .wait true with died := s.died || r.dead } := by
  unfold Kernel.wait Kernel.ask at h
  cases hg : k.grant s.reqs.length <;> rw [hg] at h <;> cases h
  exact ⟨rfl, rfl⟩

/-- A `waitpid` that reports a death. -/
theorem Kernel.wait_dead {r : Report} (h : k.wait s = (some r, s')) (hr : r.dead = true) :
    k.report s.resumes = r ∧ s' = { s.record .wait true with died := true } := by
  obtain ⟨hrep, rfl⟩ := wait_some h
  rw [hr, Bool.or_true]
  exact ⟨hrep, rfl⟩

/-- A `waitpid` that reports a stop. -/
theorem Kernel.wait_stopped {sig : Nat} {cause : StopCause}
    (h : k.wait s = (some (.stopped sig cause), s')) :
    k.report s.resumes = .stopped sig cause ∧ s' = s.record .wait true := by
  obtain ⟨hrep, rfl⟩ := wait_some h
  exact ⟨hrep, by rw [Report.dead, Bool.or_false]; rfl⟩

end Calls

end TicketConnect
