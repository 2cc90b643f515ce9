import TicketConnect.Injector.RemoteCall

/-!
# When a reported success is a call that returned

`remote_call` takes the first stop whose signal is `SIGTRAP` for the return of the call. That stop
is the planted breakpoint, reached by the function's return, exactly when the target reports no
other `SIGTRAP` stop before it: an event stop that the tracer's own interrupt left pending, a
`SIGTRAP` sent by others, or the function itself running into the breakpoint ends the wait loop just
as well, with `rax` as the target had it. `call_returned_iff` is the condition, over what the target
does and reports.
-/

namespace TicketConnect

open Lib

/-! ## The target's run -/

/-- The target after `i` resumes, when it has been resumed `c` times before. -/
def ran (exec : Nat → Tracee → Tracee) : Nat → Nat → Tracee → Tracee
  | _, 0, x => x
  | c, i + 1, x => ran exec (c + 1) i (exec (c + 1) x)

/-- A stop that the wait loop does not take for the return of the call. -/
def Report.Spurious (r : Report) : Prop := ∃ sig cause, r = .stopped sig cause ∧ sig ≠ sigtrap

/-- After `c` resumes, the target reports `i` spurious stops and then a `SIGTRAP` stop. -/
inductive TrapsAt (report : Nat → Report) : Nat → Nat → StopCause → Prop where
  | here {c : Nat} {cause : StopCause} (h : report (c + 1) = .stopped sigtrap cause) :
      TrapsAt report c 0 cause
  | later {c i : Nat} {cause : StopCause} (h : (report (c + 1)).Spurious)
      (hrest : TrapsAt report (c + 1) i cause) : TrapsAt report c (i + 1) cause

/-- The target has returned to the breakpoint at `trap` from the call that starts in `x`: it is one
past the breakpoint, and the return address is popped. -/
structure Tracee.ReturnedTo (x : Tracee) (trap : BitVec 64) (y : Tracee) : Prop where
  rip : y.regs.rip = trap + 1
  rsp : y.regs.rsp = x.regs.rsp + 8

/-- The first `SIGTRAP` stop within 17 resumes is the return of the call that starts in `x`: the
target ran into a breakpoint instruction, and it has returned to the one at `trap`. -/
def Kernel.TrapFirst (k : Kernel) (c : Nat) (trap : BitVec 64) (x : Tracee) : Prop :=
  ∀ i cause, i ≤ 16 → TrapsAt k.report c i cause →
    cause = .int3 ∧ x.ReturnedTo trap (ran k.exec c (i + 1) x)

section Loop
variable {k : Kernel} {i left : Nat} {cause : StopCause} {s s' : Ptrace}

/-- A wait loop that ends with a `SIGTRAP` stop has met the first one. -/
theorem Rounds.trapsAt (h : Rounds k left s (.trapped cause) s') :
    ∃ i, i ≤ left ∧ TrapsAt k.report s.resumes i cause ∧
      s'.target = ran k.exec s.resumes (i + 1) s.target := by
  generalize he : LoopExit.trapped cause = e at h
  induction h with
  | exit hr =>
    subst he
    cases hr with
    | trapped h => exact ⟨0, Nat.zero_le _, .here h, rfl⟩
  | stuck => cases he
  | again hr _ ih =>
    obtain ⟨i, hi, htrap, ht⟩ := ih he
    cases hr with
    | spurious h hsig => exact ⟨i + 1, by omega, .later ⟨_, _, h, hsig⟩ htrap, ht⟩

/-! ## A kernel that grants every call -/

section Granted
variable (hgrant : ∀ n, k.grant n = true)
include hgrant

/-- A call that changes the target. -/
theorem Kernel.act_granted (req : Req) (effect : Ptrace → Ptrace) (s : Ptrace) :
    k.act req effect s = (true, effect (s.record req true)) := by
  simp only [Kernel.act, Kernel.ask, hgrant]

/-- `PTRACE_GETREGS`. -/
theorem Kernel.getRegs_granted (s : Ptrace) :
    k.getRegs s = (some s.target.regs, s.record .getRegs true) := by
  simp only [Kernel.getRegs, Kernel.ask, hgrant, Ptrace.record_target]

/-- `poke_byte` plants the breakpoint. -/
theorem Kernel.pokeByte_granted (addr : BitVec 64) (s : Ptrace) :
    ∃ s', k.pokeByte addr 0xCC s = (some (s.target.mem.peek addr), s') ∧
      s'.resumes = s.resumes ∧ s'.target = { s.target with
        mem := s.target.mem.poke addr (plantWord (s.target.mem.peek addr)) } := by
  simp [Kernel.pokeByte, Kernel.peekText, Kernel.pokeText, act_granted hgrant, Kernel.ask, hgrant,
    plantWord]

/-- A round of the wait loop that meets a stop. -/
theorem Kernel.waitRound_granted {sig : Nat} (h : k.report (s.resumes + 1) = .stopped sig cause) :
    k.waitRound s = (if sig = sigtrap then some (.trapped cause) else none,
      (k.resumed s).record .wait true) := by
  have hcont : k.cont 0 s = (true, k.resumed s) := act_granted hgrant _ _ s
  have hwait : k.wait (k.resumed s) =
      (some (.stopped sig cause), (k.resumed s).record .wait true) := by
    simp [Kernel.wait, Kernel.ask, hgrant, h, Report.dead, Ptrace.record]
  simp only [Kernel.waitRound, hcont, hwait]
  split <;> rfl

/-- The wait loop meets the first `SIGTRAP` stop. -/
theorem Kernel.waitLoop_trapsAt (hi : i ≤ left) (h : TrapsAt k.report s.resumes i cause) :
    ∃ s', k.waitLoop left s = (.trapped cause, s') ∧
      s'.target = ran k.exec s.resumes (i + 1) s.target := by
  induction i generalizing left s with
  | zero =>
    cases h with
    | here h =>
      unfold Kernel.waitLoop
      rw [waitRound_granted hgrant h]
      exact ⟨_, rfl, rfl⟩
  | succ i ih =>
    cases h with
    | later h hrest =>
      obtain ⟨sig, _, h, hsig⟩ := h
      obtain ⟨left, rfl⟩ : ∃ n, left = n + 1 := ⟨left - 1, by omega⟩
      unfold Kernel.waitLoop
      rw [waitRound_granted hgrant h, if_neg hsig]
      exact ih (by omega) hrest

/-- `remote_call` returns what the target has at the first `SIGTRAP` stop. -/
theorem remoteCall_trapsAt (func : BitVec 64) (a : CallArgs) (hi : i ≤ 16)
    (h : TrapsAt k.report s.resumes i cause) :
    let out := remoteCall k func a s
    out.ok = true ∧
      out.accepted = some (cause, ran k.exec s.resumes (i + 1) (callFrame s.target func a)) := by
  intro out
  obtain ⟨s₁, hpoke, hres, htarget⟩ :=
    Kernel.pokeByte_granted hgrant s.target.regs.rip (s.record .getRegs true)
  -- the state in which the wait loop starts
  obtain ⟨s₂, hdata, hres₂, htarget₂⟩ : ∃ s₂,
      k.pokeData (returnSlot s.target.regs.rsp) s.target.regs.rip s₁ = (true, s₂) ∧
        s₂.resumes = s.resumes ∧ s₂.target.mem = (callFrame s.target func a).mem :=
    ⟨_, Kernel.act_granted hgrant _ _ s₁, hres, by simp [htarget, callFrame]⟩
  obtain ⟨s₃, hregs, hres₃, htarget₃⟩ : ∃ s₃,
      k.setRegs (callRegs s.target.regs func a) s₂ = (true, s₃) ∧
        s₃.resumes = s.resumes ∧ s₃.target = callFrame s.target func a :=
    ⟨_, Kernel.act_granted hgrant _ _ s₂, hres₂, by simp [htarget₂, callFrame]⟩
  obtain ⟨s₄, hloop, htarget₄⟩ :=
    Kernel.waitLoop_trapsAt hgrant (s := s₃) hi (hres₃.symm ▸ h)
  have hout : out = remoteCall k func a s := rfl
  rw [remoteCall, Kernel.getRegs_granted hgrant] at hout
  simp only [Ptrace.record_target] at hpoke
  simp only [hpoke, hdata, hregs, hloop, Kernel.getRegs_granted hgrant, htarget₄, hres₃,
    htarget₃] at hout
  rw [hout]
  exact ⟨rfl, rfl⟩

end Granted

end Loop

/-! ## The result -/

/-- **A reported success is a call that returned, exactly when the target reports no other `SIGTRAP`
stop first.** On the left: whichever calls succeed, if `remote_call` reports success, the target has
run from the call's frame to the stop that was accepted, that stop is the breakpoint at the return
address with the stack pointer above the return slot, and the value returned is `rax` there. -/
theorem call_returned_iff (k : Kernel) (func : BitVec 64) (a : CallArgs) (s : Ptrace) :
    (∀ grant, let out := remoteCall { k with grant } func a s
      out.ok = true → ∃ i x, i ≤ 16 ∧ x = ran k.exec s.resumes (i + 1) (callFrame s.target func a) ∧
        out.accepted = some (.int3, x) ∧ x.regs.rip = s.target.regs.rip + 1 ∧
        x.regs.rsp = returnSlot s.target.regs.rsp + 8 ∧ out.ret = x.regs.rax) ↔
      k.TrapFirst s.resumes s.target.regs.rip (callFrame s.target func a) := by
  constructor
  · intro h i cause hi htrap
    -- every call granted, the call returns at this stop
    obtain ⟨hok, hacc⟩ := remoteCall_trapsAt (k := { k with grant := fun _ => true })
      (fun _ => rfl) func a hi htrap
    obtain ⟨_, x, _, _, hacc', hrip, hrsp, _⟩ := h _ hok
    obtain ⟨rfl, rfl⟩ := Prod.mk.inj (Option.some.inj (hacc.symm.trans hacc'))
    exact ⟨rfl, hrip, hrsp⟩
  · intro h grant out hok
    have hpath : CallPath { k with grant } func a s out := remoteCall_path _ func a s
    clear_value out
    cases hpath with
    | early | unframed | died | failed | unread => cases hok
    | returned hf hl _ =>
      obtain ⟨i, hi, htrap, ht⟩ := hl.trapsAt
      rw [hf.resumes, hf.target] at ht
      rw [hf.resumes] at htrap
      obtain ⟨rfl, hreturned⟩ := h i _ hi htrap
      exact ⟨i, _, hi, ht, rfl, ht ▸ hreturned.rip, ht ▸ hreturned.rsp, rfl⟩

/-- The target is in a signal-delivery stop when it is interrupted. Its first resume runs nothing
and reports the pending event stop: `remote_call` reports success at the first instruction of the
function, and returns the `rax` of the interrupted code. -/
theorem pending_stop_accepted :
    let k := Kernel.granting (fun _ x => x) fun n =>
      if n = 0 then .stopped 19 .signal else .stopped sigtrap .event
    let s := (k.injectorSeize sampleStopped).2
    let out := remoteCall k 0x5000 ⟨1, 2, 3, 4, 5, 6⟩ s
    (k.injectorSeize sampleStopped).1 = 0 ∧ out.ok = true ∧ out.ret = s.target.regs.rax ∧
      out.accepted = some (.event, callFrame s.target 0x5000 ⟨1, 2, 3, 4, 5, 6⟩) ∧
      (callFrame s.target 0x5000 ⟨1, 2, 3, 4, 5, 6⟩).regs.rip = 0x5000 ∧
      s.target.regs.rip + 1 ≠ 0x5000 :=
  ⟨by decide, by decide, by decide, rfl, rfl, by decide⟩

end TicketConnect
