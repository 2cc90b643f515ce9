import TicketConnect.Injector.RemoteCall

/-!
# `remote_call` leaves the target as it found it

Over every kernel and every behaviour of the target, read off the ways through `remote_call`
(`CallPath`): the calls it makes write only the planted word and the return slot and resume the
target at most 17 times, and on every exit but the target's death the registers and the word are put
back, unless a restoring request fails.
-/

namespace TicketConnect

open Lib

/-! ## The wait loop -/

section Loop
variable {P : Req → Prop} {k : Kernel} {s s' : Ptrace}

/-- One round of the wait loop resumes the target once. -/
theorem Round.issues (hcont : P (.cont 0)) (hwait : P .wait) {r : Option LoopExit}
    (h : Round k s r s') : s.Issues P 1 s' := by
  cases h with
  | refused => exact ⟨[⟨.cont 0, false⟩], rfl, by simpa using hcont, by simp [Req.isCont]⟩
  | unreported =>
    exact ⟨[⟨.cont 0, true⟩, ⟨.wait, false⟩], by simp, by simp [hcont, hwait], by simp [Req.isCont]⟩
  | dead | trapped | spurious =>
    exact ⟨[⟨.cont 0, true⟩, ⟨.wait, true⟩], by simp, by simp [hcont, hwait], by simp [Req.isCont]⟩

/-- The wait loop resumes the target at most once more than it has spurious stops left. -/
theorem Rounds.issues (hcont : P (.cont 0)) (hwait : P .wait) {left : Nat} {e : LoopExit}
    (h : Rounds k left s e s') : s.Issues P (left + 1) s' := by
  induction h with
  | exit hr => exact (hr.issues hcont hwait).mono (by omega)
  | stuck hr => exact hr.issues hcont hwait
  | again hr _ ih => exact ((hr.issues hcont hwait).trans ih).mono (by omega)

/-- A loop that ends with the target's death has seen it reported. -/
theorem Rounds.died {left : Nat} (h : Rounds k left s .died s') : s'.died = true := by
  generalize he : LoopExit.died = e at h
  induction h with
  | exit hr => subst he; cases hr; rfl
  | stuck => cases he
  | again _ _ ih => exact ih he

/-- The target does not write a byte while it runs. -/
def Kernel.Spares (k : Kernel) (b : BitVec 64) : Prop := ∀ n x, (k.exec n x).mem b = x.mem b

/-- A round of the wait loop changes memory only as the target does. -/
theorem Round.mem {b : BitVec 64} (hb : k.Spares b) {r : Option LoopExit} (h : Round k s r s') :
    s'.target.mem b = s.target.mem b := by
  cases h with
  | refused => rfl
  | unreported | dead | trapped | spurious => exact hb _ _

/-- The wait loop changes memory only as the target does. -/
theorem Rounds.mem {b : BitVec 64} (hb : k.Spares b) {left : Nat} {e : LoopExit}
    (h : Rounds k left s e s') : s'.target.mem b = s.target.mem b := by
  induction h with
  | exit hr | stuck hr => exact hr.mem hb
  | again hr _ ih => exact ih.trans (hr.mem hb)

end Loop

/-! ## `restore:` -/

/-- The restoring requests, with their outcomes. -/
def Tracee.restoring (x : Tracee) (g g' : Bool) : List Issued :=
  [⟨.pokeText x.regs.rip (x.mem.peek x.regs.rip), g⟩, ⟨.setRegs x.regs, g'⟩]

/-- The last calls made are the restoring requests, and one of them has failed. -/
def Ptrace.RestoreFailed (x : Tracee) (s : Ptrace) : Prop :=
  ∃ g g', x.restoring g g' <:+ s.reqs ∧ (g && g') = false

/-- The last calls made are the restoring requests, and both have succeeded. -/
theorem Ptrace.not_restoreFailed {x : Tracee} {s : Ptrace}
    (h : x.restoring true true <:+ s.reqs) : ¬s.RestoreFailed x := by
  rintro ⟨g, g', hsuffix, hfailed⟩
  have heq := (List.suffix_of_suffix_length_le hsuffix h le_rfl).eq_of_length rfl
  simp only [Tracee.restoring, List.cons.injEq, Issued.mk.injEq] at heq
  rw [heq.1.2, heq.2.1.2] at hfailed
  cases hfailed

section Restore
variable {k : Kernel} {func : BitVec 64} {a : CallArgs}

/-- A call that changes the target is recorded. -/
theorem Kernel.act_reqs {req : Req} {effect : Ptrace → Ptrace} {s s' : Ptrace} {g : Bool}
    (h : k.act req effect s = (g, s')) (heffect : ∀ y, (effect y).reqs = y.reqs) :
    s'.reqs = s.reqs ++ [⟨req, g⟩] := by
  cases g with
  | true => rw [act_true h, heffect, Ptrace.record_reqs]
  | false => rw [act_false h, Ptrace.record_reqs]

/-- The restoring requests, as they are recorded; where both succeed, they put back the word and the
registers. -/
theorem Kernel.restoreFrom_spec (k : Kernel) (x : Tracee) (s : Ptrace) :
    ∃ g g', (k.restoreFrom x s).reqs = s.reqs ++ x.restoring g g' ∧
      ((g && g') = true → (k.restoreFrom x s).target.regs = x.regs ∧
        (k.restoreFrom x s).target.mem.peek x.regs.rip = x.mem.peek x.regs.rip) := by
  unfold Kernel.restoreFrom Kernel.restore
  split
  next g s₁ hp =>
  split
  next g' s₂ hr =>
  have h₁ := act_reqs hp fun _ => rfl
  have h₂ := act_reqs hr fun _ => rfl
  refine ⟨g, g', by rw [h₂, h₁, List.append_assoc]; rfl, fun hboth => ?_⟩
  obtain ⟨rfl, rfl⟩ := Bool.and_eq_true_iff.1 hboth
  rw [act_true hr, act_true hp]
  exact ⟨rfl, ByteMem.peek_poke _ _ _⟩

/-- The restoring requests are calls of `remote_call`. -/
theorem Kernel.restoreFrom_issues (k : Kernel) (x : Tracee) (s : Ptrace) :
    s.Issues (CallReq x.regs func a) 0 (k.restoreFrom x s) := by
  obtain ⟨g, g', hreqs, -⟩ := k.restoreFrom_spec x s
  exact ⟨_, hreqs, by simp [Tracee.restoring, CallReq], by simp [Tracee.restoring, Req.isCont]⟩

/-- The restoring requests, where none of them fails, put back the word and the registers. -/
theorem Kernel.restoreFrom_target {x : Tracee} {s : Ptrace}
    (h : ¬(k.restoreFrom x s).RestoreFailed x) :
    (k.restoreFrom x s).target.regs = x.regs ∧
      (k.restoreFrom x s).target.mem.peek x.regs.rip = x.mem.peek x.regs.rip := by
  obtain ⟨g, g', hreqs, htarget⟩ := k.restoreFrom_spec x s
  refine htarget (Bool.eq_true_of_not_eq_false fun hfailed => h ⟨g, g', ?_, hfailed⟩)
  rw [hreqs]
  exact List.suffix_append _ _

/-- The restoring requests write the planted word only. -/
theorem Kernel.restoreFrom_mem (k : Kernel) {x : Tracee} {b : BitVec 64}
    (hb : ¬ ByteMem.InWord x.regs.rip b) (s : Ptrace) :
    (k.restoreFrom x s).target.mem b = s.target.mem b := by
  unfold Kernel.restoreFrom Kernel.restore
  split
  next g s₁ hp =>
  split
  next g' s₂ hr =>
  have h₁ : s₁.target.mem b = s.target.mem b := by
    cases g with
    | true => rw [act_true hp]; exact ByteMem.poke_of_not_inWord hb
    | false => rw [act_false hp]; rfl
  cases g' with
  | true => rw [act_true hr]; exact h₁
  | false => rw [act_false hr]; exact h₁

end Restore

/-! ## The return slot -/

/-- The return slot lies below the red zone, at 8 modulo 16. -/
theorem returnSlot_spec {rsp : BitVec 64} (h : 279 ≤ rsp.toNat) :
    (returnSlot rsp).toNat + 8 ≤ rsp.toNat - 256 ∧ (returnSlot rsp).toNat % 16 = 8 := by
  have hsub : (rsp - 256).toNat = rsp.toNat - 256 := by bv_omega
  have hmask : ((rsp - 256) &&& ~~~0xF).toNat = (rsp - 256).toNat / 16 * 16 :=
    toNat_and_not_mask (rsp - 256) 4
  rw [hsub] at hmask
  have hslot : (returnSlot rsp).toNat = (rsp.toNat - 256) / 16 * 16 - 8 := by
    unfold returnSlot
    generalize (rsp - 256) &&& ~~~0xF = aligned at hmask ⊢
    bv_omega
  omega

/-! ## The result -/

section Result
variable {k : Kernel} {func : BitVec 64} {a : CallArgs} {s : Ptrace} {out : CallOut}

/-- The calls up to the end of the wait loop. -/
theorem Framed.loop_issues {s₁ s' : Ptrace} {e : LoopExit} (hf : Framed func a s s₁)
    (hl : Rounds k 16 s₁ e s') : s.Issues (CallReq s.target.regs func a) 17 s' :=
  hf.issues.trans (hl.issues (P := CallReq s.target.regs func a) rfl trivial)

/-- The calls on every way through `remote_call`. -/
theorem CallPath.issues (h : CallPath k func a s out) :
    s.Issues (CallReq s.target.regs func a) 17 out.state := by
  cases h with
  | early hi => exact hi.mono (by decide)
  | unframed hi => exact (hi.trans (k.restoreFrom_issues s.target _)).mono (by decide)
  | died hf hl => exact hf.loop_issues hl
  | failed hf hl =>
    have h₁ := hf.loop_issues hl
    exact (h₁.trans (k.restoreFrom_issues s.target _)).mono (by decide)
  | unread hf hl hg | returned hf hl hg =>
    have h₁ := hf.loop_issues hl
    have h₂ := h₁.trans (Kernel.getRegs_issues hg trivial)
    exact (h₂.trans (k.restoreFrom_issues s.target _)).mono (by decide)

/-- The registers and the planted word on every way through `remote_call`. -/
theorem CallPath.target (h : CallPath k func a s out) (halive : out.state.died = false)
    (hrestored : ¬out.state.RestoreFailed s.target) :
    out.state.target.regs = s.target.regs ∧
      out.state.target.mem.peek s.target.regs.rip = s.target.mem.peek s.target.regs.rip := by
  cases h with
  | early _ ht => exact ht ▸ ⟨rfl, rfl⟩
  | died _ hl =>
    cases halive.symm.trans hl.died
  | unframed | failed | unread | returned => exact Kernel.restoreFrom_target hrestored

/-- The rest of the memory on every way through `remote_call`. -/
theorem CallPath.mem (h : CallPath k func a s out) {b : BitVec 64} (hb : k.Spares b)
    (hrip : ¬ ByteMem.InWord s.target.regs.rip b)
    (hslot : ¬ ByteMem.InWord (returnSlot s.target.regs.rsp) b) :
    out.state.target.mem b = s.target.mem b := by
  have hframe : ∀ {s₁}, Framed func a s s₁ → s₁.target.mem b = s.target.mem b := fun hf => by
    rw [hf.target]
    exact callFrame_sameOutside _ _ _ b hrip hslot
  cases h with
  | early _ ht => exact congrArg (·.mem b) ht
  | unframed _ hm => exact (k.restoreFrom_mem hrip _).trans (hm b hrip hslot)
  | died hf hl => exact (hl.mem hb).trans (hframe hf)
  | failed hf hl =>
    exact (k.restoreFrom_mem hrip _).trans ((hl.mem hb).trans (hframe hf))
  | unread hf hl hg | returned hf hl hg =>
    refine (k.restoreFrom_mem hrip _).trans ?_
    rw [(Kernel.getRegs_eq hg).1]
    exact (hl.mem hb).trans (hframe hf)

end Result

/-- **`remote_call` leaves the target as it found it.** For every target state, function, arguments,
outcome of each request and sequence of stop reports: if the target did not die, the registers and
the word at the saved `rip` are those at entry, unless the calls end with the two restoring requests
and one of these has failed. The calls it makes write memory only there and in the return slot
(`CallReq`), so a byte elsewhere that the target itself does not write is unchanged; the slot lies
below the red zone and the callee enters with its stack pointer at 8 modulo 16; the target is
resumed at most 17 times. -/
theorem remote_call_restores (k : Kernel) (func : BitVec 64) (a : CallArgs) (s : Ptrace) :
    let out := remoteCall k func a s
    let saved := s.target.regs
    let slot := returnSlot saved.rsp
    (out.state.died = false → ¬out.state.RestoreFailed s.target →
      out.state.target.regs = saved ∧
        out.state.target.mem.peek saved.rip = s.target.mem.peek saved.rip) ∧
    (∀ b, ¬ ByteMem.InWord saved.rip b → ¬ ByteMem.InWord slot b → k.Spares b →
      out.state.target.mem b = s.target.mem b) ∧
    (∃ new, out.state.reqs = s.reqs ++ new ∧ (∀ i ∈ new, CallReq saved func a i.req) ∧
      new.countP (·.req.isCont) ≤ 17) ∧
    (279 ≤ saved.rsp.toNat → (callRegs saved func a).rsp = slot ∧
      slot.toNat + 8 ≤ saved.rsp.toNat - 256 ∧ slot.toNat % 16 = 8) := by
  intro out saved slot
  have hpath : CallPath k func a s out := remoteCall_path k func a s
  exact ⟨hpath.target, fun b hrip hslot hb => hpath.mem hb hrip hslot, hpath.issues,
    fun hrsp => ⟨rfl, returnSlot_spec hrsp⟩⟩

/-- A target whose word at `rip` is all ones, which reports a `SIGSTOP` before it has run and then
returns. -/
theorem remote_call_restores_ones :
    let k := Kernel.granting (fun n x => if n = 1 then x else x.afterReturn 7)
      fun n => if n = 1 then .stopped 19 .signal else .stopped sigtrap .int3
    let s := sampleStopped
    let out := remoteCall k 0x5000 ⟨1, 2, 3, 4, 5, 6⟩ s
    out.state.died = false ∧ ¬out.state.RestoreFailed s.target ∧
      279 ≤ s.target.regs.rsp.toNat ∧ k.Spares 0x9000 ∧ out.state.target.regs = s.target.regs ∧
      out.state.target.mem.peek s.target.regs.rip = s.target.mem.peek s.target.regs.rip ∧
      out.state.target.mem 0x9000 = s.target.mem 0x9000 ∧
      (returnSlot s.target.regs.rsp).toNat % 16 = 8 := by
  intro k s out
  have h := remote_call_restores k 0x5000 ⟨1, 2, 3, 4, 5, 6⟩ s
  have hspares : k.Spares 0x9000 := by
    intro n x
    show (if n = 1 then x else x.afterReturn 7).mem 0x9000 = _
    split <;> rfl
  have halive : out.state.died = false := by decide
  have hrestored : ¬out.state.RestoreFailed s.target := Ptrace.not_restoreFailed (by decide)
  have hrsp : 279 ≤ s.target.regs.rsp.toNat := by decide
  exact ⟨halive, hrestored, hrsp, hspares, (h.1 halive hrestored).1, (h.1 halive hrestored).2,
    h.2.1 0x9000 (by decide) (by decide) hspares, (h.2.2.2 hrsp).2.2⟩

end TicketConnect
