import TicketConnect.Injector.Ptrace

/-!
# Calling a function in the target

The model of `remote_call` (`injector/remote.c`): save the registers, plant a breakpoint at the
interrupted instruction, push its address as the return address, resume the target until it stops
with `SIGTRAP`, read the result, and restore the word and the registers on every way out.
-/

namespace TicketConnect

open Lib

/-- The six arguments of a call. -/
structure CallArgs where
  a0 : BitVec 64
  a1 : BitVec 64
  a2 : BitVec 64
  a3 : BitVec 64
  a4 : BitVec 64
  a5 : BitVec 64
deriving DecidableEq

/-- The result of `remote_call`: `*ok`, the return value and the state afterwards; and, for the
record, the stop that was taken for the return of the call, with the target at that stop. -/
structure CallOut where
  ok : Bool
  ret : BitVec 64
  state : Ptrace
  accepted : Option (StopCause × Tracee)

/-- How the wait loop of `remote_call` ends: at a `SIGTRAP` stop, with the target's death, or with a
failure. -/
inductive LoopExit where
  | trapped (cause : StopCause)
  | died
  | failed
deriving DecidableEq

namespace Kernel

/-- `poke_byte`: the word it found, `none` for a failure. -/
def pokeByte (k : Kernel) (addr : BitVec 64) (value : BitVec 8) (s : Ptrace) :
    Option (BitVec 64) × Ptrace :=
  match k.peekText addr s with
  | (word, errno, s) =>
    if word = -1 ∧ errno ≠ 0 then (none, s)
    else
      let patched := (word &&& ~~~0xFF) ||| value.setWidth 64
      match k.pokeText addr patched s with
      | (true, s) => (some word, s)
      | (false, s) => (none, s)

/-- One round of the wait loop of `remote_call`: how it ends the loop, `none` for a stop that is
not taken for the return of the call. -/
def waitRound (k : Kernel) (s : Ptrace) : Option LoopExit × Ptrace :=
  match k.cont 0 s with
  | (false, s) => (some .failed, s)
  | (true, s) =>
    match k.wait s with
    | (none, s) => (some .failed, s)
    | (some (.exited _), s) | (some (.signaled _), s) => (some .died, s)
    | (some (.stopped sig cause), s) =>
      if sig = sigtrap then (some (.trapped cause), s) else (none, s)

/-- The wait loop of `remote_call`. `left` is 16 minus the loop's count of spurious stops. -/
def waitLoop (k : Kernel) : Nat → Ptrace → LoopExit × Ptrace
  | left, s =>
    match k.waitRound s with
    | (some e, s) => (e, s)
    | (none, s) =>
      match left with
      | 0 => (.failed, s)
      | left + 1 => waitLoop k left s

/-- The two restoring requests, whose results the code ignores. -/
def restore (k : Kernel) (trap origWord : BitVec 64) (saved : Regs) (s : Ptrace) : Ptrace :=
  match k.pokeText trap origWord s with
  | (_, s) =>
    match k.setRegs saved s with
    | (_, s) => s

end Kernel

/-- The return slot: below the red zone, 16-aligned, minus the pushed address. -/
def returnSlot (rsp : BitVec 64) : BitVec 64 := ((rsp - 256) &&& ~~~0xF) - 8

/-- The registers of the call. -/
def callRegs (saved : Regs) (func : BitVec 64) (a : CallArgs) : Regs :=
  { saved with
    rip := func
    rdi := a.a0
    rsi := a.a1
    rdx := a.a2
    rcx := a.a3
    r8 := a.a4
    r9 := a.a5
    rsp := returnSlot saved.rsp }

/-- A return without success. -/
def CallOut.fail (s : Ptrace) : CallOut := ⟨false, 0, s, none⟩

/-- `remote_call`. -/
def remoteCall (k : Kernel) (func : BitVec 64) (a : CallArgs) (s : Ptrace) : CallOut :=
  match k.getRegs s with
  | (none, s) => .fail s
  | (some saved, s) =>
    let trap := saved.rip
    match k.pokeByte trap 0xCC s with
    | (none, s) => .fail s
    | (some origWord, s) =>
      match k.pokeData (returnSlot saved.rsp) trap s with
      | (false, s) => .fail (k.restore trap origWord saved s)
      | (true, s) =>
        match k.setRegs (callRegs saved func a) s with
        | (false, s) => .fail (k.restore trap origWord saved s)
        | (true, s) =>
          match k.waitLoop 16 s with
          | (.failed, s) => .fail (k.restore trap origWord saved s)
          | (.died, s) => .fail s
          | (.trapped cause, s) =>
            match k.getRegs s with
            | (none, s) => .fail (k.restore trap origWord saved s)
            | (some after, s') =>
              ⟨true, after.rax, k.restore trap origWord saved s', some (cause, s.target)⟩

/-! ## The ways through `remote_call` -/

/-- The word with the breakpoint planted in its first byte. -/
def plantWord (word : BitVec 64) : BitVec 64 := (word &&& ~~~0xFF) ||| (0xCC : BitVec 8).setWidth 64

/-- The target at the start of the call: the breakpoint planted, the return address pushed, the
registers those of the call. -/
def callFrame (x : Tracee) (func : BitVec 64) (a : CallArgs) : Tracee where
  regs := callRegs x.regs func a
  mem := (x.mem.poke x.regs.rip (plantWord (x.mem.peek x.regs.rip))).poke
    (returnSlot x.regs.rsp) x.regs.rip

/-- The call resumes the target. -/
def Req.isCont : Req → Bool
  | .cont _ => true
  | _ => false

/-- The calls `remote_call` makes: it writes only the word at the saved `rip` and the return slot,
and sets the registers only to those of the call and to the saved ones. -/
def CallReq (saved : Regs) (func : BitVec 64) (a : CallArgs) : Req → Prop
  | .getRegs | .wait => True
  | .cont sig => sig = 0
  | .peekText addr | .pokeText addr _ => addr = saved.rip
  | .pokeData addr word => addr = returnSlot saved.rsp ∧ word = saved.rip
  | .setRegs regs => regs = callRegs saved func a ∨ regs = saved
  | .seize _ | .interrupt | .writev .. | .detach _ => False

/-- Between two states, only calls with property `P` were made, at most `n` of which resume the
target. -/
def Ptrace.Issues (P : Req → Prop) (n : Nat) (s s' : Ptrace) : Prop :=
  ∃ new, s'.reqs = s.reqs ++ new ∧ (∀ i ∈ new, P i.req) ∧ new.countP (·.req.isCont) ≤ n

section Issues
variable {P : Req → Prop} {n m : Nat} {k : Kernel} {s s' s'' : Ptrace}

/-- A larger bound. -/
theorem Ptrace.Issues.mono (h : s.Issues P n s') (hn : n ≤ m) : s.Issues P m s' := by
  obtain ⟨new, heq, hP, hle⟩ := h
  exact ⟨new, heq, hP, hle.trans hn⟩

/-- The calls of two parts of a run. -/
theorem Ptrace.Issues.trans (h : s.Issues P n s') (h' : s'.Issues P m s'') :
    s.Issues P (n + m) s'' := by
  obtain ⟨new, heq, hP, hn⟩ := h
  obtain ⟨new', heq', hP', hn'⟩ := h'
  refine ⟨new ++ new', by rw [heq', heq, List.append_assoc], fun i hi => ?_, ?_⟩
  · rcases List.mem_append.1 hi with hi | hi
    exacts [hP i hi, hP' i hi]
  · rw [List.countP_append]
    omega

/-- One call that does not resume the target. -/
theorem Ptrace.Issues.one {req : Req} {g : Bool} (hreqs : s'.reqs = s.reqs ++ [⟨req, g⟩])
    (hP : P req) (hn : req.isCont = false) : s.Issues P 0 s' := by
  refine ⟨_, hreqs, fun i hi => ?_, ?_⟩
  · rw [List.mem_singleton.1 hi]
    exact hP
  · simp [hn]

/-- A call that changes the target, other than one that resumes it. -/
theorem Kernel.act_issues {req : Req} {effect : Ptrace → Ptrace} {g : Bool}
    (h : k.act req effect s = (g, s')) (heffect : ∀ x, (effect x).reqs = x.reqs) (hP : P req)
    (hn : req.isCont = false) : s.Issues P 0 s' := by
  cases g with
  | true => exact .one (g := true) (by rw [act_true h, heffect, Ptrace.record_reqs]) hP hn
  | false => exact .one (g := false) (by rw [act_false h, Ptrace.record_reqs]) hP hn

/-- `PTRACE_GETREGS`. -/
theorem Kernel.getRegs_issues {r : Option Regs} (h : k.getRegs s = (r, s')) (hP : P .getRegs) :
    s.Issues P 0 s' :=
  .one (g := r.isSome) (by rw [(getRegs_eq h).1, Ptrace.record_reqs]) hP rfl

end Issues

/-! ## The ways through the wait loop -/

/-- The state after a `PTRACE_CONT` that succeeds. -/
def Kernel.resumed (k : Kernel) (s : Ptrace) : Ptrace :=
  { s.record (.cont 0) true with
    target := k.exec (s.resumes + 1) s.target
    resumes := s.resumes + 1 }

@[simp] theorem Kernel.resumed_resumes (k : Kernel) (s : Ptrace) :
    (k.resumed s).resumes = s.resumes + 1 := rfl

@[simp] theorem Kernel.resumed_reqs (k : Kernel) (s : Ptrace) :
    (k.resumed s).reqs = s.reqs ++ [⟨.cont 0, true⟩] := rfl

/-- One round of the wait loop: the target is not resumed, there is no report, or the report after
the resume is a death, a `SIGTRAP` stop or another stop. -/
inductive Round (k : Kernel) (s : Ptrace) : Option LoopExit → Ptrace → Prop where
  | refused : Round k s (some .failed) (s.record (.cont 0) false)
  | unreported : Round k s (some .failed) ((k.resumed s).record .wait false)
  | dead (h : (k.report (s.resumes + 1)).dead = true) :
      Round k s (some .died) { (k.resumed s).record .wait true with died := true }
  | trapped {cause : StopCause} (h : k.report (s.resumes + 1) = .stopped sigtrap cause) :
      Round k s (some (.trapped cause)) ((k.resumed s).record .wait true)
  | spurious {sig : Nat} {cause : StopCause} (h : k.report (s.resumes + 1) = .stopped sig cause)
      (hsig : sig ≠ sigtrap) : Round k s none ((k.resumed s).record .wait true)

/-- The rounds of the wait loop, with `left` spurious stops left. -/
inductive Rounds (k : Kernel) : Nat → Ptrace → LoopExit → Ptrace → Prop where
  | exit {left : Nat} {s s' : Ptrace} {e : LoopExit} (h : Round k s (some e) s') :
      Rounds k left s e s'
  | stuck {s s' : Ptrace} (h : Round k s none s') : Rounds k 0 s .failed s'
  | again {left : Nat} {s s₁ s' : Ptrace} {e : LoopExit} (h : Round k s none s₁)
      (hrest : Rounds k left s₁ e s') : Rounds k (left + 1) s e s'

section Loop
variable {k : Kernel} {s s' : Ptrace}

/-- A round of the wait loop goes one of these ways. -/
theorem Kernel.waitRound_round {r : Option LoopExit} (h : k.waitRound s = (r, s')) :
    Round k s r s' := by
  unfold Kernel.waitRound at h
  split at h
  next s₁ hc =>
    cases h
    rw [act_false hc]
    exact .refused
  next s₁ hc =>
  obtain rfl : s₁ = k.resumed s := act_true hc
  split at h
  next hw =>
    cases h
    rw [wait_none hw]
    exact .unreported
  next hw =>
    cases h
    obtain ⟨hr, rfl⟩ := wait_dead hw rfl
    exact .dead (by rw [← Kernel.resumed_resumes, hr]; rfl)
  next hw =>
    cases h
    obtain ⟨hr, rfl⟩ := wait_dead hw rfl
    exact .dead (by rw [← Kernel.resumed_resumes, hr]; rfl)
  next hw =>
    obtain ⟨hr, rfl⟩ := wait_stopped hw
    split at h
    next hsig => cases h; exact .trapped (hsig ▸ hr)
    next hsig => cases h; exact .spurious hr hsig

/-- The wait loop goes through such rounds. -/
theorem Kernel.waitLoop_rounds {left : Nat} {e : LoopExit} (h : k.waitLoop left s = (e, s')) :
    Rounds k left s e s' := by
  induction left generalizing s with
  | zero =>
    unfold Kernel.waitLoop at h
    split at h
    next hr => cases h; exact .exit (waitRound_round hr)
    next hr => cases h; exact .stuck (waitRound_round hr)
  | succ left ih =>
    unfold Kernel.waitLoop at h
    split at h
    next hr => cases h; exact .exit (waitRound_round hr)
    next hr => exact .again (waitRound_round hr) (ih h)

end Loop

section Paths
variable {k : Kernel} {func : BitVec 64} {a : CallArgs} {s s' : Ptrace}

/-- `poke_byte` found the word and planted the byte, or it changed nothing. -/
theorem Kernel.pokeByte_eq {addr : BitVec 64} {r : Option (BitVec 64)}
    (h : k.pokeByte addr 0xCC s = (r, s')) {P : Req → Prop} (hpeek : P (.peekText addr))
    (hpoke : ∀ w, P (.pokeText addr w)) :
    s.Issues P 0 s' ∧ s'.resumes = s.resumes ∧
      (r = none ∧ s'.target = s.target ∨ r = some (s.target.mem.peek addr) ∧
        s'.target = { s.target with
          mem := s.target.mem.poke addr (plantWord (s.target.mem.peek addr)) }) := by
  unfold Kernel.pokeByte at h
  split at h
  next word errno s₁ hp =>
  obtain ⟨rfl, hword⟩ := peekText_eq hp
  have h₁ : s.Issues P 0 (s.record (.peekText addr) (errno == 0)) := .one rfl hpeek rfl
  split at h
  · cases h
    exact ⟨h₁, rfl, .inl ⟨rfl, rfl⟩⟩
  next hne =>
  -- not a failure, so the word is the one in memory, be it all ones
  obtain ⟨rfl, rfl⟩ : word = s.target.mem.peek addr ∧ errno = 0 := hword.resolve_left hne
  dsimp only at h
  split at h
  next hq =>
    cases h
    refine ⟨h₁.trans (act_issues hq (fun _ => rfl) (hpoke _) rfl), ?_⟩
    rw [act_true hq]
    exact ⟨rfl, .inr ⟨rfl, rfl⟩⟩
  next hq =>
    cases h
    refine ⟨h₁.trans (act_issues hq (fun _ => rfl) (hpoke _) rfl), ?_⟩
    rw [act_false hq]
    exact ⟨rfl, .inl ⟨rfl, rfl⟩⟩

/-- Two memories agree but for the planted word and the return slot. -/
def SameOutside (saved : Regs) (m m' : ByteMem) : Prop :=
  ∀ b, ¬ ByteMem.InWord saved.rip b → ¬ ByteMem.InWord (returnSlot saved.rsp) b → m' b = m b

/-- The target is set up for the call. -/
structure Framed (func : BitVec 64) (a : CallArgs) (s s' : Ptrace) : Prop where
  issues : s.Issues (CallReq s.target.regs func a) 0 s'
  target : s'.target = callFrame s.target func a
  resumes : s'.resumes = s.resumes

/-- Setting the call up writes the planted word and the return slot. -/
theorem callFrame_sameOutside (x : Tracee) (func : BitVec 64) (a : CallArgs) :
    SameOutside x.regs x.mem (callFrame x func a).mem := by
  intro b hb hslot
  exact (ByteMem.poke_of_not_inWord hslot).trans (ByteMem.poke_of_not_inWord hb)

/-- `restore:`, with what `remote_call` saved from the target. -/
def Kernel.restoreFrom (k : Kernel) (x : Tracee) (s : Ptrace) : Ptrace :=
  k.restore x.regs.rip (x.mem.peek x.regs.rip) x.regs s

/-- The ways through `remote_call`: it returns before it has changed anything, it fails before the
target is set up, the target dies, the wait loop fails, the result cannot be read, or it returns the
result. -/
inductive CallPath (k : Kernel) (func : BitVec 64) (a : CallArgs) (s : Ptrace) :
    CallOut → Prop where
  | early {s' : Ptrace} (hi : s.Issues (CallReq s.target.regs func a) 0 s')
      (ht : s'.target = s.target) : CallPath k func a s (.fail s')
  | unframed {s' : Ptrace} (hi : s.Issues (CallReq s.target.regs func a) 0 s')
      (hm : SameOutside s.target.regs s.target.mem s'.target.mem) :
      CallPath k func a s (.fail (k.restoreFrom s.target s'))
  | died {s₁ s' : Ptrace} (hf : Framed func a s s₁) (hl : Rounds k 16 s₁ .died s') :
      CallPath k func a s (.fail s')
  | failed {s₁ s' : Ptrace} (hf : Framed func a s s₁) (hl : Rounds k 16 s₁ .failed s') :
      CallPath k func a s (.fail (k.restoreFrom s.target s'))
  | unread {s₁ s₂ s' : Ptrace} {cause : StopCause} (hf : Framed func a s s₁)
      (hl : Rounds k 16 s₁ (.trapped cause) s₂) (hg : k.getRegs s₂ = (none, s')) :
      CallPath k func a s (.fail (k.restoreFrom s.target s'))
  | returned {s₁ s₂ s' : Ptrace} {cause : StopCause} (hf : Framed func a s s₁)
      (hl : Rounds k 16 s₁ (.trapped cause) s₂)
      (hg : k.getRegs s₂ = (some s₂.target.regs, s')) :
      CallPath k func a s
        ⟨true, s₂.target.regs.rax, k.restoreFrom s.target s', some (cause, s₂.target)⟩

/-- `remote_call` goes one of these ways. -/
theorem remoteCall_path (k : Kernel) (func : BitVec 64) (a : CallArgs) (s : Ptrace) :
    CallPath k func a s (remoteCall k func a s) := by
  unfold remoteCall
  split
  next s₁ hg =>
    obtain ⟨rfl, -⟩ := Kernel.getRegs_eq hg
    exact .early (.one rfl trivial rfl) rfl
  next saved s₁ hg =>
  obtain ⟨rfl, hsaved⟩ := Kernel.getRegs_eq hg
  obtain rfl := hsaved _ rfl
  have h₁ : s.Issues (CallReq s.target.regs func a) 0 (s.record .getRegs true) :=
    .one rfl trivial rfl
  dsimp only
  split
  next s₂ hb =>
    obtain ⟨hi, -, ⟨-, ht⟩ | ⟨hr, -⟩⟩ := Kernel.pokeByte_eq
      (P := CallReq s.target.regs func a) hb rfl fun _ => rfl
    · exact .early (h₁.trans hi) ht
    · cases hr
  next w s₂ hb =>
  obtain ⟨hi, hres, ⟨hr, -⟩ | ⟨hr, ht⟩⟩ := Kernel.pokeByte_eq
    (P := CallReq s.target.regs func a) hb rfl fun _ => rfl
  · cases hr
  obtain rfl := Option.some.inj hr
  have h₂ := h₁.trans hi
  split
  next s₃ hd =>
    refine .unframed (h₂.trans (Kernel.act_issues hd (fun _ => rfl) ⟨rfl, rfl⟩ rfl)) ?_
    intro b hb _
    rw [Kernel.act_false hd, Ptrace.record_target, ht]
    exact ByteMem.poke_of_not_inWord hb
  next s₃ hd =>
  have h₃ := h₂.trans (Kernel.act_issues hd (fun _ => rfl) ⟨rfl, rfl⟩ rfl)
  split
  next s₄ hr =>
    refine .unframed (h₃.trans (Kernel.act_issues hr (fun _ => rfl) (.inl rfl) rfl)) ?_
    rw [Kernel.act_false hr, Ptrace.record_target, Kernel.act_true hd]
    simp only [Ptrace.record_target, ht]
    exact callFrame_sameOutside s.target func a
  next s₄ hr =>
  have hf : Framed func a s s₄ := by
    refine ⟨h₃.trans (Kernel.act_issues hr (fun _ => rfl) (.inl rfl) rfl), ?_, ?_⟩
    all_goals rw [Kernel.act_true hr, Kernel.act_true hd]
    · simp [ht, callFrame]
    · exact hres
  split
  next s₅ hl => exact .failed hf (Kernel.waitLoop_rounds hl)
  next s₅ hl => exact .died hf (Kernel.waitLoop_rounds hl)
  next cause s₅ hl =>
  split
  next s₆ hg' => exact .unread hf (Kernel.waitLoop_rounds hl) hg'
  next after s₆ hg' =>
  obtain rfl := (Kernel.getRegs_eq hg').2 _ rfl
  exact .returned hf (Kernel.waitLoop_rounds hl) hg'

end Paths

end TicketConnect
