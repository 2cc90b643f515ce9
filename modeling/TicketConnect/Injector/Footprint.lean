import TicketConnect.Injector.Attached
import TicketConnect.Injector.NoUpgrade
import TicketConnect.Injector.Restore

/-!
# The footprint of an injection

`remote_call` restores what it saves, and `inject_session` makes up to five such calls and two
writes between a seize and a detach. This module puts them together: at every point between two
calls the stopped target has the registers it was seized with, and its memory differs from that at
the seize only in the return slot, in the bytes of the payload, and where the target's own code
wrote (`Tracee.Kept`). Since every call starts from the same registers, all of them use the same
word of code and the same return slot.
-/

namespace TicketConnect

open Lib

/-! ## What is put back, and what is not -/

/-- The request puts back what `remote_call` saves: the registers, or the word at `rip`. -/
def Tracee.PutsBack (x : Tracee) (req : Req) : Prop :=
  req = .setRegs x.regs ∨ req = .pokeText x.regs.rip (x.mem.peek x.regs.rip)

instance (x : Tracee) : DecidablePred x.PutsBack :=
  fun _ => inferInstanceAs (Decidable (_ ∨ _))

/-- Every such request so far has succeeded. -/
def Ptrace.PutBack (x : Tracee) (s : Ptrace) : Prop :=
  ∀ i ∈ s.reqs, x.PutsBack i.req → i.granted = true

/-- The target is as it was at the seize, but for the return slot, the bytes of `W`, and the bytes
that it writes itself. The word at `rip` is put back also where the target writes it. -/
structure Tracee.Kept (k : Kernel) (W : BitVec 64 → Prop) (x y : Tracee) : Prop where
  regs : y.regs = x.regs
  mem : ∀ b, ¬W b → ByteMem.InWord x.regs.rip b ∨
    ¬ByteMem.InWord (returnSlot x.regs.rsp) b ∧ k.Spares b → y.mem b = x.mem b

section Kept
variable {k : Kernel} {W W' : BitVec 64 → Prop} {x y : Tracee}

/-- Nothing has happened yet. -/
theorem Tracee.Kept.refl (k : Kernel) (W : BitVec 64 → Prop) (x : Tracee) : x.Kept k W x :=
  ⟨rfl, fun _ _ _ => rfl⟩

/-- More bytes are excepted. -/
theorem Tracee.Kept.mono (h : x.Kept k W y) (hW : ∀ b, W b → W' b) : x.Kept k W' y :=
  ⟨h.regs, fun b hb => h.mem b fun hw => hb (hW b hw)⟩

/-- The word at `rip` is the one at the seize. -/
theorem Tracee.Kept.peek (h : x.Kept k W y) (hW : ∀ b, ByteMem.InWord x.regs.rip b → ¬W b) :
    y.mem.peek x.regs.rip = x.mem.peek x.regs.rip :=
  ByteMem.peek_congr fun b hb => h.mem b (hW b hb) (.inl hb)

end Kept

/-! ## One call -/

section Call
variable {k : Kernel}

/-- A loop that ends with the target's death has had it reported. -/
theorem Rounds.report_dead {left : Nat} {s s' : Ptrace} (h : Rounds k left s .died s') :
    ∃ n, (k.report n).dead = true := by
  generalize he : LoopExit.died = e at h
  induction h with
  | exit hr =>
    subst he
    cases hr with
    | dead hdead => exact ⟨_, hdead⟩
  | stuck => cases he
  | again _ _ ih => exact ih he

/-- Where every request that puts something back succeeds, no restoring request has failed. -/
theorem Ptrace.PutBack.not_restoreFailed {x : Tracee} {s : Ptrace} (h : s.PutBack x) :
    ¬s.RestoreFailed x := by
  rintro ⟨g, g', hsuffix, hfailed⟩
  have hword : g = true := h ⟨_, g⟩ (hsuffix.mem (.head _)) (.inr rfl)
  have hregs : g' = true := h ⟨_, g'⟩ (hsuffix.mem (.tail _ (.head _))) (.inl rfl)
  rw [hword, hregs] at hfailed
  cases hfailed

/-- On every way through `remote_call` but the target's death, the restoring requests that were
made succeed where every such request does. -/
theorem CallPath.restored {func : BitVec 64} {a : CallArgs} {s : Ptrace} {out : CallOut}
    (h : CallPath k func a s out) (halive : ∀ n, (k.report n).dead = false)
    (hback : out.state.PutBack s.target) :
    out.state.target.regs = s.target.regs ∧
      out.state.target.mem.peek s.target.regs.rip = s.target.mem.peek s.target.regs.rip := by
  cases h with
  | early _ ht => exact ht ▸ ⟨rfl, rfl⟩
  | died _ hl =>
    obtain ⟨n, hn⟩ := hl.report_dead
    rw [halive n] at hn
    cases hn
  | unframed | failed | unread | returned =>
    exact Kernel.restoreFrom_target hback.not_restoreFailed

/-- **A call keeps the target as it was at the seize.** -/
theorem Tracee.Kept.remoteCall {W : BitVec 64 → Prop} {x : Tracee} {s : Ptrace}
    (h : x.Kept k W s.target) (hW : ∀ b, ByteMem.InWord x.regs.rip b → ¬W b)
    (halive : ∀ n, (k.report n).dead = false) (func : BitVec 64) (a : CallArgs)
    (hback : (remoteCall k func a s).state.PutBack x) :
    x.Kept k W (remoteCall k func a s).state.target := by
  have hpath := remoteCall_path k func a s
  have hpeek := h.peek hW
  -- the call saves what the target had at the seize
  have hsaved : (TicketConnect.remoteCall k func a s).state.PutBack s.target := by
    intro i hi hreq
    refine hback i hi ?_
    rwa [Tracee.PutsBack, h.regs, hpeek] at hreq
  obtain ⟨hregs, hword⟩ := hpath.restored halive hsaved
  rw [h.regs] at hregs hword
  refine ⟨hregs, fun b hb hcase => ?_⟩
  by_cases hrip : ByteMem.InWord x.regs.rip b
  · exact ByteMem.eq_of_peek_eq (hword.trans hpeek) hrip
  · obtain ⟨hslot, hspares⟩ := hcase.resolve_left hrip
    have hmem := hpath.mem hspares (by rwa [h.regs]) (by rwa [h.regs])
    exact hmem.trans (h.mem b hb (.inr ⟨hslot, hspares⟩))

end Call

/-! ## The other operations -/

/-- Between two states calls were made, at most `n` of which resume the target. -/
abbrev Ptrace.Grows (n : Nat) (s s' : Ptrace) : Prop := s.Issues (fun _ => True) n s'

section Ops
variable {k : Kernel} {s s' : Ptrace}

/-- What the later calls put back, the earlier ones did too. -/
theorem Ptrace.Grows.putBack {n : Nat} (h : s.Grows n s') {x : Tracee} (hback : s'.PutBack x) :
    s.PutBack x := by
  obtain ⟨new, heq, -⟩ := h
  intro i hi
  exact hback i (heq ▸ List.mem_append_left new hi)

/-- How often the target was resumed. -/
theorem Ptrace.Grows.countP_le {n : Nat} (h : s.Grows n s') :
    s'.reqs.countP (·.req.isCont) ≤ s.reqs.countP (·.req.isCont) + n := by
  obtain ⟨new, heq, -, hle⟩ := h
  rw [heq, List.countP_append]
  exact Nat.add_le_add_left hle _

/-- A call that changes nothing in the target, and does not resume it. -/
theorem Kernel.ask_grows {req : Req} {g : Bool} (h : k.ask req s = (g, s'))
    (hreq : req.isCont = false) : s.Grows 0 s' ∧ s'.target = s.target := by
  cases h
  exact ⟨.one rfl trivial hreq, rfl⟩

/-- `waitpid`. -/
theorem Kernel.wait_grows {r : Option Report} (h : k.wait s = (r, s')) : s.Grows 0 s' := by
  cases r with
  | none => rw [wait_none h]; exact .one rfl trivial rfl
  | some r =>
    rw [(wait_some h).2]
    exact .one (show _ = s.reqs ++ [⟨.wait, true⟩] from rfl) trivial rfl

/-- `injector_seize` makes calls, and leaves the target as it is. -/
theorem Kernel.injectorSeize_grows (k : Kernel) (s : Ptrace) :
    s.Grows 0 (k.injectorSeize s).2 ∧ (k.injectorSeize s).2.target = s.target := by
  unfold Kernel.injectorSeize
  split
  next hz => exact ask_grows hz rfl
  next s₁ hz =>
  obtain ⟨h₁, ht₁⟩ := ask_grows hz rfl
  split
  next hn =>
    obtain ⟨h₂, ht₂⟩ := ask_grows hn rfl
    exact ⟨h₁.trans h₂, ht₂.trans ht₁⟩
  next s₂ hn =>
  obtain ⟨h₂, ht₂⟩ := ask_grows hn rfl
  have h₁₂ := h₁.trans h₂
  have ht := ht₂.trans ht₁
  split
  next hw => exact ⟨h₁₂.trans (wait_grows hw), by rw [wait_none hw]; exact ht⟩
  next hw => exact ⟨h₁₂.trans (wait_grows hw), by rw [(wait_some hw).2]; exact ht⟩
  next hw => exact ⟨h₁₂.trans (wait_grows hw), by rw [(wait_some hw).2]; exact ht⟩

/-- `injector_detach` makes a call, and leaves the target as it is. -/
theorem Kernel.injectorDetach_grows (k : Kernel) (s : Ptrace) :
    s.Grows 0 (k.injectorDetach s).2 ∧ (k.injectorDetach s).2.target = s.target := by
  unfold Kernel.injectorDetach
  split
  next hd => exact ask_grows hd rfl
  next hd => exact ask_grows hd rfl

/-- `write_mem` makes a call, writes in the range it is given, and keeps the registers. -/
theorem Kernel.writeMem_grows (k : Kernel) (dst : BitVec 64) (buf : Nat → BitVec 8)
    (n : BitVec 64) (s : Ptrace) :
    s.Grows 0 (k.writeMem dst buf n s).2 ∧
      (k.writeMem dst buf n s).2.target.regs = s.target.regs ∧
      ∀ b, n.toNat ≤ (b - dst).toNat →
        (k.writeMem dst buf n s).2.target.mem b = s.target.mem b := by
  have hgrows : ∀ g, s.Grows 0 (s.record (.writev dst n) g) := fun g => .one rfl trivial rfl
  unfold Kernel.writeMem Kernel.processVmWritev Kernel.ask
  cases k.grant s.reqs.length with
  | false => exact ⟨hgrows false, rfl, fun _ _ => rfl⟩
  | true =>
    dsimp only
    split_ifs
    · exact ⟨hgrows true, rfl, fun _ _ => rfl⟩
    · refine ⟨hgrows true, rfl, fun b hb => ?_⟩
      exact ByteMem.writeBytes_of_le ((min_le_right _ _).trans hb)

/-- `remote_call` resumes the target at most 17 times. -/
theorem remoteCall_grows (k : Kernel) (func : BitVec 64) (a : CallArgs) (s : Ptrace) :
    s.Grows 17 (remoteCall k func a s).state := by
  obtain ⟨new, heq, -, hle⟩ := (remoteCall_path k func a s).issues
  exact ⟨new, heq, fun _ _ => trivial, hle⟩

end Ops

/-! ## The run -/

/-- A byte of a range that the operations of a log write. -/
def Wrote (log : List Op) (b : BitVec 64) : Prop :=
  ∃ dst n r, Op.write dst n r ∈ log ∧ (b - dst).toNat < n.toNat

/-- The operation is a remote call. -/
def Op.isCall : Op → Bool
  | .call .. => true
  | .seize _ | .detach | .write .. => false

/-- The state of a run, with its log: the target is resumed at most 17 times for each remote call;
and where what was to be put back was, and the writes spare the word at `rip`, the target is as it
was at the seize but for the ranges written. -/
structure Footed (k : Kernel) (x : Tracee) (p : Ptrace × List Op) : Prop where
  resumes : p.1.reqs.countP (·.req.isCont) ≤ 17 * p.2.countP Op.isCall
  kept : p.1.PutBack x → (∀ b, ByteMem.InWord x.regs.rip b → ¬Wrote p.2 b) →
    x.Kept k (Wrote p.2) p.1.target

section Run
variable {k : Kernel} {x : Tracee} {s s' : Ptrace} {log : List Op}

/-- What was written, is still written after one more operation. -/
theorem Wrote.append {b : BitVec 64} (h : Wrote log b) (op : Op) : Wrote (log ++ [op]) b := by
  obtain ⟨dst, n, r, hmem, hlt⟩ := h
  exact ⟨dst, n, r, List.mem_append_left _ hmem, hlt⟩

/-- An operation that writes no range, from what it does to the target. -/
theorem Footed.append (h : Footed k x (s, log)) (op : Op) {n : Nat} (hgrows : s.Grows n s')
    (hn : n ≤ 17 * [op].countP Op.isCall)
    (hkept : s'.PutBack x → (∀ b, ByteMem.InWord x.regs.rip b → ¬Wrote log b) →
      x.Kept k (Wrote log) s.target → x.Kept k (Wrote (log ++ [op])) s'.target) :
    Footed k x (s', log ++ [op]) := by
  constructor
  · have hle := h.resumes
    have hmore := hgrows.countP_le
    dsimp only at hle ⊢
    rw [List.countP_append]
    omega
  · intro hback hW
    have hW' : ∀ b, ByteMem.InWord x.regs.rip b → ¬Wrote log b := fun b hb hw =>
      hW b hb (hw.append op)
    exact hkept hback hW' (h.kept (hgrows.putBack hback) hW')

variable (halive : ∀ n, (k.report n).dead = false)

include halive in
/-- Every run of `inject_session` ends so. -/
theorem injectSession_footed (resolve : CString → CString → BitVec 64) (sslPtr : BitVec 64)
    (der : Nat → BitVec 8) (derLen : BitVec 64) (x : Tracee) :
    Footed k x (injectSession (ptraceRemote k).logged resolve sslPtr der derLen (.fresh x, [])).2 := by
  apply injectSession_inv (R := (ptraceRemote k).logged) (I := Footed k x)
  · rintro f func args ⟨s, log⟩ h
    refine h.append (.call f func args _ _) (remoteCall_grows k func args s) le_rfl ?_
    intro hback hW hkept
    exact (hkept.remoteCall hW halive func args hback).mono fun _ hb => hb.append _
  · rintro dst buf n ⟨s, log⟩ h
    obtain ⟨hgrows, hregs, hmem⟩ := k.writeMem_grows dst buf n s
    refine h.append (.write dst n _) hgrows (Nat.zero_le _) ?_
    intro _ _ hkept
    refine ⟨hregs.trans hkept.regs, fun b hb hcase => ?_⟩
    have hout : n.toNat ≤ (b - dst).toNat := by
      by_contra hlt
      exact hb ⟨dst, n, _, List.mem_append_right _ (.head _), Nat.not_le.1 hlt⟩
    exact (hmem b hout).trans (hkept.mem b (fun hw => hb (hw.append _)) hcase)
  · rintro ⟨s, log⟩ h
    obtain ⟨hgrows, htarget⟩ := k.injectorSeize_grows s
    refine h.append (.seize _) hgrows (Nat.zero_le _) ?_
    intro _ _ hkept
    exact (htarget.symm ▸ hkept).mono fun _ hb => hb.append _
  · rintro ⟨s, log⟩ h
    obtain ⟨hgrows, htarget⟩ := k.injectorDetach_grows s
    refine h.append .detach hgrows (Nat.zero_le _) ?_
    intro _ _ hkept
    exact (htarget.symm ▸ hkept).mono fun _ hb => hb.append _
  · exact ⟨by simp [Ptrace.fresh], fun _ _ => .refl k _ x⟩

end Run

/-! ## The result -/

/-- A byte of the payload in the scratch buffer: of the DER, or of the pointer behind it. -/
def InPayload (derLen scratch b : BitVec 64) : Prop :=
  (b - scratch).toNat < derLen.toNat ∨ (b - ptrLoc scratch derLen).toNat < 8

section Logs
variable {addr : ApiFn → BitVec 64} {sslPtr derLen : BitVec 64} {rc : Int} {log : List Op}

/-- `inject_session` makes at most five remote calls. -/
theorem InstallLog.calls_le (h : InstallLog addr sslPtr derLen rc log) :
    log.countP Op.isCall ≤ 5 := by
  cases h with
  | unresolved | unseized | unmapped => simp [Op.isCall, List.countP_cons]
  | mapped _ _ _ h => cases h <;> simp [mappedOps, Op.isCall, List.countP_cons]

/-- It writes the payload of the buffer that was mapped, and nothing else. -/
theorem InstallLog.inPayload_of_wrote (h : InstallLog addr sslPtr derLen rc log) {b : BitVec 64}
    (hb : Wrote log b) : ∃ scratch ∈ mappings log, InPayload derLen scratch b := by
  obtain ⟨dst, n, r, hmem, hlt⟩ := hb
  cases h with
  | unresolved | unseized | unmapped => simp at hmem
  | @mapped _ scratch _ _ log _ h₀ h₁ h =>
    have hmap : isMapping scratch = true := decide_eq_true ⟨h₀, h₁⟩
    refine ⟨scratch, by simp [mappedOps, mappings, results, hmap], ?_⟩
    have hwrite : Op.write dst n r ∈ log := by simpa [mappedOps] using hmem
    have hdst : dst = scratch ∧ n = derLen ∨ dst = ptrLoc scratch derLen ∧ n = 8 := by
      cases h with
      | unwritten => simp_all
      | unpointed | undecoded | unset | set =>
        simp only [List.mem_cons, Op.write.injEq, List.not_mem_nil, or_false, reduceCtorEq] at hwrite
        rcases hwrite with ⟨rfl, rfl, -⟩ | ⟨rfl, rfl, -⟩
        · exact .inl ⟨rfl, rfl⟩
        · exact .inr ⟨rfl, rfl⟩
    rcases hdst with ⟨rfl, rfl⟩ | ⟨rfl, rfl⟩
    · exact .inl hlt
    · exact .inr hlt

end Logs

/-- **The footprint of an injection.** Over every target that does not die, every outcome of every
request and every behaviour of the target in the calls: `inject_session` resumes the target at most
85 times; and where the requests that put back the registers and the word of code succeed, and the
buffer that `mmap` returned is not where the interrupted instruction is, then at the end the
registers are those at the seize, and so is every byte of the word at `rip`, and every byte that the
target's own code does not write, but for those of the return slot and of the payload. -/
theorem inject_session_footprint (k : Kernel) (resolve : CString → CString → BitVec 64)
    (sslPtr : BitVec 64) (der : Nat → BitVec 8) (derLen : BitVec 64) (x : Tracee)
    (halive : ∀ n, (k.report n).dead = false) :
    let s := (injectSession (ptraceRemote k) resolve sslPtr der derLen (.fresh x)).2
    let log := (injectSession (ptraceRemote k).logged resolve sslPtr der derLen (.fresh x, [])).2.2
    let payload (b : BitVec 64) := ∃ scratch ∈ mappings log, InPayload derLen scratch b
    s.reqs.countP (·.req.isCont) ≤ 85 ∧
      (s.PutBack x → (∀ b, ByteMem.InWord x.regs.rip b → ¬payload b) →
        s.target.regs = x.regs ∧
        ∀ b, ¬payload b → ByteMem.InWord x.regs.rip b ∨
          ¬ByteMem.InWord (returnSlot x.regs.rsp) b ∧ k.Spares b → s.target.mem b = x.mem b) := by
  intro s log payload
  obtain ⟨new, hnew, hlog⟩ :=
    injectSession_log (ptraceRemote k) resolve sslPtr der derLen (.fresh x) []
  have hfooted := injectSession_footed halive resolve sslPtr der derLen x
  have hlog' : log = new := by simp [log, hnew]
  rw [hnew, List.nil_append, ← hlog'] at hfooted
  rw [← hlog'] at hlog
  have hwrote : ∀ b, Wrote log b → payload b := fun b hb => hlog.inPayload_of_wrote hb
  constructor
  · have hcalls := hlog.calls_le
    have hresumes := hfooted.resumes
    dsimp only at hresumes
    exact hresumes.trans (by omega)
  · intro hback hrip
    obtain ⟨hregs, hmem⟩ := hfooted.kept hback fun b hb hw => hrip b hb (hwrote b hw)
    exact ⟨hregs, fun b hb => hmem b fun hw => hb (hwrote b hw)⟩

/-- A session is installed into the sample target, with a `SIGTERM` on the way: the calls resume it
six times, and leave its registers and its code. -/
theorem inject_session_footprint_installed :
    let k := Kernel.granting
      (fun n => if n = 2 then id else .afterReturn (if n = 1 then 0x7f0000 else 1))
      fun n => if n = 2 then .stopped 15 .signal else .stopped sigtrap .int3
    let x := sampleStopped.target
    let out := injectSession (ptraceRemote k) (fun _ _ => 1) 0x900 (fun _ => 0) 5 (.fresh x)
    out.1 = 0 ∧ out.2.reqs.countP (·.req.isCont) = 6 ∧ out.2.target.regs = x.regs ∧
      ∀ b, ByteMem.InWord x.regs.rip b → out.2.target.mem b = x.mem b := by
  intro k x out
  have halive : ∀ n, (k.report n).dead = false := by
    intro n
    show (if n = 2 then Report.stopped 15 .signal else .stopped sigtrap .int3).dead = false
    split <;> rfl
  have hback : out.2.PutBack x := by
    show ∀ i ∈ _, _
    decide +kernel
  have hmaps : mappings (injectSession (ptraceRemote k).logged (fun _ _ => 1) 0x900 (fun _ => 0) 5
      (.fresh x, [])).2.2 = [0x7f0000] := by decide +kernel
  have h := (inject_session_footprint k (fun _ _ => 1) 0x900 (fun _ => 0) 5 x halive).2 hback
  rw [hmaps] at h
  have hrip : ∀ b, ByteMem.InWord x.regs.rip b → ¬∃ scratch ∈ [0x7f0000], InPayload 5 scratch b := by
    rintro b hb ⟨scratch, hmem, hpay⟩
    rw [List.mem_singleton.1 hmem] at hpay
    have hloc : ptrLoc 0x7f0000 5 = 0x7f0008 := by decide
    rw [InPayload, hloc] at hpay
    have hx : x.regs.rip = 0x401000 := rfl
    rw [ByteMem.InWord, hx] at hb
    bv_omega
  obtain ⟨hregs, hmem⟩ := h hrip
  exact ⟨by decide +kernel, by decide +kernel, hregs, fun b hb => hmem b (hrip b hb) (.inl hb)⟩

end TicketConnect
