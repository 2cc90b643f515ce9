import TicketConnect.Injector.RemoteCall
import TicketConnect.Lib.CString

/-!
# Installing a session

The model of `inject_session` (`injector/install.c`): resolve the five functions, seize the target,
map a scratch buffer in it, write the DER there, make the session, set it, drop our reference, unmap
and detach. It is written over `Remote`, the operations on the target whose results it acts on, so
that a theorem over every `Remote` covers every result of each; `ptraceRemote` is the real one, over
`injector_seize`, `remote_call` and `process_vm_writev`.

`Remote.logged` keeps a log of the operations and their results. `injectSession_log` says once
which logs there are, each with the value returned.
-/

namespace TicketConnect

open Lib

/-! ## The target -/

/-- The functions called in the target. -/
inductive ApiFn where
  | mmap
  | munmap
  | d2iSslSession
  | sslSetSession
  | sslSessionFree
deriving DecidableEq

/-- The library a function is looked up in. -/
def ApiFn.lib : ApiFn → CString
  | .mmap | .munmap => .lit "libc.so"
  | .d2iSslSession | .sslSetSession | .sslSessionFree => .lit "libssl.so"

/-- The name a function is looked up under. -/
def ApiFn.sym : ApiFn → CString
  | .mmap => .lit "mmap"
  | .munmap => .lit "munmap"
  | .d2iSslSession => .lit "d2i_SSL_SESSION"
  | .sslSetSession => .lit "SSL_set_session"
  | .sslSessionFree => .lit "SSL_SESSION_free"

/-- The operations on a target: `injector_seize`, `injector_detach`, `remote_call` of a function at
an address, which gives `*ok` and the return value, and `write_mem` of the first `n` bytes of a
buffer. -/
structure Remote (σ : Type) where
  seize : σ → Int × σ
  detach : σ → Int × σ
  call : ApiFn → BitVec 64 → CallArgs → σ → Bool × BitVec 64 × σ
  writeMem : BitVec 64 → (Nat → BitVec 8) → BitVec 64 → σ → Int × σ

/-! ## `inject_session` -/

/-- `round_up`. -/
def roundUp (v a : BitVec 64) : BitVec 64 := (v + a - 1) &&& ~~~(a - 1)

/-- The arguments of a call with three arguments. -/
def CallArgs.of (a0 a1 a2 : BitVec 64) : CallArgs := ⟨a0, a1, a2, 0, 0, 0⟩

/-- `page`: the length of the scratch buffer. -/
def scratchLen (derLen : BitVec 64) : BitVec 64 := roundUp (derLen + 16) 4096

/-- The arguments of the `mmap`: `PROT_READ | PROT_WRITE`, `MAP_PRIVATE | MAP_ANONYMOUS`. -/
def mmapArgs (derLen : BitVec 64) : CallArgs := ⟨0, scratchLen derLen, 3, 0x22, -1, 0⟩

/-- `ptrloc`: where the pointer to the DER goes. -/
def ptrLoc (scratch derLen : BitVec 64) : BitVec 64 := scratch + roundUp derLen 8

/-- The bytes of a word in memory. -/
def wordBytes (w : BitVec 64) (i : Nat) : BitVec 8 := w.extractLsb' (8 * i) 8

section Inject
variable {σ : Type} (R : Remote σ) (resolve : CString → CString → BitVec 64)
  (sslPtr : BitVec 64) (der : Nat → BitVec 8) (derLen : BitVec 64)

/-- `inject_session` from the first `write_mem` to `unmap:`. -/
def installMapped (addr : ApiFn → BitVec 64) (scratch : BitVec 64) (s : σ) : Int × σ :=
  let ptrloc := ptrLoc scratch derLen
  match R.writeMem scratch der derLen s with
  | (w, s) =>
    if w ≠ 0 then (-1, s)
    else
      match R.writeMem ptrloc (wordBytes scratch) 8 s with
      | (w, s) =>
        if w ≠ 0 then (-1, s)
        else
          match R.call .d2iSslSession (addr .d2iSslSession) (.of 0 ptrloc derLen) s with
          | (ok, sess, s) =>
            if ok = false ∨ sess = 0 then (-1, s)
            else
              match R.call .sslSetSession (addr .sslSetSession) (.of sslPtr sess 0) s with
              | (setOk, setRet, s) =>
                match R.call .sslSessionFree (addr .sslSessionFree) (.of sess 0 0) s with
                | (_, _, s) =>
                  if setOk = false ∨ setRet.setWidth 32 ≠ 1#32 then (-1, s) else (0, s)

/-- `inject_session`, over `resolve_symbol` for the target. -/
def injectSession (s : σ) : Int × σ :=
  let addr (f : ApiFn) := resolve f.lib f.sym
  if addr .mmap = 0 ∨ addr .munmap = 0 ∨ addr .d2iSslSession = 0 ∨ addr .sslSetSession = 0 ∨
      addr .sslSessionFree = 0 then (-1, s)
  else
    match R.seize s with
    | (r, s) =>
      if r ≠ 0 then (-1, s)
      else
        match R.call .mmap (addr .mmap) (mmapArgs derLen) s with
        | (ok, scratch, s) =>
          if ok = false ∨ scratch = 0 ∨ scratch = -1 then (-1, (R.detach s).2)
          else
            match installMapped R sslPtr der derLen addr scratch s with
            | (rc, s) =>
              match R.call .munmap (addr .munmap) (.of scratch (scratchLen derLen) 0) s with
              | (_, _, s) => (rc, (R.detach s).2)

end Inject

/-! ## Invariants -/

section Inv
variable {σ : Type} {R : Remote σ} {I : σ → Prop} {s : σ}
  (hcall : ∀ f func args s, I s → I (R.call f func args s).2.2)
  (hwrite : ∀ dst buf n s, I s → I (R.writeMem dst buf n s).2)

include hcall hwrite

/-- What every `remote_call` and every `write_mem` keep, `inject_session` keeps from the first
`write_mem` to `unmap:`. -/
theorem installMapped_inv (sslPtr : BitVec 64) (der : Nat → BitVec 8) (derLen : BitVec 64)
    (addr : ApiFn → BitVec 64) (scratch : BitVec 64) (h : I s) :
    I (installMapped R sslPtr der derLen addr scratch s).2 := by
  unfold installMapped
  dsimp only
  have h₁ := hwrite scratch der derLen s h
  have h₂ := hwrite (ptrLoc scratch derLen) (wordBytes scratch) 8 _ h₁
  have h₃ := hcall .d2iSslSession (addr .d2iSslSession) (.of 0 (ptrLoc scratch derLen) derLen) _ h₂
  split_ifs
  exacts [h₁, h₂, h₃, hcall _ _ _ _ (hcall _ _ _ _ h₃), hcall _ _ _ _ (hcall _ _ _ _ h₃)]

/-- What every operation on the target keeps, `inject_session` keeps. -/
theorem injectSession_inv (hseize : ∀ s, I s → I (R.seize s).2)
    (hdetach : ∀ s, I s → I (R.detach s).2) (resolve : CString → CString → BitVec 64)
    (sslPtr : BitVec 64) (der : Nat → BitVec 8) (derLen : BitVec 64) (h : I s) :
    I (injectSession R resolve sslPtr der derLen s).2 := by
  unfold injectSession
  dsimp only
  split_ifs
  · exact h
  · exact hseize s h
  · exact hdetach _ (hcall _ _ _ _ (hseize s h))
  · have hmapped := hcall .mmap (resolve ApiFn.mmap.lib ApiFn.mmap.sym) (mmapArgs derLen) _
      (hseize s h)
    exact hdetach _ (hcall _ _ _ _ (installMapped_inv hcall hwrite _ _ _ _ _ hmapped))

end Inv

/-! ## The real target -/

namespace Kernel

/-- `process_vm_writev` of one buffer: it refuses a length above `SSIZE_MAX`, and may write less
than it is asked to. -/
def processVmWritev (k : Kernel) (addr : BitVec 64) (buf : Nat → BitVec 8) (n : BitVec 64)
    (s : Ptrace) : Int × Ptrace :=
  let wrote := min (k.wrote s.reqs.length) n.toNat
  match k.ask (.writev addr n) s with
  | (false, s) => (-1, s)
  | (true, s) =>
    if 2 ^ 63 ≤ n.toNat then (-1, s)
    else
      (wrote, { s with target := { s.target with mem := s.target.mem.writeBytes addr buf wrote } })

/-- `write_mem`. -/
def writeMem (k : Kernel) (addr : BitVec 64) (buf : Nat → BitVec 8) (n : BitVec 64) (s : Ptrace) :
    Int × Ptrace :=
  match k.processVmWritev addr buf n s with
  | (w, s) => (if w = n.toInt then 0 else -1, s)

end Kernel

/-- The operations on a traced target. -/
def ptraceRemote (k : Kernel) : Remote Ptrace where
  seize := k.injectorSeize
  detach := k.injectorDetach
  call _ func args s :=
    match remoteCall k func args s with
    | ⟨ok, ret, s, _⟩ => (ok, ret, s)
  writeMem := k.writeMem

/-! ## The log -/

/-- An operation on the target, with its result. -/
inductive Op where
  | seize (ret : Int)
  | detach
  | call (f : ApiFn) (func : BitVec 64) (args : CallArgs) (ok : Bool) (ret : BitVec 64)
  | write (addr n : BitVec 64) (ret : Int)
deriving DecidableEq

/-- The operations of `R`, each recorded with its result. -/
def Remote.logged {σ : Type} (R : Remote σ) : Remote (σ × List Op) where
  seize := fun (s, log) => match R.seize s with
    | (r, s) => (r, s, log ++ [.seize r])
  detach := fun (s, log) => match R.detach s with
    | (r, s) => (r, s, log ++ [.detach])
  call f addr args := fun (s, log) => match R.call f addr args s with
    | (ok, ret, s) => (ok, ret, s, log ++ [.call f addr args ok ret])
  writeMem addr buf n := fun (s, log) => match R.writeMem addr buf n s with
    | (r, s) => (r, s, log ++ [.write addr n r])

section Logged
variable {σ : Type} (R : Remote σ) (s : σ) (log : List Op)

@[simp] theorem Remote.logged_seize :
    R.logged.seize (s, log) = ((R.seize s).1, (R.seize s).2, log ++ [.seize (R.seize s).1]) := rfl

@[simp] theorem Remote.logged_detach :
    R.logged.detach (s, log) = ((R.detach s).1, (R.detach s).2, log ++ [.detach]) := rfl

@[simp] theorem Remote.logged_call (f : ApiFn) (addr : BitVec 64) (args : CallArgs) :
    R.logged.call f addr args (s, log) =
      ((R.call f addr args s).1, (R.call f addr args s).2.1, (R.call f addr args s).2.2,
        log ++ [.call f addr args (R.call f addr args s).1 (R.call f addr args s).2.1]) := rfl

@[simp] theorem Remote.logged_writeMem (addr : BitVec 64) (buf : Nat → BitVec 8) (n : BitVec 64) :
    R.logged.writeMem addr buf n (s, log) =
      ((R.writeMem addr buf n s).1, (R.writeMem addr buf n s).2,
        log ++ [.write addr n (R.writeMem addr buf n s).1]) := rfl

end Logged

/-- The value returned and the log of `inject_session` from the first `write_mem` to `unmap:`, with
the addresses of the functions: a write fails, no session is made, the session is not set, or it
is. -/
inductive MappedLog (addr : ApiFn → BitVec 64) (sslPtr derLen scratch : BitVec 64) :
    Int → List Op → Prop where
  | unwritten {w : Int} (h : w ≠ 0) :
      MappedLog addr sslPtr derLen scratch (-1) [.write scratch derLen w]
  | unpointed {w : Int} (h : w ≠ 0) : MappedLog addr sslPtr derLen scratch (-1)
      [.write scratch derLen 0, .write (ptrLoc scratch derLen) 8 w]
  | undecoded {ok : Bool} {sess : BitVec 64} (h : ok = false ∨ sess = 0) :
      MappedLog addr sslPtr derLen scratch (-1)
        [.write scratch derLen 0, .write (ptrLoc scratch derLen) 8 0,
          .call .d2iSslSession (addr .d2iSslSession) (.of 0 (ptrLoc scratch derLen) derLen) ok sess]
  | unset {sess setRet freeRet : BitVec 64} {setOk freeOk : Bool} (h : sess ≠ 0)
      (hset : setOk = false ∨ setRet.setWidth 32 ≠ 1#32) :
      MappedLog addr sslPtr derLen scratch (-1)
        [.write scratch derLen 0, .write (ptrLoc scratch derLen) 8 0,
          .call .d2iSslSession (addr .d2iSslSession) (.of 0 (ptrLoc scratch derLen) derLen) true
            sess,
          .call .sslSetSession (addr .sslSetSession) (.of sslPtr sess 0) setOk setRet,
          .call .sslSessionFree (addr .sslSessionFree) (.of sess 0 0) freeOk freeRet]
  | set {sess setRet freeRet : BitVec 64} {freeOk : Bool} (h : sess ≠ 0)
      (hset : setRet.setWidth 32 = 1#32) :
      MappedLog addr sslPtr derLen scratch 0
        [.write scratch derLen 0, .write (ptrLoc scratch derLen) 8 0,
          .call .d2iSslSession (addr .d2iSslSession) (.of 0 (ptrLoc scratch derLen) derLen) true
            sess,
          .call .sslSetSession (addr .sslSetSession) (.of sslPtr sess 0) true setRet,
          .call .sslSessionFree (addr .sslSessionFree) (.of sess 0 0) freeOk freeRet]

/-- The operations around the use of a mapped buffer. -/
def mappedOps (addr : ApiFn → BitVec 64) (derLen scratch : BitVec 64) (ok : Bool) (ret : BitVec 64)
    (log : List Op) : List Op :=
  [.seize 0, .call .mmap (addr .mmap) (mmapArgs derLen) true scratch] ++ log ++
    [.call .munmap (addr .munmap) (.of scratch (scratchLen derLen) 0) ok ret, .detach]

/-- The value returned and the log of `inject_session`: a function is not resolved, the target
cannot be seized, the buffer is not mapped, or it is mapped, used, unmapped. -/
inductive InstallLog (addr : ApiFn → BitVec 64) (sslPtr derLen : BitVec 64) :
    Int → List Op → Prop where
  | unresolved {f : ApiFn} (h : addr f = 0) : InstallLog addr sslPtr derLen (-1) []
  | unseized {r : Int} (hr : ∀ f, addr f ≠ 0) (h : r ≠ 0) :
      InstallLog addr sslPtr derLen (-1) [.seize r]
  | unmapped {ok : Bool} {scratch : BitVec 64} (hr : ∀ f, addr f ≠ 0)
      (h : ok = false ∨ scratch = 0 ∨ scratch = -1) :
      InstallLog addr sslPtr derLen (-1)
        [.seize 0, .call .mmap (addr .mmap) (mmapArgs derLen) ok scratch, .detach]
  | mapped {rc : Int} {scratch ret : BitVec 64} {ok : Bool} {log : List Op}
      (hr : ∀ f, addr f ≠ 0) (h₀ : scratch ≠ 0) (h₁ : scratch ≠ -1)
      (h : MappedLog addr sslPtr derLen scratch rc log) :
      InstallLog addr sslPtr derLen rc (mappedOps addr derLen scratch ok ret log)

section Log
variable {σ : Type} (R : Remote σ) (resolve : CString → CString → BitVec 64)
  (sslPtr : BitVec 64) (der : Nat → BitVec 8) (derLen : BitVec 64)

/-- `inject_session` from the first `write_mem` to `unmap:`, with its log. -/
theorem installMapped_log (addr : ApiFn → BitVec 64) (scratch : BitVec 64) (s : σ) (log : List Op) :
    let out := installMapped R sslPtr der derLen addr scratch s
    ∃ new, installMapped R.logged sslPtr der derLen addr scratch (s, log) =
        (out.1, out.2, log ++ new) ∧ MappedLog addr sslPtr derLen scratch out.1 new := by
  rcases hw : R.writeMem scratch der derLen s with ⟨w, s₁⟩
  rcases hp : R.writeMem (ptrLoc scratch derLen) (wordBytes scratch) 8 s₁ with ⟨p, s₂⟩
  rcases hd : R.call .d2iSslSession (addr .d2iSslSession) (.of 0 (ptrLoc scratch derLen) derLen) s₂
    with ⟨ok, sess, s₃⟩
  rcases hs : R.call .sslSetSession (addr .sslSetSession) (.of sslPtr sess 0) s₃
    with ⟨setOk, setRet, s₄⟩
  rcases hf : R.call .sslSessionFree (addr .sslSessionFree) (.of sess 0 0) s₄
    with ⟨freeOk, freeRet, s₅⟩
  simp only [installMapped, Remote.logged_writeMem, Remote.logged_call, hw, hp, hd, hs, hf,
    List.append_assoc]
  split_ifs with h₁ h₂ h₃ h₄
  · exact ⟨_, rfl, .unwritten h₁⟩
  · obtain rfl := not_not.1 h₁
    exact ⟨_, rfl, .unpointed h₂⟩
  · obtain rfl := not_not.1 h₁
    obtain rfl := not_not.1 h₂
    exact ⟨_, rfl, .undecoded h₃⟩
  all_goals
    obtain rfl := not_not.1 h₁
    obtain rfl := not_not.1 h₂
    obtain ⟨hok, hsess⟩ := not_or.1 h₃
    obtain rfl := Bool.eq_true_of_not_eq_false hok
  · exact ⟨_, rfl, .unset hsess h₄⟩
  · obtain ⟨hset, hret⟩ := not_or.1 h₄
    obtain rfl := Bool.eq_true_of_not_eq_false hset
    exact ⟨_, rfl, .set hsess (not_not.1 hret)⟩

/-- Where a function is not resolved, `inject_session` does nothing. -/
theorem injectSession_unresolved {f : ApiFn} (h : resolve f.lib f.sym = 0) (s : σ) :
    injectSession R resolve sslPtr der derLen s = (-1, s) := by
  unfold injectSession
  dsimp only
  rw [if_pos]
  cases f <;> simp [h]

/-- Where all functions are resolved, `inject_session` ends with the seize, if it fails, and with
the detach, if it does not. -/
theorem injectSession_ends (hr : ∀ f : ApiFn, resolve f.lib f.sym ≠ 0) (s : σ) :
    let out := injectSession R resolve sslPtr der derLen s
    (R.seize s).1 ≠ 0 ∧ out = (-1, (R.seize s).2) ∨
      (R.seize s).1 = 0 ∧ ∃ s', out.2 = (R.detach s').2 := by
  unfold injectSession
  dsimp only
  rw [if_neg (by simp only [not_or]; exact ⟨hr _, hr _, hr _, hr _, hr _⟩)]
  split_ifs with h₁ h₂
  · exact .inl ⟨h₁, rfl⟩
  · exact .inr ⟨not_not.1 h₁, _, rfl⟩
  · exact .inr ⟨not_not.1 h₁, _, rfl⟩

/-- **The logs of `inject_session`.** Logging changes nothing in the run, and the log is one of
those of `InstallLog`. -/
theorem injectSession_log (s : σ) (log : List Op) :
    let out := injectSession R resolve sslPtr der derLen s
    ∃ new, injectSession R.logged resolve sslPtr der derLen (s, log) =
        (out.1, out.2, log ++ new) ∧
      InstallLog (fun f => resolve f.lib f.sym) sslPtr derLen out.1 new := by
  unfold injectSession
  dsimp only
  split
  next hnull =>
    refine ⟨[], by simp, ?_⟩
    rcases hnull with h | h | h | h | h
    all_goals exact .unresolved h
  next hnull =>
  have hr : ∀ f : ApiFn, resolve f.lib f.sym ≠ 0 := by
    simp only [not_or] at hnull
    obtain ⟨h₁, h₂, h₃, h₄, h₅⟩ := hnull
    rintro (_ | _ | _ | _ | _)
    exacts [h₁, h₂, h₃, h₄, h₅]
  rcases hz : R.seize s with ⟨r, s₁⟩
  rcases hm : R.call .mmap (resolve ApiFn.mmap.lib ApiFn.mmap.sym) (mmapArgs derLen) s₁
    with ⟨ok, scratch, s₂⟩
  simp only [Remote.logged_seize, Remote.logged_call, hz, hm]
  split_ifs with h₁ h₂
  · exact ⟨_, rfl, .unseized hr h₁⟩
  · obtain rfl := not_not.1 h₁
    exact ⟨_, by simp, .unmapped hr h₂⟩
  obtain rfl := not_not.1 h₁
  obtain ⟨hok, h₀, hmax⟩ : ok ≠ false ∧ scratch ≠ 0 ∧ scratch ≠ -1 := by
    simpa only [not_or] using h₂
  obtain rfl := Bool.eq_true_of_not_eq_false hok
  obtain ⟨new, hlog, hnew⟩ := installMapped_log R sslPtr der derLen
    (fun f => resolve f.lib f.sym) scratch s₂
    ((log ++ [.seize 0]) ++
      [.call .mmap (resolve ApiFn.mmap.lib ApiFn.mmap.sym) (mmapArgs derLen) true scratch])
  rcases hi : installMapped R sslPtr der derLen (fun f => resolve f.lib f.sym) scratch s₂
    with ⟨rc, s₃⟩
  rcases hu : R.call .munmap (resolve ApiFn.munmap.lib ApiFn.munmap.sym)
    (.of scratch (scratchLen derLen) 0) s₃ with ⟨unmapOk, unmapRet, s₄⟩
  simp only [hi] at hlog hnew
  refine ⟨mappedOps (fun f => resolve f.lib f.sym) derLen scratch unmapOk unmapRet new, ?_,
    .mapped hr h₀ hmax hnew⟩
  rw [hlog]
  simp only [mappedOps, Remote.logged_call, Remote.logged_detach, hu, List.append_assoc,
    List.cons_append, List.nil_append]

end Log

end TicketConnect
