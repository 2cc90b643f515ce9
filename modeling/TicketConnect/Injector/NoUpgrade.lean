import Mathlib.Logic.Function.Basic
import TicketConnect.Injector.Install
import TicketConnect.Lib.Runs

/-!
# The worst case is no upgrade

What `inject_session` does to the target, read off its logs (`InstallLog`): which calls it requests
for which results, and when it returns 0. `SslWorld` says what the called functions do to the
reference counts of sessions, to the session of an `SSL` and to the mappings; over it, a run whose
calls all complete either installs the new session, which the `SSL` then owns alone, or leaves
everything as it was, and gives no function a session that is gone.
-/

namespace TicketConnect

open Lib

/-! ## Requests and results -/

/-- The arguments with which a function is called, in order. -/
def requests (f : ApiFn) : List Op → List CallArgs
  | [] => []
  | .call g _ args _ _ :: log => if g = f then args :: requests f log else requests f log
  | _ :: log => requests f log

/-- The results of the calls of a function that complete, in order. -/
def results (f : ApiFn) : List Op → List (BitVec 64)
  | [] => []
  | .call g _ _ ok ret :: log => if g = f ∧ ok = true then ret :: results f log else results f log
  | _ :: log => results f log

/-- The results over an append of logs. -/
theorem results_append (f : ApiFn) (log log' : List Op) :
    results f (log ++ log') = results f log ++ results f log' := by
  induction log with
  | nil => rfl
  | cons op log ih =>
    cases op with
    | seize | detach | write => exact ih
    | call =>
      simp only [List.cons_append, results]
      split
      · rw [ih, List.cons_append]
      · exact ih

/-- A result of `mmap` that reports a mapping. -/
def isMapping (r : BitVec 64) : Bool := r ≠ 0 ∧ r ≠ -1

/-- A result of `d2i_SSL_SESSION` that is a session. -/
def isSession (r : BitVec 64) : Bool := r ≠ 0

/-- The mappings that are reported successful. -/
def mappings (log : List Op) : List (BitVec 64) := (results .mmap log).filter isMapping

/-- The sessions that are made. -/
def sessions (log : List Op) : List (BitVec 64) := (results .d2iSslSession log).filter isSession

/-- A remote call completes. -/
def Op.Completes : Op → Prop
  | .call _ _ _ ok _ => ok = true
  | _ => True

instance : DecidablePred Op.Completes
  | .call _ _ _ ok _ => inferInstanceAs (Decidable (ok = true))
  | .seize _ | .detach | .write .. => .isTrue trivial

/-- A call is made at the address of its function. -/
def Op.At (addr : ApiFn → BitVec 64) : Op → Prop
  | .call f func _ _ _ => func = addr f
  | _ => True

/-! ## The world of the target -/

/-- What the calls act on: the reference counts of the sessions, the session each `SSL` has (0 for
none) and the mappings made. -/
structure SslWorld where
  refs : BitVec 64 → Nat
  session : BitVec 64 → BitVec 64
  maps : List (BitVec 64 × BitVec 64)

namespace SslWorld

/-- A pointer to a session that may be used: `NULL`, or one with a reference. -/
def Valid (w : SslWorld) (x : BitVec 64) : Prop := x ≠ 0 → 0 < w.refs x

instance (w : SslWorld) (x : BitVec 64) : Decidable (w.Valid x) :=
  inferInstanceAs (Decidable (_ → _))

/-- `SSL_SESSION_up_ref`: take a reference. -/
def takeRef (x : BitVec 64) (refs : BitVec 64 → Nat) : BitVec 64 → Nat :=
  if x = 0 then refs else Function.update refs x (refs x + 1)

/-- `SSL_SESSION_free`: drop a reference. -/
def dropRef (x : BitVec 64) (refs : BitVec 64 → Nat) : BitVec 64 → Nat :=
  if x = 0 then refs else Function.update refs x (refs x - 1)

/-- What a call does when it completes with the result `ret`: `d2i_SSL_SESSION` makes a session with
one reference; `SSL_set_session`, where it succeeds, takes a reference and drops that to the former
session. A session that has no reference is gone: a call that is given one has no meaning. -/
def call (w : SslWorld) (args : CallArgs) (ret : BitVec 64) : ApiFn → Option SslWorld
  | .mmap => some (if isMapping ret then { w with maps := (ret, args.a1) :: w.maps } else w)
  | .munmap => some { w with maps := w.maps.erase (args.a0, args.a1) }
  | .d2iSslSession =>
    some (if isSession ret then { w with refs := Function.update w.refs ret 1 } else w)
  | .sslSetSession =>
    if w.Valid args.a1 then
      some (if ret.setWidth 32 = 1#32 then
        { w with
          refs := dropRef (w.session args.a0) (takeRef args.a1 w.refs)
          session := Function.update w.session args.a0 args.a1 }
      else w)
    else none
  | .sslSessionFree =>
    if w.Valid args.a0 then some { w with refs := dropRef args.a0 w.refs } else none

/-- What an operation does. -/
def step (w : SslWorld) : Op → Option SslWorld
  | .call f _ args _ ret => w.call args ret f
  | _ => some w

/-- The session of an `SSL` has a reference. -/
def Owned (w : SslWorld) (ssl : BitVec 64) : Prop := w.Valid (w.session ssl)

/-- What a run that returns `rc` leaves: no mapping; where it returns 0, a new session that the
`SSL` has and owns the only reference to, its former session one reference short; elsewhere the
sessions and the reference counts as they were. -/
structure Settled (w w' : SslWorld) (ssl : BitVec 64) (new : List (BitVec 64)) (rc : Int) :
    Prop where
  maps : w'.maps = w.maps
  installed : rc = 0 → ∃ sess ∈ new, w'.session = Function.update w.session ssl sess ∧
    w'.refs = Function.update (dropRef (w.session ssl) w.refs) sess 1
  kept : rc ≠ 0 → w'.session = w.session ∧ w'.refs = w.refs

/-- A session that is made and freed leaves no reference. -/
theorem dropRef_update_one {refs : BitVec 64 → Nat} {x : BitVec 64} (hx : x ≠ 0)
    (h : refs x = 0) : dropRef x (Function.update refs x 1) = refs := by
  rw [dropRef, if_neg hx, Function.update_self, Function.update_idem, Nat.sub_self, ← h,
    Function.update_eq_self]

/-- A session that is made and set has two references. -/
theorem takeRef_update_one (refs : BitVec 64 → Nat) {x : BitVec 64} (hx : x ≠ 0) :
    takeRef x (Function.update refs x 1) = Function.update refs x 2 := by
  rw [takeRef, if_neg hx, Function.update_self, Function.update_idem]

/-- The former session is another one. -/
theorem dropRef_of_ne {refs : BitVec 64 → Nat} {x old : BitVec 64} (hne : old ≠ x) :
    dropRef old refs x = refs x := by
  unfold dropRef
  split
  · rfl
  · exact Function.update_of_ne hne.symm _ _

/-- A session that is made, set and freed is left with one reference. -/
theorem dropRef_update_two (refs : BitVec 64 → Nat) {x old : BitVec 64} (hx : x ≠ 0)
    (hne : old ≠ x) : dropRef x (dropRef old (Function.update refs x 2)) =
      Function.update (dropRef old refs) x 1 := by
  unfold dropRef
  rw [if_neg hx]
  split
  · simp
  · funext y
    simp only [Function.update_apply]
    grind

end SslWorld

/-! ## What the logs say -/

section Logs
variable {addr : ApiFn → BitVec 64} {sslPtr derLen scratch : BitVec 64} {rc : Int} {log : List Op}

/-- The calls requested, by the results they follow. -/
structure Accounted (sslPtr derLen : BitVec 64) (rc : Int) (log : List Op) : Prop where
  ret : rc = 0 ↔ ∃ r ∈ results .sslSetSession log, r.setWidth 32 = 1#32
  mmap : ∀ args ∈ requests .mmap log, args = mmapArgs derLen
  munmap : requests .munmap log = (mappings log).map fun r => .of r (scratchLen derLen) 0
  set : requests .sslSetSession log = (sessions log).map fun r => .of sslPtr r 0
  free : requests .sslSessionFree log = (sessions log).map fun r => .of r 0 0
  once : (mappings log).length ≤ 1 ∧ (sessions log).length ≤ 1

/-- The use of a mapped buffer, with the operations around it. -/
theorem MappedLog.accounted {ret : BitVec 64} {ok : Bool} (hmap : isMapping scratch = true)
    (h : MappedLog addr sslPtr derLen scratch rc log) :
    Accounted sslPtr derLen rc (mappedOps addr derLen scratch ok ret log) := by
  cases h with
  | unwritten | unpointed =>
    constructor <;> simp [mappedOps, requests, results, mappings, sessions, hmap]
  | @undecoded ok sess h =>
    -- a completed d2i that is not taken returned 0
    cases ok with
    | false => constructor <;> simp [mappedOps, requests, results, mappings, sessions, hmap]
    | true =>
      have hsess : isSession sess = false := by simpa [isSession] using h
      constructor <;> simp [mappedOps, requests, results, mappings, sessions, hmap, hsess]
  | @unset sess _ _ setOk _ h hset =>
    have hsess : isSession sess = true := by simpa [isSession] using h
    cases setOk with
    | false => constructor <;> simp [mappedOps, requests, results, mappings, sessions, hmap, hsess]
    | true =>
      have hset := hset.resolve_left (by decide)
      constructor <;> simp [mappedOps, requests, results, mappings, sessions, hmap, hsess, hset]
  | @set sess _ _ _ h hset =>
    have hsess : isSession sess = true := by simpa [isSession] using h
    constructor <;> simp [mappedOps, requests, results, mappings, sessions, hmap, hsess, hset]

/-- The operations of `inject_session`. -/
theorem InstallLog.accounted (h : InstallLog addr sslPtr derLen rc log) :
    Accounted sslPtr derLen rc log := by
  cases h with
  | unresolved | unseized => constructor <;> simp [requests, results, mappings, sessions]
  | @unmapped ok scratch _ h =>
    -- a completed mmap that is not taken returned 0 or -1
    cases ok with
    | false => constructor <;> simp [requests, results, mappings, sessions]
    | true =>
      have hmap : isMapping scratch = false := by
        rcases h.resolve_left (by decide) with rfl | rfl <;> rfl
      constructor <;> simp [requests, results, mappings, sessions, hmap]
  | mapped _ h₀ h₁ h => exact h.accounted (decide_eq_true ⟨h₀, h₁⟩)

/-- Every call is made at the address that was resolved for it. -/
theorem InstallLog.at (h : InstallLog addr sslPtr derLen rc log) : ∀ op ∈ log, op.At addr := by
  cases h with
  | unresolved | unseized | unmapped => simp [Op.At]
  | mapped _ _ _ h => cases h <;> simp [mappedOps, Op.At]

/-- What the use of a mapped buffer leaves, where every call completes. -/
theorem MappedLog.settled (h : MappedLog addr sslPtr derLen scratch rc log)
    (hdone : ∀ op ∈ log, op.Completes) {w : SslWorld} (howned : w.Owned sslPtr)
    (hfresh : ∀ sess ∈ sessions log, w.refs sess = 0) :
    ∃ w', run SslWorld.step w log = some w' ∧ w.Settled w' sslPtr (sessions log) rc := by
  cases h with
  | unwritten | unpointed => exact ⟨w, rfl, rfl, by simp, fun _ => ⟨rfl, rfl⟩⟩
  | @undecoded ok sess h =>
    obtain rfl : ok = true := by simpa [Op.Completes] using hdone
    obtain rfl : sess = 0 := h.resolve_left (by decide)
    exact ⟨w, rfl, rfl, by simp, fun _ => ⟨rfl, rfl⟩⟩
  | @unset sess setRet _ setOk _ h hset =>
    obtain ⟨rfl, -⟩ : setOk = true ∧ _ := by simpa [Op.Completes] using hdone
    have hset := hset.resolve_left (by decide)
    have hsess : isSession sess = true := decide_eq_true h
    have hrefs : w.refs sess = 0 := hfresh sess (by simp [sessions, results, hsess])
    refine ⟨w, ?_, rfl, by simp, fun _ => ⟨rfl, rfl⟩⟩
    have hdrop := SslWorld.dropRef_update_one h hrefs
    simp [run, SslWorld.step, SslWorld.call, SslWorld.Valid, CallArgs.of, hsess, hset, hdrop]
  | @set sess _ _ _ h hset =>
    have hsess : isSession sess = true := decide_eq_true h
    have hrefs : w.refs sess = 0 := hfresh sess (by simp [sessions, results, hsess])
    -- the former session has a reference, so it is not the new one
    have hne : w.session sslPtr ≠ sess := by
      rintro rfl
      exact absurd hrefs (howned h).ne'
    have htake := SslWorld.takeRef_update_one w.refs h
    have htwo : 0 < SslWorld.dropRef (w.session sslPtr) (Function.update w.refs sess 2) sess := by
      rw [SslWorld.dropRef_of_ne hne, Function.update_self]
      exact Nat.two_pos
    have hdrop := SslWorld.dropRef_update_two w.refs h hne
    refine ⟨{ w with
      refs := Function.update (SslWorld.dropRef (w.session sslPtr) w.refs) sess 1
      session := Function.update w.session sslPtr sess }, ?_, rfl, ?_, fun hrc => absurd rfl hrc⟩
    · simp [run, SslWorld.step, SslWorld.call, SslWorld.Valid, CallArgs.of, hsess, hset, htake,
        htwo, hdrop]
    · exact fun _ => ⟨sess, by simp [sessions, results, hsess], rfl, rfl⟩

/-- What `inject_session` leaves, where every call completes. -/
theorem InstallLog.settled (h : InstallLog addr sslPtr derLen rc log)
    (hdone : ∀ op ∈ log, op.Completes) {w : SslWorld} (howned : w.Owned sslPtr)
    (hfresh : ∀ sess ∈ sessions log, w.refs sess = 0) :
    ∃ w', run SslWorld.step w log = some w' ∧ w.Settled w' sslPtr (sessions log) rc := by
  cases h with
  | unresolved | unseized => exact ⟨w, rfl, rfl, by simp, fun _ => ⟨rfl, rfl⟩⟩
  | @unmapped ok scratch _ h =>
    obtain rfl : ok = true := by simpa [Op.Completes] using hdone
    have hmap : isMapping scratch = false := by
      rcases h.resolve_left (by decide) with rfl | rfl <;> rfl
    refine ⟨w, ?_, rfl, by simp, fun _ => ⟨rfl, rfl⟩⟩
    simp [run, SslWorld.step, SslWorld.call, hmap]
  | @mapped rc scratch ret ok log _ h₀ h₁ h =>
    have hmap : isMapping scratch = true := decide_eq_true ⟨h₀, h₁⟩
    have hsess : sessions (mappedOps addr derLen scratch ok ret log) = sessions log := by
      simp [mappedOps, sessions, results, results_append]
    let w₁ : SslWorld := { w with maps := (scratch, scratchLen derLen) :: w.maps }
    obtain ⟨w₂, hrun, hinner⟩ : ∃ w₂, run SslWorld.step w₁ log = some w₂ ∧
        w₁.Settled w₂ sslPtr (sessions log) rc :=
      h.settled (fun op hop => hdone op (by simp [mappedOps, hop])) howned
        fun sess hs => hfresh sess (hsess ▸ hs)
    have hopen : run SslWorld.step w [.seize 0,
        .call .mmap (addr .mmap) (mmapArgs derLen) true scratch] = some w₁ := by
      simp [run, SslWorld.step, SslWorld.call, hmap, mmapArgs, w₁]
    refine ⟨{ w₂ with maps := w₂.maps.erase (scratch, scratchLen derLen) }, ?_, ?_⟩
    · rw [mappedOps, List.append_assoc, run_append hopen, run_append hrun]
      rfl
    · rw [hsess]
      refine ⟨?_, hinner.installed, hinner.kept⟩
      show w₂.maps.erase (scratch, scratchLen derLen) = w.maps
      rw [hinner.maps, List.erase_cons_head]

end Logs

/-! ## The result -/

/-- **The worst case is no upgrade.** Over every target and every result of its operations, with the
log of the run: nothing is done unless all five functions are resolved, and every call is made at
the address that was resolved for it; the return value is 0 exactly when `SSL_set_session` completed
with 1 in its low 32 bits; `munmap` is requested for the mappings reported successful,
`SSL_set_session` and `SSL_SESSION_free` for the sessions made, each once and for nothing else. So
where every call completes, no call is given a session that is gone, no mapping is left, and either
the `SSL` owns the only reference to the new session or all sessions are as before
(`SslWorld.Settled`). -/
theorem worst_case_no_upgrade {σ : Type} (R : Remote σ) (resolve : CString → CString → BitVec 64)
    (sslPtr : BitVec 64) (der : Nat → BitVec 8) (derLen : BitVec 64) (s : σ) :
    let out := injectSession R resolve sslPtr der derLen s
    let log := (injectSession R.logged resolve sslPtr der derLen (s, [])).2.2
    ((∃ f : ApiFn, resolve f.lib f.sym = 0) → out = (-1, s) ∧ log = []) ∧
    (∀ op ∈ log, op.At fun f => resolve f.lib f.sym) ∧
    (out.1 = 0 ↔ ∃ r ∈ results .sslSetSession log, r.setWidth 32 = 1#32) ∧
    (∀ args ∈ requests .mmap log, args = mmapArgs derLen) ∧
    requests .munmap log = (mappings log).map (fun r => .of r (scratchLen derLen) 0) ∧
    requests .sslSetSession log = (sessions log).map (fun r => .of sslPtr r 0) ∧
    requests .sslSessionFree log = (sessions log).map (fun r => .of r 0 0) ∧
    (mappings log).length ≤ 1 ∧ (sessions log).length ≤ 1 ∧
    ∀ w : SslWorld, w.Owned sslPtr → (∀ sess ∈ sessions log, w.refs sess = 0) →
      (∀ op ∈ log, op.Completes) →
        ∃ w', run SslWorld.step w log = some w' ∧ w.Settled w' sslPtr (sessions log) out.1 := by
  intro out log
  obtain ⟨new, hnew, hlog⟩ := injectSession_log R resolve sslPtr der derLen s []
  have hlog' : log = new := by simp [log, hnew]
  rw [hlog']
  obtain ⟨hret, hmmap, hmunmap, hset, hfree, hmaps, hsess⟩ := hlog.accounted
  refine ⟨?_, hlog.at, hret, hmmap, hmunmap, hset, hfree, hmaps, hsess,
    fun w howned hfresh hdone => hlog.settled hdone howned hfresh⟩
  rintro ⟨f, hf⟩
  have hnone := injectSession_unresolved R.logged resolve sslPtr der derLen hf (s, [])
  exact ⟨injectSession_unresolved R resolve sslPtr der derLen hf s, hlog' ▸ by simp [log, hnone]⟩

/-- A target that completes every call: the session made at `0x800` replaces that at `0x700`, and
the former one is left with one reference. -/
theorem worst_case_no_upgrade_installed :
    let R : Remote Unit :=
      { seize := fun _ => (0, ())
        detach := fun _ => (0, ())
        call := fun f _ _ _ => match f with
          | .mmap => (true, 0x10000, ())
          | .d2iSslSession => (true, 0x800, ())
          | .sslSetSession => (true, 1, ())
          | .munmap | .sslSessionFree => (true, 0, ())
        writeMem := fun _ _ _ _ => (0, ()) }
    let log := (injectSession R.logged (fun _ _ => 1) 0x900 (fun _ => 0) 5 ((), [])).2.2
    let w : SslWorld :=
      { refs := fun x => if x = 0x700 then 2 else 0
        session := fun _ => 0x700
        maps := [] }
    w.Owned 0x900 ∧ sessions log = [0x800] ∧
      ∃ w', run SslWorld.step w log = some w' ∧ w.Settled w' 0x900 [0x800] 0 := by
  intro R log w
  have howned : w.Owned 0x900 := fun _ => by decide
  have hsess : sessions log = [0x800] := by decide
  have h := worst_case_no_upgrade R (fun _ _ => 1) 0x900 (fun _ => 0) 5 ()
  have hfresh : ∀ sess ∈ sessions log, w.refs sess = 0 := by
    intro sess hs
    rw [hsess, List.mem_singleton] at hs
    subst hs
    rfl
  have hdone : ∀ op ∈ log, op.Completes := by decide
  exact ⟨howned, hsess, hsess ▸ h.2.2.2.2.2.2.2.2.2 w howned hfresh hdone⟩

end TicketConnect
