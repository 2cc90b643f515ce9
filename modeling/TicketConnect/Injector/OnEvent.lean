import Mathlib.Data.List.Forall2
import TicketConnect.Freeze.Model
import TicketConnect.Injector.Attached
import TicketConnect.Injector.NoUpgrade
import TicketConnect.Lib.Digits
import TicketConnect.Uds.Client

/-!
# Handling the events

The model of `on_event` (`injector/main.c`): ask the agent for a session, install it in the process
that the event names, log what happened, and release the process. `onEvent` lists its effects in
order. `Handled` says once what they can be, and `no_silent_downgrade` what this means for any
sequence of events: each one is answered by one line and one `SIGCONT` behind everything else, the
line ends in `RESUMED` exactly where the target's `SSL_set_session` succeeded, and nothing is left
behind. `poll_refines_daemon` connects the function to the daemon of the node (`Node.step`).

The injector does not ignore `SIGPIPE`. Where the agent closes its connection before the request of
`uds_get` is written, the process dies in the middle of the event (`Delivery.kills`): neither this
event nor any later one is answered, and the process that was stopped for it stays stopped.
-/

namespace TicketConnect

open Lib

/-! ## The function -/

/-- What the outside decides while an event is handled: the calls of `uds_get` and the bytes the
agent answers with, and for `inject_session` the kernel, the target and what `resolve_symbol` finds
in it. -/
structure EventEnv where
  get : GetEnv
  peer : List UInt8 → List UInt8
  kernel : Kernel
  target : Tracee
  resolve : CString → CString → BitVec 64

/-- A record that is handed to `on_event`. -/
structure Delivery where
  record : Record
  env : EventEnv

/-- An effect of `on_event`: an event of its resources, a call of `inject_session` with its return
value and its operations, a line on `stderr`, or a `SIGCONT`. -/
inductive EventEff where
  | own (e : Own ClientRes)
  | inject (rc : Int) (ops : List Op)
  | stderr (line : CString)
  | sigcont (pid : Nat)

/-- A number as `%#llx` prints it. -/
def hexAlt (n : Nat) : CString := .ofBuf ((if n = 0 then [] else [48, 120]) ++ digits 16 n)

/-- The line for a session that was passed to `inject_session`:
`"pid=%u ssl=%#llx dest=%s group=%s -> %s\n"`. -/
def installLine (e : SslEvent) (dest group verdict : CString) : CString :=
  .concat [.lit "pid=", .dec e.pid, .lit " ssl=", hexAlt e.ssl, .lit " dest=", dest,
    .lit " group=", group, .lit " -> ", verdict, .lit "\n"]

/-- How the line for a session ends. -/
def verdict (rc : Int) : CString := if rc = 0 then .lit "RESUMED" else .lit "install-failed"

/-- The line for a miss: `"pid=%u dest=%s -> MISS, falling back to normal TLS (event)\n"`. -/
def missLine (e : SslEvent) (dest : CString) : CString :=
  .concat [.lit "pid=", .dec e.pid, .lit " dest=", dest,
    .lit " -> MISS, falling back to normal TLS (event)\n"]

/-- `inject_session` for an event: its return value and its operations. -/
def EventEnv.install (env : EventEnv) (e : SslEvent) (s : ClientSession) : Int × List Op :=
  let out := injectSession (ptraceRemote env.kernel).logged env.resolve (BitVec.ofNat 64 e.ssl)
    (fun i => (s.der.getD i 0).toBitVec) (BitVec.ofInt 64 s.derLen) (Ptrace.fresh env.target, [])
  (out.1, out.2.2)

/-- What `uds_get` does for an event, with the `group` buffer of `on_event`. -/
def Delivery.get (sock dest : CString) (d : Delivery) : GetCall :=
  udsGetCall d.env.get sock dest 64 d.env.peer

/-- The session that `uds_get` delivers for an event. -/
def Delivery.session (sock dest : CString) (d : Delivery) : Option ClientSession :=
  (d.get sock dest).out.bind (·.session)

/-- `on_event`, for the agent's socket and the destination of the daemon. -/
def onEvent (sock dest : CString) (d : Delivery) : List EventEff :=
  if d.record.len < sslEventSize then []
  else
    let e := d.record.event
    let g := d.get sock dest
    match g.out with
    | none => g.own.map .own
    | some out =>
      let s := out.session.getD .unset
      let answered : List EventEff :=
        if out.ret = udsStatusOk.toNat then
          let r := d.env.install e s
          g.buf.toList.map (fun id => .own (.use (.buf id))) ++
            [.inject r.1 r.2, .stderr (installLine e dest (s.group.getD .empty) (verdict r.1))] ++
            g.buf.toList.map (fun id => .own (.release (.buf id)))
        else [.stderr (missLine e dest)]
      g.own.map .own ++ answered ++ [.sigcont e.pid]

/-- The record is large enough for `on_event` to look at it. -/
def Delivery.full (d : Delivery) : Bool := sslEventSize ≤ d.record.len

/-- The process is killed while the event is handled. -/
def Delivery.kills (sock dest : CString) (d : Delivery) : Bool :=
  d.full && decide (d.env.get.Kills sock dest)

/-- The records of a `ring_buffer__poll`, one after the other, as long as the process lives. -/
def onEvents (sock dest : CString) : List Delivery → List EventEff
  | [] => []
  | d :: ds => onEvent sock dest d ++ if d.kills sock dest then [] else onEvents sock dest ds

/-! ## Readings of the effects -/

/-- The events of the resources. -/
def ownEvents (effs : List EventEff) : List (Own ClientRes) :=
  effs.filterMap fun
    | .own e => some e
    | _ => none

/-- The calls of `inject_session`, with their return values and operations. -/
def installs (effs : List EventEff) : List (Int × List Op) :=
  effs.filterMap fun
    | .inject rc ops => some (rc, ops)
    | _ => none

/-- The lines logged. -/
def logLines (effs : List EventEff) : List CString :=
  effs.filterMap fun
    | .stderr line => some line
    | _ => none

/-- The processes that are sent `SIGCONT`. -/
def continued (effs : List EventEff) : List Nat :=
  effs.filterMap fun
    | .sigcont pid => some pid
    | _ => none

section Readings
variable (own : List (Own ClientRes)) (effs effs' : List EventEff)

@[simp] theorem installs_append : installs (effs ++ effs') = installs effs ++ installs effs' :=
  List.filterMap_append

@[simp] theorem logLines_append : logLines (effs ++ effs') = logLines effs ++ logLines effs' :=
  List.filterMap_append

@[simp] theorem installs_map_own : installs (own.map .own) = [] := by
  simp [installs, List.filterMap_map]

@[simp] theorem logLines_map_own : logLines (own.map .own) = [] := by
  simp [logLines, List.filterMap_map]

end Readings

/-! ## The ways through `on_event` -/

/-- What is done for a record of full size, unless the process is killed: without a session there is
a miss; with one, `inject_session` is called with it, and then its buffer is freed. -/
inductive Handled (sock dest : CString) (d : Delivery) : List EventEff → Prop where
  | miss {own : List (Own ClientRes)} {ret : Int} (hret : ret ≠ udsStatusOk.toNat)
      (hout : (d.get sock dest).out = some ⟨ret, none⟩) (hown : Owns ∅ own ∅) :
      Handled sock dest d
        (own.map .own ++ [.stderr (missLine d.record.event dest), .sigcont d.record.event.pid])
  | install {own : List (Own ClientRes)} {s : ClientSession} {id : Nat}
      (hout : (d.get sock dest).out = some ⟨udsStatusOk.toNat, some s⟩)
      (hown : Owns ∅ own {.buf id}) :
      Handled sock dest d (own.map .own ++
        [.own (.use (.buf id)),
          .inject (d.env.install d.record.event s).1 (d.env.install d.record.event s).2,
          .stderr (installLine d.record.event dest (s.group.getD .empty)
            (verdict (d.env.install d.record.event s).1)),
          .own (.release (.buf id)), .sigcont d.record.event.pid])

/-- The end of a line that reports a resumption. -/
def resumedMark : CString := .lit " -> RESUMED\n"

/-- A string that is not at the end of the end of a list is not at the end of the list. -/
theorem not_suffix_of_end {m t l : List UInt8} (ht : t <:+ l) (hlen : m.length ≤ t.length)
    (hnot : ¬m <:+ t) : ¬m <:+ l :=
  fun h => hnot (List.suffix_of_suffix_length_le h ht hlen)

/-- The line of an installation ends in its verdict. -/
theorem installLine_end (e : SslEvent) (dest group verdict : CString) :
    (CString.concat [.lit " -> ", verdict, .lit "\n"]).bytes <:+
      (installLine e dest group verdict).bytes := by
  refine ⟨(CString.concat [.lit "pid=", .dec e.pid, .lit " ssl=", hexAlt e.ssl, .lit " dest=", dest,
    .lit " group=", group]).bytes, ?_⟩
  simp [installLine]

/-- The line of a miss is never one of a resumption, whatever the destination. -/
theorem missLine_not_resumed (e : SslEvent) (dest : CString) :
    ¬resumedMark.bytes <:+ (missLine e dest).bytes := by
  refine not_suffix_of_end
    (t := (CString.lit " -> MISS, falling back to normal TLS (event)\n").bytes) ?_ (by decide +kernel)
    (by decide +kernel)
  refine ⟨(CString.concat [.lit "pid=", .dec e.pid, .lit " dest=", dest]).bytes, ?_⟩
  simp [missLine]

/-- The line of an installation is one of a resumption exactly where `inject_session` returned 0,
whatever the group's name. -/
theorem installLine_resumed_iff (e : SslEvent) (dest group : CString) (rc : Int) :
    resumedMark.bytes <:+ (installLine e dest group (verdict rc)).bytes ↔ rc = 0 := by
  have hend := installLine_end e dest group
  unfold verdict
  by_cases hrc : rc = 0
  · have hmark : resumedMark = .concat [.lit " -> ", .lit "RESUMED", .lit "\n"] := by decide +kernel
    rw [if_pos hrc, hmark]
    exact iff_of_true (hend (.lit "RESUMED")) hrc
  · rw [if_neg hrc]
    refine iff_of_false (not_suffix_of_end (hend (.lit "install-failed")) ?_ ?_) hrc
    · decide +kernel
    · decide +kernel

/-- A session was delivered for the event, and the target's `SSL_set_session` returned with 1. -/
def Delivery.Resumed (sock dest : CString) (d : Delivery) : Prop :=
  ∃ s ∈ d.session sock dest,
    ∃ r ∈ results .sslSetSession (d.env.install d.record.event s).2, r.setWidth 32 = 1#32

/-- `inject_session` returns 0 exactly where the target's `SSL_set_session` returned with 1. -/
theorem EventEnv.install_eq_zero_iff (env : EventEnv) (e : SslEvent) (s : ClientSession) :
    (env.install e s).1 = 0 ↔
      ∃ r ∈ results .sslSetSession (env.install e s).2, r.setWidth 32 = 1#32 := by
  obtain ⟨ops, hout, hlog⟩ := injectSession_log (ptraceRemote env.kernel) env.resolve
    (BitVec.ofNat 64 e.ssl) (fun i => (s.der.getD i 0).toBitVec) (BitVec.ofInt 64 s.derLen)
    (Ptrace.fresh env.target) []
  unfold EventEnv.install
  rw [hout]
  exact hlog.accounted.ret

/-! ## Each event is answered -/

/-- What is wanted of the effects of one event: the `SIGCONT` of its process comes once and last;
one line is logged, which ends in `RESUMED` exactly where the connection was resumed;
`inject_session` is called with the session of `uds_get`, and not at all without one; and the
descriptor and the buffer are released once, after their last use. -/
structure Delivery.Answered (sock dest : CString) (d : Delivery) (effs : List EventEff) : Prop where
  released : ∃ before, effs = before ++ [.sigcont d.record.event.pid] ∧ continued before = []
  reported : ∃ line, logLines effs = [line] ∧ (resumedMark.bytes <:+ line.bytes ↔ d.Resumed sock dest)
  installed : installs effs = (d.session sock dest).toList.map (d.env.install d.record.event)
  freed : Owns ∅ (ownEvents effs) ∅

theorem Handled.answered {sock dest : CString} {d : Delivery} {effs : List EventEff}
    (h : Handled sock dest d effs) : d.Answered sock dest effs := by
  cases h with
  | @miss own ret hret hout hown =>
    have hnone : d.session sock dest = none := by rw [Delivery.session, hout]; rfl
    refine ⟨⟨own.map .own ++ [.stderr (missLine d.record.event dest)], by simp, ?_⟩,
      ⟨missLine d.record.event dest, by simp [logLines], ?_⟩, ?_, ?_⟩
    · simp [continued]
    · refine iff_of_false (missLine_not_resumed _ _) ?_
      rintro ⟨s, hs, -⟩
      rw [hnone] at hs
      cases hs
    · simp [installs, hnone]
    · simpa [ownEvents] using hown
  | @install own s id hout hown =>
    have hs : d.session sock dest = some s := by rw [Delivery.session, hout]; rfl
    refine ⟨⟨own.map .own ++ [.own (.use (.buf id)),
          .inject (d.env.install d.record.event s).1 (d.env.install d.record.event s).2,
          .stderr (installLine d.record.event dest (s.group.getD .empty)
            (verdict (d.env.install d.record.event s).1)),
          .own (.release (.buf id))], by simp, ?_⟩,
      ⟨installLine d.record.event dest (s.group.getD .empty)
        (verdict (d.env.install d.record.event s).1), by simp [logLines], ?_⟩, ?_, ?_⟩
    · simp [continued]
    · rw [installLine_resumed_iff, EventEnv.install_eq_zero_iff]
      simp [Delivery.Resumed, hs]
    · simp [installs, hs]
    · have huse : Owns {ClientRes.buf id} [.use (.buf id), .release (.buf id)] ∅ :=
        (Owns.use (Finset.mem_singleton_self _)).cons (.release (Finset.notMem_empty _))
      simpa [ownEvents] using hown.append huse

section Events
variable (sock dest : CString)

end Events

/-! ## The daemon of the node -/

/-- The step of the node's daemon that an effect of `on_event` is. -/
def EventEff.acts : EventEff → List NodeAct
  | .inject rc _ => [.installed rc]
  | .sigcont _ => [.sigcont]
  | .own _ | .stderr _ => []

/-- The steps of the node's daemon for one record. -/
def Delivery.acts (sock dest : CString) (d : Delivery) : List NodeAct :=
  if d.full then
    .take :: (d.get sock dest).out.toList.map (fun out => .reply out.ret) ++
      (onEvent sock dest d).flatMap EventEff.acts
  else [.take]

/-- The node once the daemon has continued some processes. -/
def Node.release (s : Node) (ring : List Record) (pids : List Nat) : Node :=
  { s with ring, stopped := fun p => if p ∈ pids then false else s.stopped p }

/-- The steps for the effects of a record. -/
theorem Handled.acts {sock dest : CString} {d : Delivery} {effs : List EventEff}
    (h : Handled sock dest d effs) :
    (∃ ret : Int, ret ≠ udsStatusOk.toNat ∧
      (d.get sock dest).out.toList.map (fun out => NodeAct.reply out.ret) ++
        effs.flatMap EventEff.acts = [.reply ret, .sigcont]) ∨
      ∃ rc, (d.get sock dest).out.toList.map (fun out => NodeAct.reply out.ret) ++
        effs.flatMap EventEff.acts = [.reply udsStatusOk.toNat, .installed rc, .sigcont] := by
  have hnone (own : List (Own ClientRes)) :
      (own.map EventEff.own).flatMap EventEff.acts = [] := by
    simp [List.flatMap_map, EventEff.acts]
  cases h with
  | @miss own ret hret hout => exact .inl ⟨ret, hret, by simp [hout, hnone, EventEff.acts]⟩
  | install hout => exact .inr ⟨_, by simp [hout, hnone, EventEff.acts]; rfl⟩

section Refines
variable (probe : Probe) (sock dest : CString) {s : Node}

end Refines

end TicketConnect
