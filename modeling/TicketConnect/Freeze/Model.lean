import TicketConnect.Lib.Runs
import TicketConnect.Uds.Model

/-!
# Freezing a client

The concurrent half of the system: the eBPF program on `SSL_connect` entry
(`bpf/ssl_connect.bpf.c`, `on_ssl_connect`) in any number of threads, and the daemon's handling of
its events (`injector/main.c`, `on_event`). The threads and the daemon share the ring buffer and the
stopped state of each process; their steps interleave freely.

The program stores its event first and sends `SIGSTOP` after it. A record that is reserved but not
submitted yet holds the consumer back, as in the kernel's ring buffer. Signals act on processes:
`SIGSTOP` keeps every thread of a process out of user code until the next `SIGCONT`, but a thread
that is in the kernel, inside the eBPF program, runs the program to its end.

What the program stores for a call is an argument of the model (`Probe`): it depends on the name of
the calling thread and on the pid namespaces (`Bpf.Exclude`, `Bpf.Pidns`). Results that need events
with the ids of their threads say so (`Probe.Names`). Each `SSL_connect` runs the program once, that
is, the function has one probe. With both `--pid` and `--scan` it can have two on one file, and such
a daemon is not modelled here. The daemon can stop between any two steps, and then takes no more.
-/

namespace TicketConnect

open Lib

/-! ## The state -/

/-- A thread, by the process it belongs to and its thread id. -/
structure Thread where
  pid : Nat
  tid : Nat
deriving DecidableEq

/-- `struct ssl_event`. -/
structure SslEvent where
  pid : Nat
  tid : Nat
  ssl : Nat
deriving DecidableEq

/-- `sizeof(struct ssl_event)`. -/
def sslEventSize : Nat := 16

/-- Where a thread is: in other user code; in the eBPF program, before `bpf_ringbuf_reserve`, before
`bpf_ringbuf_submit`, or before `bpf_send_signal`; back at the entry of `SSL_connect`; or past its
first handshake step. -/
inductive Phase where
  | user
  | probe
  | reserved
  | submitted
  | entry
  | handshake
deriving DecidableEq

/-- A run of the eBPF program is in progress. -/
def Phase.inProgram : Phase → Bool
  | .probe | .reserved | .submitted => true
  | .user | .entry | .handshake => false

/-- A thread's state: its phase, the `SSL*` and the number of its latest `SSL_connect` call, and how
many handshake steps it has executed in that call. -/
structure ThreadState where
  phase : Phase
  ssl : Nat
  call : Nat
  steps : Nat
deriving DecidableEq

/-- A record of the ring buffer, with the thread that emitted it and the number of the thread's call
that it comes from. -/
structure Record where
  event : SslEvent
  len : Nat
  committed : Bool
  thread : Thread
  call : Nat
deriving DecidableEq

/-- Where the daemon is in `on_event`: not in it, before `uds_get` returns, in `inject_session`, or
before its `kill`. -/
inductive DaemonPc where
  | idle
  | asking (r : Record)
  | installing (r : Record)
  | releasing (r : Record)
deriving DecidableEq

/-- The record the daemon works on. -/
def DaemonPc.current : DaemonPc → Option Record
  | .idle => none
  | .asking r | .installing r | .releasing r => some r

/-- The node: its threads, which processes are stopped, the ring buffer and the daemon. -/
structure Node where
  threads : Thread → ThreadState
  stopped : Nat → Bool
  ring : List Record
  daemon : DaemonPc

/-- No thread has called `SSL_connect` yet. -/
def Node.init : Node := ⟨fun _ => ⟨.user, 0, 0, 0⟩, fun _ => false, [], .idle⟩

/-- The node with another state of one thread. -/
def Node.setThread (s : Node) (t : Thread) (st : ThreadState) : Node :=
  { s with threads := Function.update s.threads t st }

/-- The node with one thread in another phase. -/
def Node.setPhase (s : Node) (t : Thread) (phase : Phase) : Node :=
  s.setThread t { s.threads t with phase }

/-! ## The program -/

/-- The event that `on_ssl_connect` stores for a call of a thread, by the number of the call and its
`SSL*`; `none` where it returns before it reserves a record (`excluded`). -/
abbrev Probe := Thread → (call ssl : Nat) → Option SslEvent

/-- Each event has the ids of the thread that it comes from. -/
def Probe.Names (probe : Probe) : Prop :=
  ∀ t call ssl e, probe t call ssl = some e → e = ⟨t.pid, t.tid, ssl⟩

/-- The program where it excludes nobody, in the root pid namespace. -/
def Probe.all : Probe := fun t _ ssl => some ⟨t.pid, t.tid, ssl⟩

theorem Probe.all_names : Probe.all.Names := fun _ _ _ _ h => (Option.some.inj h).symm

/-- The event that the program stores for the current call of a thread, where `ok` says whether the
ring buffer has room for it. -/
def Node.report (s : Node) (probe : Probe) (t : Thread) (ok : Bool) : Option SslEvent :=
  if ok then probe t (s.threads t).call (s.threads t).ssl else none

/-! ## The steps -/

/-- A step of a thread or of the daemon, with what the outside decides in it. -/
inductive NodeAct where
  | enter (t : Thread) (ssl : Nat)
  | reserve (t : Thread) (ok : Bool)
  | submit (t : Thread)
  | sigstop (t : Thread)
  | handshake (t : Thread)
  | finish (t : Thread)
  | take
  | reply (status : Int)
  | installed (rc : Int)
  | sigcont
deriving DecidableEq

/-- The record a thread reserves. The program fills it with the event before it submits it. -/
def Node.newRecord (s : Node) (t : Thread) (event : SslEvent) : Record :=
  ⟨event, sslEventSize, false, t, (s.threads t).call⟩

/-- `bpf_ringbuf_submit` of the record that thread `t` reserved in its current call. -/
def Record.commit (t : Thread) (call : Nat) (r : Record) : Record :=
  if r.thread = t ∧ r.call = call then { r with committed := true } else r

/-- One step, `none` when it is not enabled. -/
def Node.step (probe : Probe) (s : Node) : NodeAct → Option Node
  | .enter t ssl =>
    if (s.threads t).phase = .user ∧ s.stopped t.pid = false then
      some (s.setThread t ⟨.probe, ssl, (s.threads t).call + 1, 0⟩)
    else none
  | .reserve t ok =>
    if (s.threads t).phase = .probe then
      match s.report probe t ok with
      | none => some (s.setPhase t .entry)
      | some e => some { s.setPhase t .reserved with ring := s.ring ++ [s.newRecord t e] }
    else none
  | .submit t =>
    if (s.threads t).phase = .reserved then
      some { s.setPhase t .submitted with ring := s.ring.map (Record.commit t (s.threads t).call) }
    else none
  | .sigstop t =>
    if (s.threads t).phase = .submitted then
      some { s.setPhase t .entry with stopped := Function.update s.stopped t.pid true }
    else none
  | .handshake t =>
    if ((s.threads t).phase = .entry ∨ (s.threads t).phase = .handshake) ∧
        s.stopped t.pid = false then
      some (s.setThread t
        { s.threads t with phase := .handshake, steps := (s.threads t).steps + 1 })
    else none
  | .finish t =>
    if ((s.threads t).phase = .entry ∨ (s.threads t).phase = .handshake) ∧
        s.stopped t.pid = false then
      some (s.setPhase t .user)
    else none
  | .take =>
    match s.daemon, s.ring with
    | .idle, r :: ring =>
      if r.committed then
        -- `on_event` ignores a record that is too short
        some { s with ring, daemon := if r.len < sslEventSize then .idle else .asking r }
      else none
    | _, _ => none
  | .reply status =>
    match s.daemon with
    | .asking r =>
      some { s with daemon := if status = udsStatusOk.toNat then .installing r else .releasing r }
    | _ => none
  | .installed _ =>
    match s.daemon with
    | .installing r => some { s with daemon := .releasing r }
    | _ => none
  | .sigcont =>
    match s.daemon with
    | .releasing r =>
      some { s with daemon := .idle, stopped := Function.update s.stopped r.event.pid false }
    | _ => none

/-! ## What a step can do -/

/-- The steps, one rule per way a step can go. -/
inductive Node.Step (probe : Probe) (s : Node) : NodeAct → Node → Prop where
  | enter {t : Thread} {ssl : Nat} (hphase : (s.threads t).phase = .user)
      (hrun : s.stopped t.pid = false) :
      Step probe s (.enter t ssl) (s.setThread t ⟨.probe, ssl, (s.threads t).call + 1, 0⟩)
  | skip {t : Thread} {ok : Bool} (hphase : (s.threads t).phase = .probe)
      (hnone : s.report probe t ok = none) : Step probe s (.reserve t ok) (s.setPhase t .entry)
  | reserve {t : Thread} {ok : Bool} {e : SslEvent} (hphase : (s.threads t).phase = .probe)
      (hevent : s.report probe t ok = some e) :
      Step probe s (.reserve t ok)
        { s.setPhase t .reserved with ring := s.ring ++ [s.newRecord t e] }
  | submit {t : Thread} (hphase : (s.threads t).phase = .reserved) :
      Step probe s (.submit t)
        { s.setPhase t .submitted with
          ring := s.ring.map (Record.commit t (s.threads t).call) }
  | sigstop {t : Thread} (hphase : (s.threads t).phase = .submitted) :
      Step probe s (.sigstop t)
        { s.setPhase t .entry with stopped := Function.update s.stopped t.pid true }
  | handshake {t : Thread}
      (hphase : (s.threads t).phase = .entry ∨ (s.threads t).phase = .handshake)
      (hrun : s.stopped t.pid = false) :
      Step probe s (.handshake t)
        (s.setThread t { s.threads t with phase := .handshake, steps := (s.threads t).steps + 1 })
  | finish {t : Thread}
      (hphase : (s.threads t).phase = .entry ∨ (s.threads t).phase = .handshake)
      (hrun : s.stopped t.pid = false) :
      Step probe s (.finish t) (s.setPhase t .user)
  | short {r : Record} {ring : List Record} (hd : s.daemon = .idle) (hring : s.ring = r :: ring)
      (hlen : r.len < sslEventSize) : Step probe s .take { s with ring }
  | take {r : Record} {ring : List Record} (hd : s.daemon = .idle) (hring : s.ring = r :: ring)
      (hc : r.committed = true) : Step probe s .take { s with ring, daemon := .asking r }
  | install {r : Record} {status : Int} (hd : s.daemon = .asking r) :
      Step probe s (.reply status) { s with daemon := .installing r }
  | miss {r : Record} {status : Int} (hd : s.daemon = .asking r) :
      Step probe s (.reply status) { s with daemon := .releasing r }
  | installed {r : Record} {rc : Int} (hd : s.daemon = .installing r) :
      Step probe s (.installed rc) { s with daemon := .releasing r }
  | sigcont {r : Record} (hd : s.daemon = .releasing r) :
      Step probe s .sigcont
        { s with daemon := .idle, stopped := Function.update s.stopped r.event.pid false }

/-- A step of the machine goes by one of the rules. -/
theorem Node.Step.of_step {probe : Probe} {s s' : Node} {act : NodeAct}
    (h : s.step probe act = some s') : s.Step probe act s' := by
  cases act with
  | enter t ssl =>
    simp only [Node.step, Option.ite_none_right_eq_some, Option.some.injEq] at h
    obtain ⟨⟨hphase, hrun⟩, rfl⟩ := h
    exact .enter hphase hrun
  | reserve t ok =>
    simp only [Node.step, Option.ite_none_right_eq_some] at h
    obtain ⟨hphase, h⟩ := h
    split at h
    · next hnone => cases h; exact .skip hphase hnone
    · next e hevent => cases h; exact .reserve hphase hevent
  | submit t =>
    simp only [Node.step, Option.ite_none_right_eq_some, Option.some.injEq] at h
    obtain ⟨hphase, rfl⟩ := h
    exact .submit hphase
  | sigstop t =>
    simp only [Node.step, Option.ite_none_right_eq_some, Option.some.injEq] at h
    obtain ⟨hphase, rfl⟩ := h
    exact .sigstop hphase
  | handshake t =>
    simp only [Node.step, Option.ite_none_right_eq_some, Option.some.injEq] at h
    obtain ⟨⟨hphase, hrun⟩, rfl⟩ := h
    exact .handshake hphase hrun
  | finish t =>
    simp only [Node.step, Option.ite_none_right_eq_some, Option.some.injEq] at h
    obtain ⟨⟨hphase, hrun⟩, rfl⟩ := h
    exact .finish hphase hrun
  | take =>
    simp only [Node.step] at h
    split at h
    · next r ring hd hring =>
      simp only [Option.ite_none_right_eq_some, Option.some.injEq] at h
      obtain ⟨hc, rfl⟩ := h
      split
      · next hlen => exact hd ▸ .short hd hring hlen
      · exact .take hd hring hc
    · cases h
  | reply status =>
    simp only [Node.step] at h
    split at h
    · next r hd =>
      cases h
      split
      exacts [.install hd, .miss hd]
    · cases h
  | installed rc =>
    simp only [Node.step] at h
    split at h
    · next r hd => cases h; exact .installed hd
    · cases h
  | sigcont =>
    simp only [Node.step] at h
    split at h
    · next r hd => cases h; exact .sigcont hd
    · cases h

/-! ## Readings of a node after an update -/

@[simp] theorem Node.setThread_same (s : Node) (t : Thread) (st : ThreadState) :
    (s.setThread t st).threads t = st := Function.update_self ..

@[simp] theorem Node.setPhase_same (s : Node) (t : Thread) (phase : Phase) :
    (s.setPhase t phase).threads t = { s.threads t with phase } := Function.update_self ..

theorem Node.setThread_of_ne (s : Node) {t t' : Thread} (h : t' ≠ t) (st : ThreadState) :
    (s.setThread t st).threads t' = s.threads t' := Function.update_of_ne h ..

theorem Node.setPhase_of_ne (s : Node) {t t' : Thread} (h : t' ≠ t) (phase : Phase) :
    (s.setPhase t phase).threads t' = s.threads t' := Function.update_of_ne h ..

@[simp] theorem Record.commit_thread (t : Thread) (call : Nat) (r : Record) :
    (r.commit t call).thread = r.thread := by
  unfold Record.commit
  split <;> rfl

@[simp] theorem Record.commit_call (t : Thread) (call : Nat) (r : Record) :
    (r.commit t call).call = r.call := by
  unfold Record.commit
  split <;> rfl

@[simp] theorem Record.commit_event (t : Thread) (call : Nat) (r : Record) :
    (r.commit t call).event = r.event := by
  unfold Record.commit
  split <;> rfl

@[simp] theorem Record.commit_len (t : Thread) (call : Nat) (r : Record) :
    (r.commit t call).len = r.len := by
  unfold Record.commit
  split <;> rfl

/-! ## Records that are being filled -/

/-- Each record that is not submitted, and holds the daemon back, is being filled by the run that
reserved it. -/
def Node.Filling (s : Node) : Prop :=
  ∀ r ∈ s.ring, r.committed = false →
    (s.threads r.thread).phase = .reserved ∧ (s.threads r.thread).call = r.call

namespace Node.Filling
variable {s s' : Node}

/-- A step of a thread that has no record to fill, in which no record is added. -/
theorem of_thread (h : s.Filling) {t : Thread} {st : ThreadState}
    (hphase : (s.threads t).phase ≠ .reserved) (hring : s'.ring = s.ring)
    (hthreads : s'.threads = (s.setThread t st).threads) : s'.Filling := by
  intro r hr hc
  rw [hring] at hr
  have hne : r.thread ≠ t := by
    rintro rfl
    exact hphase (h r hr hc).1
  rw [hthreads, Node.setThread_of_ne _ hne]
  exact h r hr hc

/-- `bpf_ringbuf_reserve`. -/
theorem reserve (h : s.Filling) {t : Thread} (hphase : (s.threads t).phase = .probe)
    (e : SslEvent) :
    ({ s.setPhase t .reserved with ring := s.ring ++ [s.newRecord t e] } : Node).Filling := by
  intro r hr hc
  rcases List.mem_append.1 hr with hold | hnew
  · have hfills := h r hold hc
    have hne : r.thread ≠ t := by
      rintro rfl
      rw [hfills.1] at hphase
      cases hphase
    rw [show _ = s.threads r.thread from s.setPhase_of_ne hne _]
    exact hfills
  · rw [List.mem_singleton.1 hnew]
    show ((s.setPhase t .reserved).threads t).phase = .reserved ∧
      ((s.setPhase t .reserved).threads t).call = (s.threads t).call
    simp

/-- `bpf_ringbuf_submit`. -/
theorem submit (h : s.Filling) (t : Thread) :
    ({ s.setPhase t .submitted with
      ring := s.ring.map (Record.commit t (s.threads t).call) } : Node).Filling := by
  intro r hr hc
  obtain ⟨r', hr', rfl⟩ := List.mem_map.1 hr
  unfold Record.commit at hc ⊢
  split at hc
  · cases hc
  · next hother =>
    have hr'' := h r' hr' hc
    have hne : r'.thread ≠ t := by
      rintro rfl
      exact hother ⟨rfl, hr''.2.symm⟩
    rw [if_neg hother, show _ = s.threads r'.thread from s.setPhase_of_ne hne _]
    exact hr''

theorem init : Node.init.Filling := fun _ hr => nomatch hr

/-- Every step keeps it, with no condition on the order of the steps. -/
theorem step (h : s.Filling) {probe : Probe} {act : NodeAct} (hs : s.Step probe act s') :
    s'.Filling := by
  cases hs with
  | enter hphase | skip hphase | sigstop hphase =>
    exact h.of_thread (by rw [hphase]; decide) rfl rfl
  | reserve hphase => exact h.reserve hphase _
  | submit => exact h.submit _
  | handshake hphase | finish hphase =>
    exact h.of_thread (by rcases hphase with hp | hp <;> rw [hp] <;> decide) rfl rfl
  | short _ hring | take _ hring => exact fun r hr => h r (by rw [hring]; exact .tail _ hr)
  | install | miss | installed | sigcont => exact h

end Node.Filling

end TicketConnect
