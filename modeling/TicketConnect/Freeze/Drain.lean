import TicketConnect.Freeze.Release

/-!
# The daemon drains the ring

`frozen_client_released` says what a quiet node is like. Here is that a node becomes quiet: once no
eBPF run is in progress, the daemon's own steps come to an end, whatever the agent replies and
whatever becomes of the installations, and where they end the ring is empty and no process is
stopped (`daemon_drains`). The one thing that could hold the daemon back is a record that is
reserved and not submitted; its thread is still inside the program (`Node.Filling`).
-/

namespace TicketConnect

open Lib

/-! ## The daemon's steps -/

/-- The step is one of the daemon. -/
def NodeAct.ofDaemon : NodeAct → Bool
  | .take | .reply _ | .installed _ | .sigcont => true
  | .enter .. | .reserve .. | .submit _ | .sigstop _ | .handshake _ | .finish _ => false

/-- The most steps that `on_event` has left. -/
def DaemonPc.left : DaemonPc → Nat
  | .idle => 0
  | .asking _ => 3
  | .installing _ => 2
  | .releasing _ => 1

/-- The most steps that the daemon has left: four for each record in the ring. -/
def Node.left (s : Node) : Nat := 4 * s.ring.length + s.daemon.left

section Daemon
variable {probe : Probe} {s s' : Node} {act : NodeAct}

/-- A step of the daemon leaves the threads alone and has fewer steps left after it. -/
theorem Node.Step.ofDaemon (hs : s.Step probe act s') (hact : act.ofDaemon = true) :
    s'.threads = s.threads ∧ s'.left < s.left := by
  cases hs with
  | enter | skip | reserve | submit | sigstop | handshake | finish => cases hact
  | short hd hring | take hd hring =>
    refine ⟨rfl, ?_⟩
    simp only [Node.left, DaemonPc.left, hd, hring, List.length_cons]
    omega
  | install hd | miss hd | installed hd | sigcont hd =>
    refine ⟨rfl, ?_⟩
    simp only [Node.left, DaemonPc.left, hd]
    omega

/-- Where no step of the daemon is enabled, it is idle, and the first record of the ring is not
submitted. -/
theorem Node.idle_of_stuck (h : ∀ act, act.ofDaemon = true → s.step probe act = none) :
    s.daemon = .idle ∧ ∀ r ∈ s.ring.head?, r.committed = false := by
  have hd : s.daemon = .idle := by
    cases hd : s.daemon with
    | idle => rfl
    | asking r => simpa [Node.step, hd] using h (.reply 0) rfl
    | installing r => simpa [Node.step, hd] using h (.installed 0) rfl
    | releasing r => simpa [Node.step, hd] using h .sigcont rfl
  refine ⟨hd, fun r hr => ?_⟩
  cases hring : s.ring with
  | nil => rw [hring] at hr; cases hr
  | cons r' ring =>
    rw [hring] at hr
    cases hr
    simpa [Node.step, hd, hring] using h .take rfl

/-- What the daemon works in: the events are accounted for and no eBPF run is in progress. -/
structure Node.Draining (s : Node) : Prop where
  tracked : s.Tracked
  filling : s.Filling
  threads : ∀ t, (s.threads t).phase.inProgram = false

/-- With no eBPF run in progress, no `SIGSTOP` is left to come before a `SIGCONT`. -/
theorem Node.Draining.contAfterStop (h : s.Draining) (act : NodeAct) : ContAfterStop s act := by
  intro _ r _ hpending
  have hprogram := h.threads r.thread
  rw [hpending.1] at hprogram
  cases hprogram

theorem Node.Draining.step (h : s.Draining) (hnames : probe.Names) (hact : act.ofDaemon = true)
    (hs : s.Step probe act s') : s'.Draining := by
  refine ⟨h.tracked.step hnames (h.contAfterStop act) hs, h.filling.step hs, fun t => ?_⟩
  rw [(hs.ofDaemon hact).1]
  exact h.threads t

/-- The daemon stops only where there is nothing left to do. -/
theorem Node.Draining.quiet (h : s.Draining)
    (hstuck : ∀ act, act.ofDaemon = true → s.step probe act = none) : s.Quiet := by
  obtain ⟨hd, hhead⟩ := Node.idle_of_stuck hstuck
  refine ⟨?_, hd, h.threads⟩
  cases hring : s.ring with
  | nil => rfl
  | cons r ring =>
    have hc : r.committed = false := hhead r (by rw [hring]; rfl)
    have hprogram := h.threads r.thread
    rw [(h.filling r (by rw [hring]; exact .head _) hc).1] at hprogram
    cases hprogram

end Daemon

/-! ## The result -/

/-- **The daemon drains the ring and releases everybody.** Take any run in which each `SIGCONT`
comes after the `SIGSTOP` it answers, with events that have the ids of their threads, to a state in
which no eBPF run is in progress. From there the daemon takes at most four steps for each record in
the ring and three for the event at hand, none of which changes a thread. Unless it is killed before
that, it stops only on a quiet node, and then no process is stopped: whatever the agent replied to
each event, and whatever each installation returned. -/
theorem daemon_drains (probe : Probe) (hnames : probe.Names) (acts : List NodeAct) (s : Node)
    (hrun : run (Node.step probe) Node.init acts = some s)
    (hok : Along (Node.step probe) ContAfterStop Node.init acts)
    (hprogram : ∀ t, (s.threads t).phase.inProgram = false) (rest : List NodeAct) (s' : Node)
    (hrest : ∀ act ∈ rest, act.ofDaemon = true)
    (hdrain : run (Node.step probe) s rest = some s') :
    rest.length ≤ 4 * s.ring.length + 3 ∧ s'.threads = s.threads ∧
      ((∀ act, act.ofDaemon = true → s'.step probe act = none) →
        s'.Quiet ∧ ∀ p, s'.stopped p = false) := by
  have htracked : s.Tracked := Node.run_tracked hnames hrun hok
  have hfilling : s.Filling := run_inv (fun _ _ _ hI hs => hI.step (.of_step hs))
    Node.Filling.init hrun
  have hstays : s'.Draining ∧ s'.threads = s.threads := by
    have halong : Along (Node.step probe) (fun _ act => act.ofDaemon = true) s rest :=
      .of_mem (fun act hact _ => hrest act hact) s
    refine run_inv_along (I := fun x => x.Draining ∧ x.threads = s.threads)
      (fun x act x' hI hact hs => ?_) ⟨⟨htracked, hfilling, hprogram⟩, rfl⟩ halong hdrain
    have hstep := Node.Step.of_step hs
    exact ⟨hI.1.step hnames hact hstep, (hstep.ofDaemon hact).1.trans hI.2⟩
  have hlength : rest.length + s'.left ≤ s.left := by
    refine run_length_le (fun x act x' hact hs => ?_) hrest hdrain
    exact ((Node.Step.of_step hs).ofDaemon hact).2
  refine ⟨?_, hstays.2, fun hstuck => ?_⟩
  · have hleft : s.daemon.left ≤ 3 := by cases s.daemon <;> simp [DaemonPc.left]
    unfold Node.left at hlength
    omega
  · have hquiet := hstays.1.quiet hstuck
    exact ⟨hquiet, hstays.1.tracked.released hquiet⟩

/-- Two stopped processes; the daemon installs for the first and misses for the second. -/
theorem daemon_drains_two :
    let t : Thread := ⟨7, 7⟩
    let t' : Thread := ⟨8, 8⟩
    let acts := [.enter t 1, .reserve t true, .enter t' 2, .reserve t' true, .submit t',
      .sigstop t', .submit t, .sigstop t]
    let rest := [.take, .reply 0, .installed 0, .sigcont, .take, .reply 1, .sigcont]
    ∃ s s', run (Node.step .all) Node.init acts = some s ∧ s.stopped 7 = true ∧
      run (Node.step .all) s rest = some s' ∧ s'.Quiet ∧ ∀ p, s'.stopped p = false := by
  intro t t' acts rest
  have hok : Along (Node.step .all) ContAfterStop Node.init acts := by decide
  refine ⟨_, _, rfl, rfl, rfl, (daemon_drains .all Probe.all_names acts _ rfl hok (fun u => ?_)
    rest _ (by decide) rfl).2.2 fun act hact => ?_⟩
  · rcases eq_or_ne u t with rfl | h
    · rfl
    rcases eq_or_ne u t' with rfl | h'
    · rfl
    simp [Node.setPhase, Node.setThread, Function.update_of_ne h, Function.update_of_ne h',
      Node.init, Phase.inProgram]
  · cases act <;> first | rfl | cases hact

end TicketConnect
