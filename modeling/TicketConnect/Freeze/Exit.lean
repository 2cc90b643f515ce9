import TicketConnect.Freeze.Drain

/-!
# What the daemon leaves behind when it exits

A signal ends the loop of `main` (`injector/main.c`) between two polls, and nothing is read from the
ring buffer after that. The processes that are stopped then are the ones whose events are still in
the ring (`Node.Tracked`), and since nobody else sends `SIGCONT`, they stay as they are: from there
on only threads take steps, and no step of a thread continues a process (`Node.Step.frozen`). A
`SSL_connect` that is no longer probed is one in which the program reserves nothing.
-/

namespace TicketConnect

open Lib

/-- A process is stopped, and its threads are where they were: in the same `SSL_connect` calls, with
as many handshake steps done. -/
structure Node.Frozen (s : Node) (p : Nat) (s' : Node) : Prop where
  stopped : s'.stopped p = true
  call : ∀ t : Thread, t.pid = p → (s'.threads t).call = (s.threads t).call
  steps : ∀ t : Thread, t.pid = p → (s'.threads t).steps = (s.threads t).steps

section Frozen
variable {s s' s'' : Node} {p : Nat}

theorem Node.Frozen.refl (h : s.stopped p = true) : s.Frozen p s :=
  ⟨h, fun _ _ => rfl, fun _ _ => rfl⟩

theorem Node.Frozen.trans (h : s.Frozen p s') (h' : s'.Frozen p s'') : s.Frozen p s'' :=
  ⟨h'.stopped, fun t ht => (h'.call t ht).trans (h.call t ht),
    fun t ht => (h'.steps t ht).trans (h.steps t ht)⟩

/-- A step of a thread of another process. -/
theorem Node.Frozen.of_other (hp : s.stopped p = true) {t : Thread} (hrun : s.stopped t.pid = false)
    (st : ThreadState) : s.Frozen p (s.setThread t st) := by
  have hne : ∀ t' : Thread, t'.pid = p → t' ≠ t := by
    rintro t' rfl rfl
    rw [hp] at hrun
    cases hrun
  refine ⟨hp, fun t' ht' => ?_, fun t' ht' => ?_⟩ <;> rw [s.setThread_of_ne (hne t' ht')]

/-- A step inside the eBPF program. -/
theorem Node.Frozen.of_phase {t : Thread} {phase : Phase}
    (hthreads : s'.threads = (s.setPhase t phase).threads) (hstopped : s'.stopped p = true) :
    s.Frozen p s' := by
  refine ⟨hstopped, fun t' _ => ?_, fun t' _ => ?_⟩ <;> rw [hthreads] <;>
    rcases eq_or_ne t' t with rfl | hne
  · simp
  · rw [s.setPhase_of_ne hne]
  · simp
  · rw [s.setPhase_of_ne hne]

/-- No step of a thread continues a process, or moves a thread of a stopped one. -/
theorem Node.Step.frozen {probe : Probe} {act : NodeAct} (hs : s.Step probe act s')
    (hact : act.ofDaemon = false)
    (hp : s.stopped p = true) : s.Frozen p s' := by
  cases hs with
  | enter _ hrun | handshake _ hrun => exact .of_other hp hrun _
  | finish _ hrun => exact .of_other hp hrun _
  | skip | reserve | submit => exact .of_phase rfl hp
  | @sigstop t =>
    refine .of_phase rfl ?_
    show Function.update s.stopped t.pid true p = true
    rw [Function.update_apply]
    split
    · rfl
    · exact hp
  | short | take | install | miss | installed | sigcont => cases hact

end Frozen

/-- **A process that is stopped when the daemon exits stays stopped, and its event is lost.** Take
any run in which each `SIGCONT` comes after the `SIGSTOP` it answers and each event has the ids of
its thread, up to a moment at which the daemon is not in `on_event`, and let it exit there. Every
process that is stopped then has an event in the ring that was not read; and whatever the threads of
the node do from then on, the process stays stopped, in the `SSL_connect` calls it was in, without
one more step of their handshakes. -/
theorem exit_strands_stopped (probe : Probe) (hnames : probe.Names) (acts : List NodeAct) (s : Node)
    (hrun : run (Node.step probe) Node.init acts = some s)
    (hok : Along (Node.step probe) ContAfterStop Node.init acts) (hidle : s.daemon = .idle)
    (p : Nat) (hp : s.stopped p = true) :
    (∃ r ∈ s.ring, r.event.pid = p) ∧
      ∀ (rest : List NodeAct) (s' : Node), (∀ act ∈ rest, act.ofDaemon = false) →
        run (Node.step probe) s rest = some s' → s.Frozen p s' := by
  have htracked : s.Tracked := Node.run_tracked hnames hrun hok
  constructor
  · obtain ⟨t, call, rfl, r, hr | hr, hkey⟩ := htracked.stopped p hp
    · exact ⟨r, hr, (htracked.named r (.inl hr)).trans (congrArg Thread.pid hkey.1)⟩
    · rw [hidle] at hr
      cases hr
  · intro rest s' hrest hs'
    have halong : Along (Node.step probe) (fun _ act => act.ofDaemon = false) s rest :=
      .of_mem (fun act hact _ => hrest act hact) s
    refine run_inv_along (I := fun x => s.Frozen p x) (fun x act x' hI hact hstep => ?_)
      (.refl hp) halong hs'
    exact hI.trans ((Node.Step.of_step hstep).frozen hact hI.stopped)

/-- The daemon exits after it has handled the event of one of two stopped processes. The other one
stays stopped while the first finishes its handshake. -/
theorem exit_strands_stopped_second :
    let t : Thread := ⟨7, 7⟩
    let t' : Thread := ⟨8, 8⟩
    let acts := [.enter t 1, .reserve t true, .submit t, .sigstop t, .enter t' 2, .reserve t' true,
      .submit t', .sigstop t', .take, .reply 1, .sigcont]
    let rest := [.handshake t, .handshake t, .finish t]
    ∃ s s', run (Node.step .all) Node.init acts = some s ∧
      run (Node.step .all) s rest = some s' ∧ s.Frozen 8 s' := by
  intro t t' acts rest
  have hok : Along (Node.step .all) ContAfterStop Node.init acts := by decide
  refine ⟨_, _, rfl, rfl, ?_⟩
  exact (exit_strands_stopped .all Probe.all_names acts _ rfl hok rfl 8 rfl).2 rest _ (by decide)
    rfl

end TicketConnect
