import TicketConnect.Freeze.Model

/-!
# When a frozen client is released

`on_event` ends every event with a `SIGCONT` to the event's process. That releases the client if the
`SIGSTOP` of the run that emitted the event has been sent by then. The program sends it after it has
submitted the event, so the daemon can be faster: `late_stop_freezes` is a run in which the process
stays stopped with nobody left to continue it. `frozen_client_released` is the converse: where each
`SIGCONT` comes after the `SIGSTOP` it answers, and each event has the pid of its process, no
process is stopped once the node is quiet.
-/

namespace TicketConnect

open Lib

/-- No event is queued or handled, and no eBPF program run is in progress. -/
structure Node.Quiet (s : Node) : Prop where
  ring : s.ring = []
  daemon : s.daemon = .idle
  threads : ∀ t, (s.threads t).phase.inProgram = false

/-- A node is quiet where one thread is outside the program and the others never called. -/
theorem Node.Quiet.of_one {s : Node} (t : Thread) (hring : s.ring = []) (hd : s.daemon = .idle)
    (ht : (s.threads t).phase.inProgram = false)
    (hne : ∀ t', t' ≠ t → s.threads t' = Node.init.threads t') : s.Quiet := by
  refine ⟨hring, hd, fun t' => ?_⟩
  rcases eq_or_ne t' t with rfl | h
  · exact ht
  · rw [hne t' h]; rfl

/-- The eBPF run that emitted a record has still to send its `SIGSTOP`. -/
def Node.StopPending (s : Node) (r : Record) : Prop :=
  (s.threads r.thread).phase = .submitted ∧ (s.threads r.thread).call = r.call

instance (s : Node) (r : Record) : Decidable (s.StopPending r) :=
  inferInstanceAs (Decidable (_ ∧ _))

/-- The daemon sends `SIGCONT` for an event only after the run that emitted the event has sent its
`SIGSTOP`. -/
def ContAfterStop (s : Node) (act : NodeAct) : Prop :=
  act = .sigcont → ∀ r ∈ s.daemon.current, ¬ s.StopPending r

instance (s : Node) (act : NodeAct) : Decidable (ContAfterStop s act) :=
  inferInstanceAs (Decidable (_ → ∀ r ∈ s.daemon.current, _))

/-! ## The events still to be answered -/

/-- An event of call `call` of thread `t` is in the ring or with the daemon. -/
def Node.Outstanding (s : Node) (t : Thread) (call : Nat) : Prop :=
  ∃ r, (r ∈ s.ring ∨ r ∈ s.daemon.current) ∧ r.thread = t ∧ r.call = call

/-- The invariant of a run in which each `SIGCONT` comes after the `SIGSTOP` it answers: each event
has the pid of its thread, a run that has reserved a record has it in the ring, one that has still
to send its `SIGSTOP` has its event outstanding, and so has some run of each stopped process. -/
structure Node.Tracked (s : Node) : Prop where
  named : ∀ r, r ∈ s.ring ∨ r ∈ s.daemon.current → r.event.pid = r.thread.pid
  len : ∀ r ∈ s.ring, r.len = sslEventSize
  reserved : ∀ t, (s.threads t).phase = .reserved →
    ∃ r ∈ s.ring, r.committed = false ∧ r.thread = t ∧ r.call = (s.threads t).call
  submitted : ∀ t, (s.threads t).phase = .submitted → s.Outstanding t (s.threads t).call
  stopped : ∀ p, s.stopped p = true → ∃ t call, t.pid = p ∧ s.Outstanding t call

theorem Node.init_tracked : Node.init.Tracked := by
  refine ⟨?_, ?_, ?_, ?_, ?_⟩ <;> simp [Node.init, DaemonPc.current]

section Steps
variable {s s' : Node}

/-- Where no event is lost, a stopped process still has a run whose event is outstanding. -/
theorem Node.Tracked.stopped_mono (h : s.Tracked)
    (hout : ∀ {t call}, s.Outstanding t call → s'.Outstanding t call) {p : Nat}
    (hp : s.stopped p = true) : ∃ t call, t.pid = p ∧ s'.Outstanding t call := by
  obtain ⟨t, call, htp, ho⟩ := h.stopped p hp
  exact ⟨t, call, htp, hout ho⟩

/-- A step that moves no event and starts no wait of a thread. -/
theorem Node.Tracked.of_events (h : s.Tracked) (hring : s'.ring = s.ring)
    (hcurrent : s'.daemon.current = s.daemon.current)
    (hphase : ∀ t, (s'.threads t).phase = .reserved ∨ (s'.threads t).phase = .submitted →
      s'.threads t = s.threads t)
    (hstopped : ∀ p, s'.stopped p = true → s.stopped p = true ∨
      ∃ t, t.pid = p ∧ (s.threads t).phase = .submitted) : s'.Tracked := by
  have hout : ∀ {t call}, s.Outstanding t call → s'.Outstanding t call := by
    rintro t call ⟨r, hr, hkey⟩
    exact ⟨r, by rwa [hring, hcurrent], hkey⟩
  refine ⟨by rw [hring, hcurrent]; exact h.named, hring ▸ h.len, fun t ht => ?_, fun t ht => ?_,
    fun p hp => ?_⟩
  · have he := hphase t (.inl ht)
    rw [he] at ht ⊢
    exact hring ▸ h.reserved t ht
  · have he := hphase t (.inr ht)
    rw [he] at ht ⊢
    exact hout (h.submitted t ht)
  · rcases hstopped p hp with hp | ⟨t, rfl, ht⟩
    · exact h.stopped_mono hout hp
    · exact ⟨t, _, rfl, hout (h.submitted t ht)⟩

/-- Only the thread that moves can be in another phase, and it does not wait there. -/
theorem Node.setThread_waiting {t : Thread} {st : ThreadState} (h₁ : st.phase ≠ .reserved)
    (h₂ : st.phase ≠ .submitted) (t' : Thread)
    (h : ((s.setThread t st).threads t').phase = .reserved ∨
      ((s.setThread t st).threads t').phase = .submitted) :
    (s.setThread t st).threads t' = s.threads t' := by
  rcases eq_or_ne t' t with rfl | ht
  · rw [Node.setThread_same] at h
    exact absurd h (not_or.2 ⟨h₁, h₂⟩)
  · exact s.setThread_of_ne ht st

/-- A step of a thread that changes only its own state, to one outside the program's waits. -/
theorem Node.Tracked.setThread (h : s.Tracked) (t : Thread) {st : ThreadState}
    (h₁ : st.phase ≠ .reserved) (h₂ : st.phase ≠ .submitted) : (s.setThread t st).Tracked :=
  h.of_events rfl rfl (setThread_waiting h₁ h₂) fun _ hp => .inl hp

/-- `bpf_ringbuf_reserve`. -/
theorem Node.Tracked.reserve (h : s.Tracked) {t : Thread} {e : SslEvent} (he : e.pid = t.pid) :
    ({ s.setPhase t .reserved with ring := s.ring ++ [s.newRecord t e] } : Node).Tracked := by
  have hout : ∀ {t' call}, s.Outstanding t' call →
      ({ s.setPhase t .reserved with ring := s.ring ++ [s.newRecord t e] } : Node).Outstanding
        t' call := by
    rintro t' call ⟨r, hr, hkey⟩
    exact ⟨r, hr.imp_left (List.mem_append_left _), hkey⟩
  refine ⟨?_, fun r hr => ?_, fun t' ht' => ?_, fun t' ht' => ?_, fun p hp => ?_⟩
  · rintro r (hr | hr)
    · rcases List.mem_append.1 hr with hr | hr
      · exact h.named r (.inl hr)
      · rw [List.mem_singleton.1 hr]
        exact he
    · exact h.named r (.inr hr)
  · rcases List.mem_append.1 hr with hr | hr
    · exact h.len r hr
    · rw [List.mem_singleton.1 hr]; rfl
  · rcases eq_or_ne t' t with rfl | hne
    · exact ⟨s.newRecord t' e, by simp, rfl, rfl, by simp [newRecord]⟩
    · rw [show _ = s.threads t' from s.setPhase_of_ne hne _] at ht' ⊢
      obtain ⟨r, hr, hrest⟩ := h.reserved t' ht'
      exact ⟨r, List.mem_append_left _ hr, hrest⟩
  · rcases eq_or_ne t' t with rfl | hne
    · simp at ht'
    · rw [show _ = s.threads t' from s.setPhase_of_ne hne _] at ht' ⊢
      exact hout (h.submitted t' ht')
  · exact h.stopped_mono hout hp

/-- `bpf_ringbuf_submit`. -/
theorem Node.Tracked.submit (h : s.Tracked) {t : Thread}
    (hphase : (s.threads t).phase = .reserved) :
    ({ s.setPhase t .submitted with
      ring := s.ring.map (Record.commit t (s.threads t).call) } : Node).Tracked := by
  have hring : ∀ r ∈ s.ring, r.commit t (s.threads t).call ∈
      s.ring.map (Record.commit t (s.threads t).call) := fun r hr => List.mem_map_of_mem hr
  have hout : ∀ {t' call}, s.Outstanding t' call →
      ({ s.setPhase t .submitted with
        ring := s.ring.map (Record.commit t (s.threads t).call) } : Node).Outstanding t' call := by
    rintro t' call ⟨r, hr | hr, hkey⟩
    · exact ⟨_, .inl (hring r hr), by simpa using hkey⟩
    · exact ⟨r, .inr hr, hkey⟩
  refine ⟨?_, fun r hr => ?_, fun t' ht' => ?_, fun t' ht' => ?_, fun p hp => ?_⟩
  · rintro r (hr | hr)
    · obtain ⟨r', hr', rfl⟩ := List.mem_map.1 hr
      simpa using h.named r' (.inl hr')
    · exact h.named r (.inr hr)
  · obtain ⟨r', hr', rfl⟩ := List.mem_map.1 hr
    simpa using h.len r' hr'
  · rcases eq_or_ne t' t with rfl | hne
    · simp at ht'
    · rw [show _ = s.threads t' from s.setPhase_of_ne hne _] at ht' ⊢
      obtain ⟨r, hr, hc, hrt, hcall⟩ := h.reserved t' ht'
      -- the record of another thread is not the one that is submitted
      have hsame : r.commit t (s.threads t).call = r := by
        rw [Record.commit, if_neg fun hk => hne (hrt.symm.trans hk.1)]
      exact ⟨r, hsame ▸ hring r hr, hc, hrt, hcall⟩
  · rcases eq_or_ne t' t with rfl | hne
    · obtain ⟨r, hr, -, hrt, hcall⟩ := h.reserved t' hphase
      simpa using hout ⟨r, .inl hr, hrt, hcall⟩
    · rw [show _ = s.threads t' from s.setPhase_of_ne hne _] at ht' ⊢
      exact hout (h.submitted t' ht')
  · exact h.stopped_mono hout hp

/-- The daemon takes a record. -/
theorem Node.Tracked.take (h : s.Tracked) {r : Record} {ring : List Record}
    (hd : s.daemon = .idle) (hring : s.ring = r :: ring) (hc : r.committed = true) :
    ({ s with ring, daemon := .asking r } : Node).Tracked := by
  have hout : ∀ {t call}, s.Outstanding t call →
      ({ s with ring, daemon := .asking r } : Node).Outstanding t call := by
    rintro t call ⟨r', hr' | hr', hkey⟩
    · rw [hring] at hr'
      rcases List.mem_cons.1 hr' with rfl | hr'
      · exact ⟨r', .inr rfl, hkey⟩
      · exact ⟨r', .inl hr', hkey⟩
    · rw [hd] at hr'
      cases hr'
  refine ⟨?_, fun r' hr' => h.len r' (by rw [hring]; exact .tail _ hr'), fun t ht => ?_,
    fun t ht => hout (h.submitted t ht), fun p hp => ?_⟩
  · rintro r' (hr' | hr')
    · exact h.named r' (.inl (by rw [hring]; exact .tail _ hr'))
    · cases hr'
      exact h.named r (.inl (by rw [hring]; exact .head _))
  · obtain ⟨r', hr', hc', hkey⟩ := h.reserved t ht
    rw [hring] at hr'
    rcases List.mem_cons.1 hr' with rfl | hr'
    · rw [hc] at hc'; cases hc'
    · exact ⟨r', hr', hc', hkey⟩
  · exact h.stopped_mono hout hp

/-- The daemon's `SIGCONT`, after the `SIGSTOP` it answers. -/
theorem Node.Tracked.sigcont (h : s.Tracked) {r : Record} (hd : s.daemon = .releasing r)
    (hok : ¬ s.StopPending r) :
    ({ s with
      daemon := .idle
      stopped := Function.update s.stopped r.event.pid false } : Node).Tracked := by
  have hcur : ∀ r', r' ∈ s.daemon.current → r' = r := by
    intro r' hr'
    rw [hd] at hr'
    exact (Option.some.inj hr').symm
  have hpid : r.event.pid = r.thread.pid := h.named r (.inr (by rw [hd]; rfl))
  refine ⟨?_, h.len, h.reserved, fun t ht => ?_, fun p hp => ?_⟩
  · rintro r' (hr' | hr')
    · exact h.named r' (.inl hr')
    · cases hr'
  · obtain ⟨r', hr' | hr', hkey⟩ := h.submitted t ht
    · exact ⟨r', .inl hr', hkey⟩
    · cases hcur r' hr'
      obtain ⟨rfl, hcall⟩ := hkey
      exact absurd ⟨ht, hcall.symm⟩ hok
  · rcases eq_or_ne p r.event.pid with rfl | hne
    · simp at hp
    · dsimp only at hp
      rw [Function.update_of_ne hne] at hp
      obtain ⟨t, call, htp, r', hr' | hr', hkey⟩ := h.stopped p hp
      · exact ⟨t, call, htp, r', .inl hr', hkey⟩
      · cases hcur r' hr'
        exact absurd (htp.symm.trans ((congrArg Thread.pid hkey.1.symm).trans hpid.symm)) hne

/-- Every step that meets the condition keeps the invariant. -/
theorem Node.Tracked.step (h : s.Tracked) {probe : Probe} (hnames : probe.Names) {act : NodeAct}
    (hok : ContAfterStop s act) (hs : s.Step probe act s') : s'.Tracked := by
  cases hs with
  | enter | handshake => exact h.setThread _ (by simp) (by simp)
  | skip | finish => exact h.setThread _ (by simp) (by simp)
  | @reserve t ok e _ hevent =>
    refine h.reserve ?_
    cases ok with
    | false => cases hevent
    | true => rw [hnames _ _ _ _ hevent]
  | submit hphase => exact h.submit hphase
  | @sigstop t hphase =>
    refine h.of_events rfl rfl (setThread_waiting (by simp) (by simp)) fun p hp => ?_
    rcases eq_or_ne p t.pid with rfl | hne
    · exact .inr ⟨t, rfl, hphase⟩
    · dsimp only at hp
      rw [Function.update_of_ne hne] at hp
      exact .inl hp
  | @short r ring hd hring hlen =>
    have := h.len r (by rw [hring]; exact .head _)
    omega
  | take hd hring hc => exact h.take hd hring hc
  | install hd | miss hd | installed hd =>
    exact h.of_events rfl (by simp [hd, DaemonPc.current]) (fun _ _ => rfl) fun _ hp => .inl hp
  | @sigcont r hd => exact h.sigcont hd (hok rfl r (by rw [hd]; rfl))

end Steps

/-- The invariant holds over every run that meets the condition. -/
theorem Node.run_tracked {probe : Probe} (hnames : probe.Names) {acts : List NodeAct} {s : Node}
    (hrun : run (Node.step probe) Node.init acts = some s)
    (hok : Along (Node.step probe) ContAfterStop Node.init acts) : s.Tracked :=
  run_inv_along (fun _ _ _ hI hok hs => hI.step hnames hok (.of_step hs)) Node.init_tracked hok hrun

/-- A quiet node whose events are accounted for has nobody stopped. -/
theorem Node.Tracked.released {s : Node} (h : s.Tracked) (hquiet : s.Quiet) (p : Nat) :
    s.stopped p = false := by
  by_contra hp
  obtain ⟨t, call, -, r, hr | hr, -⟩ := h.stopped p (by simpa using hp)
  · rw [hquiet.ring] at hr
    cases hr
  · rw [hquiet.daemon] at hr
    cases hr

/-! ## The results -/

/-- **A frozen client is released, where each `SIGCONT` comes after the `SIGSTOP` it answers.** For
every interleaving of any number of threads with the daemon, any replies of the agent and any
results of the installation, with events that have the ids of their threads: when the ring is empty,
the daemon is idle and no eBPF run is in progress, no process is stopped. -/
theorem frozen_client_released (probe : Probe) (hnames : probe.Names) (acts : List NodeAct)
    (s : Node) (hrun : run (Node.step probe) Node.init acts = some s)
    (hok : Along (Node.step probe) ContAfterStop Node.init acts) (hquiet : s.Quiet) :
    ∀ p, s.stopped p = false :=
  (Node.run_tracked hnames hrun hok).released hquiet

/-- A run that meets the condition: the `SIGSTOP` is sent before the daemon takes the event. -/
theorem frozen_client_released_miss :
    let t : Thread := ⟨7, 7⟩
    let acts := [.enter t 1, .reserve t true, .submit t, .sigstop t, .take, .reply 1, .sigcont]
    Along (Node.step .all) ContAfterStop Node.init acts ∧
      ∃ s, run (Node.step .all) Node.init acts = some s ∧ s.Quiet ∧
        ∀ p, s.stopped p = false := by
  intro t acts
  have hok : Along (Node.step .all) ContAfterStop Node.init acts := by decide
  obtain ⟨s, hs, hquiet⟩ : ∃ s, run (Node.step .all) Node.init acts = some s ∧
      s.Quiet := by
    refine ⟨_, rfl, .of_one t rfl rfl rfl fun t' hne => ?_⟩
    simp [Node.setPhase, Node.setThread, Function.update_of_ne hne]
  exact ⟨hok, s, hs, hquiet, frozen_client_released .all Probe.all_names acts s hs hok hquiet⟩

/-- The daemon is faster than the program: it takes the submitted event, gets a miss and sends
`SIGCONT` before the program sends `SIGSTOP`. The node is quiet, and the process stays stopped. -/
theorem late_stop_freezes :
    let t : Thread := ⟨7, 7⟩
    let acts := [.enter t 1, .reserve t true, .submit t, .take, .reply 1, .sigcont, .sigstop t]
    ∃ s, run (Node.step .all) Node.init acts = some s ∧ s.Quiet ∧ s.stopped 7 = true := by
  intro t acts
  refine ⟨_, rfl, .of_one t rfl rfl rfl fun t' hne => ?_, rfl⟩
  simp [Node.setPhase, Node.setThread, Function.update_of_ne hne]

end TicketConnect
