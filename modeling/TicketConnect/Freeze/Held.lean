import TicketConnect.Freeze.Model

/-!
# Installing into a held connection

`on_event` calls `inject_session` for an event on the assumption that the thread that emitted it is
still held at the entry of `SSL_connect`. Signals act on processes and events come from threads: the
`SIGCONT` that ends one event also resumes the other threads of the process, whose events may still
be queued. `early_release_installs_late` is a run in which the second of two threads is past its
first handshake steps when the daemon installs into its connection. `installs_into_held` says that
this is the only way: the thread is held wherever no `SIGCONT` overtakes a queued event of a thread
that is already stopped.
-/

namespace TicketConnect

open Lib

/-- The thread that emitted a record is held at the entry of that `SSL_connect` call, with no
handshake step executed in it: its process is stopped, or the thread is still in the eBPF program,
which has its `SIGSTOP` to send. -/
structure Node.Held (s : Node) (r : Record) : Prop where
  call : (s.threads r.thread).call = r.call
  steps : (s.threads r.thread).steps = 0
  held : (s.threads r.thread).phase = .submitted ∨
    (s.threads r.thread).phase = .entry ∧ s.stopped r.thread.pid = true

/-- The daemon continues a process only while no queued event comes from a thread of the process
that has already been stopped: the emitters of queued events have still to send their `SIGSTOP`. -/
def NoneOvertaken (s : Node) (act : NodeAct) : Prop :=
  act = .sigcont → ∀ r ∈ s.daemon.current, ∀ r' ∈ s.ring, r'.committed = true →
    r'.thread.pid = r.event.pid → (s.threads r'.thread).phase = .submitted

instance (s : Node) (act : NodeAct) : Decidable (NoneOvertaken s act) :=
  inferInstanceAs (Decidable (_ → ∀ r ∈ s.daemon.current, ∀ r' ∈ s.ring, _))

/-! ## The invariant -/

/-- The invariant: the emitter of each event to be handled is held, and a thread in the program has
executed no handshake step. Records that are only reserved are in `Node.Filling`. -/
structure Node.Guarded (s : Node) : Prop where
  queued : ∀ r ∈ s.ring, r.committed = true → s.Held r
  asking : ∀ r, s.daemon = .asking r ∨ s.daemon = .installing r → s.Held r
  steps : ∀ t, (s.threads t).phase.inProgram = true → (s.threads t).steps = 0

section Steps
variable {s s' : Node}

/-- An event is held by what its emitter's state and its process say. -/
theorem Node.Held.congr {r : Record} (h : s.Held r)
    (hthread : s'.threads r.thread = s.threads r.thread)
    (hstopped : s.stopped r.thread.pid = true → s'.stopped r.thread.pid = true) : s'.Held r := by
  refine ⟨by rw [hthread]; exact h.call, by rw [hthread]; exact h.steps, ?_⟩
  rw [hthread]
  exact h.held.imp_right fun ⟨he, hs⟩ => ⟨he, hstopped hs⟩

/-- A thread with an event to be handled is in the program with its `SIGSTOP` to send, or
stopped. -/
theorem Node.Held.thread_ne {r : Record} (h : s.Held r) {t : Thread}
    (hphase : (s.threads t).phase ≠ .submitted)
    (hrun : (s.threads t).phase = .entry → s.stopped t.pid = false) : r.thread ≠ t := by
  rintro rfl
  rcases h.held with hsub | ⟨he, hs⟩
  · exact hphase hsub
  · rw [hrun he] at hs
    cases hs

/-- A step of a thread that takes no event's thread out of its hold. -/
theorem Node.Guarded.of_thread (h : s.Guarded) {t : Thread}
    (hothers : ∀ u, u ≠ t → s'.threads u = s.threads u) (hring : s'.ring = s.ring)
    (hdaemon : s'.daemon = s.daemon) (hheld : ∀ r, s.Held r → s'.Held r)
    (hsteps : (s'.threads t).phase.inProgram = true → (s'.threads t).steps = 0) : s'.Guarded := by
  refine ⟨fun r hr hc => hheld r (h.queued r (hring ▸ hr) hc),
    fun r hd => hheld r (h.asking r (hdaemon ▸ hd)), fun u hu => ?_⟩
  rcases eq_or_ne u t with rfl | hne
  · exact hsteps hu
  · rw [hothers u hne] at hu ⊢
    exact h.steps u hu

/-- A step of a thread whose own events are none of those to be handled. -/
theorem Node.Guarded.setThread (h : s.Guarded) {t : Thread} {st : ThreadState}
    (hphase : (s.threads t).phase ≠ .submitted)
    (hrun : (s.threads t).phase = .entry → s.stopped t.pid = false)
    (hsteps : st.phase.inProgram = true → st.steps = 0) : (s.setThread t st).Guarded := by
  have hheld : ∀ r, s.Held r → (s.setThread t st).Held r := fun r hr =>
    hr.congr (s.setThread_of_ne (hr.thread_ne hphase hrun) st) id
  refine h.of_thread (fun u hu => s.setThread_of_ne hu st) rfl rfl hheld fun hin => ?_
  rw [setThread_same] at hin ⊢
  exact hsteps hin

/-- A step of the daemon that sends no signal. -/
theorem Node.Guarded.of_daemon (h : s.Guarded) (hthreads : s'.threads = s.threads)
    (hstopped : s'.stopped = s.stopped) (hring : ∀ r ∈ s'.ring, r ∈ s.ring)
    (hasking : ∀ r, s'.daemon = .asking r ∨ s'.daemon = .installing r → s.Held r) :
    s'.Guarded := by
  have hheld : ∀ r, s.Held r → s'.Held r := fun r hr =>
    hr.congr (by rw [hthreads]) (by rw [hstopped]; exact id)
  refine ⟨fun r hr hc => hheld r (h.queued r (hring r hr) hc), fun r hd => hheld r (hasking r hd),
    fun t ht => ?_⟩
  rw [hthreads] at ht ⊢
  exact h.steps t ht

/-- `bpf_ringbuf_reserve`. -/
theorem Node.Guarded.reserve (h : s.Guarded) {t : Thread} (hphase : (s.threads t).phase = .probe)
    (e : SslEvent) :
    ({ s.setPhase t .reserved with ring := s.ring ++ [s.newRecord t e] } : Node).Guarded := by
  have hsteps : (s.threads t).steps = 0 := h.steps t (by rw [hphase]; rfl)
  have hset : (s.setPhase t .reserved).Guarded :=
    h.setThread (by simp [hphase]) (by simp [hphase]) fun _ => hsteps
  refine ⟨fun r hr hc => ?_, fun r hd => (hset.asking r hd).congr rfl id, hset.steps⟩
  rcases List.mem_append.1 hr with hr | hr
  · exact (hset.queued r hr hc).congr rfl id
  · rw [List.mem_singleton.1 hr] at hc
    cases hc

/-- `bpf_ringbuf_submit`: the record of this thread's call is the only one that changes. -/
theorem Node.Guarded.submit (h : s.Guarded) (hfilling : s.Filling) {t : Thread}
    (hphase : (s.threads t).phase = .reserved) :
    ({ s.setPhase t .submitted with
      ring := s.ring.map (Record.commit t (s.threads t).call) } : Node).Guarded := by
  have hsteps : (s.threads t).steps = 0 := h.steps t (by rw [hphase]; rfl)
  have hother : ∀ r, s.Held r → r.thread ≠ t := fun r hr =>
    hr.thread_ne (by simp [hphase]) (by simp [hphase])
  have hheld : ∀ r, s.Held r → ({ s.setPhase t .submitted with
      ring := s.ring.map (Record.commit t (s.threads t).call) } : Node).Held r := fun r hr =>
    hr.congr (s.setPhase_of_ne (hother r hr) _) id
  refine ⟨fun r hr hc => ?_, fun r hd => hheld r (h.asking r hd), fun t' ht' => ?_⟩
  · obtain ⟨r', hr', rfl⟩ := List.mem_map.1 hr
    cases hc' : r'.committed with
    | true =>
      have hsame : r'.commit t (s.threads t).call = r' := by
        rw [Record.commit, if_neg fun hk => hother r' (h.queued r' hr' hc') hk.1]
      exact hsame.symm ▸ hheld r' (h.queued r' hr' hc')
    | false =>
      obtain ⟨-, hcall⟩ := hfilling r' hr' hc'
      rcases eq_or_ne r'.thread t with rfl | hne
      · have hkey := r'.commit_thread r'.thread (s.threads r'.thread).call
        refine ⟨?_, ?_, .inl ?_⟩ <;> rw [hkey] <;> simp [hcall, hsteps]
      · rw [Record.commit, if_neg fun hk => hne hk.1, hc'] at hc
        cases hc
  · rcases eq_or_ne t' t with rfl | hne
    · simpa using hsteps
    · rw [show _ = s.threads t' from s.setPhase_of_ne hne _] at ht' ⊢
      exact h.steps t' ht'

/-- `bpf_send_signal`. -/
theorem Node.Guarded.sigstop (h : s.Guarded) {t : Thread}
    (hphase : (s.threads t).phase = .submitted) :
    ({ s.setPhase t .entry with
      stopped := Function.update s.stopped t.pid true } : Node).Guarded := by
  have hheld : ∀ r, s.Held r → ({ s.setPhase t .entry with
      stopped := Function.update s.stopped t.pid true } : Node).Held r := by
    intro r hr
    rcases eq_or_ne r.thread t with rfl | hne
    · refine ⟨?_, ?_, .inr ⟨?_, ?_⟩⟩
      · simpa using hr.call
      · simpa using hr.steps
      · simp
      · exact Function.update_self ..
    · refine hr.congr (s.setPhase_of_ne hne _) fun hs => ?_
      rcases eq_or_ne r.thread.pid t.pid with he | he
      · dsimp only
        rw [he, Function.update_self]
      · exact (Function.update_of_ne he ..).trans hs
  refine h.of_thread (fun u hu => s.setPhase_of_ne hu _) rfl rfl hheld ?_
  simp [Phase.inProgram]

/-- The daemon's `SIGCONT`, where it overtakes no queued event. -/
theorem Node.Guarded.sigcont (h : s.Guarded) {r : Record}
    (hok : ∀ r' ∈ s.ring, r'.committed = true → r'.thread.pid = r.event.pid →
      (s.threads r'.thread).phase = .submitted) :
    ({ s with
      daemon := .idle
      stopped := Function.update s.stopped r.event.pid false } : Node).Guarded := by
  refine ⟨fun r' hr' hc => ?_, by simp, h.steps⟩
  have hr := h.queued r' hr' hc
  rcases eq_or_ne r'.thread.pid r.event.pid with he | he
  · exact ⟨hr.call, hr.steps, .inl (hok r' hr' hc he)⟩
  · exact hr.congr rfl fun hs => (Function.update_of_ne he ..).trans hs

/-- Every step that meets the condition keeps the invariant. -/
theorem Node.Guarded.step (h : s.Guarded) (hfilling : s.Filling) {probe : Probe} {act : NodeAct}
    (hok : NoneOvertaken s act) (hs : s.Step probe act s') : s'.Guarded := by
  cases hs with
  | enter hphase => exact h.setThread (by simp [hphase]) (by simp [hphase]) fun _ => rfl
  | skip hphase =>
    exact h.setThread (by simp [hphase]) (by simp [hphase]) (by simp [Phase.inProgram])
  | reserve hphase => exact h.reserve hphase _
  | submit hphase => exact h.submit hfilling hphase
  | sigstop hphase => exact h.sigstop hphase
  | handshake hphase hrun | finish hphase hrun =>
    refine h.setThread ?_ (fun _ => hrun) (by simp [Phase.inProgram])
    rcases hphase with hp | hp <;> simp [hp]
  | @short r ring hd hring hlen =>
    exact h.of_daemon rfl rfl (fun r' hr' => by rw [hring]; exact .tail _ hr') h.asking
  | @take r ring hd hring hc =>
    refine h.of_daemon rfl rfl (fun r' hr' => by rw [hring]; exact .tail _ hr') fun r' hr' => ?_
    obtain rfl : r = r' := by simpa using hr'
    exact h.queued r (by rw [hring]; exact .head _) hc
  | @install r status hd =>
    refine h.of_daemon rfl rfl (fun _ hr' => hr') fun r' hr' => ?_
    obtain rfl : r = r' := by simpa using hr'
    exact h.asking r (.inl hd)
  | miss | installed => exact h.of_daemon rfl rfl (fun _ hr' => hr') (by simp)
  | @sigcont r hd => exact h.sigcont (hok rfl r (by rw [hd]; rfl))

end Steps

/-! ## The results -/

end TicketConnect
