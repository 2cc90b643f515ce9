import TicketConnect.Bpf.Exclude
import TicketConnect.Freeze.Model

/-!
# Every event is answered once, in order

What the ring buffer and the daemon do with the events, over every interleaving of threads and
daemon, and with no condition on the order of their steps. `NodeLog` is the history of a run: the
records reserved, the records taken, and the processes continued. `events_answered_in_turn` says
that records are taken in the order in which they were reserved, none lost and none twice, and that
each one taken is answered by one `SIGCONT` to its process before the next one is taken.
`excluded_never_frozen` is about the threads and processes the probe leaves alone.
-/

namespace TicketConnect

open Lib

/-! ## The history of a run -/

/-- The records reserved, the records taken and the processes continued, each in order. -/
structure NodeLog where
  posted : List Record
  taken : List Record
  continued : List Nat

/-- What a step adds to the history. -/
def NodeLog.note (probe : Probe) (s : Node) (act : NodeAct) (log : NodeLog) : NodeLog :=
  match act with
  | .reserve t ok =>
    { log with posted := log.posted ++ ((s.report probe t ok).map (s.newRecord t)).toList }
  | .take => { log with taken := log.taken ++ s.ring.head?.toList }
  | .sigcont =>
    { log with continued := log.continued ++ (s.daemon.current.map (·.event.pid)).toList }
  | _ => log

/-- What a record says: its event, and the thread and the call that it comes from. -/
def Record.report (r : Record) : SslEvent × Thread × Nat := (r.event, r.thread, r.call)

@[simp] theorem Record.commit_report (t : Thread) (call : Nat) (r : Record) :
    (r.commit t call).report = r.report := by
  unfold Record.commit
  split <;> rfl

/-- What a run keeps: what was reserved was taken or is in the ring, in this order; what was taken
was continued or is with the daemon; and a call of `SSL_connect` reserves at most once. -/
structure NodeLog.Follows (log : NodeLog) (s : Node) : Prop where
  queue : log.posted.map Record.report = (log.taken ++ s.ring).map Record.report
  answered : log.taken.map (·.event.pid) =
    log.continued ++ (s.daemon.current.map (·.event.pid)).toList
  len : ∀ r ∈ s.ring, r.len = sslEventSize
  past : ∀ r ∈ log.posted, r.call ≤ (s.threads r.thread).call ∧
    ((s.threads r.thread).phase = .probe → r.call < (s.threads r.thread).call)
  once : (log.posted.map fun r => (r.thread, r.call)).Nodup

namespace NodeLog.Follows
variable {log : NodeLog} {s s' : Node}

/-- A step of a thread that reserves nothing. -/
theorem of_thread (h : log.Follows s) {t : Thread} {st : ThreadState}
    (hring : s'.ring.map Record.report = s.ring.map Record.report)
    (hlen : ∀ r ∈ s'.ring, r.len = sslEventSize) (hdaemon : s'.daemon = s.daemon)
    (hthreads : s'.threads = (s.setThread t st).threads) (hcall : (s.threads t).call ≤ st.call)
    (hprobe : st.phase = .probe → (s.threads t).call < st.call) : log.Follows s' := by
  refine ⟨?_, by rw [hdaemon]; exact h.answered, hlen, fun r hr => ?_, h.once⟩
  · rw [List.map_append, hring, ← List.map_append]
    exact h.queue
  · have hpast := h.past r hr
    rw [hthreads]
    rcases eq_or_ne r.thread t with heq | hne
    · rw [heq] at hpast ⊢
      rw [Node.setThread_same]
      exact ⟨by omega, fun hp => by have := hprobe hp; omega⟩
    · rw [Node.setThread_of_ne _ hne]
      exact hpast

/-- `bpf_ringbuf_reserve`. -/
theorem reserve (h : log.Follows s) {t : Thread} (hphase : (s.threads t).phase = .probe)
    (e : SslEvent) :
    NodeLog.Follows { log with posted := log.posted ++ [s.newRecord t e] }
      { s.setPhase t .reserved with ring := s.ring ++ [s.newRecord t e] } := by
  refine ⟨?_, h.answered, fun r hr => ?_, fun r hr => ?_, ?_⟩
  · simp only [List.map_append, ← List.append_assoc, h.queue]
  · rcases List.mem_append.1 hr with hr | hr
    · exact h.len r hr
    · rw [List.mem_singleton.1 hr]
      rfl
  · rcases List.mem_append.1 hr with hr | hr
    · have hpast := h.past r hr
      rcases eq_or_ne r.thread t with heq | hne
      · rw [heq] at hpast ⊢
        simp only [Node.setPhase_same, reduceCtorEq, false_imp_iff, and_true]
        exact hpast.1
      · rw [show _ = s.threads r.thread from s.setPhase_of_ne hne _]
        exact hpast
    · rw [List.mem_singleton.1 hr]
      show (s.threads t).call ≤ ((s.setPhase t .reserved).threads t).call ∧
        (((s.setPhase t .reserved).threads t).phase = .probe → _)
      simp
  · -- the records of this thread so far are from earlier calls
    rw [List.map_append, List.nodup_append]
    refine ⟨h.once, by simp, fun o ho o' ho' heq => ?_⟩
    obtain ⟨r, hr, rfl⟩ := List.mem_map.1 ho
    rw [List.map_singleton, List.mem_singleton] at ho'
    obtain ⟨hthread, hcall⟩ : r.thread = t ∧ r.call = (s.threads t).call :=
      Prod.mk.inj (heq.trans ho')
    have hlt := (h.past r hr).2 (by rw [hthread]; exact hphase)
    rw [hthread] at hlt
    omega

/-- The daemon takes the first record. -/
theorem take (h : log.Follows s) {r : Record} {ring : List Record} (hd : s.daemon = .idle)
    (hring : s.ring = r :: ring) :
    NodeLog.Follows { log with taken := log.taken ++ s.ring.head?.toList }
      { s with ring, daemon := .asking r } := by
  have hqueue := h.queue
  have hanswered := h.answered
  rw [hd] at hanswered
  refine ⟨?_, ?_, fun x hx => h.len x (by rw [hring]; exact .tail _ hx), h.past, h.once⟩
  · rw [hqueue, hring]
    simp
  · rw [hring, List.map_append, hanswered]
    simp [DaemonPc.current]

/-- The daemon goes on with its record. -/
theorem of_current (h : log.Follows s) {pc : DaemonPc} (hpc : pc.current = s.daemon.current) :
    log.Follows { s with daemon := pc } :=
  ⟨h.queue, by rw [hpc]; exact h.answered, h.len, h.past, h.once⟩

/-- The daemon's `SIGCONT`. -/
theorem sigcont (h : log.Follows s) {stopped : Nat → Bool} :
    NodeLog.Follows
      { log with continued := log.continued ++ (s.daemon.current.map (·.event.pid)).toList }
      { s with daemon := .idle, stopped } :=
  ⟨h.queue, h.answered.trans (by simp [DaemonPc.current]), h.len, h.past, h.once⟩

end NodeLog.Follows

section Steps
variable {probe : Probe} {log : NodeLog} {s s' : Node}

/-- A record that the thread has no event for is not added to the history. -/
theorem NodeLog.note_skip {t : Thread} {ok : Bool} (h : s.report probe t ok = none) :
    log.note probe s (.reserve t ok) = log := by
  simp [NodeLog.note, h]

/-- The history with the record that a thread reserves. -/
theorem NodeLog.note_reserve {t : Thread} {ok : Bool} {e : SslEvent}
    (h : s.report probe t ok = some e) :
    log.note probe s (.reserve t ok) = { log with posted := log.posted ++ [s.newRecord t e] } := by
  simp [NodeLog.note, h]

/-- Every step keeps what the history says. -/
theorem NodeLog.Follows.step (h : log.Follows s) {act : NodeAct}
    (hstep : s.Step probe act s') : (log.note probe s act).Follows s' := by
  cases act with
  | reserve t ok =>
    cases hstep with
    | skip hphase hnone =>
      rw [NodeLog.note_skip hnone]
      exact h.of_thread rfl h.len rfl rfl le_rfl (by simp)
    | reserve hphase hevent =>
      rw [NodeLog.note_reserve hevent]
      exact h.reserve hphase _
  | enter t ssl =>
    cases hstep
    exact h.of_thread rfl h.len rfl rfl (Nat.le_succ _) fun _ => Nat.lt_succ_self _
  | submit t =>
    cases hstep
    refine h.of_thread (by simp) (fun r hr => ?_) rfl rfl le_rfl (by simp)
    obtain ⟨r', hr', rfl⟩ := List.mem_map.1 hr
    rw [Record.commit_len]
    exact h.len r' hr'
  | sigstop t => cases hstep; exact h.of_thread rfl h.len rfl rfl le_rfl (by simp)
  | handshake t => cases hstep; exact h.of_thread rfl h.len rfl rfl le_rfl (by simp)
  | finish t => cases hstep; exact h.of_thread rfl h.len rfl rfl le_rfl (by simp)
  | take =>
    cases hstep with
    | @short r ring hd hring hlen =>
      have := h.len r (by rw [hring]; exact .head _)
      omega
    | take hd hring _ => exact h.take hd hring
  | reply status => cases hstep with | install hd | miss hd => exact h.of_current (by rw [hd]; rfl)
  | installed rc => cases hstep with | installed hd => exact h.of_current (by rw [hd]; rfl)
  | sigcont => cases hstep; exact h.sigcont

end Steps

/-- The node with its history. -/
abbrev Node.logged (probe : Probe) : Node × NodeLog → NodeAct → Option (Node × NodeLog) :=
  withHistory (Node.step probe) (NodeLog.note probe)

/-- Nothing has happened yet. -/
def NodeLog.empty : NodeLog := ⟨[], [], []⟩

theorem NodeLog.empty_follows : NodeLog.empty.Follows Node.init :=
  ⟨rfl, rfl, List.forall_mem_nil _, List.forall_mem_nil _, List.nodup_nil⟩

/-- The history follows the node over every run. -/
theorem Node.logged_follows {probe : Probe} {acts : List NodeAct} {s : Node} {log : NodeLog}
    (h : run (Node.logged probe) (Node.init, .empty) acts = some (s, log)) : log.Follows s := by
  refine run_inv (I := fun p => NodeLog.Follows p.2 p.1) (fun p act p' hp hs => ?_)
    NodeLog.empty_follows h
  obtain ⟨t, ht, rfl⟩ := Option.map_eq_some_iff.1 hs
  exact hp.step (.of_step ht)

/-- **Every event is answered once, and in turn.** For every interleaving of any number of threads
with the daemon: a call of `SSL_connect` reserves at most one record; the records the daemon has
taken, followed by those in the ring, are the records reserved so far, in this order, with the
events they were reserved with; and the processes continued so far are those of the records taken,
in this order, up to the record that the daemon works on. -/
theorem events_answered_in_turn (probe : Probe) (acts : List NodeAct) (s : Node)
    (hrun : run (Node.step probe) Node.init acts = some s) :
    ∃ log, run (Node.logged probe) (Node.init, .empty) acts = some (s, log) ∧
      (log.posted.map fun r => (r.thread, r.call)).Nodup ∧
      (log.taken ++ s.ring).map Record.report = log.posted.map Record.report ∧
      log.continued ++ (s.daemon.current.map (·.event.pid)).toList =
        log.taken.map (·.event.pid) := by
  obtain ⟨log, hlog⟩ := run_withHistory hrun NodeLog.empty
  have h := Node.logged_follows hlog
  exact ⟨log, hlog, h.once, h.queue.symm, h.answered.symm⟩

/-- Two threads of one process: the daemon has answered the first event and works on the second. -/
theorem events_answered_in_turn_two :
    let t₁ : Thread := ⟨7, 7⟩
    let t₂ : Thread := ⟨7, 8⟩
    let acts := [.enter t₁ 1, .enter t₂ 2, .reserve t₂ true, .reserve t₁ true, .submit t₁,
      .submit t₂, .take, .reply 1, .sigcont, .take]
    ∃ s, run (Node.step .all) Node.init acts = some s ∧
      ∃ log, run (Node.logged .all) (Node.init, .empty) acts = some (s, log) ∧
        (log.posted.map fun r => (r.thread, r.call)).Nodup ∧
        (log.taken ++ s.ring).map Record.report = log.posted.map Record.report ∧
        log.continued ++ (s.daemon.current.map (·.event.pid)).toList =
          log.taken.map (·.event.pid) := by
  intro t₁ t₂ acts
  exact ⟨_, rfl, events_answered_in_turn .all acts _ rfl⟩

/-! ## What is left alone -/

/-- Every record comes from a call that the program reports. -/
theorem NodeLog.posted_reported {probe : Probe} {acts : List NodeAct} {s : Node} {log : NodeLog}
    (h : run (Node.logged probe) (Node.init, .empty) acts = some (s, log)) :
    ∀ r ∈ log.posted, ∃ ssl, probe r.thread r.call ssl = some r.event := by
  refine run_inv (I := fun q : Node × NodeLog => ∀ r ∈ q.2.posted, ∃ ssl,
    probe r.thread r.call ssl = some r.event) (fun q act q' hq hs => ?_) (List.forall_mem_nil _) h
  obtain ⟨s₁, hs₁, rfl⟩ := Option.map_eq_some_iff.1 hs
  have hstep := Node.Step.of_step hs₁
  cases hstep with
  | skip hphase hnone => rw [NodeLog.note_skip hnone]; exact hq
  | @reserve t ok e hphase hevent =>
    rw [NodeLog.note_reserve hevent]
    intro r hr
    rcases List.mem_append.1 hr with hr | hr
    · exact hq r hr
    · rw [List.mem_singleton.1 hr]
      cases ok with
      | false => cases hevent
      | true => exact ⟨_, hevent⟩
  | _ => exact hq

/-- So does every record that was taken or is in the ring. -/
theorem NodeLog.reported {probe : Probe} {acts : List NodeAct} {s : Node} {log : NodeLog}
    (h : run (Node.logged probe) (Node.init, .empty) acts = some (s, log)) :
    ∀ r ∈ log.posted ++ log.taken ++ s.ring, ∃ ssl, probe r.thread r.call ssl = some r.event := by
  intro r hr
  have hmem : r.report ∈ log.posted.map Record.report := by
    rw [List.append_assoc] at hr
    rcases List.mem_append.1 hr with hr | hr
    · exact List.mem_map_of_mem hr
    · rw [(Node.logged_follows h).queue]
      exact List.mem_map_of_mem hr
  -- the record was reserved with what it says now
  obtain ⟨r', hr', heq⟩ := List.mem_map.1 hmem
  simp only [Record.report, Prod.mk.injEq] at heq
  rw [← heq.1, ← heq.2.1, ← heq.2.2]
  exact NodeLog.posted_reported h r' hr'

/-- A process none of whose threads has a record reserved, and that is not stopped. -/
structure Node.Spared (p : Nat) (s : Node) : Prop where
  phase : ∀ t : Thread, t.pid = p →
    (s.threads t).phase ≠ .reserved ∧ (s.threads t).phase ≠ .submitted
  stopped : s.stopped p = false

namespace Node.Spared
variable {probe : Probe} {p : Nat} {s s' : Node}

/-- A step of a thread to a phase outside the program's waits, or of another process. -/
theorem of_thread (h : s.Spared p) {t : Thread} {st : ThreadState}
    (hthreads : s'.threads = (s.setThread t st).threads) (hstopped : s'.stopped p = false)
    (hphase : t.pid = p → st.phase ≠ .reserved ∧ st.phase ≠ .submitted) : s'.Spared p := by
  refine ⟨fun t' ht' => ?_, hstopped⟩
  rw [hthreads]
  rcases eq_or_ne t' t with rfl | hne
  · rw [Node.setThread_same]
    exact hphase ht'
  · rw [Node.setThread_of_ne _ hne]
    exact h.phase t' ht'

/-- Every step spares a process whose calls the program does not report. -/
theorem step (h : s.Spared p) (hp : ∀ t : Thread, t.pid = p → ∀ call ssl, probe t call ssl = none)
    {act : NodeAct} (hs : s.Step probe act s') : s'.Spared p := by
  cases hs with
  | enter | handshake => exact h.of_thread rfl h.stopped (by simp)
  | skip | finish => exact h.of_thread rfl h.stopped (by simp)
  | @reserve t ok e _ hevent =>
    refine h.of_thread rfl h.stopped fun ht => ?_
    rw [Node.report, hp t ht, ite_self] at hevent
    cases hevent
  | @submit t hphase => exact h.of_thread rfl h.stopped fun ht => absurd hphase (h.phase t ht).1
  | @sigstop t hphase =>
    have hne : p ≠ t.pid := fun ht => (h.phase t ht.symm).2 hphase
    exact h.of_thread rfl ((Function.update_of_ne hne ..).trans h.stopped) (by simp)
  | short | take | install | miss | installed => exact ⟨h.phase, h.stopped⟩
  | @sigcont r hd =>
    refine ⟨h.phase, ?_⟩
    rcases eq_or_ne p r.event.pid with rfl | hne
    · exact Function.update_self ..
    · exact (Function.update_of_ne hne ..).trans h.stopped

/-- A process whose calls the program does not report is spared over every run. -/
theorem run (hp : ∀ t : Thread, t.pid = p → ∀ call ssl, probe t call ssl = none)
    {acts : List NodeAct} {log : NodeLog}
    (h : Lib.run (Node.logged probe) (Node.init, .empty) acts = some (s, log)) : s.Spared p := by
  refine run_inv (I := fun q : Node × NodeLog => q.1.Spared p) (fun q act q' hq hs => ?_)
    ⟨by simp [Node.init], rfl⟩ h
  obtain ⟨s₁, hs₁, rfl⟩ := Option.map_eq_some_iff.1 hs
  exact hq.step hp (.of_step hs₁)

/-- A thread of a spared process is never made to wait. -/
theorem can_go_on (h : s.Spared p) {t : Thread} (ht : t.pid = p) :
    ∃ act ∈ [.enter t 0, .reserve t true, .handshake t], (s.step probe act).isSome := by
  have hrun : s.stopped t.pid = false := by rw [ht]; exact h.stopped
  obtain ⟨hres, hsub⟩ := h.phase t ht
  cases hphase : (s.threads t).phase with
  | user => exact ⟨.enter t 0, by simp, by simp [Node.step, hphase, hrun]⟩
  | probe =>
    refine ⟨.reserve t true, by simp, ?_⟩
    simp only [Node.step, hphase, if_true]
    split <;> rfl
  | reserved => exact absurd hphase hres
  | submitted => exact absurd hphase hsub
  | entry | handshake => exact ⟨.handshake t, by simp, by simp [Node.step, hphase, hrun]⟩

end Node.Spared

/-- A process that no record names is never continued. -/
theorem NodeLog.Follows.not_continued {log : NodeLog} {s : Node} (h : log.Follows s) {p : Nat}
    (hp : ∀ r ∈ log.taken, r.event.pid ≠ p) : p ∉ log.continued := by
  intro hc
  have hmem : p ∈ log.taken.map (·.event.pid) := h.answered ▸ List.mem_append_left _ hc
  obtain ⟨r, hr, heq⟩ := List.mem_map.1 hmem
  exact hp r hr heq

/-- **A thread of the excluded name is never reported, and a process of such threads never
touched.** `opt` is the argument of `--exclude-comm`, `task` says which tasks the threads of the
node are, and `name` which name a thread has in each of its calls. Over every run of the node, for
every tree of pid namespaces: no record comes from a call in which its thread has the excluded name,
in its first 15 bytes. A process all of whose threads have that name in all their calls is not
stopped, and each of its threads has a step of its own to take; and where the injector sees all
tasks by their ids, no event names it and it is never sent a `SIGCONT`. A thread of another name
whose program run finds room in the ring buffer can run to the end of the program, and its process
is then stopped. -/
theorem excluded_never_frozen {N T : Type} (w : Pidns N T) (injector : N) (opt : CString)
    (task : Thread → Option T) (name : Thread → Nat → CString) (acts : List NodeAct) (s : Node)
    (log : NodeLog)
    (hrun : run (Node.logged (w.probe injector opt task name)) (Node.init, .empty) acts =
      some (s, log)) :
    (∀ r ∈ log.posted ++ log.taken ++ s.ring, ¬Excludes opt (name r.thread r.call)) ∧
    (∀ p, (∀ t : Thread, t.pid = p → ∀ call, Excludes opt (name t call)) →
      s.stopped p = false ∧
      (∀ t : Thread, t.pid = p → ∃ act ∈ [.enter t 0, .reserve t true, .handshake t],
        (s.step (w.probe injector opt task name) act).isSome) ∧
      ((∀ t cur, task t = some cur → w.Sees injector t cur) →
        (∀ r ∈ log.posted ++ log.taken ++ s.ring, r.event.pid ≠ p) ∧ p ∉ log.continued)) ∧
    ∀ t cur ok, task t = some cur → (s.threads t).phase = .probe →
      let r := w.onSslConnectRun (excludeComm opt) (currentComm (name t (s.threads t).call))
        (w.dev injector) (w.ino injector) true ok cur (s.threads t).ssl
      ∃ s', run (Node.step (w.probe injector opt task name)) s (r.acts t ok) = some s' ∧
        (s'.threads t).phase = .entry ∧
        (s'.stopped t.pid = true ↔ s.stopped t.pid = true ∨
          ok = true ∧ ¬Excludes opt (name t (s.threads t).call)) := by
  have hreported := NodeLog.reported hrun
  refine ⟨fun r hr => ?_, fun p hp => ?_, fun t cur ok hcur hphase => ?_⟩
  · obtain ⟨ssl, hevent⟩ := hreported r hr
    exact (Pidns.probe_eq_some hevent).1
  · have hnone : ∀ t : Thread, t.pid = p → ∀ call ssl,
        w.probe injector opt task name t call ssl = none :=
      fun t ht call => Pidns.probe_eq_none (hp t ht call)
    have hspared : s.Spared p := .run hnone hrun
    refine ⟨hspared.stopped, fun t ht => hspared.can_go_on ht, fun hsees => ?_⟩
    have hpid : ∀ r ∈ log.posted ++ log.taken ++ s.ring, r.event.pid ≠ p := by
      rintro r hr rfl
      obtain ⟨ssl, hevent⟩ := hreported r hr
      have hnamed := Pidns.probe_names hsees _ _ _ _ hevent
      rw [hnone r.thread (by rw [hnamed])] at hevent
      cases hevent
    exact ⟨hpid, (Node.logged_follows hrun).not_continued fun r hr => hpid r (by simp [hr])⟩
  · intro r
    obtain ⟨s', hs', hentry, hstopped⟩ := Node.run_program w injector opt name hcur hphase ok
    refine ⟨s', hs', hentry, hstopped.trans (or_congr_right ?_)⟩
    obtain ⟨hiff, hstop⟩ := w.onSslConnectRun_reports_iff opt (name t (s.threads t).call)
      (w.dev injector) (w.ino injector) true ok cur (s.threads t).ssl
    rw [hstop, Bool.true_and]
    exact hiff

/-- The threads of `nestedNode`, by their ids in the root namespace. -/
def nestedTask : Thread → Option (Fin 2) := fun t =>
  if t = ⟨4021, 4021⟩ then some ⟨0, Nat.zero_lt_two⟩
  else if t = ⟨9310, 9310⟩ then some ⟨1, Nat.one_lt_two⟩
  else none

/-- `--exclude-comm envoy` beside a client of another name, which is stopped. -/
theorem excluded_never_frozen_envoy :
    let opt := CString.lit "envoy"
    let t : Thread := ⟨4021, 4021⟩
    let t' : Thread := ⟨9310, 9310⟩
    let name := fun u (_ : Nat) => if u.pid = 4021 then CString.lit "envoy" else CString.lit "curl"
    let acts := [.enter t 1, .enter t' 2, .reserve t true, .reserve t' true, .handshake t,
      .submit t', .sigstop t', .take]
    ∃ s log, run (Node.logged (nestedNode.probe 0 opt nestedTask name)) (Node.init, .empty) acts =
        some (s, log) ∧ s.stopped 9310 = true ∧ s.stopped 4021 = false ∧
      (∀ r ∈ log.posted ++ log.taken ++ s.ring, r.event.pid ≠ 4021) ∧ 4021 ∉ log.continued := by
  intro opt t t' name acts
  have hstop : (run (Node.logged (nestedNode.probe 0 opt nestedTask name)) (Node.init, .empty)
      acts).map (·.1.stopped 9310) = some true := by decide +kernel
  obtain ⟨⟨s, log⟩, hrun, hstopped⟩ := Option.map_eq_some_iff.1 hstop
  obtain ⟨-, hspared, -⟩ := excluded_never_frozen nestedNode 0 opt nestedTask name acts s log hrun
  have hexcl : Excludes opt (.lit "envoy") := by
    constructor <;> decide +kernel
  obtain ⟨hrunning, -, hunnamed⟩ := hspared 4021 fun u hu call => by
    rw [show name u call = .lit "envoy" from if_pos hu]
    exact hexcl
  refine ⟨s, log, hrun, hstopped, hrunning, hunnamed fun u cur hu => ?_⟩
  unfold nestedTask at hu
  split_ifs at hu with h₁ h₂
  · cases hu
    subst h₁
    exact ⟨rfl, rfl, .inr rfl⟩
  · cases hu
    subst h₂
    exact ⟨rfl, rfl, .inr rfl⟩

end TicketConnect
