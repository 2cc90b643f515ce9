import TicketConnect.System.Model

/-!
# Every session installed is one obtained for the destination, used once

The main result about the whole system. Over every interleaving of the threads, the daemon and the
agent, and whatever fails in between, the sessions that `on_event` passes to `inject_session` are
sessions that the source obtained for the configured destination, byte for byte; no session goes to
two connections, and no connection gets two sessions.

The argument has three strands, one per field of `System.Inv`: what the pool holds for a destination
was obtained for that destination (`Pool.StockedFor`), what was installed was written to a
connection of the daemon (`System.Inv.sessions`), and what was installed for was taken from the ring
(`System.Inv.records`).
-/

namespace TicketConnect

open Lib

/-! ## What the pool holds for a destination -/

/-- Every live session of a destination comes from a source call made for that destination. -/
def Pool.StockedFor (p : Pool) (obtained : List (CString × Fetch)) : Prop :=
  ∀ k, ∀ e ∈ p.view k, ∃ f, (k, f) ∈ obtained ∧ e = f.entry

namespace Pool.StockedFor
variable {p : Pool} {obtained : List (CString × Fetch)}

theorem mono (h : p.StockedFor obtained) (more : List (CString × Fetch)) :
    p.StockedFor (obtained ++ more) := by
  intro k e he
  obtain ⟨f, hf, rfl⟩ := h k e he
  exact ⟨f, List.mem_append_left _ hf, rfl⟩

/-- A pool without destinations. -/
theorem of_nil (h : p.dests = []) : p.StockedFor obtained := by
  intro k e he
  rw [Pool.view_of_none (by rw [destFind, h]; rfl)] at he
  cases he

/-- An operation that leaves a destination with sessions it had, or that were just obtained. -/
theorem of_spec (h : p.StockedFor obtained) {α : Type} {out : PoolOut α} {dest : CString} {now : Int}
    {l : List PoolEntry} {ins outs : List Buf} (hs : out.Spec p dest now l ins outs)
    {more : List (CString × Fetch)}
    (hl : ∀ e ∈ l, e ∈ p.view dest ∨ ∃ f, (dest, f) ∈ more ∧ e = f.entry) :
    out.pool.StockedFor (obtained ++ more) := by
  intro k e he
  rw [hs.view] at he
  split_ifs at he with hk
  · subst hk
    rcases hl e he with hold | ⟨f, hf, rfl⟩
    · exact h.mono more dest e hold
    · exact ⟨f, List.mem_append_right _ hf, rfl⟩
  · exact h.mono more k e he

theorem get (hp : p.Wf) (h : p.StockedFor obtained) (dest : CString) (groupCap : Nat) (now : Int) :
    (poolGet p dest groupCap now).pool.StockedFor obtained := by
  rw [← List.append_nil obtained]
  exact h.of_spec (poolGet_spec hp dest groupCap now).2 fun e he =>
    .inl (Pool.mem_view_of_mem_kept ((List.dropLast_sublist _).mem he))

theorem depth (hp : p.Wf) (h : p.StockedFor obtained) (dest : CString) (now : Int) :
    (poolDepth p dest now).pool.StockedFor obtained := by
  rw [← List.append_nil obtained]
  exact h.of_spec (poolDepth_spec hp dest now).2 fun e he => .inl (Pool.mem_view_of_mem_kept he)

theorem maintain (hp : p.Wf) (h : p.StockedFor obtained) (dest : CString) (env : MaintainEnv) :
    (poolMaintain p dest env).pool.StockedFor
      (obtained ++ (poolMaintain p dest env).ret.used.map (dest, ·)) := by
  by_cases hin : destIntern env.allocOk p dest = none
  · rw [poolMaintain_null hin]
    exact h.mono _
  · obtain ⟨hret, hs⟩ := poolMaintain_spec hp hin rfl
    refine h.of_spec hs fun e he => ?_
    rcases List.mem_append.1 he with hold | hnew
    · exact .inl (Pool.mem_view_of_mem_kept hold)
    · obtain ⟨f, hf, rfl⟩ := List.mem_map.1 hnew
      rw [hret]
      exact .inr ⟨f, List.mem_map_of_mem hf, rfl⟩

theorem handleConn (hp : p.Wf) (h : p.StockedFor obtained) (env : ConnEnv) :
    (TicketConnect.handleConn env p).pool.StockedFor (obtained ++ connObtained env p) := by
  unfold TicketConnect.handleConn connObtained handleConnRun
  cases readRequest env.reads env.stream with
  | closed | malformed => exact h.mono _
  | get dest =>
    have hget := h.get hp dest 64 env.now
    have hwf := (poolGet_spec hp dest 64 env.now).2.wf
    cases hr : (poolGet p dest 64 env.now).ret with
    | none => simpa [hr] using hget.maintain hwf dest env.maintain
    | some g =>
      cases hm : env.mallocOk with
      | false => simpa [hr, hm] using hget
      | true => simpa [hr, hm] using hget.maintain hwf dest env.maintain

/-- Every call of the agent keeps its pool stocked by the source calls so far. -/
theorem acts {a : Agent} (ha : a.Inv) (hpc : a.pc = .idle ∨ a.pc = .closed)
    (h : a.pool.StockedFor obtained) (op : AgentOp) :
    (a.run op.acts).pool.StockedFor (obtained ++ op.obtained a) := by
  rcases hpc with hpc | hpc
  · unfold AgentOp.obtained
    rw [if_pos hpc]
    cases op with
    | maintain dest env =>
      rw [Agent.run_maintain ha.wf hpc]
      exact h.maintain ha.wf dest env
    | conn id env =>
      rw [(Agent.run_conn ha hpc id env).1]
      exact h.handleConn ha.wf env
    | depth dest now =>
      simp only [AgentOp.acts, Agent.run_cons, Agent.run_nil, Agent.step, hpc, List.append_nil]
      exact h.depth ha.wf dest now
    | get c dest groupCap now =>
      simp only [AgentOp.acts, Agent.run_cons, Agent.run_nil, Agent.step, hpc, List.append_nil]
      exact h.get ha.wf dest groupCap now
    | release c b =>
      simp only [AgentOp.acts, Agent.run_cons, Agent.run_nil, Agent.step, hpc, Agent.giveBack,
        List.append_nil]
      split <;> exact h
    | free =>
      simp only [AgentOp.acts, Agent.run_cons, Agent.run_nil, Agent.step, hpc]
      exact of_nil rfl
  · exact of_nil ((ha.run op.acts).closed (Agent.run_closed hpc op.acts))

end Pool.StockedFor

/-! ## What was written to connections -/

@[simp] theorem Agent.giveBack_written (a : Agent) (h : Holder) (b : Buf) :
    (a.giveBack h b).written = a.written := by
  unfold Agent.giveBack
  split <;> rfl

/-- What was written stays written. -/
theorem Agent.step_written (a : Agent) (act : AgentAct) : a.written <+: (a.step act).written := by
  unfold Agent.step
  split
  · unfold Agent.startMaintain; split <;> exact List.prefix_rfl
  · unfold Agent.startMaintain; split <;> exact List.prefix_rfl
  · unfold Agent.fetch
    split
    · exact List.prefix_rfl
    · split <;> exact List.prefix_rfl
  · exact List.prefix_rfl
  · exact List.prefix_rfl
  · exact List.prefix_rfl
  · rw [giveBack_written]
  · split <;> exact List.prefix_rfl
  · split
    · exact List.prefix_rfl
    · rw [giveBack_written]
      split
      · exact List.prefix_append _ _
      · exact List.prefix_rfl
  · exact List.prefix_rfl
  · exact List.prefix_rfl

theorem Agent.run_written (a : Agent) (acts : List AgentAct) :
    a.written <+: (a.run acts).written := by
  induction acts generalizing a with
  | nil => exact List.prefix_rfl
  | cons act acts ih => exact (a.step_written act).trans (ih (a.step act))

/-- A `handle_conn` that answers a hit has written the buffer to its connection. -/
theorem Agent.run_conn_written {a : Agent} (hpc : a.pc = .idle) (id : Nat) {env : ConnEnv}
    {dest : CString} (hreq : readRequest env.reads env.stream = .get dest) {g : Got} {b : Buf}
    (hhit : (poolGet a.pool dest 64 env.now).ret = some g) (hb : g.der = some b)
    (hm : env.mallocOk = true) :
    a.written ++ [(id, b)] <+: (a.run (AgentOp.conn id env).acts).written := by
  have htwo : ((a.step (.connGet id env.stream env.reads env.now)).step
      (.connRespond env.mallocOk)).written = a.written ++ [(id, b)] := by
    simp only [step, hpc, hreq, hhit, hb, hm, if_true, giveBack_written]
    rfl
  rw [← htwo]
  exact run_written _ _

/-! ## The invariant -/

/-- A session that was installed is the one of a source call: its DER bytes and their number, its
provenance and its group, and it had not expired when the agent took it from the pool. -/
structure Install.Delivers (i : Install) (f : Fetch) : Prop where
  der : i.session.der = f.reply.der.bytes
  derLen : i.session.derLen = f.reply.derLen
  isPqc : i.session.isPqc = if f.reply.isPqc ≠ 0 then 1 else 0
  group : i.session.group = some (f.reply.group.snprintf groupMax)
  fresh : f.entry.fresh i.now = true

/-- The records installed for, behind those the daemon has taken: while it waits for `uds_get`, the
record at hand is the last one taken and has not been installed for. -/
def System.InstalledFor (s : System) : Prop :=
  match s.node.daemon with
  | .asking r => ∃ l, s.log.taken = l ++ [r] ∧ (s.installs.map (·.record)).Sublist l
  | _ => (s.installs.map (·.record)).Sublist s.log.taken

/-- The invariant of the system. -/
structure System.Inv (dest : CString) (s : System) : Prop where
  agent : s.agent.Inv
  pc : s.agent.pc = .idle ∨ s.agent.pc = .closed
  stocked : s.agent.pool.StockedFor s.obtained
  follows : s.log.Follows s.node
  records : s.InstalledFor
  sessions : ∃ fs, List.Forall₂ Install.Delivers s.installs fs ∧ (∀ f ∈ fs, (dest, f) ∈ s.obtained) ∧
    (fs.map (·.reply.der)).Sublist (s.agent.written.map Prod.snd)

section Steps
variable {dest : CString} {s : System}

theorem System.init_inv (targetDepth : Int) : (System.init targetDepth).Inv dest where
  agent := Agent.new_inv targetDepth
  pc := .inl rfl
  stocked := .of_nil rfl
  follows := NodeLog.empty_follows
  records := List.Sublist.refl _
  sessions := ⟨[], .nil, List.forall_mem_nil _, List.Sublist.refl _⟩

/-- A call of the agent. -/
theorem System.Inv.call (h : s.Inv dest) (op : AgentOp) : (s.call op).Inv dest := by
  obtain ⟨fs, hfs, hobtained, hwritten⟩ := h.sessions
  refine ⟨h.agent.run op.acts, Agent.run_acts_pc h.agent h.pc op, h.stocked.acts h.agent h.pc op,
    h.follows, h.records, fs, hfs, fun f hf => List.mem_append_left _ (hobtained f hf), ?_⟩
  exact hwritten.trans ((s.agent.run_written op.acts).sublist.map Prod.snd)

/-- What a session popped for a destination is: one obtained for it, unexpired. -/
theorem Pool.StockedFor.hit {p : Pool} {obtained : List (CString × Fetch)} (hp : p.Wf)
    (h : p.StockedFor obtained) {groupCap : Nat} {now : Int} {g : Got}
    (hhit : (poolGet p dest groupCap now).ret = some g) :
    ∃ f, (dest, f) ∈ obtained ∧ g = f.entry.got groupCap ∧ f.entry.fresh now = true := by
  rw [(poolGet_spec hp dest groupCap now).1, Option.map_eq_some_iff] at hhit
  obtain ⟨e, he, rfl⟩ := hhit
  obtain ⟨hview, hfresh⟩ := List.mem_filter.1 (List.mem_of_getLast? he)
  obtain ⟨f, hf, rfl⟩ := h dest e hview
  exact ⟨f, hf, rfl, hfresh⟩

/-- The client's copy of a source call's session. -/
theorem Install.Delivers.of_client (f : Fetch) (r : Record) {now : Int}
    (hfresh : f.entry.fresh now = true) :
    Install.Delivers ⟨r, (f.entry.got 64).client f.reply.der, now⟩ f := by
  refine ⟨rfl, rfl, rfl, ?_, hfresh⟩
  exact congrArg some (CString.snprintf_of_lt f.entry_ok.group)

/-- What `uds_get` brings from the agent: a session of a source call for the destination, whose
buffer the agent has written to this connection. -/
theorem System.Inv.asked_session (h : s.Inv dest) {env : AskEnv} {session : ClientSession}
    (hs : (s.asked dest env).session = some session) (id : Nat) (r : Record) :
    ∃ f op, (dest, f) ∈ s.obtained ∧ Install.Delivers ⟨r, session, env.now⟩ f ∧
      env.conn dest id = some op ∧
      s.agent.written ++ [(id, f.reply.der)] <+: (s.agent.run op.acts).written := by
  unfold System.asked at hs
  split at hs
  · next hup =>
    obtain ⟨hreach, hpc⟩ := hup
    have hfit : ¬(dest.strlen = 0 ∨ udsDestMax < dest.strlen) := by
      intro hfit
      simp [faultyExchange, udsGet_eq, hfit] at hs
    have hanswered := faultyExchange_answered h.agent.wf env.faults env.now env.maintain dest 64
    generalize faultyExchange s.agent.pool env.faults env.now env.maintain dest 64 = x
      at hanswered hs
    obtain ⟨out, pool⟩ := x
    cases hanswered with
    | unread => cases hs
    | missed _ _ hout | refused _ _ _ hout => rcases hout with rfl | rfl <;> cases hs
    | @served _ g b hreq hhit hder hmalloc hout =>
      rcases hout with rfl | rfl
      · cases hs
      obtain ⟨f, hf, rfl, hfresh⟩ := h.stocked.hit h.agent.wf hhit
      cases hder
      cases hs
      refine ⟨f, _, hf, .of_client f r hfresh, if_neg ?_, ?_⟩
      · rw [hreach]
        simpa using hfit
      · exact Agent.run_conn_written hpc id hreq hhit rfl hmalloc
  · cases hs

/-- A step of the node other than the return of `uds_get`. -/
theorem System.Inv.node {probe : Probe} (h : s.Inv dest) {act : NodeAct} {n : Node}
    (hact : ∀ status, act ≠ .reply status) (hs : s.node.step probe act = some n) :
    ({ s with node := n, log := s.log.note probe s.node act } : System).Inv dest := by
  refine ⟨h.agent, h.pc, h.stocked, h.follows.step (.of_step hs), ?_, h.sessions⟩
  have hrecords := h.records
  have hstep := Node.Step.of_step hs
  unfold System.InstalledFor at hrecords ⊢
  cases act with
  | reply status => exact absurd rfl (hact status)
  | take =>
    cases hstep with
    | @short r ring hd hring hlen =>
      have := h.follows.len r (by rw [hring]; exact .head _)
      omega
    | @take r ring hd hring hc =>
      rw [hd] at hrecords
      exact ⟨s.log.taken, by simp [NodeLog.note, hring], hrecords⟩
  | installed rc => cases hstep with | installed hd => rw [hd] at hrecords; exact hrecords
  | sigcont => cases hstep with | sigcont hd => rw [hd] at hrecords; exact hrecords
  | reserve t ok =>
    cases hstep <;> exact hrecords
  | enter t ssl => cases hstep; exact hrecords
  | submit t => cases hstep; exact hrecords
  | sigstop t => cases hstep; exact hrecords
  | handshake t => cases hstep; exact hrecords
  | finish t => cases hstep; exact hrecords

/-- The call that `uds_get` makes, if it makes one. -/
theorem System.Inv.conn (h : s.Inv dest) (env : AskEnv) (id : Nat) :
    ((env.conn dest id).elim s s.call).Inv dest := by
  cases env.conn dest id with
  | none => exact h
  | some op => exact h.call op

/-- A call of the agent leaves the node and the installations alone. -/
theorem System.conn_frame (s : System) (op : Option AgentOp) :
    (op.elim s s.call).node = s.node ∧ (op.elim s s.call).log = s.log ∧
      (op.elim s s.call).installs = s.installs := by
  cases op <;> exact ⟨rfl, rfl, rfl⟩

/-- The return of `uds_get` leads to no installation, or to one for the record at hand. -/
theorem System.newInstall_cases (n : Node) (out : ClientOut) (now : Int) :
    System.newInstall n out now = [] ∨
      ∃ r session, n.daemon = .installing r ∧ out.session = some session ∧
        System.newInstall n out now = [⟨r, session, now⟩] := by
  unfold System.newInstall
  split
  · next r hd =>
    cases hs : out.session with
    | none => exact .inl rfl
    | some session => exact .inr ⟨r, session, hd, rfl, rfl⟩
  · exact .inl rfl

/-- The return of `uds_get`. -/
theorem System.Inv.ask {probe : Probe} (h : s.Inv dest) (id : Nat) (env : AskEnv) {n : Node}
    (hs : s.node.step probe (.reply (s.asked dest env).ret) = some n) :
    ({ (env.conn dest id).elim s s.call with
        node := n
        log := s.log.note probe s.node (.reply (s.asked dest env).ret)
        installs := s.installs ++ System.newInstall n (s.asked dest env) env.now } : System).Inv
      dest := by
  have hconn := h.conn env id
  have hnew := System.newInstall_cases n (s.asked dest env) env.now
  refine ⟨hconn.agent, hconn.pc, hconn.stocked, h.follows.step (.of_step hs), ?_, ?_⟩
  · -- the record at hand is the last one taken, and not installed for yet
    have hrecords := h.records
    unfold System.InstalledFor at hrecords ⊢
    cases Node.Step.of_step hs with
    | install hd =>
      rw [hd] at hrecords
      obtain ⟨l, hl, hsub⟩ := hrecords
      show (List.map _ (s.installs ++ _)).Sublist s.log.taken
      rw [hl, List.map_append]
      refine hsub.append ?_
      rcases hnew with hnil | ⟨r', session, hd', -, hone⟩
      · rw [hnil]
        exact List.nil_sublist _
      · cases hd'
        rw [hone]
        exact List.Sublist.refl _
    | miss hd =>
      rw [hd] at hrecords
      obtain ⟨l, hl, hsub⟩ := hrecords
      show (List.map _ (s.installs ++ _)).Sublist s.log.taken
      rw [hl, List.map_append]
      exact hsub.append (List.nil_sublist _)
  · rcases hnew with hnil | ⟨r, session, -, hsession, hone⟩
    · have hsessions := hconn.sessions
      rw [(s.conn_frame (env.conn dest id)).2.2] at hsessions
      rw [hnil, List.append_nil]
      exact hsessions
    · obtain ⟨f, op, hf, hdelivers, hop, hwritten⟩ := h.asked_session hsession id r
      obtain ⟨fs, hfs, hobtained, hsub⟩ := h.sessions
      rw [hone, hop]
      refine ⟨fs ++ [f], List.rel_append hfs (.cons hdelivers .nil), fun f' hf' => ?_, ?_⟩
      · refine List.mem_append_left _ ?_
        rcases List.mem_append.1 hf' with hf' | hf'
        · exact hobtained f' hf'
        · rw [List.mem_singleton.1 hf']
          exact hf
      · refine List.Sublist.trans ?_ (hwritten.sublist.map Prod.snd)
        rw [List.map_append, List.map_append]
        exact hsub.append (List.Sublist.refl _)

/-- Every step keeps the invariant. -/
theorem System.Inv.step {probe : Probe} (h : s.Inv dest) {act : SystemAct} {s' : System}
    (hs : s.step probe dest act = some s') : s'.Inv dest := by
  cases act with
  | node act =>
    have hact : ∀ status, act ≠ .reply status := by
      rintro status rfl
      cases hs
    have hnode : ∃ n, s.node.step probe act = some n ∧
        s' = { s with node := n, log := s.log.note probe s.node act } := by
      cases act with
      | reply status => exact absurd rfl (hact status)
      | _ =>
        obtain ⟨n, hn, rfl⟩ := Option.map_eq_some_iff.1 hs
        exact ⟨n, hn, rfl⟩
    obtain ⟨n, hn, rfl⟩ := hnode
    exact h.node hact hn
  | agent op => cases hs; exact h.call op
  | ask id env =>
    obtain ⟨n, hn, rfl⟩ := Option.map_eq_some_iff.1 hs
    exact h.ask id env hn

/-- The agent of a step runs the calls of the step. -/
theorem System.step_agent {probe : Probe} {act : SystemAct} {s' : System}
    (hs : s.step probe dest act = some s') :
    s'.agent = s.agent.run ((act.agentOps dest).flatMap AgentOp.acts) := by
  cases act with
  | node act =>
    cases act with
    | reply status => cases hs
    | _ =>
      obtain ⟨n, -, rfl⟩ := Option.map_eq_some_iff.1 hs
      rfl
  | agent op =>
    cases hs
    simp [SystemAct.agentOps, System.call]
  | ask id env =>
    obtain ⟨n, -, rfl⟩ := Option.map_eq_some_iff.1 hs
    show ((env.conn dest id).elim s s.call).agent =
      s.agent.run ((env.conn dest id).toList.flatMap AgentOp.acts)
    cases env.conn dest id with
    | none => rfl
    | some op => simp [System.call]

/-- The agent of a run runs the calls of the run. -/
theorem System.run_agent {probe : Probe} {acts : List SystemAct} {s' : System}
    (hs : run (System.step probe dest) s acts = some s') :
    s'.agent = s.agent.run ((acts.flatMap (SystemAct.agentOps dest)).flatMap AgentOp.acts) := by
  induction acts generalizing s with
  | nil => cases hs; rfl
  | cons act acts ih =>
    obtain ⟨s₁, h₁, h₂⟩ := Option.bind_eq_some_iff.1 hs
    rw [ih h₂, System.step_agent h₁, List.flatMap_cons, List.flatMap_append, Agent.run_append]

end Steps

/-! ## The result -/

/-- The records installed for are among those taken. -/
theorem System.InstalledFor.sublist {s : System} (h : s.InstalledFor) :
    (s.installs.map (·.record)).Sublist s.log.taken := by
  unfold System.InstalledFor at h
  split at h
  · obtain ⟨l, hl, hsub⟩ := h
    rw [hl]
    exact hsub.trans (List.sublist_append_left _ _)
  · exact h

/-- No two records taken come from one call of `SSL_connect`. -/
theorem NodeLog.Follows.taken_nodup {log : NodeLog} {s : Node} (h : log.Follows s) :
    (log.taken.map fun r => (r.thread, r.call)).Nodup := by
  have hreport : ∀ l : List Record, (l.map fun r => (r.thread, r.call)) =
      (l.map Record.report).map Prod.snd := by
    intro l
    rw [List.map_map]
    rfl
  have hall := h.once
  rw [hreport, h.queue, ← hreport, List.map_append] at hall
  exact hall.of_append_left

/-- **Every session installed was obtained for the destination, and none is used twice.** Take any
interleaving of the threads, the daemon and the agent, with any failures of the calls on the socket,
any other clients of the agent, and a source whose buffers are fresh. The sessions that the daemon
installed so far correspond, one to one and in order, to source calls that the agent made for the
daemon's destination: the bytes, their number, the provenance and the group are those of the call,
and the session had not expired when the agent took it out. No two of them are the same buffer, none
was also handed to a direct caller of the pool, and no two were installed for the same call of
`SSL_connect`. -/
theorem sessions_delivered_once (targetDepth : Int) (probe : Probe) (dest : CString)
    (acts : List SystemAct) (s : System)
    (hrun : run (System.step probe dest) (System.init targetDepth) acts = some s)
    (hfresh : (((acts.flatMap (SystemAct.agentOps dest)).flatMap AgentOp.fetches).map
      (·.reply.der.id)).Nodup) :
    (∃ fs, List.Forall₂ Install.Delivers s.installs fs ∧ (∀ f ∈ fs, (dest, f) ∈ s.obtained) ∧
      (fs.map (·.reply.der.id)).Nodup ∧
      ∀ f ∈ fs, ∀ c b, (Holder.caller c, b) ∈ s.agent.handed → b.id ≠ f.reply.der.id) ∧
    (s.installs.map fun i => (i.record.thread, i.record.call)).Nodup := by
  have hinv : s.Inv dest := run_inv (fun _ _ _ hI hs => hI.step hs) (System.init_inv targetDepth) hrun
  have huse : s.agent.SingleUse := by
    rw [System.run_agent hrun]
    exact Agent.run_singleUse targetDepth hfresh (List.prefix_refl _)
  obtain ⟨fs, hfs, hobtained, hsub⟩ := hinv.sessions
  refine ⟨⟨fs, hfs, hobtained, ?_, fun f hf c b hb hid => ?_⟩, ?_⟩
  · have hids := hsub.map Buf.id
    rw [List.map_map, List.map_map] at hids
    exact huse.written.sublist hids
  · -- the daemon's connection was handed the buffer, so the caller was not
    obtain ⟨⟨c', b'⟩, hwritten, rfl⟩ := List.mem_map.1 (hsub.mem (List.mem_map_of_mem hf))
    have hsame := List.inj_on_of_nodup_map huse.handed hb (huse.written_handed c' _ hwritten) hid
    cases hsame
  · have hnodup := hinv.follows.taken_nodup.sublist (hinv.records.sublist.map _)
    rwa [List.map_map] at hnodup

/-- One client is served the one session that the agent obtained. -/
theorem sessions_delivered_once_served :
    let t : Thread := ⟨7, 7⟩
    let faults : Faults := ⟨[.bytes 3], [.eintr, .bytes 4], true, [.bytes 1], [.bytes 5], true⟩
    let acts : List SystemAct := [.agent (.maintain sampleDest ⟨100, true, [sampleFetch 0]⟩),
      .node (.enter t 1), .node (.reserve t true), .node (.submit t), .node (.sigstop t),
      .node .take, .ask 0 ⟨true, faults, 200, ⟨200, true, [sampleFetch 1]⟩⟩]
    ∃ s, run (System.step .all sampleDest) (System.init 1) acts = some s ∧
      s.installs.length = 1 ∧
      ∃ fs, List.Forall₂ Install.Delivers s.installs fs ∧ ∀ f ∈ fs, (sampleDest, f) ∈ s.obtained := by
  intro t faults acts
  have hlen : (run (System.step .all sampleDest) (System.init 1) acts).map
      (·.installs.length) = some 1 := by decide +kernel
  obtain ⟨s, hrun, hone⟩ := Option.map_eq_some_iff.1 hlen
  obtain ⟨⟨fs, hfs, hobtained, -⟩, -⟩ := sessions_delivered_once 1 .all sampleDest acts s
    hrun (by decide +kernel)
  exact ⟨s, hrun, hone, fs, hfs, hobtained⟩

end TicketConnect
