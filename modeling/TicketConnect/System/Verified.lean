import TicketConnect.Agent.SourceSpec
import TicketConnect.System.Delivery

/-!
# Installed sessions come from the destination's host

The system with the agent's own source. In `System.Model` the sessions that the source delivers are
arguments of a step; here a step has the calls of `live_source` (`LiveCall`), each with what the
resolver, the network, the peer and the allocator do in it, and delivers what these calls return.
The history of the run then has the calls that succeeded, with their destinations. A session that
the daemon installs into a client comes from one of them: the agent received it in that call, on a
connection to the host and port of the daemon's destination, after a handshake configured for that
host (`installs_from_host`).

A call in which `SSL_new` returns `NULL` has no defined outcome. Here it ends the refill, as a call
that fails does.
-/

namespace TicketConnect

open Lib

/-! ## The calls of `live_source` in a refill -/

/-- A call of `live_source`: what the outside decides in it, and the clock that `pool_maintain`
reads after it. -/
structure LiveCall where
  env : SourceEnv
  now : Int

/-- The session that a call for a destination delivers, if it succeeds. -/
def LiveCall.fetch (c : LiveCall) (insecure : Bool) (dest : CString) : Option Fetch :=
  (liveSource c.env insecure dest).reply.map (⟨·, c.now⟩)

/-- The sessions that calls for a destination deliver, until the first one fails. -/
def delivered (insecure : Bool) (dest : CString) : List LiveCall → List Fetch
  | [] => []
  | c :: calls =>
    match c.fetch insecure dest with
    | none => []
    | some f => f :: delivered insecure dest calls

/-- The sessions of a refill, each with its destination, and the calls that delivered them. -/
def sourceCalls (obtained : List (CString × Fetch)) (calls : List LiveCall) :
    List (CString × LiveCall) :=
  (obtained.map Prod.fst).zip calls

/-- A session is what a call returned, for the same destination. -/
structure ReturnedBy (insecure : Bool) (x : CString × Fetch) (y : CString × LiveCall) : Prop where
  dest : x.1 = y.1
  fetch : y.2.fetch insecure x.1 = some x.2

section Refill
variable {insecure : Bool} {dest : CString}

/-- The sessions used of those delivered, with their calls. -/
theorem returnedBy_of_front {calls : List LiveCall} {fs : List Fetch}
    (h : fs <+: delivered insecure dest calls) :
    List.Forall₂ (ReturnedBy insecure) (fs.map (dest, ·))
      (sourceCalls (fs.map (dest, ·)) calls) := by
  induction calls generalizing fs with
  | nil =>
    obtain rfl := List.prefix_nil.1 h
    exact .nil
  | cons c calls ih =>
    cases fs with
    | nil => exact .nil
    | cons f fs =>
      unfold delivered at h
      split at h
      · cases List.prefix_nil.1 h
      · next hc =>
        obtain ⟨rfl, hrest⟩ := List.cons_prefix_cons.1 h
        exact .cons ⟨rfl, hc⟩ (ih hrest)

/-- The refill loop uses the sessions that the source delivers, in order. -/
theorem poolFill_used (depth : Nat) (fs : List Fetch) (d : PoolDest) :
    (poolFill depth d fs).used <+: fs := by
  induction fs generalizing d with
  | nil => exact List.prefix_rfl
  | cons f fs ih =>
    unfold poolFill
    split
    · exact (List.prefix_cons_inj f).2 (ih (d.push f.entry))
    · exact List.nil_prefix

theorem poolMaintain_used (p : Pool) (dest : CString) (env : MaintainEnv) :
    (poolMaintain p dest env).ret.used <+: env.fetches := by
  unfold poolMaintain
  split
  · exact List.nil_prefix
  · exact poolFill_used _ _ _

end Refill

/-! ## The calls of the agent -/

/-- A refill for a destination from `live_source`. -/
def MaintainEnv.live (insecure : Bool) (dest : CString) (calls : List LiveCall)
    (env : MaintainEnv) : MaintainEnv :=
  { env with fetches := delivered insecure dest calls }

/-- A connection whose refill, if it comes to one, is from `live_source`. -/
def ConnEnv.live (insecure : Bool) (calls : List LiveCall) (env : ConnEnv) : ConnEnv :=
  match readRequest env.reads env.stream with
  | .get dest => { env with maintain := env.maintain.live insecure dest calls }
  | .closed | .malformed => env

/-- A call of the agent whose refill is from `live_source`. -/
def AgentOp.live (insecure : Bool) (calls : List LiveCall) : AgentOp → AgentOp
  | .maintain dest env => .maintain dest (env.live insecure dest calls)
  | .conn id env => .conn id (env.live insecure calls)
  | op => op

/-- The sessions delivered in a call of the agent are those of the calls of `live_source`, for the
destination that it refills. -/
def AgentOp.Fed (insecure : Bool) (calls : List LiveCall) : AgentOp → Prop
  | .maintain dest env => env.fetches = delivered insecure dest calls
  | .conn _ env => ∀ dest, readRequest env.reads env.stream = .get dest →
      env.maintain.fetches = delivered insecure dest calls
  | .depth .. | .get .. | .release .. | .free => True

section Fed
variable {insecure : Bool} {calls : List LiveCall}

theorem ConnEnv.live_fed (env : ConnEnv) (dest : CString)
    (h : readRequest (env.live insecure calls).reads (env.live insecure calls).stream = .get dest) :
    (env.live insecure calls).maintain.fetches = delivered insecure dest calls := by
  unfold ConnEnv.live at h ⊢
  cases hreq : readRequest env.reads env.stream with
  | get dest' =>
    rw [hreq] at h
    cases hreq.symm.trans h
    rfl
  | closed | malformed =>
    rw [hreq] at h
    cases hreq.symm.trans h

theorem AgentOp.live_fed (op : AgentOp) : (op.live insecure calls).Fed insecure calls := by
  cases op with
  | maintain dest env => rfl
  | conn id env => exact env.live_fed
  | depth | get | release | free => trivial

/-- The sessions obtained in a connection are those that its refill uses. -/
theorem connObtained_cases (env : ConnEnv) (p : Pool) :
    connObtained env p = [] ∨ ∃ dest p', readRequest env.reads env.stream = .get dest ∧
      connObtained env p = (poolMaintain p' dest env.maintain).ret.used.map (dest, ·) := by
  unfold connObtained handleConnRun
  split
  · exact .inl rfl
  · exact .inl rfl
  · next dest hreq =>
    dsimp only
    split
    · exact .inr ⟨dest, _, hreq, rfl⟩
    · split
      · exact .inr ⟨dest, _, hreq, rfl⟩
      · exact .inl rfl

/-- What a call of the agent obtains is what the calls of `live_source` deliver, in order. -/
theorem AgentOp.Fed.obtained {op : AgentOp} (h : op.Fed insecure calls) (a : Agent) :
    ∃ dest fs, op.obtained a = fs.map (dest, ·) ∧ fs <+: delivered insecure dest calls := by
  have hnone : ∃ dest : CString, ∃ fs : List Fetch, [] = fs.map (dest, ·) ∧
      fs <+: delivered insecure dest calls := ⟨.empty, [], rfl, List.nil_prefix⟩
  unfold AgentOp.obtained
  split
  · cases op with
    | maintain dest env =>
      refine ⟨dest, _, rfl, ?_⟩
      rw [← show env.fetches = _ from h]
      exact poolMaintain_used _ _ _
    | conn id env =>
      obtain hnil | ⟨dest, p, hreq, hobtained⟩ := connObtained_cases env a.pool
      · exact ⟨.empty, [], hnil, List.nil_prefix⟩
      · refine ⟨dest, _, hobtained, ?_⟩
        rw [← h dest hreq]
        exact poolMaintain_used _ _ _
    | depth | get | release | free => exact hnone
  · exact hnone

/-- The sessions that a call of the agent obtains, with their calls. -/
theorem AgentOp.Fed.returnedBy {op : AgentOp} (h : op.Fed insecure calls) (a : Agent) :
    List.Forall₂ (ReturnedBy insecure) (op.obtained a) (sourceCalls (op.obtained a) calls) := by
  obtain ⟨dest, fs, hobtained, hfront⟩ := h.obtained a
  rw [hobtained]
  exact returnedBy_of_front hfront

end Fed

/-! ## The steps -/

/-- A step of the system in which the agent's refill, if it makes one, is from `live_source`. -/
def SystemAct.live (insecure : Bool) (dest : CString) (calls : List LiveCall) :
    SystemAct → SystemAct
  | .node act => .node act
  | .agent op => .agent (op.live insecure calls)
  | .ask id env => .ask id { env with maintain := env.maintain.live insecure dest calls }

/-- The sessions that the agent obtains in a step. -/
def System.obtains (s : System) (dest : CString) (act : SystemAct) : List (CString × Fetch) :=
  (act.agentOps dest).flatMap (·.obtained s.agent)

/-- A step of the system with the agent's own source, and the calls of `live_source` that have
succeeded. -/
def System.liveStep (probe : Probe) (dest : CString) (insecure : Bool) :
    System × List (CString × LiveCall) → SystemAct × List LiveCall →
      Option (System × List (CString × LiveCall)) :=
  withHistory (fun s x => s.step probe dest (x.1.live insecure dest x.2))
    fun s x made => made ++ sourceCalls (s.obtains dest (x.1.live insecure dest x.2)) x.2

section Run
variable {probe : Probe} {dest : CString} {insecure : Bool} {s s' : System}

/-- The request of `uds_get` is for the daemon's destination. -/
theorem SystemAct.live_fed (act : SystemAct) (calls : List LiveCall) :
    ∀ op ∈ (act.live insecure dest calls).agentOps dest, op.Fed insecure calls := by
  intro op hop
  cases act with
  | node act => cases hop
  | agent op' =>
    obtain rfl := List.mem_singleton.1 hop
    exact op'.live_fed
  | ask id env =>
    obtain hconn := Option.mem_toList.1 hop
    unfold AskEnv.conn at hconn
    split at hconn
    · cases hconn
    · next hfit =>
      obtain rfl := Option.some.inj hconn
      intro dest' hreq
      have hdest : FitsFrame dest := by
        simp only [not_or] at hfit
        exact ⟨by omega, by omega⟩
      obtain hclosed | ⟨-, hget⟩ := readRequest_of_front hdest
        (writeAll_front env.faults.clientWrites (udsRequest dest)) env.faults.serverReads
      · cases hclosed.symm.trans hreq
      · cases hget.symm.trans hreq
        rfl

/-- What a step adds to the sessions obtained. -/
theorem System.step_obtained {act : SystemAct} (hs : s.step probe dest act = some s') :
    s'.obtained = s.obtained ++ s.obtains dest act := by
  cases act with
  | node act =>
    cases act with
    | reply status => cases hs
    | _ =>
      obtain ⟨n, -, rfl⟩ := Option.map_eq_some_iff.1 hs
      exact (List.append_nil _).symm
  | agent op =>
    cases hs
    simp [System.obtains, SystemAct.agentOps, System.call]
  | ask id env =>
    obtain ⟨n, -, rfl⟩ := Option.map_eq_some_iff.1 hs
    show ((env.conn dest id).elim s s.call).obtained =
      s.obtained ++ (env.conn dest id).toList.flatMap (·.obtained s.agent)
    cases env.conn dest id <;> simp [System.call]

/-- A step has one call of the agent at most. -/
theorem SystemAct.agentOps_cases (act : SystemAct) (dest : CString) :
    act.agentOps dest = [] ∨ ∃ op, act.agentOps dest = [op] := by
  cases act with
  | node act => exact .inl rfl
  | agent op => exact .inr ⟨op, rfl⟩
  | ask id env =>
    show (env.conn dest id).toList = [] ∨ ∃ op, (env.conn dest id).toList = [op]
    cases env.conn dest id with
    | none => exact .inl rfl
    | some op => exact .inr ⟨op, rfl⟩

/-- The sessions that a step obtains, with their calls. -/
theorem System.obtains_returnedBy (s : System) {act : SystemAct} {calls : List LiveCall}
    (h : ∀ op ∈ act.agentOps dest, op.Fed insecure calls) :
    List.Forall₂ (ReturnedBy insecure) (s.obtains dest act)
      (sourceCalls (s.obtains dest act) calls) := by
  unfold System.obtains
  obtain hnil | ⟨op, hone⟩ := act.agentOps_cases dest
  · rw [hnil]
    exact .nil
  · rw [hone] at h ⊢
    rw [List.flatMap_singleton]
    exact (h op (.head _)).returnedBy s.agent

/-- Over a run, the sessions obtained are what the calls of the history returned. -/
theorem System.live_returnedBy {targetDepth : Int} {acts : List (SystemAct × List LiveCall)}
    {made : List (CString × LiveCall)}
    (hrun : run (System.liveStep probe dest insecure) (System.init targetDepth, []) acts =
      some (s, made)) : s.Inv dest ∧ List.Forall₂ (ReturnedBy insecure) s.obtained made := by
  refine run_inv (I := fun x => x.1.Inv dest ∧ List.Forall₂ (ReturnedBy insecure) x.1.obtained x.2)
    (fun x act x' hI hs => ?_) ⟨System.init_inv targetDepth, .nil⟩ hrun
  obtain ⟨s', hstep, rfl⟩ := Option.map_eq_some_iff.1 hs
  refine ⟨hI.1.step hstep, ?_⟩
  rw [System.step_obtained hstep]
  exact List.rel_append hI.2 (x.1.obtains_returnedBy (act.1.live_fed act.2))

end Run

/-! ## The result -/

/-- A handshake with the host over TLS 1.3. Without `-k` it fails unless the peer's certificate is
valid for that name; the names are left out where OpenSSL could not set them. -/
structure TlsSetup.For (setup : TlsSetup) (env : SourceEnv) (insecure : Bool) (host : CString) :
    Prop where
  version : setup.minVersion = .tls13 ∧ setup.maxVersion = .tls13
  sni : env.sniOk = true → setup.sni = some host
  verify : insecure = false →
    setup.verify = .peer ∧ (env.hostOk = true → setup.verifyHost = some host)

/-- Where an installed session was received, in a call of the source with environment `env`: the
destination is `host:port`, the call connected to an address of it, and the session is the first
ticket after its handshake with the host. -/
def Install.FromHost (i : Install) (env : SourceEnv) (insecure : Bool) (dest : CString) : Prop :=
  ∃ host port tries fd setup hs ticket,
    (dest.bytes = host.bytes ++ 58 :: port.bytes ∧ 58 ∉ port.bytes) ∧
    (env.resolve host port = some tries ∧ ⟨some fd, true⟩ ∈ tries) ∧
    (setup.For env insecure host ∧ env.handshake setup fd none = some hs) ∧
    ((readsReached 4 hs.reads).flatMap (·.tickets)).head? = some ticket ∧
    i.session.der = ticket.der ∧ i.session.derLen = ticket.i2d ∧
    i.session.group = some ((groupName hs.group).snprintf 64) ∧
    i.session.isPqc = if hs.group.any (·.strstr (.lit "MLKEM")) then 1 else 0

/-- The handshake of `session_fetch` is one with the host. -/
theorem tlsSetup_for (env : SourceEnv) (insecure newCb : Bool) (host : CString) :
    (tlsSetup env insecure newCb host).For env insecure host := by
  refine ⟨⟨rfl, rfl⟩, fun hsni => if_pos hsni, ?_⟩
  rintro rfl
  exact ⟨rfl, fun hhost => if_pos ⟨rfl, hhost⟩⟩

/-- A session delivered from a call of `live_source`. -/
theorem Install.Delivers.fromHost {i : Install} {f : Fetch} (h : i.Delivers f) {insecure : Bool}
    {dest : CString} {c : LiveCall} (hfetch : c.fetch insecure dest = some f) :
    i.FromHost c.env insecure dest := by
  obtain ⟨reply, hreply, rfl⟩ := Option.map_eq_some_iff.1 hfetch
  obtain ⟨host, port, tries, fd, hs, ticket, hdest, htcp, hshake, hfirst, hder, hlen, -, hgroup,
    hpqc⟩ := liveSource_reply hreply
  refine ⟨host, port, tries, fd, _, hs, ticket, hdest, htcp,
    ⟨tlsSetup_for c.env insecure true host, hshake⟩, hfirst, h.der.trans hder,
    h.derLen.trans hlen, ?_, ?_⟩
  · have hcut : ((groupName hs.group).snprintf 64).strlen < groupMax :=
      CString.strlen_snprintf_lt _ (by decide)
    rw [h.group, hgroup, CString.snprintf_of_lt hcut]
  · rw [h.isPqc, hpqc]
    split <;> simp

/-- A member of one of two corresponding lists has a partner in the other. -/
theorem exists_partner {α β : Type*} {R : α → β → Prop} {l : List α} {l' : List β}
    (h : List.Forall₂ R l l') {x : α} (hx : x ∈ l) : ∃ y ∈ l', R x y := by
  induction h with
  | nil => cases hx
  | @cons a b _ _ hab _ ih =>
    rcases List.mem_cons.1 hx with rfl | hx
    · exact ⟨b, .head _, hab⟩
    · obtain ⟨y, hy, hxy⟩ := ih hx
      exact ⟨y, .tail _ hy, hxy⟩

/-- **What is installed into a client came from the host of the destination.** Over every
interleaving of the threads, the daemon and the agent, with any failures and any other clients,
where the agent's sessions come from `live_source`: every session that the daemon passes to
`inject_session` was received in one of the calls of `live_source` of this run, made for the
daemon's destination. It is the first ticket of the connection that this call made to the host and
port of the destination, after a TLS 1.3 handshake; without `-k` the handshake verified the peer,
for the name of that host unless `SSL_set1_host` failed. It has the bytes and the group of that
connection, and it is flagged post-quantum exactly when that group is an ML-KEM one. -/
theorem installs_from_host (targetDepth : Int) (probe : Probe) (dest : CString) (insecure : Bool)
    (acts : List (SystemAct × List LiveCall)) (s : System) (made : List (CString × LiveCall))
    (hrun : run (System.liveStep probe dest insecure) (System.init targetDepth, []) acts =
      some (s, made)) :
    ∀ i ∈ s.installs, ∃ c, (dest, c) ∈ made ∧ i.FromHost c.env insecure dest := by
  intro i hi
  obtain ⟨hinv, hmade⟩ := System.live_returnedBy hrun
  obtain ⟨fs, hfs, hdest, -⟩ := hinv.sessions
  obtain ⟨f, hf, hdelivers⟩ := exists_partner hfs hi
  obtain ⟨⟨dest', c⟩, hc, hsource⟩ := exists_partner hmade (hdest f hf)
  obtain rfl : dest = dest' := hsource.dest
  exact ⟨c, hc, hdelivers.fromHost hsource.fetch⟩

/-- A peer that sends one ticket after a hybrid handshake, in the second read. -/
def sampleSource : SourceEnv where
  ctxOk := true
  groupsOk := true
  verifyPathsOk := true
  resolve _ _ := some [⟨none, false⟩, ⟨some 3, false⟩, ⟨some 3, true⟩]
  sslOk := true
  sniOk := true
  hostOk := true
  setSessionOk := true
  handshake _ _ _ := some
    { group := some (.lit "X25519MLKEM768")
      reused := 0
      reads := [⟨[], .want⟩, ⟨[⟨9, 3, [48, 1, 0], 300, fun _ => ⟨rfl, by decide⟩⟩], .want⟩] }
  d2i _ := none
  malloc := some 0

/-- One client is served this session, from an agent that verifies its peers. -/
theorem installs_from_host_served :
    let t : Thread := ⟨7, 7⟩
    let faults : Faults := ⟨[], [], true, [], [], true⟩
    let acts : List (SystemAct × List LiveCall) :=
      [(.agent (.maintain sampleDest ⟨100, true, []⟩), [⟨sampleSource, 100⟩]),
        (.node (.enter t 1), []), (.node (.reserve t true), []), (.node (.submit t), []),
        (.node .take, []), (.ask 0 ⟨true, faults, 200, ⟨200, true, []⟩⟩, [])]
    ∃ s made, run (System.liveStep .all sampleDest false) (System.init 1, []) acts =
        some (s, made) ∧ s.installs.length = 1 ∧
      ∀ i ∈ s.installs, ∃ c, (sampleDest, c) ∈ made ∧ i.FromHost c.env false sampleDest := by
  intro t faults acts
  have hlen : (run (System.liveStep .all sampleDest false) (System.init 1, []) acts).map
      (·.1.installs.length) = some 1 := by decide +kernel
  obtain ⟨⟨s, made⟩, hrun, hone⟩ := Option.map_eq_some_iff.1 hlen
  exact ⟨s, made, hrun, hone, installs_from_host 1 .all sampleDest false acts s made hrun⟩

end TicketConnect
