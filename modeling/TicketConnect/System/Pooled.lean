import TicketConnect.Agent.Clients
import TicketConnect.Agent.Commands
import TicketConnect.System.Verified

/-!
# `get` shows what `fetch` shows

`ticket-agent fetch` makes a handshake and reports its session at once. With `serve` and `get` the
same session takes the long way: `live_source` fetches it ahead of time, the pool keeps it, the
agent puts it on the wire, and the client reads it from there. `get_agrees_with_fetch` says that
this makes no difference: what `get` shows is what `fetch` shows where the session was fetched,
byte for byte, and so is the file that is written with `-o`.
-/

namespace TicketConnect

open Lib

/-! ## The sessions in the pool -/

/-- The call of the agent behind an action of the process. -/
def ServeAct.op : ServeAct → AgentOp
  | .prewarm dest env => .maintain dest env
  | .conn env => .conn 0 env

/-- An action of the process whose refill is from `live_source`. -/
def ServeAct.live (insecure : Bool) (calls : List LiveCall) : ServeAct → ServeAct
  | .prewarm dest env => .prewarm dest (env.live insecure dest calls)
  | .conn env => .conn (env.live insecure calls)

/-- The sessions that the source delivers in an action. -/
def ServeAct.obtained (p : Pool) : ServeAct → List (CString × Fetch)
  | .prewarm dest env => (poolMaintain p dest env).ret.used.map (dest, ·)
  | .conn env => connObtained env p

/-- An action of the process with its own source, and the calls of `live_source` that have
succeeded. -/
def Pool.liveServe (insecure : Bool) (x : Pool × List (CString × LiveCall))
    (act : ServeAct × List LiveCall) : Shown × Pool × List (CString × LiveCall) :=
  let act' := act.1.live insecure act.2
  ((x.1.serve act').1, (x.1.serve act').2, x.2 ++ sourceCalls (act'.obtained x.1) act.2)

/-- The pool holds sessions that the calls returned, for their destinations. -/
def Pool.LiveStocked (insecure : Bool) (p : Pool) (made : List (CString × LiveCall)) : Prop :=
  ∃ obtained, p.StockedFor obtained ∧ List.Forall₂ (ReturnedBy insecure) obtained made

section Stocked
variable {insecure : Bool} {p : Pool} {made : List (CString × LiveCall)}

/-- The sessions that an action obtains, with their calls. -/
theorem ServeAct.live_returnedBy (act : ServeAct) (calls : List LiveCall) (p : Pool) :
    List.Forall₂ (ReturnedBy insecure) ((act.live insecure calls).obtained p)
      (sourceCalls ((act.live insecure calls).obtained p) calls) := by
  have hfed : (act.live insecure calls).op.Fed insecure calls := by
    cases act with
    | prewarm dest env => rfl
    | conn env => exact env.live_fed
  have hobtained : (act.live insecure calls).op.obtained { Agent.new 0 with pool := p } =
      (act.live insecure calls).obtained p := by
    cases act <;> rfl
  rw [← hobtained]
  exact hfed.returnedBy _

/-- Every action keeps the pool stocked by the calls of the history. -/
theorem Pool.LiveStocked.serve (hp : p.Wf) (h : p.LiveStocked insecure made)
    (act : ServeAct × List LiveCall) :
    (Pool.liveServe insecure (p, made) act).2.1.LiveStocked insecure
      (Pool.liveServe insecure (p, made) act).2.2 := by
  obtain ⟨obtained, hstocked, hmade⟩ := h
  refine ⟨obtained ++ (act.1.live insecure act.2).obtained p, ?_,
    List.rel_append hmade (act.1.live_returnedBy act.2 p)⟩
  dsimp only [Pool.liveServe]
  cases act.1.live insecure act.2 with
  | prewarm dest env => exact hstocked.maintain hp dest env
  | conn env => exact hstocked.handleConn hp env

/-- The pool of an agent with the live source, at any time. -/
theorem Pool.LiveStocked.trace (insecure : Bool) (depth : Int)
    (acts : List (ServeAct × List LiveCall)) :
    (trace (Pool.liveServe insecure) (poolNew depth, []) acts).2.1.Wf ∧
      (trace (Pool.liveServe insecure) (poolNew depth, []) acts).2.1.LiveStocked insecure
        (trace (Pool.liveServe insecure) (poolNew depth, []) acts).2.2 := by
  refine trace_inv (I := fun x : Pool × List (CString × LiveCall) =>
    x.1.Wf ∧ x.1.LiveStocked insecure x.2) (fun x act h => ?_) acts ?_
  · exact ⟨h.1.serve (act.1.live insecure act.2), h.2.serve h.1 act⟩
  · exact ⟨poolNew_wf depth, [], .of_nil rfl, .nil⟩

/-- A session that `pool_get` returns is one that a call returned for the destination. -/
theorem Pool.LiveStocked.get (hp : p.Wf) (h : p.LiveStocked insecure made) {dest : CString}
    {groupCap : Nat} {now : Int} {g : Got} (hhit : (poolGet p dest groupCap now).ret = some g) :
    ∃ f c, (dest, c) ∈ made ∧ c.fetch insecure dest = some f ∧ g = f.entry.got groupCap := by
  obtain ⟨obtained, hstocked, hmade⟩ := h
  obtain ⟨f, hf, rfl, -⟩ := hstocked.hit hp hhit
  obtain ⟨⟨dest', c⟩, hc, hsource⟩ := exists_partner hmade hf
  obtain rfl : dest = dest' := hsource.dest
  exact ⟨f, c, hc, hsource.fetch, rfl⟩

end Stocked

/-! ## `get` -/

/-- What `cmd_get` shows for a session. -/
def sessionShown (fopenOk : Bool) (dest : CString) (derOut : Option CString) (s : ClientSession) :
    List CmdShow :=
  .stdout (.concat [.lit "destination : ", dest, .lit "\n"]) ::
    groupLines (s.group.getD .empty) s.isPqc ++
      (derPart () none fopenOk derOut s.der s.derLen).shown

/-- What is shown for the DER bytes is the same in both subcommands. -/
theorem derPart_shown {ρ : Type} (file : ρ) (buf : Option ρ) (fopenOk : Bool)
    (derOut : Option CString) (der : List UInt8) (derLen : Int) :
    (derPart file buf fopenOk derOut der derLen).shown =
      (derPart () none fopenOk derOut der derLen).shown := by
  unfold derPart
  cases derOut with
  | none => rfl
  | some path =>
    dsimp only [writeDer]
    split_ifs <;> rfl

/-- `cmd_get` returns 0 only with a session from `uds_get`. -/
theorem getReport_rc_zero {fopenOk : Bool} {sock dest : CString} {derOut : Option CString}
    {g : GetCall} (hg : Fetched ∅ g) (hrc : (getReport fopenOk sock dest derOut g).rc = some 0) :
    ∃ s, g.out = some ⟨udsStatusOk.toNat, some s⟩ ∧
      (getReport fopenOk sock dest derOut g).shown = sessionShown fopenOk dest derOut s := by
  cases hg with
  | none hret _ =>
    simp only [getReport, GetCall.status] at hrc
    split_ifs at hrc <;> simp_all
  | @some s id _ _ =>
    refine ⟨s, rfl, ?_⟩
    unfold sessionShown
    rw [← derPart_shown .file (Option.some (ClientRes.buf id))]
    rfl
  | killed _ => cases hrc

/-- A session that `uds_get` brings from an agent is the one that `pool_get` returns there. -/
theorem udsGetCall_popped {p : Pool} (hp : p.Wf) (env : GetEnv) (server : ConnEnv)
    (sock dest : CString) {s : ClientSession}
    (h : (udsGetCall env sock dest 64
      fun request => (handleConn { server with stream := request } p).wire).out =
        some ⟨udsStatusOk.toNat, some s⟩) :
    ∃ g b, (poolGet p dest 64 server.now).ret = some g ∧ g.der = some b ∧ s = g.client b := by
  rw [udsGetCall_out] at h
  split_ifs at h with hkills hconnects
  · let faults : Faults :=
      ⟨env.writes, env.reads, env.malloc.isSome, server.reads, server.writes, server.mallocOk⟩
    have hanswered := faultyExchange_answered hp faults server.now server.maintain dest 64
    replace h : (faultyExchange p faults server.now server.maintain dest 64).1 =
      ⟨udsStatusOk.toNat, some s⟩ := Option.some.inj h
    generalize faultyExchange p faults server.now server.maintain dest 64 = x at hanswered h
    obtain ⟨out, pool⟩ := x
    subst h
    cases hanswered with
    | missed _ _ hout | refused _ _ _ hout => rcases hout with hout | hout <;> cases hout
    | served _ hhit hder _ hout =>
      rcases hout with hout | hout
      · cases hout
      · cases hout
        exact ⟨_, _, hhit, hder, rfl⟩
  · cases h

/-! ## `fetch` -/

/-- `fetch` takes the arguments of `get`, and `-k` before them. -/
theorem parseArgs_fetch (insecure : Bool) {args : List CString} {derOut : Option CString}
    (h : parseArgs getKind none args = some derOut) :
    parseArgs fetchKind ⟨false, none⟩ ((if insecure then [.lit "-k"] else []) ++ args) =
      some ⟨insecure, derOut⟩ := by
  have hne : CString.lit "-o" ≠ .lit "-k" := by decide +kernel
  have hsim : ∃ o, parseArgs fetchKind ⟨insecure, none⟩ args = some o ∧ o = ⟨insecure, derOut⟩ := by
    refine parseArgs_sim (R := fun derOut (o : FetchArgs) => o = ⟨insecure, derOut⟩) ?_ ?_ rfl h
    · intro w set hk
      unfold getKind at hk
      split at hk <;> cases hk
    · intro w set hk
      unfold getKind at hk
      split_ifs at hk with hw
      cases hk
      refine ⟨fun v o => { o with derOut := some v }, ?_, ?_⟩
      · rw [fetchKind, hw, if_neg hne, if_pos rfl]
      · rintro v s t rfl
        rfl
  obtain ⟨o, hparse, rfl⟩ := hsim
  cases insecure with
  | false => exact hparse
  | true =>
    have hflag : fetchKind (.lit "-k") = .alone fun o => { o with insecure := true } := if_pos rfl
    simp only [if_true, List.cons_append, List.nil_append, parseArgs, hflag]
    exact hparse

/-- The lines for the group tell 0 from other numbers only. -/
theorem groupLines_flag (group : CString) (isPqc : Int) :
    groupLines group (if isPqc ≠ 0 then 1 else 0) = groupLines group isPqc := by
  unfold groupLines
  split <;> simp_all

/-- The client's copy of a session whose group name fits everywhere. -/
theorem Fetch.client_copy {f : Fetch} (h : f.reply.group.strlen < groupMax) :
    (f.entry.got 64).client f.reply.der = ⟨f.reply.der.bytes, f.reply.derLen,
      if f.reply.isPqc ≠ 0 then 1 else 0, some f.reply.group⟩ := by
  have hentry : f.entry.group = f.reply.group := CString.snprintf_of_lt h
  have hgot : (f.entry.got 64).group = some f.reply.group := by
    rw [← hentry]
    exact congrArg some (CString.snprintf_of_lt f.entry_ok.group)
  unfold Got.client
  rw [hgot]
  rfl

/-- Where `live_source` returns a session, `fetch` shows its client's copy, and two lines more. -/
theorem cmdFetch_shown {src : SourceEnv} {insecure : Bool} {dest : CString} {f : Fetch}
    (hlive : (liveSource src insecure dest).reply = some f.reply) (resumable : SslSession → Bool)
    (fopenOk : Bool) (prog cmd : CString) {args : List CString} {derOut : Option CString}
    (hargs : parseArgs getKind none args = some derOut) :
    ∃ host port, (dest.bytes = host.bytes ++ 58 :: port.bytes ∧ 58 ∉ port.bytes) ∧
      let out := cmdFetch src resumable fopenOk
        (prog :: cmd :: host :: port :: ((if insecure then [.lit "-k"] else []) ++ args))
      out.rc = some 0 ∧ out.shown.take 3 ++ out.shown.drop 5 =
        sessionShown fopenOk dest derOut ((f.entry.got 64).client f.reply.der) := by
  obtain ⟨host, port, s, hdest, hrc, hs, -, hder, hlen, hpqc, hgroup, -⟩ := liveSource_some hlive
  obtain ⟨tries, fd, hs', -, -, -, -, hname, -⟩ := sessionFetch_session hs
  have hcut : f.reply.group.strlen < groupMax := by
    rw [hgroup, hname]
    exact CString.strlen_snprintf_lt _ (by decide)
  have hline : CString.concat [.lit "destination : ", host, .lit ":", port, .lit "\n"] =
      .concat [.lit "destination : ", dest, .lit "\n"] := by
    have hcolon : (CString.lit ":").bytes = [58] := by decide +kernel
    apply CString.ext
    simp [hdest.1, hcolon]
  refine ⟨host, port, hdest, ?_⟩
  rw [Fetch.client_copy hcut, hder, hlen, hpqc, hgroup]
  simp only [cmdFetch, parseArgs_fetch insecure hargs, hrc, hs, fetchReport, sessionShown, hline,
    groupLines_flag, derPart_shown SourceRes.file, ne_eq, not_true_eq_false, if_false, true_and]
  rfl

/-! ## The result -/

/-- **`get` shows what `fetch` shows.** Over every sequence of fills and requests of an agent whose
sessions come from `live_source`, and however the calls on both sides go: where `get` for a
destination succeeds, the session was taken from the pool there and then; one of the calls of
`live_source` of this run had returned it, for that destination; and in every environment in which
`live_source` returns it, that of the call among them, `fetch` for the destination's host and port,
with the same arguments and the agent's `-k`, succeeds and shows the same lines, except for those
about resumption and lifetime, and writes the same file. -/
theorem get_agrees_with_fetch (depth : Int) (insecure : Bool)
    (acts : List (ServeAct × List LiveCall)) (p : Pool) (made : List (CString × LiveCall))
    (hrun : (trace (Pool.liveServe insecure) (poolNew depth, []) acts).2 = (p, made))
    (server : ConnEnv) (env : MainEnv)
    (hpeer : env.peer = fun request => (handleConn { server with stream := request } p).wire)
    (prog sock dest : CString) (args : List CString)
    (hrc : (agentMain env (prog :: .lit "get" :: sock :: dest :: args)).rc = some 0) :
    ∃ get, ∃ f : Fetch, ∃ c, agentMain env (prog :: .lit "get" :: sock :: dest :: args) = .get get ∧
      (poolGet p dest 64 server.now).ret = some (f.entry.got 64) ∧
      ((dest, c) ∈ made ∧ (liveSource c.env insecure dest).reply = some f.reply) ∧
      ∀ src, (liveSource src insecure dest).reply = some f.reply →
        ∃ host port fetch, (dest.bytes = host.bytes ++ 58 :: port.bytes ∧ 58 ∉ port.bytes) ∧
          agentMain { env with source := src } (prog :: .lit "fetch" :: host :: port ::
            ((if insecure then [.lit "-k"] else []) ++ args)) = .fetch fetch ∧
          fetch.rc = some 0 ∧ get.shown = fetch.shown.take 3 ++ fetch.shown.drop 5 := by
  have hnames : CString.lit "get" ≠ .lit "fetch" ∧ CString.lit "get" ≠ .lit "serve" := by
    decide +kernel
  have hmain : agentMain env (prog :: .lit "get" :: sock :: dest :: args) =
      .get (cmdGet env.get env.peer env.fopenOk (prog :: .lit "get" :: sock :: dest :: args)) := by
    simp only [agentMain, if_neg hnames.1, if_neg hnames.2, if_true]
  obtain ⟨hwf, hstocked⟩ : p.Wf ∧ p.LiveStocked insecure made := by
    have h := Pool.LiveStocked.trace insecure depth acts
    rwa [hrun] at h
  rw [hmain] at hrc ⊢
  simp only [MainCall.rc, cmdGet] at hrc
  split at hrc
  · cases hrc
  next derOut hargs =>
  obtain ⟨s, hout, hshown⟩ := getReport_rc_zero (udsGetCall_fetched _ _ _ _ _) hrc
  rw [hpeer] at hout
  obtain ⟨g, b, hhit, hder, rfl⟩ := udsGetCall_popped hwf env.get server sock dest hout
  obtain ⟨f, c, hc, hfetch, rfl⟩ := hstocked.get hwf hhit
  cases hder
  have hreply : (liveSource c.env insecure dest).reply = some f.reply := by
    obtain ⟨reply, hreply, rfl⟩ := Option.map_eq_some_iff.1 hfetch
    exact hreply
  refine ⟨_, f, c, rfl, hhit, ⟨hc, hreply⟩, fun src hsrc => ?_⟩
  obtain ⟨host, port, hdest, hrc', hshown'⟩ :=
    cmdFetch_shown hsrc env.resumable env.fopenOk prog (.lit "fetch") hargs
  refine ⟨host, port, _, hdest, by simp only [agentMain, if_true], hrc', ?_⟩
  rw [hshown', ← hshown]
  simp only [cmdGet, hargs]

/-- An agent that was started with one session. -/
def sampleServed : Pool × List (CString × LiveCall) :=
  (trace (Pool.liveServe false) (poolNew 1, [])
    [(.prewarm sampleDest ⟨100, true, []⟩, [⟨sampleSource, 100⟩])]).2

/-- A client that asks it, where no call fails. -/
def sampleMain : MainEnv where
  source := sampleSource
  resumable _ := true
  serve := ⟨true, fun _ => ⟨0, true, []⟩, ⟨none, false, false, [], fun _ _ h => nomatch h⟩⟩
  get := ⟨some 3, true, [], false, [], some 0⟩
  peer request := (handleConn ⟨request, [], [], true, 200, ⟨200, true, []⟩⟩ sampleServed.1).wire
  fopenOk := true

/-- It saves the session to a file, as `fetch` would have done in the agent's place. -/
theorem get_agrees_with_fetch_served :
    let argv := [.lit "ticket-agent", .lit "get", .lit "s", sampleDest, .lit "-o", .lit "f"]
    (agentMain sampleMain argv).rc = some 0 ∧
      ∃ get c host port fetch, agentMain sampleMain argv = .get get ∧
        (sampleDest, c) ∈ sampleServed.2 ∧
        agentMain { sampleMain with source := c.env }
          [.lit "ticket-agent", .lit "fetch", host, port, .lit "-o", .lit "f"] = .fetch fetch ∧
        fetch.rc = some 0 ∧ get.shown = fetch.shown.take 3 ++ fetch.shown.drop 5 := by
  intro argv
  have hrc : (agentMain sampleMain argv).rc = some 0 := by decide +kernel
  obtain ⟨get, f, c, hget, -, ⟨hc, hreply⟩, hfetch⟩ := get_agrees_with_fetch 1 false
    [(.prewarm sampleDest ⟨100, true, []⟩, [⟨sampleSource, 100⟩])] sampleServed.1 sampleServed.2 rfl
    ⟨[], [], [], true, 200, ⟨200, true, []⟩⟩ sampleMain rfl _ _ _ _ hrc
  obtain ⟨host, port, fetch, -, hmain, hrc', hshown⟩ := hfetch c.env hreply
  exact ⟨hrc, get, c, host, port, fetch, hget, hc, hmain, hrc', hshown⟩

end TicketConnect
