import TicketConnect.Agent.SingleUse
import TicketConnect.Lib.Args
import TicketConnect.Uds.Client

/-!
# The agent's process

The model of `serve`: `cmd_serve` (`ticket-agent/main.c`) reads its arguments, fills the pool for
each destination, and runs `uds_serve` (`ticket-agent/uds.c`), which takes one connection after the
other until `accept` fails; then the pool is freed. What the system calls return, what the clients
send and what the source delivers are arguments.

`cmd_serve_frees_all` is about the whole life of the process: the calls it makes are a run of the
agent (`Agent`), so that every DER buffer it ever got is freed once, and the descriptors and the
pool are released on every way out.
-/

namespace TicketConnect

open Lib

/-! ## Arguments -/

/-- What `cmd_serve` takes from its arguments behind the socket's path. -/
structure ServeArgs where
  insecure : Bool
  depth : Int
  dests : List CString
deriving DecidableEq

/-- The settings without any argument. -/
def ServeArgs.default : ServeArgs := ⟨false, 4, []⟩

/-- The branches of `cmd_serve`'s loop: `-k`, `--depth N`, another argument with a dash, and a
destination, which is dropped when there are 64 already. -/
def serveKind (arg : CString) : ArgKind CString ServeArgs :=
  if arg = .lit "-k" then .alone fun o => { o with insecure := true }
  else if arg = .lit "--depth" then .valued fun n o => { o with depth := atoi n }
  else if arg.bytes.head? = some 45 then .refused
  else .alone fun o => if o.dests.length < 64 then { o with dests := o.dests ++ [arg] } else o

/-- The arguments of `cmd_serve`: the socket's path and the settings; `none` for its usage exit. -/
def serveArgs : List CString → Option (CString × ServeArgs)
  | _ :: _ :: sock :: arg :: args =>
    match parseArgs serveKind .default (arg :: args) with
    | none => none
    | some o => if o.dests = [] then none else some (sock, o)
  | _ => none

/-! ## `uds_serve` -/

/-- A resource of the process: the pool, a descriptor, or the socket's name in the file system. -/
inductive ServeRes where
  | pool
  | fd (n : Nat)
  | path
deriving DecidableEq

/-- What `accept` returns: a connection, or an interrupted call. -/
inductive Accept where
  | conn (fd : Nat) (env : ConnEnv)
  | interrupted

/-- What the outside decides during `uds_serve`: the descriptor of the socket, whether it can be
bound and listened on, and what `accept` returns until it fails. The descriptor of a connection is
not that of the socket. -/
structure ServeEnv where
  socket : Option Nat
  bindOk : Bool
  listenOk : Bool
  accepts : List Accept
  fresh : ∀ fd env, Accept.conn fd env ∈ accepts → socket ≠ some fd

/-- How the loop of `uds_serve` ends: the bytes each client was sent, the pool, the buffers freed
and what became of the descriptors. -/
structure LoopOut where
  wires : List (List UInt8)
  pool : Pool
  freed : List Buf
  own : List (Own ServeRes)

/-- The loop of `uds_serve` over the listening socket `lfd`, until `accept` fails. -/
def acceptLoop (lfd : Nat) : List Accept → Pool → LoopOut
  | [], p => ⟨[], p, [], [.use (.fd lfd)]⟩
  | .interrupted :: accepts, p =>
    let r := acceptLoop lfd accepts p
    { r with own := .use (.fd lfd) :: r.own }
  | .conn cfd env :: accepts, p =>
    let c := handleConn env p
    let r := acceptLoop lfd accepts c.pool
    { r with
      wires := c.wire :: r.wires
      freed := c.freed ++ r.freed
      own := .use (.fd lfd) :: .acquire (.fd cfd) :: .use (.fd cfd) :: .release (.fd cfd) :: r.own }

/-- The result of `uds_serve`: its return value, and what its loop did. -/
structure ServeOut where
  rc : Int
  loop : LoopOut

/-- `uds_serve`. Before the loop nothing happens to the pool. -/
def udsServe (env : ServeEnv) (path : CString) (p : Pool) : ServeOut :=
  match env.socket with
  | none => ⟨1, [], p, [], []⟩
  | some lfd =>
    if sunPathLen ≤ path.strlen then ⟨1, [], p, [], [.acquire (.fd lfd), .release (.fd lfd)]⟩
    else if env.bindOk = false then
      ⟨1, [], p, [], [.acquire (.fd lfd), .use (.fd lfd), .release (.fd lfd)]⟩
    else
      -- a socket that is bound has a name, which a failing `listen` leaves behind
      let bound := [.acquire (.fd lfd), .use (.fd lfd), .acquire .path, .use (.fd lfd)]
      if env.listenOk = false then ⟨1, [], p, [], bound ++ [.release (.fd lfd)]⟩
      else
        let r := acceptLoop lfd env.accepts p
        ⟨0, { r with own := bound ++ r.own ++ [.release (.fd lfd), .release .path] }⟩

/-! ## `cmd_serve` -/

/-- What the outside decides during `cmd_serve`: the allocation of the pool, the fill of each
destination, and the server. -/
structure CmdEnv where
  poolOk : Bool
  prewarm : Nat → MaintainEnv
  serve : ServeEnv

/-- The line printed for a destination: `"prewarm     : %s -> %d/%d\n"`. -/
def prewarmLine (dest : CString) (got : Nat) (depth : Int) : CString :=
  (((((CString.lit "prewarm     : ").append dest).append (.lit " -> ")).append (.dec got)).append
    (.lit "/")).append ((CString.dec depth).append (.lit "\n"))

/-- How the loop over the destinations ends: the lines printed, the pool, and the buffers freed. -/
structure Prewarmed where
  lines : List CString
  pool : Pool
  freed : List Buf

/-- The loop of `cmd_serve` over the destinations. -/
def prewarmLoop (depth : Int) : List (CString × MaintainEnv) → Pool → Prewarmed
  | [], p => ⟨[], p, []⟩
  | (dest, env) :: dests, p =>
    let m := poolMaintain p dest env
    let r := prewarmLoop depth dests m.pool
    { r with
      lines := prewarmLine dest m.ret.depth depth :: r.lines
      freed := m.freed ++ r.freed }

/-- The result of `cmd_serve`: its return value, the lines on `stdout`, the bytes each client was
sent, the buffers freed, and what became of the other resources. -/
structure CmdOut where
  rc : Int
  stdout : List CString
  wires : List (List UInt8)
  freed : List Buf
  own : List (Own ServeRes)

/-- The destinations to fill, each with what the source does for it. -/
def CmdEnv.fills (env : CmdEnv) (o : ServeArgs) : List (CString × MaintainEnv) :=
  o.dests.mapIdx fun i dest => (dest, env.prewarm i)

/-- `cmd_serve`. -/
def cmdServe (env : CmdEnv) (argv : List CString) : CmdOut :=
  match serveArgs argv with
  | none => ⟨2, [], [], [], []⟩
  | some (sock, o) =>
    if env.poolOk = false then ⟨1, [], [], [], []⟩
    else
      let w := prewarmLoop o.depth (env.fills o) (poolNew o.depth)
      let r := udsServe env.serve sock w.pool
      { rc := r.rc
        stdout := w.lines ++ [((CString.lit "serving     : ").append sock).append (.lit "\n")]
        wires := r.loop.wires
        freed := w.freed ++ r.loop.freed ++ poolFree r.loop.pool
        own := .acquire .pool :: r.loop.own ++ [.release .pool] }

/-! ## The calls of the process -/

/-- The call that a connection makes. -/
def Accept.ops : Accept → List AgentOp
  | .conn fd env => [.conn fd env]
  | .interrupted => []

/-- The calls of the loop of `uds_serve`, if it is reached. -/
def ServeEnv.ops (env : ServeEnv) (path : CString) : List AgentOp :=
  if env.socket.isSome ∧ path.strlen < sunPathLen ∧ env.bindOk = true ∧ env.listenOk = true then
    env.accepts.flatMap Accept.ops
  else []

/-- The calls that `cmd_serve` makes for its settings. -/
def CmdEnv.ops (env : CmdEnv) (sock : CString) (o : ServeArgs) : List AgentOp :=
  (env.fills o).map (fun x => AgentOp.maintain x.1 x.2) ++ env.serve.ops sock ++ [.free]

/-- The agent of the process, when `cmd_serve` returns. -/
def CmdEnv.agent (env : CmdEnv) (argv : List CString) : Agent :=
  match serveArgs argv with
  | none => .new 0
  | some (sock, o) =>
    if env.poolOk = false then .new 0
    else (Agent.new o.depth).run ((env.ops sock o).flatMap AgentOp.acts)

/-! ## The agent between calls -/

/-- The agent between two calls of the process: it has the pool of the process, it has freed what
the process has, and nobody holds a buffer. -/
structure Agent.Between (a : Agent) (p : Pool) (freed : List Buf) : Prop where
  inv : a.Inv
  pc : a.pc = .idle
  pool : a.pool = p
  freed_eq : a.freed = freed
  held : a.held = []

section Between
variable {a : Agent} {p : Pool} {freed : List Buf}

/-- A new agent. -/
theorem Agent.new_between (depth : Int) : (Agent.new depth).Between (poolNew depth) [] :=
  ⟨Agent.new_inv depth, rfl, rfl, rfl, rfl⟩

/-- A `pool_maintain` of the process is a call of the agent. -/
theorem Agent.Between.maintain (h : a.Between p freed) (dest : CString) (env : MaintainEnv) :
    (a.run (AgentOp.maintain dest env).acts).Between (poolMaintain p dest env).pool
      (freed ++ (poolMaintain p dest env).freed) := by
  have hinv := h.inv.run (AgentOp.maintain dest env).acts
  rw [Agent.run_maintain h.inv.wf h.pc] at hinv ⊢
  obtain ⟨-, -, rfl, rfl, hheld⟩ := h
  exact ⟨hinv, rfl, rfl, rfl, hheld⟩

/-- A connection of the process is a call of the agent. -/
theorem Agent.Between.conn (h : a.Between p freed) (id : Nat) (env : ConnEnv) :
    (a.run (AgentOp.conn id env).acts).Between (handleConn env p).pool
      (freed ++ (handleConn env p).freed) := by
  have hinv := h.inv.run (AgentOp.conn id env).acts
  obtain ⟨hpool, hfreed, hheld, hpc⟩ := Agent.run_conn h.inv h.pc id env
  rw [h.pool] at hpool hfreed
  rw [h.freed_eq] at hfreed
  exact ⟨hinv, hpc, hpool, hfreed, hheld.trans h.held⟩

/-- The fill of the destinations. -/
theorem Agent.Between.prewarm (depth : Int) : ∀ (fills : List (CString × MaintainEnv)) {a : Agent}
    {p : Pool} {freed : List Buf}, a.Between p freed →
    (a.run ((fills.map fun x => AgentOp.maintain x.1 x.2).flatMap AgentOp.acts)).Between
      (prewarmLoop depth fills p).pool (freed ++ (prewarmLoop depth fills p).freed)
  | [], a, p, freed, h => by simpa [prewarmLoop] using h
  | (dest, env) :: fills, a, p, freed, h => by
    have ih := Agent.Between.prewarm depth fills (h.maintain dest env)
    rw [List.append_assoc, ← Agent.run_append] at ih
    simpa [prewarmLoop] using ih

/-- The connections of `uds_serve`. -/
theorem Agent.Between.accepts (lfd : Nat) : ∀ (accepts : List Accept) {a : Agent} {p : Pool}
    {freed : List Buf}, a.Between p freed →
    (a.run ((accepts.flatMap Accept.ops).flatMap AgentOp.acts)).Between
      (acceptLoop lfd accepts p).pool (freed ++ (acceptLoop lfd accepts p).freed)
  | [], a, p, freed, h => by simpa [acceptLoop] using h
  | .interrupted :: accepts, a, p, freed, h => by
    simpa [acceptLoop, Accept.ops] using Agent.Between.accepts lfd accepts h
  | .conn cfd env :: accepts, a, p, freed, h => by
    have ih := Agent.Between.accepts lfd accepts (h.conn cfd env)
    rw [List.append_assoc, ← Agent.run_append] at ih
    simpa [acceptLoop, Accept.ops] using ih

end Between

/-! ## The ways through `uds_serve` -/

/-- What is held while the socket is listened on. -/
def listening (lfd : Nat) : Finset ServeRes := {.fd lfd, .path}

/-- The events up to a socket that is listened on. -/
theorem bound_owns (lfd : Nat) :
    Owns ∅ [.acquire (.fd lfd), .use (.fd lfd), .acquire .path, .use (.fd lfd)] (listening lfd) := by
  rw [listening, Finset.pair_comm]
  refine .cons (.acquire (Finset.notMem_empty _)) (.cons (.use (by simp)) ?_)
  exact .cons (.acquire (by simp)) (.use (by simp))

/-- `uds_serve` fails before it takes a connection, and leaves at most the socket's name; or it
runs its loop. -/
theorem udsServe_cases (env : ServeEnv) (path : CString) (p : Pool) :
    (env.ops path = [] ∧ ∃ own Q, udsServe env path p = ⟨1, [], p, [], own⟩ ∧
      Owns ∅ own Q ∧ Q ⊆ {.path} ∧ ∀ e ∈ own, e.res ≠ .pool) ∨
    ∃ lfd, env.socket = some lfd ∧ env.ops path = env.accepts.flatMap Accept.ops ∧
      udsServe env path p = ⟨0, { acceptLoop lfd env.accepts p with
        own := [.acquire (.fd lfd), .use (.fd lfd), .acquire .path, .use (.fd lfd)] ++
          (acceptLoop lfd env.accepts p).own ++ [.release (.fd lfd), .release .path] }⟩ := by
  cases hs : env.socket with
  | none =>
    exact .inl ⟨by simp [ServeEnv.ops, hs], [], ∅, by simp [udsServe, hs], .nil, by simp, by simp⟩
  | some lfd =>
    have hopen : Owns ∅ [Own.acquire (ServeRes.fd lfd)] {.fd lfd} := .acquire (Finset.notMem_empty _)
    have hclose : Owns {ServeRes.fd lfd} [.release (.fd lfd)] ∅ := .release (Finset.notMem_empty _)
    by_cases hlong : sunPathLen ≤ path.strlen
    · refine .inl ⟨by simp [ServeEnv.ops, Nat.not_lt.2 hlong], _, ∅,
        by simp only [udsServe, hs, if_pos hlong], .cons hopen hclose, by simp, by simp [Own.res]⟩
    cases hbind : env.bindOk with
    | false =>
      refine .inl ⟨by simp [ServeEnv.ops, hbind], _, ∅,
        by simp only [udsServe, hs, if_neg hlong, hbind, if_true]; rfl, ?_, by simp,
        by simp [Own.res]⟩
      exact .cons hopen (.cons (.use (Finset.mem_singleton_self _)) hclose)
    | true =>
    cases hlisten : env.listenOk with
    | false =>
      refine .inl ⟨by simp [ServeEnv.ops, hlisten], _, {.path},
        by simp only [udsServe, hs, if_neg hlong, hbind, hlisten, if_true, Bool.true_eq_false,
          if_false]; rfl, ?_, by simp, by simp [Own.res]⟩
      exact (bound_owns lfd).append (.release (by simp))
    | true =>
      refine .inr ⟨lfd, rfl, ?_, ?_⟩
      · simp [ServeEnv.ops, hs, hbind, hlisten, Nat.not_le.1 hlong]
      · simp only [udsServe, hs, if_neg hlong, hbind, hlisten, Bool.true_eq_false, if_false]

/-- The loop closes every connection it takes. -/
theorem acceptLoop_owns (lfd : Nat) : ∀ (accepts : List Accept) (p : Pool),
    (∀ fd env, Accept.conn fd env ∈ accepts → lfd ≠ fd) →
    Owns (listening lfd) (acceptLoop lfd accepts p).own (listening lfd)
  | [], _, _ => .use (by simp [listening])
  | .interrupted :: accepts, p, h =>
    .cons (.use (by simp [listening]))
      (acceptLoop_owns lfd accepts p fun fd env hmem => h fd env (.tail _ hmem))
  | .conn cfd env :: accepts, p, h => by
    have hne : lfd ≠ cfd := h cfd env (.head _)
    have hnot : ServeRes.fd cfd ∉ listening lfd := by simp [listening, hne.symm]
    have ih := acceptLoop_owns lfd accepts (handleConn env p).pool
      fun fd env hmem => h fd env (.tail _ hmem)
    refine .cons (.use (by simp [listening])) (.cons (.acquire hnot) ?_)
    exact .cons (.use (Finset.mem_insert_self _ _)) (.cons (.release hnot) ih)

/-- It handles descriptors only. -/
theorem acceptLoop_res (lfd : Nat) : ∀ (accepts : List Accept) (p : Pool),
    ∀ e ∈ (acceptLoop lfd accepts p).own, ∃ n, e.res = .fd n
  | [], _, e, he => ⟨lfd, by rw [List.mem_singleton.1 he]; rfl⟩
  | .interrupted :: accepts, p, e, he => by
    rcases List.mem_cons.1 he with rfl | he
    · exact ⟨lfd, rfl⟩
    · exact acceptLoop_res lfd accepts p e he
  | .conn cfd env :: accepts, p, e, he => by
    simp only [acceptLoop, List.mem_cons] at he
    rcases he with rfl | rfl | rfl | rfl | he
    · exact ⟨lfd, rfl⟩
    · exact ⟨cfd, rfl⟩
    · exact ⟨cfd, rfl⟩
    · exact ⟨cfd, rfl⟩
    · exact acceptLoop_res lfd accepts _ e he

/-- `uds_serve` releases what it acquires, beside the pool; where it fails, the socket's name may
stay. -/
theorem udsServe_owns (env : ServeEnv) (path : CString) (p : Pool) :
    ∃ Q, Owns {.pool} (udsServe env path p).loop.own (Q ∪ {.pool}) ∧ Q ⊆ {.path} ∧
      ((udsServe env path p).rc = 0 → Q = ∅) := by
  have hframe : ∀ {own Q}, Owns ∅ own Q → (∀ e ∈ own, e.res ≠ ServeRes.pool) →
      Owns {.pool} own (Q ∪ {.pool}) := by
    intro own Q hown hres
    have hpool := hown.frame (R := {.pool}) fun e he hmem =>
      hres e he (Finset.mem_singleton.1 hmem)
    rwa [Finset.empty_union] at hpool
  rcases udsServe_cases env path p with ⟨-, own, Q, hout, hown, hQ, hres⟩ | ⟨lfd, hsocket, -, hout⟩
  · rw [hout]
    exact ⟨Q, hframe hown hres, hQ, fun h => by cases h⟩
  · rw [hout]
    refine ⟨∅, hframe ?_ ?_, by simp, fun _ => rfl⟩
    · have hloop := acceptLoop_owns lfd env.accepts p fun fd e hmem heq =>
        env.fresh fd e hmem (by rw [hsocket, heq])
      have hfd : Owns (listening lfd) [.release (.fd lfd)] {.path} := .release (by simp)
      have hpath : Owns {ServeRes.path} [.release .path] ∅ := .release (Finset.notMem_empty _)
      exact ((bound_owns lfd).append hloop).append (.cons hfd hpath)
    · intro e he
      simp only [List.mem_append, List.mem_cons, List.not_mem_nil, or_false] at he
      rcases he with ((rfl | rfl | rfl | rfl) | he) | rfl | rfl
      case inl.inr =>
        obtain ⟨n, hn⟩ := acceptLoop_res lfd env.accepts p e he
        rw [hn]
        exact ServeRes.noConfusion
      all_goals exact ServeRes.noConfusion

/-- The connections of `uds_serve` are calls of the agent. -/
theorem Agent.Between.serve {a : Agent} {p : Pool} {freed : List Buf} (h : a.Between p freed)
    (env : ServeEnv) (path : CString) :
    (a.run ((env.ops path).flatMap AgentOp.acts)).Between (udsServe env path p).loop.pool
      (freed ++ (udsServe env path p).loop.freed) := by
  rcases udsServe_cases env path p with ⟨hops, own, Q, hout, -⟩ | ⟨lfd, -, hops, hout⟩
  · rw [hops, hout]
    simpa using h
  · rw [hops, hout]
    exact h.accepts lfd env.accepts

/-! ## The life of the process -/

/-- `pool_free` closes the agent, and frees what is in the pool. -/
theorem Agent.Between.free {a : Agent} {p : Pool} {freed : List Buf} (h : a.Between p freed) :
    let a' := a.run (AgentOp.free).acts
    a'.freed = freed ++ poolFree p ∧ a'.held = [] ∧ a'.freed.Perm a'.made := by
  intro a'
  have hrun : a' = { a with
      pool := { a.pool with dests := [] }
      freed := a.freed ++ poolFree a.pool
      pc := .closed } := by
    simp only [a', AgentOp.acts, Agent.run_cons, Agent.run_nil, Agent.step, h.pc]
  have hinv : a'.Inv := h.inv.run _
  have hheld : a'.held = [] := by rw [hrun]; exact h.held
  refine ⟨by rw [hrun, h.freed_eq, h.pool], hheld, List.perm_iff_count.2 fun b => ?_⟩
  -- no slot is live and nobody holds a buffer, so all that was made is freed
  have htotal := hinv.total b
  have hlive : a'.pool.liveBufs = [] := by rw [hrun]; rfl
  simpa [hlive, Agent.heldBufs, hheld] using htotal

/-- `cmd_serve` releases what it acquires, except the name of a socket where it fails. -/
theorem cmdServe_owns (env : CmdEnv) (argv : List CString) :
    ∃ Q, Owns ∅ (cmdServe env argv).own Q ∧ Q ⊆ {.path} ∧ ((cmdServe env argv).rc = 0 → Q = ∅) := by
  unfold cmdServe
  split
  · exact ⟨∅, .nil, by simp, fun _ => rfl⟩
  next sock o _ =>
  split
  · exact ⟨∅, .nil, by simp, fun _ => rfl⟩
  obtain ⟨Q, hown, hQ, hrc⟩ := udsServe_owns env.serve sock
    (prewarmLoop o.depth (env.fills o) (poolNew o.depth)).pool
  have hnew : Owns ∅ [Own.acquire ServeRes.pool] {.pool} := .acquire (Finset.notMem_empty _)
  have hpool : ServeRes.pool ∉ Q := fun hmem => by
    cases Finset.mem_singleton.1 (hQ hmem)
  have hfree : Owns (Q ∪ {.pool}) [.release .pool] Q := by
    rw [Finset.union_comm, ← Finset.insert_eq]
    exact .release hpool
  exact ⟨Q, (hnew.cons hown).append hfree, hQ, hrc⟩

/-- The buffers that `cmd_serve` frees are those of its run of the agent, which frees each one that
the source delivered. -/
theorem cmdServe_freed (env : CmdEnv) (argv : List CString) :
    let a := env.agent argv
    (cmdServe env argv).freed = a.freed ∧ a.freed.Perm a.made ∧ a.held = [] := by
  intro a
  cases hargs : serveArgs argv with
  | none =>
    simp only [a, cmdServe, CmdEnv.agent, hargs]
    exact ⟨rfl, .nil, rfl⟩
  | some x =>
    obtain ⟨sock, o⟩ := x
    cases hpool : env.poolOk with
    | false =>
      simp only [a, cmdServe, CmdEnv.agent, hargs, hpool, if_true]
      exact ⟨rfl, .nil, rfl⟩
    | true =>
      simp only [a, cmdServe, CmdEnv.agent, hargs, hpool, Bool.true_eq_false, if_false]
      have hfills := (Agent.new_between o.depth).prewarm o.depth (env.fills o)
      obtain ⟨hfreed, hheld, hperm⟩ := (hfills.serve env.serve sock).free
      simp only [CmdEnv.ops, List.flatMap_append, List.flatMap_singleton, Agent.run_append]
      exact ⟨hfreed.symm, hperm, hheld⟩

/-- **The process frees everything it got.** Over every command line, every outcome of every system
call and allocation, every source and all that the clients send, however their connections end: the
calls `cmd_serve` makes are a run of the agent, and when it returns, the buffers it has freed are
those the source ever delivered to it, each once; and every descriptor it opened and the pool are
released once, after their last use, with nothing left but the name of a socket that could not be
listened on, where it fails. -/
theorem cmd_serve_frees_all (env : CmdEnv) (argv : List CString) :
    let out := cmdServe env argv
    let a := env.agent argv
    out.freed = a.freed ∧ a.freed.Perm a.made ∧ a.held = [] ∧
      ∃ Q, Owns ∅ out.own Q ∧ Q ⊆ {.path} ∧ (out.rc = 0 → Q = ∅) := by
  obtain ⟨hfreed, hperm, hheld⟩ := cmdServe_freed env argv
  exact ⟨hfreed, hperm, hheld, cmdServe_owns env argv⟩

end TicketConnect
