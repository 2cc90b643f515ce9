import TicketConnect.Pool.Refine
import TicketConnect.Uds.Model

/-!
# The agent as a machine over its buffers

The agent runs one function at a time, but a DER buffer changes hands inside `pool_maintain` and
`handle_conn`, not only between calls. `AgentAct` cuts the functions at these points: the eviction
before the refill loop, each successful source call, `handle_conn` up to its `pool_get`, and its
response. `AgentOp.acts` lists the steps of a call, and `Agent.run_maintain` and `Agent.run_conn`
show that the steps compute what the function computes; the other calls are one step. The ledger
fields record every buffer the source returned, every hand-over and every `free`.
-/

namespace TicketConnect

open Lib

/-- Who `pool_get` gave a buffer to: a direct caller, or `handle_conn` for a connection. -/
inductive Holder where
  | caller (id : Nat)
  | conn (id : Nat)
deriving DecidableEq

/-- Where the agent's thread is: between calls, before a connection's refill, in the refill loop,
in `handle_conn` with a session in hand, or past `pool_free`. -/
inductive AgentPc where
  | idle
  | refill (dest : CString)
  | filling (dest : CString)
  | serving (conn : Nat) (dest : CString) (got : Got)
  | closed
deriving DecidableEq

/-- The agent: its pool, its place in the code, and the ledger of its buffers. -/
structure Agent where
  pool : Pool
  pc : AgentPc
  made : List Buf
  held : List (Holder × Buf)
  freed : List Buf
  handed : List (Holder × Buf)
  written : List (Nat × Buf)

/-- One step of the agent, with what the outside decides in it. -/
inductive AgentAct where
  | maintain (dest : CString) (now : Int) (allocOk : Bool)
  | fetch (f : Fetch)
  | filled
  | depth (dest : CString) (now : Int)
  | get (caller : Nat) (dest : CString) (groupCap : Nat) (now : Int)
  | release (caller : Nat) (b : Buf)
  | connGet (conn : Nat) (stream : List UInt8) (reads : List IoEv) (now : Int)
  | connRespond (mallocOk : Bool)
  | refill (now : Int) (allocOk : Bool)
  | free

namespace Agent

/-- A new agent. -/
def new (targetDepth : Int) : Agent := ⟨poolNew targetDepth, .idle, [], [], [], [], []⟩

/-- `pool_maintain` up to its loop. -/
def startMaintain (a : Agent) (dest : CString) (now : Int) (allocOk : Bool) : Agent :=
  match destIntern allocOk a.pool dest with
  | none => { a with pc := .idle }
  | some (d, p) =>
    { a with
      pool := p.put (evictExpired now d).1
      freed := a.freed ++ (evictExpired now d).2
      pc := .filling dest }

/-- One round of the refill loop, with a successful source call. -/
def fetch (a : Agent) (dest : CString) (f : Fetch) : Agent :=
  match destFind a.pool dest with
  | none => a
  | some d =>
    if d.count < a.pool.targetDepth then
      { a with pool := a.pool.put (d.push f.entry), made := a.made ++ [f.reply.der] }
    else a

/-- A `pool_get`, whose buffer goes to `h`. -/
def take (a : Agent) (h : Holder) (dest : CString) (groupCap : Nat) (now : Int) : Agent :=
  let g := poolGet a.pool dest groupCap now
  let bufs := (g.ret.bind (·.der)).toList.map (h, ·)
  { a with
    pool := g.pool
    freed := a.freed ++ g.freed
    held := a.held ++ bufs
    handed := a.handed ++ bufs }

/-- A holder frees its buffer. -/
def giveBack (a : Agent) (h : Holder) (b : Buf) : Agent :=
  if (h, b) ∈ a.held then { a with held := a.held.erase (h, b), freed := a.freed ++ [b] } else a

/-- One step. An action that does not belong to the agent's place in the code changes nothing. -/
def step (a : Agent) (act : AgentAct) : Agent :=
  match a.pc, act with
  | .idle, .maintain dest now allocOk => a.startMaintain dest now allocOk
  | .refill dest, .refill now allocOk => a.startMaintain dest now allocOk
  | .filling dest, .fetch f => a.fetch dest f
  | .filling _, .filled => { a with pc := .idle }
  | .idle, .depth dest now =>
    let r := poolDepth a.pool dest now
    { a with pool := r.pool, freed := a.freed ++ r.freed }
  | .idle, .get caller dest groupCap now => a.take (.caller caller) dest groupCap now
  | _, .release caller b => a.giveBack (.caller caller) b
  | .idle, .connGet conn stream reads now =>
    match readRequest reads stream with
    | .closed | .malformed => a
    | .get dest =>
      let pc := match (poolGet a.pool dest 64 now).ret with
        | none => .refill dest
        | some got => .serving conn dest got
      { a.take (.conn conn) dest 64 now with pc }
  | .serving conn dest got, .connRespond mallocOk =>
    match got.der with
    | none => { a with pc := if mallocOk then .refill dest else .idle }
    | some b =>
      -- the response carries the buffer's bytes to this connection, also when the write fails
      let a := if mallocOk then { a with written := a.written ++ [(conn, b)], pc := .refill dest }
        else { a with pc := .idle }
      a.giveBack (.conn conn) b
  | .idle, .free =>
    { a with pool := { a.pool with dests := [] }, freed := a.freed ++ poolFree a.pool, pc := .closed }
  | _, _ => a

/-- The state after a list of steps. -/
def run (a : Agent) (acts : List AgentAct) : Agent := acts.foldl step a

end Agent

/-! ## Whole calls -/

/-- One call of the agent's interface. `release` is a caller freeing the buffer `pool_get` gave it,
`free` the final `pool_free`. -/
inductive AgentOp where
  | maintain (dest : CString) (env : MaintainEnv)
  | depth (dest : CString) (now : Int)
  | get (caller : Nat) (dest : CString) (groupCap : Nat) (now : Int)
  | release (caller : Nat) (b : Buf)
  | conn (id : Nat) (env : ConnEnv)
  | free

/-- The steps of a call. -/
def AgentOp.acts : AgentOp → List AgentAct
  | .maintain dest env =>
    .maintain dest env.now env.allocOk :: env.fetches.map .fetch ++ [.filled]
  | .depth dest now => [.depth dest now]
  | .get caller dest groupCap now => [.get caller dest groupCap now]
  | .release caller b => [.release caller b]
  | .conn id env =>
    .connGet id env.stream env.reads env.now :: .connRespond env.mallocOk ::
      .refill env.maintain.now env.maintain.allocOk :: env.maintain.fetches.map .fetch ++ [.filled]
  | .free => [.free]

/-- The sessions the source delivers during a call. -/
def AgentOp.fetches : AgentOp → List Fetch
  | .maintain _ env => env.fetches
  | .conn _ env => env.maintain.fetches
  | _ => []

end TicketConnect
