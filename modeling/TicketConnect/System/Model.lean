import TicketConnect.Agent.SingleUse
import TicketConnect.Freeze.Events
import TicketConnect.Pool.Lifetime
import TicketConnect.Uds.Faults

/-!
# The node and the agent together

The whole system on one node: the threads that call `SSL_connect` and the daemon that handles their
events (`Freeze.Model`), and the agent that serves sessions (`Agent.Model`). The two processes meet
in `uds_get`, which `on_event` calls for the one destination the daemon is configured with. All
else interleaves freely: the daemon's other steps, the threads, and the agent's calls for anybody,
among them connections of other clients that may send any bytes.

`System` also has a history: the events (`NodeLog`), the source calls that succeeded, with the
destination they were made for, and the sessions that `on_event` passed to `inject_session`.
-/

namespace TicketConnect

open Lib

/-! ## The source calls of an agent's call -/

/-- The source calls that succeed in a call of the agent, each with its destination. -/
def AgentOp.obtained (a : Agent) (op : AgentOp) : List (CString × Fetch) :=
  if a.pc = .idle then
    match op with
    | .maintain dest env => (poolMaintain a.pool dest env).ret.used.map (dest, ·)
    | .conn _ env => connObtained env a.pool
    | .depth .. | .get .. | .release .. | .free => []
  else []

/-! ## The system -/

/-- What the outside decides in one `uds_get` of the daemon: whether it reaches the agent, how the
calls of both sides go, and the agent's clock and refill. -/
structure AskEnv where
  reach : Bool
  faults : Faults
  now : Int
  maintain : MaintainEnv

/-- The connection that `uds_get` makes, if it makes one. -/
def AskEnv.conn (env : AskEnv) (dest : CString) (id : Nat) : Option AgentOp :=
  if env.reach = false ∨ dest.strlen = 0 ∨ udsDestMax < dest.strlen then none
  else some (.conn id (env.faults.connEnv env.now env.maintain (env.faults.request dest)))

/-- A session that `on_event` passes to `inject_session`: the record it handles, what `uds_get`
stored, and the agent's clock at its `pool_get`. -/
structure Install where
  record : Record
  session : ClientSession
  now : Int

/-- The node, the agent and the history of the run. -/
structure System where
  node : Node
  log : NodeLog
  agent : Agent
  obtained : List (CString × Fetch)
  installs : List Install

/-- A step: of the node, other than the return of `uds_get`; a call of the agent; or `uds_get`. -/
inductive SystemAct where
  | node (act : NodeAct)
  | agent (op : AgentOp)
  | ask (id : Nat) (env : AskEnv)

namespace System

/-- Nothing has happened yet. -/
def init (targetDepth : Int) : System := ⟨Node.init, .empty, Agent.new targetDepth, [], []⟩

/-- A call of the agent. -/
def call (s : System) (op : AgentOp) : System :=
  { s with agent := s.agent.run op.acts, obtained := s.obtained ++ op.obtained s.agent }

/-- What `uds_get` returns to the daemon. -/
def asked (s : System) (dest : CString) (env : AskEnv) : ClientOut :=
  if env.reach = true ∧ s.agent.pc = .idle then
    (faultyExchange s.agent.pool env.faults env.now env.maintain dest 64).1
  else ⟨-1, none⟩

/-- The installation that the return of `uds_get` leads to. -/
def newInstall (n : Node) (out : ClientOut) (now : Int) : List Install :=
  match n.daemon with
  | .installing r => out.session.toList.map (⟨r, ·, now⟩)
  | _ => []

/-- One step of the system, `none` when it is not enabled. -/
def step (probe : Probe) (dest : CString) (s : System) : SystemAct → Option System
  | .node (.reply _) => none
  | .node act =>
    (s.node.step probe act).map fun n => { s with node := n, log := s.log.note probe s.node act }
  | .agent op => some (s.call op)
  | .ask id env =>
    let out := s.asked dest env
    (s.node.step probe (.reply out.ret)).map fun n =>
      { (env.conn dest id).elim s s.call with
        node := n
        log := s.log.note probe s.node (.reply out.ret)
        installs := s.installs ++ newInstall n out env.now }

end System

/-- The calls of the agent in a step. -/
def SystemAct.agentOps (dest : CString) : SystemAct → List AgentOp
  | .node _ => []
  | .agent op => [op]
  | .ask id env => (env.conn dest id).toList

end TicketConnect
