import TicketConnect.Agent.Ledger

/-!
# The steps of a call compute the call

The steps of `AgentOp.acts`, taken one after the other from an idle agent, leave the pool that the
source's function leaves and free the buffers that it frees (`run_maintain`, `run_conn`; the other
calls are one step). So a fact about every state between the steps is a fact about every moment
inside `pool_maintain` and `handle_conn`.
-/

namespace TicketConnect

open Lib

namespace Agent

@[simp] theorem run_nil (a : Agent) : a.run [] = a := rfl

@[simp] theorem run_cons (a : Agent) (act : AgentAct) (acts : List AgentAct) :
    a.run (act :: acts) = (a.step act).run acts := rfl

theorem run_append (a : Agent) (as bs : List AgentAct) : a.run (as ++ bs) = (a.run as).run bs :=
  List.foldl_append

end Agent

/-! ## The refill loop -/

/-- Writing a found node back changes nothing. -/
theorem putDest_self {d : PoolDest} : ∀ {ds : List PoolDest},
    ds.find? (·.dest = d.dest) = some d → putDest d ds = ds
  | [], h => by cases h
  | x :: xs, h => by
    by_cases hx : x.dest = d.dest
    · simp only [List.find?_cons, hx, decide_true, Option.some.injEq] at h
      simp [putDest, h]
    · simp only [List.find?_cons, decide_eq_false hx] at h
      simp [putDest, hx, putDest_self h]

/-- The second of two writes to one node wins. -/
theorem putDest_putDest {d d' : PoolDest} (hd : d'.dest = d.dest) : ∀ ds : List PoolDest,
    putDest d' (putDest d ds) = putDest d' ds
  | [] => rfl
  | x :: xs => by
    by_cases hx : x.dest = d.dest
    · simp [putDest, hx, hd]
    · simp [putDest, hx, hd, putDest_putDest hd xs]

/-- The refill loop does nothing at a full node. -/
theorem poolFill_full {depth : Nat} {d : PoolDest} (h : ¬ d.count < depth) (fs : List Fetch) :
    poolFill depth d fs = ⟨d, [], false⟩ := by
  cases fs with
  | nil => simp [poolFill, h]
  | cons f fs => rw [poolFill, if_neg h]

/-- The refill loop stays with its node. -/
theorem poolFill_dest (depth : Nat) : ∀ (fs : List Fetch) (d : PoolDest),
    (poolFill depth d fs).dest.dest = d.dest
  | [], _ => rfl
  | f :: fs, d => by
    unfold poolFill
    split
    · exact poolFill_dest depth fs (d.push f.entry)
    · rfl

/-- The steps of the refill loop compute the loop. -/
theorem Agent.run_fetch {dest : CString} : ∀ (fs : List Fetch) {a : Agent} {d : PoolDest},
    a.pc = .filling dest → destFind a.pool dest = some d →
    a.run (fs.map .fetch) =
      { a with
        pool := a.pool.put (poolFill a.pool.targetDepth d fs).dest
        made := a.made ++ (poolFill a.pool.targetDepth d fs).used.map (·.reply.der) }
  | [], a, d, _, hf => by
    obtain ⟨-, rfl⟩ := destFind_some hf
    have : a.pool.put d = a.pool := by rw [Pool.put, putDest_self hf]
    simp [poolFill, this]
  | f :: fs, a, d, hpc, hf => by
    have hkey := (destFind_some hf).2
    have hf' : destFind a.pool (d.push f.entry).dest = some d := hkey ▸ hf
    have hstep : a.step (.fetch f) = a.fetch dest f := by simp only [step, hpc]
    rw [List.map_cons, run_cons, hstep, fetch, hf]
    dsimp only
    by_cases hc : d.count < a.pool.targetDepth
    · have hfind : destFind (a.pool.put (d.push f.entry)) dest = some (d.push f.entry) := by
        rw [destFind_put hf', if_pos (by exact hkey)]
      have ih := run_fetch fs
        (a := { a with pool := a.pool.put (d.push f.entry), made := a.made ++ [f.reply.der] })
        hpc hfind
      rw [if_pos hc, ih, poolFill, if_pos hc]
      have hdest := poolFill_dest a.pool.targetDepth fs (d.push f.entry)
      simp [Pool.put, putDest_putDest hdest]
    · rw [if_neg hc, run_fetch fs hpc hf, poolFill_full hc, poolFill_full hc]

/-! ## `pool_maintain` -/

/-- The steps of a refill that do not belong to the agent's place are skipped. -/
theorem Agent.run_fetch_idle {a : Agent} (hpc : a.pc = .idle) (fs : List Fetch) :
    a.run (fs.map .fetch ++ [.filled]) = a := by
  induction fs with
  | nil => simp [step, hpc]
  | cons f fs ih =>
    have hstep : a.step (.fetch f) = a := by simp only [step, hpc]
    rw [List.map_cons, List.cons_append, run_cons, hstep, ih]

/-- The agent after a `pool_maintain`. -/
def Agent.maintained (a : Agent) (dest : CString) (env : MaintainEnv) : Agent :=
  { a with
    pool := (poolMaintain a.pool dest env).pool
    freed := a.freed ++ (poolMaintain a.pool dest env).freed
    made := a.made ++ (poolMaintain a.pool dest env).ret.used.map (·.reply.der)
    pc := .idle }

/-- The steps of a refill compute `pool_maintain`. -/
theorem Agent.run_startMaintain {a : Agent} (hp : a.pool.Wf) (dest : CString) (env : MaintainEnv) :
    (a.startMaintain dest env.now env.allocOk).run (env.fetches.map .fetch ++ [.filled]) =
      a.maintained dest env := by
  unfold startMaintain maintained
  cases hi : destIntern env.allocOk a.pool dest with
  | none =>
    dsimp only
    rw [run_fetch_idle rfl, poolMaintain_null hi]
    simp
  | some x =>
    obtain ⟨d, p⟩ := x
    have hin := destIntern_some hp hi
    have hkey := (destFind_some hin.find).2
    have hfind : destFind (p.put (evictExpired env.now d).1) dest =
        some (evictExpired env.now d).1 := by
      have hf : destFind p (evictExpired env.now d).1.dest = some d := hkey ▸ hin.find
      rw [destFind_put hf, if_pos (by exact hkey)]
    have hdest := poolFill_dest p.targetDepth env.fetches (evictExpired env.now d).1
    dsimp only
    rw [run_append, run_fetch _ rfl hfind]
    simp [step, poolMaintain, hi, Pool.put, putDest_putDest hdest]

/-- **`pool_maintain`, step by step.** -/
theorem Agent.run_maintain {a : Agent} (hp : a.pool.Wf) (hpc : a.pc = .idle) (dest : CString)
    (env : MaintainEnv) :
    a.run (AgentOp.maintain dest env).acts = a.maintained dest env := by
  have hstep : a.step (.maintain dest env.now env.allocOk) =
      a.startMaintain dest env.now env.allocOk := by simp only [step, hpc]
  rw [AgentOp.acts, List.cons_append, run_cons, hstep, run_startMaintain hp]

/-! ## `handle_conn` -/

/-- A hit of a well-formed pool hands out a buffer. -/
theorem poolGet_der {p : Pool} (hp : p.Wf) {dest : CString} {groupCap : Nat} {now : Int} {got : Got}
    (h : (poolGet p dest groupCap now).ret = some got) : ∃ b, got.der = some b := by
  rw [(poolGet_spec hp dest groupCap now).1] at h
  obtain ⟨e, he, rfl⟩ := Option.map_eq_some_iff.1 h
  obtain ⟨b, hb, -⟩ := (hp.ok_of_mem_kept (List.mem_of_getLast? he)).der
  exact ⟨b, hb⟩

/-- The buffer a connection got is the only one a connection holds, so its `free` leaves what was
held before. -/
theorem Agent.Inv.giveBack_conn {a a' : Agent} (h : a.Inv) (hpc : a.pc = .idle) {c : Nat} {b : Buf}
    (hheld : a'.held = a.held ++ [(Holder.conn c, b)]) :
    a'.giveBack (.conn c) b = { a' with held := a.held, freed := a'.freed ++ [b] } := by
  have hnot : (Holder.conn c, b) ∉ a.held := by
    intro hm
    have : (Holder.conn c, b) ∈ a.held.filter (·.1.isConn) := List.mem_filter.2 ⟨hm, rfl⟩
    rw [h.conns, hpc] at this
    cases this
  rw [giveBack, hheld, if_pos (by simp), List.erase_append_right _ hnot]
  simp

/-- The steps behind the request, at a place they do not belong to, are skipped. -/
theorem Agent.run_conn_idle {a : Agent} (hpc : a.pc = .idle) (now : Int) (allocOk : Bool)
    (fs : List Fetch) : (a.step (.refill now allocOk)).run (fs.map .fetch ++ [.filled]) = a := by
  have hstep : a.step (.refill now allocOk) = a := by simp only [step, hpc]
  rw [hstep, run_fetch_idle hpc]

/-- The refill at the end of `handle_conn` is a `pool_maintain`. -/
theorem Agent.run_refill {a : Agent} (hp : a.pool.Wf) {dest : CString} (hpc : a.pc = .refill dest)
    (env : MaintainEnv) :
    (a.step (.refill env.now env.allocOk)).run (env.fetches.map .fetch ++ [.filled]) =
      a.maintained dest env := by
  have hstep : a.step (.refill env.now env.allocOk) =
      a.startMaintain dest env.now env.allocOk := by simp only [step, hpc]
  rw [hstep, run_startMaintain hp]

/-- **`handle_conn`, step by step.** -/
theorem Agent.run_conn {a : Agent} (h : a.Inv) (hpc : a.pc = .idle) (id : Nat) (env : ConnEnv) :
    let a' := a.run (AgentOp.conn id env).acts
    let out := handleConn env a.pool
    a'.pool = out.pool ∧ a'.freed = a.freed ++ out.freed ∧ a'.held = a.held ∧ a'.pc = .idle := by
  intro a' out
  have ha' : a' = (((a.step (.connGet id env.stream env.reads env.now)).step
      (.connRespond env.mallocOk)).step (.refill env.maintain.now env.maintain.allocOk)).run
        (env.maintain.fetches.map .fetch ++ [.filled]) := rfl
  cases hr : readRequest env.reads env.stream with
  | closed | malformed =>
    have hget : a.step (.connGet id env.stream env.reads env.now) = a := by
      simp only [step, hpc, hr]
    have hresp : a.step (.connRespond env.mallocOk) = a := by simp only [step, hpc]
    rw [ha', hget, hresp, run_conn_idle hpc]
    simp [out, handleConn, handleConnRun, hr, hpc]
  | get dest =>
    have hwf := (poolGet_spec h.wf dest 64 env.now).2.wf
    cases hg : (poolGet a.pool dest 64 env.now).ret with
    | none =>
      have hsteps : (a.step (.connGet id env.stream env.reads env.now)).step
          (.connRespond env.mallocOk) =
          { a.take (.conn id) dest 64 env.now with pc := .refill dest } := by
        simp only [step, hpc, hr, hg]
      rw [ha', hsteps, run_refill (by exact hwf) rfl]
      simp [out, handleConn, handleConnRun, hr, hg, take, maintained]
    | some got =>
      obtain ⟨b, hb⟩ := poolGet_der h.wf hg
      -- `a₁` is the agent after the `pool_get`
      obtain ⟨a₁, ha₁⟩ : ∃ a₁, a₁ = a.take (.conn id) dest 64 env.now := ⟨_, rfl⟩
      have hget : a.step (.connGet id env.stream env.reads env.now) =
          { a₁ with pc := .serving id dest got } := by
        simp only [step, hpc, hr, hg, ha₁]
      have hpool : a₁.pool = (poolGet a.pool dest 64 env.now).pool := by rw [ha₁]; rfl
      have hfreed : a₁.freed = a.freed ++ (poolGet a.pool dest 64 env.now).freed := by rw [ha₁]; rfl
      have hheld : a₁.held = a.held ++ [(Holder.conn id, b)] := by simp [ha₁, take, hg, hb]
      rw [ha', hget]
      cases hm : env.mallocOk with
      | false =>
        have hresp : ({ a₁ with pc := .serving id dest got } : Agent).step (.connRespond false) =
            { a₁ with pc := .idle, held := a.held, freed := a₁.freed ++ [b] } := by
          simp only [step, hb, Bool.false_eq_true, if_false]
          exact h.giveBack_conn hpc hheld
        rw [hresp, run_conn_idle rfl]
        simp [out, handleConn, handleConnRun, hr, hg, hm, hb, hpool, hfreed]
      | true =>
        have hresp : ({ a₁ with pc := .serving id dest got } : Agent).step (.connRespond true) =
            { a₁ with
              pc := .refill dest
              written := a₁.written ++ [(id, b)]
              held := a.held
              freed := a₁.freed ++ [b] } := by
          simp only [step, hb, if_true]
          exact h.giveBack_conn hpc hheld
        rw [hresp, run_refill (by exact hpool ▸ hwf) rfl]
        simp [out, handleConn, handleConnRun, hr, hg, hm, hb, hpool, hfreed, maintained]

/-- A closed agent stays closed. -/
theorem Agent.run_closed : ∀ {a : Agent}, a.pc = .closed → ∀ acts, (a.run acts).pc = .closed
  | _, hpc, [] => hpc
  | a, hpc, act :: acts => by
    have hstep : (a.step act).pc = .closed := by
      cases act with
      | release c b =>
        simp only [step, hpc, giveBack]
        split <;> simp [hpc]
      | _ => simp only [step, hpc]
    exact run_closed hstep acts

/-- Between calls the agent is idle, or its pool is freed. -/
theorem Agent.run_acts_pc {a : Agent} (h : a.Inv) (hpc : a.pc = .idle ∨ a.pc = .closed)
    (op : AgentOp) : (a.run op.acts).pc = .idle ∨ (a.run op.acts).pc = .closed := by
  rcases hpc with hpc | hpc
  · cases op with
    | maintain dest env => exact .inl (by rw [run_maintain h.wf hpc]; rfl)
    | conn id env => exact .inl (run_conn h hpc id env).2.2.2
    | depth dest now => exact .inl (by simp [AgentOp.acts, step, hpc])
    | get c dest groupCap now => exact .inl (by simp [AgentOp.acts, step, hpc, take])
    | release c b =>
      refine .inl ?_
      simp only [AgentOp.acts, run_cons, run_nil, step, hpc, giveBack]
      split <;> simp [hpc]
    | free => exact .inr (by simp [AgentOp.acts, step, hpc])
  · exact .inr (run_closed hpc op.acts)

end TicketConnect
