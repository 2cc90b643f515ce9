import Mathlib.Data.List.Induction
import Mathlib.Data.List.Perm.Subperm
import TicketConnect.Agent.Calls
import TicketConnect.Pool.Stale

/-!
# Single use and ownership

The main result about the agent: over whole runs, at every moment, each DER buffer the source
produced is in exactly one place, and the slots behind `count` play no part in it.
-/

namespace TicketConnect

open Lib

/-! ## The ledger along a run -/

/-- Every state of a run has the invariant. -/
theorem Agent.Inv.run {a : Agent} (h : a.Inv) (acts : List AgentAct) : (a.run acts).Inv := by
  induction acts generalizing a with
  | nil => exact h
  | cons act acts ih => exact ih (h.step act)

/-- The buffer that a step's source call delivers. -/
def AgentAct.delivers : AgentAct → Option Buf
  | .fetch f => some f.reply.der
  | _ => none

/-- Only a source call makes a buffer. -/
theorem Agent.step_made (a : Agent) (act : AgentAct) :
    (a.step act).made.Sublist (a.made ++ act.delivers.toList) := by
  have hgive : ∀ (a : Agent) k b, (a.giveBack k b).made = a.made := by
    intro a k b
    unfold Agent.giveBack
    split <;> rfl
  have hstart : ∀ dest now allocOk, (a.startMaintain dest now allocOk).made = a.made := by
    intro dest now allocOk
    unfold Agent.startMaintain
    split <;> rfl
  have hsub : ∀ l : List Buf, a.made.Sublist (a.made ++ l) := List.sublist_append_left a.made
  unfold Agent.step
  split
  · rw [hstart]; exact hsub _
  · rw [hstart]; exact hsub _
  · unfold Agent.fetch
    split
    · exact hsub _
    · split
      exacts [List.Sublist.refl _, hsub _]
  · exact hsub _
  · exact hsub _
  · exact hsub _
  · rw [hgive]; exact hsub _
  · split <;> exact hsub _
  · split
    · exact hsub _
    · rw [hgive]
      split <;> exact hsub _
  · exact hsub _
  · exact hsub _

/-- The buffers of a run are among those its source calls deliver. -/
theorem Agent.run_made (a : Agent) (acts : List AgentAct) :
    (a.run acts).made.Sublist (a.made ++ acts.filterMap AgentAct.delivers) := by
  induction acts generalizing a with
  | nil => simp
  | cons act acts ih =>
    refine (ih (a.step act)).trans ?_
    have hstep := (a.step_made act).append_right (acts.filterMap AgentAct.delivers)
    cases hd : act.delivers <;> simpa [hd] using hstep

/-- The steps of a call deliver the sessions of the call. -/
theorem AgentOp.acts_delivers (op : AgentOp) :
    op.acts.filterMap AgentAct.delivers = op.fetches.map (·.reply.der) := by
  have hfetch : ∀ fs : List Fetch,
      (fs.map AgentAct.fetch).filterMap AgentAct.delivers = fs.map (·.reply.der) := by
    intro fs
    rw [List.filterMap_map]
    exact List.filterMap_eq_map ▸ rfl
  cases op with
  | maintain dest env =>
    simp [AgentOp.acts, AgentOp.fetches, List.filterMap_cons, hfetch, AgentAct.delivers]
  | conn id env =>
    simp [AgentOp.acts, AgentOp.fetches, List.filterMap_cons, hfetch, AgentAct.delivers]
  | _ => rfl

/-! ## Dead slots along a run -/

/-- The agent with every slot at or behind `count` zeroed. -/
def Agent.scrub (a : Agent) : Agent := { a with pool := a.pool.scrub }

section Scrub
variable {a : Agent}

theorem Agent.startMaintain_scrub (hp : a.pool.Wf) (dest : CString) (now : Int) (allocOk : Bool) :
    (a.scrub.startMaintain dest now allocOk).scrub = (a.startMaintain dest now allocOk).scrub := by
  simp only [Agent.startMaintain, Agent.scrub, destIntern_scrub]
  cases hi : destIntern allocOk a.pool dest with
  | none => simp
  | some x =>
    obtain ⟨d, p⟩ := x
    have hin := destIntern_some hp hi
    obtain ⟨hs, hf⟩ := evictExpired_scrub now (hin.wf.dests d (destFind_some hin.find).1)
    simp [hf, Pool.put_scrub hs]

theorem Agent.fetch_scrub (hp : a.pool.Wf) (dest : CString) (f : Fetch) :
    (a.scrub.fetch dest f).scrub = (a.fetch dest f).scrub := by
  simp only [Agent.fetch, Agent.scrub, destFind_scrub]
  cases hf : destFind a.pool dest with
  | none => simp
  | some d =>
    have hd := hp.dests d (destFind_some hf).1
    have hcount : d.scrub.count = d.count := rfl
    have hdepth : a.pool.scrub.targetDepth = a.pool.targetDepth := rfl
    simp only [Option.map_some, hcount, hdepth]
    split
    · next hc => simp [Pool.put_scrub (PoolDest.push_scrub hd hc f.entry_ok)]
    · simp

theorem Agent.take_scrub (hp : a.pool.Wf) (k : Holder) (dest : CString) (groupCap : Nat)
    (now : Int) :
    (a.scrub.take k dest groupCap now).scrub = (a.take k dest groupCap now).scrub := by
  have hg := poolGet_scrub hp dest groupCap now
  simp only [Agent.take, Agent.scrub, hg.ret, hg.freed, hg.pool]

theorem Agent.giveBack_scrub (a : Agent) (k : Holder) (b : Buf) :
    a.scrub.giveBack k b = (a.giveBack k b).scrub := by
  by_cases h : (k, b) ∈ a.held <;> simp [Agent.giveBack, Agent.scrub, h]

/-- No step sees what a dead slot holds. -/
theorem Agent.step_scrub (hp : a.pool.Wf) (act : AgentAct) :
    (a.scrub.step act).scrub = (a.step act).scrub := by
  have hpc : a.scrub.pc = a.pc := rfl
  unfold Agent.step
  rw [hpc]
  split
  · exact startMaintain_scrub hp _ _ _
  · exact startMaintain_scrub hp _ _ _
  · exact fetch_scrub hp _ _
  · simp [Agent.scrub]
  · next dest now _ =>
    have hd := poolDepth_scrub hp dest now
    simp only [Agent.scrub, hd.freed, hd.pool]
  · exact take_scrub hp _ _ _ _
  · rw [giveBack_scrub]
    simp [Agent.scrub]
  · next c stream reads now hpc =>
    split
    · simp [Agent.scrub]
    · simp [Agent.scrub]
    · next dest hr =>
      have hg := poolGet_scrub hp dest 64 now
      simp only [Agent.take, Agent.scrub, hg.ret, hg.freed, hg.pool]
  · split
    · simp [Agent.scrub]
    · next b hb =>
      rw [← giveBack_scrub, ← giveBack_scrub]
      split <;> simp [Agent.scrub]
  · simp only [Agent.scrub, poolFree_scrub]
    rfl
  · simp [Agent.scrub]

/-- Two agents that differ in dead slots only run alike. -/
theorem Agent.run_scrub (h : a.Inv) {a' : Agent} (hs : a'.scrub = a.scrub) (acts : List AgentAct) :
    (a'.run acts).scrub = (a.run acts).scrub := by
  induction acts generalizing a a' with
  | nil => exact hs
  | cons act acts ih =>
    have hpool : a'.pool.scrub = a.pool.scrub := congrArg Agent.pool hs
    have hwf : a'.pool.Wf := Pool.scrub_wf.1 (hpool ▸ Pool.scrub_wf.2 h.wf)
    refine ih (h.step act) ?_
    rw [← step_scrub hwf, hs, step_scrub h.wf]

end Scrub

/-! ## The main result -/

/-- Where the buffers are: no two have one identity; each one made is, once, in a live slot, in
someone's hands or freed; who holds one was given it by `pool_get`, which gave each one to one
holder only; a connection wrote only what it was given, and each buffer went to one connection
only. -/
structure Agent.SingleUse (a : Agent) : Prop where
  made : (a.made.map Buf.id).Nodup
  places : (a.pool.liveBufs ++ a.heldBufs ++ a.freed).Perm a.made
  held : ∀ x ∈ a.held, x ∈ a.handed
  handed : (a.handed.map fun x => x.2.id).Nodup
  written : (a.written.map fun x => x.2.id).Nodup
  written_handed : ∀ c b, (c, b) ∈ a.written → (Holder.conn c, b) ∈ a.handed

/-- A list with no more of each element than a list of distinct keys has distinct keys. -/
theorem nodup_map_of_count_le {α β : Type} [DecidableEq α] {f : α → β} {l m : List α}
    (hm : (m.map f).Nodup) (hcount : ∀ x, l.count x ≤ m.count x) : (l.map f).Nodup := by
  have hsub : l.Subperm m := List.subperm_ext_iff.2 fun x _ => hcount x
  obtain ⟨l', hp, hs⟩ := hsub
  exact (hp.map f).nodup_iff.1 (hm.sublist (hs.map f))

/-- The ledger of an agent whose buffers have distinct identities. -/
theorem Agent.Ledger.singleUse {a : Agent} (h : a.Ledger) (hm : (a.made.map Buf.id).Nodup) :
    a.SingleUse := by
  have hhanded : ∀ b, (a.handed.map Prod.snd).count b ≤ a.made.count b := fun b => by
    have := h.handed b
    omega
  have hwritten : ∀ b, (a.written.map Prod.snd).count b ≤ a.made.count b := fun b => by
    have := h.written b
    have := hhanded b
    omega
  refine ⟨hm, ?_, h.held_handed, ?_, ?_, h.written_handed⟩
  · refine List.perm_iff_count.2 fun b => ?_
    simp only [List.count_append]
    exact h.total b
  · simpa [Function.comp_def] using nodup_map_of_count_le hm hhanded
  · simpa [Function.comp_def] using nodup_map_of_count_le hm hwritten

/-- Every moment of a run whose source calls return fresh buffers. -/
theorem Agent.run_singleUse (targetDepth : Int) {ops : List AgentOp}
    (hfresh : ((ops.flatMap AgentOp.fetches).map (·.reply.der.id)).Nodup) {acts : List AgentAct}
    (hacts : acts <+: ops.flatMap AgentOp.acts) : ((Agent.new targetDepth).run acts).SingleUse := by
  refine (((Agent.new_inv targetDepth).run acts).toLedger).singleUse ?_
  have hmade := ((Agent.new targetDepth).run_made acts).trans
    ((hacts.sublist.filterMap AgentAct.delivers).append_left _)
  have hall : (ops.flatMap AgentOp.acts).filterMap AgentAct.delivers =
      (ops.flatMap AgentOp.fetches).map (·.reply.der) := by
    simp only [List.filterMap_flatMap, List.map_flatMap, AgentOp.acts_delivers]
  rw [hall] at hmade
  refine List.Nodup.sublist (hmade.map Buf.id) ?_
  simpa [Agent.new, Function.comp_def] using hfresh

/-- Between calls the agent of a run is idle or closed. -/
theorem Agent.run_ops_pc (targetDepth : Int) (ops : List AgentOp) :
    let a := (Agent.new targetDepth).run (ops.flatMap AgentOp.acts)
    a.pc = .idle ∨ a.pc = .closed := by
  intro a
  induction ops using List.reverseRecOn with
  | nil => exact .inl rfl
  | append_singleton ops op ih =>
    have ha : a = ((Agent.new targetDepth).run (ops.flatMap AgentOp.acts)).run op.acts := by
      simp only [a, List.flatMap_append, List.flatMap_singleton, run_append]
    rw [ha]
    exact run_acts_pc ((Agent.new_inv targetDepth).run _) ih op

/-- `pool_free` after any calls closes the agent. -/
theorem Agent.run_free_closed (targetDepth : Int) (ops : List AgentOp) :
    ((Agent.new targetDepth).run ((ops ++ [AgentOp.free]).flatMap AgentOp.acts)).pc = .closed := by
  rw [List.flatMap_append, List.flatMap_singleton, run_append]
  rcases run_ops_pc targetDepth ops with hpc | hpc
  · simp [AgentOp.acts, step, hpc]
  · exact run_closed hpc _

/-- **Single use and ownership.** Over every sequence of calls, with any destinations, clocks,
allocation failures and fragmentations and any source whose buffers are fresh, at every moment of
the run: each buffer ever made is in exactly one place, each is handed out at most once and written
to at most one connection (`Agent.SingleUse`); from every moment on the run is the same whatever the
slots at or behind `count` hold; and a final `pool_free` leaves no live slot and no buffer with a
connection, so what is not freed is with the direct callers it was handed to. -/
theorem agent_single_use (targetDepth : Int) (ops : List AgentOp)
    (hfresh : ((ops.flatMap AgentOp.fetches).map (·.reply.der.id)).Nodup) :
    (∀ acts, acts <+: ops.flatMap AgentOp.acts →
      ((Agent.new targetDepth).run acts).SingleUse) ∧
    (∀ pre post, pre ++ post <+: ops.flatMap AgentOp.acts →
      ∀ a' : Agent, a'.scrub = ((Agent.new targetDepth).run pre).scrub →
        (a'.run post).scrub = ((Agent.new targetDepth).run (pre ++ post)).scrub) ∧
    let a := (Agent.new targetDepth).run ((ops ++ [AgentOp.free]).flatMap AgentOp.acts)
    a.pool.liveBufs = [] ∧ (a.heldBufs ++ a.freed).Perm a.made ∧
      ∀ x ∈ a.held, ∃ c, x.1 = .caller c := by
  refine ⟨fun acts hacts => Agent.run_singleUse targetDepth hfresh hacts,
    fun pre post _ a' ha' => ?_,
    ?_⟩
  · rw [Agent.run_append]
    exact Agent.run_scrub ((Agent.new_inv targetDepth).run pre) ha' post
  intro a
  have hinv : a.Inv := (Agent.new_inv targetDepth).run _
  have hpc : a.pc = .closed := Agent.run_free_closed targetDepth ops
  have hlive : a.pool.liveBufs = [] := by rw [Pool.liveBufs, hinv.closed hpc]; rfl
  have hfresh' :
      (((ops ++ [AgentOp.free]).flatMap AgentOp.fetches).map (·.reply.der.id)).Nodup := by
    simpa [AgentOp.fetches] using hfresh
  have huse : a.SingleUse := Agent.run_singleUse targetDepth hfresh' (List.prefix_refl _)
  refine ⟨hlive, by simpa [hlive] using huse.places, fun x hx => ?_⟩
  cases hk : x.1 with
  | caller c => exact ⟨c, rfl⟩
  | conn c =>
    have hx' : x ∈ a.held.filter (·.1.isConn) := List.mem_filter.2 ⟨hx, by simp [hk, Holder.isConn]⟩
    rw [hinv.conns, hpc] at hx'
    cases hx'

/-- Two sessions: a direct caller gets one, a connection whose `malloc` fails gets the other. -/
theorem agent_single_use_two_sessions :
    let ops : List AgentOp := [.maintain sampleDest ⟨100, true, [sampleFetch 0, sampleFetch 1]⟩,
      .get 7 sampleDest 64 200,
      .conn 3 ⟨udsRequest sampleDest, [], [], false, 200, ⟨200, true, []⟩⟩]
    let a := (Agent.new 2).run ((ops ++ [AgentOp.free]).flatMap AgentOp.acts)
    ((ops.flatMap AgentOp.fetches).map (·.reply.der.id)).Nodup ∧
      a.held = [(.caller 7, (sampleFetch 1).reply.der)] ∧ a.freed = [(sampleFetch 0).reply.der] ∧
      (a.heldBufs ++ a.freed).Perm a.made := by
  intro ops a
  have hfresh : ((ops.flatMap AgentOp.fetches).map (·.reply.der.id)).Nodup := by decide
  exact ⟨hfresh, by decide, by decide, (agent_single_use 2 ops hfresh).2.2.2.1⟩

end TicketConnect
