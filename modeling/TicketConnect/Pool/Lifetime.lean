import Mathlib.Data.List.Nodup
import TicketConnect.Pool.Refine

/-!
# How long a session is served

`pool_maintain` (`ticket-agent/pool.c`) counts a session's lifetime from a clock reading that it
takes after the source has returned, and a ticket ages from the moment the source obtained it. Here
the calls of the source have a start, a moment at which they obtain the session, and an end
(`SourceCall`), and the runs of the pool have a clock that does not go back (`TimedRun`).
`served_in_time_iff` says for which sources no session is ever served past its lifetime: those that
obtain their sessions in the second in which `pool_maintain` reads the clock.
-/

namespace TicketConnect

open Lib

/-! ## Runs in time -/

/-- A successful call of the source in time: its start, the moment it obtained the session, its
return, and the clock reading of `pool_maintain` after it. -/
structure SourceCall where
  reply : SourceReply
  start : Int
  obtained : Int
  returned : Int
  stamp : Int
  start_le : start ≤ obtained
  obtained_le : obtained ≤ returned
  returned_le : returned ≤ stamp
  stamp_range : -2 ^ 63 ≤ stamp ∧ stamp < 2 ^ 63
  lifetime_lt : reply.lifetime < 2 ^ 63

/-- What `pool_maintain` sees of a call. -/
def SourceCall.fetch (c : SourceCall) : Fetch := ⟨c.reply, c.stamp⟩

/-- One call of the pool's interface in time. -/
inductive TimedOp where
  | maintain (dest : CString) (now : Int) (allocOk : Bool) (calls : List SourceCall)
  | depth (dest : CString) (now : Int)
  | get (dest : CString) (groupCap : Nat) (now : Int)

namespace TimedOp

/-- The call without the moments that the pool does not see. -/
def op : TimedOp → PoolOp
  | .maintain dest now allocOk calls => .maintain dest ⟨now, allocOk, calls.map SourceCall.fetch⟩
  | .depth dest now => .depth dest now
  | .get dest groupCap now => .get dest groupCap now

/-- The calls of the source. -/
def calls : TimedOp → List SourceCall
  | .maintain _ _ _ calls => calls
  | _ => []

/-- The moments of a call, in the order in which they happen. -/
def moments : TimedOp → List Int
  | .maintain _ now _ calls =>
    now :: calls.flatMap fun c => [c.start, c.obtained, c.returned, c.stamp]
  | .depth _ now | .get _ _ now => [now]

end TimedOp

/-- A run with a clock that does not go back, in which each call of the source allocates a buffer of
its own. -/
structure TimedRun (ops : List TimedOp) : Prop where
  clock : (ops.flatMap TimedOp.moments).Pairwise (· ≤ ·)
  allocs : ((ops.flatMap TimedOp.calls).map (·.reply.der)).Nodup

/-- The pool after a run. -/
def timedAfter (targetDepth : Int) (ops : List TimedOp) : Pool :=
  poolAfter targetDepth (ops.map TimedOp.op)

/-- No session is served past its lifetime: whatever a `pool_get` of the run returns comes from an
earlier call of the source, and less than the lifetime has passed since that call obtained it. -/
def ServedInTime (targetDepth : Int) (ops : List TimedOp) : Prop :=
  ∀ pre dest groupCap now post g, ops = pre ++ .get dest groupCap now :: post →
    (poolGet (timedAfter targetDepth pre) dest groupCap now).ret = some g →
    (∃ c ∈ pre.flatMap TimedOp.calls, g.der = some c.reply.der) ∧
      ∀ c ∈ pre.flatMap TimedOp.calls, g.der = some c.reply.der →
        now < c.obtained + max c.reply.lifetime 0

/-- The calls whose session cannot be served too long: `pool_maintain` reads the clock in the second
in which the session was obtained, or the session is expired when it is stored (it has no lifetime,
or the sum leaves the range of `time_t`). -/
def SourceCall.Prompt (c : SourceCall) : Prop :=
  c.reply.lifetime ≤ 0 ∨ c.obtained = c.stamp ∨ 2 ^ 63 ≤ c.stamp + c.reply.lifetime

instance : DecidablePred SourceCall.Prompt :=
  fun c => inferInstanceAs (Decidable (c.reply.lifetime ≤ 0 ∨ c.obtained = c.stamp ∨
    2 ^ 63 ≤ c.stamp + c.reply.lifetime))

/-! ## What the pool holds -/

/-- Every live session of the pool comes from one of these calls of the source. -/
def Pool.StockedBy (p : Pool) (fetches : List Fetch) : Prop :=
  ∀ k, ∀ e ∈ p.view k, ∃ f ∈ fetches, e = f.entry

/-- An operation that stores nothing but sessions of these calls keeps the pool stocked by them. -/
theorem Pool.StockedBy.of_spec {p : Pool} {fetches : List Fetch} (h : p.StockedBy fetches)
    {α : Type} {out : PoolOut α} {dest : CString} {now : Int} {l : List PoolEntry}
    {ins outs : List Buf} (hs : out.Spec p dest now l ins outs)
    (hl : ∀ e ∈ l, e ∈ p.view dest ∨ ∃ f ∈ fetches, e = f.entry) :
    out.pool.StockedBy fetches := by
  intro k e he
  rw [hs.view] at he
  split_ifs at he with hk
  · rcases hl e he with hold | hnew
    · exact h dest e hold
    · exact hnew
  · exact h k e he

/-- What the eviction keeps was there. -/
theorem Pool.mem_view_of_mem_kept {p : Pool} {dest : CString} {now : Int} {e : PoolEntry}
    (h : e ∈ p.kept dest now) : e ∈ p.view dest :=
  (List.mem_filter.1 h).1

/-- One call keeps the pool stocked by a list that has the call's own sessions. -/
theorem Pool.StockedBy.exec {p : Pool} {fetches : List Fetch} (hp : p.Wf)
    (h : p.StockedBy fetches) {op : PoolOp}
    (hop : ∀ dest env, op = .maintain dest env → ∀ f ∈ env.fetches, f ∈ fetches) :
    (p.exec op).2.StockedBy fetches := by
  cases op with
  | maintain dest env =>
    by_cases hin : destIntern env.allocOk p dest = none
    · simpa [Pool.exec, poolMaintain_null hin] using h
    · refine h.of_spec (poolMaintain_spec hp hin rfl).2 fun e he => ?_
      rcases List.mem_append.1 he with he | he
      · exact .inl (Pool.mem_view_of_mem_kept he)
      · obtain ⟨f, hf, rfl⟩ := List.mem_map.1 he
        exact .inr ⟨f, hop dest env rfl f (List.mem_of_mem_take hf), rfl⟩
  | depth dest now =>
    exact h.of_spec (poolDepth_spec hp dest now).2 fun e he => .inl (Pool.mem_view_of_mem_kept he)
  | get dest groupCap now =>
    exact h.of_spec (poolGet_spec hp dest groupCap now).2 fun e he =>
      .inl (Pool.mem_view_of_mem_kept ((List.dropLast_sublist _).mem he))

/-- After a run, every live session comes from a call of the run. -/
theorem timedAfter_stockedBy (targetDepth : Int) (ops : List TimedOp) :
    (timedAfter targetDepth ops).StockedBy
      ((ops.flatMap TimedOp.calls).map SourceCall.fetch) := by
  -- the invariant over the whole run, for the calls of all its operations
  refine (trace_inv_of (I := fun p : Pool => p.Wf ∧ p.StockedBy _)
    (fun op => ∀ dest env, op = .maintain dest env → ∀ f ∈ env.fetches, f ∈ _)
    (fun p op hp hop => ⟨hp.1.exec_wf op, hp.2.exec hp.1 hop⟩) (ops.map TimedOp.op)
    ⟨poolNew_wf targetDepth, fun k e he => ?_⟩ ?_).2
  · cases he
  · intro op hop dest env heq f hf
    obtain ⟨top, htop, rfl⟩ := List.mem_map.1 hop
    cases top with
    | maintain dest now allocOk calls =>
      cases heq
      obtain ⟨c, hc, rfl⟩ := List.mem_map.1 hf
      exact List.mem_map_of_mem (List.mem_flatMap.2 ⟨_, htop, hc⟩)
    | depth dest now => cases heq
    | get dest groupCap now => cases heq

/-- What a `pool_get` returns is one of these sessions, not yet expired at its clock reading. -/
theorem timedAfter_hit {targetDepth : Int} {ops : List TimedOp} {dest : CString} {groupCap : Nat}
    {now : Int} {g : Got}
    (h : (poolGet (timedAfter targetDepth ops) dest groupCap now).ret = some g) :
    ∃ c ∈ ops.flatMap TimedOp.calls, g.der = some c.reply.der ∧ c.fetch.entry.fresh now := by
  have hwf : (timedAfter targetDepth ops).Wf := poolAfter_wf targetDepth _
  rw [(poolGet_spec hwf dest groupCap now).1, Option.map_eq_some_iff] at h
  obtain ⟨e, he, rfl⟩ := h
  obtain ⟨hview, hfresh⟩ := List.mem_filter.1 (List.mem_of_getLast? he)
  obtain ⟨f, hf, rfl⟩ := timedAfter_stockedBy targetDepth ops dest e hview
  obtain ⟨c, hc, rfl⟩ := List.mem_map.1 hf
  exact ⟨c, hc, rfl, hfresh⟩

/-! ## The clock -/

/-- An earlier call of the source was stamped before a later clock reading. -/
theorem TimedRun.stamp_le {pre post : List TimedOp} {dest : CString} {groupCap : Nat} {now : Int}
    (h : TimedRun (pre ++ .get dest groupCap now :: post)) {c : SourceCall}
    (hc : c ∈ pre.flatMap TimedOp.calls) : c.stamp ≤ now := by
  obtain ⟨op, hop, hmem⟩ := List.mem_flatMap.1 hc
  have hstamp : c.stamp ∈ pre.flatMap TimedOp.moments := by
    refine List.mem_flatMap.2 ⟨op, hop, ?_⟩
    cases op with
    | maintain dest now allocOk calls =>
      exact List.mem_cons_of_mem _ (List.mem_flatMap.2 ⟨c, hmem, by simp⟩)
    | depth dest now => cases hmem
    | get dest groupCap now => cases hmem
  have hclock := h.clock
  rw [List.flatMap_append, List.pairwise_append] at hclock
  exact hclock.2.2 _ hstamp now
    (List.mem_flatMap.2 ⟨_, List.mem_cons_self, List.mem_singleton_self _⟩)

/-- In a run of prompt calls no session is served past its lifetime. -/
theorem TimedRun.servedInTime {ops : List TimedOp} (h : TimedRun ops)
    (hprompt : ∀ c ∈ ops.flatMap TimedOp.calls, c.Prompt) (targetDepth : Int) :
    ServedInTime targetDepth ops := by
  rintro pre dest groupCap now post g rfl hg
  obtain ⟨c, hc, hder, hfresh⟩ := timedAfter_hit hg
  refine ⟨⟨c, hc, hder⟩, fun c' hc' hder' => ?_⟩
  have hpre : ∀ x ∈ pre.flatMap TimedOp.calls,
      x ∈ (pre ++ TimedOp.get dest groupCap now :: post).flatMap TimedOp.calls := fun x hx => by
    rw [List.flatMap_append]
    exact List.mem_append_left _ hx
  -- the buffer tells which call the session comes from
  have hsame : c' = c := List.inj_on_of_nodup_map h.allocs (hpre c' hc') (hpre c hc)
    (Option.some.inj (hder'.symm.trans hder))
  subst hsame
  obtain ⟨hpos, hrange, hlt⟩ : 0 < c'.reply.lifetime ∧ c'.stamp + c'.reply.lifetime < 2 ^ 63 ∧
      now < c'.stamp + c'.reply.lifetime :=
    (c'.fetch.entry_fresh_iff c'.stamp_range c'.lifetime_lt (h.stamp_le hc)).1 hfresh
  rcases hprompt c' (hpre c' hc) with hlife | hstamp | hover
  · omega
  · rw [hstamp]
    omega
  · omega

/-! ## The exact condition -/

/-- A refill from one call of the source, and a `pool_get` in the last second before the expiry that
`pool_maintain` computed. -/
def SourceCall.lateRun (c : SourceCall) : List TimedOp :=
  [.maintain sampleDest c.start true [c],
    .get sampleDest 0 (c.stamp + c.reply.lifetime - 1)]

/-- This is a run, for a session that has a lifetime. -/
theorem SourceCall.lateRun_timed (c : SourceCall) (hpos : 0 < c.reply.lifetime) :
    TimedRun c.lateRun where
  clock := by
    have h₁ := c.start_le
    have h₂ := c.obtained_le
    have h₃ := c.returned_le
    simp only [SourceCall.lateRun, TimedOp.moments, List.flatMap_cons, List.flatMap_nil,
      List.append_nil, List.cons_append, List.nil_append, List.pairwise_cons, List.mem_cons,
      List.not_mem_nil, or_false, forall_eq_or_imp, forall_eq, List.Pairwise.nil,
      false_imp_iff, implies_true, and_true]
    omega
  allocs := by simp [SourceCall.lateRun, TimedOp.calls]

/-- Its `pool_get` is served the session, where the expiry is in the range of `time_t`. -/
theorem SourceCall.lateRun_hit (c : SourceCall) (hpos : 0 < c.reply.lifetime)
    (hrange : c.stamp + c.reply.lifetime < 2 ^ 63) :
    (poolGet (timedAfter 1 [.maintain sampleDest c.start true [c]]) sampleDest 0
      (c.stamp + c.reply.lifetime - 1)).ret = some (c.fetch.entry.got 0) := by
  have hp := poolNew_wf 1
  let env : MaintainEnv := ⟨c.start, true, [c.fetch]⟩
  have hin : destIntern env.allocOk (poolNew 1) sampleDest ≠ none :=
    (by decide : destIntern true (poolNew 1) sampleDest ≠ none)
  have hused : [c.fetch] = env.fetches.take
      ((poolNew 1).targetDepth - ((poolNew 1).kept sampleDest env.now).length) := rfl
  obtain ⟨-, hs⟩ := poolMaintain_spec hp hin hused
  have hfresh : c.fetch.entry.fresh (c.stamp + c.reply.lifetime - 1) = true :=
    (c.fetch.entry_fresh_iff c.stamp_range c.lifetime_lt
      (show c.stamp ≤ c.stamp + c.reply.lifetime - 1 by omega)).2
      ⟨hpos, hrange, show c.stamp + c.reply.lifetime - 1 < c.stamp + c.reply.lifetime by omega⟩
  -- the new pool was empty, so the call's session is all that is there
  have hview : (timedAfter 1 [.maintain sampleDest c.start true [c]]).view sampleDest =
      [c.fetch.entry] := (hs.view sampleDest).trans (if_pos rfl)
  have hwf : (timedAfter 1 [.maintain sampleDest c.start true [c]]).Wf := poolAfter_wf 1 _
  rw [(poolGet_spec hwf sampleDest 0 _).1, Pool.kept, hview]
  simp [hfresh]

/-- **No session is served past its lifetime by the sources that obtain it in the second of the
stamp, and by no others.** For every set of calls that a source may make: in all runs of the pool
over these calls, with any times between them, every session that `pool_get` returns is within its
lifetime, counted from the moment the source obtained it, if and only if each of the calls is
prompt. -/
theorem served_in_time_iff (src : SourceCall → Prop) :
    (∀ targetDepth ops, TimedRun ops → (∀ c ∈ ops.flatMap TimedOp.calls, src c) →
      ServedInTime targetDepth ops) ↔
    ∀ c, src c → c.Prompt := by
  constructor
  · intro h c hc
    by_contra hprompt
    simp only [SourceCall.Prompt, not_or, Int.not_le] at hprompt
    obtain ⟨hpos, hlate, hrange⟩ := hprompt
    have htime := h 1 c.lateRun (c.lateRun_timed hpos)
      (by simpa [SourceCall.lateRun, TimedOp.calls])
      [.maintain sampleDest c.start true [c]] sampleDest 0 _ [] _ rfl
      (c.lateRun_hit hpos hrange)
    have hlt := htime.2 c (by simp [TimedOp.calls]) rfl
    have h₂ := c.obtained_le
    have h₃ := c.returned_le
    omega
  · intro h targetDepth ops hrun hsrc
    exact hrun.servedInTime (fun c hc => h c (hsrc c hc)) targetDepth

/-- A call that obtains a ticket of two hours at 100 and then waits for more until its timeout. -/
def pumpedCall : SourceCall where
  reply := ⟨⟨0, [48, 3, 2, 1, 1]⟩, 5, 1, .empty, 7200, rfl, by decide⟩
  start := 99
  obtained := 100
  returned := 102
  stamp := 102
  start_le := by omega
  obtained_le := by omega
  returned_le := by omega
  stamp_range := by omega
  lifetime_lt := by
    dsimp only
    omega

/-- Its session is served at 7301, when its lifetime is over since 7300. -/
theorem pumpedCall_served_late :
    let pre := [TimedOp.maintain sampleDest 99 true [pumpedCall]]
    TimedRun (pre ++ [.get sampleDest 64 7301]) ∧
      ((poolGet (timedAfter 1 pre) sampleDest 64 7301).ret.map (·.der)) =
        some (some pumpedCall.reply.der) ∧
      ¬7301 < pumpedCall.obtained + max pumpedCall.reply.lifetime 0 ∧
      ¬ServedInTime 1 (pre ++ [.get sampleDest 64 7301]) := by
  intro pre
  have hhit : (poolGet (timedAfter 1 pre) sampleDest 64 7301).ret =
      some (pumpedCall.fetch.entry.got 64) := by decide
  have hlate : ¬7301 < pumpedCall.obtained + max pumpedCall.reply.lifetime 0 := by decide
  refine ⟨⟨by decide, by decide⟩, by rw [hhit]; rfl, hlate, fun h => ?_⟩
  exact hlate ((h pre sampleDest 64 7301 [] _ rfl hhit).2 pumpedCall (by simp [pre, TimedOp.calls])
    rfl)

end TicketConnect
