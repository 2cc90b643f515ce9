import TicketConnect.Pool.Refine

/-!
# What `pool_maintain` reports

`pool_maintain` returns the number of live slots after the refill, `pool_depth` the number of
sessions that have not expired. `poolMaintain_depth_iff` says when the two agree at one clock
reading: when no session that the refill stored is already expired. A session whose reported
lifetime is not positive is stored with the current time as its expiry, so it is counted and never
served.
-/

namespace TicketConnect

open Lib

/-! ## Draining a destination -/

/-- The pool after `k` calls of `pool_get` at one clock reading. -/
def afterGets (p : Pool) (dest : CString) (groupCap : Nat) (now : Int) (k : Nat) : Pool :=
  (fun q => (poolGet q dest groupCap now).pool)^[k] p

/-- Exactly `n` calls of `pool_get` hit before the first miss. -/
def HitsBeforeMiss (p : Pool) (dest : CString) (groupCap : Nat) (now : Int) (n : Nat) : Prop :=
  (∀ k < n, (poolGet (afterGets p dest groupCap now k) dest groupCap now).ret.isSome) ∧
    (poolGet (afterGets p dest groupCap now n) dest groupCap now).ret = none

section Drain
variable {p : Pool} (dest : CString) (groupCap : Nat) (now : Int)

/-- A `pool_get` keeps the pool well formed and takes the last session that has not expired. -/
theorem poolGet_kept (hp : p.Wf) :
    (poolGet p dest groupCap now).pool.Wf ∧
      (poolGet p dest groupCap now).pool.kept dest now = (p.kept dest now).dropLast := by
  have hs := (poolGet_spec hp dest groupCap now).2
  refine ⟨hs.wf, ?_⟩
  rw [Pool.kept, hs.view, if_pos rfl]
  -- what is left was fresh before
  refine List.filter_eq_self.2 fun e he => ?_
  exact (List.mem_filter.1 ((List.dropLast_sublist _).mem he)).2

/-- The sessions left after `k` calls: each call takes one. -/
theorem afterGets_kept (hp : p.Wf) (k : Nat) :
    (afterGets p dest groupCap now k).Wf ∧
      ((afterGets p dest groupCap now k).kept dest now).length =
        (p.kept dest now).length - k := by
  induction k with
  | zero => exact ⟨hp, rfl⟩
  | succ k ih =>
    obtain ⟨hwf, hlen⟩ := ih
    obtain ⟨hwf', hkept⟩ := poolGet_kept dest groupCap now hwf
    rw [afterGets, Function.iterate_succ_apply']
    refine ⟨hwf', ?_⟩
    rw [← afterGets, hkept, List.length_dropLast, hlen]
    omega

/-- A `pool_get` hits exactly when a session is left. -/
theorem poolGet_isSome (hp : p.Wf) :
    (poolGet p dest groupCap now).ret.isSome ↔ 0 < (p.kept dest now).length := by
  rw [(poolGet_spec hp dest groupCap now).1, Option.isSome_map, List.getLast?_isSome,
    List.length_pos_iff]

/-- The number of hits before the first miss is the number of sessions that have not expired. -/
theorem hitsBeforeMiss_iff (hp : p.Wf) (n : Nat) :
    HitsBeforeMiss p dest groupCap now n ↔ n = (p.kept dest now).length := by
  have hsome : ∀ k, (poolGet (afterGets p dest groupCap now k) dest groupCap now).ret.isSome ↔
      k < (p.kept dest now).length := by
    intro k
    obtain ⟨hwf, hlen⟩ := afterGets_kept dest groupCap now hp k
    rw [poolGet_isSome dest groupCap now hwf, hlen]
    omega
  unfold HitsBeforeMiss
  rw [← Option.not_isSome_iff_eq_none, hsome]
  constructor
  · rintro ⟨hhit, hmiss⟩
    by_contra hne
    have hlt : (p.kept dest now).length < n := by omega
    exact Nat.lt_irrefl _ ((hsome _).1 (hhit _ hlt))
  · rintro rfl
    exact ⟨fun k hk => (hsome k).2 hk, Nat.lt_irrefl _⟩

end Drain

/-! ## The refill -/

/-- A refill during which the clock does not advance. -/
def refillEnv (now : Int) (allocOk : Bool) (replies : List SourceReply) : MaintainEnv :=
  ⟨now, allocOk, replies.map fun r => ⟨r, now⟩⟩

section Refill
variable {p : Pool} {dest : CString} {allocOk : Bool}

/-- After a refill, the sessions available are those kept and those stored that are not expired. -/
theorem poolMaintain_kept (hp : p.Wf) (hin : destIntern allocOk p dest ≠ none) (now : Int)
    (replies : List SourceReply) :
    let stored := replies.take (p.targetDepth - (p.kept dest now).length)
    let m := poolMaintain p dest (refillEnv now allocOk replies)
    m.pool.Wf ∧ m.ret.depth = (p.kept dest now).length + stored.length ∧
      m.pool.kept dest now = p.kept dest now ++
        (stored.map fun r => Fetch.entry ⟨r, now⟩).filter (PoolEntry.fresh now) := by
  intro stored m
  have hused : stored.map (fun r => (⟨r, now⟩ : Fetch)) =
      (refillEnv now allocOk replies).fetches.take
        (p.targetDepth - (p.kept dest (refillEnv now allocOk replies).now).length) :=
    List.map_take
  obtain ⟨hret, hs⟩ := poolMaintain_spec hp hin hused
  refine ⟨hs.wf, ?_, ?_⟩
  · rw [hret]
    simp only [List.length_map]
    rfl
  · -- what the eviction kept is not expired at the same clock reading
    have hfresh : (p.kept dest now).filter (PoolEntry.fresh now) = p.kept dest now :=
      List.filter_eq_self.2 fun e he => (List.mem_filter.1 he).2
    rw [Pool.kept, hs.view, if_pos rfl, List.filter_append, List.map_map]
    exact congrArg (· ++ _) hfresh

end Refill

/-- **`pool_maintain` reports the available depth, unless it stored an expired session.** For every
pool state of the agent, every destination and every source, with the clock standing still: the
number `pool_maintain` returns is what `pool_depth` returns right after it, and exactly that many
calls of `pool_get` then hit before the first miss. This holds exactly when each session that the
refill stores has a positive lifetime and an expiry in the range of `time_t`. -/
theorem poolMaintain_depth_iff (targetDepth : Int) (ops : List PoolOp) (dest : CString)
    (groupCap : Nat) (now : Int) (allocOk : Bool) (replies : List SourceReply)
    (hnow : -2 ^ 63 ≤ now ∧ now < 2 ^ 63) (hlong : ∀ r ∈ replies, r.lifetime < 2 ^ 63) :
    let p := poolAfter targetDepth ops
    let m := poolMaintain p dest (refillEnv now allocOk replies)
    (m.ret.depth = (poolDepth m.pool dest now).ret ∧
      HitsBeforeMiss m.pool dest groupCap now m.ret.depth) ↔
    (dest.strlen ≤ destMax → destFind p dest ≠ none ∨ allocOk = true →
      ∀ r ∈ replies.take (p.targetDepth - (p.kept dest now).length),
        0 < r.lifetime ∧ now + r.lifetime < 2 ^ 63) := by
  intro p m
  have hp : p.Wf := poolAfter_wf targetDepth ops
  by_cases hin : destIntern allocOk p dest = none
  · -- nothing is stored, and there is no node to count
    have hnull : m = ⟨⟨0, [], false⟩, p, []⟩ := poolMaintain_null hin
    have hcause := destIntern_eq_none.1 hin
    have hnode : destFind p dest = none := by
      rcases hcause with hl | ⟨hf, -⟩
      exacts [destFind_of_long hp hl, hf]
    have hkept : (p.kept dest now).length = 0 := by simp [Pool.kept, Pool.view_of_none hnode]
    rw [hnull]
    dsimp only
    rw [(poolDepth_spec hp dest now).1, hitsBeforeMiss_iff dest groupCap now hp, hkept]
    refine ⟨fun _ hlen hor => ?_, fun _ => ⟨rfl, rfl⟩⟩
    rcases hcause with hl | ⟨-, halloc⟩
    · omega
    · rcases hor with hsome | hok
      · exact absurd hnode hsome
      · exact absurd (halloc.symm.trans hok) (by decide)
  · obtain ⟨hwf, hret, hkept⟩ := poolMaintain_kept hp hin now replies
    have hcond : dest.strlen ≤ destMax ∧ (destFind p dest ≠ none ∨ allocOk = true) := by
      rw [destIntern_eq_none, not_or, not_and_or] at hin
      exact ⟨Nat.le_of_not_lt hin.1, hin.2.imp_right (by simp)⟩
    rw [(poolDepth_spec hwf dest now).1, hitsBeforeMiss_iff dest groupCap now hwf, and_self]
    -- all that was stored is counted, so the counts agree when nothing stored is expired
    rw [hret, hkept, List.length_append, Nat.add_left_cancel_iff, eq_comm,
      ← List.length_map fun r => Fetch.entry ⟨r, now⟩, List.length_filter_eq_length_iff,
      List.forall_mem_map]
    have hfresh : ∀ r ∈ replies.take (p.targetDepth - (p.kept dest now).length),
        (Fetch.entry ⟨r, now⟩).fresh now = true ↔ 0 < r.lifetime ∧ now + r.lifetime < 2 ^ 63 := by
      intro r hr
      have hlt : r.lifetime < 2 ^ 63 := hlong r (List.mem_of_mem_take hr)
      refine (Fetch.entry_fresh_iff ⟨r, now⟩ hnow hlt (Int.le_refl now)).trans
        ⟨fun h => ⟨h.1, h.2.1⟩, fun h => ⟨h.1, h.2, ?_⟩⟩
      exact Int.lt_add_of_pos_right now h.1
    constructor
    · intro h _ _ r hr
      exact (hfresh r hr).1 (h r hr)
    · intro h r hr
      exact (hfresh r hr).2 (h hcond.1 hcond.2 r hr)

/-- A session with a lifetime of an hour is reported, counted and served. -/
theorem poolMaintain_depth_iff_hour :
    let reply : SourceReply := ⟨⟨0, [48, 2]⟩, 2, 1, .empty, 3600, rfl, by decide⟩
    let m := poolMaintain (poolAfter 1 []) sampleDest (refillEnv 100 true [reply])
    m.ret.depth = 1 ∧ (poolDepth m.pool sampleDest 100).ret = 1 ∧
      HitsBeforeMiss m.pool sampleDest 64 100 1 := by
  intro reply m
  have h := (poolMaintain_depth_iff 1 [] sampleDest 64 100 true [reply] (by decide)
    (by decide)).2 (by decide)
  have hret : m.ret.depth = 1 := by decide
  exact ⟨hret, h.1.symm.trans hret, hret ▸ h.2⟩

/-- A session with a lifetime of 0 is reported and counted by `pool_maintain`, but not by
`pool_depth`, and it is not served. -/
theorem poolMaintain_counts_expired :
    let reply : SourceReply := ⟨⟨0, [48, 2]⟩, 2, 1, .empty, 0, rfl, by decide⟩
    let m := poolMaintain (poolAfter 3 []) sampleDest (refillEnv 100 true [reply, reply, reply])
    m.ret.depth = 3 ∧ (poolDepth m.pool sampleDest 100).ret = 0 ∧
      (poolGet m.pool sampleDest 64 100).ret = none := by
  decide

end TicketConnect
