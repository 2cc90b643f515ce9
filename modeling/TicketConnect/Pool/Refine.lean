import TicketConnect.Lib.Runs
import TicketConnect.Pool.Spec

/-!
# The pool refines a map of bounded stacks

`StackMap depth` is what the pool is for: each destination of at most `DEST_MAX` bytes has a stack
of at most `depth` sessions. Every operation first drops the sessions that have expired; `get` pops
the last one, `maintain` appends what the source delivers. `pool_refines_stackMap` says that the
pool (linked list, fixed arrays, in-place compaction) returns over every sequence of operations
exactly what the map returns, and that every session it hands out is, field by field, one reply of
the source for that same destination.
-/

namespace TicketConnect

open Lib

/-! ## The abstract pool -/

/-- A session: the fields one source call delivered, and the time it expires. -/
structure Session where
  der : Buf
  derLen : Int
  isPqc : Int
  group : CString
  expiry : Int

/-- The session of one source call: the group name cut to 63 bytes, the expiry counted from the
clock reading after the call. -/
def Fetch.session (f : Fetch) : Session where
  der := f.reply.der
  derLen := f.reply.derLen
  isPqc := f.reply.isPqc
  group := f.reply.group.snprintf groupMax
  expiry := f.now + max f.reply.lifetime 0

/-- A session has not expired. -/
def Session.fresh (now : Int) (s : Session) : Bool := decide (now < s.expiry)

/-- What a caller with a group buffer of `groupCap` bytes gets from a session. -/
def Session.got (s : Session) (groupCap : Nat) : Got :=
  ⟨some s.der, s.derLen, s.isPqc, if 0 < groupCap then some (s.group.snprintf groupCap) else none⟩

/-- A map from destinations to bounded stacks of sessions. -/
structure StackMap (depth : Nat) where
  stack : CString → List Session
  bounded : ∀ k, (stack k).length ≤ depth
  short : ∀ k, destMax < k.strlen → stack k = []

namespace StackMap
variable {depth : Nat}

/-- No destination has a session. -/
def empty (depth : Nat) : StackMap depth := ⟨fun _ => [], fun _ => Nat.zero_le _, fun _ _ => rfl⟩

/-- The sessions of a destination that have not expired. -/
def kept (m : StackMap depth) (dest : CString) (now : Int) : List Session :=
  (m.stack dest).filter (Session.fresh now)

/-- The map with another stack for one destination. -/
def set (m : StackMap depth) (dest : CString) (l : List Session) (hl : l.length ≤ depth)
    (hs : destMax < dest.strlen → l = []) : StackMap depth where
  stack k := if dest = k then l else m.stack k
  bounded k := by
    split
    exacts [hl, m.bounded k]
  short k hk := by
    split
    · next h => exact hs (h ▸ hk)
    · exact m.short k hk

/-- The sessions kept are within the bound, and there are none for a long destination. -/
theorem kept_bounded (m : StackMap depth) (dest : CString) (now : Int) :
    (m.kept dest now).length ≤ depth :=
  (List.length_filter_le _ _).trans (m.bounded dest)

theorem kept_short (m : StackMap depth) (dest : CString) (now : Int) (h : destMax < dest.strlen) :
    m.kept dest now = [] := by
  simp [kept, m.short dest h]

/-- The source calls of a refill: the sessions delivered, as many as there is room for. -/
def used (m : StackMap depth) (dest : CString) (env : MaintainEnv) : List Fetch :=
  env.fetches.take (depth - (m.kept dest env.now).length)

/-- The number of available sessions. -/
def depthOp (m : StackMap depth) (dest : CString) (now : Int) : Nat × StackMap depth :=
  ((m.kept dest now).length,
    m.set dest (m.kept dest now) (m.kept_bounded dest now) (m.kept_short dest now))

/-- Pop the last session. -/
def get (m : StackMap depth) (dest : CString) (groupCap : Nat) (now : Int) :
    Option Got × StackMap depth :=
  ((m.kept dest now).getLast?.map (·.got groupCap),
    m.set dest (m.kept dest now).dropLast
      (by have := m.kept_bounded dest now; rw [List.length_dropLast]; omega)
      (fun h => by rw [m.kept_short dest now h]; rfl))

/-- Append what the source delivers, up to the depth; a destination that is too long is not stored
and the source is not asked. -/
def maintain (m : StackMap depth) (dest : CString) (env : MaintainEnv) :
    Maintained × StackMap depth :=
  if hlong : destMax < dest.strlen then (⟨0, [], false⟩, m)
  else
    let l := m.kept dest env.now ++ (m.used dest env).map Fetch.session
    have hl : l.length ≤ depth := by
      have := m.kept_bounded dest env.now
      simp only [l, used, List.length_append, List.length_map, List.length_take]
      omega
    (⟨l.length, m.used dest env, decide (l.length < depth)⟩, m.set dest l hl (absurd · hlong))

end StackMap

/-! ## The operations of a run -/

/-- One call of the pool's interface. -/
inductive PoolOp where
  | maintain (dest : CString) (env : MaintainEnv)
  | depth (dest : CString) (now : Int)
  | get (dest : CString) (groupCap : Nat) (now : Int)

/-- What it returns. -/
inductive PoolRet where
  | maintained (m : Maintained)
  | depth (n : Nat)
  | got (g : Option Got)

/-- A call on the pool. -/
def Pool.exec (p : Pool) : PoolOp → PoolRet × Pool
  | .maintain dest env =>
    (.maintained (poolMaintain p dest env).ret, (poolMaintain p dest env).pool)
  | .depth dest now => (.depth (poolDepth p dest now).ret, (poolDepth p dest now).pool)
  | .get dest cap now => (.got (poolGet p dest cap now).ret, (poolGet p dest cap now).pool)

/-- The pool after a sequence of calls. -/
def poolAfter (targetDepth : Int) (ops : List PoolOp) : Pool :=
  (trace Pool.exec (poolNew targetDepth) ops).2

/-- Every call keeps the pool well formed, also one whose allocations fail. -/
theorem Pool.Wf.exec_wf {p : Pool} (hp : p.Wf) (op : PoolOp) : (p.exec op).2.Wf := by
  cases op with
  | maintain dest env =>
    by_cases h : destIntern env.allocOk p dest = none
    · simpa [Pool.exec, poolMaintain_null h] using hp
    · exact (poolMaintain_spec hp h rfl).2.wf
  | depth dest now => exact (poolDepth_spec hp dest now).2.wf
  | get dest groupCap now => exact (poolGet_spec hp dest groupCap now).2.wf

/-- Every pool state of the agent is well formed. -/
theorem poolAfter_wf (targetDepth : Int) (ops : List PoolOp) : (poolAfter targetDepth ops).Wf :=
  trace_inv (fun _ op hp => hp.exec_wf op) ops (poolNew_wf targetDepth)

/-- A call on the map of stacks. -/
def StackMap.exec {depth : Nat} (m : StackMap depth) : PoolOp → PoolRet × StackMap depth
  | .maintain dest env => (.maintained (m.maintain dest env).1, (m.maintain dest env).2)
  | .depth dest now => (.depth (m.depthOp dest now).1, (m.depthOp dest now).2)
  | .get dest cap now => (.got (m.get dest cap now).1, (m.get dest cap now).2)

/-- The calls the refinement is about: `pool_maintain`'s allocations succeed, and the expiry sums of
the sessions delivered are in the range of `time_t`. -/
def PoolOp.Admissible : PoolOp → Prop
  | .maintain _ env => env.allocOk = true ∧ ∀ f ∈ env.fetches,
      -2 ^ 63 ≤ f.session.expiry ∧ f.session.expiry < 2 ^ 63
  | _ => True

instance : DecidablePred PoolOp.Admissible
  | .maintain _ env => inferInstanceAs (Decidable (env.allocOk = true ∧ ∀ f ∈ env.fetches,
      -2 ^ 63 ≤ f.session.expiry ∧ f.session.expiry < 2 ^ 63))
  | .depth .. | .get .. => .isTrue trivial

/-! ## The simulation -/

/-- The slot that holds a session. -/
def Session.entry (s : Session) : PoolEntry :=
  ⟨some s.der, s.derLen, s.isPqc, s.group, s.expiry⟩

/-- A pool represents a map of stacks: its live slots are the stacks. -/
structure Represents {depth : Nat} (p : Pool) (m : StackMap depth) : Prop where
  wf : p.Wf
  depth : p.targetDepth = depth
  view : ∀ k, p.view k = (m.stack k).map Session.entry

/-- Where the expiry sum is in range, the slot a source call fills holds its session. -/
theorem Fetch.entry_eq {f : Fetch} (h : -2 ^ 63 ≤ f.session.expiry ∧ f.session.expiry < 2 ^ 63) :
    f.entry = f.session.entry := by
  have hmax : (if 0 < f.reply.lifetime then f.reply.lifetime else 0) = max f.reply.lifetime 0 := by
    split <;> omega
  have hsum : timeT (f.now + max f.reply.lifetime 0) = f.now + max f.reply.lifetime 0 :=
    Int.bmod_eq_of_le (by simpa [Fetch.session] using h.1) (by simpa [Fetch.session] using h.2)
  simp only [Fetch.entry, Session.entry, Fetch.session, hmax, hsum]

section Simulation
variable {depth : Nat} {p : Pool} {m : StackMap depth}

/-- Both sides keep the same sessions. -/
theorem Represents.kept (h : Represents p m) (dest : CString) (now : Int) :
    p.kept dest now = (m.kept dest now).map Session.entry := by
  rw [Pool.kept, h.view, StackMap.kept, List.filter_map]
  rfl

/-- An operation that leaves a destination with the same sessions on both sides keeps the
representation. -/
theorem Represents.set {α : Type} {out : PoolOut α} {dest : CString} {now : Int}
    {l : List PoolEntry} {ins outs : List Buf} (h : Represents p m)
    (hs : out.Spec p dest now l ins outs) {l' : List Session} (hl : l = l'.map Session.entry)
    {m' : StackMap depth} (hm : ∀ k, m'.stack k = if dest = k then l' else m.stack k) :
    Represents out.pool m' where
  wf := hs.wf
  depth := hs.targetDepth.trans h.depth
  view k := by
    rw [hs.view, hl, h.view, hm]
    split <;> rfl

/-- `pool_depth` on both sides. -/
theorem Represents.depthOp (h : Represents p m) (dest : CString) (now : Int) :
    (poolDepth p dest now).ret = (m.depthOp dest now).1 ∧
      Represents (poolDepth p dest now).pool (m.depthOp dest now).2 := by
  obtain ⟨hr, hs⟩ := poolDepth_spec h.wf dest now
  exact ⟨by rw [hr, h.kept, List.length_map]; rfl, h.set hs (h.kept dest now) fun _ => rfl⟩

/-- `pool_get` on both sides. -/
theorem Represents.get (h : Represents p m) (dest : CString) (groupCap : Nat) (now : Int) :
    (poolGet p dest groupCap now).ret = (m.get dest groupCap now).1 ∧
      Represents (poolGet p dest groupCap now).pool (m.get dest groupCap now).2 := by
  obtain ⟨hr, hs⟩ := poolGet_spec h.wf dest groupCap now
  refine ⟨?_, h.set hs (by rw [h.kept, List.map_dropLast]) fun _ => rfl⟩
  rw [hr, h.kept, List.getLast?_map, Option.map_map]
  rfl

/-- `pool_maintain` on both sides. -/
theorem Represents.maintain (h : Represents p m) {dest : CString} {env : MaintainEnv}
    (hok : (PoolOp.maintain dest env).Admissible) :
    (poolMaintain p dest env).ret = (m.maintain dest env).1 ∧
      Represents (poolMaintain p dest env).pool (m.maintain dest env).2 := by
  obtain ⟨halloc, hrange⟩ := hok
  by_cases hlong : destMax < dest.strlen
  · rw [poolMaintain_null (destIntern_eq_none.2 (.inl hlong)), StackMap.maintain, dif_pos hlong]
    exact ⟨rfl, h⟩
  · have hin : destIntern env.allocOk p dest ≠ none := by
      simp [destIntern_eq_none, hlong, halloc]
    have hused : m.used dest env =
        env.fetches.take (p.targetDepth - (p.kept dest env.now).length) := by
      rw [StackMap.used, h.kept, List.length_map, h.depth]
    obtain ⟨hr, hs⟩ := poolMaintain_spec h.wf hin hused
    have hsess : (m.used dest env).map Fetch.entry =
        ((m.used dest env).map Fetch.session).map Session.entry := by
      rw [List.map_map]
      exact List.map_congr_left fun f hf => Fetch.entry_eq (hrange f (List.mem_of_mem_take hf))
    rw [StackMap.maintain, dif_neg hlong]
    refine ⟨?_, h.set hs ?_ fun _ => rfl⟩
    · rw [hr, h.kept, h.depth]
      simp
    · rw [h.kept, hsess, List.map_append]

/-- One call on both sides. -/
theorem Represents.exec (h : Represents p m) (op : PoolOp) (hok : op.Admissible) :
    (p.exec op).1 = (m.exec op).1 ∧ Represents (p.exec op).2 (m.exec op).2 := by
  cases op with
  | maintain dest env =>
    obtain ⟨h₁, h₂⟩ := h.maintain hok
    exact ⟨congrArg _ h₁, h₂⟩
  | depth dest now =>
    obtain ⟨h₁, h₂⟩ := h.depthOp dest now
    exact ⟨congrArg _ h₁, h₂⟩
  | get dest groupCap now =>
    obtain ⟨h₁, h₂⟩ := h.get dest groupCap now
    exact ⟨congrArg _ h₁, h₂⟩

end Simulation

/-- A new pool represents the empty map of the clamped depth. -/
theorem poolNew_represents (targetDepth : Int) :
    Represents (poolNew targetDepth) (StackMap.empty (max 1 targetDepth).toNat) where
  wf := poolNew_wf targetDepth
  depth := by simp only [poolNew]; split <;> omega
  view _ := rfl

/-! ## Provenance -/

/-- A session of destination `k` came from a source call of an earlier `maintain` of `k`. -/
def Sourced (hist : List (PoolOp × PoolRet)) (k : CString) (s : Session) : Prop :=
  ∃ env r f, (PoolOp.maintain k env, PoolRet.maintained r) ∈ hist ∧ f ∈ r.used ∧ s = f.session

theorem Sourced.mono {hist : List (PoolOp × PoolRet)} {k : CString} {s : Session}
    (h : Sourced hist k s) (more : List (PoolOp × PoolRet)) : Sourced (hist ++ more) k s :=
  let ⟨env, r, f, hm, hf⟩ := h
  ⟨env, r, f, List.mem_append_left _ hm, hf⟩

/-- One call keeps the sessions sourced. -/
theorem StackMap.exec_sourced {depth : Nat} {m : StackMap depth} {hist : List (PoolOp × PoolRet)}
    (h : ∀ k, ∀ s ∈ m.stack k, Sourced hist k s) (op : PoolOp) :
    ∀ k, ∀ s ∈ (m.exec op).2.stack k, Sourced (hist ++ [(op, (m.exec op).1)]) k s := by
  have hkept : ∀ dest now, ∀ s ∈ m.kept dest now, Sourced hist dest s :=
    fun dest now s hs => h dest s (List.mem_filter.1 hs).1
  intro k s hs
  cases op with
  | depth dest now =>
    simp only [StackMap.exec, StackMap.depthOp, StackMap.set] at hs
    split at hs
    · next hk => exact hk ▸ (hkept _ _ s hs).mono _
    · exact (h k s hs).mono _
  | get dest groupCap now =>
    simp only [StackMap.exec, StackMap.get, StackMap.set] at hs
    split at hs
    · next hk => exact hk ▸ (hkept _ _ s ((List.dropLast_sublist _).mem hs)).mono _
    · exact (h k s hs).mono _
  | maintain dest env =>
    by_cases hlong : destMax < dest.strlen
    · simp only [StackMap.exec, StackMap.maintain, dif_pos hlong] at hs
      exact (h k s hs).mono _
    · simp only [StackMap.exec, StackMap.maintain, dif_neg hlong, StackMap.set] at hs
      split at hs
      · next hk =>
        subst hk
        rcases List.mem_append.1 hs with hs | hs
        · exact (hkept _ _ s hs).mono _
        · obtain ⟨f, hf, rfl⟩ := List.mem_map.1 hs
          refine ⟨env, _, f, List.mem_append_right _ (List.mem_singleton.2 rfl), ?_, rfl⟩
          simpa only [StackMap.maintain, dif_neg hlong] using hf
      · exact (h k s hs).mono _

/-- Every hit of a run on the map is one earlier source call for the same destination, unexpired. -/
theorem StackMap.hit_sourced {depth : Nat} {dest : CString} {groupCap : Nat} {now : Int} {g : Got}
    {post : List (PoolOp × PoolRet)} :
    ∀ {ops : List PoolOp} {m : StackMap depth} {hist pre : List (PoolOp × PoolRet)},
      (∀ k, ∀ s ∈ m.stack k, Sourced hist k s) →
      ops.zip (trace StackMap.exec m ops).1 =
        pre ++ (.get dest groupCap now, .got (some g)) :: post →
      ∃ s, Sourced (hist ++ pre) dest s ∧ g = s.got groupCap ∧ now < s.expiry
  | [], m, hist, pre, _, hz => by simp [trace] at hz
  | op :: ops, m, hist, [], h, hz => by
    simp only [trace, List.zip_cons_cons, List.nil_append, List.cons.injEq, Prod.mk.injEq] at hz
    obtain ⟨⟨rfl, hret⟩, -⟩ := hz
    simp only [StackMap.exec, StackMap.get, PoolRet.got.injEq, Option.map_eq_some_iff] at hret
    obtain ⟨s, hs, rfl⟩ := hret
    obtain ⟨hmem, hfresh⟩ := List.mem_filter.1 (List.mem_of_getLast? hs)
    exact ⟨s, by simpa using h dest s hmem, rfl, by simpa [Session.fresh] using hfresh⟩
  | op :: ops, m, hist, x :: pre, h, hz => by
    simp only [trace, List.zip_cons_cons, List.cons_append, List.cons.injEq] at hz
    obtain ⟨rfl, hz⟩ := hz
    have := StackMap.hit_sourced (m.exec_sourced h op) hz
    simpa using this

/-! ## The refinement -/

/-- **The pool refines a map of bounded stacks.** Over every sequence of calls on any destinations,
with any clock readings and any source replies, the pool returns what the map returns; its live
slots are the map's stacks; a destination that is too long is never stored; and each hit hands out
the fields of one source call that an earlier `pool_maintain` of that destination made, before the
session's expiry. -/
theorem pool_refines_stackMap (targetDepth : Int) (ops : List PoolOp)
    (hops : ∀ op ∈ ops, op.Admissible) :
    let depth := (max 1 targetDepth).toNat
    let run := trace Pool.exec (poolNew targetDepth) ops
    let spec := trace StackMap.exec (StackMap.empty depth) ops
    run.1 = spec.1 ∧
      (∀ k, run.2.view k = (spec.2.stack k).map Session.entry ∧ (run.2.view k).length ≤ depth) ∧
      (∀ k, destMax < k.strlen → destFind run.2 k = none) ∧
      ∀ pre post dest groupCap now g,
        ops.zip run.1 = pre ++ (.get dest groupCap now, .got (some g)) :: post →
        ∃ env r f, (PoolOp.maintain dest env, PoolRet.maintained r) ∈ pre ∧ f ∈ r.used ∧
          g = f.session.got groupCap ∧ now < f.session.expiry := by
  intro depth run spec
  obtain ⟨hret, hrep⟩ : run.1 = spec.1 ∧ Represents run.2 spec.2 :=
    trace_sim Represents PoolOp.Admissible (fun _ _ op hR hok => hR.exec op hok) ops
      (poolNew_represents targetDepth) hops
  have hbound : ∀ k, (run.2.view k).length ≤ depth := fun k => by
    rw [hrep.view, List.length_map]
    exact spec.2.bounded k
  refine ⟨hret, fun k => ⟨hrep.view k, hbound k⟩, fun k hk => destFind_of_long hrep.wf hk,
    fun pre post dest groupCap now g hz => ?_⟩
  rw [hret] at hz
  have hempty : ∀ k, ∀ s ∈ (StackMap.empty depth).stack k, Sourced [] k s := by
    simp [StackMap.empty]
  obtain ⟨s, ⟨env, r, f, hm, hf, rfl⟩, hg, hlt⟩ :=
    StackMap.hit_sourced hempty hz
  exact ⟨env, r, f, by simpa using hm, hf, hg, hlt⟩

/-- A destination of three bytes. -/
def sampleDest : CString := ⟨[104, 58, 49], by decide⟩

/-- A source call at time 100 that delivers buffer `id`, for 300 seconds. -/
def sampleFetch (id : Nat) : Fetch where
  reply :=
    { der := ⟨id, [48, 2]⟩
      derLen := 2
      isPqc := 1
      group := ⟨[120], by decide⟩
      lifetime := 300
      derLen_eq := rfl
      derLen_lt := by decide }
  now := 100

/-- A run that fills a destination to its depth of 1 and pops the session. -/
theorem pool_refines_stackMap_hit :
    let ops := [PoolOp.maintain sampleDest ⟨100, true, [sampleFetch 0, sampleFetch 1]⟩,
      .get sampleDest 64 200]
    let run := trace Pool.exec (poolNew 1) ops
    (∀ op ∈ ops, op.Admissible) ∧
      run.1 = (trace StackMap.exec (StackMap.empty 1) ops).1 ∧
      run.1 = [.maintained ⟨1, [sampleFetch 0], false⟩,
        .got (some ((sampleFetch 0).session.got 64))] := by
  intro ops run
  have hops : ∀ op ∈ ops, op.Admissible := by decide
  exact ⟨hops, (pool_refines_stackMap 1 ops hops).1, rfl⟩

end TicketConnect
