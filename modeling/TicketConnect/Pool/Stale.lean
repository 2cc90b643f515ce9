import TicketConnect.Pool.Spec

/-!
# The slots behind `count` are dead

`evict_expired` copies slots down without clearing the slots it copied from, so a slot at or behind
`count` may hold a second copy of a live pointer. `scrub` zeroes these slots. Every function of the
pool gives the same result on a pool and on the scrubbed pool, and leaves pools that agree once they
are scrubbed: no function reads, returns or frees what a dead slot holds.
-/

namespace TicketConnect

open Lib

/-! ## Scrubbing -/

/-- The node with the slots at and behind `count` zeroed. -/
def PoolDest.scrub (d : PoolDest) : PoolDest :=
  { d with entries := d.live ++ List.replicate (d.entries.length - d.count) .zero }

/-- The pool with every dead slot zeroed. -/
def Pool.scrub (p : Pool) : Pool := { p with dests := p.dests.map PoolDest.scrub }

section Dest
variable {depth : Nat} {d d' : PoolDest}

@[simp] theorem PoolDest.scrub_length (d : PoolDest) :
    d.scrub.entries.length = d.entries.length := by
  simp only [PoolDest.scrub, PoolDest.live, List.length_append, List.length_take,
    List.length_replicate]
  omega

/-- Scrubbing keeps the live slots. -/
@[simp] theorem PoolDest.scrub_live (d : PoolDest) : d.scrub.live = d.live := by
  simp only [PoolDest.scrub, PoolDest.live, List.take_append, List.take_take, List.length_take,
    Nat.min_self, List.take_replicate]
  rw [show min (d.count - min d.count d.entries.length) (d.entries.length - d.count) = 0 by omega]
  simp

@[simp] theorem PoolDest.scrub_scrub (d : PoolDest) : d.scrub.scrub = d.scrub := by
  have hlive := d.scrub_live
  have hlen := d.scrub_length
  rw [PoolDest.scrub, hlive, hlen]
  rfl

/-- The invariant of a node is about its live slots. -/
theorem PoolDest.scrub_wf : d.scrub.Wf depth ↔ d.Wf depth := by
  constructor
  · intro h
    exact ⟨d.scrub_length ▸ h.length, h.le, h.short, d.scrub_live ▸ h.live⟩
  · intro h
    exact ⟨d.scrub_length.trans h.length, h.le, h.short, d.scrub_live.symm ▸ h.live⟩

/-- A scrubbed node is determined by its key and its live slots. -/
theorem PoolDest.Wf.scrub_ext (h : d.Wf depth) (h' : d'.Wf depth) (hdest : d.dest = d'.dest)
    (hlive : d.live = d'.live) : d.scrub = d'.scrub := by
  have hcount : d.count = d'.count := by rw [← h.live_length, ← h'.live_length, hlive]
  simp only [PoolDest.scrub, hlive, h.length, h'.length, hcount, hdest]

/-- Eviction does not see dead slots. -/
theorem evictExpired_scrub (now : Int) (h : d.Wf depth) :
    (evictExpired now d.scrub).1.scrub = (evictExpired now d).1.scrub ∧
      (evictExpired now d.scrub).2 = (evictExpired now d).2 := by
  have hs := PoolDest.scrub_wf.2 h
  refine ⟨(evictExpired_wf now hs).scrub_ext (evictExpired_wf now h) rfl ?_, ?_⟩
  · rw [evictExpired_live now hs, evictExpired_live now h, PoolDest.scrub_live]
  · rw [evictExpired_freed now hs, evictExpired_freed now h, PoolDest.scrub_live]

/-- Nodes that agree once scrubbed agree in their key, their count and their live slots. -/
theorem PoolDest.eq_of_scrub_eq (h : d.scrub = d'.scrub) :
    d.dest = d'.dest ∧ d.count = d'.count ∧ d.live = d'.live :=
  ⟨(PoolDest.mk.inj h).1, (PoolDest.mk.inj h).2.2, by
    rw [← d.scrub_live, h, PoolDest.scrub_live]⟩

/-- Filling a slot does not see dead slots. -/
theorem PoolDest.push_scrub (h : d.Wf depth) (hc : d.count < depth) {e : PoolEntry} (he : e.Ok) :
    (d.scrub.push e).scrub = (d.push e).scrub := by
  have hs := PoolDest.scrub_wf.2 h
  refine (PoolDest.push_wf hs hc he).scrub_ext (PoolDest.push_wf h hc he) rfl ?_
  rw [PoolDest.push_live hs hc, PoolDest.push_live h hc, PoolDest.scrub_live]

end Dest

/-! ## The operations on a scrubbed pool -/

section Ops
variable {p : Pool}

/-- Looking a node up in the scrubbed pool. -/
theorem destFind_scrub (p : Pool) (dest : CString) :
    destFind p.scrub dest = (destFind p dest).map PoolDest.scrub := by
  rw [destFind, Pool.scrub, List.find?_map]
  rfl

/-- Overwriting a node in the scrubbed pool. -/
theorem putDest_scrub (d : PoolDest) : ∀ ds : List PoolDest,
    (putDest d ds).map PoolDest.scrub = putDest d.scrub (ds.map PoolDest.scrub)
  | [] => rfl
  | x :: xs => by
    have hkey : ∀ y : PoolDest, y.scrub.dest = y.dest := fun _ => rfl
    simp only [putDest, List.map_cons, hkey]
    split
    · rfl
    · rw [List.map_cons, putDest_scrub d xs]

/-- Overwriting by nodes that agree once scrubbed. -/
theorem Pool.put_scrub {d d' : PoolDest} (h : d'.scrub = d.scrub) :
    (p.scrub.put d').scrub = (p.put d).scrub := by
  have hdests : (p.dests.map PoolDest.scrub).map PoolDest.scrub = p.dests.map PoolDest.scrub := by
    simp
  simp only [Pool.put, Pool.scrub, putDest_scrub, hdests, h]

/-- The invariant of a pool is about its live slots. -/
theorem Pool.scrub_wf : p.scrub.Wf ↔ p.Wf := by
  have hkeys : p.scrub.dests.map (·.dest) = p.dests.map (·.dest) := by
    simp [Pool.scrub, PoolDest.scrub]
  constructor
  · intro h
    exact ⟨h.pos, fun d hd => PoolDest.scrub_wf.1 (h.dests _ (List.mem_map_of_mem hd)),
      hkeys ▸ h.keys⟩
  · intro h
    refine ⟨h.pos, fun d hd => ?_, hkeys.symm ▸ h.keys⟩
    obtain ⟨x, hx, rfl⟩ := List.mem_map.1 hd
    exact PoolDest.scrub_wf.2 (h.dests x hx)

@[simp] theorem Pool.scrub_scrub (p : Pool) : p.scrub.scrub = p.scrub := by simp [Pool.scrub]

/-- Two results of a pool function agree: equal values, equal frees, equal pools but for dead
slots. -/
structure PoolOut.Agree {α : Type} (out out' : PoolOut α) : Prop where
  ret : out.ret = out'.ret
  freed : out.freed = out'.freed
  pool : out.pool.scrub = out'.pool.scrub

/-- `pool_depth` does not see dead slots. -/
theorem poolDepth_scrub (hp : p.Wf) (dest : CString) (now : Int) :
    (poolDepth p.scrub dest now).Agree (poolDepth p dest now) := by
  unfold poolDepth
  rw [destFind_scrub]
  cases h : destFind p dest with
  | none => exact ⟨rfl, rfl, p.scrub_scrub⟩
  | some d =>
    obtain ⟨hs, hf⟩ := evictExpired_scrub now (hp.dests d (destFind_some h).1)
    exact ⟨(PoolDest.eq_of_scrub_eq hs).2.1, hf, Pool.put_scrub hs⟩

/-- `pool_get` does not see dead slots. -/
theorem poolGet_scrub (hp : p.Wf) (dest : CString) (groupCap : Nat) (now : Int) :
    (poolGet p.scrub dest groupCap now).Agree (poolGet p dest groupCap now) := by
  have hret := (poolGet_spec hp dest groupCap now).1
  have hret' := (poolGet_spec (Pool.scrub_wf.2 hp) dest groupCap now).1
  have hview : p.scrub.view dest = p.view dest := by
    unfold Pool.view
    rw [destFind_scrub]
    cases destFind p dest <;> simp
  refine ⟨by rw [hret, hret', Pool.kept, Pool.kept, hview], ?_, ?_⟩
  · rw [(poolGet_spec hp dest groupCap now).2.freed,
      (poolGet_spec (Pool.scrub_wf.2 hp) dest groupCap now).2.freed, hview]
  unfold poolGet
  rw [destFind_scrub]
  cases h : destFind p dest with
  | none => exact p.scrub_scrub
  | some d =>
    have hd := hp.dests d (destFind_some h).1
    have hwf := evictExpired_wf now hd
    have hwf' := evictExpired_wf now (PoolDest.scrub_wf.2 hd)
    obtain ⟨hs, _⟩ := evictExpired_scrub now hd
    obtain ⟨hkey, hcount, hlive⟩ := PoolDest.eq_of_scrub_eq hs
    simp only [Option.map_some, hcount]
    split
    · exact Pool.put_scrub hs
    · have hpop := (PoolDest.pop_wf hwf').scrub_ext (PoolDest.pop_wf hwf) hkey
        (by rw [PoolDest.pop_live _ hwf', PoolDest.pop_live _ hwf, hlive])
      simp only [PoolDest.pop, hcount] at hpop
      exact Pool.put_scrub hpop

/-- `dest_intern` does not see dead slots. -/
theorem destIntern_scrub (allocOk : Bool) (p : Pool) (dest : CString) :
    destIntern allocOk p.scrub dest =
      (destIntern allocOk p dest).map fun (d, p) => (d.scrub, p.scrub) := by
  unfold destIntern
  rw [destFind_scrub]
  split
  · rfl
  cases destFind p dest with
  | some d => rfl
  | none =>
    -- a new node has no live slot, and all its slots are zero
    have hnew : ∀ k n, PoolDest.scrub ⟨k, List.replicate n .zero, 0⟩ =
        ⟨k, List.replicate n .zero, 0⟩ := by
      simp [PoolDest.scrub, PoolDest.live]
    cases allocOk with
    | false => rfl
    | true => simp [Pool.scrub, hnew]

/-- `pool_free` does not see dead slots. -/
theorem poolFree_scrub (p : Pool) : poolFree p.scrub = poolFree p := by
  simp [poolFree, Pool.scrub, List.flatMap_map]

end Ops

end TicketConnect
