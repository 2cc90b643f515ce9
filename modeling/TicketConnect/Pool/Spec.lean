import Mathlib.Data.List.Basic
import TicketConnect.Pool.Model

/-!
# What each pool function does

The representation invariant `Pool.Wf`, and one specification per function, in terms of two readings
of a pool: `Pool.view p dest`, the live sessions of a destination, and `Pool.liveBufs p`, the
buffers in live slots. Both read only slots below `count`, so a specification in these terms says
that a function does not depend on the stale slots behind.
-/

namespace TicketConnect

open Lib

/-! ## The representation invariant -/

/-- A slot a source call filled: a buffer of the recorded length, and a group name that is cut to
the slot's buffer. -/
structure PoolEntry.Ok (e : PoolEntry) : Prop where
  der : ∃ b, e.der = some b ∧ e.derLen = b.bytes.length
  derLen_lt : e.derLen < 2 ^ 31
  group : e.group.strlen < groupMax

/-- The invariant of a node: an array of the pool's depth, `count` within it, filled live slots. -/
structure PoolDest.Wf (depth : Nat) (d : PoolDest) : Prop where
  length : d.entries.length = depth
  le : d.count ≤ depth
  short : d.dest.strlen ≤ destMax
  live : ∀ e ∈ d.live, e.Ok

/-- The invariant of a pool: well-formed nodes with distinct keys. -/
structure Pool.Wf (p : Pool) : Prop where
  pos : 0 < p.targetDepth
  dests : ∀ d ∈ p.dests, d.Wf p.targetDepth
  keys : (p.dests.map (·.dest)).Nodup

/-- The live sessions of a destination. -/
def Pool.view (p : Pool) (dest : CString) : List PoolEntry :=
  match destFind p dest with
  | none => []
  | some d => d.live

/-- The buffers in the live slots of a node. -/
def PoolDest.bufs (d : PoolDest) : List Buf := d.live.filterMap (·.der)

/-- The buffers in live slots. -/
def Pool.liveBufs (p : Pool) : List Buf := p.dests.flatMap PoolDest.bufs

/-- A new pool is well formed. -/
theorem poolNew_wf (depth : Int) : (poolNew depth).Wf where
  pos := by simp only [poolNew]; split <;> omega
  dests := by simp [poolNew]
  keys := by simp [poolNew]

/-- The slot a source call fills is well formed: the source's contract and the cut of the name. -/
theorem Fetch.entry_ok (f : Fetch) : f.entry.Ok where
  der := ⟨f.reply.der, rfl, f.reply.derLen_eq⟩
  derLen_lt := f.reply.derLen_lt
  group := CString.strlen_snprintf_lt _ (by decide)

/-- When the session of a source call is unexpired, at a clock that is not behind the one it was
stored at: its lifetime is positive and not over, and its expiry is in the range of `time_t`. -/
theorem Fetch.entry_fresh_iff (f : Fetch) (hrange : -2 ^ 63 ≤ f.now ∧ f.now < 2 ^ 63)
    (hlifetime : f.reply.lifetime < 2 ^ 63) {now : Int} (hnow : f.now ≤ now) :
    f.entry.fresh now = true ↔ 0 < f.reply.lifetime ∧ f.now + f.reply.lifetime < 2 ^ 63 ∧
      now < f.now + f.reply.lifetime := by
  rw [PoolEntry.fresh, decide_eq_true_eq]
  simp only [Fetch.entry, timeT, Int.bmod_def]
  split_ifs <;> omega

/-- The number of live sessions is the node's count. -/
theorem PoolDest.Wf.live_length {depth : Nat} {d : PoolDest} (h : d.Wf depth) :
    d.live.length = d.count := by
  have := h.length
  have := h.le
  simp only [PoolDest.live, List.length_take]
  omega

/-! ## Finding and overwriting a node -/

/-- A found node is a node of the list, under the key asked for. -/
theorem destFind_some {p : Pool} {dest : CString} {d : PoolDest} (h : destFind p dest = some d) :
    d ∈ p.dests ∧ d.dest = dest :=
  ⟨List.mem_of_find?_eq_some h, by simpa using List.find?_some h⟩

/-- Overwriting a node changes what is found under its key, and nothing else. -/
theorem putDest_find? {d d' : PoolDest} {k : CString} : ∀ {ds : List PoolDest},
    ds.find? (·.dest = d'.dest) = some d →
    (putDest d' ds).find? (·.dest = k) = if d'.dest = k then some d' else ds.find? (·.dest = k)
  | [], h => by cases h
  | x :: xs, h => by
    by_cases hx : x.dest = d'.dest
    · by_cases hk : d'.dest = k <;> simp [putDest, hx, hk]
    · simp only [List.find?_cons, decide_eq_false hx] at h
      simp only [putDest, if_neg hx, List.find?_cons, putDest_find? h]
      by_cases hk : x.dest = k
      · subst hk
        simp [Ne.symm hx]
      · simp [hk]

/-- `destFind` after an overwrite. -/
theorem destFind_put {p : Pool} {d d' : PoolDest} (h : destFind p d'.dest = some d) (k : CString) :
    destFind (p.put d') k = if d'.dest = k then some d' else destFind p k :=
  putDest_find? h

/-- An overwrite keeps the keys. -/
theorem putDest_keys (d : PoolDest) : ∀ ds : List PoolDest,
    (putDest d ds).map (·.dest) = ds.map (·.dest)
  | [] => rfl
  | x :: xs => by
    simp only [putDest]
    split
    · next h => simp [h]
    · simp [putDest_keys d xs]

/-- The nodes after an overwrite are the new node and old ones. -/
theorem mem_putDest {d x : PoolDest} : ∀ {ds : List PoolDest}, x ∈ putDest d ds → x = d ∨ x ∈ ds
  | [], h => by cases h
  | y :: ys, h => by
    simp only [putDest] at h
    split at h
    · rcases List.mem_cons.1 h with rfl | h
      · exact .inl rfl
      · exact .inr (.tail _ h)
    · rcases List.mem_cons.1 h with rfl | h
      · exact .inr (.head _)
      · exact (mem_putDest h).imp_right (.tail _)

/-- Overwriting a node by a well-formed one keeps the pool well formed. -/
theorem Pool.Wf.put {p : Pool} {d : PoolDest} (h : p.Wf) (hd : d.Wf p.targetDepth) :
    (p.put d).Wf where
  pos := h.pos
  dests := by
    intro x hx
    rcases mem_putDest hx with rfl | hx
    exacts [hd, h.dests x hx]
  keys := by
    show ((putDest d p.dests).map (·.dest)).Nodup
    rw [putDest_keys]
    exact h.keys

/-- The sessions after an overwrite. -/
theorem Pool.view_put {p : Pool} {d d' : PoolDest} (h : destFind p d'.dest = some d)
    (k : CString) : (p.put d').view k = if d'.dest = k then d'.live else p.view k := by
  unfold Pool.view
  rw [destFind_put h]
  by_cases hk : d'.dest = k <;> simp [hk]

/-- The live buffers after an overwrite: the old node's are replaced by the new node's. -/
theorem putDest_count {d d' : PoolDest} (b : Buf) : ∀ {ds : List PoolDest},
    ds.find? (·.dest = d'.dest) = some d →
    ((putDest d' ds).flatMap PoolDest.bufs).count b + d.bufs.count b =
      (ds.flatMap PoolDest.bufs).count b + d'.bufs.count b
  | [], h => by cases h
  | x :: xs, h => by
    by_cases hx : x.dest = d'.dest
    · simp only [List.find?_cons, hx, decide_true, Option.some.injEq] at h
      subst h
      simp only [putDest, if_pos hx, List.flatMap_cons, List.count_append]
      omega
    · simp only [List.find?_cons, decide_eq_false hx] at h
      have := putDest_count b h
      simp only [putDest, if_neg hx, List.flatMap_cons, List.count_append]
      omega

/-! ## `evict_expired` -/

section Evict
variable {depth : Nat} {d : PoolDest} (now : Int)

/-- Eviction keeps, in order, exactly the sessions that have not expired. -/
theorem evictExpired_live (h : d.Wf depth) :
    (evictExpired now d).1.live = d.live.filter (PoolEntry.fresh now) :=
  (compact_done _ _ (by rw [h.length]; exact h.le)).front

/-- Eviction frees exactly the expired sessions' buffers. -/
theorem evictExpired_freed (h : d.Wf depth) :
    (evictExpired now d).2 =
      (d.live.filter fun e => !e.fresh now).filterMap (·.der) := by
  have hle : d.count ≤ d.entries.length := by rw [h.length]; exact h.le
  have := (compact_done (PoolEntry.fresh now) .zero hle).out
  simp only [evictExpired, this]
  rfl

/-- Eviction keeps the node well formed. -/
theorem evictExpired_wf (h : d.Wf depth) : (evictExpired now d).1.Wf depth := by
  have hle : d.count ≤ d.entries.length := by rw [h.length]; exact h.le
  have hc := compact_done (PoolEntry.fresh now) .zero hle
  refine ⟨hc.length.trans h.length, hc.le.trans h.le, h.short, fun e he => ?_⟩
  rw [evictExpired_live now h] at he
  exact h.live e (List.mem_filter.1 he).1

/-- What eviction takes out of the live slots it frees. -/
theorem evictExpired_count (h : d.Wf depth) (b : Buf) :
    (evictExpired now d).1.bufs.count b + (evictExpired now d).2.count b = d.bufs.count b := by
  rw [PoolDest.bufs, evictExpired_live now h, evictExpired_freed now h, ← List.count_append,
    ← List.filterMap_append]
  exact ((List.filter_append_perm (PoolEntry.fresh now) d.live).filterMap _).count_eq b

end Evict

/-! ## Filling and popping a node -/

section Fill
variable {depth : Nat} {d : PoolDest}

/-- A write at `count` appends to the live sessions. -/
theorem PoolDest.push_live (h : d.Wf depth) (hc : d.count < depth) (e : PoolEntry) :
    (d.push e).live = d.live ++ [e] := by
  have hlen := h.length
  simp only [PoolDest.live, PoolDest.push]
  rw [List.take_succ_eq_append_getElem (by simp; omega), List.take_set_of_le (Nat.le_refl _)]
  simp

/-- A write at `count` keeps the node well formed. -/
theorem PoolDest.push_wf (h : d.Wf depth) (hc : d.count < depth) {e : PoolEntry} (he : e.Ok) :
    (d.push e).Wf depth := by
  refine ⟨by simp [PoolDest.push, h.length], hc, h.short, fun x hx => ?_⟩
  rw [PoolDest.push_live h hc, List.mem_append, List.mem_singleton] at hx
  rcases hx with hx | rfl
  exacts [h.live x hx, he]

/-- What the refill loop has done when it ends. -/
structure Filled.Spec (depth : Nat) (d : PoolDest) (fetches : List Fetch) (r : Filled) : Prop where
  wf : r.dest.Wf depth
  dest : r.dest.dest = d.dest
  used : r.used = fetches.take (depth - d.count)
  live : r.dest.live = d.live ++ r.used.map Fetch.entry
  failed : r.failed = decide (r.dest.count < depth)

/-- The refill loop calls the source until the node is full or the source fails, and appends each
session it delivers. -/
theorem poolFill_spec : ∀ (fetches : List Fetch) {d : PoolDest}, d.Wf depth →
    (poolFill depth d fetches).Spec depth d fetches
  | [], d, h => ⟨h, rfl, by simp [poolFill], by simp [poolFill], rfl⟩
  | f :: fs, d, h => by
    unfold poolFill
    by_cases hc : d.count < depth
    · rw [if_pos hc]
      have ih := poolFill_spec fs (PoolDest.push_wf h hc f.entry_ok)
      have hcount : (d.push f.entry).count = d.count + 1 := rfl
      refine ⟨ih.wf, ih.dest, ?_, ?_, ih.failed⟩
      · dsimp only
        rw [ih.used, hcount, show depth - d.count = depth - (d.count + 1) + 1 by omega,
          List.take_succ_cons]
      · dsimp only
        rw [ih.live, PoolDest.push_live h hc]
        simp
    · rw [if_neg hc]
      have hle := h.le
      exact ⟨h, rfl, by simp [show depth - d.count = 0 by omega], by simp, by simp [hc]⟩

/-- Popping the last live slot. -/
def PoolDest.pop (d : PoolDest) : PoolDest :=
  { d with entries := d.entries.set (d.count - 1) .zero, count := d.count - 1 }

/-- The slot `pool_get` reads is the last live session. -/
theorem PoolDest.Wf.getLast? (h : d.Wf depth) (hc : d.count ≠ 0) :
    d.live.getLast? = some (d.entries.getD (d.count - 1) .zero) := by
  have := h.length
  have := h.le
  rw [List.getLast?_eq_getElem?, h.live_length, PoolDest.live, List.getElem?_take_of_lt (by omega),
    List.getD_eq_getElem?_getD, List.getElem?_eq_getElem (by omega)]
  rfl

/-- Popping drops the last live session. -/
theorem PoolDest.pop_live (d : PoolDest) (h : d.Wf depth) : d.pop.live = d.live.dropLast := by
  have hlen := h.live_length
  rw [List.dropLast_eq_take, hlen]
  simp only [PoolDest.live, PoolDest.pop, List.take_set_of_le (Nat.le_refl _), List.take_take]
  congr 1
  omega

/-- Popping keeps the node well formed. -/
theorem PoolDest.pop_wf (h : d.Wf depth) : d.pop.Wf depth := by
  refine ⟨by simp [PoolDest.pop, h.length], le_trans (Nat.sub_le _ _) h.le, h.short, fun e he => ?_⟩
  rw [PoolDest.pop_live d h] at he
  exact h.live e ((List.dropLast_sublist _).mem he)

end Fill

/-! ## The operations

Each specification reads the destination's sessions through the eviction every operation starts
with, and accounts for every buffer: what left the live slots was freed or handed out (`outs`), what
entered them came from the source (`ins`).
-/

/-- The sessions of a destination that are left after the eviction. -/
def Pool.kept (p : Pool) (dest : CString) (now : Int) : List PoolEntry :=
  (p.view dest).filter (PoolEntry.fresh now)

/-- What an operation on `dest` does: the destination's sessions become `l`, no other destination's
change, and the buffers add up. -/
structure PoolOut.Spec {α : Type} (p : Pool) (dest : CString) (now : Int) (l : List PoolEntry)
    (ins outs : List Buf) (out : PoolOut α) : Prop where
  wf : out.pool.Wf
  targetDepth : out.pool.targetDepth = p.targetDepth
  view : ∀ k, out.pool.view k = if dest = k then l else p.view k
  freed : out.freed = ((p.view dest).filter fun e => !e.fresh now).filterMap (·.der)
  count : ∀ b, out.pool.liveBufs.count b + out.freed.count b + outs.count b =
    p.liveBufs.count b + ins.count b

section Ops
variable {p : Pool} {dest : CString} {now : Int}

/-- A session of a well-formed pool is a filled slot. -/
theorem Pool.Wf.ok_of_mem_kept (hp : p.Wf) {e : PoolEntry} (h : e ∈ p.kept dest now) : e.Ok := by
  have hmem : e ∈ p.view dest := (List.mem_filter.1 h).1
  unfold Pool.view at hmem
  split at hmem
  · cases hmem
  · next d hf => exact (hp.dests d (destFind_some hf).1).live e hmem

/-- A destination without a node has no sessions. -/
theorem Pool.view_of_none (h : destFind p dest = none) : p.view dest = [] := by
  rw [Pool.view, h]

/-- An operation on a destination without a node changes nothing. -/
theorem PoolOut.Spec.of_none {α : Type} (hp : p.Wf) (h : destFind p dest = none) (now : Int)
    (r : α) :
    PoolOut.Spec p dest now (p.kept dest now) [] [] ⟨r, p, []⟩ where
  wf := hp
  targetDepth := rfl
  view k := by
    by_cases hk : dest = k
    · subst hk; simp [Pool.kept, Pool.view_of_none h]
    · simp [hk]
  freed := by simp [Pool.view_of_none h]
  count b := by simp

/-- An operation on a destination with a node: it evicts, and then replaces the node by one that
differs from it by the buffers it took in and handed out. -/
theorem PoolOut.Spec.of_some {α : Type} (hp : p.Wf) {d d' : PoolDest} (h : destFind p dest = some d)
    (hwf : d'.Wf p.targetDepth) (hdest : d'.dest = dest) (now : Int) (ins outs : List Buf)
    (hcount : ∀ b, d'.bufs.count b + outs.count b =
      (evictExpired now d).1.bufs.count b + ins.count b) (r : α) :
    PoolOut.Spec p dest now d'.live ins outs ⟨r, p.put d', (evictExpired now d).2⟩ := by
  subst hdest
  have hd := hp.dests d (destFind_some h).1
  refine ⟨hp.put hwf, rfl, Pool.view_put h, ?_, fun b => ?_⟩
  · simp only [Pool.view, h, evictExpired_freed now hd]
  · have h1 := putDest_count b h
    have h2 := evictExpired_count now hd b
    have h3 := hcount b
    simp only [Pool.liveBufs, Pool.put]
    omega

/-- The sessions a node is left with after the eviction. -/
theorem evictExpired_kept (hp : p.Wf) {d : PoolDest} (h : destFind p dest = some d) :
    (evictExpired now d).1.live = p.kept dest now := by
  rw [evictExpired_live now (hp.dests d (destFind_some h).1), Pool.kept, Pool.view, h]

/-- `pool_depth` returns the number of sessions that have not expired. -/
theorem poolDepth_spec (hp : p.Wf) (dest : CString) (now : Int) :
    (poolDepth p dest now).ret = (p.kept dest now).length ∧
      (poolDepth p dest now).Spec p dest now (p.kept dest now) [] [] := by
  unfold poolDepth
  cases h : destFind p dest with
  | none => exact ⟨by simp [Pool.kept, Pool.view_of_none h], .of_none hp h now _⟩
  | some d =>
    have hwf := evictExpired_wf now (hp.dests d (destFind_some h).1)
    refine ⟨?_, ?_⟩
    · rw [← evictExpired_kept hp h, hwf.live_length]
    · rw [← evictExpired_kept hp h]
      exact .of_some hp h hwf (destFind_some h).2 now [] [] (fun b => rfl) _

/-- `pool_get` pops the last session that has not expired, or misses when there is none. -/
theorem poolGet_spec (hp : p.Wf) (dest : CString) (groupCap : Nat) (now : Int) :
    (poolGet p dest groupCap now).ret = (p.kept dest now).getLast?.map (·.got groupCap) ∧
      (poolGet p dest groupCap now).Spec p dest now (p.kept dest now).dropLast []
        ((p.kept dest now).getLast?.toList.filterMap (·.der)) := by
  unfold poolGet
  cases h : destFind p dest with
  | none =>
    have hk : p.kept dest now = [] := by simp [Pool.kept, Pool.view_of_none h]
    have := PoolOut.Spec.of_none hp h now (none : Option Got)
    rw [hk] at this ⊢
    exact ⟨rfl, this⟩
  | some d =>
    have hd := (destFind_some h).2
    have hwf := evictExpired_wf now (hp.dests d (destFind_some h).1)
    rw [← evictExpired_kept hp h]
    dsimp only
    by_cases hc : (evictExpired now d).1.count = 0
    · have hnil : (evictExpired now d).1.live = [] := by simp [PoolDest.live, hc]
      have := PoolOut.Spec.of_some hp h hwf hd now [] [] (fun b => rfl) (none : Option Got)
      rw [if_pos hc]
      rw [hnil] at this ⊢
      exact ⟨rfl, this⟩
    · rw [if_neg hc, hwf.getLast? hc, ← PoolDest.pop_live _ hwf]
      refine ⟨rfl, .of_some hp h (PoolDest.pop_wf hwf) hd now _ _ (fun b => ?_) _⟩
      -- the popped session and the ones left are the sessions before the pop
      have hsplit := List.dropLast_append_getLast? _ (hwf.getLast? hc)
      rw [PoolDest.bufs, PoolDest.bufs, PoolDest.pop_live _ hwf, ← List.count_append,
        Option.toList_some, ← List.filterMap_append, hsplit]
      rfl

/-- A destination that is too long has no node. -/
theorem destFind_of_long (hp : p.Wf) (h : destMax < dest.strlen) : destFind p dest = none := by
  cases hf : destFind p dest with
  | none => rfl
  | some d =>
    obtain ⟨hm, hd⟩ := destFind_some hf
    have := (hp.dests d hm).short
    rw [hd] at this
    omega

/-- What `dest_intern` returns: a node of the destination, in a pool with the same sessions. -/
structure Interned (p : Pool) (dest : CString) (d : PoolDest) (p' : Pool) : Prop where
  wf : p'.Wf
  find : destFind p' dest = some d
  targetDepth : p'.targetDepth = p.targetDepth
  view : ∀ k, p'.view k = p.view k
  liveBufs : p'.liveBufs = p.liveBufs

/-- `dest_intern` returns `NULL` exactly for a destination that is too long, or when it needs a new
node and an allocation fails. -/
theorem destIntern_eq_none {allocOk : Bool} :
    destIntern allocOk p dest = none ↔
      destMax < dest.strlen ∨ destFind p dest = none ∧ allocOk = false := by
  unfold destIntern
  by_cases hl : destMax < dest.strlen
  · simp [hl]
  · cases h : destFind p dest <;> cases allocOk <;> simp [hl]

/-- `dest_intern` finds the node, or pushes a new one with no live slot. -/
theorem destIntern_some (hp : p.Wf) {allocOk : Bool} {d : PoolDest} {p' : Pool}
    (h : destIntern allocOk p dest = some (d, p')) : Interned p dest d p' := by
  unfold destIntern at h
  split at h
  · cases h
  next hl =>
  split at h
  · next d' hf =>
    cases h
    exact ⟨hp, hf, rfl, fun _ => rfl, rfl⟩
  next hf =>
  split at h
  swap
  · cases h
  cases h
  have hdest : dest.snprintf (destMax + 1) = dest := CString.snprintf_of_lt (by omega)
  rw [hdest]
  refine ⟨⟨hp.pos, ?_, ?_⟩, ?_, rfl, fun k => ?_, ?_⟩
  · intro d hd
    rcases List.mem_cons.1 hd with rfl | hd
    · exact ⟨by simp, Nat.zero_le _, Nat.le_of_not_lt hl, by simp [PoolDest.live]⟩
    · exact hp.dests d hd
  · refine List.nodup_cons.2 ⟨fun hm => ?_, hp.keys⟩
    obtain ⟨x, hx, hxd⟩ := List.mem_map.1 hm
    exact absurd hxd (by simpa using List.find?_eq_none.1 hf x hx)
  · simp [destFind]
  · by_cases hk : dest = k
    · subst hk; simp [Pool.view, destFind, PoolDest.live, show p.dests.find? _ = none from hf]
    · simp [Pool.view, destFind, hk]
  · simp [Pool.liveBufs, PoolDest.bufs, PoolDest.live]

/-- `pool_maintain` where `dest_intern` returns `NULL`: no source call, and nothing changes. -/
theorem poolMaintain_null {env : MaintainEnv} (h : destIntern env.allocOk p dest = none) :
    poolMaintain p dest env = ⟨⟨0, [], false⟩, p, []⟩ := by
  rw [poolMaintain, h]

/-- The buffers of the slots that source calls filled are the buffers the source returned. -/
theorem filterMap_entry_der : ∀ used : List Fetch,
    (used.map Fetch.entry).filterMap (·.der) = used.map (·.reply.der)
  | [] => rfl
  | f :: fs => by
    have hder : f.entry.der = some f.reply.der := rfl
    simp [hder, filterMap_entry_der fs]

/-- `pool_maintain` otherwise: after the eviction it appends what the source delivers, until the
destination has its target depth or the source fails. -/
theorem poolMaintain_spec (hp : p.Wf) {env : MaintainEnv}
    (h : destIntern env.allocOk p dest ≠ none) {used : List Fetch}
    (hused : used = env.fetches.take (p.targetDepth - (p.kept dest env.now).length)) :
    (poolMaintain p dest env).ret = ⟨(p.kept dest env.now).length + used.length, used,
        decide ((p.kept dest env.now).length + used.length < p.targetDepth)⟩ ∧
      (poolMaintain p dest env).Spec p dest env.now (p.kept dest env.now ++ used.map Fetch.entry)
        (used.map (·.reply.der)) [] := by
  obtain ⟨⟨d, p'⟩, hi⟩ := Option.ne_none_iff_exists'.1 h
  have hin := destIntern_some hp hi
  have hd := hin.wf.dests d (destFind_some hin.find).1
  have hwf := evictExpired_wf env.now hd
  have hkept : (evictExpired env.now d).1.live = p.kept dest env.now := by
    rw [evictExpired_kept hin.wf hin.find, Pool.kept, Pool.kept, hin.view]
  have hs := poolFill_spec env.fetches hwf
  have hcount : (evictExpired env.now d).1.count = (p.kept dest env.now).length := by
    rw [← hkept, hwf.live_length]
  have hu : (poolFill p'.targetDepth (evictExpired env.now d).1 env.fetches).used = used := by
    rw [hs.used, hcount, hin.targetDepth, hused]
  have hl := hs.live
  rw [hkept, hu] at hl
  have hc := hs.wf.live_length
  rw [hl, List.length_append, List.length_map] at hc
  have hspec := PoolOut.Spec.of_some hin.wf hin.find hs.wf
    (hs.dest.trans (destFind_some hin.find).2) env.now (used.map (·.reply.der)) [] (fun b => by
      rw [PoolDest.bufs, PoolDest.bufs, hl, hkept, List.filterMap_append, List.count_append,
        filterMap_entry_der]
      rfl) (poolMaintain p dest env).ret
  rw [hl] at hspec
  unfold poolMaintain at hspec ⊢
  rw [hi] at hspec ⊢
  refine ⟨?_, hspec.wf, hspec.targetDepth.trans hin.targetDepth, ?_, ?_, ?_⟩
  · dsimp only
    rw [hu, hs.failed, ← hc, hin.targetDepth]
  · exact fun k => by rw [hspec.view, hin.view]
  · rw [← hin.view]; exact hspec.freed
  · exact fun b => by rw [← hin.liveBufs]; exact hspec.count b

end Ops

end TicketConnect
