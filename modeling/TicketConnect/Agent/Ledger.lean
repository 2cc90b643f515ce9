import TicketConnect.Agent.Model

/-!
# The ledger of buffers

The invariant of the agent's machine. `Agent.Ledger` is the account of the buffers, which every
step keeps by one argument: what leaves the live slots is freed or handed out, and what enters them
was just made (`Agent.Ledger.move`). `Agent.AtPc` ties the buffers that connections hold to the
place in the code: only `handle_conn` between its `pool_get` and its `free` holds one.
-/

namespace TicketConnect

open Lib

/-! ## The invariant -/

/-- The holder is a connection. -/
def Holder.isConn : Holder → Bool
  | .caller _ => false
  | .conn _ => true

/-- The buffer `handle_conn` has in hand at a place in the code. -/
def AgentPc.inHand : AgentPc → List (Holder × Buf)
  | .serving c _ got => got.der.toList.map (.conn c, ·)
  | _ => []

/-- The buffers in someone's hands. -/
def Agent.heldBufs (a : Agent) : List Buf := a.held.map Prod.snd

/-- The account of the buffers: each one made is live, held or freed; one that was handed out is not
live any more; one that was written was handed to that connection and is not held any more. -/
structure Agent.Ledger (a : Agent) : Prop where
  wf : a.pool.Wf
  total : ∀ b, a.pool.liveBufs.count b + a.heldBufs.count b + a.freed.count b = a.made.count b
  handed : ∀ b, a.pool.liveBufs.count b + (a.handed.map Prod.snd).count b ≤ a.made.count b
  written : ∀ b, a.heldBufs.count b + (a.written.map Prod.snd).count b ≤
    (a.handed.map Prod.snd).count b
  held_handed : ∀ x ∈ a.held, x ∈ a.handed
  written_handed : ∀ c b, (c, b) ∈ a.written → (Holder.conn c, b) ∈ a.handed

/-- What the place in the code says: connections hold what `handle_conn` has in hand, and a closed
pool has no destination. -/
structure Agent.AtPc (a : Agent) : Prop where
  conns : a.held.filter (·.1.isConn) = a.pc.inHand
  serving : ∀ c dest got, a.pc = .serving c dest got → got.der ≠ none
  closed : a.pc = .closed → a.pool.dests = []

/-- The invariant of the agent's machine. -/
structure Agent.Inv (a : Agent) : Prop extends a.Ledger, a.AtPc

/-- A new agent has the invariant. -/
theorem Agent.new_inv (targetDepth : Int) : (Agent.new targetDepth).Inv where
  wf := poolNew_wf targetDepth
  total := by simp [new, poolNew, Pool.liveBufs, heldBufs]
  handed := by simp [new, poolNew, Pool.liveBufs]
  written := by simp [new, heldBufs]
  held_handed := by simp [new]
  written_handed := by simp [new]
  conns := rfl
  serving := by simp [new]
  closed := by simp [new]

/-! ## Moving buffers -/

section Steps
variable {a : Agent}

/-- Every pool function keeps the account: the buffers it frees and those it hands out (to one
holder) are what leaves the live slots, the ones made are what enters them. -/
theorem Agent.Ledger.move (h : a.Ledger) {a' : Agent} (k : Holder) (freed ins outs : List Buf)
    (hwf : a'.pool.Wf)
    (hcount : ∀ b, a'.pool.liveBufs.count b + freed.count b + outs.count b =
      a.pool.liveBufs.count b + ins.count b)
    (hmade : a'.made = a.made ++ ins) (hfreed : a'.freed = a.freed ++ freed)
    (hheld : a'.held = a.held ++ outs.map (k, ·))
    (hhanded : a'.handed = a.handed ++ outs.map (k, ·)) (hwritten : a'.written = a.written) :
    a'.Ledger := by
  have hsnd : (outs.map (k, ·)).map Prod.snd = outs := by simp [Function.comp_def]
  have hheld' : a'.heldBufs = a.heldBufs ++ outs := by
    rw [heldBufs, hheld, List.map_append, hsnd, heldBufs]
  have hhanded' : a'.handed.map Prod.snd = a.handed.map Prod.snd ++ outs := by
    rw [hhanded, List.map_append, hsnd]
  refine ⟨hwf, fun b => ?_, fun b => ?_, fun b => ?_, fun x hx => ?_, fun c b hx => ?_⟩
  · have := h.total b
    have := hcount b
    rw [hheld', hfreed, hmade]
    simp only [List.count_append]
    omega
  · have := h.handed b
    have := hcount b
    rw [hhanded', hmade]
    simp only [List.count_append]
    omega
  · have := h.written b
    rw [hheld', hhanded', hwritten]
    simp only [List.count_append]
    omega
  · rw [hheld] at hx
    rw [hhanded]
    exact List.mem_append.2 ((List.mem_append.1 hx).imp_left (h.held_handed x))
  · rw [hwritten] at hx
    rw [hhanded]
    exact List.mem_append_left _ (h.written_handed c b hx)

/-- The place in the code does not matter to the account. -/
theorem Agent.Ledger.at_pc (h : a.Ledger) (pc : AgentPc) : ({ a with pc } : Agent).Ledger :=
  ⟨h.wf, h.total, h.handed, h.written, h.held_handed, h.written_handed⟩

/-- The eviction of `pool_maintain`. -/
theorem Agent.Ledger.startMaintain (h : a.Ledger) (dest : CString) (now : Int) (allocOk : Bool) :
    (a.startMaintain dest now allocOk).Ledger := by
  unfold Agent.startMaintain
  split
  · exact h.at_pc _
  next d p hi =>
  have hin := destIntern_some h.wf hi
  have hd := hin.wf.dests d (destFind_some hin.find).1
  have hs := PoolOut.Spec.of_some hin.wf hin.find (evictExpired_wf now hd)
    (destFind_some hin.find).2 now [] [] (fun _ => rfl) ()
  refine h.move (.caller 0) _ [] [] hs.wf (fun b => ?_) ?_ rfl ?_ ?_ rfl
  · rw [← hin.liveBufs]
    exact hs.count b
  all_goals simp

/-- One round of the refill loop. -/
theorem Agent.Ledger.fetch (h : a.Ledger) (dest : CString) (f : Fetch) :
    (a.fetch dest f).Ledger := by
  unfold Agent.fetch
  split
  · exact h
  next d hf =>
  split
  swap
  · exact h
  next hc =>
  have hd := h.wf.dests d (destFind_some hf).1
  have hlive := PoolDest.push_live hd hc f.entry
  have hkey : (d.push f.entry).dest = dest := (destFind_some hf).2
  refine h.move (.caller 0) [] [f.reply.der] [] (h.wf.put (PoolDest.push_wf hd hc f.entry_ok))
    (fun b => ?_) rfl ?_ ?_ ?_ rfl
  · have hput := putDest_count b
      (show a.pool.dests.find? (·.dest = (d.push f.entry).dest) = some d from hkey ▸ hf)
    have hbufs : (d.push f.entry).bufs.count b = d.bufs.count b + [f.reply.der].count b := by
      rw [PoolDest.bufs, hlive, List.filterMap_append, List.count_append]
      rfl
    simp only [Pool.liveBufs, Pool.put, List.count_nil]
    omega
  all_goals simp

/-- A `pool_depth`. -/
theorem Agent.Ledger.depth (h : a.Ledger) (dest : CString) (now : Int) :
    ({ a with
      pool := (poolDepth a.pool dest now).pool
      freed := a.freed ++ (poolDepth a.pool dest now).freed } : Agent).Ledger := by
  have hs := (poolDepth_spec h.wf dest now).2
  refine h.move (.caller 0) _ [] [] hs.wf hs.count ?_ rfl ?_ ?_ rfl
  all_goals simp

/-- The buffer a hit hands out is the last session's. -/
theorem poolGet_ret_der {p : Pool} (hp : p.Wf) (dest : CString) (groupCap : Nat) (now : Int) :
    ((poolGet p dest groupCap now).ret.bind (·.der)).toList =
      (p.kept dest now).getLast?.toList.filterMap (·.der) := by
  rw [(poolGet_spec hp dest groupCap now).1]
  cases (p.kept dest now).getLast? with
  | none => rfl
  | some e => cases hd : e.der <;> simp [PoolEntry.got, hd]

/-- A `pool_get`. -/
theorem Agent.Ledger.take (h : a.Ledger) (k : Holder) (dest : CString) (groupCap : Nat)
    (now : Int) : (a.take k dest groupCap now).Ledger := by
  have hs := (poolGet_spec h.wf dest groupCap now).2
  rw [← poolGet_ret_der h.wf dest groupCap now] at hs
  exact h.move k _ [] _ hs.wf hs.count (by simp [Agent.take]) rfl rfl rfl rfl

/-- A buffer in someone's hands is freed. -/
theorem Agent.Ledger.giveBack (h : a.Ledger) (k : Holder) (b : Buf) : (a.giveBack k b).Ledger := by
  unfold Agent.giveBack
  split
  swap
  · exact h
  next hm =>
  have hheld : ∀ x, ((a.held.erase (k, b)).map Prod.snd).count x + [b].count x =
      a.heldBufs.count x := by
    intro x
    have := ((List.perm_cons_erase hm).map Prod.snd).count_eq x
    rw [heldBufs, this]
    simp [List.count_cons]
  refine ⟨h.wf, fun x => ?_, h.handed, fun x => ?_, fun x hx => ?_, h.written_handed⟩
  · have := h.total x
    have := hheld x
    simp only [heldBufs, List.count_append]
    omega
  · have := h.written x
    have := hheld x
    simp only [heldBufs]
    omega
  · exact h.held_handed x (List.mem_of_mem_erase hx)

/-- A connection that holds a buffer writes it and frees it. -/
theorem Agent.Ledger.respond (h : a.Ledger) {c : Nat} {b : Buf} (hm : (.conn c, b) ∈ a.held)
    (pc : AgentPc) :
    (({ a with written := a.written ++ [(c, b)], pc } : Agent).giveBack (.conn c) b).Ledger := by
  have hg := h.giveBack (.conn c) b
  have hheld := ((List.perm_cons_erase hm).map Prod.snd).count_eq
  simp only [Agent.giveBack, hm, if_true] at hg ⊢
  refine ⟨h.wf, hg.total, h.handed, fun x => ?_, hg.held_handed, fun c' b' hx => ?_⟩
  · have := h.written x
    have := hheld x
    simp only [heldBufs, List.map_append, List.count_append, List.map_cons, List.map_nil,
      List.count_cons, List.count_nil] at *
    omega
  · rcases List.mem_append.1 hx with hx | hx
    · exact h.written_handed c' b' hx
    · cases List.mem_singleton.1 hx
      exact h.held_handed _ hm

/-- A `pool_free`. -/
theorem Agent.Ledger.free (h : a.Ledger) :
    ({ a with
      pool := { a.pool with dests := [] }
      freed := a.freed ++ poolFree a.pool
      pc := .closed } : Agent).Ledger := by
  have hwf : ({ a.pool with dests := [] } : Pool).Wf := ⟨h.wf.pos, by simp, by simp⟩
  refine h.move (.caller 0) _ [] [] hwf (fun b => ?_) ?_ rfl ?_ ?_ rfl
  · have : poolFree a.pool = a.pool.liveBufs := rfl
    simp [this, Pool.liveBufs]
  all_goals simp

/-! ## One step -/

/-- What a caller's `free` leaves in the hands of connections. -/
theorem Agent.AtPc.release (h : a.AtPc) (c : Nat) (b : Buf) : (a.giveBack (.caller c) b).AtPc := by
  unfold Agent.giveBack
  split
  swap
  · exact h
  refine ⟨?_, h.serving, h.closed⟩
  rw [← List.erase_filter, List.erase_of_not_mem, h.conns]
  simp [Holder.isConn]

/-- A step inside an open pool that moves no held buffer and stays in its place. -/
theorem Agent.AtPc.of_eq (h : a.AtPc) {a' : Agent} (hheld : a'.held = a.held)
    (hpc : a'.pc = a.pc) (hopen : a.pc ≠ .closed) : a'.AtPc :=
  ⟨by rw [hheld, hpc, h.conns], hpc.symm ▸ h.serving, fun hc => absurd (hpc ▸ hc) hopen⟩

/-- A place in the code where `handle_conn` holds nothing. -/
theorem Agent.AtPc.of_nil {a' : Agent} (hheld : a'.held.filter (·.1.isConn) = [])
    (hpc : a'.pc.inHand = []) (hs : ∀ c dest got, a'.pc ≠ .serving c dest got)
    (hc : a'.pc ≠ .closed) : a'.AtPc :=
  ⟨hheld.trans hpc.symm, fun c dest got h => absurd h (hs c dest got), fun h => absurd h hc⟩

/-- Where no connection holds a buffer, the start of a refill keeps it so. -/
theorem Agent.startMaintain_atPc (h : a.held.filter (·.1.isConn) = []) (dest : CString)
    (now : Int) (allocOk : Bool) : (a.startMaintain dest now allocOk).AtPc := by
  unfold Agent.startMaintain
  split
  · exact .of_nil h rfl (by simp) (by simp)
  · exact .of_nil h rfl (by simp) (by simp)

/-- A `pool_get` for a direct caller. -/
theorem Agent.AtPc.take_caller (h : a.AtPc) (hpc : a.pc = .idle) (c : Nat) (dest : CString)
    (groupCap : Nat) (now : Int) : (a.take (.caller c) dest groupCap now).AtPc := by
  have hidle : (a.take (.caller c) dest groupCap now).pc = .idle := hpc
  refine .of_nil ?_ (by rw [hidle]; rfl) (by simp [hidle]) (by simp [hidle])
  have hc := h.conns
  rw [hpc] at hc
  simp only [Agent.take, List.filter_append, hc]
  simp [Holder.isConn, AgentPc.inHand]

/-- The `pool_get` of `handle_conn`. -/
theorem Agent.AtPc.take_conn (h : a.AtPc) (hp : a.pool.Wf) (hpc : a.pc = .idle) (c : Nat)
    (dest : CString) (now : Int) :
    ({ a.take (.conn c) dest 64 now with
      pc := match (poolGet a.pool dest 64 now).ret with
        | none => .refill dest
        | some got => .serving c dest got } : Agent).AtPc := by
  have hc := h.conns
  rw [hpc] at hc
  have hret := (poolGet_spec hp dest 64 now).1
  cases hg : (poolGet a.pool dest 64 now).ret with
  | none =>
    refine .of_nil ?_ rfl (by simp) (by simp)
    simp [Agent.take, hg, hc, AgentPc.inHand]
  | some got =>
    rw [hg] at hret
    obtain ⟨e, he, rfl⟩ := Option.map_eq_some_iff.1 hret.symm
    obtain ⟨b, hb, -⟩ := (hp.ok_of_mem_kept (List.mem_of_getLast? he)).der
    have hder : (e.got 64).der = some b := hb
    refine ⟨?_, ?_, by simp⟩
    · simp only [Agent.take, hg, List.filter_append, hc]
      simp [AgentPc.inHand, hder, Holder.isConn]
    · rintro _ _ _ ⟨⟩
      simp [hder]

/-- The response of `handle_conn`, with the buffer it holds. -/
theorem Agent.AtPc.respond (h : a.AtPc) {c : Nat} {dest : CString} {got : Got} {b : Buf}
    (hpc : a.pc = .serving c dest got) (hb : got.der = some b) (a' : Agent)
    (hheld : a'.held = a.held) (hnil : a'.pc.inHand = [])
    (hs : ∀ c dest got, a'.pc ≠ .serving c dest got) (hc : a'.pc ≠ .closed) :
    (.conn c, b) ∈ a.held ∧ (a'.giveBack (.conn c) b).AtPc := by
  have hconns : a.held.filter (·.1.isConn) = [(.conn c, b)] := by
    rw [h.conns, hpc]
    simp [AgentPc.inHand, hb]
  have hm : (Holder.conn c, b) ∈ a.held :=
    (List.mem_filter.1 (hconns ▸ List.mem_singleton_self _ :
      (Holder.conn c, b) ∈ a.held.filter (·.1.isConn))).1
  refine ⟨hm, ?_⟩
  rw [Agent.giveBack, hheld, if_pos hm]
  refine .of_nil ?_ hnil hs hc
  rw [← List.erase_filter, hconns]
  simp

/-- Every step keeps the invariant. -/
theorem Agent.Inv.step (h : a.Inv) (act : AgentAct) : (a.step act).Inv := by
  have hL := h.toLedger
  have hP := h.toAtPc
  have hc := h.conns
  unfold Agent.step
  split
  next hpc => exact ⟨hL.startMaintain _ _ _, startMaintain_atPc (by rw [hc, hpc]; rfl) _ _ _⟩
  next hpc => exact ⟨hL.startMaintain _ _ _, startMaintain_atPc (by rw [hc, hpc]; rfl) _ _ _⟩
  next dest f hpc =>
    refine ⟨hL.fetch dest f, hP.of_eq ?_ ?_ (by simp [hpc])⟩
    all_goals
      unfold Agent.fetch
      split
      · rfl
      · split <;> rfl
  next hpc => exact ⟨hL.at_pc _, .of_nil (by rw [hc, hpc]; rfl) rfl (by simp) (by simp)⟩
  next dest now hpc => exact ⟨hL.depth dest now, hP.of_eq rfl rfl (by simp [hpc])⟩
  next hpc => exact ⟨hL.take _ _ _ _, hP.take_caller hpc _ _ _ _⟩
  next => exact ⟨hL.giveBack _ _, hP.release _ _⟩
  next hpc =>
    split
    · exact h
    · exact h
    · exact ⟨(hL.take _ _ _ _).at_pc _, hP.take_conn hL.wf hpc _ _ _⟩
  next c dest got mallocOk hpc =>
    obtain ⟨b, hb⟩ := Option.ne_none_iff_exists'.1 (hP.serving _ _ _ hpc)
    rw [hb]
    cases mallocOk with
    | false =>
      have hr := hP.respond hpc hb { a with pc := .idle } rfl rfl (by simp) (by simp)
      exact ⟨(hL.at_pc _).giveBack _ _, hr.2⟩
    | true =>
      have hr := hP.respond hpc hb { a with written := a.written ++ [(c, b)], pc := .refill dest }
        rfl rfl (by simp) (by simp)
      exact ⟨hL.respond hr.1 _, hr.2⟩
  next hpc => exact ⟨hL.free, by rw [hc, hpc]; rfl, by simp, fun _ => rfl⟩
  next => exact h

end Steps

end TicketConnect
