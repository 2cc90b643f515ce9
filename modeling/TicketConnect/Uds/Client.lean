import TicketConnect.Lib.Owned
import TicketConnect.Uds.Reply

/-!
# The whole of `uds_get`

`udsGet` is the protocol of `uds_get` (`ticket-agent/uds.c`) over a connection that is there. Here
is the function around it: the socket, the connection, and the buffer that a session is returned in.
`udsGetCall_out` says that its results are those of `udsGet` once it is connected, unless its caller
is killed by `SIGPIPE`, and `udsGetCall_fetched` that the descriptor is closed on every way out, and
that the buffer is left to the caller exactly where the OK status is.
-/

namespace TicketConnect

open Lib

/-! ## The results -/

/-- The call gets as far as a connection. -/
def GetEnv.connects (env : GetEnv) (path : CString) : Prop :=
  env.socket.isSome ∧ path.strlen < sunPathLen ∧ env.connectOk = true

instance (env : GetEnv) (path : CString) : Decidable (env.connects path) :=
  inferInstanceAs (Decidable (_ ∧ _ ∧ _))

/-- The caller is killed: the agent closes the connection before the request is written. -/
def GetEnv.Kills (env : GetEnv) (path dest : CString) : Prop :=
  (1 ≤ dest.strlen ∧ dest.strlen ≤ udsDestMax) ∧ env.connects path ∧
    (writeAll env.writes (udsRequest dest)).ret ≠ 1 ∧ env.epipe = true

instance (env : GetEnv) (path dest : CString) : Decidable (env.Kills path dest) :=
  inferInstanceAs (Decidable (_ ∧ _ ∧ _ ∧ _))

/-- Once it is connected, `uds_get` returns and stores what its protocol gives, unless its caller is
killed; before that it fails. -/
theorem udsGetCall_out (env : GetEnv) (path dest : CString) (groupCap : Nat)
    (peer : List UInt8 → List UInt8) :
    (udsGetCall env path dest groupCap peer).out =
      if env.Kills path dest then none
      else if env.connects path then
        some (udsGet env.writes env.reads env.malloc.isSome dest groupCap peer)
      else some ⟨-1, none⟩ := by
  rw [udsGet_eq]
  unfold udsGetCall
  by_cases hdest : dest.strlen = 0 ∨ udsDestMax < dest.strlen
  · have hno : ¬env.Kills path dest := fun h => by have := h.1; omega
    rw [if_pos hdest, if_neg hno, if_pos (Or.inl hdest), ite_self]
    rfl
  rw [if_neg hdest]
  have hfail : ¬env.connects path → (if env.Kills path dest then none
      else if env.connects path then some (if (dest.strlen = 0 ∨ udsDestMax < dest.strlen) ∨
          (writeAll env.writes (udsRequest dest)).ret ≠ 1 then ⟨-1, none⟩
        else udsReadReply env.reads env.malloc.isSome groupCap
          (peer (writeAll env.writes (udsRequest dest)).wire))
      else some ⟨-1, none⟩) = some ⟨-1, none⟩ := fun hno => by
    rw [if_neg fun h => hno h.2.1, if_neg hno]
  split
  · next hsocket => exact (hfail (by simp [GetEnv.connects, hsocket])).symm
  next fd hsocket =>
  split
  · next hpath => exact (hfail fun h => absurd h.2.1 (Nat.not_lt.2 hpath)).symm
  next hpath =>
  split
  · next hconn => exact (hfail (by simp [GetEnv.connects, hconn])).symm
  next hconn =>
  have hyes : env.connects path :=
    ⟨by rw [hsocket]; rfl, Nat.not_le.1 hpath, Bool.eq_true_of_not_eq_false hconn⟩
  dsimp only
  by_cases hw : (writeAll env.writes (udsRequest dest)).ret ≠ 1
  · rw [if_pos hw, if_pos hyes, if_pos (Or.inr hw)]
    cases hpipe : env.epipe with
    | true =>
      rw [if_pos rfl, if_pos (show env.Kills path dest from ⟨by omega, hyes, hw, hpipe⟩)]
    | false =>
      rw [if_neg (by decide), if_neg fun h => by have := h.2.2.2; rw [hpipe] at this; cases this]
      rfl
  · rw [if_neg hw, if_neg fun h => hw h.2.2.1, if_pos hyes, if_neg (not_or.2 ⟨hdest, hw⟩)]
    exact readReplyCall_out _ _ _ _ _

/-! ## The resources -/

/-- How `uds_get` ends, with what it holds then: without a session, and with nothing; with the OK
status, a session and its buffer; or in the death of its caller, with the descriptor. -/
inductive Fetched (P : Finset ClientRes) : GetCall → Prop where
  | none {ret : Int} {own : List (Own ClientRes)} (hret : ret ≠ udsStatusOk.toNat)
      (hown : Owns P own ∅) : Fetched P (.status ret own)
  | some {session : ClientSession} {id : Nat} {own : List (Own ClientRes)}
      (hown : Owns P own {.buf id}) :
      Fetched P ⟨some ⟨udsStatusOk.toNat, some session⟩, some id, own⟩
  | killed {fd : Nat} {own : List (Own ClientRes)} (hown : Owns P own {.fd fd}) :
      Fetched P ⟨none, none, own⟩

/-- What is done before a call. -/
theorem Fetched.after {P Q : Finset ClientRes} {r : GetCall} {own : List (Own ClientRes)}
    (h : Fetched Q r) (hown : Owns P own Q) : Fetched P { r with own := own ++ r.own } := by
  cases h with
  | none hret h => exact .none hret (hown.append h)
  | some h => exact .some (hown.append h)
  | killed h => exact .killed (hown.append h)

section Resources
variable (fd : Nat)

/-- The use of an open descriptor. -/
theorem use_fd : Owns {ClientRes.fd fd} [.use (.fd fd)] {.fd fd} :=
  .use (Finset.mem_singleton_self _)

/-- `close`. -/
theorem close_fd : Owns {ClientRes.fd fd} [.release (.fd fd)] ∅ :=
  .release (Finset.notMem_empty _)

/-- `socket`. -/
theorem open_fd : Owns ∅ [Own.acquire (ClientRes.fd fd)] {.fd fd} :=
  .acquire (Finset.notMem_empty _)

/-- The reads of the header and the group name, the `malloc` and the read into its buffer. -/
theorem read_buf (id : Nat) :
    Owns {ClientRes.fd fd}
      [.use (.fd fd), .use (.fd fd), .acquire (.buf id), .use (.fd fd), .use (.buf id)]
      {.buf id, .fd fd} := by
  refine (use_fd fd).cons ((use_fd fd).cons (.cons (.acquire (by simp)) ?_))
  exact .cons (.use (by simp)) (.use (by simp))

/-- `free`, with the descriptor still open. -/
theorem free_buf (id : Nat) :
    Owns {ClientRes.buf id, ClientRes.fd fd} [.release (.buf id)] {.fd fd} :=
  .release (by simp)

/-- The end of `uds_get` closes the descriptor, and keeps the buffer only with a session. -/
theorem readReplyCall_fetched (reads : List IoEv) (malloc : Option Nat) (groupCap : Nat)
    (stream : List UInt8) : Fetched {.fd fd} (readReplyCall fd reads malloc groupCap stream) := by
  have hone : Owns {ClientRes.fd fd} [.use (.fd fd), .release (.fd fd)] ∅ :=
    (use_fd fd).cons (close_fd fd)
  have htwo := (use_fd fd).cons hone
  have hfail : (-1 : Int) ≠ udsStatusOk.toNat := by decide
  unfold readReplyCall
  dsimp only
  split
  · exact .none hfail hone
  split
  · exact .none hfail hone
  split
  · next hstatus =>
    refine .none (fun h => hstatus ?_) hone
    exact UInt8.toNat_inj.1 (Int.ofNat.inj h)
  split
  · exact .none hfail htwo
  cases malloc with
  | none => exact .none hfail htwo
  | some id =>
    dsimp only
    split
    · exact .none hfail ((read_buf fd id).append ((free_buf fd id).cons (close_fd fd)))
    · refine .some ((read_buf fd id).append ?_)
      rw [Finset.pair_comm]
      exact .release (by simp)

end Resources

/-- **`uds_get` closes its descriptor on every way out** that it returns by, and the buffer of a
session is left to the caller exactly with the OK status. -/
theorem udsGetCall_fetched (env : GetEnv) (path dest : CString) (groupCap : Nat)
    (peer : List UInt8 → List UInt8) : Fetched ∅ (udsGetCall env path dest groupCap peer) := by
  have hfail : (-1 : Int) ≠ udsStatusOk.toNat := by decide
  unfold udsGetCall
  split
  · exact .none hfail .nil
  split
  · exact .none hfail .nil
  next fd _ =>
  split
  · exact .none hfail ((open_fd fd).cons (close_fd fd))
  split
  · exact .none hfail ((open_fd fd).cons ((use_fd fd).cons (close_fd fd)))
  have hsent : Owns ∅ [.acquire (ClientRes.fd fd), .use (.fd fd), .use (.fd fd), .use (.fd fd)]
      {.fd fd} :=
    (open_fd fd).cons ((use_fd fd).cons ((use_fd fd).cons (use_fd fd)))
  dsimp only
  split
  · split
    · exact .killed hsent
    · exact .none hfail (hsent.append (close_fd fd))
  · exact (readReplyCall_fetched fd _ _ _ _).after hsent

end TicketConnect
