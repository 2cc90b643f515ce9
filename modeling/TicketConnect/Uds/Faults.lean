import TicketConnect.Uds.Request

/-!
# The exchange when calls fail

`uds_get` talking to `handle_conn` where any call on either side may fail: a write of the request, a
read of it, a write or a read of the response (`uds_get` waits three seconds for one), and the
`malloc` of either side. What arrives is then a front part of what was sent. `readRequest_of_front`
says that the agent reads the destination that was asked for or nothing, and `OkReply.eq_of_front`
that the client takes a response for complete only when it is. `faulty_exchange` puts them together.
-/

namespace TicketConnect

open Lib

/-! ## What arrives -/

/-- What `write_all` puts on the wire is a front part of its buffer, whatever the calls did. -/
theorem writeAll_front : ∀ (calls : List IoEv) (buf : List UInt8),
    (writeAll calls buf).wire <+: buf
  | calls, [] => by simp [writeAll]
  | [], _ :: _ => by simp [writeAll]
  | .eintr :: calls, b :: buf => by
    unfold writeAll
    exact writeAll_front calls (b :: buf)
  | .fail :: calls, b :: buf => by simp [writeAll]
  | .bytes k :: calls, b :: buf => by
    unfold writeAll
    have ih := writeAll_front calls ((b :: buf).drop k)
    dsimp only
    conv_rhs => rw [← List.take_append_drop k (b :: buf)]
    exact (List.prefix_append_right_inj _).2 ih

/-- A front part with room for the header is the header followed by a front part of the rest. -/
theorem prefix_append_cases {a b s : List UInt8} (h : s <+: a ++ b) (hlen : a.length ≤ s.length) :
    ∃ t, s = a ++ t ∧ t <+: b := by
  obtain ⟨t, rfl⟩ := List.prefix_of_prefix_length_le (List.prefix_append a b) h hlen
  exact ⟨t, rfl, (List.prefix_append_right_inj a).1 h⟩

/-- The agent reads the destination of a request, or the connection ends for it too early. -/
theorem readRequest_of_front {dest : CString} (hdest : FitsFrame dest) {stream : List UInt8}
    (h : stream <+: udsRequest dest) (reads : List IoEv) :
    readRequest reads stream = .closed ∨
      stream = udsRequest dest ∧ readRequest reads stream = .get dest := by
  obtain hret | ⟨calls, hlen, hhdr⟩ := readExact_cases reads udsReqHdr stream
  · exact .inl (by unfold readRequest; simp only [if_pos hret])
  obtain ⟨body, rfl, hbody⟩ :=
    prefix_append_cases (a := [udsMagic, udsVersion, udsOpGet, .ofNat dest.strlen]) h hlen
  have hbyte := toNat_ofNat_strlen hdest
  have hne := ofNat_strlen_ne hdest
  replace hhdr : readExact reads udsReqHdr
      (udsMagic :: udsVersion :: udsOpGet :: .ofNat dest.strlen :: body) =
        ⟨1, [udsMagic, udsVersion, udsOpGet, .ofNat dest.strlen], body, calls⟩ := hhdr
  obtain hret | ⟨calls', hlen', hread⟩ := readExact_cases calls dest.strlen body
  · left
    simp [readRequest, hhdr, hne, hbyte, hret]
  · -- as many bytes as the destination has are the destination
    obtain rfl : body = dest.bytes := hbody.eq_of_length_le hlen'
    have hparse := udsParseRequest_udsRequest hdest
    simp only [udsRequest, List.cons_append, List.nil_append] at hparse
    rw [show dest.bytes.take dest.strlen = dest.bytes from List.take_length] at hread
    refine .inr ⟨rfl, ?_⟩
    simp [readRequest, hhdr, hne, hbyte, hread, hparse]

/-! ## What the client takes for a response -/

section Reply
variable {stream frame : List UInt8}

/-- A front part that has a byte has the byte of the whole. -/
theorem getD_of_front (h : stream <+: frame) {i : Nat} (hi : i < stream.length) :
    stream.getD i 0 = frame.getD i 0 := by
  obtain ⟨rest, rfl⟩ := h
  simp [List.getD_eq_getElem?_getD, List.getElem?_append_left hi]

/-- A complete response has its header. -/
theorem OkReply.hdr_le (h : OkReply stream) : udsRespHdr ≤ stream.length := by
  have := h.complete
  unfold replyLen at this
  omega

/-- A front part of a frame that is a complete response is the whole frame, where the frame is as
long as its header says; and the frame is an OK response. -/
theorem OkReply.eq_of_front (h : OkReply stream) (hp : stream <+: frame)
    (hframe : frame.length ≤ replyLen frame) : stream = frame := by
  have hhdr := h.hdr_le
  have hbyte : ∀ i < 9, stream.getD i 0 = frame.getD i 0 := fun i hi =>
    getD_of_front hp (lt_of_lt_of_le hi hhdr)
  have hlen : replyLen stream = replyLen frame := by
    simp only [replyLen, replyGroupLen, replyDerLen, hbyte 4 (by decide), hbyte 5 (by decide),
      hbyte 6 (by decide), hbyte 7 (by decide), hbyte 8 (by decide)]
  exact hp.eq_of_length_le (by have := h.complete; omega)

end Reply

/-! ## The exchange -/

/-- How the calls of one exchange go on both sides, failures included. -/
structure Faults where
  clientWrites : List IoEv
  clientReads : List IoEv
  clientMalloc : Bool
  serverReads : List IoEv
  serverWrites : List IoEv
  serverMalloc : Bool

/-- What `handle_conn` works with when a client has sent `stream`. -/
def Faults.connEnv (faults : Faults) (now : Int) (env : MaintainEnv) (stream : List UInt8) :
    ConnEnv :=
  ⟨stream, faults.serverReads, faults.serverWrites, faults.serverMalloc, now, env⟩

/-- The bytes of the request that reach the agent. -/
def Faults.request (faults : Faults) (dest : CString) : List UInt8 :=
  (writeAll faults.clientWrites (udsRequest dest)).wire

/-- `uds_get` against an agent whose pool is `p`: its result, and the agent's pool afterwards. For a
destination that does not fit a frame no connection is made. -/
def faultyExchange (p : Pool) (faults : Faults) (now : Int) (env : MaintainEnv) (dest : CString)
    (groupCap : Nat) : ClientOut × Pool :=
  (udsGet faults.clientWrites faults.clientReads faults.clientMalloc dest groupCap fun request =>
      (handleConn (faults.connEnv now env request) p).wire,
    if dest.strlen = 0 ∨ udsDestMax < dest.strlen then p
    else (handleConn (faults.connEnv now env (faults.request dest)) p).pool)

/-- How an exchange can end, by what the agent's `pool_get` returned: the request does not reach the
agent whole; a miss, after which the agent refills; a hit whose response the agent cannot allocate;
a hit whose response it sends. The client learns of the answer, or its call fails. -/
inductive Answered (p : Pool) (faults : Faults) (now : Int) (env : MaintainEnv) (dest : CString)
    (groupCap : Nat) : ClientOut → Pool → Prop
  | unread : Answered p faults now env dest groupCap ⟨-1, none⟩ p
  | missed {out : ClientOut}
      (hreq : readRequest faults.serverReads (faults.request dest) = .get dest)
      (hmiss : (poolGet p dest groupCap now).ret = none)
      (hout : out = ⟨-1, none⟩ ∨ out = ⟨udsStatusMiss.toNat, none⟩) :
      Answered p faults now env dest groupCap out
        (poolMaintain (poolGet p dest groupCap now).pool dest env).pool
  | refused {out : ClientOut} {g : Got}
      (hreq : readRequest faults.serverReads (faults.request dest) = .get dest)
      (hhit : (poolGet p dest groupCap now).ret = some g) (hmalloc : faults.serverMalloc = false)
      (hout : out = ⟨-1, none⟩ ∨ out = ⟨udsStatusError.toNat, none⟩) :
      Answered p faults now env dest groupCap out (poolGet p dest groupCap now).pool
  | served {out : ClientOut} {g : Got} {b : Buf}
      (hreq : readRequest faults.serverReads (faults.request dest) = .get dest)
      (hhit : (poolGet p dest groupCap now).ret = some g) (hder : g.der = some b)
      (hmalloc : faults.serverMalloc = true)
      (hout : out = ⟨-1, none⟩ ∨ out = ⟨udsStatusOk.toNat, some (g.client b)⟩) :
      Answered p faults now env dest groupCap out
        (poolMaintain (poolGet p dest groupCap now).pool dest env).pool

section Reply
variable {groupCap : Nat} (reads : List IoEv) (mallocOk : Bool)

/-- A status frame, or a front part of one, is read as that status or not at all. -/
theorem udsReadReply_sendStatus (writes : List IoEv) {status : UInt8} (hs : status ≠ udsStatusOk) :
    udsReadReply reads mallocOk groupCap (sendStatus writes status) = ⟨-1, none⟩ ∨
      udsReadReply reads mallocOk groupCap (sendStatus writes status) = ⟨status.toNat, none⟩ := by
  have hp := writeAll_front writes (statusFrame status)
  rw [← sendStatus] at hp
  obtain hret | ⟨calls, hlen, hhdr⟩ := readExact_cases reads udsRespHdr (sendStatus writes status)
  · left
    unfold udsReadReply readReplyCall
    rw [if_pos hret]
    rfl
  · right
    -- nine bytes of the frame are the frame
    rw [hp.eq_of_length_le hlen] at hhdr ⊢
    unfold udsReadReply readReplyCall
    rw [hhdr]
    simp [udsRespHdr, statusFrame, hs]

/-- Where the status byte, if it arrives, is OK, a call that stores nothing has failed. -/
theorem udsReadReply_none {stream : List UInt8}
    (hstatus : udsRespHdr ≤ stream.length → stream.getD 2 0 = udsStatusOk)
    (hnone : (udsReadReply reads mallocOk groupCap stream).session = none) :
    udsReadReply reads mallocOk groupCap stream = ⟨-1, none⟩ := by
  unfold udsReadReply readReplyCall at hnone ⊢
  obtain hret | ⟨calls, hlen, hhdr⟩ := readExact_cases reads udsRespHdr stream
  · rw [if_pos hret]
    rfl
  simp (disch := decide) only [hhdr, getD_take, hstatus hlen, ne_eq, not_true_eq_false,
    if_false] at hnone ⊢
  cases mallocOk with
  | false =>
    simp only [Bool.false_eq_true, if_false]
    split_ifs <;> rfl
  | true =>
    simp only [if_true] at hnone ⊢
    split_ifs at hnone ⊢ <;> first | rfl | cases hnone

/-- The response to a hit, or a front part of it, is read as the session or not at all. -/
theorem udsReadReply_got {e : PoolEntry} {b : Buf} (he : e.Ok) (hb : e.der = some b)
    (writes : List IoEv) :
    let out := udsReadReply reads mallocOk groupCap (writeAll writes (okResponse (e.got 64))).wire
    out = ⟨-1, none⟩ ∨ out = ⟨udsStatusOk.toNat, some ((e.got groupCap).client b)⟩ := by
  intro out
  have hp := writeAll_front writes (okResponse (e.got 64))
  have hreply : Replied groupCap _ out := udsReadReply_replied reads mallocOk
  have hnone : out.session = none → out = ⟨-1, none⟩ :=
    udsReadReply_none reads mallocOk fun hlen =>
      getD_of_front hp (lt_of_lt_of_le (by decide) hlen)
  generalize out = out at hreply hnone ⊢
  cases hreply with
  | failed => exact .inl rfl
  | status => exact .inl (hnone rfl)
  | ok hok =>
    have heq := hok.eq_of_front hp (okReply_okResponse he).2.le
    have hsession := udsReadReply_okResponse he hb (List.not_mem_nil (a := IoEv.fail))
      (List.not_mem_nil (a := IoEv.fail)) groupCap
    rw [(writeAll_ok _ List.not_mem_nil).2.1] at hsession
    rw [heq] at hok ⊢
    exact .inr ((udsReadReply_of_okReply hok List.not_mem_nil).symm.trans hsession)

end Reply

/-- A closed connection is a failed call. -/
theorem udsReadReply_nil (reads : List IoEv) (mallocOk : Bool) (groupCap : Nat) :
    udsReadReply reads mallocOk groupCap [] = ⟨-1, none⟩ := by
  unfold udsReadReply readReplyCall
  rw [if_pos (readExact_short (by decide))]
  rfl

/-- What `handle_conn` makes of a request for `dest`, and what a client makes of its answer. -/
theorem Answered.of_request {p : Pool} (hp : p.Wf) {dest : CString} {faults : Faults} {now : Int}
    {env : MaintainEnv} (groupCap : Nat)
    (hreq : readRequest faults.serverReads (faults.request dest) = .get dest) {out : ClientOut}
    (hout : out = ⟨-1, none⟩ ∨
      out = udsReadReply faults.clientReads faults.clientMalloc groupCap
        (handleConn (faults.connEnv now env (faults.request dest)) p).wire) :
    Answered p faults now env dest groupCap out
      (handleConn (faults.connEnv now env (faults.request dest)) p).pool := by
  have hget := fun cap => (poolGet_spec hp dest cap now).1
  have hpool := poolGet_pool_groupCap p dest 64 groupCap now
  cases hl : (p.kept dest now).getLast? with
  | none =>
    have hmiss : ∀ cap, (poolGet p dest cap now).ret = none := fun cap => by rw [hget, hl]; rfl
    simp only [handleConn, handleConnRun, Faults.connEnv, hreq, hmiss, hpool] at hout ⊢
    refine .missed hreq (hmiss groupCap) ?_
    rcases hout with hout | hout
    · exact .inl hout
    · rw [hout]
      exact udsReadReply_sendStatus _ _ _ (by decide)
  | some e =>
    have he : e.Ok := hp.ok_of_mem_kept (List.mem_of_getLast? hl)
    obtain ⟨b, hb, -⟩ := he.der
    have hhit : ∀ cap, (poolGet p dest cap now).ret = some (e.got cap) := fun cap => by
      rw [hget, hl]; rfl
    cases hm : faults.serverMalloc with
    | false =>
      simp only [handleConn, handleConnRun, Faults.connEnv, hreq, hhit, hpool, hm,
        Bool.false_eq_true, if_false] at hout ⊢
      refine .refused hreq (hhit groupCap) hm ?_
      rcases hout with hout | hout
      · exact .inl hout
      · rw [hout]
        exact udsReadReply_sendStatus _ _ _ (by decide)
    | true =>
      simp only [handleConn, handleConnRun, Faults.connEnv, hreq, hhit, hpool, hm,
        if_true] at hout ⊢
      refine .served hreq (hhit groupCap) hb hm ?_
      rcases hout with hout | hout
      · exact .inl hout
      · rw [hout]
        exact udsReadReply_got _ _ he hb _

/-- `uds_get` fails, or it reads the answer to what it wrote. -/
theorem udsGet_cases (writes reads : List IoEv) (mallocOk : Bool) (dest : CString) (groupCap : Nat)
    (peer : List UInt8 → List UInt8) :
    udsGet writes reads mallocOk dest groupCap peer = ⟨-1, none⟩ ∨
      udsGet writes reads mallocOk dest groupCap peer =
        udsReadReply reads mallocOk groupCap (peer (writeAll writes (udsRequest dest)).wire) := by
  rw [udsGet_eq]
  split
  exacts [.inl rfl, .inr rfl]

/-- The exchange ends in one of these ways, from every well-formed pool. -/
theorem faultyExchange_answered {p : Pool} (hp : p.Wf) (faults : Faults) (now : Int)
    (env : MaintainEnv) (dest : CString) (groupCap : Nat) :
    Answered p faults now env dest groupCap (faultyExchange p faults now env dest groupCap).1
      (faultyExchange p faults now env dest groupCap).2 := by
  have hout := udsGet_cases faults.clientWrites faults.clientReads faults.clientMalloc dest groupCap
    fun request => (handleConn (faults.connEnv now env request) p).wire
  by_cases hfit : dest.strlen = 0 ∨ udsDestMax < dest.strlen
  · simp only [faultyExchange, udsGet_eq, if_pos hfit, if_pos (Or.inl hfit)]
    exact .unread
  simp only [faultyExchange, if_neg hfit]
  rcases readRequest_of_front ⟨by omega, by omega⟩
    (writeAll_front faults.clientWrites (udsRequest dest)) faults.serverReads
    with hclosed | ⟨-, hreq⟩
  · rw [← Faults.request] at hclosed hout
    have hconn : handleConn (faults.connEnv now env (faults.request dest)) p = ⟨[], p, []⟩ := by
      simp only [handleConn, handleConnRun, Faults.connEnv, hclosed]
    rw [hconn, udsReadReply_nil, or_self] at hout
    rw [hconn, hout]
    exact .unread
  · exact .of_request hp groupCap hreq hout

/-- **A failing exchange delivers the session `pool_get` popped, or nothing.** For every pool state,
every destination and every way the calls of both sides may go, fail or be cut short: the agent
looks up the destination the client asked for or nothing at all; and the client gets the session
that `pool_get` on that pool returns, whole, or none. A miss is reported only for a miss, an error
only where the agent had a session and could not allocate its response. The pool is unchanged, or as
`pool_get` leaves it, refilled except after such an error. -/
theorem faulty_exchange (targetDepth : Int) (ops : List PoolOp) (faults : Faults) (now : Int)
    (env : MaintainEnv) (dest : CString) (groupCap : Nat) :
    let p := poolAfter targetDepth ops
    let x := faultyExchange p faults now env dest groupCap
    Answered p faults now env dest groupCap x.1 x.2 :=
  faultyExchange_answered (poolAfter_wf targetDepth ops) faults now env dest groupCap

end TicketConnect
