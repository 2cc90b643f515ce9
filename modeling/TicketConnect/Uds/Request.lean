import TicketConnect.Uds.Reply

/-!
# Which requests are accepted, and what they cause

The parser and the connection handler on arbitrary bytes. `IsFrame` says what `uds_parse_request`
accepts; `udsParseRequest_exact_iff` compares this with what `uds_get` encodes, from which it
differs by destinations that hold a NUL byte. `readRequest_eq` says that `handle_conn` reads the
same request however the stream is cut, and `handleConn_answers` what it then sends and does.
-/

namespace TicketConnect

open Lib

/-! ## What the parser accepts -/

/-- A complete request: magic, version and op, and a length byte that counts the bytes behind the
header, at least one. -/
structure IsFrame (buf : List UInt8) : Prop where
  magic : buf.getD 0 0 = udsMagic
  version : buf.getD 1 0 = udsVersion
  op : buf.getD 2 0 = udsOpGet
  pos : buf.getD 3 0 ≠ 0
  length : buf.length = udsReqHdr + (buf.getD 3 0).toNat

/-- The destination the parser leaves in its buffer, as the C string a caller reads there. -/
def parsedDest (buf : List UInt8) : CString :=
  .ofBuf ((udsParseRequest buf (udsDestMax + 1)).dest.getD [])

section Parser
variable {buf : List UInt8}

/-- The parser stores the bytes behind the header of a complete request. -/
theorem IsFrame.parse (h : IsFrame buf) :
    udsParseRequest buf (udsDestMax + 1) =
      ⟨0, some udsOpGet, some (buf.drop udsReqHdr ++ [0])⟩ := by
  have hlen := h.length
  have hlt := (buf.getD 3 0).toNat_lt
  have hpos : (buf.getD 3 0).toNat ≠ 0 := fun h0 => h.pos (UInt8.toNat.inj h0)
  have htake : (buf.drop udsReqHdr).take (buf.getD 3 0).toNat = buf.drop udsReqHdr :=
    List.take_of_length_le (by rw [List.length_drop]; omega)
  unfold udsParseRequest
  rw [if_neg (by omega), if_neg (by simp only [h.magic, h.version]; decide)]
  dsimp only
  rw [if_neg (by omega), if_neg (by simp only [udsDestMax]; omega), if_neg (not_not.2 h.op), htake,
    h.op]

/-- The parser accepts exactly the complete requests. -/
theorem udsParseRequest_ret_zero :
    (udsParseRequest buf (udsDestMax + 1)).ret = 0 ↔ IsFrame buf := by
  refine ⟨fun h => ?_, fun h => by rw [h.parse]⟩
  unfold udsParseRequest at h
  split at h
  · cases h
  split at h
  · cases h
  next hmv =>
  dsimp only at h
  split at h
  · cases h
  next hlen =>
  split at h
  · cases h
  split at h
  · cases h
  next hop =>
  rw [not_or] at hmv hlen
  exact ⟨not_not.1 hmv.1, not_not.1 hmv.2, not_not.1 hop, fun h0 => hlen.1 (by rw [h0]; rfl),
    (not_not.1 hlen.2).symm⟩

/-- The frame of a destination is a complete request. -/
theorem isFrame_udsRequest {dest : CString} (h : FitsFrame dest) : IsFrame (udsRequest dest) :=
  udsParseRequest_ret_zero.1 (by rw [udsParseRequest_udsRequest h])

/-- The destination parsed from the frame of a destination is that destination. -/
theorem parsedDest_udsRequest {dest : CString} (h : FitsFrame dest) :
    parsedDest (udsRequest dest) = dest := by
  rw [parsedDest, udsParseRequest_udsRequest h]
  exact CString.ofBuf_bytes_nul dest []

/-- A complete request without a NUL byte in its destination is the frame of that destination. -/
theorem IsFrame.eq_udsRequest (h : IsFrame buf) (hnul : 0 ∉ buf.drop udsReqHdr) :
    ∃ dest, FitsFrame dest ∧ buf = udsRequest dest := by
  obtain ⟨hmagic, hversion, hop, hpos, hlen⟩ := h
  have hlt := (buf.getD 3 0).toNat_lt
  have hne : (buf.getD 3 0).toNat ≠ 0 := fun h0 => hpos (UInt8.toNat.inj h0)
  -- the header is the first four bytes, so the bytes behind it are as many as the length byte says
  obtain _ | ⟨b₀, _ | ⟨b₁, _ | ⟨b₂, _ | ⟨b₃, rest⟩⟩⟩⟩ := buf
  iterate 4 simp only [udsReqHdr, List.length_cons, List.length_nil] at hlen; omega
  simp only [List.getD_cons_zero, List.getD_cons_succ] at hmagic hversion hop hlen hlt hne
  have hrest : rest.length = b₃.toNat := by
    simp only [udsReqHdr, List.length_cons] at hlen
    omega
  refine ⟨⟨rest, hnul⟩, ⟨by simp only [CString.strlen]; omega, ?_⟩, ?_⟩
  · simp only [CString.strlen, udsDestMax]
    omega
  · simp only [udsRequest, CString.strlen, hrest, hmagic, hversion, hop, UInt8.ofNat_toNat]
    rfl

/-- What the parser is for, on one buffer: it accepts the buffer exactly when `uds_get` sends it for
some destination, and then stores the op and that very destination. -/
structure ParsesExactly (buf : List UInt8) : Prop where
  accepts : (udsParseRequest buf (udsDestMax + 1)).ret = 0 ↔
    ∃ dest, FitsFrame dest ∧ buf = udsRequest dest
  op : (udsParseRequest buf (udsDestMax + 1)).ret = 0 →
    (udsParseRequest buf (udsDestMax + 1)).op = some udsOpGet
  dest : (udsParseRequest buf (udsDestMax + 1)).ret = 0 →
    udsRequest (parsedDest buf) = buf ∧ (parsedDest buf).strlen = (buf.getD 3 0).toNat

/-- The parser is exact on a buffer, unless it is a complete request whose destination holds a NUL
byte. -/
theorem parsesExactly_iff : ParsesExactly buf ↔ (IsFrame buf → 0 ∉ buf.drop udsReqHdr) := by
  constructor
  · intro h hframe hnul
    obtain ⟨dest, hdest, rfl⟩ := h.accepts.1 (udsParseRequest_ret_zero.2 hframe)
    exact dest.noNul hnul
  · intro h
    have hret := @udsParseRequest_ret_zero buf
    refine ⟨⟨fun h0 => ?_, ?_⟩, fun h0 => ?_, fun h0 => ?_⟩
    · have hframe := hret.1 h0
      exact hframe.eq_udsRequest (h hframe)
    · rintro ⟨dest, hdest, rfl⟩
      exact hret.2 (isFrame_udsRequest hdest)
    · rw [(hret.1 h0).parse]
    · have hframe := hret.1 h0
      obtain ⟨dest, hdest, rfl⟩ := hframe.eq_udsRequest (h hframe)
      rw [parsedDest_udsRequest hdest]
      exact ⟨rfl, (toNat_ofNat_strlen hdest).symm⟩

end Parser

/-- **The parser accepts exactly what the client encodes, up to NUL bytes.** For every two buffers:
each is accepted exactly when it is the frame of a destination of 1 to 255 bytes, and is then parsed
as that destination, and if both are accepted with the same destination they are equal. This holds
exactly when neither is a complete request with a NUL byte in its destination. -/
theorem udsParseRequest_exact_iff (buf buf' : List UInt8) :
    (ParsesExactly buf ∧ ParsesExactly buf' ∧
      ((udsParseRequest buf (udsDestMax + 1)).ret = 0 →
        (udsParseRequest buf' (udsDestMax + 1)).ret = 0 →
        parsedDest buf = parsedDest buf' → buf = buf')) ↔
      (IsFrame buf → 0 ∉ buf.drop udsReqHdr) ∧ (IsFrame buf' → 0 ∉ buf'.drop udsReqHdr) := by
  rw [← parsesExactly_iff, ← parsesExactly_iff]
  refine ⟨fun h => ⟨h.1, h.2.1⟩, fun ⟨h, h'⟩ => ⟨h, h', fun h0 h0' heq => ?_⟩⟩
  -- both are the encoding of the one destination
  rw [← (h.dest h0).1, ← (h'.dest h0').1, heq]

/-- A request for `a`, NUL, `b` is accepted with the destination `a`, like the request for `a`. -/
theorem udsParseRequest_nul :
    let buf := [0x54, 1, 1, 3, 97, 0, 98]
    (udsParseRequest buf (udsDestMax + 1)).ret = 0 ∧
      parsedDest buf = ⟨[97], by decide⟩ ∧
      (udsParseRequest [0x54, 1, 1, 1, 97] (udsDestMax + 1)).ret = 0 ∧
      parsedDest [0x54, 1, 1, 1, 97] = ⟨[97], by decide⟩ ∧
      ¬∃ dest, FitsFrame dest ∧ buf = udsRequest dest := by
  intro buf
  refine ⟨by decide, by decide, by decide, by decide, ?_⟩
  rintro ⟨dest, -, h⟩
  have hdest : dest.bytes = [97, 0, 98] := (congrArg (List.drop udsReqHdr) h).symm
  exact dest.noNul (by simp [hdest])

/-! ## The request of a stream -/

/-- The length of the request that a stream starts with. -/
def requestLen (stream : List UInt8) : Nat := udsReqHdr + (stream.getD 3 0).toNat

/-- The early check of `handle_conn` on the header. -/
def BadHeader (stream : List UInt8) : Prop :=
  stream.getD 0 0 ≠ udsMagic ∨ stream.getD 1 0 ≠ udsVersion ∨ stream.getD 3 0 = 0

instance (stream : List UInt8) : Decidable (BadHeader stream) :=
  inferInstanceAs (Decidable (_ ∨ _ ∨ _))

/-- The early check rejects no complete request. -/
theorem IsFrame.not_badHeader {buf : List UInt8} (h : IsFrame buf) : ¬BadHeader buf := by
  rintro (hm | hv | hp)
  exacts [hm h.magic, hv h.version, h.pos hp]

section Stream
variable {reads : List IoEv} {stream : List UInt8}

/-- The header of a stream is the header of the request at its front. -/
theorem badHeader_take : BadHeader (stream.take (requestLen stream)) ↔ BadHeader stream := by
  have hle : udsReqHdr ≤ requestLen stream := Nat.le_add_right _ _
  unfold BadHeader
  rw [getD_take (Nat.lt_of_lt_of_le (show 0 < udsReqHdr by decide) hle),
    getD_take (Nat.lt_of_lt_of_le (show 1 < udsReqHdr by decide) hle),
    getD_take (Nat.lt_of_lt_of_le (show 3 < udsReqHdr by decide) hle)]

/-- The request `handle_conn` reads, where no call fails: it depends on the stream only, not on how
the stream is cut, and only on its first `requestLen` bytes. -/
theorem readRequest_eq (hr : .fail ∉ reads) :
    readRequest reads stream =
      if stream.length < udsReqHdr then .closed
      else if BadHeader stream then .malformed
      else if stream.length < requestLen stream then .closed
      else if (udsParseRequest (stream.take (requestLen stream)) (udsDestMax + 1)).ret ≠ 0 then
        .malformed
      else .get (parsedDest (stream.take (requestLen stream))) := by
  unfold readRequest
  by_cases hlen : stream.length < udsReqHdr
  · rw [if_pos hlen, if_pos (readExact_short hlen)]
  obtain ⟨calls, hf, hhdr⟩ := readExact_take hr (not_lt.1 hlen)
  rw [if_neg hlen, hhdr]
  simp (disch := decide) only [getD_take, ne_eq, not_true_eq_false, if_false]
  change (if BadHeader stream then _ else _) = _
  by_cases hbad : BadHeader stream
  · rw [if_pos hbad, if_pos hbad]
  rw [if_neg hbad, if_neg hbad]
  by_cases hcut : stream.length < requestLen stream
  · have hdrop : (stream.drop udsReqHdr).length < (stream.getD 3 0).toNat := by
      rw [requestLen] at hcut
      rw [List.length_drop]
      omega
    rw [if_pos hcut, if_pos (readExact_short hdrop)]
  -- the two buffers read are the first `requestLen` bytes of the stream
  have hdrop : (stream.getD 3 0).toNat ≤ (stream.drop udsReqHdr).length := by
    rw [requestLen] at hcut
    rw [List.length_drop]
    omega
  obtain ⟨_, -, hbody⟩ := readExact_take hf hdrop
  rw [if_neg hcut, hbody]
  simp only [not_true_eq_false, if_false, ← List.take_add]
  rfl

/-- A stream and every stream with the same request at its front are read alike. -/
theorem readRequest_congr (hr : .fail ∉ reads) {reads' : List IoEv} (hr' : .fail ∉ reads')
    {stream' : List UInt8}
    (h : stream'.take (requestLen stream) = stream.take (requestLen stream)) :
    readRequest reads' stream' = readRequest reads stream := by
  have hle : udsReqHdr ≤ requestLen stream := Nat.le_add_right _ _
  have hget : ∀ i < udsReqHdr, stream'.getD i 0 = stream.getD i 0 := by
    intro i hi
    rw [← getD_take (Nat.lt_of_lt_of_le hi hle), h, getD_take (Nat.lt_of_lt_of_le hi hle)]
  have hreq : requestLen stream' = requestLen stream := by
    rw [requestLen, requestLen, hget 3 (by decide)]
  have hbad : BadHeader stream' ↔ BadHeader stream := by
    unfold BadHeader
    rw [hget 0 (by decide), hget 1 (by decide), hget 3 (by decide)]
  -- the fronts have the same length, which says on both sides whether a part is cut short
  have hlen := congrArg List.length h
  rw [List.length_take, List.length_take] at hlen
  have hcut : stream'.length < requestLen stream ↔ stream.length < requestLen stream := by omega
  have hshort : stream'.length < udsReqHdr ↔ stream.length < udsReqHdr := by omega
  rw [readRequest_eq hr, readRequest_eq hr', hreq, h]
  simp only [hbad, hcut, hshort]

end Stream

/-! ## The effects of a connection -/

/-- The effect of one thing that `handle_conn` does, on the connection and the pool. -/
def ConnEv.exec (env : ConnEnv) (out : ConnOut) : ConnEv → ConnOut
  | .get dest =>
    let g := poolGet out.pool dest 64 env.now
    ⟨out.wire, g.pool, out.freed ++ g.freed⟩
  | .send frame => ⟨out.wire ++ (writeAll env.writes frame).wire, out.pool, out.freed⟩
  | .free der => ⟨out.wire, out.pool, out.freed ++ der.toList⟩
  | .maintain dest =>
    let m := poolMaintain out.pool dest env.maintain
    ⟨out.wire, m.pool, out.freed ++ m.freed⟩

/-- `handle_conn` is the execution of its log, which holds at most one response. -/
theorem handleConn_eq_foldl (env : ConnEnv) (p : Pool) :
    handleConn env p = (connLog env p).foldl (ConnEv.exec env) ⟨[], p, []⟩ := by
  unfold handleConn connLog handleConnRun
  cases readRequest env.reads env.stream with
  | closed => rfl
  | malformed => rfl
  | get dest =>
    dsimp only
    cases (poolGet p dest 64 env.now).ret with
    | none => rfl
    | some got =>
      cases env.mallocOk
      · rfl
      · simp [ConnEv.exec]

/-- The response to a hit is one complete OK response. -/
theorem okReply_okResponse {e : PoolEntry} (he : e.Ok) :
    OkReply (okResponse (e.got 64)) ∧
      (okResponse (e.got 64)).length = replyLen (okResponse (e.got 64)) := by
  obtain ⟨b, hb, -⟩ := he.der
  have hlt := (he.length_bytes hb).2
  have hgl := he.toNat_ofNat_group
  have hbe := getBE32_putBE32 (v := b.bytes.length) (by omega)
  have hlen : (okResponse (e.got 64)).length = replyLen (okResponse (e.got 64)) := by
    rw [okResponse_eq he hb]
    simp only [replyLen, replyGroupLen, replyDerLen, putBE32, List.cons_append, List.nil_append,
      List.getD_cons_zero, List.getD_cons_succ, hgl, hbe, List.length_cons, List.length_append,
      udsRespHdr]
    rw [CString.strlen]
    omega
  refine ⟨⟨?_, ?_, ?_, hlen.ge⟩, hlen⟩ <;> rw [okResponse_eq he hb] <;> rfl

section Answers
variable {env : ConnEnv} {p : Pool}

/-- What a connection does is decided by the request it reads. -/
theorem handleConn_congr {reads : List IoEv} {stream : List UInt8}
    (h : readRequest reads stream = readRequest env.reads env.stream) :
    connLog { env with reads, stream } p = connLog env p ∧
      handleConn { env with reads, stream } p = handleConn env p := by
  unfold connLog handleConn handleConnRun
  rw [h]
  exact ⟨rfl, rfl⟩

/-- A connection that is closed too early. -/
theorem handleConn_closed (h : readRequest env.reads env.stream = .closed) :
    connLog env p = [] ∧ handleConn env p = ⟨[], p, []⟩ := by
  unfold connLog handleConn handleConnRun
  rw [h]
  exact ⟨rfl, rfl⟩

/-- A malformed request. -/
theorem handleConn_malformed (hw : .fail ∉ env.writes)
    (h : readRequest env.reads env.stream = .malformed) :
    connLog env p = [.send (statusFrame udsStatusError)] ∧
      handleConn env p = ⟨statusFrame udsStatusError, p, []⟩ := by
  have hwire := (writeAll_ok (statusFrame udsStatusError) hw).2.1
  unfold connLog handleConn handleConnRun
  rw [h]
  refine ⟨rfl, ?_⟩
  dsimp only [sendStatus]
  rw [hwire]

/-- A request that names a destination, where the allocation succeeds: one `pool_get`, one response,
and one `pool_maintain`. -/
theorem handleConn_get (hp : p.Wf) (hw : .fail ∉ env.writes) (hm : env.mallocOk = true)
    {dest : CString} (h : readRequest env.reads env.stream = .get dest) :
    ∃ response freed, connLog env p = .get dest :: .send response :: freed ++ [.maintain dest] ∧
      (∀ ev ∈ freed, ∃ b, ev = .free (some b)) ∧
      ((poolGet p dest 64 env.now).ret = none ∧ response = statusFrame udsStatusMiss ∨
        ∃ g, (poolGet p dest 64 env.now).ret = some g ∧ response = okResponse g ∧
          OkReply response ∧ response.length = replyLen response) ∧
      (handleConn env p).wire = response ∧
      (handleConn env p).pool =
        (poolMaintain (poolGet p dest 64 env.now).pool dest env.maintain).pool := by
  have hwire := fun frame => (writeAll_ok frame hw).2.1
  have hret := (poolGet_spec hp dest 64 env.now).1
  rw [handleConn_eq_foldl]
  unfold connLog handleConnRun
  rw [h]
  dsimp only
  cases hl : (p.kept dest env.now).getLast? with
  | none =>
    rw [hl, Option.map_none] at hret
    rw [hret]
    refine ⟨_, [], rfl, by simp, .inl ⟨rfl, rfl⟩, ?_, rfl⟩
    simp [ConnEv.exec, hwire]
  | some e =>
    rw [hl, Option.map_some] at hret
    have he : e.Ok := hp.ok_of_mem_kept (List.mem_of_getLast? hl)
    obtain ⟨b, hb, -⟩ := he.der
    rw [hret, hm]
    refine ⟨okResponse (e.got 64), [.free (e.got 64).der], rfl, ?_,
      .inr ⟨_, rfl, rfl, okReply_okResponse he⟩, ?_, rfl⟩
    · intro ev hev
      rw [List.mem_singleton] at hev
      exact ⟨b, hev.trans (congrArg _ hb)⟩
    · simp [ConnEv.exec, hwire]

end Answers

/-- **Bad requests get one error frame and touch nothing.** For every pool state of the agent, every
stream a client sends before closing and every fragmentation: what `handle_conn` does depends only
on the first `4 + dest_len` bytes. A full header that is bad, or a full request that the parser
rejects, gets one error frame, and neither the pool nor the source is touched. A header or a
destination that is cut short gets nothing. A request that parses gets, if the allocation succeeds,
one miss or one complete OK response, after one `pool_get` and before one `pool_maintain` for that
destination. The early header check rejects nothing that the parser accepts. -/
theorem handleConn_answers (targetDepth : Int) (ops : List PoolOp) (env : ConnEnv)
    (hr : .fail ∉ env.reads) (hw : .fail ∉ env.writes) :
    let p := poolAfter targetDepth ops
    let frame := env.stream.take (requestLen env.stream)
    let dest := parsedDest frame
    let got := poolGet p dest 64 env.now
    (∀ (reads : List IoEv) (stream : List UInt8), .fail ∉ reads →
      stream.take (requestLen env.stream) = frame →
        connLog { env with reads, stream } p = connLog env p ∧
        handleConn { env with reads, stream } p = handleConn env p) ∧
    (udsReqHdr ≤ env.stream.length →
      BadHeader env.stream ∨ requestLen env.stream ≤ env.stream.length ∧
        (udsParseRequest frame (udsDestMax + 1)).ret ≠ 0 →
      connLog env p = [.send (statusFrame udsStatusError)] ∧
        handleConn env p = ⟨statusFrame udsStatusError, p, []⟩) ∧
    (env.stream.length < udsReqHdr ∨
        ¬BadHeader env.stream ∧ env.stream.length < requestLen env.stream →
      connLog env p = [] ∧ handleConn env p = ⟨[], p, []⟩) ∧
    (requestLen env.stream ≤ env.stream.length →
      (udsParseRequest frame (udsDestMax + 1)).ret = 0 → env.mallocOk = true →
      ∃ response freed, connLog env p = .get dest :: .send response :: freed ++ [.maintain dest] ∧
        (∀ ev ∈ freed, ∃ b, ev = .free (some b)) ∧
        (got.ret = none ∧ response = statusFrame udsStatusMiss ∨
          ∃ g, got.ret = some g ∧ response = okResponse g ∧ OkReply response ∧
            response.length = replyLen response) ∧
        (handleConn env p).wire = response ∧
        (handleConn env p).pool = (poolMaintain got.pool dest env.maintain).pool) ∧
    ∀ buf : List UInt8, (udsParseRequest buf (udsDestMax + 1)).ret = 0 → ¬BadHeader buf := by
  intro p frame dest got
  have hreq := @readRequest_eq env.reads env.stream hr
  refine ⟨?_, ?_, ?_, ?_, ?_⟩
  · intro reads stream hreads hfront
    exact handleConn_congr (readRequest_congr hr hreads hfront)
  · intro hlen hbad
    refine handleConn_malformed hw ?_
    rw [hreq, if_neg (by omega)]
    rcases hbad with hbad | ⟨hfull, hret⟩
    · rw [if_pos hbad]
    · rw [if_neg (show ¬env.stream.length < requestLen env.stream by omega), if_pos hret, ite_self]
  · intro hcut
    refine handleConn_closed ?_
    rw [hreq]
    rcases hcut with hshort | ⟨hgood, hcut⟩
    · rw [if_pos hshort]
    · rw [if_neg hgood, if_pos hcut, ite_self]
  · intro hfull hret hm
    refine handleConn_get (poolAfter_wf targetDepth ops) hw hm ?_
    -- the parser's own checks imply the early ones
    have hgood : ¬BadHeader env.stream := fun hbad =>
      (udsParseRequest_ret_zero.1 hret).not_badHeader (badHeader_take.2 hbad)
    have hlen : udsReqHdr ≤ requestLen env.stream := Nat.le_add_right _ _
    rw [hreq, if_neg (by omega), if_neg hgood, if_neg (by omega), if_neg (not_not.2 hret)]
  · intro buf h
    exact (udsParseRequest_ret_zero.1 h).not_badHeader

/-- An unknown op, in a stream that is cut at odd places. -/
theorem handleConn_answers_unknown_op :
    let env : ConnEnv := ⟨[0x54, 1, 9, 1, 97, 7], [.bytes 0, .eintr, .bytes 3], [.bytes 4, .eintr],
      true, 100, ⟨100, true, []⟩⟩
    connLog env (poolAfter 1 []) = [.send (statusFrame udsStatusError)] ∧
      handleConn env (poolAfter 1 []) = ⟨statusFrame udsStatusError, poolAfter 1 [], []⟩ := by
  intro env
  have h := handleConn_answers 1 [] env (by decide) (by decide)
  exact h.2.1 (by decide) (.inr ⟨by decide, by decide⟩)

end TicketConnect
