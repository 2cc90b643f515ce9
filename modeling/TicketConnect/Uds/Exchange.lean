import TicketConnect.Pool.Refine
import TicketConnect.Uds.Model

/-!
# The socket path agrees with the direct path

`uds_get` talking to `handle_conn` gives the injector what a direct `pool_get` would have given it,
whatever way the two byte streams are cut into system calls. Two encoders and two decoders meet
here: the request frame is read back by `readRequest_udsRequest`, the response frames by
`udsReadReply_status` and `udsReadReply_okResponse`.
-/

namespace TicketConnect

open Lib

/-! ## The request -/

/-- A destination that fits a frame. -/
def FitsFrame (dest : CString) : Prop := 1 ≤ dest.strlen ∧ dest.strlen ≤ udsDestMax

section Request
variable {dest : CString}

/-- The length byte of the frame is the length of the destination. -/
theorem toNat_ofNat_strlen (h : FitsFrame dest) :
    (UInt8.ofNat dest.strlen).toNat = dest.strlen := by
  have := h.2
  simp only [udsDestMax] at this
  rw [UInt8.toNat_ofNat']
  omega

/-- The length byte of the frame is not 0. -/
theorem ofNat_strlen_ne (h : FitsFrame dest) : UInt8.ofNat dest.strlen ≠ 0 := by
  intro h0
  have hlen := toNat_ofNat_strlen h
  have h₁ := h.1
  rw [h0] at hlen
  simp only [UInt8.toNat_zero] at hlen
  omega

/-- The parser accepts the frame of a destination, and stores the destination. -/
theorem udsParseRequest_udsRequest (h : FitsFrame dest) :
    udsParseRequest (udsRequest dest) (udsDestMax + 1) =
      ⟨0, some udsOpGet, some (dest.bytes ++ [0])⟩ := by
  have hlen := toNat_ofNat_strlen h
  have h₁ := h.1
  have h₂ := h.2
  have hl : (udsRequest dest).length = udsReqHdr + dest.strlen := by
    simp only [udsRequest, List.length_append, List.length_cons, List.length_nil, udsReqHdr,
      CString.strlen]
  unfold udsParseRequest
  rw [if_neg (by omega), if_neg (by simp [udsRequest])]
  dsimp only
  rw [show (udsRequest dest).getD 3 0 = .ofNat dest.strlen from rfl, hlen, if_neg (by omega),
    if_neg (by omega), if_neg (by simp [udsRequest]),
    show (udsRequest dest).drop udsReqHdr = dest.bytes from rfl, CString.strlen, List.take_length]
  rfl

/-- `handle_conn` reads the frame of a destination back, in whatever pieces it comes. -/
theorem readRequest_udsRequest (h : FitsFrame dest) {reads : List IoEv} (hr : .fail ∉ reads) :
    readRequest reads (udsRequest dest) = .get dest := by
  have hlen := toNat_ofNat_strlen h
  have hne := ofNat_strlen_ne h
  obtain ⟨calls, hcalls, hhdr⟩ := readExact_append hr (n := udsReqHdr)
    (a := [udsMagic, udsVersion, udsOpGet, .ofNat dest.strlen]) rfl dest.bytes
  obtain ⟨calls', -, hbody⟩ := readExact_append hcalls (n := dest.strlen) (a := dest.bytes) rfl []
  rw [List.append_nil] at hbody
  have hparse := udsParseRequest_udsRequest h
  simp only [udsRequest, List.cons_append, List.nil_append] at hhdr hparse
  simp [readRequest, udsRequest, hhdr, hne, hlen, hbody, hparse]

end Request

/-! ## The response -/

/-- A status frame is read back as that status. -/
theorem udsReadReply_status {status : UInt8} (hs : status ≠ udsStatusOk) {writes reads : List IoEv}
    (hw : .fail ∉ writes) (hr : .fail ∉ reads) (mallocOk : Bool) (groupCap : Nat) :
    udsReadReply reads mallocOk groupCap (sendStatus writes status) = ⟨status.toNat, none⟩ := by
  rw [sendStatus, statusFrame, (writeAll_ok _ hw).2.1]
  obtain ⟨calls, -, hhdr⟩ := readExact_append hr (n := udsRespHdr)
    (a := [udsMagic, udsVersion, status, 0, 0, 0, 0, 0, 0]) rfl []
  rw [List.append_nil] at hhdr
  simp [udsReadReply, readReplyCall, hhdr, hs]

/-- What `uds_get` gives the injector for a session that `pool_get` gives to a caller. -/
def Got.client (g : Got) (b : Buf) : ClientSession :=
  ⟨b.bytes, g.derLen, if g.isPqc ≠ 0 then 1 else 0, g.group⟩

section OkResponse
variable {e : PoolEntry} {b : Buf}

/-- The response to a hit: a header with both lengths, the group name, the DER bytes. -/
theorem okResponse_eq (he : e.Ok) (hb : e.der = some b) :
    okResponse (e.got 64) =
      ([udsMagic, udsVersion, udsStatusOk, if e.isPqc ≠ 0 then 1 else 0, .ofNat e.group.strlen]
        ++ putBE32 b.bytes.length) ++ (e.group.bytes ++ b.bytes) := by
  obtain ⟨b', hb', hlen⟩ := he.der
  obtain rfl : b = b' := Option.some.inj (hb.symm.trans hb')
  have hlt := he.derLen_lt
  have hgroup : e.group.snprintf 64 = e.group := CString.snprintf_of_lt he.group
  have hn : (e.derLen % 2 ^ 32).toNat = b.bytes.length := by omega
  have htake : b.bytes.take e.derLen.toNat = b.bytes := by
    rw [hlen]; simp
  simp only [okResponse, PoolEntry.got, if_pos (show 0 < 64 by decide), Option.getD_some, hgroup,
    hn, hb, Option.elim_some, htake, List.append_assoc]

/-- The group length byte is the length of the group name. -/
theorem PoolEntry.Ok.toNat_ofNat_group (he : e.Ok) :
    (UInt8.ofNat e.group.strlen).toNat = e.group.strlen := by
  have : e.group.strlen < 64 := he.group
  rw [UInt8.toNat_ofNat']
  omega

/-- The length of a filled slot is the number of its bytes, within the range of `int`. -/
theorem PoolEntry.Ok.length_bytes (he : e.Ok) (hb : e.der = some b) :
    e.derLen = b.bytes.length ∧ b.bytes.length < 2 ^ 31 := by
  obtain ⟨b', hb', hlen⟩ := he.der
  obtain rfl : b = b' := Option.some.inj (hb.symm.trans hb')
  have hlt := he.derLen_lt
  exact ⟨hlen, by omega⟩

/-- The response to a hit is read back as the session's fields. -/
theorem udsReadReply_okResponse (he : e.Ok) (hb : e.der = some b) {writes reads : List IoEv}
    (hw : .fail ∉ writes) (hr : .fail ∉ reads) (groupCap : Nat) :
    udsReadReply reads true groupCap (writeAll writes (okResponse (e.got 64))).wire =
      ⟨udsStatusOk.toNat, some ((e.got groupCap).client b)⟩ := by
  obtain ⟨hlen, hlt⟩ := he.length_bytes hb
  have hgl := he.toNat_ofNat_group
  -- the three reads of the client are the three parts of the frame
  obtain ⟨calls, hc, hhdr⟩ := readExact_append hr (n := udsRespHdr)
    (a := [udsMagic, udsVersion, udsStatusOk, if e.isPqc ≠ 0 then 1 else 0, .ofNat e.group.strlen]
      ++ putBE32 b.bytes.length) rfl (e.group.bytes ++ b.bytes)
  obtain ⟨calls', hc', hg⟩ := readExact_append hc (n := e.group.strlen) (a := e.group.bytes) rfl
    b.bytes
  obtain ⟨_, -, hbody⟩ := readExact_append hc' (n := b.bytes.length) (a := b.bytes) rfl []
  rw [List.append_nil] at hbody
  have hbe := getBE32_putBE32 (v := b.bytes.length) (by omega)
  have hint : toInt32 b.bytes.length = e.derLen := by
    rw [hlen]
    exact Int.bmod_eq_of_le (by omega) (by omega)
  have hpqc : ((if e.isPqc ≠ 0 then (1 : UInt8) else 0).toNat : Int) =
      if e.isPqc ≠ 0 then 1 else 0 := by
    split <;> rfl
  rw [(writeAll_ok _ hw).2.1, okResponse_eq he hb]
  unfold udsReadReply readReplyCall
  rw [hhdr]
  simp only [putBE32, List.cons_append, List.nil_append, List.getD_cons_zero, List.getD_cons_succ,
    hgl, hg, hbe, hbody, hint, hpqc, CString.ofBuf_bytes_nul]
  by_cases hq : e.isPqc = 0 <;> simp [PoolEntry.got, Got.client, hq]

end OkResponse

/-! ## The exchange -/

/-- How the two byte streams of one connection are cut into system calls, on both sides. None of
the calls fails. -/
structure Fragmentation where
  clientWrites : List IoEv
  serverReads : List IoEv
  serverWrites : List IoEv
  clientReads : List IoEv
  noFail : .fail ∉ clientWrites ∧ .fail ∉ serverReads ∧ .fail ∉ serverWrites ∧ .fail ∉ clientReads

/-- `handle_conn` on the bytes a client sent, where its `malloc` succeeds. -/
def serve (p : Pool) (frag : Fragmentation) (now : Int) (env : MaintainEnv) (request : List UInt8) :
    ConnOut :=
  handleConn ⟨request, frag.serverReads, frag.serverWrites, true, now, env⟩ p

/-- `uds_get` against an agent whose pool is `p`: its result, and the agent's pool afterwards. -/
def udsExchange (p : Pool) (frag : Fragmentation) (now : Int) (env : MaintainEnv) (dest : CString)
    (groupCap : Nat) : ClientOut × Pool :=
  (udsGet frag.clientWrites frag.clientReads true dest groupCap fun request =>
      (serve p frag now env request).wire,
    (serve p frag now env (writeAll frag.clientWrites (udsRequest dest)).wire).pool)

/-- The size of the caller's group buffer makes no difference to the pool. -/
theorem poolGet_pool_groupCap (p : Pool) (dest : CString) (groupCap groupCap' : Nat) (now : Int) :
    (poolGet p dest groupCap now).pool = (poolGet p dest groupCap' now).pool := by
  unfold poolGet
  split
  · rfl
  · dsimp only
    split <;> rfl

/-- The exchange is the direct call: a hit delivers the session's fields, a miss the miss status,
and the agent then refills the destination. -/
theorem udsExchange_eq {p : Pool} (hp : p.Wf) (frag : Fragmentation) (now : Int)
    (env : MaintainEnv) {dest : CString} (hdest : FitsFrame dest) (groupCap : Nat) :
    udsExchange p frag now env dest groupCap =
      (match (poolGet p dest groupCap now).ret with
        | none => ⟨udsStatusMiss.toNat, none⟩
        | some g => ⟨udsStatusOk.toNat, g.der.map g.client⟩,
        (poolMaintain (poolGet p dest groupCap now).pool dest env).pool) := by
  obtain ⟨hcw, hsr, hsw, hcr⟩ := frag.noFail
  have hwire := writeAll_ok (udsRequest dest) hcw
  have hget := fun cap => (poolGet_spec hp dest cap now).1
  have hpool := poolGet_pool_groupCap p dest 64 groupCap now
  have hreq := readRequest_udsRequest hdest hsr
  have h₁ := hdest.1
  have h₂ := hdest.2
  simp only [udsExchange, udsGet_eq, show ¬(dest.strlen = 0 ∨ udsDestMax < dest.strlen) by omega,
    hwire.1, hwire.2.1, serve, handleConn, handleConnRun, hreq, hget, hpool, false_or]
  cases hl : (p.kept dest now).getLast? with
  | none =>
    simp only [Option.map_none, ne_eq, not_true_eq_false, if_false]
    rw [udsReadReply_status (by decide) hsw hcr]
  | some e =>
    have he : e.Ok := hp.ok_of_mem_kept (List.mem_of_getLast? hl)
    obtain ⟨b, hb, -⟩ := he.der
    simp only [Option.map_some, ne_eq, not_true_eq_false, if_false, if_true]
    rw [udsReadReply_okResponse he hb hsw hcr]
    simp [PoolEntry.got, hb]

/-- **The socket path agrees with the direct path.** For every pool state, every destination that
fits a frame and every fragmentation, `uds_get` returns the OK status exactly when `pool_get` on
that pool hits, and then with the same buffer contents, length and group name and the provenance
flag as 0 or 1; it returns the miss status exactly when `pool_get` misses; and the pool is left as
by that `pool_get` followed by `pool_maintain`. -/
theorem socket_path_agrees (targetDepth : Int) (ops : List PoolOp) (frag : Fragmentation)
    (now : Int) (env : MaintainEnv) (dest : CString) (hdest : FitsFrame dest) (groupCap : Nat) :
    let p := poolAfter targetDepth ops
    let direct := poolGet p dest groupCap now
    let out := udsExchange p frag now env dest groupCap
    (out.1.ret = udsStatusOk.toNat ↔ direct.ret.isSome) ∧
      (out.1.ret = udsStatusMiss.toNat ↔ direct.ret = none) ∧
      (∀ g, direct.ret = some g → ∃ b, g.der = some b ∧ g.derLen = b.bytes.length ∧
        g.derLen < 2 ^ 31 ∧ out.1.session = some (g.client b)) ∧
      out.2 = (poolMaintain direct.pool dest env).pool := by
  intro p direct out
  have hp : p.Wf := poolAfter_wf targetDepth ops
  have hout : out = _ := udsExchange_eq hp frag now env hdest groupCap
  have hret : direct.ret = _ := (poolGet_spec hp dest groupCap now).1
  rw [hout]
  change (_ ↔ direct.ret.isSome) ∧ (_ ↔ direct.ret = none) ∧ _ ∧ _
  cases hd : direct.ret with
  | none => simp [direct, udsStatusMiss, udsStatusOk]
  | some g =>
    obtain ⟨e, hl, rfl⟩ := Option.map_eq_some_iff.1 (hret.symm.trans hd)
    have he : e.Ok := hp.ok_of_mem_kept (List.mem_of_getLast? hl)
    obtain ⟨b, hb, hlen⟩ := he.der
    have hder : (e.got groupCap).der = some b := hb
    refine ⟨by simp, by simp [udsStatusOk, udsStatusMiss], ?_, rfl⟩
    rintro g ⟨⟩
    exact ⟨b, hder, hlen, he.derLen_lt, by simp [hder]⟩

/-- A hit over a connection whose streams are cut at odd places. -/
theorem socket_path_agrees_hit :
    let p := poolAfter 1 [.maintain sampleDest ⟨100, true, [sampleFetch 0]⟩]
    let frag : Fragmentation :=
      ⟨[.bytes 3, .eintr], [.bytes 0, .eintr, .bytes 4], [.eintr, .bytes 5], [.bytes 1], by decide⟩
    let out := udsExchange p frag 200 ⟨200, true, [sampleFetch 1]⟩ sampleDest 16
    FitsFrame sampleDest ∧ out.1.ret = udsStatusOk.toNat ∧
      out.1.session = some ⟨[48, 2], 2, 1, some ⟨[120], by decide⟩⟩ := by
  intro p frag out
  have hdest : FitsFrame sampleDest := ⟨by decide, by decide⟩
  have h := socket_path_agrees 1 [.maintain sampleDest ⟨100, true, [sampleFetch 0]⟩] frag 200
    ⟨200, true, [sampleFetch 1]⟩ sampleDest hdest 16
  obtain ⟨b, hb, -, -, hs⟩ := h.2.2.1 ((sampleFetch 0).session.got 16) rfl
  cases hb
  exact ⟨hdest, h.1.2 rfl, hs⟩

end TicketConnect
