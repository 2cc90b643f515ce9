import TicketConnect.Lib.Endian
import TicketConnect.Lib.Owned
import TicketConnect.Pool.Model
import TicketConnect.Uds.Stream

/-!
# The node-local socket protocol

The model of `ticket-agent/uds.c`: the request parser, the agent's side of one connection
(`handle_conn`) and the client's side (`uds_get`). The bytes the peer sends, the fragmentation of
the streams and the results of the system calls and of each `malloc` are arguments. Each of the two
functions is written once, with its results and what it does on the way; `handleConn` and `connLog`,
`udsGet` and `udsReadReply` are readings of these.

The agent ignores `SIGPIPE`, but the callers of `uds_get` do not: a write to a connection that the
agent has closed kills them there.
-/

namespace TicketConnect

open Lib

/-! ## Constants of the protocol -/

/-- `UDS_MAGIC`. -/
def udsMagic : UInt8 := 0x54
/-- `UDS_VERSION`. -/
def udsVersion : UInt8 := 1
/-- `UDS_OP_GET`. -/
def udsOpGet : UInt8 := 1
/-- `UDS_STATUS_OK`. -/
def udsStatusOk : UInt8 := 0
/-- `UDS_STATUS_MISS`. -/
def udsStatusMiss : UInt8 := 1
/-- `UDS_STATUS_ERROR`. -/
def udsStatusError : UInt8 := 2
/-- `UDS_REQ_HDR`. -/
def udsReqHdr : Nat := 4
/-- `UDS_RESP_HDR`. -/
def udsRespHdr : Nat := 9
/-- `UDS_DEST_MAX`. -/
def udsDestMax : Nat := 255

/-! ## The request -/

/-- What `uds_parse_request` returns and stores: `*op` once it is read, `dest` once it is copied. -/
structure Parsed where
  ret : Int
  op : Option UInt8
  dest : Option (List UInt8)
deriving DecidableEq

/-- `uds_parse_request` on a buffer of `len` bytes, with a `dest` buffer of `destCap` bytes. -/
def udsParseRequest (buf : List UInt8) (destCap : Nat) : Parsed :=
  if buf.length < udsReqHdr then ⟨-1, none, none⟩
  else if buf.getD 0 0 ≠ udsMagic ∨ buf.getD 1 0 ≠ udsVersion then ⟨-2, none, none⟩
  else
    let destLen := (buf.getD 3 0).toNat
    if destLen = 0 ∨ udsReqHdr + destLen ≠ buf.length then ⟨-3, none, none⟩
    else if destCap < destLen + 1 then ⟨-4, none, none⟩
    else
      let op := buf.getD 2 0
      if op ≠ udsOpGet then ⟨-5, some op, none⟩
      else ⟨0, some op, some ((buf.drop udsReqHdr).take destLen ++ [0])⟩

/-- The frame `uds_get` sends for a destination. -/
def udsRequest (dest : CString) : List UInt8 :=
  [udsMagic, udsVersion, udsOpGet, .ofNat dest.strlen] ++ dest.bytes

/-! ## The agent's side -/

/-- The frame `send_status` writes. -/
def statusFrame (status : UInt8) : List UInt8 := [udsMagic, udsVersion, status, 0, 0, 0, 0, 0, 0]

/-- `send_status`: the bytes that go out. -/
def sendStatus (writes : List IoEv) (status : UInt8) : List UInt8 :=
  (writeAll writes (statusFrame status)).wire

/-- How the request of a connection ends: the peer closed too early, it is malformed, or it names a
destination. -/
inductive Request where
  | closed
  | malformed
  | get (dest : CString)
deriving DecidableEq

/-- The start of `handle_conn`: the two reads, the header check and the parser. The parser's `dest`
buffer is then used as a C string. -/
def readRequest (reads : List IoEv) (stream : List UInt8) : Request :=
  let hdr := readExact reads udsReqHdr stream
  if hdr.ret ≠ 1 then .closed
  else if hdr.buf.getD 0 0 ≠ udsMagic ∨ hdr.buf.getD 1 0 ≠ udsVersion ∨ hdr.buf.getD 3 0 = 0 then
    .malformed
  else
    let body := readExact hdr.calls (hdr.buf.getD 3 0).toNat hdr.stream
    if body.ret ≠ 1 then .closed
    else
      let r := udsParseRequest (hdr.buf ++ body.buf) (udsDestMax + 1)
      if r.ret ≠ 0 then .malformed else .get (.ofBuf (r.dest.getD []))

/-- The response to a hit. `(uint32_t)der_len` is `der_len` modulo `2 ^ 32`. -/
def okResponse (g : Got) : List UInt8 :=
  let group := g.group.getD .empty
  [udsMagic, udsVersion, udsStatusOk, if g.isPqc ≠ 0 then 1 else 0, .ofNat group.strlen]
    ++ putBE32 (g.derLen % 2 ^ 32).toNat ++ group.bytes
    ++ (g.der.elim [] Buf.bytes).take g.derLen.toNat

/-- What the outside decides during one `handle_conn`: the request stream, the fragmentation of both
streams, the response's `malloc`, the clock of `pool_get`, and the refill. -/
structure ConnEnv where
  stream : List UInt8
  reads : List IoEv
  writes : List IoEv
  mallocOk : Bool
  now : Int
  maintain : MaintainEnv
deriving DecidableEq

/-- The result of `handle_conn`: the bytes sent, the pool after it, and the buffers freed. -/
structure ConnOut where
  wire : List UInt8
  pool : Pool
  freed : List Buf

/-- One thing `handle_conn` does: a `pool_get`, a response it writes, a `free` of the session's
buffer, or a `pool_maintain`. The source is called by `pool_maintain` only. -/
inductive ConnEv where
  | get (dest : CString)
  | send (frame : List UInt8)
  | free (der : Option Buf)
  | maintain (dest : CString)
deriving DecidableEq

/-- A run of `handle_conn`: its result, what it did, in order, and the sessions that the source
delivered for a destination in it. -/
structure ConnRun where
  out : ConnOut
  log : List ConnEv
  obtained : List (CString × Fetch)

/-- `handle_conn`. -/
def handleConnRun (env : ConnEnv) (p : Pool) : ConnRun :=
  match readRequest env.reads env.stream with
  | .closed => ⟨⟨[], p, []⟩, [], []⟩
  | .malformed =>
    ⟨⟨sendStatus env.writes udsStatusError, p, []⟩, [.send (statusFrame udsStatusError)], []⟩
  | .get dest =>
    let g := poolGet p dest 64 env.now
    match g.ret with
    | none =>
      let m := poolMaintain g.pool dest env.maintain
      { out := ⟨sendStatus env.writes udsStatusMiss, m.pool, g.freed ++ m.freed⟩
        log := [.get dest, .send (statusFrame udsStatusMiss), .maintain dest]
        obtained := m.ret.used.map (dest, ·) }
    | some got =>
      if env.mallocOk then
        let m := poolMaintain g.pool dest env.maintain
        { out := ⟨(writeAll env.writes (okResponse got)).wire, m.pool,
            g.freed ++ got.der.toList ++ m.freed⟩
          log := [.get dest, .send (okResponse got), .free got.der, .maintain dest]
          obtained := m.ret.used.map (dest, ·) }
      else
        { out := ⟨sendStatus env.writes udsStatusError, g.pool, g.freed ++ got.der.toList⟩
          log := [.get dest, .free got.der, .send (statusFrame udsStatusError)]
          obtained := [] }

/-- The result of `handle_conn`. -/
def handleConn (env : ConnEnv) (p : Pool) : ConnOut := (handleConnRun env p).out

/-- What `handle_conn` does, in order. -/
def connLog (env : ConnEnv) (p : Pool) : List ConnEv := (handleConnRun env p).log

/-- The sessions that the source delivers in a `handle_conn`. -/
def connObtained (env : ConnEnv) (p : Pool) : List (CString × Fetch) :=
  (handleConnRun env p).obtained

/-! ## The client's side -/

/-- What `uds_get` stores through its out parameters on `UDS_STATUS_OK`. -/
structure ClientSession where
  der : List UInt8
  derLen : Int
  isPqc : Int
  group : Option CString
deriving DecidableEq

/-- The variables that `uds_get` stores into, as its callers set them before. -/
def ClientSession.unset : ClientSession := ⟨[], 0, 0, some .empty⟩

/-- The result of `uds_get`: its return value, and what it stored, if anything. -/
structure ClientOut where
  ret : Int
  session : Option ClientSession
deriving DecidableEq

/-- A resource of `uds_get`, or the file that `ticket-agent get` writes. -/
inductive ClientRes where
  | fd (n : Nat)
  | buf (id : Nat)
  | file
deriving DecidableEq

/-- A call of `uds_get`: its result, `none` where the caller is killed in it; the buffer stored in
`*der`; and the events of its resources. -/
structure GetCall where
  out : Option ClientOut
  buf : Option Nat
  own : List (Own ClientRes)

/-- A call that returns a status and stores nothing. -/
def GetCall.status (ret : Int) (own : List (Own ClientRes)) : GetCall :=
  ⟨some ⟨ret, none⟩, none, own⟩

/-- The cast of a `uint32_t` to `int`. -/
def toInt32 (n : Nat) : Int := (n : Int).bmod (2 ^ 32)

/-- The end of `uds_get`, once the request is sent on the descriptor `fd`: it reads and decodes the
reply `stream`, with a group buffer of `groupCap` bytes (0: none) and what `malloc` returns. -/
def readReplyCall (fd : Nat) (reads : List IoEv) (malloc : Option Nat) (groupCap : Nat)
    (stream : List UInt8) : GetCall :=
  let hdr := readExact reads udsRespHdr stream
  if hdr.ret ≠ 1 then .status (-1) [.use (.fd fd), .release (.fd fd)]
  else if hdr.buf.getD 0 0 ≠ udsMagic ∨ hdr.buf.getD 1 0 ≠ udsVersion then
    .status (-1) [.use (.fd fd), .release (.fd fd)]
  else
    let status := hdr.buf.getD 2 0
    if status ≠ udsStatusOk then .status status.toNat [.use (.fd fd), .release (.fd fd)]
    else
      let groupLen := (hdr.buf.getD 4 0).toNat
      let n := getBE32 (hdr.buf.getD 5 0) (hdr.buf.getD 6 0) (hdr.buf.getD 7 0) (hdr.buf.getD 8 0)
      -- `read_exact` of 0 bytes returns 1 without a call, like the skipped read of an empty group
      let group := readExact hdr.calls groupLen hdr.stream
      if group.ret ≠ 1 then .status (-1) [.use (.fd fd), .use (.fd fd), .release (.fd fd)]
      else
        let gbuf := CString.ofBuf (group.buf ++ [0])
        match malloc with
        | none => .status (-1) [.use (.fd fd), .use (.fd fd), .release (.fd fd)]
        | some id =>
          let body := readExact group.calls n group.stream
          let read := [.use (.fd fd), .use (.fd fd), .acquire (.buf id), .use (.fd fd),
            .use (.buf id)]
          if body.ret ≠ 1 then .status (-1) (read ++ [.release (.buf id), .release (.fd fd)])
          else
            { out := some ⟨udsStatusOk.toNat, some
                { der := body.buf
                  derLen := toInt32 n
                  isPqc := (hdr.buf.getD 3 0).toNat
                  group := if 0 < groupCap then some (gbuf.snprintf groupCap) else none }⟩
              buf := some id
              own := read ++ [.release (.fd fd)] }

/-- `sizeof(addr.sun_path)`. -/
def sunPathLen : Nat := 108

/-- What the outside decides in one `uds_get`: the descriptor that `socket` returns, whether
`connect` succeeds, how the writes and reads go, whether a write that fails does so because the
agent has closed the connection (`EPIPE`), and the buffer that `malloc` returns. -/
structure GetEnv where
  socket : Option Nat
  connectOk : Bool
  writes : List IoEv
  epipe : Bool
  reads : List IoEv
  malloc : Option Nat

/-- `uds_get`, against a peer that answers the bytes it receives with `peer`. -/
def udsGetCall (env : GetEnv) (path dest : CString) (groupCap : Nat)
    (peer : List UInt8 → List UInt8) : GetCall :=
  if dest.strlen = 0 ∨ udsDestMax < dest.strlen then .status (-1) []
  else
    match env.socket with
    | none => .status (-1) []
    | some fd =>
      if sunPathLen ≤ path.strlen then .status (-1) [.acquire (.fd fd), .release (.fd fd)]
      else if env.connectOk = false then
        .status (-1) [.acquire (.fd fd), .use (.fd fd), .release (.fd fd)]
      else
        -- `connect`, `setsockopt` and the writes
        let sent := [.acquire (.fd fd), .use (.fd fd), .use (.fd fd), .use (.fd fd)]
        let w := writeAll env.writes (udsRequest dest)
        if w.ret ≠ 1 then
          -- `SIGPIPE` comes before `write` returns
          if env.epipe then ⟨none, none, sent⟩ else .status (-1) (sent ++ [.release (.fd fd)])
        else
          let r := readReplyCall fd env.reads env.malloc groupCap (peer w.wire)
          { r with own := sent ++ r.own }

/-! ### The protocol alone -/

/-- What `uds_get` returns and stores for a reply; the descriptor and the buffer are any ones. -/
def udsReadReply (reads : List IoEv) (mallocOk : Bool) (groupCap : Nat) (stream : List UInt8) :
    ClientOut :=
  (readReplyCall 0 reads (if mallocOk then some 0 else none) groupCap stream).out.getD ⟨-1, none⟩

/-- What `uds_get` returns and stores once it is connected, where a failing write returns. -/
def udsGet (writes reads : List IoEv) (mallocOk : Bool) (dest : CString) (groupCap : Nat)
    (peer : List UInt8 → List UInt8) : ClientOut :=
  (udsGetCall ⟨some 0, true, writes, false, reads, if mallocOk then some 0 else none⟩ .empty dest
    groupCap peer).out.getD ⟨-1, none⟩

@[simp] theorem GetCall.status_out (ret : Int) (own : List (Own ClientRes)) :
    (GetCall.status ret own).out = some ⟨ret, none⟩ := rfl

/-- The reply is read in the same way on every descriptor and into every buffer, and the call
returns. -/
theorem readReplyCall_out (fd : Nat) (reads : List IoEv) (malloc : Option Nat) (groupCap : Nat)
    (stream : List UInt8) :
    (readReplyCall fd reads malloc groupCap stream).out =
      some (udsReadReply reads malloc.isSome groupCap stream) := by
  unfold udsReadReply readReplyCall
  cases malloc <;> dsimp only <;> split_ifs <;> simp_all

/-- The protocol of `uds_get`: the check of the destination, the request and the reply. -/
theorem udsGet_eq (writes reads : List IoEv) (mallocOk : Bool) (dest : CString) (groupCap : Nat)
    (peer : List UInt8 → List UInt8) :
    udsGet writes reads mallocOk dest groupCap peer =
      if (dest.strlen = 0 ∨ udsDestMax < dest.strlen) ∨
          (writeAll writes (udsRequest dest)).ret ≠ 1 then ⟨-1, none⟩
      else udsReadReply reads mallocOk groupCap
        (peer (writeAll writes (udsRequest dest)).wire) := by
  have hpath : ¬sunPathLen ≤ CString.empty.strlen := by decide
  unfold udsGet udsGetCall
  by_cases hdest : dest.strlen = 0 ∨ udsDestMax < dest.strlen
  · rw [if_pos hdest, if_pos (Or.inl hdest)]
    rfl
  rw [if_neg hdest]
  simp only [if_neg hpath, Bool.true_eq_false, Bool.false_eq_true, if_false, hdest, false_or]
  split
  · rfl
  · rw [readReplyCall_out]
    cases mallocOk <;> rfl

end TicketConnect
