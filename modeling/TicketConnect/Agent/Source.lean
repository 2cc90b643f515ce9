import TicketConnect.Lib.Owned
import TicketConnect.Pool.Model

/-!
# The live source

The model of the agent's source of sessions: `split_dest` and `live_source` (`ticket-agent/main.c`)
over `session_fetch` and `session_to_der` (`ticket-agent/session_source.c`). Each call makes one
TCP connection and one TLS handshake, waits for the first ticket, and gives the pool its DER
encoding. What the resolver, the network, the peer and the allocator do is an argument. The
functions return, beside their results, the events of the resources they handle: the `SSL_CTX`, the
address list, descriptors, the `SSL`, references to sessions, and the DER buffer.

Three results of OpenSSL are not looked at. Where `SSL_new` returns `NULL` the code uses it all the
same: the behaviour is undefined, the model ends there, and the return value is `none`. Where
`SSL_set_tlsext_host_name` or `SSL_set1_host` fails, the handshake goes on without the name
(`tlsSetup`). A signal that kills the process is no outcome of a call.

`liveSource_reply` says where a session comes from, and `liveSource_ends` that a call leaves nothing
behind but the buffer of a session it returns.
-/

namespace TicketConnect

open Lib

/-! ## Destinations -/

/-- `split_dest` with a host buffer of `hostCap` bytes: the host and the port around the last colon,
`none` for its `-1`. -/
def splitDest (dest : CString) (hostCap : Nat) : Option (CString × CString) :=
  -- the bytes behind the last colon, and those before it
  let port := dest.bytes.reverse.takeWhile (· ≠ 58)
  let rest := dest.bytes.reverse.dropWhile (· ≠ 58)
  match rest with
  | [] => none
  | _ :: host =>
    if host = [] ∨ port = [] ∨ hostCap < host.length + 1 then none
    else some (.ofBuf host.reverse, .ofBuf port.reverse)

/-! ## Resources and sessions -/

/-- A resource of the source, or the file that `fetch` writes. -/
inductive SourceRes where
  | ctx
  | addrs
  | fd (n : Nat)
  | ssl
  | session (id : Nat)
  | der (id : Nat)
  | file
deriving DecidableEq

/-- An `SSL_SESSION`: what `i2d_SSL_SESSION` returns and writes, and its timeout. -/
structure SslSession where
  id : Nat
  i2d : Int
  der : List UInt8
  timeout : Int
  i2d_eq : 0 < i2d → i2d = der.length ∧ i2d < 2 ^ 31

/-- A protocol version of TLS. -/
inductive TlsVersion where
  | tls12
  | tls13
deriving DecidableEq

/-- The mode of `SSL_CTX_set_verify`. -/
inductive VerifyMode where
  | none
  | peer
deriving DecidableEq

/-- What a handshake is configured with. -/
structure TlsSetup where
  minVersion : TlsVersion
  maxVersion : TlsVersion
  groups : CString
  newSessionCb : Bool
  verify : VerifyMode
  defaultVerifyPaths : Bool
  sni : Option CString
  verifyHost : Option CString

/-- One address of `connect_tcp`: the descriptor `socket` returned, if it did, and whether `connect`
succeeded. -/
structure AddrTry where
  fd : Option Nat
  connects : Bool

/-- How an `SSL_read` returns: with data, with an error that asks for another try, or with one that
does not. -/
inductive ReadRet where
  | data
  | want
  | stop
deriving DecidableEq

/-- An `SSL_read`: the tickets it processes, and how it returns. -/
structure SslRead where
  tickets : List SslSession
  ret : ReadRet

/-- A completed handshake: the name of its group, if there is one, whether it resumed a session, and
the reads after it. Past their end the peer has closed the connection. -/
structure Handshake where
  group : Option CString
  reused : Int
  reads : List SslRead

/-- What the outside decides in one call of the source: whether the calls of OpenSSL succeed
(`SSL_CTX_new`, `SSL_CTX_set1_groups_list`, `SSL_CTX_set_default_verify_paths`, `SSL_new`,
`SSL_set_tlsext_host_name`, `SSL_set1_host`, `SSL_set_session`), the addresses, and `malloc`.
`handshake` is `SSL_connect` on a descriptor, with the session that was set for it, if any; `d2i` is
`d2i_SSL_SESSION`. -/
structure SourceEnv where
  ctxOk : Bool
  groupsOk : Bool
  verifyPathsOk : Bool
  resolve : CString → CString → Option (List AddrTry)
  sslOk : Bool
  sniOk : Bool
  hostOk : Bool
  setSessionOk : Bool
  handshake : TlsSetup → Nat → Option SslSession → Option Handshake
  d2i : List UInt8 → Option SslSession
  malloc : Option Nat

/-! ## `connect_tcp` -/

/-- The loop of `connect_tcp`. -/
def connectTries : List AddrTry → Option Nat × List (Own SourceRes)
  | [] => (none, [])
  | t :: ts =>
    match t.fd with
    | none => connectTries ts
    | some fd =>
      if t.connects then (some fd, [.acquire (.fd fd), .use (.fd fd)])
      else
        let r := connectTries ts
        (r.1, [.acquire (.fd fd), .use (.fd fd), .release (.fd fd)] ++ r.2)

/-- `connect_tcp`. -/
def connectTcp (resolved : Option (List AddrTry)) : Option Nat × List (Own SourceRes) :=
  match resolved with
  | none => (none, [])
  | some tries =>
    let r := connectTries tries
    (r.1, [.acquire .addrs] ++ r.2 ++ [.release .addrs])

/-! ## Waiting for a ticket -/

/-- `on_new_session`: the first session is kept, with a reference of our own. -/
def onNewSession (session : Option SslSession) (t : SslSession) :
    Option SslSession × List (Own SourceRes) :=
  match session with
  | none => (some t, [.acquire (.session t.id)])
  | some s => (some s, [])

/-- The tickets of one `SSL_read`. -/
def newSessions (session : Option SslSession) : List SslSession →
    Option SslSession × List (Own SourceRes)
  | [] => (session, [])
  | t :: ts =>
    let r := onNewSession session t
    let rest := newSessions r.1 ts
    (rest.1, r.2 ++ rest.2)

/-- The loop of `pump_for_ticket`, with `n` attempts left. -/
def pumpLoop : Nat → Option SslSession → List SslRead → Option SslSession × List (Own SourceRes)
  | 0, session, _ => (session, [])
  | _ + 1, some s, _ => (some s, [])
  | _ + 1, none, [] => (none, [.use .ssl])
  | n + 1, none, r :: rs =>
    let got := newSessions none r.tickets
    if r.ret = .stop then (got.1, [.use .ssl] ++ got.2)
    else
      let rest := pumpLoop n got.1 rs
      (rest.1, [.use .ssl] ++ got.2 ++ rest.2)

/-- `pump_for_ticket`. -/
def pumpForTicket (reads : List SslRead) : Option SslSession × List (Own SourceRes) :=
  pumpLoop 4 none reads

/-! ## `session_fetch` -/

/-- `k_group_pref`. -/
def groupPref : CString := .lit "X25519MLKEM768:X25519:P-256"

/-- `make_ctx` with the handshake's settings of `session_fetch` and `session_probe_resume`: what the
handshake with `host` is configured with. A setting whose call fails is left out. -/
def tlsSetup (env : SourceEnv) (insecure newCb : Bool) (host : CString) : TlsSetup where
  minVersion := .tls13
  maxVersion := .tls13
  groups := groupPref
  newSessionCb := newCb
  verify := if insecure then .none else .peer
  defaultVerifyPaths := !insecure && env.verifyPathsOk
  sni := if env.sniOk then some host else none
  verifyHost := if insecure = false ∧ env.hostOk = true then some host else none

/-- `make_ctx`: whether it returns an `SSL_CTX`. -/
def makeCtx (env : SourceEnv) : Bool × List (Own SourceRes) :=
  if env.ctxOk then
    if env.groupsOk then (true, [.acquire .ctx])
    else (false, [.acquire .ctx, .use .ctx, .release .ctx])
  else (false, [])

/-- `struct Fetch_result`, with the return value and the events of the resources. -/
structure FetchOut where
  rc : Option Int
  session : Option SslSession
  group : CString
  isPqc : Int
  own : List (Own SourceRes)

/-- How `openSsl` ends: one of its calls fails; `SSL_new` returns `NULL`, which the code goes on
with; or there is an `SSL` on a connected descriptor. -/
inductive Opened where
  | failed
  | undefined
  | ssl (fd : Nat)
deriving DecidableEq

/-- The part that `session_fetch` and `session_probe_resume` share: the `SSL_CTX`, the connection
and the `SSL` on its descriptor. -/
def openSsl (env : SourceEnv) (host port : CString) : Opened × List (Own SourceRes) :=
  let ctx := makeCtx env
  if ctx.1 = false then (.failed, ctx.2)
  else
    let tcp := connectTcp (env.resolve host port)
    match tcp.1 with
    | none => (.failed, ctx.2 ++ tcp.2 ++ [.release .ctx])
    | some fd =>
      if env.sslOk then
        (.ssl fd, ctx.2 ++ tcp.2 ++ [.use .ctx, .acquire .ssl, .use (.fd fd), .use .ssl])
      else (.undefined, ctx.2 ++ tcp.2 ++ [.use .ctx, .use .ssl])

/-- `SSL_free`, `close` and `SSL_CTX_free`. -/
def closeSsl (fd : Nat) : List (Own SourceRes) :=
  [.release .ssl, .release (.fd fd), .release .ctx]

/-- The name of the group as both functions report it. -/
def groupName (group : Option CString) : CString := group.getD (.lit "?")

/-- `session_fetch`. -/
def sessionFetch (env : SourceEnv) (insecure : Bool) (host port : CString) : FetchOut :=
  let opened := openSsl env host port
  match opened.1 with
  | .failed => ⟨some 1, none, .empty, 0, opened.2⟩
  | .undefined => ⟨none, none, .empty, 0, opened.2⟩
  | .ssl fd =>
    match env.handshake (tlsSetup env insecure true host) fd none with
    | none => ⟨some 1, none, .empty, 0, opened.2 ++ closeSsl fd⟩
    | some hs =>
      let pump := pumpForTicket hs.reads
      { rc := some (if pump.1.isSome then 0 else 1)
        session := pump.1
        group := (groupName hs.group).snprintf 64
        isPqc := if hs.group.any (·.strstr (.lit "MLKEM")) then 1 else 0
        own := opened.2 ++ pump.2 ++ closeSsl fd }

/-- What `session_to_der` returns and stores. -/
structure DerOut where
  ret : Int
  buf : Buf
  own : List (Own SourceRes)

/-- `session_to_der`. Where it fails it stores nothing, and `buf` means nothing. -/
def sessionToDer (s : SslSession) (malloc : Option Nat) : DerOut :=
  if s.i2d ≤ 0 then ⟨s.i2d, ⟨0, []⟩, [.use (.session s.id)]⟩
  else
    match malloc with
    | none => ⟨-1, ⟨0, []⟩, [.use (.session s.id)]⟩
    | some id =>
      ⟨s.i2d, ⟨id, s.der⟩, [.use (.session s.id), .acquire (.der id), .use (.session s.id)]⟩

/-- A length that `session_to_der` returns is that of its buffer. -/
theorem sessionToDer_length {s : SslSession} {malloc : Option Nat}
    (h : ¬(sessionToDer s malloc).ret ≤ 0) :
    (sessionToDer s malloc).ret = (sessionToDer s malloc).buf.bytes.length ∧
      (sessionToDer s malloc).ret < 2 ^ 31 := by
  unfold sessionToDer at h ⊢
  split
  · next hle => simp [hle] at h
  · next hpos =>
    cases malloc with
    | none => simp [hpos] at h
    | some id => exact s.i2d_eq (Int.not_le.1 hpos)

/-! ## `live_source` -/

/-- What `live_source` returns, what it stores where that is 0, and the events of the resources. -/
structure LiveOut where
  rc : Option Int
  reply : Option SourceReply
  own : List (Own SourceRes)

/-- The end of `live_source`, with the session that `session_fetch` captured. -/
def liveReply (r : FetchOut) (s : SslSession) (malloc : Option Nat) : LiveOut :=
  let der := sessionToDer s malloc
  if h : der.ret ≤ 0 then ⟨some 1, none, r.own ++ der.own ++ [.release (.session s.id)]⟩
  else
    { rc := some 0
      reply := some
        { der := der.buf
          derLen := der.ret
          isPqc := r.isPqc
          group := r.group.snprintf groupMax
          lifetime := s.timeout
          derLen_eq := (sessionToDer_length h).1
          derLen_lt := (sessionToDer_length h).2 }
      own := r.own ++ der.own ++ [.use (.session s.id), .release (.session s.id)] }

/-- `live_source`, with a group buffer of `groupMax` bytes, as `pool_maintain` calls it. -/
def liveSource (env : SourceEnv) (insecure : Bool) (dest : CString) : LiveOut :=
  match splitDest dest 256 with
  | none => ⟨some 1, none, []⟩
  | some (host, port) =>
    let r := sessionFetch env insecure host port
    match r.rc with
    | none => ⟨none, none, r.own⟩
    | some rc =>
      if rc ≠ 0 then ⟨some 1, none, r.own⟩
      else
        match r.session with
        | none => ⟨some 1, none, r.own⟩
        | some s => liveReply r s env.malloc

/-! ## `session_probe_resume` -/

end TicketConnect
