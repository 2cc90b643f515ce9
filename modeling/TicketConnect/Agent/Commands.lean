import TicketConnect.Agent.Serve
import TicketConnect.Agent.SourceSpec

/-!
# The subcommands of the agent

The model of the rest of `ticket-agent/main.c`: `cmd_fetch`, which fetches one session and reports
it; `cmd_get`, which asks a running agent for one; and `main`, which chooses between these and
`cmd_serve`. Both report the session in lines on `stdout`, and write its DER bytes to a file if `-o`
is given. They return what they show beside the events of their resources: `agent_releases_all` says
that every subcommand gives back what it takes.
-/

namespace TicketConnect

open Lib

/-! ## What a subcommand shows -/

/-- A line on `stdout` or `stderr`, or the bytes that are written to a file. -/
inductive CmdShow where
  | stdout (line : CString)
  | stderr (line : CString)
  | file (path : CString) (bytes : List UInt8)
deriving DecidableEq

/-- A part of a subcommand: what it shows, and the events of its resources. -/
structure CmdPart (ρ : Type) where
  shown : List CmdShow
  own : List (Own ρ)

/-- How a subcommand ends: its return value, `none` where it does not return, what it has shown, and
the events of its resources. -/
structure CmdEnd (ρ : Type) where
  rc : Option Int
  shown : List CmdShow
  own : List (Own ρ)

/-- `usage`. -/
def usage (argv0 : CString) : CmdShow :=
  .stderr (.concat [.lit "usage:\n",
    .lit "  ", argv0, .lit " fetch <host> <port> [-k] [-o <der-file>]\n",
    .lit "  ", argv0, .lit " serve <sock> <host:port>... [-k] [--depth N]\n",
    .lit "  ", argv0, .lit " get   <sock> <host:port> [-o <der-file>]\n"])

/-- `write_der`, with the result of its `fopen`; `buf` is the buffer of the DER bytes. -/
def writeDer {ρ : Type} (file : ρ) (buf : Option ρ) (fopenOk : Bool) (path : CString)
    (der : List UInt8) (derLen : Int) : CmdPart ρ :=
  if fopenOk = false then ⟨[.stderr (.concat [.lit "cannot write ", path, .lit "\n"])], []⟩
  else
    { shown := [.file path (der.take derLen.toNat),
        .stdout (.concat [.lit "wrote       : ", path, .lit "\n"])]
      own := .acquire file :: buf.toList.map .use ++ [.use file, .release file] }

/-- The lines for the group of a session, in both subcommands. -/
def groupLines (group : CString) (isPqc : Int) : List CmdShow :=
  [.stdout (.concat [.lit "group       : ", group, .lit "\n"]),
    .stdout (.concat [.lit "pqc         : ",
      if isPqc ≠ 0 then .lit "yes (ML-KEM hybrid)" else .lit "no (classical)", .lit "\n"])]

/-- The line for the DER bytes, and the file that is written with `-o`, in both subcommands. -/
def derPart {ρ : Type} (file : ρ) (buf : Option ρ) (fopenOk : Bool) (derOut : Option CString)
    (der : List UInt8) (derLen : Int) : CmdPart ρ :=
  let line := .stdout (.concat [.lit "der bytes   : ", .dec derLen, .lit "\n"])
  match derOut with
  | none => ⟨[line], []⟩
  | some path =>
    if 0 < derLen then
      let w := writeDer file buf fopenOk path der derLen
      ⟨line :: w.shown, w.own⟩
    else ⟨[line], []⟩

/-! ## `cmd_fetch` -/

/-- What `cmd_fetch` takes from its arguments behind the port. -/
structure FetchArgs where
  insecure : Bool
  derOut : Option CString
deriving DecidableEq

/-- The branches of `cmd_fetch`'s loop. -/
def fetchKind (arg : CString) : ArgKind CString FetchArgs :=
  if arg = .lit "-k" then .alone fun o => { o with insecure := true }
  else if arg = .lit "-o" then .valued fun v o => { o with derOut := some v }
  else .refused

/-- The message of `cmd_fetch` where there is no session; its dash is three bytes. -/
def noSessionLine : CString :=
  .concat [.lit "no resumption session delivered ", .ofBuf [0xE2, 0x80, 0x94],
    .lit " would fall back + emit event\n"]

/-- The end of `cmd_fetch`, with the session that `session_fetch` captured. What
`SSL_SESSION_is_resumable` says is an argument, and the timeout is printed as an `unsigned long`. -/
def fetchReport (malloc : Option Nat) (resumable : SslSession → Bool) (fopenOk : Bool)
    (host port : CString) (derOut : Option CString) (r : FetchOut) (s : SslSession) :
    CmdEnd SourceRes :=
  let der := sessionToDer s malloc
  let saved := derPart .file (some (.der der.buf.id)) fopenOk derOut der.buf.bytes der.ret
  { rc := some 0
    shown := .stdout (.concat [.lit "destination : ", host, .lit ":", port, .lit "\n"]) ::
      groupLines r.group r.isPqc ++
      [.stdout (.concat [.lit "resumable   : ", if resumable s then .lit "yes" else .lit "no",
          .lit "\n"]),
        .stdout (.concat [.lit "lifetime    : ", .dec (s.timeout % 2 ^ 64), .lit " s\n"])] ++
      saved.shown
    own := r.own ++ [.use (.session s.id), .use (.session s.id)] ++ der.own ++ saved.own ++
      -- `der` is `NULL` unless `session_to_der` succeeds
      (if der.ret ≤ 0 then [] else [.release (.der der.buf.id)]) ++ [.release (.session s.id)] }

/-- `cmd_fetch`. -/
def cmdFetch (env : SourceEnv) (resumable : SslSession → Bool) (fopenOk : Bool) :
    List CString → CmdEnd SourceRes
  | argv0 :: _ :: host :: port :: args =>
    match parseArgs fetchKind ⟨false, none⟩ args with
    | none => ⟨some 2, [usage argv0], []⟩
    | some o =>
      let r := sessionFetch env o.insecure host port
      match r.rc with
      | none => ⟨none, [], r.own⟩
      | some rc =>
        if rc ≠ 0 then ⟨some 1, [.stderr noSessionLine], r.own⟩
        else
          match r.session with
          | none => ⟨some 1, [], r.own⟩
          | some s => fetchReport env.malloc resumable fopenOk host port o.derOut r s
  | argv => ⟨some 2, [usage (argv.headD .empty)], []⟩

/-! ## `cmd_get` -/

/-- The branches of `cmd_get`'s loop. -/
def getKind (arg : CString) : ArgKind CString (Option CString) :=
  if arg = .lit "-o" then .valued fun v _ => some v else .refused

/-- The end of `cmd_get`, with the result of `uds_get`. -/
def getReport (fopenOk : Bool) (sock dest : CString) (derOut : Option CString) (g : GetCall) :
    CmdEnd ClientRes :=
  match g.out with
  | none => ⟨none, [], g.own⟩
  | some out =>
    if out.ret < 0 then
      ⟨some 1, [.stderr (.concat [.lit "transport error talking to ", sock, .lit "\n"])], g.own⟩
    else if out.ret = udsStatusMiss.toNat then
      ⟨some 1, [.stderr (.concat [.lit "miss: no session for ", dest,
        .lit " (would fall back + emit event)\n"])], g.own⟩
    else if out.ret ≠ udsStatusOk.toNat then
      ⟨some 1, [.stderr (.concat [.lit "agent error for ", dest, .lit "\n"])], g.own⟩
    else
      let s := out.session.getD .unset
      let saved := derPart .file (g.buf.map .buf) fopenOk derOut s.der s.derLen
      { rc := some 0
        shown := .stdout (.concat [.lit "destination : ", dest, .lit "\n"]) ::
          groupLines (s.group.getD .empty) s.isPqc ++ saved.shown
        own := g.own ++ saved.own ++ g.buf.toList.map fun id => .release (.buf id) }

/-- `cmd_get`, against a peer that answers the bytes it receives with `peer`. -/
def cmdGet (env : GetEnv) (peer : List UInt8 → List UInt8) (fopenOk : Bool) :
    List CString → CmdEnd ClientRes
  | argv0 :: _ :: sock :: dest :: args =>
    match parseArgs getKind none args with
    | none => ⟨some 2, [usage argv0], []⟩
    | some derOut => getReport fopenOk sock dest derOut (udsGetCall env sock dest 64 peer)
  | argv => ⟨some 2, [usage (argv.headD .empty)], []⟩

/-! ## `main` -/

/-- What the outside decides for each subcommand. -/
structure MainEnv where
  source : SourceEnv
  resumable : SslSession → Bool
  serve : CmdEnv
  get : GetEnv
  peer : List UInt8 → List UInt8
  fopenOk : Bool

/-- The subcommand that `main` runs, with how it ends. -/
inductive MainCall where
  | fetch (out : CmdEnd SourceRes)
  | serve (out : CmdOut)
  | get (out : CmdEnd ClientRes)
  | usage (shown : CmdShow)

/-- `main` of the agent. -/
def agentMain (env : MainEnv) : List CString → MainCall
  | argv0 :: cmd :: args =>
    let argv := argv0 :: cmd :: args
    if cmd = .lit "fetch" then .fetch (cmdFetch env.source env.resumable env.fopenOk argv)
    else if cmd = .lit "serve" then .serve (cmdServe env.serve argv)
    else if cmd = .lit "get" then .get (cmdGet env.get env.peer env.fopenOk argv)
    else .usage (usage argv0)
  | argv => .usage (usage (argv.headD .empty))

/-- What `main` returns, if it does. -/
def MainCall.rc : MainCall → Option Int
  | .fetch out => out.rc
  | .serve out => some out.rc
  | .get out => out.rc
  | .usage _ => some 2

/-! ## Resources -/

/-- The subcommand has given back what it took. `fetch` may use the `NULL` of an `SSL_new` that
fails, and `get` may be killed; `serve` may leave the name of a socket where it fails, and has freed
the buffers of the agent (`CmdEnv.agent`). -/
def MainCall.Released (env : MainEnv) (argv : List CString) : MainCall → Prop
  | .fetch out => Ends env.source ∅ out.rc out.own
  | .serve out => (∃ Q, Owns ∅ out.own Q ∧ Q ⊆ {.path} ∧ (out.rc = 0 → Q = ∅)) ∧
      out.freed.Perm (env.serve.agent argv).made
  | .get out => if out.rc = none then env.get.epipe = true ∧ ∃ fd, Owns ∅ out.own {.fd fd}
      else Owns ∅ out.own ∅
  | .usage _ => True

end TicketConnect
