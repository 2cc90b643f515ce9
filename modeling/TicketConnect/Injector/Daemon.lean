import TicketConnect.Bpf.Exclude
import TicketConnect.Injector.OnEvent
import TicketConnect.Injector.Probed
import TicketConnect.Lib.Args

/-!
# The injector's process

The model of `main` (`injector/main.c`) around `scan` and `on_event`: the options, the dry run, the
BPF program, the probes, the loop that polls the ring buffer and scans again after every 25 polls,
and the exit. `injectorMain` lists the effects of the whole process in order, for all that the
system may answer.
-/

namespace TicketConnect

open Lib

/-! ## Options -/

/-- What `main` takes from its arguments. -/
structure InjectorArgs where
  agentSock : Option CString
  dest : Option CString
  libssl : Option CString
  excludeComm : CString
  target : Int
  doScan : Bool
  dryRun : Bool
deriving DecidableEq

/-- The settings without any argument. -/
def InjectorArgs.default : InjectorArgs :=
  ⟨none, none, none, .lit "ticket-agent", 0, false, false⟩

/-- The branches of the loop over the arguments. An option without its value is refused, like any
other argument. -/
def injectorKind (arg : CString) : ArgKind CString InjectorArgs :=
  if arg = .lit "--agent" then .valued fun v o => { o with agentSock := some v }
  else if arg = .lit "--dest" then .valued fun v o => { o with dest := some v }
  else if arg = .lit "--pid" then .valued fun v o => { o with target := atoi v }
  else if arg = .lit "--libssl" then .valued fun v o => { o with libssl := some v }
  else if arg = .lit "--exclude-comm" then .valued fun v o => { o with excludeComm := v }
  else if arg = .lit "--scan" then .alone fun o => { o with doScan := true }
  else if arg = .lit "--dry-run" then .alone fun o => { o with dryRun := true, doScan := true }
  else .refused

/-! ## Effects -/

/-- A resource of the process: the skeleton of the BPF program, the probe on the one target, the
ring buffer, or the probe on the file with a key. -/
inductive DaemonRes where
  | skel
  | targetProbe
  | ringBuffer
  | probe (key : CString)
deriving DecidableEq

/-- An effect of the process. -/
inductive DaemonEff where
  | own (e : Own DaemonRes)
  | stdout (line : CString)
  | stderr (line : CString)
  | event (e : EventEff)

/-- What an effect of `scan` is to the process: an attach uses the skeleton, and gives a probe where
it succeeds. -/
def ScanEff.effs : ScanEff → List DaemonEff
  | .file _ => []
  | .stdout line => [.stdout line]
  | .stderr line => [.stderr line]
  | .attach _ none => [.own (.use .skel)]
  | .attach key (some _) => [.own (.use .skel), .own (.acquire (.probe key))]

/-- The effects of `scan`, beside those on files. -/
def scanEffs (effs : List ScanEff) : List DaemonEff := effs.flatMap ScanEff.effs

@[simp] theorem scanEffs_nil : scanEffs [] = [] := rfl

@[simp] theorem scanEffs_append (effs effs' : List ScanEff) :
    scanEffs (effs ++ effs') = scanEffs effs ++ scanEffs effs' := List.flatMap_append

@[simp] theorem scanEffs_cons_file (e : Own FileRes) (effs : List ScanEff) :
    scanEffs (.file e :: effs) = scanEffs effs := rfl

@[simp] theorem scanEffs_map_file (files : List (Own FileRes)) :
    scanEffs (files.map .file) = [] := by
  simp [scanEffs, List.flatMap_map, ScanEff.effs]

/-! ## The loop -/

/-- A `ring_buffer__poll`: its return value, the records it delivers, and the node as a scan behind
it finds it. -/
structure Poll where
  ret : Int
  events : List Delivery
  procs : Option (List ProcEntry)

/-- The poll ends the loop: it fails, and not with `EINTR`. -/
def Poll.fails (p : Poll) : Bool := p.ret < 0 ∧ p.ret ≠ -4

/-- The process is killed while it handles the records. -/
def Poll.kills (sock dest : CString) (p : Poll) : Bool := p.events.any (·.kills sock dest)

/-- `since_scan` and the table. -/
structure LoopState where
  since : Nat
  table : Table

/-- The end of a round: the scan after every 25th poll. -/
def rescan (self : Int) (doScan : Bool) (p : Poll) (st : LoopState) :
    LoopState × List DaemonEff :=
  if doScan then
    if 25 ≤ st.since + 1 then
      let r := scanRun self false p.procs st.table
      (⟨0, r.table⟩, scanEffs r.effs)
    else (⟨st.since + 1, st.table⟩, [])
  else (st, [])

/-- How the loop of `main` ends: its variables, whether the process has been killed in it, and the
effects. -/
structure PollOut where
  state : LoopState
  killed : Bool
  effs : List DaemonEff

/-- The loop of `main`, over the polls that are made until a signal clears `g_running`. -/
def pollLoop (self : Int) (sock dest : CString) (doScan : Bool) :
    List Poll → LoopState → PollOut
  | [], st => ⟨st, false, []⟩
  | p :: ps, st =>
    let polled := .own (.use .ringBuffer) :: (onEvents sock dest p.events).map DaemonEff.event
    if p.kills sock dest then ⟨st, true, polled⟩
    else if p.fails then ⟨st, false, polled⟩
    else
      let r := rescan self doScan p st
      let rest := pollLoop self sock dest doScan ps r.1
      { rest with effs := polled ++ r.2 ++ rest.effs }

/-! ## `main` -/

/-- What the outside decides: the process's own pid, the node at the first scan, whether the
skeleton can be opened and loaded, the pid namespace (device and inode), the mappings of the one
target, which paths it can be probed at, whether `ring_buffer__new` succeeds, and the polls. -/
structure InjectorEnv where
  self : Int
  procs : Option (List ProcEntry)
  openOk : Bool
  pidns : Option (Nat × Nat)
  loadOk : Bool
  maps : Option (List MapsLine)
  attachOk : CString → Bool
  ringOk : Bool
  polls : List Poll

/-- What `main` sets in the program's read-only data. -/
structure Rodata where
  freeze : Bool
  excludeComm : Vector UInt8 commLen
  targetPidnsDev : Nat
  targetPidnsIno : Nat

/-- The read-only data for the settings; without a pid namespace its device and inode stay 0. -/
def InjectorEnv.rodata (env : InjectorEnv) (o : InjectorArgs) : Rodata where
  freeze := true
  excludeComm := TicketConnect.excludeComm o.excludeComm
  targetPidnsDev := env.pidns.elim 0 Prod.fst
  targetPidnsIno := env.pidns.elim 0 Prod.snd

/-- The first probes: whether the process goes on, the table and the effects. -/
structure Probes where
  ok : Bool
  table : Table
  effs : List DaemonEff

/-- The part of `main` that attaches the first probes, to the one target or to the node. -/
def firstProbes (env : InjectorEnv) (o : InjectorArgs) : Probes :=
  if 0 < o.target then
    match o.libssl.or (findLibsslForPid env.maps) with
    | none =>
      ⟨false, .empty, [.stderr (.concat [.lit "no libssl mapped in pid ", .dec o.target, .lit "\n"])]⟩
    | some libssl =>
      if env.attachOk libssl then
        ⟨true, .empty, [.own (.use .skel), .own (.acquire .targetProbe),
          .stderr (.concat [.lit "injector: watching pid ", .dec o.target, .lit " (", libssl,
            .lit ")\n"])]⟩
      else
        ⟨false, .empty, [.own (.use .skel),
          .stderr (.concat [.lit "uprobe attach failed on ", libssl, .lit "\n"])]⟩
  else
    let r := scanRun env.self false env.procs .empty
    ⟨true, r.table, scanEffs r.effs ++
      [.stderr (.concat [.lit "injector: node-wide, ", .dec r.ret,
        .lit " libssl file(s) probed (excluding '", o.excludeComm, .lit "')\n"])]⟩

/-- The exit: the ring buffer, if there is one, the probes of the table, and the skeleton, which has
the probe on the one target. -/
def exitEffs (ringOk : Bool) (o : InjectorArgs) (t : Table) : List DaemonEff :=
  (if ringOk then [.own (.release .ringBuffer)] else []) ++
    (t.att.filter (·.link.isSome)).map (fun a => .own (.release (.probe a.key))) ++
    (if 0 < o.target then [.own (.release .targetProbe)] else []) ++ [.own (.release .skel)]

/-- The result of `main`: its return value, the data the program was loaded with, the table, and the
effects. A process that is killed, or that polls a ring buffer that is `NULL`, returns nothing. -/
structure InjectorOut where
  rc : Option Int
  rodata : Option Rodata
  table : Table
  effs : List DaemonEff

/-- The end of `main`, from the ring buffer on: `ready` is what was done before. -/
def daemonLoop (env : InjectorEnv) (o : InjectorArgs) (sock dest : CString) (t : Table)
    (ready : List DaemonEff) : InjectorOut :=
  if env.ringOk then
    let r := pollLoop env.self sock dest o.doScan env.polls ⟨0, t⟩
    let effs := ready ++ [.own (.use .skel), .own (.acquire .ringBuffer)] ++ r.effs
    if r.killed then ⟨none, some (env.rodata o), r.state.table, effs⟩
    else ⟨some 0, some (env.rodata o), r.state.table, effs ++ exitEffs true o r.state.table⟩
  else if env.polls = [] then
    ⟨some 0, some (env.rodata o), t, ready ++ [.own (.use .skel)] ++ exitEffs false o t⟩
  else
    ⟨none, some (env.rodata o), t, ready ++ [.own (.use .skel), .own (.use .ringBuffer)]⟩

/-- `main` behind its checks. -/
def injectorDaemon (env : InjectorEnv) (o : InjectorArgs) (sock dest : CString) : InjectorOut :=
  if env.openOk = false then ⟨some 1, none, .empty, []⟩
  else if env.loadOk = false then
    ⟨some 1, none, .empty, [.own (.acquire .skel), .own (.use .skel),
      .stderr (.lit "BPF load failed (need CAP_BPF/CAP_PERFMON)\n")]⟩
  else
    let loaded := [.own (.acquire .skel), .own (.use .skel)]
    let first := firstProbes env o
    if first.ok = false then ⟨some 1, some (env.rodata o), first.table, loaded ++ first.effs⟩
    else daemonLoop env o sock dest first.table (loaded ++ first.effs)

/-- `main` of the injector. -/
def injectorMain (env : InjectorEnv) (argv : List CString) : InjectorOut :=
  match parseArgs injectorKind .default argv.tail with
  | none =>
    ⟨some 2, none, .empty, [.stderr (.concat [.lit "usage: ", argv.headD .empty,
      .lit " --agent <sock> --dest <host:port> [--pid N | --scan] [--dry-run]\n"])]⟩
  | some o =>
    if o.target ≤ 0 ∧ o.doScan = false then
      ⟨some 2, none, .empty, [.stderr (.lit "specify --pid <N> or --scan\n")]⟩
    else if o.dryRun then
      let r := scanRun env.self true env.procs .empty
      ⟨some 0, none, r.table,
        .stdout (.concat [.lit "injector --dry-run: discovering libssl processes (excluding comm '",
          o.excludeComm, .lit "')\n"]) :: scanEffs r.effs ++
          [.stdout (.concat [.dec r.ret, .lit " distinct libssl file(s) would be probed\n"])]⟩
    else
      match o.agentSock, o.dest with
      | some sock, some dest => injectorDaemon env o sock dest
      | _, _ => ⟨some 2, none, .empty, [.stderr (.lit "missing --agent/--dest\n")]⟩

end TicketConnect
