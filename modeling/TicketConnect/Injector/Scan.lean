import TicketConnect.Injector.Symbols
import TicketConnect.Lib.Owned

/-!
# Scanning the node for libraries

The model of `scan` (`injector/main.c`) and of the table `g_att` it fills: for each process in
`/proc`, find its libssl, identify the file, and attach a probe to each file that is not in the
table yet. What the node looks like when an entry of `/proc` is read is in `ProcEntry`, so a theorem
over all lists of entries covers every node and every change of it during a scan.

The table is the list of its entries, so its length is `g_natt`; `Table.writes` records at which
index each entry was written. `scanLoopRun` is the loop with all that it does; what other modules
need of it are readings of its result: the table (`scanLoop`), the tables after each round, the
files, and the lines and probes.
-/

namespace TicketConnect

open Lib

/-! ## The table -/

/-- `sizeof(g_att) / sizeof(g_att[0])`. -/
def attCap : Nat := 512

/-- `sizeof(key)`. -/
def keyCap : Nat := 300

/-- `struct attached`; a link is named by a number, `none` is `NULL`. -/
structure Attached where
  key : CString
  link : Option Nat
deriving DecidableEq

/-- `g_att` and `g_natt`: the entries written so far, and the indices they were written at. -/
structure Table where
  att : List Attached
  writes : List Nat
deriving DecidableEq

/-- The table at start-up. -/
def Table.empty : Table := ⟨[], []⟩

/-- A write of the entry at `g_natt`, and `++g_natt`. -/
def Table.push (t : Table) (a : Attached) : Table := ⟨t.att ++ [a], t.writes ++ [t.att.length]⟩

/-- `seen`. -/
def Table.seen (t : Table) (key : CString) : Bool := t.att.any (·.key = key)

/-! ## The processes -/

/-- A file that is open: `/proc`, a `maps` file, a `comm` file, the file of a library, or its
mapping. -/
inductive FileRes where
  | dir
  | maps
  | comm
  | elf
  | mapping
deriving DecidableEq

/-- An entry of `/proc`, and what the node answers while it is looked at: the number `strtol` reads
where it reads the whole name, the lines of the process's `maps` and the text of its `comm` (`none`:
it cannot be opened), which paths can be `stat`ed, the key `file_key` writes for a path, and the
link that an attach to a path returns. -/
structure ProcEntry where
  pid : Option Int
  maps : Option (List MapsLine)
  comm : Option (List UInt8)
  statOk : CString → Bool
  key : CString → CString
  attach : CString → Option Nat
  key_lt : ∀ path, (key path).strlen < keyCap

/-- The loop of `find_libssl_for_pid`, with a `fgets` for each line. -/
def libsslLoop : List MapsLine → Option CString × List (Own FileRes)
  | [] => (none, [.use .maps, .release .maps])
  | l :: ls =>
    if l.path.strstr (.lit "libssl.so") then
      (some (l.path.snprintf pathCap), [.use .maps, .release .maps])
    else
      let r := libsslLoop ls
      (r.1, .use .maps :: r.2)

/-- `find_libssl_for_pid`, with the events of its file. -/
def findLibsslRun (maps : Option (List MapsLine)) : Option CString × List (Own FileRes) :=
  match maps with
  | none => (none, [])
  | some lines =>
    let r := libsslLoop lines
    (r.1, .acquire .maps :: r.2)

/-- What `find_libssl_for_pid` returns. -/
def findLibsslForPid (maps : Option (List MapsLine)) : Option CString := (findLibsslRun maps).1

/-- The path is that of the first line that contains `libssl.so`. -/
theorem findLibsslForPid_some (lines : List MapsLine) :
    findLibsslForPid (some lines) =
      (lines.find? fun l => l.path.strstr (.lit "libssl.so")).map fun l =>
        l.path.snprintf pathCap := by
  show (libsslLoop lines).1 = _
  induction lines with
  | nil => rfl
  | cons l ls ih =>
    rw [libsslLoop, List.find?_cons]
    cases l.path.strstr (.lit "libssl.so") with
    | true => rfl
    | false => exact ih

/-- The part of a round of `scan` up to the path that it uses, `none` where the round ends. -/
def ProcEntry.libsslRun (self : Int) (e : ProcEntry) : Option CString × List (Own FileRes) :=
  match e.pid with
  | none => (none, [])
  | some pid =>
    if pid = self then (none, [])
    else
      let found := findLibsslRun e.maps
      match found.1 with
      | none => (none, found.2)
      | some path =>
        if e.statOk (rootedPath pid path) then (some (rootedPath pid path), found.2)
        else if e.statOk path then (some path, found.2)
        else (none, found.2)

/-- The path that `scan` uses for an entry. -/
def ProcEntry.libssl (self : Int) (e : ProcEntry) : Option CString := (e.libsslRun self).1

theorem ProcEntry.libssl_eq (self : Int) (e : ProcEntry) :
    e.libssl self =
      match e.pid with
      | none => none
      | some pid =>
        if pid = self then none
        else
          match findLibsslForPid e.maps with
          | none => none
          | some path =>
            if e.statOk (rootedPath pid path) then some (rootedPath pid path)
            else if e.statOk path then some path
            else none := by
  unfold ProcEntry.libssl ProcEntry.libsslRun findLibsslForPid
  cases e.pid with
  | none => rfl
  | some pid =>
    dsimp only
    split
    · rfl
    cases (findLibsslRun e.maps).1 with
    | none => rfl
    | some path =>
      dsimp only
      split
      · rfl
      · split <;> rfl

/-- `read_comm` into a buffer of `cap` bytes: the first line, cut to the buffer. -/
def readComm (comm : Option (List UInt8)) (cap : Nat) : CString × List (Own FileRes) :=
  match comm with
  | none => (.empty, [])
  | some text =>
    (.ofBuf ((text.takeWhile (· ≠ 10)).take (cap - 1)),
      [.acquire .comm, .use .comm, .release .comm])

/-! ## `scan` -/

/-- An effect of `scan` beside the table: an event of its files, a line, or an attach to the file
with a key, with the link that it returns. -/
inductive ScanEff where
  | file (e : Own FileRes)
  | stdout (line : CString)
  | stderr (line : CString)
  | attach (key : CString) (link : Option Nat)

/-- `"would attach: %s (first seen via pid %ld comm=%s)\n"`. -/
def wouldAttachLine (use : CString) (pid : Int) (comm : CString) : CString :=
  .concat [.lit "would attach: ", use, .lit " (first seen via pid ", .dec pid, .lit " comm=", comm,
    .lit ")\n"]

/-- `"attached node-wide uprobe: %s\n"`. -/
def attachedLine (use : CString) : CString :=
  .concat [.lit "attached node-wide uprobe: ", use, .lit "\n"]

/-- A round of the loop of `scan`: the table at `++fresh`, `none` where the round ends earlier, and
the effects. -/
structure EntryRun where
  table : Option Table
  effs : List ScanEff

/-- One round of the loop of `scan`. -/
def scanEntryRun (self : Int) (dry : Bool) (e : ProcEntry) (t : Table) : EntryRun :=
  let found := e.libsslRun self
  let files := found.2.map .file
  match found.1 with
  | none => ⟨none, files⟩
  | some use =>
    let key := e.key use
    if t.seen key then ⟨none, files⟩
    else
      let comm := readComm e.comm 64
      let files := files ++ comm.2.map .file
      if dry then
        { table := some (t.push ⟨key.snprintf keyCap, none⟩)
          effs := files ++ [.stdout (wouldAttachLine use (e.pid.getD 0) comm.1)] }
      else
        match e.attach use with
        | none => ⟨some t, files ++ [.attach key none]⟩
        | some link =>
          { table := some (t.push ⟨key.snprintf keyCap, some link⟩)
            effs := files ++ [.attach key (some link), .stderr (attachedLine use)] }

/-- The table of a round. -/
def scanEntry (self : Int) (dry : Bool) (e : ProcEntry) (t : Table) : Option Table :=
  (scanEntryRun self dry e t).table

/-- How the loop of `scan` ends: `fresh` and the table, with the tables after each round, and the
effects. -/
structure LoopRun where
  fresh : Nat
  table : Table
  tables : List Table
  effs : List ScanEff

/-- The loop `rest` behind one round more, which leaves the table `t`. -/
def LoopRun.cons (round : List ScanEff) (t : Table) (rest : LoopRun) : LoopRun :=
  { rest with tables := t :: rest.tables, effs := .file (.use .dir) :: round ++ rest.effs }

/-- The loop of `scan`, with a `readdir` for each entry. -/
def scanLoopRun (self : Int) (dry : Bool) : List ProcEntry → Nat → Table → LoopRun
  | [], fresh, t => ⟨fresh, t, [], [.file (.use .dir)]⟩
  | e :: es, fresh, t =>
    let round := scanEntryRun self dry e t
    match round.table with
    | none => .cons round.effs t (scanLoopRun self dry es fresh t)
    | some t' =>
      if attCap ≤ t'.att.length then .cons round.effs t' ⟨fresh + 1, t', [], []⟩
      else .cons round.effs t' (scanLoopRun self dry es (fresh + 1) t')

/-- `fresh` and the table at the end of the loop of `scan`. -/
def scanLoop (self : Int) (dry : Bool) (es : List ProcEntry) (fresh : Nat) (t : Table) :
    Nat × Table :=
  ((scanLoopRun self dry es fresh t).fresh, (scanLoopRun self dry es fresh t).table)

@[simp] theorem scanLoop_nil (self : Int) (dry : Bool) (fresh : Nat) (t : Table) :
    scanLoop self dry [] fresh t = (fresh, t) := rfl

theorem scanLoop_cons (self : Int) (dry : Bool) (e : ProcEntry) (es : List ProcEntry) (fresh : Nat)
    (t : Table) :
    scanLoop self dry (e :: es) fresh t =
      match scanEntry self dry e t with
      | none => scanLoop self dry es fresh t
      | some t' =>
        if attCap ≤ t'.att.length then (fresh + 1, t')
        else scanLoop self dry es (fresh + 1) t' := by
  unfold scanLoop scanEntry
  rw [scanLoopRun]
  cases (scanEntryRun self dry e t).table with
  | none => rfl
  | some t' =>
    dsimp only
    split <;> rfl

/-- `fresh` counts, and nothing else depends on it. -/
theorem scanLoopRun_fresh (self : Int) (dry : Bool) (es : List ProcEntry) (fresh : Nat)
    (t : Table) :
    scanLoopRun self dry es fresh t =
      { scanLoopRun self dry es 0 t with
        fresh := fresh + (scanLoopRun self dry es 0 t).fresh } := by
  induction es generalizing fresh t with
  | nil => rfl
  | cons e es ih =>
    rw [scanLoopRun, scanLoopRun]
    cases (scanEntryRun self dry e t).table with
    | none =>
      dsimp only
      rw [ih]
      rfl
    | some t' =>
      dsimp only
      split
      · rfl
      · rw [ih (fresh + 1), ih (0 + 1)]
        simp only [LoopRun.cons, Nat.add_assoc, Nat.zero_add]

/-- How `scan` ends: its return value, the table and the effects. -/
structure ScanOut where
  ret : Int
  table : Table
  effs : List ScanEff

/-- `scan`, over the entries of `/proc` (`none`: it cannot be opened), with its effects. -/
def scanRun (self : Int) (dry : Bool) (procs : Option (List ProcEntry)) (t : Table) : ScanOut :=
  match procs with
  | none => ⟨-1, t, []⟩
  | some es =>
    let r := scanLoopRun self dry es 0 t
    ⟨r.fresh, r.table, .file (.acquire .dir) :: r.effs ++ [.file (.release .dir)]⟩

/-- What `scan` returns, and the table. -/
def scan (self : Int) (dry : Bool) (procs : Option (List ProcEntry)) (t : Table) : Int × Table :=
  ((scanRun self dry procs t).ret, (scanRun self dry procs t).table)

/-! ## The ways through a round -/

/-- A libssl file that is not in the table, and the path it is reached by. -/
def ProcEntry.Unseen (self : Int) (t : Table) (e : ProcEntry) (use : CString) : Prop :=
  e.libssl self = some use ∧ t.seen (e.key use) = false

/-- The ways through one round: there is no libssl file, or it is in the table; it is not in the
table and the attach fails; or it is recorded. -/
inductive EntryStep (self : Int) (dry : Bool) (e : ProcEntry) (t : Table) :
    Option Table → Prop where
  | skipped (h : ∀ use, ¬e.Unseen self t use) : EntryStep self dry e t none
  | failed {use : CString} (h : e.Unseen self t use) (hdry : dry = false)
      (hattach : e.attach use = none) : EntryStep self dry e t (some t)
  | recorded {use : CString} (h : e.Unseen self t use) {link : Option Nat}
      (hlink : dry = true ∧ link = none ∨ dry = false ∧ link.isSome ∧ e.attach use = link) :
      EntryStep self dry e t (some (t.push ⟨e.key use, link⟩))

/-- The same ways with their effects, beside those on files: nothing; an attach that fails; the line
of a dry run; or a link and a line. -/
inductive EntryEffs (self : Int) (e : ProcEntry) (t : Table) : Bool → EntryRun → Prop where
  | skipped {dry : Bool} {files : List (Own FileRes)} (h : ∀ use, ¬e.Unseen self t use) :
      EntryEffs self e t dry ⟨none, files.map .file⟩
  | failed {use : CString} {files : List (Own FileRes)} (h : e.Unseen self t use)
      (hattach : e.attach use = none) :
      EntryEffs self e t false ⟨some t, files.map .file ++ [.attach (e.key use) none]⟩
  | reported {use : CString} {files : List (Own FileRes)} (h : e.Unseen self t use) :
      EntryEffs self e t true ⟨some (t.push ⟨e.key use, none⟩), files.map .file ++
        [.stdout (wouldAttachLine use (e.pid.getD 0) (readComm e.comm 64).1)]⟩
  | probed {use : CString} {link : Nat} {files : List (Own FileRes)} (h : e.Unseen self t use)
      (hattach : e.attach use = some link) :
      EntryEffs self e t false ⟨some (t.push ⟨e.key use, some link⟩), files.map .file ++
        [.attach (e.key use) (some link), .stderr (attachedLine use)]⟩

/-- A round goes one of these ways. -/
theorem scanEntryRun_effs (self : Int) (dry : Bool) (e : ProcEntry) (t : Table) :
    EntryEffs self e t dry (scanEntryRun self dry e t) := by
  unfold scanEntryRun
  dsimp only
  split
  · next h =>
    refine .skipped fun use hu => ?_
    cases hu.1.symm.trans h
  next use h =>
  rw [CString.snprintf_of_lt (e.key_lt use), ← List.map_append]
  split
  · next hseen =>
    refine .skipped fun use' hu => ?_
    obtain rfl : use' = use := Option.some.inj (hu.1.symm.trans h)
    rw [hu.2] at hseen
    cases hseen
  next hseen =>
  have hu : e.Unseen self t use := ⟨h, Bool.eq_false_iff.2 hseen⟩
  cases dry with
  | true => exact .reported hu
  | false =>
    rw [if_neg Bool.false_ne_true]
    split
    · next hattach => exact .failed hu hattach
    · next link hattach => exact .probed hu hattach

/-- The table of a round goes one of these ways. -/
theorem scanEntry_step (self : Int) (dry : Bool) (e : ProcEntry) (t : Table) :
    EntryStep self dry e t (scanEntry self dry e t) := by
  have h := scanEntryRun_effs self dry e t
  unfold scanEntry
  generalize scanEntryRun self dry e t = r at h
  cases h with
  | skipped hno => exact .skipped hno
  | failed hu hattach => exact .failed hu rfl hattach
  | reported hu => exact .recorded hu (.inl ⟨rfl, rfl⟩)
  | probed hu hattach => exact .recorded hu (.inr ⟨rfl, rfl, hattach⟩)

end TicketConnect
