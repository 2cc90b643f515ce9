import TicketConnect.Injector.Daemon
import TicketConnect.Injector.Resolve

/-!
# The files that the injector opens

A daemon that runs for months must not leave files open. `scan` (`injector/main.c`) reads `/proc`,
the `maps` of every process and the `comm` of some, after every 25 polls; `resolve_symbol`
(`injector/symbols.c`) reads a `maps` file and maps a library, five times for every session that is
to be installed. Here are the events of these files, as `scanRun` has them and along the control
flow of `resolveSymbol`. `lookups_close_files` says that every sequence of such calls closes what it
opens, wherever the calls return.
-/

namespace TicketConnect

open Lib

/-! ## `scan` -/

/-- The files of `find_libssl_for_pid`. -/
def libsslFiles (maps : Option (List MapsLine)) : List (Own FileRes) := (findLibsslRun maps).2

/-- The events of the files among the effects of `scan`. -/
def fileEvents (effs : List ScanEff) : List (Own FileRes) :=
  effs.filterMap fun
    | .file e => some e
    | _ => none

/-- The files of `scan`. -/
def scanFiles (self : Int) (dry : Bool) (procs : Option (List ProcEntry)) (t : Table) :
    List (Own FileRes) :=
  fileEvents (scanRun self dry procs t).effs

@[simp] theorem fileEvents_append (effs effs' : List ScanEff) :
    fileEvents (effs ++ effs') = fileEvents effs ++ fileEvents effs' := List.filterMap_append

@[simp] theorem fileEvents_cons_file (e : Own FileRes) (effs : List ScanEff) :
    fileEvents (.file e :: effs) = e :: fileEvents effs := rfl

@[simp] theorem fileEvents_map_file (files : List (Own FileRes)) :
    fileEvents (files.map .file) = files := by
  simp [fileEvents, List.filterMap_map]

/-! ## `resolve_symbol` -/

/-- The files of `find_library`, which reads all lines. -/
def libraryFiles (maps : Option (List MapsLine)) : List (Own FileRes) :=
  match maps with
  | none => []
  | some lines =>
    .acquire .maps :: lines.map (fun _ => .use .maps) ++ [.use .maps, .release .maps]

/-- The files of `map_elf`. The descriptor is closed before the result of `mmap` is looked at. -/
def mapElfFiles (files : CString → Option OpenFile) (pid : Int) (path : CString) :
    List (Own FileRes) :=
  match (files (rootedPath pid path)).or (files path) with
  | none => []
  | some f =>
    match f.stat with
    | none => [.acquire .elf, .use .elf, .release .elf]
    | some stSize =>
      if stSize < ehdrSize then [.acquire .elf, .use .elf, .release .elf]
      else
        [.acquire .elf, .use .elf, .use .elf] ++
          (if (f.mmap stSize).isSome then [.acquire .mapping] else []) ++ [.release .elf]

/-- The files of `resolve_symbol`. -/
def resolveSymbolFiles (maps : Option (List MapsLine)) (files : CString → Option OpenFile)
    (pid : Int) (libSubstr : CString) : List (Own FileRes) :=
  libraryFiles maps ++
    match findLibrary libSubstr maps with
    | none => []
    | some (_, path) =>
      mapElfFiles files pid path ++
        match mapElf files pid path with
        | none => []
        | some _ => [.use .mapping, .release .mapping]

/-! ## Sequences of calls -/

/-- A call of the daemon that opens files. -/
inductive FileCall where
  | scan (dry : Bool) (procs : Option (List ProcEntry))
  | libssl (maps : Option (List MapsLine))
  | resolve (maps : Option (List MapsLine)) (files : CString → Option OpenFile) (pid : Int)
      (libSubstr : CString)

/-- The files of one call after the other; a scan leaves its table to the next one. -/
def callFiles (self : Int) : List FileCall → Table → List (Own FileRes)
  | [], _ => []
  | .scan dry procs :: calls, t =>
    scanFiles self dry procs t ++ callFiles self calls (scanRun self dry procs t).table
  | .libssl maps :: calls, t => libsslFiles maps ++ callFiles self calls t
  | .resolve maps files pid libSubstr :: calls, t =>
    resolveSymbolFiles maps files pid libSubstr ++ callFiles self calls t

section Owns
variable {P : Finset FileRes}

/-- The loop closes the file on both ways out. -/
theorem libsslLoop_owns (hP : .maps ∉ P) (lines : List MapsLine) :
    Owns (insert .maps P) (libsslLoop lines).2 P := by
  have huse : Owns (insert .maps P) [.use .maps] (insert .maps P) :=
    .use (Finset.mem_insert_self _ _)
  have hclose : Owns (insert .maps P) [.release .maps] P := .release hP
  induction lines with
  | nil => exact huse.cons hclose
  | cons l ls ih =>
    unfold libsslLoop
    split
    · exact huse.cons hclose
    · exact huse.cons ih

theorem libsslFiles_owns (hP : .maps ∉ P) (maps : Option (List MapsLine)) :
    Owns P (libsslFiles maps) P := by
  cases maps with
  | none => exact .nil
  | some lines => exact (Owns.acquire hP).cons (libsslLoop_owns hP lines)

theorem readComm_owns (hP : .comm ∉ P) (comm : Option (List UInt8)) (cap : Nat) :
    Owns P (readComm comm cap).2 P := by
  cases comm with
  | none => exact .nil
  | some text =>
    have huse : Owns (insert .comm P) [.use .comm] (insert .comm P) :=
      .use (Finset.mem_insert_self _ _)
    exact (Owns.acquire hP).cons (huse.cons (.release hP))

/-- The search for the path of a process's libssl closes the listing. -/
theorem libsslRun_owns (self : Int) (e : ProcEntry) :
    Owns {FileRes.dir} (e.libsslRun self).2 {.dir} := by
  have hfound : Owns {FileRes.dir} (findLibsslRun e.maps).2 {.dir} :=
    libsslFiles_owns (by simp) e.maps
  unfold ProcEntry.libsslRun
  split
  · exact .nil
  split
  · exact .nil
  dsimp only
  split
  · exact hfound
  split
  · exact hfound
  split
  · exact hfound
  · exact hfound

/-- A round of `scan` closes what it opens, wherever it goes on to the next. -/
theorem scanEntryRun_closes (self : Int) (dry : Bool) (e : ProcEntry) (t : Table) :
    Owns {FileRes.dir} (fileEvents (scanEntryRun self dry e t).effs) {.dir} := by
  have hmaps := libsslRun_owns self e
  have hcomm : Owns {FileRes.dir} (readComm e.comm 64).2 {.dir} := readComm_owns (by simp) e.comm 64
  unfold scanEntryRun
  dsimp only
  split
  · rw [fileEvents_map_file]
    exact hmaps
  split
  · rw [fileEvents_map_file]
    exact hmaps
  have hboth := hmaps.append hcomm
  split
  · rw [fileEvents_append, fileEvents_append, fileEvents_map_file, fileEvents_map_file]
    exact hboth.append .nil
  split
  · rw [fileEvents_append, fileEvents_append, fileEvents_map_file, fileEvents_map_file]
    exact hboth.append .nil
  · rw [fileEvents_append, fileEvents_append, fileEvents_map_file, fileEvents_map_file]
    exact hboth.append .nil

/-- The loop of `scan` leaves the directory, which is open throughout. -/
theorem scanLoopRun_closes (self : Int) (dry : Bool) (es : List ProcEntry) (fresh : Nat)
    (t : Table) :
    Owns {FileRes.dir} (fileEvents (scanLoopRun self dry es fresh t).effs) {.dir} := by
  have huse : Owns {FileRes.dir} [.use .dir] {.dir} := .use (Finset.mem_singleton_self _)
  induction es generalizing fresh t with
  | nil => exact huse
  | cons e es ih =>
    have hround := huse.cons (scanEntryRun_closes self dry e t)
    have hcons {t' : Table} {rest : LoopRun}
        (hrest : Owns {FileRes.dir} (fileEvents rest.effs) {.dir}) :
        Owns {FileRes.dir}
          (fileEvents (LoopRun.cons (scanEntryRun self dry e t).effs t' rest).effs) {.dir} := by
      dsimp only [LoopRun.cons]
      rw [List.cons_append, fileEvents_cons_file, fileEvents_append]
      exact hround.append hrest
    rw [scanLoopRun]
    split
    · exact hcons (ih fresh t)
    split
    · exact hcons .nil
    · exact hcons (ih _ _)

theorem scanFiles_owns (self : Int) (dry : Bool) (procs : Option (List ProcEntry)) (t : Table) :
    Owns ∅ (scanFiles self dry procs t) ∅ := by
  cases procs with
  | none => exact .nil
  | some es =>
    have hopen : Owns ∅ [.acquire .dir] {FileRes.dir} := .acquire (Finset.notMem_empty _)
    have hclose : Owns {FileRes.dir} [.release .dir] ∅ := .release (Finset.notMem_empty _)
    dsimp only [scanFiles, scanRun]
    rw [List.cons_append, fileEvents_cons_file, fileEvents_append]
    exact hopen.cons ((scanLoopRun_closes self dry es 0 t).append hclose)

theorem libraryFiles_owns (maps : Option (List MapsLine)) : Owns ∅ (libraryFiles maps) ∅ := by
  have hopen : Owns ∅ [.acquire .maps] {FileRes.maps} := .acquire (Finset.notMem_empty _)
  have huse : Owns {FileRes.maps} [.use .maps] {.maps} := .use (Finset.mem_singleton_self _)
  have hclose : Owns {FileRes.maps} [.release .maps] ∅ := .release (Finset.notMem_empty _)
  cases maps with
  | none => exact .nil
  | some lines =>
    have hlines : Owns {FileRes.maps} (lines.map fun _ => .use .maps) {.maps} := by
      induction lines with
      | nil => exact .nil
      | cons l ls ih => exact huse.cons ih
    exact (hopen.cons hlines).append (huse.cons hclose)

/-- `map_elf` closes the file, and leaves the mapping that it returns. -/
theorem mapElfFiles_owns (files : CString → Option OpenFile) (pid : Int) (path : CString) :
    Owns ∅ (mapElfFiles files pid path)
      ((mapElf files pid path).elim ∅ fun _ => {.mapping}) := by
  have hopen : Owns ∅ [.acquire .elf] {FileRes.elf} := .acquire (Finset.notMem_empty _)
  have huse : Owns {FileRes.elf} [.use .elf] {.elf} := .use (Finset.mem_singleton_self _)
  have hclose : Owns {FileRes.elf} [.release .elf] ∅ := .release (Finset.notMem_empty _)
  unfold mapElfFiles mapElf
  cases (files (rootedPath pid path)).or (files path) with
  | none => exact .nil
  | some f =>
    dsimp only
    cases f.stat with
    | none => exact hopen.cons (huse.cons hclose)
    | some stSize =>
      dsimp only
      split
      · exact hopen.cons (huse.cons hclose)
      -- the second use is `mmap`
      have hstat := hopen.cons (huse.cons huse)
      cases f.mmap stSize with
      | none => exact hstat.append hclose
      | some m =>
        have hmap : Owns {FileRes.elf} [.acquire .mapping] {.mapping, .elf} := .acquire (by simp)
        have hclose' : Owns {FileRes.mapping, FileRes.elf} [.release .elf] {.mapping} := by
          rw [Finset.pair_comm]
          exact .release (by simp)
        exact (hstat.append hmap).append hclose'

theorem resolveSymbolFiles_owns (maps : Option (List MapsLine))
    (files : CString → Option OpenFile) (pid : Int) (libSubstr : CString) :
    Owns ∅ (resolveSymbolFiles maps files pid libSubstr) ∅ := by
  refine (libraryFiles_owns maps).append ?_
  cases findLibrary libSubstr maps with
  | none => exact .nil
  | some found =>
    obtain ⟨base, path⟩ := found
    have helf := mapElfFiles_owns files pid path
    dsimp only
    cases hmap : mapElf files pid path with
    | none =>
      rw [hmap] at helf
      exact helf.append .nil
    | some m =>
      rw [hmap] at helf
      have huse : Owns {FileRes.mapping} [.use .mapping] {.mapping} :=
        .use (Finset.mem_singleton_self _)
      exact helf.append (huse.cons (.release (Finset.notMem_empty _)))

end Owns

/-- **Scans and symbol lookups close what they open.** Over every sequence of scans, searches for a
process's libssl and symbol lookups, for every node, every listing, every file and every failure to
open, `stat` or map one: each file is opened once, used only while it is open, and closed once
before the call returns, so that the calls of any length of run hold nothing between them. -/
theorem lookups_close_files (self : Int) (calls : List FileCall) (t : Table) :
    Owns ∅ (callFiles self calls t) ∅ := by
  induction calls generalizing t with
  | nil => exact .nil
  | cons call calls ih =>
    cases call with
    | scan dry procs => exact (scanFiles_owns self dry procs t).append (ih _)
    | libssl maps => exact (libsslFiles_owns (Finset.notMem_empty _) maps).append (ih t)
    | resolve maps files pid libSubstr =>
      exact (resolveSymbolFiles_owns maps files pid libSubstr).append (ih t)

end TicketConnect
