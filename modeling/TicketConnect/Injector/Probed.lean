import TicketConnect.Injector.Capacity
import TicketConnect.Injector.FileKey
import TicketConnect.Injector.MapsText

/-!
# Each libssl file is probed once

Runs of `scan` (`injector/main.c`) over nodes whose processes show the text of their mappings
(`NodeProc`). A scan appends to the table and keeps its keys distinct (`Table.Extends`), and one
that is not ended by a full table records the file of every process whose libssl it finds and can
attach to (`scanLoop_complete`). What `find_libssl_for_pid` finds is the first name in the listing
that contains `libssl.so`, if it fits in the buffer (`findLibsslForPid_mapsText`). `probesEach_iff`
puts these together: no libssl file is missed for exactly those listings in which this name is the
path of a file.
-/

namespace TicketConnect

open Lib

/-! ## What a scan does to the table -/

/-- The keys of the files recorded. -/
def Table.keys (t : Table) : List CString := t.att.map Attached.key

/-- Entries are appended only, and the keys stay distinct. -/
structure Table.Extends (t t' : Table) : Prop where
  entries : t.att <+: t'.att
  nodup : t.keys.Nodup → t'.keys.Nodup

namespace Table.Extends
variable {t t' t'' : Table}

theorem refl (t : Table) : t.Extends t := ⟨List.prefix_rfl, id⟩

theorem trans (h : t.Extends t') (h' : t'.Extends t'') : t.Extends t'' :=
  ⟨h.entries.trans h'.entries, h'.nodup ∘ h.nodup⟩

/-- A key that is recorded stays recorded. -/
theorem mem_keys (h : t.Extends t') {key : CString} (hk : key ∈ t.keys) : key ∈ t'.keys :=
  (h.entries.map Attached.key).sublist.mem hk

end Table.Extends

/-- `seen` looks for the key in the table. -/
theorem Table.seen_iff {t : Table} {key : CString} : t.seen key = true ↔ key ∈ t.keys := by
  simp [Table.seen, Table.keys]

section Loop
variable {self : Int} {dry : Bool} {e : ProcEntry} {t t' : Table}

/-- One round extends the table. -/
theorem EntryStep.extends (h : EntryStep self dry e t (some t')) : t.Extends t' := by
  cases h with
  | failed => exact .refl t
  | @recorded use hu link hlink =>
    refine ⟨List.prefix_append _ _, fun hnodup => ?_⟩
    have hnew : e.key use ∉ t.keys := by
      rw [← Table.seen_iff, hu.2]
      exact Bool.false_ne_true
    show ((t.att ++ [_]).map _).Nodup
    rw [List.map_append, List.nodup_append]
    refine ⟨hnodup, List.nodup_singleton _, fun a ha b hb hab => ?_⟩
    rw [List.map_singleton, List.mem_singleton] at hb
    rw [hab, hb] at ha
    exact hnew ha

/-- The loop extends the table. -/
theorem scanLoop_extends (es : List ProcEntry) (fresh : Nat) (t : Table) :
    t.Extends (scanLoop self dry es fresh t).2 := by
  induction es generalizing fresh t with
  | nil => exact .refl t
  | cons e es ih =>
    have hstep := scanEntry_step self dry e t
    rw [scanLoop_cons]
    cases hse : scanEntry self dry e t with
    | none => exact ih fresh t
    | some t₁ =>
      rw [hse] at hstep
      dsimp only
      split
      · exact hstep.extends
      · exact hstep.extends.trans (ih (fresh + 1) t₁)

/-- An entry whose file is new and can be attached to is recorded in its round. -/
theorem scanEntry_records {use : CString} (huse : e.libssl self = some use)
    (hattach : dry = true ∨ (e.attach use).isSome = true) :
    e.key use ∈ ((scanEntry self dry e t).getD t).keys := by
  have hstep := scanEntry_step self dry e t
  generalize scanEntry self dry e t = r at hstep
  cases hstep with
  | skipped hno =>
    refine Table.seen_iff.1 ?_
    by_contra hseen
    exact hno use ⟨huse, Bool.eq_false_iff.2 hseen⟩
  | failed hu hdry hfail =>
    cases huse.symm.trans hu.1
    rw [hdry, hfail] at hattach
    simp at hattach
  | recorded hu hlink =>
    cases huse.symm.trans hu.1
    simp [Table.keys, Table.push]

/-- A loop that a full table has not ended has recorded the file of every entry that can be attached
to. -/
theorem scanLoop_complete {es : List ProcEntry} {fresh : Nat}
    (hroom : (scanLoop self dry es fresh t).2.att.length < attCap) (he : e ∈ es) {use : CString}
    (huse : e.libssl self = some use) (hattach : dry = true ∨ (e.attach use).isSome = true) :
    e.key use ∈ (scanLoop self dry es fresh t).2.keys := by
  induction es generalizing fresh t with
  | nil => cases he
  | cons x es ih =>
    have hrec := fun h : e = x => scanEntry_records (t := t) (h ▸ huse) (h ▸ hattach)
    rw [scanLoop_cons] at hroom ⊢
    cases hse : scanEntry self dry x t with
    | none =>
      rw [hse] at hroom hrec
      rcases List.mem_cons.1 he with rfl | he
      · exact (scanLoop_extends es fresh t).mem_keys (hrec rfl)
      · exact ih hroom he
    | some t₁ =>
      rw [hse] at hroom hrec
      dsimp only at hroom ⊢
      split at hroom
      next hfull => exact absurd hroom (Nat.not_lt.2 hfull)
      next hlt =>
        rw [if_neg hlt]
        rcases List.mem_cons.1 he with rfl | he
        · exact (scanLoop_extends es (fresh + 1) t₁).mem_keys (hrec rfl)
        · exact ih hroom he

end Loop

/-- A call of `scan` extends the table. -/
theorem ScanCall.after_extends (c : ScanCall) (self : Int) (t : Table) :
    t.Extends (c.after self t) := by
  unfold ScanCall.after scan
  cases c.procs with
  | none => exact .refl t
  | some es => exact scanLoop_extends es 0 t

/-! ## Nodes -/

/-- A process as `scan` sees it: the number `strtol` reads from its name in `/proc`, its mappings
and the text of its `comm` (`none`: the file cannot be opened), and what `stat`, `name_to_handle_at`
and the attach give for a path. -/
structure NodeProc where
  pid : Option (BitVec 64)
  maps : Option (List MapsEntry)
  comm : Option (List UInt8)
  stat : CString → Option Stat
  handle : CString → Option FileHandle
  attach : CString → Option Nat

/-- A line of which only the path is read. -/
def pathLine : { path : CString // path.strlen < pathCap } → MapsLine
  | ⟨path, hlt⟩ => ⟨0, 0, .empty, 0, path, hlt⟩

/-- The line that `find_libssl_for_pid` gets from a piece. -/
def scanPathLine (s : List UInt8) : Option MapsLine := (scanLibsslLine s).map pathLine

/-- The lines that `find_libssl_for_pid` gets from a text. -/
def libsslLines (text : List UInt8) : List MapsLine :=
  (fgetsAll lineCap text).filterMap scanPathLine

namespace NodeProc

/-- The key of the file at a path. -/
def fileKeyAt (p : NodeProc) (path : CString) : CString :=
  fileKey (p.handle path) ((p.stat path).getD ⟨0, 0⟩) keyCap

/-- The process as an entry of the model of `scan`. -/
def entry (p : NodeProc) : ProcEntry where
  pid := p.pid.map BitVec.toInt
  maps := p.maps.map fun es => libsslLines (mapsText es)
  comm := p.comm
  statOk path := (p.stat path).isSome
  key := p.fileKeyAt
  attach := p.attach
  key_lt _ := strlen_fileKey_lt _ _

end NodeProc

/-- One call of `scan` on a node. -/
structure NodeScan where
  dry : Bool
  procs : Option (List NodeProc)

/-- The call as the model of `scan` has it. -/
def NodeScan.call (c : NodeScan) : ScanCall := ⟨c.dry, c.procs.map fun ps => ps.map NodeProc.entry⟩

/-- The table after a run of scans. -/
def nodeTableAfter (self : Int) (calls : List NodeScan) : Table :=
  calls.foldl (fun t c => c.call.after self t) .empty

/-! ## The libssl of a process -/

/-- The name of libssl in paths. -/
def libsslName : CString := .lit "libssl.so"

/-- The first name in a listing that contains `libssl.so`. -/
def firstNamed (es : List MapsEntry) : Option CString :=
  es.findSome? fun e => e.name.bind fun n =>
    if n.text.strstr libsslName = true then some n.text else none

/-- The first path of a mapped libssl file. -/
def firstLibssl (es : List MapsEntry) : Option CString :=
  es.findSome? fun e => e.name.bind fun n =>
    if IsHitPath libsslName n.text then some n.text else none

/-- The listings that show libssl plainly: if a libssl file is mapped, then the first name that
contains `libssl.so` is its path, and it has at most 511 bytes. -/
def PlainLibssl (es : List MapsEntry) : Prop :=
  ∀ path, firstLibssl es = some path → firstNamed es = some path ∧ path.strlen < pathCap

section Lines
variable {e : MapsEntry}

/-- The path of a line is part of the piece that it was scanned from. -/
theorem scanPathLine_infix (s : List UInt8) (l : MapsLine) (h : scanPathLine s = some l) :
    l.path.bytes <:+: s ∧ 10 ∉ l.path.bytes := by
  obtain ⟨path, hpath, rfl⟩ := Option.map_eq_some_iff.1 h
  exact scanLibsslLine_infix hpath

theorem scanPathLine_lead (e : MapsEntry) (r : List UInt8) :
    scanPathLine (e.lead ++ r) = (scanPath (skipSpace r)).map pathLine := by
  rw [scanPathLine, e.scanLibsslLine_lead]

/-- A listing is read line by line. -/
theorem libsslLines_mapsText (es : List MapsEntry) :
    libsslLines (mapsText es) = es.flatMap fun e => libsslLines e.text :=
  filterMap_mapsText scanPathLine es

/-- What `find_libssl_for_pid` gets from a line with a name. -/
theorem libsslLines_named {n : MapsName} (h : e.name = some n) :
    ∃ tails, libsslLines e.text = pathLine n.cut :: tails ∧
      (∀ l ∈ tails, l.path.bytes <:+: n.text.bytes) ∧ (n.text.strlen < pathCap → tails = []) :=
  MapsEntry.filterMap_pieces_named scanPathLine_infix (scanPathLine_lead e) h

/-- It gets nothing from a line without a name. -/
theorem libsslLines_unnamed (h : e.name = none) : libsslLines e.text = [] :=
  MapsEntry.filterMap_pieces_unnamed (scanPathLine_lead e) h

/-- The lines of a name that does not contain `libssl.so` do not contain it. -/
theorem libsslLines_not_strstr
    (h : ∀ n, e.name = some n → n.text.strstr libsslName = false) :
    ∀ l ∈ libsslLines e.text, l.path.strstr libsslName = false := by
  intro l hl
  cases hname : e.name with
  | none =>
    rw [libsslLines_unnamed hname] at hl
    cases hl
  | some n =>
    obtain ⟨tails, heq, htails, -⟩ := libsslLines_named hname
    have hin : l.path.bytes <:+: n.text.bytes := by
      rw [heq] at hl
      rcases List.mem_cons.1 hl with rfl | hl
      · exact (List.take_prefix _ _).isInfix
      · exact htails l hl
    refine decide_eq_false fun hsub => ?_
    exact of_decide_eq_false (h n hname) (hsub.trans hin)

end Lines

/-- The first name that contains `libssl.so` stands behind lines whose names do not. -/
theorem exists_of_firstNamed {es : List MapsEntry} {m : CString} (h : firstNamed es = some m) :
    ∃ before e after n, es = before ++ e :: after ∧ e.name = some n ∧ n.text = m ∧
      n.text.strstr libsslName = true ∧
      ∀ x ∈ before, ∀ k, x.name = some k → k.text.strstr libsslName = false := by
  obtain ⟨before, e, after, rfl, he, hbefore⟩ := List.findSome?_eq_some_iff.1 h
  obtain ⟨n, hname, hn⟩ := Option.bind_eq_some_iff.1 he
  split_ifs at hn with hsub
  refine ⟨before, e, after, n, rfl, hname, Option.some.inj hn, hsub, fun x hx k hk => ?_⟩
  have hnone := hbefore x hx
  rw [hk] at hnone
  by_contra hksub
  simp [hksub] at hnone

/-- `find_libssl_for_pid` finds the first name that contains `libssl.so`, where it fits. -/
theorem findLibsslForPid_mapsText {es : List MapsEntry} {path : CString}
    (h : firstNamed es = some path) (hfit : path.strlen < pathCap) :
    findLibsslForPid (some (libsslLines (mapsText es))) = some path := by
  obtain ⟨before, e, after, n, rfl, hname, rfl, hsub, hno⟩ := exists_of_firstNamed h
  obtain ⟨tails, heq, -, -⟩ := libsslLines_named hname
  have hcut : n.cut.1 = n.text := CString.snprintf_of_lt hfit
  have hfind : (libsslLines (mapsText (before ++ e :: after))).find?
      (fun l => l.path.strstr libsslName) = some (pathLine n.cut) := by
    have hpre : (before.flatMap fun x => libsslLines x.text).find?
        (fun l => l.path.strstr libsslName) = none := by
      refine List.find?_eq_none.2 fun l hl => ?_
      obtain ⟨x, hx, hlx⟩ := List.mem_flatMap.1 hl
      rw [libsslLines_not_strstr (hno x hx) l hlx]
      exact Bool.false_ne_true
    have hhead : (pathLine n.cut).path.strstr libsslName = true := by
      show n.cut.1.strstr libsslName = true
      rw [hcut, hsub]
    rw [libsslLines_mapsText, List.flatMap_append, List.flatMap_cons, List.find?_append, hpre,
      Option.none_or, heq, List.cons_append, List.find?_cons, hhead]
  have hpath : (pathLine n.cut).path.snprintf pathCap = n.text := by
    show n.cut.1.snprintf pathCap = n.text
    rw [hcut, CString.snprintf_of_lt hfit]
  unfold libsslName at hfind
  rw [findLibsslForPid_some, hfind, Option.map_some, hpath]

/-! ## Processes that should be probed -/

/-- The path of a file in the root directory of a process, whole. -/
def rootedFull (pid : Int) (path : CString) : CString :=
  (((CString.lit "/proc/").append (.dec pid)).append (.lit "/root")).append path

/-- The path by which a process should be probed: that of its first libssl file, in its root
directory or else directly, for processes other than the injector. -/
def NodeProc.wanted (self : Int) (p : NodeProc) : Option CString :=
  match p.pid, p.maps.bind firstLibssl with
  | some pid, some path =>
    if pid.toInt = self then none
    else if (p.stat (rootedFull pid.toInt path)).isSome then some (rootedFull pid.toInt path)
    else if (p.stat path).isSome then some path
    else none
  | _, _ => none

/-- Each libssl file is probed once and none is missed: after each scan of a run, the keys recorded
are distinct, what was recorded before is there unchanged, and if the table has room left, the key
is recorded of every file by which a process should be probed and that can be attached to. -/
def ProbesEach (self : Int) (calls : List NodeScan) : Prop :=
  ∀ pre c post, calls = pre ++ c :: post →
    (nodeTableAfter self (pre ++ [c])).keys.Nodup ∧
    (nodeTableAfter self pre).att <+: (nodeTableAfter self (pre ++ [c])).att ∧
    ∀ procs, c.procs = some procs → (nodeTableAfter self (pre ++ [c])).att.length < attCap →
      ∀ p ∈ procs, ∀ use, p.wanted self = some use →
        c.dry = true ∨ (p.attach use).isSome = true →
        p.fileKeyAt use ∈ (nodeTableAfter self (pre ++ [c])).keys

/-- A path that fits is not cut in the root directory of a process either. -/
theorem rootedPath_eq (pid : BitVec 64) {path : CString} (h : path.strlen < pathCap) :
    rootedPath pid.toInt path = rootedFull pid.toInt path := by
  have hpid : (CString.dec pid.toInt).strlen ≤ 20 := by
    have hlt := pid.toInt_lt
    have hle := pid.le_toInt
    exact CString.strlen_dec_le (by omega) (by omega)
  have hlit : (CString.lit "/proc/").strlen = 6 ∧ (CString.lit "/root").strlen = 5 := by
    decide +kernel
  refine CString.snprintf_of_lt ?_
  simp only [CString.strlen_append]
  unfold pathCap at h
  omega

/-- For a plain listing, `scan` uses the path by which the process should be probed. -/
theorem NodeProc.libssl_of_wanted {self : Int} {p : NodeProc} {use : CString}
    (h : p.wanted self = some use) (hplain : ∀ es, p.maps = some es → PlainLibssl es) :
    p.entry.libssl self = some use := by
  unfold NodeProc.wanted at h
  split at h
  next pid path hpid hpath =>
    obtain ⟨es, hmaps, hfirst⟩ := Option.bind_eq_some_iff.1 hpath
    obtain ⟨hnamed, hfit⟩ := hplain es hmaps path hfirst
    have hfind := findLibsslForPid_mapsText hnamed hfit
    simp only [ProcEntry.libssl_eq, NodeProc.entry, hpid, hmaps, Option.map_some, hfind,
      rootedPath_eq pid hfit]
    exact h
  next => cases h

section Run
variable {self : Int}

theorem nodeTableAfter_concat (pre : List NodeScan) (c : NodeScan) :
    nodeTableAfter self (pre ++ [c]) = c.call.after self (nodeTableAfter self pre) := by
  rw [nodeTableAfter, List.foldl_append]
  rfl

/-- The keys recorded in a run are distinct. -/
theorem nodeTableAfter_nodup (calls : List NodeScan) : (nodeTableAfter self calls).keys.Nodup := by
  induction calls using List.reverseRecOn with
  | nil => exact List.nodup_nil
  | append_singleton pre c ih =>
    rw [nodeTableAfter_concat]
    exact (c.call.after_extends self _).nodup ih

/-- In a run over plain listings each libssl file is probed once and none is missed. -/
theorem probesEach_of_plain {calls : List NodeScan}
    (h : ∀ c ∈ calls, ∀ procs, c.procs = some procs → ∀ p ∈ procs, ∀ es, p.maps = some es →
      PlainLibssl es) : ProbesEach self calls := by
  rintro pre c post rfl
  refine ⟨nodeTableAfter_nodup _, ?_, fun procs hprocs hroom p hp use huse hattach => ?_⟩
  · rw [nodeTableAfter_concat]
    exact (c.call.after_extends self _).entries
  · have hlibssl := p.libssl_of_wanted huse (h c (by simp) procs hprocs p hp)
    have hafter : nodeTableAfter self (pre ++ [c]) =
        (scanLoop self c.dry (procs.map NodeProc.entry) 0 (nodeTableAfter self pre)).2 := by
      rw [nodeTableAfter_concat, ScanCall.after, NodeScan.call, hprocs]
      rfl
    rw [hafter] at hroom ⊢
    exact scanLoop_complete hroom (List.mem_map_of_mem hp) hlibssl hattach

end Run

/-! ## Processes that are missed -/

section Missed
variable {es : List MapsEntry} {path : CString}

/-- Where a libssl file is mapped, there is a name that contains `libssl.so`. -/
theorem exists_firstNamed (h : firstLibssl es = some path) : ∃ m, firstNamed es = some m := by
  obtain ⟨e, he, hpath⟩ := List.exists_of_findSome?_eq_some h
  obtain ⟨n, hname, hn⟩ := Option.bind_eq_some_iff.1 hpath
  split_ifs at hn with hhit
  refine Option.isSome_iff_exists.1 (List.findSome?_isSome_iff.2 ⟨e, he, ?_⟩)
  simp [hname, hhit.2]

/-- The first such name is that of the file, or one that the kernel gives. -/
theorem firstNamed_cases {m : CString} (h : firstNamed es = some m) :
    firstLibssl es = some m ∨ m.bytes.head? ≠ some 0x2f ∧ m.strlen < pathCap := by
  obtain ⟨before, e, after, n, rfl, hname, rfl, hsub, hno⟩ := exists_of_firstNamed h
  by_cases hslash : n.text.bytes.head? = some 0x2f
  · refine .inl (List.findSome?_eq_some_iff.2 ⟨before, e, after, rfl, ?_, fun x hx => ?_⟩)
    · simp [hname, IsHitPath, hslash, hsub]
    · cases hx' : x.name with
      | none => rfl
      | some k =>
        rw [Option.bind_some, if_neg]
        rintro ⟨-, hk⟩
        cases hk.symm.trans (hno x hx k hx')
  · exact .inr ⟨hslash, n.short hslash⟩

/-- A path in the root directory of a process begins with a slash. -/
theorem rootedFull_head (pid : Int) (path : CString) :
    (rootedFull pid path).bytes.head? = some 0x2f := by
  have hlit : (CString.lit "/proc/").bytes = [0x2f, 112, 114, 111, 99, 0x2f] := by decide +kernel
  simp [rootedFull, hlit]

/-- It determines the path. -/
theorem rootedFull_injective (pid : Int) : Function.Injective (rootedFull pid) := by
  intro p q h
  exact CString.ext (List.append_cancel_left (congrArg CString.bytes h))

/-- A process that can be probed by the path of its first libssl file in its root directory, and by
no other path. -/
def strictProc (es : List MapsEntry) (path : CString) : NodeProc where
  pid := some 1
  maps := some es
  comm := none
  stat q := if q = rootedFull 1 path then some ⟨0, 0⟩ else none
  handle _ := none
  attach _ := some 0

/-- What `find_libssl_for_pid` returns fits in its buffer. -/
theorem strlen_findLibsslForPid {maps : Option (List MapsLine)} {q : CString}
    (h : findLibsslForPid maps = some q) : q.strlen < pathCap := by
  cases maps with
  | none => cases h
  | some lines =>
    rw [findLibsslForPid_some] at h
    obtain ⟨l, -, rfl⟩ := Option.map_eq_some_iff.1 h
    exact CString.strlen_snprintf_lt _ (by decide)

/-- From a listing that is not plain, `find_libssl_for_pid` gets another path. -/
theorem findLibsslForPid_ne (h : firstLibssl es = some path)
    (hplain : ¬(firstNamed es = some path ∧ path.strlen < pathCap)) {q : CString}
    (hq : findLibsslForPid (some (libsslLines (mapsText es))) = some q) :
    q ≠ path ∧ q ≠ rootedFull 1 path := by
  have hlen := strlen_findLibsslForPid hq
  by_cases hfit : path.strlen < pathCap
  · obtain ⟨m, hm⟩ := exists_firstNamed h
    have hne : m ≠ path := fun heq => hplain ⟨heq ▸ hm, hfit⟩
    rcases firstNamed_cases hm with hfirst | ⟨hslash, hshort⟩
    · exact absurd (Option.some.inj (hfirst.symm.trans h)) hne
    · obtain rfl : m = q := Option.some.inj ((findLibsslForPid_mapsText hm hshort).symm.trans hq)
      exact ⟨hne, fun heq => hslash (heq ▸ rootedFull_head 1 path)⟩
  · refine ⟨fun heq => hfit (heq ▸ hlen), fun heq => ?_⟩
    rw [heq, rootedFull, CString.strlen_append] at hlen
    omega

/-- Then `scan` finds no file in the process. -/
theorem strictProc_libssl (h : firstLibssl es = some path)
    (hplain : ¬(firstNamed es = some path ∧ path.strlen < pathCap)) :
    (strictProc es path).entry.libssl 0 = none := by
  have hone : (1 : BitVec 64).toInt = 1 := by decide
  cases hq : findLibsslForPid (some (libsslLines (mapsText es))) with
  | none => simp [ProcEntry.libssl_eq, NodeProc.entry, strictProc, hq]
  | some q =>
    obtain ⟨hne, hne'⟩ := findLibsslForPid_ne h hplain hq
    have hrooted : rootedPath 1 q = rootedFull 1 q := by
      rw [← hone, rootedPath_eq 1 (strlen_findLibsslForPid hq)]
    have hroot : rootedFull 1 q ≠ rootedFull 1 path := fun heq => hne (rootedFull_injective 1 heq)
    simp [ProcEntry.libssl_eq, NodeProc.entry, strictProc, hq, hrooted, hroot, hne']

/-- The path by which it should be probed. -/
theorem strictProc_wanted (h : firstLibssl es = some path) :
    (strictProc es path).wanted 0 = some (rootedFull 1 path) := by
  simp [NodeProc.wanted, strictProc, h]

/-- A scan over this process alone misses its file. -/
theorem strictProc_missed (h : firstLibssl es = some path)
    (hplain : ¬(firstNamed es = some path ∧ path.strlen < pathCap)) :
    ¬ProbesEach 0 [⟨false, some [strictProc es path]⟩] := by
  intro hrun
  have hafter : nodeTableAfter 0 ([] ++ [⟨false, some [strictProc es path]⟩]) = Table.empty := by
    have hstep := scanEntry_step 0 false (strictProc es path).entry .empty
    have hloop : (scanLoop 0 false [(strictProc es path).entry] 0 .empty).2 = Table.empty := by
      rw [scanLoop_cons]
      generalize scanEntry 0 false (strictProc es path).entry .empty = r at hstep
      cases hstep with
      | skipped => rfl
      | failed hu | recorded hu => cases (strictProc_libssl h hplain).symm.trans hu.1
    exact hloop
  obtain ⟨-, -, hall⟩ := hrun [] _ [] rfl
  rw [hafter] at hall
  have hmem := hall _ rfl (by decide) _ (List.mem_singleton_self _) _ (strictProc_wanted h)
    (.inr rfl)
  cases hmem

end Missed

/-- **Each libssl file is probed once and none is missed, for plain listings.** For every set of
listings that processes may have: in all runs of scans over processes with these listings, in any
order, with any results of `stat` and of the attaches, the keys of the recorded files stay distinct,
recorded entries stay unchanged, and after each scan that leaves room in the table the key of every
libssl file that a process should be probed by, and that can be attached to, is recorded, if and
only if each of the listings shows libssl plainly. -/
theorem probesEach_iff (listings : List MapsEntry → Prop) :
    (∀ self calls, (∀ c ∈ calls, ∀ procs, c.procs = some procs → ∀ p ∈ procs, ∀ es,
      p.maps = some es → listings es) → ProbesEach self calls) ↔
    ∀ es, listings es → PlainLibssl es := by
  constructor
  · intro h es hes path hpath
    by_contra hplain
    refine strictProc_missed hpath hplain (h 0 _ ?_)
    intro c hc procs hprocs p hp es' hes'
    cases List.mem_singleton.1 hc
    cases hprocs
    cases List.mem_singleton.1 hp
    cases hes'
    exact hes
  · intro h self calls hcalls
    exact probesEach_of_plain fun c hc procs hprocs p hp es hes =>
      h es (hcalls c hc procs hprocs p hp es hes)

/-- The path of a libssl file that is 522 bytes long. -/
def deepName : MapsName where
  text :=
    CString.append
      ⟨0x2f :: List.replicate 509 100, by rw [List.mem_cons, List.mem_replicate]; decide⟩
      (.lit "/libssl.so.3")
  line := by decide +kernel
  head := ⟨0x2f, by decide +kernel, by decide⟩
  short := fun h => absurd (by decide +kernel) h

/-- The line of this file. -/
def deepEntry : MapsEntry := { forgedEntry with name := some deepName }

/-- A process that maps it is missed: its path can be `stat`ed and attached to, and nothing is
recorded. -/
theorem deepName_missed :
    let p := strictProc [deepEntry] deepName.text
    firstLibssl [deepEntry] = some deepName.text ∧
      p.wanted 0 = some (rootedFull 1 deepName.text) ∧
      (p.attach (rootedFull 1 deepName.text)).isSome = true ∧
      ¬ProbesEach 0 [⟨false, some [p]⟩] := by
  intro p
  have hfirst : firstLibssl [deepEntry] = some deepName.text := by decide +kernel
  have hlong : ¬deepName.text.strlen < pathCap := by decide +kernel
  exact ⟨hfirst, strictProc_wanted hfirst, rfl, strictProc_missed hfirst fun h => hlong h.2⟩

end TicketConnect
