import TicketConnect.Injector.Scan
import TicketConnect.Lib.Runs

/-!
# The capacity of the attach table

`scan` tests the capacity of `g_att` after it has looked at a new file, and the test only ends the
current scan. So a scan that starts with room never writes behind the end, and a rescan that starts
with a full table does so with the first new file that it attaches to. `attTable_bounded_iff` is
over whole runs: every scan at start-up and after, over any contents of `/proc`.
-/

namespace TicketConnect

open Lib

/-! ## Runs of scans -/

/-- One call of `scan`: its mode, and the entries of `/proc` at that time. -/
structure ScanCall where
  dry : Bool
  procs : Option (List ProcEntry)

/-- The table after a call. -/
def ScanCall.after (self : Int) (t : Table) (c : ScanCall) : Table := (scan self c.dry c.procs t).2

/-- The tables after each round of the loop of `scan`. -/
def scanTables (self : Int) (dry : Bool) (es : List ProcEntry) (t : Table) : List Table :=
  (scanLoopRun self dry es 0 t).tables

@[simp] theorem scanTables_nil (self : Int) (dry : Bool) (t : Table) :
    scanTables self dry [] t = [] := rfl

theorem scanTables_cons (self : Int) (dry : Bool) (e : ProcEntry) (es : List ProcEntry)
    (t : Table) :
    scanTables self dry (e :: es) t =
      match scanEntry self dry e t with
      | none => t :: scanTables self dry es t
      | some t' => t' :: if attCap ≤ t'.att.length then [] else scanTables self dry es t' := by
  unfold scanTables scanEntry
  rw [scanLoopRun]
  cases (scanEntryRun self dry e t).table with
  | none => rfl
  | some t' =>
    dsimp only
    split
    · rfl
    · rw [scanLoopRun_fresh]
      rfl

/-- The tables after each round of each call of a run. -/
def runTables (self : Int) : List ScanCall → Table → List Table
  | [], _ => []
  | c :: cs, t =>
    scanTables self c.dry (c.procs.getD []) t ++ runTables self cs (c.after self t)

/-- No entry was written at or behind the end of the array, and `g_natt` is within it. -/
structure Table.Bounded (t : Table) : Prop where
  natt : t.att.length ≤ attCap
  writes : ∀ i ∈ t.writes, i < attCap

/-- The first new libssl file of a list of entries: the entry that shows it, and its path. -/
def firstUnseen (self : Int) (t : Table) (es : List ProcEntry) : Option (ProcEntry × CString) :=
  es.findSome? fun e =>
    (e.libssl self).bind fun use => if t.seen (e.key use) then none else some (e, use)

/-- The table has room when the scan starts, or the attach to the first new file fails (and is not
skipped by a dry scan). -/
def ScanCall.Safe (self : Int) (t : Table) (c : ScanCall) : Prop :=
  t.att.length < attCap ∨ ∀ e use, firstUnseen self t (c.procs.getD []) = some (e, use) →
    c.dry = false ∧ e.attach use = none

section Scan
variable {self : Int} {dry : Bool} {e : ProcEntry} {es : List ProcEntry} {t t' : Table}

/-- An entry written into the array keeps the bounds exactly when there is room. -/
theorem Table.Bounded.push_iff (h : t.Bounded) (a : Attached) :
    (t.push a).Bounded ↔ t.att.length < attCap := by
  constructor
  · intro hp
    exact hp.writes _ (List.mem_append_right _ (List.mem_singleton.2 rfl))
  · intro hlt
    refine ⟨by simpa [Table.push] using Nat.succ_le_of_lt hlt, fun i hi => ?_⟩
    rcases List.mem_append.1 hi with hi | hi
    · exact h.writes i hi
    · rwa [List.mem_singleton.1 hi]

/-- A round that starts with room keeps the bounds. -/
theorem EntryStep.bounded (hs : EntryStep self dry e t (some t')) (h : t.Bounded)
    (hlt : t.att.length < attCap) : t'.Bounded := by
  cases hs with
  | failed => exact h
  | recorded => exact (h.push_iff _).2 hlt

/-- The table at the end of the loop is one of those after its rounds, or the one before it. -/
theorem scanLoop_mem : ∀ (es : List ProcEntry) (fresh : Nat) (t : Table),
    (scanLoop self dry es fresh t).2 ∈ t :: scanTables self dry es t
  | [], _, t => .head _
  | e :: es, fresh, t => by
    rw [scanLoop_cons, scanTables_cons]
    cases scanEntry self dry e t with
    | none => exact .tail _ (scanLoop_mem es fresh t)
    | some t' =>
      dsimp only
      split
      · exact .tail _ (.head _)
      · exact .tail _ (scanLoop_mem es (fresh + 1) t')

/-- A scan that starts with room keeps the bounds in every round. -/
theorem scanTables_bounded (h : t.Bounded) (hlt : t.att.length < attCap) :
    ∀ t' ∈ scanTables self dry es t, t'.Bounded := by
  induction es generalizing t with
  | nil => simp
  | cons e es ih =>
    have hstep := scanEntry_step self dry e t
    rw [scanTables_cons]
    cases hse : scanEntry self dry e t with
    | none => exact List.forall_mem_cons.2 ⟨h, ih h hlt⟩
    | some t₁ =>
      rw [hse] at hstep
      have h₁ := hstep.bounded h hlt
      refine List.forall_mem_cons.2 ⟨h₁, ?_⟩
      split
      next => simp
      next hroom => exact ih h₁ (by omega)

/-- The first new file of the entries is that of the first entry, if it shows one. -/
theorem firstUnseen_of_unseen {use : CString} (h : e.Unseen self t use) :
    firstUnseen self t (e :: es) = some (e, use) := by
  simp [firstUnseen, h.1, h.2]

/-- An entry that shows no new file is passed over. -/
theorem firstUnseen_of_not_unseen (h : ∀ use, ¬e.Unseen self t use) :
    firstUnseen self t (e :: es) = firstUnseen self t es := by
  have hnone : ((e.libssl self).bind fun use =>
      if t.seen (e.key use) then none else some (e, use)) = none := by
    refine Option.bind_eq_none_iff.2 fun use huse => if_pos ?_
    by_contra hseen
    exact h use ⟨huse, Bool.eq_false_iff.2 hseen⟩
  rw [firstUnseen, List.findSome?_cons, hnone]
  rfl

/-- A scan that starts with a full table keeps the bounds exactly when the attach to the first new
file fails. -/
theorem scanTables_full_iff (h : t.Bounded) (hfull : attCap ≤ t.att.length) :
    (∀ t' ∈ scanTables self dry es t, t'.Bounded) ↔
      ∀ e use, firstUnseen self t es = some (e, use) → dry = false ∧ e.attach use = none := by
  induction es with
  | nil => simp [firstUnseen]
  | cons e es ih =>
    have hstep := scanEntry_step self dry e t
    rw [scanTables_cons]
    generalize scanEntry self dry e t = r at hstep
    cases hstep with
    | skipped hno =>
      rw [firstUnseen_of_not_unseen hno, List.forall_mem_cons, ih]
      exact and_iff_right h
    | failed hu hdry hattach =>
      -- the scan ends here, with the table as it was
      rw [firstUnseen_of_unseen hu]
      refine ⟨fun _ e' use' heq => ?_, fun _ => ?_⟩
      · cases heq
        exact ⟨hdry, hattach⟩
      · simpa [hfull] using h
    | recorded hu hlink =>
      rw [firstUnseen_of_unseen hu]
      constructor
      · intro hall
        -- the entry is written behind the end
        have hlt := (h.push_iff _).1 (hall _ (.head _))
        omega
      · intro hsafe
        obtain ⟨hdry, hattach⟩ := hsafe _ _ rfl
        rcases hlink with ⟨hd, -⟩ | ⟨-, hsome, hl⟩
        · rw [hdry] at hd
          cases hd
        · rw [← hl, hattach] at hsome
          cases hsome

/-- The tables of a scan keep the bounds exactly when the scan is safe. -/
theorem scanTables_bounded_iff (h : t.Bounded) (c : ScanCall) :
    (∀ t' ∈ scanTables self c.dry (c.procs.getD []) t, t'.Bounded) ↔ c.Safe self t := by
  rcases Nat.lt_or_ge t.att.length attCap with hlt | hfull
  · exact ⟨fun _ => .inl hlt, fun _ => scanTables_bounded h hlt⟩
  · rw [scanTables_full_iff h hfull]
    exact ⟨.inr, fun hsafe => hsafe.resolve_left (by omega)⟩

/-- The table after a call is one of those after its rounds, or the one before it. -/
theorem ScanCall.after_mem (c : ScanCall) (t : Table) :
    c.after self t ∈ t :: scanTables self c.dry (c.procs.getD []) t := by
  unfold ScanCall.after scan
  cases c.procs with
  | none => exact .head _
  | some es => exact scanLoop_mem es 0 t

end Scan

/-! ## The result -/

/-- The tables of a run keep the bounds exactly when all its scans are safe. -/
theorem runTables_bounded_iff (self : Int) (calls : List ScanCall) {t : Table} (h : t.Bounded) :
    (∀ t' ∈ runTables self calls t, t'.Bounded) ↔
      Along (fun t c => some (c.after self t)) (fun t c => c.Safe self t) t calls := by
  induction calls generalizing t with
  | nil => simp [runTables, Along]
  | cons c cs ih =>
    simp only [runTables, Along, List.forall_mem_append]
    rw [scanTables_bounded_iff h]
    refine and_congr_right fun hsafe => ih ?_
    -- the next scan starts with a table of this one
    rcases List.mem_cons.1 (c.after_mem t) with heq | hmem
    · rw [heq]
      exact h
    · exact (scanTables_bounded_iff h c).2 hsafe _ hmem

/-- **The attach table never overflows, as long as no rescan attaches to a new file with the table
full.** For every number of scans, every contents of `/proc` at each, dry or not, and attaches that
succeed or fail: every write is at an index below 512 and `g_natt` is at most 512 after every round.
This holds exactly for the runs in which each scan starts with fewer than 512 entries, or the attach
to the first new file that it meets fails. -/
theorem attTable_bounded_iff (self : Int) (calls : List ScanCall) :
    (∀ t ∈ runTables self calls .empty, t.Bounded) ↔
      Along (fun t c => some (c.after self t)) (fun t c => c.Safe self t) .empty calls :=
  runTables_bounded_iff self calls ⟨Nat.zero_le _, by simp [Table.empty]⟩

/-! ## A node with more files than the table has entries -/

/-- The key of the `i`-th file. -/
def nodeKey (i : Nat) : CString :=
  ⟨[104, .ofNat (i / 128 % 128 + 1), .ofNat (i % 128 + 1)], by
    simp only [List.mem_cons, List.not_mem_nil, or_false, not_or, ← UInt8.toNat_inj,
      UInt8.toNat_ofNat', UInt8.toNat_zero]
    refine ⟨by decide, ?_, ?_⟩ <;> omega⟩

/-- The path of libssl in every process. -/
def nodePath : CString := .lit "/usr/lib/libssl.so.3"

/-- The mappings of every process. -/
def nodeMaps : List MapsLine :=
  [⟨0x7f0000000000, 0x7f0000001000, .lit "r--p", 0, nodePath, by decide +kernel⟩]

/-- The `i`-th process: it has its own libssl file, and a probe can be attached to it. -/
def nodeEntry (i : Nat) : ProcEntry where
  pid := some (i + 2)
  maps := some nodeMaps
  comm := none
  statOk _ := true
  key _ := nodeKey i
  attach _ := some i
  key_lt _ := by simp [nodeKey, CString.strlen, keyCap]

/-- The table with the first `n` files. -/
def nodeTable (n : Nat) : Table :=
  ⟨(List.range n).map fun i => ⟨nodeKey i, some i⟩, List.range n⟩

theorem nodeTable_length (n : Nat) : (nodeTable n).att.length = n := by simp [nodeTable]

/-- Different files have different keys. -/
theorem nodeKey_inj {i j : Nat} (hi : i < 2 ^ 14) (hj : j < 2 ^ 14) (h : nodeKey i = nodeKey j) :
    i = j := by
  have hbytes := congrArg CString.bytes h
  simp only [nodeKey, List.cons.injEq, true_and, and_true, ← UInt8.toNat_inj,
    UInt8.toNat_ofNat'] at hbytes
  omega

/-- The next process adds its file. -/
theorem scanEntry_nodeEntry {n : Nat} (hn : n < 2 ^ 14) :
    scanEntry 1 false (nodeEntry n) (nodeTable n) = some (nodeTable (n + 1)) := by
  have hfind : findLibsslForPid (some nodeMaps) = some nodePath := by decide +kernel
  have huse : (nodeEntry n).libssl 1 = some (rootedPath (n + 2) nodePath) := by
    simp only [ProcEntry.libssl_eq, nodeEntry, hfind, if_neg (show ¬((n : Int) + 2 = 1) by omega),
      if_true]
  have hseen : (nodeTable n).seen (nodeKey n) = false := by
    simp only [Table.seen, nodeTable, List.any_map, List.any_eq_false, List.mem_range]
    intro i hi hkey
    have := nodeKey_inj (by omega) hn (of_decide_eq_true hkey)
    omega
  have hkey : (nodeKey n).snprintf keyCap = nodeKey n :=
    CString.snprintf_of_lt ((nodeEntry n).key_lt nodePath)
  have hpush : (nodeTable n).push ⟨nodeKey n, some n⟩ = nodeTable (n + 1) := by
    simp [Table.push, nodeTable, List.range_succ]
  unfold scanEntry scanEntryRun
  rw [ProcEntry.libssl] at huse
  simp only [huse]
  simp only [nodeEntry, hseen, hkey, hpush]
  rfl

/-- A scan of as many processes as there is room for records their files, in order. -/
theorem scanLoop_nodeEntries : ∀ (k n fresh : Nat), n + k ≤ attCap →
    (scanLoop 1 false ((List.range' n k).map nodeEntry) fresh (nodeTable n)).2 = nodeTable (n + k)
  | 0, _, _, _ => rfl
  | k + 1, n, fresh, h => by
    have hn : n < 2 ^ 14 := by
      simp only [attCap] at h
      omega
    rw [List.range'_succ, List.map_cons, scanLoop_cons, scanEntry_nodeEntry hn]
    dsimp only
    rw [nodeTable_length]
    split
    next hfull =>
      obtain rfl : k = 0 := by omega
      rfl
    next =>
      rw [scanLoop_nodeEntries k (n + 1) (fresh + 1) (by omega)]
      congr 1
      omega

/-- A scan of a node with `n` processes, and another one when there is one more. -/
theorem rescan_nodeEntries {n : Nat} (hn : n ≤ attCap) :
    ∃ t ∈ runTables 1 [⟨false, some ((List.range' 0 n).map nodeEntry)⟩,
        ⟨false, some [nodeEntry n]⟩] .empty, n ∈ t.writes ∧ t.att.length = n + 1 := by
  have hfirst : ScanCall.after 1 .empty ⟨false, some ((List.range' 0 n).map nodeEntry)⟩ =
      nodeTable n := by
    have h := scanLoop_nodeEntries n 0 0 (by omega)
    rw [Nat.zero_add] at h
    exact h
  have hlt : n < 2 ^ 14 := by
    simp only [attCap] at hn
    omega
  refine ⟨nodeTable (n + 1), ?_, List.mem_range.2 (Nat.lt_succ_self n), nodeTable_length _⟩
  simp only [runTables, hfirst, Option.getD_some, scanTables_cons, scanEntry_nodeEntry hlt]
  exact List.mem_append_right _ (List.mem_append_left _ (.head _))

/-- The first scan fills the table with 512 files. When one more process with a libssl of its own is
there at the next scan, its file is written at index 512, behind the end of the array. -/
theorem rescan_overflows :
    ∃ t ∈ runTables 1 [⟨false, some ((List.range' 0 512).map nodeEntry)⟩,
        ⟨false, some [nodeEntry 512]⟩] .empty, 512 ∈ t.writes ∧ t.att.length = 513 :=
  rescan_nodeEntries (by decide)

end TicketConnect
