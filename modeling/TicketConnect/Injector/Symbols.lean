import Mathlib.Data.List.Induction
import Mathlib.Data.BitVec
import TicketConnect.Lib.CString

/-!
# Finding a library in the target

The model of `find_library` and `resolve_symbol` (`injector/symbols.c`), over the parsed lines of
`/proc/<pid>/maps`. The scan keeps a base address and a path, and updates them under two different
conditions: the path is that of the first line at offset 0, the base is that of the last one. Where
two files match, they may belong to different files; `unmixed_iff` is the exact condition.
-/

namespace TicketConnect

open Lib

/-! ## `find_library` -/

/-- `sizeof(path)` in `find_library` and in `resolve_symbol`. -/
def pathCap : Nat := 512

/-- `rooted`, in `map_elf` and in `scan`: the path as the process sees it. -/
def rootedPath (pid : Int) (path : CString) : CString :=
  ((((CString.lit "/proc/").append (.dec pid)).append (.lit "/root")).append path).snprintf 600

/-- A line of `/proc/<pid>/maps` of which `sscanf` has converted all five fields; a line with fewer
is skipped. The path is cut to its buffer. -/
structure MapsLine where
  start : BitVec 64
  stop : BitVec 64
  perms : CString
  off : BitVec 64
  path : CString
  path_lt : path.strlen < pathCap

/-- The variables of the loop of `find_library`. -/
structure Scan where
  found : Bool
  bestBase : BitVec 64
  haveOff0 : Bool
  path : CString

/-- The variables before the loop. -/
def Scan.init : Scan := ⟨false, 0, false, .empty⟩

/-- One line of the loop of `find_library`. -/
def Scan.step (libSubstr : CString) (st : Scan) (l : MapsLine) : Scan :=
  if l.path.bytes.head? ≠ some 0x2f then st
  else if l.path.strstr libSubstr = false then st
  else
    let st :=
      if st.found = false ∨ (l.off = 0 ∧ st.haveOff0 = false) ∨
          (l.start < st.bestBase ∧ st.haveOff0 = false) then
        { st with bestBase := l.start, path := l.path.snprintf pathCap }
      else st
    let st := if l.off = 0 then { st with bestBase := l.start, haveOff0 := true } else st
    { st with found := true }

/-- `find_library`: the base and the path. `maps` is `none` where the file cannot be opened. -/
def findLibrary (libSubstr : CString) (maps : Option (List MapsLine)) :
    Option (BitVec 64 × CString) :=
  match maps with
  | none => none
  | some lines =>
    let st := lines.foldl (Scan.step libSubstr) .init
    if st.found then some (st.bestBase, st.path) else none

/-- `resolve_symbol`. `lookup` is what `map_elf` and `dynsym_lookup` give for the file at a path:
`st_value` and the address of the segment at offset 0. -/
def resolveSymbol (maps : Option (List MapsLine))
    (lookup : CString → CString → Option (BitVec 64 × BitVec 64)) (libSubstr sym : CString) :
    BitVec 64 :=
  match findLibrary libSubstr maps with
  | none => 0
  | some (mapBase, path) =>
    match lookup path sym with
    | none => 0
    | some (stValue, baseVaddr) => mapBase - baseVaddr + stValue

/-! ## What the scan has found -/

section Scan
variable {sub : CString} {lines : List MapsLine} {l : MapsLine} {st : Scan}

/-- The line is of a file whose path contains the substring. -/
def MapsLine.isHit (sub : CString) (l : MapsLine) : Bool :=
  l.path.bytes.head? = some 0x2f ∧ l.path.strstr sub = true

/-- The matching lines at offset 0. -/
def heads (sub : CString) (lines : List MapsLine) : List MapsLine :=
  lines.filter fun l => l.isHit sub ∧ l.off = 0

/-- What the scan has after some lines: nothing, as none matches; a matching line, as none is at
offset 0; or the path of the first matching line at offset 0, with the start of the last one. -/
inductive Scanned (sub : CString) (lines : List MapsLine) : Scan → Prop where
  | none {b : BitVec 64} {p : CString} (h : ∀ l ∈ lines, l.isHit sub = false) :
      Scanned sub lines ⟨false, b, false, p⟩
  | low {l : MapsLine} (hl : l ∈ lines) (hhit : l.isHit sub = true) (h : heads sub lines = []) :
      Scanned sub lines ⟨true, l.start, false, l.path⟩
  | head {first last : MapsLine} (hfirst : (heads sub lines).head? = some first)
      (hlast : (heads sub lines).getLast? = some last) :
      Scanned sub lines ⟨true, last.start, true, first.path⟩

/-- A line that does not match changes nothing. -/
theorem Scan.step_of_not_isHit (h : l.isHit sub = false) : st.step sub l = st := by
  unfold Scan.step
  split
  · rfl
  next hslash =>
  rw [if_pos]
  simpa [MapsLine.isHit, not_not.1 hslash] using h

/-- A line that matches, at offset 0. -/
theorem Scan.step_of_off_zero (h : l.isHit sub = true) (h0 : l.off = 0) :
    st.step sub l =
      ⟨true, l.start, true,
        if st.found = false ∨ st.haveOff0 = false then l.path else st.path⟩ := by
  obtain ⟨hslash, hsub⟩ : _ ∧ _ := of_decide_eq_true h
  unfold Scan.step
  rw [if_neg (not_not.2 hslash), if_neg (by simp [hsub]), CString.snprintf_of_lt l.path_lt]
  simp only [h0, true_and, if_true]
  split_ifs <;> simp_all

/-- A line that matches, at another offset. -/
theorem Scan.step_of_off_ne (h : l.isHit sub = true) (h0 : l.off ≠ 0) :
    st.step sub l =
      if st.found = false ∨ l.start < st.bestBase ∧ st.haveOff0 = false then
        ⟨true, l.start, st.haveOff0, l.path⟩
      else ⟨true, st.bestBase, st.haveOff0, st.path⟩ := by
  obtain ⟨hslash, hsub⟩ : _ ∧ _ := of_decide_eq_true h
  unfold Scan.step
  rw [if_neg (not_not.2 hslash), if_neg (by simp [hsub]), CString.snprintf_of_lt l.path_lt]
  simp only [h0, false_and, false_or, if_false]
  split_ifs <;> rfl

/-- The matching lines at offset 0 with one more line. -/
theorem heads_append_singleton (sub : CString) (lines : List MapsLine) (l : MapsLine) :
    heads sub (lines ++ [l]) =
      if l.isHit sub = true ∧ l.off = 0 then heads sub lines ++ [l] else heads sub lines := by
  rw [heads, List.filter_append]
  split_ifs with h
  · rw [List.filter_cons_of_pos (by simpa using h)]
    rfl
  · rw [List.filter_cons_of_neg (by simpa using h), List.filter_nil, List.append_nil]
    rfl

/-- A line of the file of a matching line, at offset 0. -/
theorem mem_heads {l' : MapsLine} (hl' : l' ∈ lines) (hhit : l.isHit sub = true)
    (hpath : l'.path = l.path) (h0 : l'.off = 0) : l' ∈ heads sub lines := by
  have hhit' : l'.isHit sub = true := by rwa [MapsLine.isHit, hpath]
  simp [heads, hl', hhit', h0]

/-- Without a matching line there is none at offset 0. -/
theorem heads_eq_nil (h : ∀ l ∈ lines, l.isHit sub = false) : heads sub lines = [] := by
  rw [heads, List.filter_eq_nil_iff]
  intro l hl
  simp [h l hl]

/-- The scan after one more line. -/
theorem Scanned.step (h : Scanned sub lines st) (l : MapsLine) :
    Scanned sub (lines ++ [l]) (st.step sub l) := by
  have hheads := heads_append_singleton sub lines l
  have hl : l ∈ lines ++ [l] := by simp
  cases hhit : l.isHit sub with
  | false =>
    rw [if_neg (by simp [hhit])] at hheads
    rw [Scan.step_of_not_isHit hhit]
    cases h with
    | none h => exact .none (by simpa [or_imp, forall_and, hhit] using h)
    | low hm hm' h => exact .low (List.mem_append_left _ hm) hm' (hheads.trans h)
    | head hf hlast => exact .head (hheads ▸ hf) (hheads ▸ hlast)
  | true =>
  rcases eq_or_ne l.off 0 with h0 | h0
  · rw [if_pos ⟨hhit, h0⟩] at hheads
    have hlast : (heads sub (lines ++ [l])).getLast? = some l := by simp [hheads]
    rw [Scan.step_of_off_zero hhit h0]
    cases h with
    | none h => exact .head (by simp [hheads, heads_eq_nil h]) hlast
    | low _ _ h => exact .head (by simp [hheads, h]) hlast
    | head hf _ => exact .head (by simp [hheads, hf]) hlast
  · rw [if_neg (fun h => h0 h.2)] at hheads
    rw [Scan.step_of_off_ne hhit h0]
    cases h with
    | none h => exact .low hl hhit (hheads.trans (heads_eq_nil h))
    | low hm hm' h =>
      split
      · exact .low hl hhit (hheads.trans h)
      · exact .low (List.mem_append_left _ hm) hm' (hheads.trans h)
    | head hf hlast =>
      rw [if_neg (by simp)]
      exact .head (hheads ▸ hf) (hheads ▸ hlast)

/-- The scan of all lines. -/
theorem scanned_foldl (sub : CString) (lines : List MapsLine) :
    Scanned sub lines (lines.foldl (Scan.step sub) .init) := by
  induction lines using List.reverseRecOn with
  | nil => exact .none (by simp)
  | append_singleton lines l ih =>
    rw [List.foldl_append]
    exact ih.step l

/-- What `find_library` finds. -/
theorem findLibrary_scanned {base : BitVec 64} {path : CString}
    (h : findLibrary sub (some lines) = some (base, path)) :
    ∃ haveOff0, Scanned sub lines ⟨true, base, haveOff0, path⟩ := by
  have hscan := scanned_foldl sub lines
  unfold findLibrary at h
  dsimp only at h
  rcases hst : lines.foldl (Scan.step sub) .init with ⟨found, b, haveOff0, p⟩
  rw [hst] at h hscan
  cases found with
  | false => cases h
  | true =>
    cases h
    exact ⟨haveOff0, hscan⟩

/-- The path that `find_library` returns has been cut to its buffer. -/
theorem findLibrary_path_lt {base : BitVec 64} {path : CString}
    (h : findLibrary sub (some lines) = some (base, path)) : path.strlen < pathCap := by
  obtain ⟨haveOff0, hscan⟩ := findLibrary_scanned h
  cases hscan with
  | low => exact MapsLine.path_lt _
  | head => exact MapsLine.path_lt _

/-- `find_library` finds the head of a file where there is one. -/
theorem findLibrary_head {first last : MapsLine} (hfirst : (heads sub lines).head? = some first)
    (hlast : (heads sub lines).getLast? = some last) :
    findLibrary sub (some lines) = some (last.start, first.path) := by
  have hscan := scanned_foldl sub lines
  rcases hst : lines.foldl (Scan.step sub) .init with ⟨found, b, haveOff0, p⟩
  unfold findLibrary
  dsimp only
  rw [hst] at hscan ⊢
  cases hscan with
  | none h => rw [heads_eq_nil h] at hfirst; cases hfirst
  | low _ _ h => rw [h] at hfirst; cases hfirst
  | head hf hl =>
    rw [Option.some.inj (hf.symm.trans hfirst), Option.some.inj (hl.symm.trans hlast)]
    rfl

end Scan

/-! ## The result -/

/-- What `find_library` returns is of one file: a line has that start and that path, and where the
file has a line at offset 0, such a line. -/
def Unmixed (sub : CString) (lines : List MapsLine) : Prop :=
  ∀ base path, findLibrary sub (some lines) = some (base, path) →
    (∃ l ∈ lines, l.start = base ∧ l.path = path) ∧
      ((∃ l ∈ lines, l.path = path ∧ l.off = 0) →
        ∃ l ∈ lines, l.path = path ∧ l.off = 0 ∧ l.start = base)

/-- The file of the first matching line at offset 0 is mapped, at offset 0, where the last matching
line at offset 0 starts. Where the lines start at different addresses, these two are then lines of
one file. -/
def HeadsAgree (sub : CString) (lines : List MapsLine) : Prop :=
  ∀ first last, (heads sub lines).head? = some first → (heads sub lines).getLast? = some last →
    ∃ l ∈ lines, l.path = first.path ∧ l.off = 0 ∧ l.start = last.start

/-- **Symbol resolution does not mix two files, exactly when the first and the last matching line at
offset 0 agree.** Under that condition, `resolve_symbol` adds the `st_value` of a file to the start
of a line of the same file. -/
theorem unmixed_iff (sub : CString) (lines : List MapsLine) :
    (Unmixed sub lines ↔ HeadsAgree sub lines) ∧
      (HeadsAgree sub lines → ∀ lookup sym,
        resolveSymbol (some lines) lookup sub sym = 0 ∨
        ∃ l ∈ lines, ∃ stValue baseVaddr, lookup l.path sym = some (stValue, baseVaddr) ∧
          resolveSymbol (some lines) lookup sub sym = l.start - baseVaddr + stValue) := by
  have hunmixed : HeadsAgree sub lines → Unmixed sub lines := by
    intro hagree base path hfind
    obtain ⟨haveOff0, hscan⟩ := findLibrary_scanned hfind
    cases hscan with
    | low hl hhit hnone =>
      refine ⟨⟨_, hl, rfl, rfl⟩, ?_⟩
      rintro ⟨l', hl', hpath, h0⟩
      have := mem_heads hl' hhit hpath h0
      rw [hnone] at this
      cases this
    | head hfirst hlast =>
      obtain ⟨l, hl, hpath, h0, hstart⟩ := hagree _ _ hfirst hlast
      exact ⟨⟨l, hl, hstart, hpath⟩, fun _ => ⟨l, hl, hpath, h0, hstart⟩⟩
  refine ⟨⟨fun h first last hfirst hlast => ?_, hunmixed⟩, fun hagree lookup sym => ?_⟩
  · have hmem := List.mem_filter.1 (List.mem_of_mem_head? hfirst)
    obtain ⟨-, h0⟩ : _ ∧ first.off = 0 := by simpa using hmem.2
    exact (h _ _ (findLibrary_head hfirst hlast)).2 ⟨first, hmem.1, rfl, h0⟩
  · unfold resolveSymbol
    split
    · exact .inl rfl
    next base path hfind =>
    obtain ⟨⟨l, hl, rfl, rfl⟩, -⟩ := hunmixed hagree _ _ hfind
    split
    · exact .inl rfl
    next stValue baseVaddr hlookup => exact .inr ⟨l, hl, stValue, baseVaddr, hlookup, rfl⟩

/-- Two versions of one library: `find_library` gives the path of the first and the base of the
second, and `resolve_symbol` adds the `st_value` in the one to the base of the other. -/
theorem two_versions_mixed :
    let old := CString.lit "/usr/lib/libssl.so.1.1"
    let new := CString.lit "/opt/lib/libssl.so.3"
    let lines : List MapsLine :=
      [⟨0x1000, 0x2000, .lit "r--p", 0, old, by decide +kernel⟩,
        ⟨0x8000, 0x9000, .lit "r--p", 0, new, by decide +kernel⟩]
    let lookup : CString → CString → Option (BitVec 64 × BitVec 64) := fun path _ =>
      if path = old then some (0x111, 0) else some (0x333, 0)
    findLibrary (.lit "libssl.so") (some lines) = some (0x8000, old) ∧
      resolveSymbol (some lines) lookup (.lit "libssl.so") (.lit "SSL_set_session") = 0x8111 ∧
      ¬ Unmixed (.lit "libssl.so") lines := by
  intro old new lines lookup
  have hfind : findLibrary (.lit "libssl.so") (some lines) = some (0x8000, old) := by decide +kernel
  refine ⟨hfind, by decide +kernel, fun h => ?_⟩
  obtain ⟨⟨l, hl, hstart, hpath⟩, -⟩ := h _ _ hfind
  rcases List.mem_pair.1 hl with rfl | rfl
  · exact absurd hstart (by decide +kernel)
  · exact absurd hpath (by decide +kernel)

end TicketConnect
