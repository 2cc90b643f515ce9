import TicketConnect.Injector.Resolve
import TicketConnect.Lib.Scanf

/-!
# The text of a listing

`/proc/<pid>/maps` as the kernel prints it (`MapsEntry.text`), and as the injector reads it: the
read loops of `find_library` (`injector/symbols.c`) and `find_libssl_for_pid` (`injector/main.c`)
take the text in pieces of at most 1023 bytes and scan from each piece a path of at most 511 bytes.
A line that is longer is read in several pieces, and those behind the first hold text of the path
(`MapsEntry.pieces_named`), which whoever names the file has chosen.

`scanMaps_hits` connects the text with the lines that the model of `find_library` is over, and
`takenRecords_eq_iff` says for which listings the records that the loop takes are those of the real
lines.
-/

namespace TicketConnect

open Lib

/-! ## What the kernel prints -/

/-- `sizeof(line)`. -/
def lineCap : Nat := 1024

/-- The name of a mapping: the path of a file, which begins with a slash, or a short name that the
kernel gives, such as `[heap]`. The kernel prints a newline in a path as an escape. -/
structure MapsName where
  text : CString
  line : 10 ∉ text.bytes
  head : ∃ b, text.bytes.head? = some b ∧ isSpace b = false
  short : text.bytes.head? ≠ some 0x2f → text.strlen < pathCap

/-- The name as it is in `path`: cut to 511 bytes. -/
def MapsName.cut (n : MapsName) : { path : CString // path.strlen < pathCap } :=
  ⟨n.text.snprintf pathCap, CString.strlen_snprintf_lt n.text (by decide)⟩

/-- A mapping of a process, as `/proc/<pid>/maps` shows it; `pad` are the blanks in front of the
name. -/
structure MapsEntry where
  start : BitVec 64
  stop : BitVec 64
  readable : Bool
  writable : Bool
  executable : Bool
  shared : Bool
  off : BitVec 64
  major : BitVec 32
  minor : BitVec 32
  ino : BitVec 64
  pad : Nat
  name : Option MapsName
  pad_le : pad ≤ 72

namespace MapsEntry

/-- The four letters of the permissions. -/
def perms (e : MapsEntry) : List UInt8 :=
  [if e.readable then 114 else 45, if e.writable then 119 else 45,
    if e.executable then 120 else 45, if e.shared then 115 else 112]

/-- The fields in front of the name: the addresses, the permissions, the offset, the device and the
inode. -/
def words (e : MapsEntry) : List (List UInt8) :=
  [zeroPadded 8 e.start.toNat ++ 45 :: zeroPadded 8 e.stop.toNat, e.perms, zeroPadded 8 e.off.toNat,
    zeroPadded 2 e.major.toNat ++ 58 :: zeroPadded 2 e.minor.toNat, digits 10 e.ino.toNat]

/-- The line up to the name. -/
def lead (e : MapsEntry) : List UInt8 :=
  e.words.flatMap (· ++ [32]) ++ List.replicate e.pad 32

/-- The whole line. -/
def text (e : MapsEntry) : List UInt8 :=
  e.lead ++ ((e.name.map (·.text.bytes)).getD [] ++ [10])

end MapsEntry

/-- The whole listing. -/
def mapsText (es : List MapsEntry) : List UInt8 := es.flatMap MapsEntry.text

/-! ## What the injector reads -/

/-- `%511[^\n]`, into `char path[512]`. -/
def scanPath (s : List UInt8) : Option { path : CString // path.strlen < pathCap } :=
  match h : scanSet (pathCap - 1) 10 s with
  | none => none
  | some (set, _) => some ⟨CString.ofBuf set, by
      have hlen := (scanSet_spec h).2.1
      have hle := (List.takeWhile_sublist (fun x : UInt8 => decide (x ≠ 0)) (l := set)).length_le
      show (set.takeWhile _).length < pathCap
      unfold pathCap at *
      omega⟩

/-- The `sscanf` of `find_library`; `none` where it converts less than five fields. -/
def scanMapsLine (s : List UInt8) : Option MapsLine := do
  let (start, s) ← scanHex s
  let s ← scanLit 45 s
  let (stop, s) ← scanHex s
  let (perms, s) ← scanWord (some 7) (skipSpace s)
  let (off, s) ← scanHex (skipSpace s)
  let (_, s) ← scanWord none (skipSpace s)
  let (_, s) ← scanWord none (skipSpace s)
  let path ← scanPath (skipSpace s)
  some ⟨start, stop, CString.ofBuf perms, off, path.1, path.2⟩

/-- The lines that the loop of `find_library` gets from a text. -/
def scanMaps (text : List UInt8) : List MapsLine := (fgetsAll lineCap text).filterMap scanMapsLine

/-- The `sscanf` of `find_libssl_for_pid`. -/
def scanLibsslLine (s : List UInt8) : Option { path : CString // path.strlen < pathCap } := do
  let (_, s) ← scanWord none s
  let (_, s) ← scanWord none (skipSpace s)
  let (_, s) ← scanWord none (skipSpace s)
  let (_, s) ← scanWord none (skipSpace s)
  let (_, s) ← scanWord none (skipSpace s)
  scanPath (skipSpace s)

/-! ## The path of a piece -/

/-- A scanned path is part of the text, and of one line. -/
theorem scanPath_infix {s : List UInt8} {path : { path : CString // path.strlen < pathCap }}
    (h : scanPath s = some path) : path.1.bytes <:+: s ∧ 10 ∉ path.1.bytes := by
  unfold scanPath at h
  split at h
  · cases h
  next set t hset =>
    cases h
    obtain ⟨hpre, -, hline⟩ := scanSet_spec hset
    have hbuf : (CString.ofBuf set).bytes <+: set := List.takeWhile_prefix _
    exact ⟨(hbuf.trans hpre).isInfix, fun hmem => hline (hbuf.sublist.mem hmem)⟩

/-- The path that `find_library` gets from a piece is part of the piece. -/
theorem scanMapsLine_infix {s : List UInt8} {l : MapsLine} (h : scanMapsLine s = some l) :
    l.path.bytes <:+: s ∧ 10 ∉ l.path.bytes := by
  simp only [scanMapsLine, scanHex_skipSpace, scanWord_skipSpace, Option.bind_eq_bind,
    Option.bind_eq_some_iff, Prod.exists] at h
  obtain ⟨_, s₁, h₁, s₂, h₂, _, s₃, h₃, _, s₄, h₄, _, s₅, h₅, _, s₆, h₆, _, s₇, h₇, path, h₈, hl⟩ :=
    h
  cases hl
  obtain ⟨hin, hline⟩ := scanPath_infix h₈
  have hrest : skipSpace s₇ <:+ s :=
    (skipSpace_suffix s₇).trans <| (scanWord_suffix h₇).trans <| (scanWord_suffix h₆).trans <|
      (scanHex_suffix h₅).trans <| (scanWord_suffix h₄).trans <| (scanHex_suffix h₃).trans <|
      (scanLit_suffix h₂).trans (scanHex_suffix h₁)
  exact ⟨hin.trans hrest.isInfix, hline⟩

/-- So is the path that `find_libssl_for_pid` gets. -/
theorem scanLibsslLine_infix {s : List UInt8} {path : { path : CString // path.strlen < pathCap }}
    (h : scanLibsslLine s = some path) : path.1.bytes <:+: s ∧ 10 ∉ path.1.bytes := by
  simp only [scanLibsslLine, scanWord_skipSpace, Option.bind_eq_bind, Option.bind_eq_some_iff,
    Prod.exists] at h
  obtain ⟨_, s₁, h₁, _, s₂, h₂, _, s₃, h₃, _, s₄, h₄, _, s₅, h₅, h₆⟩ := h
  obtain ⟨hin, hline⟩ := scanPath_infix h₆
  have hrest : skipSpace s₅ <:+ s :=
    (skipSpace_suffix s₅).trans <| (scanWord_suffix h₅).trans <| (scanWord_suffix h₄).trans <|
      (scanWord_suffix h₃).trans <| (scanWord_suffix h₂).trans (scanWord_suffix h₁)
  exact ⟨hin.trans hrest.isInfix, hline⟩

/-- A scanned path is what stands up to the end of the line, cut to 511 bytes. -/
theorem scanPath_eq {s : List UInt8} {path : { path : CString // path.strlen < pathCap }}
    (h : (s.takeWhile (· ≠ 10)).take (pathCap - 1) = path.1.bytes) (hne : path.1.bytes ≠ []) :
    scanPath s = some path := by
  have hset : scanSet (pathCap - 1) 10 s = some (path.1.bytes, s.drop path.1.bytes.length) := by
    simp only [scanSet, h]
    rw [if_neg hne]
  unfold scanPath
  split
  next h' => cases hset.symm.trans h'
  next set t h' =>
    cases hset.symm.trans h'
    simp

/-! ## A printed line -/

namespace MapsEntry
variable (e : MapsEntry)

/-- The bytes of a number are no blanks. -/
theorem zeroPadded_not_isSpace {w n : Nat} : ∀ x ∈ zeroPadded w n, isSpace x = false :=
  fun _ hx => (not_isSpace_of_digit (isSome_digitVal_of_mem_zeroPadded hx)).1

/-- No field has a blank in it. -/
theorem words_not_isSpace : ∀ w ∈ e.words, ∀ x ∈ w, isSpace x = false := by
  have hpair : ∀ (c : UInt8) (v w m n : Nat), isSpace c = false →
      ∀ x ∈ zeroPadded v m ++ c :: zeroPadded w n, isSpace x = false := by
    intro c v w m n hc x hx
    rcases List.mem_append.1 hx with hx | hx
    · exact zeroPadded_not_isSpace x hx
    · rcases List.mem_cons.1 hx with rfl | hx
      · exact hc
      · exact zeroPadded_not_isSpace x hx
  have hperms : ∀ x ∈ e.perms, isSpace x = false := by
    obtain ⟨_, _, r, w, x, s⟩ := e
    cases r <;> cases w <;> cases x <;> cases s <;> simp [perms] <;> decide
  have hino : ∀ x ∈ digits 10 e.ino.toNat, isSpace x = false := by
    intro x hx
    obtain ⟨d, hd, rfl⟩ := exists_of_mem_digits (by omega) hx
    exact (not_isSpace_of_digit (by rw [digitVal_digitByte (by omega)]; rfl)).1
  simp only [words, List.forall_mem_cons, List.not_mem_nil, false_imp_iff, implies_true, and_true]
  exact ⟨hpair 45 _ _ _ _ (by decide), hperms, zeroPadded_not_isSpace, hpair 58 _ _ _ _ (by decide),
    hino⟩

/-- No field is empty. -/
theorem words_ne_nil : ∀ w ∈ e.words, w ≠ [] := by
  simp [words, perms, zeroPadded_ne_nil, digits_ne_nil]

/-- `%s` reads a field. -/
theorem scanWord_word {w : List UInt8} (hw : w ∈ e.words) (rest : List UInt8) :
    scanWord none (w ++ 32 :: rest) = some (w, 32 :: rest) :=
  scanWord_append (e.words_not_isSpace w hw) (e.words_ne_nil w hw) (by decide) (by rintro n ⟨⟩)

/-- The line up to the name is within one line. -/
theorem lead_line : 10 ∉ e.lead := by
  intro h
  rcases List.mem_append.1 h with h | h
  · obtain ⟨w, hw, hmem⟩ := List.mem_flatMap.1 h
    rcases List.mem_append.1 hmem with hmem | hmem
    · exact absurd (e.words_not_isSpace w hw 10 hmem) (by decide)
    · cases List.mem_singleton.1 hmem
  · cases List.eq_of_mem_replicate h

/-- It is far shorter than a piece. -/
theorem lead_length : e.lead.length ≤ 167 := by
  have hhex : ∀ v : BitVec 64, (zeroPadded 8 v.toNat).length ≤ 16 := fun v =>
    length_zeroPadded_le (by omega) (by omega) (by have := v.isLt; omega)
  have hdev : ∀ v : BitVec 32, (zeroPadded 2 v.toNat).length ≤ 8 := fun v =>
    length_zeroPadded_le (by omega) (by omega) (by have := v.isLt; omega)
  have hino : (digits 10 e.ino.toNat).length ≤ 20 :=
    length_digits_le (by omega) (by omega) (by have := e.ino.isLt; omega)
  have h₁ := hhex e.start
  have h₂ := hhex e.stop
  have h₃ := hhex e.off
  have h₄ := hdev e.major
  have h₅ := hdev e.minor
  have hpad := e.pad_le
  simp only [lead, words, perms, List.flatMap_cons, List.flatMap_nil, List.length_append,
    List.length_cons, List.length_nil, List.length_replicate]
  omega

/-- The blanks in front of the name are skipped. -/
theorem skipSpace_pad (r : List UInt8) :
    skipSpace (32 :: (List.replicate e.pad 32 ++ r)) = skipSpace r := by
  rw [skipSpace_cons_of_isSpace (by decide), skipSpace_replicate]

/-- What `find_library` scans from a line that goes on with `r` behind the blanks. -/
theorem scanMapsLine_lead (r : List UInt8) :
    scanMapsLine (e.lead ++ r) = (scanPath (skipSpace r)).map fun path =>
      ⟨e.start, e.stop, CString.ofBuf e.perms, e.off, path.1, path.2⟩ := by
  have hword := fun w hw => e.scanWord_word (w := w) hw
  simp only [words, List.forall_mem_cons] at hword
  obtain ⟨-, -, -, hdev, hino, -⟩ := hword
  have hminus : ∀ rest, scanHex (zeroPadded 8 e.start.toNat ++ 45 :: rest) =
      some (e.start, 45 :: rest) := fun rest => scanHex_zeroPadded 8 e.start (by decide) (by decide)
  have hblank : ∀ (v : BitVec 64) rest, scanHex (zeroPadded 8 v.toNat ++ 32 :: rest) =
      some (v, 32 :: rest) := fun v rest => scanHex_zeroPadded 8 v (by decide) (by decide)
  have hperms : ∀ rest, scanWord (some 7) (e.perms ++ 32 :: rest) = some (e.perms, 32 :: rest) :=
    fun rest => scanWord_append (e.words_not_isSpace _ (by simp [words])) (by simp [perms])
      (by decide) (by rintro n ⟨⟩; simp [perms])
  simp only [List.append_assoc, List.cons_append] at hdev
  simp only [scanMapsLine, lead, words, List.flatMap_cons, List.flatMap_nil, List.append_assoc,
    List.cons_append, List.nil_append, hminus, hblank, hperms, hdev, hino, e.skipSpace_pad,
    Option.bind_eq_bind, Option.bind_some, scanLit, if_true, scanWord_skipSpace, scanHex_skipSpace,
    scanWord_blank, scanHex_blank]
  cases scanPath (skipSpace r) <;> rfl

/-- What `find_libssl_for_pid` scans from it. -/
theorem scanLibsslLine_lead (r : List UInt8) :
    scanLibsslLine (e.lead ++ r) = scanPath (skipSpace r) := by
  have hword := fun w hw => e.scanWord_word (w := w) hw
  simp only [words, List.forall_mem_cons, List.append_assoc, List.cons_append] at hword
  obtain ⟨hrange, hperms, hoff, hdev, hino, -⟩ := hword
  simp only [scanLibsslLine, lead, words, List.flatMap_cons, List.flatMap_nil, List.append_assoc,
    List.cons_append, List.nil_append, hrange, hperms, hoff, hdev, hino, e.skipSpace_pad,
    Option.bind_eq_bind, Option.bind_some, scanWord_skipSpace, scanWord_blank]

/-! ## The pieces of a line -/

section Pieces
variable {e} {n : MapsName}

/-- A line with a name is read in a piece that goes to the end of the line or far into the name, and
in pieces of the name alone where it is too long. -/
theorem pieces_named (h : e.name = some n) :
    ∃ r tails, fgetsAll lineCap e.text = (e.lead ++ r) :: tails ∧
      r.head? = n.text.bytes.head? ∧
      (r.takeWhile (· ≠ 10)).take (pathCap - 1) = n.cut.1.bytes ∧
      (∀ q ∈ tails, q <:+: n.text.bytes ++ [10]) ∧
      (n.text.strlen < pathCap → tails = []) := by
  have hlead := e.lead_length
  have hline : ∀ l, 10 ∉ l → 10 ∉ e.lead ++ l := fun l hl hmem =>
    (List.mem_append.1 hmem).elim e.lead_line hl
  have htext : e.text = e.lead ++ (n.text.bytes ++ [10]) := by simp [text, h]
  by_cases hfit : (e.lead ++ n.text.bytes).length + 1 < lineCap
  · refine ⟨n.text.bytes ++ [10], [], ?_, ?_, ?_, by simp, fun _ => rfl⟩
    · rw [htext, ← List.append_assoc, fgetsAll_line (hline _ n.line) hfit]
    · obtain ⟨b, hb, -⟩ := n.head
      rw [List.head?_append, hb]
      rfl
    · have hrun := takeWhile_run (p := (· ≠ 10)) (w := n.text.bytes)
        (fun x hx => by simpa using fun h0 : x = 10 => n.line (h0 ▸ hx)) 10 [] (by simp)
      rw [hrun.1]
      rfl
  · -- the first piece has all of the line up to the name and `k` bytes of the name
    obtain ⟨k, hk⟩ : ∃ k, e.lead.length + k + 1 = lineCap := ⟨lineCap - 1 - e.lead.length, by
      unfold lineCap
      omega⟩
    have hkcap : pathCap ≤ k := by
      unfold lineCap at hk
      unfold pathCap
      omega
    have hlen : k ≤ n.text.bytes.length := by
      rw [List.length_append] at hfit
      omega
    have htake : 10 ∉ n.text.bytes.take k := fun hmem => n.line (List.mem_of_mem_take hmem)
    refine ⟨n.text.bytes.take k, fgetsAll lineCap (n.text.bytes.drop k ++ [10]), ?_, ?_, ?_, ?_, ?_⟩
    · rw [htext, ← List.take_append_drop k n.text.bytes, List.append_assoc, ← List.append_assoc,
        List.take_append_drop]
      refine fgetsAll_full (hline _ htake) ?_ (by decide)
      rw [List.length_append, List.length_take]
      omega
    · rw [List.head?_take, if_neg (by unfold pathCap at hkcap; omega)]
    · have hself : (n.text.bytes.take k).takeWhile (· ≠ 10) = n.text.bytes.take k :=
        List.takeWhile_eq_self_iff.2 fun x hx => by simpa using fun h0 : x = 10 => htake (h0 ▸ hx)
      rw [hself, List.take_take, min_eq_left (by omega)]
      rfl
    · intro q hq
      obtain ⟨front, hfront⟩ := List.drop_suffix k n.text.bytes
      refine (infix_of_mem_fgetsAll hq).trans ⟨front, [], ?_⟩
      rw [← List.append_assoc, hfront, List.append_nil]
    · intro hshort
      unfold CString.strlen at hshort
      omega

/-- A line without a name is one piece. -/
theorem pieces_unnamed (h : e.name = none) : fgetsAll lineCap e.text = [e.lead ++ [10]] := by
  have hlead := e.lead_length
  have htext : e.text = e.lead ++ [10] := by simp [text, h]
  rw [htext, fgetsAll_line e.lead_line (by unfold lineCap; omega)]

variable {α : Type} {scan : List UInt8 → Option α} {path : α → CString}
  {f : { path : CString // path.strlen < pathCap } → α}

/-- What a scanner of pieces gets from a line with a name: the name, cut to 511 bytes, and behind it
paths that are part of the name, where it is longer. -/
theorem filterMap_pieces_named
    (hpart : ∀ s a, scan s = some a → (path a).bytes <:+: s ∧ 10 ∉ (path a).bytes)
    (hlead : ∀ r, scan (e.lead ++ r) = (scanPath (skipSpace r)).map f) (h : e.name = some n) :
    ∃ tails, (fgetsAll lineCap e.text).filterMap scan = f n.cut :: tails ∧
      (∀ a ∈ tails, (path a).bytes <:+: n.text.bytes) ∧ (n.text.strlen < pathCap → tails = []) := by
  obtain ⟨r, tails, hpieces, hhead, htake, htails, hshort⟩ := pieces_named h
  obtain ⟨b, hb, hspace⟩ := n.head
  -- the name does not begin with a blank
  have hr : skipSpace r = r := by
    cases r with
    | nil => rfl
    | cons c r =>
      rw [hb] at hhead
      cases hhead
      exact skipSpace_cons_of_not hspace
  have hne : n.cut.1.bytes ≠ [] := by
    obtain ⟨c, l, hcl⟩ : ∃ c l, n.text.bytes = c :: l := by
      cases hbytes : n.text.bytes with
      | nil => simp [hbytes] at hb
      | cons c l => exact ⟨c, l, rfl⟩
    simp [MapsName.cut, hcl, pathCap]
  refine ⟨tails.filterMap scan, ?_, fun a ha => ?_, fun hs => by rw [hshort hs]; rfl⟩
  · rw [hpieces]
    refine List.filterMap_cons_some ?_
    rw [hlead, hr, scanPath_eq htake hne]
    rfl
  · obtain ⟨q, hq, hscan⟩ := List.mem_filterMap.1 ha
    obtain ⟨hin, hline⟩ := hpart q a hscan
    rcases List.infix_concat_iff.1 (hin.trans (htails q hq)) with hsuf | hinf
    · rcases List.suffix_concat_iff.1 hsuf with hnil | ⟨t, ht, -⟩
      · rw [hnil]
        exact List.nil_infix
      · exact absurd (ht ▸ List.mem_append_right t (List.mem_singleton_self 10)) hline
    · exact hinf

/-- It gets nothing from a line without a name. -/
theorem filterMap_pieces_unnamed
    (hlead : ∀ r, scan (e.lead ++ r) = (scanPath (skipSpace r)).map f) (h : e.name = none) :
    (fgetsAll lineCap e.text).filterMap scan = [] := by
  have hnone : scanPath (skipSpace [10]) = none := rfl
  rw [pieces_unnamed h, List.filterMap_cons_none (by rw [hlead, hnone]; rfl), List.filterMap_nil]

end Pieces

/-! ## The lines of `find_library` -/

/-- The line that `find_library` gets from the first piece. -/
def line (e : MapsEntry) (path : { path : CString // path.strlen < pathCap }) : MapsLine :=
  ⟨e.start, e.stop, CString.ofBuf e.perms, e.off, path.1, path.2⟩

/-- What `find_library` gets from a line with a name. -/
theorem scanMaps_named {n : MapsName} (h : e.name = some n) :
    ∃ tails, scanMaps e.text = e.line n.cut :: tails ∧
      (∀ l ∈ tails, l.path.bytes <:+: n.text.bytes) ∧ (n.text.strlen < pathCap → tails = []) :=
  filterMap_pieces_named (fun _ _ => scanMapsLine_infix) e.scanMapsLine_lead h

/-- It gets nothing from a line without a name. -/
theorem scanMaps_unnamed (h : e.name = none) : scanMaps e.text = [] :=
  filterMap_pieces_unnamed e.scanMapsLine_lead h

/-- The line as the model of `resolve_symbol` has it. -/
def printed (e : MapsEntry) : PrintedLine where
  start := e.start
  stop := e.stop
  perms := CString.ofBuf e.perms
  off := e.off
  path := (e.name.map (·.text)).getD .empty
  pieces := (scanMaps e.text).tail
  pieces_path := by
    intro l hl
    cases h : e.name with
    | none =>
      rw [e.scanMaps_unnamed h] at hl
      cases hl
    | some n =>
      obtain ⟨tails, heq, hpath, -⟩ := e.scanMaps_named h
      rw [heq] at hl
      exact hpath l hl
  pieces_nil := by
    intro hor
    cases h : e.name with
    | none => rw [e.scanMaps_unnamed h]; rfl
    | some n =>
      obtain ⟨tails, heq, -, hshort⟩ := e.scanMaps_named h
      rw [heq]
      rw [h] at hor
      exact hshort (hor.elim id n.short)

theorem printed_pieces : e.printed.pieces = (scanMaps e.text).tail := by
  rw [printed]

end MapsEntry

/-- A listing is read line by line. -/
theorem filterMap_mapsText {α : Type} (scan : List UInt8 → Option α) (es : List MapsEntry) :
    (fgetsAll lineCap (mapsText es)).filterMap scan =
      es.flatMap fun e => (fgetsAll lineCap e.text).filterMap scan := by
  have hline : ∀ e : MapsEntry, ∃ l, e.text = l ++ [10] := fun e =>
    ⟨_, (List.append_assoc _ _ _).symm⟩
  rw [mapsText, fgetsAll_flatMap hline, List.filterMap_flatMap]

theorem scanMaps_mapsText (es : List MapsEntry) :
    scanMaps (mapsText es) = es.flatMap fun e => scanMaps e.text :=
  filterMap_mapsText scanMapsLine es

/-- **The text and the lines.** The lines of a text that match are those that the model of
`find_library` reads from the same mappings. -/
theorem scanMaps_hits (sub : CString) (es : List MapsEntry) :
    (scanMaps (mapsText es)).filter (MapsLine.isHit sub) =
      (readMaps (es.map MapsEntry.printed)).filter (MapsLine.isHit sub) := by
  rw [scanMaps_mapsText, readMaps, List.flatMap_map, List.filter_flatMap, List.filter_flatMap]
  refine List.flatMap_congr fun e _ => ?_
  cases h : e.name with
  | none =>
    have hcut : e.printed.cut.isHit sub = false := by
      simp [MapsLine.isHit, PrintedLine.cut, MapsEntry.printed, h, CString.empty]
    rw [e.printed_pieces, e.scanMaps_unnamed h, List.tail_nil,
      List.filter_cons_of_neg (by simp [hcut])]
  | some n =>
    obtain ⟨tails, heq, -, -⟩ := e.scanMaps_named h
    have hpath : e.printed.path = n.text := by simp [MapsEntry.printed, h]
    have hcut : e.printed.cut = e.line n.cut := by
      simp only [PrintedLine.cut, hpath]
      rfl
    rw [e.printed_pieces, heq, List.tail_cons, hcut]

/-- `find_library` depends on the lines that match only. -/
theorem findLibrary_filter (sub : CString) (lines : List MapsLine) :
    findLibrary sub (some (lines.filter (MapsLine.isHit sub))) = findLibrary sub (some lines) := by
  have hfold : ∀ st, (lines.filter (MapsLine.isHit sub)).foldl (Scan.step sub) st =
      lines.foldl (Scan.step sub) st := by
    induction lines with
    | nil => exact fun _ => rfl
    | cons l lines ih =>
      intro st
      cases hl : l.isHit sub with
      | true => rw [List.filter_cons_of_pos hl, List.foldl_cons, List.foldl_cons, ih]
      | false =>
        rw [List.filter_cons_of_neg (by simp [hl]), List.foldl_cons, Scan.step_of_not_isHit hl, ih]
  simp only [findLibrary, hfold]

/-- Over the text of a listing, `find_library` finds what it finds over its lines. -/
theorem findLibrary_mapsText (sub : CString) (es : List MapsEntry) :
    findLibrary sub (some (scanMaps (mapsText es))) =
      findLibrary sub (some (readMaps (es.map MapsEntry.printed))) := by
  rw [← findLibrary_filter sub (scanMaps _), scanMaps_hits, findLibrary_filter]

/-! ## The records -/

/-- The records that the loop of `find_library` takes from a text as matches. -/
def takenRecords (sub : CString) (text : List UInt8) : List (BitVec 64 × BitVec 64 × CString) :=
  ((scanMaps text).filter (MapsLine.isHit sub)).map fun l => (l.start, l.off, l.path)

/-- The record of a mapping, if its path contains the substring. -/
def MapsEntry.record (sub : CString) (e : MapsEntry) : Option (BitVec 64 × BitVec 64 × CString) :=
  e.name.bind fun n => if IsHitPath sub n.text then some (e.start, e.off, n.text) else none

/-- The records of the real lines whose path contains the substring. -/
def realRecords (sub : CString) (es : List MapsEntry) : List (BitVec 64 × BitVec 64 × CString) :=
  es.filterMap (MapsEntry.record sub)

/-- Every path that contains the substring fits in `path`. -/
def MatchesFit (sub : CString) (es : List MapsEntry) : Prop :=
  ∀ e ∈ es, ∀ n, e.name = some n → IsHitPath sub n.text → n.text.strlen < pathCap

/-- From a line whose path fits, or does not contain the substring, the loop takes its record. -/
theorem MapsEntry.taken_eq {sub : CString} {e : MapsEntry}
    (hfit : ∀ n, e.name = some n → IsHitPath sub n.text → n.text.strlen < pathCap) :
    takenRecords sub e.text = (e.record sub).toList := by
  cases h : e.name with
  | none => simp [takenRecords, MapsEntry.record, e.scanMaps_unnamed h, h]
  | some n =>
    obtain ⟨tails, heq, hpath, hshort⟩ := e.scanMaps_named h
    by_cases hhit : IsHitPath sub n.text
    · have hlen := hfit n h hhit
      have hcut : n.cut.1 = n.text := CString.snprintf_of_lt hlen
      have hline : (e.line n.cut).isHit sub = true := by
        show decide (IsHitPath sub n.cut.1) = true
        rw [hcut, decide_eq_true hhit]
      rw [takenRecords, heq, hshort hlen, List.filter_cons_of_pos hline]
      simp [MapsEntry.record, h, hhit, MapsEntry.line, hcut]
    · -- a path from the line that matches would be part of a path that does not
      have hnone : ∀ l ∈ e.line n.cut :: tails, l.isHit sub = false := by
        intro l hl
        have hin : l.path.bytes <:+: n.text.bytes := by
          rcases List.mem_cons.1 hl with rfl | hl
          · exact (List.take_prefix _ _).isInfix
          · exact hpath l hl
        have hslash : l.isHit sub = true → n.text.bytes.head? = some 0x2f := by
          intro hl'
          by_contra hns
          rw [hshort (n.short hns), List.mem_singleton] at hl
          subst hl
          have hhead := (of_decide_eq_true hl' : IsHitPath sub n.cut.1).1
          rw [MapsName.cut, CString.snprintf_bytes, List.head?_take, if_neg (by decide)] at hhead
          exact hns hhead
        by_contra hl'
        rw [Bool.not_eq_false] at hl'
        exact hhit ((of_decide_eq_true hl' : IsHitPath sub l.path).of_part hin (hslash hl'))
      rw [takenRecords, heq, List.filter_eq_nil_iff.2 fun l hl => by simp [hnone l hl]]
      simp [MapsEntry.record, h, hhit]

/-- The records of a listing, line by line. -/
theorem takenRecords_mapsText (sub : CString) (es : List MapsEntry) :
    takenRecords sub (mapsText es) = es.flatMap fun e => takenRecords sub e.text := by
  simp only [takenRecords, scanMaps_mapsText, List.filter_flatMap, List.map_flatMap]

/-- **Only real lines are considered, where their paths fit.** For every listing that the kernel
prints, with any number of lines and paths of any length and contents: the records (start, offset,
path) that the loop of `find_library` takes as matches are exactly those of the real lines whose
path contains the substring, if and only if all these paths have at most 511 bytes. -/
theorem takenRecords_eq_iff (sub : CString) (es : List MapsEntry) :
    takenRecords sub (mapsText es) = realRecords sub es ↔ MatchesFit sub es := by
  constructor
  · intro heq e he n hn hhit
    -- a record that was taken has a path that fits
    have hmem : (e.start, e.off, n.text) ∈ takenRecords sub (mapsText es) := by
      rw [heq]
      refine List.mem_filterMap.2 ⟨e, he, ?_⟩
      simp [MapsEntry.record, hn, hhit]
    obtain ⟨l, -, hl⟩ := List.mem_map.1 hmem
    have hpath : l.path = n.text := (Prod.mk.inj (Prod.mk.inj hl).2).2
    exact hpath ▸ l.path_lt
  · intro hfit
    rw [takenRecords_mapsText, realRecords, List.filterMap_eq_flatMap_toList]
    exact List.flatMap_congr fun e he => e.taken_eq (hfit e he)

/-- The path of a file that somebody has named like a line, such that the name is cut there. -/
def forgedName : MapsName where
  text :=
    CString.append
      ⟨0x2f :: List.replicate 949 97, by rw [List.mem_cons, List.mem_replicate]; decide⟩
      (.lit "dead0000-dead1000 r-xp 00000000 08:01 1234 /libssl.so")
  line := by decide +kernel
  head := ⟨0x2f, by decide +kernel, by decide⟩
  short := fun h => absurd (by decide +kernel) h

/-- The line of this file. -/
def forgedEntry : MapsEntry where
  start := 0x7f1200000000
  stop := 0x7f1200001000
  readable := true
  writable := false
  executable := true
  shared := false
  off := 0
  major := 8
  minor := 1
  ino := 1234
  pad := 22
  name := some forgedName
  pad_le := by decide

/-- Its path contains the substring, the record that the loop takes is the one in the name, and the
real one is not taken. -/
theorem forgedEntry_taken :
    takenRecords (.lit "libssl.so") (mapsText [forgedEntry]) =
        [(0xdead0000, 0, .lit "/libssl.so")] ∧
      realRecords (.lit "libssl.so") [forgedEntry] = [(0x7f1200000000, 0, forgedName.text)] ∧
      takenRecords (.lit "libssl.so") (mapsText [forgedEntry]) ≠
        realRecords (.lit "libssl.so") [forgedEntry] := by
  have htaken : takenRecords (.lit "libssl.so") (mapsText [forgedEntry]) =
      [(0xdead0000, 0, .lit "/libssl.so")] := by decide +kernel
  have hreal : realRecords (.lit "libssl.so") [forgedEntry] =
      [(0x7f1200000000, 0, forgedName.text)] := by decide +kernel
  refine ⟨htaken, hreal, ?_⟩
  rw [htaken, hreal]
  decide +kernel

end TicketConnect
