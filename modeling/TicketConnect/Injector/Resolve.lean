import Mathlib.Tactic.MkIffOfInductiveProp
import TicketConnect.Injector.Elf
import TicketConnect.Injector.Symbols

/-!
# Resolving a symbol of a loaded library

`resolve_symbol` (`injector/symbols.c`) as a whole: the listing of the mappings as the kernel prints
it, `map_elf`, and the ELF reader. Over these, a library is the address of its first segment and the
entries of its symbol table, and `Holds` says that a file holds a library. `dynsym_lookup` finds in
the file what the library defines, and it does not read elsewhere. `resolve_symbol` adds the load
bias; but `find_library` cuts the path of the library to 511 bytes, and the file at a longer path is
not found. `resolveSymbol_loaded_iff` has both.
-/

namespace TicketConnect

open Lib Reads

/-! ## `map_elf` -/

/-- A file that `open` has opened: the size that `fstat` gives and the mapping that `mmap` makes,
`none` where they fail. -/
structure OpenFile where
  stat : Option Nat
  mmap : Nat → Option Mapping

/-- `map_elf`. `files` is what `open` gives for a path. -/
def mapElf (files : CString → Option OpenFile) (pid : Int) (path : CString) : Option Mapping :=
  match (files (rootedPath pid path)).or (files path) with
  | none => none
  | some f =>
    match f.stat with
    | none => none
    | some stSize => if stSize < ehdrSize then none else f.mmap stSize

/-- `map_elf` and `dynsym_lookup`, as `resolve_symbol` calls them. -/
def elfLookup (files : CString → Option OpenFile) (pid : Int) (path sym : CString) :
    Option (BitVec 64 × BitVec 64) :=
  match mapElf files pid path with
  | none => none
  | some m => (m.dynsymLookup sym).val

/-- The file that `map_elf` opens is mapped as `m`. -/
def Opens (files : CString → Option OpenFile) (pid : Int) (path : CString) (m : Mapping) : Prop :=
  ∃ f, (files (rootedPath pid path)).or (files path) = some f ∧ f.stat = some m.size ∧
    f.mmap m.size = some m

/-- `map_elf` maps a file of at least the size of the file header. -/
theorem mapElf_of_opens {files : CString → Option OpenFile} {pid : Int} {path : CString}
    {m : Mapping} (h : Opens files pid path m) (hsize : ehdrSize ≤ m.size) :
    mapElf files pid path = some m := by
  obtain ⟨f, hfile, hstat, hmap⟩ := h
  simp only [mapElf, hfile, hstat]
  rw [if_neg (Nat.not_lt.2 hsize), hmap]

/-! ## The listing -/

/-- A line of `/proc/<pid>/maps` as the kernel prints it, with the whole path; the path is empty
where there is none. A line that is longer than `line` is read in pieces: `pieces` are those after
the first that `sscanf` converts. They are text of the path, and the name of a mapping without a
file is too short for them. -/
structure PrintedLine where
  start : BitVec 64
  stop : BitVec 64
  perms : CString
  off : BitVec 64
  path : CString
  pieces : List MapsLine
  pieces_path : ∀ l ∈ pieces, l.path.bytes <:+: path.bytes
  pieces_nil : path.strlen < pathCap ∨ path.bytes.head? ≠ some 0x2f → pieces = []

/-- The first piece of a line, the path cut to its buffer. -/
def PrintedLine.cut (l : PrintedLine) : MapsLine where
  start := l.start
  stop := l.stop
  perms := l.perms
  off := l.off
  path := l.path.snprintf pathCap
  path_lt := CString.strlen_snprintf_lt l.path (by decide)

/-- A path that fits in the buffer is not cut. -/
theorem PrintedLine.cut_path (l : PrintedLine) (h : l.path.strlen < pathCap) :
    l.cut.path = l.path :=
  CString.snprintf_of_lt h

/-- The lines that `find_library` reads. -/
def readMaps (lines : List PrintedLine) : List MapsLine :=
  lines.flatMap fun l => l.cut :: l.pieces

/-- The path is of a file and contains the substring. -/
def IsHitPath (sub path : CString) : Prop :=
  path.bytes.head? = some 0x2f ∧ path.strstr sub = true

instance (sub path : CString) : Decidable (IsHitPath sub path) :=
  inferInstanceAs (Decidable (_ ∧ _))

/-- The listing of a process that has one file whose path contains the substring, mapped with its
head at `start`; nothing is said about the order, about further lines of the file, or about the
lines of other files. -/
@[mk_iff] structure LoadedAt (sub path : CString) (start : BitVec 64)
    (lines : List PrintedLine) : Prop where
  isHit : IsHitPath sub path
  only : ∀ l ∈ lines, IsHitPath sub l.path → l.path = path
  head : ∃ l ∈ lines, l.path = path ∧ l.off = 0
  head_start : ∀ l ∈ lines, l.path = path → l.off = 0 → l.start = start

instance (sub path : CString) (start : BitVec 64) (lines : List PrintedLine) :
    Decidable (LoadedAt sub path start lines) :=
  decidable_of_iff' _ (loadedAt_iff sub path start lines)

section LoadedAt
variable {sub path : CString} {start : BitVec 64} {lines : List PrintedLine}

/-- A path that is part of another one, from its beginning or of a file. -/
theorem IsHitPath.of_part {p q : CString} (h : IsHitPath sub p) (hpq : p.bytes <:+: q.bytes)
    (hslash : q.bytes.head? = some 0x2f) : IsHitPath sub q := by
  refine ⟨hslash, decide_eq_true ?_⟩
  exact (of_decide_eq_true h.2).trans hpq

/-- The lines that match are the lines of the library. -/
theorem LoadedAt.cut_of_isHit (h : LoadedAt sub path start lines) (hlen : path.strlen < pathCap)
    {l : MapsLine} (hl : l ∈ readMaps lines) (hhit : l.isHit sub = true) :
    ∃ p ∈ lines, p.path = path ∧ l = p.cut := by
  obtain ⟨p, hp, hl⟩ := List.mem_flatMap.1 hl
  have hhit : IsHitPath sub l.path := of_decide_eq_true hhit
  rcases List.mem_cons.1 hl with rfl | hl
  · have hslash : p.path.bytes.head? = some 0x2f := by
      have := hhit.1
      rwa [PrintedLine.cut, CString.snprintf_bytes, List.head?_take, if_neg (by decide)] at this
    exact ⟨p, hp, h.only p hp (hhit.of_part (List.take_prefix _ _).isInfix hslash), rfl⟩
  · have hslash : p.path.bytes.head? = some 0x2f :=
      Decidable.not_not.1 fun hne => by simp [p.pieces_nil (.inr hne)] at hl
    have hpath := h.only p hp (hhit.of_part (p.pieces_path l hl) hslash)
    rw [p.pieces_nil (.inl (hpath ▸ hlen))] at hl
    cases hl

/-- `find_library` finds the library where it is loaded. -/
theorem LoadedAt.findLibrary (h : LoadedAt sub path start lines) (hlen : path.strlen < pathCap) :
    findLibrary sub (some (readMaps lines)) = some (start, path) := by
  have hheads : ∀ l ∈ heads sub (readMaps lines), l.start = start ∧ l.path = path := by
    intro l hl
    obtain ⟨hl, hhit⟩ := List.mem_filter.1 hl
    obtain ⟨hhit, h0⟩ : l.isHit sub = true ∧ l.off = 0 := by simpa using hhit
    obtain ⟨p, hp, hpath, rfl⟩ := h.cut_of_isHit hlen hl hhit
    exact ⟨h.head_start p hp hpath h0, (p.cut_path (hpath ▸ hlen)).trans hpath⟩
  have hne : heads sub (readMaps lines) ≠ [] := by
    obtain ⟨p, hp, hpath, h0⟩ := h.head
    have hcut : p.cut.path = path := (p.cut_path (hpath ▸ hlen)).trans hpath
    have hmem : p.cut ∈ readMaps lines := List.mem_flatMap.2 ⟨p, hp, List.mem_cons_self⟩
    have hhit : p.cut.isHit sub = true := decide_eq_true (hcut ▸ h.isHit)
    exact List.ne_nil_of_mem (mem_heads hmem hhit rfl h0)
  have hfirst := List.head?_eq_some_head hne
  have hlast := List.getLast?_eq_some_getLast hne
  rw [findLibrary_head hfirst hlast, (hheads _ (List.getLast_mem hne)).1,
    (hheads _ (List.head_mem hne)).2]

end LoadedAt

/-! ## Libraries -/

/-- An entry of `.dynsym`. -/
structure DynEntry where
  name : CString
  shndx : Nat
  value : Nat

/-- The entry is a definition of the name. -/
def DynEntry.defines (sym : CString) (e : DynEntry) : Bool :=
  e.name = sym ∧ e.shndx ≠ shnUndef ∧ e.value ≠ 0

/-- What symbol resolution has to know of a library: the address of the segment at file offset 0,
and the entries of `.dynsym`. -/
structure Library where
  vaddr : BitVec 64
  entries : List DynEntry

/-- The value of the first definition of a name. -/
def Library.value (lib : Library) (sym : CString) : Option (BitVec 64) :=
  (lib.entries.find? (DynEntry.defines sym)).map fun e => BitVec.ofNat 64 e.value

namespace Mapping

/-- The symbol at the offset `s` is the entry, with its name in a string table of `n` bytes. -/
@[mk_iff] structure HoldsEntry (m : Mapping) (strtab n s : Nat) (e : DynEntry) : Prop where
  shndx : m.field (s + 6) 2 = e.shndx
  value : m.field (s + 8) 8 = e.value
  name : StringAt m.mem (BitVec.ofNat 64 (strtab + m.field s 4)) e.name.bytes
  name_lt : m.field s 4 + e.name.strlen < n

instance (m : Mapping) (strtab n s : Nat) (e : DynEntry) : Decidable (m.HoldsEntry strtab n s e) :=
  decidable_of_iff' _ (holdsEntry_iff m strtab n s e)

/-- The section header `sh` is of a symbol table with the entries, in the file, and so is its string
table. -/
@[mk_iff] structure HoldsSyms (m : Mapping) (sh : Nat) (entries : List DynEntry) : Prop where
  entsize : m.field (sh + 56) 8 = symSize
  length : m.field (sh + 32) 8 / symSize = entries.length
  syms_le : m.field (sh + 24) 8 + m.field (sh + 32) 8 ≤ m.size
  link_lt : m.field (sh + 40) 4 < m.field 60 2
  strtab_le : m.field (m.shdr (m.field (sh + 40) 4) + 24) 8 +
    m.field (m.shdr (m.field (sh + 40) 4) + 32) 8 ≤ m.size
  entry : ∀ k (hk : k < entries.length),
    m.HoldsEntry (m.field (m.shdr (m.field (sh + 40) 4) + 24) 8)
      (m.field (m.shdr (m.field (sh + 40) 4) + 32) 8)
      (m.field (sh + 24) 8 + symSize * k) entries[k]

instance (m : Mapping) (sh : Nat) (entries : List DynEntry) : Decidable (m.HoldsSyms sh entries) :=
  decidable_of_iff' _ (holdsSyms_iff m sh entries)

/-- The file is a 64-bit ELF file with its tables in the file, and holds the library. -/
structure Holds (m : Mapping) (lib : Library) : Prop where
  isElf64 : m.IsElf64
  phdrs_le : m.phdr (m.field 56 2) ≤ m.size
  shdrs_le : m.shdr (m.field 60 2) ≤ m.size
  head : ∃ i < m.field 56 2, m.IsHead (m.phdr i) ∧ (∀ j < i, ¬ m.IsHead (m.phdr j)) ∧
    BitVec.ofNat 64 (m.field (m.phdr i + 16) 8) = lib.vaddr
  dynsym : ∃ i, m.IsFirstDynsym i ∧ m.HoldsSyms (m.shdr i) lib.entries

section
variable {m : Mapping} {lib : Library} {sym : CString}

/-- No pointer into the file is `NULL`. -/
theorem not_isNull {off : Nat} (h : off ≤ m.size) : ¬ m.IsNull off := by
  intro hnull
  have hlt := m.base_add_size_lt
  have hpos : 0 < m.base.toNat := Nat.pos_of_ne_zero fun h0 => m.base_ne (BitVec.eq_of_toNat_eq h0)
  have hsum := congrArg BitVec.toNat hnull
  rw [BitVec.toNat_add, BitVec.toNat_ofNat, Nat.add_mod_mod, Nat.mod_eq_of_lt (by omega)] at hsum
  change _ = 0 at hsum
  omega

/-- The load address that the program headers give. -/
theorem Holds.val_baseVaddr (h : m.Holds lib) : m.baseVaddr.val = lib.vaddr := by
  obtain ⟨i, hi, hhead, hmiss, hvaddr⟩ := h.head
  have hfirst : (first (fun i => m.phdrRound (m.phdr i)) (m.field 56 2)).val =
      some lib.vaddr := by
    refine first_eq_some.2 ⟨i, hi, ?_, fun j hj => phdrRound_eq_none.2 (hmiss j hj)⟩
    rw [val_phdrRound, if_pos hhead, hvaddr]
  change (first (fun i => m.phdrRound (m.phdr i)) (m.field 56 2)).val.getD 0 = lib.vaddr
  rw [hfirst, Option.getD_some]

/-- The number of symbols. -/
theorem HoldsSyms.val_symCount {sh : Nat} {entries : List DynEntry}
    (h : m.HoldsSyms sh entries) : (m.symCount sh).val = entries.length := by
  have hne : m.field (sh + 56) 8 ≠ 0 := by rw [h.entsize]; decide
  rw [symCount, val_bind, val_ite, if_pos hne, ← h.length, ← h.entsize]
  rfl

/-- A symbol defines what its entry defines. -/
theorem HoldsEntry.defines_iff {strtab n s : Nat} {e : DynEntry} (h : m.HoldsEntry strtab n s e) :
    m.Defines strtab sym s ↔ e.defines sym = true := by
  have hname : StringAt m.mem (BitVec.ofNat 64 (strtab + m.field s 4)) sym.bytes ↔
      e.name = sym := by
    constructor
    · intro hsym
      exact CString.ext (h.name.unique hsym e.name.noNul sym.noNul)
    · rintro rfl
      exact h.name
  rw [Defines, h.shndx, h.value, hname, DynEntry.defines, decide_eq_true_eq]
  tauto

/-- What the section header says, with the string table under its own header. -/
theorem dynsymOf_eq (sh : Nat) :
    m.dynsymOf (m.field 40 8) sh =
      ⟨m.field (sh + 24) 8, (m.symCount sh).val,
        m.field (m.shdr (m.field (sh + 40) 4) + 24) 8⟩ := rfl

/-- The search in a symbol table finds what its entries define. -/
theorem HoldsSyms.val_findSym {sh : Nat} (h : m.HoldsSyms sh lib.entries) :
    (m.findSym (m.dynsymOf (m.field 40 8) sh) sym).val = lib.value sym := by
  rw [dynsymOf_eq, h.val_symCount]
  refine val_first_list fun k hk => ?_
  have hentry := h.entry k hk
  rw [val_symRound, hentry.value]
  exact if_congr hentry.defines_iff rfl rfl

/-- **`dynsym_lookup` finds what the library defines.** -/
theorem Holds.val_dynsymLookup (h : m.Holds lib) :
    (m.dynsymLookup sym).val = (lib.value sym).map fun v => (v, lib.vaddr) := by
  obtain ⟨hsize, hmag, hclass⟩ := h.isElf64
  obtain ⟨i, hfirst, hsyms⟩ := h.dynsym
  have hd := findDynsym_eq_some.2 ⟨i, hfirst, rfl⟩
  have hnull : ¬ (m.IsNull (m.dynsymOf (m.field 40 8) (m.shdr i)).syms ∨
      m.IsNull (m.dynsymOf (m.field 40 8) (m.shdr i)).strtab) := by
    rintro (h0 | h0)
    · exact not_isNull ((Nat.le_add_right _ _).trans hsyms.syms_le) h0
    · exact not_isNull ((Nat.le_add_right _ _).trans hsyms.strtab_le) h0
  rw [dynsymLookup, if_neg (Nat.not_lt.2 hsize), val_bind, if_neg (not_not.2 hmag), val_bind,
    if_neg (not_not.2 hclass), val_bind, val_bind, hd]
  dsimp only
  rw [if_neg hnull, val_bind, val_pure, hsyms.val_findSym, h.val_baseVaddr]

/-! ## Where the library is read -/

/-- A field in front of the end of the file fits. -/
theorem fits_of_le {off n : Nat} (h : off + n ≤ m.size) : m.Fits off n :=
  (Nat.add_le_add_right (Nat.mod_le _ _) _).trans h

/-- There is one first `SHT_DYNSYM`. -/
theorem IsFirstDynsym.unique {i j : Nat} (hi : m.IsFirstDynsym i) (hj : m.IsFirstDynsym j) :
    i = j := by
  rcases Nat.lt_trichotomy i j with h | h | h
  · exact absurd hi.2.1 (hj.2.2 i h)
  · exact h
  · exact absurd hj.2.1 (hi.2.2 j h)

/-- An entry of a table lies in the file where the table does. -/
theorem entry_le {start n entsize i : Nat} (h : start + entsize * n ≤ m.size) (hi : i < n) :
    start + entsize * i + entsize ≤ m.size := by
  have hnext := Nat.mul_le_mul_left entsize hi
  rw [Nat.mul_succ] at hnext
  omega

/-- A program header of the library lies in the file. -/
theorem Holds.phdr_le (h : m.Holds lib) {i : Nat} (hi : i < m.field 56 2) :
    m.phdr i + phdrSize ≤ m.size :=
  entry_le h.phdrs_le hi

/-- A section header of the library lies in the file. -/
theorem Holds.shdr_le (h : m.Holds lib) {i : Nat} (hi : i < m.field 60 2) :
    m.shdr i + shdrSize ≤ m.size :=
  entry_le h.shdrs_le hi

/-- A symbol lies in the file. -/
theorem HoldsSyms.sym_le {sh k : Nat} {entries : List DynEntry} (h : m.HoldsSyms sh entries)
    (hk : k < entries.length) : m.field (sh + 24) 8 + symSize * k + symSize ≤ m.size := by
  have hmul := Nat.mul_div_le (m.field (sh + 32) 8) symSize
  rw [h.length] at hmul
  exact entry_le ((Nat.add_le_add_left hmul _).trans h.syms_le) hk

/-- A symbol that lies in the file, with a name that does. -/
theorem HoldsEntry.symFits {strtab n s : Nat} {e : DynEntry} (h : m.HoldsEntry strtab n s e)
    (hs : s + symSize ≤ m.size) (hn : strtab + n ≤ m.size) : m.SymFits strtab sym s := by
  unfold symSize at hs
  refine ⟨fits_of_le (by omega), fun _ => ⟨fits_of_le (by omega), fun _ =>
    ⟨fits_of_le (by omega), ?_⟩⟩⟩
  refine within_strcmp_name.1 (h.name.within_strcmp sym.noNul fun k hk => ?_)
  have hlt := h.name_lt
  rw [CString.strlen] at hlt
  rw [← BitVec.ofNat_add, Inside, BitVec.toNat_ofNat]
  exact (Nat.mod_le _ _).trans_lt (by omega)

/-- The tables of a library lie in the file as far as they are searched. -/
theorem Holds.tablesInside (h : m.Holds lib) : m.TablesInside sym where
  phdrs := by
    intro i hi _
    have hle := h.phdr_le hi
    unfold phdrSize at hle
    exact ⟨fits_of_le (by omega), fun _ => ⟨fits_of_le (by omega), fun _ => fits_of_le (by omega)⟩⟩
  shdrs := by
    intro i hi hmiss
    have hle := h.shdr_le hi
    unfold shdrSize at hle
    refine ⟨fits_of_le (by omega), fun hd => ?_⟩
    obtain ⟨j, hfirst, hsyms⟩ := h.dynsym
    obtain rfl := hfirst.unique ⟨hi, hd, hmiss⟩
    have hlink := h.shdr_le hsyms.link_lt
    unfold shdrSize at hlink
    refine ⟨fits_of_le (by omega), ⟨fits_of_le (by omega), fun _ => fits_of_le (by omega)⟩,
      fits_of_le (by omega), fits_of_le ?_⟩
    change m.shdr _ + 24 + 8 ≤ m.size
    omega
  syms := by
    rintro i d hfirst hd - - k hk -
    obtain ⟨j, hfirst', hsyms⟩ := h.dynsym
    obtain rfl := hfirst.unique hfirst'
    rw [dynsymOf_eq, hsyms.val_symCount] at hd
    subst hd
    exact (hsyms.entry k hk).symFits (hsyms.sym_le hk) hsyms.strtab_le

/-- **`dynsym_lookup` reads a library in its file only.** -/
theorem Holds.within_dynsymLookup (h : m.Holds lib) : Within m.Inside (m.dynsymLookup sym) :=
  within_dynsymLookup_iff.2 fun _ => h.tablesInside

end

end Mapping

/-! ## The result -/

/-- The address of a symbol of a library at a load bias, 0 where the library does not define it. -/
def Library.address (lib : Library) (bias : BitVec 64) (sym : CString) : BitVec 64 :=
  match lib.value sym with
  | some stValue => bias + stValue
  | none => 0

section Result
variable {path sub : CString} {m : Mapping} {lib : Library} {lines : List PrintedLine}
  {bias : BitVec 64}

/-- Where the path of the library fits in its buffer, `resolve_symbol` returns the address of each
symbol. -/
theorem resolveSymbol_loaded {files : CString → Option OpenFile} {pid : Int}
    (hopens : Opens files pid path m) (hholds : m.Holds lib)
    (hloaded : LoadedAt sub path (bias + lib.vaddr) lines) (hlen : path.strlen < pathCap)
    (sym : CString) :
    resolveSymbol (some (readMaps lines)) (elfLookup files pid) sub sym = lib.address bias sym := by
  have hlookup : elfLookup files pid path sym =
      (lib.value sym).map fun v => (v, lib.vaddr) := by
    rw [elfLookup, mapElf_of_opens hopens hholds.isElf64.1]
    exact hholds.val_dynsymLookup
  unfold resolveSymbol Library.address
  rw [hloaded.findLibrary hlen]
  dsimp only
  rw [hlookup]
  cases lib.value sym with
  | none => rfl
  | some v =>
    change bias + lib.vaddr - lib.vaddr + v = bias + v
    rw [BitVec.add_sub_cancel]

/-- The path as two processes see it is not the same. -/
theorem rootedPath_one_ne_two (path : CString) : rootedPath 1 path ≠ rootedPath 2 path := by
  intro heq
  have hhead : ∀ pid : Int, (CString.dec pid).bytes.length = 1 →
      (rootedPath pid path).bytes.take 7 =
        (CString.lit "/proc/").bytes ++ (CString.dec pid).bytes := by
    intro pid hlen
    have hproc : (CString.lit "/proc/").bytes.length = 6 := by decide +kernel
    rw [rootedPath, CString.snprintf_bytes, List.take_take]
    simp only [CString.append_bytes, List.append_assoc]
    rw [← List.append_assoc, List.take_left' (by simp [hproc, hlen])]
  have hone := hhead 1 (by decide +kernel)
  rw [heq, hhead 2 (by decide +kernel)] at hone
  exact absurd hone (by decide +kernel)

/-- Where the path of the library does not fit, there is a process in which `map_elf` could open the
library by its path, and `resolve_symbol` finds no symbol of it: it looks for a shorter path. -/
theorem resolveSymbol_cut (hlen : pathCap ≤ path.strlen) (maps : List MapsLine) :
    ∃ files pid, Opens files pid path m ∧
      ∀ sym, resolveSymbol (some maps) (elfLookup files pid) sub sym = 0 := by
  -- the library is the only file, and it is opened by its path alone
  let files : CString → Option OpenFile := fun p =>
    if p = path then some ⟨some m.size, fun _ => some m⟩ else none
  have hopens : ∀ pid, Opens files pid path m := by
    intro pid
    refine ⟨⟨some m.size, fun _ => some m⟩, ?_, rfl, rfl⟩
    by_cases h : rootedPath pid path = path <;> simp [files, h]
  have hzero : ∀ pid q, q ≠ path → rootedPath pid q ≠ path → ∀ sym,
      elfLookup files pid q sym = none := by
    intro pid q hq hrooted sym
    simp [elfLookup, mapElf, files, hq, hrooted]
  cases hfind : findLibrary sub (some maps) with
  | none => exact ⟨files, 1, hopens 1, fun sym => by simp only [resolveSymbol, hfind]⟩
  | some x =>
    obtain ⟨base, q⟩ := x
    have hq : q ≠ path := by
      rintro rfl
      exact absurd (findLibrary_path_lt hfind) (Nat.not_lt.2 hlen)
    have hres : ∀ pid, rootedPath pid q ≠ path → ∀ sym,
        resolveSymbol (some maps) (elfLookup files pid) sub sym = 0 := by
      intro pid hrooted sym
      simp only [resolveSymbol, hfind, hzero pid q hq hrooted sym]
    by_cases hone : rootedPath 1 q = path
    · exact ⟨files, 2, hopens 2, hres 2 fun htwo => rootedPath_one_ne_two q (hone.trans htwo.symm)⟩
    · exact ⟨files, 1, hopens 1, hres 1 hone⟩

/-- `resolve_symbol` returns the address of every symbol of the library, in every process with these
mappings where `map_elf` can open the library by its path, `fstat` it and map it. -/
def Resolves (sub path : CString) (m : Mapping) (lib : Library) (bias : BitVec 64)
    (lines : List PrintedLine) : Prop :=
  ∀ files pid, Opens files pid path m → ∀ sym,
    resolveSymbol (some (readMaps lines)) (elfLookup files pid) sub sym = lib.address bias sym

/-- **The address of a symbol of a loaded library.** One file matches, and its head is mapped at the
load bias plus its first address. Then `resolve_symbol` returns the load bias plus the value of the
first definition of a symbol, and 0 where there is none, if the path of the library fits in its
buffer. Otherwise the path is cut, and it does not, unless the library has no address to return. In
both cases `dynsym_lookup` reads the library inside its file. The alignment of the first address is
not used. -/
theorem resolveSymbol_loaded_iff (hholds : m.Holds lib)
    (hloaded : LoadedAt sub path (bias + lib.vaddr) lines) :
    (∀ sym, ∀ off ∈ (m.dynsymLookup sym).log, m.Inside off) ∧
      (path.strlen < pathCap → Resolves sub path m lib bias lines) ∧
      ((∃ sym, lib.address bias sym ≠ 0) → Resolves sub path m lib bias lines →
        path.strlen < pathCap) := by
  refine ⟨fun sym => hholds.within_dynsymLookup, fun hlen files pid hopens sym => ?_, ?_⟩
  · exact resolveSymbol_loaded hopens hholds hloaded hlen sym
  · rintro ⟨sym, hne⟩ hresolves
    by_contra hlen
    have hcut : ∃ files pid, Opens files pid path m ∧
        ∀ sym, resolveSymbol (some (readMaps lines)) (elfLookup files pid) sub sym = 0 :=
      resolveSymbol_cut (Nat.not_lt.1 hlen) (readMaps lines)
    obtain ⟨files, pid, hopens, hzero⟩ := hcut
    exact hne ((hresolves files pid hopens sym).symm.trans (hzero sym))

end Result

/-- Numbers in some bytes each, the low byte first. -/
def leBytes (fields : List (Nat × Nat)) : List UInt8 :=
  fields.flatMap fun (w, n) => (List.range w).map fun i => UInt8.ofNat (n >>> (8 * i))

/-- A small library: one program header, two symbols at 120, their names at 168, and three section
headers at 192. -/
def smallElf : Mapping :=
  .ofBytes
    (leBytes [(4, elfMag), (1, 2), (1, 1), (1, 1), (9, 0), (2, 3), (2, 62), (4, 1), (8, 0), (8, 64),
        (8, 192), (4, 0), (2, 64), (2, 56), (2, 1), (2, 64), (2, 3), (2, 0)] ++
      leBytes [(4, ptLoad), (4, 5), (8, 0), (8, 0x10000), (8, 0x10000), (8, 384), (8, 384),
        (8, 0x1000)] ++
      leBytes [(24, 0), (4, 1), (1, 0x12), (1, 0), (2, 1), (8, 0x11230), (8, 16)] ++
      [0] ++ (CString.lit "SSL_set_session").bytes ++ leBytes [(8, 0)] ++
      leBytes [(64, 0), (4, 0), (4, shtDynsym), (8, 2), (8, 0x10078), (8, 120), (8, 48), (4, 2),
        (4, 1), (8, 8), (8, 24), (4, 0), (4, 3), (8, 2), (8, 0x100a8), (8, 168), (8, 17), (4, 0),
        (4, 0), (8, 1), (8, 0)])
    (by decide +kernel)

/-- What the small library defines. -/
def smallLib : Library :=
  ⟨0x10000, [⟨.empty, 0, 0⟩, ⟨.lit "SSL_set_session", 1, 0x11230⟩]⟩

/-- The small library is in the file. -/
theorem smallElf_holds : smallElf.Holds smallLib where
  isElf64 := by decide +kernel
  phdrs_le := by decide +kernel
  shdrs_le := by decide +kernel
  head := ⟨0, by decide +kernel⟩
  dynsym := ⟨1, by decide +kernel, by decide +kernel⟩

/-- A line of one page, in one piece. -/
def PrintedLine.page (start off : BitVec 64) (path : CString) : PrintedLine :=
  ⟨start, start + 0x1000, .lit "r--p", off, path, [], by simp, fun _ => rfl⟩

/-- The file system in which process 7 has the small library at a path. -/
def smallFiles (path : CString) : CString → Option OpenFile := fun p =>
  if p = rootedPath 7 path then some ⟨some smallElf.size, fun _ => some smallElf⟩ else none

/-- `map_elf` opens the small library. -/
theorem opens_smallFiles (path : CString) : Opens (smallFiles path) 7 path smallElf :=
  ⟨⟨some smallElf.size, fun _ => some smallElf⟩, by simp [smallFiles], rfl, rfl⟩

/-- A listing with the small library: a further segment in front of its head, and lines of other
mappings. -/
def smallMaps (path : CString) : List PrintedLine :=
  [.page 0x7f1200011000 0x1000 path, .page 0x1000 0 (.lit "[heap]"), .page 0x7f1200010000 0 path,
    .page 0x7f1300000000 0 (.lit "/usr/lib/libc.so.6"), .page 0x7f1200012000 0x2000 path]

/-- The small library, loaded at `0x7f1200000000`. -/
theorem resolveSymbol_loaded_small :
    let path := CString.lit "/usr/lib/libssl.so.3"
    LoadedAt (.lit "libssl.so") path (0x7f1200000000 + smallLib.vaddr) (smallMaps path) ∧
      resolveSymbol (some (readMaps (smallMaps path))) (elfLookup (smallFiles path) 7)
        (.lit "libssl.so") (.lit "SSL_set_session") = 0x7f1200011230 := by
  intro path
  have hloaded : LoadedAt (.lit "libssl.so") path (0x7f1200000000 + smallLib.vaddr)
      (smallMaps path) := by
    decide +kernel
  obtain ⟨-, hresolves, -⟩ := resolveSymbol_loaded_iff smallElf_holds hloaded
  refine ⟨hloaded, ?_⟩
  rw [hresolves (by decide +kernel) _ _ (opens_smallFiles path)]
  decide +kernel

/-- A path of 515 bytes. -/
def longPath : CString :=
  (CString.lit "/opt/libssl.so/").append ⟨List.replicate 500 0x61, by decide +kernel⟩

/-- The small library, loaded in the same way from a path of 515 bytes: `find_library` cuts the
path, `map_elf` does not find the file, and `resolve_symbol` returns 0. -/
theorem resolveSymbol_long_path :
    Opens (smallFiles longPath) 7 longPath smallElf ∧ smallElf.Holds smallLib ∧
      LoadedAt (.lit "libssl.so") longPath (0x7f1200000000 + smallLib.vaddr)
        (smallMaps longPath) ∧
      smallLib.value (.lit "SSL_set_session") = some 0x11230 ∧
      resolveSymbol (some (readMaps (smallMaps longPath))) (elfLookup (smallFiles longPath) 7)
        (.lit "libssl.so") (.lit "SSL_set_session") = 0 := by
  have hloaded : LoadedAt (.lit "libssl.so") longPath (0x7f1200000000 + smallLib.vaddr)
      (smallMaps longPath) := by
    decide +kernel
  exact ⟨opens_smallFiles _, smallElf_holds, hloaded, by decide +kernel, by decide +kernel⟩

end TicketConnect
