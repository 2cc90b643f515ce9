import TicketConnect.Lib.CString
import TicketConnect.Lib.Reads

/-!
# Reading an ELF file

The model of `dynsym_lookup` (`injector/symbols.c`) over a mapped file of arbitrary content. Every
offset, count and index that it uses is a field of the file, and only the size of the file header is
checked, so where it reads depends on the file. The model records the offset of every byte it reads;
`dynsymLookup_inside_iff` is the exact condition on the fields under which these lie in the file.
-/

namespace TicketConnect

open Lib Reads

/-! ## The mapping -/

/-- A file that `map_elf` has mapped: the address, the size, and the byte at each offset from that
address. Below `size` these are the bytes of the file, the others are whatever the process has
there; offsets wrap as addresses do. -/
structure Mapping where
  base : BitVec 64
  size : Nat
  mem : BitVec 64 → UInt8
  base_ne : base ≠ 0
  base_add_size_lt : base.toNat + size < 2 ^ 64

/-- `sizeof(Elf64_Ehdr)`. -/
def ehdrSize : Nat := 64

/-- `sizeof(Elf64_Phdr)`. -/
def phdrSize : Nat := 56

/-- `sizeof(Elf64_Shdr)`. -/
def shdrSize : Nat := 64

/-- `sizeof(Elf64_Sym)`. -/
def symSize : Nat := 24

/-- `ELFMAG`, its four bytes as a number: `0x7f`, `E`, `L`, `F`. -/
def elfMag : Nat := 0x464c457f

/-- `ELFCLASS64`. -/
def elfClass64 : Nat := 2

/-- `PT_LOAD`. -/
def ptLoad : Nat := 1

/-- `SHT_DYNSYM`. -/
def shtDynsym : Nat := 11

/-- `SHN_UNDEF`. -/
def shnUndef : Nat := 0

namespace Mapping

section
variable (m : Mapping)

/-- A field of `n` bytes. -/
def read (off n : Nat) : Reads (BitVec 64) Nat := load m.mem (BitVec.ofNat 64 off) n

/-- The value of a field. -/
abbrev field (off n : Nat) : Nat := (m.read off n).val

/-! ## `dynsym_lookup` -/

/-- A round of the loop over the program headers: `p_vaddr`, where the header is of a `PT_LOAD` with
`p_offset` 0. -/
def phdrRound (ph : Nat) : Reads (BitVec 64) (Option (BitVec 64)) := do
  let pType ← m.read ph 4
  if pType = ptLoad then
    let pOffset ← m.read (ph + 8) 8
    if pOffset = 0 then
      let pVaddr ← m.read (ph + 16) 8
      pure (some (BitVec.ofNat 64 pVaddr))
    else pure none
  else pure none

/-- `*base_vaddr`. -/
def baseVaddr : Reads (BitVec 64) (BitVec 64) := do
  let ePhoff ← m.read 32 8
  let ePhnum ← m.read 56 2
  let vaddr ← first (fun i => m.phdrRound (ePhoff + phdrSize * i)) ePhnum
  pure (vaddr.getD 0)

/-- The symbol table that the section headers name: where it is, how many entries, and where the
names are. -/
structure Dynsym where
  syms : Nat
  nsyms : Nat
  strtab : Nat

/-- `nsyms`: no entry where `sh_entsize` is 0. -/
def symCount (sh : Nat) : Reads (BitVec 64) Nat := do
  let shEntsize ← m.read (sh + 56) 8
  if shEntsize ≠ 0 then
    let shSize ← m.read (sh + 32) 8
    pure (shSize / shEntsize)
  else pure 0

/-- A round of the loop over the section headers. -/
def shdrRound (eShoff sh : Nat) : Reads (BitVec 64) (Option Dynsym) := do
  let shType ← m.read (sh + 4) 4
  if shType = shtDynsym then
    let shOffset ← m.read (sh + 24) 8
    let nsyms ← m.symCount sh
    let shLink ← m.read (sh + 40) 4
    let strtab ← m.read (eShoff + shdrSize * shLink + 24) 8
    pure (some ⟨shOffset, nsyms, strtab⟩)
  else pure none

/-- The search for `.dynsym`. -/
def findDynsym : Reads (BitVec 64) (Option Dynsym) := do
  let eShoff ← m.read 40 8
  let eShnum ← m.read 60 2
  first (fun i => m.shdrRound eShoff (eShoff + shdrSize * i)) eShnum

/-- A round of the loop over the symbols: `st_value`, where the symbol is defined and has the
name. -/
def symRound (strtab : Nat) (sym : CString) (s : Nat) :
    Reads (BitVec 64) (Option (BitVec 64)) := do
  let stShndx ← m.read (s + 6) 2
  if stShndx = shnUndef then pure none
  else
    let stValue ← m.read (s + 8) 8
    if stValue = 0 then pure none
    else
      let stName ← m.read s 4
      let same ← strcmp m.mem (BitVec.ofNat 64 (strtab + stName)) sym.bytes
      if same = true then pure (some (BitVec.ofNat 64 stValue)) else pure none

/-- The search for the symbol. -/
def findSym (d : Dynsym) (sym : CString) : Reads (BitVec 64) (Option (BitVec 64)) :=
  first (fun i => m.symRound d.strtab sym (d.syms + symSize * i)) d.nsyms

/-- The pointer to an offset is `NULL`. -/
def IsNull (off : Nat) : Prop := m.base + BitVec.ofNat 64 off = 0

instance (off : Nat) : Decidable (m.IsNull off) := inferInstanceAs (Decidable (_ = _))

/-- `dynsym_lookup`: `*st_value` and `*base_vaddr`, `none` where it returns -1. -/
def dynsymLookup (sym : CString) : Reads (BitVec 64) (Option (BitVec 64 × BitVec 64)) :=
  if m.size < ehdrSize then pure none
  else do
    let magic ← m.read 0 4
    if magic ≠ elfMag then pure none
    else
      let eiClass ← m.read 4 1
      if eiClass ≠ elfClass64 then pure none
      else
        let baseVaddr ← m.baseVaddr
        match ← m.findDynsym with
        | none => pure none
        | some d =>
          if m.IsNull d.syms ∨ m.IsNull d.strtab then pure none
          else
            let stValue ← m.findSym d sym
            pure (stValue.map fun v => (v, baseVaddr))

/-! ## What the rounds give -/

/-- The file has the header of a 64-bit ELF file. -/
def IsElf64 : Prop :=
  ehdrSize ≤ m.size ∧ m.field 0 4 = elfMag ∧ m.field 4 1 = elfClass64

/-- The program header is of a `PT_LOAD` at file offset 0. -/
def IsHead (ph : Nat) : Prop := m.field ph 4 = ptLoad ∧ m.field (ph + 8) 8 = 0

/-- The section header is of a `SHT_DYNSYM`. -/
def IsDynsym (sh : Nat) : Prop := m.field (sh + 4) 4 = shtDynsym

/-- What the section header of a `SHT_DYNSYM` says. -/
def dynsymOf (eShoff sh : Nat) : Dynsym where
  syms := m.field (sh + 24) 8
  nsyms := (m.symCount sh).val
  strtab := m.field (eShoff + shdrSize * m.field (sh + 40) 4 + 24) 8

/-- The symbol is defined, with a value, under the name. -/
def Defines (strtab : Nat) (sym : CString) (s : Nat) : Prop :=
  m.field (s + 6) 2 ≠ shnUndef ∧ m.field (s + 8) 8 ≠ 0 ∧
    StringAt m.mem (BitVec.ofNat 64 (strtab + m.field s 4)) sym.bytes

instance : Decidable m.IsElf64 := inferInstanceAs (Decidable (_ ∧ _))
instance (ph : Nat) : Decidable (m.IsHead ph) := inferInstanceAs (Decidable (_ ∧ _))
instance (sh : Nat) : Decidable (m.IsDynsym sh) := inferInstanceAs (Decidable (_ = _))
instance (strtab : Nat) (sym : CString) (s : Nat) : Decidable (m.Defines strtab sym s) :=
  inferInstanceAs (Decidable (_ ∧ _))

/-- A round over a program header. -/
theorem val_phdrRound (ph : Nat) :
    (m.phdrRound ph).val =
      if m.IsHead ph then some (BitVec.ofNat 64 (m.field (ph + 16) 8)) else none := by
  simp only [phdrRound, val_bind, val_ite, val_pure]
  split_ifs <;> simp_all [IsHead]

/-- A round over a section header. -/
theorem val_shdrRound (eShoff sh : Nat) :
    (m.shdrRound eShoff sh).val =
      if m.IsDynsym sh then some (m.dynsymOf eShoff sh) else none := by
  simp only [shdrRound, val_bind, val_ite, val_pure]
  exact if_congr Iff.rfl rfl rfl

/-- A round over a symbol. -/
theorem val_symRound (strtab : Nat) (sym : CString) (s : Nat) :
    (m.symRound strtab sym s).val =
      if m.Defines strtab sym s then some (BitVec.ofNat 64 (m.field (s + 8) 8)) else none := by
  simp only [symRound, val_bind, val_ite, val_pure, strcmp_eq_true]
  split_ifs <;> simp_all [Defines]

/-! ## Where the rounds read -/

/-- The offset lies in the file. -/
def Inside (off : BitVec 64) : Prop := off.toNat < m.size

instance (off : BitVec 64) : Decidable (m.Inside off) := inferInstanceAs (Decidable (_ < _))

/-- The field of `n` bytes at an offset, which wraps, lies in the file. -/
def Fits (off n : Nat) : Prop := off % 2 ^ 64 + n ≤ m.size

/-- The fields that are read of a program header lie in the file. -/
def PhdrFits (ph : Nat) : Prop :=
  m.Fits ph 4 ∧ (m.field ph 4 = ptLoad → m.Fits (ph + 8) 8 ∧
    (m.field (ph + 8) 8 = 0 → m.Fits (ph + 16) 8))

/-- The fields that are read of a section header lie in the file, for a `SHT_DYNSYM` with the offset
in the section header that `sh_link` names. -/
def ShdrFits (eShoff sh : Nat) : Prop :=
  m.Fits (sh + 4) 4 ∧ (m.IsDynsym sh →
    m.Fits (sh + 24) 8 ∧
    (m.Fits (sh + 56) 8 ∧ (m.field (sh + 56) 8 ≠ 0 → m.Fits (sh + 32) 8)) ∧
    m.Fits (sh + 40) 4 ∧ m.Fits (eShoff + shdrSize * m.field (sh + 40) 4 + 24) 8)

/-- The name lies in the file as far as it agrees with the symbol, and one byte more. -/
def NameFits (name : Nat) (sym : CString) : Prop :=
  ∀ k ≤ sym.strlen,
    (∀ j < k, m.mem (BitVec.ofNat 64 (name + j)) = sym.bytes.getD j 0) → m.Fits (name + k) 1

/-- The fields that are read of a symbol lie in the file, for a defined one with its name. -/
def SymFits (strtab : Nat) (sym : CString) (s : Nat) : Prop :=
  m.Fits (s + 6) 2 ∧ (m.field (s + 6) 2 ≠ shnUndef →
    m.Fits (s + 8) 8 ∧ (m.field (s + 8) 8 ≠ 0 →
      m.Fits s 4 ∧ m.NameFits (strtab + m.field s 4) sym))

/-- The program header `ph[i]`. -/
def phdr (i : Nat) : Nat := m.field 32 8 + phdrSize * i

/-- The section header `sh[i]`. -/
def shdr (i : Nat) : Nat := m.field 40 8 + shdrSize * i

/-- The section header of the first `SHT_DYNSYM`. -/
def IsFirstDynsym (i : Nat) : Prop :=
  i < m.field 60 2 ∧ m.IsDynsym (m.shdr i) ∧ ∀ j < i, ¬ m.IsDynsym (m.shdr j)

instance (i : Nat) : Decidable (m.IsFirstDynsym i) := inferInstanceAs (Decidable (_ ∧ _))

/-- The tables lie in the file as far as they are searched: the program headers up to the first
`PT_LOAD` at offset 0, the section headers up to the first `SHT_DYNSYM`, and the symbols up to the
first definition. -/
structure TablesInside (sym : CString) : Prop where
  phdrs : ∀ i < m.field 56 2, (∀ j < i, ¬ m.IsHead (m.phdr j)) → m.PhdrFits (m.phdr i)
  shdrs : ∀ i < m.field 60 2, (∀ j < i, ¬ m.IsDynsym (m.shdr j)) →
    m.ShdrFits (m.field 40 8) (m.shdr i)
  syms : ∀ i d, m.IsFirstDynsym i → m.dynsymOf (m.field 40 8) (m.shdr i) = d →
    ¬ m.IsNull d.syms → ¬ m.IsNull d.strtab →
    ∀ k < d.nsyms, (∀ j < k, ¬ m.Defines d.strtab sym (d.syms + symSize * j)) →
      m.SymFits d.strtab sym (d.syms + symSize * k)

end

section
variable {m : Mapping}

/-- A mapping does not fill the address space. -/
theorem size_lt (m : Mapping) : m.size < 2 ^ 64 :=
  (Nat.le_add_left _ _).trans_lt m.base_add_size_lt

/-- A field is read inside the file where it fits. -/
@[simp] theorem within_read {off n : Nat} :
    Within m.Inside (m.read off (n + 1)) ↔ m.Fits off (n + 1) :=
  (within_load m.mem m.size_lt n.succ_pos).trans (by rw [BitVec.toNat_ofNat]; rfl)

/-- Where a round over a program header reads. -/
theorem within_phdrRound {ph : Nat} : Within m.Inside (m.phdrRound ph) ↔ m.PhdrFits ph := by
  simp only [phdrRound, within_bind, within_ite, within_read, within_pure, and_true, implies_true]
  rfl

/-- Where a round over a section header reads. -/
theorem within_shdrRound {eShoff sh : Nat} :
    Within m.Inside (m.shdrRound eShoff sh) ↔ m.ShdrFits eShoff sh := by
  simp only [shdrRound, symCount, within_bind, within_ite, within_read, within_pure, and_true,
    implies_true]
  rfl

/-- Where the comparison with a name reads. -/
theorem within_strcmp_name {name : Nat} {sym : CString} :
    Within m.Inside (strcmp m.mem (BitVec.ofNat 64 name) sym.bytes) ↔ m.NameFits name sym := by
  simp only [within_strcmp, ← BitVec.ofNat_add, NameFits, Inside, Fits, BitVec.toNat_ofNat]
  rfl

/-- Where a round over a symbol reads. -/
theorem within_symRound {strtab : Nat} {sym : CString} {s : Nat} :
    Within m.Inside (m.symRound strtab sym s) ↔ m.SymFits strtab sym s := by
  simp only [symRound, within_bind, within_ite, within_read, within_strcmp_name, within_pure,
    and_true, true_and, implies_true]
  rfl

/-- A round over a program header goes on. -/
theorem phdrRound_eq_none {ph : Nat} : (m.phdrRound ph).val = none ↔ ¬ m.IsHead ph := by
  simp [val_phdrRound]

/-- A round over a section header goes on. -/
theorem shdrRound_eq_none {eShoff sh : Nat} :
    (m.shdrRound eShoff sh).val = none ↔ ¬ m.IsDynsym sh := by
  simp [val_shdrRound]

/-- A round over a symbol goes on. -/
theorem symRound_eq_none {strtab : Nat} {sym : CString} {s : Nat} :
    (m.symRound strtab sym s).val = none ↔ ¬ m.Defines strtab sym s := by
  simp [val_symRound]

/-- A field of the file header fits. -/
theorem fits_ehdr (h : ehdrSize ≤ m.size) {off n : Nat} (hoff : off + n ≤ ehdrSize) :
    m.Fits off n :=
  (Nat.add_le_add_right (Nat.mod_le _ _) _).trans (hoff.trans h)

/-- Where the program headers are read. -/
theorem within_baseVaddr (h : ehdrSize ≤ m.size) :
    Within m.Inside m.baseVaddr ↔
      ∀ i < m.field 56 2, (∀ j < i, ¬ m.IsHead (m.phdr j)) → m.PhdrFits (m.phdr i) := by
  simp only [baseVaddr, within_bind, within_read, within_first, within_phdrRound, phdrRound_eq_none,
    within_pure, and_true]
  exact ⟨fun hr => hr.2.2, fun hr =>
    ⟨fits_ehdr h (by decide), fits_ehdr h (by decide), hr⟩⟩

/-- Where the section headers are read. -/
theorem within_findDynsym (h : ehdrSize ≤ m.size) :
    Within m.Inside m.findDynsym ↔
      ∀ i < m.field 60 2, (∀ j < i, ¬ m.IsDynsym (m.shdr j)) →
        m.ShdrFits (m.field 40 8) (m.shdr i) := by
  simp only [findDynsym, within_bind, within_read, within_first, within_shdrRound,
    shdrRound_eq_none]
  exact ⟨fun hr => hr.2.2, fun hr =>
    ⟨fits_ehdr h (by decide), fits_ehdr h (by decide), hr⟩⟩

/-- Where the symbols are read. -/
theorem within_findSym {d : Dynsym} {sym : CString} :
    Within m.Inside (m.findSym d sym) ↔
      ∀ k < d.nsyms, (∀ j < k, ¬ m.Defines d.strtab sym (d.syms + symSize * j)) →
        m.SymFits d.strtab sym (d.syms + symSize * k) := by
  simp only [findSym, within_first, within_symRound, symRound_eq_none]

/-- What the search for `.dynsym` finds. -/
theorem findDynsym_eq_some {d : Dynsym} :
    m.findDynsym.val = some d ↔
      ∃ i, m.IsFirstDynsym i ∧ m.dynsymOf (m.field 40 8) (m.shdr i) = d := by
  change (first _ (m.field 60 2)).val = some d ↔ _
  simp only [first_eq_some, shdrRound_eq_none, IsFirstDynsym]
  constructor
  · rintro ⟨i, hi, hhit, hmiss⟩
    rw [val_shdrRound] at hhit
    split at hhit
    next hd => exact ⟨i, ⟨hi, hd, hmiss⟩, Option.some.inj hhit⟩
    next => cases hhit
  · rintro ⟨i, ⟨hi, hd, hmiss⟩, rfl⟩
    exact ⟨i, hi, (val_shdrRound _ _ _).trans (if_pos hd), hmiss⟩

/-- Where `dynsym_lookup` reads, by its three searches. -/
theorem within_dynsymLookup {sym : CString} (h : m.IsElf64) :
    Within m.Inside (m.dynsymLookup sym) ↔
      Within m.Inside m.baseVaddr ∧ Within m.Inside m.findDynsym ∧
        ∀ d, m.findDynsym.val = some d → ¬ m.IsNull d.syms → ¬ m.IsNull d.strtab →
          Within m.Inside (m.findSym d sym) := by
  obtain ⟨hsize, hmag, hclass⟩ := h
  have h0 : m.Fits 0 4 := fits_ehdr hsize (by decide)
  have h4 : m.Fits 4 1 := fits_ehdr hsize (by decide)
  rw [dynsymLookup, if_neg (Nat.not_lt.2 hsize)]
  simp only [within_bind, within_ite, within_read, within_pure, h0, h4, hmag, hclass]
  cases m.findDynsym.val with
  | none => simp
  | some d => simp

/-! ## The result -/

/-- Without the header of a 64-bit ELF file, no table is read. -/
theorem within_dynsymLookup_of_not_isElf64 {sym : CString} (h : ¬ m.IsElf64) :
    Within m.Inside (m.dynsymLookup sym) := by
  rw [dynsymLookup]
  split
  · exact within_pure _
  next hsize =>
  have hsize : ehdrSize ≤ m.size := Nat.le_of_not_lt hsize
  have h0 : m.Fits 0 4 := fits_ehdr hsize (by decide)
  have h4 : m.Fits 4 1 := fits_ehdr hsize (by decide)
  simp only [within_bind, within_ite, within_read, within_pure, h0, h4, true_and, implies_true]
  intro hmag hclass
  exact absurd ⟨hsize, not_not.1 hmag, not_not.1 hclass⟩ h

/-- Where `dynsym_lookup` reads, by the tables of the file. -/
theorem within_dynsymLookup_iff {sym : CString} :
    Within m.Inside (m.dynsymLookup sym) ↔ (m.IsElf64 → m.TablesInside sym) := by
  constructor
  · intro hread helf
    rw [within_dynsymLookup helf, within_baseVaddr helf.1, within_findDynsym helf.1] at hread
    obtain ⟨hph, hsh, hsym⟩ := hread
    refine ⟨hph, hsh, fun i d hfirst hd hnull hnull' => ?_⟩
    exact within_findSym.1 (hsym d (findDynsym_eq_some.2 ⟨i, hfirst, hd⟩) hnull hnull')
  · intro htables
    rcases em m.IsElf64 with helf | helf
    · obtain ⟨hph, hsh, hsym⟩ := htables helf
      rw [within_dynsymLookup helf, within_baseVaddr helf.1, within_findDynsym helf.1]
      refine ⟨hph, hsh, fun d hd hnull hnull' => ?_⟩
      obtain ⟨i, hfirst, hd⟩ := findDynsym_eq_some.1 hd
      exact within_findSym.2 (hsym i d hfirst hd hnull hnull')
    · exact within_dynsymLookup_of_not_isElf64 helf

/-- **`dynsym_lookup` reads inside the file exactly when the tables of the file lie in it.** Nothing
but the size and the first five bytes is checked, so where they do not, it reads elsewhere instead
of returning -1. -/
theorem dynsymLookup_inside_iff (m : Mapping) (sym : CString) :
    ((∀ off ∈ (m.dynsymLookup sym).log, m.Inside off) ∧
      (m.IsElf64 → ¬ m.TablesInside sym → (m.dynsymLookup sym).val = none)) ↔
      (m.IsElf64 → m.TablesInside sym) := by
  constructor
  · rintro ⟨hread, -⟩
    exact within_dynsymLookup_iff.1 hread
  · intro htables
    exact ⟨within_dynsymLookup_iff.2 htables, fun helf hnot => absurd (htables helf) hnot⟩

/-- A file with the given bytes, in front of zeros. -/
def ofBytes (bytes : List UInt8) (h : bytes.length < 2 ^ 32) : Mapping where
  base := 0x7f0000000000#64
  size := bytes.length
  mem := fun off => bytes.getD off.toNat 0
  base_ne := by decide
  base_add_size_lt := by
    have : (0x7f0000000000#64).toNat = 0x7f0000000000 := rfl
    omega

/-- A library of which only the first 64 bytes have been copied: nine program headers at 64, 29
section headers at `0xab2e0`. -/
def truncated : Mapping :=
  .ofBytes [0x7f, 0x45, 0x4c, 0x46, 2, 1, 1, 0, 0, 0, 0, 0, 0, 0, 0, 0,
    3, 0, 0x3e, 0, 1, 0, 0, 0, 0, 0, 0, 0, 0, 0, 0, 0,
    64, 0, 0, 0, 0, 0, 0, 0, 0xe0, 0xb2, 0x0a, 0, 0, 0, 0, 0,
    0, 0, 0, 0, 64, 0, 56, 0, 9, 0, 64, 0, 29, 0, 28, 0] (by decide)

/-- The truncated library passes the checks, and `dynsym_lookup` reads its program headers behind
the end of the file, and its section headers far behind. -/
theorem truncated_reads_outside :
    truncated.size = 64 ∧ truncated.IsElf64 ∧
      64 ∈ (truncated.dynsymLookup (.lit "SSL_set_session")).log ∧ ¬ truncated.Inside 64 ∧
      0xab2e4 ∈ (truncated.dynsymLookup (.lit "SSL_set_session")).log ∧
      ¬ truncated.Inside 0xab2e4 := by
  have h64 : 64 ∈ (truncated.dynsymLookup (.lit "SSL_set_session")).log := by decide +kernel
  have hshdr : 0xab2e4 ∈ (truncated.dynsymLookup (.lit "SSL_set_session")).log := by decide +kernel
  exact ⟨rfl, by decide +kernel, h64, by decide +kernel, hshdr, by decide +kernel⟩

end

end Mapping

end TicketConnect
