import Mathlib.Data.BitVec
import Mathlib.Data.List.DropRight
import TicketConnect.Lib.Digits

/-!
# Reading text with `fgets` and `sscanf`

`fgetsAll cap text` are the pieces in which a loop over `fgets(line, cap, f)` reads a text: up to
`cap - 1` bytes, or to the end of a line. The conversions of `sscanf` take the text from where the
last one stopped and return what is left, `none` where they do not match: `scanHex` is `%lx`,
`scanLit` a byte of the format, `skipSpace` a blank of it, `scanWord` is `%s` with or without a
width, and `scanSet` is `%n[^c]`. There are two kinds of lemmas: what is left is always an end of
what was there, and a conversion that meets the printed form of a value returns the value.
-/

namespace Lib

/-! ## `fgets` -/

/-- The pieces of a text, with `left` bytes of room behind what is already in the buffer; `cur` is
that, backwards. -/
def fgetsFrom (cap : Nat) : (text : List UInt8) → (left : Nat) → (cur : List UInt8) →
    List (List UInt8)
  | [], _, cur => if cur = [] then [] else [cur.reverse]
  | b :: text, left, cur =>
    if b = 10 ∨ left ≤ 1 then (b :: cur).reverse :: fgetsFrom cap text (cap - 1) []
    else fgetsFrom cap text (left - 1) (b :: cur)

/-- The pieces in which a loop over `fgets(line, cap, f)` reads a text. -/
def fgetsAll (cap : Nat) (text : List UInt8) : List (List UInt8) := fgetsFrom cap text (cap - 1) []

section Fgets
variable {cap left : Nat} {cur l rest : List UInt8}

/-- A piece ends at the end of a line, so a text of whole lines is read line by line. -/
theorem fgetsFrom_append (text : List UInt8) (left : Nat) (cur : List UInt8) :
    fgetsFrom cap (text ++ 10 :: rest) left cur =
      fgetsFrom cap (text ++ [10]) left cur ++ fgetsAll cap rest := by
  induction text generalizing left cur with
  | nil => simp [fgetsFrom, fgetsAll]
  | cons b text ih =>
    simp only [List.cons_append, fgetsFrom]
    split_ifs
    · rw [ih, List.cons_append]
    · exact ih _ _

/-- What is in front of a line's end and fits is one piece. -/
theorem fgetsFrom_line (hl : 10 ∉ l) (hfit : l.length < left) :
    fgetsFrom cap (l ++ [10]) left cur = [cur.reverse ++ l ++ [10]] := by
  induction l generalizing left cur with
  | nil => simp [fgetsFrom]
  | cons b l ih =>
    have hb : ¬(b = 10 ∨ left ≤ 1) := by
      rintro (rfl | hle)
      · exact hl List.mem_cons_self
      · simp only [List.length_cons] at hfit
        omega
    rw [List.cons_append, fgetsFrom, if_neg hb,
      ih (fun h => hl (List.mem_cons_of_mem _ h)) (by simp only [List.length_cons] at hfit; omega)]
    simp

/-- A piece is full when there is no more room. -/
theorem fgetsFrom_full (hl : 10 ∉ l) (hfull : l.length = left) (hpos : 0 < left) :
    fgetsFrom cap (l ++ rest) left cur = (cur.reverse ++ l) :: fgetsAll cap rest := by
  induction l generalizing left cur with
  | nil => simp only [List.length_nil] at hfull; omega
  | cons b l ih =>
    have hb : b ≠ 10 := fun h => hl (h ▸ List.mem_cons_self)
    rw [List.cons_append, fgetsFrom]
    split_ifs with h
    · obtain rfl : l = [] := by
        rw [← List.length_eq_zero_iff]
        simp only [List.length_cons] at hfull
        rcases h with h | h
        · exact absurd h hb
        · omega
      simp [fgetsAll]
    · simp only [List.length_cons] at hfull
      rw [ih (fun h => hl (List.mem_cons_of_mem _ h)) (by omega) (by omega)]
      simp

/-- Every piece is part of the text. -/
theorem infix_of_mem_fgetsFrom {text q : List UInt8} (h : q ∈ fgetsFrom cap text left cur) :
    q <:+: cur.reverse ++ text := by
  induction text generalizing left cur with
  | nil =>
    rw [fgetsFrom] at h
    split_ifs at h
    · cases h
    · simp [List.mem_singleton.1 h]
  | cons b text ih =>
    rw [fgetsFrom] at h
    split_ifs at h
    · rcases List.mem_cons.1 h with rfl | h
      · exact ⟨[], text, by simp⟩
      · obtain ⟨s, t, hst⟩ := ih h
        rw [List.reverse_nil, List.nil_append] at hst
        exact ⟨cur.reverse ++ b :: s, t, by simp [← hst]⟩
    · simpa using ih h

theorem infix_of_mem_fgetsAll {text q : List UInt8} (h : q ∈ fgetsAll cap text) : q <:+: text :=
  infix_of_mem_fgetsFrom h

/-- A line that fits is one piece. -/
theorem fgetsAll_line (hl : 10 ∉ l) (hfit : l.length + 1 < cap) :
    fgetsAll cap (l ++ [10]) = [l ++ [10]] :=
  fgetsFrom_line hl (by omega)

/-- Of a text without a line's end in the first `cap - 1` bytes, these are a piece. -/
theorem fgetsAll_full (hl : 10 ∉ l) (hfull : l.length + 1 = cap) (hcap : 1 < cap) :
    fgetsAll cap (l ++ rest) = l :: fgetsAll cap rest :=
  fgetsFrom_full hl (by omega) (by omega)

/-- Texts that end with a line's end are read one after the other. -/
theorem fgetsAll_flatMap {α : Type*} {f : α → List UInt8} (hf : ∀ a, ∃ l, f a = l ++ [10])
    (as : List α) : fgetsAll cap (as.flatMap f) = as.flatMap fun a => fgetsAll cap (f a) := by
  induction as with
  | nil => simp [fgetsAll, fgetsFrom]
  | cons a as ih =>
    obtain ⟨l, hl⟩ := hf a
    rw [List.flatMap_cons, List.flatMap_cons, ← ih, hl, List.append_assoc]
    exact fgetsFrom_append l (cap - 1) []

end Fgets

/-! ## The conversions of `sscanf` -/

/-- `isspace`. -/
def isSpace (c : UInt8) : Bool := c = 32 ∨ 9 ≤ c ∧ c ≤ 13

/-- A blank of the format. -/
def skipSpace (s : List UInt8) : List UInt8 := s.dropWhile isSpace

/-- A byte of the format. -/
def scanLit (c : UInt8) : List UInt8 → Option (List UInt8)
  | b :: s => if b = c then some s else none
  | [] => none

/-- The sign in front of a number. -/
def scanSign : List UInt8 → Bool × List UInt8
  | b :: s => if b = 45 then (true, s) else if b = 43 then (false, s) else (false, b :: s)
  | [] => (false, [])

/-- The `0x` in front of a number in base 16. -/
def skipHexHead : List UInt8 → List UInt8
  | b :: c :: s => if b = 48 ∧ (c = 120 ∨ c = 88) then s else b :: c :: s
  | s => s

/-- The value of `strtoul`: a number that is too large gives the largest one, a sign negates. -/
def strtoul (neg : Bool) (n : Nat) : BitVec 64 :=
  if 2 ^ 64 ≤ n then BitVec.allOnes 64 else if neg then -BitVec.ofNat 64 n else BitVec.ofNat 64 n

/-- `%lx`. -/
def scanHex (s : List UInt8) : Option (BitVec 64 × List UInt8) :=
  let (neg, s) := scanSign (skipSpace s)
  let s := skipHexHead s
  let ds := s.takeWhile fun c => (digitVal c).isSome
  if ds = [] then none
  else some (strtoul neg (ofDigits 16 0 ds), s.dropWhile fun c => (digitVal c).isSome)

/-- `%s`, or `%ns` with a width `n`. -/
def scanWord (width : Option Nat) (s : List UInt8) : Option (List UInt8 × List UInt8) :=
  let s := skipSpace s
  let all := s.takeWhile fun c => !isSpace c
  let word := match width with
    | some n => all.take n
    | none => all
  if word = [] then none else some (word, s.drop word.length)

/-- `%n[^c]`. -/
def scanSet (width : Nat) (c : UInt8) (s : List UInt8) : Option (List UInt8 × List UInt8) :=
  let set := (s.takeWhile (· ≠ c)).take width
  if set = [] then none else some (set, s.drop set.length)

/-! ## What a conversion leaves -/

section Suffix
variable {s t : List UInt8}

theorem skipSpace_suffix (s : List UInt8) : skipSpace s <:+ s := List.dropWhile_suffix _

theorem scanLit_suffix {c : UInt8} (h : scanLit c s = some t) : t <:+ s := by
  cases s with
  | nil => cases h
  | cons b s =>
    rw [scanLit] at h
    split_ifs at h
    cases h
    exact List.suffix_cons b _

theorem scanSign_suffix (s : List UInt8) : (scanSign s).2 <:+ s := by
  cases s with
  | nil => exact List.suffix_rfl
  | cons b s =>
    rw [scanSign]
    split_ifs
    exacts [List.suffix_cons b s, List.suffix_cons b s, List.suffix_rfl]

theorem skipHexHead_suffix (s : List UInt8) : skipHexHead s <:+ s := by
  unfold skipHexHead
  split
  · split_ifs
    · exact (List.suffix_cons _ _).trans (List.suffix_cons _ _)
    · exact List.suffix_rfl
  · exact List.suffix_rfl

theorem scanHex_suffix {v : BitVec 64} (h : scanHex s = some (v, t)) : t <:+ s := by
  simp only [scanHex] at h
  split_ifs at h
  cases h
  exact (List.dropWhile_suffix _).trans ((skipHexHead_suffix _).trans
    ((scanSign_suffix _).trans (skipSpace_suffix s)))

theorem scanWord_suffix {width : Option Nat} {w : List UInt8} (h : scanWord width s = some (w, t)) :
    t <:+ s := by
  simp only [scanWord] at h
  split_ifs at h
  cases h
  exact (List.drop_suffix _ _).trans (skipSpace_suffix s)

/-- A set is part of the text, within its width and without the excluded byte. -/
theorem scanSet_spec {width : Nat} {c : UInt8} {set : List UInt8}
    (h : scanSet width c s = some (set, t)) :
    set <+: s ∧ set.length ≤ width ∧ c ∉ set := by
  simp only [scanSet] at h
  split_ifs at h
  cases h
  refine ⟨(List.take_prefix _ _).trans (List.takeWhile_prefix _), List.length_take_le _ _, ?_⟩
  intro hmem
  simpa using List.mem_takeWhile_imp (List.mem_of_mem_take hmem)

end Suffix

/-! ## Reading what was printed -/

section Printed
variable {c : UInt8} {rest : List UInt8}

@[simp] theorem skipSpace_cons_of_isSpace (hc : isSpace c = true) :
    skipSpace (c :: rest) = skipSpace rest :=
  List.dropWhile_cons_of_pos hc

@[simp] theorem skipSpace_cons_of_not (hc : isSpace c = false) :
    skipSpace (c :: rest) = c :: rest :=
  List.dropWhile_cons_of_neg (by simp [hc])

/-- Blanks are skipped up to the next byte. -/
theorem skipSpace_replicate (n : Nat) (s : List UInt8) :
    skipSpace (List.replicate n 32 ++ s) = skipSpace s := by
  induction n with
  | zero => rfl
  | succ n ih =>
    rw [List.replicate_succ, List.cons_append, skipSpace_cons_of_isSpace (by decide), ih]

theorem skipSpace_skipSpace (s : List UInt8) : skipSpace (skipSpace s) = skipSpace s :=
  List.dropWhile_idempotent ..

/-- A number or a word skips blanks itself, so that a blank of the format in front of it adds
nothing. -/
@[simp] theorem scanHex_skipSpace (s : List UInt8) : scanHex (skipSpace s) = scanHex s := by
  simp only [scanHex, skipSpace_skipSpace]

@[simp] theorem scanWord_skipSpace (width : Option Nat) (s : List UInt8) :
    scanWord width (skipSpace s) = scanWord width s := by
  simp only [scanWord, skipSpace_skipSpace]

@[simp] theorem scanHex_blank (s : List UInt8) : scanHex (32 :: s) = scanHex s := by
  rw [← scanHex_skipSpace, skipSpace_cons_of_isSpace (by decide), scanHex_skipSpace]

@[simp] theorem scanWord_blank (width : Option Nat) (s : List UInt8) :
    scanWord width (32 :: s) = scanWord width s := by
  rw [← scanWord_skipSpace, skipSpace_cons_of_isSpace (by decide), scanWord_skipSpace]

/-- A digit is not a blank and not a sign. -/
theorem not_isSpace_of_digit (h : (digitVal c).isSome) :
    isSpace c = false ∧ c ≠ 45 ∧ c ≠ 43 ∧ c ≠ 120 ∧ c ≠ 88 := by
  have hall : ∀ n : Fin 256, (digitVal (UInt8.ofNat n)).isSome →
      isSpace (UInt8.ofNat n) = false ∧ UInt8.ofNat n ≠ 45 ∧ UInt8.ofNat n ≠ 43 ∧
        UInt8.ofNat n ≠ 120 ∧ UInt8.ofNat n ≠ 88 := by decide +kernel
  have hc := hall ⟨c.toNat, c.toNat_lt⟩
  rw [UInt8.ofNat_toNat] at hc
  exact hc h

/-- A run of bytes that all meet a condition ends at the first byte that does not. -/
theorem takeWhile_run {p : UInt8 → Bool} {w : List UInt8} (hw : ∀ x ∈ w, p x = true)
    (c : UInt8) (rest : List UInt8) (hc : p c = false) :
    (w ++ c :: rest).takeWhile p = w ∧ (w ++ c :: rest).dropWhile p = c :: rest := by
  rw [List.takeWhile_append_of_pos hw, List.dropWhile_append_of_pos hw]
  simp [hc]

/-- Digits are read up to the first byte that is none. -/
theorem scanHex_append {ds : List UInt8} (hds : ∀ d ∈ ds, (digitVal d).isSome) (hne : ds ≠ [])
    (hc : digitVal c = none) (hx : c ≠ 120 ∧ c ≠ 88) :
    scanHex (ds ++ c :: rest) = some (strtoul false (ofDigits 16 0 ds), c :: rest) := by
  obtain ⟨d, ds, rfl⟩ := List.exists_cons_of_ne_nil hne
  obtain ⟨hspace, hminus, hplus, -⟩ := not_isSpace_of_digit (hds d List.mem_cons_self)
  -- the byte behind the first digit is a digit or the end of the number
  have hhead : skipHexHead (d :: ds ++ c :: rest) = d :: ds ++ c :: rest := by
    cases ds with
    | nil => simp [skipHexHead, hx]
    | cons d' ds =>
      have hd' := not_isSpace_of_digit (hds d' (by simp))
      simp [skipHexHead, hd']
  obtain ⟨htake, hdrop⟩ := takeWhile_run hds c rest (by simp [hc])
  have hsign : scanSign (skipSpace (d :: ds ++ c :: rest)) = (false, d :: ds ++ c :: rest) := by
    rw [List.cons_append, skipSpace_cons_of_not hspace, scanSign, if_neg hminus, if_neg hplus]
  simp only [scanHex, hsign, hhead, htake, hdrop]
  rw [if_neg hne]

/-- A word that a blank follows. -/
theorem scanWord_append {width : Option Nat} {w : List UInt8}
    (hw : ∀ x ∈ w, isSpace x = false) (hne : w ≠ []) (hc : isSpace c = true)
    (hwidth : ∀ n, width = some n → w.length ≤ n) :
    scanWord width (w ++ c :: rest) = some (w, c :: rest) := by
  have hskip : skipSpace (w ++ c :: rest) = w ++ c :: rest := by
    obtain ⟨b, w, rfl⟩ := List.exists_cons_of_ne_nil hne
    exact skipSpace_cons_of_not (hw b List.mem_cons_self)
  obtain ⟨htake, -⟩ := takeWhile_run (p := fun x => !isSpace x) (w := w)
    (fun x hx => by simp [hw x hx]) c rest (by simp [hc])
  cases width with
  | none =>
    simp only [scanWord, hskip, htake]
    rw [if_neg hne, List.drop_left]
  | some n =>
    simp only [scanWord, hskip, htake, List.take_of_length_le (hwidth n rfl)]
    rw [if_neg hne, List.drop_left]

/-- A number in base 16, with zeros in front or without. -/
theorem scanHex_zeroPadded (w : Nat) (v : BitVec 64) (hc : digitVal c = none)
    (hx : c ≠ 120 ∧ c ≠ 88) :
    scanHex (zeroPadded w v.toNat ++ c :: rest) = some (v, c :: rest) := by
  rw [scanHex_append (fun d hd => isSome_digitVal_of_mem_zeroPadded hd) zeroPadded_ne_nil hc hx,
    ofDigits_zeroPadded, strtoul, if_neg (by have := v.isLt; omega)]
  simp

end Printed

end Lib
