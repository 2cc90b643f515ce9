import Mathlib.Algebra.Ring.Nat
import TicketConnect.Lib.CString

/-!
# Numbers as digits

`digits b n` are the bytes that `%u` (base 10) and `%lx` (base 16) print for `n`, `zeroPadded w n`
those of `%0wx`, and `ofDigits b` is the number a run of digits stands for. Reading back what was
printed gives the number (`ofDigits_digits`), so printing is injective, and the printed bytes are
digits, so that a separator behind them ends them.
-/

namespace Lib

/-- The byte of a digit, in lower case. -/
def digitByte (d : Nat) : UInt8 := UInt8.ofNat d.digitChar.toNat

/-- The digit a byte stands for, in either case. -/
def digitVal (c : UInt8) : Option Nat :=
  if 48 ≤ c ∧ c ≤ 57 then some (c.toNat - 48)
  else if 97 ≤ c ∧ c ≤ 102 then some (c.toNat - 87)
  else if 65 ≤ c ∧ c ≤ 70 then some (c.toNat - 55)
  else none

/-- A number in base `b`. -/
def digits (b n : Nat) : List UInt8 := (b.toDigits n).map fun c => UInt8.ofNat c.toNat

/-- The number that a run of digits stands for, read behind a number `acc`. -/
def ofDigits (b : Nat) (acc : Nat) (l : List UInt8) : Nat :=
  l.foldl (fun a c => b * a + (digitVal c).getD 0) acc

/-- Two hex digits for each byte. -/
def hexBytes (l : List UInt8) : List UInt8 :=
  l.flatMap fun c => [digitByte (c.toNat / 16), digitByte (c.toNat % 16)]

/-- A number in base 16 with zeros before it, up to `w` digits. -/
def zeroPadded (w n : Nat) : List UInt8 := (digits 16 n).leftpad w 48

section
variable {b n d : Nat}

@[simp] theorem digitVal_digitByte (hd : d < 16) : digitVal (digitByte d) = some d := by
  have h : ∀ d : Fin 16, digitVal (digitByte d) = some d.val := by decide
  exact h ⟨d, hd⟩

theorem digitByte_injOn {e : Nat} (hd : d < 16) (he : e < 16) (h : digitByte d = digitByte e) :
    d = e := by
  have hval := congrArg digitVal h
  rw [digitVal_digitByte hd, digitVal_digitByte he] at hval
  exact Option.some.inj hval

/-- A number is its last digit behind the digits of the rest. -/
theorem digits_eq_if (hb : 1 < b) :
    digits b n = if n < b then [digitByte n] else digits b (n / b) ++ [digitByte (n % b)] := by
  rw [digits, Nat.toDigits_eq_if hb]
  split_ifs with h
  · rfl
  · simp [digits, digitByte]

theorem digits_ne_nil : digits b n ≠ [] := by
  simp [digits, Nat.toDigits_ne_nil]

/-- Everything printed is a digit. -/
theorem exists_of_mem_digits (hb : 1 < b) {c : UInt8} (hc : c ∈ digits b n) :
    ∃ d < b, c = digitByte d := by
  induction n using Nat.strongRecOn with
  | ind n ih =>
    rw [digits_eq_if hb] at hc
    split_ifs at hc with h
    · exact ⟨n, h, List.mem_singleton.1 hc⟩
    · rcases List.mem_append.1 hc with hc | hc
      · exact ih _ (Nat.div_lt_self (by omega) hb) hc
      · exact ⟨n % b, Nat.mod_lt _ (by omega), List.mem_singleton.1 hc⟩

/-- A byte that is no digit is not printed. -/
theorem notMem_digits (hb : 1 < b) (hb' : b ≤ 16) {c : UInt8} (hc : digitVal c = none) :
    c ∉ digits b n := by
  intro hmem
  obtain ⟨d, hd, rfl⟩ := exists_of_mem_digits hb hmem
  rw [digitVal_digitByte (by omega)] at hc
  cases hc

theorem ofDigits_append (acc : Nat) (l r : List UInt8) :
    ofDigits b acc (l ++ r) = ofDigits b (ofDigits b acc l) r :=
  List.foldl_append

/-- Reading the digits of a number gives the number. -/
theorem ofDigits_digits (hb : 1 < b) (hb' : b ≤ 16) (n : Nat) : ofDigits b 0 (digits b n) = n := by
  induction n using Nat.strongRecOn with
  | ind n ih =>
    rw [digits_eq_if hb]
    split_ifs with h
    · simp [ofDigits, digitVal_digitByte (show n < 16 by omega)]
    · have hmod : n % b < b := Nat.mod_lt _ (by omega)
      rw [ofDigits_append, ih _ (Nat.div_lt_self (by omega) hb)]
      simp only [ofDigits, List.foldl_cons, List.foldl_nil,
        digitVal_digitByte (show n % b < 16 by omega), Option.getD_some]
      exact Nat.div_add_mod n b

theorem digits_injective (hb : 1 < b) (hb' : b ≤ 16) : Function.Injective (digits b) := by
  intro m n h
  rw [← ofDigits_digits hb hb' m, h, ofDigits_digits hb hb' n]

theorem length_digits_le {k : Nat} (hb : 1 < b) (hk : 0 < k) (hn : n < b ^ k) :
    (digits b n).length ≤ k := by
  rw [digits, List.length_map]
  exact (Nat.length_toDigits_le_iff hb hk).2 hn

/-- A printed number holds digits only. -/
theorem isSome_digitVal_of_mem_zeroPadded {w : Nat} {c : UInt8} (hc : c ∈ zeroPadded w n) :
    (digitVal c).isSome := by
  rcases List.mem_append.1 hc with hc | hc
  · rw [List.eq_of_mem_replicate hc]
    decide
  · obtain ⟨d, hd, rfl⟩ := exists_of_mem_digits (by omega) hc
    simp [hd]

theorem zeroPadded_ne_nil {w : Nat} : zeroPadded w n ≠ [] := by
  simp [zeroPadded, List.leftpad, digits_ne_nil]

/-- Zeros in front do not change a number. -/
theorem ofDigits_zeroPadded (w n : Nat) : ofDigits 16 0 (zeroPadded w n) = n := by
  have hzeros : ∀ k, ofDigits 16 0 (List.replicate k 48) = 0 := by
    intro k
    induction k with
    | zero => rfl
    | succ k ih => exact ih
  rw [zeroPadded, List.leftpad, ofDigits_append, hzeros,
    ofDigits_digits (by omega) (by omega)]

theorem length_zeroPadded_le {w k : Nat} (hw : w ≤ k) (hk : 0 < k) (hn : n < 16 ^ k) :
    (zeroPadded w n).length ≤ k := by
  rw [zeroPadded, List.length_leftpad]
  exact max_le hw (length_digits_le (by omega) hk hn)

end

/-! ## Bytes in hex -/

@[simp] theorem hexBytes_nil : hexBytes [] = [] := rfl

@[simp] theorem hexBytes_cons (c : UInt8) (l : List UInt8) :
    hexBytes (c :: l) = digitByte (c.toNat / 16) :: digitByte (c.toNat % 16) :: hexBytes l := rfl

theorem length_hexBytes (l : List UInt8) : (hexBytes l).length = 2 * l.length := by
  induction l with
  | nil => rfl
  | cons c l ih =>
    simp only [hexBytes_cons, List.length_cons, ih]
    omega

/-- The digits of a list of bytes determine the bytes. -/
theorem hexBytes_injective : Function.Injective hexBytes := by
  intro l r h
  induction l generalizing r with
  | nil =>
    cases r with
    | nil => rfl
    | cons c r => cases h
  | cons a l ih =>
    cases r with
    | nil => cases h
    | cons c r =>
      have ha := a.toNat_lt
      have hc := c.toNat_lt
      simp only [hexBytes_cons, List.cons.injEq] at h
      obtain ⟨hhigh, hlow, hrest⟩ := h
      have hdiv := digitByte_injOn (by omega) (by omega) hhigh
      have hmod := digitByte_injOn (by omega) (by omega) hlow
      rw [ih hrest, UInt8.toNat_inj.1 (show a.toNat = c.toNat by omega)]

/-- A byte that is no digit is not printed for any byte. -/
theorem notMem_hexBytes {l : List UInt8} {c : UInt8} (hc : digitVal c = none) :
    c ∉ hexBytes l := by
  induction l with
  | nil => exact List.not_mem_nil
  | cons a l ih =>
    have ha := a.toNat_lt
    have hne : ∀ d < 16, c ≠ digitByte d := by
      rintro d hd rfl
      rw [digitVal_digitByte hd] at hc
      cases hc
    simp only [hexBytes_cons, List.mem_cons, not_or]
    exact ⟨hne _ (by omega), hne _ (by omega), ih⟩

/-! ## Printed numbers as strings -/

/-- No printed digit ends a string. -/
theorem nul_notMem_digits {b n : Nat} (hb : 1 < b) (hb' : b ≤ 16) : 0 ∉ digits b n :=
  notMem_digits hb hb' (by decide)

namespace CString

/-- `%lx`. -/
def hex (n : Nat) : CString := ⟨digits 16 n, nul_notMem_digits (by omega) (by omega)⟩

/-- `%02x` of a byte. -/
def hex2 (b : UInt8) : CString :=
  ⟨zeroPadded 2 b.toNat, by
    intro h
    rcases List.mem_append.1 h with h | h
    · cases List.eq_of_mem_replicate h
    · exact nul_notMem_digits (by omega) (by omega) h⟩

/-- A number without a sign is its digits. -/
theorem lit_repr (n : Nat) : (lit n.repr).bytes = digits 10 n := by
  show ((n.repr).toList.map _).filter _ = _
  rw [Nat.repr_eq_ofList_toDigits, String.toList_ofList]
  refine List.filter_eq_self.2 fun c hc => ?_
  exact decide_eq_true fun h0 => nul_notMem_digits (by omega) (by omega) (h0 ▸ hc : 0 ∈ digits 10 n)

/-- The bytes of two literals, one behind the other. -/
theorem lit_append (s t : String) : (lit (s ++ t)).bytes = (lit s).bytes ++ (lit t).bytes := by
  simp [lit]

/-- Two hex digits for each byte. -/
theorem hex2_bytes (b : UInt8) :
    (hex2 b).bytes = [digitByte (b.toNat / 16), digitByte (b.toNat % 16)] := by
  have hb := b.toNat_lt
  show zeroPadded 2 b.toNat = _
  rw [zeroPadded, digits_eq_if (by omega)]
  split_ifs with h
  · rw [Nat.div_eq_of_lt h, Nat.mod_eq_of_lt h]
    rfl
  · rw [digits_eq_if (by omega), if_pos (by omega)]
    rfl

/-- `%d` prints a sign where there is one, and the digits. -/
theorem dec_bytes (n : Int) :
    (dec n).bytes = (if n < 0 then [45] else []) ++ digits 10 n.natAbs := by
  cases n with
  | ofNat m => exact lit_repr m
  | negSucc m =>
    have hneg : Int.negSucc m < 0 := Int.negSucc_lt_zero m
    have hlit : (lit "-").bytes = [45] := by decide +kernel
    rw [if_pos hneg, ← hlit]
    exact (lit_append "-" _).trans (congrArg _ (lit_repr (m + 1)))

/-- The length of a printed number. -/
theorem strlen_dec_le {n : Int} {k : Nat} (hk : 0 < k) (hn : n.natAbs < 10 ^ k) :
    (dec n).strlen ≤ k + 1 := by
  have hdigits := length_digits_le (b := 10) (by omega) hk hn
  rw [strlen, dec_bytes, List.length_append]
  split_ifs <;> simp only [List.length_cons, List.length_nil] <;> omega

/-- A printed number holds digits and a sign only. -/
theorem notMem_dec {c : UInt8} (hc : digitVal c = none) (hsign : c ≠ 45) (n : Int) :
    c ∉ (dec n).bytes := by
  rw [dec_bytes]
  intro hmem
  rcases List.mem_append.1 hmem with h | h
  · split_ifs at h <;> simp_all
  · exact notMem_digits (by omega) (by omega) hc h

/-- Different numbers print differently. -/
theorem dec_injective : Function.Injective dec := by
  intro m n h
  have hbytes := congrArg CString.bytes h
  have hsign : ∀ k : Nat, 45 ∉ digits 10 k := fun _ =>
    notMem_digits (by omega) (by omega) (by decide)
  have hinj := digits_injective (b := 10) (by omega) (by omega)
  rw [dec_bytes, dec_bytes] at hbytes
  split_ifs at hbytes with hm hn hn
  · have := hinj (List.append_cancel_left hbytes)
    omega
  · rw [List.nil_append] at hbytes
    exact absurd (hbytes ▸ List.mem_cons_self) (hsign n.natAbs)
  · rw [List.nil_append] at hbytes
    exact absurd (hbytes ▸ List.mem_cons_self) (hsign m.natAbs)
  · have := hinj hbytes
    omega

end CString

end Lib
