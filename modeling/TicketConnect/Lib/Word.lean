import Mathlib.Data.BitVec

/-!
# Words in a byte memory

A memory is a map from 64-bit addresses to bytes. A word is eight bytes, least significant first;
addresses wrap around. `peek_poke` is the round trip, and `writeBytes` the copy of a run of bytes.
`toNat_and_not_mask` is the arithmetic of an address that is aligned down by a mask, and
`toNat_round_up` that of a length that is rounded up.
-/

namespace Lib

/-- A byte memory over 64-bit addresses. -/
abbrev ByteMem := BitVec 64 → BitVec 8

/-- The word of eight bytes, least significant first. -/
def ofBytes (f : Nat → BitVec 8) : BitVec 64 :=
  f 7 ++ f 6 ++ f 5 ++ f 4 ++ f 3 ++ f 2 ++ f 1 ++ f 0

/-- A word depends on its eight bytes. -/
theorem ofBytes_congr {f g : Nat → BitVec 8} (h : ∀ i, i < 8 → f i = g i) :
    ofBytes f = ofBytes g := by
  simp only [ofBytes, h 0 (by decide), h 1 (by decide), h 2 (by decide), h 3 (by decide),
    h 4 (by decide), h 5 (by decide), h 6 (by decide), h 7 (by decide)]

/-- The bytes of a word make up the word. -/
theorem ofBytes_extract (w : BitVec 64) : (ofBytes fun i => w.extractLsb' (8 * i) 8) = w := by
  unfold ofBytes
  ext i hi
  simp only [BitVec.getElem_append, BitVec.getElem_extractLsb']
  grind

/-- The bytes of a word that is made up of bytes. -/
theorem extract_ofBytes (f : Nat → BitVec 8) {i : Nat} (hi : i < 8) :
    (ofBytes f).extractLsb' (8 * i) 8 = f i := by
  unfold ofBytes
  ext j hj
  simp only [BitVec.getElem_extractLsb', BitVec.getLsbD_append]
  have hcases : i = 0 ∨ i = 1 ∨ i = 2 ∨ i = 3 ∨ i = 4 ∨ i = 5 ∨ i = 6 ∨ i = 7 := by omega
  rcases hcases with rfl | rfl | rfl | rfl | rfl | rfl | rfl | rfl
  all_goals grind

namespace ByteMem

/-- The word at an address. -/
def peek (m : ByteMem) (a : BitVec 64) : BitVec 64 :=
  ofBytes fun i => m (a + BitVec.ofNat 64 i)

/-- The byte at `x` belongs to the word at `a`. -/
def InWord (a x : BitVec 64) : Prop := (x - a).toNat < 8

instance (a x : BitVec 64) : Decidable (InWord a x) := inferInstanceAs (Decidable (_ < _))

/-- The memory with a word written at an address. -/
def poke (m : ByteMem) (a w : BitVec 64) : ByteMem := fun x =>
  if InWord a x then w.extractLsb' (8 * (x - a).toNat) 8 else m x

/-- The memory with the first `n` bytes of `buf` copied to an address. -/
def writeBytes (m : ByteMem) (a : BitVec 64) (buf : Nat → BitVec 8) (n : Nat) : ByteMem := fun x =>
  if (x - a).toNat < n then buf (x - a).toNat else m x

/-- The distance of an address from the start of a range. -/
theorem toNat_add_ofNat_sub (a : BitVec 64) {i : Nat} (hi : i < 2 ^ 64) :
    (a + BitVec.ofNat 64 i - a).toNat = i := by
  rw [BitVec.add_comm, BitVec.add_sub_cancel, BitVec.toNat_ofNat, Nat.mod_eq_of_lt hi]

/-- A byte of a copied run. -/
theorem writeBytes_add (m : ByteMem) (a : BitVec 64) (buf : Nat → BitVec 8) {i n : Nat} (hi : i < n)
    (hn : n ≤ 2 ^ 64) : m.writeBytes a buf n (a + BitVec.ofNat 64 i) = buf i := by
  have hsub := toNat_add_ofNat_sub a (i := i) (by omega)
  rw [writeBytes, if_pos (by omega), hsub]

/-- A copy leaves the bytes outside its run. -/
theorem writeBytes_of_le {m : ByteMem} {a x : BitVec 64} {buf : Nat → BitVec 8} {n : Nat}
    (h : n ≤ (x - a).toNat) : m.writeBytes a buf n x = m x := if_neg (by omega)

/-- A byte of a written word. -/
theorem poke_add (m : ByteMem) (a w : BitVec 64) {i : Nat} (hi : i < 8) :
    m.poke a w (a + BitVec.ofNat 64 i) = w.extractLsb' (8 * i) 8 := by
  have hsub := toNat_add_ofNat_sub a (i := i) (by omega)
  have hin : InWord a (a + BitVec.ofNat 64 i) := by rwa [InWord, hsub]
  rw [poke, if_pos hin, hsub]

/-- A write leaves the bytes outside its word. -/
theorem poke_of_not_inWord {m : ByteMem} {a w x : BitVec 64} (h : ¬ InWord a x) :
    m.poke a w x = m x := if_neg h

/-- Memories that agree on the bytes of a word have the same word. -/
theorem peek_congr {m m' : ByteMem} {a : BitVec 64} (h : ∀ x, InWord a x → m x = m' x) :
    m.peek a = m'.peek a := by
  refine ofBytes_congr fun i hi => h _ ?_
  rwa [InWord, toNat_add_ofNat_sub a (by omega)]

/-- Memories that have the same word agree on its bytes. -/
theorem eq_of_peek_eq {m m' : ByteMem} {a x : BitVec 64} (h : m.peek a = m'.peek a)
    (hx : InWord a x) : m x = m' x := by
  have hbyte : ∀ m : ByteMem, m x = (m.peek a).extractLsb' (8 * (x - a).toNat) 8 := by
    intro m
    rw [peek, extract_ofBytes _ hx, BitVec.ofNat_toNat, BitVec.setWidth_eq, BitVec.add_comm,
      BitVec.sub_add_cancel]
  rw [hbyte m, hbyte m', h]

/-- The word read back after its bytes were copied. -/
theorem peek_writeBytes (m : ByteMem) (a w : BitVec 64) :
    (m.writeBytes a (fun i => w.extractLsb' (8 * i) 8) 8).peek a = w :=
  (ofBytes_congr fun _ hi => writeBytes_add m a _ hi (by decide)).trans (ofBytes_extract w)

/-- The word read back after a write. -/
theorem peek_poke (m : ByteMem) (a w : BitVec 64) : (m.poke a w).peek a = w :=
  (ofBytes_congr fun _ hi => poke_add m a w hi).trans (ofBytes_extract w)

end ByteMem

/-! ## Masks -/

/-- Clearing the low bits by a mask shifts them out and back. -/
theorem and_not_mask (x : BitVec 64) (j : Nat) :
    x &&& ~~~(BitVec.ofNat 64 (2 ^ j - 1)) = (x >>> j) <<< j := by
  ext i hi
  have hmask : (BitVec.ofNat 64 (2 ^ j - 1))[i] = decide (i < j) := by
    rw [← BitVec.getLsbD_eq_getElem, BitVec.getLsbD_ofNat, Nat.testBit_two_pow_sub_one]
    simp [hi]
  rw [BitVec.getElem_and, BitVec.getElem_not, hmask, BitVec.getElem_shiftLeft]
  rcases Nat.lt_or_ge i j with hij | hij
  · simp [hij]
  · simp [Nat.not_lt.2 hij, Nat.add_sub_cancel' hij, hi]

/-- Clearing the low `j` bits rounds down to a multiple of `2 ^ j`. -/
theorem toNat_and_not_mask (x : BitVec 64) (j : Nat) :
    (x &&& ~~~(BitVec.ofNat 64 (2 ^ j - 1))).toNat = x.toNat / 2 ^ j * 2 ^ j := by
  rw [and_not_mask, BitVec.toNat_shiftLeft, BitVec.toNat_ushiftRight, Nat.shiftRight_eq_div_pow,
    Nat.shiftLeft_eq, Nat.mod_eq_of_lt]
  exact lt_of_le_of_lt (Nat.div_mul_le_self _ _) x.isLt

/-- Rounding up to a multiple of `2 ^ j` by a mask, where the sum does not wrap around. -/
theorem toNat_round_up {v : BitVec 64} {j : Nat} (hj : j < 64) (h : v.toNat + 2 ^ j ≤ 2 ^ 64) :
    ((v + BitVec.ofNat 64 (2 ^ j) - 1) &&& ~~~(BitVec.ofNat 64 (2 ^ j) - 1)).toNat =
      (v.toNat + (2 ^ j - 1)) / 2 ^ j * 2 ^ j := by
  have hpos : 0 < 2 ^ j := Nat.two_pow_pos j
  have hlt : 2 ^ j < 2 ^ 64 := Nat.pow_lt_pow_right (by decide) hj
  have hmask : BitVec.ofNat 64 (2 ^ j) - 1 = BitVec.ofNat 64 (2 ^ j - 1) := by
    generalize 2 ^ j = q at hpos hlt ⊢
    bv_omega
  have hsum : (v + BitVec.ofNat 64 (2 ^ j) - 1).toNat = v.toNat + (2 ^ j - 1) := by
    generalize 2 ^ j = q at hpos hlt h ⊢
    bv_omega
  rw [hmask, toNat_and_not_mask, hsum]

end Lib
