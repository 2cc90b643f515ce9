import Mathlib.Data.Nat.Bitwise

/-!
# Big-endian 32-bit words

The four bytes of a word written by shifts and casts, the word read back by shifts and disjunctions,
and the round trip. Words are natural numbers below `2 ^ 32`.
-/

namespace Lib

/-- The bytes of a word, most significant first; each cast keeps the low eight bits. -/
def putBE32 (v : Nat) : List UInt8 :=
  [.ofNat (v >>> 24), .ofNat (v >>> 16), .ofNat (v >>> 8), .ofNat v]

/-- The word of four bytes, most significant first. -/
def getBE32 (b₀ b₁ b₂ b₃ : UInt8) : Nat :=
  b₀.toNat <<< 24 ||| b₁.toNat <<< 16 ||| b₂.toNat <<< 8 ||| b₃.toNat

/-- A byte below a shifted number occupies disjoint bits, so the disjunction is a sum. -/
theorem shiftLeft_or_byte (a : Nat) (b : UInt8) (k : Nat) :
    a <<< (8 + k) ||| b.toNat <<< k = (a * 2 ^ 8 + b.toNat) <<< k := by
  rw [Nat.shiftLeft_add, ← Nat.shiftLeft_or_distrib, ← Nat.shiftLeft_add_eq_or_of_lt b.toNat_lt,
    Nat.shiftLeft_eq a]

/-- The word as a sum. -/
theorem getBE32_eq (b₀ b₁ b₂ b₃ : UInt8) :
    getBE32 b₀ b₁ b₂ b₃ =
      ((b₀.toNat * 2 ^ 8 + b₁.toNat) * 2 ^ 8 + b₂.toNat) * 2 ^ 8 + b₃.toNat := by
  have h₁ := shiftLeft_or_byte b₀.toNat b₁ 16
  have h₂ := shiftLeft_or_byte (b₀.toNat * 2 ^ 8 + b₁.toNat) b₂ 8
  have h₃ := shiftLeft_or_byte ((b₀.toNat * 2 ^ 8 + b₁.toNat) * 2 ^ 8 + b₂.toNat) b₃ 0
  simp only [Nat.reduceAdd, Nat.shiftLeft_zero] at h₁ h₂ h₃
  rw [getBE32, h₁, h₂, h₃]

/-- Reading back a written word. -/
theorem getBE32_putBE32 {v : Nat} (h : v < 2 ^ 32) :
    getBE32 (.ofNat (v >>> 24)) (.ofNat (v >>> 16)) (.ofNat (v >>> 8)) (.ofNat v) = v := by
  rw [getBE32_eq]
  simp only [UInt8.toNat_ofNat', Nat.shiftRight_eq_div_pow]
  omega

end Lib
