import Mathlib.Data.List.Infix
import Mathlib.Data.List.TakeWhile

/-!
# NUL-terminated strings

A C string is the list of the bytes before its terminator, so it holds no NUL byte. `ofBuf` is the
string a reader sees in a buffer, `snprintf` the copy of a string into a buffer of `cap` bytes
(`snprintf(out, cap, "%s", s)` with `cap > 0`), which keeps the first `cap - 1` bytes, and
`strstr` the substring test.
-/

namespace Lib

/-- A C string: its bytes before the terminator. -/
structure CString where
  bytes : List UInt8
  noNul : 0 ∉ bytes
deriving DecidableEq

namespace CString

@[ext] theorem ext {s t : CString} (h : s.bytes = t.bytes) : s = t := by
  cases s; cases t; cases h; rfl

/-- `strlen`. -/
def strlen (s : CString) : Nat := s.bytes.length

/-- The empty string. -/
def empty : CString := ⟨[], List.not_mem_nil⟩

/-- A string literal of ASCII characters. -/
def lit (s : String) : CString :=
  ⟨(s.toList.map fun c => UInt8.ofNat c.toNat).filter (· ≠ 0), by simp⟩

/-- One string behind the other. -/
def append (s t : CString) : CString :=
  ⟨s.bytes ++ t.bytes, fun h => (List.mem_append.1 h).elim s.noNul t.noNul⟩

/-- Several strings, one behind the other. -/
def concat : List CString → CString
  | [] => empty
  | s :: ss => s.append (concat ss)

/-- A number in decimal digits, as `%ld` prints it. -/
def dec (n : Int) : CString := lit (toString n)

/-- A list of bytes read as a C string: what stands before the first NUL. -/
def ofBuf (buf : List UInt8) : CString :=
  ⟨buf.takeWhile (· ≠ 0), fun h => by simpa using List.mem_takeWhile_imp h⟩

/-- `snprintf(out, cap, "%s", s)` for `cap > 0`: the first `cap - 1` bytes. -/
def snprintf (cap : Nat) (s : CString) : CString :=
  ⟨s.bytes.take (cap - 1), fun h => s.noNul (List.mem_of_mem_take h)⟩

/-- `snprintf(out + n, cap - n, "%s", s)` into a buffer of `cap` bytes that holds `out`: the bytes
from `n` on are overwritten, and nothing is where no room is left; behind the terminator of `out` a
write changes no string. -/
def snprintfAt (out : CString) (n cap : Nat) (s : CString) : CString :=
  if cap ≤ n ∨ out.strlen < n then out else (out.snprintf (n + 1)).append (s.snprintf (cap - n))

/-- `strstr(s, t) != NULL`. -/
def strstr (s t : CString) : Bool := decide (t.bytes <:+: s.bytes)

/-- Bytes behind the terminator are not part of the string. -/
@[simp] theorem ofBuf_bytes_nul (s : CString) (rest : List UInt8) :
    ofBuf (s.bytes ++ 0 :: rest) = s := by
  apply ext
  have h : ∀ x ∈ s.bytes, decide (x ≠ 0) = true := by
    intro x hx
    simpa using fun h0 : x = 0 => s.noNul (h0 ▸ hx)
  show (s.bytes ++ 0 :: rest).takeWhile (· ≠ 0) = s.bytes
  rw [List.takeWhile_append_of_pos h]
  simp

/-- The bytes of a string, read as a string. -/
@[simp] theorem ofBuf_bytes (s : CString) : ofBuf s.bytes = s := by
  apply ext
  refine List.takeWhile_eq_self_iff.2 fun x hx => ?_
  simpa using fun h0 : x = 0 => s.noNul (h0 ▸ hx)

@[simp] theorem append_bytes (s t : CString) : (s.append t).bytes = s.bytes ++ t.bytes := rfl

@[simp] theorem concat_bytes (ss : List CString) : (concat ss).bytes = ss.flatMap bytes := by
  induction ss with
  | nil => rfl
  | cons s ss ih => rw [concat, append_bytes, ih, List.flatMap_cons]

@[simp] theorem strlen_append (s t : CString) : (s.append t).strlen = s.strlen + t.strlen :=
  List.length_append

@[simp] theorem snprintf_bytes (cap : Nat) (s : CString) :
    (s.snprintf cap).bytes = s.bytes.take (cap - 1) := rfl

/-- A copy into a buffer with room for the terminator is the string itself. -/
theorem snprintf_of_lt {cap : Nat} {s : CString} (h : s.strlen < cap) : s.snprintf cap = s :=
  ext (List.take_of_length_le (by unfold strlen at h; omega))

/-- Printing at the end of a string, with room for it, puts one string behind the other. -/
theorem snprintfAt_of_lt {cap : Nat} {out s : CString} (h : out.strlen + s.strlen < cap) :
    out.snprintfAt out.strlen cap s = out.append s := by
  rw [snprintfAt, if_neg (by omega), snprintf_of_lt (Nat.lt_succ_self _),
    snprintf_of_lt (by omega)]

/-- A copy always leaves room for the terminator. -/
theorem strlen_snprintf_lt {cap : Nat} (s : CString) (h : 0 < cap) :
    (s.snprintf cap).strlen < cap := by
  simp only [strlen, snprintf_bytes, List.length_take]
  omega

end CString

end Lib
