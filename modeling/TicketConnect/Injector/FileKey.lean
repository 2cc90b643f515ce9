import TicketConnect.Injector.Scan
import TicketConnect.Lib.Digits

/-!
# The key of a file

`file_key` (`injector/main.c`) writes the text by which `scan` tells one libssl file from another:
the file handle, in hex behind its type, or device and inode where the file system gives no handle.
`FileId` is what it identifies the file by and `FileId.text` the whole text of it.
`fileKey_identifies` says that the text always fits the 300 bytes of a key and that two files have
the same key only if they are identified by the same.
-/

namespace TicketConnect

open Lib

/-! ## `file_key` -/

/-- `sizeof(h.pad)`. -/
def padSize : Nat := 128

/-- The local `h` of `file_key` after `name_to_handle_at` has filled it: at most the bytes that it
was offered are in use. -/
structure FileHandle where
  handleType : BitVec 32
  handleBytes : Nat
  pad : List UInt8
  pad_length : pad.length = padSize
  handleBytes_le : handleBytes ≤ padSize

/-- The fields of `struct stat` that `file_key` reads. -/
structure Stat where
  dev : BitVec 64
  ino : BitVec 64
deriving DecidableEq

/-- The loop of `file_key` from byte `i` on, with the text so far and the count `n` of
`snprintf`. -/
def handleLoop (handleBytes cap : Nat) : List UInt8 → (i n : Nat) → (out : CString) → CString
  | [], _, _, out => out
  | b :: pad, i, n, out =>
    if i < handleBytes ∧ (n : Int) < (cap : Int) - 3 then
      handleLoop handleBytes cap pad (i + 1) (n + (CString.hex2 b).strlen)
        (out.snprintfAt n cap (CString.hex2 b))
    else out

/-- `file_key`, where `handle` is what `name_to_handle_at` gives for the path. -/
def fileKey (handle : Option FileHandle) (st : Stat) (cap : Nat) : CString :=
  match handle with
  | some h =>
    let head := ((CString.lit "h").append (.dec h.handleType.toInt)).append (.lit ":")
    handleLoop h.handleBytes cap h.pad 0 head.strlen (head.snprintf cap)
  | none =>
    ((((CString.lit "i").append (.hex st.dev.toNat)).append (.lit ":")).append
      (.hex st.ino.toNat)).snprintf cap

/-! ## What a key stands for -/

/-- What a file is identified by: the type and the bytes of its handle, or device and inode. -/
inductive FileId where
  | handle (type : BitVec 32) (bytes : List UInt8)
  | inode (st : Stat)
deriving DecidableEq

/-- What `file_key` identifies a file by. -/
def fileId (handle : Option FileHandle) (st : Stat) : FileId :=
  match handle with
  | some h => .handle h.handleType (h.pad.take h.handleBytes)
  | none => .inode st

/-- The whole text of an identification. -/
def FileId.text : FileId → List UInt8
  | .handle type bytes =>
    104 :: ((CString.dec type.toInt).bytes ++ 58 :: hexBytes bytes)
  | .inode st => 105 :: (digits 16 st.dev.toNat ++ 58 :: digits 16 st.ino.toNat)

/-! ## The text is complete -/

@[simp] theorem strlen_hex2 (b : UInt8) : (CString.hex2 b).strlen = 2 := by
  simp [CString.strlen, CString.hex2_bytes]

/-- With room for two digits of each byte in use, the loop prints every one of them. -/
theorem handleLoop_bytes {handleBytes cap : Nat} (pad : List UInt8) (i : Nat) (out : CString)
    (hroom : out.strlen + 2 * (handleBytes - i) + 1 < cap) :
    (handleLoop handleBytes cap pad i out.strlen out).bytes =
      out.bytes ++ hexBytes (pad.take (handleBytes - i)) := by
  induction pad generalizing i out with
  | nil => simp [handleLoop]
  | cons b pad ih =>
    rw [handleLoop]
    split_ifs with h
    · have hleft : handleBytes - i = handleBytes - (i + 1) + 1 := by omega
      have hfit : out.snprintfAt out.strlen cap (CString.hex2 b) = out.append (CString.hex2 b) :=
        CString.snprintfAt_of_lt (by rw [strlen_hex2]; omega)
      rw [hfit, ← CString.strlen_append, ih (i + 1) _ (by simp; omega), hleft]
      simp [CString.hex2_bytes]
    · have hdone : handleBytes - i = 0 := by omega
      simp [hdone]

/-- A number of 32 bits has at most ten digits and a sign. -/
theorem strlen_dec_le (x : BitVec 32) : (CString.dec x.toInt).strlen ≤ 11 := by
  have hlt := x.toInt_lt
  have hle := x.le_toInt
  exact CString.strlen_dec_le (by omega) (by omega)

/-- A number of 64 bits has at most sixteen hex digits. -/
theorem strlen_hex_le (x : BitVec 64) : (CString.hex x.toNat).strlen ≤ 16 :=
  length_digits_le (by omega) (by omega) (by have := x.isLt; omega)

/-- The key of a file is the whole text of what identifies it. -/
theorem fileKey_bytes (handle : Option FileHandle) (st : Stat) :
    (fileKey handle st keyCap).bytes = (fileId handle st).text := by
  have hlit : (CString.lit "h").bytes = [104] ∧ (CString.lit "i").bytes = [105] ∧
      (CString.lit ":").bytes = [58] := by decide +kernel
  obtain ⟨hh, hi, hcolon⟩ := hlit
  have hlen : (CString.lit "h").strlen = 1 ∧ (CString.lit "i").strlen = 1 ∧
      (CString.lit ":").strlen = 1 := by simp [CString.strlen, hh, hi, hcolon]
  cases handle with
  | some h =>
    have htype := strlen_dec_le h.handleType
    have hbytes := h.handleBytes_le
    simp only [fileKey, fileId]
    generalize hhead : ((CString.lit "h").append (.dec h.handleType.toInt)).append (.lit ":") = head
    have hheadLen : head.strlen ≤ 13 := by
      simp only [← hhead, CString.strlen_append]
      omega
    rw [CString.snprintf_of_lt (by unfold keyCap; omega),
      handleLoop_bytes _ _ _ (by unfold keyCap padSize at *; omega), ← hhead]
    simp [FileId.text, hh, hcolon]
  | none =>
    have hdev := strlen_hex_le st.dev
    have hino := strlen_hex_le st.ino
    simp only [fileKey, fileId]
    rw [CString.snprintf_of_lt (by simp only [CString.strlen_append, keyCap]; omega)]
    simp [FileId.text, hi, hcolon, CString.hex]

/-- A key fits the field `key` of the table. -/
theorem strlen_fileKey_lt (handle : Option FileHandle) (st : Stat) :
    (fileKey handle st keyCap).strlen < keyCap := by
  rw [CString.strlen, fileKey_bytes]
  cases handle with
  | some h =>
    have htype := strlen_dec_le h.handleType
    have hbytes := h.handleBytes_le
    simp only [CString.strlen, fileId, FileId.text, List.length_cons, List.length_append,
      length_hexBytes, List.length_take, keyCap, padSize] at *
    omega
  | none =>
    have hdev := strlen_hex_le st.dev
    have hino := strlen_hex_le st.ino
    simp only [CString.strlen, CString.hex, fileId, FileId.text, List.length_cons,
      List.length_append, keyCap] at *
    omega

/-! ## Different files have different keys -/

/-- The text determines what it identifies. -/
theorem FileId.text_injective : Function.Injective FileId.text := by
  intro x y h
  cases x with
  | handle type bytes =>
    cases y with
    | handle type' bytes' =>
      obtain ⟨htype, -, hbytes⟩ := (List.append_cons_inj_of_notMem
        (CString.notMem_dec (by decide) (by decide) _) (notMem_hexBytes (by decide))).1
        (List.cons.inj h).2
      rw [hexBytes_injective hbytes,
        BitVec.eq_of_toInt_eq (CString.dec_injective (CString.ext htype))]
    | inode st => cases (List.cons.inj h).1
  | inode st =>
    cases y with
    | handle type bytes => cases (List.cons.inj h).1
    | inode st' =>
      have hcolon : ∀ n, 58 ∉ digits 16 n := fun n =>
        notMem_digits (by omega) (by omega) (by decide)
      have hinj := digits_injective (b := 16) (by omega) (by omega)
      obtain ⟨dev, ino⟩ := st
      obtain ⟨dev', ino'⟩ := st'
      obtain ⟨hdev, -, hino⟩ := (List.append_cons_inj_of_notMem (hcolon _) (hcolon _)).1
        (List.cons.inj h).2
      cases BitVec.eq_of_toNat_eq (hinj hdev)
      cases BitVec.eq_of_toNat_eq (hinj hino)
      rfl

/-- **File keys identify files.** The key that `file_key` writes into 300 bytes is the whole text:
the type of the handle and two hex digits for each of its bytes, or device and inode. Two keys are
equal if and only if the files are identified by the same handle or by the same device and inode. -/
theorem fileKey_identifies :
    (∀ handle st, (fileKey handle st keyCap).bytes = (fileId handle st).text) ∧
      ∀ handle st handle' st', fileKey handle st keyCap = fileKey handle' st' keyCap ↔
        fileId handle st = fileId handle' st' := by
  refine ⟨fileKey_bytes, fun handle st handle' st' => ⟨fun h => ?_, fun h => ?_⟩⟩
  · apply FileId.text_injective
    rw [← fileKey_bytes, ← fileKey_bytes, h]
  · apply CString.ext
    rw [fileKey_bytes, fileKey_bytes, h]

end TicketConnect
