import Mathlib.Data.BitVec
import Mathlib.Algebra.Ring.Nat
import Mathlib.Data.List.GetD

/-!
# Reading memory

A computation that reads a memory, with the list of the addresses it reads. `Within P x` says that
every address that `x` reads has the property `P`; it goes through the computation one read at a
time. Over these: little-endian numbers, the comparison of two C strings, and the loop that ends at
its first hit.
-/

namespace Lib

/-- A value, and the addresses that were read for it. -/
structure Reads (A : Type) (α : Type) where
  val : α
  log : List A

namespace Reads

section Monad
variable {A α β : Type}

instance : Monad (Reads A) where
  pure a := ⟨a, []⟩
  bind x f := ⟨(f x.val).val, x.log ++ (f x.val).log⟩

@[simp] theorem val_pure (a : α) : (pure a : Reads A α).val = a := rfl

@[simp] theorem val_bind (x : Reads A α) (f : α → Reads A β) :
    (x >>= f).val = (f x.val).val := rfl

@[simp] theorem val_ite (c : Prop) [Decidable c] (x y : Reads A α) :
    (if c then x else y).val = if c then x.val else y.val :=
  apply_ite val c x y

/-- Every address read has the property. -/
def Within (P : A → Prop) (x : Reads A α) : Prop := ∀ a ∈ x.log, P a

variable {P : A → Prop}

@[simp] theorem within_pure (a : α) : Within P (pure a : Reads A α) := fun _ h => nomatch h

@[simp] theorem within_bind {x : Reads A α} {f : α → Reads A β} :
    Within P (x >>= f) ↔ Within P x ∧ Within P (f x.val) :=
  List.forall_mem_append

@[simp] theorem within_ite {c : Prop} [Decidable c] {x y : Reads A α} :
    Within P (if c then x else y) ↔ (c → Within P x) ∧ (¬ c → Within P y) := by
  split <;> simp [*]

end Monad

/-! ## Memory -/

section Mem
variable {w : Nat} (mem : BitVec w → UInt8)

/-- One byte. -/
def byte (a : BitVec w) : Reads (BitVec w) UInt8 := ⟨mem a, [a]⟩

@[simp] theorem val_byte (a : BitVec w) : (byte mem a).val = mem a := rfl

@[simp] theorem within_byte {P : BitVec w → Prop} {a : BitVec w} :
    Within P (byte mem a) ↔ P a :=
  List.forall_mem_singleton

/-- A number of `n` bytes, the low byte first. -/
def load (a : BitVec w) : Nat → Reads (BitVec w) Nat
  | 0 => pure 0
  | n + 1 => do
    let lo ← byte mem a
    let hi ← load (a + 1#w) n
    pure (lo.toNat + 256 * hi)

/-- The next address, where it does not wrap. -/
theorem toNat_add_one {a : BitVec w} (h : a.toNat + 1 < 2 ^ w) :
    (a + 1#w).toNat = a.toNat + 1 := by
  have hone : (1#w).toNat = 1 := by
    rw [BitVec.toNat_ofNat]
    exact Nat.mod_eq_of_lt (by omega)
  rw [BitVec.toNat_add_of_lt (by omega), hone]

/-- **A number lies below a bound exactly when its last byte does.** The addresses wrap, so the
bound has to leave an address out. -/
theorem within_load {size n : Nat} {a : BitVec w} (hsize : size < 2 ^ w) (hn : 0 < n) :
    Within (fun x => x.toNat < size) (load mem a n) ↔ a.toNat + n ≤ size := by
  induction n generalizing a with
  | zero => cases hn
  | succ n ih =>
    simp only [load, within_bind, within_byte, within_pure, and_true]
    rcases Nat.eq_zero_or_pos n with rfl | hpos
    · simp only [load, within_pure, and_true]
      omega
    rw [ih hpos]
    constructor
    · rintro ⟨ha, h⟩
      rw [toNat_add_one (by omega)] at h
      omega
    · intro h
      rw [toNat_add_one (by omega)]
      omega

/-! ## Strings -/

/-- `strcmp(a, s) == 0`, byte by byte up to the first difference. -/
def strcmp (a : BitVec w) : List UInt8 → Reads (BitVec w) Bool
  | [] => do
    let b ← byte mem a
    pure (decide (b = 0))
  | c :: cs => do
    let b ← byte mem a
    if b = c then strcmp (a + 1#w) cs else pure false

/-- The bytes from `a` on are those of the string and its terminator. -/
def StringAt (a : BitVec w) (s : List UInt8) : Prop :=
  ∀ k ≤ s.length, mem (a + BitVec.ofNat w k) = s.getD k 0

instance (a : BitVec w) (s : List UInt8) : Decidable (StringAt mem a s) :=
  inferInstanceAs (Decidable (∀ k ≤ s.length, _))

variable {mem}

/-- The address of a later byte, from the next one. -/
theorem add_one_add_ofNat (a : BitVec w) (k : Nat) :
    a + 1#w + BitVec.ofNat w k = a + BitVec.ofNat w (k + 1) := by
  rw [Nat.add_comm k 1, BitVec.ofNat_add, BitVec.add_assoc]

@[simp] theorem add_ofNat_zero (a : BitVec w) : a + BitVec.ofNat w 0 = a := BitVec.add_zero a

/-- The first byte of a string. -/
theorem StringAt.head {a : BitVec w} {s : List UInt8} (h : StringAt mem a s) :
    mem a = s.getD 0 0 := by
  simpa using h 0 (Nat.zero_le _)

/-- The string behind the first byte. -/
theorem StringAt.tail {a : BitVec w} {c : UInt8} {s : List UInt8} (h : StringAt mem a (c :: s)) :
    StringAt mem (a + 1#w) s := by
  intro k hk
  rw [add_one_add_ofNat]
  exact h (k + 1) (Nat.succ_le_succ hk)

/-- The string at an address, by its first byte. -/
theorem stringAt_cons {a : BitVec w} {c : UInt8} {s : List UInt8} :
    StringAt mem a (c :: s) ↔ mem a = c ∧ StringAt mem (a + 1#w) s := by
  constructor
  · intro h
    exact ⟨h.head, h.tail⟩
  · rintro ⟨hhead, htail⟩ k hk
    cases k with
    | zero => simpa using hhead
    | succ k =>
      rw [← add_one_add_ofNat]
      exact htail k (Nat.le_of_succ_le_succ hk)

/-- **`strcmp` finds out whether the string is there.** -/
theorem strcmp_eq_true {a : BitVec w} {s : List UInt8} :
    (strcmp mem a s).val = true ↔ StringAt mem a s := by
  induction s generalizing a with
  | nil =>
    change decide (mem a = 0) = true ↔ _
    simp [StringAt]
  | cons c s ih =>
    rw [stringAt_cons, ← ih]
    change (if mem a = c then strcmp mem (a + 1#w) s else pure false).val = true ↔ _
    split <;> simp [*]

/-- There is one string at an address. -/
theorem StringAt.unique {a : BitVec w} {s t : List UInt8} (hs : StringAt mem a s)
    (ht : StringAt mem a t) (hs0 : 0 ∉ s) (ht0 : 0 ∉ t) : s = t := by
  induction s generalizing a t with
  | nil =>
    cases t with
    | nil => rfl
    | cons d t =>
      have h : (0 : UInt8) = d := hs.head.symm.trans ht.head
      exact absurd List.mem_cons_self (h ▸ ht0)
  | cons c s ih =>
    cases t with
    | nil =>
      have h : (0 : UInt8) = c := ht.head.symm.trans hs.head
      exact absurd List.mem_cons_self (h ▸ hs0)
    | cons d t =>
      obtain ⟨hc, hs⟩ := stringAt_cons.1 hs
      obtain ⟨hd, ht⟩ := stringAt_cons.1 ht
      rw [← hc, ← hd, ih hs ht (fun h => hs0 (List.mem_cons_of_mem _ h))
        (fun h => ht0 (List.mem_cons_of_mem _ h))]

/-- `strcmp` reads up to the first byte that differs. -/
theorem within_strcmp {P : BitVec w → Prop} {a : BitVec w} {s : List UInt8} :
    Within P (strcmp mem a s) ↔
      ∀ k ≤ s.length, (∀ j < k, mem (a + BitVec.ofNat w j) = s.getD j 0) →
        P (a + BitVec.ofNat w k) := by
  induction s generalizing a with
  | nil => simp [strcmp]
  | cons c s ih =>
    simp only [strcmp, within_bind, within_byte, within_ite, within_pure, implies_true, and_true]
    simp only [val_byte, ih, add_one_add_ofNat]
    constructor
    · rintro ⟨hhead, htail⟩ k hk hagree
      cases k with
      | zero => simpa using hhead
      | succ k =>
        refine htail (by simpa using hagree 0 (Nat.succ_pos k)) k (Nat.le_of_succ_le_succ hk) ?_
        intro j hj
        exact hagree (j + 1) (Nat.succ_lt_succ hj)
    · intro h
      refine ⟨by simpa using h 0 (Nat.zero_le _) (by simp), fun hc k hk hagree => ?_⟩
      refine h (k + 1) (Nat.succ_le_succ hk) fun j hj => ?_
      cases j with
      | zero => simpa using hc
      | succ j => exact hagree j (Nat.lt_of_succ_lt_succ hj)

/-- Over the string that is there, `strcmp` stays in front of its end. -/
theorem StringAt.within_strcmp {P : BitVec w → Prop} {a : BitVec w} {s t : List UInt8}
    (h : StringAt mem a t) (hs : 0 ∉ s) (hP : ∀ k ≤ t.length, P (a + BitVec.ofNat w k)) :
    Within P (strcmp mem a s) := by
  refine Reads.within_strcmp.2 fun k hk hagree => hP k (Nat.le_of_not_lt fun hlt => ?_)
  -- the terminator would be a byte of the other string
  have hnul := (hagree _ hlt).symm.trans (h _ le_rfl)
  rw [List.getD_eq_default _ _ le_rfl, List.getD_eq_getElem s 0 (hlt.trans_le hk)] at hnul
  exact hs (hnul ▸ List.getElem_mem _)

end Mem

/-! ## Loops -/

section Loop
variable {A α β : Type}

/-- The loop over the indices below `n` that ends at the first one for which its body gives
something. -/
def first (body : Nat → Reads A (Option β)) : Nat → Reads A (Option β)
  | 0 => pure none
  | n + 1 => do
    match ← body 0 with
    | some b => pure (some b)
    | none => first (fun i => body (i + 1)) n

variable {body : Nat → Reads A (Option β)} {n : Nat}

/-- What a round of the loop gives. -/
theorem val_first_succ :
    (first body (n + 1)).val = (body 0).val.or (first (fun i => body (i + 1)) n).val := by
  simp only [first, val_bind]
  cases (body 0).val <;> rfl

/-- Where a round of the loop reads. -/
theorem within_first_succ {P : A → Prop} :
    Within P (first body (n + 1)) ↔
      Within P (body 0) ∧ ((body 0).val = none → Within P (first (fun i => body (i + 1)) n)) := by
  simp only [first, within_bind]
  cases (body 0).val <;> simp

/-- **The loop finds what its first hit gives.** -/
theorem first_eq_some {b : β} :
    (first body n).val = some b ↔
      ∃ k < n, (body k).val = some b ∧ ∀ j < k, (body j).val = none := by
  induction n generalizing body with
  | zero => simp [first]
  | succ n ih =>
    rw [val_first_succ, Option.or_eq_some_iff, ih]
    constructor
    · rintro (h | ⟨hnone, k, hk, hhit, hmiss⟩)
      · exact ⟨0, Nat.succ_pos n, h, by simp⟩
      · exact ⟨k + 1, Nat.succ_lt_succ hk, hhit, Nat.forall_lt_succ_left.2 ⟨hnone, hmiss⟩⟩
    · rintro ⟨k, hk, hhit, hmiss⟩
      cases k with
      | zero => exact .inl hhit
      | succ k =>
        obtain ⟨hnone, hmiss⟩ := Nat.forall_lt_succ_left.1 hmiss
        exact .inr ⟨hnone, k, Nat.lt_of_succ_lt_succ hk, hhit, hmiss⟩

/-- The loop over the elements of a list, to the first one of a kind. -/
theorem val_first_list {l : List α} {p : α → Bool} {f : α → β}
    (h : ∀ k (hk : k < l.length), (body k).val = if p l[k] then some (f l[k]) else none) :
    (first body l.length).val = (l.find? p).map f := by
  induction l generalizing body with
  | nil => rfl
  | cons a l ih =>
    have hhead : (body 0).val = if p a then some (f a) else none := h 0 (Nat.succ_pos _)
    have htail := ih fun k hk => h (k + 1) (Nat.succ_lt_succ hk)
    rw [List.length_cons, val_first_succ, List.find?_cons, hhead, htail]
    cases p a <;> rfl

/-- **The loop reads what its bodies read, up to the first hit.** -/
theorem within_first {P : A → Prop} :
    Within P (first body n) ↔
      ∀ k < n, (∀ j < k, (body j).val = none) → Within P (body k) := by
  induction n generalizing body with
  | zero => simp [first]
  | succ n ih =>
    rw [within_first_succ, ih, Nat.forall_lt_succ_left]
    constructor
    · rintro ⟨hhead, htail⟩
      refine ⟨fun _ => hhead, fun k hk hmiss => ?_⟩
      obtain ⟨hnone, hmiss⟩ := Nat.forall_lt_succ_left.1 hmiss
      exact htail hnone k hk hmiss
    · rintro ⟨hhead, htail⟩
      refine ⟨hhead (by simp), fun hnone k hk hmiss => ?_⟩
      exact htail k hk (Nat.forall_lt_succ_left.2 ⟨hnone, hmiss⟩)

end Loop

end Reads

end Lib
