import Mathlib.Data.List.GetD

/-!
# In-place compaction of an array prefix

The loop that drops elements of an array prefix in place: a read index runs over the prefix, an
element to keep is copied down to the write index, an element to drop is blanked where it stands.
The copied-from slot is not cleared, so the slots behind the write index are left with stale
copies. `compact_done` says what the loop leaves: the kept elements, in order, in the slots below
the write index, and the dropped ones, each once.
-/

namespace Lib

section Compact
variable {α : Type*}

/-- The state of the loop: the array, the write index, and the dropped elements in order. -/
structure Sweep (α : Type*) where
  array : List α
  w : Nat
  out : List α

/-- The loop body at read index `r`. -/
def Sweep.step (keep : α → Bool) (blank : α) (s : Sweep α) (r : Nat) : Sweep α :=
  let x := s.array.getD r blank
  if keep x then
    { s with array := if s.w ≠ r then s.array.set s.w x else s.array, w := s.w + 1 }
  else
    { s with array := s.array.set r blank, out := s.out ++ [x] }

/-- `n` rounds of the loop from read index `r` on. -/
def Sweep.loop (keep : α → Bool) (blank : α) : Nat → Nat → Sweep α → Sweep α
  | 0, _, s => s
  | n + 1, r, s => Sweep.loop keep blank n (r + 1) (s.step keep blank r)

/-- The whole loop over the first `count` elements. -/
def compact (keep : α → Bool) (blank : α) (count : Nat) (array : List α) : Sweep α :=
  Sweep.loop keep blank count 0 ⟨array, 0, []⟩

variable {keep : α → Bool}

/-- What the loop has done when its read index is `r`: the elements read so far are filtered into
the slots below `w`, the dropped ones are in `out`, and from `r` on the array is untouched. -/
structure Sweep.Done (keep : α → Bool) (array : List α) (r : Nat) (s : Sweep α) : Prop where
  length : s.array.length = array.length
  le : s.w ≤ r
  front : s.array.take s.w = (array.take r).filter keep
  out : s.out = (array.take r).filter fun x => !keep x
  rest : s.array.drop r = array.drop r

/-- Where the tail from the read index on is untouched, the element read is the array's own, and it
is the one the elements read so far grow by. -/
theorem Sweep.Done.read {array : List α} {r : Nat} {s : Sweep α} (h : s.Done keep array r)
    (hr : r < array.length) (blank : α) :
    ∃ x, s.array.getD r blank = x ∧ s.array[r]? = some x ∧
      array.take (r + 1) = array.take r ++ [x] := by
  refine ⟨array[r], ?_, ?_, List.take_succ_eq_append_getElem hr⟩
  all_goals
    have hx := congrArg (·[0]?) h.rest
    simp only [List.getElem?_drop, Nat.add_zero, List.getElem?_eq_getElem hr] at hx
  · rw [List.getD_eq_getElem?_getD, hx]; rfl
  · exact hx

/-- The loop body moves the read index on. -/
theorem Sweep.Done.step {array : List α} {r : Nat} {s : Sweep α} (h : s.Done keep array r)
    (hr : r < array.length) (blank : α) : (s.step keep blank r).Done keep array (r + 1) := by
  obtain ⟨x, hx, hget, hsucc⟩ := h.read hr blank
  have hlen := h.length
  have hle := h.le
  have hrest : s.array.drop (r + 1) = array.drop (r + 1) := by
    rw [← List.drop_drop, ← List.drop_drop, h.rest]
  unfold Sweep.step
  rw [hx]
  by_cases hk : keep x = true
  · -- the slot at `w` now holds the element: by the copy, or because `w` is the read index
    have hfront : (if s.w ≠ r then s.array.set s.w x else s.array).take (s.w + 1)
        = s.array.take s.w ++ [x] := by
      split
      · rw [List.take_succ_eq_append_getElem (by simp; omega), List.take_set_of_le (Nat.le_refl _)]
        simp
      · next hw =>
        have hw : s.w = r := by simpa using hw
        rw [hw, List.take_add_one, hget]
        rfl
    rw [if_pos hk]
    refine ⟨?_, Nat.succ_le_succ hle, ?_, ?_, ?_⟩
    · dsimp only; split <;> simp [hlen]
    · dsimp only; rw [hfront, h.front, hsucc]; simp [List.filter_append, hk]
    · simp [h.out, hsucc, List.filter_append, hk]
    · dsimp only
      split
      · rw [List.drop_set_of_lt (by omega), hrest]
      · exact hrest
  · have hk : keep x = false := by simpa using hk
    rw [if_neg (by simp [hk])]
    refine ⟨by simp [hlen], Nat.le_succ_of_le hle, ?_, ?_, ?_⟩
    · simp [List.take_set_of_le hle, h.front, hsucc, List.filter_append, hk]
    · simp [h.out, hsucc, List.filter_append, hk]
    · simp [List.drop_set_of_lt, hrest]

/-- The loop runs to the end of the prefix. -/
theorem Sweep.Done.loop {array : List α} (blank : α) : ∀ {n r : Nat} {s : Sweep α},
    s.Done keep array r → r + n ≤ array.length →
      (Sweep.loop keep blank n r s).Done keep array (r + n)
  | 0, _, _, h, _ => h
  | n + 1, r, s, h, hn => by
    have := Sweep.Done.loop blank (n := n) (h.step (by omega) blank) (by omega)
    rwa [show r + 1 + n = r + (n + 1) by omega] at this

/-- What the whole loop has done. -/
theorem compact_done (keep : α → Bool) (blank : α) {array : List α} {count : Nat}
    (h : count ≤ array.length) :
    (compact keep blank count array).Done keep array count := by
  have h0 : Sweep.Done keep array 0 ⟨array, 0, []⟩ := ⟨rfl, Nat.le_refl _, by simp, by simp, rfl⟩
  simpa [compact] using Sweep.Done.loop blank (n := count) h0 (by omega)

end Compact

end Lib
