import Mathlib.Data.Finset.Basic
import Mathlib.Data.Finset.Lattice.Lemmas
import TicketConnect.Lib.Runs

/-!
# Resources of a program

A program acquires, uses and releases resources (descriptors, allocations, references). `Own.step`
keeps the set of those it holds and fails on misuse: a resource that is acquired while it is held,
or used or released while it is not. `Owns P evs Q` says that the events lead from the resources `P`
to the resources `Q` without misuse, whatever else is held. The rules are those of a logic of
ownership: one for each kind of event, sequence, and frame.
-/

namespace Lib

/-- An event of a resource. -/
inductive Own (ρ : Type*) where
  | acquire (r : ρ)
  | use (r : ρ)
  | release (r : ρ)

/-- The resource of an event. -/
def Own.res {ρ : Type*} : Own ρ → ρ
  | .acquire r | .use r | .release r => r

section Owned
variable {ρ : Type*} [DecidableEq ρ] {P Q R : Finset ρ} {evs evs' : List (Own ρ)} {r : ρ}

/-- The resources held after an event, `none` on misuse. -/
def Own.step (held : Finset ρ) : Own ρ → Option (Finset ρ)
  | .acquire r => if r ∈ held then none else some (insert r held)
  | .use r => if r ∈ held then some held else none
  | .release r => if r ∈ held then some (held.erase r) else none

/-- The events lead from `P` to `Q` without misuse, beside any resources they do not name. -/
def Owns (P : Finset ρ) (evs : List (Own ρ)) (Q : Finset ρ) : Prop :=
  ∀ F : Finset ρ, (∀ e ∈ evs, e.res ∉ F) → run Own.step (P ∪ F) evs = some (Q ∪ F)

namespace Owns

theorem nil : Owns P [] P := fun _ _ => rfl

/-- Sequence. -/
theorem append (h : Owns P evs Q) (h' : Owns Q evs' R) : Owns P (evs ++ evs') R := by
  intro F hF
  have h₁ := h F fun e he => hF e (List.mem_append_left _ he)
  have h₂ := h' F fun e he => hF e (List.mem_append_right _ he)
  rw [run_append h₁, h₂]

theorem cons {e : Own ρ} (h : Owns P [e] Q) (h' : Owns Q evs R) : Owns P (e :: evs) R :=
  append h h'

/-- Frame: what the events do not name stays. -/
theorem frame (h : Owns P evs Q) (hR : ∀ e ∈ evs, e.res ∉ R) : Owns (P ∪ R) evs (Q ∪ R) := by
  intro F hF
  rw [Finset.union_assoc, Finset.union_assoc]
  refine h (R ∪ F) fun e he hmem => ?_
  exact (Finset.mem_union.1 hmem).elim (hR e he) (hF e he)

/-- A single event. -/
theorem single {e : Own ρ}
    (h : ∀ F : Finset ρ, e.res ∉ F → Own.step (P ∪ F) e = some (Q ∪ F)) : Owns P [e] Q := by
  intro F hF
  have hstep := h F (hF e (.head _))
  simp [run, hstep]

theorem acquire (hr : r ∉ P) : Owns P [.acquire r] (insert r P) := by
  refine single fun F hF => ?_
  have hmem : r ∉ P ∪ F := fun h => (Finset.mem_union.1 h).elim hr hF
  rw [Own.step, if_neg hmem, Finset.insert_union]

theorem use (hr : r ∈ P) : Owns P [.use r] P := by
  refine single fun F _ => ?_
  rw [Own.step, if_pos (Finset.mem_union_left F hr)]

theorem release (hr : r ∉ P) : Owns (insert r P) [.release r] P := by
  refine single fun F hF => ?_
  have hmem : r ∉ P ∪ F := fun h => (Finset.mem_union.1 h).elim hr hF
  rw [Own.step, Finset.insert_union, if_pos (Finset.mem_insert_self _ _), Finset.erase_insert hmem]

end Owns

end Owned

end Lib
