import Mathlib.Algebra.Ring.Int.Defs
import TicketConnect.Lib.Scanf

/-!
# Command lines

A program goes over its arguments from left to right. An argument is an option that stands alone, an
option that takes the next argument as its value, or it is refused (`ArgKind`); `parseArgs` is that
loop. `parseArgs_eq_some_iff` says which command lines it accepts, and with which result: those that
are a sequence of such items, and then each item has its effect, in order. `atoi` is the value of a
number on the command line.
-/

namespace Lib

/-! ## Options -/

section Args
variable {ω σ : Type*}

/-- What an argument is to a program with settings `σ`. -/
inductive ArgKind (ω σ : Type*) where
  | alone (set : σ → σ)
  | valued (set : ω → σ → σ)
  | refused

/-- The loop over the arguments: `none` when one is refused, or when the value of the last one is
missing. -/
def parseArgs (kind : ω → ArgKind ω σ) : σ → List ω → Option σ
  | s, [] => some s
  | s, w :: ws =>
    match kind w with
    | .alone set => parseArgs kind (set s) ws
    | .valued set =>
      match ws with
      | [] => none
      | v :: ws => parseArgs kind (set v s) ws
    | .refused => none

/-- What every option keeps, the loop keeps. -/
theorem parseArgs_inv {kind : ω → ArgKind ω σ} {I : σ → Prop}
    (halone : ∀ {w set s}, kind w = .alone set → I s → I (set s))
    (hvalued : ∀ {w set s} (v : ω), kind w = .valued set → I s → I (set v s)) {args : List ω}
    {s s' : σ} (hs : I s) (h : parseArgs kind s args = some s') : I s' := by
  fun_induction parseArgs kind s args with
  | case1 s =>
    cases h
    exact hs
  | case2 s w ws set hk ih => exact ih (halone hk hs) h
  | case3 => cases h
  | case4 s w set hk v ws ih => exact ih (hvalued v hk hs) h
  | case5 => cases h

/-- The simulation rule: a program that knows all the options of another accepts what it accepts,
and the settings stay related. -/
theorem parseArgs_sim {τ : Type*} {kind : ω → ArgKind ω σ} {kind' : ω → ArgKind ω τ}
    {R : σ → τ → Prop}
    (halone : ∀ {w set}, kind w = .alone set →
      ∃ set', kind' w = .alone set' ∧ ∀ {s t}, R s t → R (set s) (set' t))
    (hvalued : ∀ {w set}, kind w = .valued set →
      ∃ set', kind' w = .valued set' ∧ ∀ (v : ω) {s t}, R s t → R (set v s) (set' v t))
    {args : List ω} {s s' : σ} {t : τ} (hR : R s t) (h : parseArgs kind s args = some s') :
    ∃ t', parseArgs kind' t args = some t' ∧ R s' t' := by
  fun_induction parseArgs kind s args generalizing t with
  | case1 s =>
    cases h
    exact ⟨t, rfl, hR⟩
  | case2 s w ws set hk ih =>
    obtain ⟨set', hk', hset⟩ := halone hk
    obtain ⟨t', hrest, hR'⟩ := ih (hset hR) h
    exact ⟨t', by simp only [parseArgs, hk', hrest], hR'⟩
  | case3 => cases h
  | case4 s w set hk v ws ih =>
    obtain ⟨set', hk', hset⟩ := hvalued hk
    obtain ⟨t', hrest, hR'⟩ := ih (hset v hR) h
    exact ⟨t', by simp only [parseArgs, hk', hrest], hR'⟩
  | case5 => cases h

/-- An option with its value, if it has one. -/
inductive ArgItem (ω : Type*) where
  | alone (w : ω)
  | valued (w v : ω)
deriving DecidableEq

/-- The arguments of an item. -/
def ArgItem.words : ArgItem ω → List ω
  | .alone w => [w]
  | .valued w v => [w, v]

/-- What an item sets, `none` where it is not one of the program's. -/
def ArgItem.effect? (kind : ω → ArgKind ω σ) : ArgItem ω → Option (σ → σ)
  | .alone w => match kind w with
    | .alone set => some set
    | .valued _ | .refused => none
  | .valued w v => match kind w with
    | .valued set => some (set v)
    | .alone _ | .refused => none

/-- The settings after a list of items. -/
def setAll (kind : ω → ArgKind ω σ) (s : σ) (items : List (ArgItem ω)) : Option σ :=
  items.foldlM (fun s item => (item.effect? kind).map (· s)) s

/-- A command line made of items is read as these items. -/
theorem parseArgs_words (kind : ω → ArgKind ω σ) {items : List (ArgItem ω)} {s s' : σ}
    (h : setAll kind s items = some s') :
    parseArgs kind s (items.flatMap ArgItem.words) = some s' := by
  induction items generalizing s with
  | nil => exact h
  | cons item items ih =>
    obtain ⟨s₁, hset, hrest⟩ := Option.bind_eq_some_iff.1 h
    obtain ⟨set, heffect, rfl⟩ := Option.map_eq_some_iff.1 hset
    have hrest := ih hrest
    cases item with
    | alone w =>
      simp only [ArgItem.effect?] at heffect
      split at heffect
      · next hk =>
        cases heffect
        simpa [ArgItem.words, parseArgs, hk] using hrest
      · cases heffect
      · cases heffect
    | valued w v =>
      simp only [ArgItem.effect?] at heffect
      split at heffect
      · next hk =>
        cases heffect
        simpa [ArgItem.words, parseArgs, hk] using hrest
      · cases heffect
      · cases heffect

/-- A command line that is accepted is made of items. -/
theorem items_of_parseArgs (kind : ω → ArgKind ω σ) {args : List ω} {s s' : σ}
    (h : parseArgs kind s args = some s') :
    ∃ items, args = items.flatMap ArgItem.words ∧ setAll kind s items = some s' := by
  fun_induction parseArgs kind s args with
  | case1 s =>
    cases h
    exact ⟨[], rfl, rfl⟩
  | case2 s w ws set hk ih =>
    obtain ⟨items, rfl, hset⟩ := ih h
    refine ⟨.alone w :: items, rfl, Option.bind_eq_some_iff.2 ⟨set s, ?_, hset⟩⟩
    simp [ArgItem.effect?, hk]
  | case3 => cases h
  | case4 s w set hk v ws ih =>
    obtain ⟨items, rfl, hset⟩ := ih h
    refine ⟨.valued w v :: items, rfl, Option.bind_eq_some_iff.2 ⟨set v s, ?_, hset⟩⟩
    simp [ArgItem.effect?, hk]
  | case5 => cases h

end Args

/-! ## What the items set -/

section Items
variable {ω σ β γ : Type*} {kind : ω → ArgKind ω σ} {items : List (ArgItem ω)} {s s' : σ}

/-- The value of an option, where the item is that option. -/
def ArgItem.value? [DecidableEq ω] (w : ω) : ArgItem ω → Option ω
  | .valued w' v => if w' = w then some v else none
  | .alone _ => none

/-- The last value given to an option. -/
def lastValue [DecidableEq ω] (w : ω) (items : List (ArgItem ω)) : Option ω :=
  (items.filterMap (ArgItem.value? w)).getLast?

theorem setAll_cons {item : ArgItem ω} :
    setAll kind s (item :: items) =
      (item.effect? kind).bind fun set => setAll kind (set s) items := by
  unfold setAll
  rw [List.foldlM_cons]
  cases item.effect? kind <;> rfl

/-- The items of an accepted list are those of the program. -/
theorem isSome_effect_of_setAll (h : setAll kind s items = some s') :
    ∀ item ∈ items, (item.effect? kind).isSome = true := by
  induction items generalizing s with
  | nil => exact fun item hitem => nomatch hitem
  | cons item items ih =>
    rw [setAll_cons] at h
    obtain ⟨set, hset, hrest⟩ := Option.bind_eq_some_iff.1 h
    intro item' hitem
    rcases List.mem_cons.1 hitem with rfl | hitem
    · rw [hset]
      rfl
    · exact ih hrest item' hitem

/-- A list of items of the program is accepted. -/
theorem exists_setAll (h : ∀ item ∈ items, (item.effect? kind).isSome = true) (s : σ) :
    ∃ s', setAll kind s items = some s' := by
  induction items generalizing s with
  | nil => exact ⟨s, rfl⟩
  | cons item items ih =>
    obtain ⟨set, hset⟩ := Option.isSome_iff_exists.1 (h item List.mem_cons_self)
    obtain ⟨s', hs'⟩ := ih (fun item' hitem => h item' (List.mem_cons_of_mem _ hitem)) (set s)
    exact ⟨s', by rw [setAll_cons, hset]; exact hs'⟩

/-- **What a command line means.** Where the settings after a list of items are known, a command
line is accepted exactly if it is made of the program's items, and it means what they set. -/
theorem parseArgs_eq_some_iff {meaning : List (ArgItem ω) → σ} {args : List ω}
    (hmeaning : ∀ {items s'}, setAll kind s items = some s' → s' = meaning items) :
    parseArgs kind s args = some s' ↔
      ∃ items, args = items.flatMap ArgItem.words ∧
        (∀ item ∈ items, (item.effect? kind).isSome = true) ∧ s' = meaning items := by
  constructor
  · intro h
    obtain ⟨items, hargs, hset⟩ := items_of_parseArgs kind h
    exact ⟨items, hargs, isSome_effect_of_setAll hset, hmeaning hset⟩
  · rintro ⟨items, rfl, heffect, rfl⟩
    obtain ⟨s', hset⟩ := exists_setAll heffect s
    rw [parseArgs_words kind hset, hmeaning hset]

/-- A setting that each item either sets or keeps has the value of the last item that sets it. -/
theorem setAll_last (f : σ → β) (val : ArgItem ω → Option γ) (g : γ → β)
    (hval : ∀ {item set} (s : σ), item.effect? kind = some set →
      f (set s) = (val item).elim (f s) g)
    (h : setAll kind s items = some s') :
    f s' = (items.filterMap val).getLast?.elim (f s) g := by
  induction items generalizing s with
  | nil =>
    cases h
    rfl
  | cons item items ih =>
    rw [setAll_cons] at h
    obtain ⟨set, hset, hrest⟩ := Option.bind_eq_some_iff.1 h
    rw [ih hrest, hval s hset]
    cases hv : val item with
    | none => rw [List.filterMap_cons_none hv]; rfl
    | some c =>
      rw [List.filterMap_cons_some hv, List.getLast?_cons]
      cases (items.filterMap val).getLast? <;> rfl

/-- A setting that some items turn on is on when one of them is there. -/
theorem setAll_any (f : σ → Bool) (test : ArgItem ω → Bool)
    (htest : ∀ {item set} (s : σ), item.effect? kind = some set → f (set s) = (f s || test item))
    (h : setAll kind s items = some s') : f s' = (f s || items.any test) := by
  induction items generalizing s with
  | nil =>
    cases h
    exact (Bool.or_false _).symm
  | cons item items ih =>
    rw [setAll_cons] at h
    obtain ⟨set, hset, hrest⟩ := Option.bind_eq_some_iff.1 h
    rw [ih hrest, htest s hset, List.any_cons, Bool.or_assoc]

end Items

/-! ## Numbers -/

/-- A byte is a decimal digit. -/
def isDecimal (c : UInt8) : Bool := 48 ≤ c ∧ c ≤ 57

/-- `strtol(s, &end, 10)`: the number, held in the range of a `long`, and what stands behind it;
with no digits, 0 and the whole string. -/
def strtol10 (s : List UInt8) : Int × List UInt8 :=
  let (neg, t) := scanSign (skipSpace s)
  let ds := t.takeWhile isDecimal
  let n : Int := ofDigits 10 0 ds
  if ds = [] then (0, s)
  else (max (-2 ^ 63) (min (2 ^ 63 - 1) (if neg then -n else n)), t.dropWhile isDecimal)

/-- `atoi`: the number as a `long`, cut to an `int`. -/
def atoi (s : CString) : Int := (strtol10 s.bytes).1.bmod (2 ^ 32)

end Lib
