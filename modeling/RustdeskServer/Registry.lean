import Mathlib.Logic.Function.Basic
import Mathlib.Logic.Relation

/-!
# A registry of owned names

What the registration of keys is for, without saying how it is done: a name is
free, or it is bound to an owner with a key, at an origin.  Anybody may claim a
free name.  A bound name may be claimed again by its owner only, and a new key is
taken only from the origin the name is bound at.

## Main definitions

* `Binding`, `Registry` — the bindings in force.
* `Registry.Permits`, `Registry.Step` — the claims that are granted, and one step.

## Main results

* `Registry.Step.key` — a key changes only by its owner's claim from its origin.
* `Registry.steps_owner` — **a name never changes hands.**
-/

/-- What a name is bound to. -/
structure Binding (ω κ π : Type) where
  /-- The owner. -/
  owner : ω
  /-- The key. -/
  key : κ
  /-- The origin. -/
  origin : π

/-- The bindings in force. -/
abbrev Registry (ι ω κ π : Type) := ι → Option (Binding ω κ π)

namespace Registry

variable {ι ω κ π : Type} [DecidableEq ι]

/-- The claim of `i` with the binding `b` is granted. -/
def Permits (R : Registry ι ω κ π) (i : ι) (b : Binding ω κ π) : Prop :=
  ∀ b₀, R i = some b₀ → b.owner = b₀.owner ∧ (b.origin = b₀.origin ∨ b.key = b₀.key)

/-- One step: nothing happens, or a claim is granted. -/
inductive Step (R : Registry ι ω κ π) :
    Option (ι × Binding ω κ π) → Registry ι ω κ π → Prop
  /-- Nothing happens. -/
  | idle : Step R none R
  /-- A claim is granted. -/
  | claim {i : ι} {b : Binding ω κ π} (h : R.Permits i b) :
      Step R (some (i, b)) (Function.update R i (some b))

variable {R R' : Registry ι ω κ π} {a : Option (ι × Binding ω κ π)}

theorem Step.owner (h : Step R a R') {i : ι} {b : Binding ω κ π} (hb : R i = some b) :
    ∃ b', R' i = some b' ∧ b'.owner = b.owner := by
  cases h with
  | idle => exact ⟨b, hb, rfl⟩
  | @claim j c hc =>
    by_cases hij : i = j
    · subst hij
      exact ⟨c, Function.update_self .., (hc b hb).1⟩
    · exact ⟨b, by rw [Function.update_of_ne hij, hb], rfl⟩

/-- A key changes only by its owner's claim from its origin. -/
theorem Step.key (h : Step R a R') {i : ι} {b b' : Binding ω κ π} (hb : R i = some b)
    (hb' : R' i = some b') (hne : b'.key ≠ b.key) :
    a = some (i, b') ∧ b'.owner = b.owner ∧ b'.origin = b.origin := by
  cases h with
  | idle =>
    rw [hb, Option.some.injEq] at hb'
    exact absurd (by rw [hb']) hne
  | @claim j c hc =>
    by_cases hij : i = j
    · subst hij
      rw [Function.update_self, Option.some.injEq] at hb'
      subst hb'
      obtain ⟨howner, horigin | hkey⟩ := hc b hb
      · exact ⟨rfl, howner, horigin⟩
      · exact absurd hkey hne
    · rw [Function.update_of_ne hij, hb, Option.some.injEq] at hb'
      exact absurd (by rw [hb']) hne

/-- A name that gets bound was claimed. -/
theorem Step.bound (h : Step R a R') {i : ι} {b' : Binding ω κ π} (hb : R i = none)
    (hb' : R' i = some b') : a = some (i, b') := by
  cases h with
  | idle =>
    rw [hb] at hb'
    cases hb'
  | @claim j c hc =>
    by_cases hij : i = j
    · subst hij
      rw [Function.update_self, Option.some.injEq] at hb'
      rw [hb']
    · rw [Function.update_of_ne hij, hb] at hb'
      cases hb'

/-- After a claim the name is bound as claimed. -/
theorem Step.claimed {i : ι} {b : Binding ω κ π} (h : Step R (some (i, b)) R') :
    R' i = some b := by
  cases h with
  | claim _ => exact Function.update_self ..

/-- A claim that was granted is one the registry permits. -/
theorem Step.permits {i : ι} {b : Binding ω κ π} (h : Step R (some (i, b)) R') :
    R.Permits i b := by
  cases h with
  | claim h => exact h

/-- **A name never changes hands.** -/
theorem steps_owner (h : Relation.ReflTransGen (fun R R' => ∃ a, Step R a R') R R') {i : ι}
    {b : Binding ω κ π} (hb : R i = some b) : ∃ b', R' i = some b' ∧ b'.owner = b.owner := by
  induction h with
  | refl => exact ⟨b, hb, rfl⟩
  | tail _ hstep ih =>
    obtain ⟨b₁, hb₁, ho₁⟩ := ih
    obtain ⟨a, ha⟩ := hstep
    obtain ⟨b₂, hb₂, ho₂⟩ := ha.owner hb₁
    exact ⟨b₂, hb₂, ho₂.trans ho₁⟩

end Registry
