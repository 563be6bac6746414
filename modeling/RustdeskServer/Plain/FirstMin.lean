import Mathlib.Order.Lattice
import Mathlib.Data.List.Basic

/-!
# The first of the least

A loop over a list that keeps the best element so far, and replaces it only by a better one,
ends with the first of the elements whose value is least.  That element is known by its
place: what stands before it is worse, and what stands behind it is no better.

## Main definitions

* `Plain.firstMin` — the loop.
* `Plain.IsFirstMin` — the place.

## Main results

* `Plain.firstMin_eq_some_iff` — **the loop finds that element and no other.**
* `Plain.IsFirstMin.sublist` — it stays the first of the least when others are taken out.
* `Plain.IsFirstMin.map`, `Plain.IsFirstMin.congr` — and when the list is mapped, or other
  values are taken outside of it.
-/

namespace Plain

variable {α β γ : Type*} [LinearOrder β]

/-- The best so far, against the rest. -/
def firstMinFrom (f : α → β) : α → List α → α
  | best, [] => best
  | best, x :: xs => firstMinFrom f (if f x < f best then x else best) xs

/-- The first element whose value is least. -/
def firstMin (f : α → β) : List α → Option α
  | [] => none
  | x :: xs => some (firstMinFrom f x xs)

/-- What stands before `a` is worse, and what stands behind it is no better. -/
def IsFirstMin (f : α → β) (a : α) (l : List α) : Prop :=
  ∃ l₁ l₂, l = l₁ ++ a :: l₂ ∧ (∀ x ∈ l₁, f a < f x) ∧ ∀ x ∈ l₂, f a ≤ f x

variable {f : α → β} {a b : α} {l : List α}

namespace IsFirstMin

theorem mem (h : IsFirstMin f a l) : a ∈ l := by
  obtain ⟨l₁, l₂, rfl, -, -⟩ := h
  simp

/-- Nothing in the list is better. -/
theorem le (h : IsFirstMin f a l) {x : α} (hx : x ∈ l) : f a ≤ f x := by
  obtain ⟨l₁, l₂, rfl, hbefore, hbehind⟩ := h
  rcases List.mem_append.mp hx with hx | hx
  · exact (hbefore x hx).le
  · rcases List.mem_cons.mp hx with rfl | hx
    · exact le_rfl
    · exact hbehind x hx

/-- There is only one. -/
theorem unique (h : IsFirstMin f a l) (h' : IsFirstMin f b l) : a = b := by
  obtain ⟨l₁, l₂, rfl, hbefore, hbehind⟩ := h
  obtain ⟨m₁, m₂, heq, hbefore', hbehind'⟩ := h'
  -- of two different places one would be before the other
  rcases List.append_eq_append_iff.mp heq with ⟨u, rfl, hu⟩ | ⟨u, rfl, hu⟩
  · cases u with
    | nil => exact (List.cons.inj hu).1
    | cons c u =>
      obtain ⟨rfl, rfl⟩ := List.cons.inj hu
      exact absurd (hbefore' a (by simp)) (not_lt.mpr (hbehind b (by simp)))
  · cases u with
    | nil => exact (List.cons.inj hu).1.symm
    | cons c u =>
      obtain ⟨rfl, rfl⟩ := List.cons.inj hu
      exact absurd (hbefore b (by simp)) (not_lt.mpr (hbehind' a (by simp)))

theorem map {g : γ → α} {c : γ} {l : List γ} (h : IsFirstMin (f ∘ g) c l) :
    IsFirstMin f (g c) (l.map g) := by
  obtain ⟨l₁, l₂, rfl, hbefore, hbehind⟩ := h
  refine ⟨l₁.map g, l₂.map g, by simp, ?_, ?_⟩
  · intro x hx
    obtain ⟨y, hy, rfl⟩ := List.mem_map.mp hx
    exact hbefore y hy
  · intro x hx
    obtain ⟨y, hy, rfl⟩ := List.mem_map.mp hx
    exact hbehind y hy

/-- Only the values of the elements are looked at. -/
theorem congr {g : α → β} (h : IsFirstMin f a l) (hfg : ∀ x ∈ l, g x = f x) :
    IsFirstMin g a l := by
  obtain ⟨l₁, l₂, rfl, hbefore, hbehind⟩ := h
  rw [List.forall_mem_append, List.forall_mem_cons] at hfg
  obtain ⟨h₁, ha, h₂⟩ := hfg
  refine ⟨l₁, l₂, rfl, fun x hx => ?_, fun x hx => ?_⟩
  · rw [ha, h₁ x hx]
    exact hbefore x hx
  · rw [ha, h₂ x hx]
    exact hbehind x hx

/-- Of two elements, the one with the least value that stands first. -/
theorem eq_or_mem_of_le {l₁ l₂ : List α} {b : α} (h : IsFirstMin f a (l₁ ++ b :: l₂))
    (hb : f b ≤ f a) : a = b ∨ a ∈ l₁ := by
  obtain ⟨m₁, m₂, heq, hbefore, -⟩ := h
  rcases List.append_eq_append_iff.mp heq with ⟨u, rfl, hu⟩ | ⟨u, rfl, hu⟩
  · cases u with
    | nil => exact .inl (List.cons.inj hu).1.symm
    | cons c u =>
      obtain ⟨rfl, rfl⟩ := List.cons.inj hu
      exact absurd (hbefore b (by simp)) (not_lt.mpr hb)
  · cases u with
    | nil => exact .inl (List.cons.inj hu).1
    | cons c u =>
      obtain ⟨rfl, rfl⟩ := List.cons.inj hu
      exact .inr (by simp)

/-- A worse element in front changes nothing. -/
theorem cons_of_lt {x : α} (h : IsFirstMin f a l) (hx : f a < f x) : IsFirstMin f a (x :: l) := by
  obtain ⟨l₁, l₂, rfl, hbefore, hbehind⟩ := h
  exact ⟨x :: l₁, l₂, rfl, List.forall_mem_cons.mpr ⟨hx, hbefore⟩, hbehind⟩

/-- Others may be taken out. -/
theorem sublist {l₁ l₂ m₁ m₂ : List α} (h₁ : m₁.Sublist l₁) (h₂ : m₂.Sublist l₂)
    (hbefore : ∀ x ∈ l₁, f a < f x) (hbehind : ∀ x ∈ l₂, f a ≤ f x) :
    IsFirstMin f a (m₁ ++ a :: m₂) :=
  ⟨m₁, m₂, rfl, fun x hx => hbefore x (h₁.subset hx), fun x hx => hbehind x (h₂.subset hx)⟩

end IsFirstMin

/-- The loop, from the best so far. -/
theorem isFirstMin_firstMinFrom (f : α → β) (best : α) (l : List α) :
    IsFirstMin f (firstMinFrom f best l) (best :: l) := by
  induction l generalizing best with
  | nil => exact ⟨[], [], rfl, by simp, by simp⟩
  | cons x l ih =>
    rw [firstMinFrom]
    split
    · next hlt =>
      have hx := ih x
      exact hx.cons_of_lt ((hx.le List.mem_cons_self).trans_lt hlt)
    · next hnot =>
      have hbest := ih best
      generalize firstMinFrom f best l = r at hbest
      obtain ⟨l₁, l₂, heq, hbefore, hbehind⟩ := hbest
      cases l₁ with
      | nil =>
        obtain ⟨rfl, rfl⟩ := List.cons.inj heq
        exact ⟨[], x :: l, rfl, by simp, List.forall_mem_cons.mpr ⟨not_lt.mp hnot, hbehind⟩⟩
      | cons y l₁ =>
        obtain ⟨rfl, rfl⟩ := List.cons.inj heq
        obtain ⟨hbest, hbefore⟩ := List.forall_mem_cons.mp hbefore
        refine ⟨best :: x :: l₁, l₂, rfl, ?_, hbehind⟩
        exact List.forall_mem_cons.mpr ⟨hbest,
          List.forall_mem_cons.mpr ⟨hbest.trans_le (not_lt.mp hnot), hbefore⟩⟩

/-- **The loop finds the first of the least.** -/
theorem firstMin_eq_some_iff : firstMin f l = some a ↔ IsFirstMin f a l := by
  cases l with
  | nil =>
    refine ⟨nofun, ?_⟩
    intro h
    cases h.mem
  | cons x l =>
    have hx := isFirstMin_firstMinFrom f x l
    rw [firstMin, Option.some.injEq]
    exact ⟨fun h => h ▸ hx, fun h => hx.unique h⟩

end Plain
