import Mathlib.Data.List.Basic

/-!
# Texts of one shape

Some elements of a list are marks, the others are between them.  Two lists have one shape if
they have the same marks in the same order, and something stands between two marks of the one
where something stands between the same two marks of the other.

A change that leaves marks alone and puts something that is not empty for anything else, such
as a change of case, keeps the shape.

## Main definitions

* `Plain.Shape` — the lists have one shape.

## Main results

* `Plain.Shape.mem_iff` — they have the same marks.
* `Plain.Shape.split` — where one can be cut at a mark, so can the other.
* `Plain.Shape.eq_of_all` — a list of marks has only its own shape.
-/

namespace Plain

variable {α : Type*} {mark : α → Bool}

/-- The lists have the same marks, and something else between them at the same places. -/
inductive Shape (mark : α → Bool) : List α → List α → Prop
  /-- Nothing is left. -/
  | nil : Shape mark [] []
  /-- A mark. -/
  | mark {c : α} {s t : List α} (hc : mark c = true) (h : Shape mark s t) :
    Shape mark (c :: s) (c :: t)
  /-- Something else. -/
  | other {v w s t : List α} (hv : v ≠ []) (hw : w ≠ []) (hv' : ∀ c ∈ v, mark c = false)
    (hw' : ∀ c ∈ w, mark c = false) (h : Shape mark s t) : Shape mark (v ++ s) (w ++ t)

namespace Shape

variable {s t a b : List α} {c : α}

theorem symm (h : Shape mark s t) : Shape mark t s := by
  induction h with
  | nil => exact .nil
  | mark hc _ ih => exact .mark hc ih
  | other hv hw hv' hw' _ ih => exact .other hw hv hw' hv' ih

theorem eq_nil (h : Shape mark s []) : s = [] := by
  generalize ht : ([] : List α) = t at h
  cases h with
  | nil => rfl
  | mark _ _ => cases ht
  | other _ hw _ _ _ => exact absurd (List.append_eq_nil_iff.mp ht.symm).1 hw

theorem ne_nil (h : Shape mark s t) (hs : s ≠ []) : t ≠ [] := by
  rintro rfl
  exact hs h.eq_nil

theorem mem_of_mem (h : Shape mark s t) (hc : mark c = true) (hs : c ∈ s) : c ∈ t := by
  induction h with
  | nil => exact hs
  | mark _ _ ih =>
    rcases List.mem_cons.mp hs with rfl | hs
    · exact List.mem_cons_self
    · exact List.mem_cons_of_mem _ (ih hs)
  | other _ _ hv' _ _ ih =>
    rcases List.mem_append.mp hs with hs | hs
    · rw [hv' c hs] at hc
      cases hc
    · exact List.mem_append_right _ (ih hs)

/-- The lists have the same marks. -/
theorem mem_iff (h : Shape mark s t) (hc : mark c = true) : c ∈ s ↔ c ∈ t :=
  ⟨h.mem_of_mem hc, h.symm.mem_of_mem hc⟩

/-- A list that can be cut at a mark has lists of its shape that can. -/
theorem split (h : Shape mark (a ++ c :: b) t) (hc : mark c = true) :
    ∃ a' b', t = a' ++ c :: b' ∧ Shape mark a a' ∧ Shape mark b b' := by
  generalize hs : a ++ c :: b = s at h
  induction h generalizing a with
  | nil => simp at hs
  | @mark d s t hd h ih =>
    cases a with
    | nil =>
      obtain ⟨rfl, rfl⟩ := List.cons.inj hs
      exact ⟨[], t, rfl, .nil, h⟩
    | cons x a =>
      obtain ⟨rfl, htail⟩ := List.cons.inj hs
      obtain ⟨a', b', rfl, ha, hb⟩ := ih htail
      exact ⟨x :: a', b', rfl, .mark hd ha, hb⟩
  | @other v w s t hv hw hv' hw' h ih =>
    -- the mark is not in the run, so the run is part of what stands before it
    have hbefore : ∃ u, a = v ++ u ∧ u ++ c :: b = s := by
      rcases List.append_eq_append_iff.mp hs with ⟨u, rfl, hu⟩ | ⟨u, rfl, hu⟩
      · cases u with
        | nil => exact ⟨[], by simp, hu⟩
        | cons x u =>
          obtain ⟨rfl, -⟩ := List.cons.inj hu
          rw [hv' c (by simp)] at hc
          cases hc
      · exact ⟨u, rfl, hu.symm⟩
    obtain ⟨u, rfl, hu⟩ := hbefore
    obtain ⟨u', b', rfl, ha, hb⟩ := ih hu
    exact ⟨w ++ u', b', by rw [List.append_assoc], .other hv hw hv' hw' ha, hb⟩

/-- A list of marks has only its own shape. -/
theorem eq_of_all (h : Shape mark s t) (hs : ∀ c ∈ s, mark c = true) : t = s := by
  induction h with
  | nil => rfl
  | mark _ _ ih => rw [ih fun c hc => hs c (List.mem_cons_of_mem _ hc)]
  | @other v _ _ _ hv _ hv' _ _ _ =>
    obtain ⟨c, hc⟩ := List.exists_mem_of_ne_nil v hv
    have hmark := hs c (List.mem_append_left _ hc)
    rw [hv' c hc] at hmark
    cases hmark

/-- A change of single elements that leaves marks alone and makes none keeps the shape. -/
theorem map {f : α → α} (hmark : ∀ c, mark c = true → f c = c)
    (hother : ∀ c, mark c = false → mark (f c) = false) (s : List α) :
    Shape mark s (s.map f) := by
  induction s with
  | nil => exact .nil
  | cons c s ih =>
    rw [List.map_cons]
    cases hc : mark c with
    | true =>
      rw [hmark c hc]
      exact .mark hc ih
    | false =>
      exact .other (v := [c]) (w := [f c]) (by simp) (by simp) (by simpa using hc)
        (by simpa using hother c hc) ih

end Shape
end Plain
