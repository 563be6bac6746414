import Mathlib.Algebra.GroupWithZero.Nat
import Mathlib.Algebra.Order.BigOperators.Group.List
import Mathlib.Algebra.Order.Group.Nat
import Mathlib.Data.List.Nodup
import Mathlib.Data.List.Perm.Subperm

/-!
# Lists of pairs that are written in place

A key is looked up at its first pair.  Writing replaces that pair, or adds one at the end;
pairs with other keys stay where they are, so that what is computed from them does not change.

## Main definitions

* `Plain.put` — write the value of a key.

## Main results

* `Plain.lookup_put_self`, `Plain.lookup_put_of_ne` — what is read after a write.
* `Plain.filterMap_put` — a write that a reader skips does not change what it reads.
* `Plain.sum_put_le`, `Plain.sum_put_lt` — a write adds at most its own weight, and less when
  it replaces something.
* `Plain.length_le_of_lookup` — distinct keys under which something is found are no more than
  the pairs.
-/

namespace Plain

variable {κ ν β : Type*} [DecidableEq κ]

/-- Write the value of a key. -/
def put (k : κ) (v : ν) : List (κ × ν) → List (κ × ν)
  | [] => [(k, v)]
  | p :: l => if p.1 = k then (k, v) :: l else p :: put k v l

theorem lookup_put_self [BEq κ] [LawfulBEq κ] (k : κ) (v : ν) (l : List (κ × ν)) : (put k v l).lookup k = some v := by
  induction l with
  | nil => simp [put]
  | cons p l ih =>
    obtain ⟨k', v'⟩ := p
    by_cases h : k' = k
    · simp [put, h]
    · have hne : (k == k') = false := by simpa using Ne.symm h
      rw [put, if_neg h, List.lookup_cons, hne]
      exact ih

theorem lookup_put_of_ne [BEq κ] [LawfulBEq κ] {k k' : κ} (h : k' ≠ k) (v : ν) (l : List (κ × ν)) :
    (put k v l).lookup k' = l.lookup k' := by
  have hne : (k' == k) = false := by simpa using h
  induction l with
  | nil => simp [put, List.lookup_cons, hne]
  | cons p l ih =>
    obtain ⟨k₀, v₀⟩ := p
    by_cases h₀ : k₀ = k
    · simp [put, h₀, List.lookup_cons, hne]
    · rw [put, if_neg h₀, List.lookup_cons, List.lookup_cons, ih]

/-- A write that a reader skips does not change what it reads. -/
theorem filterMap_put {k : κ} (f : κ × ν → Option β) (h : ∀ v, f (k, v) = none) (v : ν)
    (l : List (κ × ν)) : (put k v l).filterMap f = l.filterMap f := by
  induction l with
  | nil => simp [put, h]
  | cons p l ih =>
    obtain ⟨k', v'⟩ := p
    by_cases hk : k' = k
    · subst hk
      simp [put, h]
    · rw [put, if_neg hk, List.filterMap_cons, List.filterMap_cons, ih]

/-! ### Keys -/

theorem put_of_notMem {k : κ} {l : List (κ × ν)} (h : k ∉ l.map Prod.fst) (v : ν) :
    put k v l = l ++ [(k, v)] := by
  induction l with
  | nil => rfl
  | cons p l ih =>
    rw [List.map_cons, List.mem_cons, not_or] at h
    rw [put, if_neg (Ne.symm h.1), ih h.2, List.cons_append]

theorem mem_map_fst_put {k k' : κ} {v : ν} {l : List (κ × ν)} :
    k' ∈ (put k v l).map Prod.fst ↔ k' = k ∨ k' ∈ l.map Prod.fst := by
  induction l with
  | nil => simp [put]
  | cons p l ih =>
    by_cases h : p.1 = k
    · subst h
      simp [put]
    · rw [put, if_neg h, List.map_cons, List.mem_cons, ih, List.map_cons, List.mem_cons]
      exact or_left_comm

theorem mem_of_lookup {κ : Type*} [BEq κ] [LawfulBEq κ] {k : κ} {v : ν} {l : List (κ × ν)}
    (h : l.lookup k = some v) : (k, v) ∈ l := by
  obtain ⟨l₁, l₂, rfl, -⟩ := List.lookup_eq_some_iff.mp h
  exact List.mem_append_right _ List.mem_cons_self

/-- Leaving out pairs by their key does not change what is found under another. -/
theorem lookup_filter_fst {κ : Type*} [BEq κ] [LawfulBEq κ] {P : κ → Bool} {k : κ}
    (h : P k = true) (l : List (κ × ν)) : (l.filter fun e => P e.1).lookup k = l.lookup k := by
  induction l with
  | nil => rfl
  | cons p l ih =>
    obtain ⟨k', v⟩ := p
    by_cases hk : k = k'
    · subst hk
      simp [h]
    · have hne : (k == k') = false := by simpa using hk
      by_cases hP : P k' = true
      · simp [hP, List.lookup_cons, hne, ih]
      · simp [hP, List.lookup_cons, hne, ih]

/-! ### Weights -/

section Weight

variable (w : κ × ν → ℕ)

/-- A write adds at most its own weight. -/
theorem sum_put_le (k : κ) (v : ν) (l : List (κ × ν)) :
    ((put k v l).map w).sum ≤ (l.map w).sum + w (k, v) := by
  induction l with
  | nil => simp [put]
  | cons p l ih =>
    by_cases h : p.1 = k
    · rw [put, if_pos h, List.map_cons, List.map_cons, List.sum_cons, List.sum_cons]
      omega
    · rw [put, if_neg h, List.map_cons, List.map_cons, List.sum_cons, List.sum_cons]
      omega

variable {w}

/-- A write that replaces something of some weight adds less. -/
theorem sum_put_lt {k : κ} {l : List (κ × ν)} (hk : k ∈ l.map Prod.fst)
    (hw : ∀ v, 0 < w (k, v)) (v : ν) :
    ((put k v l).map w).sum < (l.map w).sum + w (k, v) := by
  induction l with
  | nil => cases hk
  | cons p l ih =>
    obtain ⟨k', v'⟩ := p
    by_cases h : k' = k
    · subst h
      rw [put, if_pos rfl, List.map_cons, List.map_cons, List.sum_cons, List.sum_cons]
      have hpos := hw v'
      omega
    · rw [List.map_cons, List.mem_cons] at hk
      have hlt := ih (hk.resolve_left (Ne.symm h))
      rw [put, if_neg h, List.map_cons, List.map_cons, List.sum_cons, List.sum_cons]
      omega

end Weight

/-- Distinct keys under which something is found are no more than the pairs. -/
theorem length_le_of_lookup {κ : Type*} [BEq κ] [LawfulBEq κ] {l : List (κ × ν)} {keys : List κ}
    (hnodup : keys.Nodup) (h : ∀ k ∈ keys, ∃ v, l.lookup k = some v) :
    keys.length ≤ l.length := by
  have hsub : keys ⊆ l.map Prod.fst := by
    intro k hk
    obtain ⟨v, hv⟩ := h k hk
    exact List.mem_map_of_mem (mem_of_lookup hv)
  calc keys.length ≤ (l.map Prod.fst).length := (List.subperm_of_subset hnodup hsub).length_le
    _ = l.length := List.length_map _

end Plain
