import Mathlib.Data.List.AList
import Mathlib.Data.List.Nodup
import Mathlib.Data.Nat.Notation

/-!
# Reading numbered items

A file is read line by line, each line over what the lines before it made, and a line may
refuse, with its number.  Often the lines fill a table: each says one entry or nothing, on its
own, and what it may not do is name a key again.  Then which files are read, and into which
table, does not depend on the order of the lines.

## Main definitions

* `Plain.numbered` — the items, one after the other.
* `Plain.said` — the entries that the items say.
* `Plain.addEntry`, `Plain.fill` — one entry, and all of them, put into a table.

## Main results

* `Plain.numbered_eq_error_iff` — **the error is that of the first item that is refused.**
* `Plain.numbered_eq_ok_iff` — **which items fill a table, and with what.**
* `Plain.lookup_fill` — what is in a table that was filled.
-/

namespace Plain

section Numbered

variable {α ε σ : Type} (step : ℕ → σ → α → Except ε σ)

/-- The items from number `n` on, each over what was made before it. -/
def numbered : ℕ → List α → σ → Except ε σ
  | _, [], s => .ok s
  | n, x :: l, s =>
    match step n s x with
    | .error e => .error e
    | .ok s => numbered (n + 1) l s

variable {step} {n : ℕ} {l : List α} {s s' : σ} {e : ε}

theorem numbered_cons {x : α} :
    numbered step n (x :: l) s = .ok s' ↔
      ∃ t, step n s x = .ok t ∧ numbered step (n + 1) l t = .ok s' := by
  rw [numbered]
  cases step n s x with
  | error e => exact ⟨nofun, fun ⟨t, ht, _⟩ => by cases ht⟩
  | ok t =>
    constructor
    · exact fun h => ⟨t, rfl, h⟩
    · rintro ⟨t', ht, h⟩
      cases ht
      exact h

/-- **The error is that of the first item that is refused**, over what the items before it
made. -/
theorem numbered_eq_error_iff :
    numbered step n l s = .error e ↔ ∃ before x after t, l = before ++ x :: after ∧
      numbered step n before s = .ok t ∧ step (n + before.length) t x = .error e := by
  induction l generalizing n s with
  | nil =>
    refine ⟨nofun, ?_⟩
    rintro ⟨before, x, after, t, hl, -⟩
    exact absurd hl.symm (List.append_ne_nil_of_right_ne_nil _ (List.cons_ne_nil _ _))
  | cons x l ih =>
    rw [numbered]
    cases hx : step n s x with
    | error e' =>
      constructor
      · intro h
        cases h
        exact ⟨[], x, l, s, rfl, rfl, hx⟩
      · rintro ⟨before, y, after, t, hl, hbefore, hy⟩
        cases before with
        | nil =>
          cases hl
          cases hbefore
          rw [List.length_nil, Nat.add_zero, hx] at hy
          cases hy
          rfl
        | cons z before =>
          -- the first item was refused, so that nothing was made of it
          cases hl
          obtain ⟨t', ht', -⟩ := numbered_cons.mp hbefore
          rw [hx] at ht'
          cases ht'
    | ok t' =>
      dsimp only
      rw [ih]
      constructor
      · rintro ⟨before, y, after, t, rfl, hbefore, hy⟩
        refine ⟨x :: before, y, after, t, rfl, numbered_cons.mpr ⟨t', hx, hbefore⟩, ?_⟩
        rwa [List.length_cons, Nat.add_comm before.length, ← Nat.add_assoc]
      · rintro ⟨before, y, after, t, hl, hbefore, hy⟩
        cases before with
        | nil =>
          cases hl
          cases hbefore
          rw [List.length_nil, Nat.add_zero, hx] at hy
          cases hy
        | cons z before =>
          cases hl
          obtain ⟨t₁, ht₁, hbefore⟩ := numbered_cons.mp hbefore
          rw [hx] at ht₁
          cases ht₁
          refine ⟨before, y, after, t, rfl, hbefore, ?_⟩
          rwa [List.length_cons, Nat.add_comm before.length, ← Nat.add_assoc] at hy

end Numbered

/-! ### Tables -/

section Table

variable {α κ ν ε : Type} [DecidableEq κ]

/-- A table with an entry that an item says, unless its key is there. -/
def addEntry (m : AList fun _ : κ => ν) : Option (κ × ν) → Option (AList fun _ : κ => ν)
  | none => some m
  | some (k, v) => if (m.lookup k).isSome then none else some (m.insert k v)

/-- A table with entries put into it, one after the other. -/
def fill (m : AList fun _ : κ => ν) (l : List (κ × ν)) : AList fun _ : κ => ν :=
  l.foldl (fun m x => m.insert x.1 x.2) m

/-- The entries that the items say; an item that is refused on its own says none. -/
def said (own : α → Option (Option (κ × ν))) (l : List α) : List (κ × ν) :=
  l.filterMap fun x => (own x).join

variable {m m' : AList fun _ : κ => ν} {l : List (κ × ν)}

/-- **What is in a table that was filled** under keys that are apart. -/
theorem lookup_fill (hl : (l.map Prod.fst).Nodup) {k : κ} {v : ν} :
    (fill m l).lookup k = some v ↔ (k, v) ∈ l ∨ (k ∉ l.map Prod.fst ∧ m.lookup k = some v) := by
  induction l generalizing m with
  | nil => simp [fill]
  | cons x l ih =>
    obtain ⟨k', v'⟩ := x
    obtain ⟨hnew, hl⟩ := List.nodup_cons.mp hl
    have hrest := ih hl (m := m.insert k' v')
    rw [fill] at hrest
    rw [fill, List.foldl_cons, hrest]
    by_cases hk : k = k'
    · subst hk
      have hnot : (k, v) ∉ l := fun h => hnew (List.mem_map.mpr ⟨(k, v), h, rfl⟩)
      simp only [AList.lookup_insert, List.mem_cons, List.map_cons, hnew, hnot]
      simp [eq_comm]
    · simp [AList.lookup_insert_ne hk, hk]

theorem lookup_fill_empty (hl : (l.map Prod.fst).Nodup) {k : κ} {v : ν} :
    (fill ∅ l).lookup k = some v ↔ (k, v) ∈ l := by
  rw [lookup_fill hl]
  simp

theorem keys_fill_eq_nil_iff : (fill m l).keys = [] ↔ m.keys = [] ∧ l = [] := by
  induction l generalizing m with
  | nil => simp [fill]
  | cons x l ih =>
    have hrest := ih (m := m.insert x.1 x.2)
    rw [fill] at hrest
    rw [fill, List.foldl_cons, hrest, AList.keys_insert]
    simp

/-- **Which items fill a table, and with what**: every item is right on its own, and no key is
said twice or is there before. -/
theorem numbered_eq_ok_iff {own : α → Option (Option (κ × ν))}
    {step : ℕ → (AList fun _ : κ => ν) → α → Except ε (AList fun _ : κ => ν)}
    (hstep : ∀ n m x m', step n m x = .ok m' ↔ (own x).bind (addEntry m) = some m') {n : ℕ}
    {l : List α} :
    numbered step n l m = .ok m' ↔ (∀ x ∈ l, own x ≠ none) ∧
      ((said own l).map Prod.fst).Nodup ∧
      (∀ x ∈ said own l, m.lookup x.1 = none) ∧ m' = fill m (said own l) := by
  induction l generalizing n m with
  | nil => simp [numbered, said, fill, eq_comm]
  | cons x l ih =>
    rw [numbered_cons, List.forall_mem_cons]
    simp only [hstep, ih]
    cases hx : own x with
    | none => simp
    | some entry =>
      cases entry with
      | none =>
        have hsaid : said own (x :: l) = said own l := by simp [said, hx]
        simp [hsaid, addEntry]
      | some entry =>
        obtain ⟨k, v⟩ := entry
        have hsaid : said own (x :: l) = (k, v) :: said own l := by simp [said, hx]
        rw [hsaid]
        cases hk : m.lookup k with
        | some w => simp [addEntry, hk]
        | none =>
          -- the key is new, and from here on it is there
          have hkeys : (∀ y ∈ said own l, (m.insert k v).lookup y.1 = none) ↔
              k ∉ (said own l).map Prod.fst ∧ ∀ y ∈ said own l, m.lookup y.1 = none := by
            constructor
            · intro h
              refine ⟨fun hmem => ?_, fun y hy => ?_⟩
              · obtain ⟨y, hy, rfl⟩ := List.mem_map.mp hmem
                have := h y hy
                rw [AList.lookup_insert] at this
                cases this
              · have hne : y.1 ≠ k := by
                  intro heq
                  have := h y hy
                  rw [heq, AList.lookup_insert] at this
                  cases this
                rw [← AList.lookup_insert_ne hne]
                exact h y hy
            · rintro ⟨hnew, h⟩ y hy
              have hne : y.1 ≠ k := by
                rintro rfl
                exact hnew (List.mem_map_of_mem hy)
              rw [AList.lookup_insert_ne hne]
              exact h y hy
          simp only [addEntry, hk, Option.isSome_none, Option.bind_some, Bool.false_eq_true,
            if_false, Option.some.injEq, exists_eq_left', hkeys, List.map_cons, List.nodup_cons,
            List.forall_mem_cons]
          simp only [fill, List.foldl_cons]
          tauto

end Table
end Plain
