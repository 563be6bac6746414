import Mathlib.Data.List.Induction

/-!
# The last word

A value that some steps set and the others leave alone is, after any steps, what the last step
that set it made it, and what it was at first if there was none.

## Main definitions

* `Plain.LastWord` — the last of the steps to say anything says `v`.

## Main results

* `Plain.foldl_eq_lastWord` — **the value after several steps.**
-/

namespace Plain

variable {α β σ : Type}

/-- The last of the steps that say anything says `v`. -/
def LastWord (said : α → Option β) (v : β) (l : List α) : Prop :=
  ∃ older a newer, l = older ++ a :: newer ∧ said a = some v ∧ ∀ a' ∈ newer, said a' = none

theorem lastWord_iff {said : α → Option β} {v : β} {l : List α} :
    LastWord said v l ↔ l.reverse.findSome? said = some v := by
  rw [List.findSome?_eq_some_iff]
  constructor
  · rintro ⟨older, a, newer, rfl, ha, hnone⟩
    refine ⟨newer.reverse, a, older.reverse, by simp, ha, ?_⟩
    intro a' ha'
    exact hnone a' (List.mem_reverse.mp ha')
  · rintro ⟨newer, a, older, heq, ha, hnone⟩
    refine ⟨older.reverse, a, newer.reverse, ?_, ha, ?_⟩
    · rw [← List.reverse_reverse l, heq]
      simp
    · intro a' ha'
      exact hnone a' (List.mem_reverse.mp ha')

/-- The same step has the last word where the same steps have any. -/
theorem LastWord.imp {γ : Type} {said : α → Option β} {said' : α → Option γ} {v : β} {w : γ}
    {l : List α} (h : LastWord said v l) (hv : ∀ a, said a = some v → said' a = some w)
    (hnone : ∀ a, said a = none → said' a = none) : LastWord said' w l := by
  obtain ⟨older, a, newer, hl, ha, hnewer⟩ := h
  exact ⟨older, a, newer, hl, hv a ha, fun a' ha' => hnone a' (hnewer a' ha')⟩

variable (step : σ → α → σ) (get : σ → β) (I : σ → Prop) {said : α → Option β}

theorem foldl_eq_findSome? (hI : ∀ s a, I s → I (step s a))
    (hstep : ∀ s a, I s → get (step s a) = (said a).getD (get s)) (l : List α) {s : σ} (hs : I s) :
    I (l.foldl step s) ∧ get (l.foldl step s) = (l.reverse.findSome? said).getD (get s) := by
  induction l using List.reverseRecOn with
  | nil => exact ⟨hs, rfl⟩
  | append_singleton l a ih =>
    obtain ⟨hinv, hget⟩ := ih
    rw [List.foldl_append, List.foldl_cons, List.foldl_nil]
    refine ⟨hI _ a hinv, ?_⟩
    rw [hstep _ a hinv, List.reverse_append, List.reverse_singleton, List.singleton_append,
      List.findSome?_cons]
    cases said a with
    | some b => rfl
    | none => exact hget

/-- **The value after several steps**: the last word on it, or what it was at first.  What a step
says may rest on an invariant. -/
theorem foldl_eq_lastWord (hI : ∀ s a, I s → I (step s a))
    (hstep : ∀ s a, I s → get (step s a) = (said a).getD (get s)) {l : List α} {s : σ} (hs : I s)
    {v : β} :
    get (l.foldl step s) = v ↔ LastWord said v l ∨ ((∀ a ∈ l, said a = none) ∧ get s = v) := by
  have hnone : (∀ a ∈ l, said a = none) ↔ l.reverse.findSome? said = none := by
    rw [List.findSome?_eq_none_iff]
    simp only [List.mem_reverse]
  rw [(foldl_eq_findSome? step get I hI hstep l hs).2, lastWord_iff, hnone]
  cases l.reverse.findSome? said with
  | none => simp
  | some b => simp

end Plain
