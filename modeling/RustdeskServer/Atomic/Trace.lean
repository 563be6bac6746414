import Mathlib.Logic.Basic
import Mathlib.Logic.Relation

/-!
# Runs of a system that takes one input after another

A system handles one input at a time: `step s i` is the state after input `i`.
`Always step P s l` says that `P` holds of every state of the run over the inputs
`l`, together with the input that is about to be handled there.

A system may also keep a history of what it did, newest event first.  `Chronicle P`
says that `P` holds of every event together with the events before it.

## Main results

* `Always.inv` — an invariant kept by the inputs that meet a condition holds along
  every run whose inputs all meet it.
* `Always.sim` — a run whose steps are simulated is simulated.
* `always_congr` — **two properties that agree wherever an invariant holds hold
  along the same runs**, if one of them keeps the invariant.
-/

namespace Atomic

variable {σ ι : Type} {step : σ → ι → σ}

/-- `P` holds at every point of the run over `l` from `s`. -/
def Always (step : σ → ι → σ) (P : σ → ι → Prop) : σ → List ι → Prop
  | _, [] => True
  | s, i :: l => P s i ∧ Always step P (step s i) l

/-- Whether a property holds along a run can be checked point by point. -/
instance decidableAlways (step : σ → ι → σ) (P : σ → ι → Prop) [∀ s i, Decidable (P s i)] :
    (s : σ) → (l : List ι) → Decidable (Always step P s l)
  | _, [] => isTrue trivial
  | s, i :: l =>
    have : Decidable (Always step P (step s i) l) := decidableAlways step P (step s i) l
    inferInstanceAs (Decidable (P s i ∧ Always step P (step s i) l))

/-- `I` and `P` hold at every point of a run that starts in `I` and whose inputs
meet a condition `C` that keeps `I` and gives `P`. -/
theorem Always.inv {I : σ → Prop} {C P : σ → ι → Prop}
    (hstep : ∀ s i, I s → C s i → I (step s i)) (hP : ∀ s i, I s → C s i → P s i)
    {l : List ι} {s : σ} (hI : I s) (hC : Always step C s l) : Always step P s l := by
  induction l generalizing s with
  | nil => trivial
  | cons i l ih => exact ⟨hP s i hI hC.1, ih (hstep s i hI hC.1) hC.2⟩

/-- The state at the end of a run satisfies the invariant. -/
theorem Always.foldl {I : σ → Prop} {C : σ → ι → Prop}
    (hstep : ∀ s i, I s → C s i → I (step s i)) {l : List ι} {s : σ} (hI : I s)
    (hC : Always step C s l) : I (l.foldl step s) := by
  induction l generalizing s with
  | nil => exact hI
  | cons i l ih => exact ih (hstep s i hI hC.1) hC.2

theorem always_append {P : σ → ι → Prop} {l₁ l₂ : List ι} {s : σ} :
    Always step P s (l₁ ++ l₂) ↔ Always step P s l₁ ∧ Always step P (l₁.foldl step s) l₂ := by
  induction l₁ generalizing s with
  | nil => simp [Always]
  | cons i l₁ ih => simp only [List.cons_append, Always, List.foldl_cons, ih, and_assoc]

/-- A property holds along a run if it holds at every point of it. -/
theorem always_iff_split {P : σ → ι → Prop} {l : List ι} {s : σ} :
    Always step P s l ↔ ∀ l₁ i l₂, l = l₁ ++ i :: l₂ → P (l₁.foldl step s) i := by
  induction l generalizing s with
  | nil => simp [Always]
  | cons i l ih =>
    constructor
    · rintro ⟨hi, hl⟩ l₁ j l₂ heq
      cases l₁ with
      | nil =>
        rw [List.nil_append, List.cons.injEq] at heq
        rw [← heq.1]
        exact hi
      | cons a l₁ =>
        rw [List.cons_append, List.cons.injEq] at heq
        rw [← heq.1]
        exact ih.mp hl l₁ j l₂ heq.2
    · intro h
      refine ⟨h [] i l rfl, ih.mpr ?_⟩
      intro l₁ j l₂ heq
      exact h (i :: l₁) j l₂ (by rw [heq, List.cons_append])

/-- A run whose steps are simulated is simulated. -/
theorem Always.sim {τ : Type} (abs : σ → τ) {T : τ → τ → Prop} {l : List ι} {s : σ}
    (h : Always step (fun s i => T (abs s) (abs (step s i))) s l) :
    Relation.ReflTransGen T (abs s) (abs (l.foldl step s)) := by
  induction l generalizing s with
  | nil => exact .refl
  | cons i l ih => exact Relation.ReflTransGen.head h.1 (ih h.2)

/-- **A property that agrees with a condition wherever an invariant holds, and a
condition that keeps the invariant, hold along the same runs.** -/
theorem always_congr {I : σ → Prop} {C P : σ → ι → Prop}
    (hstep : ∀ s i, I s → C s i → I (step s i)) (hiff : ∀ s i, I s → (P s i ↔ C s i))
    {l : List ι} {s : σ} (hI : I s) : Always step P s l ↔ Always step C s l := by
  constructor
  · -- at the first input that fails the condition the invariant still holds
    intro h
    induction l generalizing s with
    | nil => trivial
    | cons i l ih =>
      have hc : C s i := (hiff s i hI).mp h.1
      exact ⟨hc, ih (hstep s i hI hc) h.2⟩
  · exact fun h => Always.inv hstep (fun s i hI hC => (hiff s i hI).mpr hC) hI h

/-! ### Histories -/

/-- `P` holds of every event of a history, given what came before it. -/
def Chronicle {κ : Type} (P : κ → List κ → Prop) : List κ → Prop
  | [] => True
  | ev :: past => P ev past ∧ Chronicle P past

/-- New events that are as `P` says whatever came before them extend a chronicle. -/
theorem Chronicle.append {κ : Type} {P : κ → List κ → Prop} {new past : List κ}
    (h : Chronicle P past) (hnew : ∀ ev ∈ new, ∀ l, P ev l) : Chronicle P (new ++ past) := by
  induction new with
  | nil => exact h
  | cons ev new ih =>
    exact ⟨hnew ev List.mem_cons_self _, ih fun ev' hev => hnew ev' (List.mem_cons_of_mem _ hev)⟩

theorem Chronicle.of_append {κ : Type} {P : κ → List κ → Prop} {new past : List κ} {ev : κ}
    (h : Chronicle P (new ++ ev :: past)) : P ev past := by
  induction new with
  | nil => exact h.1
  | cons ev' new ih => exact ih h.2

end Atomic
