import RustdeskServer.Atomic.Prog

/-!
# One program, with anything between its operations

A program among others finds the shared state changed at every operation.  What it does
is then given by the input and the state it finds at each of its operations, and the
others need not be spoken of: every interleaving is one such list of finds.

## Main definitions

* `Machine.advance`, `Machine.feed` — what is left of a program after its next operation,
  and after several.
* `Machine.does`, `Machine.trace` — the operations it performed, with their answers.
* `Machine.Tracks` — a program does, operation by operation, what a system with explicit
  states does; `Machine.doneBy` is what that does.

## Main results

* `Machine.Tracks.feed` — so it does after any finds.
* `Machine.Tracks.bind` — and with another program after it.
* `Machine.Tracks.does_eq`, `Machine.Tracks.trace_eq` — the operation it performs is the one
  the system's state names, and so on after any finds.
* `Machine.trace_all`, `Machine.mem_trace_bind`, `Machine.filterMap_trace_bind` — what a program
  performs.
-/

namespace Atomic
namespace Machine

variable {S : Sig} {σ ε α : Type} (M : Machine S σ ε)

/-- What is left after one operation, performed with this input in this state. -/
def advance (p : Prog S α) (x : ε × σ) : Prog S α :=
  match p with
  | .ret a => .ret a
  | .op o k => k (M.exec x.1 o x.2).2

/-- That operation with its answer. -/
def does (p : Prog S α) (x : ε × σ) : List ((o : S.Op) × S.Res o) :=
  match p with
  | .ret _ => []
  | .op o _ => [⟨o, (M.exec x.1 o x.2).2⟩]

/-- What is left after several operations. -/
def feed (p : Prog S α) (l : List (ε × σ)) : Prog S α := l.foldl M.advance p

/-- Those operations with their answers, in order. -/
def trace : Prog S α → List (ε × σ) → List ((o : S.Op) × S.Res o)
  | _, [] => []
  | p, x :: l => M.does p x ++ trace (M.advance p x) l

variable {M}

theorem trace_append (p : Prog S α) (l₁ l₂ : List (ε × σ)) :
    M.trace p (l₁ ++ l₂) = M.trace p l₁ ++ M.trace (M.feed p l₁) l₂ := by
  induction l₁ generalizing p with
  | nil => rfl
  | cons x l ih =>
    simp only [List.cons_append, trace, ih, List.append_assoc]
    rfl

theorem trace_concat (p : Prog S α) (l : List (ε × σ)) (x : ε × σ) :
    M.trace p (l ++ [x]) = M.trace p l ++ M.does (M.feed p l) x := by
  rw [trace_append]
  simp [trace]

/-- What is left performs no other operations. -/
theorem feed_all {P : S.Op → Prop} {p : Prog S α} (hp : p.All P) (l : List (ε × σ)) :
    (M.feed p l).All P := by
  induction l generalizing p with
  | nil => exact hp
  | cons x l ih =>
    apply ih
    cases p with
    | ret a => exact hp
    | op o k => exact hp.2 _

/-- Every operation it performed is one of those it can perform. -/
theorem trace_all {P : S.Op → Prop} {p : Prog S α} (hp : p.All P) (l : List (ε × σ)) :
    ∀ x ∈ M.trace p l, P x.1 := by
  induction l generalizing p with
  | nil => exact List.forall_mem_nil _
  | cons x l ih =>
    cases p with
    | ret a =>
      rw [trace]
      exact ih hp
    | op o k =>
      rw [trace, List.forall_mem_append]
      refine ⟨?_, ih (hp.2 _)⟩
      intro y hy
      rw [List.mem_singleton.mp hy]
      exact hp.1

/-- What it performed before it returned, it also performs with a program after it. -/
theorem mem_trace_bind {β : Type} {p : Prog S α} {f : α → Prog S β} {l : List (ε × σ)}
    {x : (o : S.Op) × S.Res o} (h : x ∈ M.trace p l) : x ∈ M.trace (p >>= f) l := by
  induction l generalizing p with
  | nil => cases h
  | cons y l ih =>
    cases p with
    | ret a =>
      -- nothing is performed by a program that has returned
      rw [trace] at h
      exact (@trace_all S σ ε α M (fun _ => False) _ (Prog.all_ret _ a) l x h).elim
    | op o k =>
      rw [trace] at h
      show x ∈ M.does (Prog.op o fun r => k r >>= f) y ++ _
      rcases List.mem_append.mp h with h | h
      · exact List.mem_append_left _ h
      · exact List.mem_append_right _ (ih h)

/-- A program after it adds nothing to what is told of the operations, if nothing is told of
its own. -/
theorem filterMap_trace_bind {β γ : Type} {d : ((o : S.Op) × S.Res o) → Option γ}
    {p : Prog S α} {f : α → Prog S β} (hf : ∀ a, (f a).All fun o => ∀ r, d ⟨o, r⟩ = none)
    (l : List (ε × σ)) : (M.trace (p >>= f) l).filterMap d = (M.trace p l).filterMap d := by
  have hnone : ∀ {δ : Type} {q : Prog S δ} (l : List (ε × σ)),
      (q.All fun o => ∀ r, d ⟨o, r⟩ = none) → (M.trace q l).filterMap d = [] := by
    intro δ q l hq
    rw [List.filterMap_eq_nil_iff]
    intro x hx
    exact trace_all hq l x hx x.2
  induction l generalizing p with
  | nil => rfl
  | cons y l ih =>
    cases p with
    | ret a =>
      rw [hnone _ (Prog.all_ret _ a)]
      exact hnone _ (hf a)
    | op o k =>
      show (M.does (Prog.op o fun r => k r >>= f) y ++ M.trace (k _ >>= f) l).filterMap d =
        (M.does (Prog.op o k) y ++ M.trace (k _) l).filterMap d
      rw [List.filterMap_append, List.filterMap_append, ih]
      rfl

section Tracks

variable (M) {τ φ : Type} (next : τ → Option S.Op) (step : τ → φ → τ) (find : φ → ε × σ)
  (ret : τ → α → Prop)

/-- From the state `t` on, the program performs the operation the state names, and goes on so
from the state that the find leads to; where the state names none it has returned. -/
def Tracks : τ → Prog S α → Prop
  | t, .ret a => next t = none ∧ ret t a
  | t, .op o k => next t = some o ∧
      ∀ f, Tracks (step t f) (k (M.exec (find f).1 o (find f).2).2)

/-- The operations that a system performs, with their answers. -/
def doneBy : τ → List φ → List ((o : S.Op) × S.Res o)
  | _, [] => []
  | t, f :: l => ((next t).map fun o =>
      (⟨o, (M.exec (find f).1 o (find f).2).2⟩ : (o : S.Op) × S.Res o)).toList ++
        doneBy (step t f) l

variable {M next step find ret}

theorem Tracks.advance (hend : ∀ t f, next t = none → step t f = t) {t : τ} {p : Prog S α}
    (h : M.Tracks next step find ret t p) (f : φ) :
    M.Tracks next step find ret (step t f) (M.advance p (find f)) := by
  cases p with
  | ret a =>
    rw [hend t f h.1]
    exact h
  | op o k => exact h.2 f

theorem Tracks.feed (hend : ∀ t f, next t = none → step t f = t) {t : τ} {p : Prog S α}
    (h : M.Tracks next step find ret t p) (l : List φ) :
    M.Tracks next step find ret (l.foldl step t) (M.feed p (l.map find)) := by
  induction l generalizing t p with
  | nil => exact h
  | cons f l ih => exact ih (h.advance hend f)

/-- A program that tracks a system, with another after it, tracks a system that the first is a
part of, if the other tracks that from where the first ends. -/
theorem Tracks.bind {τ' β : Type} {next' : τ' → Option S.Op} {step' : τ' → φ → τ'}
    {ret' : τ' → β → Prop} (part : τ → τ')
    (hnext : ∀ t o, next t = some o → next' (part t) = some o)
    (hstep : ∀ t f, next t ≠ none → step' (part t) f = part (step t f)) {k : α → Prog S β}
    (hk : ∀ t a, next t = none → ret t a → M.Tracks next' step' find ret' (part t) (k a)) {t : τ}
    {p : Prog S α} (h : M.Tracks next step find ret t p) :
    M.Tracks next' step' find ret' (part t) (p >>= k) := by
  induction p generalizing t with
  | ret a => exact hk t a h.1 h.2
  | op o k' ih =>
    obtain ⟨ho, hrest⟩ := h
    refine ⟨hnext t o ho, fun f => ?_⟩
    rw [hstep t f (by rw [ho]; exact Option.some_ne_none o)]
    exact ih _ (hrest f)

theorem Tracks.does_eq {t : τ} {p : Prog S α} (h : M.Tracks next step find ret t p) (f : φ) :
    M.does p (find f) = ((next t).map fun o =>
      (⟨o, (M.exec (find f).1 o (find f).2).2⟩ : (o : S.Op) × S.Res o)).toList := by
  cases p with
  | ret a =>
    rw [h.1]
    rfl
  | op o k =>
    rw [h.1]
    rfl

/-- They are those of the program. -/
theorem Tracks.trace_eq (hend : ∀ t f, next t = none → step t f = t) {t : τ} {p : Prog S α}
    (h : M.Tracks next step find ret t p) (l : List φ) :
    M.trace p (l.map find) = doneBy M next step find t l := by
  induction l generalizing t p with
  | nil => rfl
  | cons f l ih => rw [List.map_cons, trace, doneBy, h.does_eq f, ih (h.advance hend f)]

end Tracks

end Machine
end Atomic
