import RustdeskServer.Atomic.Prog

/-!
# Programs that are cut short

A process performs one program after another, and can die between any two operations.
`Machine.Life` is such a process: it is idle, or some part of a program is left to do.
Its moves are to begin a program, to perform the next operation under some outside
input, and to die; what the dead program did to the state stays.

`Machine.Keeps C I Q` says of a program that every operation that meets `C` leads to a
state in `I`, whatever the outside input, and that it returns with `Q`.  It is proved
along the program's binds, and is what a process carries from one operation to the next.

## Main definitions

* `Machine.Life`, `Machine.Move`, `Machine.Life.step` — a process and its moves.
* `Machine.Keeps` — the judgement.

## Main results

* `Machine.Keeps.bind` — the judgement composes along a bind.
* `Machine.Life.keeps_step` — **a move keeps what the judgement says.**
-/

namespace Atomic
namespace Machine

variable {S : Sig} {σ ε α β ι : Type} (M : Machine S σ ε)

/-- A process: the state, what is left of its program, and which programs it began, the
newest first. -/
structure Life (S : Sig) (σ ι α : Type) where
  /-- The state. -/
  st : σ
  /-- What is left to do; `none` when idle. -/
  job : Option (Prog S α)
  /-- What it began. -/
  begun : List ι

/-- What can happen to a process. -/
inductive Move (ι ε : Type)
  /-- It begins a program, if it is idle. -/
  | start (i : ι)
  /-- It performs its next operation; a finished program makes it idle. -/
  | act (e : ε)
  /-- It dies, and is started again. -/
  | crash

/-- The process after a move; `progs i` is the program that `start i` begins. -/
def Life.step (progs : ι → Prog S α) (c : Life S σ ι α) : Move ι ε → Life S σ ι α
  | .start i =>
    match c.job with
    | none => { c with job := some (progs i), begun := i :: c.begun }
    | some _ => c
  | .act e =>
    match c.job with
    | some (.op o k) => { c with st := (M.exec e o c.st).1, job := some (k (M.exec e o c.st).2) }
    | _ => { c with job := none }
  | .crash => { c with job := none }

/-- The operation a move performs, with its outside input. -/
def Life.performs (c : Life S σ ι α) : Move ι ε → Option (ε × S.Op)
  | .act e => (c.job.bind Prog.next?).map (Prod.mk e)
  | _ => none

/-- Every operation that meets `C` leads to a state in `I`, and the program returns
with `Q`. -/
def Keeps (C : ε → S.Op → σ → Prop) (I : σ → Prop) (Q : α → σ → Prop) : Prog S α → σ → Prop
  | .ret a, s => Q a s
  | .op o k, s => ∀ e, C e o s →
      I (M.exec e o s).1 ∧ Keeps C I Q (k (M.exec e o s).2) (M.exec e o s).1

variable {M} {C : ε → S.Op → σ → Prop} {I : σ → Prop}

theorem Keeps.bind {Q : α → σ → Prop} {Q' : β → σ → Prop} {p : Prog S α} {f : α → Prog S β}
    {s : σ} (hp : M.Keeps C I Q p s) (hf : ∀ a s', Q a s' → M.Keeps C I Q' (f a) s') :
    M.Keeps C I Q' (p >>= f) s := by
  induction p generalizing s with
  | ret a => exact hf a s hp
  | op o k ih =>
    intro e he
    exact ⟨(hp e he).1, ih _ (hp e he).2⟩

theorem Keeps.mono {Q Q' : α → σ → Prop} {p : Prog S α} {s : σ} (h : M.Keeps C I Q p s)
    (hQ : ∀ a s, Q a s → Q' a s) : M.Keeps C I Q' p s := by
  induction p generalizing s with
  | ret a => exact hQ a s h
  | op o k ih =>
    intro e he
    exact ⟨(h e he).1, ih _ (h e he).2⟩

/-- **A move keeps what the judgement says**: the state is in `I`, and so is what the rest
of the program leads to.  What may be assumed where a program that meets `A` begins is `I`
for the programs begun so far, which only grow. -/
theorem Life.keeps_step {progs : ι → Prog S α} {A : ι → Prop} {I : List ι → σ → Prop}
    (hmono : ∀ i l s, I l s → I (i :: l) s)
    (hprog : ∀ i l s, A i → I (i :: l) s →
      M.Keeps C (I (i :: l)) (fun _ _ => True) (progs i) s)
    {c : Life S σ ι α} (hI : I c.begun c.st)
    (hjob : ∀ p ∈ c.job, M.Keeps C (I c.begun) (fun _ _ => True) p c.st) (m : Move ι ε)
    (hA : ∀ i, m = .start i → A i) (hC : ∀ e o, c.performs m = some (e, o) → C e o c.st) :
    I (c.step M progs m).begun (c.step M progs m).st ∧
      ∀ p ∈ (c.step M progs m).job,
        M.Keeps C (I (c.step M progs m).begun) (fun _ _ => True) p (c.step M progs m).st := by
  cases m with
  | crash => exact ⟨hI, fun p hp => by cases hp⟩
  | start i =>
    cases hj : c.job with
    | some p =>
      simp only [Life.step, hj]
      exact ⟨hI, fun p' hp' => hjob p' (by rw [hj]; exact hp')⟩
    | none =>
      simp only [Life.step, hj]
      refine ⟨hmono i _ _ hI, ?_⟩
      rintro p ⟨⟩
      exact hprog i _ _ (hA i rfl) (hmono i _ _ hI)
  | act e =>
    cases hj : c.job with
    | none =>
      simp only [Life.step, hj]
      exact ⟨hI, fun p hp => by cases hp⟩
    | some p =>
      cases p with
      | ret a =>
        simp only [Life.step, hj]
        exact ⟨hI, fun p hp => by cases hp⟩
      | op o k =>
        simp only [Life.step, hj]
        have hop : M.Keeps C (I c.begun) (fun _ _ => True) (.op o k) c.st :=
          hjob _ (by rw [hj]; rfl)
        obtain ⟨hst, hk⟩ := hop e (hC e o (by simp [Life.performs, hj]))
        refine ⟨hst, ?_⟩
        rintro p ⟨⟩
        exact hk

end Machine
end Atomic
