import Mathlib.Logic.Function.Basic

/-!
# Programs made of atomic sections

A concurrent handler touches the state it shares with other handlers only inside
critical sections: it takes a lock, reads or writes, and lets the lock go.  What
happens between two sections is local.  Such a handler is a tree: it returns, or
it performs one atomic operation and continues with what the operation answered.

The tree has two readings.  `Machine.run` performs all the operations of one
program with nothing in between; it is what a caller sees that handles one
message at a time.  The other reading, where operations of other programs run
between any two of its own, is the interleaving of several programs.

## Main definitions

* `Sig` — the atomic operations and the type of each one's answer.
* `Prog S α` — a program over `S` returning an `α`, a monad.
* `Machine S σ ε` — what each operation does to a state `σ`, given an input `ε`
  from outside (the clock, which calls fail).
* `Machine.run`, `Machine.ops` — the uninterrupted run of a program, and the
  operations it performs.
* `Prog.All`, `Prog.Only` — every operation the program can perform satisfies a
  predicate; and so does what it returns.
* `Prog.Until` — the program performs one marked operation, and what comes before
  and after it is told apart.

## Main results

* `Machine.run_bind` — an uninterrupted run splits at a bind.
* `Machine.run_inv` — a program all of whose operations keep a relation keeps it.
* `Machine.run_embed` — a program that acts on one part of a state runs as on that part.
* `Machine.run_congr` — states that answer alike lead to one result.
-/

namespace Atomic

/-- The atomic operations a program may perform, and the type of what each one
answers. -/
structure Sig where
  /-- The operations. -/
  Op : Type
  /-- The answer of an operation. -/
  Res : Op → Type

/-- A program: it returns, or performs one operation and goes on with its answer. -/
inductive Prog (S : Sig) (α : Type) : Type
  /-- Done, with a result. -/
  | ret (a : α) : Prog S α
  /-- One operation, then the rest. -/
  | op (o : S.Op) (k : S.Res o → Prog S α) : Prog S α

namespace Prog

variable {S : Sig} {α β : Type}

/-- Sequencing. -/
def bind : Prog S α → (α → Prog S β) → Prog S β
  | .ret a, f => f a
  | .op o k, f => .op o fun r => (k r).bind f

instance : Monad (Prog S) where
  pure := Prog.ret
  bind := Prog.bind

@[simp] theorem op_bind (o : S.Op) (k : S.Res o → Prog S α) (f : α → Prog S β) :
    (Prog.op o k >>= f) = .op o fun r => k r >>= f := rfl

@[simp] theorem ret_bind (a : α) (f : α → Prog S β) : (Prog.ret a >>= f) = f a := rfl

theorem bind_assoc {γ : Type} (p : Prog S α) (f : α → Prog S β) (g : β → Prog S γ) :
    (p >>= f) >>= g = p >>= fun a => f a >>= g := by
  induction p with
  | ret a => rfl
  | op o k ih => exact congrArg (Prog.op o) (funext ih)

/-- What a program returned, once it is done. -/
def result? : Prog S α → Option α
  | .ret a => some a
  | .op _ _ => none

@[simp] theorem result?_ret (a : α) : (Prog.ret a : Prog S α).result? = some a := rfl

@[simp] theorem result?_op (o : S.Op) (k : S.Res o → Prog S α) :
    (Prog.op o k).result? = none := rfl

theorem eq_ret_of_result? {p : Prog S α} {a : α} (h : p.result? = some a) : p = .ret a := by
  cases p with
  | ret b => simpa using h
  | op o k => simp at h

/-- The operation a program performs next. -/
def next? : Prog S α → Option S.Op
  | .ret _ => none
  | .op o _ => some o

@[simp] theorem next?_ret (a : α) : (Prog.ret a : Prog S α).next? = none := rfl

@[simp] theorem next?_op (o : S.Op) (k : S.Res o → Prog S α) :
    (Prog.op o k).next? = some o := rfl

/-! ### Every operation of a program -/

/-- Every operation the program can perform, on whatever branch, satisfies `P`. -/
def All (P : S.Op → Prop) : Prog S α → Prop
  | .ret _ => True
  | .op o k => P o ∧ ∀ r, (k r).All P

@[simp] theorem all_ret (P : S.Op → Prop) (a : α) : (Prog.ret a : Prog S α).All P := trivial

theorem All.bind {P : S.Op → Prop} {p : Prog S α} {f : α → Prog S β} (hp : p.All P)
    (hf : ∀ a, (f a).All P) : (p >>= f).All P := by
  induction p with
  | ret a => exact hf a
  | op o k ih => exact ⟨hp.1, fun r => ih r (hp.2 r)⟩

theorem All.ite {P : S.Op → Prop} {c : Prop} [Decidable c] {p q : Prog S α} (hp : p.All P)
    (hq : q.All P) : (if c then p else q).All P := by
  split
  · exact hp
  · exact hq

theorem All.mono {P Q : S.Op → Prop} {p : Prog S α} (hp : p.All P) (h : ∀ o, P o → Q o) :
    p.All Q := by
  induction p with
  | ret a => trivial
  | op o k ih => exact ⟨h o hp.1, fun r => ih r (hp.2 r)⟩

/-- Every operation the program can perform satisfies `P`, and what it returns `R`. -/
def Only (P : S.Op → Prop) (R : α → Prop) : Prog S α → Prop
  | .ret a => R a
  | .op o k => P o ∧ ∀ r, (k r).Only P R

theorem Only.all {P : S.Op → Prop} {R : α → Prop} {p : Prog S α} (hp : p.Only P R) : p.All P := by
  induction p with
  | ret a => trivial
  | op o k ih => exact ⟨hp.1, fun r => ih r (hp.2 r)⟩

theorem All.only {P : S.Op → Prop} {p : Prog S α} (hp : p.All P) : p.Only P fun _ => True := by
  induction p with
  | ret a => trivial
  | op o k ih => exact ⟨hp.1, fun r => ih r (hp.2 r)⟩

theorem Only.mono {P Q : S.Op → Prop} {R : α → Prop} {p : Prog S α} (hp : p.Only P R)
    (h : ∀ o, P o → Q o) : p.Only Q R := by
  induction p with
  | ret a => exact hp
  | op o k ih => exact ⟨h o hp.1, fun r => ih r (hp.2 r)⟩

theorem Only.bind {P : S.Op → Prop} {R : α → Prop} {R' : β → Prop} {p : Prog S α}
    {f : α → Prog S β} (hp : p.Only P R) (hf : ∀ a, R a → (f a).Only P R') :
    (p >>= f).Only P R' := by
  induction p with
  | ret a => exact hf a hp
  | op o k ih => exact ⟨hp.1, fun r => ih r (hp.2 r)⟩

theorem All.bind_only {P : S.Op → Prop} {R : β → Prop} {p : Prog S α} {f : α → Prog S β}
    (hp : p.All P) (hf : ∀ a, (f a).Only P R) : (p >>= f).Only P R :=
  hp.only.bind fun a _ => hf a

/-! ### One marked operation -/

/-- The program performs operations in `P` until it performs `q`, and what is left of it
then is in `T`; if it returns without having performed `q`, the result is in `R`. -/
def Until (P : S.Op → Prop) (q : S.Op) (T : Prog S α → Prop) (R : α → Prop) : Prog S α → Prop
  | .ret a => R a
  | .op o k => (o = q ∧ ∀ r, T (k r)) ∨ (P o ∧ ∀ r, (k r).Until P q T R)

section Until

variable {P : S.Op → Prop} {q : S.Op} {T : Prog S α → Prop} {R : α → Prop}

/-- A program that must perform the marked operation is not done. -/
theorem Until.result?_eq_none {p : Prog S α} (hp : p.Until P q T fun _ => False) :
    p.result? = none := by
  cases p with
  | ret a => exact hp.elim
  | op o k => rfl

theorem Until.bind {T' : Prog S β → Prop} {R' : β → Prop} {p : Prog S α} {f : α → Prog S β}
    (hp : p.Until P q T R) (hT : ∀ p', T p' → T' (p' >>= f))
    (hR : ∀ a, R a → (f a).Until P q T' R') : (p >>= f).Until P q T' R' := by
  induction p with
  | ret a => exact hR a hp
  | op o k ih =>
    rcases hp with ⟨ho, hk⟩ | ⟨ho, hk⟩
    · exact Or.inl ⟨ho, fun r => hT _ (hk r)⟩
    · exact Or.inr ⟨ho, fun r => ih r (hk r)⟩

/-- A program without the marked operation may come first. -/
theorem Only.bind_until {T' : Prog S β → Prop} {R' : β → Prop} {p : Prog S α} {f : α → Prog S β}
    (hp : p.Only P R) (hf : ∀ a, R a → (f a).Until P q T' R') : (p >>= f).Until P q T' R' := by
  induction p with
  | ret a => exact hf a hp
  | op o k ih => exact Or.inr ⟨hp.1, fun r => ih r (hp.2 r)⟩

theorem Only.until {p : Prog S α} (hp : p.Only P R) : p.Until P q T R := by
  induction p with
  | ret a => exact hp
  | op o k ih => exact Or.inr ⟨hp.1, fun r => ih r (hp.2 r)⟩

end Until
end Prog

/-! ### Machines -/

/-- What each operation does: from an outside input and the current state, the
next state and the operation's answer. -/
structure Machine (S : Sig) (σ ε : Type) where
  /-- One atomic operation. -/
  exec : ε → (o : S.Op) → σ → σ × S.Res o

namespace Machine

variable {S : Sig} {σ ε α β : Type} (M : Machine S σ ε)

/-- The uninterrupted run of a program under one outside input. -/
def run (e : ε) : Prog S α → σ → σ × α
  | .ret a, s => (s, a)
  | .op o k, s => run e (k (M.exec e o s).2) (M.exec e o s).1

@[simp] theorem run_ret (e : ε) (a : α) (s : σ) : M.run e (.ret a) s = (s, a) := rfl

@[simp] theorem run_op (e : ε) (o : S.Op) (k : S.Res o → Prog S α) (s : σ) :
    M.run e (.op o k) s = M.run e (k (M.exec e o s).2) (M.exec e o s).1 := rfl

/-- **An uninterrupted run splits at a bind.** -/
theorem run_bind (e : ε) (p : Prog S α) (f : α → Prog S β) (s : σ) :
    M.run e (p >>= f) s = M.run e (f (M.run e p s).2) (M.run e p s).1 := by
  induction p generalizing s with
  | ret a => rfl
  | op o k ih => exact ih _ _

/-- **A program all of whose operations keep a relation keeps it over its run.** -/
theorem run_inv {P : S.Op → Prop} {R : σ → σ → Prop} (hrefl : ∀ s, R s s)
    (htrans : ∀ {s t u}, R s t → R t u → R s u) (e : ε)
    (hstep : ∀ o s, P o → R s (M.exec e o s).1) {p : Prog S α} (hp : p.All P) (s : σ) :
    R s (M.run e p s).1 := by
  induction p generalizing s with
  | ret a => exact hrefl s
  | op o k ih => exact htrans (hstep o s hp.1) (ih _ (hp.2 _) _)

/-- **A run in a larger state**: a program all of whose operations act on one part of it
runs as it runs on that part. -/
theorem run_embed {τ : Type} {N : Machine S τ ε} {P : S.Op → Prop} {g : σ → τ} {e : ε}
    (hstep : ∀ o s, P o → N.exec e o (g s) = (g (M.exec e o s).1, (M.exec e o s).2))
    {p : Prog S α} (hp : p.All P) (s : σ) :
    N.run e p (g s) = (g (M.run e p s).1, (M.run e p s).2) := by
  induction p generalizing s with
  | ret a => rfl
  | op o k ih =>
    rw [run_op, run_op, hstep o s hp.1]
    exact ih _ (hp.2 _) _

/-- **Two runs that answer alike**: from related states in which each of its operations answers
the same and leaves related states, a program returns the same. -/
theorem run_congr {P : S.Op → Prop} {R : σ → σ → Prop} {e : ε}
    (hstep : ∀ o s s', P o → R s s' →
      (M.exec e o s').2 = (M.exec e o s).2 ∧ R (M.exec e o s).1 (M.exec e o s').1)
    {p : Prog S α} (hp : p.All P) {s s' : σ} (h : R s s') :
    (M.run e p s').2 = (M.run e p s).2 := by
  induction p generalizing s s' with
  | ret a => rfl
  | op o k ih =>
    obtain ⟨hans, hrel⟩ := hstep o s s' hp.1 h
    rw [run_op, run_op, hans]
    exact ih _ (hp.2 _) hrel

/-- What a run returns is as every return of the program is. -/
theorem run_only {P : S.Op → Prop} {R : α → Prop} {p : Prog S α} (hp : p.Only P R) (e : ε) (s : σ) :
    R (M.run e p s).2 := by
  induction p generalizing s with
  | ret a => exact hp
  | op o k ih => exact ih _ (hp.2 _) _

/-- The operations of the uninterrupted run of a program, in order. -/
def ops (e : ε) : Prog S α → σ → List S.Op
  | .ret _, _ => []
  | .op o k, s => o :: ops e (k (M.exec e o s).2) (M.exec e o s).1

@[simp] theorem ops_ret (e : ε) (a : α) (s : σ) : M.ops e (.ret a) s = [] := rfl

@[simp] theorem ops_op (e : ε) (o : S.Op) (k : S.Res o → Prog S α) (s : σ) :
    M.ops e (.op o k) s = o :: M.ops e (k (M.exec e o s).2) (M.exec e o s).1 := rfl

theorem ops_bind (e : ε) (p : Prog S α) (f : α → Prog S β) (s : σ) :
    M.ops e (p >>= f) s = M.ops e p s ++ M.ops e (f (M.run e p s).2) (M.run e p s).1 := by
  induction p generalizing s with
  | ret a => rfl
  | op o k ih => exact congrArg (o :: ·) (ih _ _)

theorem ops_all {P : S.Op → Prop} {p : Prog S α} (hp : p.All P) (e : ε) (s : σ) :
    ∀ o ∈ M.ops e p s, P o := by
  induction p generalizing s with
  | ret a => simp
  | op o k ih =>
    intro o' ho'
    rcases List.mem_cons.mp ho' with rfl | ho'
    · exact hp.1
    · exact ih _ (hp.2 _) _ o' ho'

end Machine
end Atomic
