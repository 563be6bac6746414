import RustdeskServer.Atomic.Prog

/-!
# Interleaving programs over a shared state

Any number of programs run over one shared state; at each step one of them, any
one, performs its next operation.  A run is a sequence of such steps, and a
*condition* on steps — which operation may be performed in which state — picks
the runs all of whose steps meet it.

Two ways to reason about all runs are provided.  `Reach.inv` is the plain
invariant rule over whole configurations.  `Safe` is a rely-guarantee judgement
for one program, which never mentions the others: at every operation the state
may first have changed by any number of steps of the others, all of which keep
the same relation `R` and the same invariant `I`.  It is proved program by
program, along the program's own binds, and `Reach.safe` puts the programs
together.

## Main definitions

* `Config`, `Config.step` — a shared state with the programs over it; one step.
* `Reach M ok c₀ c` — `c` is reached from `c₀` by steps that meet `ok`.
* `Config.sched`, `Config.Along` — the configuration a schedule leads to, and that
  its steps meet a condition.
* `Config.performed` — the operations performed along a schedule.
* `Safe` — the rely-guarantee judgement.

## Main results

* `Reach.inv` — an invariant of every step is an invariant of every run.
* `Safe.bind` — the judgement composes along a bind.
* `Reach.safe` — **programs that are each safe are safe together.**
* `Safe.guarantee` — what a safe program finds when it performs an operation.
* `Reach.guarantee_inv` — what the guarantee keeps holds along every run.
* `performed_along`, `performed_inv` — the rule for what a schedule's history says.
* `reach_sched`, `reach_run` — schedules are runs, and so is the uninterrupted
  run of one program.
-/

namespace Atomic

variable {S : Sig} {σ ε ι α β : Type}

/-- A shared state and the programs running over it. -/
structure Config (S : Sig) (σ ι α : Type) where
  /-- The shared state. -/
  st : σ
  /-- What is left of each program. -/
  task : ι → Prog S α

section Step

variable [DecidableEq ι] (M : Machine S σ ε)

/-- Program `i` performs its next operation; a finished program does nothing. -/
def Config.step (c : Config S σ ι α) (i : ι) (e : ε) : Config S σ ι α :=
  match c.task i with
  | .ret _ => c
  | .op o k =>
    { st := (M.exec e o c.st).1
      task := Function.update c.task i (k (M.exec e o c.st).2) }

theorem Config.step_ret {c : Config S σ ι α} {i : ι} {a : α} (h : c.task i = .ret a) (e : ε) :
    c.step M i e = c := by
  unfold Config.step
  rw [h]

theorem Config.step_op {c : Config S σ ι α} {i : ι} {o : S.Op} {k : S.Res o → Prog S α}
    (h : c.task i = .op o k) (e : ε) :
    c.step M i e =
      { st := (M.exec e o c.st).1
        task := Function.update c.task i (k (M.exec e o c.st).2) } := by
  unfold Config.step
  rw [h]

/-- The configuration a schedule leads to. -/
def Config.sched (c : Config S σ ι α) : List (ι × ε) → Config S σ ι α
  | [] => c
  | (i, e) :: l => (c.step M i e).sched l

/-- The operations performed along a schedule, and by whom, the newest first. -/
def Config.performed (c : Config S σ ι α) : List (ι × ε) → List (ι × S.Op)
  | [] => []
  | (i, e) :: l => (c.step M i e).performed l ++ ((c.task i).next?.map (Prod.mk i)).toList

/-- The configurations reached from `c₀` by steps that all meet `ok`. -/
inductive Reach (ok : Config S σ ι α → ι → ε → Prop) (c₀ : Config S σ ι α) :
    Config S σ ι α → Prop
  /-- No step yet. -/
  | refl : Reach ok c₀ c₀
  /-- One more step. -/
  | step {c : Config S σ ι α} (h : Reach ok c₀ c) (i : ι) (e : ε) (hok : ok c i e) :
      Reach ok c₀ (c.step M i e)

/-- Every step of a schedule meets `ok`. -/
def Config.Along (ok : Config S σ ι α → ι → ε → Prop) (c : Config S σ ι α) :
    List (ι × ε) → Prop
  | [] => True
  | (i, e) :: l => ok c i e ∧ (c.step M i e).Along ok l

/-- The condition on steps that a condition on operations makes. -/
def OpOk (C : ε → S.Op → σ → Prop) (c : Config S σ ι α) (i : ι) (e : ε) : Prop :=
  ∀ o, (c.task i).next? = some o → C e o c.st

instance (C : ε → S.Op → σ → Prop) [∀ e o s, Decidable (C e o s)] (c : Config S σ ι α) (i : ι)
    (e : ε) : Decidable (OpOk C c i e) :=
  inferInstanceAs (Decidable (∀ o ∈ (c.task i).next?, C e o c.st))

/-- Whether a schedule meets a condition can be checked step by step. -/
def decidableAlong (ok : Config S σ ι α → ι → ε → Prop) [∀ c i e, Decidable (ok c i e)] :
    (c : Config S σ ι α) → (l : List (ι × ε)) → Decidable (c.Along M ok l)
  | _, [] => isTrue trivial
  | c, (i, e) :: l =>
    have : Decidable ((c.step M i e).Along M ok l) := decidableAlong ok (c.step M i e) l
    inferInstanceAs (Decidable (ok c i e ∧ (c.step M i e).Along M ok l))

instance (C : ε → S.Op → σ → Prop) [∀ e o s, Decidable (C e o s)] (c : Config S σ ι α)
    (l : List (ι × ε)) : Decidable (c.Along M (OpOk C) l) :=
  decidableAlong M (OpOk C) c l

variable {M}

/-- **The invariant rule**: what the start satisfies and every step that meets
the condition keeps holds wherever such steps lead. -/
theorem Reach.inv {ok : Config S σ ι α → ι → ε → Prop} {c₀ c : Config S σ ι α}
    {P : Config S σ ι α → Prop} (h0 : P c₀)
    (hstep : ∀ c i e, P c → ok c i e → P (c.step M i e)) (h : Reach M ok c₀ c) : P c := by
  induction h with
  | refl => exact h0
  | step _ i e hok ih => exact hstep _ i e ih hok

theorem Reach.mono {ok ok' : Config S σ ι α → ι → ε → Prop} {c₀ c : Config S σ ι α}
    (himp : ∀ c i e, ok c i e → ok' c i e) (h : Reach M ok c₀ c) : Reach M ok' c₀ c := by
  induction h with
  | refl => exact .refl
  | step _ i e hok ih => exact ih.step i e (himp _ _ _ hok)

theorem Reach.trans {ok : Config S σ ι α → ι → ε → Prop} {c₀ c₁ c₂ : Config S σ ι α}
    (h₁ : Reach M ok c₀ c₁) (h₂ : Reach M ok c₁ c₂) : Reach M ok c₀ c₂ := by
  induction h₂ with
  | refl => exact h₁
  | step _ i e hok ih => exact ih.step i e hok

/-- Where a schedule leads is reached, if its steps meet the condition. -/
theorem reach_sched {ok : Config S σ ι α → ι → ε → Prop} {c : Config S σ ι α}
    {l : List (ι × ε)} (h : c.Along M ok l) : Reach M ok c (c.sched M l) := by
  induction l generalizing c with
  | nil => exact .refl
  | cons x l ih => exact (Reach.refl.step x.1 x.2 h.1).trans (ih h.2)

/-- **The rule for histories**: what holds at the start, of no history, and survives every
operation that meets the condition as it joins the history, holds along every schedule whose
steps meet it. -/
theorem performed_along {ok : Config S σ ι α → ι → ε → Prop}
    {P : List (ι × S.Op) → Config S σ ι α → Prop} {c₀ : Config S σ ι α} (h0 : P [] c₀)
    (hstep : ∀ tr c i e o k, P tr c → ok c i e → c.task i = .op o k →
      P ((i, o) :: tr) ⟨(M.exec e o c.st).1, Function.update c.task i (k (M.exec e o c.st).2)⟩)
    (l : List (ι × ε)) (hl : c₀.Along M ok l) : P (c₀.performed M l) (c₀.sched M l) := by
  -- the history so far is carried along
  have key : ∀ (l : List (ι × ε)) (tr : List (ι × S.Op)) (c : Config S σ ι α), P tr c →
      c.Along M ok l → P (c.performed M l ++ tr) (c.sched M l) := by
    intro l
    induction l with
    | nil => exact fun tr c h _ => h
    | cons x l ih =>
      intro tr c h hl
      obtain ⟨i, e⟩ := x
      cases hi : c.task i with
      | ret a =>
        have h' := ih tr (c.step M i e) (by rwa [Config.step_ret M hi]) hl.2
        simpa [Config.performed, Config.sched, hi] using h'
      | op o k =>
        have h' := ih ((i, o) :: tr) (c.step M i e)
          (by rw [Config.step_op M hi]; exact hstep tr c i e o k h hl.1 hi) hl.2
        simpa [Config.performed, Config.sched, hi] using h'
  have h := key l [] c₀ h0 hl
  rwa [List.append_nil] at h

theorem along_true (c : Config S σ ι α) (l : List (ι × ε)) :
    c.Along M (fun _ _ _ => True) l := by
  induction l generalizing c with
  | nil => trivial
  | cons x l ih => exact ⟨trivial, ih _⟩

/-- The same for all schedules. -/
theorem performed_inv {P : List (ι × S.Op) → Config S σ ι α → Prop} {c₀ : Config S σ ι α}
    (h0 : P [] c₀)
    (hstep : ∀ tr c i e o k, P tr c → c.task i = .op o k →
      P ((i, o) :: tr) ⟨(M.exec e o c.st).1, Function.update c.task i (k (M.exec e o c.st).2)⟩)
    (l : List (ι × ε)) : P (c₀.performed M l) (c₀.sched M l) :=
  performed_along h0 (fun tr c i e o k h _ hi => hstep tr c i e o k h hi) l (along_true c₀ l)

/-- **The uninterrupted run of one program is one of the interleavings.** -/
theorem reach_run (c : Config S σ ι α) (i : ι) (e : ε) :
    Reach M (fun _ _ _ => True) c
      { st := (M.run e (c.task i) c.st).1
        task := Function.update c.task i (.ret (M.run e (c.task i) c.st).2) } := by
  -- the program that is left shrinks with every step of its own
  have key : ∀ (p : Prog S α) (c : Config S σ ι α), c.task i = p →
      Reach M (fun _ _ _ => True) c
        { st := (M.run e p c.st).1
          task := Function.update c.task i (.ret (M.run e p c.st).2) } := by
    intro p
    induction p with
    | ret a =>
      intro c hc
      have hself : Function.update c.task i (.ret a) = c.task := by
        rw [← hc, Function.update_eq_self]
      simp only [Machine.run_ret, hself]
      exact .refl
    | op o k ih =>
      intro c hc
      have hone : Reach M (fun _ _ _ => True) c (c.step M i e) := Reach.refl.step i e trivial
      rw [Config.step_op M hc] at hone
      refine hone.trans ?_
      have h := ih (M.exec e o c.st).2
        { st := (M.exec e o c.st).1
          task := Function.update c.task i (k (M.exec e o c.st).2) } (by simp)
      simpa only [Function.update_idem, Machine.run_op] using h
  exact key _ c rfl

end Step

/-! ### Rely-guarantee -/

section Safe

variable (M : Machine S σ ε) (C : ε → S.Op → σ → Prop) (I : σ → Prop) (R : σ → σ → Prop)
  (G : ε → S.Op → σ → Prop)

/-- `Safe M C I R G Q p s`: started when the shared state is `s`, and whatever the
others do in between so long as it keeps `R` and `I`, every operation of `p` that
meets `C` keeps `R` and `I` and is performed where `G` holds, and `p` returns with
`Q`. -/
def Safe (Q : α → σ → Prop) : Prog S α → σ → Prop
  | .ret a, s => Q a s
  | .op o k, s => ∀ s', R s s' → I s' → ∀ e, C e o s' →
      R s' (M.exec e o s').1 ∧ I (M.exec e o s').1 ∧ G e o s' ∧
        Safe Q (k (M.exec e o s').2) (M.exec e o s').1

variable {M C I R G}

theorem safe_ret {Q : α → σ → Prop} {a : α} {s : σ} (h : Q a s) :
    Safe M C I R G Q (.ret a) s := h

theorem safe_op {Q : α → σ → Prop} {o : S.Op} {k : S.Res o → Prog S α} {s : σ}
    (h : ∀ s', R s s' → I s' → ∀ e, C e o s' →
      R s' (M.exec e o s').1 ∧ I (M.exec e o s').1 ∧ G e o s' ∧
        Safe M C I R G Q (k (M.exec e o s').2) (M.exec e o s').1) :
    Safe M C I R G Q (.op o k) s := h

theorem Safe.ite {c : Prop} {_ : Decidable c} {Q : α → σ → Prop} {p q : Prog S α} {s : σ}
    (hp : c → Safe M C I R G Q p s) (hq : ¬c → Safe M C I R G Q q s) :
    Safe M C I R G Q (if c then p else q) s := by
  split
  · next h => exact hp h
  · next h => exact hq h

/-- The judgement survives steps of the others, if its postcondition does. -/
theorem Safe.mono (htrans : ∀ {s t u}, R s t → R t u → R s u) {Q : α → σ → Prop}
    (hQ : ∀ a s s', R s s' → Q a s → Q a s') {p : Prog S α} {s s' : σ}
    (h : Safe M C I R G Q p s) (hR : R s s') : Safe M C I R G Q p s' := by
  cases p with
  | ret a => exact hQ a s s' hR h
  | op o k => exact fun t ht => h t (htrans hR ht)

/-- **The judgement composes along a bind.** -/
theorem Safe.bind (htrans : ∀ {s t u}, R s t → R t u → R s u) {Q : α → σ → Prop}
    {Q' : β → σ → Prop} {p : Prog S α} {f : α → Prog S β} {s : σ}
    (hrefl : R s s) (hp : Safe M C I R G Q p s)
    (hf : ∀ a s', R s s' → Q a s' → Safe M C I R G Q' (f a) s') :
    Safe M C I R G Q' (p >>= f) s := by
  -- by induction on `p`; the relation from the start is carried to where `f` begins
  have key : ∀ (p : Prog S α) (t : σ), R s t → Safe M C I R G Q p t →
      Safe M C I R G Q' (p >>= f) t := by
    intro p
    induction p with
    | ret a => exact fun t hst h => hf a t hst h
    | op o k ih =>
      intro t hst h s' hR hI e hC
      obtain ⟨h1, h2, h3, h4⟩ := h s' hR hI e hC
      exact ⟨h1, h2, h3, ih _ _ (htrans hst (htrans hR h1)) h4⟩
  exact key p s hrefl hp

/-- **Programs that are each safe are safe together**: along every run whose
operations meet `C` the invariant holds, and what is left of each program is
still safe. -/
theorem Reach.safe [DecidableEq ι] (hrefl : ∀ s, R s s)
    (htrans : ∀ {s t u}, R s t → R t u → R s u)
    {Q : ι → α → σ → Prop} (hQ : ∀ i a s s', R s s' → Q i a s → Q i a s')
    {c₀ c : Config S σ ι α} (hI : I c₀.st)
    (h0 : ∀ i, Safe M C I R G (Q i) (c₀.task i) c₀.st) (h : Reach M (OpOk C) c₀ c) :
    I c.st ∧ R c₀.st c.st ∧ ∀ i, Safe M C I R G (Q i) (c.task i) c.st := by
  induction h with
  | refl => exact ⟨hI, hrefl _, h0⟩
  | @step c _ i e hok ih =>
    obtain ⟨hIc, hRc, hs⟩ := ih
    cases hi : c.task i with
    | ret a =>
      rw [Config.step_ret M hi]
      exact ⟨hIc, hRc, hs⟩
    | op o k =>
      have hsi := hs i
      rw [hi] at hsi
      obtain ⟨hR', hI', -, hk⟩ := hsi c.st (hrefl _) hIc e (hok o (by rw [hi]; rfl))
      rw [Config.step_op M hi]
      refine ⟨hI', htrans hRc hR', ?_⟩
      intro j
      by_cases hj : j = i
      · subst hj
        simpa using hk
      · have hj' := Safe.mono (R := R) htrans (hQ j) (hs j) hR'
        simpa only [Function.update_of_ne hj] using hj'

/-- The uninterrupted run of a safe program keeps the invariant and returns as promised. -/
theorem Safe.run (hrefl : ∀ s, R s s) {Q : α → σ → Prop} {e : ε} (hC : ∀ o s, C e o s)
    {p : Prog S α} {s : σ} (h : Safe M C I R G Q p s) (hI : I s) :
    I (M.run e p s).1 ∧ Q (M.run e p s).2 (M.run e p s).1 := by
  induction p generalizing s with
  | ret a => exact ⟨hI, h⟩
  | op o k ih =>
    obtain ⟨-, hI', -, hk⟩ := h s (hrefl s) hI e (hC o s)
    exact ih _ hk hI'

/-- A program that is safe performs its next operation where `G` holds. -/
theorem Safe.guarantee (hrefl : ∀ s, R s s) {Q : α → σ → Prop} {p : Prog S α} {s : σ}
    (h : Safe M C I R G Q p s) (hI : I s) {o : S.Op} (ho : p.next? = some o) {e : ε}
    (hC : C e o s) : G e o s := by
  cases p with
  | ret a => simp at ho
  | op o' k =>
    rw [Prog.next?_op, Option.some.injEq] at ho
    subst ho
    exact (h s (hrefl s) hI e hC).2.2.1

/-- **What the guarantee keeps holds along every run**: programs that are each safe
keep every invariant `J` of the operations performed where `G` and a further condition
`D` hold. -/
theorem Reach.guarantee_inv [DecidableEq ι] (hrefl : ∀ s, R s s)
    (htrans : ∀ {s t u}, R s t → R t u → R s u)
    {Q : ι → α → σ → Prop} (hQ : ∀ i a s s', R s s' → Q i a s → Q i a s')
    {D : ε → S.Op → σ → Prop} {J : σ → Prop}
    (hJ : ∀ e o s, I s → J s → G e o s → D e o s → J (M.exec e o s).1)
    {c₀ c : Config S σ ι α} (hI : I c₀.st) (hJ0 : J c₀.st)
    (h0 : ∀ i, Safe M C I R G (Q i) (c₀.task i) c₀.st)
    (h : Reach M (OpOk fun e o s => C e o s ∧ D e o s) c₀ c) : J c.st := by
  induction h with
  | refl => exact hJ0
  | @step c hreach i e hok ih =>
    have hreach' : Reach M (OpOk C) c₀ c := hreach.mono fun _ _ _ hok o ho => (hok o ho).1
    obtain ⟨hIc, -, hs⟩ := Reach.safe hrefl htrans hQ hI h0 hreach'
    cases hi : c.task i with
    | ret a =>
      rw [Config.step_ret M hi]
      exact ih
    | op o k =>
      have ho : (c.task i).next? = some o := by rw [hi]; rfl
      rw [Config.step_op M hi]
      exact hJ e o c.st hIc ih ((hs i).guarantee hrefl hIc ho (hok o ho).1) (hok o ho).2

end Safe
end Atomic
