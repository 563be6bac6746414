import RustdeskServer.Atomic.Interleave

/-!
# Programs that hold things

An operation may hand a program something that is nobody else's from then on, an entry taken
out of a shared map, and the program may use it once or give it away.  What the program holds
stands in no variable of the shared state; it is a matter of what its operations answered.

Here each program has a *hand*, which its operations change as `δ` says, seeing the answers.
An invariant may then speak of the shared state, of the history and of all hands together:
that nothing is in two places.

## Main definitions

* `Prog.Holds δ Q p h` — whatever they answer, the operations of `p` are moves of `δ` from the
  hand `h` on, and `p` returns with `Q`.

## Main results

* `Prog.Holds.bind` — the judgement composes along a bind.
* `Prog.All.holds` — operations that leave every hand as it is.
* `performed_holds` — **the rule for histories of programs that hold things.**
-/

namespace Atomic

variable {S : Sig} {σ ε ι α β H : Type}

/-- Whatever they answer, the operations of the program are moves of `δ` from the hand on, and
what is returned and the hand at the end are in `Q`. -/
def Prog.Holds (δ : H → (o : S.Op) → S.Res o → H → Prop) (Q : α → H → Prop) :
    Prog S α → H → Prop
  | .ret a, h => Q a h
  | .op o k, h => ∀ r, ∃ h', δ h o r h' ∧ (k r).Holds δ Q h'

section Holds

variable {δ : H → (o : S.Op) → S.Res o → H → Prop}

theorem Prog.Holds.bind {Q : α → H → Prop} {Q' : β → H → Prop} {p : Prog S α}
    {f : α → Prog S β} {h : H} (hp : p.Holds δ Q h)
    (hf : ∀ a h', Q a h' → (f a).Holds δ Q' h') : (p >>= f).Holds δ Q' h := by
  induction p generalizing h with
  | ret a => exact hf a h hp
  | op o k ih =>
    intro r
    obtain ⟨h', hmove, hk⟩ := hp r
    exact ⟨h', hmove, ih r hk⟩

theorem Prog.Holds.ite {c : Prop} {_ : Decidable c} {Q : α → H → Prop} {p q : Prog S α} {h : H}
    (hp : c → p.Holds δ Q h) (hq : ¬c → q.Holds δ Q h) :
    (if c then p else q).Holds δ Q h := by
  split
  · next hc => exact hp hc
  · next hc => exact hq hc

/-- Operations that leave the hand as it is. -/
theorem Prog.All.holds {P : S.Op → Prop} (hP : ∀ h o r, P o → δ h o r h) {p : Prog S α}
    (hp : p.All P) {Q : α → H → Prop} {h : H} (hQ : ∀ a, Q a h) : p.Holds δ Q h := by
  induction p with
  | ret a => exact hQ a
  | op o k ih =>
    intro r
    exact ⟨h, hP h o r hp.1, ih r (hp.2 r)⟩

end Holds

/-- **The rule for histories of programs that hold things**: if every program moves its own
hand by its `δ`, and `J` survives an operation that is such a move, then `J` holds of the
history, of some hands and of the shared state along every schedule. -/
theorem performed_holds [DecidableEq ι] {M : Machine S σ ε}
    {δ : ι → H → (o : S.Op) → S.Res o → H → Prop} {Q : ι → α → H → Prop}
    {J : List (ι × S.Op) → (ι → H) → σ → Prop} {c₀ : Config S σ ι α} {h₀ : ι → H}
    (htask : ∀ i, (c₀.task i).Holds (δ i) (Q i) (h₀ i)) (hJ0 : J [] h₀ c₀.st)
    (hJ : ∀ tr h s i e o h', J tr h s → δ i (h i) o (M.exec e o s).2 h' →
      J ((i, o) :: tr) (Function.update h i h') (M.exec e o s).1)
    (l : List (ι × ε)) :
    ∃ h, J (c₀.performed M l) h (c₀.sched M l).st ∧
      ∀ i, ((c₀.sched M l).task i).Holds (δ i) (Q i) (h i) := by
  refine performed_inv (P := fun tr c => ∃ h, J tr h c.st ∧
    ∀ i, (c.task i).Holds (δ i) (Q i) (h i)) ⟨h₀, hJ0, htask⟩ ?_ l
  intro tr c i e o k hc hi
  obtain ⟨h, hJc, htasks⟩ := hc
  have hti := htasks i
  rw [hi] at hti
  obtain ⟨h', hmove, hk⟩ := hti (M.exec e o c.st).2
  refine ⟨Function.update h i h', hJ tr h c.st i e o h' hJc hmove, fun j => ?_⟩
  by_cases hj : j = i
  · subst hj
    simpa only [Function.update_self] using hk
  · simpa only [Function.update_of_ne hj] using htasks j

end Atomic
