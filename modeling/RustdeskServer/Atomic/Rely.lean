import RustdeskServer.Atomic.Interleave

/-!
# Programs that own part of the shared state

`Safe` asks every program to keep the same relation.  Programs that share a state in which
each has something of its own, a file it has just made, need more: what belongs to a program
is left alone by all the others, but not by the program itself.

Here `K` relates the states before and after a step of anyone, and `Own i` those before and
after a step of anyone but `i`.

## Main definitions

* `SafeBy` — the judgement for the program `i`.

## Main results

* `SafeBy.bind` — the judgement composes along a bind.
* `Reach.safeBy` — **programs that are each safe are safe together.**
* `SafeBy.keeps` — what one step of a safe program keeps.
-/

namespace Atomic

variable {S : Sig} {σ ε ι α β : Type}

section SafeBy

variable (M : Machine S σ ε) (C : ε → S.Op → σ → Prop) (I : σ → Prop) (K : σ → σ → Prop)
  (Own : ι → σ → σ → Prop) (i : ι)

/-- `SafeBy M C I K Own i Q p s`: started when the shared state is `s`, and whatever the
others do in between so long as it keeps `K`, `Own i` and `I`, every operation of `p` that
meets `C` keeps `K`, `I` and what the others own, and `p` returns with `Q`. -/
def SafeBy (Q : α → σ → Prop) : Prog S α → σ → Prop
  | .ret a, s => Q a s
  | .op o k, s => ∀ s', K s s' → Own i s s' → I s' → ∀ e, C e o s' →
      K s' (M.exec e o s').1 ∧ (∀ j, j ≠ i → Own j s' (M.exec e o s').1) ∧
        I (M.exec e o s').1 ∧ SafeBy Q (k (M.exec e o s').2) (M.exec e o s').1

variable {M C I K Own i}

theorem SafeBy.ite {c : Prop} {_ : Decidable c} {Q : α → σ → Prop} {p q : Prog S α} {s : σ}
    (hp : c → SafeBy M C I K Own i Q p s) (hq : ¬c → SafeBy M C I K Own i Q q s) :
    SafeBy M C I K Own i Q (if c then p else q) s := by
  split
  · next h => exact hp h
  · next h => exact hq h

theorem SafeBy.imp {Q Q' : α → σ → Prop} (hQ : ∀ a s, Q a s → Q' a s) {p : Prog S α} {s : σ}
    (h : SafeBy M C I K Own i Q p s) : SafeBy M C I K Own i Q' p s := by
  induction p generalizing s with
  | ret a => exact hQ a s h
  | op o k ih =>
    intro s' hs ho hI e hC
    obtain ⟨h1, h2, h3, h4⟩ := h s' hs ho hI e hC
    exact ⟨h1, h2, h3, ih _ h4⟩

/-- The judgement survives steps of the others, if its postcondition does. -/
theorem SafeBy.mono (hK : ∀ {s t u}, K s t → K t u → K s u)
    (hOwn : ∀ {s t u}, Own i s t → Own i t u → Own i s u) {Q : α → σ → Prop}
    (hQ : ∀ a s s', K s s' → Own i s s' → Q a s → Q a s') {p : Prog S α} {s s' : σ}
    (h : SafeBy M C I K Own i Q p s) (hs : K s s') (ho : Own i s s') :
    SafeBy M C I K Own i Q p s' := by
  cases p with
  | ret a => exact hQ a s s' hs ho h
  | op o k => exact fun t ht hot => h t (hK hs ht) (hOwn ho hot)

/-- **The judgement composes along a bind.** -/
theorem SafeBy.bind (hK : ∀ {s t u}, K s t → K t u → K s u) {Q : α → σ → Prop}
    {Q' : β → σ → Prop} {p : Prog S α} {f : α → Prog S β} {s : σ}
    (hrefl : K s s) (hp : SafeBy M C I K Own i Q p s)
    (hf : ∀ a s', K s s' → Q a s' → SafeBy M C I K Own i Q' (f a) s') :
    SafeBy M C I K Own i Q' (p >>= f) s := by
  -- by induction on `p`; the relation from the start is carried to where `f` begins
  have key : ∀ (p : Prog S α) (t : σ), K s t → SafeBy M C I K Own i Q p t →
      SafeBy M C I K Own i Q' (p >>= f) t := by
    intro p
    induction p with
    | ret a => exact fun t hst h => hf a t hst h
    | op o k ih =>
      intro t hst h s' hs ho hI e hC
      obtain ⟨h1, h2, h3, h4⟩ := h s' hs ho hI e hC
      exact ⟨h1, h2, h3, ih _ _ (hK hst (hK hs h1)) h4⟩
  exact key p s hrefl hp

/-- What one step of a safe program keeps. -/
theorem SafeBy.keeps (hrefl : ∀ s, K s s) (horefl : ∀ s, Own i s s) {Q : α → σ → Prop}
    {o : S.Op} {k : S.Res o → Prog S α} {s : σ} (h : SafeBy M C I K Own i Q (.op o k) s)
    (hI : I s) {e : ε} (hC : C e o s) :
    K s (M.exec e o s).1 ∧ ∀ j, j ≠ i → Own j s (M.exec e o s).1 := by
  obtain ⟨h1, h2, -, -⟩ := h s (hrefl s) (horefl s) hI e hC
  exact ⟨h1, h2⟩

/-- **Programs that are each safe are safe together**: along every run whose
operations meet `C` the invariant holds, and what is left of each program is
still safe. -/
theorem Reach.safeBy [DecidableEq ι] {M : Machine S σ ε} (hrefl : ∀ s, K s s)
    (hK : ∀ {s t u}, K s t → K t u → K s u) (horefl : ∀ j s, Own j s s)
    (hOwn : ∀ j {s t u}, Own j s t → Own j t u → Own j s u)
    {Q : ι → α → σ → Prop} (hQ : ∀ j a s s', K s s' → Own j s s' → Q j a s → Q j a s')
    {c₀ c : Config S σ ι α} (hI : I c₀.st)
    (h0 : ∀ j, SafeBy M C I K Own j (Q j) (c₀.task j) c₀.st) (h : Reach M (OpOk C) c₀ c) :
    I c.st ∧ K c₀.st c.st ∧ ∀ j, SafeBy M C I K Own j (Q j) (c.task j) c.st := by
  induction h with
  | refl => exact ⟨hI, hrefl _, h0⟩
  | @step c _ i e hok ih =>
    obtain ⟨hIc, hKc, hs⟩ := ih
    cases hi : c.task i with
    | ret a =>
      rw [Config.step_ret M hi]
      exact ⟨hIc, hKc, hs⟩
    | op o k =>
      have hsi := hs i
      rw [hi] at hsi
      obtain ⟨hK', hO', hI', hk⟩ :=
        hsi c.st (hrefl _) (horefl i _) hIc e (hok o (by rw [hi]; rfl))
      rw [Config.step_op M hi]
      refine ⟨hI', hK hKc hK', ?_⟩
      intro j
      by_cases hj : j = i
      · subst hj
        simpa using hk
      · have hj' := SafeBy.mono (K := K) hK (hOwn j) (hQ j) (hs j) hK' (hO' j hj)
        simpa only [Function.update_of_ne hj] using hj'

end SafeBy
end Atomic
