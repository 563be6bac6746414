import RustdeskServer.Atomic.Interleave

/-!
# Programs that follow an automaton

Which operations a program performs may depend on what it did before: a counter goes up, a
key is set once.  An automaton over the operations says so.  A program *follows* it from a
state if, whatever its operations answer, each of them is a move of the automaton.

When every program over a shared state follows its own automaton, an invariant of the
automata's states together with the shared state need only be kept by one move.

## Main definitions

* `Prog.Follows δ q p` — `p` follows the automaton `δ` from the state `q`.

## Main results

* `Prog.All.follows_bind` — a part whose operations leave the automaton where it is.
* `Reach.follows` — **the invariant rule for programs that follow automata.**
-/

namespace Atomic

variable {S : Sig} {σ ε ι α β Q : Type}

/-- Whatever they answer, the operations of the program are moves of `δ` from `q` on. -/
def Prog.Follows (δ : Q → S.Op → Q → Prop) : Q → Prog S α → Prop
  | _, .ret _ => True
  | q, .op o k => ∃ q', δ q o q' ∧ ∀ r, (k r).Follows δ q'

theorem Prog.All.follows_bind {δ : Q → S.Op → Q → Prop} {q : Q} {p : Prog S α} {f : α → Prog S β}
    (hp : p.All fun o => δ q o q) (hf : ∀ a, (f a).Follows δ q) : (p >>= f).Follows δ q := by
  induction p with
  | ret a => exact hf a
  | op o k ih => exact ⟨q, hp.1, fun r => ih r (hp.2 r)⟩

theorem Prog.All.follows {δ : Q → S.Op → Q → Prop} {q : Q} {p : Prog S α}
    (hp : p.All fun o => δ q o q) : p.Follows δ q := by
  induction p with
  | ret a => trivial
  | op o k ih => exact ⟨q, hp.1, fun r => ih r (hp.2 r)⟩

/-- A program may go on with one that follows the automaton from every state. -/
theorem Prog.Follows.bind {δ : Q → S.Op → Q → Prop} {q : Q} {p : Prog S α} {f : α → Prog S β}
    (hp : p.Follows δ q) (hf : ∀ a q, (f a).Follows δ q) : (p >>= f).Follows δ q := by
  induction p generalizing q with
  | ret a => exact hf a q
  | op o k ih =>
    obtain ⟨q', hmove, hk⟩ := hp
    exact ⟨q', hmove, fun r => ih r (hk r)⟩

/-- **The invariant rule for programs that follow automata**: if every program follows its
own, and `J` survives an operation that is a move of its program's automaton, then `J`
holds of the automata's states and the shared state wherever a run leads. -/
theorem Reach.follows [DecidableEq ι] {M : Machine S σ ε} {δ : ι → Q → S.Op → Q → Prop}
    {J : (ι → Q) → σ → Prop} {ok : Config S σ ι α → ι → ε → Prop} {c₀ c : Config S σ ι α}
    {q₀ : ι → Q} (h0 : ∀ i, (c₀.task i).Follows (δ i) (q₀ i)) (hJ0 : J q₀ c₀.st)
    (hJ : ∀ q s i e o q', J q s → δ i (q i) o q' → J (Function.update q i q') (M.exec e o s).1)
    (h : Reach M ok c₀ c) : ∃ q, (∀ i, (c.task i).Follows (δ i) (q i)) ∧ J q c.st := by
  induction h with
  | refl => exact ⟨q₀, h0, hJ0⟩
  | @step c _ i e _ ih =>
    obtain ⟨q, hfol, hJc⟩ := ih
    cases hi : c.task i with
    | ret a =>
      rw [Config.step_ret M hi]
      exact ⟨q, hfol, hJc⟩
    | op o k =>
      have hfi := hfol i
      rw [hi] at hfi
      obtain ⟨q', hmove, hk⟩ := hfi
      rw [Config.step_op M hi]
      refine ⟨Function.update q i q', fun j => ?_, hJ q c.st i e o q' hJc hmove⟩
      by_cases hj : j = i
      · subst hj
        simpa only [Function.update_self] using hk _
      · simpa only [Function.update_of_ne hj] using hfol j

end Atomic
