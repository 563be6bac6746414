import Mathlib.Algebra.Group.Nat.Defs
import Mathlib.Data.Int.Notation

/-!
# Taking turns by a counter

A counter of `m` values goes up by one with every turn, and `n` places are served by its value
modulo `n`.  As long as the counter does not go round, places are served in a cycle, and no two
of them are more than one turn apart.  Where it goes round and `n` does not divide `m`, the
cycle is cut short, and the first places gain a turn on the last ones.

## Main definitions

* `Plain.turns start m n k` — the places of `k` turns.
* `Plain.served` — how often a place is served by the counter's values below a bound.

## Main results

* `Plain.served_succ` — one value more.
* `Plain.count_turns` — the turns of a place, counted by `served`.
* `Plain.count_turns_le` — **two places are at most one turn apart, and one more for each time
  the counter goes round.**
-/

namespace Plain

/-- The places of `k` turns, where the counter starts at `start`. -/
def turns (start m n k : ℕ) : List ℕ := (List.range k).map fun i => (start + i) % m % n

theorem turns_succ (start m n k : ℕ) :
    turns start m n (k + 1) = turns start m n k ++ [(start + k) % m % n] := by
  rw [turns, List.range_succ, List.map_append, List.map_singleton]
  rfl

theorem turns_lt {start m n k : ℕ} (hn : 0 < n) : ∀ a ∈ turns start m n k, a < n := by
  intro a ha
  obtain ⟨i, -, rfl⟩ := List.mem_map.mp ha
  exact Nat.mod_lt _ hn

/-- One more completes a cycle. -/
theorem succ_round {n t : ℕ} (hn : 0 < n) (h : t % n + 1 = n) :
    (t + 1) / n = t / n + 1 ∧ (t + 1) % n = 0 := by
  have hdiv : n * (t / n) + t % n = t := Nat.div_add_mod t n
  rw [Nat.div_mod_unique hn]
  refine ⟨?_, hn⟩
  rw [Nat.mul_add, Nat.mul_one]
  omega

/-- One more stays in its cycle. -/
theorem succ_within {n t : ℕ} (hn : 0 < n) (h : t % n + 1 ≠ n) :
    (t + 1) / n = t / n ∧ (t + 1) % n = t % n + 1 := by
  have hdiv : n * (t / n) + t % n = t := Nat.div_add_mod t n
  have hmod : t % n < n := Nat.mod_lt t hn
  rw [Nat.div_mod_unique hn]
  exact ⟨by omega, by omega⟩

/-- How many of the values below `t` are `a` modulo `n`. -/
def served (n a t : ℕ) : ℕ := t / n + if a < t % n then 1 else 0

/-- One value more. -/
theorem served_succ {n a : ℕ} (ha : a < n) (t : ℕ) :
    served n a (t + 1) = served n a t + if t % n = a then 1 else 0 := by
  have hn : 0 < n := by omega
  unfold served
  by_cases hlast : t % n + 1 = n
  · obtain ⟨hdiv, hmod⟩ := succ_round hn hlast
    rw [hdiv, hmod]
    split <;> split <;> split <;> omega
  · obtain ⟨hdiv, hmod⟩ := succ_within hn hlast
    rw [hdiv, hmod]
    split <;> split <;> split <;> omega

/-- The turns of a place up to a value of the counter, each time round included. -/
def total (m n a x : ℕ) : ℕ := x / m * served n a m + served n a (x % m)

theorem total_succ {m n a : ℕ} (hm : 0 < m) (ha : a < n) (x : ℕ) :
    total m n a (x + 1) = total m n a x + if x % m % n = a then 1 else 0 := by
  have hnext := served_succ ha (x % m)
  unfold total
  by_cases hlast : x % m + 1 = m
  · -- the counter goes round
    obtain ⟨hdiv, hmod⟩ := succ_round hm hlast
    have hzero : served n a 0 = 0 := by simp [served]
    rw [hlast] at hnext
    rw [hdiv, hmod, hzero, Nat.add_mul, Nat.one_mul]
    omega
  · obtain ⟨hdiv, hmod⟩ := succ_within hm hlast
    rw [hdiv, hmod]
    omega

/-- **The turns of a place.** -/
theorem count_turns {start m n a : ℕ} (hm : 0 < m) (ha : a < n) (k : ℕ) :
    (turns start m n k).count a + total m n a start = total m n a (start + k) := by
  induction k with
  | zero => simp [turns]
  | succ k ih =>
    have hnext := total_succ hm ha (start + k)
    rw [turns_succ, List.count_append, List.count_singleton, ← Nat.add_assoc, hnext]
    by_cases hlast : (start + k) % m % n = a
    · simp only [hlast, if_pos, beq_self_eq_true]
      omega
    · simp only [hlast, beq_iff_eq, if_false]
      omega

/-- Of the values below a bound, two places have nearly as many, and the lower one no fewer. -/
theorem served_near (n t : ℕ) {a b : ℕ} (h : a ≤ b) :
    served n b t ≤ served n a t ∧ served n a t ≤ served n b t + 1 := by
  unfold served
  constructor
  · split <;> split <;> omega
  · split <;> split <;> omega

/-- **Two places are at most one turn apart, and one more for each time the counter goes
round.** -/
theorem count_turns_le {start m n a b : ℕ} (hstart : start < m) (ha : a < n) (hb : b < n)
    (k : ℕ) :
    (turns start m n k).count a ≤ (turns start m n k).count b + 1 + (start + k) / m := by
  have hm : 0 < m := by omega
  have hcount := @count_turns start m n a hm ha k
  have hcount' := @count_turns start m n b hm hb k
  have hdiv : start / m = 0 := Nat.div_eq_of_lt hstart
  simp only [total, hdiv, Nat.zero_mul, Nat.zero_add] at hcount hcount'
  -- what a whole round gives to each of the two
  generalize (start + k) / m = q at hcount hcount' ⊢
  rcases Nat.le_total a b with hab | hba
  · obtain ⟨hround, hround'⟩ := served_near n m hab
    obtain ⟨hnow, hnow'⟩ := served_near n ((start + k) % m) hab
    obtain ⟨hthen, hthen'⟩ := served_near n (start % m) hab
    have hmul : q * served n a m ≤ q * served n b m + q := by
      calc q * served n a m ≤ q * (served n b m + 1) := Nat.mul_le_mul_left q hround'
        _ = q * served n b m + q := by rw [Nat.mul_add, Nat.mul_one]
    omega
  · obtain ⟨hround, hround'⟩ := served_near n m hba
    obtain ⟨hnow, hnow'⟩ := served_near n ((start + k) % m) hba
    obtain ⟨hthen, hthen'⟩ := served_near n (start % m) hba
    have hmul : q * served n a m ≤ q * served n b m := Nat.mul_le_mul_left q hround
    omega

end Plain
