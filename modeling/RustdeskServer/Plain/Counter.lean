import Mathlib.Data.List.Chain

/-!
# Counters that start again after a pause

A rate limit in two numbers: how many hits were counted, and when the last one was.  A hit
that comes a whole pause after the last one starts the count again; otherwise it is refused
when the count has passed the limit, and a refusal changes nothing.

The count never goes back while hits follow each other closely, so it bounds how many of
them there are.  `Counts` says this of the counter and of the hits that were accepted so far;
a hit may be counted and not be accepted.

## Main definitions

* `Plain.hit` — a hit at some time.
* `Plain.Close` — each follows the one before it by less than the pause.
* `Plain.Counts` — what the counter knows of the hits that were accepted.

## Main results

* `Plain.Counts.accept`, `Plain.Counts.miss` — a hit that is counted keeps `Counts`.
* `Plain.length_window_le` — **no interval shorter than the pause has more hits than ever
  followed each other closely.**
-/

namespace Plain

/-- A counter and the time of its last hit, after a hit at `now`; `none` if it is refused. -/
def hit (limit pause : ℕ) (c : ℕ × ℕ) (now : ℕ) : Option (ℕ × ℕ) :=
  if pause ≤ now - c.2 then some (1, now)
  else if limit < c.1 then none
  else some (c.1 + 1, now)

/-- Each follows the one before it by less than the pause. -/
def Close (pause : ℕ) (l : List ℕ) : Prop := l.IsChain fun a b => b < a + pause

/-- What the counter `c` knows of the times of the hits that were accepted: they are over, and
the last of them are no more than it has counted, unless a pause has passed since.  In all,
no more than `most` ever followed each other closely. -/
structure Counts (pause slack most : ℕ) (times : List ℕ) (c : ℕ × ℕ) : Prop where
  /-- They are over. -/
  le : ∀ a ∈ times, a ≤ c.2
  /-- The last of them were counted, or are long over. -/
  last : ∀ l, l ≠ [] → l <:+ times → Close pause l →
    (∀ a ∈ times.getLast?, a + pause ≤ c.2) ∨ l.length ≤ c.1 + slack
  /-- None of them were too many. -/
  most : ∀ l, l <:+: times → Close pause l → l.length ≤ most

variable {limit pause slack most now : ℕ} {times : List ℕ} {c c' : ℕ × ℕ}

/-- A hit that is not refused: after a pause, or within the limit. -/
theorem hit_eq_some (h : hit limit pause c now = some c') :
    c'.2 = now ∧ c'.1 ≤ limit + 1 ∧
      (pause ≤ now - c.2 ∧ c'.1 = 1 ∨ now - c.2 < pause ∧ c'.1 = c.1 + 1) := by
  unfold hit at h
  split at h
  · next hpause =>
    rw [Option.some.injEq] at h
    subst h
    exact ⟨rfl, Nat.le_add_left 1 limit, Or.inl ⟨hpause, rfl⟩⟩
  · next hpause =>
    split at h
    · cases h
    · next hlimit =>
      rw [Option.some.injEq] at h
      subst h
      exact ⟨rfl, by omega, Or.inr ⟨by omega, rfl⟩⟩

/-- A hit is refused only within the pause. -/
theorem hit_eq_none (h : hit limit pause c now = none) : now < c.2 + pause ∧ limit < c.1 := by
  unfold hit at h
  split at h
  · cases h
  · next hpause =>
    split at h
    · next hlimit => exact ⟨by omega, hlimit⟩
    · cases h

theorem close_append_singleton {l : List ℕ} {a : ℕ} (h : Close pause (l ++ [a])) :
    Close pause l ∧ ∀ x ∈ l.getLast?, a < x + pause := by
  obtain ⟨hl, -, hlast⟩ := List.isChain_append.mp h
  exact ⟨hl, fun x hx => hlast x hx a rfl⟩

/-- What ends a list has its last element, if it has any. -/
theorem getLast?_of_suffix {l l' : List ℕ} (h : l <:+ l') (hne : l ≠ []) :
    l.getLast? = l'.getLast? := by
  obtain ⟨t, rfl⟩ := h
  rw [List.getLast?_append_of_ne_nil t hne]

namespace Counts

theorem nil (c : ℕ × ℕ) : Counts pause slack most [] c where
  le := fun a ha => by cases ha
  last := fun l hne hl _ => absurd (List.suffix_nil.mp hl) hne
  most := fun l hl _ => by simp [List.infix_nil.mp hl]

/-- A hit that is counted but not accepted. -/
theorem miss (h : Counts pause slack most times c) (hnow : c.2 ≤ now)
    (hhit : hit limit pause c now = some c') : Counts pause slack most times c' := by
  obtain ⟨htime, -, hcases⟩ := hit_eq_some hhit
  refine ⟨?_, ?_, h.most⟩
  · intro a ha
    have := h.le a ha
    omega
  · intro l hne hl hclose
    rcases hcases with ⟨hpause, -⟩ | ⟨-, hcount⟩
    · left
      intro a ha
      have := h.le a (List.mem_of_mem_getLast? ha)
      omega
    · rcases h.last l hne hl hclose with hover | hlen
      · left
        intro a ha
        have := hover a ha
        omega
      · right
        omega

/-- A hit that is accepted: the last of them are no more than the count. -/
theorem length_le (h : Counts pause slack most times c) (hnow : c.2 ≤ now)
    (hhit : hit limit pause c now = some c') {l : List ℕ} (hl : l <:+ times ++ [now])
    (hclose : Close pause l) : l.length ≤ c'.1 + slack := by
  obtain ⟨-, -, hcases⟩ := hit_eq_some hhit
  rcases List.suffix_concat_iff.mp hl with rfl | ⟨t, rfl, ht⟩
  · exact Nat.zero_le _
  · obtain ⟨hclose', hlast⟩ := close_append_singleton hclose
    rw [List.length_append, List.length_singleton]
    rcases List.eq_nil_or_concat t with rfl | ⟨t', x, rfl⟩
    · have : 1 ≤ c'.1 := by rcases hcases with ⟨-, h⟩ | ⟨-, h⟩ <;> omega
      simp only [List.length_nil]
      omega
    · -- the one before is the last that was accepted, so the pause is not over
      rw [List.concat_eq_append] at ht hclose' hlast ⊢
      have hne : t' ++ [x] ≠ [] := by simp
      have hx : x ∈ times.getLast? := by
        rw [← getLast?_of_suffix ht hne]
        simp
      have hsoon : now < x + pause := hlast x (by simp)
      have hxle := h.le x (List.mem_of_mem_getLast? hx)
      rcases hcases with ⟨hpause, -⟩ | ⟨hno, hcount⟩
      · omega
      · rcases h.last _ hne ht hclose' with hover | hlen
        · have := hover x hx
          omega
        · omega

/-- **A hit that is accepted.** -/
theorem accept (h : Counts pause slack most times c) (hmost : limit + 1 + slack ≤ most)
    (hnow : c.2 ≤ now) (hhit : hit limit pause c now = some c') :
    Counts pause slack most (times ++ [now]) c' := by
  obtain ⟨htime, hle, -⟩ := hit_eq_some hhit
  refine ⟨?_, ?_, ?_⟩
  · intro a ha
    rw [htime]
    rcases List.mem_append.mp ha with ha | ha
    · have := h.le a ha
      omega
    · rw [List.mem_singleton.mp ha]
  · intro l _ hl hclose
    right
    exact h.length_le hnow hhit hl hclose
  · intro l hl hclose
    rcases List.infix_concat_iff.mp hl with hl | hl
    · have := h.length_le hnow hhit hl hclose
      omega
    · exact h.most l hl hclose

/-- A counter that begins with a hit it does not count. -/
theorem first (hslack : 1 ≤ slack) (hmost : 1 ≤ most) (now : ℕ) :
    Counts pause slack most [now] (0, now) where
  le := fun a ha => by rw [List.mem_singleton.mp ha]
  last := fun l _ hl _ => by
    right
    have := hl.length_le
    simp only [List.length_singleton] at this
    omega
  most := fun l hl _ => by
    have := hl.length_le
    simp only [List.length_singleton] at this
    omega

end Counts

/-! ### Intervals -/

/-- In a list that is in order, the elements below a bound come first. -/
theorem filter_lt_isPrefix {b : ℕ} {l : List ℕ} (hl : l.Pairwise (· ≤ ·)) :
    l.filter (fun x => x < b) <+: l := by
  induction l with
  | nil => exact List.prefix_refl []
  | cons a l ih =>
    obtain ⟨hle, hl⟩ := List.pairwise_cons.mp hl
    by_cases ha : a < b
    · rw [List.filter_cons_of_pos (by simpa using ha), List.prefix_cons_inj]
      exact ih hl
    · rw [List.filter_eq_nil_iff.mpr]
      · exact List.nil_prefix
      · intro x hx
        rcases List.mem_cons.mp hx with rfl | hx
        · simpa using ha
        · have := hle x hx
          simp only [decide_eq_true_eq]
          omega

/-- In a list that is in order, the elements in an interval stand together. -/
theorem filter_window_isInfix {t b : ℕ} {l : List ℕ} (hl : l.Pairwise (· ≤ ·)) :
    l.filter (fun x => t ≤ x ∧ x < b) <:+: l := by
  induction l with
  | nil => exact List.infix_refl []
  | cons a l ih =>
    have hrest := ih (List.pairwise_cons.mp hl).2
    by_cases ha : t ≤ a
    · -- from here on only the upper bound decides
      have hall : (a :: l).filter (fun x => t ≤ x ∧ x < b) = (a :: l).filter (fun x => x < b) := by
        apply List.filter_congr
        intro x hx
        have hx' : t ≤ x := by
          rcases List.mem_cons.mp hx with rfl | hx
          · exact ha
          · exact le_trans ha ((List.pairwise_cons.mp hl).1 x hx)
        simp [hx']
      rw [hall]
      exact (filter_lt_isPrefix hl).isInfix
    · rw [List.filter_cons_of_neg (by simp [ha])]
      exact hrest.trans (List.suffix_cons a l).isInfix

/-- **No interval shorter than the pause has more hits than ever followed each other
closely.** -/
theorem length_window_le (h : ∀ l, l <:+: times → Close pause l → l.length ≤ most)
    (hl : times.Pairwise (· ≤ ·)) (t : ℕ) :
    (times.filter fun x => t ≤ x ∧ x < t + pause).length ≤ most := by
  apply h _ (filter_window_isInfix hl)
  apply List.Pairwise.isChain
  apply List.pairwise_of_forall_mem_list
  intro a ha b hb
  have ha' := List.of_mem_filter ha
  have hb' := List.of_mem_filter hb
  simp only [decide_eq_true_eq] at ha' hb'
  omega

end Plain
