import Mathlib.Data.List.DropRight

/-!
# A log of the newest

A log that skips repetitions looks back over its newest `k` elements to tell whether the
next one is a repetition.  A bounded log drops its oldest element when it is full.  The
bounded log then looks back over less than the unbounded one remembers; but as long as it
holds `k` elements, the two see the same ones, and take the same decisions.

## Main definitions

* `Plain.record`, `Plain.recordUpTo` — an element comes to the unbounded log, to the bounded
  one.

## Main results

* `Plain.foldl_recordUpTo` — **the bounded log is the end of the unbounded one.**
* `Plain.length_foldl_recordUpTo`, `Plain.foldl_recordUpTo_sublist` — it keeps its bound, and
  holds what came in the order in which it came.
-/

namespace Plain

variable {α : Type*} (repeats : List α → α → Bool) (k max : ℕ)

/-- An element comes to the unbounded log, oldest first; `repeats` sees the newest `k`,
newest first. -/
def record (q : List α) (x : α) : List α := if repeats (q.reverse.take k) x then q else q ++ [x]

/-- The same for the bounded log. -/
def recordUpTo (q : List α) (x : α) : List α :=
  if repeats (q.reverse.take k) x then q
  else (if q.length ≥ max then q.drop 1 else q) ++ [x]

variable {repeats k max}

/-- The newest `k` are among the newest `max`. -/
theorem take_reverse_rtake (hk : k ≤ max) (q : List α) :
    (q.rtake max).reverse.take k = q.reverse.take k := by
  rw [List.rtake_eq_reverse_take_reverse, List.reverse_reverse, List.take_take,
    Nat.min_eq_left hk]

theorem length_rtake (q : List α) : (q.rtake max).length = min max q.length := by
  rw [List.rtake, List.length_drop]
  omega

/-- Dropping the oldest one makes room for the next. -/
theorem rtake_append_singleton (hmax : 0 < max) (q : List α) (x : α) :
    (q ++ [x]).rtake max =
      (if (q.rtake max).length ≥ max then (q.rtake max).drop 1 else q.rtake max) ++ [x] := by
  obtain ⟨m, rfl⟩ : ∃ m, max = m + 1 := ⟨max - 1, by omega⟩
  rw [List.rtake_concat_succ, length_rtake]
  split
  · next hfull =>
    rw [List.rtake, List.rtake, List.drop_drop]
    have hlen : m + 1 ≤ q.length := by omega
    rw [show q.length - (m + 1) + 1 = q.length - m by omega]
  · next hroom =>
    have hlen : q.length ≤ m := by omega
    rw [List.rtake, List.rtake, Nat.sub_eq_zero_of_le hlen,
      Nat.sub_eq_zero_of_le (Nat.le_succ_of_le hlen)]

/-- One element comes to both logs. -/
theorem recordUpTo_rtake (hk : k ≤ max) (hmax : 0 < max) (q : List α) (x : α) :
    recordUpTo repeats k max (q.rtake max) x = (record repeats k q x).rtake max := by
  rw [recordUpTo, record, take_reverse_rtake hk]
  split
  · rfl
  · rw [rtake_append_singleton hmax]

/-- **The bounded log is the end of the unbounded one.** -/
theorem foldl_recordUpTo (hk : k ≤ max) (hmax : 0 < max) (l q : List α) :
    l.foldl (recordUpTo repeats k max) (q.rtake max) =
      (l.foldl (record repeats k) q).rtake max := by
  induction l generalizing q with
  | nil => rfl
  | cons x l ih =>
    rw [List.foldl_cons, List.foldl_cons, recordUpTo_rtake hk hmax]
    apply ih

theorem length_recordUpTo (hmax : 0 < max) {q : List α} (hq : q.length ≤ max) (x : α) :
    (recordUpTo repeats k max q x).length ≤ max := by
  rw [recordUpTo]
  split
  · exact hq
  · rw [List.length_append, List.length_singleton]
    split
    · rw [List.length_drop]
      omega
    · omega

/-- The bounded log keeps its bound. -/
theorem length_foldl_recordUpTo (hmax : 0 < max) (l : List α) {q : List α}
    (hq : q.length ≤ max) : (l.foldl (recordUpTo repeats k max) q).length ≤ max :=
  List.foldlRecOn (motive := fun q : List α => q.length ≤ max) l _ hq
    fun _ hq x _ => length_recordUpTo hmax hq x

theorem recordUpTo_sublist (q : List α) (x : α) :
    (recordUpTo repeats k max q x).Sublist (q ++ [x]) := by
  rw [recordUpTo]
  split
  · exact List.sublist_append_left q [x]
  · apply List.Sublist.append_right
    split
    · exact List.drop_sublist 1 q
    · exact List.Sublist.refl q

/-- The bounded log holds what came, in the order in which it came. -/
theorem foldl_recordUpTo_sublist (l q : List α) :
    (l.foldl (recordUpTo repeats k max) q).Sublist (q ++ l) := by
  induction l generalizing q with
  | nil => simp
  | cons x l ih =>
    have hstep : (recordUpTo repeats k max q x ++ l).Sublist (q ++ [x] ++ l) :=
      (recordUpTo_sublist q x).append_right l
    rw [List.append_assoc, List.singleton_append] at hstep
    exact (ih _).trans hstep

end Plain
