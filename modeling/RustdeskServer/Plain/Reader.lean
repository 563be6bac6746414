import Mathlib.Algebra.Group.Nat.Defs
import Mathlib.Data.List.Infix
import Mathlib.Data.Nat.Notation

/-!
# Readers of texts

A reader takes something from the front of a text and leaves the rest, or fails and then has
consumed nothing.  Two things are asked of a reader.  It *leaves a suffix*; and it *stops* at a
text that starts with a character it never takes, so that it reads the same in front of that
text as it reads alone.  Both carry over to whatever is put together from such readers.

## Main definitions

* `Reader`, `Reader.bind`, `Reader.map`, `Reader.orElse`, `Reader.opt` — readers.
* `Reader.char`, `Reader.number` — a character, and a number.
* `Reader.LeavesSuffix`, `Reader.StopsAt` — what is asked of a reader.

## Main results

* `Reader.StopsAt.bind`, `Reader.StopsAt.orElse`, `Reader.stopsAt_number` — how it carries over.
* `Reader.number_toDigits` — **a number that was written is read.**
-/

namespace Plain

/-- What was read and what is left, or `none`. -/
abbrev Reader (α : Type) := List Char → Option (α × List Char)

namespace Reader

variable {α β : Type}

/-! ### How readers are put together -/

/-- Read nothing. -/
def pure (a : α) : Reader α := fun s => some (a, s)

/-- One after another. -/
def bind (p : Reader α) (f : α → Reader β) : Reader β := fun s => (p s).bind fun x => f x.1 x.2

/-- Change what was read. -/
def map (f : α → β) (p : Reader α) : Reader β := fun s => (p s).map fun x => (f x.1, x.2)

/-- The second one if the first one fails. -/
def orElse (p q : Reader α) : Reader α := fun s => (p s).or (q s)

/-- Nothing if it fails. -/
def opt (p : Reader α) : Reader (Option α) := orElse (map some p) (pure none)

/-- A character. -/
def char (c : Char) : Reader Unit
  | [] => none
  | c' :: s => if c' = c then some ((), s) else none

/-- All of a text. -/
def whole (p : Reader α) (s : List Char) : Option α :=
  (p s).bind fun x => if x.2 = [] then some x.1 else none

/-! ### Numbers -/

/-- The value of a digit or a letter. -/
def digitValue (c : Char) : Option ℕ :=
  if '0' ≤ c ∧ c ≤ '9' then some (c.toNat - 48)
  else if 'a' ≤ c ∧ c ≤ 'z' then some (c.toNat - 87)
  else if 'A' ≤ c ∧ c ≤ 'Z' then some (c.toNat - 55)
  else none

/-- The value of a character as a digit. -/
def toDigit (radix : ℕ) (c : Char) : Option ℕ := (digitValue c).filter fun d => d < radix

/-- There are too many digits or, if their number is not limited, the value is too large. -/
def tooLarge (maxDigits : Option ℕ) (max result count : ℕ) : Bool :=
  match maxDigits with
  | some m => decide (m < count)
  | none => decide (max < result)

/-- The loop over the digits, with the value and the number of digits so far. -/
def digitsLoop (radix : ℕ) (maxDigits : Option ℕ) (max : ℕ) :
    ℕ → ℕ → Reader (ℕ × ℕ)
  | result, count, [] => some ((result, count), [])
  | result, count, c :: s =>
    match toDigit radix c with
    | none => some ((result, count), c :: s)
    | some d =>
      let result := result * radix + d
      let count := count + 1
      if tooLarge maxDigits max result count then none
      else digitsLoop radix maxDigits max result count s

/-- What is asked of the value and the number of digits, after the first character. -/
def checked (zeros : Bool) (max : ℕ) (head : Option Char) (x : (ℕ × ℕ) × List Char) :
    Option (ℕ × List Char) :=
  if x.1.2 = 0 then none
  else if !zeros ∧ head = some '0' ∧ 1 < x.1.2 then none
  else if x.1.1 ≤ max then some (x.1.1, x.2)
  else none

/-- A number up to `max`, with at most `maxDigits` digits and, unless `zeros` says so, without
zeros in front. -/
def number (radix : ℕ) (maxDigits : Option ℕ) (zeros : Bool) (max : ℕ) : Reader ℕ := fun s =>
  (digitsLoop radix maxDigits max 0 0 s).bind (checked zeros max s.head?)

theorem eq_of_char {c : Char} {s t : List Char} {u : Unit}
    (h : char c s = some (u, t)) : s = c :: t := by
  cases s with
  | nil => cases h
  | cons c' s =>
    rw [char] at h
    split at h
    · next hc =>
      obtain ⟨-, rfl⟩ := Prod.mk.inj (Option.some.inj h)
      rw [hc]
    · cases h

theorem whole_eq_some {p : Reader α} {s : List Char} {a : α} :
    p.whole s = some a ↔ p s = some (a, []) := by
  unfold whole
  rw [Option.bind_eq_some_iff]
  constructor
  · rintro ⟨⟨a', r⟩, hp, h⟩
    split at h
    · next hr =>
      obtain rfl : a' = a := Option.some.inj h
      dsimp only at hr
      rw [hp, hr]
    · cases h
  · intro h
    exact ⟨(a, []), h, by simp⟩

/-! ### What is left is a suffix -/

/-- What a reader leaves is a suffix of the text. -/
def LeavesSuffix (p : Reader α) : Prop := ∀ s a r, p s = some (a, r) → r <:+ s

theorem leavesSuffix_pure (a : α) : LeavesSuffix (pure a) := by
  intro s b r h
  obtain ⟨-, rfl⟩ := Prod.mk.inj (Option.some.inj h)
  exact List.suffix_rfl

theorem leavesSuffix_char (c : Char) : LeavesSuffix (char c) := by
  intro s a r h
  cases s with
  | nil => cases h
  | cons c' s =>
    rw [char] at h
    split at h
    · obtain ⟨-, rfl⟩ := Prod.mk.inj (Option.some.inj h)
      exact List.suffix_cons c' s
    · cases h

theorem LeavesSuffix.bind {p : Reader α} {f : α → Reader β} (hp : LeavesSuffix p)
    (hf : ∀ a, LeavesSuffix (f a)) : LeavesSuffix (p.bind f) := by
  intro s b r h
  obtain ⟨⟨a, t⟩, ha, hb⟩ := Option.bind_eq_some_iff.mp h
  exact (hf a t b r hb).trans (hp s a t ha)

theorem LeavesSuffix.map {p : Reader α} (hp : LeavesSuffix p) (f : α → β) :
    LeavesSuffix (p.map f) := by
  intro s b r h
  obtain ⟨⟨a, t⟩, ha, heq⟩ := Option.map_eq_some_iff.mp h
  obtain ⟨-, rfl⟩ := Prod.mk.inj heq
  exact hp s a t ha

theorem LeavesSuffix.orElse {p q : Reader α} (hp : LeavesSuffix p) (hq : LeavesSuffix q) :
    LeavesSuffix (p.orElse q) := by
  intro s a r h
  rcases Option.or_eq_some_iff.mp h with hl | ⟨-, hr⟩
  · exact hp s a r hl
  · exact hq s a r hr

theorem leavesSuffix_digitsLoop (radix : ℕ) (maxDigits : Option ℕ) (max result count : ℕ) :
    LeavesSuffix (digitsLoop radix maxDigits max result count) := by
  intro s a r h
  induction s generalizing result count with
  | nil =>
    obtain ⟨-, rfl⟩ := Prod.mk.inj (Option.some.inj h)
    exact List.suffix_rfl
  | cons c s ih =>
    rw [digitsLoop] at h
    split at h
    · obtain ⟨-, rfl⟩ := Prod.mk.inj (Option.some.inj h)
      exact List.suffix_rfl
    · dsimp only at h
      split at h
      · cases h
      · exact (ih _ _ h).trans (List.suffix_cons c s)

theorem leavesSuffix_number (radix : ℕ) (maxDigits : Option ℕ) (zeros : Bool) (max : ℕ) :
    LeavesSuffix (number radix maxDigits zeros max) := by
  intro s n r h
  obtain ⟨⟨⟨result, count⟩, t⟩, hloop, h⟩ := Option.bind_eq_some_iff.mp h
  unfold checked at h
  split_ifs at h
  obtain ⟨-, rfl⟩ := Prod.mk.inj (Option.some.inj h)
  exact leavesSuffix_digitsLoop _ _ _ _ _ s _ _ hloop

/-- A character that is not in the text is not there to be read later. -/
theorem LeavesSuffix.char_eq_none {p : Reader α} (hp : LeavesSuffix p) {c : Char}
    {s r : List Char} {a : α} (h : p s = some (a, r)) (hc : c ∉ s) : char c r = none := by
  have hr : c ∉ r := fun hmem => hc ((hp s a r h).subset hmem)
  cases r with
  | nil => rfl
  | cons c' r =>
    have hne : c' ≠ c := by
      rintro rfl
      exact hr List.mem_cons_self
    rw [char, if_neg hne]

/-! ### Where a reader stops -/

/-- A reader reads the same in front of `y` as alone. -/
def StopsAt (y : List Char) (p : Reader α) : Prop :=
  ∀ s, p (s ++ y) = (p s).map fun x => (x.1, x.2 ++ y)

variable {y : List Char}

theorem stopsAt_pure (a : α) : StopsAt y (pure a) := fun _ => rfl

theorem stopsAt_char {c : Char} (hy : y.head? ≠ some c) : StopsAt y (char c) := by
  intro s
  cases s with
  | nil =>
    cases y with
    | nil => rfl
    | cons c' y =>
      have hne : c' ≠ c := by simpa using hy
      simp [char, hne]
  | cons c' s =>
    rw [List.cons_append, char, char]
    split
    · rfl
    · rfl

theorem StopsAt.bind {p : Reader α} {f : α → Reader β} (hp : StopsAt y p)
    (hf : ∀ a, StopsAt y (f a)) : StopsAt y (p.bind f) := by
  intro s
  rw [Reader.bind, hp s, Reader.bind]
  cases p s with
  | none => rfl
  | some x => exact hf x.1 x.2

theorem StopsAt.map {p : Reader α} (hp : StopsAt y p) (f : α → β) : StopsAt y (p.map f) := by
  intro s
  rw [Reader.map, hp s, Reader.map]
  cases p s with
  | none => rfl
  | some x => rfl

theorem StopsAt.orElse {p q : Reader α} (hp : StopsAt y p) (hq : StopsAt y q) :
    StopsAt y (p.orElse q) := by
  intro s
  rw [Reader.orElse, hp s, hq s, Reader.orElse]
  cases p s with
  | none => rfl
  | some x => rfl

theorem StopsAt.opt {p : Reader α} (hp : StopsAt y p) : StopsAt y p.opt :=
  (hp.map some).orElse (stopsAt_pure none)

theorem stopsAt_digitsLoop {radix : ℕ} {maxDigits : Option ℕ} {max : ℕ}
    (hy : ∀ c ∈ y.head?, toDigit radix c = none) (result count : ℕ) :
    StopsAt y (digitsLoop radix maxDigits max result count) := by
  intro s
  induction s generalizing result count with
  | nil =>
    cases y with
    | nil => rfl
    | cons c y => simp [digitsLoop, hy c rfl]
  | cons c s ih =>
    rw [List.cons_append, digitsLoop, digitsLoop]
    cases toDigit radix c with
    | none => rfl
    | some d =>
      dsimp only
      split
      · rfl
      · exact ih _ _

theorem checked_append {zeros : Bool} {max : ℕ} {head : Option Char}
    (x : (ℕ × ℕ) × List Char) :
    checked zeros max head (x.1, x.2 ++ y) =
      (checked zeros max head x).map fun z => (z.1, z.2 ++ y) := by
  unfold checked
  dsimp only
  split_ifs
  · rfl
  · rfl
  · rfl
  · rfl

theorem stopsAt_number {radix : ℕ} {maxDigits : Option ℕ} {zeros : Bool} {max : ℕ}
    (hy : ∀ c ∈ y.head?, toDigit radix c = none) :
    StopsAt y (number radix maxDigits zeros max) := by
  intro s
  unfold number
  rw [stopsAt_digitsLoop hy 0 0 s]
  cases s with
  | nil => rfl
  | cons c s =>
    cases digitsLoop radix maxDigits max 0 0 (c :: s) with
    | none => rfl
    | some x => exact checked_append x

theorem number_eq_none {radix : ℕ} {maxDigits : Option ℕ} {zeros : Bool} {max : ℕ}
    {s : List Char} (h : ∀ c ∈ s.head?, toDigit radix c = none) :
    number radix maxDigits zeros max s = none := by
  -- it stops before the first character
  rw [← List.nil_append s, stopsAt_number h]
  rfl

/-! ### Numbers that were written -/

theorem toDigit_digitChar {radix d : ℕ} (hradix : radix ≤ 16) (hd : d < radix) :
    toDigit radix d.digitChar = some d := by
  have hall : ∀ d : Fin 16, digitValue (Nat.digitChar d) = some d := by decide
  rw [toDigit, hall ⟨d, by omega⟩]
  simp [hd]

/-- The value of digits after a value. -/
def valueFrom (radix result : ℕ) (l : List Char) : ℕ :=
  l.foldl (fun r c => r * radix + (toDigit radix c).getD 0) result

section

variable {radix : ℕ} (hone : 1 < radix) (hradix : radix ≤ 16)
include hone hradix

theorem toDigit_mem_toDigits {n : ℕ} {c : Char} (hc : c ∈ Nat.toDigits radix n) :
    ∃ d, toDigit radix c = some d := by
  induction n using Nat.base_induction radix hone with
  | single m hm =>
    rw [Nat.toDigits_of_lt_base hm, List.mem_singleton] at hc
    exact ⟨m, hc ▸ toDigit_digitChar hradix hm⟩
  | digit m k hk hm ih =>
    rw [← Nat.toDigits_append_toDigits hone hm hk, List.mem_append] at hc
    rcases hc with hc | hc
    · exact ih hc
    · rw [Nat.toDigits_of_lt_base hk, List.mem_singleton] at hc
      exact ⟨k, hc ▸ toDigit_digitChar hradix hk⟩

theorem valueFrom_toDigits (n : ℕ) : valueFrom radix 0 (Nat.toDigits radix n) = n := by
  induction n using Nat.base_induction radix hone with
  | single m hm =>
    rw [Nat.toDigits_of_lt_base hm]
    simp [valueFrom, toDigit_digitChar hradix hm]
  | digit m k hk hm ih =>
    unfold valueFrom at ih ⊢
    rw [← Nat.toDigits_append_toDigits hone hm hk, List.foldl_append, ih,
      Nat.toDigits_of_lt_base hk]
    simp [toDigit_digitChar hradix hk, Nat.mul_comm]

omit hradix in
/-- A number has no zeros in front. -/
theorem head?_toDigits {n : ℕ} (h : 1 < (Nat.toDigits radix n).length) :
    (Nat.toDigits radix n).head? ≠ some '0' := by
  have hpos : ∀ n, 0 < n → (Nat.toDigits radix n).head? ≠ some '0' := by
    intro n hn
    induction n using Nat.base_induction radix hone with
    | single m hm =>
      rw [Nat.toDigits_of_lt_base hm]
      simp
      omega
    | digit m k hk hm ih =>
      rw [← Nat.toDigits_append_toDigits hone hm hk]
      rw [List.head?_append_of_ne_nil _ Nat.toDigits_ne_nil]
      exact ih hm
  apply hpos
  apply Nat.pos_of_ne_zero
  rintro rfl
  simp at h

omit hone hradix in
theorem digitsLoop_digits {m max : ℕ} {l : List Char}
    (hl : ∀ c ∈ l, ∃ d, toDigit radix c = some d) {result count : ℕ}
    (hlen : count + l.length ≤ m) :
    digitsLoop radix (some m) max result count l =
      some ((valueFrom radix result l, count + l.length), []) := by
  induction l generalizing result count with
  | nil => rfl
  | cons c l ih =>
    obtain ⟨d, hd⟩ := hl c List.mem_cons_self
    rw [List.length_cons] at hlen
    have hfew : tooLarge (some m) max (result * radix + d) (count + 1) = false := by
      simp [tooLarge]
      omega
    have hrest := @ih (fun c' hc' => hl c' (List.mem_cons_of_mem _ hc'))
      (result * radix + d) (count + 1) (by omega)
    rw [digitsLoop, hd]
    dsimp only
    rw [hfew, if_neg (by simp), hrest, List.length_cons, valueFrom, valueFrom, List.foldl_cons,
      hd, Option.getD_some, show count + 1 + l.length = count + (l.length + 1) by omega]

/-- **A number that was written is read**, in front of anything but a digit. -/
theorem number_toDigits {m max n : ℕ} (zeros : Bool) (hmax : n ≤ max) (hpos : 0 < m)
    (hm : n < radix ^ m) (hy : ∀ c ∈ y.head?, toDigit radix c = none) :
    number radix (some m) zeros max (Nat.toDigits radix n ++ y) = some (n, y) := by
  have hlen : (Nat.toDigits radix n).length ≤ m := (Nat.length_toDigits_le_iff hone hpos).mpr hm
  have hloop := @digitsLoop_digits radix m max (Nat.toDigits radix n)
    (fun c hc => toDigit_mem_toDigits hone hradix hc) 0 0 (by omega)
  rw [valueFrom_toDigits hone hradix, Nat.zero_add] at hloop
  have hne : (Nat.toDigits radix n).length ≠ 0 := by
    rw [ne_eq, List.length_eq_zero_iff]
    exact Nat.toDigits_ne_nil
  have hzero : ¬((!zeros) = true ∧ (Nat.toDigits radix n).head? = some '0' ∧
      1 < (Nat.toDigits radix n).length) := fun h => head?_toDigits hone h.2.2 h.2.1
  rw [stopsAt_number hy, number, hloop, Option.bind_some, checked, if_neg hne, if_neg hzero,
    if_pos hmax]
  rfl

end

end Reader

end Plain
