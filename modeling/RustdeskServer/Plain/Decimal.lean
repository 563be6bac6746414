import Mathlib.Algebra.Order.Field.Rat
import Mathlib.Algebra.Order.Field.Basic
import Mathlib.Tactic.Linarith
import Mathlib.Tactic.FieldSimp
import Mathlib.Tactic.Ring
import Mathlib.Tactic.NormNum

/-!
# Numbers in decimal

Writing a number with one digit after the point, and reading a number in the usual notation:
a sign, digits with a point, an exponent; or one of the names of what is no number.

Numbers are rationals, so that writing rounds to the nearest, to the even one where two are
equally near, and reading is exact.

## Main definitions

* `Plain.roundHalfEven`, `Plain.round1` — rounding, to a whole number and to one decimal.
* `Plain.fixed1` — a number with one decimal.
* `Plain.parseNumber` — reading a number.

## Main results

* `Plain.round1_lt_iff` — which numbers are rounded to less than a whole number.
* `Plain.parseNumber_fixed1` — **what was written is read as the rounded number.**
* `Plain.mem_fixed1` — which characters are written.
-/

namespace Plain

/-! ### Rounding -/

/-- The nearest whole number; the even one of two. -/
def roundHalfEven (q : ℚ) : ℤ :=
  let f := q.floor
  if q - f < 1 / 2 then f
  else if 1 / 2 < q - f then f + 1
  else if f % 2 = 0 then f else f + 1

/-- The nearest number with one decimal. -/
def round1 (q : ℚ) : ℚ := roundHalfEven (q * 10) / 10

theorem le_roundHalfEven {q : ℚ} {n : ℤ} (h : n ≤ q) : n ≤ roundHalfEven q := by
  have hf : n ≤ q.floor := Rat.le_floor_iff.mpr h
  simp only [roundHalfEven]
  split_ifs <;> omega

theorem roundHalfEven_le {q : ℚ} {n : ℤ} (h : q ≤ n) : roundHalfEven q ≤ n := by
  rcases h.lt_or_eq with hlt | rfl
  · have hf : q.floor < n := Rat.floor_lt_iff.mpr hlt
    simp only [roundHalfEven]
    split_ifs <;> omega
  · simp [roundHalfEven]

theorem roundHalfEven_nonneg {q : ℚ} (h : 0 ≤ q) : 0 ≤ roundHalfEven q :=
  le_roundHalfEven (by exact_mod_cast h)

theorem round1_nonneg {q : ℚ} (h : 0 ≤ q) : 0 ≤ round1 q := by
  have hr : 0 ≤ roundHalfEven (q * 10) := roundHalfEven_nonneg (by linarith)
  have hq : (0 : ℚ) ≤ roundHalfEven (q * 10) := by exact_mod_cast hr
  rw [round1]
  linarith

/-- What is rounded to less than an even number. -/
theorem roundHalfEven_lt_iff {q : ℚ} {m : ℤ} (hm : m % 2 = 0) :
    roundHalfEven q < m ↔ q < m - 1 / 2 := by
  have hle : (q.floor : ℚ) ≤ q := Rat.floor_le q
  have hlt : q < q.floor + 1 := by exact_mod_cast Rat.lt_floor_add_one q
  -- from whole numbers to rationals and back
  have hup : ∀ {k : ℤ}, q.floor + k ≤ m → (q.floor : ℚ) + k ≤ m := fun h => by exact_mod_cast h
  have hdown : ∀ {k : ℤ}, (q.floor : ℚ) + k < m → q.floor + k < m := fun h => by exact_mod_cast h
  simp only [roundHalfEven]
  split
  · next hnear =>
    constructor
    · intro h
      have := @hup 1 (by omega)
      push_cast at this
      linarith
    · intro h
      have := @hdown 0 (by push_cast; linarith)
      omega
  · split
    · next hnear hfar =>
      constructor
      · intro h
        have := @hup 2 (by omega)
        push_cast at this
        linarith
      · intro h
        exact @hdown 1 (by push_cast; linarith)
    · next hnear hfar =>
      have hhalf : q = q.floor + 1 / 2 := by linarith
      split
      · next heven =>
        constructor
        · intro h
          have := @hup 2 (by omega)
          push_cast at this
          linarith
        · intro h
          have := @hdown 0 (by push_cast; linarith)
          omega
      · constructor
        · intro h
          have := @hup 2 (by omega)
          push_cast at this
          linarith
        · intro h
          exact @hdown 1 (by push_cast; linarith)

theorem round1_lt_iff {q : ℚ} {m : ℤ} : round1 q < m ↔ q < m - 1 / 20 := by
  have hround := @roundHalfEven_lt_iff (q * 10) (10 * m) (by omega)
  have hscale : round1 q < m ↔ roundHalfEven (q * 10) < 10 * m := by
    have hten : (m : ℚ) * 10 = ((10 * m : ℤ) : ℚ) := by
      push_cast
      ring
    rw [round1, div_lt_iff₀ (by norm_num), hten]
    exact Int.cast_lt
  rw [hscale, hround]
  push_cast
  constructor
  · intro h
    linarith
  · intro h
    linarith
/-! ### Writing -/

/-- A natural number of tenths, in decimal. -/
def tenths (n : ℕ) : List Char := Nat.toDigits 10 (n / 10) ++ ['.', Nat.digitChar (n % 10)]

/-- A number with one decimal. -/
def fixed1 (q : ℚ) : List Char :=
  if q < 0 then '-' :: tenths (roundHalfEven (-q * 10)).toNat
  else tenths (roundHalfEven (q * 10)).toNat

example : fixed1 (1 / 8) = ['0', '.', '1'] := by decide +kernel
example : fixed1 (3 / 20) = ['0', '.', '2'] := by decide +kernel

/-! ### Reading -/

/-- Whether there is a minus sign, and what follows the sign. -/
def takeSign : List Char → Bool × List Char
  | '-' :: t => (true, t)
  | '+' :: t => (false, t)
  | t => (false, t)

/-- The exponent: nothing, or `e` with a whole number. -/
def exponent? : List Char → Option ℤ
  | [] => some 0
  | e :: t =>
    let digits := (takeSign t).2
    if (e = 'e' ∨ e = 'E') ∧ digits ≠ [] ∧ digits.all Char.isDigit then
      some ((if (takeSign t).1 then -1 else 1) * Nat.ofDigitChars 10 digits 0)
    else none

/-- The digits behind a point, and what follows them. -/
def takePart : List Char → List Char × List Char
  | '.' :: t => (t.takeWhile Char.isDigit, t.dropWhile Char.isDigit)
  | t => ([], t)

/-- Digits with a point among them or without, and an exponent. -/
def unsigned? (t : List Char) : Option ℚ :=
  let whole := t.takeWhile Char.isDigit
  let (part, rest) := takePart (t.dropWhile Char.isDigit)
  if whole = [] ∧ part = [] then none
  else (exponent? rest).map fun e =>
    (Nat.ofDigitChars 10 (whole ++ part) 0 : ℚ) / 10 ^ part.length * 10 ^ e

/-- The names of what is no finite number. -/
def unbounded (t : List Char) : Bool :=
  let t := t.map Char.toLower
  t == ['i', 'n', 'f'] || t == ['i', 'n', 'f', 'i', 'n', 'i', 't', 'y'] || t == ['n', 'a', 'n']

/-- A number: `none` if it is none, `some none` if it is not finite. -/
def parseNumber (t : List Char) : Option (Option ℚ) :=
  let (neg, body) := takeSign t
  if unbounded body then some none
  else (unsigned? body).map fun q => some (if neg then -q else q)

example : parseNumber ['-', '1', '.', '5', 'e', '2'] = some (some (-150)) := by decide +kernel
example : parseNumber ['.'] = none := by decide +kernel

/-! ### The round trip -/

theorem digitChar_isDigit {n : ℕ} (h : n < 10) : (Nat.digitChar n).isDigit = true := by
  rw [Nat.isDigit_digitChar, decide_eq_true h]

theorem toDigits_isDigit {n : ℕ} {c : Char} (h : c ∈ Nat.toDigits 10 n) : c.isDigit = true :=
  Nat.isDigit_of_mem_toDigits (by decide) (by decide) h

/-- Only digits, a point and a sign are written. -/
theorem mem_fixed1 {q : ℚ} {c : Char} (h : c ∈ fixed1 q) :
    c.isDigit = true ∨ c = '.' ∨ c = '-' := by
  have key : ∀ n, ∀ c ∈ tenths n, c.isDigit = true ∨ c = '.' := by
    intro n c hc
    rw [tenths, List.mem_append, List.mem_cons, List.mem_singleton] at hc
    rcases hc with hc | rfl | rfl
    · exact .inl (toDigits_isDigit hc)
    · exact .inr rfl
    · exact .inl (digitChar_isDigit (Nat.mod_lt _ (by decide)))
  rw [fixed1] at h
  split at h
  · rcases List.mem_cons.mp h with rfl | h
    · exact .inr (.inr rfl)
    · exact (key _ c h).imp_right .inl
  · exact (key _ c h).imp_right .inl

/-- A text that begins with a digit has no sign. -/
theorem takeSign_digit {c : Char} {t : List Char} (h : c.isDigit = true) :
    takeSign (c :: t) = (false, c :: t) := by
  unfold takeSign
  split
  · next heq =>
    cases heq
    simp at h
  · next heq =>
    cases heq
    simp at h
  · rfl

/-- A text that begins with a digit is no name. -/
theorem unbounded_digit {c : Char} {t : List Char} (h : c.isDigit = true) :
    unbounded (c :: t) = false := by
  have h9 : c.toNat ≤ 57 := (Char.isDigit_iff_toNat.mp h).2
  have hlower : c.toLower = c := by
    refine dif_neg ?_
    rintro ⟨hA, -⟩
    have : 65 ≤ c.toNat := UInt32.le_iff_toNat_le.mp hA
    omega
  have hne : ∀ d : Char, 57 < d.toNat → (c == d) = false := by
    intro d hd
    rw [beq_eq_false_iff_ne]
    rintro rfl
    omega
  simp only [unbounded, List.map_cons, List.cons_beq_cons, hlower]
  rw [hne 'i' (by decide), hne 'n' (by decide)]
  rfl

theorem unsigned?_tenths (n : ℕ) : unsigned? (tenths n) = some ((n : ℚ) / 10) := by
  have hdigits : ∀ c ∈ Nat.toDigits 10 (n / 10), c.isDigit = true := fun c => toDigits_isDigit
  have hlast : (Nat.digitChar (n % 10)).isDigit = true :=
    digitChar_isDigit (Nat.mod_lt _ (by decide))
  have hwhole : (tenths n).takeWhile Char.isDigit = Nat.toDigits 10 (n / 10) := by
    rw [tenths, List.takeWhile_append_of_pos hdigits]
    simp
  have hrest : (tenths n).dropWhile Char.isDigit = ['.', Nat.digitChar (n % 10)] := by
    rw [tenths, List.dropWhile_append_of_pos hdigits]
    simp
  have hpart : takePart ['.', Nat.digitChar (n % 10)] = ([Nat.digitChar (n % 10)], []) := by
    simp [takePart, hlast]
  have hvalue :
      Nat.ofDigitChars 10 (Nat.toDigits 10 (n / 10) ++ [Nat.digitChar (n % 10)]) 0 = n := by
    rw [Nat.ofDigitChars_append, Nat.ofDigitChars_ten_toDigits,
      Nat.ofDigitChars_cons_digitChar_of_lt_ten (Nat.mod_lt _ (by decide)), Nat.ofDigitChars_nil]
    omega
  simp only [unsigned?, hwhole, hrest, hpart]
  rw [if_neg (fun h => Nat.toDigits_ne_nil h.1), hvalue]
  simp [exponent?]

/-- **What was written is read as the rounded number.** -/
theorem parseNumber_fixed1 {q : ℚ} (h : 0 ≤ q) :
    parseNumber (fixed1 q) = some (some (round1 q)) := by
  have hround : 0 ≤ roundHalfEven (q * 10) := roundHalfEven_nonneg (by linarith)
  have hfixed : fixed1 q = tenths (roundHalfEven (q * 10)).toNat := if_neg (not_lt.mpr h)
  obtain ⟨c, t, hct⟩ := List.exists_cons_of_ne_nil (Nat.toDigits_ne_nil (b := 10)
    (n := (roundHalfEven (q * 10)).toNat / 10))
  have hc : c.isDigit = true := toDigits_isDigit (hct ▸ List.mem_cons_self)
  have htext : fixed1 q =
      c :: (t ++ ['.', Nat.digitChar ((roundHalfEven (q * 10)).toNat % 10)]) := by
    rw [hfixed, tenths, hct, List.cons_append]
  have hvalue := unsigned?_tenths (roundHalfEven (q * 10)).toNat
  rw [← hfixed, htext] at hvalue
  simp only [parseNumber, htext, takeSign_digit hc, unbounded_digit hc, hvalue]
  have hcast : ((roundHalfEven (q * 10)).toNat : ℚ) = roundHalfEven (q * 10) := by
    exact_mod_cast Int.toNat_of_nonneg hround
  simp [hcast, round1]

end Plain
