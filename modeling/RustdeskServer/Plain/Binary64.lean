import Mathlib.Data.Int.Log
import Mathlib.Data.Rat.Floor
import RustdeskServer.Plain.Decimal

/-!
# Binary floating point

Numbers of 64 bits: 53 bits that count, an exponent, infinities, and what is no number.  A
result is computed exactly and rounded to the nearest number, to the one whose last bit is zero
where two are equally near; what is too large is infinite.

Zero has no sign here.

## Main definitions

* `Plain.nearest` — rounding to 53 bits.
* `Plain.Binary64` — the numbers.
* `Plain.Binary64.ofRat`, `Plain.Binary64.add`, `Plain.Binary64.mul`, `Plain.Binary64.divNat` —
  the number nearest to a rational, and arithmetic.
* `Plain.Binary64.fixed1`, `Plain.Binary64.parse?` — writing a number with one decimal, and
  reading one.

## Main results

* `Plain.nearest_nearest` — what is rounded stays.
* `Plain.Binary64.parse?_fixed1` — **what was written is read as the number with one decimal**,
  and `Plain.Binary64.oneDecimal_isSome` — that number is finite if the first was.
-/

namespace Plain

/-! ### Rounding -/

/-- What the last bit of a number near `q` counts. -/
def lastPlace (q : ℚ) : ℚ := 2 ^ max (Int.log 2 |q| - 52) (-1074)

/-- The nearest number with 53 bits, as if there were no largest one. -/
def nearest (q : ℚ) : ℚ := roundHalfEven (q / lastPlace q) * lastPlace q

example : nearest (99999999999999999 / 100000000000000) = 1000 := by decide +kernel
example : nearest (-1 / 10 ^ 400) = 0 := by decide +kernel

theorem lastPlace_pos (q : ℚ) : 0 < lastPlace q := zpow_pos (by norm_num) _

theorem abs_lt_lastPlace (q : ℚ) : |q| < 2 ^ 53 * lastPlace q := by
  have hlog : |q| < (2 : ℚ) ^ (Int.log 2 |q| + 1) := by
    exact_mod_cast Int.lt_zpow_succ_log_self (by decide : 1 < 2) |q|
  refine hlog.trans_le ?_
  have hsplit : (2 : ℚ) ^ (Int.log 2 |q| + 1) = 2 ^ 53 * 2 ^ (Int.log 2 |q| - 52) := by
    rw [← zpow_natCast, ← zpow_add₀ (by norm_num)]
    congr 1
    push_cast
    ring
  rw [hsplit]
  exact mul_le_mul_of_nonneg_left
    (zpow_le_zpow_right₀ (by norm_num) (le_max_left _ _)) (by norm_num)

theorem abs_mantissa_le (q : ℚ) : |roundHalfEven (q / lastPlace q)| ≤ 2 ^ 53 := by
  have hq : |q / lastPlace q| < 2 ^ 53 := by
    rw [abs_div, abs_of_pos (lastPlace_pos q), div_lt_iff₀ (lastPlace_pos q)]
    exact abs_lt_lastPlace q
  obtain ⟨hlow, hhigh⟩ := abs_lt.mp hq
  refine abs_le.mpr ⟨le_roundHalfEven ?_, roundHalfEven_le ?_⟩
  · push_cast
    exact hlow.le
  · push_cast
    exact hhigh.le

theorem nearest_nonneg {q : ℚ} (h : 0 ≤ q) : 0 ≤ nearest q := by
  have hround : 0 ≤ roundHalfEven (q / lastPlace q) :=
    roundHalfEven_nonneg (div_nonneg h (lastPlace_pos q).le)
  exact mul_nonneg (by exact_mod_cast hround) (lastPlace_pos q).le

/-- A whole number of last places stays. -/
theorem nearest_of_places {q : ℚ} {k : ℤ} (h : q = k * lastPlace q) : nearest q = q := by
  have hq : q / lastPlace q = k := by
    rw [div_eq_iff (lastPlace_pos q).ne']
    exact h
  have hround : roundHalfEven (k : ℚ) = k := le_antisymm (roundHalfEven_le le_rfl)
    (le_roundHalfEven le_rfl)
  rw [nearest, hq, hround, ← h]

theorem nearest_of_lt {k e : ℤ} (hk : |k| < 2 ^ 53) (he : -1074 ≤ e) :
    nearest (k * 2 ^ e) = k * 2 ^ e := by
  rcases eq_or_ne k 0 with rfl | hne
  · exact nearest_of_places (k := 0) (by simp)
  · have hpos : 0 < |(k : ℚ) * 2 ^ e| :=
      abs_pos.mpr (mul_ne_zero (by exact_mod_cast hne) (zpow_ne_zero _ (by norm_num)))
    have hlt : |(k : ℚ) * 2 ^ e| < ((2 : ℕ) : ℚ) ^ (53 + e) := by
      rw [abs_mul, abs_of_pos (zpow_pos (by norm_num : (0 : ℚ) < 2) e), Nat.cast_ofNat,
        zpow_add₀ (by norm_num)]
      exact mul_lt_mul_of_pos_right (by exact_mod_cast hk) (zpow_pos (by norm_num) e)
    have hlog := (Int.lt_zpow_iff_log_lt (by decide) hpos).mp hlt
    -- the last place is no larger than the unit of `k`
    have hplace : max (Int.log 2 |(k : ℚ) * 2 ^ e| - 52) (-1074) ≤ e := by omega
    obtain ⟨n, hn⟩ := Int.eq_ofNat_of_zero_le (sub_nonneg.mpr hplace)
    refine nearest_of_places (k := k * 2 ^ n) ?_
    have hsplit : (2 : ℚ) ^ e = 2 ^ n * lastPlace (k * 2 ^ e) := by
      rw [lastPlace, ← zpow_natCast, ← zpow_add₀ (by norm_num), ← hn]
      congr 1
      ring
    push_cast
    rw [mul_assoc, ← hsplit]

/-- What is rounded stays. -/
theorem nearest_nearest (q : ℚ) : nearest (nearest q) = nearest q := by
  have he : -1074 ≤ max (Int.log 2 |q| - 52) (-1074) := le_max_right _ _
  rcases (abs_mantissa_le q).lt_or_eq with hlt | heq
  · exact nearest_of_lt hlt he
  · -- the number was rounded to a power of two
    have hcarry : ∀ k : ℤ, k = 2 ^ 53 ∨ k = -2 ^ 53 →
        nearest (k * 2 ^ max (Int.log 2 |q| - 52) (-1074)) =
          k * 2 ^ max (Int.log 2 |q| - 52) (-1074) := by
      intro k hk
      have hhalf : (k : ℚ) * 2 ^ max (Int.log 2 |q| - 52) (-1074) =
          ((k / 2 : ℤ) : ℚ) * 2 ^ (max (Int.log 2 |q| - 52) (-1074) + 1) := by
        have htwo : k = k / 2 * 2 := by omega
        rw [zpow_add_one₀ (by norm_num), ← mul_assoc, mul_right_comm]
        congr 1
        exact_mod_cast htwo
      rw [hhalf]
      refine nearest_of_lt ?_ (he.trans (by omega))
      rcases hk with rfl | rfl <;> norm_num
    exact hcarry _ (eq_or_eq_neg_of_abs_eq heq)

/-- A power of two, as `Int.log` has it. -/
theorem zpow_two (n : ℕ) : ((2 : ℕ) : ℚ) ^ (n : ℤ) = 2 ^ n := by
  rw [zpow_natCast, Nat.cast_ofNat]

theorem lastPlace_le {q : ℚ} {n : ℕ} (h : |q| < 2 ^ (n + 53)) : lastPlace q ≤ 2 ^ n := by
  have hexp : max (Int.log 2 |q| - 52) (-1074) ≤ n := by
    refine max_le ?_ (by omega)
    rcases (abs_nonneg q).eq_or_lt with h0 | hpos
    · rw [← h0, Int.log_zero_right]
      omega
    · have hlog := (Int.lt_zpow_iff_log_lt (by decide : 1 < 2) hpos).mp
        (h.trans_eq (zpow_two (n + 53)).symm)
      omega
  calc lastPlace q ≤ (2 : ℚ) ^ (n : ℤ) := zpow_le_zpow_right₀ (by norm_num) hexp
    _ = 2 ^ n := zpow_natCast _ _

theorem lastPlace_eq {q : ℚ} {n : ℕ} (hlow : 2 ^ (n + 52) ≤ |q|) (hhigh : |q| < 2 ^ (n + 53)) :
    lastPlace q = 2 ^ n := by
  have hpos : 0 < |q| := lt_of_lt_of_le (pow_pos (by norm_num) _) hlow
  have hlog := (Int.zpow_le_iff_le_log (by decide : 1 < 2) hpos).mp
    ((zpow_two (n + 52)).trans_le hlow)
  have hplace : (n : ℤ) ≤ max (Int.log 2 |q| - 52) (-1074) := le_max_of_le_left (by omega)
  refine le_antisymm (lastPlace_le hhigh) ?_
  calc (2 : ℚ) ^ n = 2 ^ (n : ℤ) := (zpow_natCast _ _).symm
    _ ≤ lastPlace q := zpow_le_zpow_right₀ (by norm_num) hplace

/-! ### Numbers -/

/-- A number with 53 bits that is not too large. -/
def Representable (q : ℚ) : Prop := nearest q = q ∧ |q| < 2 ^ 1024

/-- A number of 64 bits. -/
inductive Binary64
  /-- A finite number. -/
  | finite (q : ℚ) (h : Representable q)
  /-- Infinity, or less than all numbers. -/
  | infinite (neg : Bool)
  /-- No number. -/
  | nan
  deriving DecidableEq

namespace Binary64

/-- The number nearest to `q`. -/
def ofRat (q : ℚ) : Binary64 :=
  if h : |nearest q| < 2 ^ 1024 then .finite (nearest q) ⟨nearest_nearest q, h⟩
  else .infinite (decide (q < 0))

/-- The rational that a finite number is. -/
def toRat? : Binary64 → Option ℚ
  | finite q _ => some q
  | infinite _ => none
  | nan => none

/-- Addition. -/
def add : Binary64 → Binary64 → Binary64
  | finite x _, finite y _ => ofRat (x + y)
  | infinite s, infinite t => if s = t then infinite s else nan
  | infinite s, finite _ _ => infinite s
  | finite _ _, infinite t => infinite t
  | nan, _ => nan
  | _, nan => nan

/-- Multiplication. -/
def mul : Binary64 → Binary64 → Binary64
  | finite x _, finite y _ => ofRat (x * y)
  | infinite s, infinite t => infinite (s != t)
  | infinite s, finite y _ => if y = 0 then nan else infinite (s != decide (y < 0))
  | finite x _, infinite t => if x = 0 then nan else infinite (t != decide (x < 0))
  | nan, _ => nan
  | _, nan => nan

/-- Division by a natural number that is not zero. -/
def divNat : Binary64 → ℕ → Binary64
  | finite x _, n => ofRat (x / n)
  | infinite s, _ => infinite s
  | nan, _ => nan

/-- The order: what is no number has no place in it. -/
def lt : Binary64 → Binary64 → Prop
  | finite x _, finite y _ => x < y
  | infinite s, infinite t => s = true ∧ t = false
  | infinite s, finite _ _ => s = true
  | finite _ _, infinite t => t = false
  | nan, _ => False
  | _, nan => False

instance : Add Binary64 := ⟨add⟩
instance : Mul Binary64 := ⟨mul⟩
instance : LT Binary64 := ⟨lt⟩

instance : DecidableLT Binary64
  | finite x _, finite y _ => inferInstanceAs (Decidable (x < y))
  | infinite _, infinite _ => inferInstanceAs (Decidable (_ ∧ _))
  | infinite _, finite _ _ => inferInstanceAs (Decidable (_ = _))
  | finite _ _, infinite _ => inferInstanceAs (Decidable (_ = _))
  | nan, finite _ _ => inferInstanceAs (Decidable False)
  | nan, infinite _ => inferInstanceAs (Decidable False)
  | nan, nan => inferInstanceAs (Decidable False)
  | finite _ _, nan => inferInstanceAs (Decidable False)
  | infinite _, nan => inferInstanceAs (Decidable False)

/-- The result of a computation, as a rational: what is too large counts as `2 ^ 1024`. -/
def round (q : ℚ) : ℚ :=
  match ofRat q with
  | finite r _ => r
  | infinite neg => if neg then -2 ^ 1024 else 2 ^ 1024
  | nan => 0

/-- A number with one decimal. -/
def fixed1 : Binary64 → List Char
  | finite q _ => Plain.fixed1 q
  | infinite neg => if neg then ['-', 'i', 'n', 'f'] else ['i', 'n', 'f']
  | nan => ['n', 'a', 'n']

/-- Reading a number: `none` if it is none, `some none` if it is not finite. -/
def parse? (t : List Char) : Option (Option ℚ) :=
  (parseNumber t).map fun q => q.bind fun q => (ofRat q).toRat?

/-- A number as it is read when it was written with one decimal. -/
def oneDecimal : Binary64 → Option ℚ
  | finite q _ => (ofRat (round1 q)).toRat?
  | infinite _ => none
  | nan => none

-- the number nearest to 40.45 is above it
example : (ofRat (809 / 20)).fixed1 = ['4', '0', '.', '5'] := by decide +kernel

/-! ### Numbers that are not negative -/

/-- The number is not negative. -/
def Nonneg : Binary64 → Prop
  | finite q _ => 0 ≤ q
  | infinite neg => neg = false
  | nan => True

theorem Nonneg.toRat? {x : Binary64} (h : x.Nonneg) {q : ℚ} (hq : x.toRat? = some q) :
    0 ≤ q := by
  cases x with
  | finite r _ =>
    cases hq
    exact h
  | infinite neg => cases hq
  | nan => cases hq

theorem ofRat_nonneg {q : ℚ} (h : 0 ≤ q) : (ofRat q).Nonneg := by
  rw [ofRat]
  split
  · exact nearest_nonneg h
  · exact decide_eq_false (not_lt.mpr h)

theorem add_nonneg {x y : Binary64} (hx : x.Nonneg) (hy : y.Nonneg) : (x + y).Nonneg := by
  change (add x y).Nonneg
  cases x with
  | finite x _ =>
    cases y with
    | finite y _ => exact ofRat_nonneg (Rat.add_nonneg hx hy)
    | infinite t => exact hy
    | nan => trivial
  | infinite s =>
    cases y with
    | finite y _ => exact hx
    | infinite t =>
      cases hx
      cases hy
      rfl
    | nan => trivial
  | nan => cases y <;> trivial

theorem mul_nonneg {x y : Binary64} (hx : x.Nonneg) (hy : y.Nonneg) : (x * y).Nonneg := by
  -- what is not negative keeps the sign of an infinity, unless it is zero
  have hsign : ∀ {q : ℚ}, 0 ≤ q →
      Nonneg (if q = 0 then nan else infinite (false != decide (q < 0))) := by
    intro q hq
    split
    · trivial
    · rw [decide_eq_false (not_lt.mpr hq)]
      rfl
  change (mul x y).Nonneg
  cases x with
  | finite x _ =>
    cases y with
    | finite y _ => exact ofRat_nonneg (Rat.mul_nonneg hx hy)
    | infinite t =>
      cases hy
      exact hsign hx
    | nan => trivial
  | infinite s =>
    cases hx
    cases y with
    | finite y _ => exact hsign hy
    | infinite t =>
      cases hy
      rfl
    | nan => trivial
  | nan => cases y <;> trivial

theorem divNat_nonneg {x : Binary64} (h : x.Nonneg) (n : ℕ) : (x.divNat n).Nonneg := by
  cases x with
  | finite q _ => exact ofRat_nonneg (div_nonneg h (Nat.cast_nonneg n))
  | infinite s => exact h
  | nan => trivial

/-! ### Writing and reading -/

/-- The largest finite number is a whole number. -/
theorem Representable.le {q : ℚ} (h : Representable q) : q ≤ 2 ^ 1024 - 2 ^ 971 := by
  obtain ⟨hround, hlt⟩ := h
  rcases lt_or_ge |q| (2 ^ 1023) with hsmall | hlarge
  · calc q ≤ 2 ^ 1023 := (le_abs_self q).trans hsmall.le
      _ ≤ 2 ^ 1024 - 2 ^ 971 := by decide +kernel
  · have hplace : lastPlace q = 2 ^ 971 := lastPlace_eq hlarge hlt
    rw [nearest, hplace] at hround
    -- a number as large as `2 ^ 1024` would have a mantissa of 54 bits
    have hk : roundHalfEven (q / 2 ^ 971) ≤ 2 ^ 53 - 1 := by
      by_contra hge
      have hge : ((2 ^ 53 : ℤ) : ℚ) ≤ roundHalfEven (q / 2 ^ 971) := by
        exact_mod_cast (by omega : (2 ^ 53 : ℤ) ≤ roundHalfEven (q / 2 ^ 971))
      have hq : (2 : ℚ) ^ 1024 ≤ q := by
        calc (2 : ℚ) ^ 1024 = ((2 ^ 53 : ℤ) : ℚ) * 2 ^ 971 := by decide +kernel
          _ ≤ q := by
            rw [← hround]
            exact mul_le_mul_of_nonneg_right hge (by positivity)
      exact absurd ((le_abs_self q).trans_lt hlt) (not_lt.mpr hq)
    have hk : (roundHalfEven (q / 2 ^ 971) : ℚ) ≤ ((2 ^ 53 - 1 : ℤ) : ℚ) := by exact_mod_cast hk
    calc q = roundHalfEven (q / 2 ^ 971) * 2 ^ 971 := hround.symm
      _ ≤ ((2 ^ 53 - 1 : ℤ) : ℚ) * 2 ^ 971 := mul_le_mul_of_nonneg_right hk (by positivity)
      _ = 2 ^ 1024 - 2 ^ 971 := by decide +kernel

/-- What is not rounded up to infinity. -/
theorem nearest_lt {q : ℚ} (h0 : 0 ≤ q) (h : q < 2 ^ 1024 - 2 ^ 970) : nearest q < 2 ^ 1024 := by
  rcases lt_or_ge q (2 ^ 1023) with hsmall | hlarge
  · have hplace : lastPlace q ≤ 2 ^ 970 := lastPlace_le (by rwa [abs_of_nonneg h0])
    have hk : (roundHalfEven (q / lastPlace q) : ℚ) ≤ 2 ^ 53 := by
      exact_mod_cast (le_abs_self _).trans (abs_mantissa_le q)
    calc nearest q ≤ 2 ^ 53 * 2 ^ 970 := mul_le_mul hk hplace (lastPlace_pos q).le (by norm_num)
      _ < 2 ^ 1024 := by decide +kernel
  · have hplace : lastPlace q = 2 ^ 971 := by
      refine lastPlace_eq ?_ ?_
      · rwa [abs_of_nonneg h0]
      · rw [abs_of_nonneg h0]
        exact h.trans (sub_lt_self _ (by positivity))
    have hk : roundHalfEven (q / 2 ^ 971) < 2 ^ 53 := by
      refine (roundHalfEven_lt_iff (by norm_num)).mpr ?_
      rw [div_lt_iff₀ (by positivity)]
      refine h.trans_eq ?_
      decide +kernel
    have hk : (roundHalfEven (q / 2 ^ 971) : ℚ) < 2 ^ 53 := by exact_mod_cast hk
    calc nearest q = roundHalfEven (q / 2 ^ 971) * 2 ^ 971 := by rw [nearest, hplace]
      _ < 2 ^ 53 * 2 ^ 971 := mul_lt_mul_of_pos_right hk (by positivity)
      _ = 2 ^ 1024 := by decide +kernel

/-- **What was written is read as the number with one decimal.** -/
theorem parse?_fixed1 {v : Binary64} (h : v.Nonneg) : parse? v.fixed1 = some v.oneDecimal := by
  cases v with
  | finite q _ => rw [parse?, fixed1, parseNumber_fixed1 h, Option.map_some, Option.bind_some,
      oneDecimal]
  | infinite neg =>
    cases h
    rfl
  | nan => rfl

/-- A finite number is so when it was written and read. -/
theorem oneDecimal_isSome {v : Binary64} (h : v.Nonneg) :
    v.oneDecimal.isSome = v.toRat?.isSome := by
  cases v with
  | finite q hq =>
    have hround : round1 q < 2 ^ 1024 - 2 ^ 970 := by
      have hint : (2 ^ 1024 - 2 ^ 970 : ℚ) = ((2 ^ 1024 - 2 ^ 970 : ℤ) : ℚ) := by
        rw [Int.cast_sub, Int.cast_pow, Int.cast_pow, Int.cast_ofNat]
      rw [hint, round1_lt_iff, ← hint]
      refine (Representable.le hq).trans_lt ?_
      decide +kernel
    have hnonneg : 0 ≤ round1 q := round1_nonneg h
    have hfinite : |nearest (round1 q)| < 2 ^ 1024 := by
      rw [abs_of_nonneg (nearest_nonneg hnonneg)]
      exact nearest_lt hnonneg hround
    rw [oneDecimal, ofRat, dif_pos hfinite]
    rfl
  | infinite neg => rfl
  | nan => rfl

theorem oneDecimal_nonneg {v : Binary64} (h : v.Nonneg) {q : ℚ} (hq : v.oneDecimal = some q) :
    0 ≤ q := by
  cases v with
  | finite r _ => exact (ofRat_nonneg (round1_nonneg h)).toRat? hq
  | infinite neg => cases hq
  | nan => cases hq

end Binary64
end Plain
