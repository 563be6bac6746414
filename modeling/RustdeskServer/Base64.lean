import Mathlib.Data.Fintype.Basic
import Mathlib.Data.List.Infix

/-!
# Base64

Three bytes are four symbols of six bits each; what is left over at the end, one byte or
two, is two symbols or three, filled up with `=` to four.

The decoder here is a lenient one: it reads the end with or without its filling.  So a text
that was cut short may still decode, and to what it would have decoded to whole.

## Main definitions

* `Base64.encode`, `Base64.decode`.

## Main results

* `Base64.mem_encode` — which characters a text has.
* `Base64.decode_encode` — the round trip.
* `Base64.decode_prefix` — what the front of an encoding decodes to is the front of the
  bytes.
* `Base64.decode_extend` — **once the front of an encoding decodes to all the bytes, so does
  every longer front.**
-/

namespace Base64

/-! ### Symbols -/

/-- The symbols in the order of their values. -/
def alphabet : List Char :=
  ['A', 'B', 'C', 'D', 'E', 'F', 'G', 'H', 'I', 'J', 'K', 'L', 'M',
    'N', 'O', 'P', 'Q', 'R', 'S', 'T', 'U', 'V', 'W', 'X', 'Y', 'Z',
    'a', 'b', 'c', 'd', 'e', 'f', 'g', 'h', 'i', 'j', 'k', 'l', 'm',
    'n', 'o', 'p', 'q', 'r', 's', 't', 'u', 'v', 'w', 'x', 'y', 'z',
    '0', '1', '2', '3', '4', '5', '6', '7', '8', '9', '+', '/']

/-- The symbol of a value below 64. -/
def symbol (n : ℕ) : Char := alphabet.getD n 'A'

/-- The value of a symbol. -/
def value? (c : Char) : Option ℕ :=
  let n := c.toNat
  if 65 ≤ n ∧ n ≤ 90 then some (n - 65)
  else if 97 ≤ n ∧ n ≤ 122 then some (n - 71)
  else if 48 ≤ n ∧ n ≤ 57 then some (n + 4)
  else if n = 43 then some 62
  else if n = 47 then some 63
  else none

@[simp] theorem value?_symbol {n : ℕ} (h : n < 64) : value? (symbol n) = some n := by
  have key : ∀ n : Fin 64, value? (symbol n) = some (n : ℕ) := by decide +kernel
  exact key ⟨n, h⟩

@[simp] theorem symbol_ne_pad {n : ℕ} (h : n < 64) : symbol n ≠ '=' := by
  have key : ∀ n : Fin 64, symbol n ≠ '=' := by decide +kernel
  exact key ⟨n, h⟩

/-! ### Groups -/

/-- The byte of two symbols, if the bits that are left over are zero. -/
def one (a b : Char) : Option (List UInt8) := do
  let a ← value? a
  let b ← value? b
  if b % 16 = 0 then some [.ofNat (a * 4 + b / 16)] else none

/-- The bytes of three symbols, if the bits that are left over are zero. -/
def two (a b c : Char) : Option (List UInt8) := do
  let a ← value? a
  let b ← value? b
  let c ← value? c
  if c % 4 = 0 then some [.ofNat (a * 4 + b / 16), .ofNat (b % 16 * 16 + c / 4)] else none

/-- The bytes of four symbols. -/
def three (a b c d : Char) : Option (List UInt8) := do
  let a ← value? a
  let b ← value? b
  let c ← value? c
  let d ← value? d
  some [.ofNat (a * 4 + b / 16), .ofNat (b % 16 * 16 + c / 4), .ofNat (c % 4 * 64 + d)]

/-- The symbol of a byte's six high bits. -/
def first (x : UInt8) : Char := symbol (x.toNat / 4)

/-- The symbol of the two low bits of a byte and the four high bits of the next. -/
def second (x y : UInt8) : Char := symbol (x.toNat % 4 * 16 + y.toNat / 16)

/-- The symbol of the four low bits of a byte and the two high bits of the next. -/
def third (y z : UInt8) : Char := symbol (y.toNat % 16 * 4 + z.toNat / 64)

/-- The symbol of the six low bits of a byte. -/
def fourth (z : UInt8) : Char := symbol (z.toNat % 64)

@[simp] theorem value?_first (x : UInt8) : value? (first x) = some (x.toNat / 4) := by
  have := x.toNat_lt
  exact value?_symbol (by omega)

@[simp] theorem value?_second (x y : UInt8) :
    value? (second x y) = some (x.toNat % 4 * 16 + y.toNat / 16) := by
  have := y.toNat_lt
  exact value?_symbol (by omega)

@[simp] theorem value?_third (y z : UInt8) :
    value? (third y z) = some (y.toNat % 16 * 4 + z.toNat / 64) := by
  have := z.toNat_lt
  exact value?_symbol (by omega)

@[simp] theorem value?_fourth (z : UInt8) : value? (fourth z) = some (z.toNat % 64) :=
  value?_symbol (by omega)

@[simp] theorem third_ne_pad (y z : UInt8) : third y z ≠ '=' := by
  have := z.toNat_lt
  exact symbol_ne_pad (by omega)

@[simp] theorem fourth_ne_pad (z : UInt8) : fourth z ≠ '=' :=
  symbol_ne_pad (by omega)

theorem high_byte (x : UInt8) (m : ℕ) (hm : m < 16) :
    UInt8.ofNat (x.toNat / 4 * 4 + (x.toNat % 4 * 16 + m) / 16) = x := by
  rw [show x.toNat / 4 * 4 + (x.toNat % 4 * 16 + m) / 16 = x.toNat by omega, UInt8.ofNat_toNat]

theorem middle_byte (n : ℕ) (y : UInt8) (m : ℕ) (hm : m < 4) :
    UInt8.ofNat ((n * 16 + y.toNat / 16) % 16 * 16 + (y.toNat % 16 * 4 + m) / 4) = y := by
  have := y.toNat_lt
  rw [show (n * 16 + y.toNat / 16) % 16 * 16 + (y.toNat % 16 * 4 + m) / 4 = y.toNat by omega,
    UInt8.ofNat_toNat]

theorem low_byte (n : ℕ) (z : UInt8) :
    UInt8.ofNat ((n * 4 + z.toNat / 64) % 4 * 64 + z.toNat % 64) = z := by
  have := z.toNat_lt
  rw [show (n * 4 + z.toNat / 64) % 4 * 64 + z.toNat % 64 = z.toNat by omega, UInt8.ofNat_toNat]

@[simp] theorem three_symbols (x y z : UInt8) :
    three (first x) (second x y) (third y z) (fourth z) = some [x, y, z] := by
  have hy := y.toNat_lt
  have hz := z.toNat_lt
  simp only [three, value?_first, value?_second, value?_third, value?_fourth, Option.bind_eq_bind,
    Option.bind_some]
  rw [high_byte x _ (by omega), middle_byte _ y _ (by omega), low_byte]

@[simp] theorem two_symbols (x y : UInt8) :
    two (first x) (second x y) (third y 0) = some [x, y] := by
  have hy := y.toNat_lt
  simp only [two, value?_first, value?_second, value?_third, Option.bind_eq_bind, Option.bind_some]
  rw [high_byte x _ (by omega), middle_byte _ y _ (by simp), if_pos (by simp)]

@[simp] theorem one_symbols (x : UInt8) : one (first x) (second x 0) = some [x] := by
  simp only [one, value?_first, value?_second, Option.bind_eq_bind, Option.bind_some]
  rw [high_byte x _ (by simp), if_pos (by simp)]

/-- Two symbols out of a longer text are read as its first byte, if at all. -/
theorem one_front {x y : UInt8} {l : List UInt8} (h : one (first x) (second x y) = some l) :
    l = [x] := by
  have hy := y.toNat_lt
  simp only [one, value?_first, value?_second, Option.bind_eq_bind, Option.bind_some] at h
  split at h
  · rw [high_byte x _ (by omega)] at h
    exact (Option.some.inj h).symm
  · cases h

/-- Three symbols out of a longer text are read as its first two bytes, if at all. -/
theorem two_front {x y z : UInt8} {l : List UInt8}
    (h : two (first x) (second x y) (third y z) = some l) : l = [x, y] := by
  have hy := y.toNat_lt
  have hz := z.toNat_lt
  simp only [two, value?_first, value?_second, value?_third, Option.bind_eq_bind,
    Option.bind_some] at h
  split at h
  · rw [high_byte x _ (by omega), middle_byte _ y _ (by omega)] at h
    exact (Option.some.inj h).symm
  · cases h

/-! ### Texts -/

/-- The text of some bytes. -/
def encode : List UInt8 → List Char
  | [] => []
  | [x] => [first x, second x 0, '=', '=']
  | [x, y] => [first x, second x y, third y 0, '=']
  | x :: y :: z :: l => first x :: second x y :: third y z :: fourth z :: encode l

/-- The bytes of a text, whose end may lack some of its filling. -/
def decode : List Char → Option (List UInt8)
  | [] => some []
  | [_] => none
  | [a, b] => one a b
  | [a, b, c] => if c = '=' then one a b else two a b c
  | a :: b :: c :: d :: l =>
    if d = '=' then
      if l = [] then if c = '=' then one a b else two a b c else none
    else do
      let front ← three a b c d
      let back ← decode l
      some (front ++ back)

example : encode [77, 97, 110, 33] = "TWFuIQ==".toList := by decide
example : decode "TWFuIQ".toList = some [77, 97, 110, 33] := by decide

@[simp] theorem decode_quad (x y z : UInt8) (l : List Char) :
    decode (first x :: second x y :: third y z :: fourth z :: l) =
      (decode l).map fun back => x :: y :: z :: back := by
  rw [decode, if_neg (fourth_ne_pad z), three_symbols]
  cases decode l <;> rfl

/-- **The round trip.** -/
theorem decode_encode (l : List UInt8) : decode (encode l) = some l := by
  fun_induction encode l with
  | case1 => rfl
  | case2 x => simp [decode]
  | case3 x y => simp [decode]
  | case4 x y z l ih => simp [ih]

theorem symbol_mem (n : ℕ) : symbol n ∈ alphabet := by
  rw [symbol, List.getD_eq_getElem?_getD]
  cases h : alphabet[n]? with
  | none => decide
  | some c => exact List.mem_of_getElem? h

/-- A text has only symbols and filling. -/
theorem mem_encode {l : List UInt8} {c : Char} (h : c ∈ encode l) : c ∈ alphabet ∨ c = '=' := by
  fun_induction encode l with
  | case1 => simp at h
  | case2 x =>
    simp only [List.mem_cons, List.not_mem_nil, or_false] at h
    obtain rfl | rfl | rfl | rfl := h
    · exact .inl (symbol_mem _)
    · exact .inl (symbol_mem _)
    all_goals exact .inr rfl
  | case3 x y =>
    simp only [List.mem_cons, List.not_mem_nil, or_false] at h
    obtain rfl | rfl | rfl | rfl := h
    · exact .inl (symbol_mem _)
    · exact .inl (symbol_mem _)
    · exact .inl (symbol_mem _)
    · exact .inr rfl
  | case4 x y z l ih =>
    simp only [List.mem_cons] at h
    obtain rfl | rfl | rfl | rfl | h := h
    iterate 4 exact .inl (symbol_mem _)
    exact ih h

/-- A front of a text of at least four symbols has one of five forms. -/
theorem prefix_quad {a b c d : Char} {p l : List Char} (h : p <+: a :: b :: c :: d :: l) :
    p = [] ∨ p = [a] ∨ p = [a, b] ∨ p = [a, b, c] ∨
      ∃ p', p = a :: b :: c :: d :: p' ∧ p' <+: l := by
  rcases p with _ | ⟨a', _ | ⟨b', _ | ⟨c', _ | ⟨d', p'⟩⟩⟩⟩
  · exact .inl rfl
  · simp only [List.cons_prefix_cons] at h
    simp [h.1]
  · simp only [List.cons_prefix_cons] at h
    simp [h.1, h.2.1]
  · simp only [List.cons_prefix_cons] at h
    simp [h.1, h.2.1, h.2.2.1]
  · simp only [List.cons_prefix_cons] at h
    obtain ⟨rfl, rfl, rfl, rfl, h⟩ := h
    exact .inr (.inr (.inr (.inr ⟨p', rfl, h⟩)))

/-- What the front of an encoding decodes to is the front of the bytes. -/
theorem decode_prefix {l m : List UInt8} {p : List Char} (hp : p <+: encode l)
    (hd : decode p = some m) : m <+: l := by
  fun_induction encode l generalizing p m with
  | case1 =>
    obtain rfl : p = [] := List.prefix_nil.mp hp
    cases hd
    exact List.nil_prefix
  | case2 x =>
    obtain rfl | rfl | rfl | rfl | ⟨p', rfl, hp'⟩ := prefix_quad hp
    · cases hd
      exact List.nil_prefix
    · cases hd
    · simp_all [decode]
    · simp_all [decode]
    · simp_all [decode]
  | case3 x y =>
    obtain rfl | rfl | rfl | rfl | ⟨p', rfl, hp'⟩ := prefix_quad hp
    · cases hd
      exact List.nil_prefix
    · cases hd
    · rw [one_front hd]
      exact ⟨[y], rfl⟩
    · simp_all [decode]
    · simp_all [decode]
  | case4 x y z l ih =>
    obtain rfl | rfl | rfl | rfl | ⟨p', rfl, hp'⟩ := prefix_quad hp
    · cases hd
      exact List.nil_prefix
    · cases hd
    · rw [one_front hd]
      exact ⟨y :: z :: l, rfl⟩
    · rw [decode, if_neg (third_ne_pad y z)] at hd
      rw [two_front hd]
      exact ⟨z :: l, rfl⟩
    · rw [decode_quad, Option.map_eq_some_iff] at hd
      obtain ⟨m', hm', rfl⟩ := hd
      simpa only [List.cons_prefix_cons, true_and] using ih hp' hm'

/-- **Once the front of an encoding decodes to all the bytes, so does every longer front.** -/
theorem decode_extend {l : List UInt8} {p q : List Char} (hpq : p <+: q) (hq : q <+: encode l)
    (hd : decode p = some l) : decode q = some l := by
  fun_induction encode l generalizing p q with
  | case1 =>
    obtain rfl : q = [] := List.prefix_nil.mp hq
    rfl
  | case2 x =>
    -- two symbols are enough, and fewer do not decode to a byte
    have hlen : 2 ≤ q.length := by
      refine le_trans ?_ hpq.length_le
      obtain rfl | rfl | rfl | rfl | ⟨p', rfl, -⟩ := prefix_quad (hpq.trans hq)
      · cases hd
      · cases hd
      all_goals simp
    obtain rfl | rfl | rfl | rfl | ⟨q', rfl, hq'⟩ := prefix_quad hq
    · simp at hlen
    · simp at hlen
    · simp [decode]
    · simp [decode]
    · simp_all [decode]
  | case3 x y =>
    -- three symbols are enough, and two decode to one byte
    have hlen : 3 ≤ q.length := by
      refine le_trans ?_ hpq.length_le
      obtain rfl | rfl | rfl | rfl | ⟨p', rfl, -⟩ := prefix_quad (hpq.trans hq)
      · cases hd
      · cases hd
      · cases one_front hd
      all_goals simp
    obtain rfl | rfl | rfl | rfl | ⟨q', rfl, hq'⟩ := prefix_quad hq
    · simp at hlen
    · simp at hlen
    · simp at hlen
    · simp [decode]
    · simp_all [decode]
  | case4 x y z l ih =>
    obtain rfl | rfl | rfl | rfl | ⟨p', rfl, hp'⟩ := prefix_quad (hpq.trans hq)
    · cases hd
    · cases hd
    · cases one_front hd
    · rw [decode, if_neg (third_ne_pad y z)] at hd
      cases two_front hd
    · rw [decode_quad, Option.map_eq_some_iff] at hd
      obtain ⟨m', hm', hm⟩ := hd
      simp only [List.cons.injEq, true_and] at hm
      subst hm
      obtain ⟨q', rfl⟩ := hpq
      simp only [List.cons_append, List.cons_prefix_cons, true_and] at hq
      rw [List.cons_append, List.cons_append, List.cons_append, List.cons_append, decode_quad,
        ih ⟨q', rfl⟩ hq hm', Option.map_some]

end Base64
