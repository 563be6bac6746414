import RustdeskServer.GeoUpdate

/-!
# The order of months

A month is recorded as text, `YYYY-MM`, and `update` compares the texts.  For records of
the right format that is the order in time: texts of one length compare as the numbers
their digits make.  A label has the right format for the years 0 to 9999; one of a negative
year is before every record, and a record is before every later year.

## Main definitions

* `Earlier`, `NotLater` — months in time.
* `recorded` — the year and the month of a record.

## Main results

* `ltChars_iff_earlier` — **records compare as the months they name.**
* `isMonth_label`, `recorded_label` — labels of the years 0 to 9999.
* `trim_recordText` — a record is read back as it was written.
-/

namespace RustdeskServer
namespace Geo

open Text

/-! ### Texts -/

/-- The order of texts is total. -/
theorem eq_of_not_ltChars {a b : List Char} (hab : ltChars a b = false)
    (hba : ltChars b a = false) : a = b := by
  induction a generalizing b with
  | nil =>
    cases b with
    | nil => rfl
    | cons y ys => cases hab
  | cons x xs ih =>
    cases b with
    | nil => cases hba
    | cons y ys =>
      simp only [ltChars, Bool.or_eq_false_iff, decide_eq_false_iff_not] at hab hba
      have hxy : x = y := Char.toNat_inj.mp (by omega)
      subst hxy
      simp only [beq_self_eq_true, Bool.true_and] at hab hba
      rw [ih hab.2 hba.2]

/-! ### Digits -/

theorem toNat_of_isDigit {c : Char} (h : c.isDigit = true) : 48 ≤ c.toNat ∧ c.toNat ≤ 57 :=
  Char.isDigit_iff_toNat.mp h

theorem ofDigitChars_lt {a : List Char} (ha : ∀ c ∈ a, c.isDigit = true) :
    Nat.ofDigitChars 10 a 0 < 10 ^ a.length := by
  induction a with
  | nil => simp
  | cons c cs ih =>
    have hc := toNat_of_isDigit (ha c List.mem_cons_self)
    have hcs := ih fun x hx => ha x (List.mem_cons_of_mem _ hx)
    rw [Nat.ofDigitChars_cons, Nat.ofDigitChars_eq_ofDigitChars_zero, List.length_cons,
      Nat.pow_succ]
    have hd : c.toNat - '0'.toNat ≤ 9 := by
      simp only [Char.reduceToNat]
      omega
    have hmul : 10 ^ cs.length * (10 * 0 + (c.toNat - '0'.toNat)) ≤ 10 ^ cs.length * 9 :=
      Nat.mul_le_mul_left _ (by omega)
    omega

/-- A most significant digit decides, and then the rest. -/
theorem mul_add_lt_iff {p x y u v : ℕ} (hu : u < p) (hv : v < p) :
    p * x + u < p * y + v ↔ x < y ∨ (x = y ∧ u < v) := by
  rcases Nat.lt_trichotomy x y with h | h | h
  · have : p * (x + 1) ≤ p * y := Nat.mul_le_mul_left p h
    rw [Nat.mul_add] at this
    refine iff_of_true (by omega) (Or.inl h)
  · subst h
    simp
  · have : p * (y + 1) ≤ p * x := Nat.mul_le_mul_left p h
    rw [Nat.mul_add] at this
    refine iff_of_false (by omega) (by omega)

/-- **Digits compare as the numbers they make**, for texts of one length. -/
theorem ltChars_iff_ofDigitChars {a b : List Char} (hlen : a.length = b.length)
    (ha : ∀ c ∈ a, c.isDigit = true) (hb : ∀ c ∈ b, c.isDigit = true) :
    ltChars a b = true ↔ Nat.ofDigitChars 10 a 0 < Nat.ofDigitChars 10 b 0 := by
  induction a generalizing b with
  | nil =>
    cases b with
    | nil => simp [ltChars]
    | cons d ds => cases hlen
  | cons c cs ih =>
    cases b with
    | nil => cases hlen
    | cons d ds =>
      have hlen' : cs.length = ds.length := by simpa using hlen
      have hcs : ∀ x ∈ cs, x.isDigit = true := fun x hx => ha x (List.mem_cons_of_mem _ hx)
      have hds : ∀ x ∈ ds, x.isDigit = true := fun x hx => hb x (List.mem_cons_of_mem _ hx)
      have hc := toNat_of_isDigit (ha c List.mem_cons_self)
      have hd := toNat_of_isDigit (hb d List.mem_cons_self)
      have hu := ofDigitChars_lt hcs
      have hv := ofDigitChars_lt hds
      rw [← hlen'] at hv
      rw [Nat.ofDigitChars_cons, Nat.ofDigitChars_cons, Nat.ofDigitChars_eq_ofDigitChars_zero,
        @Nat.ofDigitChars_eq_ofDigitChars_zero ds, ← hlen', mul_add_lt_iff hu hv,
        ← ih hlen' hcs hds]
      have heq : c = d ↔ c.toNat = d.toNat := ⟨fun h => by rw [h], fun h => Char.toNat_inj.mp h⟩
      simp only [ltChars, Bool.or_eq_true, decide_eq_true_eq, Bool.and_eq_true, beq_iff_eq, heq,
        Char.reduceToNat, Nat.mul_zero, Nat.zero_add]
      refine or_congr ⟨fun _ => by omega, fun _ => by omega⟩ (and_congr_left fun _ => ?_)
      exact ⟨fun _ => by omega, fun _ => by omega⟩

theorem ofDigitChars_inj {a b : List Char} (hlen : a.length = b.length)
    (ha : ∀ c ∈ a, c.isDigit = true) (hb : ∀ c ∈ b, c.isDigit = true)
    (h : Nat.ofDigitChars 10 a 0 = Nat.ofDigitChars 10 b 0) : a = b := by
  have hab : ltChars a b = false := by
    rw [Bool.eq_false_iff, Ne, ltChars_iff_ofDigitChars hlen ha hb]
    omega
  have hba : ltChars b a = false := by
    rw [Bool.eq_false_iff, Ne, ltChars_iff_ofDigitChars hlen.symm hb ha]
    omega
  exact eq_of_not_ltChars hab hba

/-- Texts with beginnings of one length compare by these first. -/
theorem ltChars_append {a b c d : List Char} (hlen : a.length = b.length) :
    ltChars (a ++ c) (b ++ d) = true ↔
      ltChars a b = true ∨ (a = b ∧ ltChars c d = true) := by
  induction a generalizing b with
  | nil =>
    cases b with
    | nil => simp [ltChars]
    | cons y ys => cases hlen
  | cons x xs ih =>
    cases b with
    | nil => cases hlen
    | cons y ys =>
      have h := @ih ys (by simpa using hlen)
      simp only [List.cons_append, ltChars, Bool.or_eq_true, decide_eq_true_eq, Bool.and_eq_true,
        beq_iff_eq, List.cons.injEq, h]
      tauto

theorem ltChars_irrefl (a : List Char) : ltChars a a = false := by
  induction a with
  | nil => rfl
  | cons x xs ih => simp [ltChars, ih]

/-! ### Records -/

/-- Earlier in time. -/
def Earlier (a b : ℤ × ℕ) : Prop := a.1 < b.1 ∨ (a.1 = b.1 ∧ a.2 < b.2)

/-- Not later in time. -/
def NotLater (a b : ℤ × ℕ) : Prop := a.1 < b.1 ∨ (a.1 = b.1 ∧ a.2 ≤ b.2)

instance (a b : ℤ × ℕ) : Decidable (Earlier a b) := inferInstanceAs (Decidable (_ ∨ _))

instance (a b : ℤ × ℕ) : Decidable (NotLater a b) := inferInstanceAs (Decidable (_ ∨ _))

theorem NotLater.refl (a : ℤ × ℕ) : NotLater a a := Or.inr ⟨rfl, le_refl _⟩

theorem NotLater.trans {a b c : ℤ × ℕ} (hab : NotLater a b) (hbc : NotLater b c) :
    NotLater a c := by
  unfold NotLater at *
  omega

theorem Earlier.notLater {a b : ℤ × ℕ} (h : Earlier a b) : NotLater a b := by
  unfold Earlier NotLater at *
  omega

theorem notLater_iff_not_earlier {a b : ℤ × ℕ} : NotLater a b ↔ ¬Earlier b a := by
  unfold Earlier NotLater
  omega

/-- The year and the month of a record. -/
def recorded (h : String) : ℤ × ℕ :=
  (((Nat.ofDigitChars 10 (h.toList.take 4) 0 : ℕ) : ℤ), Nat.ofDigitChars 10 (h.toList.drop 5) 0)

/-- A record is four digits, a dash and two digits. -/
theorem isMonth_iff {l : List Char} :
    isMonth l = true ↔ ∃ ys ms, l = ys ++ '-' :: ms ∧ ys.length = 4 ∧ ms.length = 2 ∧
      (∀ c ∈ ys, c.isDigit = true) ∧ ∀ c ∈ ms, c.isDigit = true := by
  constructor
  · intro h
    unfold isMonth at h
    split at h
    · next a b c d x m n =>
      simp only [Bool.and_eq_true, beq_iff_eq] at h
      obtain ⟨⟨⟨⟨⟨⟨ha, hb⟩, hc⟩, hd⟩, hx⟩, hm⟩, hn⟩ := h
      subst hx
      exact ⟨[a, b, c, d], [m, n], rfl, rfl, rfl, by simp [ha, hb, hc, hd], by simp [hm, hn]⟩
    · cases h
  · rintro ⟨ys, ms, rfl, hy, hm, hys, hms⟩
    match ys, hy with
    | [a, b, c, d], _ =>
      match ms, hm with
      | [m, n], _ => simp_all [isMonth]

theorem recorded_eq {h : String} {ys ms : List Char} (heq : h.toList = ys ++ '-' :: ms)
    (hy : ys.length = 4) :
    recorded h = (((Nat.ofDigitChars 10 ys 0 : ℕ) : ℤ), Nat.ofDigitChars 10 ms 0) := by
  have htake : h.toList.take 4 = ys := by rw [heq, ← hy, List.take_left]
  have hdrop : h.toList.drop 5 = ms := by
    rw [heq, ← List.drop_drop (i := 1) (j := 4), ← hy, List.drop_left]
    rfl
  rw [recorded, htake, hdrop]

/-- **Records compare as the months they name.** -/
theorem ltChars_iff_earlier {h h' : String} (hh : isMonth h.toList = true)
    (hh' : isMonth h'.toList = true) :
    Text.lt h h' = true ↔ Earlier (recorded h) (recorded h') := by
  obtain ⟨ys, ms, heq, hy, hm, hys, hms⟩ := isMonth_iff.mp hh
  obtain ⟨ys', ms', heq', hy', hm', hys', hms'⟩ := isMonth_iff.mp hh'
  have hlen : ys.length = ys'.length := hy.trans hy'.symm
  have hdash : ltChars ('-' :: ms) ('-' :: ms') = ltChars ms ms' := by simp [ltChars]
  rw [Text.lt, heq, heq', ltChars_append hlen, hdash,
    ltChars_iff_ofDigitChars (hm.trans hm'.symm) hms hms', recorded_eq heq hy,
    recorded_eq heq' hy', Earlier]
  by_cases hyy : ys = ys'
  · subst hyy
    simp [ltChars_irrefl]
  · -- different digits make different numbers
    have hlt := ltChars_iff_ofDigitChars hlen hys hys'
    have hne : Nat.ofDigitChars 10 ys 0 ≠ Nat.ofDigitChars 10 ys' 0 :=
      fun h => hyy (ofDigitChars_inj hlen hys hys' h)
    rw [hlt]
    simp only [hyy, false_and, or_false]
    omega

/-! ### Labels -/

theorem isDigit_padded {w n : ℕ} : ∀ c ∈ padded w n, c.isDigit = true := by
  intro c hc
  rcases List.mem_append.mp hc with hc | hc
  · rw [List.eq_of_mem_replicate hc]
    rfl
  · exact Nat.isDigit_of_mem_toDigits (by decide) (by decide) hc

theorem ofDigitChars_padded (w n : ℕ) : Nat.ofDigitChars 10 (padded w n) 0 = n := by
  simp [padded, Nat.ofDigitChars_append]

theorem length_padded {w n : ℕ} (hw : 0 < w) (hn : n < 10 ^ w) : (padded w n).length = w := by
  have h := (Nat.length_toDigits_le_iff (b := 10) (by decide) hw).mpr hn
  simp only [padded, List.length_append, List.length_replicate]
  omega

theorem length_padded_gt {w n : ℕ} (hw : 0 < w) (hn : 10 ^ w ≤ n) : w < (padded w n).length := by
  have h := (Nat.length_toDigits_le_iff (b := 10) (n := n) (by decide) hw).not.mpr (by omega)
  simp only [padded, List.length_append, List.length_replicate]
  omega

theorem toList_label_ofNat (y m : ℕ) :
    (label ((y : ℤ), m)).toList = padded 4 y ++ '-' :: padded 2 m := by
  simp [label, paddedInt]

theorem toList_label_negSucc (y m : ℕ) :
    (label (.negSucc y, m)).toList = '-' :: (padded 3 (y + 1) ++ '-' :: padded 2 m) := by
  simp [label, paddedInt]

/-- The label of a year from 0 to 9999 is a record, and names its month. -/
theorem isMonth_label {y m : ℕ} (hy : y < 10000) (hm : m < 100) :
    isMonth (label ((y : ℤ), m)).toList = true :=
  isMonth_iff.mpr ⟨_, _, toList_label_ofNat y m, length_padded (by decide) hy,
    length_padded (by decide) hm, isDigit_padded, isDigit_padded⟩

theorem recorded_label {y m : ℕ} (hy : y < 10000) : recorded (label ((y : ℤ), m)) = ((y : ℤ), m) := by
  rw [recorded_eq (toList_label_ofNat y m) (length_padded (by decide) hy), ofDigitChars_padded,
    ofDigitChars_padded]

/-- The label of a negative year is before every record. -/
theorem label_neg_lt {h : String} (hh : isMonth h.toList = true) (y m : ℕ) :
    Text.lt (label (.negSucc y, m)) h = true ∧ Text.lt h (label (.negSucc y, m)) = false := by
  obtain ⟨ys, ms, heq, hy, -, hys, -⟩ := isMonth_iff.mp hh
  match ys, hy with
  | c :: ys', _ =>
    have hc := toNat_of_isDigit (hys c List.mem_cons_self)
    have hne : ('-' == c) = false := by
      rw [beq_eq_false_iff_ne]
      rintro rfl
      exact absurd hc.1 (by decide)
    simp only [Text.lt, toList_label_negSucc, heq, List.cons_append, ltChars, Char.reduceToNat]
    refine ⟨by simp; omega, ?_⟩
    rw [Bool.beq_comm, hne]
    simp
    omega

/-- A label that is a record is of a year from 0 to 9999. -/
theorem year_of_isMonth {month : ℤ × ℕ} (hm : month.2 < 100)
    (h : isMonth (label month).toList = true) :
    recorded (label month) = month := by
  obtain ⟨y, m⟩ := month
  cases y with
  | ofNat y =>
    by_cases hy : y < 10000
    · exact recorded_label hy
    · -- the fifth character of a longer year is a digit
      obtain ⟨ys, ms, heq, hlen, -, -, -⟩ := isMonth_iff.mp h
      have hlong := length_padded_gt (w := 4) (n := y) (by decide) (by omega)
      have hget : (label (((y : ℕ) : ℤ), m)).toList[4]? = some '-' := by
        rw [show (label (((y : ℕ) : ℤ), m)).toList = _ from heq, ← hlen]
        simp
      rw [toList_label_ofNat, List.getElem?_append_left hlong] at hget
      have hmem := isDigit_padded '-' (List.mem_of_getElem? hget)
      cases hmem
  | negSucc y =>
    have hself := (label_neg_lt h y m).1
    rw [Text.lt, ltChars_irrefl] at hself
    cases hself

/-- A record with a text before a label is of an earlier month. -/
theorem earlier_of_lt_label {h : String} (hh : isMonth h.toList = true) {month : ℤ × ℕ}
    (hm : month.2 < 100) (hlt : Text.lt h (label month) = true) :
    Earlier (recorded h) month := by
  obtain ⟨y, m⟩ := month
  cases y with
  | negSucc y =>
    rw [(label_neg_lt hh y m).2] at hlt
    cases hlt
  | ofNat y =>
    by_cases hy : y < 10000
    · have h' := (ltChars_iff_earlier hh (isMonth_label hy hm)).mp hlt
      rwa [recorded_label hy] at h'
    · obtain ⟨ys, ms, heq, hlen, -, hys, -⟩ := isMonth_iff.mp hh
      have hbound := ofDigitChars_lt hys
      rw [hlen] at hbound
      rw [recorded_eq heq hlen]
      left
      simp only [Int.ofNat_eq_natCast]
      omega

/-! ### Reading a record back -/

theorem not_isWhitespace_of_isDigit {c : Char} (h : c.isDigit = true) :
    isWhitespace c = false := by
  have hc := toNat_of_isDigit h
  simp only [isWhitespace]
  simp
  omega

theorem not_isWhitespace_label {month : ℤ × ℕ} :
    ∀ c ∈ (label month).toList, isWhitespace c = false := by
  obtain ⟨y, m⟩ := month
  have hpad : ∀ {w n : ℕ} (c : Char), c ∈ padded w n → isWhitespace c = false :=
    fun c hc => not_isWhitespace_of_isDigit (isDigit_padded c hc)
  have hdash : isWhitespace '-' = false := by decide
  intro c hc
  cases y with
  | ofNat y =>
    rw [show (label (Int.ofNat y, m)).toList = _ from toList_label_ofNat y m] at hc
    rcases List.mem_append.mp hc with hc | hc
    · exact hpad c hc
    · rcases List.mem_cons.mp hc with rfl | hc
      · exact hdash
      · exact hpad c hc
  | negSucc y =>
    rw [toList_label_negSucc] at hc
    rcases List.mem_cons.mp hc with rfl | hc
    · exact hdash
    · rcases List.mem_append.mp hc with hc | hc
      · exact hpad c hc
      · rcases List.mem_cons.mp hc with rfl | hc
        · exact hdash
        · exact hpad c hc

/-- **A record is read back as it was written.** -/
theorem trim_recordText (month : ℤ × ℕ) : Text.trim (recordText (label month)) = label month := by
  have hdrop : ∀ l : List Char, (∀ c ∈ l, isWhitespace c = false) → l.dropWhile isWhitespace = l := by
    intro l hl
    cases l with
    | nil => rfl
    | cons c cs => rw [List.dropWhile_cons_of_neg (by simp [hl c List.mem_cons_self])]
  have hne : (label month).toList ≠ [] := by
    unfold label
    simp
  have hfront : ((label month).toList ++ ['\n']).dropWhile isWhitespace =
      (label month).toList ++ ['\n'] := by
    cases hl : (label month).toList with
    | nil => exact absurd hl hne
    | cons c cs =>
      have hc := not_isWhitespace_label c (by rw [hl]; exact List.mem_cons_self)
      rw [List.cons_append, List.dropWhile_cons_of_neg (by simp [hc])]
  have hback : ((label month).toList ++ ['\n']).reverse.dropWhile isWhitespace =
      (label month).toList.reverse := by
    rw [List.reverse_append, List.reverse_singleton, List.singleton_append,
      List.dropWhile_cons_of_pos (by decide)]
    exact hdrop _ fun c hc => not_isWhitespace_label c (List.mem_reverse.mp hc)
  rw [Text.trim, recordText, String.toList_append, show "\n".toList = ['\n'] from rfl, hfront, hback,
    List.reverse_reverse, String.ofList_toList]

end Geo
end RustdeskServer
