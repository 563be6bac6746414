import Mathlib.Data.List.Infix
import Mathlib.Data.List.Basic

/-!
# Lines, words and fields of a text

A text is a list of characters.  It is cut into lines at the line feed, a line into words at
the white space, a word into fields at a separator.  Each cut undoes the way the text was put
together, provided that the pieces have none of the characters that it is cut at.

## Main definitions

* `Plain.lines` — the lines of a text.
* `Plain.words` — the words of a line.
* `Plain.rsplitOnce` — what is before and after the last separator.

## Main results

* `Plain.lines_joined` — lines that were joined are read back.
* `Plain.words_two` — two words with blanks between them are read back.
* `Plain.rsplitOnce_append` — a field that was put behind a separator is read back.
* `Plain.mem_words` — a word is not empty and has nothing that a line is cut at.
-/

namespace Plain

/-! ### Lines -/

/-- A line without the carriage return at its end. -/
def stripCr (l : List Char) : List Char :=
  if l.getLast? = some '\r' then l.dropLast else l

/-- The lines of a text, each ended by a line feed, with a carriage return before it or
without; what follows the last line feed is a line if it is not empty. -/
def lines (t : List Char) : List (List Char) :=
  let ls := t.splitOn '\n'
  ls.dropLast.map stripCr ++ ls.getLast?.toList.filter fun l => !l.isEmpty

example : lines ['a', '\r', '\n', '\n', 'b', '\r'] = [['a'], [], ['b', '\r']] := by decide +kernel

/-- Lines that were joined are read back. -/
theorem lines_joined {ls : List (List Char)} (hne : ls ≠ []) (h : ∀ l ∈ ls, '\n' ∉ l) :
    lines (['\n'].intercalate ls ++ ['\n']) = ls.map stripCr := by
  have hjoin : ['\n'].intercalate ls ++ ['\n'] = ['\n'].intercalate (ls ++ [[]]) := by
    induction ls with
    | nil => exact absurd rfl hne
    | cons l ls ih =>
      cases ls with
      | nil => simp
      | cons l' ls =>
        have ih := ih (by simp) fun l hl => h l (List.mem_cons_of_mem _ hl)
        simp only [List.cons_append, List.intercalate_cons_cons, List.append_assoc] at ih ⊢
        rw [ih]
  have hsplit : (['\n'].intercalate ls ++ ['\n']).splitOn '\n' = ls ++ [[]] := by
    rw [hjoin]
    refine List.splitOn_intercalate '\n' ?_ (by simp)
    intro l hl
    rcases List.mem_append.mp hl with hl | hl
    · exact h l hl
    · rw [List.mem_singleton.mp hl]
      exact List.not_mem_nil
  simp only [lines, hsplit, List.dropLast_concat]
  simp

/-! ### Words -/

/-- The words of a line, cut at the characters that meet `p`. -/
def words (p : Char → Bool) (t : List Char) : List (List Char) :=
  (t.splitOnP p).filter fun w => !w.isEmpty

/-- A piece of a text has only characters of the text, and none that it is cut at. -/
theorem mem_splitOnP {p : Char → Bool} {t w : List Char} (h : w ∈ t.splitOnP p) :
    ∀ c ∈ w, p c = false ∧ c ∈ t := by
  induction t generalizing w with
  | nil =>
    rw [List.splitOnP_nil, List.mem_singleton] at h
    simp [h]
  | cons x t ih =>
    have hlater : ∀ v ∈ t.splitOnP p, ∀ c ∈ v, p c = false ∧ c ∈ x :: t :=
      fun v hv c hc => (ih hv c hc).imp_right (List.mem_cons_of_mem x)
    obtain ⟨r, rs, hr⟩ := List.exists_cons_of_ne_nil (List.splitOnP_ne_nil p t)
    rw [hr] at hlater
    rw [List.splitOnP_cons_eq_if_modifyHead, hr, List.modifyHead_cons] at h
    split at h
    · -- the piece before the cut is empty
      rcases List.mem_cons.mp h with rfl | h
      · simp
      · exact hlater w h
    · next hx =>
      rcases List.mem_cons.mp h with rfl | h
      · intro c hc
        rcases List.mem_cons.mp hc with rfl | hc
        · exact ⟨by simpa using hx, List.mem_cons_self⟩
        · exact hlater r List.mem_cons_self c hc
      · exact hlater w (List.mem_cons_of_mem r h)

/-- A word is not empty, and its characters are of the text and not cut at. -/
theorem mem_words {p : Char → Bool} {t w : List Char} (h : w ∈ words p t) :
    w ≠ [] ∧ ∀ c ∈ w, p c = false ∧ c ∈ t := by
  obtain ⟨hw, hne⟩ := List.mem_filter.mp h
  exact ⟨by simpa using hne, mem_splitOnP hw⟩

theorem words_append_sep {p : Char → Bool} {c : Char} (hc : p c = true) (x y : List Char) :
    words p (x ++ c :: y) = words p x ++ words p y := by
  rw [words, words, words, List.splitOnP_append_cons x y hc, List.filter_append]

theorem words_single {p : Char → Bool} {w : List Char} (hne : w ≠ []) (h : ∀ c ∈ w, p c = false) :
    words p w = [w] := by
  rw [words, List.splitOnP_eq_singleton h]
  simp [hne]

theorem words_nil (p : Char → Bool) : words p [] = [] := by
  simp [words]

/-- Two words with two blanks between them are read back. -/
theorem words_two {p : Char → Bool} {c : Char} (hc : p c = true) {v w : List Char} (hv : v ≠ [])
    (hw : w ≠ []) (hpv : ∀ c ∈ v, p c = false) (hpw : ∀ c ∈ w, p c = false) :
    words p (v ++ c :: c :: w) = [v, w] := by
  have hblank : words p (c :: w) = words p w := by
    have h := words_append_sep hc [] w
    rwa [words_nil, List.nil_append, List.nil_append] at h
  rw [words_append_sep hc, hblank, words_single hv hpv, words_single hw hpw]
  rfl

/-! ### Fields -/

/-- What is before and after the last separator. -/
def rsplitOnce (sep : Char) : List Char → Option (List Char × List Char)
  | [] => none
  | c :: t =>
    match rsplitOnce sep t with
    | some (a, b) => some (c :: a, b)
    | none => if c = sep then some ([], t) else none

theorem rsplitOnce_eq_none {sep : Char} {t : List Char} (h : sep ∉ t) :
    rsplitOnce sep t = none := by
  induction t with
  | nil => rfl
  | cons c t ih =>
    rw [List.mem_cons, not_or] at h
    rw [rsplitOnce, ih h.2]
    exact if_neg fun hc => h.1 hc.symm

/-- The cut is at a separator. -/
theorem eq_of_rsplitOnce {sep : Char} {t a b : List Char} (h : rsplitOnce sep t = some (a, b)) :
    t = a ++ sep :: b := by
  induction t generalizing a with
  | nil => cases h
  | cons c t ih =>
    rw [rsplitOnce] at h
    split at h
    · next a' b' heq =>
      cases h
      rw [ih heq, List.cons_append]
    · split at h
      · next hc =>
        cases h
        rw [hc, List.nil_append]
      · cases h

/-- A field that was put behind a separator is read back. -/
theorem rsplitOnce_append {sep : Char} {a b : List Char} (h : sep ∉ b) :
    rsplitOnce sep (a ++ sep :: b) = some (a, b) := by
  induction a with
  | nil =>
    rw [List.nil_append, rsplitOnce, rsplitOnce_eq_none h]
    exact if_pos rfl
  | cons c a ih => rw [List.cons_append, rsplitOnce, ih]

end Plain
