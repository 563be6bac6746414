import RustdeskServer.Plain.Shape
import RustdeskServer.RelayEntries

/-!
# The grammar of a relay list

An entry of a relay list is a host, or a host and a port; the host is a name, or an IPv6
address in brackets.  `relay_entry_problem` is to let nothing else through, and keeps
everything of that form.  But the check of the brackets returns "no problem" where there is
no closing one, does not look at what is in them or behind them, lets brackets stand in a
name, and reads a port with a plus sign.

## Main definitions

* `RelayEntry`, `WellFormed` — an entry that is as it should be.
* `Slip` — what gets through and should not.

## Main results

* `problem_wellFormed` — an entry that is as it should be has no problem.
* `wellFormed_or_slip` — what gets through is as it should be, or is a slip.
-/

namespace RustdeskServer

/-! ### Entries as they should be -/

/-- A character that can stand in a host in brackets. -/
def BracketChar (c : Char) : Prop :=
  c ≠ '/' ∧ c ≠ '[' ∧ c ≠ ']' ∧ Text.isWhitespace c = false

/-- A character that can stand in a host name. -/
def HostChar (c : Char) : Prop := c ≠ ':' ∧ BracketChar c

/-- A host: a name, or an IPv6 address in brackets. -/
inductive IsHost : List Char → Prop
  /-- A name. -/
  | name {h : List Char} (hne : h ≠ []) (hchars : ∀ c ∈ h, HostChar c) : IsHost h
  /-- An address in brackets. -/
  | v6 {v : List Char} (hne : v ≠ []) (hchars : ∀ c ∈ v, BracketChar c) :
    IsHost ('[' :: (v ++ [']']))

/-- The number that digits make. -/
def portNumber (p : List Char) : ℕ := Nat.ofDigitChars 10 p 0

/-- A port: digits that make a number from 1 to 65535. -/
structure IsPort (p : List Char) : Prop where
  /-- There is a digit. -/
  ne : p ≠ []
  /-- There is nothing else. -/
  digits : ∀ c ∈ p, c.isDigit = true
  /-- The number is not zero. -/
  pos : 0 < portNumber p
  /-- It is a `u16`. -/
  le : portNumber p ≤ 65535

/-- An entry that is as it should be. -/
structure RelayEntry where
  /-- The host, with its brackets. -/
  host : List Char
  /-- It is one. -/
  hostOk : IsHost host
  /-- The port, if it is written. -/
  port : Option (List Char)
  /-- It is one. -/
  portOk : ∀ p ∈ port, IsPort p

/-- The entry as it is written. -/
def RelayEntry.chars (x : RelayEntry) : List Char := x.host ++ x.port.elim [] (':' :: ·)

/-- The characters are those of an entry that is as it should be. -/
def WellFormedChars (e : List Char) : Prop := ∃ x : RelayEntry, x.chars = e

/-- The entry is as it should be. -/
def WellFormed (e : String) : Prop := WellFormedChars e.toList

/-! ### Numbers -/

theorem digit?_eq (c : Char) : Text.digit? c = if c.isDigit then some (c.toNat - 48) else none := by
  have hiff : ('0' ≤ c ∧ c ≤ '9') ↔ c.isDigit = true := by
    rw [Char.isDigit_iff_toNat]
    exact Iff.rfl
  unfold Text.digit?
  simp only [hiff]

theorem le_ofDigitChars (p : List Char) (n : ℕ) : n ≤ Nat.ofDigitChars 10 p n := by
  induction p generalizing n with
  | nil => simp
  | cons d p ih =>
    rw [Nat.ofDigitChars_cons]
    exact (by omega : n ≤ 10 * n + (d.toNat - '0'.toNat)).trans (ih _)

theorem digits_of_isDigit {max : ℕ} {p : List Char} {n : ℕ} (h : ∀ c ∈ p, c.isDigit = true)
    (hmax : Nat.ofDigitChars 10 p n ≤ max) :
    Text.digits max p n = some (Nat.ofDigitChars 10 p n) := by
  induction p generalizing n with
  | nil => rfl
  | cons c p ih =>
    obtain ⟨hc, hp⟩ := List.forall_mem_cons.mp h
    rw [Nat.ofDigitChars_cons] at hmax ⊢
    have hstep : n * 10 + (c.toNat - 48) = 10 * n + (c.toNat - '0'.toNat) := by
      rw [Nat.mul_comm]
      rfl
    simp only [Text.digits, digit?_eq, hc, if_true, Option.bind_eq_bind, Option.bind_some, hstep]
    rw [if_pos ((le_ofDigitChars p _).trans hmax), ih hp hmax]

theorem isDigit_of_digits {max : ℕ} {p : List Char} {n m : ℕ} (h : Text.digits max p n = some m) :
    (∀ c ∈ p, c.isDigit = true) ∧ m = Nat.ofDigitChars 10 p n ∧ (p ≠ [] → m ≤ max) := by
  induction p generalizing n with
  | nil =>
    cases h
    exact ⟨nofun, rfl, fun hne => absurd rfl hne⟩
  | cons c p ih =>
    simp only [Text.digits, digit?_eq] at h
    cases hc : c.isDigit with
    | false => simp [hc] at h
    | true =>
      simp only [hc, if_true, Option.bind_eq_bind, Option.bind_some] at h
      split at h
      · next hle =>
        obtain ⟨hdigits, hm, hmax⟩ := ih h
        have hstep : n * 10 + (c.toNat - 48) = 10 * n + (c.toNat - '0'.toNat) := by
          rw [Nat.mul_comm]
          rfl
        rw [hstep] at hm
        refine ⟨List.forall_mem_cons.mpr ⟨hc, hdigits⟩, by rw [Nat.ofDigitChars_cons, hm],
          fun _ => ?_⟩
        cases p with
        | nil =>
          rw [hm, ← hstep]
          exact hle
        | cons d p => exact hmax (by simp)
      · cases h

/-- A port is read. -/
theorem IsPort.parse {p : List Char} (h : IsPort p) :
    Text.parseUnsigned 65535 (String.ofList p) = some (portNumber p) := by
  have hdigits := digits_of_isDigit h.digits h.le
  unfold Text.parseUnsigned
  rw [String.toList_ofList]
  split
  · exact absurd rfl h.ne
  · have := h.digits '+' (by simp)
    simp at this
  · exact hdigits

/-- What is read as a number has digits and a plus sign only. -/
theorem mem_of_parse {p : List Char} {n : ℕ}
    (h : Text.parseUnsigned 65535 (String.ofList p) = some n) :
    ∀ c ∈ p, c = '+' ∨ c.isDigit = true := by
  unfold Text.parseUnsigned at h
  rw [String.toList_ofList] at h
  intro x hx
  split at h
  · cases h
  · next c cs =>
    rcases List.mem_cons.mp hx with rfl | hx
    · exact .inl rfl
    · exact .inr ((isDigit_of_digits h).1 x hx)
  · exact .inr ((isDigit_of_digits h).1 x hx)

/-- What is read as a number that is not zero is a port, with a plus sign or without. -/
theorem isPort_of_parse {p : List Char} {n : ℕ}
    (h : Text.parseUnsigned 65535 (String.ofList p) = some n) (hn : 0 < n) :
    IsPort p ∨ ∃ q, p = '+' :: q := by
  unfold Text.parseUnsigned at h
  rw [String.toList_ofList] at h
  split at h
  · cases h
  · next c cs => exact .inr ⟨c :: cs, rfl⟩
  · next c cs _ =>
    obtain ⟨hdigits, hval, hmax⟩ := isDigit_of_digits h
    have hle := hmax (by simp)
    rw [hval] at hn hle
    exact .inl ⟨by simp, hdigits, hn, hle⟩

/-! ### The check, case by case -/

theorem splitOnceChars_eq_some {sep : Char} {a b : List Char} (h : sep ∉ a) :
    Text.splitOnceChars sep (a ++ sep :: b) = some (a, b) := by
  induction a with
  | nil => exact if_pos rfl
  | cons c a ih =>
    rw [List.mem_cons, not_or] at h
    rw [List.cons_append, Text.splitOnceChars, if_neg fun hc => h.1 hc.symm, ih h.2]
    rfl

theorem splitOnceChars_eq_none {sep : Char} {l : List Char} (h : sep ∉ l) :
    Text.splitOnceChars sep l = none := by
  induction l with
  | nil => rfl
  | cons c l ih =>
    rw [List.mem_cons, not_or] at h
    rw [Text.splitOnceChars, if_neg fun hc => h.1 hc.symm, ih h.2]
    rfl

/-- A text with a character in it can be cut where the character stands first. -/
theorem split_first {sep : Char} {l : List Char} (h : sep ∈ l) :
    ∃ a b, l = a ++ sep :: b ∧ sep ∉ a := by
  obtain ⟨a, b, rfl, ha⟩ := List.eq_append_cons_of_mem h
  exact ⟨a, b, rfl, ha⟩

/-- The first places of a character in a text are one. -/
theorem split_first_unique {sep : Char} {a b a' b' : List Char}
    (h : a ++ sep :: b = a' ++ sep :: b') (ha : sep ∉ a) (ha' : sep ∉ a') : a = a' ∧ b = b' := by
  have hsplit := splitOnceChars_eq_some (b := b) ha
  rw [h, splitOnceChars_eq_some ha', Option.some.injEq, Prod.mk.injEq] at hsplit
  exact ⟨hsplit.1.symm, hsplit.2.symm⟩

theorem stripHead_ofList (c d : Char) (l : List Char) :
    Text.stripHead c (String.ofList (d :: l)) = if d = c then some (String.ofList l) else none := by
  unfold Text.stripHead
  rw [String.toList_ofList]

/-- How an entry is taken apart. -/
inductive HostPort (e : String) : Option (Except String (String × Option String)) → Prop
  /-- A bracket is opened and not closed. -/
  | unclosed {rest : List Char} (he : e.toList = '[' :: rest) (h : ']' ∉ rest) : HostPort e none
  /-- A bracket is opened and closed. -/
  | bracket {v after : List Char} (he : e.toList = '[' :: (v ++ ']' :: after)) (h : ']' ∉ v) :
    HostPort e (some (.ok (e, Text.stripHead ':' (String.ofList after))))
  /-- There is no bracket at the start and no colon. -/
  | name (hhead : e.toList.head? ≠ some '[') (h : ':' ∉ e.toList) :
    HostPort e (some (.ok (e, none)))
  /-- There is no bracket at the start and one colon. -/
  | port {h p : List Char} (he : e.toList = h ++ ':' :: p) (hhead : e.toList.head? ≠ some '[')
    (hh : ':' ∉ h) (hp : ':' ∉ p) :
    HostPort e (some (.ok (String.ofList h, some (String.ofList p))))
  /-- There is no bracket at the start, and there are several colons. -/
  | colons {why : String} (hhead : e.toList.head? ≠ some '[') (h : 2 ≤ e.toList.count ':') :
    HostPort e (some (.error why))

theorem hostPort_cases (e : String) : HostPort e (hostPort e) := by
  unfold hostPort
  cases he : e.toList with
  | nil =>
    have hstrip : Text.stripHead '[' e = none := by
      unfold Text.stripHead
      rw [he]
    rw [hstrip]
    exact .name (by simp [he]) (by simp [he])
  | cons c l =>
    have hstrip : Text.stripHead '[' e = if c = '[' then some (String.ofList l) else none := by
      unfold Text.stripHead
      rw [he]
    rw [hstrip]
    by_cases hc : c = '['
    · subst hc
      rw [if_pos rfl]
      dsimp only
      by_cases hclose : ']' ∈ l
      · obtain ⟨v, after, rfl, hv⟩ := split_first hclose
        rw [Text.splitOnce, String.toList_ofList, splitOnceChars_eq_some hv]
        exact .bracket he hv
      · rw [Text.splitOnce, String.toList_ofList, splitOnceChars_eq_none hclose]
        exact .unclosed he hclose
    · rw [if_neg hc]
      have hhead : e.toList.head? ≠ some '[' := by
        rw [he, List.head?_cons, ne_eq, Option.some.injEq]
        exact hc
      dsimp only
      rw [← he]
      split
      · next hcount => exact .name hhead (List.count_eq_zero.mp hcount)
      · next hcount =>
        have hmem : ':' ∈ e.toList := List.count_pos_iff.mp (by rw [hcount]; exact Nat.one_pos)
        obtain ⟨h, p, hsplit, hh⟩ := split_first hmem
        have hp : ':' ∉ p := by
          rw [hsplit, List.count_append, List.count_cons_self] at hcount
          exact List.count_eq_zero.mp (by omega)
        rw [Text.splitOnce, hsplit, splitOnceChars_eq_some hh]
        exact .port hsplit hhead hh hp
      · next hnone hone =>
        have hnone : e.toList.count ':' ≠ 0 := hnone
        have hone : e.toList.count ':' ≠ 1 := hone
        exact .colons hhead (by omega)

/-- What comes after the tests for white space and slashes finds no problem. -/
def HostPortOk : Option (Except String (String × Option String)) → Prop
  | none => True
  | some (.error _) => False
  | some (.ok (host, port)) =>
    host ≠ "" ∧ host ≠ ":" ∧ ∀ p ∈ port, ∃ n, Text.parseUnsigned 65535 p = some n ∧ 0 < n

theorem problem_eq_none_iff {U : Unicode} {e : String} :
    relayEntryProblem U e = none ↔
      (∀ c ∈ e.toList, Text.isWhitespace c = false ∧ c ≠ '/') ∧ HostPortOk (hostPort e) := by
  have hslash : (Text.containsStr "://" e || Text.contains '/' e) = true ↔ '/' ∈ e.toList := by
    rw [Bool.or_eq_true, Text.containsStr, Text.contains, decide_eq_true_eq, List.contains_iff_mem]
    refine ⟨fun h => h.elim (fun hinfix => hinfix.subset (by decide)) id, Or.inr⟩
  unfold relayEntryProblem
  split
  · next hspace =>
    obtain ⟨c, hc, hspace⟩ := List.any_eq_true.mp hspace
    refine ⟨nofun, fun h => ?_⟩
    rw [(h.1 c hc).1] at hspace
    cases hspace
  · next hspace =>
    split
    · next hs =>
      exact ⟨nofun, fun h => absurd rfl (h.1 '/' (hslash.mp hs)).2⟩
    · next hs =>
      have hclean : ∀ c ∈ e.toList, Text.isWhitespace c = false ∧ c ≠ '/' := by
        intro c hc
        refine ⟨?_, ?_⟩
        · simpa using fun h => hspace (List.any_eq_true.mpr ⟨c, hc, h⟩)
        · rintro rfl
          exact hs (hslash.mpr hc)
      rw [and_iff_right hclean]
      cases hostPort e with
      | none => simp [HostPortOk]
      | some r =>
        cases r with
        | error why => simp [HostPortOk]
        | ok hp =>
          obtain ⟨host, port⟩ := hp
          dsimp only [HostPortOk]
          by_cases hhost : host = "" ∨ host = ":"
          · rw [if_pos hhost]
            refine ⟨nofun, fun h => ?_⟩
            rcases hhost with hhost | hhost
            · exact absurd hhost h.1
            · exact absurd hhost h.2.1
          · rw [if_neg hhost]
            rw [not_or] at hhost
            cases port with
            | none => exact ⟨fun _ => ⟨hhost.1, hhost.2, nofun⟩, fun _ => rfl⟩
            | some p =>
              dsimp only
              cases hn : Text.parseUnsigned 65535 p with
              | none => simp [hn]
              | some n =>
                by_cases hpos : 0 < n
                · simp [hn, hpos, hhost.1, hhost.2]
                · simp [hn, hpos]

/-! ### Well-formed entries by their first character -/

theorem isDigit_hostChar {c : Char} (h : c.isDigit = true) : HostChar c := by
  have h48 : 48 ≤ c.toNat := (Char.isDigit_iff_toNat.mp h).1
  have h57 : c.toNat ≤ 57 := (Char.isDigit_iff_toNat.mp h).2
  have hne : ∀ d : Char, d.toNat < 48 ∨ 57 < d.toNat → c ≠ d := by
    rintro d hd rfl
    omega
  refine ⟨hne ':' (by decide), hne '/' (by decide), hne '[' (by decide), hne ']' (by decide), ?_⟩
  simp only [Text.isWhitespace, Bool.or_eq_false_iff, Bool.and_eq_false_iff,
    decide_eq_false_iff_not]
  omega

/-- A host has no white space and no slash. -/
theorem IsHost.clean {h : List Char} (hh : IsHost h) :
    ∀ c ∈ h, Text.isWhitespace c = false ∧ c ≠ '/' := by
  intro c hc
  cases hh with
  | name _ hchars => exact ⟨(hchars c hc).2.2.2.2, (hchars c hc).2.1⟩
  | v6 _ hchars =>
    rcases List.mem_cons.mp hc with rfl | hc
    · decide
    · rcases List.mem_append.mp hc with hc | hc
      · exact ⟨(hchars c hc).2.2.2, (hchars c hc).1⟩
      · rw [List.mem_singleton.mp hc]
        decide

theorem RelayEntry.clean (x : RelayEntry) :
    ∀ c ∈ x.chars, Text.isWhitespace c = false ∧ c ≠ '/' := by
  intro c hc
  rw [RelayEntry.chars, List.mem_append] at hc
  rcases hc with hc | hc
  · exact x.hostOk.clean c hc
  · cases hport : x.port with
    | none =>
      rw [hport] at hc
      cases hc
    | some p =>
      rw [hport] at hc
      rcases List.mem_cons.mp hc with rfl | hc
      · decide
      · have hdigit := isDigit_hostChar ((x.portOk p hport).digits c hc)
        exact ⟨hdigit.2.2.2.2, hdigit.2.1⟩

/-- What may follow a host. -/
def PortPart (after : List Char) : Prop := after = [] ∨ ∃ p, IsPort p ∧ after = ':' :: p

theorem RelayEntry.portPart (x : RelayEntry) : PortPart (x.port.elim [] (':' :: ·)) := by
  cases hport : x.port with
  | none => exact .inl rfl
  | some p => exact .inr ⟨p, x.portOk p hport, rfl⟩

theorem wellFormed_of_parts {h after : List Char} (hh : IsHost h) (hafter : PortPart after) :
    WellFormedChars (h ++ after) := by
  rcases hafter with rfl | ⟨p, hp, rfl⟩
  · exact ⟨⟨h, hh, none, nofun⟩, rfl⟩
  · refine ⟨⟨h, hh, some p, ?_⟩, rfl⟩
    rintro _ ⟨⟩
    exact hp

/-- Entries that begin with a bracket. -/
theorem wellFormed_bracket_iff {v after : List Char} (hv : ']' ∉ v) :
    WellFormedChars ('[' :: (v ++ ']' :: after)) ↔
      v ≠ [] ∧ (∀ c ∈ v, BracketChar c) ∧ PortPart after := by
  constructor
  · rintro ⟨x, hx⟩
    have hpart := x.portPart
    have hhost := x.hostOk
    rw [RelayEntry.chars] at hx
    generalize x.host = h at hhost hx
    generalize x.port.elim [] (':' :: ·) = tail at hpart hx
    cases hhost with
    | name hne hchars =>
      -- a name does not begin with a bracket
      cases h with
      | nil => exact absurd rfl hne
      | cons c h =>
        rw [List.cons_append] at hx
        exact absurd (List.cons.inj hx).1 (hchars c List.mem_cons_self).2.2.1
    | @v6 v' hne hchars =>
      rw [List.cons_append, List.append_assoc, List.singleton_append] at hx
      have hv' : ']' ∉ v' := fun hmem => (hchars _ hmem).2.2.1 rfl
      obtain ⟨rfl, rfl⟩ := split_first_unique (List.cons.inj hx).2 hv' hv
      exact ⟨hne, hchars, hpart⟩
  · rintro ⟨hne, hchars, hpart⟩
    have hform := wellFormed_of_parts (.v6 hne hchars) hpart
    rwa [List.cons_append, List.append_assoc, List.singleton_append] at hform

/-- Entries that do not. -/
theorem wellFormed_name_iff {e : List Char} (hhead : e.head? ≠ some '[') :
    WellFormedChars e ↔
      ∃ h after, e = h ++ after ∧ h ≠ [] ∧ (∀ c ∈ h, HostChar c) ∧ PortPart after := by
  constructor
  · rintro ⟨x, rfl⟩
    have hhost := x.hostOk
    rw [RelayEntry.chars] at hhead ⊢
    refine ⟨x.host, _, rfl, ?_, ?_, x.portPart⟩
    · generalize x.host = h at hhost hhead
      cases hhost with
      | name hne _ => exact hne
      | v6 _ _ => exact absurd rfl hhead
    · generalize x.host = h at hhost hhead
      cases hhost with
      | name _ hchars => exact hchars
      | v6 _ _ => exact absurd rfl hhead
  · rintro ⟨h, after, rfl, hne, hchars, hpart⟩
    exact wellFormed_of_parts (.name hne hchars) hpart

/-! ### What gets through -/

/-- **An entry that is as it should be has no problem.** -/
theorem problem_wellFormed {U : Unicode} {e : String} (h : WellFormed e) :
    relayEntryProblem U e = none := by
  obtain ⟨x, hx⟩ := id h
  refine problem_eq_none_iff.mpr ⟨fun c hc => x.clean c (hx ▸ hc), ?_⟩
  have hne : e ≠ "" := by
    rintro rfl
    have hhost := x.hostOk
    rw [RelayEntry.chars] at hx
    rw [(List.append_eq_nil_iff.mp hx).1] at hhost
    cases hhost with
    | name hne _ => exact hne rfl
  have hcases := hostPort_cases e
  generalize hostPort e = r at hcases
  cases hcases with
  | unclosed _ _ => trivial
  | @bracket v after he hv =>
    rw [WellFormed, he, wellFormed_bracket_iff hv] at h
    refine ⟨hne, ?_, fun p hp => ?_⟩
    · rintro rfl
      cases he
    · rcases h.2.2 with rfl | ⟨q, hq, rfl⟩
      · cases hp
      · rw [stripHead_ofList, if_pos rfl, Option.mem_some_iff] at hp
        rw [← hp]
        exact ⟨_, hq.parse, hq.pos⟩
  | name _ hcolon =>
    refine ⟨hne, ?_, nofun⟩
    rintro rfl
    exact hcolon (by decide)
  | @port h' p he hhead hh hp =>
    obtain ⟨h'', after, heq, hne', hchars, hpart⟩ := (wellFormed_name_iff hhead).mp h
    have hcolon : ':' ∉ h'' := fun hmem => (hchars _ hmem).1 rfl
    have hmem : ':' ∈ e.toList := by simp [he]
    rcases hpart with rfl | ⟨q, hq, rfl⟩
    · rw [heq, List.append_nil] at hmem
      exact absurd hmem hcolon
    · obtain ⟨rfl, rfl⟩ := split_first_unique (he.symm.trans heq) hh hcolon
      refine ⟨by simpa using hne', ?_, ?_⟩
      · intro hcol
        rw [← String.toList_inj, String.toList_ofList] at hcol
        exact hcolon (by rw [hcol]; decide)
      · rintro _ ⟨⟩
        exact ⟨_, hq.parse, hq.pos⟩
  | colons hhead hcount =>
    obtain ⟨h', after, heq, -, hchars, hpart⟩ := (wellFormed_name_iff hhead).mp h
    have hcolon : h'.count ':' = 0 := List.count_eq_zero.mpr fun hmem => (hchars _ hmem).1 rfl
    have hrest : after.count ':' ≤ 1 := by
      rcases hpart with rfl | ⟨p, hp, rfl⟩
      · simp
      · have hp : p.count ':' = 0 :=
          List.count_eq_zero.mpr fun hmem => (isDigit_hostChar (hp.digits _ hmem)).1 rfl
        rw [List.count_cons_self, hp]
    rw [heq, List.count_append, hcolon] at hcount
    omega

/-- What gets through and should not. -/
inductive Slip : List Char → Prop
  /-- A bracket that is not closed. -/
  | unclosed {rest : List Char} (h : ']' ∉ rest) : Slip ('[' :: rest)
  /-- Brackets with nothing in them. -/
  | nothing {after : List Char} : Slip ('[' :: ']' :: after)
  /-- A bracket in brackets. -/
  | nested {v after : List Char} (hv : ']' ∉ v) (h : '[' ∈ v) : Slip ('[' :: (v ++ ']' :: after))
  /-- Something else than a port behind the closing bracket. -/
  | trailing {v after : List Char} {c : Char} (hv : ']' ∉ v) (hc : c ≠ ':') :
    Slip ('[' :: (v ++ ']' :: c :: after))
  /-- A port with a sign behind the closing bracket. -/
  | signedV6 {v p : List Char} (hv : ']' ∉ v) : Slip ('[' :: (v ++ ']' :: ':' :: '+' :: p))
  /-- A bracket in a name. -/
  | stray {e : List Char} (hhead : e.head? ≠ some '[') (h : '[' ∈ e ∨ ']' ∈ e) : Slip e
  /-- A port with a sign behind a name. -/
  | signed {h p : List Char} (hhead : h.head? ≠ some '[') (hh : ':' ∉ h) :
    Slip (h ++ ':' :: '+' :: p)

theorem not_isPort_signed (p : List Char) : ¬IsPort ('+' :: p) := by
  intro h
  have := h.digits '+' List.mem_cons_self
  simp at this

theorem not_portPart_signed (p : List Char) : ¬PortPart (':' :: '+' :: p) := by
  rintro (h | ⟨q, hq, heq⟩)
  · cases h
  · obtain ⟨-, rfl⟩ := List.cons.inj heq
    exact not_isPort_signed p hq

/-- A slip is not as it should be. -/
theorem Slip.not_wellFormed {e : List Char} (h : Slip e) : ¬WellFormedChars e := by
  intro hform
  cases h with
  | @unclosed rest hclose =>
    obtain ⟨x, hx⟩ := hform
    have hhost := x.hostOk
    rw [RelayEntry.chars] at hx
    generalize x.host = h at hhost hx
    cases hhost with
    | name hne hchars =>
      cases h with
      | nil => exact hne rfl
      | cons c h =>
        rw [List.cons_append] at hx
        exact (hchars c List.mem_cons_self).2.2.1 (List.cons.inj hx).1
    | v6 _ _ =>
      rw [List.cons_append] at hx
      exact hclose (by rw [← (List.cons.inj hx).2]; simp)
  | @nothing after => exact ((wellFormed_bracket_iff (v := []) (by simp)).mp hform).1 rfl
  | nested hv hopen => exact (((wellFormed_bracket_iff hv).mp hform).2.1 _ hopen).2.1 rfl
  | trailing hv hc =>
    rcases ((wellFormed_bracket_iff hv).mp hform).2.2 with hnil | ⟨p, -, heq⟩
    · cases hnil
    · exact hc (List.cons.inj heq).1
  | signedV6 hv => exact not_portPart_signed _ ((wellFormed_bracket_iff hv).mp hform).2.2
  | stray hhead hbracket =>
    obtain ⟨h, after, rfl, -, hchars, hpart⟩ := (wellFormed_name_iff hhead).mp hform
    have hclean : ∀ c ∈ h ++ after, c ≠ '[' ∧ c ≠ ']' := by
      intro c hc
      rcases List.mem_append.mp hc with hc | hc
      · exact ⟨(hchars c hc).2.2.1, (hchars c hc).2.2.2.1⟩
      · rcases hpart with rfl | ⟨p, hp, rfl⟩
        · cases hc
        · rcases List.mem_cons.mp hc with rfl | hc
          · decide
          · have hdigit := isDigit_hostChar (hp.digits c hc)
            exact ⟨hdigit.2.2.1, hdigit.2.2.2.1⟩
    rcases hbracket with hopen | hclose
    · exact (hclean _ hopen).1 rfl
    · exact (hclean _ hclose).2 rfl
  | @signed h p hhead hh =>
    have hhead' : (h ++ ':' :: '+' :: p).head? ≠ some '[' := by
      cases h with
      | nil => simp
      | cons c h => exact hhead
    obtain ⟨h', after, heq, -, hchars, hpart⟩ := (wellFormed_name_iff hhead').mp hform
    have hcolon : ':' ∉ h' := fun hmem => (hchars _ hmem).1 rfl
    rcases hpart with rfl | ⟨q, hq, rfl⟩
    · rw [List.append_nil] at heq
      exact hcolon (by rw [← heq]; simp)
    · obtain ⟨-, rfl⟩ := split_first_unique heq hh hcolon
      exact not_isPort_signed p hq

/-- **What gets through is as it should be, or is a slip.** -/
theorem wellFormed_or_slip {U : Unicode} {e : String} (h : relayEntryProblem U e = none)
    (hne : e ≠ "") : WellFormed e ∨ Slip e.toList := by
  obtain ⟨hclean, hok⟩ := problem_eq_none_iff.mp h
  have hcases := hostPort_cases e
  rw [WellFormed]
  generalize hostPort e = r at hcases hok
  cases hcases with
  | unclosed he hclose =>
    rw [he]
    exact .inr (.unclosed hclose)
  | @bracket v after he hv =>
    rw [he]
    by_cases hnil : v = []
    · subst hnil
      exact .inr .nothing
    by_cases hopen : '[' ∈ v
    · exact .inr (.nested hv hopen)
    have hchars : ∀ c ∈ v, BracketChar c := by
      intro c hc
      have hcl := hclean c (by rw [he]; simp [hc])
      exact ⟨hcl.2, fun heq => hopen (heq ▸ hc), fun heq => hv (heq ▸ hc), hcl.1⟩
    cases after with
    | nil => exact .inl ((wellFormed_bracket_iff hv).mpr ⟨hnil, hchars, .inl rfl⟩)
    | cons c after =>
      by_cases hc : c = ':'
      · subst hc
        obtain ⟨n, hn, hpos⟩ := hok.2.2 (String.ofList after)
          (by rw [stripHead_ofList, if_pos rfl]; rfl)
        rcases isPort_of_parse hn hpos with hport | ⟨q, rfl⟩
        · exact .inl ((wellFormed_bracket_iff hv).mpr ⟨hnil, hchars, .inr ⟨after, hport, rfl⟩⟩)
        · exact .inr (.signedV6 hv)
      · exact .inr (.trailing hv hc)
  | name hhead hcolon =>
    by_cases hbracket : '[' ∈ e.toList ∨ ']' ∈ e.toList
    · exact .inr (.stray hhead hbracket)
    · rw [not_or] at hbracket
      refine .inl ((wellFormed_name_iff hhead).mpr
        ⟨e.toList, [], by simp, by simpa using hne, fun c hc => ?_, .inl rfl⟩)
      exact ⟨fun heq => hcolon (heq ▸ hc), (hclean c hc).2, fun heq => hbracket.1 (heq ▸ hc),
        fun heq => hbracket.2 (heq ▸ hc), (hclean c hc).1⟩
  | @port h p he hhead hh hp =>
    by_cases hbracket : '[' ∈ e.toList ∨ ']' ∈ e.toList
    · exact .inr (.stray hhead hbracket)
    · rw [not_or] at hbracket
      obtain ⟨hhost, -, hport⟩ := hok
      obtain ⟨n, hn, hpos⟩ := hport (String.ofList p) rfl
      have hne' : h ≠ [] := by
        rintro rfl
        exact hhost rfl
      rcases isPort_of_parse hn hpos with hport | ⟨q, rfl⟩
      · refine .inl ((wellFormed_name_iff hhead).mpr
          ⟨h, ':' :: p, he, hne', fun c hc => ?_, .inr ⟨p, hport, rfl⟩⟩)
        have hmem : c ∈ e.toList := by
          rw [he]
          exact List.mem_append_left _ hc
        exact ⟨fun heq => hh (heq ▸ hc), (hclean c hmem).2, fun heq => hbracket.1 (heq ▸ hmem),
          fun heq => hbracket.2 (heq ▸ hmem), (hclean c hmem).1⟩
      · rw [he]
        refine .inr (.signed ?_ hh)
        rw [he] at hhead
        cases h with
        | nil => exact absurd rfl hne'
        | cons c h => exact hhead
  | colons _ _ => exact hok.elim

end RustdeskServer
