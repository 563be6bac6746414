import RustdeskServer.RelayGrammar

/-!
# What is kept of a relay list

An entry of a list that is as it should be is kept, unless one before it names the same
relay; and what is kept is as it should be, if there is no slip among the entries.  A slip
does get through: it cannot be taken for an entry that is as it should be, because the name
of a relay shows whether its entry was.  For that it matters that lower case changes letters
only.

## Main definitions

* `isMark`, `Unicode.KeepsShape` — lower case leaves everything but letters alone.
* `GrammarHolds` — what is kept of a list is what should be kept.

## Main results

* `wellFormed_normalize` — the name of a relay shows whether its entry is as it should be.
* `relay_list_grammar_iff` — **what is kept is what should be exactly if no entry is a slip.**
* `unclosed_bracket_kept` — a list with an entry that is kept and should not be.
-/

namespace RustdeskServer

/-! ### Lower case -/

/-- White space, and the ASCII characters that are no letters. -/
def isMark (c : Char) : Bool :=
  let n := c.toNat
  (n < 128 && !(65 ≤ n && n ≤ 90) && !(97 ≤ n && n ≤ 122)) || Text.isWhitespace c

/-- `to_lowercase` leaves white space and all ASCII characters that are no letters where they
are, and makes none of anything else. -/
def Unicode.KeepsShape (U : Unicode) : Prop :=
  ∀ s, Plain.Shape isMark s.toList (U.toLowercase s).toList

theorem toLower_toNat {c : Char} (hA : 65 ≤ c.toNat) (hZ : c.toNat ≤ 90) :
    c.toLower.toNat = c.toNat + 32 := by
  have hcond : c.val ≥ 'A'.val ∧ c.val ≤ 'Z'.val :=
    ⟨UInt32.le_iff_toNat_le.mpr hA, UInt32.le_iff_toNat_le.mpr hZ⟩
  unfold Char.toLower
  rw [dif_pos hcond]
  change (c.val + ('a'.val - 'A'.val)).toNat = c.val.toNat + 32
  rw [UInt32.toNat_add]
  exact Nat.mod_eq_of_lt (by change c.toNat + 32 < _; omega)

theorem toLower_eq {c : Char} (h : ¬(65 ≤ c.toNat ∧ c.toNat ≤ 90)) : c.toLower = c := by
  refine dif_neg ?_
  rintro ⟨hA, hZ⟩
  exact h ⟨UInt32.le_iff_toNat_le.mp hA, UInt32.le_iff_toNat_le.mp hZ⟩

theorem Unicode.ascii_keepsShape : Unicode.ascii.KeepsShape := by
  have hmark : ∀ c : Char, isMark c = true → c.toLower = c := by
    intro c hc
    refine toLower_eq fun hupper => ?_
    simp [isMark, Text.isWhitespace] at hc
    omega
  have hother : ∀ c : Char, isMark c = false → isMark c.toLower = false := by
    intro c hc
    by_cases hupper : 65 ≤ c.toNat ∧ c.toNat ≤ 90
    · simp only [isMark, Text.isWhitespace, toLower_toNat hupper.1 hupper.2]
      simp
      omega
    · rwa [toLower_eq hupper]
  intro s
  rw [Unicode.ascii, String.toList_ofList]
  exact Plain.Shape.map hmark hother s.toList

section Shape

variable {s t : List Char}

theorem isDigit_isMark {c : Char} (h : c.isDigit = true) : isMark c = true := by
  have h57 : c.toNat ≤ 57 := (Char.isDigit_iff_toNat.mp h).2
  simp [isMark]
  omega

/-- A host stays one. -/
theorem IsHost.shape (h : IsHost s) (hs : Plain.Shape isMark s t) : IsHost t := by
  have hclean : ∀ {v w : List Char}, Plain.Shape isMark v w → (∀ c ∈ v, BracketChar c) →
      ∀ c ∈ w, BracketChar c := by
    intro v w hvw hv c hc
    have hback : isMark c = true → BracketChar c := fun hmark => hv c ((hvw.mem_iff hmark).mpr hc)
    refine ⟨?_, ?_, ?_, ?_⟩
    · rintro rfl
      exact (hback (by decide)).1 rfl
    · rintro rfl
      exact (hback (by decide)).2.1 rfl
    · rintro rfl
      exact (hback (by decide)).2.2.1 rfl
    · by_contra hspace
      rw [Bool.not_eq_false] at hspace
      have hmark : isMark c = true := by rw [isMark, hspace, Bool.or_true]
      rw [(hback hmark).2.2.2] at hspace
      cases hspace
  cases h with
  | name hne hchars =>
    refine .name (hs.ne_nil hne) fun c hc => ⟨?_, hclean hs (fun c hc => (hchars c hc).2) c hc⟩
    rintro rfl
    exact (hchars _ ((hs.mem_iff (by decide)).mpr hc)).1 rfl
  | @v6 v hne hchars =>
    obtain ⟨a, b, rfl, ha, hb⟩ := hs.split (a := []) (by decide)
    obtain ⟨w, u, rfl, hw, hu⟩ := hb.split (by decide)
    rw [ha.symm.eq_nil, hu.symm.eq_nil, List.nil_append]
    exact .v6 (hw.ne_nil hne) (hclean hw hchars)

/-- An entry that is as it should be stays so. -/
theorem WellFormedChars.shape (h : WellFormedChars s) (hs : Plain.Shape isMark s t) :
    WellFormedChars t := by
  obtain ⟨x, rfl⟩ := h
  have hpart := x.portPart
  have hhost := x.hostOk
  rw [RelayEntry.chars] at hs
  generalize x.host = host at hs hhost
  generalize x.port.elim [] (':' :: ·) = after at hs hpart
  rcases hpart with rfl | ⟨p, hp, rfl⟩
  · rw [List.append_nil] at hs
    have hform := wellFormed_of_parts (hhost.shape hs) (.inl rfl)
    rwa [List.append_nil] at hform
  · obtain ⟨a, b, rfl, ha, hb⟩ := hs.split (by decide)
    rw [hb.eq_of_all fun c hc => isDigit_isMark (hp.digits c hc)]
    exact wellFormed_of_parts (hhost.shape ha) (.inr ⟨p, hp, rfl⟩)

theorem isPort_default : IsPort (toString RELAY_PORT).toList := by
  have hchars : (toString RELAY_PORT).toList = ['2', '1', '1', '1', '7'] := by decide
  rw [hchars]
  exact ⟨by decide, by simp, by decide, by decide⟩

/-- The default port may be written. -/
theorem wellFormed_default_iff (h : ':' ∉ s) :
    WellFormedChars (s ++ ':' :: (toString RELAY_PORT).toList) ↔ WellFormedChars s := by
  have hcolon : ∀ {p : List Char}, IsPort p → ':' ∉ p :=
    fun hp hmem => (isDigit_hostChar (hp.digits _ hmem)).1 rfl
  constructor
  · rintro ⟨x, hx⟩
    have hpart := x.portPart
    have hhost := x.hostOk
    rw [RelayEntry.chars] at hx
    generalize x.host = host at hx hhost
    generalize x.port.elim [] (':' :: ·) = after at hx hpart
    rcases hpart with rfl | ⟨p, hp, rfl⟩
    · -- a host does not end with a colon and a port
      rw [List.append_nil] at hx
      cases hhost with
      | name _ hchars => exact absurd rfl (hchars ':' (by rw [hx]; simp)).1
      | v6 _ _ =>
        have hlast := congrArg List.getLast? hx
        have hseven : (':' :: (toString RELAY_PORT).toList).getLast? = some '7' := by decide
        rw [← List.cons_append, List.getLast?_concat, List.getLast?_append, hseven] at hlast
        exact absurd hlast (by simp)
    · have hsplit := Plain.rsplitOnce_append (a := host) (hcolon hp)
      rw [hx, Plain.rsplitOnce_append (hcolon isPort_default), Option.some.injEq,
        Prod.mk.injEq] at hsplit
      rw [hsplit.1]
      have hform := wellFormed_of_parts hhost (.inl rfl)
      rwa [List.append_nil] at hform
  · rintro ⟨x, rfl⟩
    have hnone : x.port = none := by
      cases hport : x.port with
      | none => rfl
      | some p => exact absurd (by simp [RelayEntry.chars, hport]) h
    rw [RelayEntry.chars, hnone, Option.elim_none, List.append_nil]
    exact wellFormed_of_parts x.hostOk (.inr ⟨_, isPort_default, rfl⟩)

end Shape

section Kept

variable {U : Unicode}

/-- **The name of a relay shows whether its entry is as it should be.** -/
theorem wellFormed_normalize (hU : U.KeepsShape) {e : String}
    (h : relayEntryProblem U e = none) : WellFormed (normalize U e) ↔ WellFormed e := by
  have hlower : WellFormed (U.toLowercase e) ↔ WellFormed e :=
    ⟨fun hform => hform.shape (hU e).symm, fun hform => hform.shape (hU e)⟩
  rw [← hlower, normalize, trim_of_problem_none h]
  split
  · exact Iff.rfl
  · next hcolon =>
    have hcolon : ':' ∉ (U.toLowercase e).toList := by
      simpa [Text.contains] using hcolon
    rw [WellFormed, String.append_assoc, String.toList_append, String.toList_append]
    exact wellFormed_default_iff hcolon

/-! ### The loop -/

theorem parseEntries_append (raws raws' kept : List String) (dropped : List (String × String)) :
    parseEntries U (raws ++ raws') kept dropped =
      parseEntries U raws' (parseEntries U raws kept dropped).1
        (parseEntries U raws kept dropped).2 := by
  induction raws generalizing kept dropped with
  | nil => rfl
  | cons raw raws ih =>
    rw [List.cons_append, parseEntries, parseEntries]
    split
    · exact ih kept dropped
    · split
      · split
        · exact ih _ _
        · exact ih _ _
      · exact ih _ _

/-- What was kept stays at the front. -/
theorem prefix_parseEntries (raws kept : List String) (dropped : List (String × String)) :
    kept <+: (parseEntries U raws kept dropped).1 := by
  obtain ⟨verdicts, -, hparse, -⟩ := parseEntries_verdicts (U := U) raws kept dropped
  rw [hparse]
  exact List.prefix_append _ _

/-- An entry with no problem is kept, unless one that names the same relay was. -/
theorem parseEntries_keeps {raw : String} {raws kept : List String}
    {dropped : List (String × String)} (hproblem : relayEntryProblem U (Text.trim raw) = none)
    (hne : Text.trim raw ≠ "") (hnew : ∀ k ∈ kept, normalize U k ≠ normalize U (Text.trim raw)) :
    kept ++ [Text.trim raw] <+: (parseEntries U (raw :: raws) kept dropped).1 := by
  have hany : ¬(kept.any fun k => normalize U k == normalize U (Text.trim raw)) = true := by
    intro hany
    obtain ⟨k, hk, hname⟩ := List.any_eq_true.mp hany
    exact hnew k hk (beq_iff_eq.mp hname)
  rw [parseEntries, if_neg hne, hproblem]
  dsimp only
  rw [if_neg hany]
  exact prefix_parseEntries _ _ _

theorem WellFormed.ne_empty {e : String} (h : WellFormed e) : e ≠ "" := by
  rintro rfl
  obtain ⟨h', after, heq, hne, -⟩ := (wellFormed_name_iff (by simp)).mp h
  exact hne (List.append_eq_nil_iff.mp heq.symm).1

/-- Where a list has an element with a property, one is the first. -/
theorem exists_first {α : Type} {p : α → Prop} {l : List α} (h : ∃ x ∈ l, p x) :
    ∃ before x behind, l = before ++ x :: behind ∧ p x ∧ ∀ y ∈ before, ¬p y := by
  induction l with
  | nil =>
    obtain ⟨x, hx, -⟩ := h
    cases hx
  | cons a l ih =>
    by_cases ha : p a
    · exact ⟨[], a, l, rfl, ha, nofun⟩
    · obtain ⟨x, hx, hp⟩ := h
      have hx : x ∈ l := (List.mem_cons.mp hx).resolve_left fun heq => ha (heq ▸ hp)
      obtain ⟨before, y, behind, rfl, hy, hbefore⟩ := ih ⟨x, hx, hp⟩
      exact ⟨a :: before, y, behind, rfl, hy, List.forall_mem_cons.mpr ⟨ha, hbefore⟩⟩

end Kept

/-! ### The grammar of a list -/

/-- What is kept of a list is what should be: every entry that is kept is as it should be,
and an entry that is so is kept, behind those kept before it, unless one of these names the
same relay. -/
def GrammarHolds (U : Unicode) (list : String) : Prop :=
  (∀ e ∈ (parseRelayList U list).1, WellFormed e) ∧
  ∀ raws raw rest, Text.split ',' list = raws ++ raw :: rest → WellFormed (Text.trim raw) →
    (∀ k ∈ (parseEntries U raws [] []).1, normalize U k ≠ normalize U (Text.trim raw)) →
    (parseEntries U raws [] []).1 ++ [Text.trim raw] <+: (parseRelayList U list).1

/-- The entry gets through and should not. -/
def SlipsThrough (U : Unicode) (e : String) : Prop :=
  relayEntryProblem U e = none ∧ Slip e.toList

theorem SlipsThrough.ne_empty {U : Unicode} {e : String} (h : SlipsThrough U e) : e ≠ "" := by
  rintro rfl
  have hslip := h.2
  generalize hl : ("" : String).toList = l at hslip
  cases hslip with
  | unclosed _ => cases hl
  | nothing => cases hl
  | nested _ _ => cases hl
  | trailing _ _ => cases hl
  | signedV6 _ => cases hl
  | stray _ hbracket =>
    rw [← hl] at hbracket
    exact hbracket.elim List.not_mem_nil List.not_mem_nil
  | signed _ _ => exact absurd hl.symm (by simp)

/-- What is kept of entries that are no slips is as it should be. -/
theorem kept_wellFormed {U : Unicode} {raws : List String}
    (h : ∀ raw ∈ raws, ¬SlipsThrough U (Text.trim raw)) {k : String}
    (hk : k ∈ (parseEntries U raws [] []).1) : WellFormed k := by
  rcases parseEntries_kept hk with hk | ⟨hproblem, hne, raw, hraw, rfl⟩
  · cases hk
  · exact (wellFormed_or_slip hproblem hne).resolve_right fun hslip => h raw hraw ⟨hproblem, hslip⟩

/-- **The grammar of a relay list.**  What is kept of a list is what should be exactly if no
entry of it slips through. -/
theorem relay_list_grammar_iff (U : Unicode) (hU : U.KeepsShape) (list : String) :
    GrammarHolds U list ↔ ∀ e ∈ listEntries list, ¬SlipsThrough U e := by
  have hentries : (∀ e ∈ listEntries list, ¬SlipsThrough U e) ↔
      ∀ raw ∈ Text.split ',' list, ¬SlipsThrough U (Text.trim raw) := by
    constructor
    · intro h raw hraw hslip
      have hne : Text.trim raw ≠ "" := hslip.ne_empty
      exact h _ (List.mem_filter.mpr ⟨List.mem_map_of_mem hraw, by simpa using hne⟩) hslip
    · intro h e he
      obtain ⟨raw, hraw, rfl⟩ := List.mem_map.mp (List.mem_filter.mp he).1
      exact h raw hraw
  rw [hentries]
  constructor
  · rintro ⟨hkept, -⟩
    by_contra hsome
    push Not at hsome
    obtain ⟨raws, raw, rest, hsplit, hthrough, hfirst⟩ := exists_first hsome
    obtain ⟨hproblem, hslip⟩ := id hthrough
    -- the first slip names no relay that is kept before it
    have hnew : ∀ k ∈ (parseEntries U raws [] []).1,
        normalize U k ≠ normalize U (Text.trim raw) := by
      intro k hk hname
      have hform := kept_wellFormed hfirst hk
      have hproblem' : relayEntryProblem U k = none := problem_wellFormed hform
      rw [← wellFormed_normalize hU hproblem', hname, wellFormed_normalize hU hproblem] at hform
      exact hslip.not_wellFormed hform
    have hfront := @parseEntries_keeps U raw rest (parseEntries U raws [] []).1
      (parseEntries U raws [] []).2 hproblem hthrough.ne_empty hnew
    rw [← parseEntries_append, ← hsplit] at hfront
    exact hslip.not_wellFormed (hkept _ (hfront.subset (by simp)))
  · intro hnone
    refine ⟨fun e he => kept_wellFormed hnone he, fun raws raw rest hsplit hform hnew => ?_⟩
    rw [parseRelayList, hsplit, parseEntries_append]
    exact parseEntries_keeps (problem_wellFormed hform) hform.ne_empty hnew

/-- A name, and an address in brackets with a port. -/
theorem relay_list_grammar_plain : GrammarHolds .ascii "a,[::1]:99" := by
  refine (relay_list_grammar_iff .ascii Unicode.ascii_keepsShape _).mpr ?_
  have hentries : listEntries "a,[::1]:99" = ["a", "[::1]:99"] := by decide +kernel
  have hname : IsHost ['a'] := .name (by simp) (by simp [HostChar, BracketChar, Text.isWhitespace])
  have haddr : ∀ c ∈ [':', ':', '1'], BracketChar c := by
    simp [BracketChar, Text.isWhitespace]
  have hport : IsPort ['9', '9'] := ⟨by simp, by simp, by decide, by decide⟩
  rw [hentries]
  intro e he hslip
  refine hslip.2.not_wellFormed ?_
  rcases List.mem_cons.mp he with rfl | he
  · exact wellFormed_of_parts hname (.inl rfl)
  · rw [List.mem_singleton.mp he]
    exact wellFormed_of_parts (.v6 (by simp) haddr) (.inr ⟨_, hport, rfl⟩)

/-- The closing bracket was forgotten, and the entry is kept. -/
theorem unclosed_bracket_kept : ¬∀ list, GrammarHolds .ascii list := by
  intro hall
  have hkept := (hall "[::1").1 "[::1" (by decide +kernel)
  have hslip : Slip "[::1".toList := @Slip.unclosed "::1".toList (by decide)
  exact hslip.not_wellFormed hkept

end RustdeskServer
