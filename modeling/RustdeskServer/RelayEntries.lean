import RustdeskServer.Plain.Split
import RustdeskServer.RelayList

/-!
# What becomes of a relay list

`parse_relay_list` goes through the entries of a list as written.  Each entry is kept or set
aside, in the order in which they stand; an entry that names a relay that is kept already is
set aside as listed twice.  The list that is kept, written out again, is kept whole.

## Main definitions

* `listEntries` — the entries of a list as written.
* `keptEntries`, `droppedEntries` — the entries kept and set aside, of a list of verdicts.
* `TwiceAfter` — an entry is listed twice only after one that names the same relay.

## Main results

* `parseEntries_verdicts` — the loop gives each entry a verdict.
* `parseEntries_kept` — what is kept has no problem.
* `relay_list_conserved` — **no entry is lost, none is kept twice, and what is kept is kept
  again.**
-/

namespace RustdeskServer

/-- The entries of a list as written: between commas, trimmed, and not empty. -/
def listEntries (list : String) : List String :=
  ((Text.split ',' list).map Text.trim).filter fun e => e ≠ ""

/-- The entries that are kept: those with nothing against them. -/
def keptEntries (verdicts : List (String × Option String)) : List String :=
  verdicts.filterMap fun v => if v.2.isNone then some v.1 else none

/-- The entries that are set aside, with the reason. -/
def droppedEntries (verdicts : List (String × Option String)) : List (String × String) :=
  verdicts.filterMap fun v => v.2.map fun why => (v.1, why)

section Entries

variable {U : Unicode}

/-! ### Entries with no problem -/

/-- An entry with no problem has no white space. -/
theorem noSpace_of_problem_none {e : String} (h : relayEntryProblem U e = none) :
    ∀ c ∈ e.toList, Text.isWhitespace c = false := by
  unfold relayEntryProblem at h
  split at h
  · cases h
  · next hany => simpa using hany

theorem trim_of_problem_none {e : String} (h : relayEntryProblem U e = none) : Text.trim e = e := by
  have htrim : Text.trim e = String.ofList (Text.trimChars e.toList) := rfl
  rw [htrim, Text.trimChars_of_all (noSpace_of_problem_none h), String.ofList_toList]

/-- No problem of an entry is that it is listed twice. -/
theorem problem_ne_twice (e : String) : relayEntryProblem U e ≠ some "listed twice" := by
  have hport : ∀ p : String, some (U.debug p ++ " is not a port number") ≠ some "listed twice" := by
    intro p hp
    -- the last letters differ
    have hlast := congrArg (fun s : String => s.toList.getLast?) (Option.some.inj hp)
    simp [String.toList_append, List.getLast?_append] at hlast
  unfold relayEntryProblem
  split
  · decide
  · split
    · decide
    · split
      · nofun
      · next why hwhy =>
        unfold hostPort at hwhy
        split at hwhy
        · simp at hwhy
        · split at hwhy
          · simp at hwhy
          · simp at hwhy
          · cases hwhy
            decide
      · split
        · decide
        · split
          · nofun
          · split
            · split
              · nofun
              · exact hport _
            · exact hport _

/-! ### The loop -/

variable (U) in
/-- An entry is listed twice only if one was kept before, or is kept before it, that names
the same relay. -/
def TwiceAfter (kept : List String) (verdicts : List (String × Option String)) : Prop :=
  ∀ before e behind, verdicts = before ++ (e, some "listed twice") :: behind →
    ∃ k, (k ∈ kept ∨ (k, none) ∈ before) ∧ normalize U k = normalize U e

theorem TwiceAfter.cons_some {kept : List String} {verdicts : List (String × Option String)}
    {e why : String} (h : TwiceAfter U kept verdicts)
    (he : why = "listed twice" → ∃ k ∈ kept, normalize U k = normalize U e) :
    TwiceAfter U kept ((e, some why) :: verdicts) := by
  intro before e' behind heq
  cases before with
  | nil =>
    cases (List.cons.inj heq).1
    obtain ⟨k, hk, hname⟩ := he rfl
    exact ⟨k, .inl hk, hname⟩
  | cons v before =>
    obtain ⟨k, hk, hname⟩ := h before e' behind (List.cons.inj heq).2
    exact ⟨k, hk.imp_right (List.mem_cons_of_mem v), hname⟩

theorem TwiceAfter.cons_none {kept : List String} {verdicts : List (String × Option String)}
    {e : String} (h : TwiceAfter U (kept ++ [e]) verdicts) :
    TwiceAfter U kept ((e, none) :: verdicts) := by
  intro before e' behind heq
  cases before with
  | nil => cases (List.cons.inj heq).1
  | cons v before =>
    obtain ⟨rfl, htail⟩ := List.cons.inj heq
    obtain ⟨k, hk, hname⟩ := h before e' behind htail
    refine ⟨k, ?_, hname⟩
    rcases hk with hk | hk
    · rcases List.mem_append.mp hk with hk | hk
      · exact .inl hk
      · rw [List.mem_singleton.mp hk]
        exact .inr List.mem_cons_self
    · exact .inr (List.mem_cons_of_mem _ hk)

/-- **Each entry gets a verdict.** -/
theorem parseEntries_verdicts (raws kept : List String) (dropped : List (String × String)) :
    ∃ verdicts, verdicts.map Prod.fst = (raws.map Text.trim).filter (fun e => e ≠ "") ∧
      parseEntries U raws kept dropped =
        (kept ++ keptEntries verdicts, dropped ++ droppedEntries verdicts) ∧
      TwiceAfter U kept verdicts := by
  induction raws generalizing kept dropped with
  | nil =>
    exact ⟨[], rfl, by simp [parseEntries, keptEntries, droppedEntries], by simp [TwiceAfter]⟩
  | cons raw raws ih =>
    rw [parseEntries]
    by_cases hempty : Text.trim raw = ""
    · obtain ⟨verdicts, hfst, hparse, htwice⟩ := ih kept dropped
      refine ⟨verdicts, ?_, ?_, htwice⟩
      · rw [hfst, List.map_cons, List.filter_cons_of_neg (by simpa using hempty)]
      · rw [if_pos hempty, hparse]
    · have hfst : ∀ verdicts : List (String × Option String), ∀ verdict,
          verdicts.map Prod.fst = (raws.map Text.trim).filter (fun e => e ≠ "") →
          ((Text.trim raw, verdict) :: verdicts).map Prod.fst =
            ((raw :: raws).map Text.trim).filter fun e => e ≠ "" := by
        intro verdicts verdict h
        rw [List.map_cons, List.map_cons, List.filter_cons_of_pos (by simpa using hempty), h]
      rw [if_neg hempty]
      cases hproblem : relayEntryProblem U (Text.trim raw) with
      | some why =>
        obtain ⟨verdicts, hv, hparse, htwice⟩ := ih kept (dropped ++ [(Text.trim raw, why)])
        refine ⟨(Text.trim raw, some why) :: verdicts, hfst _ _ hv, ?_, htwice.cons_some ?_⟩
        · simp [hparse, keptEntries, droppedEntries]
        · rintro rfl
          exact absurd hproblem (problem_ne_twice _)
      | none =>
        dsimp only
        by_cases hany : (kept.any fun k => normalize U k == normalize U (Text.trim raw)) = true
        · obtain ⟨verdicts, hv, hparse, htwice⟩ :=
            ih kept (dropped ++ [(Text.trim raw, "listed twice")])
          refine ⟨(Text.trim raw, some "listed twice") :: verdicts, hfst _ _ hv, ?_,
            htwice.cons_some fun _ => ?_⟩
          · rw [if_pos hany, hparse]
            simp [keptEntries, droppedEntries]
          · obtain ⟨k, hk, hname⟩ := List.any_eq_true.mp hany
            exact ⟨k, hk, beq_iff_eq.mp hname⟩
        · obtain ⟨verdicts, hv, hparse, htwice⟩ := ih (kept ++ [Text.trim raw]) dropped
          refine ⟨(Text.trim raw, none) :: verdicts, hfst _ _ hv, ?_, htwice.cons_none⟩
          rw [if_neg hany, hparse]
          simp [keptEntries, droppedEntries]

/-- What is kept was there, or is an entry with no problem. -/
theorem parseEntries_kept {raws kept : List String} {dropped : List (String × String)} {r : String}
    (h : r ∈ (parseEntries U raws kept dropped).1) :
    r ∈ kept ∨ (relayEntryProblem U r = none ∧ r ≠ "" ∧ ∃ raw ∈ raws, r = Text.trim raw) := by
  induction raws generalizing kept dropped with
  | nil => exact .inl h
  | cons raw raws ih =>
    have hlater : ∀ {P Q : Prop}, (P ∧ Q ∧ ∃ raw ∈ raws, r = Text.trim raw) →
        P ∧ Q ∧ ∃ raw' ∈ raw :: raws, r = Text.trim raw' :=
      fun ⟨hp, hq, raw', hraw', heq⟩ => ⟨hp, hq, raw', List.mem_cons_of_mem raw hraw', heq⟩
    rw [parseEntries] at h
    split at h
    · exact (ih h).imp_right hlater
    · next hne =>
      split at h
      · next hproblem =>
        split at h
        · exact (ih h).imp_right hlater
        · rcases ih h with hk | hgood
          · rcases List.mem_append.mp hk with hk | hk
            · exact .inl hk
            · rw [List.mem_singleton.mp hk]
              exact .inr ⟨hproblem, hne, raw, List.mem_cons_self, rfl⟩
          · exact .inr (hlater hgood)
      · exact (ih h).imp_right hlater

/-- The entries that are kept name different relays. -/
theorem parseEntries_pairwise {raws kept : List String} {dropped : List (String × String)}
    (h : kept.Pairwise fun k k' => normalize U k ≠ normalize U k') :
    (parseEntries U raws kept dropped).1.Pairwise fun k k' => normalize U k ≠ normalize U k' := by
  induction raws generalizing kept dropped with
  | nil => exact h
  | cons raw raws ih =>
    rw [parseEntries]
    split
    · exact ih h
    · split
      · split
        · exact ih h
        · next hany =>
          refine ih (List.pairwise_append.mpr ⟨h, List.pairwise_singleton _ _, ?_⟩)
          intro k hk e he hname
          rw [List.mem_singleton.mp he] at hname
          exact hany (List.any_eq_true.mpr ⟨k, hk, beq_iff_eq.mpr hname⟩)
      · exact ih h

/-- Entries with no problem that name different relays are all kept. -/
theorem parseEntries_of_good {raws kept : List String} {dropped : List (String × String)}
    (hgood : ∀ r ∈ raws, relayEntryProblem U r = none ∧ r ≠ "")
    (hne : (kept ++ raws).Pairwise fun k k' => normalize U k ≠ normalize U k') :
    parseEntries U raws kept dropped = (kept ++ raws, dropped) := by
  induction raws generalizing kept with
  | nil => rw [parseEntries, List.append_nil]
  | cons raw raws ih =>
    obtain ⟨⟨hproblem, hnonempty⟩, hrest⟩ := List.forall_mem_cons.mp hgood
    have hany : ¬(kept.any fun k => normalize U k == normalize U raw) = true := by
      intro hany
      obtain ⟨k, hk, hname⟩ := List.any_eq_true.mp hany
      exact (List.pairwise_append.mp hne).2.2 k hk raw List.mem_cons_self (beq_iff_eq.mp hname)
    rw [parseEntries]
    simp only [trim_of_problem_none hproblem, hproblem]
    rw [if_neg hnonempty, if_neg hany, ih hrest (by rwa [List.append_assoc, List.singleton_append]),
      List.append_assoc, List.singleton_append]

/-! ### The list as a whole -/

theorem comma_notMem_split {list raw : String} (h : raw ∈ Text.split ',' list) :
    ',' ∉ raw.toList := by
  obtain ⟨w, hw, rfl⟩ := List.mem_map.mp h
  intro hmem
  rw [String.toList_ofList] at hmem
  have := (Plain.mem_splitOnP hw ',' hmem).1
  simp at this

theorem mem_trimChars {l : List Char} {c : Char} (h : c ∈ Text.trimChars l) : c ∈ l := by
  rw [Text.trimChars, List.mem_reverse] at h
  exact (List.dropWhile_sublist _).subset
    (List.mem_reverse.mp ((List.dropWhile_sublist _).subset h))

/-- An entry of a list that is kept: it has no problem, is not empty and has no comma. -/
theorem mem_parseRelayList {list r : String} (h : r ∈ (parseRelayList U list).1) :
    relayEntryProblem U r = none ∧ r ≠ "" ∧ ',' ∉ r.toList := by
  rcases parseEntries_kept h with h | ⟨hproblem, hne, raw, hraw, rfl⟩
  · cases h
  · refine ⟨hproblem, hne, fun hmem => comma_notMem_split hraw ?_⟩
    have htrim : Text.trim raw = String.ofList (Text.trimChars raw.toList) := rfl
    rw [htrim, String.toList_ofList] at hmem
    exact mem_trimChars hmem

/-- Entries without commas that are joined by commas are read back. -/
theorem split_intercalate {l : List String} (hne : l ≠ []) (h : ∀ r ∈ l, ',' ∉ r.toList) :
    Text.split ',' (",".intercalate l) = l := by
  have hchars : (",".intercalate l).toList = [','].intercalate (l.map String.toList) :=
    String.toList_intercalate
  rw [Text.split, hchars, List.splitOn_intercalate ',' ?_ (by simpa using hne)]
  · rw [List.map_map]
    exact List.map_id'' (fun r => String.ofList_toList) l
  · intro w hw
    obtain ⟨r, hr, rfl⟩ := List.mem_map.mp hw
    exact h r hr

/-- **No entry is lost.**  The entries of a list as written are kept or set aside, one verdict
for each in their order; those kept name different relays; an entry is set aside as listed
twice only if one before it was kept that names the same relay; and the entries kept, joined
by commas, are all kept again. -/
theorem relay_list_conserved (U : Unicode) (list : String) :
    (∃ verdicts, verdicts.map Prod.fst = listEntries list ∧
      (parseRelayList U list).1 = keptEntries verdicts ∧
      (parseRelayList U list).2 = droppedEntries verdicts ∧
      ∀ before e behind, verdicts = before ++ (e, some "listed twice") :: behind →
        ∃ k, (k, none) ∈ before ∧ normalize U k = normalize U e) ∧
    (parseRelayList U list).1.Pairwise (fun k k' => normalize U k ≠ normalize U k') ∧
    parseRelayList U (",".intercalate (parseRelayList U list).1) =
      ((parseRelayList U list).1, []) := by
  have hpairwise : (parseRelayList U list).1.Pairwise fun k k' => normalize U k ≠ normalize U k' :=
    parseEntries_pairwise List.Pairwise.nil
  refine ⟨?_, hpairwise, ?_⟩
  · obtain ⟨verdicts, hfst, hparse, htwice⟩ :=
      parseEntries_verdicts (U := U) (Text.split ',' list) [] []
    refine ⟨verdicts, hfst, congrArg Prod.fst hparse, congrArg Prod.snd hparse, ?_⟩
    intro before e behind heq
    obtain ⟨k, hk, hname⟩ := htwice before e behind heq
    exact ⟨k, hk.resolve_left List.not_mem_nil, hname⟩
  · have hgood : ∀ r ∈ (parseRelayList U list).1, relayEntryProblem U r = none ∧ r ≠ "" :=
      fun r hr => ⟨(mem_parseRelayList hr).1, (mem_parseRelayList hr).2.1⟩
    have hcomma : ∀ r ∈ (parseRelayList U list).1, ',' ∉ r.toList :=
      fun r hr => (mem_parseRelayList hr).2.2
    generalize (parseRelayList U list).1 = kept at hpairwise hgood hcomma ⊢
    by_cases hnil : kept = []
    · rw [hnil]
      rfl
    · rw [← List.nil_append kept] at hpairwise
      rw [parseRelayList, split_intercalate hnil hcomma, parseEntries_of_good hgood hpairwise,
        List.nil_append]

end Entries

end RustdeskServer
