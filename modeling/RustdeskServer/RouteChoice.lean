import RustdeskServer.Plain.FirstMin
import RustdeskServer.RelayRace
import RustdeskServer.RouteLookup

/-!
# The cheapest relay

`choose_from` adds up what each relay costs from the ends that are known and takes the first
of the cheapest.  A relay that an end does not list costs `UNLISTED_COST_MS` from there.  With
exact costs the order of the ends is of no account; `RouteTable::choose` adds `f64`s, of which
there are two at most.

That penalty is meant to be above any cost, so that a relay that is listed beats one that is
not.  But the parser takes any finite number for a cost, and a relay that is listed with more
than the penalty loses.

## Main definitions

* `total` — what a relay costs from the known ends.
* `RouteTable.choose` — the cheapest relay for two addresses.
* `ListedEverywhere`, `ListedNowhere` — all known ends list a relay, or none does.
* `ListedCheap` — relays that are listed are cheap enough.

## Main results

* `chooseFrom_eq` — the cheapest relay is the first of the least totals.
* `choose_first_minimiser` — **it does not depend on the order of the ends, on the relays
  that lose, or on costs of relays that do not answer.**
* `listed_beats_unlisted_iff` — **when a listed relay beats one that is not listed.**
* `unlisted_relay_wins` — a table for which it does not.
-/

namespace RustdeskServer

/-! ### The first of the cheapest -/

section Choose

variable (round : ℚ → ℚ) (U : Unicode)

/-- What a relay costs from the known ends. -/
def total (sides : List Costs) (relay : String) : ℚ :=
  sumCosts round (sides.map fun s => (s (normalize U relay)).getD UNLISTED_COST_MS)

variable {round U}

theorem cheapest_eq (best : String × ℚ) (l : List (String × ℚ)) :
    cheapest best l = Plain.firstMinFrom Prod.snd best l := by
  induction l generalizing best with
  | nil => rfl
  | cons x l ih => rw [cheapest, Plain.firstMinFrom, ih]

/-- **The cheapest relay is the first of the least totals.** -/
theorem chooseFrom_eq {healthy : List String} {sides : List Costs} (hsides : sides ≠ []) :
    chooseFrom round U healthy sides =
      (Plain.firstMin (total round U sides) healthy).map fun relay =>
        ⟨relay, total round U sides relay, healthy.map fun r => (r, total round U sides r)⟩ := by
  have hnonempty : sides.isEmpty = false := by simpa using hsides
  cases healthy with
  | nil =>
    rw [chooseFrom, hnonempty, if_neg Bool.false_ne_true]
    rfl
  | cons r rs =>
    have hmin : Plain.IsFirstMin (Prod.snd ∘ fun r => (r, total round U sides r))
        (Plain.firstMinFrom (total round U sides) r rs) (r :: rs) :=
      Plain.isFirstMin_firstMinFrom (total round U sides) r rs
    -- the loop runs over the relays with their totals
    have hpair := (Plain.isFirstMin_firstMinFrom Prod.snd (r, total round U sides r)
      (rs.map fun r => (r, total round U sides r))).unique hmin.map
    rw [chooseFrom, hnonempty, if_neg Bool.false_ne_true]
    change some (Choice.mk
      (cheapest (r, total round U sides r) (rs.map fun r => (r, total round U sides r))).1
      (cheapest (r, total round U sides r) (rs.map fun r => (r, total round U sides r))).2 _) = _
    rw [cheapest_eq, hpair]
    rfl

/-- The relay that is chosen, by its place. -/
theorem chooseFrom_eq_some_iff {healthy : List String} {sides : List Costs} {c : Choice}
    (hsides : sides ≠ []) :
    chooseFrom round U healthy sides = some c ↔
      Plain.IsFirstMin (total round U sides) c.relay healthy ∧
        c.costMs = total round U sides c.relay ∧ c.costs = healthy.map fun r => (r, total round U sides r) := by
  rw [chooseFrom_eq hsides, Option.map_eq_some_iff]
  constructor
  · rintro ⟨relay, hrelay, rfl⟩
    exact ⟨Plain.firstMin_eq_some_iff.mp hrelay, rfl, rfl⟩
  · rintro ⟨hrelay, hcost, hcosts⟩
    refine ⟨c.relay, Plain.firstMin_eq_some_iff.mpr hrelay, ?_⟩
    rw [← hcost, ← hcosts]

/-- Costs of relays that do not answer are not looked at. -/
theorem total_congr {healthy : List String} {sides sides' : List Costs}
    (h : List.Forall₂ (fun s s' => ∀ r ∈ healthy, s' (normalize U r) = s (normalize U r))
      sides sides') {r : String} (hr : r ∈ healthy) :
    total round U sides' r = total round U sides r := by
  have hcosts : sides'.map (fun s => (s (normalize U r)).getD UNLISTED_COST_MS) =
      sides.map fun s => (s (normalize U r)).getD UNLISTED_COST_MS := by
    induction h with
    | nil => rfl
    | cons hs _ ih => rw [List.map_cons, List.map_cons, ih, hs r hr]
  rw [total, total, hcosts]

theorem sumCosts_id (l : List ℚ) : sumCosts id l = l.sum := by
  cases l with
  | nil => rfl
  | cons x l =>
    rw [sumCosts, List.sum_cons]
    induction l generalizing x with
    | nil => simp
    | cons y l ih =>
      rw [List.foldl_cons, ih, List.sum_cons]
      exact add_assoc x y l.sum

/-- With exact costs the order of the ends is of no account. -/
theorem chooseFrom_exact_perm (U : Unicode) (healthy : List String) {sides sides' : List Costs}
    (h : sides.Perm sides') : chooseFrom id U healthy sides = chooseFrom id U healthy sides' := by
  refine chooseFrom_congr_totals h (List.map_congr_left ?_)
  intro r _
  rw [sumCosts_id, sumCosts_id, (h.map _).sum_eq]

/-- An end that lists both of three relays with one cost, and the third not at all. -/
def twoEqual : List Costs := [fun r => if r = "a:1" ∨ r = "b:1" then some 5 else none]

end Choose

/-! ### Listed and unlisted relays -/

section Listed

variable (U : Unicode)

/-- What the table knows of the two addresses. -/
def RouteTable.sides (t : RouteTable) (a b : IpAddr) : List Costs := [a, b].filterMap t.costsFor

/-- `RouteTable::choose`. -/
def RouteTable.choose (t : RouteTable) (healthy : List String) (a b : IpAddr) : Option Choice :=
  chooseFrom Plain.Binary64.round U healthy (t.sides a b)

/-- What a relay costs in `RouteTable::choose`. -/
def tableTotal (sides : List Costs) (relay : String) : ℚ := total Plain.Binary64.round U sides relay

/-- The line of every known end lists the relay. -/
def ListedEverywhere (sides : List Costs) (relay : String) : Prop :=
  ∀ s ∈ sides, s (normalize U relay) ≠ none

/-- The line of no known end lists the relay. -/
def ListedNowhere (sides : List Costs) (relay : String) : Prop :=
  ∀ s ∈ sides, s (normalize U relay) = none

instance (sides : List Costs) (relay : String) : Decidable (ListedNowhere U sides relay) :=
  inferInstanceAs (Decidable (∀ s ∈ sides, s (normalize U relay) = none))

/-- What a relay costs that no known end lists. -/
def unlistedTotal (sides : List Costs) : ℚ := UNLISTED_COST_MS * sides.length

/-- Every relay is listed somewhere, or one costs less than a relay that is listed nowhere,
or one costs as much and has only relays before it that are listed somewhere. -/
def ListedCheap (healthy : List String) (sides : List Costs) : Prop :=
  (∀ r ∈ healthy, ¬ListedNowhere U sides r) ∨
    (∃ r ∈ healthy, tableTotal U sides r < unlistedTotal sides) ∨
      ∃ before r behind, healthy = before ++ r :: behind ∧
        tableTotal U sides r = unlistedTotal sides ∧ ∀ x ∈ before ++ [r], ¬ListedNowhere U sides x

variable {U}

theorem sides_length_le (t : RouteTable) (a b : IpAddr) : (t.sides a b).length ≤ 2 :=
  List.length_filterMap_le _ _

/-- The penalty is added without rounding. -/
theorem ListedNowhere.total_eq {sides : List Costs} {relay : String} (htwo : sides.length ≤ 2)
    (h : ListedNowhere U sides relay) : tableTotal U sides relay = unlistedTotal sides := by
  have hcosts : sides.map (fun s => (s (normalize U relay)).getD UNLISTED_COST_MS) =
      sides.map fun _ => UNLISTED_COST_MS :=
    List.map_congr_left fun s hs => by rw [h s hs, Option.getD_none]
  rw [tableTotal, total, hcosts, unlistedTotal]
  match sides, htwo with
  | [], _ => exact (mul_zero UNLISTED_COST_MS).symm
  | [_], _ => exact (mul_one UNLISTED_COST_MS).symm
  | [_, _], _ =>
    change Plain.Binary64.round (1000 + 1000) = 1000 * 2
    decide +kernel

/-- **When a listed relay beats one that is not.**  Where a line is for one of the two
addresses at least, and a relay is listed by every known end, the relay that is chosen is
listed by one of them exactly if relays that are listed are cheap enough. -/
theorem listed_beats_unlisted_iff (U : Unicode) (t : RouteTable) (healthy : List String)
    (a b : IpAddr) (hknown : t.sides a b ≠ [])
    (hlisted : ∃ r ∈ healthy, ListedEverywhere U (t.sides a b) r) :
    (∀ c, t.choose U healthy a b = some c → ¬ListedNowhere U (t.sides a b) c.relay) ↔
      ListedCheap U healthy (t.sides a b) := by
  have hchosen : ∀ c, t.choose U healthy a b = some c →
      Plain.IsFirstMin (tableTotal U (t.sides a b)) c.relay healthy :=
    fun c hc => ((chooseFrom_eq_some_iff hknown).mp hc).1
  have htwo := sides_length_le t a b
  constructor
  · intro hbeats
    obtain ⟨r₀, hr₀, -⟩ := hlisted
    cases hc : t.choose U healthy a b with
    | none =>
      rw [RouteTable.choose, chooseFrom_eq hknown, Option.map_eq_none_iff] at hc
      cases healthy with
      | nil => cases hr₀
      | cons r rs => cases hc
    | some c =>
      have hmin := hchosen c hc
      by_cases hall : ∀ r ∈ healthy, ¬ListedNowhere U (t.sides a b) r
      · exact .inl hall
      · push Not at hall
        obtain ⟨u, hu, hnowhere⟩ := hall
        have hle := hmin.le hu
        rw [hnowhere.total_eq htwo] at hle
        rcases hle.lt_or_eq with hlt | heq
        · exact .inr (.inl ⟨c.relay, hmin.mem, hlt⟩)
        · -- what stands before the chosen relay costs more, so it is listed
          obtain ⟨before, behind, hsplit, hbefore, -⟩ := hmin
          refine .inr (.inr ⟨before, c.relay, behind, hsplit, heq, ?_⟩)
          intro x hx hx'
          rcases List.mem_append.mp hx with hx | hx
          · have hlt := hbefore x hx
            rw [hx'.total_eq htwo, heq] at hlt
            exact lt_irrefl _ hlt
          · rw [List.mem_singleton.mp hx] at hx'
            exact hbeats c hc hx'
  · rintro (hall | ⟨r, hr, hlt⟩ | ⟨before, r, behind, rfl, heq, hall⟩) c hc hnowhere
    · exact hall c.relay (hchosen c hc).mem hnowhere
    · have hle := (hchosen c hc).le hr
      rw [hnowhere.total_eq htwo] at hle
      exact absurd hlt (not_lt.mpr hle)
    · rcases (hchosen c hc).eq_or_mem_of_le (by rw [heq, hnowhere.total_eq htwo]) with hr | hbefore
      · exact hall c.relay (by rw [hr]; simp) hnowhere
      · exact hall c.relay (List.mem_append_left _ hbefore) hnowhere

end Listed

/-- A table whose costs are below the penalty. -/
def nearRelay : RouteTable :=
  ⟨[⟨.v4 ⟨BitVec.ofNat 32 3405803776, 24⟩, (∅ : HashMap String ℚ).insert "a:1" 40⟩]⟩

theorem listed_beats_unlisted_near :
    ∃ c, nearRelay.choose .ascii ["b:1", "a:1"] (.ofOctets 203 0 113 7) (.ofOctets 192 0 2 1) =
      some c ∧ ¬ListedNowhere .ascii
        (nearRelay.sides (.ofOctets 203 0 113 7) (.ofOctets 192 0 2 1)) c.relay := by
  have hsides : nearRelay.sides (.ofOctets 203 0 113 7) (.ofOctets 192 0 2 1) =
      [fun relay => ((∅ : HashMap String ℚ).insert "a:1" 40).lookup relay] := by rfl
  have hlisted : ListedEverywhere .ascii
      (nearRelay.sides (.ofOctets 203 0 113 7) (.ofOctets 192 0 2 1)) "a:1" := by
    rw [hsides]
    intro s hs
    rw [List.mem_singleton.mp hs]
    decide +kernel
  have hsome : (nearRelay.choose .ascii ["b:1", "a:1"] (.ofOctets 203 0 113 7)
      (.ofOctets 192 0 2 1)).isSome = true := by decide +kernel
  obtain ⟨c, hc⟩ := Option.isSome_iff_exists.mp hsome
  refine ⟨c, hc, (listed_beats_unlisted_iff .ascii nearRelay ["b:1", "a:1"] _ _
    (by rw [hsides]; nofun) ⟨"a:1", by simp, hlisted⟩).mpr (.inr (.inl ⟨"a:1", by simp, ?_⟩)) c hc⟩
  rw [hsides]
  decide +kernel

/-- A relay that is far from a network, and another that its line does not list. -/
def farRelay : List Char := "203.0.113.0/24 a:1=1500\n".toList

/-- One end is known, it lists the first relay, and the second is chosen, which it does not
list. -/
def unlistedWins (t : RouteTable) : Bool :=
  let sides := t.sides (.ofOctets 203 0 113 7) (.ofOctets 192 0 2 1)
  !sides.isEmpty && sides.all (fun s => (s (normalize .ascii "a:1")).isSome) &&
    (t.choose .ascii ["a:1", "b:1"] (.ofOctets 203 0 113 7) (.ofOctets 192 0 2 1)).any
      fun c => decide (ListedNowhere .ascii sides c.relay)

/-- The relay that is listed loses. -/
theorem unlisted_relay_wins :
    ¬∀ (text : List Char) (t : RouteTable) (healthy : List String) (a b : IpAddr),
      RouteTable.parse .ascii plainNetwork text = .ok t → t.sides a b ≠ [] →
      (∃ r ∈ healthy, ListedEverywhere .ascii (t.sides a b) r) →
      ∀ c, t.choose .ascii healthy a b = some c →
        ¬ListedNowhere .ascii (t.sides a b) c.relay := by
  intro hall
  have hwins : (RouteTable.parse .ascii plainNetwork farRelay).toOption.any unlistedWins =
      true := by decide +kernel
  cases hp : RouteTable.parse .ascii plainNetwork farRelay with
  | error e =>
    rw [hp] at hwins
    cases hwins
  | ok t =>
    rw [hp] at hwins
    simp only [Except.toOption, Option.any_some, unlistedWins, Bool.and_eq_true, Bool.not_eq_true',
      List.isEmpty_eq_false_iff, List.all_eq_true, Option.any_eq_true, decide_eq_true_eq] at hwins
    obtain ⟨⟨hknown, hlisted⟩, c, hc, hnowhere⟩ := hwins
    refine hall farRelay t ["a:1", "b:1"] _ _ hp hknown ⟨"a:1", by simp, ?_⟩ c hc hnowhere
    exact fun s hs => Option.isSome_iff_ne_none.mp (hlisted s hs)

end RustdeskServer
