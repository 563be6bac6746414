import RustdeskServer.Plain.Numbered
import RustdeskServer.RouteFile

/-!
# Reading where the relays are

`Locations::parse`: a line for each relay with its latitude and longitude.  As in a routing
table one line that is not as it should be refuses the whole file, and the error has the number
of that line, which for both files is the first that cannot stand after the lines before it.

How a coordinate is read and shown is left to `f64`.

## Main definitions

* `F64` — what is used of `f64`.
* `placeOf`, `Locations.parse` — a line, and the parser.
* `placeSaid` — what a line says on its own.
* `FirstRefused`, `RefusedFor` — the first item that is refused, and why a file is.

## Main results

* `locations_read` — **which files are accepted, and what is in the table**, in whatever order
  the lines are.
* `first_bad_line` — **the error of either file names the first line that is at fault.**
-/

namespace RustdeskServer

/-- What is used of `f64`. -/
structure F64 where
  /-- Its values. -/
  Val : Type
  /-- `str::parse`. -/
  parse : List Char → Option Val
  /-- The number a value stands for, if it is finite. -/
  finite? : Val → Option ℚ
  /-- `Display`. -/
  display : Val → String

namespace Locations

section Parser

variable (U : Unicode) (F : F64)

/-- `(-bound..=bound).contains(&v)`, and the number `v` stands for then. -/
def within (bound : ℚ) (v : F.Val) : Option ℚ :=
  (F.finite? v).filter fun q => -bound ≤ q ∧ q ≤ bound

/-- `line.split_once(char::is_whitespace)`. -/
def splitOnceWhite (line : List Char) : Option (List Char × List Char) :=
  match line.dropWhile fun c => !Text.isWhitespace c with
  | [] => none
  | _ :: rest => some (line.takeWhile fun c => !Text.isWhitespace c, rest)

/-- The coordinates of the relay on the line `n`. -/
def pointOf (n : ℕ) (lat lon : List Char) : Except String Geo.Point :=
  match F.parse lat with
  | none => .error (lineError n (U.debug (String.ofList lat) ++ " is not a latitude"))
  | some latVal =>
    match F.parse lon with
    | none => .error (lineError n (U.debug (String.ofList lon) ++ " is not a longitude"))
    | some lonVal =>
      match within F 90 latVal with
      | none =>
        .error (lineError n ("latitude " ++ F.display latVal ++ " is outside -90 to 90"))
      | some lat =>
        match within F 180 lonVal with
        | none =>
          .error (lineError n ("longitude " ++ F.display lonVal ++ " is outside -180 to 180"))
        | some lon => .ok ⟨lat, lon⟩

/-- The relay on the line `n`, as it is written, and where it is; nothing on a blank line. -/
def placeOf (n : ℕ) (raw : List Char) : Except String (Option (String × Geo.Point)) :=
  let line := Text.trimChars (raw.takeWhile (· ≠ '#'))
  if line = [] then .ok none
  else
    match splitOnceWhite line with
    | none => .error (lineError n "expected `host:port  latitude,longitude`")
    | some (relay, rest) =>
      match Plain.words (fun c => c = ',' || Text.isWhitespace c) rest with
      | [lat, lon] => (pointOf U F n lat lon).map fun p => some (String.ofList relay, p)
      | _ =>
        .error (lineError n (String.ofList relay ++
          " needs exactly a latitude and a longitude, got " ++ U.debug (String.ofList rest)))

/-- The line `n`, over the relays so far. -/
def parseLine (n : ℕ) (relays : HashMap String Geo.Point) (raw : List Char) :
    Except String (HashMap String Geo.Point) :=
  match placeOf U F n raw with
  | .error e => .error e
  | .ok none => .ok relays
  | .ok (some (relay, p)) =>
    if (relays.lookup (normalize U relay)).isSome then
      .error (lineError n ("relay " ++ relay ++ " is listed twice"))
    else .ok (relays.insert (normalize U relay) p)

/-- `Locations::parse`. -/
def parse (text : List Char) : Except String (HashMap String Geo.Point) :=
  match Plain.numbered (parseLine U F) 1 (Plain.lines text) ∅ with
  | .error e => .error e
  | .ok relays => if relays.keys = [] then .error "no relay locations found" else .ok relays

/-! ### A line on its own -/

/-- What a line says on its own: `none` if it is refused, `some none` if there is nothing on
it. -/
def placeSaid (raw : List Char) : Option (Option (String × Geo.Point)) :=
  (placeOf U F 0 raw).toOption.map (Option.map fun x => (normalize U x.1, x.2))

variable {U F}

/-- The number of a line is only for the error. -/
theorem placeOf_toOption (n m : ℕ) (raw : List Char) :
    (placeOf U F n raw).toOption = (placeOf U F m raw).toOption := by
  have hpoint : ∀ lat lon, (pointOf U F n lat lon).toOption = (pointOf U F m lat lon).toOption := by
    intro lat lon
    simp only [pointOf]
    split
    · rfl
    · split
      · rfl
      · split
        · rfl
        · split <;> rfl
  simp only [placeOf]
  split
  · rfl
  · split
    · rfl
    · split
      · next lat lon _ =>
        have h := hpoint lat lon
        generalize pointOf U F n lat lon = x at h ⊢
        generalize pointOf U F m lat lon = y at h ⊢
        cases x <;> cases y <;> cases h <;> rfl
      · rfl

theorem parseLine_eq_ok_iff (n : ℕ) (relays : HashMap String Geo.Point) (raw : List Char)
    (relays' : HashMap String Geo.Point) :
    parseLine U F n relays raw = .ok relays' ↔
      (placeSaid U F raw).bind (Plain.addEntry relays) = some relays' := by
  have hplace := placeOf_toOption (U := U) (F := F) n 0 raw
  simp only [parseLine, placeSaid, ← hplace]
  cases placeOf U F n raw with
  | error e => simp [Except.toOption]
  | ok x =>
    cases x with
    | none => simp [Except.toOption, Plain.addEntry]
    | some x =>
      simp only [Except.toOption, Option.map_some, Option.bind_some, Plain.addEntry]
      split <;> simp

/-- A relay that is placed is on the globe. -/
theorem placeSaid_within {raw : List Char} {k : String} {p : Geo.Point}
    (h : placeSaid U F raw = some (some (k, p))) :
    (∃ relay, k = normalize U relay) ∧ (-90 ≤ p.lat ∧ p.lat ≤ 90) ∧
      -180 ≤ p.lon ∧ p.lon ≤ 180 := by
  obtain ⟨x, hx, heq⟩ := Option.map_eq_some_iff.mp h
  obtain ⟨⟨relay, q⟩, rfl, hkp⟩ := Option.map_eq_some_iff.mp heq
  cases hkp
  refine ⟨⟨relay, rfl⟩, ?_⟩
  cases hplace : placeOf U F 0 raw with
  | error e =>
    rw [hplace] at hx
    cases hx
  | ok y =>
    rw [hplace] at hx
    cases hx
    simp only [placeOf] at hplace
    split at hplace
    · cases hplace
    · split at hplace
      · cases hplace
      · split at hplace
        · next lat lon _ =>
          simp only [pointOf] at hplace
          -- the coordinates have passed both checks
          split at hplace
          · cases hplace
          · split at hplace
            · cases hplace
            · split at hplace
              · cases hplace
              · next hlat =>
                split at hplace
                · cases hplace
                · next hlon =>
                  cases hplace
                  have hlat := (Option.filter_eq_some_iff.mp hlat).2
                  have hlon := (Option.filter_eq_some_iff.mp hlon).2
                  exact ⟨of_decide_eq_true hlat, of_decide_eq_true hlon⟩
        · cases hplace

/-! ### Whole files -/

variable (U F) in
/-- The places that the lines of a file say. -/
def placesSaid (text : List Char) : List (String × Geo.Point) :=
  Plain.said (placeSaid U F) (Plain.lines text)

variable (U F) in
/-- Every line is right on its own, no relay is placed twice, and one is placed. -/
structure Acceptable (text : List Char) : Prop where
  /-- The lines. -/
  lines : ∀ raw ∈ Plain.lines text, placeSaid U F raw ≠ none
  /-- The relays, by their normalized names. -/
  once : ((placesSaid U F text).map Prod.fst).Nodup
  /-- There is a relay. -/
  nonempty : placesSaid U F text ≠ []

theorem parse_eq_ok_iff {text : List Char} {m : HashMap String Geo.Point} :
    parse U F text = .ok m ↔
      Acceptable U F text ∧ m = Plain.fill ∅ (placesSaid U F text) := by
  have hfill : ∀ m, Plain.numbered (parseLine U F) 1 (Plain.lines text) ∅ = .ok m ↔ _ :=
    fun m => Plain.numbered_eq_ok_iff parseLine_eq_ok_iff
  have hkeys : (Plain.fill (∅ : HashMap String Geo.Point) (placesSaid U F text)).keys = [] ↔
      placesSaid U F text = [] := by
    rw [Plain.keys_fill_eq_nil_iff]
    simp
  rw [parse]
  cases hread : Plain.numbered (parseLine U F) 1 (Plain.lines text) ∅ with
  | error e =>
    refine ⟨nofun, ?_⟩
    rintro ⟨hok, -⟩
    have h := (hfill _).mpr ⟨hok.lines, hok.once, fun x _ => AList.lookup_empty _, rfl⟩
    rw [hread] at h
    cases h
  | ok m' =>
    obtain ⟨hlines, honce, -, rfl⟩ := (hfill m').mp hread
    change (if (Plain.fill ∅ (placesSaid U F text)).keys = [] then _ else _) = _ ↔ _
    by_cases hnil : placesSaid U F text = []
    · rw [if_pos (hkeys.mpr hnil)]
      exact ⟨nofun, fun h => absurd hnil h.1.nonempty⟩
    · rw [if_neg fun h => hnil (hkeys.mp h), Except.ok.injEq, eq_comm]
      exact ⟨fun h => ⟨⟨hlines, honce, hnil⟩, h⟩, fun h => h.2⟩

/-- The order of the lines is of no account. -/
theorem Acceptable.perm {text text' : List Char} (h : Acceptable U F text)
    (hperm : (Plain.lines text').Perm (Plain.lines text)) : Acceptable U F text' := by
  have hsaid : (placesSaid U F text').Perm (placesSaid U F text) := hperm.filterMap _
  refine ⟨fun raw hraw => h.lines raw (hperm.mem_iff.mp hraw), ?_, fun hnil => ?_⟩
  · exact (hsaid.map Prod.fst).nodup_iff.mpr h.once
  · rw [hnil] at hsaid
    exact h.nonempty hsaid.symm.eq_nil

/-- What a file that was read says of a relay. -/
theorem lookup_iff {text : List Char} {m : HashMap String Geo.Point} (h : parse U F text = .ok m)
    {k : String} {p : Geo.Point} :
    m.lookup k = some p ↔ ∃ raw ∈ Plain.lines text, placeSaid U F raw = some (some (k, p)) := by
  obtain ⟨hok, rfl⟩ := parse_eq_ok_iff.mp h
  rw [Plain.lookup_fill_empty hok.once]
  simp only [placesSaid, Plain.said, List.mem_filterMap, Option.join_eq_some_iff]

variable (U F) in
/-- **What a file of relay locations is read as.**  A file is accepted if every line is right on
its own, no relay is placed twice, under whatever names for it, and one is placed.  Then a relay
has a position exactly if a line says so, and that one; every position is on the globe; and with
the lines in another order the file is accepted as well and says the same of every relay. -/
theorem locations_read (text : List Char) :
    ((∃ m, parse U F text = .ok m) ↔ Acceptable U F text) ∧
      ∀ m, parse U F text = .ok m →
        (∀ k p, m.lookup k = some p ↔
          ∃ raw ∈ Plain.lines text, placeSaid U F raw = some (some (k, p))) ∧
        (∀ k p, m.lookup k = some p → (∃ relay, k = normalize U relay) ∧
          (-90 ≤ p.lat ∧ p.lat ≤ 90) ∧ -180 ≤ p.lon ∧ p.lon ≤ 180) ∧
        ∀ text', (Plain.lines text').Perm (Plain.lines text) →
          ∃ m', parse U F text' = .ok m' ∧ ∀ k, m'.lookup k = m.lookup k := by
  refine ⟨⟨?_, fun hok => ⟨_, parse_eq_ok_iff.mpr ⟨hok, rfl⟩⟩⟩, fun m hm => ⟨?_, ?_, ?_⟩⟩
  · rintro ⟨m, hm⟩
    exact (parse_eq_ok_iff.mp hm).1
  · intro k p
    exact lookup_iff hm
  · intro k p hk
    obtain ⟨raw, -, hraw⟩ := (lookup_iff hm).mp hk
    exact placeSaid_within hraw
  · intro text' hperm
    have hm' := parse_eq_ok_iff.mpr ⟨(parse_eq_ok_iff.mp hm).1.perm hperm, rfl⟩
    refine ⟨_, hm', fun k => Option.ext fun p => ?_⟩
    rw [lookup_iff hm', lookup_iff hm]
    simp only [hperm.mem_iff]

end Parser
end Locations

/-! ### Errors -/

section Errors

variable {α ε σ : Type}

/-- The item number `n` is the first that is refused, over what the items before it made, and
with the error `e`. -/
def FirstRefused (step : ℕ → σ → α → Except ε σ) (l : List α) (s : σ) (n : ℕ) (e : ε) : Prop :=
  ∃ before x after t, l = before ++ x :: after ∧ n = before.length + 1 ∧
    Plain.numbered step 1 before s = .ok t ∧ step n t x = .error e

/-- Why a file with the lines `l` is refused: there is nothing on any of them, or `e` has the
number of the first that is refused. -/
def RefusedFor (step : ℕ → σ → α → Except String σ) (own : α → Option (Option ε)) (l : List α)
    (s : σ) (nothing e : String) : Prop :=
  (e = nothing ∧ ∀ x ∈ l, own x = some none) ∨
    ∃ n why, e = lineError n why ∧ FirstRefused step l s n e

theorem refusedFor_of_error {step : ℕ → σ → α → Except String σ} {own : α → Option (Option ε)}
    {l : List α} {s : σ} {nothing e : String}
    (hstep : ∀ n s x e, step n s x = .error e → ∃ why, e = lineError n why)
    (h : Plain.numbered step 1 l s = .error e) : RefusedFor step own l s nothing e := by
  obtain ⟨before, x, after, t, hl, hbefore, hx⟩ := Plain.numbered_eq_error_iff.mp h
  rw [Nat.add_comm] at hx
  obtain ⟨why, hwhy⟩ := hstep _ _ _ _ hx
  exact Or.inr ⟨before.length + 1, why, hwhy, before, x, after, t, hl, rfl, hbefore, hx⟩

/-- Items that are right and say nothing. -/
theorem blank_of_said {own : α → Option (Option ε)} {l : List α} (hall : ∀ x ∈ l, own x ≠ none)
    (hnil : l.filterMap (fun x => (own x).join) = []) : ∀ x ∈ l, own x = some none := by
  intro x hx
  have hjoin := List.filterMap_eq_nil_iff.mp hnil x hx
  cases hown : own x with
  | none => exact absurd hown (hall x hx)
  | some y =>
    rw [hown] at hjoin
    exact congrArg some hjoin

variable {U : Unicode} {parseNetwork : String → Option IpNetwork} {n : ℕ}

theorem parseLines_eq_numbered (raws : List (List Char)) (rules : List Rule) :
    parseLines U parseNetwork n raws rules =
      Plain.numbered (parseLine U parseNetwork) n raws rules := by
  induction raws generalizing n rules with
  | nil => rfl
  | cons raw raws ih =>
    rw [parseLines, Plain.numbered]
    cases parseLine U parseNetwork n rules raw with
    | error e => rfl
    | ok rules => exact ih rules

/-- Every error in the costs of a line is an error in that line. -/
theorem parseCosts_error {entries : List (List Char)} {costs : HashMap String ℚ} {e : String}
    (h : parseCosts U n entries costs = .error e) : ∃ why, e = lineError n why := by
  induction entries generalizing costs with
  | nil => cases h
  | cons entry entries ih =>
    simp only [parseCosts] at h
    split at h
    · exact ⟨_, (Except.error.inj h).symm⟩
    · split at h
      · exact ⟨_, (Except.error.inj h).symm⟩
      · exact ⟨_, (Except.error.inj h).symm⟩
      · split at h
        · exact ⟨_, (Except.error.inj h).symm⟩
        · split at h
          · exact ⟨_, (Except.error.inj h).symm⟩
          · split at h
            · exact ⟨_, (Except.error.inj h).symm⟩
            · exact ih h

theorem parseLine_error {rules : List Rule} {raw : List Char} {e : String}
    (h : parseLine U parseNetwork n rules raw = .error e) : ∃ why, e = lineError n why := by
  simp only [parseLine] at h
  split at h
  · cases h
  · generalize Plain.words Text.isWhitespace _ = ws at h
    cases ws with
    | nil => cases h
    | cons netText tokens =>
      simp only [parseWords] at h
      split at h
      · exact ⟨_, (Except.error.inj h).symm⟩
      · split at h
        · exact ⟨_, (Except.error.inj h).symm⟩
        · split at h
          · next he =>
            cases h
            exact parseCosts_error he
          · split at h
            · exact ⟨_, (Except.error.inj h).symm⟩
            · cases h

namespace Locations

variable {F : F64}

theorem placeOf_error {raw : List Char} {e : String} (h : placeOf U F n raw = .error e) :
    ∃ why, e = lineError n why := by
  simp only [placeOf] at h
  split at h
  · cases h
  · split at h
    · exact ⟨_, (Except.error.inj h).symm⟩
    · split at h
      · next lat lon _ =>
        cases hp : pointOf U F n lat lon with
        | ok p =>
          rw [hp] at h
          cases h
        | error e' =>
          rw [hp] at h
          cases h
          simp only [pointOf] at hp
          split at hp
          · exact ⟨_, (Except.error.inj hp).symm⟩
          · split at hp
            · exact ⟨_, (Except.error.inj hp).symm⟩
            · split at hp
              · exact ⟨_, (Except.error.inj hp).symm⟩
              · split at hp
                · exact ⟨_, (Except.error.inj hp).symm⟩
                · cases hp
      · exact ⟨_, (Except.error.inj h).symm⟩

theorem parseLine_error {relays : HashMap String Geo.Point} {raw : List Char} {e : String}
    (h : parseLine U F n relays raw = .error e) : ∃ why, e = lineError n why := by
  simp only [parseLine] at h
  split at h
  · next he =>
    cases h
    exact placeOf_error he
  · cases h
  · split at h
    · exact ⟨_, (Except.error.inj h).symm⟩
    · cases h

end Locations

/-- Why a routing table is refused. -/
theorem RouteTable.refused {text : List Char} {e : String}
    (h : RouteTable.parse U parseNetwork text = .error e) :
    RefusedFor (parseLine U parseNetwork) (lineRule U parseNetwork) (Plain.lines text) []
      "no routes found" e := by
  rw [RouteTable.parse] at h
  split at h
  · next e' hlines =>
    cases h
    rw [parseLines_eq_numbered] at hlines
    exact refusedFor_of_error (fun _ _ _ _ => parseLine_error) hlines
  · next hlines =>
    cases h
    obtain ⟨hall, -, hnil⟩ := (parseLines_ok_iff List.Pairwise.nil).mp hlines
    rw [List.nil_append] at hnil
    exact Or.inl ⟨rfl, blank_of_said hall hnil.symm⟩
  · cases h

/-- Why a file of relay locations is refused. -/
theorem Locations.refused {F : F64} {text : List Char} {e : String}
    (h : Locations.parse U F text = .error e) :
    RefusedFor (Locations.parseLine U F) (Locations.placeSaid U F) (Plain.lines text) ∅
      "no relay locations found" e := by
  rw [Locations.parse] at h
  split at h
  · next e' hlines =>
    cases h
    exact refusedFor_of_error (fun _ _ _ _ => Locations.parseLine_error) hlines
  · next m hlines =>
    obtain ⟨hall, -, -, rfl⟩ :=
      (Plain.numbered_eq_ok_iff Locations.parseLine_eq_ok_iff).mp hlines
    split at h
    · next hnil =>
      cases h
      exact Or.inl ⟨rfl, blank_of_said hall (Plain.keys_fill_eq_nil_iff.mp hnil).2⟩
    · cases h

variable (U parseNetwork) in
/-- **An error names the first line that is at fault.**  Where a routing table or a file of
relay locations is refused, either its lines are all blank, and the error says that it has
nothing; or the error has the number of a line, all lines before which can be read, and which
cannot be read after them. -/
theorem first_bad_line (F : F64) (text : List Char) :
    (∀ e, RouteTable.parse U parseNetwork text = .error e →
      RefusedFor (parseLine U parseNetwork) (lineRule U parseNetwork) (Plain.lines text) []
        "no routes found" e) ∧
    ∀ e, Locations.parse U F text = .error e →
      RefusedFor (Locations.parseLine U F) (Locations.placeSaid U F) (Plain.lines text) ∅
        "no relay locations found" e :=
  ⟨fun _ h => RouteTable.refused h, fun _ h => Locations.refused h⟩

end Errors
end RustdeskServer
