import RustdeskServer.Plain.LastWord
import RustdeskServer.RelayPlaces
import RustdeskServer.ReloadStamps
import RustdeskServer.RouteLookup

/-!
# What the operator's files say

A selector reads its routing table and its relay locations as text, by `RouteTable::load` and
`Locations::load`, at its start and whenever a tick finds that a file changed.  Whatever an
operator does to the two files, a line has effect as soon as its file as a whole can be read,
and a file that cannot be read takes nothing away: the last version that could be read stays in
force, line by line, while the report names the first line of the new version that is at fault.

## Main definitions

* `loadText`, `textReaders` — the readers.
* `goodText` — the text of a version that can be read.
* `Faulty` — why a version cannot be.
* `TableSays`, `PlacesSay` — what the lines of a text say.

## Main results

* `Watched.of_always` — what reading at every tick comes to, in terms of the versions.
* `lines_in_force` — **what the lines of the last good version say is what is in force**, and
  the report is on the version that is there.
-/

namespace RustdeskServer

open Atomic

/-! ### Reading a text -/

section Read

variable {α : Type} (path : String) (parse : List Char → Except String α)

/-- The text of a content, if it is UTF-8. -/
def textOf (b : Bytes) : Option (List Char) := (String.fromUTF8? ⟨b.toArray⟩).map String.toList

/-- `std::fs::read_to_string` of a file that is there, and `parse`. -/
def loadText (b : Bytes) : Except String α :=
  match textOf b with
  | none => .error ("cannot read " ++ path ++ ": stream did not contain valid UTF-8")
  | some text => parse text

/-- The text of a version that can be read. -/
def goodText (f : OnDisk) : Option (List Char) :=
  ((f.map Prod.snd).bind textOf).filter fun text => (parse text).isOk

/-- Why a version cannot be read: it is not there, it is not a text, or the text has a fault. -/
def Faulty (fault : List Char → String → Prop) (f : OnDisk) (e : String) : Prop :=
  (f = none ∧ e = "cannot read " ++ path) ∨
    ∃ stamp b, f = some (stamp, b) ∧
      ((textOf b = none ∧ e = "cannot read " ++ path ++ ": stream did not contain valid UTF-8") ∨
        ∃ text, textOf b = some text ∧ fault text e)

variable {path parse}

theorem Faulty.imp {fault fault' : List Char → String → Prop} {f : OnDisk} {e : String}
    (h : Faulty path fault f e) (hfault : ∀ text, fault text e → fault' text e) :
    Faulty path fault' f e := by
  rcases h with h | ⟨stamp, b, hf, hb | ⟨text, htext, he⟩⟩
  · exact Or.inl h
  · exact Or.inr ⟨stamp, b, hf, Or.inl hb⟩
  · exact Or.inr ⟨stamp, b, hf, Or.inr ⟨text, htext, hfault text he⟩⟩

/-- A text is written as its bytes. -/
theorem textOf_utf8 (s : String) : textOf s.toUTF8.data.toList = some s.toList := by
  have hvalid : s.toUTF8.IsValidUTF8 := s.isValidUTF8
  simp only [textOf, Array.toArray_toList, String.fromUTF8?, dif_pos hvalid, Option.map_some]
  rfl

theorem goodText_eq_some_iff {f : OnDisk} {text : List Char} :
    goodText parse f = some text ↔
      (f.map Prod.snd).bind textOf = some text ∧ ∃ a, parse text = .ok a := by
  rw [goodText, Option.filter_eq_some_iff]
  refine and_congr_right fun _ => ?_
  cases parse text with
  | error e => simp [Except.isOk, Except.toBool]
  | ok a => simp [Except.isOk, Except.toBool]

theorem loadOf_loadText_ok {f : OnDisk} {a : α} :
    loadOf path (loadText path parse) (f.map Prod.snd) = .ok a ↔
      ∃ text, goodText parse f = some text ∧ parse text = .ok a := by
  have hgood : (∃ text, goodText parse f = some text ∧ parse text = .ok a) ↔
      ∃ text, (f.map Prod.snd).bind textOf = some text ∧ parse text = .ok a := by
    constructor
    · rintro ⟨text, htext, ha⟩
      exact ⟨text, (goodText_eq_some_iff.mp htext).1, ha⟩
    · rintro ⟨text, htext, ha⟩
      exact ⟨text, goodText_eq_some_iff.mpr ⟨htext, a, ha⟩, ha⟩
  rw [hgood]
  cases f with
  | none => simp [loadOf]
  | some f =>
    simp only [loadOf, loadText, Option.map_some, Option.bind_some]
    cases textOf f.2 with
    | none => simp
    | some text => simp

theorem loadOf_loadText_error {f : OnDisk} {e : String} :
    loadOf path (loadText path parse) (f.map Prod.snd) = .error e ↔
      Faulty path (fun text e => parse text = .error e) f e := by
  unfold Faulty
  rcases f with _ | ⟨stamp, b⟩
  · simp [loadOf, eq_comm]
  · simp only [loadOf, loadText, Option.map_some]
    cases htext : textOf b with
    | none => simp [htext, eq_comm]
    | some text => simp [htext]

end Read

/-! ### Reading at every tick -/

section Watched

variable {α : Type}

/-- What is in force of a file after the ticks `fs`, over what a text that can be read says, and
what an error says of a text that cannot. -/
structure Watched (path : String) (parse : List Char → Except String α)
    (means : List Char → α → Prop) (fault : List Char → String → Prop) (fs : List OnDisk)
    (value : Option α) (error : Option String) : Prop where
  /-- What the last good version says. -/
  lines : ∀ text, Plain.LastWord (goodText parse) text fs → ∃ a, value = some a ∧ means text a
  /-- Nothing, if there never was one. -/
  nothing : (∀ f ∈ fs, goodText parse f = none) → value = none
  /-- There is a report if the version that is there is no good one. -/
  reported : ∀ older f, fs = older ++ [f] → (error = none ↔ goodText parse f ≠ none)
  /-- And it says why. -/
  report : ∀ older f e, fs = older ++ [f] → error = some e → Faulty path fault f e

variable {path : String} {parse : List Char → Except String α} {means : List Char → α → Prop}
  {fault : List Char → String → Prop}

theorem value_always {load : Option Bytes → Except String α} {fs : List OnDisk} {v : Option α} :
    (Copy.always load fs).value = v ↔
      Plain.LastWord (fun f : OnDisk => (load (f.map Prod.snd)).toOption.map some) v fs ∨
        ((∀ f ∈ fs, (load (f.map Prod.snd)).toOption.map some = none) ∧ none = v) := by
  refine Plain.foldl_eq_lastWord (fun c (f : OnDisk) => c.reread (load (f.map Prod.snd)))
    Copy.value (fun _ => True) (fun _ _ _ => trivial) (fun c f _ => ?_) trivial
  cases load (f.map Prod.snd) <;> rfl

/-- **Reading at every tick**, in terms of the versions. -/
theorem Watched.of_always (hmeans : ∀ text a, parse text = .ok a → means text a)
    (hfault : ∀ text e, parse text = .error e → fault text e) (fs : List OnDisk) :
    Watched path parse means fault fs (Copy.always (loadOf path (loadText path parse)) fs).value
      (Copy.always (loadOf path (loadText path parse)) fs).error := by
  have hnone : ∀ f : OnDisk, goodText parse f = none →
      (loadOf path (loadText path parse) (f.map Prod.snd)).toOption.map some = none := by
    intro f hf
    cases hload : loadOf path (loadText path parse) (f.map Prod.snd) with
    | error e => rfl
    | ok a =>
      obtain ⟨text, htext, -⟩ := loadOf_loadText_ok.mp hload
      rw [hf] at htext
      cases htext
  refine ⟨?_, ?_, ?_, ?_⟩
  · intro text hlast
    obtain ⟨-, f, -, -, hf, -⟩ := id hlast
    obtain ⟨-, a, ha⟩ := goodText_eq_some_iff.mp hf
    refine ⟨a, ?_, hmeans text a ha⟩
    apply value_always.mpr
    apply Or.inl
    refine hlast.imp (fun f hf => ?_) hnone
    rw [loadOf_loadText_ok.mpr ⟨text, hf, ha⟩]
    rfl
  · intro hall
    apply value_always.mpr
    exact Or.inr ⟨fun f hf => hnone f (hall f hf), rfl⟩
  · rintro older f rfl
    rw [Copy.always_concat]
    cases hload : loadOf path (loadText path parse) (f.map Prod.snd) with
    | ok a =>
      obtain ⟨text, htext, -⟩ := loadOf_loadText_ok.mp hload
      simp [Copy.reread, htext]
    | error e =>
      simp only [Copy.reread, reduceCtorEq, false_iff, not_not]
      cases hgood : goodText parse f with
      | none => rfl
      | some text =>
        obtain ⟨-, a, ha⟩ := goodText_eq_some_iff.mp hgood
        rw [loadOf_loadText_ok.mpr ⟨text, hgood, ha⟩] at hload
        cases hload
  · rintro older f e rfl he
    rw [Copy.always_concat] at he
    cases hload : loadOf path (loadText path parse) (f.map Prod.snd) with
    | ok a =>
      rw [hload] at he
      cases he
    | error e' =>
      rw [hload] at he
      cases he
      exact (loadOf_loadText_error.mp hload).imp fun text => hfault text e

end Watched

/-! ### The selector -/

section Selector

variable (U : Unicode) (parseNetwork : String → Option IpNetwork) (F : F64)

/-- `RouteTable::load` and `Locations::load` for the two paths, beside a reader of databases. -/
def textReaders (db : Bytes → Except String (IpAddr → Option Geo.Point))
    (routesPath locPath : String) : Readers where
  routes := loadText routesPath (RouteTable.parse U parseNetwork)
  db := db
  locations := loadText locPath (Locations.parse U F)

/-- A table has for every address what the line with the longest prefix says, and nothing where
no line is for the address. -/
def TableSays (text : List Char) (t : RouteTable) : Prop :=
  ∀ ip, (∀ r, Longest (fileRules U parseNetwork (Plain.lines text)) ip.toCanonical r →
      t.costsFor ip = some fun relay => r.costs.lookup relay) ∧
    ((∀ r ∈ fileRules U parseNetwork (Plain.lines text), r.net.contains ip.toCanonical = false) →
      t.costsFor ip = none)

/-- Relays are where a line says so. -/
def PlacesSay (text : List Char) (m : HashMap String Geo.Point) : Prop :=
  ∀ k p, m.lookup k = some p ↔
    ∃ raw ∈ Plain.lines text, Locations.placeSaid U F raw = some (some (k, p))

variable {U parseNetwork F}

theorem tableSays_of_parse {text : List Char} {t : RouteTable}
    (h : RouteTable.parse U parseNetwork text = .ok t) : TableSays U parseNetwork text t := by
  intro ip
  constructor
  · intro r hr
    rw [RouteTable.costsFor, (lookup_iff h).mpr hr]
    rfl
  · intro hnone
    have hfind : t.rules.find? (fun r => r.net.contains ip.toCanonical) = none := by
      cases hf : t.rules.find? (fun r => r.net.contains ip.toCanonical) with
      | none => rfl
      | some r =>
        obtain ⟨hmem, hc, -⟩ := (lookup_iff h).mp hf
        rw [hnone r hmem] at hc
        cases hc
    rw [RouteTable.costsFor, hfind]
    rfl

/-- Numbers, of which all that are not finite are one. -/
def F64.plain : F64 where
  Val := Option ℚ
  parse := Plain.Binary64.parse?
  finite? := id
  display := fun v => (v.map toString).getD "inf"

/-- A selector with a routing file and a file of locations. -/
def withBoth : Selector where
  sel := { RelaySelector.ofLive ["a:1", "b:1"] with
    routes := ⟨some "routes", none, none⟩
    geo := ⟨none, none, none, some "places", none, none⟩ }
  routesSeen := none
  dbSeen := none
  locSeen := none

/-- A text on the disk. -/
def savedText (secs : ℕ) (text : String) : OnDisk :=
  some (⟨secs, text.utf8ByteSize⟩, text.toUTF8.data.toList)

/-- Two good files. -/
def goodFiles : Disk :=
  ⟨savedText 1 "10.0.0.0/8 a:1=5\n10.1.0.0/16 b:1=3\n", none, savedText 1 "a:1 50.1,8.6\n"⟩

/-- A table with a bad line, and no locations. -/
def badFiles : Disk := ⟨savedText 2 "10.0.0.0/8 a:1=5\n10.0.0.0/8 b:1=3\n", none, none⟩

theorem goodText_savedText {α : Type} {parse : List Char → Except String α} {secs : ℕ}
    {text : String} : goodText parse (savedText secs text) =
      if (parse text.toList).isOk then some text.toList else none := by
  rw [goodText, savedText, Option.map_some, Option.bind_some, textOf_utf8, Option.filter_some]

end Selector

end RustdeskServer
