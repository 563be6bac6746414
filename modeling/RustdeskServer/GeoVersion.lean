import RustdeskServer.Atomic.Crash
import RustdeskServer.Atomic.Trace
import RustdeskServer.GeoMonth

/-!
# The version record

The database and the record of its month are two files, written one after the other.
Over whole sequences of calls two things are asked of them: that the recorded month never
goes back, and that it never is later than the month of the file beside it.

An unforced call compares the candidate with the record and so never goes back; a forced
one does not compare, and falls back to the previous month as any call does.  A process
that dies between putting a file in place and emptying the record leaves the old record
beside the new file.  Where there was a file before, the record was read and is older;
where there was none, it was not looked at.

## Main definitions

* `GeoCall`, `GeoFiles.call` — a call that runs to its end, and the files after it.
* `GeoFiles.Downgrades` — a forced call that installs a month older than the recorded one.
* `geoLife` — a process that makes unforced calls and can die anywhere.
* `Faithful` — what is said of the two files at every moment.

## Main results

* `recorded_month_mono` — **the recorded month never goes back in a run in which no forced
  call installs an older month**; and an unforced call that is up to date asks for nothing.
* `version_record_faithful` — **a process that never puts a file beside a later record left
  behind without a database always has a complete database and no later record.**
-/

namespace RustdeskServer
namespace Geo

open Atomic

/-- `installed`, read when nothing fails. -/
def GeoFiles.installed? (s : GeoFiles) : Option String :=
  if s.db.isSome then s.record.join.bind monthOf else none

theorem month?_server (s : GeoFiles) (respond : String → Response) :
    s.month? (.server respond) = s.installed? := rfl

theorem isMonth_of_monthOf {text h : String} (hm : monthOf text = some h) :
    isMonth h.toList = true := by
  unfold monthOf at hm
  split at hm
  · cases hm
    assumption
  · cases hm

theorem isMonth_of_join {record : Option (Option String)} {h : String}
    (hm : record.join.bind monthOf = some h) : isMonth h.toList = true := by
  obtain ⟨text, -, htext⟩ := Option.bind_eq_some_iff.mp hm
  exact isMonth_of_monthOf htext

theorem isMonth_of_installed? {s : GeoFiles} {h : String} (hs : s.installed? = some h) :
    isMonth h.toList = true := by
  unfold GeoFiles.installed? at hs
  split at hs
  · exact isMonth_of_join hs
  · cases hs

theorem monthOf_recordText (month : ℤ × ℕ) :
    monthOf (recordText (label month)) =
      if isMonth (label month).toList then some (label month) else none := by
  rw [monthOf, trim_recordText]

/-! ### What is delivered -/

section Delivered

variable {X : GeoExt} {o : Options} {pid : ℕ} {e : GeoEnv} {have_ : Option String}

theorem settled_eq_none_iff {cand : String} :
    settled o have_ cand = none ↔
      o.force = true ∨ ∀ h, have_ = some h → Text.lt h cand = true := by
  unfold settled
  cases o.force with
  | true => simp
  | false =>
    cases have_ with
    | none => simp
    | some h => simp [Option.filter_eq_none_iff, notOlder]

/-- A month that is delivered is one of those tried, and not superfluous. -/
theorem delivered_some {months : List (ℤ × ℕ)} {m : String} {b : Bytes}
    (h : delivered X o pid e have_ months = some (m, b)) :
    ∃ month ∈ months, m = label month ∧ settled o have_ m = none := by
  induction months with
  | nil => cases h
  | cons month months ih =>
    simp only [delivered] at h
    cases hset : settled o have_ (label month) with
    | some h' =>
      rw [hset] at h
      cases h
    | none =>
      rw [hset] at h
      simp only at h
      split at h
      · cases h
      · obtain ⟨month', hmem, hm⟩ := ih h
        exact ⟨month', List.mem_cons_of_mem _ hmem, hm⟩
      · cases h
        exact ⟨month, List.mem_cons_self, rfl, hset⟩

end Delivered

/-! ### Calls that run to their end -/

/-- A call, and what the server does during it. -/
structure GeoCall where
  /-- Its options. -/
  o : Options
  /-- Its process. -/
  pid : ℕ
  /-- The server. -/
  respond : String → Response

/-- A month of the years 0 to 9999. -/
def GeoCall.InRange (c : GeoCall) : Prop :=
  0 ≤ c.o.now.1 ∧ c.o.now.1 ≤ 9999 ∧ 1 ≤ c.o.now.2 ∧ c.o.now.2 ≤ 12

instance (c : GeoCall) : Decidable c.InRange := inferInstanceAs (Decidable (_ ∧ _ ∧ _ ∧ _))

section Calls

variable (X : GeoExt)

/-- The files after a call in which every file operation succeeds. -/
def GeoFiles.call (s : GeoFiles) (c : GeoCall) : GeoFiles :=
  ((geoMachine X).run (.server c.respond) (update X c.o c.pid) s).1

/-- The month and the file that a call installs. -/
def GeoFiles.installs? (s : GeoFiles) (c : GeoCall) : Option (String × Bytes) :=
  delivered X c.o c.pid (.server c.respond) s.installed? [c.o.now, previous c.o.now]

/-- A forced call that installs a month older than the recorded one. -/
def GeoFiles.Downgrades (s : GeoFiles) (c : GeoCall) : Prop :=
  c.o.force = true ∧ ∃ h ∈ s.installed?, ∃ f ∈ s.installs? X c, Text.lt f.1 h = true

variable {X}

/-- The files after a call, by what it installs. -/
theorem call_eq {s : GeoFiles} (hs : s.temp = none) (c : GeoCall) :
    ∃ requests, s.call X c = match s.installs? X c with
      | none => { s with requests := requests }
      | some (m, b) => { s with
          db := some b, record := some (some (recordText m)), requests := requests
          installs := (m, b) :: s.installs } := by
  obtain ⟨requests, hrun⟩ := @run_update X c.o c.pid (.server c.respond) s hs
  refine ⟨requests, ?_⟩
  rw [month?_server] at hrun
  unfold GeoFiles.call GeoFiles.installs?
  cases hdel : delivered X c.o c.pid (.server c.respond) s.installed? [c.o.now, previous c.o.now] with
  | none =>
    rw [hdel] at hrun
    exact hrun
  | some f =>
    obtain ⟨m, b⟩ := f
    rw [hdel] at hrun
    simp only [hrun, (run_recordMonth m _).1]
    rfl

theorem temp_call {s : GeoFiles} (hs : s.temp = none) (c : GeoCall) :
    (s.call X c).temp = none := by
  obtain ⟨requests, h⟩ := @call_eq X s hs c
  rw [h]
  split <;> exact hs

/-- A tried month: of a year from 0 to 9999, or the last one before. -/
theorem tried_month {c : GeoCall} (hc : c.InRange) {month : ℤ × ℕ}
    (hm : month ∈ [c.o.now, previous c.o.now]) :
    (∃ y m : ℕ, month = ((y : ℤ), m) ∧ y < 10000 ∧ m < 100) ∨
      ∃ y m : ℕ, month = (.negSucc y, m) := by
  obtain ⟨h0, h1, h2, h3⟩ := hc
  have hbound : month.1 ≤ 9999 ∧ month.2 ≤ 12 := by
    simp only [List.mem_cons, List.not_mem_nil, or_false] at hm
    rcases hm with rfl | rfl
    · exact ⟨h1, h3⟩
    · unfold previous
      split
      · exact ⟨by dsimp only; omega, by dsimp only; omega⟩
      · exact ⟨h1, by dsimp only; omega⟩
  obtain ⟨y, m⟩ := month
  cases y with
  | ofNat y =>
    simp only [Int.ofNat_eq_natCast] at hbound
    exact Or.inl ⟨y, m, rfl, by omega, by omega⟩
  | negSucc y => exact Or.inr ⟨y, m, rfl⟩

/-- **One call**: where a month is recorded, one is recorded after it, and not an earlier one. -/
theorem installed?_call {s : GeoFiles} (hs : s.temp = none) {c : GeoCall} (hc : c.InRange)
    (hd : ¬s.Downgrades X c) {h : String} (hh : s.installed? = some h) :
    ∃ h', (s.call X c).installed? = some h' ∧ NotLater (recorded h) (recorded h') := by
  have hmonth := isMonth_of_installed? hh
  obtain ⟨requests, heq⟩ := @call_eq X s hs c
  cases hinst : s.installs? X c with
  | none =>
    rw [hinst] at heq
    rw [heq]
    exact ⟨h, hh, .refl _⟩
  | some f =>
    obtain ⟨m, b⟩ := f
    rw [hinst] at heq
    obtain ⟨month, hmem, rfl, hset⟩ := delivered_some hinst
    -- the record is not later than what is installed
    have hle : Text.lt (label month) h = false := by
      rcases settled_eq_none_iff.mp hset with hforce | hlt
      · by_contra hcon
        exact hd ⟨hforce, h, hh, _, hinst, by simpa using hcon⟩
      · have hlt' := hlt h hh
        by_contra hcon
        rcases tried_month hc hmem with ⟨y, m, rfl, hy, hm⟩ | ⟨y, m, rfl⟩
        · have h₁ := (ltChars_iff_earlier hmonth (isMonth_label hy hm)).mp hlt'
          have h₂ := (ltChars_iff_earlier (isMonth_label hy hm) hmonth).mp (by simpa using hcon)
          exact notLater_iff_not_earlier.mp h₁.notLater h₂
        · rw [(label_neg_lt hmonth y m).2] at hlt'
          cases hlt'
    rcases tried_month hc hmem with ⟨y, m, rfl, hy, hm⟩ | ⟨y, m, rfl⟩
    · have hvalid := isMonth_label hy hm
      refine ⟨label ((y : ℤ), m), ?_, ?_⟩
      · rw [heq]
        simp [GeoFiles.installed?, monthOf_recordText, hvalid]
      · rw [notLater_iff_not_earlier, ← ltChars_iff_earlier hvalid hmonth, hle]
        simp
    · rw [(label_neg_lt hmonth y m).1] at hle
      cases hle

/-- An unforced call that is up to date does nothing at all. -/
theorem call_upToDate {s : GeoFiles} {c : GeoCall} (hc : c.InRange) (hforce : c.o.force = false)
    {h : String} (hh : s.installed? = some h) (hnow : NotLater c.o.now (recorded h)) :
    s.call X c = s := by
  have hset : settled c.o (some h) (label c.o.now) = some h := by
    rcases tried_month hc List.mem_cons_self with ⟨y, m, heq, hy, hm⟩ | ⟨y, m, heq⟩
    · rw [heq] at hnow ⊢
      rw [← recorded_label hy, notLater_iff_not_earlier,
        ← ltChars_iff_earlier (isMonth_of_installed? hh) (isMonth_label hy hm)] at hnow
      simp [settled, hforce, notOlder, hnow]
    · have := hc.1
      rw [heq] at this
      exact absurd this (by simp)
  unfold GeoFiles.call update
  rw [Machine.run_bind, run_installed, month?_server, hh]
  simp only [tryMonths, hset, Machine.run_ret]

/-- Over a run, if no call goes back. -/
theorem installed?_run {l : List GeoCall} {s : GeoFiles} (hs : s.temp = none)
    (hl : ∀ c ∈ l, c.InRange)
    (hd : Always (GeoFiles.call X) (fun s c => ¬s.Downgrades X c) s l) {h h' : String}
    (hh : s.installed? = some h) (hh' : (l.foldl (GeoFiles.call X) s).installed? = some h') :
    NotLater (recorded h) (recorded h') := by
  induction l generalizing s h with
  | nil =>
    rw [List.foldl_nil, hh] at hh'
    cases hh'
    exact .refl _
  | cons c l ih =>
    obtain ⟨h₁, heq, hle⟩ := installed?_call hs (hl c List.mem_cons_self) hd.1 hh
    refine hle.trans (ih (temp_call hs c) ?_ hd.2 heq hh')
    exact fun c' hc' => hl c' (List.mem_cons_of_mem _ hc')

theorem temp_run {l : List GeoCall} {s : GeoFiles} (hs : s.temp = none) :
    (l.foldl (GeoFiles.call X) s).temp = none := by
  induction l generalizing s with
  | nil => exact hs
  | cons c l ih => exact ih (temp_call hs c)

variable (X) in
/-- **The recorded month never goes back**, over every run of calls in the years 0 to 9999 in
which no forced call installs a month older than the recorded one: of any two moments with a
valid record beside a database, the later one has no earlier month.  In every such run, and
in every other, an unforced call asks for nothing when the recorded month is not older than
the current one. -/
theorem recorded_month_mono (db : Option Bytes) (record : Option (Option String))
    (l : List GeoCall) (hl : ∀ c ∈ l, c.InRange) :
    let s₀ : GeoFiles := ⟨db, record, none, [], []⟩
    (Always (GeoFiles.call X) (fun s c => ¬s.Downgrades X c) s₀ l →
      ∀ l₁ l₂ l₃, l = l₁ ++ l₂ ++ l₃ → ∀ h h',
        (l₁.foldl (GeoFiles.call X) s₀).installed? = some h →
        ((l₁ ++ l₂).foldl (GeoFiles.call X) s₀).installed? = some h' →
        NotLater (recorded h) (recorded h')) ∧
      ∀ l₁ c l₂, l = l₁ ++ c :: l₂ → c.o.force = false → ∀ h,
        (l₁.foldl (GeoFiles.call X) s₀).installed? = some h → NotLater c.o.now (recorded h) →
        ((l₁ ++ [c]).foldl (GeoFiles.call X) s₀).requests =
          (l₁.foldl (GeoFiles.call X) s₀).requests := by
  intro s₀
  refine ⟨?_, ?_⟩
  · rintro hd l₁ l₂ l₃ rfl h h' hh hh'
    rw [List.append_assoc, always_append, always_append] at hd
    rw [List.foldl_append] at hh'
    exact installed?_run (temp_run rfl) (fun c hc => hl c (by simp [hc])) hd.2.1 hh hh'
  · rintro l₁ c l₂ rfl hforce h hh hnow
    rw [List.foldl_append, List.foldl_cons, List.foldl_nil,
      call_upToDate (hl c (by simp)) hforce hh hnow]

end Calls

/-- A call at the month `m` of 2026, with a server that has the months `ms`. -/
def GeoCall.sample (force : Bool) (m : ℕ) (ms : List String) : GeoCall where
  o := { Options.new "geo.mmdb" "http://a" (2026, m) with force := force }
  pid := 1
  respond := fun month => if month ∈ ms then .answer 200 none [.ok [1]] else .answer 404 none []

theorem recorded_month_mono_sample :
    NotLater (recorded "2026-02") (recorded "2026-03") ∧
      (([GeoCall.sample false 3 ["2026-03"], .sample false 3 ["2026-03"]].foldl
          (GeoFiles.call .sample) ⟨some [], some (some "2026-02"), none, [], []⟩).requests =
        ([GeoCall.sample false 3 ["2026-03"]].foldl
          (GeoFiles.call .sample) ⟨some [], some (some "2026-02"), none, [], []⟩).requests) := by
  have h := recorded_month_mono .sample (some []) (some (some "2026-02"))
    [.sample false 3 ["2026-03"], .sample false 3 ["2026-03"]] (by decide)
  refine ⟨h.1 ⟨?_, ?_, trivial⟩ [] [.sample false 3 ["2026-03"]] [.sample false 3 ["2026-03"]] rfl
      _ _ (by decide) (by decide),
    h.2 [.sample false 3 ["2026-03"]] (.sample false 3 ["2026-03"]) [] rfl rfl "2026-03" (by decide)
      (by decide)⟩
  · rintro ⟨hforce, -⟩
    cases hforce
  · rintro ⟨hforce, -⟩
    cases hforce

/-- **A forced call goes back**: the month is installed, its file is not there for a moment,
and the forced call installs the one before. -/
theorem forced_call_goes_back :
    let s := (⟨none, none, none, [], []⟩ : GeoFiles).call .sample (.sample false 3 ["2026-03"])
    let t := s.call .sample (.sample true 3 ["2026-02"])
    s.installed? = some "2026-03" ∧ t.installed? = some "2026-02" ∧
      ¬NotLater (recorded "2026-03") (recorded "2026-02") := by
  decide

/-! ### Calls that are cut short -/

/-- The operations of a call when none of them fails, with the server as the only input. -/
def servedMachine (X : GeoExt) : Machine GeoSig GeoFiles (String → Response) :=
  ⟨fun respond => GeoOp.exec X (.server respond)⟩

/-- A process that makes calls, one after another, and can die at any moment. -/
abbrev GeoLife := Machine.Life GeoSig GeoFiles (Options × ℕ) (Except String Outcome)

/-- What can happen to it. -/
abbrev GeoMove := Machine.Move (Options × ℕ) (String → Response)

/-- The process after a move. -/
def geoLife (X : GeoExt) : GeoLife → GeoMove → GeoLife :=
  Machine.Life.step (servedMachine X) fun i => update X i.1 i.2

/-- A process that has made no call yet. -/
def GeoLife.start (db : Option Bytes) (record : Option (Option String)) : GeoLife :=
  ⟨⟨db, record, none, [], []⟩, none, []⟩

/-- The calls a process may begin: unforced, in a month of some year. -/
def Unforced (i : Options × ℕ) : Prop := i.1.force = false ∧ 1 ≤ i.1.now.2 ∧ i.1.now.2 ≤ 12

/-- A file is put in place where there was none only beside a record that is not of a later
month. -/
def NoLaterRecord (_ : String → Response) : GeoOp → GeoFiles → Prop
  | .rename m, s => s.db = none → ∀ h, s.record.join.bind monthOf = some h → Text.lt m h = false
  | _, _ => True

section Cut

variable {X : GeoExt} {db₀ : Option Bytes} {begun : List (Options × ℕ)}

/-- `b` is a complete download of month `m` that a call asked for and found valid. -/
def Downloaded (X : GeoExt) (begun : List (Options × ℕ)) (requests : List (String × Response))
    (m : String) (b : Bytes) : Prop :=
  ∃ i ∈ begun, ∃ resp body, (m, resp) ∈ requests ∧ headOf X i.1 m resp = .ok (some body) ∧
    copied (fun _ => none) (unpacked X i.1 body) 0 = .ok b ∧ validateCity X i.1.minNodes b = none

/-- The database is the one from the start or a complete, valid download, and no month is
installed that is later than that of the download. -/
structure Faithful (X : GeoExt) (db₀ : Option Bytes) (begun : List (Options × ℕ)) (s : GeoFiles) :
    Prop where
  /-- The database. -/
  db : (s.installs = [] ∧ s.db = db₀) ∨
    ∃ m b rest, s.installs = (m, b) :: rest ∧ s.db = some b ∧ Downloaded X begun s.requests m b
  /-- The record. -/
  month : ∀ m b rest, s.installs = (m, b) :: rest → ∀ h, s.installed? = some h →
    ∃ month, m = label month ∧ NotLater (recorded h) month

/-- What is said of the files does not depend on the temporary file, and survives more
requests. -/
theorem Faithful.of_same {s t : GeoFiles} (hs : Faithful X db₀ begun s) (hdb : t.db = s.db)
    (hrec : t.record = s.record) (hinst : t.installs = s.installs)
    (hreq : ∀ r ∈ s.requests, r ∈ t.requests) : Faithful X db₀ begun t := by
  have hi : t.installed? = s.installed? := by rw [GeoFiles.installed?, hdb, hrec]; rfl
  refine ⟨?_, by rw [hinst, hi]; exact hs.month⟩
  rw [hinst, hdb]
  refine hs.db.imp id ?_
  rintro ⟨m, b, rest, h₁, h₂, i, hbegun, resp, body, hmem, hdown⟩
  exact ⟨m, b, rest, h₁, h₂, i, hbegun, resp, body, hreq _ hmem, hdown⟩

/-- The same as before but for the temporary file and more requests, and still faithful. -/
structure Same (X : GeoExt) (db₀ : Option Bytes) (begun : List (Options × ℕ)) (s t : GeoFiles) :
    Prop where
  /-- The files are as `Faithful` says. -/
  faithful : Faithful X db₀ begun t
  /-- The same database. -/
  db : t.db = s.db
  /-- The same record. -/
  record : t.record = s.record

theorem Same.temp {s t : GeoFiles} (h : Same X db₀ begun s t) (temp : Option Bytes) :
    Same X db₀ begun s { t with temp := temp } :=
  ⟨h.faithful.of_same rfl rfl rfl fun _ hr => hr, h.db, h.record⟩

/-- Faithful at every point of a program. -/
abbrev KeepsFaithful (X : GeoExt) (db₀ : Option Bytes) (begun : List (Options × ℕ)) {α : Type}
    (Q : α → GeoFiles → Prop) (p : Prog GeoSig α) (s : GeoFiles) : Prop :=
  (servedMachine X).Keeps NoLaterRecord (Faithful X db₀ begun) Q p s

/-- The copy loop writes the temporary file only; if it ends, that is the whole download. -/
theorem keeps_copyTo {s₀ : GeoFiles} (m : String) (reads : List ReadResult) (i : ℕ)
    {s : GeoFiles} (hs : Same X db₀ begun s₀ s) {t : Bytes} (ht : s.temp = some t) :
    KeepsFaithful X db₀ begun (fun err s' => Same X db₀ begun s₀ s' ∧ s'.requests = s.requests ∧
        (err = none → ∃ b, copied (fun _ => none) reads i = .ok b ∧ s'.temp = some (t ++ b)))
      (copyTo m reads i) s := by
  induction reads generalizing i s t with
  | nil => exact ⟨hs, rfl, fun _ => ⟨[], rfl, by simpa using ht⟩⟩
  | cons r reads ih =>
    rcases r with err | b
    · exact ⟨hs, rfl, fun h => by cases h⟩
    · cases b with
      | nil => exact ⟨hs, rfl, fun _ => ⟨[], rfl, by simpa using ht⟩⟩
      | cons b bs =>
        intro respond _
        have hnext := hs.temp (some (t ++ b :: bs))
        have hexec : (servedMachine X).exec respond (.write m i (b :: bs)) s =
            ({ s with temp := some (t ++ b :: bs) }, none) := by
          simp [servedMachine, GeoOp.exec, GeoEnv.server, Faults.clean, ht]
        rw [hexec]
        refine ⟨hnext.faithful, ?_⟩
        refine Machine.Keeps.mono (ih (i + 1) hnext rfl) ?_
        rintro err s' ⟨hsame, hreq, hdone⟩
        refine ⟨hsame, hreq, ?_⟩
        intro herr
        obtain ⟨c, hc, htemp⟩ := hdone herr
        exact ⟨b :: bs ++ c, by simp [copied, hc, Except.map], by simpa using htemp⟩

/-- A step under the guard of the temporary file: its error removes the file. -/
theorem keeps_orRemove {s₀ s : GeoFiles} {R : GeoFiles → Prop} {front : String}
    {p : Prog GeoSig (Option String)} {rest : Prog GeoSig (Except String Fetched)}
    {Q : Except String Fetched → GeoFiles → Prop}
    (hQ : ∀ err s', Same X db₀ begun s₀ s' → Q (.error err) s')
    (hp : KeepsFaithful X db₀ begun (fun err s' =>
      (err ≠ none → Same X db₀ begun s₀ s') ∧ (err = none → R s')) p s)
    (hrest : ∀ s', R s' → KeepsFaithful X db₀ begun Q rest s') :
    KeepsFaithful X db₀ begun Q (orRemove front p rest) s := by
  refine Machine.Keeps.bind hp ?_
  rintro err s' ⟨hsame, hR⟩
  cases err with
  | none => exact hrest s' (hR rfl)
  | some err =>
    intro respond _
    have hgone := (hsame (by simp)).temp none
    exact ⟨hgone.faithful, hQ _ _ hgone⟩

/-- **Putting a file in place**: the record, if there is one, is not of a later month. -/
theorem Same.rename {s₀ s : GeoFiles} (hs : Same X db₀ begun s₀ s) {month : ℤ × ℕ}
    (hm : month.2 < 100) {b : Bytes} (hdown : Downloaded X begun s.requests (label month) b)
    (hold : s₀.db.isSome = true → ∀ h, s₀.record.join.bind monthOf = some h →
      Text.lt h (label month) = true)
    (hnew : s.db = none → ∀ h, s.record.join.bind monthOf = some h →
      Text.lt (label month) h = false) :
    Faithful X db₀ begun { s with
      db := some b, temp := none, installs := (label month, b) :: s.installs } := by
  refine ⟨Or.inr ⟨_, b, _, rfl, rfl, hdown⟩, ?_⟩
  intro m b' rest hinst h hh
  simp only [List.cons.injEq, Prod.mk.injEq] at hinst
  obtain ⟨⟨rfl, rfl⟩, rfl⟩ := hinst
  refine ⟨month, rfl, ?_⟩
  simp only [GeoFiles.installed?, Option.isSome_some, if_true] at hh
  have hvalid := isMonth_of_join hh
  by_cases hlt : Text.lt h (label month) = true
  · exact (earlier_of_lt_label hvalid hm hlt).notLater
  · -- there was no database, and the two texts are the same
    have hnone : s.db = none := by
      by_contra hne
      rw [hs.db] at hne
      exact hlt (hold (Option.isSome_iff_ne_none.mpr hne) h (by rw [← hs.record]; exact hh))
    have heq : h = label month := String.toList_injective
      (eq_of_not_ltChars (by simpa [Text.lt] using hlt) (hnew hnone h hh))
    subst heq
    rw [year_of_isMonth hm hvalid]
    exact .refl _

/-- The files once a month is in place. -/
def InPlace (X : GeoExt) (db₀ : Option Bytes) (begun : List (Options × ℕ)) (m : String)
    (s : GeoFiles) : Prop :=
  Faithful X db₀ begun s ∧ ∃ b rest, s.installs = (m, b) :: rest

/-- What `fetch_month` leaves behind. -/
def AfterFetch (X : GeoExt) (db₀ : Option Bytes) (begun : List (Options × ℕ)) (s₀ : GeoFiles)
    (m : String) (r : Except String Fetched) (s : GeoFiles) : Prop :=
  if r = .ok .installed then InPlace X db₀ begun m s else Same X db₀ begun s₀ s

/-- A body is installed faithfully. -/
theorem keeps_install {o : Options} {pid : ℕ} (hbegun : (o, pid) ∈ begun) {month : ℤ × ℕ}
    (hm : month.2 < 100) {s₀ s : GeoFiles} (hs : Same X db₀ begun s₀ s) {resp : Response}
    {body : List ReadResult} (hreq : (label month, resp) ∈ s.requests)
    (hhead : headOf X o (label month) resp = .ok (some body))
    (hold : s₀.db.isSome = true → ∀ h, s₀.record.join.bind monthOf = some h →
      Text.lt h (label month) = true) :
    KeepsFaithful X db₀ begun (AfterFetch X db₀ begun s₀ (label month))
      (install X o pid (label month) body) s := by
  have hQ : ∀ err s', Same X db₀ begun s₀ s' →
      AfterFetch X db₀ begun s₀ (label month) (.error err) s' := fun err s' h => by
    simpa [AfterFetch] using h
  -- what is known while the temporary file is being written
  let R (t : Option Bytes) (s' : GeoFiles) : Prop :=
    Same X db₀ begun s₀ s' ∧ s'.requests = s.requests ∧ s'.temp = t
  refine keeps_orRemove (R := R (some [])) hQ ?_ ?_
  · intro respond _
    have hcreated := hs.temp (some [])
    exact ⟨hcreated.faithful, fun _ => hcreated, fun _ => ⟨hcreated, rfl, rfl⟩⟩
  rintro s₁ ⟨hs₁, hreq₁, htemp₁⟩
  refine keeps_orRemove (R := fun s' => ∃ b, copied (fun _ => none) (unpacked X o body) 0 = .ok b ∧
    R (some b) s') hQ ?_ ?_
  · refine (keeps_copyTo _ (unpacked X o body) 0 hs₁ htemp₁).mono ?_
    rintro err s' ⟨hsame, hreq', hdone⟩
    refine ⟨fun _ => hsame, ?_⟩
    intro herr
    obtain ⟨b, hb, htemp⟩ := hdone herr
    exact ⟨b, hb, hsame, hreq'.trans hreq₁, by simpa using htemp⟩
  rintro s₂ ⟨b, hb, hs₂⟩
  refine keeps_orRemove (R := R (some b)) hQ ?_ ?_
  · intro respond _
    exact ⟨hs₂.1.faithful, fun _ => hs₂.1, fun _ => hs₂⟩
  intro s₃ hs₃
  refine keeps_orRemove (R := R (some b)) hQ ?_ ?_
  · intro respond _
    exact ⟨hs₃.1.faithful, fun _ => hs₃.1, fun _ => hs₃⟩
  intro s₄ hs₄
  refine keeps_orRemove (R := fun s' => validateCity X o.minNodes b = none ∧ R (some b) s') hQ ?_ ?_
  · intro respond _
    refine ⟨hs₄.1.faithful, fun _ => hs₄.1, ?_⟩
    intro hval
    refine ⟨?_, hs₄⟩
    simpa [servedMachine, GeoOp.exec, GeoEnv.server, Faults.clean, hs₄.2.2] using hval
  rintro s₅ ⟨hval, hs₅, hreq₅, htemp₅⟩
  refine keeps_orRemove (R := InPlace X db₀ begun (label month)) hQ ?_ ?_
  · intro respond hC
    have hexec : (servedMachine X).exec respond (.rename (label month)) s₅ =
        ({ s₅ with db := some b, temp := none, installs := (label month, b) :: s₅.installs },
          none) := by
      simp [servedMachine, GeoOp.exec, GeoEnv.server, Faults.clean, htemp₅]
    rw [hexec]
    have hdown : Downloaded X begun s₅.requests (label month) b :=
      ⟨_, hbegun, resp, body, by rw [hreq₅]; exact hreq, hhead, hb, hval⟩
    have hin := hs₅.rename hm hdown hold hC
    exact ⟨hin, fun h => absurd rfl h, fun _ => ⟨hin, b, _, rfl⟩⟩
  intro s₆ hs₆
  change AfterFetch X db₀ begun s₀ (label month) (.ok .installed) s₆
  simpa [AfterFetch] using hs₆

/-- An answer is handled faithfully. -/
theorem keeps_fetchBody {o : Options} {pid : ℕ} (hbegun : (o, pid) ∈ begun) {month : ℤ × ℕ}
    (hm : month.2 < 100) {s₀ s : GeoFiles} (hs : Same X db₀ begun s₀ s) {resp : Response}
    (hreq : (label month, resp) ∈ s.requests)
    (hold : s₀.db.isSome = true → ∀ h, s₀.record.join.bind monthOf = some h →
      Text.lt h (label month) = true) :
    KeepsFaithful X db₀ begun (AfterFetch X db₀ begun s₀ (label month))
      (fetchBody X o pid (label month) resp) s := by
  have hother : ∀ r : Except String Fetched, r ≠ .ok .installed →
      AfterFetch X db₀ begun s₀ (label month) r s := by
    intro r hr
    rw [AfterFetch, if_neg hr]
    exact hs
  unfold fetchBody
  cases hhead : headOf X o (label month) resp with
  | error err => exact hother _ (by simp)
  | ok body? =>
    cases body? with
    | none => exact hother _ (by simp)
    | some body => exact keeps_install hbegun hm hs hreq hhead hold

/-- Recording the month of the file in place. -/
theorem keeps_recordMonth {month : ℤ × ℕ} (hm : month.2 < 100) {s : GeoFiles}
    (hs : InPlace X db₀ begun (label month) s) :
    KeepsFaithful X db₀ begun (fun _ _ => True) (recordMonth (label month)) s := by
  obtain ⟨hs, b, rest, hinst⟩ := hs
  -- the database stays; a record that can be read is the month itself
  have hwrite : ∀ text, (∀ h, monthOf text = some h → h = label month) →
      Faithful X db₀ begun { s with record := some (some text) } := by
    intro text htext
    refine ⟨hs.db, ?_⟩
    intro m b' rest' hinst' h hh
    have heq : (label month, b) :: rest = (m, b') :: rest' := hinst.symm.trans hinst'
    simp only [List.cons.injEq, Prod.mk.injEq] at heq
    obtain ⟨⟨rfl, -⟩, -⟩ := heq
    refine ⟨month, rfl, ?_⟩
    have htxt : monthOf text = some h := by
      simp only [GeoFiles.installed?] at hh
      split at hh
      · simpa only [Option.join_some, Option.bind_some] using hh
      · cases hh
    have := htext h htxt
    subst this
    rw [year_of_isMonth hm (isMonth_of_monthOf htxt)]
    exact .refl _
  intro respond _
  refine ⟨hwrite "" ?_, ?_⟩
  · intro h hh
    rw [show monthOf "" = none from by decide] at hh
    cases hh
  intro respond' _
  refine ⟨hwrite (recordText (label month)) ?_, trivial⟩
  intro h hh
  rw [monthOf_recordText] at hh
  split at hh
  · cases hh
    rfl
  · cases hh

/-- The loop over the months. -/
theorem keeps_tryMonths {o : Options} {pid : ℕ} (hbegun : (o, pid) ∈ begun)
    (hforce : o.force = false) {have_ : Option String} {s₀ : GeoFiles}
    (hhave : s₀.db.isSome = true → have_ = s₀.record.join.bind monthOf)
    (months : List (ℤ × ℕ)) (hmonths : ∀ month ∈ months, month.2 < 100) {s : GeoFiles}
    (hs : Same X db₀ begun s₀ s) :
    KeepsFaithful X db₀ begun (fun _ _ => True) (tryMonths X o pid have_ months) s := by
  induction months generalizing s with
  | nil => trivial
  | cons month months ih =>
    have hm := hmonths month List.mem_cons_self
    simp only [tryMonths]
    cases hset : settled o have_ (label month) with
    | some h => trivial
    | none =>
      have hold : s₀.db.isSome = true → ∀ h, s₀.record.join.bind monthOf = some h →
          Text.lt h (label month) = true := by
        intro hdb h hh
        rcases settled_eq_none_iff.mp hset with hf | hlt
        · rw [hforce] at hf
          cases hf
        · exact hlt h ((hhave hdb).trans hh)
      have hfetch : KeepsFaithful X db₀ begun (AfterFetch X db₀ begun s₀ (label month))
          (fetchMonth X o pid (label month)) s := by
        intro respond _
        refine ⟨hs.faithful, ?_⟩
        intro respond' _
        have hasked : Same X db₀ begun s₀
            { s with requests := (label month, respond' (label month)) :: s.requests } :=
          ⟨hs.faithful.of_same rfl rfl rfl fun r hr => List.mem_cons_of_mem _ hr, hs.db, hs.record⟩
        refine ⟨hasked.faithful, ?_⟩
        exact keeps_fetchBody hbegun hm hasked List.mem_cons_self hold
      refine Machine.Keeps.bind hfetch ?_
      intro r s' hr
      rcases r with err | f
      · trivial
      · cases f with
        | installed => exact keeps_recordMonth hm (by simpa [AfterFetch] using hr)
        | notPublished =>
          refine ih (fun month' h => hmonths month' (List.mem_cons_of_mem _ h)) ?_
          simpa [AfterFetch] using hr

/-- A whole call. -/
theorem keeps_update {i : Options × ℕ} (hi : Unforced i) (hbegun : i ∈ begun) {s : GeoFiles}
    (hs : Faithful X db₀ begun s) :
    KeepsFaithful X db₀ begun (fun _ _ => True) (update X i.1 i.2) s := by
  obtain ⟨hforce, hlo, hhi⟩ := hi
  have hsame : Same X db₀ begun s s := ⟨hs, rfl, rfl⟩
  have hmonths : ∀ month ∈ [i.1.now, previous i.1.now], month.2 < 100 := by
    intro month hm
    simp only [List.mem_cons, List.not_mem_nil, or_false] at hm
    rcases hm with rfl | rfl
    · omega
    · unfold previous
      split
      · exact (by decide : 12 < 100)
      · dsimp only
        omega
  have hinstalled : KeepsFaithful X db₀ begun (fun have_ s' => s' = s ∧
      (s.db.isSome = true → have_ = s.record.join.bind monthOf)) installed s := by
    intro respond _
    refine ⟨hs, ?_⟩
    change KeepsFaithful X db₀ begun _ (if s.db.isSome then
      .op .readRecord fun text : Option String => .ret (text.bind monthOf) else .ret none) s
    cases hdb : s.db.isSome with
    | true => exact fun respond' _ => ⟨hs, rfl, fun _ => rfl⟩
    | false => exact ⟨rfl, fun h => by cases h⟩
  refine Machine.Keeps.bind hinstalled ?_
  rintro have_ s' ⟨rfl, hhave⟩
  exact keeps_tryMonths hbegun hforce hhave _ hmonths hsame

variable (X) in
/-- **The version record never overstates what is installed**, over every life of a process
that makes unforced calls, with any answers of the server, and can die before or after any
operation, so long as it never puts a file in place where there is no database beside a
record of a later month: at every moment the database is the one from the start or one
complete download that passed `validate_city`, and `installed` finds no month later than the
one that was downloaded. -/
theorem version_record_faithful (db : Option Bytes) (record : Option (Option String))
    (moves : List GeoMove) (hstart : ∀ i, Machine.Move.start i ∈ moves → Unforced i)
    (hcond : Always (geoLife X) (fun c move => ∀ respond op,
      c.performs move = some (respond, op) → NoLaterRecord respond op c.st)
      (GeoLife.start db record) moves) :
    Faithful X db (moves.foldl (geoLife X) (GeoLife.start db record)).begun
      (moves.foldl (geoLife X) (GeoLife.start db record)).st := by
  -- the files are faithful, and so is what the rest of the call leads to
  let J (c : GeoLife) : Prop := Faithful X db c.begun c.st ∧
    ∀ p ∈ c.job, KeepsFaithful X db c.begun (fun _ _ => True) p c.st
  have hmono : ∀ i l s, Faithful X db l s → Faithful X db (i :: l) s := by
    intro i l s hs
    refine ⟨hs.db.imp id ?_, hs.month⟩
    rintro ⟨m, b, rest, h₁, h₂, j, hj, hdown⟩
    exact ⟨m, b, rest, h₁, h₂, j, List.mem_cons_of_mem _ hj, hdown⟩
  have hrun : ∀ (moves : List GeoMove) (c : GeoLife), J c →
      (∀ i, Machine.Move.start i ∈ moves → Unforced i) →
      Always (geoLife X) (fun c move => ∀ respond op,
        c.performs move = some (respond, op) → NoLaterRecord respond op c.st) c moves →
      J (moves.foldl (geoLife X) c) := by
    intro moves
    induction moves with
    | nil => exact fun c hc _ _ => hc
    | cons move moves ih =>
      intro c hc hst halways
      refine ih _ ?_ (fun i hi => hst i (List.mem_cons_of_mem _ hi)) halways.2
      exact Machine.Life.keeps_step (A := Unforced) hmono
        (fun i l s hi hs => keeps_update hi List.mem_cons_self hs) hc.1 hc.2 move
        (fun i hi => hst i (by rw [hi]; exact List.mem_cons_self)) halways.1
  refine (hrun moves _ ⟨⟨Or.inl ⟨rfl, rfl⟩, ?_⟩, ?_⟩ hstart hcond).1
  · intro m b rest h
    cases h
  · intro p hp
    cases hp

end Cut

/-- A server that has the month March 2026. -/
def servesMarch (month : String) : Response :=
  if month = "2026-03" then .answer 200 none [.ok [1]] else .answer 404 none []

/-- An unforced call in March 2026 that dies after so many operations. -/
def cutCall (n : ℕ) : List GeoMove :=
  .start (.new "geo.mmdb" "http://a" (2026, 3), 1) ::
    List.replicate n (.act servesMarch) ++ [.crash]

theorem version_record_faithful_cut :
    Faithful .sample (some [0]) (((cutCall 10).foldl (geoLife .sample)
        (GeoLife.start (some [0]) (some (some "2026-02\n")))).begun)
        ((cutCall 10).foldl (geoLife .sample)
          (GeoLife.start (some [0]) (some (some "2026-02\n")))).st ∧
      ((cutCall 10).foldl (geoLife .sample)
        (GeoLife.start (some [0]) (some (some "2026-02\n")))).st.db = some [1] := by
  -- there is a database all the time
  have hdb : Always (geoLife .sample) (fun c _ => c.st.db.isSome = true)
      (GeoLife.start (some [0]) (some (some "2026-02\n"))) (cutCall 10) := by decide
  refine ⟨version_record_faithful .sample _ _ _ ?_ ?_, by decide⟩
  · intro i hi
    simp only [cutCall, List.cons_append, List.mem_cons, List.mem_append, List.mem_replicate,
      List.not_mem_nil, or_false, reduceCtorEq, and_false, or_self] at hi
    cases hi
    exact ⟨rfl, by decide, by decide⟩
  · refine Always.inv (I := fun _ => True) (fun _ _ _ _ => trivial) ?_ trivial hdb
    intro c _ _ hc respond op _
    cases op <;> try trivial
    intro hnone
    rw [hnone] at hc
    cases hc

/-- Without a database the record is not looked at: the file of March 2026 is put in place
beside a record of 2030, and the process dies before it empties the record. -/
theorem record_left_behind_overstates :
    let s := ((cutCall 9).foldl (geoLife .sample)
      (GeoLife.start none (some (some "2030-01\n")))).st
    s.installs = [("2026-03", [1])] ∧ s.installed? = some "2030-01" ∧
      ¬NotLater (recorded "2030-01") (2026, 3) := by
  decide

end Geo
end RustdeskServer
