import RustdeskServer.GeoVersion

/-!
# Checking every day

`rustdesk-utils geo-update` checks for a newer database once, or with `--loop` again and again:
a day later, or six hours after a check that failed.  Only the first check can be forced.

The record of the installed month is all that one check tells the next.  A call that forces
nothing asks for a month only if the record is of an earlier one, so that over a whole life of
the tool the months are put in place in their order, each of them once; whatever the server does
and the clock says.  This rests on the record, which must be read and written without an error;
any other operation may fail.

## Main definitions

* `GeoArgs`, `geoArgs` — what the tool reads of its arguments.
* `GeoTool`, `GeoTool.turn` — the tool, and one time round its loop.
* `GeoTool.Ordered` — what holds between two checks.

## Main results

* `turn_cases` — what one check can do.
* `downloaded_once` — **no month is asked for again once it, or a later one, is in place**, and
  a month that is to be had on the day of a check is in place from then on.
-/

namespace RustdeskServer
namespace Geo

open Atomic

/-! ### The tool -/

/-- What `geo_update` reads of its arguments. -/
structure GeoArgs where
  /-- The database file. -/
  out : Option String
  /-- Where the monthly files are. -/
  base : String
  /-- Whether the first check is forced. -/
  force : Bool
  /-- Whether there is a second one. -/
  looping : Bool
  deriving DecidableEq

/-- `DEFAULT_BASE_URL`. -/
def defaultBaseUrl : String := "https://download.db-ip.com/free"

/-- The arguments that are not given, over `GEO_DB` and `GEO_UPDATE_BASE_URL`. -/
def GeoArgs.unset (geoDb baseUrl : Option String) : GeoArgs where
  out := geoDb.filter (· ≠ "")
  base := (baseUrl.filter (· ≠ "")).getD defaultBaseUrl
  force := false
  looping := false

/-- The loop of `geo_update` over its arguments; an error is told with the help, and the tool
ends. -/
def geoArgs : List String → GeoArgs → Except String GeoArgs
  | [], a => .ok a
  | [word], a =>
    -- nothing is left for an option to take
    if word = "--out" then .ok { a with out := none }
    else if word = "--base-url" then .ok a
    else if word = "--force" then .ok { a with force := true }
    else if word = "--loop" then .ok { a with looping := true }
    else .error ("unknown option " ++ word)
  | word :: next :: rest, a =>
    if word = "--out" then geoArgs rest { a with out := some next }
    else if word = "--base-url" then geoArgs rest { a with base := next }
    else if word = "--force" then geoArgs (next :: rest) { a with force := true }
    else if word = "--loop" then geoArgs (next :: rest) { a with looping := true }
    else .error ("unknown option " ++ word)

namespace GeoArgs

variable (a : GeoArgs)

/-- `out.unwrap_or_else(|| "geo.mmdb".to_owned())`. -/
def file : String := a.out.getD "geo.mmdb"

/-- The options of a check. -/
def options (force : Bool) (now : ℤ × ℕ) : Options :=
  { Options.new a.file a.base now with force := force }

/-- What is logged of a check, if anything. -/
def message : Except String Outcome → Option String
  | .ok (.updated m) =>
    some ("installed the " ++ m ++ " database at " ++ a.file ++ " (data by DB-IP.com, CC BY 4.0)")
  | .ok (.upToDate m) =>
    if a.looping then none
    else some ("already have the " ++ m ++ " database, nothing newer is published")
  | .error e => some ("failed, keeping the current file: " ++ e)

end GeoArgs

/-- How long the tool sleeps after a check, in seconds. -/
def pause : Except String Outcome → ℕ
  | .ok _ => 24 * 3600
  | .error _ => 6 * 3600

/-- The status the tool ends with where it does not loop. -/
def exitStatus : Except String Outcome → ℕ
  | .ok _ => 0
  | .error _ => 1

/-- What a check meets: the year and the month of the clock, the server, and the operations that
fail. -/
structure Day where
  /-- Today's year and month. -/
  now : ℤ × ℕ
  /-- The server and the failing operations. -/
  env : GeoEnv

/-- The tool between two checks. -/
structure GeoTool where
  /-- The files. -/
  files : GeoFiles
  /-- Whether the next check is forced. -/
  force : Bool
  /-- What was logged, newest first. -/
  logged : List String
  /-- How long the tool slept after each check, newest first. -/
  slept : List ℕ
  /-- The status it ended with. -/
  ended : Option ℕ

/-- The tool before its first check. -/
def GeoTool.start (a : GeoArgs) (files : GeoFiles) : GeoTool := ⟨files, a.force, [], [], none⟩

section Tool

variable (X : GeoExt) (a : GeoArgs) (pid : ℕ)

/-- One time round the loop of `geo_update`. -/
def GeoTool.turn (t : GeoTool) (d : Day) : GeoTool :=
  match t.ended with
  | some _ => t
  | none =>
    let r := (geoMachine X).run d.env (update X (a.options t.force d.now) pid) t.files
    { files := r.1
      force := false
      logged := (a.message r.2).toList ++ t.logged
      slept := if a.looping then pause r.2 :: t.slept else t.slept
      ended := if a.looping then none else some (exitStatus r.2) }

/-- The tool after a number of checks. -/
def GeoTool.run (t : GeoTool) (days : List Day) : GeoTool := days.foldl (GeoTool.turn X a pid) t

end Tool

/-- A month of the years 1 to 9999, and nothing fails about the record. -/
structure Day.Recorded (d : Day) : Prop where
  year : 1 ≤ d.now.1 ∧ d.now.1 ≤ 9999
  month : 1 ≤ d.now.2 ∧ d.now.2 ≤ 12
  readable : d.env.unreadable = false
  writable : ∀ m, (d.env.faults m).recording = false

/-! ### Months that are tried -/

/-- The label of a month that is tried is a record, and of that month. -/
theorem label_tried {now month : ℤ × ℕ} (hyear : 1 ≤ now.1 ∧ now.1 ≤ 9999)
    (hmonth : 1 ≤ now.2 ∧ now.2 ≤ 12) (h : month ∈ [now, previous now]) :
    isMonth (label month).toList = true ∧ recorded (label month) = month := by
  have hbound : 0 ≤ month.1 ∧ month.1 ≤ 9999 ∧ month.2 ≤ 12 := by
    rcases List.mem_pair.mp h with rfl | rfl
    · omega
    · unfold previous
      split
      · refine ⟨?_, ?_, ?_⟩ <;> dsimp only <;> omega
      · refine ⟨?_, ?_, ?_⟩ <;> dsimp only <;> omega
  obtain ⟨y, m⟩ := month
  obtain ⟨y, rfl⟩ := Int.eq_ofNat_of_zero_le hbound.1
  have hy : y < 10000 := by
    have := hbound.2.1
    dsimp only at this
    omega
  have hm : m < 100 := by
    have := hbound.2.2
    dsimp only at this
    omega
  exact ⟨isMonth_label hy hm, recorded_label hy⟩

/-- What is not settled by a record is of a later month. -/
theorem earlier_of_settled {o : Options} (hforce : o.force = false) {h cand : String}
    (hh : isMonth h.toList = true) (hcand : isMonth cand.toList = true)
    (hset : settled o (some h) cand = none) : Earlier (recorded h) (recorded cand) := by
  rcases settled_eq_none_iff.mp hset with hf | hlt
  · rw [hforce] at hf
    cases hf
  · exact (ltChars_iff_earlier hh hcand).mp (hlt h rfl)

theorem Earlier.trans_notLater {x y z : ℤ × ℕ} (hxy : NotLater x y) (hyz : Earlier y z) :
    Earlier x z := by
  unfold NotLater at hxy
  unfold Earlier at hyz ⊢
  omega

/-! ### What is asked for -/

section Requests

variable {X : GeoExt} {o : Options} {pid : ℕ} {e : GeoEnv}

/-- Only months that the record does not settle are asked for. -/
theorem requests_tryMonths (have_ : Option String) (months : List (ℤ × ℕ)) {s : GeoFiles}
    (hs : s.temp = none) :
    ∃ asked, ((geoMachine X).run e (tryMonths X o pid have_ months) s).1.requests =
        asked ++ s.requests ∧
      ∀ r ∈ asked, ∃ month ∈ months, r.1 = label month ∧ settled o have_ r.1 = none := by
  induction months generalizing s with
  | nil => exact ⟨[], rfl, nofun⟩
  | cons month months ih =>
    simp only [tryMonths]
    cases hset : settled o have_ (label month) with
    | some h => exact ⟨[], rfl, nofun⟩
    | none =>
      -- the request for the month itself, unless there is no client
      have hasked : ∃ asked, (s.asked e (label month)).requests = asked ++ s.requests ∧
          (s.asked e (label month)).temp = none ∧ ∀ r ∈ asked, r.1 = label month := by
        unfold GeoFiles.asked
        split
        · exact ⟨[], rfl, hs, nofun⟩
        · refine ⟨[_], rfl, hs, ?_⟩
          intro r hr
          rw [List.mem_singleton.mp hr]
      obtain ⟨asked, hreq, htemp, hof⟩ := hasked
      have hown : ∀ r ∈ asked, ∃ month' ∈ month :: months, r.1 = label month' ∧
          settled o have_ r.1 = none := by
        intro r hr
        refine ⟨month, List.mem_cons_self, hof r hr, ?_⟩
        rw [hof r hr]
        exact hset
      simp only
      rw [Machine.run_bind, run_fetchMonth _ hs]
      cases attempt X o pid e (label month) with
      | error err => exact ⟨asked, hreq, hown⟩
      | ok b? =>
        cases b? with
        | none =>
          obtain ⟨more, hmore, hall⟩ := ih htemp
          refine ⟨more ++ asked, ?_, ?_⟩
          · show ((geoMachine X).run e (tryMonths X o pid have_ months)
              (s.asked e (label month))).1.requests = _
            rw [hmore, hreq, List.append_assoc]
          · intro r hr
            rcases List.mem_append.mp hr with hr | hr
            · obtain ⟨month', hmem, hr⟩ := hall r hr
              exact ⟨month', List.mem_cons_of_mem _ hmem, hr⟩
            · exact hown r hr
        | some b =>
          refine ⟨asked, ?_, hown⟩
          show ((geoMachine X).run e (recordMonth (label month)) _).1.requests = _
          rw [(run_recordMonth _ _).1]
          exact hreq

theorem requests_update {s : GeoFiles} (hs : s.temp = none) :
    ∃ asked, ((geoMachine X).run e (update X o pid) s).1.requests = asked ++ s.requests ∧
      ∀ r ∈ asked, ∃ month ∈ [o.now, previous o.now], r.1 = label month ∧
        settled o (s.month? e) r.1 = none := by
  rw [update, Machine.run_bind, run_installed]
  exact requests_tryMonths _ _ hs

/-- A month that is to be had is settled by the record, or delivered. -/
theorem delivered_head {have_ : Option String} {month : ℤ × ℕ} {months : List (ℤ × ℕ)} {b : Bytes}
    (hb : attempt X o pid e (label month) = .ok (some b)) :
    (∃ h, settled o have_ (label month) = some h) ∨
      delivered X o pid e have_ (month :: months) = some (label month, b) := by
  cases hset : settled o have_ (label month) with
  | some h => exact Or.inl ⟨h, rfl⟩
  | none =>
    apply Or.inr
    simp only [delivered, hset, hb]

end Requests

/-! ### One check -/

section Turn

variable {X : GeoExt} {a : GeoArgs} {pid : ℕ} {t : GeoTool} {d : Day}

/-- What holds between two checks of a tool that loops. -/
structure GeoTool.Ordered (t : GeoTool) : Prop where
  /-- No temporary file is left. -/
  temp : t.files.temp = none
  /-- The tool goes on. -/
  running : t.ended = none
  /-- It slept for six hours at least. -/
  paused : ∀ n ∈ t.slept, 6 * 3600 ≤ n
  /-- What was put in place is a month's file. -/
  valid : ∀ f ∈ t.files.installs, isMonth f.1.toList = true
  /-- The newest one is recorded. -/
  newest : ∀ f rest, t.files.installs = f :: rest → t.files.installed? = some f.1
  /-- They were put in place in the order of their months. -/
  later : t.files.installs.Pairwise fun f g => Earlier (recorded g.1) (recorded f.1)
  /-- A check is forced only before anything is put in place. -/
  unforced : t.force = true → t.files.installs = []

theorem month?_eq (hd : d.Recorded) (s : GeoFiles) : s.month? d.env = s.installed? := by
  simp [GeoFiles.month?, GeoFiles.installed?, hd.readable]

/-- Nothing that was put in place is of a later month than the record. -/
theorem GeoTool.Ordered.recorded (ht : t.Ordered) {f : String × Bytes}
    (hf : f ∈ t.files.installs) :
    ∃ h, t.files.installed? = some h ∧ NotLater (recorded f.1) (recorded h) := by
  cases hinst : t.files.installs with
  | nil =>
    rw [hinst] at hf
    cases hf
  | cons g rest =>
    refine ⟨g.1, ht.newest g rest hinst, ?_⟩
    have hlater := ht.later
    rw [hinst] at hf hlater
    rcases List.mem_cons.mp hf with rfl | hf
    · exact .refl _
    · exact ((List.pairwise_cons.mp hlater).1 f hf).notLater

/-- What a check does to the files: it puts nothing in place, or the file of a month that it
tried and that the record did not settle, with the record of it. -/
theorem turn_files (ht : t.Ordered) (hd : d.Recorded) :
    (∃ requests, (t.turn X a pid d).files = { t.files with requests := requests }) ∧
        delivered X (a.options t.force d.now) pid d.env t.files.installed?
          [d.now, previous d.now] = none ∨
      ∃ month ∈ [d.now, previous d.now], ∃ b requests, (t.turn X a pid d).files = { t.files with
          db := some b, record := some (some (recordText (label month))), requests := requests
          installs := (label month, b) :: t.files.installs } ∧
        delivered X (a.options t.force d.now) pid d.env t.files.installed?
          [d.now, previous d.now] = some (label month, b) ∧
        settled (a.options t.force d.now) t.files.installed? (label month) = none := by
  have hturn : (t.turn X a pid d).files =
      ((geoMachine X).run d.env (update X (a.options t.force d.now) pid) t.files).1 := by
    rw [GeoTool.turn, ht.running]
  obtain ⟨requests, hrun⟩ :=
    @run_update X (a.options t.force d.now) pid d.env t.files ht.temp
  have hnow : (a.options t.force d.now).now = d.now := rfl
  rw [month?_eq hd, hnow] at hrun
  cases hdel : delivered X (a.options t.force d.now) pid d.env t.files.installed?
      [d.now, previous d.now] with
  | none =>
    rw [hdel] at hrun
    exact Or.inl ⟨⟨requests, hturn.trans hrun⟩, rfl⟩
  | some f =>
    obtain ⟨m, b⟩ := f
    rw [hdel] at hrun
    obtain ⟨month, hmem, rfl, hset⟩ := delivered_some hdel
    refine Or.inr ⟨month, hmem, b, requests, ?_, rfl, hset⟩
    -- recording the month succeeds
    have hrec := hd.writable (label month)
    have hleft : ∀ old, (d.env.faults (label month)).recordLeft (label month) old =
        some (some (recordText (label month))) := by
      intro old
      unfold Faults.recording at hrec
      simp only [Bool.or_eq_false_iff, Option.isSome_eq_false_iff,
        Option.isNone_iff_eq_none] at hrec
      simp [Faults.recordLeft, hrec]
    rw [hturn, hrun, (run_recordMonth _ _).1, hleft]

theorem turn_rest (ht : t.Ordered) (hloop : a.looping = true) :
    (t.turn X a pid d).ended = none ∧ (t.turn X a pid d).force = false ∧
      ∀ n ∈ (t.turn X a pid d).slept, 6 * 3600 ≤ n := by
  rw [GeoTool.turn, ht.running]
  refine ⟨by simp only [hloop, if_true], rfl, ?_⟩
  simp only [hloop, if_true, List.forall_mem_cons]
  refine ⟨?_, ht.paused⟩
  generalize ((geoMachine X).run d.env (update X (a.options t.force d.now) pid) t.files).2 = r
  cases r <;> simp [pause]

/-- What a check puts in place is recorded, and of a later month than anything before. -/
theorem later_of_settled (ht : t.Ordered) (hd : d.Recorded) {month : ℤ × ℕ}
    (hmem : month ∈ [d.now, previous d.now])
    (hset : settled (a.options t.force d.now) t.files.installed? (label month) = none) :
    ∀ f ∈ t.files.installs, Earlier (recorded f.1) (recorded (label month)) := by
  intro f hf
  obtain ⟨h, hh, hle⟩ := ht.recorded hf
  have hforce : t.force = false := by
    by_contra hcon
    rw [ht.unforced (by simpa using hcon)] at hf
    cases hf
  rw [hh] at hset
  apply Earlier.trans_notLater hle
  exact earlier_of_settled hforce (isMonth_of_installed? hh)
    (label_tried hd.year hd.month hmem).1 hset

theorem installed?_recordText {s : GeoFiles} {month : ℤ × ℕ} {b : Bytes}
    (hdb : s.db = some b) (hrecord : s.record = some (some (recordText (label month))))
    (hmonth : isMonth (label month).toList = true) : s.installed? = some (label month) := by
  simp [GeoFiles.installed?, hdb, hrecord, monthOf_recordText, hmonth]

/-- **One check keeps the order.** -/
theorem GeoTool.Ordered.turn (ht : t.Ordered) (hloop : a.looping = true) (hd : d.Recorded) :
    (t.turn X a pid d).Ordered := by
  obtain ⟨hended, hforce, hpaused⟩ := @turn_rest X a pid t d ht hloop
  have hunforced : (t.turn X a pid d).force = true → (t.turn X a pid d).files.installs = [] := by
    intro h
    rw [hforce] at h
    cases h
  rcases @turn_files X a pid t d ht hd with ⟨⟨requests, hfiles⟩, -⟩ |
    ⟨month, hmem, b, requests, hfiles, -, hset⟩
  · -- nothing was put in place
    refine ⟨?_, hended, hpaused, ?_, ?_, ?_, hunforced⟩
    · rw [hfiles]
      exact ht.temp
    · rw [hfiles]
      exact ht.valid
    · rw [hfiles]
      exact ht.newest
    · rw [hfiles]
      exact ht.later
  · have hvalid := (label_tried hd.year hd.month hmem).1
    refine ⟨?_, hended, hpaused, ?_, ?_, ?_, hunforced⟩
    · rw [hfiles]
      exact ht.temp
    · rw [hfiles]
      exact List.forall_mem_cons.mpr ⟨hvalid, ht.valid⟩
    · intro f rest hf
      rw [hfiles] at hf ⊢
      cases hf
      exact installed?_recordText rfl rfl hvalid
    · rw [hfiles]
      exact List.pairwise_cons.mpr ⟨later_of_settled ht hd hmem hset, ht.later⟩

/-- The files of a check before are still in the history. -/
theorem turn_installs (ht : t.Ordered) (hd : d.Recorded) {f : String × Bytes}
    (hf : f ∈ t.files.installs) : f ∈ (t.turn X a pid d).files.installs := by
  rcases @turn_files X a pid t d ht hd with ⟨⟨requests, hfiles⟩, -⟩ |
    ⟨month, -, b, requests, hfiles, -, -⟩
  · rw [hfiles]
    exact hf
  · rw [hfiles]
    exact List.mem_cons_of_mem _ hf

/-- A check asks for months later than all that were put in place. -/
theorem turn_requests (ht : t.Ordered) (hd : d.Recorded) :
    ∃ asked, (t.turn X a pid d).files.requests = asked ++ t.files.requests ∧
      ∀ f ∈ t.files.installs, ∀ r ∈ asked, Earlier (recorded f.1) (recorded r.1) := by
  obtain ⟨asked, hreq, hall⟩ :=
    @requests_update X (a.options t.force d.now) pid d.env t.files ht.temp
  refine ⟨asked, ?_, ?_⟩
  · rw [GeoTool.turn, ht.running]
    exact hreq
  · intro f hf r hr
    obtain ⟨month, hmem, heq, hset⟩ := hall r hr
    rw [month?_eq hd, heq] at hset
    rw [heq]
    exact later_of_settled ht hd hmem hset f hf

/-- There is a database with a record that is not older than a month. -/
def GeoTool.Has (t : GeoTool) (month : ℤ × ℕ) : Prop :=
  ∃ h, t.files.installed? = some h ∧ NotLater month (recorded h)

/-- A month that is to be had on the day of a check is there after it. -/
theorem has_turn_of_attempt (ht : t.Ordered) (hd : d.Recorded) {b : Bytes}
    (hb : attempt X (a.options t.force d.now) pid d.env (label d.now) = .ok (some b)) :
    (t.turn X a pid d).Has d.now := by
  obtain ⟨hnow, hrecorded⟩ := label_tried hd.year hd.month (List.mem_cons_self (a := d.now))
  have hhead : (∃ h, settled (a.options t.force d.now) t.files.installed? (label d.now) = some h) ∨
      delivered X (a.options t.force d.now) pid d.env t.files.installed?
        [d.now, previous d.now] = some (label d.now, b) := delivered_head hb
  rcases hhead with ⟨h, hset⟩ | hdel
  · -- the record settles it, and with it the whole check
    have hnone : delivered X (a.options t.force d.now) pid d.env t.files.installed?
        [d.now, previous d.now] = none := by
      simp only [delivered, hset]
    rcases @turn_files X a pid t d ht hd with ⟨⟨requests, hfiles⟩, -⟩ | ⟨_, _, _, _, _, hdel, _⟩
    · unfold settled at hset
      split at hset
      · cases hset
      · obtain ⟨hh, hold⟩ := Option.filter_eq_some_iff.mp hset
        refine ⟨h, ?_, ?_⟩
        · rw [hfiles]
          exact hh
        · rw [notLater_iff_not_earlier, ← hrecorded,
            ← ltChars_iff_earlier (isMonth_of_installed? hh) hnow]
          simpa [notOlder] using hold
    · rw [hnone] at hdel
      cases hdel
  · rcases @turn_files X a pid t d ht hd with ⟨-, hnone⟩ |
      ⟨month, -, b', requests, hfiles, hdel', -⟩
    · rw [hnone] at hdel
      cases hdel
    · rw [hdel] at hdel'
      have hmonth : label d.now = label month := congrArg Prod.fst (Option.some.inj hdel')
      refine ⟨label d.now, ?_, ?_⟩
      · rw [hfiles, hmonth]
        exact installed?_recordText rfl rfl (hmonth ▸ hnow)
      · rw [hrecorded]
        exact .refl _

/-- A check that is not forced never goes back. -/
theorem has_turn (ht : t.Ordered) (hd : d.Recorded) (hforce : t.force = false) {month : ℤ × ℕ}
    (h : t.Has month) : (t.turn X a pid d).Has month := by
  obtain ⟨h, hh, hle⟩ := h
  rcases @turn_files X a pid t d ht hd with ⟨⟨requests, hfiles⟩, -⟩ |
    ⟨month', hmem, b, requests, hfiles, -, hset⟩
  · refine ⟨h, ?_, hle⟩
    rw [hfiles]
    exact hh
  · have hvalid := (label_tried hd.year hd.month hmem).1
    refine ⟨label month', ?_, ?_⟩
    · rw [hfiles]
      exact installed?_recordText rfl rfl hvalid
    · rw [hh] at hset
      apply hle.trans
      exact (earlier_of_settled hforce (isMonth_of_installed? hh) hvalid hset).notLater

end Turn

/-! ### A whole life -/

section Run

variable {X : GeoExt} {a : GeoArgs} {pid : ℕ}

theorem GeoTool.Ordered.run {t : GeoTool} (ht : t.Ordered) (hloop : a.looping = true)
    {days : List Day} (hdays : ∀ d ∈ days, d.Recorded) : (t.run X a pid days).Ordered := by
  induction days generalizing t with
  | nil => exact ht
  | cons d days ih =>
    obtain ⟨hd, hdays⟩ := List.forall_mem_cons.mp hdays
    exact ih (ht.turn hloop hd) hdays

theorem has_run {t : GeoTool} (ht : t.Ordered) (hloop : a.looping = true) {days : List Day}
    (hdays : ∀ d ∈ days, d.Recorded) (hforce : t.force = false) {month : ℤ × ℕ}
    (h : t.Has month) : (t.run X a pid days).Has month := by
  induction days generalizing t with
  | nil => exact h
  | cons d days ih =>
    obtain ⟨hd, hdays⟩ := List.forall_mem_cons.mp hdays
    exact ih (ht.turn hloop hd) hdays (turn_rest ht hloop).2.1 (has_turn ht hd hforce h)

/-- The checks from a moment on ask for months later than all that were in place then. -/
theorem run_requests {t : GeoTool} (ht : t.Ordered) (hloop : a.looping = true) {days : List Day}
    (hdays : ∀ d ∈ days, d.Recorded) :
    ∃ asked, (t.run X a pid days).files.requests = asked ++ t.files.requests ∧
      ∀ f ∈ t.files.installs, ∀ r ∈ asked, Earlier (recorded f.1) (recorded r.1) := by
  induction days generalizing t with
  | nil => exact ⟨[], rfl, fun _ _ => nofun⟩
  | cons d days ih =>
    obtain ⟨hd, hdays⟩ := List.forall_mem_cons.mp hdays
    obtain ⟨asked, hreq, hlater⟩ := @turn_requests X a pid t d ht hd
    have ht' : (t.turn X a pid d).Ordered := ht.turn hloop hd
    obtain ⟨more, hmore, hall⟩ := ih ht' hdays
    refine ⟨more ++ asked, ?_, ?_⟩
    · rw [List.append_assoc, ← hreq]
      exact hmore
    · intro f hf r hr
      rcases List.mem_append.mp hr with hr | hr
      · exact hall f (turn_installs ht hd hf) r hr
      · exact hlater f hf r hr

end Run

/-- **No month is asked for again once it, or a later one, is in place.**  A tool that loops goes
on for ever, and sleeps for six hours at least after each check.  Over any days on which its
record can be read and written, whatever else fails, whatever the server answers and however the
clock jumps: what it puts in place is in the order of the months; what it asks for after any
moment is of later months than all it had put in place by then; and if the month of the clock
was to be had on a day, then from that day on there is a database with a record that is not
older.  It may have been started with `--force`, with any files there. -/
theorem downloaded_once (X : GeoExt) (a : GeoArgs) (hloop : a.looping = true) (pid : ℕ)
    (db : Option Bytes) (record : Option (Option String)) (days : List Day)
    (hdays : ∀ d ∈ days, d.Recorded) :
    let t : List Day → GeoTool := (GeoTool.start a ⟨db, record, none, [], []⟩).run X a pid
    ((t days).ended = none ∧ ∀ n ∈ (t days).slept, 6 * 3600 ≤ n) ∧
      ((t days).files.installs.Pairwise fun f g => Earlier (recorded g.1) (recorded f.1)) ∧
      (∀ l₁ l₂, days = l₁ ++ l₂ →
        ∃ asked, (t days).files.requests = asked ++ (t l₁).files.requests ∧
          ∀ f ∈ (t l₁).files.installs, ∀ r ∈ asked, Earlier (recorded f.1) (recorded r.1)) ∧
      ∀ l₁ d l₂, days = l₁ ++ d :: l₂ →
        (∃ b, attempt X (a.options (t l₁).force d.now) pid d.env (label d.now) = .ok (some b)) →
        (t days).Has d.now := by
  intro t
  have hstart : (GeoTool.start a ⟨db, record, none, [], []⟩).Ordered := by
    refine ⟨rfl, rfl, ?_, ?_, ?_, List.Pairwise.nil, fun _ => rfl⟩
    · intro n hn
      cases hn
    · intro f hf
      cases hf
    · intro f rest hf
      cases hf
  have hordered : ∀ l, (∀ d ∈ l, d.Recorded) → (t l).Ordered := fun l hl => hstart.run hloop hl
  have hsplit : ∀ l₁ l₂, t (l₁ ++ l₂) = (t l₁).run X a pid l₂ :=
    fun l₁ l₂ => List.foldl_append ..
  have hend := hordered days hdays
  refine ⟨⟨hend.running, hend.paused⟩, hend.later, ?_, ?_⟩
  · rintro l₁ l₂ rfl
    obtain ⟨h₁, h₂⟩ := List.forall_mem_append.mp hdays
    rw [hsplit]
    exact run_requests (hordered l₁ h₁) hloop h₂
  · rintro l₁ d l₂ rfl ⟨b, hb⟩
    obtain ⟨h₁, h₂⟩ := List.forall_mem_append.mp hdays
    obtain ⟨hd, h₂⟩ := List.forall_mem_cons.mp h₂
    have ht := hordered l₁ h₁
    rw [hsplit]
    show (((t l₁).turn X a pid d).run X a pid l₂).Has d.now
    exact has_run (ht.turn hloop hd) hloop h₂ (turn_rest ht hloop).2.1
      (has_turn_of_attempt ht hd hb)

/-- A day of March 2026, with a server that has the months `ms`. -/
def Day.march (ms : List String) : Day where
  now := (2026, 3)
  env := .server fun month => if month ∈ ms then .answer 200 none [.ok [1]] else .answer 404 none []

theorem Day.march_recorded (ms : List String) : (Day.march ms).Recorded :=
  ⟨by simp [Day.march], by simp [Day.march], rfl, fun _ => rfl⟩

/-- A forced start with the month already there, then a day on which March is not published, and
one on which it is. -/
theorem downloaded_once_march :
    geoArgs ["--loop", "--force"] (.unset none (some "")) =
        .ok ⟨none, defaultBaseUrl, true, true⟩ ∧
      ((GeoTool.start ⟨none, defaultBaseUrl, true, true⟩
          ⟨some [0], some (some "2026-02\n"), none, [], []⟩).run .sample
        ⟨none, defaultBaseUrl, true, true⟩ 1
        [.march ["2026-02"], .march ["2026-02"], .march ["2026-02", "2026-03"],
          .march ["2026-03"]]).files.installs.map Prod.fst = ["2026-03", "2026-02"] ∧
      ((GeoTool.start ⟨none, defaultBaseUrl, true, true⟩
          ⟨some [0], some (some "2026-02\n"), none, [], []⟩).run .sample
        ⟨none, defaultBaseUrl, true, true⟩ 1
        [.march ["2026-02"], .march ["2026-02"], .march ["2026-02", "2026-03"],
          .march ["2026-03"]]).Has (2026, 3) := by
  have h := downloaded_once .sample ⟨none, defaultBaseUrl, true, true⟩ rfl 1 (some [0])
    (some (some "2026-02\n"))
    [.march ["2026-02"], .march ["2026-02"], .march ["2026-02", "2026-03"], .march ["2026-03"]]
    (by
      intro d hd
      simp only [List.mem_cons, List.not_mem_nil, or_false] at hd
      rcases hd with rfl | rfl | rfl | rfl <;> exact Day.march_recorded _)
  refine ⟨by decide, by decide +kernel, ?_⟩
  refine h.2.2.2 [.march ["2026-02"], .march ["2026-02"]] (.march ["2026-02", "2026-03"])
    [.march ["2026-03"]] rfl ⟨[1], ?_⟩
  decide +kernel

end Geo
end RustdeskServer
