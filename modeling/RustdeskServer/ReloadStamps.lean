import RustdeskServer.Atomic.Watch
import RustdeskServer.RelayPins

/-!
# Reading the relay files by their stamps

The routing table, the GeoIP database and the relay locations are read when the selector
is configured, and again at every tick of a timer at which their files do not look as
they did.  A `Disk` is what one tick finds: each file is absent, or has a stamp and a
content, and the content decides whether it can be read.

Each of the three is a `Watch`.  Choices, console commands and changes of the relay list
happen between the ticks, and leave all three alone.

## Main definitions

* `Disk`, `Readers`, `Disk.view` — the files at a tick, and what reading them gives.
* `Selector.configure`, `DiskInput`, `Selector.run` — a selector from its start.
* `Selector.Clears` — some file that looks different is loaded.

## Main results

* `Selector.reload_watches` — what one tick does to the three files.
* `Selector.reload_by_stamp` — **what is in force is what reading every file at every tick
  would give**, and held choices are dropped exactly where a changed file was loaded.
-/

namespace RustdeskServer

open Atomic

/-! ### Files -/

/-- A file at a tick: its stamp and its content, if it is there. -/
abbrev OnDisk := Option (Stamp × Bytes)

/-- The three files at a tick. -/
structure Disk where
  /-- The routing table. -/
  routes : OnDisk
  /-- The GeoIP database. -/
  db : OnDisk
  /-- The relay locations. -/
  locations : OnDisk

/-- What the contents are read as: `RouteTable::load`, `GeoDb::open`, `Locations::load`. -/
structure Readers where
  /-- A routing table. -/
  routes : Bytes → Except String RouteTable
  /-- A database. -/
  db : Bytes → Except String (IpAddr → Option Geo.Point)
  /-- Locations. -/
  locations : Bytes → Except String (HashMap String Geo.Point)

section Files

variable {α : Type} (path : String) (read : Bytes → Except String α)

/-- A file, seen through its reader; what is not there is not loaded. -/
def OnDisk.view (f : OnDisk) : FileView α where
  stamp := f.map Prod.fst
  load := match f with
    | some (_, b) => read b
    | none => .error ""

/-- What a tick that reads gets. -/
def loadOf : Option Bytes → Except String α
  | some b => read b
  | none => .error ("cannot read " ++ path)

theorem read_view (f : OnDisk) : (f.view read).read path = loadOf path read (f.map Prod.snd) := by
  rcases f with _ | ⟨stamp, b⟩ <;> rfl

/-- A file is there and can be read. -/
def OnDisk.Good (f : OnDisk) : Prop := ∃ stamp b a, f = some (stamp, b) ∧ read b = .ok a

theorem exists_loadOf_iff (f : OnDisk) :
    (∃ a, loadOf path read (f.map Prod.snd) = .ok a) ↔ f.Good read := by
  rcases f with _ | ⟨stamp, b⟩
  · simp [loadOf, OnDisk.Good]
  · simp [loadOf, OnDisk.Good]

/-- What is kept of a file, after all its ticks, if it is read at each of them. -/
def keptOf (path : Option String) (fs : List OnDisk) : Watch Stamp α String :=
  match path with
  | none => ⟨⟨none, none⟩, none⟩
  | some p => .always (loadOf p read) fs

end Files

/-- What a tick finds, through the readers. -/
def Disk.view (R : Readers) (d : Disk) : RelayFiles :=
  ⟨d.routes.view R.routes, d.db.view R.db, d.locations.view R.locations⟩

/-- From one tick to the next, a file with the same stamp has the same content. -/
structure Disk.Stamped (d e : Disk) : Prop where
  /-- The routing table. -/
  routes : SameContent d.routes e.routes
  /-- The GeoIP database. -/
  db : SameContent d.db e.db
  /-- The relay locations. -/
  locations : SameContent d.locations e.locations

namespace Selector

/-! ### One tick -/

/-- The routing table with its file. -/
def routesWatch (s : Selector) : Watch Stamp RouteTable String :=
  ⟨⟨s.sel.routes.table, s.sel.routes.error⟩, s.routesSeen⟩

/-- The GeoIP database with its file. -/
def dbWatch (s : Selector) : Watch Stamp (IpAddr → Option Geo.Point) String :=
  ⟨⟨s.sel.geo.db, s.sel.geo.dbError⟩, s.dbSeen⟩

/-- The relay locations with their file. -/
def locWatch (s : Selector) : Watch Stamp (HashMap String Geo.Point) String :=
  ⟨⟨s.sel.geo.locations, s.sel.geo.locError⟩, s.locSeen⟩

/-- A tick for one file, if it is configured. -/
def follow {α : Type} (read : Bytes → Except String α) (path : Option String)
    (w : Watch Stamp α String) (f : OnDisk) : Watch Stamp α String :=
  match path with
  | none => w
  | some p => w.tick (loadOf p read) f

/-- A file is configured, does not look as it did, and is loaded. -/
def LoadsNew {α : Type} (read : Bytes → Except String α) (path : Option String)
    (seen : Option (Option Stamp)) (f : OnDisk) : Prop :=
  path.isSome = true ∧ seen ≠ some (f.map Prod.fst) ∧ f.Good read

variable (R : Readers)

/-- Some file is configured, does not look as it did, and is loaded. -/
def Clears (s : Selector) (d : Disk) : Prop :=
  LoadsNew R.routes s.sel.routes.path s.routesSeen d.routes ∨
    LoadsNew R.db s.sel.geo.dbPath s.dbSeen d.db ∨
      LoadsNew R.locations s.sel.geo.locPath s.locSeen d.locations

/-- What a tick does: to the three files, and to the held choices. -/
structure Ticked (s t : Selector) (d : Disk) : Prop where
  /-- The files are the ones that were configured. -/
  paths : t.sel.routes.path = s.sel.routes.path ∧ t.sel.geo.dbPath = s.sel.geo.dbPath ∧
    t.sel.geo.locPath = s.sel.geo.locPath
  /-- The routing table. -/
  routes : t.routesWatch = follow R.routes s.sel.routes.path s.routesWatch d.routes
  /-- The GeoIP database. -/
  db : t.dbWatch = follow R.db s.sel.geo.dbPath s.dbWatch d.db
  /-- The relay locations. -/
  locations : t.locWatch = follow R.locations s.sel.geo.locPath s.locWatch d.locations
  /-- A loaded file drops the held choices. -/
  cleared : s.Clears R d → t.sel.pins = ∅
  /-- Otherwise they stay. -/
  kept : ¬s.Clears R d → t.sel.pins = s.sel.pins

/-- The three ways a tick can go for one file: it is not read, it is loaded, or it is
reported. -/
theorem follow_cases {α : Type} (read : Bytes → Except String α) (path : Option String)
    (w : Watch Stamp α String) (f : OnDisk) :
    ((path = none ∨ w.seen = some (f.map Prod.fst)) ∧ follow read path w f = w ∧
        ¬LoadsNew read path w.seen f) ∨
      (∃ p a, path = some p ∧ w.seen ≠ some (f.map Prod.fst) ∧ (f.view read).read p = .ok a ∧
        follow read path w f = ⟨⟨some a, none⟩, some (f.map Prod.fst)⟩ ∧
        LoadsNew read path w.seen f) ∨
      ∃ p e, path = some p ∧ w.seen ≠ some (f.map Prod.fst) ∧ (f.view read).read p = .error e ∧
        follow read path w f = ⟨⟨w.value, some e⟩, some (f.map Prod.fst)⟩ ∧
        ¬LoadsNew read path w.seen f := by
  cases path with
  | none => exact Or.inl ⟨Or.inl rfl, rfl, fun h => by cases h.1⟩
  | some p =>
    by_cases hseen : w.seen = some (f.map Prod.fst)
    · exact Or.inl ⟨Or.inr hseen, if_pos hseen, fun h => h.2.1 hseen⟩
    · have hfollow : follow read (some p) w f =
          ⟨w.toCopy.reread (loadOf p read (f.map Prod.snd)), some (f.map Prod.fst)⟩ := if_neg hseen
      cases hload : loadOf p read (f.map Prod.snd) with
      | ok a =>
        rw [hload] at hfollow
        refine Or.inr (Or.inl ⟨p, a, rfl, hseen, (read_view p read f).trans hload, hfollow, rfl, hseen, ?_⟩)
        exact (exists_loadOf_iff p read f).mp ⟨a, hload⟩
      | error e =>
        rw [hload] at hfollow
        refine Or.inr (Or.inr ⟨p, e, rfl, hseen, (read_view p read f).trans hload, hfollow, ?_⟩)
        rintro ⟨-, -, hgood⟩
        obtain ⟨a, ha⟩ := (exists_loadOf_iff p read f).mpr hgood
        rw [hload] at ha
        cases ha

theorem changed_view {α : Type} {read : Bytes → Except String α} {p : String}
    {seen : Option (Option Stamp)} {f : OnDisk} :
    changed (some p) seen (f.view read) = true ↔ seen ≠ some (f.map Prod.fst) := by
  simp only [changed, Option.isSome_some, Bool.true_and, decide_eq_true_eq]
  rfl

variable {R} {s : Selector}

theorem reloadRelayRoutes_spec (f : OnDisk) :
    let t := s.reloadRelayRoutes (f.view R.routes)
    t.sel.geo = s.sel.geo ∧ t.dbSeen = s.dbSeen ∧ t.locSeen = s.locSeen ∧
      t.sel.routes.path = s.sel.routes.path ∧
      t.routesWatch = follow R.routes s.sel.routes.path s.routesWatch f ∧
      (LoadsNew R.routes s.sel.routes.path s.routesSeen f → t.sel.pins = ∅) ∧
      (¬LoadsNew R.routes s.sel.routes.path s.routesSeen f → t.sel.pins = s.sel.pins) := by
  rcases follow_cases R.routes s.sel.routes.path s.routesWatch f with
    ⟨hno, hfollow, hnew⟩ | ⟨p, a, hpath, hseen, hread, hfollow, hnew⟩ |
      ⟨p, e, hpath, hseen, hread, hfollow, hnew⟩
  · have hsame : s.reloadRelayRoutes (f.view R.routes) = s := by
      unfold reloadRelayRoutes
      rcases hno with hpath | hseen
      · rw [hpath]
      · split
        · rfl
        · exact if_pos hseen
    rw [hsame, hfollow]
    exact ⟨rfl, rfl, rfl, rfl, rfl, fun h => absurd h hnew, fun _ => rfl⟩
  · have hchanged : ¬s.routesSeen = some (f.view R.routes).stamp := hseen
    have hstep : s.reloadRelayRoutes (f.view R.routes) = { s with
        routesSeen := some (f.map Prod.fst)
        sel := { s.sel with
          routes := { s.sel.routes with table := some a, error := none }
          pins := ∅ } } := by
      simp only [reloadRelayRoutes, hpath, hread, if_neg hchanged]
      rfl
    rw [hstep, hfollow]
    exact ⟨rfl, rfl, rfl, rfl, rfl, fun _ => rfl, fun h => absurd hnew h⟩
  · have hchanged : ¬s.routesSeen = some (f.view R.routes).stamp := hseen
    have hstep : s.reloadRelayRoutes (f.view R.routes) = { s with
        routesSeen := some (f.map Prod.fst)
        sel := { s.sel with routes := { s.sel.routes with error := some e } } } := by
      simp only [reloadRelayRoutes, hpath, hread, if_neg hchanged]
      rfl
    rw [hstep, hfollow]
    exact ⟨rfl, rfl, rfl, rfl, rfl, fun h => absurd h hnew, fun _ => rfl⟩

theorem storeDb_spec (f : OnDisk) :
    let t := s.storeDb (f.view R.db)
    t.1.sel.routes = s.sel.routes ∧ t.1.routesSeen = s.routesSeen ∧ t.1.locWatch = s.locWatch ∧
      t.1.sel.geo.dbPath = s.sel.geo.dbPath ∧ t.1.sel.geo.locPath = s.sel.geo.locPath ∧
      t.1.dbWatch = follow R.db s.sel.geo.dbPath s.dbWatch f ∧ t.1.sel.pins = s.sel.pins ∧
      (t.2 = true ↔ LoadsNew R.db s.sel.geo.dbPath s.dbSeen f) := by
  rcases follow_cases R.db s.sel.geo.dbPath s.dbWatch f with
    ⟨hno, hfollow, hnew⟩ | ⟨p, a, hpath, hseen, hread, hfollow, hnew⟩ |
      ⟨p, e, hpath, hseen, hread, hfollow, hnew⟩
  · have hsame : s.storeDb (f.view R.db) = (s, false) := by
      unfold storeDb
      rcases hno with hpath | hseen
      · rw [hpath]
      · split
        · rfl
        · exact if_neg fun h => changed_view.mp h hseen
    rw [hsame, hfollow]
    exact ⟨rfl, rfl, rfl, rfl, rfl, rfl, rfl, iff_of_false (by simp) hnew⟩
  · have hchanged : changed (some p) s.dbSeen (f.view R.db) = true := changed_view.mpr hseen
    have hstep : s.storeDb (f.view R.db) = ({ s with
        dbSeen := some (f.map Prod.fst)
        sel := { s.sel with geo := { s.sel.geo with db := some a, dbError := none } } },
        true) := by
      simp only [storeDb, hpath, hread, if_pos hchanged]
      rfl
    rw [hstep, hfollow]
    exact ⟨rfl, rfl, rfl, rfl, rfl, rfl, rfl, iff_of_true rfl hnew⟩
  · have hchanged : changed (some p) s.dbSeen (f.view R.db) = true := changed_view.mpr hseen
    have hstep : s.storeDb (f.view R.db) = ({ s with
        dbSeen := some (f.map Prod.fst)
        sel := { s.sel with geo := { s.sel.geo with dbError := some e } } }, false) := by
      simp only [storeDb, hpath, hread, if_pos hchanged]
      rfl
    rw [hstep, hfollow]
    exact ⟨rfl, rfl, rfl, rfl, rfl, rfl, rfl, iff_of_false (by simp) hnew⟩

theorem storeLocations_spec (f : OnDisk) :
    let t := s.storeLocations (f.view R.locations)
    t.1.sel.routes = s.sel.routes ∧ t.1.routesSeen = s.routesSeen ∧ t.1.dbWatch = s.dbWatch ∧
      t.1.sel.geo.dbPath = s.sel.geo.dbPath ∧ t.1.sel.geo.locPath = s.sel.geo.locPath ∧
      t.1.locWatch = follow R.locations s.sel.geo.locPath s.locWatch f ∧
      t.1.sel.pins = s.sel.pins ∧
      (t.2 = true ↔ LoadsNew R.locations s.sel.geo.locPath s.locSeen f) := by
  rcases follow_cases R.locations s.sel.geo.locPath s.locWatch f with
    ⟨hno, hfollow, hnew⟩ | ⟨p, a, hpath, hseen, hread, hfollow, hnew⟩ |
      ⟨p, e, hpath, hseen, hread, hfollow, hnew⟩
  · have hsame : s.storeLocations (f.view R.locations) = (s, false) := by
      unfold storeLocations
      rcases hno with hpath | hseen
      · rw [hpath]
      · split
        · rfl
        · exact if_neg fun h => changed_view.mp h hseen
    rw [hsame, hfollow]
    exact ⟨rfl, rfl, rfl, rfl, rfl, rfl, rfl, iff_of_false (by simp) hnew⟩
  · have hchanged : changed (some p) s.locSeen (f.view R.locations) = true := changed_view.mpr hseen
    have hstep : s.storeLocations (f.view R.locations) = ({ s with
        locSeen := some (f.map Prod.fst)
        sel := { s.sel with geo := { s.sel.geo with locations := some a, locError := none } } },
        true) := by
      simp only [storeLocations, hpath, hread, if_pos hchanged]
      rfl
    rw [hstep, hfollow]
    exact ⟨rfl, rfl, rfl, rfl, rfl, rfl, rfl, iff_of_true rfl hnew⟩
  · have hchanged : changed (some p) s.locSeen (f.view R.locations) = true := changed_view.mpr hseen
    have hstep : s.storeLocations (f.view R.locations) = ({ s with
        locSeen := some (f.map Prod.fst)
        sel := { s.sel with geo := { s.sel.geo with locError := some e } } }, false) := by
      simp only [storeLocations, hpath, hread, if_pos hchanged]
      rfl
    rw [hstep, hfollow]
    exact ⟨rfl, rfl, rfl, rfl, rfl, rfl, rfl, iff_of_false (by simp) hnew⟩

theorem reloadRelayGeo_spec (db locations : OnDisk) :
    let t := s.reloadRelayGeo (db.view R.db) (locations.view R.locations)
    let new := LoadsNew R.db s.sel.geo.dbPath s.dbSeen db ∨
      LoadsNew R.locations s.sel.geo.locPath s.locSeen locations
    t.sel.routes = s.sel.routes ∧ t.routesSeen = s.routesSeen ∧
      t.sel.geo.dbPath = s.sel.geo.dbPath ∧ t.sel.geo.locPath = s.sel.geo.locPath ∧
      t.dbWatch = follow R.db s.sel.geo.dbPath s.dbWatch db ∧
      t.locWatch = follow R.locations s.sel.geo.locPath s.locWatch locations ∧
      (new → t.sel.pins = ∅) ∧ (¬new → t.sel.pins = s.sel.pins) := by
  intro t new
  obtain ⟨hroutes₁, hseen₁, hloc₁, hdbp₁, hlocp₁, hdb₁, hpins₁, hnew₁⟩ :=
    @storeDb_spec R s db
  obtain ⟨hroutes₂, hseen₂, hdb₂, hdbp₂, hlocp₂, hloc₂, hpins₂, hnew₂⟩ :=
    @storeLocations_spec R (s.storeDb (db.view R.db)).1 locations
  have hlocSeen : (s.storeDb (db.view R.db)).1.locSeen = s.locSeen :=
    congrArg Watch.seen hloc₁
  rw [hlocp₁, hloc₁] at hloc₂
  rw [hlocp₁, hlocSeen] at hnew₂
  have hiff : ((s.storeDb (db.view R.db)).2 ||
      ((s.storeDb (db.view R.db)).1.storeLocations (locations.view R.locations)).2) = true ↔
      new := by
    rw [Bool.or_eq_true, hnew₁, hnew₂]
  by_cases hnew : new
  · have ht : t = { ((s.storeDb (db.view R.db)).1.storeLocations (locations.view R.locations)).1 with
        sel := { ((s.storeDb (db.view R.db)).1.storeLocations
          (locations.view R.locations)).1.sel with pins := ∅ } } := if_pos (hiff.mpr hnew)
    rw [ht]
    exact ⟨hroutes₂.trans hroutes₁, hseen₂.trans hseen₁, hdbp₂.trans hdbp₁, hlocp₂.trans hlocp₁,
      hdb₂.trans hdb₁, hloc₂, fun _ => rfl, fun h => absurd hnew h⟩
  · have ht : t = ((s.storeDb (db.view R.db)).1.storeLocations (locations.view R.locations)).1 :=
      if_neg fun h => hnew (hiff.mp h)
    rw [ht]
    exact ⟨hroutes₂.trans hroutes₁, hseen₂.trans hseen₁, hdbp₂.trans hdbp₁, hlocp₂.trans hlocp₁,
      hdb₂.trans hdb₁, hloc₂, fun h => absurd h hnew, fun _ => hpins₂.trans hpins₁⟩

/-- What a tick does. -/
theorem ticked_reload (d : Disk) : s.Ticked R (s.reload (d.view R)) d := by
  obtain ⟨hgeo, hdbs, hlocs, hpath, hroutes, hclear, hkeep⟩ := @reloadRelayRoutes_spec R s d.routes
  obtain ⟨hroutes', hseen', hdbp, hlocp, hdb, hloc, hclear', hkeep'⟩ :=
    @reloadRelayGeo_spec R (s.reloadRelayRoutes (d.routes.view R.routes)) d.db d.locations
  have hdbw : (s.reloadRelayRoutes (d.routes.view R.routes)).dbWatch = s.dbWatch := by
    rw [dbWatch, hgeo, hdbs]
    rfl
  have hlocw : (s.reloadRelayRoutes (d.routes.view R.routes)).locWatch = s.locWatch := by
    rw [locWatch, hgeo, hlocs]
    rfl
  rw [hgeo, hdbs, hlocs] at hclear' hkeep'
  refine ⟨⟨?_, ?_, ?_⟩, ?_, ?_, ?_, ?_, ?_⟩
  · exact (congrArg RouteState.path hroutes').trans hpath
  · exact hdbp.trans (congrArg GeoState.dbPath hgeo)
  · exact hlocp.trans (congrArg GeoState.locPath hgeo)
  · rw [← hroutes]
    simp only [routesWatch]
    exact congrArg₂ (fun (r : RouteState) seen => (⟨⟨r.table, r.error⟩, seen⟩ : Watch _ _ _))
      hroutes' hseen'
  · rw [hgeo, hdbw] at hdb
    exact hdb
  · rw [hgeo, hlocw] at hloc
    exact hloc
  · intro hnew
    by_cases hgeoNew : LoadsNew R.db s.sel.geo.dbPath s.dbSeen d.db ∨
        LoadsNew R.locations s.sel.geo.locPath s.locSeen d.locations
    · exact hclear' hgeoNew
    · exact (hkeep' hgeoNew).trans (hclear (hnew.resolve_right hgeoNew))
  · intro hnew
    exact (hkeep' fun h => hnew (Or.inr h)).trans (hkeep fun h => hnew (Or.inl h))

variable (R) in
/-- The files of `configure`, once their paths are set. -/
def configure (s : Selector) (d : Disk) : Selector :=
  (s.reloadRelayGeo (d.db.view R.db) (d.locations.view R.locations)).reloadRelayRoutes
    (d.routes.view R.routes)

/-- The other order, at the start, comes to the same. -/
theorem ticked_configure (d : Disk) : s.Ticked R (s.configure R d) d := by
  obtain ⟨hroutes, hseen, hdbp, hlocp, hdb, hloc, hclear, hkeep⟩ :=
    @reloadRelayGeo_spec R s d.db d.locations
  obtain ⟨hgeo, hdbs, hlocs, hpath, hroutes', hclear', hkeep'⟩ := @reloadRelayRoutes_spec R
    (s.reloadRelayGeo (d.db.view R.db) (d.locations.view R.locations)) d.routes
  have hw : (s.reloadRelayGeo (d.db.view R.db) (d.locations.view R.locations)).routesWatch =
      s.routesWatch := by
    rw [routesWatch, hroutes, hseen]
    rfl
  rw [hroutes, hseen] at hclear' hkeep'
  refine ⟨⟨?_, ?_, ?_⟩, ?_, ?_, ?_, ?_, ?_⟩
  · exact hpath.trans (congrArg RouteState.path hroutes)
  · exact (congrArg GeoState.dbPath hgeo).trans hdbp
  · exact (congrArg GeoState.locPath hgeo).trans hlocp
  · rw [hroutes, hw] at hroutes'
    exact hroutes'
  · rw [← hdb]
    simp only [dbWatch]
    exact congrArg₂ (fun (g : GeoState) seen => (⟨⟨g.db, g.dbError⟩, seen⟩ : Watch _ _ _)) hgeo hdbs
  · rw [← hloc]
    simp only [locWatch]
    exact congrArg₂ (fun (g : GeoState) seen => (⟨⟨g.locations, g.locError⟩, seen⟩ : Watch _ _ _))
      hgeo hlocs
  · rintro (hnew | hnew)
    · exact hclear' hnew
    · by_cases hroutesNew : LoadsNew R.routes s.sel.routes.path s.routesSeen d.routes
      · exact hclear' hroutesNew
      · exact (hkeep' hroutesNew).trans (hclear hnew)
  · intro hnew
    exact (hkeep' fun h => hnew (Or.inl h)).trans (hkeep fun h => hnew (Or.inr h))

end Selector

/-! ### Runs -/

/-- What happens to a selector, with what each tick finds on the disk. -/
inductive DiskInput
  /-- `pick`. -/
  | pick (pa pb : IpAddr) (commit : Bool)
  /-- `set_live`. -/
  | setLive (relays : List String)
  /-- `console`. -/
  | console (e : RelaySelector.ConsoleEnv) (cmd : String)
  /-- A tick. -/
  | tick (d : Disk)

/-- The operation on the selector. -/
def DiskInput.toSel (R : Readers) : DiskInput → SelInput
  | .pick pa pb commit => .pick pa pb commit
  | .setLive relays => .setLive relays
  | .console e cmd => .console e cmd
  | .tick d => .reload (d.view R)

/-- The disk of a tick. -/
def DiskInput.disk? : DiskInput → Option Disk
  | .tick d => some d
  | _ => none

/-- The disks that the ticks of a run find. -/
def ticksOf (l : List (Instant × DiskInput)) : List Disk := l.filterMap fun x => x.2.disk?

namespace Selector

section Run

variable (P : Platform) (R : Readers)

/-- The selector after a run. -/
def run (s : Selector) (l : List (Instant × DiskInput)) : Selector :=
  l.foldl (fun s x => s.step P (x.1, x.2.toSel R)) s

/-- Nothing was read yet. -/
structure Fresh (s : Selector) : Prop where
  /-- The routing table. -/
  routes : s.routesWatch = ⟨⟨none, none⟩, none⟩
  /-- The GeoIP database. -/
  db : s.dbWatch = ⟨⟨none, none⟩, none⟩
  /-- The relay locations. -/
  locations : s.locWatch = ⟨⟨none, none⟩, none⟩

/-- The files of `s₀` are as reading each of them at all of `ds` leaves them. -/
structure InForce (s₀ : Selector) (ds : List Disk) (s : Selector) : Prop where
  /-- The files are the ones that were configured. -/
  paths : s.sel.routes.path = s₀.sel.routes.path ∧ s.sel.geo.dbPath = s₀.sel.geo.dbPath ∧
    s.sel.geo.locPath = s₀.sel.geo.locPath
  /-- The routing table. -/
  routes : s.routesWatch = keptOf R.routes s₀.sel.routes.path (ds.map Disk.routes)
  /-- The GeoIP database. -/
  db : s.dbWatch = keptOf R.db s₀.sel.geo.dbPath (ds.map Disk.db)
  /-- The relay locations. -/
  locations : s.locWatch = keptOf R.locations s₀.sel.geo.locPath (ds.map Disk.locations)

variable {P R}

theorem follow_keptOf {α : Type} {read : Bytes → Except String α} {path : Option String}
    {fs : List OnDisk} {f : OnDisk} (h : (fs ++ [f]).IsChain SameContent) :
    follow read path (keptOf read path fs) f = keptOf read path (fs ++ [f]) := by
  cases path with
  | none => rfl
  | some p => exact Watch.tick_always h

/-- A chain of disks is a chain for each of its files. -/
theorem isChain_map {g : Disk → OnDisk} (hg : ∀ d e : Disk, d.Stamped e → SameContent (g d) (g e))
    {ds : List Disk} {d : Disk} (h : (ds ++ [d]).IsChain Disk.Stamped) :
    (ds.map g ++ [g d]).IsChain SameContent := by
  rw [← List.map_singleton, ← List.map_append]
  exact List.isChain_map_of_isChain g hg h

theorem inForce_nil {s₀ : Selector} (h : s₀.Fresh) : s₀.InForce R [] s₀ := by
  have hnil : ∀ {α : Type} (read : Bytes → Except String α) (path : Option String),
      keptOf read path [] = ⟨⟨none, none⟩, none⟩ := by
    intro α read path
    cases path <;> rfl
  refine ⟨⟨rfl, rfl, rfl⟩, ?_, ?_, ?_⟩
  · rw [h.routes, List.map_nil, hnil]
  · rw [h.db, List.map_nil, hnil]
  · rw [h.locations, List.map_nil, hnil]

/-- A tick. -/
theorem InForce.ticked {s₀ s t : Selector} {ds : List Disk} {d : Disk} (h : s₀.InForce R ds s)
    (ht : s.Ticked R t d) (hds : (ds ++ [d]).IsChain Disk.Stamped) :
    s₀.InForce R (ds ++ [d]) t := by
  obtain ⟨hr, hd, hl⟩ := h.paths
  obtain ⟨hr', hd', hl'⟩ := ht.paths
  refine ⟨⟨hr'.trans hr, hd'.trans hd, hl'.trans hl⟩, ?_, ?_, ?_⟩
  · rw [ht.routes, h.routes, hr, List.map_append, List.map_singleton]
    exact follow_keptOf (isChain_map (fun d e h => h.routes) hds)
  · rw [ht.db, h.db, hd, List.map_append, List.map_singleton]
    exact follow_keptOf (isChain_map (fun d e h => h.db) hds)
  · rw [ht.locations, h.locations, hl, List.map_append, List.map_singleton]
    exact follow_keptOf (isChain_map (fun d e h => h.locations) hds)

/-- Whatever leaves the files alone. -/
theorem InForce.congr {s₀ s : Selector} {ds : List Disk} (h : s₀.InForce R ds s)
    {sel : RelaySelector} (hroutes : sel.routes = s.sel.routes) (hgeo : sel.geo = s.sel.geo) :
    s₀.InForce R ds { s with sel := sel } := by
  refine ⟨?_, ?_, ?_, ?_⟩
  · rw [hroutes, hgeo]
    exact h.paths
  · rw [← h.routes, routesWatch, hroutes]
    rfl
  · rw [← h.db, dbWatch, hgeo]
    rfl
  · rw [← h.locations, locWatch, hgeo]
    rfl

/-- A choice leaves the files alone. -/
theorem files_pick (s : RelaySelector) (now : Instant) (pa pb : IpAddr) (commit : Bool) :
    (s.pick P now pa pb commit).1.routes = s.routes ∧ (s.pick P now pa pb commit).1.geo = s.geo := by
  rcases RelaySelector.pick_state P s now pa pb commit with h | ⟨n, h⟩
  · rw [h]
    exact ⟨rfl, rfl⟩
  · obtain ⟨pins, hpins⟩ := RelaySelector.pinRelay_state
      { s with pins := s.pins.erase (RelaySelector.pinKey pa pb), rotation := n } now
      (RelaySelector.pinKey pa pb) (s.pick P now pa pb commit).2.relay
    rw [h, hpins]
    exact ⟨rfl, rfl⟩

/-- So does every console command. -/
theorem files_console {s : RelaySelector} {e : RelaySelector.ConsoleEnv} {cmd : String}
    {r : RelaySelector × String} (h : s.console P e cmd = some r) :
    r.1.routes = s.routes ∧ r.1.geo = s.geo := by
  unfold RelaySelector.console at h
  split at h
  · cases h
  · split at h
    · cases h
      exact ⟨rfl, rfl⟩
    · split at h
      · cases h
        exact ⟨rfl, rfl⟩
      · split at h
        · cases h
          exact ⟨rfl, rfl⟩
        · cases h

/-- Between the ticks. -/
theorem InForce.between {s₀ s : Selector} {ds : List Disk} (h : s₀.InForce R ds s) (now : Instant)
    {i : DiskInput} (hi : i.disk? = none) : s₀.InForce R ds (s.step P (now, i.toSel R)) := by
  cases i with
  | pick pa pb commit =>
    exact h.congr (files_pick s.sel now pa pb commit).1 (files_pick s.sel now pa pb commit).2
  | setLive relays => exact h.congr rfl rfl
  | console e cmd =>
    simp only [DiskInput.toSel, Selector.step]
    split
    · next r hr => exact h.congr (files_console hr).1 (files_console hr).2
    · exact h
  | tick d => cases hi

theorem run_append (s : Selector) (l₁ l₂ : List (Instant × DiskInput)) :
    s.run P R (l₁ ++ l₂) = (s.run P R l₁).run P R l₂ := List.foldl_append

theorem ticksOf_append (l₁ l₂ : List (Instant × DiskInput)) :
    ticksOf (l₁ ++ l₂) = ticksOf l₁ ++ ticksOf l₂ := List.filterMap_append

/-- Over a run. -/
theorem InForce.run {s₀ s : Selector} {ds : List Disk} (h : s₀.InForce R ds s)
    {l : List (Instant × DiskInput)} (hds : (ds ++ ticksOf l).IsChain Disk.Stamped) :
    s₀.InForce R (ds ++ ticksOf l) (s.run P R l) := by
  induction l generalizing s ds with
  | nil => simpa [ticksOf, Selector.run] using h
  | cons x l ih =>
    obtain ⟨now, i⟩ := x
    cases hi : i.disk? with
    | none =>
      have hticks : ticksOf ((now, i) :: l) = ticksOf l := List.filterMap_cons_none hi
      rw [hticks] at hds ⊢
      exact ih (h.between now hi) hds
    | some d =>
      have hticks : ticksOf ((now, i) :: l) = d :: ticksOf l := List.filterMap_cons_some hi
      rw [hticks, List.append_cons] at hds ⊢
      refine ih ?_ hds
      have heq : i = .tick d := by
        cases i <;> cases hi
        rfl
      subst heq
      exact h.ticked (ticked_reload d) (List.isChain_append.mp hds).1

/-! ### The statement -/

/-- A configured file that does not look as at the tick before, or is looked at for the first
time, is there and can be read. -/
def NewAndGood {α : Type} (read : Bytes → Except String α) (path : Option String)
    (prev : Option OnDisk) (f : OnDisk) : Prop :=
  path.isSome = true ∧ (∀ g ∈ prev, g.map Prod.fst ≠ f.map Prod.fst) ∧ f.Good read

variable (R) in
/-- Some file is new and good at a tick. -/
def LoadsAt (s₀ : Selector) (prev : Option Disk) (d : Disk) : Prop :=
  NewAndGood R.routes s₀.sel.routes.path (prev.map Disk.routes) d.routes ∨
    NewAndGood R.db s₀.sel.geo.dbPath (prev.map Disk.db) d.db ∨
      NewAndGood R.locations s₀.sel.geo.locPath (prev.map Disk.locations) d.locations

theorem loadsNew_keptOf {α : Type} {read : Bytes → Except String α} {path : Option String}
    {fs : List OnDisk} {f : OnDisk} :
    LoadsNew read path (keptOf read path fs).seen f ↔ NewAndGood read path fs.getLast? f := by
  cases path with
  | none => simp [LoadsNew, NewAndGood]
  | some p =>
    cases hlast : fs.getLast? with
    | none => simp [LoadsNew, NewAndGood, keptOf, Watch.always, hlast]
    | some g => simp [LoadsNew, NewAndGood, keptOf, Watch.always, hlast]

theorem InForce.clears_iff {s₀ s : Selector} {ds : List Disk} (h : s₀.InForce R ds s) (d : Disk) :
    s.Clears R d ↔ s₀.LoadsAt R ds.getLast? d := by
  obtain ⟨hr, hd, hl⟩ := h.paths
  have hseen : s.routesSeen = s.routesWatch.seen ∧ s.dbSeen = s.dbWatch.seen ∧
      s.locSeen = s.locWatch.seen := ⟨rfl, rfl, rfl⟩
  unfold Clears LoadsAt
  rw [hseen.1, hseen.2.1, hseen.2.2, h.routes, h.db, h.locations, hr, hd, hl, loadsNew_keptOf,
    loadsNew_keptOf, loadsNew_keptOf, List.getLast?_map, List.getLast?_map, List.getLast?_map]

/-- The report on a file that was read always is the one of the last tick. -/
theorem error_keptOf {α : Type} {read : Bytes → Except String α} {path : Option String}
    (fs : List OnDisk) (f : OnDisk) :
    (keptOf read path (fs ++ [f])).error.isSome = true ↔ path.isSome = true ∧ ¬f.Good read := by
  cases path with
  | none => simp [keptOf]
  | some p =>
    rw [keptOf, Watch.always_concat]
    simp only [Copy.error_reread, exists_loadOf_iff, Option.isSome_some, true_and]

/-- **Reading by stamp is reading always**, from the start of a selector, for every sequence
of ticks with anything between them, if from one tick to the next a file with the same stamp
has the same content.  The routing table, the database and the locations in force are the
last good versions among the ticks, each with the report on its last tick: there is one
exactly when the file is absent or cannot be read there.  The start and every tick drop the
held choices if a file that changed since the tick before, or that was never looked at, is
loaded, and leave them alone otherwise. -/
theorem reload_by_stamp (P : Platform) (R : Readers) (s₀ : Selector) (hfresh : s₀.Fresh)
    (d₀ : Disk) (l : List (Instant × DiskInput))
    (hds : (d₀ :: ticksOf l).IsChain Disk.Stamped) :
    let ds := d₀ :: ticksOf l
    let s := (s₀.configure R d₀).run P R l
    let last := ds.getLast (by simp)
    s₀.InForce R ds s ∧
      ((s.sel.routes.error.isSome = true ↔
          s₀.sel.routes.path.isSome = true ∧ ¬last.routes.Good R.routes) ∧
        (s.sel.geo.dbError.isSome = true ↔
          s₀.sel.geo.dbPath.isSome = true ∧ ¬last.db.Good R.db) ∧
        (s.sel.geo.locError.isSome = true ↔
          s₀.sel.geo.locPath.isSome = true ∧ ¬last.locations.Good R.locations)) ∧
      ((s₀.LoadsAt R none d₀ → (s₀.configure R d₀).sel.pins = ∅) ∧
        (¬s₀.LoadsAt R none d₀ → (s₀.configure R d₀).sel.pins = s₀.sel.pins)) ∧
      ∀ l₁ now d l₂, l = l₁ ++ (now, .tick d) :: l₂ →
        let before := (s₀.configure R d₀).run P R l₁
        let after := (s₀.configure R d₀).run P R (l₁ ++ [(now, .tick d)])
        (s₀.LoadsAt R (d₀ :: ticksOf l₁).getLast? d → after.sel.pins = ∅) ∧
          (¬s₀.LoadsAt R (d₀ :: ticksOf l₁).getLast? d → after.sel.pins = before.sel.pins) := by
  intro ds s last
  have hinit := inForce_nil (R := R) hfresh
  have hstart : s₀.InForce R [d₀] (s₀.configure R d₀) :=
    hinit.ticked (ticked_configure d₀) (List.isChain_singleton d₀)
  have hforce : s₀.InForce R ds s := hstart.run hds
  refine ⟨hforce, ?_, ?_, ?_⟩
  · -- the reports are those of the last tick
    have hlast : ds = ds.dropLast ++ [last] := (List.dropLast_append_getLast _).symm
    have hroutes := congrArg (fun w => w.toCopy.error) hforce.routes
    have hdb := congrArg (fun w => w.toCopy.error) hforce.db
    have hloc := congrArg (fun w => w.toCopy.error) hforce.locations
    rw [hlast, List.map_append, List.map_singleton] at hroutes hdb hloc
    refine ⟨?_, ?_, ?_⟩
    · rw [show s.sel.routes.error = _ from hroutes]
      exact error_keptOf _ _
    · rw [show s.sel.geo.dbError = _ from hdb]
      exact error_keptOf _ _
    · rw [show s.sel.geo.locError = _ from hloc]
      exact error_keptOf _ _
  · have hticked := ticked_configure (R := R) (s := s₀) d₀
    have hiff := hinit.clears_iff d₀
    exact ⟨fun h => hticked.cleared (hiff.mpr h), fun h => hticked.kept fun h' => h (hiff.mp h')⟩
  · rintro l₁ now d l₂ rfl before after
    have hchain : ([d₀] ++ ticksOf l₁).IsChain Disk.Stamped := by
      rw [ticksOf_append, ← List.cons_append] at hds
      exact (List.isChain_append.mp hds).1
    have hbefore : s₀.InForce R (d₀ :: ticksOf l₁) before := hstart.run hchain
    have hafter : after = before.reload (d.view R) := run_append _ l₁ _
    have hticked := ticked_reload (R := R) (s := before) d
    have hiff := hbefore.clears_iff d
    rw [hafter]
    exact ⟨fun h => hticked.cleared (hiff.mpr h), fun h => hticked.kept fun h' => h (hiff.mp h')⟩

end Run

/-- A selector with a routing file only. -/
def withRoutes : Selector where
  sel := { RelaySelector.ofLive ["a", "b"] with routes := ⟨some "routes", none, none⟩ }
  routesSeen := none
  dbSeen := none
  locSeen := none

/-- Readers that read every content but the empty one. -/
def sampleReaders : Readers where
  routes := fun b => if b = [] then .error "empty" else .ok ⟨[]⟩
  db := fun _ => .error ""
  locations := fun _ => .error ""

/-- A routing file on the disk. -/
def diskOf (routes : OnDisk) : Disk := ⟨routes, none, none⟩

/-- A good table, a broken one, none, and the good one again. -/
def editedTable : List (Instant × DiskInput) :=
  [(1, .tick (diskOf (some (⟨1, 1⟩, [1])))), (2, .tick (diskOf (some (⟨2, 0⟩, [])))),
    (3, .tick (diskOf none)), (4, .tick (diskOf (some (⟨1, 1⟩, [1]))))]

theorem reload_by_stamp_edited :
    let s := (withRoutes.configure sampleReaders (diskOf none)).run .plain sampleReaders editedTable
    s.routesWatch = ⟨⟨some ⟨[]⟩, none⟩, some (some ⟨1, 1⟩)⟩ ∧ ¬s.sel.routes.error.isSome = true := by
  have hstamped : ∀ f g : OnDisk, SameContent f g → (diskOf f).Stamped (diskOf g) :=
    fun f g h => ⟨h, fun _ => rfl, fun _ => rfl⟩
  have hchain : (diskOf none :: ticksOf editedTable).IsChain Disk.Stamped := by
    refine .cons_cons (hstamped _ _ ?_) (.cons_cons (hstamped _ _ ?_) (.cons_cons (hstamped _ _ ?_)
      (.cons_cons (hstamped _ _ ?_) (.singleton _))))
    all_goals
      intro h
      simp at h
  obtain ⟨hforce, ⟨herror, -⟩, -⟩ := reload_by_stamp .plain sampleReaders withRoutes
    ⟨rfl, rfl, rfl⟩ (diskOf none) editedTable hchain
  refine ⟨hforce.routes, ?_⟩
  intro h
  exact (herror.mp h).2 ⟨⟨1, 1⟩, [1], ⟨[]⟩, rfl, rfl⟩

end Selector

end RustdeskServer
