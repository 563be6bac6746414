import RustdeskServer.RelaySelect

/-!
# The relay selector over time

What the operator and the files do to the selector: the routing table, the GeoIP database
and the locations are read again when their files change, and the console asks and
commands.  A file is known by its stamp, which is remembered with what was read from it.

One operation after another, each at one reading of the clock, makes the history of a
selector.

## Main definitions

* `Stamp`, `FileView` — a file as one tick of the timer sees it.
* `Selector`, `Selector.reload` — the selector with the stamps, and a tick.
* `SelInput`, `Selector.step` — the operations, and the selector after one.

## Main results

* `Selector.reload_frame` — what a tick leaves alone, and where a database comes from.
-/

namespace RustdeskServer

/-- The modification time and the length of a file. -/
structure Stamp where
  /-- When it was written. -/
  modified : ℕ
  /-- Its length. -/
  len : ℕ
  deriving DecidableEq

/-- A file at one moment: its stamp, if there is one, and what loading it gives. -/
structure FileView (α : Type) where
  /-- `std::fs::metadata`. -/
  stamp : Option Stamp
  /-- `load` or `open`. -/
  load : Except String α

/-- What a tick reads from a file at `path`. -/
def FileView.read {α : Type} (f : FileView α) (path : String) : Except String α :=
  match f.stamp with
  | some _ => f.load
  | none => .error ("cannot read " ++ path)

/-- The three files at one tick. -/
structure RelayFiles where
  /-- The routing table. -/
  routes : FileView RouteTable
  /-- The GeoIP database. -/
  db : FileView (IpAddr → Option Geo.Point)
  /-- The relay locations. -/
  locations : FileView (HashMap String Geo.Point)

/-- `RelaySelector` with the stamps of what was read.  The outer `none` is a file that was
never looked at. -/
structure Selector where
  /-- Everything but the stamps. -/
  sel : RelaySelector
  /-- `RouteState::seen`. -/
  routesSeen : Option (Option Stamp)
  /-- `GeoState::db_seen`. -/
  dbSeen : Option (Option Stamp)
  /-- `GeoState::loc_seen`. -/
  locSeen : Option (Option Stamp)

namespace Selector

/-- `reload_relay_routes`. -/
def reloadRelayRoutes (s : Selector) (f : FileView RouteTable) : Selector :=
  match s.sel.routes.path with
  | none => s
  | some path =>
    if s.routesSeen = some f.stamp then s
    else
      let s := { s with routesSeen := some f.stamp }
      match f.read path with
      | .ok table =>
        { s with
          sel := { s.sel with
            routes := { s.sel.routes with table := some table, error := none }
            pins := ∅ } }
      | .error err => { s with sel := { s.sel with routes := { s.sel.routes with error := some err } } }

/-- Whether a file is to be read: it has a path, and does not look as it did. -/
def changed {α : Type} (path : Option String) (seen : Option (Option Stamp)) (f : FileView α) :
    Bool :=
  path.isSome && decide (seen ≠ some f.stamp)

/-- The part of `reload_relay_geo` for the database: whether one was loaded. -/
def storeDb (s : Selector) (f : FileView (IpAddr → Option Geo.Point)) : Selector × Bool :=
  match s.sel.geo.dbPath with
  | none => (s, false)
  | some path =>
    if changed (some path) s.dbSeen f then
      let s := { s with dbSeen := some f.stamp }
      match f.read path with
      | .ok db => ({ s with sel := { s.sel with geo := { s.sel.geo with
          db := some db, dbError := none } } }, true)
      | .error err => ({ s with sel := { s.sel with geo := { s.sel.geo with
          dbError := some err } } }, false)
    else (s, false)

/-- The part of `reload_relay_geo` for the locations. -/
def storeLocations (s : Selector) (f : FileView (HashMap String Geo.Point)) : Selector × Bool :=
  match s.sel.geo.locPath with
  | none => (s, false)
  | some path =>
    if changed (some path) s.locSeen f then
      let s := { s with locSeen := some f.stamp }
      match f.read path with
      | .ok l => ({ s with sel := { s.sel with geo := { s.sel.geo with
          locations := some l, locError := none } } }, true)
      | .error err => ({ s with sel := { s.sel with geo := { s.sel.geo with
          locError := some err } } }, false)
    else (s, false)

/-- `reload_relay_geo`. -/
def reloadRelayGeo (s : Selector) (db : FileView (IpAddr → Option Geo.Point))
    (locations : FileView (HashMap String Geo.Point)) : Selector :=
  let d := s.storeDb db
  let l := d.1.storeLocations locations
  if d.2 || l.2 then { l.1 with sel := { l.1.sel with pins := ∅ } } else l.1

/-- `reload`. -/
def reload (s : Selector) (files : RelayFiles) : Selector :=
  (s.reloadRelayRoutes files.routes).reloadRelayGeo files.db files.locations

/-! ### What a tick leaves alone -/

/-- The database is as it was, or was loaded from the file. -/
def DbFrom (f : FileView (IpAddr → Option Geo.Point)) (before after : GeoState) : Prop :=
  after.db = before.db ∨ ∃ db, f.load = .ok db ∧ after.db = some db

theorem reloadRelayRoutes_frame (s : Selector) (f : FileView RouteTable) :
    ∃ routes pins, (s.reloadRelayRoutes f).sel = { s.sel with routes := routes, pins := pins } ∧
      (pins = s.sel.pins ∨ pins = ∅) := by
  unfold reloadRelayRoutes
  split
  · exact ⟨s.sel.routes, s.sel.pins, rfl, .inl rfl⟩
  · split
    · exact ⟨s.sel.routes, s.sel.pins, rfl, .inl rfl⟩
    · dsimp only
      split
      · exact ⟨_, ∅, rfl, .inr rfl⟩
      · exact ⟨_, s.sel.pins, rfl, .inl rfl⟩

theorem storeDb_frame (s : Selector) (f : FileView (IpAddr → Option Geo.Point)) :
    ∃ geo, (s.storeDb f).1.sel = { s.sel with geo := geo } ∧ DbFrom f s.sel.geo geo := by
  unfold storeDb
  split
  · exact ⟨_, rfl, .inl rfl⟩
  · split
    · dsimp only
      split
      · next db hread =>
        refine ⟨_, rfl, .inr ⟨db, ?_, rfl⟩⟩
        unfold FileView.read at hread
        split at hread
        · exact hread
        · cases hread
      · exact ⟨_, rfl, .inl rfl⟩
    · exact ⟨_, rfl, .inl rfl⟩

theorem storeLocations_frame (s : Selector) (f : FileView (HashMap String Geo.Point)) :
    ∃ geo, (s.storeLocations f).1.sel = { s.sel with geo := geo } ∧ geo.db = s.sel.geo.db := by
  unfold storeLocations
  split
  · exact ⟨_, rfl, rfl⟩
  · split
    · dsimp only
      split <;> exact ⟨_, rfl, rfl⟩
    · exact ⟨_, rfl, rfl⟩

/-- **A tick changes the tables and drops held choices, and nothing else.** -/
theorem reload_frame (s : Selector) (files : RelayFiles) :
    ∃ routes geo pins,
      (s.reload files).sel = { s.sel with routes := routes, geo := geo, pins := pins } ∧
        DbFrom files.db s.sel.geo geo ∧ (pins = s.sel.pins ∨ pins = ∅) := by
  obtain ⟨routes, pins, hroutes, hpins⟩ := reloadRelayRoutes_frame s files.routes
  obtain ⟨geo, hgeo, hdb⟩ := storeDb_frame (s.reloadRelayRoutes files.routes) files.db
  obtain ⟨geo', hgeo', hdb'⟩ := storeLocations_frame
    ((s.reloadRelayRoutes files.routes).storeDb files.db).1 files.locations
  rw [hgeo, hroutes] at hgeo' hdb'
  rw [hroutes] at hdb
  have hfrom : DbFrom files.db s.sel.geo geo' := by
    rw [DbFrom, hdb']
    exact hdb
  unfold reload reloadRelayGeo
  dsimp only
  split
  · exact ⟨routes, geo', ∅, by rw [hgeo'], hfrom, .inr rfl⟩
  · exact ⟨routes, geo', pins, by rw [hgeo'], hfrom, hpins⟩

end Selector

/-- A complete operation on the selector. -/
inductive SelInput
  /-- `pick`. -/
  | pick (pa pb : IpAddr) (commit : Bool)
  /-- `set_live`. -/
  | setLive (relays : List String)
  /-- `reload`. -/
  | reload (files : RelayFiles)
  /-- `console`. -/
  | console (e : RelaySelector.ConsoleEnv) (cmd : String)

/-- The selector after an operation at the time `x.1`. -/
def Selector.step (P : Platform) (s : Selector) (x : Instant × SelInput) : Selector :=
  match x.2 with
  | .pick pa pb commit => { s with sel := (s.sel.pick P x.1 pa pb commit).1 }
  | .setLive relays => { s with sel := s.sel.setLive relays }
  | .reload files => s.reload files
  | .console e cmd =>
    match s.sel.console P { e with now := x.1 } cmd with
    | some r => { s with sel := r.1 }
    | none => s

end RustdeskServer
