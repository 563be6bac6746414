import Mathlib.Algebra.Order.Field.Rat
import RustdeskServer.Net
import RustdeskServer.Plain.Binary64
import RustdeskServer.RelayList

/-!
# Choosing a relay

`RelaySelector`: the relays that answer, and how one of them is picked for a session.  A
relay the operator prefers wins; a choice already made for the same two addresses is held
for a while; otherwise the routing table and the relays' locations say what each relay
costs from the two ends, and where nothing is known the relays take turns.

Costs are rationals.  What is computed with them is rounded: to an `f64` in the source, and
not at all where costs are exact.  A cost map is what `get` answers for a relay.

## Main definitions

* `Costs`, `chooseFrom` — the cheapest relay of a list.
* `RelaySelector`, `RelaySelector.pick` — the state and the choice.
* `RelaySelector.useRelayCommand`, `RelaySelector.console` — the console commands of this
  part.

## Main results

* `console_cases` — only `use-relay` changes the selector.
* `pick_dry`, `live_console` — a dry run changes nothing, and no command of this part
  changes the list of relays that answer.
-/

namespace RustdeskServer

/-! ### Costs -/

/-- `relay_geo::Point`: a position on the globe, in degrees. -/
structure Geo.Point where
  /-- Latitude. -/
  lat : ℚ
  /-- Longitude. -/
  lon : ℚ
  deriving DecidableEq

/-- What the text and distance code takes from outside. -/
structure Platform extends Unicode where
  /-- Rounding of a cost that is computed. -/
  round : ℚ → ℚ
  /-- `distance_km`. -/
  distanceKm : Geo.Point → Geo.Point → ℚ
  /-- `str::parse::<IpAddr>`. -/
  parseIp : String → Option IpAddr
  /-- `Display` for a cost. -/
  showCost : ℚ → String
  /-- `{:.2}` for a coordinate. -/
  showCoord : ℚ → String

/-- A cost map, by the normalized name of the relay, in milliseconds. -/
abbrev Costs := String → Option ℚ

/-- `UNLISTED_COST_MS`. -/
def UNLISTED_COST_MS : ℚ := 1000

/-- `KM_PER_MS`. -/
def KM_PER_MS : ℚ := 50

/-- `Choice`. -/
structure Choice where
  /-- The relay, as configured. -/
  relay : String
  /-- Its total. -/
  costMs : ℚ
  /-- Every relay with its total. -/
  costs : List (String × ℚ)

/-- `sum`.  The first number is added to zero, which does not change it. -/
def sumCosts (round : ℚ → ℚ) : List ℚ → ℚ
  | [] => 0
  | x :: xs => xs.foldl (fun sum y => round (sum + y)) x

/-- The totals of `choose_from`: for each relay the sum over the known ends. -/
def totals (round : ℚ → ℚ) (U : Unicode) (healthy : List String) (sides : List Costs) :
    List (String × ℚ) :=
  healthy.map fun relay =>
    (relay, sumCosts round (sides.map fun s => (s (normalize U relay)).getD UNLISTED_COST_MS))

/-- The loop of `choose_from`: the best so far, against the rest. -/
def cheapest : String × ℚ → List (String × ℚ) → String × ℚ
  | best, [] => best
  | best, x :: xs => cheapest (if x.2 < best.2 then x else best) xs

/-- `choose_from`. -/
def chooseFrom (round : ℚ → ℚ) (U : Unicode) (healthy : List String) (sides : List Costs) :
    Option Choice :=
  if sides.isEmpty then none
  else match totals round U healthy sides with
    | [] => none
    | first :: rest =>
      let best := cheapest first rest
      some ⟨best.1, best.2, first :: rest⟩

/-! ### State -/

/-- `Rule`: a client network, and what each relay costs from it. -/
structure Rule where
  /-- The network. -/
  net : IpNetwork
  /-- By normalized relay. -/
  costs : HashMap String ℚ

/-- `RouteTable`: the rules, longest prefix first. -/
structure RouteTable where
  /-- The rules. -/
  rules : List Rule

/-- `RouteTable::costs_for`. -/
def RouteTable.costsFor (t : RouteTable) (ip : IpAddr) : Option Costs :=
  (t.rules.find? fun r => r.net.contains ip.toCanonical).map fun r relay => r.costs.lookup relay

/-- `RouteState`, without the stamp of the file. -/
structure RouteState where
  /-- The file. -/
  path : Option String
  /-- The table in force. -/
  table : Option RouteTable
  /-- Why the file was not read. -/
  error : Option String

/-- `GeoState`, without the stamps of the files. -/
structure GeoState where
  /-- The file of the database. -/
  dbPath : Option String
  /-- `GeoDb::locate` of the database in force. -/
  db : Option (IpAddr → Option Geo.Point)
  /-- Why the database was not read. -/
  dbError : Option String
  /-- The file of the locations. -/
  locPath : Option String
  /-- `Locations`: where each relay is, by normalized name. -/
  locations : Option (HashMap String Geo.Point)
  /-- Why the locations were not read. -/
  locError : Option String

/-- `PreferredRelay`, with the content of its file. -/
structure PreferredRelay where
  /-- The relay for every new session. -/
  relay : Option String
  /-- The file that remembers it. -/
  path : String
  /-- What that file holds. -/
  file : Option String

/-- `RelayPin`. -/
structure RelayPin where
  /-- The relay. -/
  relay : String
  /-- When it expires. -/
  untilTime : Instant
  deriving DecidableEq

/-- `RelaySelector`, with the counter and the setting that are global in the source. -/
structure RelaySelector where
  /-- The relays that answer. -/
  live : List String
  /-- The routing table. -/
  routes : RouteState
  /-- The choices held, by the two addresses in order. -/
  pins : HashMap (IpAddr × IpAddr) RelayPin
  /-- The operator's choice. -/
  preferred : PreferredRelay
  /-- The GeoIP database and the locations. -/
  geo : GeoState
  /-- `ROTATION_RELAY_SERVER`, a `usize`. -/
  rotation : ℕ
  /-- `RELAY_PIN_TTL_MS`. -/
  pinTtlMs : ℕ

/-- The instance that concrete runs use: they parse no address and print no number. -/
def Platform.plain : Platform where
  toUnicode := .ascii
  round := Plain.Binary64.round
  distanceKm := fun _ _ => 0
  parseIp := fun _ => none
  showCost := fun _ => ""
  showCoord := fun _ => ""

/-- A selector with nothing configured but a relay list. -/
def RelaySelector.ofLive (live : List String) : RelaySelector where
  live := live
  routes := ⟨none, none, none⟩
  pins := ∅
  preferred := ⟨none, "relay_preferred", none⟩
  geo := ⟨none, none, none, none, none, none⟩
  rotation := 0
  pinTtlMs := 30000

/-- `MAX_RELAY_PINS`. -/
def MAX_RELAY_PINS : ℕ := 4096

/-! ### The choice -/

/-- Why a relay was picked. -/
inductive PickReason
  /-- There is none. -/
  | noRelay
  /-- There is one. -/
  | onlyRelay
  /-- The operator chose it. -/
  | preferred
  /-- It was chosen before. -/
  | pinned
  /-- The routing table knows the ends. -/
  | routes
  /-- Their locations are known. -/
  | geo
  /-- One and the other. -/
  | routesGeo
  /-- It was its turn. -/
  | roundRobin
  deriving DecidableEq

/-- The words of the source. -/
def PickReason.text : PickReason → String
  | .noRelay => "no relay configured"
  | .onlyRelay => "only relay"
  | .preferred => "preferred"
  | .pinned => "pinned"
  | .routes => "routes"
  | .geo => "geo"
  | .routesGeo => "routes+geo"
  | .roundRobin => "round-robin"

/-- `RelayPick`. -/
structure RelayPick where
  /-- The relay. -/
  relay : String
  /-- Why. -/
  reason : PickReason
  /-- The totals, when they decided. -/
  costs : List (String × ℚ)
  deriving DecidableEq

/-- Where a cost map came from. -/
inductive CostSource
  /-- The routing table. -/
  | routes
  /-- The locations. -/
  | geo
  deriving DecidableEq

namespace RelaySelector

section Pick

variable (P : Platform)

/-- `locate`. -/
def locate (s : RelaySelector) (ip : IpAddr) : Option Geo.Point := do
  let _ ← s.geo.locations
  let db ← s.geo.db
  db ip

/-- `side_costs`. -/
def sideCosts (s : RelaySelector) (ip : IpAddr) : Option (Costs × CostSource) :=
  match s.routes.table.bind fun t => t.costsFor ip with
  | some costs => some (costs, .routes)
  | none => do
    let at_ ← s.locate ip
    let locations ← s.geo.locations
    some (fun relay => (locations.lookup relay).map fun p =>
      P.round (P.distanceKm at_ p / KM_PER_MS), .geo)

/-- The key of a pin: the two ends, in a fixed order. -/
def pinKey (pa pb : IpAddr) : IpAddr × IpAddr :=
  let a := pa.toCanonical
  let b := pb.toCanonical
  if a.le b then (a, b) else (b, a)

/-- `pinned_relay`. -/
def pinnedRelay (s : RelaySelector) (now : Instant) (key : IpAddr × IpAddr) :
    RelaySelector × Option String :=
  match s.pins.lookup key with
  | some p =>
    if p.untilTime > now ∧ p.relay ∈ s.live then (s, some p.relay)
    else ({ s with pins := s.pins.erase key }, none)
  | none => (s, none)

/-- `pin_relay`. -/
def pinRelay (s : RelaySelector) (now : Instant) (key : IpAddr × IpAddr) (relay : String) :
    RelaySelector :=
  if s.pinTtlMs = 0 then s
  else
    let pins :=
      if MAX_RELAY_PINS ≤ s.pins.entries.length then
        let kept := s.pins.retain fun _ p => decide (p.untilTime > now)
        if MAX_RELAY_PINS ≤ kept.entries.length then ∅ else kept
      else s.pins
    { s with pins := pins.insert key ⟨relay, now + s.pinTtlMs⟩ }

/-- `pick` from the point where no choice is held: by cost, or in turn. -/
def pickFresh (s : RelaySelector) (pa pb : IpAddr) (commit : Bool) : RelaySelector × RelayPick :=
  let known := [pa, pb].filterMap (s.sideCosts P)
  match chooseFrom P.round P.toUnicode s.live (known.map Prod.fst) with
  | some c =>
    let reason :=
      if known.all fun k => k.2 = .routes then .routes
      else if known.all fun k => k.2 = .geo then .geo
      else .routesGeo
    (s, ⟨c.relay, reason, c.costs⟩)
  | none =>
    (if commit then { s with rotation := (s.rotation + 1) % 2 ^ 64 } else s,
      ⟨s.live.getD (s.rotation % s.live.length) "", .roundRobin, []⟩)

/-- `pick` when more than one relay answers and the preferred one does not. -/
def pickAmong (s : RelaySelector) (now : Instant) (pa pb : IpAddr) (commit : Bool) :
    RelaySelector × RelayPick :=
  if commit then
    match s.pinnedRelay now (pinKey pa pb) with
    | (s, some relay) => (s, ⟨relay, .pinned, []⟩)
    | (s, none) =>
      let p := s.pickFresh P pa pb true
      (p.1.pinRelay now (pinKey pa pb) p.2.relay, p.2)
  else s.pickFresh P pa pb false

/-- `pick`. -/
def pick (s : RelaySelector) (now : Instant) (pa pb : IpAddr) (commit : Bool) :
    RelaySelector × RelayPick :=
  match s.live with
  | [] => (s, ⟨"", .noRelay, []⟩)
  | [relay] => (s, ⟨relay, .onlyRelay, []⟩)
  | _ =>
    match s.preferred.relay with
    | some want =>
      match s.live.find? fun r => normalize P.toUnicode r = normalize P.toUnicode want with
      | some relay => (s, ⟨relay, .preferred, []⟩)
      | none => s.pickAmong P now pa pb commit
    | none => s.pickAmong P now pa pb commit

end Pick

/-! ### Console commands -/

/-- What reaches a console command from outside. -/
structure ConsoleEnv where
  /-- `Instant::now`. -/
  now : Instant
  /-- `remove_file` fails, not because there is no file. -/
  removeFails : Bool
  /-- `fs::write` fails, with this error. -/
  writeFails : Option String
  /-- The wall-clock time of an instant, as `to_rfc3339_opts` writes it. -/
  isoTime : Instant → String

/-- A moment at which the files can be written. -/
def ConsoleEnv.ok (now : Instant) : ConsoleEnv := ⟨now, false, none, fun _ => ""⟩

variable (P : Platform)

/-- `use_relay_command`. -/
def useRelayCommand (s : RelaySelector) (e : ConsoleEnv) (arg : Option String) :
    RelaySelector × String :=
  let r : PreferredRelay × String := match arg with
    | none =>
      (s.preferred, match s.preferred.relay with
        | none => "none: relays are chosen automatically\n"
        | some r =>
          let up := s.live.any fun l => normalize P.toUnicode l = normalize P.toUnicode r
          r ++ " (" ++ (if up then "answering, in use for every new session"
            else "NOT answering, the other relays are being used") ++ ")\n")
    | some want =>
      if want = "auto" then
        let removed := s.preferred.file.isNone || !e.removeFails
        ({ s.preferred with
            relay := none
            file := if removed then none else s.preferred.file },
          "relays are chosen automatically again\n" ++
            if removed then ""
            else "warning: could not delete " ++ s.preferred.path ++
              ", the choice will come back after a restart\n")
      else match s.live.find? fun r => normalize P.toUnicode r = normalize P.toUnicode want with
        | none =>
          (s.preferred, want ++ " is not one of the answering relays:\n" ++
            Text.lines (s.live.map fun r => "  " ++ r) ++ "nothing changed\n")
        | some relay =>
          ({ s.preferred with
              relay := some relay
              file := if e.writeFails.isSome then s.preferred.file else some (relay ++ "\n") },
            "every new session now uses " ++ relay ++ "\n" ++
              match e.writeFails with
              | none => ""
              | some err => "warning: could not save to " ++ s.preferred.path ++ ": " ++ err ++
                  "; the choice is lost on restart\n")
  -- held choices were made before this one, also when nothing was chosen
  ({ s with preferred := r.1, pins := ∅ }, r.2)

/-- The answer of `test-relay`. -/
def testRelay (s : RelaySelector) (e : ConsoleEnv) (first second : String) : String :=
  match P.parseIp first, P.parseIp second with
  | some a, some b =>
    let pick := (s.pick P e.now a b false).2
    Text.lines
      (("relay: " ++ pick.relay ++ " (" ++ pick.reason.text ++ ")") ::
        [a, b].filterMap (fun ip => (s.locate ip).map fun p =>
          "located " ++ ip.toText ++ ": " ++ P.showCoord p.lat ++ "," ++ P.showCoord p.lon) ++
        pick.costs.map fun c => c.1 ++ "=" ++ P.showCost c.2)
  | _, _ => Text.line "usage: test-relay <ip1> [<ip2>]"

/-- How a file and what was read from it are reported. -/
def fileReport (loaded : Option String) (path error : Option String) : String :=
  match path, loaded, error with
  | none, _, _ => "not configured"
  | some p, some what, none => p ++ " (" ++ what ++ ")"
  | some p, some what, some e =>
    p ++ " (" ++ (if what = "loaded" then "" else what ++ "; ") ++ "previous kept: " ++ e ++ ")"
  | some p, none, e => p ++ " (NOT loaded: " ++ e.getD "" ++ ")"

/-- The answer of `relay-routes`. -/
def relayRoutesReport (s : RelaySelector) : String :=
  Text.lines <|
    (match s.routes.path with
      | none => ["no routing table configured (RELAY_ROUTES)"]
      | some path =>
        ["file: " ++ path, "routes: " ++ toString ((s.routes.table.map fun t => t.rules.length).getD 0)] ++
          (s.routes.error.map fun err => "last error: " ++ err).toList) ++
    (match s.geo.dbPath, s.geo.locPath with
      | none, none => ["no geo routing configured (GEO_DB, RELAY_LOCATIONS)"]
      | db, loc =>
        ["geo database: " ++ fileReport (s.geo.db.map fun _ => "loaded") db s.geo.dbError,
          "relay locations: " ++ fileReport
            (s.geo.locations.map fun l => toString l.entries.length ++ " relays") loc
            s.geo.locError]) ++
    (match s.geo.locations with
      | none => []
      | some l =>
        let missing := s.live.filter fun r => (l.lookup (normalize P.toUnicode r)).isNone
        if missing.isEmpty then []
        else ["WARNING: no location for " ++ ", ".intercalate missing ++
          ": treated as very far away"]) ++
    ["pin ttl: " ++ toString (s.pinTtlMs / 1000) ++ "s, held: " ++ toString s.pins.entries.length]

/-- `console`: the commands this part owns, or `none` for any other command. -/
def console (s : RelaySelector) (e : ConsoleEnv) (cmd : String) : Option (RelaySelector × String) :=
  match Text.split ' ' (Text.trim cmd) with
  | [] => none
  | name :: args =>
    if name = "test-relay" ∨ name = "tr" then
      some (s, match args with
        | [] => ""
        | first :: rest => s.testRelay P e first (rest.headD first))
    else if name = "use-relay" ∨ name = "ur" then some (s.useRelayCommand P e args.head?)
    else if name = "relay-routes" ∨ name = "rr" then some (s, s.relayRoutesReport P)
    else none

/-- `set_live`. -/
def setLive (s : RelaySelector) (relays : List String) : RelaySelector := { s with live := relays }

/-! ### What stays -/

/-- **A dry run changes nothing.** -/
theorem pick_dry (s : RelaySelector) (now : Instant) (pa pb : IpAddr) :
    (s.pick P now pa pb false).1 = s := by
  have hfresh : (s.pickFresh P pa pb false).1 = s := by
    unfold pickFresh
    dsimp only
    split <;> rfl
  unfold pick
  split
  · rfl
  · rfl
  · split
    · split
      · rfl
      · exact hfresh
    · exact hfresh

/-- A command of this part changes nothing, or is `use-relay`. -/
theorem console_cases {s : RelaySelector} {e : ConsoleEnv} {cmd : String}
    {r : RelaySelector × String} (h : s.console P e cmd = some r) :
    r.1 = s ∨ ∃ arg, r.1 = (s.useRelayCommand P e arg).1 := by
  unfold console at h
  split at h
  · cases h
  · split at h
    · cases h
      exact Or.inl rfl
    · split at h
      · cases h
        exact Or.inr ⟨_, rfl⟩
      · split at h
        · cases h
          exact Or.inl rfl
        · cases h

/-- `use-relay` changes the operator's choice and drops held ones, and nothing else. -/
theorem useRelayCommand_frame (s : RelaySelector) (e : ConsoleEnv) (arg : Option String) :
    ∃ preferred, (s.useRelayCommand P e arg).1 = { s with preferred := preferred, pins := ∅ } :=
  ⟨_, rfl⟩

/-- **No command of this part changes the relays that answer.** -/
theorem live_console {s t : RelaySelector} {e : ConsoleEnv} {cmd answer : String}
    (h : s.console P e cmd = some (t, answer)) : t.live = s.live := by
  rcases console_cases P h with rfl | ⟨arg, rfl⟩
  · rfl
  · rfl

/-- A command of this part drops all held choices, or none. -/
theorem pins_console {s : RelaySelector} {e : ConsoleEnv} {cmd : String}
    {r : RelaySelector × String} (h : s.console P e cmd = some r) :
    r.1.pins = s.pins ∨ r.1.pins = ∅ := by
  rcases console_cases P h with hr | ⟨arg, hr⟩
  · exact Or.inl (by rw [hr])
  · exact Or.inr (by rw [hr]; rfl)

/-- The commands of this part go by these names. -/
theorem console_name {s : RelaySelector} {e : ConsoleEnv} {cmd : String}
    {r : RelaySelector × String} (h : s.console P e cmd = some r) :
    ∃ name args, Text.split ' ' (Text.trim cmd) = name :: args ∧
      name ∈ ["test-relay", "tr", "use-relay", "ur", "relay-routes", "rr"] := by
  unfold console at h
  split at h
  · cases h
  · next name args heq =>
    refine ⟨name, args, heq, ?_⟩
    split at h
    · next hn => rcases hn with rfl | rfl <;> simp
    · split at h
      · next hn => rcases hn with rfl | rfl <;> simp
      · split at h
        · next hn => rcases hn with rfl | rfl <;> simp
        · cases h

end RelaySelector

end RustdeskServer
