import Mathlib.Data.List.Sort
import RustdeskServer.Plain.Binary64
import RustdeskServer.Plain.Split
import RustdeskServer.RouteFile

/-!
# Writing a routing table

`relay_rtt.py routes`: from measurements of relays at some sites, and a file with the networks
of the sites, it writes the table that `hbbs` reads.  A site gets a line for each of its
networks, with the times of the nodes that answered there; two lines for all other addresses
can follow.

Numbers are rationals where they stand in a text, and floats where they are computed with.
What the tool takes from Python's standard library beyond lists, texts and the arithmetic of
floats (case mapping, reading integers and addresses, the text of a network, `sum`) is a
parameter.

## Main definitions

* `Rtt.Python` — the functions of the standard library.
* `Rtt.Row`, `Rtt.aggregate` — a measurement, and the figures for a site and a node.
* `Rtt.siteValues` — the time of each node at a site, by the chosen basis.
* `Rtt.readSites` — the file of the sites.
* `Rtt.cmdRoutes` — the text that is written, or why there is none.
-/

namespace RustdeskServer

open Plain (Binary64)

namespace Rtt

/-! ### Python -/

/-- An `ipaddress` network: the address is the first of the network, and an IPv6 address can
have a zone. -/
structure PyNetwork where
  /-- The network. -/
  net : IpNetwork
  /-- It is given by its first address. -/
  normal : net.Normal
  /-- The zone of its address. -/
  zone : Option String
  deriving DecidableEq

/-- What the tool takes from Python's standard library. -/
structure Python where
  /-- `str.lower`. -/
  lower : String → String
  /-- `repr` of a text. -/
  repr : String → String
  /-- `int` of a text. -/
  int : String → Option ℤ
  /-- The format `:g`. -/
  general : Binary64 → String
  /-- `sum` of floats.  From 3.12 on it makes up for what is lost by rounding. -/
  sum : List Binary64 → Binary64
  /-- `ipaddress.ip_address`. -/
  ipAddress : String → Option IpAddr
  /-- `ipaddress.ip_network`, with host bits masked out. -/
  ipNetwork : String → Option PyNetwork
  /-- `str` of a network. -/
  str : PyNetwork → String

/-- `str.isspace` for a character: white space, and the four separators of ASCII. -/
def isspace (c : Char) : Bool := Text.isWhitespace c || (0x1c ≤ c.toNat && c.toNat ≤ 0x1f)

/-- The order of texts, by code point. -/
def textLe (s t : String) : Prop := Text.lt t s = false

instance : DecidableRel textLe := fun s t => inferInstanceAs (Decidable (Text.lt t s = false))

/-- The order of pairs of texts. -/
def pairLe (p q : String × String) : Prop := p.1 ≠ q.1 ∧ textLe p.1 q.1 ∨ p.1 = q.1 ∧ textLe p.2 q.2

instance : DecidableRel pairLe := fun p q =>
  inferInstanceAs (Decidable (p.1 ≠ q.1 ∧ textLe p.1 q.1 ∨ p.1 = q.1 ∧ textLe p.2 q.2))

/-- `statistics.median` of numbers of which there is one at least. -/
def median (l : List Binary64) : Binary64 :=
  let s := l.insertionSort fun x y => ¬y < x
  if s.length % 2 = 1 then s.getD (s.length / 2) .nan
  else (s.getD (s.length / 2 - 1) .nan + s.getD (s.length / 2) .nan).divNat 2

/-- `statistics.mean`: fractions are added, so that only the result is rounded. -/
def mean (l : List Binary64) : Binary64 :=
  let unbounded := l.filter fun x : Binary64 => x.toRat?.isNone
  if unbounded = [] then .ofRat ((l.filterMap Binary64.toRat?).sum / l.length)
  else (unbounded.foldl (· + ·) (Binary64.ofRat 0)).divNat l.length

/-! ### Measurements -/

/-- A row of measurements, with times as `strptime` reads them.  A number is as it stands there,
and `none` where there is none. -/
structure Row where
  /-- `site`. -/
  site : String
  /-- `node`. -/
  node : String
  /-- `host`. -/
  host : String
  /-- `port`. -/
  port : String
  /-- `ip`. -/
  ip : String
  /-- `median_ms`. -/
  medianMs : Option ℚ
  /-- `loss_pct`. -/
  lossPct : Option ℚ
  /-- `ts_utc`, in seconds. -/
  tsUtc : Option ℤ
  /-- `utc_offset_min`. -/
  utcOffsetMin : Option ℚ

/-- `num` of a number that stands there. -/
def num (q : ℚ) : Binary64 := .ofRat q

/-- The site and the node. -/
def Row.cell (r : Row) : String × String := (r.site, r.node)

/-- The figures of `aggregate` that `routes` looks at. -/
structure Stats where
  /-- `runs`. -/
  runs : ℕ
  /-- `median`. -/
  median : Option Binary64
  /-- `loss`. -/
  loss : Binary64
  /-- `usable`. -/
  usable : Bool

/-- The figures of the rows of one site and node. -/
def stats (rs : List Row) : Stats :=
  let meds := (rs.filterMap Row.medianMs).map num
  let loss := (rs.filterMap Row.lossPct).map num
  { runs := rs.length
    median := if meds = [] then none else some (median meds)
    loss := if loss = [] then .ofRat 100 else mean loss
    usable := !meds.isEmpty && decide (rs.length ≤ 2 * meds.length) }

/-- `aggregate`. -/
def aggregate (rows : List Row) : List ((String × String) × Stats) :=
  (rows.map Row.cell).eraseDups.map fun k => (k, stats (rows.filter fun r => r.cell = k))

/-- The microseconds of `timedelta(minutes=off)`: whole minutes are exact, and the part of a
minute is rounded as a float, and to whole microseconds. -/
def timedelta (off : ℚ) : ℤ :=
  let whole := if off < 0 then -(-off).floor else off.floor
  whole * 60000000 + Plain.roundHalfEven (Binary64.round ((off - whole) * 60000000))

/-- `local_hour`. -/
def localHour (r : Row) : Option ℕ := do
  let off ← r.utcOffsetMin
  let off ← (num off).toRat?
  let t ← r.tsUtc
  some ((t * 1000000 + timedelta off) / 3600000000 % 24).toNat

/-- `FAKE_IP_NET`. -/
def FAKE_IP_NET : IpNetwork := .v4 ⟨BitVec.ofNat 32 (198 * 256 ^ 3 + 18 * 256 ^ 2), 15⟩

section Tool

variable (py : Python)

/-- `is_fake_ip`. -/
def isFakeIp (ip : String) : Bool := (py.ipAddress ip).any FAKE_IP_NET.contains

/-- `fake_ip_cells`. -/
def fakeIpCells (rows : List Row) : List (String × String) :=
  (rows.filter fun r => isFakeIp py r.ip).map Row.cell

/-- The rows that were not measured through a proxy. -/
def honest (rows : List Row) : List Row := rows.filter fun r => r.cell ∉ fakeIpCells py rows

/-- The hours from `h` on to `hi`, around midnight if need be. -/
def hoursFrom : ℕ → ℕ → ℕ → List ℕ
  | 0, h, _ => [h]
  | fuel + 1, h, hi => if h = hi then [h] else h :: hoursFrom fuel ((h + 1) % 24) hi

/-- `parse_hours`. -/
def parseHours (spec : String) : Except String (List ℕ) :=
  let bad := "bad --peak-hours " ++ py.repr spec ++ "; expected something like 19-23"
  match (Text.split '-' spec).mapM py.int with
  | some [lo, hi] =>
    if 0 ≤ lo ∧ lo ≤ 23 ∧ 0 ≤ hi ∧ hi ≤ 23 then .ok (hoursFrom 24 lo.toNat hi.toNat)
    else .error bad
  | _ => .error bad

/-! ### The times of a site -/

/-- `--basis`. -/
inductive Basis
  /-- The worse of the evening and the rest of the day. -/
  | worst
  /-- The evening. -/
  | peak
  /-- All runs. -/
  | all
  deriving DecidableEq

/-- The basis as it is written. -/
def Basis.text : Basis → String
  | .worst => "worst"
  | .peak => "peak"
  | .all => "all"

/-- The arguments of `routes`. -/
structure Args where
  /-- `--sites`. -/
  sites : String
  /-- `--basis`. -/
  basis : Basis
  /-- `--peak-hours`. -/
  peakHours : String
  /-- `--min-runs`. -/
  minRuns : ℤ
  /-- `--loss-penalty`. -/
  lossPenalty : ℚ
  /-- `--default`. -/
  default : String

variable (a : Args)

/-- The inner function `values` of `site_values`: the time of each node that answered, and
its runs. -/
def values (rows : List Row) : List (String × Binary64 × ℕ) :=
  (aggregate rows).filterMap fun (k, g) =>
    if g.usable then g.median.map fun m => (k.2, m + num a.lossPenalty * g.loss, g.runs) else none

/-- The figure of a period, if there were runs enough. -/
def enough (v : Option (Binary64 × ℕ)) : Option Binary64 :=
  (v.filter fun p => a.minRuns ≤ p.2).map Prod.fst

/-- The figure of the basis, from those of the evening and the rest of the day. -/
def basisValue (peak off : Option Binary64) : Option Binary64 :=
  match a.basis, peak, off with
  | .peak, some p, _ => some p
  | .worst, some p, some o => some (if p < o then o else p)
  | _, _, _ => none

/-- For each node the overall figure, and the figures of the evening and of the rest of the
day. -/
def periodValues (hours : List ℕ) (mine : List Row) :
    List (String × Binary64 × Option Binary64 × Option Binary64) :=
  let vp := values a (mine.filter fun r => (localHour r).any (· ∈ hours))
  let vo := values a (mine.filter fun r => (localHour r).any (· ∉ hours))
  (values a mine).map fun (n, v, _) => (n, v, enough a (vp.lookup n), enough a (vo.lookup n))

/-- `site_values`. -/
def siteValues (rows : List Row) (site : String) : Except String (List (String × Binary64)) :=
  let mine := rows.filter fun r => r.site = site
  if a.basis = .all then .ok ((values a mine).map fun (n, v, _) => (n, v))
  else
    match parseHours py a.peakHours with
    | .error e => .error e
    | .ok hours =>
      .ok ((periodValues a hours mine).map fun (n, v, p, o) => (n, (basisValue a p o).getD v))

/-- The notes of `site_values`: where the overall figure stands in for that of the basis. -/
def siteNotes (rows : List Row) (site : String) : List String :=
  let mine := rows.filter fun r => r.site = site
  if a.basis = .all then []
  else
    match parseHours py a.peakHours with
    | .error _ => []
    | .ok hours =>
      ((periodValues a hours mine).filter fun (_, _, p, o) => basisValue a p o = none).map
        fun (n, _, p, _) =>
          site ++ "->" ++ n ++ ": fewer than " ++ toString a.minRuns ++ " runs in " ++
            (if a.basis = .peak ∨ p = none then "the evening" else "off-peak") ++
            "; used the overall median instead of the " ++ a.basis.text ++ " basis"

/-! ### Sites and names -/

/-- The networks of a line. -/
def readNetworks (place : String) : List (List Char) → Except String (List PyNetwork)
  | [] => .ok []
  | text :: texts =>
    match py.ipNetwork (String.ofList text) with
    | none =>
      .error (place ++ py.repr (String.ofList text) ++ " is not a network such as 203.0.113.0/24")
    | some net =>
      match readNetworks place texts with
      | .error e => .error e
      | .ok nets => .ok (net :: nets)

/-- The lines of the file of the sites from number `ln` on, over the sites so far. -/
def readSiteLines (path : String) :
    ℕ → List (List Char) → List (String × List PyNetwork) →
      Except String (List (String × List PyNetwork))
  | _, [], sites => .ok sites
  | ln, raw :: raws, sites =>
    let line := raw.takeWhile (· ≠ '#')
    let place := path ++ ":" ++ toString ln ++ ": "
    if line.all isspace then readSiteLines path (ln + 1) raws sites
    else
      match Plain.words isspace (line.map fun c => if c = ',' then ' ' else c) with
      | label :: text :: texts =>
        if sites.any fun s => s.1 = String.ofList label then
          .error (place ++ "site " ++ py.repr (String.ofList label) ++ " appears twice")
        else
          match readNetworks py place (text :: texts) with
          | .error e => .error e
          | .ok nets =>
            readSiteLines path (ln + 1) raws (sites ++ [(String.ofList label, nets)])
      | _ => .error (place ++ "need `label CIDR [CIDR ...]`")

/-- The line ends of a file that is read as text. -/
def universalNewlines : List Char → List Char
  | '\r' :: '\n' :: t => '\n' :: universalNewlines t
  | '\r' :: t => '\n' :: universalNewlines t
  | c :: t => c :: universalNewlines t
  | [] => []

/-- `read_sites`. -/
def readSites (path : String) (text : List Char) : Except String (List (String × List PyNetwork)) :=
  match readSiteLines py path 1 ((universalNewlines text).splitOn '\n') [] with
  | .error e => .error e
  | .ok [] => .error ("no sites in " ++ path)
  | .ok sites => .ok sites

/-- The relay of a row, as `hbbs` is started with it. -/
def Row.relay (r : Row) : String := py.lower (r.host ++ ":" ++ r.port)

/-- `relay_names`, over the names so far. -/
def relayNames : List Row → HashMap String String → Except String (HashMap String String)
  | [], names => .ok names
  | r :: rows, names =>
    match names.lookup r.node with
    | none => relayNames rows (names.insert r.node (r.relay py))
    | some prev =>
      if prev ≠ r.relay py then
        .error ("node " ++ py.repr r.node ++ " was measured as both " ++ prev ++ " and " ++
          r.relay py ++ "; the CSVs mix two different nodes files")
      else relayNames rows names

/-! ### The table -/

/-- A site that gets lines: its networks, and the times of its nodes. -/
structure Line where
  /-- The site. -/
  label : String
  /-- Its networks. -/
  nets : List PyNetwork
  /-- The time of each node. -/
  vals : List (String × Binary64)
  deriving DecidableEq

/-- The loop over the sites. -/
def siteLines (rows : List Row) : List (String × List PyNetwork) → Except String (List Line)
  | [] => .ok []
  | (label, nets) :: sites =>
    if label ∉ rows.map Row.site then siteLines rows sites
    else
      match siteValues py a rows label with
      | .error e => .error e
      | .ok vals =>
        if vals = [] then siteLines rows sites
        else
          match siteLines rows sites with
          | .error e => .error e
          | .ok lines => .ok (⟨label, nets, vals⟩ :: lines)

/-- The times of the relays that were measured from every site, on average. -/
def averages (lines : List Line) : List (String × Binary64) :=
  match lines with
  | [] => []
  | first :: _ =>
    let common := (first.vals.map Prod.fst).filter fun n =>
      lines.all fun l => (l.vals.lookup n).isSome
    common.map fun n =>
      (n, (py.sum (lines.map fun l => (l.vals.lookup n).getD .nan)).divNat lines.length)

/-- The times for all other addresses. -/
def defaultValues (lines : List Line) : Except String (Option (List (String × Binary64))) :=
  if a.default = "average" ∧ lines ≠ [] then
    .ok (if averages py lines = [] then none else some (averages py lines))
  else if a.default ≠ "none" ∧ a.default ≠ "average" then
    match lines.find? fun l => l.label = a.default with
    | some l => .ok (some l.vals)
    | none =>
      .error ("--default " ++ py.repr a.default ++ " is not a site with measurements")
  else .ok none

/-- By the time, then by the node.  A time that is no number has no place, and the file that it
stands in is not read. -/
def faster (x y : String × Binary64) : Prop := x.2 < y.2 ∨ x.2 = y.2 ∧ textLe x.1 y.1

instance : DecidableRel faster := fun x y =>
  inferInstanceAs (Decidable (x.2 < y.2 ∨ x.2 = y.2 ∧ textLe x.1 y.1))

/-- The relays of a line, with their times as they are. -/
def relayTimes (names : HashMap String String) (vals : List (String × Binary64)) :
    List (String × Binary64) :=
  (vals.insertionSort faster).map fun (n, v) => ((names.lookup n).getD "", v)

/-- A relay with its time. -/
def timeField (x : String × Binary64) : List Char := x.1.toList ++ '=' :: x.2.fixed1

/-- A line of the table: the text of the network, and the inner function `entry`. -/
def routeLine (x : String × List (String × Binary64)) : List Char :=
  x.1.toList ++ ' ' :: ' ' :: [','].intercalate (x.2.map timeField)

/-- A comment. -/
def comment (text : String) : List Char := '#' :: ' ' :: text.toList

/-- What stands above the lines. -/
def headLines : List (List Char) :=
  [comment "Relay routing table, generated by relay_rtt.py routes.",
    comment ("basis: " ++ a.basis.text ++
      (if a.basis ≠ .all then " (peak hours " ++ a.peakHours ++ ", site-local)" else "") ++
      "; loss counted as " ++ py.general (num a.lossPenalty) ++ " ms per 1%."),
    comment "Each relay must be written exactly as hbbs was started with it (-r).",
    comment "Format: network  relay=ms[,relay=ms ...]", []]

/-- The lines of a site. -/
def Line.out (names : HashMap String String) (l : Line) : List (List Char) :=
  comment l.label :: l.nets.map fun net => routeLine (py.str net, relayTimes names l.vals)

/-- The lines for all other addresses. -/
def defaultLines (names : HashMap String String) :
    Option (List (String × Binary64)) → List (List Char)
  | none => []
  | some vals =>
    [[], comment ("anything else: " ++
        if a.default = "average" then "the average of all sites" else "as " ++ a.default),
      routeLine ("0.0.0.0/0", relayTimes names vals), routeLine ("::/0", relayTimes names vals)]

/-- The lines of the file. -/
def outLines (names : HashMap String String) (lines : List Line)
    (default : Option (List (String × Binary64))) : List (List Char) :=
  headLines py a ++ lines.flatMap (Line.out py names) ++ defaultLines a names default

/-- The notes of `cmd_routes`, in their order. -/
def notes (rows : List Row) (sites : List (String × List PyNetwork)) (lines : List Line) :
    List String :=
  let kept := honest py rows
  ((fakeIpCells py rows).eraseDups.insertionSort pairLe).map (fun (s, n) =>
      s ++ "->" ++ n ++ ": resolved into 198.18.0.0/15 (proxy/TUN fake-IP); that measurement " ++
        "was discarded") ++
    (((kept.map Row.site).eraseDups.filter fun l => l ∉ sites.map Prod.fst).insertionSort
      textLe).map (fun l => "site " ++ py.repr l ++ " has measurements but is not in " ++
        a.sites ++ "; it gets no line") ++
    sites.flatMap (fun (l, _) =>
      if l ∉ kept.map Row.site then
        ["site " ++ py.repr l ++ " is in " ++ a.sites ++
          " but has no usable measurements; it gets no line"]
      else siteNotes py a kept l ++
        if lines.all fun x => x.label ≠ l then
          ["site " ++ py.repr l ++ ": no node answered reliably; it gets no line"] else []) ++
    if a.default = "average" ∧ lines ≠ [] ∧ averages py lines = [] then
      ["--default average: no relay was measured from every site"] else []

/-- `cmd_routes`: the text that is written. -/
def cmdRoutes (rows : List Row) (sitesText : List Char) : Except String (List Char) :=
  if rows = [] then .error "no rows"
  else
    match readSites py a.sites sitesText with
    | .error e => .error e
    | .ok sites =>
      match relayNames py rows ∅ with
      | .error e => .error e
      | .ok names =>
        match siteLines py a (honest py rows) sites with
        | .error e => .error e
        | .ok lines =>
          match defaultValues py a lines with
          | .error e => .error e
          | .ok default =>
            if lines = [] then
              .error ("nothing to write: no site had usable measurements\n" ++
                "\n".intercalate ((notes py a rows sites lines).map ("  - " ++ ·)))
            else .ok (['\n'].intercalate (outLines py a names lines default) ++ ['\n'])

end Tool
end Rtt
end RustdeskServer
