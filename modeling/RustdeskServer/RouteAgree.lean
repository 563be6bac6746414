import RustdeskServer.RttText

/-!
# The table that is written is the table that is read

`relay_rtt.py routes` is to write nothing that `RouteTable::parse` refuses, and an address is to
get from the table what was measured for its network.  But the tool does not look whether a
network was written before, at one site, at two, or as one of the two for all other addresses;
nor whether two nodes are one relay, or a time is infinite; and Python knows networks with a
zone.  One such line and the table is refused.  If there is none, the table is read as it was
meant, except for IPv4 addresses that are written in IPv6: they are looked up as IPv4.

## Main definitions

* `Rtt.writtenTimes` — the networks that lines are written for, with their times.
* `Rtt.TableRead` — the table is accepted, and addresses get the times of their sites.
* `Rtt.Readable` — nothing is written that would be refused.
* `Rtt.MappedAlike` — IPv4 addresses in a site's IPv6 network have its times anyway.

## Main results

* `Rtt.WrittenFrom.parse_iff` — the table is accepted exactly if it is readable.
* `Rtt.WrittenFrom.costsFor_eq` — what an address gets.
* `Rtt.written_table_read_iff` — **the table that is written is the table that is read, exactly
  if it is readable and mapped addresses are alike.**
* `Rtt.repeated_network_refused` — a table that is refused.
-/

namespace RustdeskServer

/-- A network is known by its first address and the length of its prefix. -/
theorem IpNetwork.Normal.eq_of_same {n n' : IpNetwork} (h : n.Normal) (h' : n'.Normal)
    (hnet : n.network = n'.network) (hlen : n.prefixLen = n'.prefixLen) : n = n' := by
  cases n with
  | v4 n =>
    cases n' with
    | v6 _ _ => cases hnet
    | v4 n' =>
      obtain ⟨addr, len⟩ := n
      obtain ⟨addr', len'⟩ := n'
      cases hlen
      simp only [Normal] at h h'
      simp only [network, h.2, h'.2, BitVec.ofNat_toNat, BitVec.setWidth_eq] at hnet
      cases hnet
      rfl
  | v6 addr len =>
    cases n' with
    | v4 _ => cases hnet
    | v6 addr' len' =>
      cases hlen
      simp only [Normal] at h h'
      simp only [network, h.2, h'.2, BitVec.ofNat_toNat, BitVec.setWidth_eq] at hnet
      cases hnet
      rfl

open Plain (Binary64)

namespace Rtt

/-! ### What is to be read -/

/-- The two networks of all other addresses. -/
def defaultTimes : Option (List (String × Binary64)) → List (IpNetwork × List (String × Binary64))
  | none => []
  | some vals => [(.v4 ⟨0, 0⟩, vals), (.v6 0 0, vals)]

/-- The networks that lines are written for, with the times on them. -/
def writtenTimes (py : Python) (a : Args) (lines : List Line) :
    List (IpNetwork × List (String × Binary64)) :=
  lines.flatMap (fun l => l.nets.map fun net => (net.net, l.vals)) ++
    defaultTimes (defaultValues py a lines).toOption.join

/-- The networks that lines are written for. -/
def writtenNets (py : Python) (a : Args) (lines : List Line) : List IpNetwork :=
  (writtenTimes py a lines).map Prod.fst

/-- The network contains the address, and none of the networks that do has a longer prefix. -/
def MostSpecific (nets : List IpNetwork) (ip : IpAddr) (n : IpNetwork) : Prop :=
  n ∈ nets ∧ n.contains ip = true ∧
    ∀ n' ∈ nets, n'.contains ip = true → n'.prefixLen ≤ n.prefixLen

/-- The relay has the time, to one decimal. -/
def Listed (py : Python) (rows : List Row) (vals : List (String × Binary64)) (relay : String)
    (ms : ℚ) : Prop :=
  ∃ r ∈ rows, r.relay py = relay ∧ ∃ v, (r.node, v) ∈ vals ∧ v.oneDecimal = some ms

/-- The text is accepted, and an address in a network of a site gets the times of the site, if
the network is the most specific one for it. -/
def TableRead (U : Unicode) (parseNetwork : String → Option IpNetwork) (py : Python) (a : Args)
    (rows : List Row) (lines : List Line) (text : List Char) : Prop :=
  ∃ t, RouteTable.parse U parseNetwork text = .ok t ∧
    ∀ l ∈ lines, ∀ net ∈ l.nets, ∀ ip : IpAddr,
      MostSpecific (writtenNets py a lines) ip net.net →
        ∃ costs, t.costsFor ip = some costs ∧
          ∀ relay ms, costs relay = some ms ↔ Listed py rows l.vals relay ms

/-- The times are finite. -/
def Small (vals : List (String × Binary64)) : Prop := ∀ x ∈ vals, x.2.toRat?.isSome

/-- What the sites must be like for their lines to be read. -/
structure Readable (py : Python) (a : Args) (rows : List Row) (lines : List Line) : Prop where
  /-- No network has a zone. -/
  plain : ∀ l ∈ lines, ∀ net ∈ l.nets, net.zone = none
  /-- No network is written twice. -/
  apart : (writtenNets py a lines).Nodup
  /-- The nodes of a site are different relays. -/
  distinct : ∀ l ∈ lines, Distinct py rows l.vals
  /-- No time is too large. -/
  small : ∀ x ∈ writtenTimes py a lines, Small x.2

/-- An IPv4 address that is written in IPv6, and has a network of a site for its most specific
one, has as an IPv4 address a most specific one with the same times. -/
def MappedAlike (py : Python) (a : Args) (rows : List Row) (lines : List Line) : Prop :=
  ∀ l ∈ lines, ∀ net ∈ l.nets, ∀ b v4, IpAddr.toIpv4Mapped b = some v4 →
    MostSpecific (writtenNets py a lines) (.v6 b) net.net →
      ∃ x ∈ writtenTimes py a lines, MostSpecific (writtenNets py a lines) (.v4 v4) x.1 ∧
        ∀ relay ms, Listed py rows x.2 relay ms ↔ Listed py rows l.vals relay ms

/-! ### The lines -/

section Lines

variable {U : Unicode} {parseNetwork : String → Option IpNetwork} {py : Python} {a : Args}
  {rows : List Row} {sites : List (String × List PyNetwork)} {names : HashMap String String}

/-- Times as a site has them. -/
structure TimesOk (rows : List Row) (vals : List (String × Binary64)) : Prop where
  nodup : (vals.map Prod.fst).Nodup
  measured : Measured rows vals
  nonneg : ∀ x ∈ vals, x.2.Nonneg
  ne_nil : vals ≠ []

theorem honest_subset {r : Row} (h : r ∈ honest py rows) : r ∈ rows := (List.mem_filter.mp h).1

theorem timesOk_of_written (hrows : ∀ r ∈ rows, r.Nonneg) (ha : 0 ≤ a.lossPenalty) {l : Line}
    (hl : l ∈ written py a (honest py rows) sites) : TimesOk rows l.vals := by
  obtain ⟨-, hvals, hne⟩ := mem_written hl
  obtain ⟨hnodup, hall⟩ := siteValues_spec (fun r hr => hrows r (honest_subset hr)) ha hvals
  refine ⟨hnodup, fun x hx => ?_, fun x hx => (hall x hx).2, hne⟩
  obtain ⟨r, hr, hnode⟩ := (hall x hx).1
  exact ⟨r, honest_subset hr, hnode⟩

/-- The times for all other addresses are as those of the sites are. -/
theorem default_spec (hpy : py.Lawful) {lines : List Line} {vals : List (String × Binary64)}
    (hlines : ∀ l ∈ lines, TimesOk rows l.vals)
    (h : defaultValues py a lines = .ok (some vals)) :
    TimesOk rows vals ∧ ((∀ l ∈ lines, Distinct py rows l.vals) → Distinct py rows vals) := by
  rcases defaultValues_spec h with hnone | ⟨-, hne, hvals⟩ | ⟨l, hl, -, hvals⟩
  · cases hnone
  · cases hvals
    obtain ⟨hnodup, hall⟩ := @averages_spec py lines
    -- a relay on average is a relay of any of the sites
    have hlines_ne : lines ≠ [] := by
      rintro rfl
      exact hne rfl
    obtain ⟨l, hl⟩ := List.exists_mem_of_ne_nil lines hlines_ne
    have hnode : ∀ n ∈ (averages py lines).map Prod.fst, n ∈ l.vals.map Prod.fst := by
      intro n hn
      obtain ⟨x, hx, rfl⟩ := List.mem_map.mp hn
      exact (hall x hx).1 l hl
    refine ⟨⟨hnodup fun l hl => (hlines l hl).nodup, fun x hx => ?_, fun x hx => ?_, hne⟩, ?_⟩
    · obtain ⟨y, hy, hyx⟩ := List.mem_map.mp ((hall x hx).1 l hl)
      rw [← hyx]
      exact (hlines l hl).measured y hy
    · exact (hall x hx).2 hpy.sum_nonneg fun l hl => (hlines l hl).nonneg
    · intro hdistinct r hr r' hr' hn hn'
      exact hdistinct l hl r hr r' hr' (hnode _ hn) (hnode _ hn')
  · cases hvals
    exact ⟨hlines l hl, fun hall => hall l hl⟩

/-- A line with the times of a site is read if its network is, the nodes are different relays,
and all times are finite. -/
theorem lineRule_times (hpy : py.Lawful) (hagree : Agree U parseNetwork py sites)
    (hrows : ∀ r ∈ rows, r.Grammar)
    (hnames : ∀ r ∈ rows, names.lookup r.node = some (r.relay py)) {text : String}
    {vals : List (String × Binary64)} (hvals : TimesOk rows vals) (htext : Solid text.toList)
    (hne : text.toList ≠ []) :
    RouteOk (text, relayTimes names vals) ∧ ∀ r,
      lineRule U parseNetwork (routeLine (text, relayTimes names vals)) = some r ↔
        ∃ net, parseNetwork text = some net ∧ Small vals ∧ Distinct py rows vals ∧
          r = some ⟨net, addTimes ∅ (relayTimes names vals)⟩ := by
  have hrelays : ∀ y ∈ relayTimes names vals, RelayName U y.1 ∧ y.2.Nonneg := by
    intro y hy
    obtain ⟨r, hr, hrelay, hmem⟩ := (mem_relayTimes hnames hvals.measured).mp hy
    rw [← hrelay]
    exact ⟨relayName_of_grammar hpy hagree (hrows r hr), hvals.nonneg (r.node, y.2) hmem⟩
  have hok : RouteOk (text, relayTimes names vals) := by
    refine ⟨htext, hne, fun y hy => (hrelays y hy).1.solid, ?_⟩
    have hlen : (relayTimes names vals).length = vals.length := by simp [relayTimes]
    intro hnil
    change relayTimes names vals = [] at hnil
    rw [hnil, List.length_nil] at hlen
    exact hvals.ne_nil (List.length_eq_zero_iff.mp hlen.symm)
  have hsmall : (∀ y ∈ relayTimes names vals, y.2.oneDecimal.isSome) ↔ Small vals := by
    constructor
    · intro hall x hx
      obtain ⟨r, hr, hnode⟩ := hvals.measured x hx
      rw [← Binary64.oneDecimal_isSome (hvals.nonneg x hx)]
      refine hall (r.relay py, x.2) ((mem_relayTimes hnames hvals.measured).mpr ⟨r, hr, rfl, ?_⟩)
      rwa [hnode]
    · intro hall y hy
      obtain ⟨r, -, -, hmem⟩ := (mem_relayTimes hnames hvals.measured).mp hy
      rw [Binary64.oneDecimal_isSome (hvals.nonneg _ hmem)]
      exact hall (r.node, y.2) hmem
  refine ⟨hok, fun r => ?_⟩
  rw [lineRule_routeLine hok hrelays]
  simp only [hsmall, nodup_relayTimes hnames hvals.measured hvals.nodup]

theorem mem_routes {lines : List Line} {default : Option (List (String × Binary64))} {l : Line}
    (hl : l ∈ lines) {net : PyNetwork} (hnet : net ∈ l.nets) :
    (net.net, py.str net, relayTimes names l.vals) ∈ routes py names lines default := by
  refine List.mem_append_left _ (List.mem_flatMap.mpr ⟨l, hl, ?_⟩)
  exact List.mem_map.mpr ⟨net, hnet, rfl⟩

theorem feed_comment {text : String} (h : '\n' ∉ text.toList) : '\n' ∉ comment text := by
  rw [comment, List.mem_cons, List.mem_cons]
  rintro (hmem | hmem | hmem)
  · cases hmem
  · cases hmem
  · exact h hmem

/-- What stands above the lines is not broken. -/
theorem feed_headLines (hpy : py.Lawful) (hpeak : '\n' ∉ a.peakHours.toList) :
    ∀ l ∈ headLines py a, '\n' ∉ l := by
  have hbasis : '\n' ∉ a.basis.text.toList := by cases a.basis <;> decide +kernel
  have hperiod : '\n' ∉ (if a.basis ≠ .all then " (peak hours " ++ a.peakHours ++ ", site-local)"
      else "").toList := by
    split
    · rw [String.toList_append, String.toList_append, List.mem_append, List.mem_append]
      exact not_or.mpr ⟨not_or.mpr ⟨by decide +kernel, hpeak⟩, by decide +kernel⟩
    · decide +kernel
  simp only [headLines, List.forall_mem_cons]
  refine ⟨feed_comment (by decide +kernel), feed_comment ?_, feed_comment (by decide +kernel),
    feed_comment (by decide +kernel), List.not_mem_nil, List.forall_mem_nil _⟩
  simp only [String.toList_append, List.mem_append, not_or]
  exact ⟨⟨⟨⟨⟨by decide +kernel, hbasis⟩, hperiod⟩, by decide +kernel⟩,
    hpy.general (num a.lossPenalty)⟩, by decide +kernel⟩

end Lines

/-! ### The file -/

/-- What is known of a file that was written: where its lines come from, and that both sides
mean the same by them. -/
structure WrittenFrom (U : Unicode) (parseNetwork : String → Option IpNetwork) (py : Python)
    (a : Args) (rows : List Row) (sites : List (String × List PyNetwork))
    (names : HashMap String String) (lines : List Line)
    (default : Option (List (String × Binary64))) : Prop where
  lawful : py.Lawful
  agree : Agree U parseNetwork py sites
  grammar : ∀ r ∈ rows, r.Grammar
  sites_ok : ∀ s ∈ sites, SiteOk py s
  relays : ∀ r ∈ rows, names.lookup r.node = some (r.relay py)
  times : ∀ l ∈ lines, TimesOk rows l.vals
  mem : ∀ l ∈ lines, (l.label, l.nets) ∈ sites
  default_eq : defaultValues py a lines = .ok default

namespace WrittenFrom

variable {U : Unicode} {parseNetwork : String → Option IpNetwork} {py : Python} {a : Args}
  {rows : List Row} {sites : List (String × List PyNetwork)} {names : HashMap String String}
  {lines : List Line} {default : Option (List (String × Binary64))}
  (h : WrittenFrom U parseNetwork py a rows sites names lines default)

include h

/-- A line of a site. -/
theorem site_line {l : Line} (hl : l ∈ lines) {net : PyNetwork} (hnet : net ∈ l.nets) :
    RouteOk (py.str net, relayTimes names l.vals) ∧ ∀ r,
      lineRule U parseNetwork (routeLine (py.str net, relayTimes names l.vals)) = some r ↔
        net.zone = none ∧ Small l.vals ∧ Distinct py rows l.vals ∧
          r = some ⟨net.net, addTimes ∅ (relayTimes names l.vals)⟩ := by
  have hsite := h.sites_ok _ (h.mem l hl)
  obtain ⟨hok, hread⟩ := lineRule_times h.lawful h.agree h.grammar h.relays (h.times l hl)
    (hsite.solid_str h.lawful hnet) (by simpa using h.lawful.str_ne net)
  refine ⟨hok, fun r => ?_⟩
  rw [hread, h.agree.net _ (h.mem l hl) net hnet]
  by_cases hzone : net.zone = none
  · simp [hzone]
  · simp [hzone]

/-- A line for all other addresses. -/
theorem default_line {vals : List (String × Binary64)} (hvals : default = some vals) {text : String}
    {n : IpNetwork} (htext : text = "0.0.0.0/0" ∨ text = "::/0")
    (hnet : parseNetwork text = some n) :
    RouteOk (text, relayTimes names vals) ∧ ∀ r,
      lineRule U parseNetwork (routeLine (text, relayTimes names vals)) = some r ↔
        Small vals ∧ Distinct py rows vals ∧ r = some ⟨n, addTimes ∅ (relayTimes names vals)⟩ := by
  obtain ⟨hok, -⟩ := default_spec h.lawful h.times (hvals ▸ h.default_eq)
  have hsolid : Solid text.toList ∧ text.toList ≠ [] := by
    rcases htext with rfl | rfl
    · exact ⟨by simp [Solid, Text.isWhitespace], by simp⟩
    · exact ⟨by simp [Solid, Text.isWhitespace], by simp⟩
  obtain ⟨hroute, hread⟩ := lineRule_times h.lawful h.agree h.grammar h.relays hok hsolid.1 hsolid.2
  refine ⟨hroute, fun r => ?_⟩
  simp [hread, hnet]

theorem feed_label {l : Line} (hl : l ∈ lines) : '\n' ∉ l.label.toList := by
  intro hmem
  exact absurd ((h.sites_ok _ (h.mem l hl)).label _ hmem).1 (by decide)

/-- A line for a network is that of a site, or one for all other addresses. -/
theorem route_cases {x : IpNetwork × String × List (String × Binary64)}
    (hx : x ∈ routes py names lines default) :
    (∃ l ∈ lines, ∃ net ∈ l.nets, x = (net.net, py.str net, relayTimes names l.vals)) ∨
      ∃ vals, default = some vals ∧ (x.2.1 = "0.0.0.0/0" ∨ x.2.1 = "::/0") ∧
        parseNetwork x.2.1 = some x.1 ∧ x.1.Normal ∧ x.2.2 = relayTimes names vals := by
  rw [routes, List.mem_append, List.mem_flatMap] at hx
  rcases hx with ⟨l, hl, hx⟩ | hx
  · obtain ⟨net, hnet, rfl⟩ := List.mem_map.mp hx
    exact .inl ⟨l, hl, net, hnet, rfl⟩
  · cases default with
    | none => cases hx
    | some vals =>
      refine .inr ⟨vals, rfl, ?_⟩
      rw [defaultRoutes, List.mem_cons, List.mem_singleton] at hx
      rcases hx with rfl | rfl
      · exact ⟨.inl rfl, h.agree.v4, by simp [IpNetwork.Normal], rfl⟩
      · exact ⟨.inr rfl, h.agree.v6, by simp [IpNetwork.Normal], rfl⟩

theorem route_ok {x : IpNetwork × String × List (String × Binary64)}
    (hx : x ∈ routes py names lines default) : RouteOk x.2 ∧ x.1.Normal := by
  rcases h.route_cases hx with ⟨l, hl, net, hnet, rfl⟩ | ⟨vals, hvals, htext, hread, hnormal, heq⟩
  · exact ⟨(h.site_line hl hnet).1, net.normal⟩
  · have hok := (h.default_line hvals htext hread).1
    rw [← heq] at hok
    exact ⟨hok, hnormal⟩

theorem writtenTimes_eq : writtenTimes py a lines =
    lines.flatMap (fun l => l.nets.map fun net => (net.net, l.vals)) ++ defaultTimes default := by
  rw [writtenTimes, h.default_eq]
  rfl

theorem mem_writtenTimes {x : IpNetwork × List (String × Binary64)} :
    x ∈ writtenTimes py a lines ↔
      (∃ l ∈ lines, ∃ net ∈ l.nets, x = (net.net, l.vals)) ∨ x ∈ defaultTimes default := by
  simp only [h.writtenTimes_eq, List.mem_append, List.mem_flatMap, List.mem_map, eq_comm]

theorem rule_of_route (hplain : ∀ l ∈ lines, ∀ net ∈ l.nets, net.zone = none)
    (hdistinct : ∀ l ∈ lines, Distinct py rows l.vals)
    (hsmall : ∀ x ∈ writtenTimes py a lines, Small x.2)
    {x : IpNetwork × String × List (String × Binary64)}
    (hx : x ∈ routes py names lines default) :
    lineRule U parseNetwork (routeLine x.2) = some (some ⟨x.1, addTimes ∅ x.2.2⟩) := by
  rcases h.route_cases hx with ⟨l, hl, net, hnet, rfl⟩ | ⟨vals, hvals, htext, hread, -, heq⟩
  · exact ((h.site_line hl hnet).2 _).mpr ⟨hplain l hl net hnet,
      hsmall _ (h.mem_writtenTimes.mpr (.inl ⟨l, hl, net, hnet, rfl⟩)), hdistinct l hl, rfl⟩
  · have htimes : Small vals := hsmall (.v4 ⟨0, 0⟩, vals)
      (h.mem_writtenTimes.mpr (.inr (by rw [hvals]; exact List.mem_cons_self)))
    have hline := ((h.default_line hvals htext hread).2 _).mpr
      ⟨htimes, (default_spec h.lawful h.times (hvals ▸ h.default_eq)).2 hdistinct, rfl⟩
    rwa [← heq] at hline

/-- **Which lines are read**: no network of a site has a zone, the nodes of each site are
different relays, and all times are finite. -/
theorem lines_read_iff :
    (∀ x ∈ routes py names lines default, lineRule U parseNetwork (routeLine x.2) ≠ none) ↔
      (∀ l ∈ lines, ∀ net ∈ l.nets, net.zone = none) ∧
        (∀ l ∈ lines, Distinct py rows l.vals) ∧ ∀ x ∈ writtenTimes py a lines, Small x.2 := by
  constructor
  · intro hread
    have hline : ∀ l ∈ lines, ∀ net ∈ l.nets,
        net.zone = none ∧ Small l.vals ∧ Distinct py rows l.vals := by
      intro l hl net hnet
      obtain ⟨r, hr⟩ := Option.ne_none_iff_exists'.mp (hread _ (mem_routes hl hnet))
      obtain ⟨hzone, hsmall, hdistinct, -⟩ := ((h.site_line hl hnet).2 r).mp hr
      exact ⟨hzone, hsmall, hdistinct⟩
    have hdefault : ∀ vals, default = some vals → Small vals := by
      intro vals hvals
      have hmem : (.v4 ⟨0, 0⟩, "0.0.0.0/0", relayTimes names vals) ∈
          routes py names lines default := by
        rw [hvals]
        exact List.mem_append_right _ List.mem_cons_self
      obtain ⟨r, hr⟩ := Option.ne_none_iff_exists'.mp (hread _ hmem)
      exact (((h.default_line hvals (.inl rfl) h.agree.v4).2 r).mp hr).1
    refine ⟨fun l hl net hnet => (hline l hl net hnet).1, fun l hl => ?_, fun x hx => ?_⟩
    · -- every site has a network, and so a line
      obtain ⟨net, hnet⟩ := List.exists_mem_of_ne_nil _ (h.sites_ok _ (h.mem l hl)).nets_ne
      exact (hline l hl net hnet).2.2
    · rcases h.mem_writtenTimes.mp hx with ⟨l, hl, net, hnet, rfl⟩ | hx
      · exact (hline l hl net hnet).2.1
      · cases default with
        | none => cases hx
        | some vals =>
          rcases List.mem_pair.mp hx with rfl | rfl
          · exact hdefault vals rfl
          · exact hdefault vals rfl
  · rintro ⟨hplain, hdistinct, hsmall⟩ x hx
    rw [h.rule_of_route hplain hdistinct hsmall hx]
    exact Option.some_ne_none _

/-- A line for a network, and what is written for it. -/
theorem routes_times : (routes py names lines default).map (fun x => (x.1, x.2.2)) =
    (writtenTimes py a lines).map fun x => (x.1, relayTimes names x.2) := by
  have hsites : (lines.flatMap (siteRoutes py names)).map (fun x => (x.1, x.2.2)) =
      (lines.flatMap fun l => l.nets.map fun net => (net.net, l.vals)).map
        fun x => (x.1, relayTimes names x.2) := by
    rw [List.map_flatMap, List.map_flatMap]
    refine List.flatMap_congr fun l _ => ?_
    rw [siteRoutes, List.map_map, List.map_map]
    rfl
  rw [routes, List.map_append, hsites, h.writtenTimes_eq, List.map_append]
  cases default with
  | none => rfl
  | some vals => rfl

theorem routes_nets : (routes py names lines default).map Prod.fst = writtenNets py a lines := by
  have hfst := congrArg (List.map Prod.fst) h.routes_times
  rwa [List.map_map, List.map_map] at hfst

/-- Lines that are read are for different networks exactly if no network is written twice. -/
theorem apart_iff :
    Apart ((routes py names lines default).map fun x => ⟨x.1, addTimes ∅ x.2.2⟩) ↔
      (writtenNets py a lines).Nodup := by
  rw [Apart, ← h.routes_nets, List.Nodup, List.pairwise_map, List.pairwise_map]
  have hsame : ∀ {x y}, x ∈ routes py names lines default → y ∈ routes py names lines default →
      (SameNet ⟨x.1, addTimes ∅ x.2.2⟩ ⟨y.1, addTimes ∅ y.2.2⟩ ↔ x.1 = y.1) := by
    intro x y hx hy
    constructor
    · rintro ⟨hnet, hlen⟩
      exact (h.route_ok hx).2.eq_of_same (h.route_ok hy).2 hnet hlen
    · intro heq
      simp only [SameNet, heq, and_self]
  constructor
  · exact fun hp => hp.imp_of_mem fun hx hy hne heq => hne ((hsame hx hy).mpr heq)
  · exact fun hp => hp.imp_of_mem fun hx hy hne heq => hne ((hsame hx hy).mp heq)

/-- The comment above the lines for all other addresses is on one line. -/
theorem feed_default {vals : List (String × Binary64)} (hvals : default = some vals) :
    '\n' ∉ comment ("anything else: " ++
      if a.default = "average" then "the average of all sites" else "as " ++ a.default) := by
  refine feed_comment ?_
  rw [String.toList_append, List.mem_append, not_or]
  refine ⟨by decide +kernel, ?_⟩
  split
  · decide +kernel
  · next hother =>
    rcases defaultValues_spec h.default_eq with hnone | ⟨haverage, -⟩ | ⟨l, hl, hdefault, -⟩
    · rw [hvals] at hnone
      cases hnone
    · exact absurd haverage hother
    · rw [← hdefault, String.toList_append, List.mem_append, not_or]
      exact ⟨by decide +kernel, h.feed_label hl⟩

/-- No line of the file is broken. -/
theorem feed_outLines (hpeak : '\n' ∉ a.peakHours.toList) :
    ∀ l ∈ outLines py a names lines default, '\n' ∉ l := by
  have hroute : ∀ x ∈ routes py names lines default, '\n' ∉ routeLine x.2 :=
    fun x hx => (h.route_ok hx).1.feed_notMem
  rw [routes, List.forall_mem_append] at hroute
  rw [outLines, List.forall_mem_append, List.forall_mem_append]
  refine ⟨⟨feed_headLines h.lawful hpeak, ?_⟩, ?_⟩
  · intro x hx
    obtain ⟨l, hl, hx⟩ := List.mem_flatMap.mp hx
    rcases List.mem_cons.mp hx with rfl | hx
    · exact feed_comment (h.feed_label hl)
    · obtain ⟨net, hnet, rfl⟩ := List.mem_map.mp hx
      exact hroute.1 (net.net, py.str net, relayTimes names l.vals)
        (List.mem_flatMap.mpr ⟨l, hl, List.mem_map.mpr ⟨net, hnet, rfl⟩⟩)
  · cases default with
    | none => exact List.forall_mem_nil _
    | some vals =>
      obtain ⟨hv4, hv6⟩ : '\n' ∉ routeLine ("0.0.0.0/0", relayTimes names vals) ∧
          '\n' ∉ routeLine ("::/0", relayTimes names vals) := by
        simpa [defaultRoutes] using hroute.2
      simp only [defaultLines, List.forall_mem_cons]
      exact ⟨List.not_mem_nil, h.feed_default rfl, hv4, hv6, List.forall_mem_nil _⟩

/-- **The file is accepted exactly if it is readable**, with the rules of its lines. -/
theorem parse_iff (hpeak : '\n' ∉ a.peakHours.toList) (hne : lines ≠ []) {t : RouteTable} :
    RouteTable.parse U parseNetwork
        (['\n'].intercalate (outLines py a names lines default) ++ ['\n']) = .ok t ↔
      Readable py a rows lines ∧ t = ⟨((routes py names lines default).map fun x =>
        ⟨x.1, addTimes ∅ x.2.2⟩).insertionSort longerFirst⟩ := by
  have htext := Plain.lines_joined (by simp [outLines, headLines]) (h.feed_outLines hpeak)
  rw [parse_networkLines htext, networkLines_outLines fun x hx => (h.route_ok hx).1,
    List.forall_mem_map, h.lines_read_iff]
  constructor
  · rintro ⟨⟨hplain, hdistinct, hsmall⟩, hapart, -, ht⟩
    rw [fileRules_routes fun x hx => h.rule_of_route hplain hdistinct hsmall hx] at hapart ht
    exact ⟨⟨hplain, h.apart_iff.mp hapart, hdistinct, hsmall⟩, ht⟩
  · rintro ⟨⟨hplain, hapart, hdistinct, hsmall⟩, ht⟩
    rw [fileRules_routes fun x hx => h.rule_of_route hplain hdistinct hsmall hx]
    refine ⟨⟨hplain, hdistinct, hsmall⟩, h.apart_iff.mpr hapart, ?_, ht⟩
    obtain ⟨l, hl⟩ := List.exists_mem_of_ne_nil lines hne
    obtain ⟨net, hnet⟩ := List.exists_mem_of_ne_nil _ (h.sites_ok _ (h.mem l hl)).nets_ne
    exact List.ne_nil_of_mem (List.mem_map.mpr ⟨_, mem_routes hl hnet, rfl⟩)

/-- The rules of the lines, by what is written for each network. -/
theorem rules_eq : ((routes py names lines default).map fun x => ⟨x.1, addTimes ∅ x.2.2⟩) =
    (writtenTimes py a lines).map fun x => (⟨x.1, addTimes ∅ (relayTimes names x.2)⟩ : Rule) := by
  have hrules := congrArg (List.map fun x => (⟨x.1, addTimes ∅ x.2⟩ : Rule)) h.routes_times
  rwa [List.map_map, List.map_map] at hrules

/-- **The costs for an address** are those of the most specific network that is written for the
address as it is looked up. -/
theorem costsFor_iff (hread : Readable py a rows lines) {ip : IpAddr} {costs : Costs} :
    RouteTable.costsFor ⟨((routes py names lines default).map fun x =>
        ⟨x.1, addTimes ∅ x.2.2⟩).insertionSort longerFirst⟩ ip = some costs ↔
      ∃ x ∈ writtenTimes py a lines, MostSpecific (writtenNets py a lines) ip.toCanonical x.1 ∧
        (fun relay => (addTimes ∅ (relayTimes names x.2)).lookup relay) = costs := by
  have hperm := List.perm_insertionSort longerFirst ((routes py names lines default).map fun x =>
    (⟨x.1, addTimes ∅ x.2.2⟩ : Rule))
  have hapart := (h.apart_iff.mpr hread.apart).perm hperm.symm
  have hfind : ∀ r, _ ↔ _ := fun r =>
    @find_longest_iff _ ip.toCanonical r hapart (longerFirst_sorted _)
  have hlong : ∀ r : Rule, Longest ((routes py names lines default).map fun x =>
      ⟨x.1, addTimes ∅ x.2.2⟩) ip.toCanonical r ↔ ∃ x ∈ writtenTimes py a lines,
        MostSpecific (writtenNets py a lines) ip.toCanonical x.1 ∧
          ⟨x.1, addTimes ∅ (relayTimes names x.2)⟩ = r := by
    intro r
    rw [h.rules_eq, Longest, List.mem_map, List.forall_mem_map]
    simp only [MostSpecific, writtenNets, List.forall_mem_map]
    constructor
    · rintro ⟨⟨x, hx, rfl⟩, hcontains, hlongest⟩
      exact ⟨x, hx, ⟨List.mem_map.mpr ⟨x, hx, rfl⟩, hcontains, hlongest⟩, rfl⟩
    · rintro ⟨x, hx, ⟨-, hcontains, hlongest⟩, rfl⟩
      exact ⟨⟨x, hx, rfl⟩, hcontains, hlongest⟩
  rw [RouteTable.costsFor, Option.map_eq_some_iff]
  constructor
  · rintro ⟨r, hr, rfl⟩
    obtain ⟨x, hx, hspecific, rfl⟩ := (hlong r).mp (((hfind r).mp hr).perm hperm)
    exact ⟨x, hx, hspecific, rfl⟩
  · rintro ⟨x, hx, hspecific, rfl⟩
    have hrule := (hlong _).mpr ⟨x, hx, hspecific, rfl⟩
    exact ⟨_, (hfind _).mpr (hrule.perm hperm.symm), rfl⟩

/-- What is written for a network is as the times of a site are. -/
theorem times_of_written {x : IpNetwork × List (String × Binary64)}
    (hx : x ∈ writtenTimes py a lines) :
    TimesOk rows x.2 ∧ ((∀ l ∈ lines, Distinct py rows l.vals) → Distinct py rows x.2) := by
  rcases h.mem_writtenTimes.mp hx with ⟨l, hl, net, -, rfl⟩ | hx
  · exact ⟨h.times l hl, fun hall => hall l hl⟩
  · cases default with
    | none => cases hx
    | some vals =>
      have hdefault := default_spec h.lawful h.times h.default_eq
      rcases List.mem_pair.mp hx with rfl | rfl
      · exact hdefault
      · exact hdefault

/-- The costs of a line are its times. -/
theorem lookup_times (hread : Readable py a rows lines) {x : IpNetwork × List (String × Binary64)}
    (hx : x ∈ writtenTimes py a lines) {relay : String} {ms : ℚ} :
    (addTimes ∅ (relayTimes names x.2)).lookup relay = some ms ↔ Listed py rows x.2 relay ms := by
  obtain ⟨htimes, hdistinct⟩ := h.times_of_written hx
  have hnodup := (nodup_relayTimes h.relays htimes.measured htimes.nodup).mpr
    (hdistinct hread.distinct)
  -- a finite time is read as one
  have hfinite : ∀ {n v}, (n, v) ∈ x.2 → (ms = v.oneDecimal.getD 0 ↔ v.oneDecimal = some ms) := by
    intro n v hv
    have hsome := hread.small x hx _ hv
    rw [← Binary64.oneDecimal_isSome (htimes.nonneg _ hv)] at hsome
    obtain ⟨q, hq⟩ := Option.isSome_iff_exists.mp hsome
    rw [show v.oneDecimal = some q from hq, Option.getD_some, Option.some.injEq, eq_comm]
  rw [lookup_addTimes hnodup, AList.lookup_empty]
  simp only [mem_relayTimes h.relays htimes.measured]
  constructor
  · rintro (⟨v, ⟨r, hr, hrelay, hv⟩, hms⟩ | ⟨-, hnone⟩)
    · exact ⟨r, hr, hrelay, v, hv, (hfinite hv).mp hms⟩
    · cases hnone
  · rintro ⟨r, hr, hrelay, v, hv, hms⟩
    exact .inl ⟨v, ⟨r, hr, hrelay, hv⟩, (hfinite hv).mpr hms⟩

/-- An address has the times of a site if it, or what it is looked up as, has a network with
these for its most specific one. -/
theorem exists_mostSpecific (hmapped : MappedAlike py a rows lines) {l : Line} (hl : l ∈ lines)
    {net : PyNetwork} (hnet : net ∈ l.nets) {ip : IpAddr}
    (hip : MostSpecific (writtenNets py a lines) ip net.net) :
    ∃ x ∈ writtenTimes py a lines, MostSpecific (writtenNets py a lines) ip.toCanonical x.1 ∧
      ∀ relay ms, Listed py rows x.2 relay ms ↔ Listed py rows l.vals relay ms := by
  have hself : (net.net, l.vals) ∈ writtenTimes py a lines :=
    h.mem_writtenTimes.mpr (.inl ⟨l, hl, net, hnet, rfl⟩)
  cases ip with
  | v4 b => exact ⟨_, hself, hip, fun _ _ => Iff.rfl⟩
  | v6 b =>
    rw [IpAddr.toCanonical]
    split
    · next v4 hv4 => exact hmapped l hl net hnet b v4 hv4 hip
    · exact ⟨_, hself, hip, fun _ _ => Iff.rfl⟩

/-- **Which tables say of every address what was measured for its network.** -/
theorem costs_right_iff (hread : Readable py a rows lines) :
    (∀ l ∈ lines, ∀ net ∈ l.nets, ∀ ip : IpAddr,
      MostSpecific (writtenNets py a lines) ip net.net →
        ∃ costs, RouteTable.costsFor ⟨((routes py names lines default).map fun x =>
          ⟨x.1, addTimes ∅ x.2.2⟩).insertionSort longerFirst⟩ ip = some costs ∧
            ∀ relay ms, costs relay = some ms ↔ Listed py rows l.vals relay ms) ↔
      MappedAlike py a rows lines := by
  constructor
  · intro hright l hl net hnet b v4 hv4 hip
    obtain ⟨costs, hcosts, hlisted⟩ := hright l hl net hnet _ hip
    obtain ⟨x, hx, hspecific, rfl⟩ := (h.costsFor_iff hread).mp hcosts
    rw [IpAddr.toCanonical, hv4] at hspecific
    exact ⟨x, hx, hspecific, fun relay ms => (h.lookup_times hread hx).symm.trans
      (hlisted relay ms)⟩
  · intro hmapped l hl net hnet ip hip
    obtain ⟨x, hx, hspecific, hsame⟩ := h.exists_mostSpecific hmapped hl hnet hip
    exact ⟨_, (h.costsFor_iff hread).mpr ⟨x, hx, hspecific, rfl⟩,
      fun relay ms => (h.lookup_times hread hx).trans (hsame relay ms)⟩

end WrittenFrom

section Agree

variable {U : Unicode} {parseNetwork : String → Option IpNetwork} {py : Python} {a : Args}
  {rows : List Row} {sites : List (String × List PyNetwork)} {sitesText text : List Char}

theorem cmdRoutes_spec (hsites : readSites py a.sites sitesText = .ok sites)
    (h : cmdRoutes py a rows sitesText = .ok text) :
    ∃ names default, (∀ r ∈ rows, names.lookup r.node = some (r.relay py)) ∧
      defaultValues py a (written py a (honest py rows) sites) = .ok default ∧
      written py a (honest py rows) sites ≠ [] ∧
      text = ['\n'].intercalate (outLines py a names (written py a (honest py rows) sites) default)
        ++ ['\n'] := by
  rw [cmdRoutes, hsites] at h
  split at h
  · cases h
  · dsimp only at h
    split at h
    · cases h
    · next names hnames =>
      split at h
      · cases h
      · next lines hlines =>
        split at h
        · cases h
        · next default hdefault =>
          split at h
          · cases h
          · next hne =>
            cases h
            rw [← siteLines_eq hlines]
            exact ⟨names, default, (relayNames_spec hnames).2, hdefault, hne, rfl⟩

/-- **What is written.** -/
theorem writtenFrom_of_cmdRoutes (hpy : py.Lawful)
    (hsites : readSites py a.sites sitesText = .ok sites)
    (hagree : Agree U parseNetwork py sites) (hrows : ∀ r ∈ rows, r.Grammar ∧ r.Nonneg)
    (ha : 0 ≤ a.lossPenalty) (h : cmdRoutes py a rows sitesText = .ok text) :
    ∃ names default,
      WrittenFrom U parseNetwork py a rows sites names (written py a (honest py rows) sites)
        default ∧
      written py a (honest py rows) sites ≠ [] ∧
      text = ['\n'].intercalate (outLines py a names (written py a (honest py rows) sites) default)
        ++ ['\n'] := by
  obtain ⟨names, default, hnames, hdefault, hne, htext⟩ := cmdRoutes_spec hsites h
  refine ⟨names, default, ⟨hpy, hagree, fun r hr => (hrows r hr).1, readSites_spec hsites, hnames,
    fun l hl => ?_, fun l hl => (mem_written hl).1, hdefault⟩, hne, htext⟩
  exact timesOk_of_written (fun r hr => (hrows r hr).2) ha hl

/-- **The table that is written is the table that is read**, exactly if it is readable (no
network of a site that gets lines has a zone, no network is written twice, the nodes of a site
are different relays, and all times are finite) and mapped addresses are alike. -/
theorem written_table_read_iff (hpy : py.Lawful)
    (hsites : readSites py a.sites sitesText = .ok sites)
    (hagree : Agree U parseNetwork py sites) (hrows : ∀ r ∈ rows, r.Grammar ∧ r.Nonneg)
    (ha : 0 ≤ a.lossPenalty) (hpeak : '\n' ∉ a.peakHours.toList)
    (h : cmdRoutes py a rows sitesText = .ok text) :
    TableRead U parseNetwork py a rows (written py a (honest py rows) sites) text ↔
      Readable py a rows (written py a (honest py rows) sites) ∧
        MappedAlike py a rows (written py a (honest py rows) sites) := by
  obtain ⟨names, default, hfrom, hne, rfl⟩ :=
    writtenFrom_of_cmdRoutes hpy hsites hagree hrows ha h
  constructor
  · rintro ⟨t, ht, hright⟩
    obtain ⟨hread, rfl⟩ := (hfrom.parse_iff hpeak hne).mp ht
    exact ⟨hread, (hfrom.costs_right_iff hread).mp hright⟩
  · rintro ⟨hread, hmapped⟩
    exact ⟨_, (hfrom.parse_iff hpeak hne).mpr ⟨hread, rfl⟩,
      (hfrom.costs_right_iff hread).mpr hmapped⟩

end Agree

/-! ### A table that is read, and one that is not -/

instance : DecidablePred IpNetwork.Normal
  | .v4 _ => inferInstanceAs (Decidable (_ ∧ _))
  | .v6 _ _ => inferInstanceAs (Decidable (_ ∧ _))

/-- The text of an IPv4 network. -/
def textNetwork (n : Ipv4Network) : List Char :=
  ['.'].intercalate ((IpAddr.octets n.addr).map (Nat.toDigits 10)) ++
    '/' :: Nat.toDigits 10 n.maskLen

/-- Python's functions on plain texts: ASCII letters, whole numbers, and IPv4 networks. -/
def Python.plain : Python where
  lower s := String.ofList (s.toList.map Char.toLower)
  repr s := "'" ++ s ++ "'"
  int := Text.parseSigned 64
  general v := String.ofList (Nat.toDigits 10 (v.toRat?.getD 0).num.toNat)
  sum l := l.foldl (· + ·) (.ofRat 0)
  ipAddress s := (plainNetwork (s ++ "/32")).map IpNetwork.network
  ipNetwork s :=
    match plainNetwork s with
    | some (.v4 n) =>
      let size := 2 ^ (32 - n.maskLen)
      let net := IpNetwork.v4 ⟨BitVec.ofNat 32 (n.addr.toNat / size * size), n.maskLen⟩
      if h : net.Normal then some ⟨net, h, none⟩ else none
    | _ => none
  str net :=
    match net.net with
    | .v4 n => String.ofList (textNetwork n)
    | .v6 addr maskLen => IpAddr.textV6 addr ++ "/" ++ toString maskLen

/-- `ipnetwork` on the same texts, and on the network of all IPv6 addresses. -/
def plainNetworks (s : String) : Option IpNetwork :=
  if s = "::/0" then some (.v6 0 0) else plainNetwork s

theorem isDigit_netChar {c : Char} (h : c.isDigit = true) : NetChar c := by
  have hnum : 48 ≤ c.toNat ∧ c.toNat ≤ 57 := Char.isDigit_iff_toNat.mp h
  exact .inl ⟨by omega, by omega⟩

theorem netChar_textNetwork {n : Ipv4Network} {c : Char} (h : c ∈ textNetwork n) : NetChar c := by
  rw [textNetwork, List.mem_append, List.mem_cons] at h
  rcases h with h | rfl | h
  · rcases mem_intercalate h with rfl | ⟨l, hl, hc⟩
    · exact .inl (by decide)
    · obtain ⟨d, -, rfl⟩ := List.mem_map.mp hl
      exact isDigit_netChar (Plain.toDigits_isDigit hc)
  · exact .inl (by decide)
  · exact isDigit_netChar (Plain.toDigits_isDigit h)

theorem Python.plain_lawful : Python.plain.Lawful where
  lower := Unicode.ascii_keepsShape
  general q := by
    intro hmem
    rw [Python.plain, String.toList_ofList] at hmem
    exact absurd (Plain.toDigits_isDigit hmem) (by decide)
  sum_nonneg l hl := foldl_add_nonneg hl (Binary64.ofRat_nonneg le_rfl)
  str_ne net := by
    intro hempty
    have hlen := congrArg (fun s : String => s.toList.length) hempty
    simp only [Python.plain] at hlen
    split at hlen
    · simp [textNetwork] at hlen
    · simp at hlen
  str text net hnet c hc := by
    simp only [Python.plain] at hnet hc
    split at hnet
    · split at hnet
      · cases hnet
        dsimp only at hc
        rw [String.toList_ofList] at hc
        exact .inr (netChar_textNetwork hc)
      · cases hnet
    · cases hnet

/-- A measurement of a node, without loss. -/
def measured (site node host : String) (ms : ℚ) : Row :=
  ⟨site, node, host, "31107", "192.0.2.1", some ms, some 0, some 0, some 0⟩

/-- Two nodes measured at home. -/
def measurements : List Row := [measured "home" "hk" "HK" (161 / 4), measured "home" "sh" "sh" 96]

/-- The arguments as they are by default. -/
def defaults : Args := ⟨"sites.txt", .worst, "19-23", 3, 10, "none"⟩

/-- Home, and its network by one of its addresses. -/
def onePlace : List Char := "home 203.0.113.77/24\n".toList

theorem measurements_ok : ∀ r ∈ measurements, r.Grammar ∧ r.Nonneg := by
  have hword : ∀ s ∈ ["HK", "sh", "31107"], SiteWord s.toList := by
    simp [SiteWord, isspace, Text.isWhitespace]
  have hpositive : ∀ q ∈ [(161 / 4 : ℚ), 96], 0 ≤ q := by decide +kernel
  simp only [measurements, measured, List.forall_mem_cons]
  refine ⟨⟨⟨hword _ (by simp), hword _ (by simp)⟩, ?_⟩,
    ⟨⟨hword _ (by simp), hword _ (by simp)⟩, ?_⟩, List.forall_mem_nil _⟩
  · exact ⟨by simpa using hpositive _ (by simp), by simp⟩
  · exact ⟨by simp, by simp⟩

/-- The sites of a file. -/
def placesOf (text : List Char) : List (String × List PyNetwork) :=
  (readSites .plain "sites.txt" text).toOption.getD []

theorem plain_agree {sites : List (String × List PyNetwork)}
    (h : ∀ s ∈ sites, ∀ net ∈ s.2,
      plainNetworks (Python.plain.str net) = if net.zone = none then some net.net else none) :
    Agree .ascii plainNetworks .plain sites where
  lower s := by
    have hlower : ∀ c : Char, c.toLower.toLower = c.toLower := by
      intro c
      by_cases hupper : 65 ≤ c.toNat ∧ c.toNat ≤ 90
      · refine toLower_eq ?_
        rw [toLower_toNat hupper.1 hupper.2]
        omega
      · rw [toLower_eq hupper, toLower_eq hupper]
    simp only [Unicode.ascii, Python.plain, String.toList_ofList, List.map_map]
    congr 1
    exact List.map_congr_left fun c _ => hlower c
  net := h
  v4 := by decide +kernel
  v6 := by decide +kernel

/-- Where the networks of the sites are IPv4 networks, no mapped address is in one. -/
theorem mappedAlike_of_v4 {py : Python} {a : Args} {rows : List Row} {lines : List Line}
    (h : ∀ l ∈ lines, ∀ net ∈ l.nets, ∃ n, net.net = .v4 n) : MappedAlike py a rows lines := by
  rintro l hl net hnet b v4 - ⟨-, hcontains, -⟩
  obtain ⟨n, hn⟩ := h l hl net hnet
  rw [hn] at hcontains
  cases hcontains

theorem written_table_read_onePlace :
    ∃ text, cmdRoutes .plain defaults measurements onePlace = .ok text ∧
      TableRead .ascii plainNetworks .plain defaults measurements
        (written .plain defaults (honest .plain measurements) (placesOf onePlace)) text := by
  have hok : (cmdRoutes .plain defaults measurements onePlace).isOk = true := by decide +kernel
  have hsites : readSites .plain "sites.txt" onePlace = .ok (placesOf onePlace) := by
    decide +kernel
  have hlines : ∀ l ∈ written .plain defaults (honest .plain measurements) (placesOf onePlace),
      (∀ net ∈ l.nets, net.zone = none ∧ net.net = .v4 ⟨BitVec.ofNat 32 3405803776, 24⟩) ∧
      ∀ r ∈ measurements, ∀ r' ∈ measurements, r.node ∈ l.vals.map Prod.fst →
        r'.node ∈ l.vals.map Prod.fst → r.relay .plain = r'.relay .plain → r.node = r'.node := by
    decide +kernel
  have hsmall : ∀ x ∈ writtenTimes .plain defaults
      (written .plain defaults (honest .plain measurements) (placesOf onePlace)),
      ∀ y ∈ x.2, y.2.toRat?.isSome := by decide +kernel
  cases hp : cmdRoutes .plain defaults measurements onePlace with
  | error e =>
    rw [hp] at hok
    cases hok
  | ok text =>
    refine ⟨text, rfl, (written_table_read_iff Python.plain_lawful hsites (plain_agree ?_)
      measurements_ok (by decide) ?_ hp).mpr
        ⟨⟨fun l hl net hnet => ((hlines l hl).1 net hnet).1, ?_,
          fun l hl => (hlines l hl).2, hsmall⟩, ?_⟩⟩
    · decide +kernel
    · decide +kernel
    · decide +kernel
    · exact mappedAlike_of_v4 fun l hl net hnet => ⟨_, ((hlines l hl).1 net hnet).2⟩

/-- A place whose network stands there twice. -/
def samePlace : List Char := "home 203.0.113.0/24,203.0.113.77/24\n".toList

/-- The table has two lines for the network, and is refused. -/
theorem repeated_network_refused :
    ¬∀ (rows : List Row) (sitesText : List Char) (sites : List (String × List PyNetwork))
      (text : List Char), readSites .plain defaults.sites sitesText = .ok sites →
      Agree .ascii plainNetworks .plain sites → (∀ r ∈ rows, r.Grammar ∧ r.Nonneg) →
      cmdRoutes .plain defaults rows sitesText = .ok text →
      TableRead .ascii plainNetworks .plain defaults rows
        (written .plain defaults (honest .plain rows) sites) text := by
  intro hall
  have hsites : readSites .plain defaults.sites samePlace = .ok (placesOf samePlace) := by
    decide +kernel
  have hok : (cmdRoutes .plain defaults measurements samePlace).isOk = true := by decide +kernel
  have hagree : Agree .ascii plainNetworks .plain (placesOf samePlace) :=
    plain_agree (by decide +kernel)
  cases hp : cmdRoutes .plain defaults measurements samePlace with
  | error e =>
    rw [hp] at hok
    cases hok
  | ok text =>
    obtain ⟨t, ht, -⟩ := hall measurements samePlace _ text hsites hagree measurements_ok hp
    obtain ⟨names, default, hfrom, hne, rfl⟩ :=
      writtenFrom_of_cmdRoutes Python.plain_lawful hsites hagree measurements_ok (by decide) hp
    have hread := ((hfrom.parse_iff (by decide +kernel) hne).mp ht).1
    exact absurd hread.apart (by decide +kernel)

end Rtt
end RustdeskServer
