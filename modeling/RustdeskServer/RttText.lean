import Mathlib.Data.List.TakeWhile
import RustdeskServer.RelayKept
import RustdeskServer.RouteLookup
import RustdeskServer.RttInputs

/-!
# Reading back the text of a routing table

What `relay_rtt.py routes` writes on a line is cut by `RouteTable::parse` where it was put
together, because neither networks nor relays have a character that a line is cut at.  A line
is refused if a relay stands in it twice, if a time is too large, or if its network is not
read.  Comments are passed over.

## Main definitions

* `Rtt.Python.Lawful`, `Rtt.Agree` — what is used of Python's functions, and that texts mean the
  same on both sides.
* `Rtt.routes` — the lines of the file for networks.
* `Rtt.networkLines` — the lines of a file that are not comments.

## Main results

* `Rtt.lineRule_routeLine` — **a line of the table is read back.**
* `Rtt.nodup_relayTimes` — no relay stands in a line twice if the nodes are different relays.
* `Rtt.networkLines_outLines` — what is left of the file without its comments.
* `Rtt.parse_networkLines` — only those lines count.
-/

namespace RustdeskServer

open Plain (Binary64)

namespace Rtt

/-! ### A line -/

section Fields

variable {U : Unicode} {parseNetwork : String → Option IpNetwork}

/-- A text with nothing in it that a line is cut at. -/
def Solid (s : List Char) : Prop := ∀ c ∈ s, Text.isWhitespace c = false ∧ c ≠ ',' ∧ c ≠ '#'

/-- A relay that is its own name. -/
structure RelayName (U : Unicode) (s : String) : Prop where
  solid : Solid s.toList
  port : ':' ∈ s.toList
  lower : U.toLowercase s = s

theorem RelayName.trim {s : String} (h : RelayName U s) : Text.trimChars s.toList = s.toList :=
  Text.trimChars_of_all fun c hc => (h.solid c hc).1

theorem RelayName.normalize {s : String} (h : RelayName U s) : normalize U s = s := by
  have htrim : Text.trim s = s := by
    change String.ofList (Text.trimChars s.toList) = s
    rw [h.trim, String.ofList_toList]
  have hport : Text.contains ':' s = true := by simpa [Text.contains] using h.port
  rw [RustdeskServer.normalize, htrim, h.lower]
  exact if_pos hport

theorem mem_fixed1 {v : Binary64} {c : Char} (h : c ∈ v.fixed1) :
    45 ≤ c.toNat ∧ c.toNat ≤ 57 ∨ 97 ≤ c.toNat ∧ c.toNat ≤ 110 := by
  cases v with
  | finite q _ =>
    rcases Plain.mem_fixed1 h with hdigit | rfl | rfl
    · have hdigit : 48 ≤ c.toNat ∧ c.toNat ≤ 57 := Char.isDigit_iff_toNat.mp hdigit
      omega
    · decide
    · decide
  | infinite neg =>
    have hname : ∀ c ∈ ['-', 'i', 'n', 'f'],
        45 ≤ c.toNat ∧ c.toNat ≤ 57 ∨ 97 ≤ c.toNat ∧ c.toNat ≤ 110 := by
      simp only [List.forall_mem_cons]
      exact ⟨by decide, by decide, by decide, by decide, List.forall_mem_nil _⟩
    cases neg with
    | true => exact hname c h
    | false => exact hname c (List.mem_cons_of_mem _ h)
  | nan =>
    have hname : ∀ c ∈ ['n', 'a', 'n'],
        45 ≤ c.toNat ∧ c.toNat ≤ 57 ∨ 97 ≤ c.toNat ∧ c.toNat ≤ 110 := by
      simp only [List.forall_mem_cons]
      exact ⟨by decide, by decide, by decide, List.forall_mem_nil _⟩
    exact hname c h

theorem solid_fixed1 (v : Binary64) : Solid v.fixed1 ∧ '=' ∉ v.fixed1 := by
  refine ⟨fun c hc => ?_, fun heq => ?_⟩
  · have hchars := mem_fixed1 hc
    refine ⟨?_, ?_, ?_⟩
    · simp only [Text.isWhitespace]
      simp
      omega
    · rintro rfl
      exact absurd hchars (by decide)
    · rintro rfl
      exact absurd hchars (by decide)
  · exact absurd (mem_fixed1 heq) (by decide)

theorem Solid.timeField {x : String × Binary64} (h : Solid x.1.toList) : Solid (timeField x) := by
  intro c hc
  rw [Rtt.timeField, List.mem_append, List.mem_cons] at hc
  rcases hc with hc | rfl | hc
  · exact h c hc
  · decide
  · exact (solid_fixed1 x.2).1 c hc

/-- The costs so far with those of the relays. -/
def addTimes (costs : HashMap String ℚ) (l : List (String × Binary64)) : HashMap String ℚ :=
  l.foldl (fun costs x => costs.insert x.1 (x.2.oneDecimal.getD 0)) costs

/-- **The relays of a line are read back**, if none is listed twice and all times are finite. -/
theorem parseCosts_timeFields {n : ℕ} {l : List (String × Binary64)}
    {costs costs' : HashMap String ℚ} (h : ∀ x ∈ l, RelayName U x.1 ∧ x.2.Nonneg) :
    parseCosts U n (l.map timeField) costs = .ok costs' ↔
      (∀ x ∈ l, x.2.oneDecimal.isSome) ∧ (l.map Prod.fst).Nodup ∧
        (∀ x ∈ l, costs.lookup x.1 = none) ∧ costs' = addTimes costs l := by
  induction l generalizing costs with
  | nil =>
    rw [List.map_nil, parseCosts, Except.ok.injEq]
    refine ⟨fun heq => ?_, fun hall => hall.2.2.2.symm⟩
    exact ⟨List.forall_mem_nil _, List.nodup_nil, List.forall_mem_nil _, heq.symm⟩
  | cons x l ih =>
    obtain ⟨⟨hname, hnonneg⟩, h⟩ := List.forall_mem_cons.mp h
    have hsplit : Plain.rsplitOnce '=' (timeField x) = some (x.1.toList, x.2.fixed1) :=
      Plain.rsplitOnce_append (solid_fixed1 x.2).2
    have hne : Text.trimChars x.1.toList ≠ [] := by
      rw [hname.trim]
      exact List.ne_nil_of_mem hname.port
    rw [List.map_cons, parseCosts, hsplit]
    dsimp only
    rw [Binary64.parse?_fixed1 hnonneg]
    cases hms : x.2.oneDecimal with
    | none =>
      refine ⟨fun hok => (by cases hok), fun hall => ?_⟩
      have := hall.1 x List.mem_cons_self
      rw [hms] at this
      cases this
    | some ms =>
      have hpos : ¬ms < 0 := not_lt.mpr (Binary64.oneDecimal_nonneg hnonneg hms)
      dsimp only
      rw [String.ofList_toList, hname.normalize, if_neg hne, if_neg hpos]
      cases hlookup : costs.lookup x.1 with
      | some prev =>
        rw [Option.isSome_some, if_pos rfl]
        refine ⟨fun hok => (by cases hok), fun hall => ?_⟩
        have := hall.2.2.1 x List.mem_cons_self
        rw [hlookup] at this
        cases this
      | none =>
        rw [Option.isSome_none, if_neg (by decide), ih h, List.forall_mem_cons, List.map_cons,
          List.nodup_cons, List.forall_mem_cons]
        have hfresh : (∀ y ∈ l, (costs.insert x.1 ms).lookup y.1 = none) ↔
            x.1 ∉ l.map Prod.fst ∧ ∀ y ∈ l, costs.lookup y.1 = none := by
          simp only [AList.lookup_insert_eq_none, List.mem_map, not_exists, not_and]
          exact ⟨fun hall => ⟨fun y hy => (hall y hy).1, fun y hy => (hall y hy).2⟩,
            fun hall y hy => ⟨hall.1 y hy, hall.2 y hy⟩⟩
        have hadd : addTimes costs (x :: l) = addTimes (costs.insert x.1 ms) l := by
          rw [addTimes, List.foldl_cons, hms]
          rfl
        rw [hfresh, hadd]
        constructor
        · rintro ⟨htimes, hnodup, ⟨hnew, hnone⟩, rfl⟩
          exact ⟨⟨by rw [hms]; rfl, htimes⟩, ⟨hnew, hnodup⟩, ⟨hlookup, hnone⟩, rfl⟩
        · rintro ⟨⟨-, htimes⟩, ⟨hnew, hnodup⟩, ⟨-, hnone⟩, rfl⟩
          exact ⟨htimes, hnodup, ⟨hnew, hnone⟩, rfl⟩

/-- The costs of a line are the times of its relays. -/
theorem lookup_addTimes {l : List (String × Binary64)} {costs : HashMap String ℚ}
    (hnodup : (l.map Prod.fst).Nodup) {relay : String} {ms : ℚ} :
    (addTimes costs l).lookup relay = some ms ↔
      (∃ v, (relay, v) ∈ l ∧ ms = v.oneDecimal.getD 0) ∨
        relay ∉ l.map Prod.fst ∧ costs.lookup relay = some ms := by
  induction l generalizing costs with
  | nil => simp [addTimes]
  | cons x l ih =>
    obtain ⟨hnew, hnodup⟩ := List.nodup_cons.mp hnodup
    have hrest := @ih (costs.insert x.1 (x.2.oneDecimal.getD 0)) hnodup
    rw [addTimes, List.foldl_cons, ← addTimes, hrest]
    by_cases hx : relay = x.1
    · subst hx
      rw [AList.lookup_insert]
      have hnone : ∀ v, (x.1, v) ∉ l := fun v hv => hnew (List.mem_map.mpr ⟨_, hv, rfl⟩)
      constructor
      · rintro (⟨v, hv, -⟩ | ⟨-, hms⟩)
        · exact absurd hv (hnone v)
        · exact .inl ⟨x.2, List.mem_cons_self, (Option.some.inj hms).symm⟩
      · rintro (⟨v, hv, rfl⟩ | ⟨hnot, -⟩)
        · rcases List.mem_cons.mp hv with heq | hv
          · rw [← heq]
            exact .inr ⟨by rwa [← heq] at hnew, rfl⟩
          · exact absurd hv (hnone v)
        · exact absurd List.mem_cons_self hnot
    · rw [AList.lookup_insert_ne hx]
      have hmem : ∀ v, (relay, v) ∈ x :: l ↔ (relay, v) ∈ l := by
        intro v
        rw [List.mem_cons, or_iff_right]
        rintro rfl
        exact hx rfl
      simp only [hmem, List.map_cons, List.mem_cons, not_or, hx, not_false_eq_true, true_and]

theorem mem_intercalate {sep c : Char} {ls : List (List Char)} (h : c ∈ [sep].intercalate ls) :
    c = sep ∨ ∃ l ∈ ls, c ∈ l := by
  induction ls with
  | nil => simp at h
  | cons l ls ih =>
    cases ls with
    | nil => exact .inr ⟨l, List.mem_cons_self, by simpa using h⟩
    | cons l' ls =>
      rw [List.intercalate_cons_cons, List.mem_append, List.mem_append, List.mem_singleton] at h
      rcases h with (h | rfl) | h
      · exact .inr ⟨l, List.mem_cons_self, h⟩
      · exact .inl rfl
      · rcases ih h with rfl | ⟨m, hm, hc⟩
        · exact .inl rfl
        · exact .inr ⟨m, List.mem_cons_of_mem _ hm, hc⟩

/-- A network and relays as a line has them: with nothing in them that it is cut at. -/
structure RouteOk (x : String × List (String × Binary64)) : Prop where
  net : Solid x.1.toList
  net_ne : x.1.toList ≠ []
  relays : ∀ y ∈ x.2, Solid y.1.toList
  relays_ne : x.2 ≠ []

namespace RouteOk

variable {x : String × List (String × Binary64)} (h : RouteOk x)

include h

theorem fields : ∀ c ∈ [','].intercalate (x.2.map timeField),
    Text.isWhitespace c = false ∧ c ≠ '#' := by
  intro c hc
  rcases mem_intercalate hc with rfl | ⟨l, hl, hc⟩
  · decide
  · obtain ⟨y, hy, rfl⟩ := List.mem_map.mp hl
    obtain ⟨hspace, -, hmark⟩ := (h.relays y hy).timeField c hc
    exact ⟨hspace, hmark⟩

theorem fields_ne : [','].intercalate (x.2.map timeField) ≠ [] := by
  obtain ⟨y, ys, hys⟩ := List.exists_cons_of_ne_nil h.relays_ne
  rw [hys, List.map_cons]
  have hy : timeField y ≠ [] := by simp [timeField]
  cases ys with
  | nil => simpa using hy
  | cons z zs => simp [hy]

theorem head : ∀ c ∈ (routeLine x).head?, Text.isWhitespace c = false ∧ c ≠ '#' := by
  intro c hc
  rw [routeLine, List.head?_append_of_ne_nil _ h.net_ne] at hc
  obtain ⟨hspace, -, hmark⟩ := h.net c (List.mem_of_mem_head? hc)
  exact ⟨hspace, hmark⟩

theorem last : ∀ c ∈ (routeLine x).getLast?, Text.isWhitespace c = false := by
  intro c hc
  have hshape : routeLine x =
      (x.1.toList ++ [' ', ' ']) ++ [','].intercalate (x.2.map timeField) := by
    simp [routeLine]
  rw [hshape, List.getLast?_append_of_ne_nil _ h.fields_ne] at hc
  exact (h.fields c (List.mem_of_mem_getLast? hc)).1

/-- The line has no comment, and no blanks around it. -/
theorem trimmed : Text.trimChars ((routeLine x).takeWhile (· ≠ '#')) = routeLine x := by
  have hwhole : (routeLine x).takeWhile (· ≠ '#') = routeLine x := by
    refine List.takeWhile_eq_self_iff.mpr fun c hc => ?_
    rw [routeLine, List.mem_append, List.mem_cons, List.mem_cons] at hc
    rcases hc with hc | rfl | rfl | hc
    · simpa using (h.net c hc).2.2
    · decide
    · decide
    · simpa using (h.fields c hc).2
  rw [hwhole]
  exact Text.trimChars_eq (fun c hc => (h.head c hc).1) h.last

theorem words : Plain.words Text.isWhitespace (routeLine x) =
    [x.1.toList, [','].intercalate (x.2.map timeField)] :=
  Plain.words_two (by decide) h.net_ne h.fields_ne (fun c hc => (h.net c hc).1)
    fun c hc => (h.fields c hc).1

theorem feed_notMem : '\n' ∉ routeLine x := by
  rw [routeLine, List.mem_append, List.mem_cons, List.mem_cons]
  rintro (hmem | hblank | hblank | hmem)
  · exact absurd (h.net _ hmem).1 (by decide)
  · cases hblank
  · cases hblank
  · exact absurd (h.fields _ hmem).1 (by decide)

/-- The relays of the line. -/
theorem entries : ([[','].intercalate (x.2.map timeField)].flatMap (·.splitOn ',')).filter
    (fun e => !e.isEmpty) = x.2.map timeField := by
  rw [List.flatMap_singleton, List.splitOn_intercalate ',' _ (by simpa using h.relays_ne)]
  · refine List.filter_eq_self.mpr fun e he => ?_
    obtain ⟨y, -, rfl⟩ := List.mem_map.mp he
    simp [timeField]
  · intro e he hmem
    obtain ⟨y, hy, rfl⟩ := List.mem_map.mp he
    exact ((h.relays y hy).timeField _ hmem).2.1 rfl

end RouteOk

/-- **A line of the table is read back.** -/
theorem lineRule_routeLine {x : String × List (String × Binary64)} (hx : RouteOk x)
    (h : ∀ y ∈ x.2, RelayName U y.1 ∧ y.2.Nonneg) (r : Option Rule) :
    lineRule U parseNetwork (routeLine x) = some r ↔
      ∃ net, parseNetwork x.1 = some net ∧ (∀ y ∈ x.2, y.2.oneDecimal.isSome) ∧
        (x.2.map Prod.fst).Nodup ∧ r = some ⟨net, addTimes ∅ x.2⟩ := by
  have hline : routeLine x ≠ [] := by simp [routeLine]
  have hcosts := fun costs => @parseCosts_timeFields U 0 x.2 ∅ costs h
  rw [lineRule, parseLine, hx.trimmed, if_neg hline, hx.words, parseWords, String.ofList_toList,
    hx.entries]
  cases parseNetwork x.1 with
  | none =>
    dsimp only
    constructor
    · intro hok
      cases hok
    · rintro ⟨net, hnone, -⟩
      cases hnone
  | some net =>
    dsimp only
    rw [List.any_nil, if_neg (by decide)]
    cases hp : parseCosts U 0 (x.2.map timeField) ∅ with
    | error e =>
      constructor
      · intro hok
        cases hok
      · rintro ⟨-, -, htimes, hnodup, -⟩
        have hok := (hcosts _).mpr ⟨htimes, hnodup, fun y _ => AList.lookup_empty y.1, rfl⟩
        rw [hp] at hok
        cases hok
    | ok costs =>
      obtain ⟨htimes, hnodup, -, rfl⟩ := (hcosts costs).mp hp
      have hsome : ¬(addTimes ∅ x.2).entries.isEmpty = true := by
        obtain ⟨y, ys, hys⟩ := List.exists_cons_of_ne_nil hx.relays_ne
        have hlookup := (@lookup_addTimes x.2 ∅ hnodup y.1 (y.2.oneDecimal.getD 0)).mpr
          (.inl ⟨y.2, by simp [hys], rfl⟩)
        intro hempty
        have : addTimes ∅ x.2 = ∅ := AList.ext (by simpa using hempty)
        rw [this, AList.lookup_empty] at hlookup
        cases hlookup
      dsimp only
      rw [if_neg hsome]
      constructor
      · intro heq
        exact ⟨net, rfl, htimes, hnodup, (Option.some.inj heq).symm⟩
      · rintro ⟨_, hnet', -, -, rfl⟩
        cases hnet'
        rfl

end Fields

/-! ### Names and networks -/

/-- A digit, a letter of a hexadecimal number, or a mark between them. -/
def NetChar (c : Char) : Prop :=
  46 ≤ c.toNat ∧ c.toNat ≤ 58 ∨ 97 ≤ c.toNat ∧ c.toNat ≤ 102 ∨ c = '%'

/-- What the text rests on, of Python's functions. -/
structure Python.Lawful (py : Python) : Prop where
  /-- Lower case leaves white space and all ASCII characters but letters alone. -/
  lower : ∀ s, Plain.Shape isMark s.toList (py.lower s).toList
  /-- A number is written on one line. -/
  general : ∀ q, '\n' ∉ (py.general q).toList
  /-- What is added up from numbers that are not negative is not negative. -/
  sum_nonneg : ∀ l, (∀ v ∈ l, v.Nonneg) → (py.sum l).Nonneg
  /-- A network has a text. -/
  str_ne : ∀ net, py.str net ≠ ""
  /-- It is made of numbers, and of a zone that was given. -/
  str : ∀ text net, py.ipNetwork text = some net →
    ∀ c ∈ (py.str net).toList, c ∈ text.toList ∨ NetChar c

/-- The texts mean the same on both sides. -/
structure Agree (U : Unicode) (parseNetwork : String → Option IpNetwork) (py : Python)
    (sites : List (String × List PyNetwork)) : Prop where
  /-- Lower case stays as it is. -/
  lower : ∀ s, U.toLowercase (py.lower s) = py.lower s
  /-- A network is read as what was written, and not at all if it has a zone. -/
  net : ∀ s ∈ sites, ∀ net ∈ s.2,
    parseNetwork (py.str net) = if net.zone = none then some net.net else none
  /-- All IPv4 addresses. -/
  v4 : parseNetwork "0.0.0.0/0" = some (.v4 ⟨0, 0⟩)
  /-- All IPv6 addresses. -/
  v6 : parseNetwork "::/0" = some (.v6 0 0)

/-- The host and the port are words of a file of nodes. -/
def Row.Grammar (r : Row) : Prop := SiteWord r.host.toList ∧ SiteWord r.port.toList

section Names

variable {U : Unicode} {parseNetwork : String → Option IpNetwork} {py : Python}
  {sites : List (String × List PyNetwork)} {rows : List Row} {names : HashMap String String}

theorem isWhitespace_of_isspace {c : Char} (h : isspace c = false) :
    Text.isWhitespace c = false := by
  rw [isspace, Bool.or_eq_false_iff] at h
  exact h.1

theorem NetChar.solid {c : Char} (h : NetChar c) :
    Text.isWhitespace c = false ∧ c ≠ ',' ∧ c ≠ '#' := by
  have hnum : 46 ≤ c.toNat ∧ c.toNat ≤ 58 ∨ 97 ≤ c.toNat ∧ c.toNat ≤ 102 ∨ c.toNat = 37 := by
    rcases h with h | h | rfl
    · exact .inl h
    · exact .inr (.inl h)
    · exact .inr (.inr rfl)
  refine ⟨?_, ?_, ?_⟩
  · simp only [Text.isWhitespace]
    simp
    omega
  · rintro rfl
    exact absurd hnum (by decide)
  · rintro rfl
    exact absurd hnum (by decide)

theorem SiteOk.solid_str (hpy : py.Lawful) {s : String × List PyNetwork} (hs : SiteOk py s)
    {net : PyNetwork} (hnet : net ∈ s.2) : Solid (py.str net).toList := by
  obtain ⟨text, hword, hread⟩ := hs.nets net hnet
  intro c hc
  rcases hpy.str text net hread c hc with hc | hc
  · obtain ⟨hspace, hrest⟩ := hword c hc
    exact ⟨isWhitespace_of_isspace hspace, hrest⟩
  · exact hc.solid

/-- The relay of a row is its own name. -/
theorem relayName_of_grammar (hpy : py.Lawful) (hagree : Agree U parseNetwork py sites) {r : Row}
    (hr : r.Grammar) : RelayName U (r.relay py) := by
  have hshape := hpy.lower (r.host ++ ":" ++ r.port)
  have hchars : (r.host ++ ":" ++ r.port).toList = r.host.toList ++ ':' :: r.port.toList := by
    simp
  rw [hchars] at hshape
  refine ⟨fun c hc => ?_, ?_, hagree.lower _⟩
  · have hback : isMark c = true → c = ':' ∨ isspace c = false ∧ c ≠ ',' ∧ c ≠ '#' := by
      intro hmark
      have hmem := (hshape.mem_iff hmark).mpr hc
      rw [List.mem_append, List.mem_cons] at hmem
      rcases hmem with hmem | rfl | hmem
      · exact .inr (hr.1 c hmem)
      · exact .inl rfl
      · exact .inr (hr.2 c hmem)
    refine ⟨?_, ?_, ?_⟩
    · by_contra hspace
      rw [Bool.not_eq_false] at hspace
      rcases hback (by rw [isMark, hspace, Bool.or_true]) with rfl | ⟨hno, -⟩
      · cases hspace
      · rw [isWhitespace_of_isspace hno] at hspace
        cases hspace
    · rintro rfl
      rcases hback (by decide) with h | ⟨-, h, -⟩
      · cases h
      · exact h rfl
    · rintro rfl
      rcases hback (by decide) with h | ⟨-, -, h⟩
      · cases h
      · exact h rfl
  · exact (hshape.mem_iff (by decide)).mp (by simp)

/-- The nodes are of rows. -/
def Measured (rows : List Row) (vals : List (String × Binary64)) : Prop :=
  ∀ x ∈ vals, ∃ r ∈ rows, r.node = x.1

theorem mem_relayTimes (hnames : ∀ r ∈ rows, names.lookup r.node = some (r.relay py))
    {vals : List (String × Binary64)} (hvals : Measured rows vals) {y : String × Binary64} :
    y ∈ relayTimes names vals ↔ ∃ r ∈ rows, r.relay py = y.1 ∧ (r.node, y.2) ∈ vals := by
  rw [relayTimes, List.mem_map]
  constructor
  · rintro ⟨x, hx, rfl⟩
    have hx := (List.mem_insertionSort _).mp hx
    obtain ⟨r, hr, hnode⟩ := hvals x hx
    refine ⟨r, hr, ?_, by rwa [hnode]⟩
    change r.relay py = (names.lookup x.1).getD ""
    rw [← hnode, hnames r hr, Option.getD_some]
  · rintro ⟨r, hr, hrelay, hmem⟩
    refine ⟨(r.node, y.2), (List.mem_insertionSort _).mpr hmem, Prod.ext ?_ rfl⟩
    change (names.lookup r.node).getD "" = y.1
    rw [hnames r hr, Option.getD_some, hrelay]

/-- The nodes are different relays. -/
def Distinct (py : Python) (rows : List Row) (vals : List (String × Binary64)) : Prop :=
  ∀ r ∈ rows, ∀ r' ∈ rows, r.node ∈ vals.map Prod.fst → r'.node ∈ vals.map Prod.fst →
    r.relay py = r'.relay py → r.node = r'.node

/-- No relay is listed twice exactly if the nodes are different relays. -/
theorem nodup_relayTimes (hnames : ∀ r ∈ rows, names.lookup r.node = some (r.relay py))
    {vals : List (String × Binary64)} (hvals : Measured rows vals)
    (hnodup : (vals.map Prod.fst).Nodup) :
    ((relayTimes names vals).map Prod.fst).Nodup ↔ Distinct py rows vals := by
  have hperm := List.perm_insertionSort faster vals
  have hshape : (relayTimes names vals).map Prod.fst =
      ((vals.insertionSort faster).map Prod.fst).map fun n => (names.lookup n).getD "" := by
    rw [relayTimes, List.map_map, List.map_map]
    rfl
  rw [hshape, List.nodup_map_iff_inj_on ((hperm.map _).nodup_iff.mpr hnodup)]
  have hmem : ∀ n, n ∈ (vals.insertionSort faster).map Prod.fst ↔ n ∈ vals.map Prod.fst :=
    fun n => (hperm.map _).mem_iff
  constructor
  · intro hinj r hr r' hr' hn hn' hrelay
    refine hinj _ ((hmem _).mpr hn) _ ((hmem _).mpr hn') ?_
    rw [hnames r hr, hnames r' hr', hrelay]
  · intro hdistinct n hn n' hn' hsame
    have hn := (hmem n).mp hn
    have hn' := (hmem n').mp hn'
    obtain ⟨x, hx, rfl⟩ := List.mem_map.mp hn
    obtain ⟨x', hx', rfl⟩ := List.mem_map.mp hn'
    obtain ⟨r, hr, hnode⟩ := hvals x hx
    obtain ⟨r', hr', hnode'⟩ := hvals x' hx'
    rw [← hnode, ← hnode', hnames r hr, hnames r' hr', Option.getD_some, Option.getD_some] at hsame
    rw [← hnode, ← hnode']
    exact hdistinct r hr r' hr' (by rwa [hnode]) (by rwa [hnode']) hsame

end Names

/-! ### The file -/

section File

variable {U : Unicode} {parseNetwork : String → Option IpNetwork} {py : Python} {a : Args}
  {names : HashMap String String} {lines : List Line} {default : Option (List (String × Binary64))}

variable (py names) in
/-- The lines of the file for the networks of a site, each with the network. -/
def siteRoutes (l : Line) : List (IpNetwork × String × List (String × Binary64)) :=
  l.nets.map fun net => (net.net, py.str net, relayTimes names l.vals)

variable (names) in
/-- The lines for all other addresses. -/
def defaultRoutes : Option (List (String × Binary64)) →
    List (IpNetwork × String × List (String × Binary64))
  | none => []
  | some vals =>
    [(.v4 ⟨0, 0⟩, "0.0.0.0/0", relayTimes names vals), (.v6 0 0, "::/0", relayTimes names vals)]

variable (py names lines default) in
/-- The lines of the file for networks. -/
def routes : List (IpNetwork × String × List (String × Binary64)) :=
  lines.flatMap (siteRoutes py names) ++ defaultRoutes names default

/-- A line without a network: it is empty, or a comment. -/
def isNote (l : List Char) : Bool := l.head?.all (· == '#')

theorem lineRule_note {l : List Char} (h : isNote l = true) :
    lineRule U parseNetwork l = some none := by
  have hnil : l.takeWhile (· ≠ '#') = [] := by
    cases l with
    | nil => rfl
    | cons c l =>
      have hc : c = '#' := by simpa [isNote] using h
      rw [hc]
      rfl
  rw [lineRule, parseLine, hnil]
  rfl

theorem isNote_comment (text : String) : isNote (comment text) = true := rfl

theorem isNote_stripCr {l : List Char} (h : isNote l = true) : isNote (Plain.stripCr l) = true := by
  rw [Plain.stripCr]
  split
  · cases l with
    | nil => rfl
    | cons c l =>
      cases l with
      | nil => rfl
      | cons d l => exact h
  · exact h

theorem RouteOk.stripCr {x : String × List (String × Binary64)} (h : RouteOk x) :
    Plain.stripCr (routeLine x) = routeLine x := by
  refine if_neg fun hcr => ?_
  exact absurd (h.last _ hcr) (by decide)

theorem RouteOk.not_isNote {x : String × List (String × Binary64)} (h : RouteOk x) :
    isNote (routeLine x) = false := by
  have hne : routeLine x ≠ [] := by simp [routeLine]
  obtain ⟨c, l, hcl⟩ := List.exists_cons_of_ne_nil hne
  have hc : c ≠ '#' := (h.head c (by rw [hcl]; rfl)).2
  simp [isNote, hcl, hc]

/-- The lines of a file that are for networks, as they are read. -/
def networkLines (ls : List (List Char)) : List (List Char) :=
  (ls.map Plain.stripCr).filter fun l => !isNote l

theorem networkLines_append (ls ls' : List (List Char)) :
    networkLines (ls ++ ls') = networkLines ls ++ networkLines ls' := by
  rw [networkLines, List.map_append, List.filter_append, ← networkLines, ← networkLines]

/-- Comments are passed over. -/
theorem networkLines_notes {ls : List (List Char)} (h : ∀ l ∈ ls, isNote l = true) :
    networkLines ls = [] := by
  refine List.filter_eq_nil_iff.mpr fun l hl => ?_
  obtain ⟨l', hl', rfl⟩ := List.mem_map.mp hl
  simp [isNote_stripCr (h l' hl')]

/-- The lines for networks are not. -/
theorem networkLines_routes {xs : List (IpNetwork × String × List (String × Binary64))}
    (h : ∀ x ∈ xs, RouteOk x.2) :
    networkLines (xs.map fun x => routeLine x.2) = xs.map fun x => routeLine x.2 := by
  have hcr : (xs.map fun x => routeLine x.2).map Plain.stripCr = xs.map fun x => routeLine x.2 := by
    rw [List.map_map]
    exact List.map_congr_left fun x hx => (h x hx).stripCr
  rw [networkLines, hcr]
  refine List.filter_eq_self.mpr fun l hl => ?_
  obtain ⟨x, hx, rfl⟩ := List.mem_map.mp hl
  rw [(h x hx).not_isNote]
  rfl

theorem networkLines_out {l : Line} (h : ∀ x ∈ siteRoutes py names l, RouteOk x.2) :
    networkLines (l.out py names) = (siteRoutes py names l).map fun x => routeLine x.2 := by
  have hout : l.out py names = [comment l.label] ++
      (siteRoutes py names l).map fun x => routeLine x.2 := by
    rw [siteRoutes, List.map_map]
    rfl
  rw [hout, networkLines_append, networkLines_notes (by simp [isNote_comment]),
    networkLines_routes h, List.nil_append]

theorem networkLines_default (h : ∀ x ∈ defaultRoutes names default, RouteOk x.2) :
    networkLines (defaultLines a names default) =
      (defaultRoutes names default).map fun x => routeLine x.2 := by
  cases default with
  | none => rfl
  | some vals =>
    have hlines : defaultLines a names (some vals) =
        [[], comment ("anything else: " ++
          if a.default = "average" then "the average of all sites" else "as " ++ a.default)] ++
        (defaultRoutes names (some vals)).map fun x => routeLine x.2 := rfl
    have hempty : isNote [] = true := rfl
    rw [hlines, networkLines_append, networkLines_notes (by simp [isNote_comment, hempty]),
      networkLines_routes h, List.nil_append]

/-- **What is left of the file without its comments.** -/
theorem networkLines_outLines (h : ∀ x ∈ routes py names lines default, RouteOk x.2) :
    networkLines (outLines py a names lines default) =
      (routes py names lines default).map fun x => routeLine x.2 := by
  rw [routes, List.forall_mem_append] at h
  obtain ⟨hsites, hdefault⟩ := h
  have hempty : isNote [] = true := rfl
  have hhead : ∀ l ∈ headLines py a, isNote l = true := by
    simp [headLines, isNote_comment, hempty]
  have hlines : networkLines (lines.flatMap (Line.out py names)) =
      (lines.flatMap (siteRoutes py names)).map fun x => routeLine x.2 := by
    rw [networkLines, List.map_flatMap, List.filter_flatMap, List.map_flatMap]
    refine List.flatMap_congr fun l hl => networkLines_out fun x hx => ?_
    exact hsites x (List.mem_flatMap.mpr ⟨l, hl, hx⟩)
  rw [outLines, networkLines_append, networkLines_append, networkLines_notes hhead, hlines,
    networkLines_default hdefault, List.nil_append, routes, List.map_append]

theorem fileRules_networkLines (ls : List (List Char)) :
    fileRules U parseNetwork (networkLines ls) =
      fileRules U parseNetwork (ls.map Plain.stripCr) := by
  rw [fileRules, networkLines, List.filterMap_filter]
  refine List.filterMap_congr fun l _ => ?_
  split
  · rfl
  · next hnote =>
    rw [lineRule_note (by simpa using hnote)]
    rfl

/-- Only the lines for networks count. -/
theorem parse_networkLines {ls : List (List Char)} {text : List Char} {t : RouteTable}
    (htext : Plain.lines text = ls.map Plain.stripCr) :
    RouteTable.parse U parseNetwork text = .ok t ↔
      (∀ raw ∈ networkLines ls, lineRule U parseNetwork raw ≠ none) ∧
        Apart (fileRules U parseNetwork (networkLines ls)) ∧
        fileRules U parseNetwork (networkLines ls) ≠ [] ∧
        t = ⟨(fileRules U parseNetwork (networkLines ls)).insertionSort longerFirst⟩ := by
  have hall : (∀ raw ∈ networkLines ls, lineRule U parseNetwork raw ≠ none) ↔
      ∀ raw ∈ ls.map Plain.stripCr, lineRule U parseNetwork raw ≠ none := by
    refine ⟨fun h raw hraw => ?_, fun h raw hraw => h raw (List.mem_of_mem_filter hraw)⟩
    cases hnote : isNote raw with
    | true =>
      rw [lineRule_note hnote]
      exact Option.some_ne_none _
    | false => exact h raw (List.mem_filter.mpr ⟨hraw, by simp [hnote]⟩)
  rw [hall, fileRules_networkLines, ← htext]
  exact parse_ok_iff

/-- The rules of lines that are all read. -/
theorem fileRules_routes {xs : List (IpNetwork × String × List (String × Binary64))}
    (h : ∀ x ∈ xs, lineRule U parseNetwork (routeLine x.2) = some (some ⟨x.1, addTimes ∅ x.2.2⟩)) :
    fileRules U parseNetwork (xs.map fun x => routeLine x.2) =
      xs.map fun x => ⟨x.1, addTimes ∅ x.2.2⟩ := by
  rw [fileRules, List.filterMap_map, ← List.filterMap_eq_map]
  refine List.filterMap_congr fun x hx => ?_
  rw [Function.comp_apply, h x hx]
  rfl

end File
end Rtt
end RustdeskServer
