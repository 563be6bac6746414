import Mathlib.Data.List.GetD
import RustdeskServer.Atomic.Trace
import RustdeskServer.RelayReload

/-!
# Held choices

A committed choice is held for a while under the two addresses it was made for, so that
every question about one connection attempt gets the same relay.  A dry run names a relay
and changes nothing.

The dry run does not look at the held choices.  It names the relay of a fresh choice, and
that is the relay a connection would get unless another one is held for it at the moment.

A choice is held from the moment it is made, and answering from it does not prolong it.
Until it expires it survives everything but a command of the operator, the loss of its
relay, new tables, and a map full of choices that are still held.

## Main definitions

* `RelaySelector.Among` — the choice is really made among several relays.
* `RelaySelector.Held`, `RelaySelector.nextRelay` — the choice held for two addresses, and
  the relay a fresh choice names.
* `SameEnds` — the same two addresses, in either order and form.
* `Quiet`, `KeepsRelay` — an operation that leaves held choices alone, and that a committed
  choice names the relay held.

## Main results

* `dryRun_iff` — **a dry run names the relay a committed choice would, exactly when no
  other relay is held.**
* `dryRun_overlooks_held` — a state in which it names another.
* `pinsBounded_run` — the map of held choices stays bounded.
* `one_relay_per_attempt` — **a choice, once made, is held until it expires.**
* `answering_does_not_prolong` — a choice answered shortly before it expires.
-/

namespace RustdeskServer

open Atomic

namespace RelaySelector

section Fresh

variable (P : Platform) (s : RelaySelector)

/-- More than one relay answers, and none of them is the operator's choice. -/
def Among : Prop :=
  2 ≤ s.live.length ∧ ∀ want ∈ s.preferred.relay, ∀ r ∈ s.live,
    normalize P.toUnicode r ≠ normalize P.toUnicode want

instance : Decidable (s.Among P) :=
  inferInstanceAs (Decidable (_ ∧ ∀ want ∈ s.preferred.relay, ∀ r ∈ s.live,
    normalize P.toUnicode r ≠ normalize P.toUnicode want))

/-- The pin is held for the two addresses: it has not expired, and its relay answers. -/
def Held (now : Instant) (pa pb : IpAddr) (pin : RelayPin) : Prop :=
  s.pins.lookup (pinKey pa pb) = some pin ∧ pin.untilTime > now ∧ pin.relay ∈ s.live

/-- The relay of a fresh choice: the cheapest, or the one whose turn it is. -/
def nextRelay (pa pb : IpAddr) : String :=
  match chooseFrom P.round P.toUnicode s.live (([pa, pb].filterMap (s.sideCosts P)).map Prod.fst) with
  | some c => c.relay
  | none => s.live.getD (s.rotation % s.live.length) ""

end Fresh

/-! ### Taking a choice apart -/

section Pick

variable {P : Platform} {s : RelaySelector}

/-- Among several relays. -/
theorem pick_among (h : s.Among P) (now : Instant) (pa pb : IpAddr) (commit : Bool) :
    s.pick P now pa pb commit = s.pickAmong P now pa pb commit := by
  obtain ⟨hlen, hno⟩ := h
  unfold pick
  split
  · next hl => simp [hl] at hlen
  · next hl => simp [hl] at hlen
  · split
    · next want hw =>
      have hnone : s.live.find? (fun r => decide
          (normalize P.toUnicode r = normalize P.toUnicode want)) = none := by
        simpa using hno want hw
      rw [hnone]
    · rfl

/-- Otherwise the answer does not depend on what is held, and nothing is held for it. -/
theorem pick_settled (h : ¬s.Among P) (now : Instant) (pa pb : IpAddr) :
    s.pick P now pa pb true = s.pick P now pa pb false := by
  unfold pick
  split
  · rfl
  · rfl
  · next hnil hone =>
    have hlen : 2 ≤ s.live.length := by
      match hl : s.live with
      | [] => exact absurd hl hnil
      | [r] => exact absurd hl (hone r)
      | _ :: _ :: _ => simp
    split
    · next want hw =>
      split
      · rfl
      · next hf =>
        refine absurd ⟨hlen, fun w hw' r hr => ?_⟩ h
        rw [hw, Option.mem_some_iff] at hw'
        subst hw'
        simpa using List.find?_eq_none.mp hf r hr
    · next hw =>
      refine absurd ⟨hlen, fun w hw' => ?_⟩ h
      rw [hw] at hw'
      cases hw'

/-- What a fresh choice names does not depend on whether it is committed, nor on what is
held. -/
theorem pickFresh_relay (pins : HashMap (IpAddr × IpAddr) RelayPin) (pa pb : IpAddr)
    (commit : Bool) :
    (pickFresh P { s with pins := pins } pa pb commit).2.relay = s.nextRelay P pa pb := by
  unfold pickFresh nextRelay
  dsimp only
  have hside : sideCosts P { s with pins := pins } = s.sideCosts P := rfl
  rw [hside]
  cases chooseFrom P.round P.toUnicode s.live (([pa, pb].filterMap (s.sideCosts P)).map Prod.fst) with
  | none => rfl
  | some c => rfl

theorem pickAmong_dry (now : Instant) (pa pb : IpAddr) :
    (s.pickAmong P now pa pb false).2.relay = s.nextRelay P pa pb :=
  pickFresh_relay s.pins pa pb false

/-- A committed choice that finds one held. -/
theorem pickAmong_held {now : Instant} {pa pb : IpAddr} {pin : RelayPin}
    (h : s.Held now pa pb pin) :
    s.pickAmong P now pa pb true = (s, ⟨pin.relay, .pinned, []⟩) := by
  obtain ⟨hpin, huntil, hlive⟩ := h
  simp only [pickAmong, pinnedRelay, hpin, huntil, hlive, and_self, if_true]

theorem erase_of_lookup_none {m : HashMap (IpAddr × IpAddr) RelayPin} {key : IpAddr × IpAddr}
    (h : m.lookup key = none) : m.erase key = m :=
  AList.ext (List.kerase_of_notMem_keys (AList.lookup_eq_none.mp h))

/-- A committed choice that finds none held: what was under the key is dropped, and the
fresh choice is held. -/
theorem pickAmong_fresh {now : Instant} {pa pb : IpAddr} (h : ∀ pin, ¬s.Held now pa pb pin) :
    s.pickAmong P now pa pb true =
      let p := pickFresh P { s with pins := s.pins.erase (pinKey pa pb) } pa pb true
      (p.1.pinRelay now (pinKey pa pb) p.2.relay, p.2) := by
  have hpinned : s.pinnedRelay now (pinKey pa pb) =
      ({ s with pins := s.pins.erase (pinKey pa pb) }, none) := by
    unfold pinnedRelay
    cases hpin : s.pins.lookup (pinKey pa pb) with
    | none => simp only [erase_of_lookup_none hpin]
    | some pin =>
      have hno : ¬(pin.untilTime > now ∧ pin.relay ∈ s.live) := fun hp => h pin ⟨hpin, hp⟩
      simp only [if_neg hno]
  simp only [pickAmong, if_true, hpinned]

/-- The relay of a committed choice. -/
theorem pickAmong_commit_relay {now : Instant} {pa pb : IpAddr}
    (h : ∀ pin, ¬s.Held now pa pb pin) :
    (s.pickAmong P now pa pb true).2.relay = s.nextRelay P pa pb := by
  rw [pickAmong_fresh h]
  exact pickFresh_relay _ pa pb true

end Pick

/-! ### Only relays that answer -/

/-- The loop keeps one of what it has seen. -/
theorem cheapest_mem (best : String × ℚ) (l : List (String × ℚ)) : cheapest best l ∈ best :: l := by
  induction l generalizing best with
  | nil => exact List.mem_cons_self
  | cons x l ih =>
    rw [cheapest]
    have h := ih (if x.2 < best.2 then x else best)
    rcases List.mem_cons.mp h with h | h
    · rw [h]
      split
      · exact List.mem_cons_of_mem _ List.mem_cons_self
      · exact List.mem_cons_self
    · exact List.mem_cons_of_mem _ (List.mem_cons_of_mem _ h)

/-- **`choose_from` names a relay of its list**, as it is written there. -/
theorem chooseFrom_mem {round : ℚ → ℚ} {U : Unicode} {healthy : List String} {sides : List Costs}
    {c : Choice} (h : chooseFrom round U healthy sides = some c) : c.relay ∈ healthy := by
  unfold chooseFrom at h
  split at h
  · cases h
  · split at h
    · cases h
    · next first rest htotals =>
      cases h
      have hmem : cheapest first rest ∈ totals round U healthy sides :=
        htotals ▸ cheapest_mem first rest
      obtain ⟨relay, hrelay, heq⟩ := List.mem_map.mp hmem
      exact (congrArg Prod.fst heq) ▸ hrelay

/-- The relay whose turn it is answers. -/
theorem turn_mem {live : List String} (h : live ≠ []) (n : ℕ) :
    live.getD (n % live.length) "" ∈ live := by
  have hlt : n % live.length < live.length := Nat.mod_lt n (List.length_pos_iff.mpr h)
  rw [List.getD_eq_getElem _ _ hlt]
  exact List.getElem_mem hlt

theorem nextRelay_mem {P : Platform} {s : RelaySelector} (h : s.live ≠ []) (pa pb : IpAddr) :
    s.nextRelay P pa pb ∈ s.live := by
  unfold nextRelay
  split
  · next c hc => exact chooseFrom_mem hc
  · exact turn_mem h s.rotation

/-! ### The dry run -/

/-- **A dry run changes nothing, and names the relay a committed choice would exactly when
no other relay is held for the two addresses.** -/
theorem dryRun_iff (P : Platform) (s : RelaySelector) (now : Instant) (pa pb : IpAddr) :
    (s.pick P now pa pb false).1 = s ∧
      ((s.pick P now pa pb false).2.relay = (s.pick P now pa pb true).2.relay ↔
        (s.Among P → ∀ pin, s.Held now pa pb pin → pin.relay = s.nextRelay P pa pb)) := by
  refine ⟨pick_dry P s now pa pb, ?_⟩
  by_cases ha : s.Among P
  · rw [pick_among ha, pick_among ha, pickAmong_dry]
    by_cases hheld : ∃ pin, s.Held now pa pb pin
    · obtain ⟨pin, hpin⟩ := hheld
      rw [pickAmong_held hpin]
      refine ⟨fun h _ pin' hpin' => ?_, fun h => (h ha pin hpin).symm⟩
      -- one choice is held under a key
      rw [show pin' = pin from Option.some.inj (hpin'.1.symm.trans hpin.1)]
      exact h.symm
    · push Not at hheld
      rw [pickAmong_commit_relay hheld]
      exact iff_of_true rfl fun _ pin hpin => absurd hpin (hheld pin)
  · rw [pick_settled ha]
    exact iff_of_true rfl fun h => absurd h ha

/-- Two relays, of which the first was just chosen for two addresses. -/
def justChosen : RelaySelector :=
  ((ofLive ["a:1", "b:1"]).pick .plain 0 (.ofOctets 192 0 2 7) (.ofOctets 198 51 100 9) true).1

/-- The dry run names the second, and a connection gets the first. -/
theorem dryRun_overlooks_held :
    (justChosen.pick .plain 1 (.ofOctets 192 0 2 7) (.ofOctets 198 51 100 9) false).2.relay ≠
      (justChosen.pick .plain 1 (.ofOctets 192 0 2 7) (.ofOctets 198 51 100 9) true).2.relay := by
  decide

end RelaySelector

/-! ### The key of a choice -/

/-- The same two addresses, in either order, each plain or IPv4-mapped. -/
def SameEnds (pa pb pa' pb' : IpAddr) : Prop :=
  (pa'.toCanonical = pa.toCanonical ∧ pb'.toCanonical = pb.toCanonical) ∨
    (pa'.toCanonical = pb.toCanonical ∧ pb'.toCanonical = pa.toCanonical)

instance (pa pb pa' pb' : IpAddr) : Decidable (SameEnds pa pb pa' pb') :=
  inferInstanceAs (Decidable (_ ∨ _))

theorem IpAddr.le_antisymm {a b : IpAddr} (h₁ : a.le b = true) (h₂ : b.le a = true) : a = b := by
  cases a with
  | v4 x =>
    cases b with
    | v4 y =>
      simp only [IpAddr.le, decide_eq_true_eq] at h₁ h₂
      rw [BitVec.eq_of_toNat_eq (Nat.le_antisymm h₁ h₂)]
    | v6 y => cases h₂
  | v6 x =>
    cases b with
    | v4 y => cases h₁
    | v6 y =>
      simp only [IpAddr.le, decide_eq_true_eq] at h₁ h₂
      rw [BitVec.eq_of_toNat_eq (Nat.le_antisymm h₁ h₂)]

theorem IpAddr.le_total (a b : IpAddr) : a.le b = true ∨ b.le a = true := by
  cases a with
  | v4 x =>
    cases b with
    | v4 y => simpa [IpAddr.le] using Nat.le_total x.toNat y.toNat
    | v6 y => exact Or.inl rfl
  | v6 x =>
    cases b with
    | v4 y => exact Or.inr rfl
    | v6 y => simpa [IpAddr.le] using Nat.le_total x.toNat y.toNat

/-- A choice is found again whichever end asks, in whatever form. -/
theorem SameEnds.pinKey_eq {pa pb pa' pb' : IpAddr} (h : SameEnds pa pb pa' pb') :
    RelaySelector.pinKey pa' pb' = RelaySelector.pinKey pa pb := by
  unfold RelaySelector.pinKey
  rcases h with ⟨ha, hb⟩ | ⟨ha, hb⟩
  · rw [ha, hb]
  · rw [ha, hb]
    dsimp only
    split
    · next hle =>
      split
      · next hle' => rw [IpAddr.le_antisymm hle hle']
      · rfl
    · next hle =>
      rw [if_pos ((IpAddr.le_total _ _).resolve_left hle)]

/-! ### The map of held choices -/

namespace RelaySelector

/-- How many choices have not expired. -/
def unexpired (s : RelaySelector) (now : Instant) : ℕ :=
  (s.pins.retain fun _ p => decide (p.untilTime > now)).entries.length

section Pins

variable {s : RelaySelector} {now : Instant} {key : IpAddr × IpAddr} {pin : RelayPin}

theorem lookup_retain {p : IpAddr × IpAddr → RelayPin → Bool}
    {m : HashMap (IpAddr × IpAddr) RelayPin} (hl : m.lookup key = some pin)
    (hp : p key pin = true) : (m.retain p).lookup key = some pin := by
  have hmem : Sigma.mk key pin ∈ m.entries := AList.mem_lookup_iff.mp hl
  exact AList.mem_lookup_iff.mpr (List.mem_filter.mpr ⟨hmem, hp⟩)

theorem length_insert_le (m : HashMap (IpAddr × IpAddr) RelayPin) (key : IpAddr × IpAddr)
    (pin : RelayPin) : (m.insert key pin).entries.length ≤ m.entries.length + 1 := by
  rw [AList.entries_insert, List.length_cons]
  exact Nat.add_le_add_right (List.kerase_sublist key m.entries).length_le 1

/-- A map with a choice taken out holds no more choices that have not expired. -/
theorem unexpired_erase_le (s : RelaySelector) (now : Instant) (key : IpAddr × IpAddr) :
    unexpired { s with pins := s.pins.erase key } now ≤ s.unexpired now :=
  ((List.kerase_sublist key s.pins.entries).filter _).length_le

/-- **`pin_relay` keeps the map bounded.** -/
theorem pinRelay_bounded (h : s.pins.entries.length ≤ MAX_RELAY_PINS) (now : Instant)
    (key : IpAddr × IpAddr) (relay : String) :
    (s.pinRelay now key relay).pins.entries.length ≤ MAX_RELAY_PINS := by
  unfold pinRelay
  split
  · exact h
  · refine (length_insert_le _ _ _).trans ?_
    -- there is room for one more, if need be because everything was dropped
    split
    · dsimp only
      split
      · decide
      · omega
    · omega

/-- `pin_relay` under another key keeps a choice that has not expired, unless the map is
full of such. -/
theorem pinRelay_keeps (hl : s.pins.lookup key = some pin) (huntil : pin.untilTime > now)
    (hroom : s.unexpired now < MAX_RELAY_PINS) {key' : IpAddr × IpAddr} (hne : key ≠ key')
    (relay : String) : (s.pinRelay now key' relay).pins.lookup key = some pin := by
  unfold unexpired at hroom
  unfold pinRelay
  split
  · exact hl
  · dsimp only
    rw [AList.lookup_insert_ne hne]
    split
    · rw [if_neg (Nat.not_le.mpr hroom)]
      exact lookup_retain hl (decide_eq_true huntil)
    · exact hl

theorem pinRelay_self (httl : 0 < s.pinTtlMs) (now : Instant) (key : IpAddr × IpAddr)
    (relay : String) :
    (s.pinRelay now key relay).pins.lookup key = some ⟨relay, now + s.pinTtlMs⟩ := by
  unfold pinRelay
  rw [if_neg (Nat.pos_iff_ne_zero.mp httl)]
  exact AList.lookup_insert _

/-- A fresh choice at most takes a turn. -/
theorem pickFresh_state (P : Platform) (s : RelaySelector) (pa pb : IpAddr) (commit : Bool) :
    ∃ n, (s.pickFresh P pa pb commit).1 = { s with rotation := n } := by
  unfold pickFresh
  dsimp only
  split
  · exact ⟨s.rotation, rfl⟩
  · cases commit with
    | true => exact ⟨_, rfl⟩
    | false => exact ⟨s.rotation, rfl⟩

theorem pinRelay_state (s : RelaySelector) (now : Instant) (key : IpAddr × IpAddr)
    (relay : String) : ∃ pins, s.pinRelay now key relay = { s with pins := pins } := by
  unfold pinRelay
  split
  · exact ⟨s.pins, rfl⟩
  · exact ⟨_, rfl⟩

/-- A choice that is made is held. -/
theorem pick_fresh_state {P : Platform} {s : RelaySelector} {now : Instant} {pa pb : IpAddr}
    (ha : s.Among P) (hheld : ∀ pin, ¬s.Held now pa pb pin) :
    ∃ n, (s.pick P now pa pb true).1 =
      pinRelay { s with pins := s.pins.erase (pinKey pa pb), rotation := n } now (pinKey pa pb)
        (s.pick P now pa pb true).2.relay := by
  rw [pick_among ha, pickAmong_fresh hheld]
  dsimp only
  obtain ⟨n, hn⟩ := pickFresh_state P { s with pins := s.pins.erase (pinKey pa pb) } pa pb true
  rw [hn]
  exact ⟨n, rfl⟩

/-- What a choice does to the selector: nothing, or the fresh choice is held. -/
theorem pick_state (P : Platform) (s : RelaySelector) (now : Instant) (pa pb : IpAddr)
    (commit : Bool) :
    (s.pick P now pa pb commit).1 = s ∨
      ∃ n, (s.pick P now pa pb commit).1 =
        pinRelay { s with pins := s.pins.erase (pinKey pa pb), rotation := n } now (pinKey pa pb)
          (s.pick P now pa pb commit).2.relay := by
  cases commit with
  | false => exact Or.inl (pick_dry P s now pa pb)
  | true =>
    by_cases ha : s.Among P
    · by_cases hheld : ∃ pin, s.Held now pa pb pin
      · obtain ⟨pin, hpin⟩ := hheld
        exact Or.inl (by rw [pick_among ha, pickAmong_held hpin])
      · push Not at hheld
        exact Or.inr (pick_fresh_state ha hheld)
    · rw [pick_settled ha]
      exact Or.inl (pick_dry P s now pa pb)

/-- A choice changes what is held and whose turn it is, and nothing else. -/
theorem pick_frame (P : Platform) (s : RelaySelector) (now : Instant) (pa pb : IpAddr)
    (commit : Bool) :
    ∃ pins n, (s.pick P now pa pb commit).1 = { s with pins := pins, rotation := n } := by
  rcases pick_state P s now pa pb commit with hs | ⟨n, hs⟩
  · exact ⟨s.pins, s.rotation, hs⟩
  · obtain ⟨pins, hpins⟩ := pinRelay_state
      { s with pins := s.pins.erase (pinKey pa pb), rotation := n } now (pinKey pa pb)
      (s.pick P now pa pb commit).2.relay
    exact ⟨pins, n, hs.trans hpins⟩

end Pins

end RelaySelector

/-! ### Operations that leave held choices alone -/

/-- Nothing that a choice looks at, but the tables and the counter, is touched. -/
structure SameChoices (s t : RelaySelector) : Prop where
  /-- The relays that answer. -/
  live : t.live = s.live
  /-- The held choices. -/
  pins : t.pins = s.pins
  /-- The operator's choice. -/
  preferred : t.preferred = s.preferred

theorem SameChoices.refl (s : RelaySelector) : SameChoices s s := ⟨rfl, rfl, rfl⟩

theorem SameChoices.trans {s t u : RelaySelector} (h₁ : SameChoices s t) (h₂ : SameChoices t u) :
    SameChoices s u :=
  ⟨h₂.live.trans h₁.live, h₂.pins.trans h₁.pins, h₂.preferred.trans h₁.preferred⟩

namespace Selector

/-- The tick reads no new table, database or locations: each file is not configured, looks
as it did, or cannot be loaded. -/
structure LoadsNothing (s : Selector) (files : RelayFiles) : Prop where
  /-- The routing table. -/
  routes : ∀ path ∈ s.sel.routes.path, s.routesSeen = some files.routes.stamp ∨
    ∃ err, files.routes.read path = .error err
  /-- The GeoIP database. -/
  db : ∀ path ∈ s.sel.geo.dbPath, s.dbSeen = some files.db.stamp ∨
    ∃ err, files.db.read path = .error err
  /-- The locations. -/
  locations : ∀ path ∈ s.sel.geo.locPath, s.locSeen = some files.locations.stamp ∨
    ∃ err, files.locations.read path = .error err

variable {s : Selector} {files : RelayFiles}

theorem reloadRelayRoutes_quiet (h : s.LoadsNothing files) :
    SameChoices s.sel (s.reloadRelayRoutes files.routes).sel ∧
      (s.reloadRelayRoutes files.routes).sel.geo = s.sel.geo ∧
        (s.reloadRelayRoutes files.routes).dbSeen = s.dbSeen ∧
          (s.reloadRelayRoutes files.routes).locSeen = s.locSeen := by
  unfold reloadRelayRoutes
  split
  · exact ⟨.refl _, rfl, rfl, rfl⟩
  · next path hpath =>
    split
    · exact ⟨.refl _, rfl, rfl, rfl⟩
    · next hseen =>
      obtain ⟨err, herr⟩ := (h.routes path hpath).resolve_left hseen
      rw [herr]
      exact ⟨⟨rfl, rfl, rfl⟩, rfl, rfl, rfl⟩

theorem storeDb_quiet (h : ∀ path ∈ s.sel.geo.dbPath, s.dbSeen = some files.db.stamp ∨
      ∃ err, files.db.read path = .error err) :
    SameChoices s.sel (s.storeDb files.db).1.sel ∧ (s.storeDb files.db).2 = false ∧
      (s.storeDb files.db).1.sel.geo.locPath = s.sel.geo.locPath ∧
        (s.storeDb files.db).1.locSeen = s.locSeen := by
  unfold storeDb
  split
  · exact ⟨.refl _, rfl, rfl, rfl⟩
  · next path hpath =>
    split
    · next hchanged =>
      have hseen : s.dbSeen ≠ some files.db.stamp := by simpa [changed] using hchanged
      obtain ⟨err, herr⟩ := (h path hpath).resolve_left hseen
      rw [herr]
      exact ⟨⟨rfl, rfl, rfl⟩, rfl, rfl, rfl⟩
    · exact ⟨.refl _, rfl, rfl, rfl⟩

theorem storeLocations_quiet (h : ∀ path ∈ s.sel.geo.locPath,
      s.locSeen = some files.locations.stamp ∨ ∃ err, files.locations.read path = .error err) :
    SameChoices s.sel (s.storeLocations files.locations).1.sel ∧
      (s.storeLocations files.locations).2 = false := by
  unfold storeLocations
  split
  · exact ⟨.refl _, rfl⟩
  · next path hpath =>
    split
    · next hchanged =>
      have hseen : s.locSeen ≠ some files.locations.stamp := by simpa [changed] using hchanged
      obtain ⟨err, herr⟩ := (h path hpath).resolve_left hseen
      rw [herr]
      exact ⟨⟨rfl, rfl, rfl⟩, rfl⟩
    · exact ⟨.refl _, rfl⟩

/-- **A tick that loads nothing leaves the held choices alone.** -/
theorem reload_quiet (h : s.LoadsNothing files) : SameChoices s.sel (s.reload files).sel := by
  obtain ⟨hroutes, hgeo, hdb, hloc⟩ := reloadRelayRoutes_quiet h
  unfold reload reloadRelayGeo
  dsimp only
  generalize s.reloadRelayRoutes files.routes = s₁ at hroutes hgeo hdb hloc
  have hread : ∀ path ∈ s₁.sel.geo.dbPath, s₁.dbSeen = some files.db.stamp ∨
      ∃ err, files.db.read path = .error err := by
    rw [hgeo, hdb]
    exact h.db
  obtain ⟨hstored, hno, hpath, hseen⟩ := storeDb_quiet hread
  generalize hd : s₁.storeDb files.db = d at hstored hno hpath hseen
  have hread' : ∀ path ∈ d.1.sel.geo.locPath, d.1.locSeen = some files.locations.stamp ∨
      ∃ err, files.locations.read path = .error err := by
    rw [hpath, hgeo, hseen, hloc]
    exact h.locations
  obtain ⟨hstored', hno'⟩ := storeLocations_quiet hread'
  rw [hno, hno']
  exact (hroutes.trans hstored).trans hstored'

end Selector

/-! ### Along a run -/

section Run

variable (P : Platform)

/-- The command only asks. -/
def AsksOnly (cmd : String) : Prop :=
  ∃ name args, Text.split ' ' (Text.trim cmd) = name :: args ∧
    name ∈ ["test-relay", "tr", "relay-routes", "rr"]

/-- An operation that leaves the held choice of `relay` alone: any choice or dry run, a live
list that still has the relay, a tick that loads nothing, or a question at the console; and
the map is not full of choices that are still held. -/
def Quiet (relay : String) (s : Selector) (x : Instant × SelInput) : Prop :=
  s.sel.unexpired x.1 < MAX_RELAY_PINS ∧
    match x.2 with
    | .pick _ _ _ => True
    | .setLive relays => relay ∈ relays
    | .reload files => s.LoadsNothing files
    | .console _ cmd => AsksOnly cmd

/-- A committed choice for the same two ends names the relay. -/
def KeepsRelay (pa pb : IpAddr) (relay : String) (s : Selector) (x : Instant × SelInput) : Prop :=
  ∀ pa' pb', x.2 = .pick pa' pb' true → SameEnds pa pb pa' pb' →
    (s.sel.pick P x.1 pa' pb' true).2.relay = relay

/-- The choice is held under the key, its relay answers, and the operator chose none. -/
structure Holding (key : IpAddr × IpAddr) (pin : RelayPin) (s : RelaySelector) : Prop where
  /-- It is in the map. -/
  pinned : s.pins.lookup key = some pin
  /-- Its relay answers. -/
  live : pin.relay ∈ s.live
  /-- There is no preferred relay. -/
  automatic : s.preferred.relay = none

variable {P} {key : IpAddr × IpAddr} {pin : RelayPin}

theorem Holding.congr {s t : RelaySelector} (h : Holding key pin s) (ht : SameChoices s t) :
    Holding key pin t :=
  ⟨by rw [ht.pins]; exact h.pinned, by rw [ht.live]; exact h.live,
    by rw [ht.preferred]; exact h.automatic⟩

/-- A question at the console changes nothing. -/
theorem console_asksOnly {s : RelaySelector} {e : RelaySelector.ConsoleEnv} {cmd : String}
    (h : AsksOnly cmd) {r : RelaySelector × String} (hr : s.console P e cmd = some r) :
    r.1 = s := by
  obtain ⟨name, args, hsplit, hname⟩ := h
  simp only [List.mem_cons, List.not_mem_nil, or_false] at hname
  unfold RelaySelector.console at hr
  rw [hsplit] at hr
  rcases hname with rfl | rfl | rfl | rfl
  · cases hr
    rfl
  · cases hr
    rfl
  · cases hr
    rfl
  · cases hr
    rfl

/-- The answer while a choice is held under the key of the two addresses: its relay, and
the map stays as it is. -/
theorem Holding.pick_self {s : RelaySelector} {now : Instant} {pa pb : IpAddr}
    (h : Holding (RelaySelector.pinKey pa pb) pin s) (huntil : now < pin.untilTime) :
    (s.pick P now pa pb true).1 = s ∧ (s.pick P now pa pb true).2.relay = pin.relay := by
  by_cases ha : s.Among P
  · rw [RelaySelector.pick_among ha, RelaySelector.pickAmong_held ⟨h.pinned, huntil, h.live⟩]
    exact ⟨rfl, rfl⟩
  · -- its relay is the only one left
    have hone : s.live = [pin.relay] := by
      have hlen : s.live.length < 2 := by
        by_contra hlen
        refine ha ⟨Nat.not_lt.mp hlen, ?_⟩
        intro want hw
        rw [h.automatic] at hw
        cases hw
      match hl : s.live with
      | [] => exact absurd h.live (by rw [hl]; exact List.not_mem_nil)
      | [r] =>
        have hr := h.live
        rw [hl, List.mem_singleton] at hr
        rw [hr]
      | _ :: _ :: _ =>
        rw [hl] at hlen
        simp only [List.length_cons] at hlen
        omega
    refine ⟨by rw [RelaySelector.pick_settled ha, RelaySelector.pick_dry], ?_⟩
    unfold RelaySelector.pick
    rw [hone]

/-- A choice for whatever two addresses keeps a held one that has not expired, while there
is room. -/
theorem Holding.pick {s : RelaySelector} {now : Instant} (h : Holding key pin s)
    (huntil : now < pin.untilTime) (hroom : s.unexpired now < MAX_RELAY_PINS) (pa pb : IpAddr)
    (commit : Bool) : Holding key pin (s.pick P now pa pb commit).1 := by
  cases commit with
  | false =>
    rw [RelaySelector.pick_dry]
    exact h
  | true =>
    by_cases hkey : key = RelaySelector.pinKey pa pb
    · subst hkey
      rw [(h.pick_self huntil).1]
      exact h
    · rcases RelaySelector.pick_state P s now pa pb true with hs | ⟨n, hs⟩
      · rw [hs]
        exact h
      · rw [hs]
        obtain ⟨pins, hpins⟩ := RelaySelector.pinRelay_state
          { s with pins := s.pins.erase (RelaySelector.pinKey pa pb), rotation := n } now
          (RelaySelector.pinKey pa pb) (s.pick P now pa pb true).2.relay
        have hroom' := (RelaySelector.unexpired_erase_le s now
          (RelaySelector.pinKey pa pb)).trans_lt hroom
        have hkept := RelaySelector.pinRelay_keeps
          (s := { s with pins := s.pins.erase (RelaySelector.pinKey pa pb), rotation := n })
          ((AList.lookup_erase_ne hkey).trans h.pinned) huntil hroom' hkey
          (s.pick P now pa pb true).2.relay
        refine ⟨hkept, ?_, ?_⟩
        · rw [hpins]
          exact h.live
        · rw [hpins]
          exact h.automatic

/-- **A quiet operation keeps a held choice that has not expired.** -/
theorem Holding.step {s : Selector} {x : Instant × SelInput} (h : Holding key pin s.sel)
    (huntil : x.1 < pin.untilTime) (hq : Quiet pin.relay s x) :
    Holding key pin (s.step P x).sel := by
  obtain ⟨hroom, hq⟩ := hq
  obtain ⟨now, i⟩ := x
  cases i with
  | pick pa pb commit => exact h.pick huntil hroom pa pb commit
  | setLive relays => exact ⟨h.pinned, hq, h.automatic⟩
  | reload files => exact h.congr (Selector.reload_quiet hq)
  | console e cmd =>
    simp only [Selector.step]
    split
    · next r hr =>
      rw [console_asksOnly hq hr]
      exact h
    · exact h

/-- Along a quiet run every committed choice for the two ends names the relay held. -/
theorem Holding.keeps {pa pb : IpAddr} {l : List (Instant × SelInput)} {s : Selector}
    (h : Holding (RelaySelector.pinKey pa pb) pin s.sel) (htime : ∀ x ∈ l, x.1 < pin.untilTime)
    (hq : Always (Selector.step P) (Quiet pin.relay) s l) :
    Always (Selector.step P) (KeepsRelay P pa pb pin.relay) s l := by
  induction l generalizing s with
  | nil => trivial
  | cons x l ih =>
    have huntil := htime x List.mem_cons_self
    refine ⟨fun pa' pb' _ hends => ?_, ih (h.step huntil hq.1) (fun y hy =>
      htime y (List.mem_cons_of_mem _ hy)) hq.2⟩
    rw [← hends.pinKey_eq] at h
    exact (h.pick_self huntil).2

/-- A choice that was made, and not answered from one that is held, is held from then on. -/
theorem holding_of_made {s : RelaySelector} {now : Instant} {pa pb : IpAddr}
    (hauto : s.preferred.relay = none) (httl : 0 < s.pinTtlMs) (hlen : 2 ≤ s.live.length)
    (hmade : (s.pick P now pa pb true).2.reason ≠ .pinned) :
    Holding (RelaySelector.pinKey pa pb)
      ⟨(s.pick P now pa pb true).2.relay, now + s.pinTtlMs⟩ (s.pick P now pa pb true).1 := by
  have ha : s.Among P := ⟨hlen, fun want hw => by rw [hauto] at hw; cases hw⟩
  have hheld : ∀ p, ¬s.Held now pa pb p := by
    intro p hp
    rw [RelaySelector.pick_among ha, RelaySelector.pickAmong_held hp] at hmade
    exact hmade rfl
  have hrelay : (s.pick P now pa pb true).2.relay ∈ s.live := by
    rw [RelaySelector.pick_among ha, RelaySelector.pickAmong_commit_relay hheld]
    refine RelaySelector.nextRelay_mem (fun hnil => ?_) pa pb
    rw [hnil] at hlen
    cases hlen
  rcases RelaySelector.pick_fresh_state ha hheld with ⟨n, hs⟩
  rw [hs]
  obtain ⟨pins, hpins⟩ := RelaySelector.pinRelay_state
    { s with pins := s.pins.erase (RelaySelector.pinKey pa pb), rotation := n } now
    (RelaySelector.pinKey pa pb) (s.pick P now pa pb true).2.relay
  have hself := RelaySelector.pinRelay_self
    (s := { s with pins := s.pins.erase (RelaySelector.pinKey pa pb), rotation := n }) httl now
    (RelaySelector.pinKey pa pb) (s.pick P now pa pb true).2.relay
  refine ⟨hself, ?_, ?_⟩
  · rw [hpins]
    exact hrelay
  · rw [hpins]
    exact hauto

/-! ### The bound -/

/-- The map of held choices is not too large. -/
def PinsBounded (s : Selector) : Prop := s.sel.pins.entries.length ≤ MAX_RELAY_PINS

theorem pinsBounded_pick {s : RelaySelector} (h : s.pins.entries.length ≤ MAX_RELAY_PINS)
    (now : Instant) (pa pb : IpAddr) (commit : Bool) :
    (s.pick P now pa pb commit).1.pins.entries.length ≤ MAX_RELAY_PINS := by
  rcases RelaySelector.pick_state P s now pa pb commit with hs | ⟨n, hs⟩
  · rw [hs]
    exact h
  · rw [hs]
    refine RelaySelector.pinRelay_bounded ?_ _ _ _
    exact (List.kerase_sublist _ s.pins.entries).length_le.trans h

theorem pinsBounded_reload {s : Selector} (h : PinsBounded s) (files : RelayFiles) :
    PinsBounded (s.reload files) := by
  obtain ⟨routes, geo, pins, hsel, -, hpins⟩ := s.reload_frame files
  rw [PinsBounded, hsel]
  rcases hpins with rfl | rfl
  · exact h
  · exact Nat.zero_le _

/-- **No operation makes the map of held choices too large.** -/
theorem pinsBounded_step {s : Selector} (h : PinsBounded s) (x : Instant × SelInput) :
    PinsBounded (s.step P x) := by
  obtain ⟨now, i⟩ := x
  cases i with
  | pick pa pb commit => exact pinsBounded_pick h now pa pb commit
  | setLive relays => exact h
  | reload files => exact pinsBounded_reload h files
  | console e cmd =>
    simp only [Selector.step]
    split
    · next r hr =>
      rcases RelaySelector.pins_console P hr with hp | hp
      · rw [PinsBounded, hp]
        exact h
      · rw [PinsBounded, hp]
        exact Nat.zero_le _
    · exact h

end Run

/-- A selector that holds no choice yet. -/
def Selector.fresh (s : Selector) : Selector := { s with sel := { s.sel with pins := ∅ } }

theorem pinsBounded_run (P : Platform) (s₀ : Selector) (history : List (Instant × SelInput)) :
    PinsBounded (history.foldl (Selector.step P) s₀.fresh) := by
  have hstart : PinsBounded s₀.fresh := Nat.zero_le _
  exact List.foldlRecOn history _ hstart fun _ hs x _ => pinsBounded_step hs x

/-- **A choice, once made, is held until it expires.**  Whatever state the selector is in,
with no preferred relay and more than one that answers, a choice that is made names the
relay of every later one for the same two ends before it expires, whatever quiet operations
come in between; and along every history the map of held choices is bounded. -/
theorem one_relay_per_attempt (P : Platform) :
    (∀ (s : Selector) (t : Instant) (pa pb : IpAddr) (l : List (Instant × SelInput)),
      s.sel.preferred.relay = none → 0 < s.sel.pinTtlMs → 2 ≤ s.sel.live.length →
      (s.sel.pick P t pa pb true).2.reason ≠ .pinned → (∀ x ∈ l, x.1 < t + s.sel.pinTtlMs) →
      Always (Selector.step P) (Quiet (s.sel.pick P t pa pb true).2.relay)
        (s.step P (t, .pick pa pb true)) l →
      Always (Selector.step P) (KeepsRelay P pa pb (s.sel.pick P t pa pb true).2.relay)
        (s.step P (t, .pick pa pb true)) l) ∧
    ∀ (s₀ : Selector) (history : List (Instant × SelInput)),
      PinsBounded (history.foldl (Selector.step P) s₀.fresh) := by
  refine ⟨fun s t pa pb l hauto httl hlen hmade htime hq => ?_, pinsBounded_run P⟩
  have hmade := holding_of_made hauto httl hlen hmade
  exact Holding.keeps (s := s.step P (t, .pick pa pb true)) hmade htime hq

/-- Two relays and two addresses. -/
def twoAnswering : Selector := ⟨.ofLive ["a:1", "b:1"], none, none, none⟩

/-- The first end. -/
def endA : IpAddr := .ofOctets 192 0 2 7

/-- The second end. -/
def endB : IpAddr := .ofOctets 198 51 100 9

/-- A choice for other ends, a dry run, a shorter live list, and the question again. -/
def quietRun : List (Instant × SelInput) :=
  [(1, .pick endA endA true), (2, .pick endA endB false), (3, .setLive ["c:1", "a:1"]),
    (29999, .pick endB endA true)]

/-- The first choice is still held at the end. -/
theorem one_relay_per_attempt_quiet :
    Always (Selector.step .plain) (Quiet "a:1") (twoAnswering.step .plain (0, .pick endA endB true))
        quietRun ∧
      Always (Selector.step .plain) (KeepsRelay .plain endA endB "a:1")
        (twoAnswering.step .plain (0, .pick endA endB true)) quietRun := by
  have hquiet : Always (Selector.step .plain) (Quiet "a:1")
      (twoAnswering.step .plain (0, .pick endA endB true)) quietRun :=
    ⟨⟨by decide, trivial⟩, ⟨by decide, trivial⟩, ⟨by decide, by decide⟩, ⟨by decide, trivial⟩, trivial⟩
  refine ⟨hquiet, ?_⟩
  have hkeeps := (one_relay_per_attempt .plain).1 twoAnswering 0 endA endB quietRun rfl (by decide)
    (by decide) (by decide) (by decide)
  exact hkeeps hquiet

/-- The first choice, answered once more shortly before it expires. -/
def answeredOnce : Selector := twoAnswering.step .plain (0, .pick endA endB true)

/-- That answer is not held: a little later the same ends get another relay. -/
theorem answering_does_not_prolong :
    ¬∀ (s : Selector) (t : Instant) (pa pb : IpAddr) (l : List (Instant × SelInput)),
      s.sel.preferred.relay = none → 0 < s.sel.pinTtlMs → 2 ≤ s.sel.live.length →
      (∀ x ∈ l, x.1 < t + s.sel.pinTtlMs) →
      Always (Selector.step .plain) (Quiet (s.sel.pick .plain t pa pb true).2.relay)
        (s.step .plain (t, .pick pa pb true)) l →
      Always (Selector.step .plain) (KeepsRelay .plain pa pb (s.sel.pick .plain t pa pb true).2.relay)
        (s.step .plain (t, .pick pa pb true)) l := by
  intro hall
  have h := hall answeredOnce 29999 endA endB [(30000, .pick endA endB true)] rfl (by decide)
    (by decide) (by decide) ⟨⟨by decide, trivial⟩, trivial⟩
  exact absurd (h.1 endA endB rfl (by decide)) (by decide)

end RustdeskServer
