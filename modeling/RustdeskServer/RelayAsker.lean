import RustdeskServer.RelayRace

/-!
# Who asks does not matter

Either end of a session may ask for a relay, and the address of an end may arrive as an IPv4
address or wrapped in an IPv6 one.  The held choice is found under the two addresses in a
fixed order and in one form; the routing table and the GeoIP database unwrap an address
before they look it up; and the costs from the two ends are added.  So the answer and what
becomes of the selector are the same.

## Main definitions

* `GeoDb`, `GeoDb.locate` — a GeoIP database.
* `DatabasesOpened` — a tick loads databases only.
* `Unwraps` — the selector looks an address up in one form.

## Main results

* `pick_sameEnds` — a choice depends on the two ends only.
* `who_asks_does_not_matter` — **in every state that a history leads to, both ends get the
  same answer and leave the same selector.**
-/

namespace RustdeskServer

/-- `GeoDb`: what the reader of the database says of an address. -/
structure GeoDb where
  /-- The lookup in the database. -/
  lookup : IpAddr → Option Geo.Point

/-- `GeoDb::locate`. -/
def GeoDb.locate (g : GeoDb) (ip : IpAddr) : Option Geo.Point := g.lookup ip.toCanonical

/-- What a tick loads as a database is one. -/
def DatabasesOpened : SelInput → Prop
  | .reload files => ∀ db, files.db.load = .ok db → ∃ g : GeoDb, db = g.locate
  | _ => True

/-- The database in force is one. -/
def Unwraps (s : RelaySelector) : Prop := ∀ db ∈ s.geo.db, ∃ g : GeoDb, db = g.locate

section Asker

variable {P : Platform}

/-! ### The database in force -/

/-- **Every operation keeps the database in force one.** -/
theorem unwraps_step {s : Selector} {x : Instant × SelInput} (h : Unwraps s.sel)
    (hx : DatabasesOpened x.2) : Unwraps (s.step P x).sel := by
  obtain ⟨now, i⟩ := x
  cases i with
  | pick pa pb commit =>
    obtain ⟨pins, n, hframe⟩ := RelaySelector.pick_frame P s.sel now pa pb commit
    simp only [Selector.step, hframe]
    exact h
  | setLive relays => exact h
  | reload files =>
    obtain ⟨routes, geo, pins, hframe, hdb, -⟩ := s.reload_frame files
    simp only [Selector.step, hframe]
    rcases hdb with hsame | ⟨db, hload, hnew⟩
    · intro db hmem
      rw [hsame] at hmem
      exact h db hmem
    · intro db' hmem
      rw [hnew, Option.mem_some_iff] at hmem
      rw [← hmem]
      exact hx db hload
  | console e cmd =>
    simp only [Selector.step]
    split
    · next r hr =>
      rcases RelaySelector.console_cases P hr with hsame | ⟨arg, hcmd⟩
      · simp only [hsame]
        exact h
      · obtain ⟨preferred, hframe⟩ :=
          RelaySelector.useRelayCommand_frame P s.sel { e with now := now } arg
        simp only [hcmd, hframe]
        exact h
    · exact h

/-! ### A choice depends on the two ends only -/

/-- What is known of an address does not depend on its form. -/
theorem sideCosts_congr {s : RelaySelector} (h : Unwraps s) {ip ip' : IpAddr}
    (hip : ip'.toCanonical = ip.toCanonical) : s.sideCosts P ip' = s.sideCosts P ip := by
  have htable : ∀ t : RouteTable, t.costsFor ip' = t.costsFor ip := fun t => by
    rw [RouteTable.costsFor, RouteTable.costsFor, hip]
  have hlocate : s.locate ip' = s.locate ip := by
    have hlook : ∀ db ∈ s.geo.db, db ip' = db ip := by
      intro db hdb
      obtain ⟨g, rfl⟩ := h db hdb
      rw [GeoDb.locate, GeoDb.locate, hip]
    unfold RelaySelector.locate
    cases s.geo.locations with
    | none => rfl
    | some l =>
      cases hdb : s.geo.db with
      | none => rfl
      | some db => exact hlook db hdb
  unfold RelaySelector.sideCosts
  simp only [htable, hlocate]

/-- What is known of the two ends does not depend on who asks, but for the order. -/
theorem known_perm {s : RelaySelector} (h : Unwraps s) {pa pb pa' pb' : IpAddr}
    (hends : SameEnds pa pb pa' pb') :
    ([pa', pb'].filterMap (s.sideCosts P)).Perm ([pa, pb].filterMap (s.sideCosts P)) := by
  have hpair : ∀ a b : IpAddr, [a, b].filterMap (s.sideCosts P) =
      (s.sideCosts P a).toList ++ (s.sideCosts P b).toList := by
    intro a b
    cases ha : s.sideCosts P a <;> cases hb : s.sideCosts P b <;> simp [ha, hb]
  rw [hpair, hpair]
  rcases hends with ⟨ha, hb⟩ | ⟨ha, hb⟩
  · rw [sideCosts_congr h ha, sideCosts_congr h hb]
  · rw [sideCosts_congr h ha, sideCosts_congr h hb]
    exact List.perm_append_comm

theorem pickFresh_sameEnds {s : RelaySelector} (h : Unwraps s) {pa pb pa' pb' : IpAddr}
    (hends : SameEnds pa pb pa' pb') (commit : Bool) :
    s.pickFresh P pa' pb' commit = s.pickFresh P pa pb commit := by
  have hperm := known_perm (P := P) h hends
  unfold RelaySelector.pickFresh
  dsimp only
  rw [chooseFrom_perm P.round P.toUnicode s.live (hperm.map Prod.fst) (known_length_le s _ _),
    hperm.all_eq, hperm.all_eq]

theorem pickAmong_sameEnds {s : RelaySelector} (h : Unwraps s) {pa pb pa' pb' : IpAddr}
    (hends : SameEnds pa pb pa' pb') (now : Instant) (commit : Bool) :
    s.pickAmong P now pa' pb' commit = s.pickAmong P now pa pb commit := by
  unfold RelaySelector.pickAmong
  rw [hends.pinKey_eq]
  split
  · -- looking for a held choice leaves the database alone
    have hpinned : Unwraps (s.pinnedRelay now (RelaySelector.pinKey pa pb)).1 := by
      unfold RelaySelector.pinnedRelay
      split
      · split <;> exact h
      · exact h
    generalize s.pinnedRelay now (RelaySelector.pinKey pa pb) = r at hpinned ⊢
    obtain ⟨t, held⟩ := r
    cases held with
    | some relay => rfl
    | none => simp only [pickFresh_sameEnds hpinned hends]
  · exact pickFresh_sameEnds h hends false

/-- **A choice depends on the two ends only.** -/
theorem pick_sameEnds {s : RelaySelector} (h : Unwraps s) {pa pb pa' pb' : IpAddr}
    (hends : SameEnds pa pb pa' pb') (now : Instant) (commit : Bool) :
    s.pick P now pa' pb' commit = s.pick P now pa pb commit := by
  unfold RelaySelector.pick
  simp only [pickAmong_sameEnds h hends]

theorem unwraps_run {s : Selector} {history : List (Instant × SelInput)} (h : Unwraps s.sel)
    (hx : ∀ x ∈ history, DatabasesOpened x.2) :
    Unwraps (history.foldl (Selector.step P) s).sel :=
  List.foldlRecOn (motive := fun s : Selector => Unwraps s.sel) history _ h
    fun _ hs x hmem => unwraps_step hs (hx x hmem)

end Asker

/-- **Who asks does not matter.**  In every state that a history leads to, from a selector
without a database, a choice for the same two ends, in either order and each plain or
IPv4-mapped, has the same answer and leaves the same selector, committed or not. -/
theorem who_asks_does_not_matter (P : Platform) (s₀ : Selector)
    (history : List (Instant × SelInput)) (hstart : s₀.sel.geo.db = none)
    (hfiles : ∀ x ∈ history, DatabasesOpened x.2) (now : Instant) {pa pb pa' pb' : IpAddr}
    (hends : SameEnds pa pb pa' pb') (commit : Bool) :
    let s := (history.foldl (Selector.step P) s₀).sel
    s.pick P now pa' pb' commit = s.pick P now pa pb commit := by
  have hnone : Unwraps s₀.sel := by
    intro db hdb
    rw [hstart] at hdb
    cases hdb
  exact pick_sameEnds (unwraps_run hnone hfiles) hends now commit

/-- A database that knows one address, and the locations of two relays. -/
def placed : RelayFiles where
  routes := ⟨none, .error ""⟩
  db := ⟨some ⟨1, 1⟩, .ok (GeoDb.locate ⟨fun ip => if ip = endA then some ⟨1, 2⟩ else none⟩)⟩
  locations := ⟨some ⟨1, 1⟩, .ok ((∅ : HashMap String Geo.Point).insert "b:1" ⟨1, 2⟩)⟩

/-- Two relays, with a database and locations configured. -/
def withGeo : Selector :=
  { twoAnswering with sel := { twoAnswering.sel with
      geo := ⟨some "geo.mmdb", none, none, some "locations", none, none⟩ } }

/-- The first end asks, and then the second, which sees the first as a mapped address. -/
theorem who_asks_does_not_matter_mapped :
    let s := (([(0, .reload placed)] : List (Instant × SelInput)).foldl
      (Selector.step .plain) withGeo).sel
    s.pick .plain 1 endB (.v6 (0xffffc0000207 : BitVec 128)) true = s.pick .plain 1 endA endB true ∧
      (s.pick .plain 1 endA endB true).2.reason = .geo := by
  refine ⟨who_asks_does_not_matter .plain withGeo [(0, .reload placed)] rfl ?_ 1 (by decide) true,
    by decide +kernel⟩
  intro x hx
  rw [List.mem_singleton.mp hx]
  intro db hdb
  exact ⟨_, (Except.ok.inj hdb).symm⟩

end RustdeskServer
