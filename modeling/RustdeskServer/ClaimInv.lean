import RustdeskServer.ClaimPoints
import RustdeskServer.Store

/-!
# The invariant of racing registrations

Any number of `handle_register_pk` tasks work on one id.  What they see of the store is
its record and its row, a `View`; at each point a task knows something about it, and the
tasks together keep record and row in step as long as the committed ones make the same
claim: a row that differs from the record is about to be written, and a record without
the guid of its row is about to get it.

## Main definitions

* `View`, `PeerStore.view` — what the tasks see of the store.
* `Point.Holds` — what is known at a point.
* `ClaimInv` — the invariant.

## Main results

* `Point.Holds.write`, `Point.Holds.rewrite` — a task is not disturbed by one that
  makes the same claim.
* `ClaimInv.move`, `ClaimInv.write`, `ClaimInv.rewrite`, `ClaimInv.setGuid` — **every
  section keeps the invariant.**
-/

namespace RustdeskServer

open Atomic

/-! ### What the tasks see -/

/-- What the tasks see of the store: the record of the id and its row.  A record that
is not there has no owner. -/
structure View where
  /-- The record's handle. -/
  handle : Option Handle
  /-- The record's owner. -/
  uuid : Bytes
  /-- The record's key. -/
  pk : Bytes
  /-- The record's guid. -/
  guid : Bytes
  /-- The row. -/
  row : Option Row

/-- What the tasks see of a store. -/
def PeerStore.view (s : PeerStore) (id : String) : View :=
  match s.map.lookup id with
  | some h => ⟨some h, (s.recs h).uuid, (s.recs h).pk, (s.recs h).guid, findRow s.db id⟩
  | none => ⟨none, [], [], [], findRow s.db id⟩

section ViewOf

variable {s t : PeerStore} {id : String}

theorem view_of_some {h : Handle} (hm : s.map.lookup id = some h) :
    s.view id = ⟨some h, (s.recs h).uuid, (s.recs h).pk, (s.recs h).guid, findRow s.db id⟩ := by
  simp [PeerStore.view, hm]

theorem view_of_none (hm : s.map.lookup id = none) :
    s.view id = ⟨none, [], [], [], findRow s.db id⟩ := by
  simp [PeerStore.view, hm]

@[simp] theorem view_handle : (s.view id).handle = s.map.lookup id := by
  unfold PeerStore.view
  split
  · next h hm => rw [hm]
  · next hm => rw [hm]

@[simp] theorem view_row : (s.view id).row = findRow s.db id := by
  unfold PeerStore.view
  split <;> rfl

/-- Sections that leave the identities leave the view. -/
theorem view_congr (hm : t.map = s.map) (hr : ∀ h, (t.recs h).ident = (s.recs h).ident)
    (hdb : t.db = s.db) : t.view id = s.view id := by
  unfold PeerStore.view
  rw [hm, hdb]
  split
  · next h _ =>
    have h1 : (t.recs h).uuid = (s.recs h).uuid := congrArg Ident.uuid (hr h)
    have h2 : (t.recs h).pk = (s.recs h).pk := congrArg Ident.pk (hr h)
    have h3 : (t.recs h).guid = (s.recs h).guid := congrArg Ident.guid (hr h)
    rw [h1, h2, h3]
  · rfl

theorem view_of_same (hs : SameRecords s t) : t.view id = s.view id :=
  view_congr hs.map (fun h => by rw [hs.recs]) hs.db

theorem view_modify_of_ident (h : Handle) {f : Peer → Peer} (hf : ∀ p : Peer, (f p).ident = p.ident) :
    (s.modify h f).view id = s.view id := by
  refine view_congr rfl (fun h' => ?_) rfl
  by_cases heq : h' = h
  · subst heq
    simpa [PeerStore.modify] using hf (s.recs h')
  · rw [show (s.modify h f).recs h' = s.recs h' from Function.update_of_ne heq _ _]

theorem view_alloc_default (hm : s.map.lookup id = none) (now : Instant) :
    (s.alloc id (Peer.default now)).view id =
      { s.view id with handle := some ⟨id, s.next⟩ } := by
  have hm' : (s.alloc id (Peer.default now)).map.lookup id = some ⟨id, s.next⟩ :=
    AList.lookup_insert _
  rw [view_of_some hm', view_of_none hm]
  simp [PeerStore.alloc, Peer.default]

theorem view_modify {h : Handle} (hm : s.map.lookup id = some h) (f : Peer → Peer) :
    (s.modify h f).view id =
      ⟨some h, (f (s.recs h)).uuid, (f (s.recs h)).pk, (f (s.recs h)).guid, findRow s.db id⟩ := by
  have hm' : (s.modify h f).map.lookup id = some h := hm
  rw [view_of_some hm']
  simp [PeerStore.modify]

theorem view_db (db : List Row) :
    ({ s with db := db } : PeerStore).view id = { s.view id with row := findRow db id } := by
  unfold PeerStore.view
  dsimp only
  split <;> rfl

end ViewOf

/-- What is known at a point. -/
def Point.Holds (T : Claimant) (v : View) : Point → Prop
  | .ipCheck => True
  | .mapGet => True
  | .dbGet => True
  | .loadClock _ => v.handle ≠ none
  | .load _ => v.handle ≠ none
  | .getOrInsert => True
  | .check h => v.handle = some h
  | .count h changed _ => v.handle = some h ∧ (v.uuid = T.uuid ∨ v.uuid = [] ∧ changed = true)
  | .countClock h changed _ _ =>
    v.handle = some h ∧ (v.uuid = T.uuid ∨ v.uuid = [] ∧ changed = true)
  | .stamp h changed _ _ => v.handle = some h ∧ (v.uuid = T.uuid ∨ v.uuid = [] ∧ changed = true)
  | .bump h changed _ _ => v.handle = some h ∧ (v.uuid = T.uuid ∨ v.uuid = [] ∧ changed = true)
  | .note h changed => v.handle = some h ∧ (v.uuid = T.uuid ∨ v.uuid = [] ∧ changed = true)
  | .write h => v.handle = some h ∧ (v.uuid = T.uuid ∨ v.uuid = [])
  | .insertRow h => v.handle = some h ∧ v.uuid = T.uuid ∧ v.pk = T.pk ∧
      ∀ r, v.row = some r → r.pk = T.pk
  | .setGuid h g => v.handle = some h ∧ v.uuid = T.uuid ∧ v.pk = T.pk ∧
      ∃ r, v.row = some r ∧ r.guid = g ∧ r.pk = T.pk
  | .updateRow h g => v.handle = some h ∧ v.uuid = T.uuid ∧ v.pk = T.pk ∧
      ∃ r, v.row = some r ∧ r.guid = g
  | .done res => res = some .ok → v.handle ≠ none ∧ v.uuid = T.uuid

/-- The invariant of the tasks `T` at the points `pts`. -/
structure ClaimInv {ι : Type} (T : ι → Claimant) (v : View) (pts : ι → Point) : Prop where
  /-- A record that has no owner has no row. -/
  unowned : v.uuid = [] → v.row = none ∧ v.guid = []
  /-- A record that has an owner is in the map. -/
  mapped : v.handle = none → v.uuid = []
  /-- The row has the owner of the record. -/
  rowUuid : ∀ r, v.row = some r → r.uuid = v.uuid
  /-- The record's guid is that of the row. -/
  guidRow : v.guid ≠ [] → ∃ r, v.row = some r ∧ r.guid = v.guid
  /-- If the record lacks its guid, some task is about to set it. -/
  rowGuid : ∀ r, v.row = some r → v.guid = [] → ∃ j, ∃ h, pts j = .setGuid h r.guid
  /-- The row has the key of the record, or some task is about to write it. -/
  rowPk : v.uuid ≠ [] → (∃ r, v.row = some r ∧ r.pk = v.pk) ∨ ∃ j, (pts j).Pending = true
  /-- The record was written by a task. -/
  wrote : v.uuid ≠ [] →
    ∃ j, (pts j).Wrote = true ∧ (T j).uuid = v.uuid ∧ (T j).pk = v.pk
  /-- Committed tasks make the same claim. -/
  agree : ∀ i j, (pts i).Committed = true → (pts j).Committed = true → (T i).Same (T j)
  /-- Only a task that never starts names no owner. -/
  valid : ∀ i, (T i).uuid ≠ [] ∨ pts i = .done none
  /-- What is known at each point. -/
  holds : ∀ i, (pts i).Holds (T i) v

/-! ### One step -/

section Holds

variable {T U : Claimant} {v : View} {pt : Point}

/-- A task is not disturbed by a committed task that writes the record. -/
theorem Point.Holds.write (hU : pt.Holds U v) (hsame : pt.Committed = true → U.Same T)
    (hT : v.uuid = T.uuid ∨ v.uuid = []) (hval : U.uuid ≠ [] ∨ pt = .done none) :
    pt.Holds U { v with uuid := T.uuid, pk := T.pk } := by
  cases pt with
  | count h changed ipChanged => exact ⟨hU.1, Or.inl (hsame rfl).1.symm⟩
  | countClock h changed ipChanged p => exact ⟨hU.1, Or.inl (hsame rfl).1.symm⟩
  | stamp h changed ipChanged n => exact ⟨hU.1, Or.inl (hsame rfl).1.symm⟩
  | bump h changed ipChanged x => exact ⟨hU.1, Or.inl (hsame rfl).1.symm⟩
  | note h changed => exact ⟨hU.1, Or.inl (hsame rfl).1.symm⟩
  | write h => exact ⟨hU.1, Or.inl (hsame rfl).1.symm⟩
  | insertRow h => exact ⟨hU.1, (hsame rfl).1.symm, (hsame rfl).2.symm, hU.2.2.2⟩
  | setGuid h g => exact ⟨hU.1, (hsame rfl).1.symm, (hsame rfl).2.symm, hU.2.2.2⟩
  | updateRow h g => exact ⟨hU.1, (hsame rfl).1.symm, (hsame rfl).2.symm, hU.2.2.2⟩
  | done res =>
    intro hres
    obtain ⟨hm, hu⟩ := hU hres
    refine ⟨hm, ?_⟩
    -- a task that was told `ok` had an owner to compare with
    rcases hT with hT | hT
    · exact hT.symm.trans hu
    · rcases hval with hval | hval
      · exact absurd (hu.symm.trans hT) hval
      · rw [hres] at hval
        cases hval
  | _ => exact hU

theorem holds_afterNote {h : Handle} {changed : Bool}
    (hU : v.handle = some h ∧ (v.uuid = U.uuid ∨ v.uuid = [] ∧ changed = true)) :
    (Point.afterNote U h changed).Holds U v := by
  unfold Point.afterNote
  split
  · exact ⟨hU.1, hU.2.imp_right And.left⟩
  · next hno =>
    -- nothing to write: the record has this owner
    refine fun _ => ⟨by rw [hU.1]; simp, ?_⟩
    rcases hU.2 with h | ⟨-, h⟩
    · exact h
    · simp [h] at hno

/-- A task is not disturbed by a committed task that writes the row. -/
theorem Point.Holds.rewrite (hU : pt.Holds U v) (hsame : pt.Committed = true → U.Same T) {r' : Row}
    (hpk : r'.pk = T.pk) (hguid : ∀ r, v.row = some r → r'.guid = r.guid) :
    pt.Holds U { v with row := some r' } := by
  cases pt with
  | insertRow h =>
    refine ⟨hU.1, hU.2.1, hU.2.2.1, ?_⟩
    intro r hr
    cases hr
    exact hpk.trans (hsame rfl).2.symm
  | setGuid h g =>
    obtain ⟨r, hr, hg, -⟩ := hU.2.2.2
    exact ⟨hU.1, hU.2.1, hU.2.2.1, r', rfl, (hguid r hr).trans hg, hpk.trans (hsame rfl).2.symm⟩
  | updateRow h g =>
    obtain ⟨r, hr, hg⟩ := hU.2.2.2
    exact ⟨hU.1, hU.2.1, hU.2.2.1, r', rfl, (hguid r hr).trans hg⟩
  | _ => exact hU

theorem Point.Holds.setGuid (hU : pt.Holds U v) (g : Bytes) : pt.Holds U { v with guid := g } := by
  cases pt <;> exact hU

/-- Before the record is in the map, no task knows anything of it. -/
theorem Point.Holds.alloc (hU : pt.Holds U v) (hnone : v.handle = none) (h : Handle) :
    pt.Holds U { v with handle := some h } := by
  cases pt with
  | ipCheck => trivial
  | mapGet => trivial
  | dbGet => trivial
  | getOrInsert => trivial
  | loadClock _ => exact absurd hnone hU
  | load _ => exact absurd hnone hU
  | check h => exact absurd (hnone.symm.trans hU) (by simp)
  | done res => exact fun hres => absurd hnone (hU hres).1
  | _ => exact absurd (hnone.symm.trans hU.1) (by simp)

end Holds

section Update

variable {ι : Type} {T : ι → Claimant} {v : View} {pts : ι → Point}

theorem ClaimInv.uuid_ne (hI : ClaimInv T v pts) {i : ι} {pt : Point} (hi : pts i = pt)
    (hpt : pt ≠ .done none) : (T i).uuid ≠ [] := by
  rcases hI.valid i with h | h
  · exact h
  · exact absurd (hi.symm.trans h) hpt

/-- The record is put into the map. -/
theorem ClaimInv.alloc (hI : ClaimInv T v pts) (hnone : v.handle = none) (h : Handle) :
    ClaimInv T { v with handle := some h } pts where
  unowned := hI.unowned
  mapped := fun hm => by cases hm
  rowUuid := hI.rowUuid
  guidRow := hI.guidRow
  rowGuid := hI.rowGuid
  rowPk := hI.rowPk
  wrote := hI.wrote
  agree := hI.agree
  valid := hI.valid
  holds := fun j => (hI.holds j).alloc hnone h

variable [DecidableEq ι] {i : ι} {pt : Point}

theorem exists_update {P : ι → Point → Prop} (h : ∃ j, P j (pts j)) (hi : P i (pts i) → P i pt) :
    ∃ j, P j (Function.update pts i pt j) := by
  obtain ⟨j, hj⟩ := h
  refine ⟨j, ?_⟩
  by_cases hji : j = i
  · subst hji
    rw [Function.update_self]
    exact hi hj
  · rw [Function.update_of_ne hji]
    exact hj

theorem forall_update {P : ι → Point → Prop} (h : ∀ j, j ≠ i → P j (pts j)) (hi : P i pt) (j : ι) :
    P j (Function.update pts i pt j) := by
  by_cases hji : j = i
  · subst hji
    rw [Function.update_self]
    exact hi
  · rw [Function.update_of_ne hji]
    exact h j hji

/-- Committed tasks still make the same claim when one of them moves, or joins. -/
theorem ClaimInv.agree_update (hI : ClaimInv T v pts)
    (hc : pt.Committed = true → (pts i).Committed = true ∨
      ∀ j, j ≠ i → (pts j).Committed = true → (T j).Same (T i)) (j k : ι) :
    (Function.update pts i pt j).Committed = true →
      (Function.update pts i pt k).Committed = true → (T j).Same (T k) := by
  have hone : ∀ j, j ≠ i → (pts j).Committed = true → pt.Committed = true →
      (T j).Same (T i) := by
    intro j hji hj hpt
    rcases hc hpt with h | h
    · exact hI.agree j i hj h
    · exact h j hji hj
  by_cases hj : j = i
  · by_cases hk : k = i
    · intro _ _
      rw [hj, hk]
      exact ⟨rfl, rfl⟩
    · subst hj
      rw [Function.update_self, Function.update_of_ne hk]
      intro h1 h2
      exact ⟨(hone k hk h2 h1).1.symm, (hone k hk h2 h1).2.symm⟩
  · by_cases hk : k = i
    · subst hk
      rw [Function.update_self, Function.update_of_ne hj]
      exact fun h1 h2 => hone j hj h1 h2
    · rw [Function.update_of_ne hj, Function.update_of_ne hk]
      exact hI.agree j k

/-- A step that changes nothing that the tasks see. -/
theorem ClaimInv.move (hI : ClaimInv T v pts) (hold : (pts i).Wrote = false)
    (hnew : pt.Holds (T i) v) (hval : (T i).uuid ≠ [] ∨ pt = .done none)
    (hc : pt.Committed = true → (pts i).Committed = true ∨
      ∀ j, j ≠ i → (pts j).Committed = true → (T j).Same (T i)) :
    ClaimInv T v (Function.update pts i pt) where
  unowned := hI.unowned
  mapped := hI.mapped
  rowUuid := hI.rowUuid
  guidRow := hI.guidRow
  rowGuid := fun r hr hg =>
    exists_update (P := fun _ pt => ∃ h, pt = .setGuid h r.guid) (hI.rowGuid r hr hg) fun ⟨h, hi⟩ => by
      rw [hi] at hold
      cases hold
  rowPk := fun hu => (hI.rowPk hu).imp_right fun h =>
    exists_update (P := fun _ pt => pt.Pending = true) h fun hi => by
      rw [Point.wrote_of_pending hi] at hold
      cases hold
  wrote := fun hu =>
    exists_update (P := fun j pt => pt.Wrote = true ∧ (T j).uuid = v.uuid ∧ (T j).pk = v.pk)
      (hI.wrote hu) fun ⟨hi, _⟩ => by
        rw [hi] at hold
        cases hold
  agree := hI.agree_update hc
  valid := forall_update (P := fun j pt => (T j).uuid ≠ [] ∨ pt = .done none)
    (fun j _ => hI.valid j) hval
  holds := forall_update (P := fun j pt => pt.Holds (T j) v) (fun j _ => hI.holds j) hnew

/-- The record is written, and then a row for it: a new one if it has no guid. -/
theorem ClaimInv.write (hI : ClaimInv T v pts) {h : Handle} (hi : pts i = .write h) :
    ClaimInv T { v with uuid := (T i).uuid, pk := (T i).pk }
      (Function.update pts i (if v.guid.isEmpty then .insertRow h else .updateRow h v.guid)) := by
  have hhold := hI.holds i
  rw [hi] at hhold
  have hcommit : (pts i).Committed = true := by rw [hi]; rfl
  have hne : (T i).uuid ≠ [] := hI.uuid_ne hi (by simp)
  have hmapped : v.handle ≠ none := by rw [hhold.1]; simp
  -- a row that is there already carries this claim
  have hrow : ∀ r, v.row = some r → r.uuid = (T i).uuid := by
    intro r hr
    rcases hhold.2 with hu | hu
    · exact (hI.rowUuid r hr).trans hu
    · rw [(hI.unowned hu).1] at hr
      cases hr
  have hnext : (if v.guid.isEmpty then Point.insertRow h else .updateRow h v.guid).Holds (T i)
      { v with uuid := (T i).uuid, pk := (T i).pk } := by
    split
    · next hg =>
      refine ⟨hhold.1, rfl, rfl, ?_⟩
      intro r hr
      -- the row has no guid in memory yet, so another committed task just inserted it
      obtain ⟨j, h', hj⟩ := hI.rowGuid r hr (by simpa using hg)
      have hjhold := hI.holds j
      rw [hj] at hjhold
      obtain ⟨r', hr', -, hpk⟩ := hjhold.2.2.2
      rw [hr, Option.some.injEq] at hr'
      rw [hr', hpk]
      exact (hI.agree j i (by rw [hj]; rfl) hcommit).2
    · next hg => exact ⟨hhold.1, rfl, rfl, hI.guidRow (by simpa using hg)⟩
  have hpend : (if v.guid.isEmpty then Point.insertRow h else .updateRow h v.guid).Pending = true := by
    split <;> rfl
  have hwrote : (if v.guid.isEmpty then Point.insertRow h else .updateRow h v.guid).Wrote = true := by
    split <;> rfl
  refine ⟨fun hu => absurd hu hne, fun hm => absurd hm hmapped, hrow, hI.guidRow, ?_, ?_, ?_, ?_,
    ?_, ?_⟩
  · intro r hr hg
    refine exists_update (P := fun _ pt => ∃ h, pt = .setGuid h r.guid) (hI.rowGuid r hr hg) ?_
    rintro ⟨h', h''⟩
    rw [hi] at h''
    cases h''
  · exact fun _ => Or.inr ⟨i, by rw [Function.update_self]; exact hpend⟩
  · exact fun _ => ⟨i, by rw [Function.update_self]; exact hwrote, rfl, rfl⟩
  · exact hI.agree_update fun _ => Or.inl hcommit
  · exact forall_update (P := fun j pt => (T j).uuid ≠ [] ∨ pt = .done none)
      (fun j _ => hI.valid j) (Or.inl hne)
  · refine forall_update (P := fun j pt => pt.Holds (T j) _) (fun j _ => ?_) hnext
    exact (hI.holds j).write (fun hj => hI.agree j i hj hcommit) hhold.2 (hI.valid j)

/-- The row is written by the pending task `i`, which then goes on to `pt`. -/
theorem ClaimInv.rewrite (hI : ClaimInv T v pts) (hcommit : (pts i).Committed = true) {r' : Row}
    (huuid : v.uuid = (T i).uuid) (hpk : v.pk = (T i).pk) (hne : (T i).uuid ≠ [])
    (hr'u : r'.uuid = (T i).uuid) (hr'k : r'.pk = (T i).pk)
    (hguid : ∀ r, v.row = some r → r'.guid = r.guid)
    (hg : v.row = none → ∃ h, pt = .setGuid h r'.guid) (hold : ∀ h g, pts i ≠ .setGuid h g)
    (hwrote : pt.Wrote = true) (hnew : pt.Holds (T i) { v with row := some r' }) :
    ClaimInv T { v with row := some r' } (Function.update pts i pt) where
  unowned := fun hu => absurd (huuid.symm.trans hu) hne
  mapped := hI.mapped
  rowUuid := fun r hr => by
    cases hr
    exact hr'u.trans huuid.symm
  guidRow := fun hg' => by
    obtain ⟨r, hr, hrg⟩ := hI.guidRow hg'
    exact ⟨r', rfl, (hguid r hr).trans hrg⟩
  rowGuid := fun r hr hg' => by
    cases hr
    cases hrow : v.row with
    | none =>
      obtain ⟨h, rfl⟩ := hg hrow
      exact ⟨i, h, by rw [Function.update_self]⟩
    | some r₀ =>
      rw [hguid r₀ hrow]
      refine exists_update (P := fun _ pt => ∃ h, pt = .setGuid h r₀.guid)
        (hI.rowGuid r₀ hrow hg') ?_
      rintro ⟨h, hi⟩
      exact absurd hi (hold h _)
  rowPk := fun _ => Or.inl ⟨r', rfl, hr'k.trans hpk.symm⟩
  wrote := fun hu =>
    exists_update (P := fun j pt => pt.Wrote = true ∧ (T j).uuid = v.uuid ∧ (T j).pk = v.pk)
      (hI.wrote hu) fun h => ⟨hwrote, h.2⟩
  agree := hI.agree_update fun _ => Or.inl hcommit
  valid := forall_update (P := fun j pt => (T j).uuid ≠ [] ∨ pt = .done none)
    (fun j _ => hI.valid j) (Or.inl hne)
  holds := by
    refine forall_update (P := fun j pt => pt.Holds (T j) _) (fun j _ => ?_) hnew
    exact (hI.holds j).rewrite (fun hj => hI.agree j i hj hcommit) hr'k hguid

/-- The row of the pending task `i` is there already. -/
theorem ClaimInv.insert_refused (hI : ClaimInv T v pts) {h : Handle} (hi : pts i = .insertRow h)
    {r : Row} (hr : v.row = some r) :
    ClaimInv T v (Function.update pts i (.done (some .ok))) := by
  have hhold := hI.holds i
  rw [hi] at hhold
  obtain ⟨hm, huuid, hpk, hrow⟩ := hhold
  have hne : (T i).uuid ≠ [] := hI.uuid_ne hi (by simp)
  refine ⟨hI.unowned, hI.mapped, hI.rowUuid, hI.guidRow, ?_, ?_, ?_, ?_, ?_, ?_⟩
  · intro r' hr' hg
    refine exists_update (P := fun _ pt => ∃ h, pt = .setGuid h r'.guid) (hI.rowGuid r' hr' hg) ?_
    rintro ⟨h', h''⟩
    rw [hi] at h''
    cases h''
  · exact fun _ => Or.inl ⟨r, hr, (hrow r hr).trans hpk.symm⟩
  · intro hu
    exact exists_update
      (P := fun j pt => pt.Wrote = true ∧ (T j).uuid = v.uuid ∧ (T j).pk = v.pk) (hI.wrote hu)
      fun h => ⟨rfl, h.2⟩
  · exact hI.agree_update fun h => by cases h
  · exact forall_update (P := fun j pt => (T j).uuid ≠ [] ∨ pt = .done none)
      (fun j _ => hI.valid j) (Or.inl hne)
  · refine forall_update (P := fun j pt => pt.Holds (T j) v) (fun j _ => hI.holds j) ?_
    exact fun _ => ⟨by rw [hm]; simp, huuid⟩

/-- The record gets the guid of its row. -/
theorem ClaimInv.setGuid (hI : ClaimInv T v pts) {h : Handle} {g : Bytes}
    (hi : pts i = .setGuid h g) (hg : g ≠ []) :
    ClaimInv T { v with guid := g } (Function.update pts i (.done (some .ok))) := by
  have hhold := hI.holds i
  rw [hi] at hhold
  obtain ⟨hm, huuid, hpk, r, hr, hrg, -⟩ := hhold
  have hne : (T i).uuid ≠ [] := hI.uuid_ne hi (by simp)
  refine ⟨fun hu => absurd (huuid.symm.trans hu) hne, hI.mapped, hI.rowUuid,
    fun _ => ⟨r, hr, hrg⟩, fun _ _ h => absurd h hg, ?_, ?_, ?_, ?_, ?_⟩
  · intro hu
    refine (hI.rowPk hu).imp_right ?_
    intro hj
    refine exists_update (P := fun _ pt => pt.Pending = true) hj ?_
    intro h
    rw [hi] at h
    cases h
  · intro hu
    exact exists_update
      (P := fun j pt => pt.Wrote = true ∧ (T j).uuid = v.uuid ∧ (T j).pk = v.pk) (hI.wrote hu)
      fun h => ⟨rfl, h.2⟩
  · exact hI.agree_update fun h => by cases h
  · exact forall_update (P := fun j pt => (T j).uuid ≠ [] ∨ pt = .done none)
      (fun j _ => hI.valid j) (Or.inl hne)
  · refine forall_update (P := fun j pt => pt.Holds (T j) _) (fun j _ => (hI.holds j).setGuid g) ?_
    exact fun _ => ⟨by rw [hm]; simp, huuid⟩

end Update

end RustdeskServer
