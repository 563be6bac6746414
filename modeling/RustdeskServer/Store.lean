import RustdeskServer.Sequential

/-!
# Invariants of the peer store

What holds of the peer store whichever database calls fail, as long as messages
are handled one at a time.  The rows have distinct ids and distinct guids, which
the schema enforces, and every row has an owner.  A record in memory has an owner
as well, and the guid it carries, if any, is the guid of its own row.

## Main definitions

* `DbWF` — the table `peer` is well formed.
* `StoreWF` — the invariant of the store.
* `CallSucceeds`, `DbOk` — the database call of `update_pk` succeeds; all calls do.
* `Ident`, `PeerStore.Each` — what a record and its row have in common, and a
  property of every record with its row.
* `Change` — what an input leaves behind, told by what happened to one record.

## Main results

* `writeRow_spec` — what the database call of `update_pk` does to the rows.
* `writeRow_eq_none_iff` — exactly when it fails.
* `found_spec`, `regCheck_eq_some` — what a lookup finds, and what is accepted.
* `change_step` — **an input does one of the things `Change` lists.**
* `PeerStore.Each.change`, `StoreWF.change` — the rule for invariants, and the
  invariant.
* `OwnersAgree.rewritten_uuid` — a registration leaves a row of the same owner.
-/

namespace RustdeskServer

open Atomic

/-! ### Rows -/

/-- The table `peer`: what its schema enforces, and that every row has an owner. -/
structure DbWF (db : List Row) : Prop where
  /-- The unique index on `id`. -/
  ids : (db.map Row.id).Nodup
  /-- The primary key. -/
  guids : (db.map Row.guid).Nodup
  /-- Every row has an owner. -/
  uuid_ne : ∀ r ∈ db, r.uuid ≠ []
  /-- Every row has a guid. -/
  guid_ne : ∀ r ∈ db, r.guid ≠ []

theorem dbWF_nil : DbWF [] := ⟨by simp, by simp, by simp, by simp⟩

theorem mem_of_findRow {db : List Row} {id : String} {r : Row} (h : findRow db id = some r) :
    r ∈ db ∧ r.id = id := by
  unfold findRow at h
  exact ⟨List.mem_of_find?_eq_some h, by simpa using List.find?_some h⟩

theorem findRow_eq_none_iff {db : List Row} {id : String} :
    findRow db id = none ↔ ∀ r ∈ db, r.id ≠ id := by
  simp [findRow]

/-- With distinct ids, the row of an id is the only one. -/
theorem DbWF.findRow_of_mem {db : List Row} (hwf : DbWF db) {r : Row} (hr : r ∈ db) :
    findRow db r.id = some r := by
  cases h : findRow db r.id with
  | none => exact absurd rfl (findRow_eq_none_iff.mp h r hr)
  | some r' =>
    obtain ⟨hr', hid⟩ := mem_of_findRow h
    rw [List.inj_on_of_nodup_map hwf.ids hr' hr hid]

theorem DbWF.eq_of_guid {db : List Row} (hwf : DbWF db) {r r' : Row} (hr : r ∈ db)
    (hr' : r' ∈ db) (h : r.guid = r'.guid) : r = r' :=
  List.inj_on_of_nodup_map hwf.guids hr hr' h

/-- The new row after `insert_peer`: nobody has its id or its guid. -/
theorem DbWF.insert {db : List Row} (hwf : DbWF db) {r : Row} (hguid : ∀ x ∈ db, x.guid ≠ r.guid)
    (hid : ∀ x ∈ db, x.id ≠ r.id) (hu : r.uuid ≠ []) (hg : r.guid ≠ []) : DbWF (db ++ [r]) where
  ids := by
    simp only [List.map_append, List.map_cons, List.map_nil, List.nodup_append, hwf.ids]
    simpa using hid
  guids := by
    simp only [List.map_append, List.map_cons, List.map_nil, List.nodup_append, hwf.guids]
    simpa using hguid
  uuid_ne := by
    intro x hx
    rcases List.mem_append.mp hx with hx | hx
    · exact hwf.uuid_ne x hx
    · rwa [List.mem_singleton.mp hx]
  guid_ne := by
    intro x hx
    rcases List.mem_append.mp hx with hx | hx
    · exact hwf.guid_ne x hx
    · rwa [List.mem_singleton.mp hx]

theorem findRow_append_self {db : List Row} {r : Row} (hid : ∀ x ∈ db, x.id ≠ r.id) :
    findRow (db ++ [r]) r.id = some r := by
  have h : db.find? (fun x => x.id = r.id) = none := by simpa using hid
  simp [findRow, List.find?_append, h]

theorem findRow_append_ne {db : List Row} {r : Row} {id : String} (hne : r.id ≠ id) :
    findRow (db ++ [r]) id = findRow db id := by
  simp [findRow, List.find?_append, hne]

/-- `update_pk` on its row, as a function on rows. -/
def Row.rekey (guid : Bytes) (id : String) (pk : Bytes) (info : String) (x : Row) : Row :=
  if x.guid = guid then { x with id := id, pk := pk, info := info } else x

@[simp] theorem Row.rekey_guid (guid : Bytes) (id : String) (pk : Bytes) (info : String)
    (x : Row) : (x.rekey guid id pk info).guid = x.guid := by
  unfold Row.rekey
  split <;> rfl

@[simp] theorem Row.rekey_uuid (guid : Bytes) (id : String) (pk : Bytes) (info : String)
    (x : Row) : (x.rekey guid id pk info).uuid = x.uuid := by
  unfold Row.rekey
  split <;> rfl

theorem Row.rekey_self {guid : Bytes} {id : String} (pk : Bytes) (info : String) {x : Row}
    (h : x.guid = guid) :
    x.rekey guid id pk info = { x with id := id, pk := pk, info := info } := by
  simp [Row.rekey, h]

theorem Row.rekey_ne {guid : Bytes} {id : String} (pk : Bytes) (info : String) {x : Row}
    (h : x.guid ≠ guid) : x.rekey guid id pk info = x := by
  simp [Row.rekey, h]

section Rekey

variable {db : List Row} {r : Row} (pk : Bytes) (info : String)

/-- Rekeying the row `r` under its own id moves no row to another id. -/
theorem DbWF.rekey_id (hwf : DbWF db) (hr : r ∈ db) {x : Row} (hx : x ∈ db) :
    (x.rekey r.guid r.id pk info).id = x.id := by
  by_cases h : x.guid = r.guid
  · rw [hwf.eq_of_guid hx hr h]
    simp [Row.rekey]
  · rw [Row.rekey_ne pk info h]

theorem DbWF.rekey (hwf : DbWF db) (hr : r ∈ db) :
    DbWF (db.map (Row.rekey r.guid r.id pk info)) where
  ids := by
    have h : (db.map (Row.rekey r.guid r.id pk info)).map Row.id = db.map Row.id := by
      rw [List.map_map]
      exact List.map_congr_left fun x hx => hwf.rekey_id pk info hr hx
    rw [h]
    exact hwf.ids
  guids := by
    have h : (db.map (Row.rekey r.guid r.id pk info)).map Row.guid = db.map Row.guid := by
      rw [List.map_map]
      exact List.map_congr_left fun x _ => Row.rekey_guid ..
    rw [h]
    exact hwf.guids
  uuid_ne := by
    intro x hx
    obtain ⟨y, hy, rfl⟩ := List.mem_map.mp hx
    rw [Row.rekey_uuid]
    exact hwf.uuid_ne y hy
  guid_ne := by
    intro x hx
    obtain ⟨y, hy, rfl⟩ := List.mem_map.mp hx
    rw [Row.rekey_guid]
    exact hwf.guid_ne y hy

theorem DbWF.findRow_rekey_self (hwf : DbWF db) (hr : r ∈ db) :
    findRow (db.map (Row.rekey r.guid r.id pk info)) r.id =
      some { r with pk := pk, info := info } := by
  have hmem := List.mem_map_of_mem (f := Row.rekey r.guid r.id pk info) hr
  have h := (hwf.rekey pk info hr).findRow_of_mem hmem
  rwa [hwf.rekey_id pk info hr hr, Row.rekey_self pk info rfl] at h

theorem DbWF.findRow_rekey_ne (hwf : DbWF db) (hr : r ∈ db) {id : String} (hne : id ≠ r.id) :
    findRow (db.map (Row.rekey r.guid r.id pk info)) id = findRow db id := by
  cases h : findRow db id with
  | none =>
    rw [findRow_eq_none_iff] at h ⊢
    intro x hx
    obtain ⟨y, hy, rfl⟩ := List.mem_map.mp hx
    rw [hwf.rekey_id pk info hr hy]
    exact h y hy
  | some x =>
    obtain ⟨hx, hid⟩ := mem_of_findRow h
    have hguid : x.guid ≠ r.guid := by
      intro hg
      rw [hwf.eq_of_guid hx hr hg] at hid
      exact hne hid.symm
    have hmem := List.mem_map_of_mem (f := Row.rekey r.guid r.id pk info) hx
    rw [Row.rekey_ne pk info hguid] at hmem
    rw [← hid]
    exact (hwf.rekey pk info hr).findRow_of_mem hmem

/-- `update_pk` on a row under its own id breaks no index. -/
theorem DbWF.updatePk_eq (hwf : DbWF db) (hr : r ∈ db) :
    Database.updatePk db r.guid r.id pk info = some (db.map (Row.rekey r.guid r.id pk info)) := by
  unfold Database.updatePk
  rw [if_neg]
  · rfl
  · rintro ⟨-, h⟩
    simp only [List.any_eq_true, decide_eq_true_eq] at h
    obtain ⟨x, hx, hid, hguid⟩ := h
    exact hguid (by rw [List.inj_on_of_nodup_map hwf.ids hx hr hid])

end Rekey

/-! ### The database call of `update_pk` -/

/-- The database call of `update_pk` succeeds: `insert_peer` for a record without a
guid, `update_pk` for one that has one. -/
def CallSucceeds (e : Env) (db : List Row) (guid : Bytes) (id : String) : Prop :=
  if guid = [] then
    e.insertFails = false ∧ findRow db id = none ∧ ∀ r ∈ db, r.guid ≠ e.guid.bytes
  else e.updateFails = false

/-- Database calls succeed, and random guids do not repeat. -/
structure DbOk (e : Env) (s : PeerStore) : Prop where
  /-- `get_peer` succeeds. -/
  get : e.getFails = false
  /-- `insert_peer` succeeds. -/
  insert : e.insertFails = false
  /-- `update_pk` succeeds. -/
  update : e.updateFails = false
  /-- `Uuid::new_v4` is new. -/
  guid : ∀ r ∈ s.db, r.guid ≠ e.guid.bytes

instance (e : Env) (s : PeerStore) : Decidable (DbOk e s) :=
  decidable_of_iff
    (e.getFails = false ∧ e.insertFails = false ∧ e.updateFails = false ∧
      ∀ r ∈ s.db, r.guid ≠ e.guid.bytes)
    ⟨fun ⟨h1, h2, h3, h4⟩ => ⟨h1, h2, h3, h4⟩, fun h => ⟨h.get, h.insert, h.update, h.guid⟩⟩

/-- The guid a record carries: none, or that of its row. -/
def GuidOf (row : Option Row) (guid : Bytes) : Prop :=
  guid = [] ∨ ∃ r, row = some r ∧ r.guid = guid

section WriteRow

variable {J : Serde} {e : Env} {db : List Row} {guid : Bytes} {rk : RegisterPk} {ip : String}

/-- **What the database call of `update_pk` does to the rows**, if it succeeds: a new
row, or the row's key and info. -/
theorem writeRow_spec (hwf : DbWF db) (hu : rk.uuid ≠ []) (hg : GuidOf (findRow db rk.id) guid)
    {db' : List Row} {g : Bytes} (h : writeRow J e db guid rk ip = some (db', g)) :
    DbWF db' ∧ (∀ id, id ≠ rk.id → findRow db' id = findRow db id) ∧
      ∃ r, findRow db' rk.id = some r ∧ r.guid = g ∧ r.pk = rk.pk ∧
        r.info = J.toString ⟨ip⟩ ∧
        ((guid = [] ∧ findRow db rk.id = none ∧ r.uuid = rk.uuid) ∨
          ∃ r₀, findRow db rk.id = some r₀ ∧ r₀.guid = guid ∧ r.uuid = r₀.uuid) := by
  unfold writeRow at h
  -- a record without a guid is inserted, one with a guid is updated in its row
  rcases hg with rfl | ⟨r₀, hr₀, rfl⟩
  · simp only [List.isEmpty_nil, if_true] at h
    split at h
    · cases h
    · unfold Database.insertPeer at h
      split at h
      · cases h
      · next hno =>
        simp only [List.any_eq_true, decide_eq_true_eq, not_exists, not_and, not_or] at hno
        simp only [Option.map_some, Option.some.injEq, Prod.mk.injEq] at h
        obtain ⟨rfl, rfl⟩ := h
        have hid : ∀ x ∈ db, x.id ≠ rk.id := fun x hx => (hno x hx).2
        refine ⟨hwf.insert (fun x hx => (hno x hx).1) hid hu e.guid.bytes_ne_nil, ?_, ?_⟩
        · exact fun id hne => findRow_append_ne (Ne.symm hne)
        · exact ⟨_, findRow_append_self hid, rfl, rfl, rfl,
            Or.inl ⟨rfl, findRow_eq_none_iff.mpr hid, rfl⟩⟩
  · obtain ⟨hr, hid⟩ := mem_of_findRow hr₀
    have hne : r₀.guid.isEmpty = false := by simpa using hwf.guid_ne r₀ hr
    rw [hne] at h
    simp only [Bool.false_eq_true, if_false] at h
    split at h
    · cases h
    · -- the row is found by its guid, and it is the row of this id
      rw [← hid, hwf.updatePk_eq rk.pk _ hr] at h
      simp only [Option.map_some, Option.some.injEq, Prod.mk.injEq] at h
      obtain ⟨rfl, rfl⟩ := h
      refine ⟨hwf.rekey _ _ hr, ?_, ?_⟩
      · intro id hne
        rw [← hid] at hne
        exact hwf.findRow_rekey_ne _ _ hr hne
      · rw [← hid]
        exact ⟨_, hwf.findRow_rekey_self _ _ hr, rfl, rfl, rfl,
          Or.inr ⟨r₀, by rw [hid, hr₀], rfl, rfl⟩⟩

/-- **Exactly when the database call of `update_pk` fails.** -/
theorem writeRow_eq_none_iff (hwf : DbWF db) (hg : GuidOf (findRow db rk.id) guid) :
    writeRow J e db guid rk ip = none ↔ ¬CallSucceeds e db guid rk.id := by
  unfold writeRow CallSucceeds
  rcases hg with rfl | ⟨r₀, hr₀, rfl⟩
  · simp only [List.isEmpty_nil, if_true, findRow_eq_none_iff]
    cases e.insertFails with
    | true => simp
    | false =>
      simp only [Bool.false_eq_true, if_false, Option.map_eq_none_iff, Database.insertPeer]
      rw [ite_eq_left_iff]
      simp only [List.any_eq_true, decide_eq_true_eq, reduceCtorEq, imp_false, not_not, true_and]
      constructor
      · rintro ⟨x, hx, hg | hid⟩ ⟨h1, h2⟩
        · exact h2 x hx hg
        · exact h1 x hx hid
      · intro h
        by_contra hno
        simp only [not_exists, not_and, not_or] at hno
        exact h ⟨fun r hr => (hno r hr).2, fun r hr => (hno r hr).1⟩
  · obtain ⟨hr, hid⟩ := mem_of_findRow hr₀
    have hne : r₀.guid ≠ [] := hwf.guid_ne r₀ hr
    have hne' : r₀.guid.isEmpty = false := by simpa using hne
    simp only [hne', hne, Bool.false_eq_true, if_false]
    cases e.updateFails with
    | true => simp
    | false => simp [← hid, hwf.updatePk_eq rk.pk _ hr]

end WriteRow

/-! ### Identities -/

/-- What identifies a peer: everything about it that its row remembers. -/
structure Ident where
  /-- The key of its row, empty while it has none. -/
  guid : Bytes
  /-- Its owner. -/
  uuid : Bytes
  /-- Its public key. -/
  pk : Bytes
  /-- Where it registered from. -/
  info : PeerInfo

/-- The identity of a record. -/
def Peer.ident (p : Peer) : Ident := ⟨p.guid, p.uuid, p.pk, p.info⟩

/-- The identity of a row. -/
def Row.ident (J : Serde) (r : Row) : Ident := ⟨r.guid, r.uuid, r.pk, J.fromStr r.info⟩

@[simp] theorem Peer.ident_setRegPk (v : ℕ × Instant) (p : Peer) :
    (p.setRegPk v).ident = p.ident := rfl

@[simp] theorem Peer.ident_refresh (now : Instant) (addr : SocketAddr) (p : Peer) :
    (p.refresh now addr).ident = p.ident := by
  unfold Peer.refresh
  split <;> rfl

/-- Every record of the map, with its row, satisfies `Φ`. -/
def PeerStore.Each (Φ : Option Row → Ident → Prop) (s : PeerStore) : Prop :=
  ∀ id h, s.map.lookup id = some h → Φ (findRow s.db id) (s.recs h).ident

/-- A handle is found under the id it was allocated for. -/
def PeerStore.HandlesOk (s : PeerStore) : Prop :=
  ∀ id h, s.map.lookup id = some h → h.id = id

theorem PeerStore.slot_id {s : PeerStore} (hs : s.HandlesOk) (id : String) :
    (s.slot id).id = id := by
  cases hm : s.map.lookup id with
  | some h =>
    rw [PeerStore.slot_of_some hm]
    exact hs id h hm
  | none => rw [PeerStore.slot_of_none hm]

section Touched

variable {s t : PeerStore} {id : String} {p : Peer}

theorem Touched.handlesOk (h : Touched s t id p) (hs : s.HandlesOk) : t.HandlesOk := by
  intro id' h' hm
  by_cases hid : id' = id
  · subst hid
    rw [h.map_self, Option.some.injEq] at hm
    rw [← hm]
    exact PeerStore.slot_id hs id'
  · rw [h.map_ne id' hid] at hm
    exact hs id' h' hm

theorem Touched.peer?_self (h : Touched s t id p) : t.peer? id = some p := by
  simp [PeerStore.peer?, h.map_self, h.recs_self]

/-- Touching one id leaves the record of every other id. -/
theorem Touched.recs_other (h : Touched s t id p) (hs : s.HandlesOk) {id' : String} {h' : Handle}
    (hne : id' ≠ id) (hm : s.map.lookup id' = some h') : t.recs h' = s.recs h' := by
  refine h.recs_ne h' fun heq => hne ?_
  rw [← hs id' h' hm, heq, PeerStore.slot_id hs id]

theorem Touched.peer?_other (h : Touched s t id p) (hs : s.HandlesOk) {id' : String}
    (hne : id' ≠ id) : t.peer? id' = s.peer? id' := by
  unfold PeerStore.peer?
  rw [h.map_ne id' hne]
  cases hm : s.map.lookup id' with
  | none => rfl
  | some h' => simp [h.recs_other hs hne hm]

/-- `Φ` of every record, after one id was touched. -/
theorem Touched.each {Φ : Option Row → Ident → Prop} (h : Touched s t id p) (hs : s.HandlesOk)
    (hE : s.Each Φ) (hdb : ∀ id', id' ≠ id → findRow t.db id' = findRow s.db id')
    (hp : Φ (findRow t.db id) p.ident) : t.Each Φ := by
  intro id' h' hm
  by_cases hid : id' = id
  · subst hid
    rw [h.map_self, Option.some.injEq] at hm
    rw [← hm, h.recs_self]
    exact hp
  · rw [h.map_ne id' hid] at hm
    rw [h.recs_other hs hid hm, hdb id' hid]
    exact hE id' h' hm

end Touched

/-! ### Lookups -/

/-- What a lookup finds: the record in memory, the row's, or a fresh one. -/
inductive Found (J : Serde) (e : Env) (s : PeerStore) (id : String) : Peer → Prop
  /-- The id is in memory. -/
  | cached {h : Handle} (hm : s.map.lookup id = some h) : Found J e s id (s.recs h)
  /-- It is loaded from its row. -/
  | row {r : Row} (hm : s.map.lookup id = none) (hget : e.getFails = false)
      (hr : findRow s.db id = some r) : Found J e s id (r.load J e.now)
  /-- It has no row, or the row could not be read. -/
  | fresh (hm : s.map.lookup id = none) (hget : e.getFails = true ∨ findRow s.db id = none) :
      Found J e s id (Peer.default e.now)

theorem found_spec (J : Serde) (e : Env) (s : PeerStore) (id : String) :
    Found J e s id (s.found J e id) := by
  unfold PeerStore.found
  cases hm : s.map.lookup id with
  | some h => exact .cached hm
  | none =>
    simp only [loaded]
    cases hg : e.getFails with
    | true => exact .fresh hm (Or.inl hg)
    | false =>
      simp only [Bool.false_eq_true, if_false]
      cases hr : findRow s.db id with
      | some r => exact .row hm hg hr
      | none => exact .fresh hm (Or.inr hr)

/-- A record without an owner is anybody's. -/
theorem regCheck_default (now : Instant) (rk : RegisterPk) (ip : String) :
    regCheck (Peer.default now) rk ip = some (true, false) := rfl

theorem bumpRegPk_default (now : Instant) :
    ∃ n, bumpRegPk now (Peer.default now).regPk = some n := by
  unfold bumpRegPk
  split
  · exact ⟨1, rfl⟩
  · exact ⟨1, rfl⟩

/-- What `regCheck` accepts: a record without an owner, or one of the same owner
with the same key or from the same address. -/
theorem regCheck_eq_some {p : Peer} {rk : RegisterPk} {ip : String} {changed ipChanged : Bool}
    (h : regCheck p rk ip = some (changed, ipChanged)) :
    (p.uuid = [] ∧ changed = true) ∨
      (p.uuid ≠ [] ∧ p.uuid = rk.uuid ∧ (p.info.ip = ip ∨ p.pk = rk.pk) ∧
        (changed = false → p.pk = rk.pk ∧ p.info.ip = ip)) := by
  unfold regCheck at h
  split at h
  · next hu =>
    simp only [Option.some.injEq, Prod.mk.injEq] at h
    exact Or.inl ⟨by simpa using hu, h.1.symm⟩
  · next hu =>
    split at h
    · next heq =>
      split at h
      · cases h
      · next hno =>
        simp only [Option.some.injEq, Prod.mk.injEq] at h
        refine Or.inr ⟨by simpa using hu, heq, by tauto, ?_⟩
        intro hc
        rw [hc] at h
        simpa [heq] using h.1
    · cases h

/-- A record that `handle_register_pk` refuses, or leaves as it is, was not fresh. -/
theorem Found.of_owned {J : Serde} {e : Env} {s : PeerStore} {id : String} {p : Peer}
    (h : Found J e s id p) (hp : p.uuid ≠ []) :
    (∃ h, s.map.lookup id = some h ∧ p = s.recs h) ∨
      (s.map.lookup id = none ∧ e.getFails = false ∧
        ∃ r, findRow s.db id = some r ∧ p = r.load J e.now) := by
  cases h with
  | cached hm => exact Or.inl ⟨_, hm, rfl⟩
  | row hm hget hr => exact Or.inr ⟨hm, hget, _, hr, rfl⟩
  | fresh hm hget => exact absurd rfl hp

/-- A fresh record is accepted. -/
theorem accepted_of_fresh {e : Env} {p : Peer} {rk : RegisterPk} {ip : String}
    (hp : p = Peer.default e.now) :
    ¬(regCheck p rk ip = none ∨ bumpRegPk e.now p.regPk = none) := by
  rintro (h | h)
  · rw [hp, regCheck_default] at h
    cases h
  · rw [hp] at h
    obtain ⟨n, hn⟩ := bumpRegPk_default e.now
    rw [hn] at h
    cases h

/-! ### The invariant -/

/-- The peer store between two messages. -/
structure StoreWF (s : PeerStore) : Prop where
  /-- The rows. -/
  db : DbWF s.db
  /-- The handles. -/
  handles : s.HandlesOk
  /-- Every record has an owner, and no guid but that of its row. -/
  owned : s.Each fun row p => p.uuid ≠ [] ∧ GuidOf row p.guid

theorem storeWF_start {db : List Row} (h : DbWF db) : StoreWF (.start db) where
  db := h
  handles := fun id h' hm => by simp [PeerStore.start] at hm
  owned := fun id h' hm => by simp [PeerStore.start] at hm

section Inv

variable {J : Serde} {e : Env} {s t : PeerStore} {Φ : Option Row → Ident → Prop}

/-- A record that was found and has an owner satisfies what every record and every
row satisfies. -/
theorem PeerStore.Each.found (hE : s.Each Φ)
    (hload : ∀ id r, findRow s.db id = some r → Φ (some r) (r.ident J)) {id : String}
    (hp : (s.found J e id).uuid ≠ []) : Φ (findRow s.db id) (s.found J e id).ident := by
  rcases (found_spec J e s id).of_owned hp with ⟨h, hm, heq⟩ | ⟨-, -, r, hr, heq⟩
  · rw [heq]
    exact hE id h hm
  · rw [heq, hr]
    exact hload id r hr

/-- The guid of a record that was found is that of its row, if it has one. -/
theorem StoreWF.guidOf_found (hwf : StoreWF s) (id : String) :
    GuidOf (findRow s.db id) (s.found J e id).guid := by
  have h := found_spec J e s id
  generalize s.found J e id = p at h
  cases h with
  | cached hm => exact (hwf.owned id _ hm).2
  | row hm hget hr => exact Or.inr ⟨_, hr, rfl⟩
  | fresh hm hget => exact Or.inl rfl

/-- A record that was found and has a guid has an owner. -/
theorem StoreWF.found_owned_of_guid (hwf : StoreWF s) {id : String}
    (hg : (s.found J e id).guid ≠ []) : (s.found J e id).uuid ≠ [] := by
  have h := found_spec J e s id
  generalize s.found J e id = p at h hg
  cases h with
  | cached hm => exact (hwf.owned id _ hm).1
  | row hm hget hr => exact hwf.db.uuid_ne _ (mem_of_findRow hr).1
  | fresh hm hget => exact absurd rfl hg

/-- `handle_register_pk` accepts and calls `update_pk`. -/
def Written (J : Serde) (e : Env) (rk : RegisterPk) (addr : SocketAddr) (ws : Bool)
    (s : PeerStore) : Prop :=
  Admitted e rk addr s ∧ ∃ c n, regCheck (s.found J e rk.id) rk addr.ip.toText = some c ∧
    bumpRegPk e.now (s.found J e rk.id).regPk = some n ∧ (c.1 || ws) = true

/-- A record that is written either had no owner, or keeps it, and then its key or
its address as well. -/
theorem Written.same_owner {rk : RegisterPk} {addr : SocketAddr} {ws : Bool}
    (h : Written J e rk addr ws s) (hp : (s.found J e rk.id).uuid ≠ []) :
    (s.found J e rk.id).uuid = rk.uuid ∧
      ((s.found J e rk.id).info.ip = addr.ip.toText ∨ (s.found J e rk.id).pk = rk.pk) := by
  obtain ⟨-, ⟨changed, ipChanged⟩, n, hc, -⟩ := h
  rcases regCheck_eq_some hc with ⟨hu, -⟩ | ⟨-, hu, hor, -⟩
  · exact absurd hu hp
  · exact ⟨hu, hor⟩

/-- The row `update_pk` leaves for the record it wrote. -/
structure Rewritten (J : Serde) (db : List Row) (guid : Bytes) (rk : RegisterPk) (ip : String)
    (r : Row) : Prop where
  /-- The new key. -/
  pk : r.pk = rk.pk
  /-- The new address. -/
  info : r.info = J.toString ⟨ip⟩
  /-- A new row has the new owner, an old one keeps its own. -/
  uuid : (guid = [] ∧ findRow db rk.id = none ∧ r.uuid = rk.uuid) ∨
    ∃ r₀, findRow db rk.id = some r₀ ∧ r₀.guid = guid ∧ r.uuid = r₀.uuid

/-- The record and the rows after `update_pk`, by whether its database call fails. -/
theorem writeBack_cases (J : Serde) (e : Env) (db : List Row) (p : Peer) (rk : RegisterPk)
    (addr : SocketAddr) :
    (writeRow J e db p.guid rk addr.ip.toText = none ∧
        (writeBack J e db p rk addr).2 = db ∧
        (writeBack J e db p rk addr).1.ident = ⟨p.guid, rk.uuid, rk.pk, ⟨addr.ip.toText⟩⟩) ∨
      ∃ db' g, writeRow J e db p.guid rk addr.ip.toText = some (db', g) ∧
        (writeBack J e db p rk addr).2 = db' ∧
        (writeBack J e db p rk addr).1.ident = ⟨g, rk.uuid, rk.pk, ⟨addr.ip.toText⟩⟩ := by
  unfold writeBack
  cases h : writeRow J e db p.guid rk addr.ip.toText with
  | none => exact Or.inl ⟨rfl, rfl, rfl⟩
  | some w => exact Or.inr ⟨w.1, w.2, rfl, rfl, rfl⟩

/-- What an input leaves of the records and rows, told by what happened to one
record: nothing new, a record looked at, confirmed or written. -/
inductive Change (J : Serde) (e : Env) (i : Input) (s t : PeerStore) : Prop
  /-- The records and rows are the same. -/
  | same (hno : ∀ rk addr, ¬AnsweredOk J e s i rk addr) (hm : t.map = s.map)
      (hr : t.recs = s.recs) (hdb : t.db = s.db)
  /-- One record, cached or loaded, kept its identity; a refused registration kept
  all of it. -/
  | looked {id : String} {p q : Peer} (hno : ∀ rk addr, ¬AnsweredOk J e s i rk addr)
      (hreg : i.registerPk? ≠ none → q = p) (hf : Found J e s id p) (hp : p.uuid ≠ [])
      (ht : Touched s t id q) (hq : q.ident = p.ident) (hdb : t.db = s.db)
  /-- A registration that says what the record says. -/
  | confirmed {rk : RegisterPk} {addr : SocketAddr} {q : Peer}
      (hok : AnsweredOk J e s i rk addr) (hp : (s.found J e rk.id).uuid ≠ [])
      (huuid : (s.found J e rk.id).uuid = rk.uuid) (hpk : (s.found J e rk.id).pk = rk.pk)
      (hip : (s.found J e rk.id).info.ip = addr.ip.toText) (ht : Touched s t rk.id q)
      (hq : q.ident = (s.found J e rk.id).ident) (hdb : t.db = s.db)
  /-- One record was written, its row was not. -/
  | failed {rk : RegisterPk} {addr : SocketAddr} {ws : Bool} {q : Peer}
      (hi : i.registerPk? = some (rk, addr, ws)) (hok : AnsweredOk J e s i rk addr)
      (hw : Written J e rk addr ws s)
      (hc : ¬CallSucceeds e s.db (s.found J e rk.id).guid rk.id) (ht : Touched s t rk.id q)
      (hq : q.ident = ⟨(s.found J e rk.id).guid, rk.uuid, rk.pk, ⟨addr.ip.toText⟩⟩)
      (hdb : t.db = s.db)
  /-- One record and its row were written. -/
  | stored {rk : RegisterPk} {addr : SocketAddr} {ws : Bool} {q : Peer} {r : Row}
      (hi : i.registerPk? = some (rk, addr, ws)) (hok : AnsweredOk J e s i rk addr)
      (hw : Written J e rk addr ws s)
      (hc : CallSucceeds e s.db (s.found J e rk.id).guid rk.id) (ht : Touched s t rk.id q)
      (hq : q.ident = ⟨r.guid, rk.uuid, rk.pk, ⟨addr.ip.toText⟩⟩)
      (hrow : Rewritten J s.db (s.found J e rk.id).guid rk addr.ip.toText r)
      (hself : findRow t.db rk.id = some r)
      (hdb : ∀ id, id ≠ rk.id → findRow t.db id = findRow s.db id) (hwf : DbWF t.db)
  /-- Memory was lost. -/
  | restart (hi : i.registerPk? = none) (ht : t = s.restart)

theorem not_answeredOk_of_none {i : Input} (hi : i.registerPk? = none) (rk : RegisterPk)
    (addr : SocketAddr) : ¬AnsweredOk J e s i rk addr := by
  rintro ⟨ws, h, -⟩
  rw [hi] at h
  cases h

theorem not_answeredOk_of_answer {i : Input} {rk : RegisterPk} {addr : SocketAddr} {ws : Bool}
    (hi : i.registerPk? = some (rk, addr, ws)) (h : answer J e s rk addr ws ≠ some .ok)
    (rk' : RegisterPk) (addr' : SocketAddr) : ¬AnsweredOk J e s i rk' addr' := by
  rintro ⟨ws', hi', hok⟩
  rw [hi, Option.some.injEq, Prod.mk.injEq, Prod.mk.injEq] at hi'
  obtain ⟨rfl, rfl, rfl⟩ := hi'
  exact h hok

theorem change_of_loads {i : Input} (hwf : StoreWF s) (hi : i.registerPk? = none)
    (h : Loads J e s t) : Change J e i s t := by
  have hno := fun rk addr => not_answeredOk_of_none (J := J) (e := e) (s := s) hi rk addr
  rcases h with rfl | ⟨id, rfl⟩
  · exact .same hno rfl rfl rfl
  · rw [run_get]
    cases hm : s.map.lookup id with
    | some h => exact .same hno rfl rfl rfl
    | none =>
      dsimp only
      cases hg : e.getFails with
      | true => exact .same hno rfl rfl rfl
      | false =>
        simp only [Bool.false_eq_true, if_false]
        cases hr : findRow s.db id with
        | none => exact .same hno rfl rfl rfl
        | some r =>
          exact .looked hno (fun h => absurd hi h) (.row hm hg hr)
            (hwf.db.uuid_ne r (mem_of_findRow hr).1) (touched_alloc hm _) rfl rfl

theorem change_of_refresh {i : Input} (hwf : StoreWF s) (hi : i.registerPk? = none)
    (id : String) (addr : SocketAddr) :
    Change J e i s (peerMachine.run e (updateAddr id addr) s).1 := by
  have hno := fun rk addr => not_answeredOk_of_none (J := J) (e := e) (s := s) hi rk addr
  rw [run_updateAddr]
  cases hm : s.map.lookup id with
  | none => exact .same hno rfl rfl rfl
  | some h =>
    exact .looked hno (fun h => absurd hi h) (.cached hm) (hwf.owned id h hm).1
      (touched_modify hm _) (Peer.ident_refresh _ _ _) rfl

theorem change_of_reg {i : Input} (hwf : StoreWF s) {rk : RegisterPk} {addr : SocketAddr}
    {ws : Bool} (hi : i.registerPk? = some (rk, addr, ws))
    (h : RegStep J e rk addr ws s t (answer J e s rk addr ws)) : Change J e i s t := by
  have hf := found_spec J e s rk.id
  generalize hres : answer J e s rk addr ws = res at h
  cases h with
  | refused hadm hsame hno =>
    rw [← hres] at hno
    exact .same (not_answeredOk_of_answer hi hno) hsame.map hsame.recs hsame.db
  | rejected hadm ht hdb hwhy hno =>
    rw [← hres] at hno
    refine .looked (not_answeredOk_of_answer hi hno) (fun _ => rfl) hf ?_ ht rfl hdb
    -- a fresh record is never refused, so this one has an owner
    generalize s.found J e rk.id = p at hf hwhy
    cases hf with
    | cached hm => exact (hwf.owned _ _ hm).1
    | row hm hget hr => exact hwf.db.uuid_ne _ (mem_of_findRow hr).1
    | fresh hm hget => exact absurd hwhy (accepted_of_fresh rfl)
  | kept hadm hc hb hws ht hdb =>
    rcases regCheck_eq_some hc with ⟨-, h⟩ | ⟨hp, huuid, -, hsame⟩
    · cases h
    · obtain ⟨hpk, hip⟩ := hsame rfl
      exact .confirmed ⟨ws, hi, hres⟩ hp huuid hpk hip ht (Peer.ident_setRegPk _ _) hdb
  | written hadm hc hb hw ht hdb =>
    have hok : AnsweredOk J e s i rk addr := ⟨ws, hi, hres⟩
    have hwr : Written J e rk addr ws s := ⟨hadm, _, _, hc, hb, hw⟩
    have hg := hwf.guidOf_found (J := J) (e := e) rk.id
    rcases writeBack_cases J e s.db ((s.found J e rk.id).setRegPk (_, e.now)) rk addr with
      ⟨hnone, hdb', hq⟩ | ⟨db', g, hsome, hdb', hq⟩
    · rw [hdb'] at hdb
      exact .failed hi hok hwr ((writeRow_eq_none_iff hwf.db hg).mp hnone) ht hq hdb
    · obtain ⟨hwf', hother, r, hr, rfl, hpk, hinfo, huuid⟩ :=
        writeRow_spec hwf.db hadm.1 hg hsome
      rw [hdb'] at hdb
      have hc : CallSucceeds e s.db (s.found J e rk.id).guid rk.id := by
        by_contra hno
        have hnone : writeRow J e s.db (s.found J e rk.id).guid rk addr.ip.toText = none :=
          (writeRow_eq_none_iff hwf.db hg).mpr hno
        exact absurd (hsome.symm.trans hnone) (by simp)
      rw [← hdb] at hr hother hwf'
      exact .stored hi hok hwr hc ht hq ⟨hpk, hinfo, huuid⟩ hr hother hwf'

/-- **Everything an input can leave behind**, for a well-formed store. -/
theorem change_of_pmStep {i : Input} (hwf : StoreWF s) (h : PmStep J e i s t) :
    Change J e i s t := by
  cases h with
  | reg hi h => exact change_of_reg hwf hi h
  | refresh hi id addr h =>
    rw [h]
    exact change_of_refresh hwf hi id addr
  | loads hi h => exact change_of_loads hwf hi h
  | restart hi h => exact .restart hi h

theorem change_step (E : Ext) (cfg : Settings) (s : Server) (x : SrvEnv × Input)
    (hwf : StoreWF s.pm) : Change E.serde x.1.toEnv x.2 s.pm (s.step E cfg x).pm :=
  change_of_pmStep hwf (pmStep_step E cfg s x)

/-- A registration that is written is answered `ok`. -/
theorem Written.answer {rk : RegisterPk} {addr : SocketAddr} {ws : Bool}
    (h : Written J e rk addr ws s) : answer J e s rk addr ws = some .ok := by
  obtain ⟨hadm, c, n, hc, hb, -⟩ := h
  have hstep := regStep_run J e rk addr ws s
  generalize hres : (peerMachine.run e (handleRegisterPk J rk addr ws) s).2 = res at hstep
  unfold RustdeskServer.answer
  rw [hres]
  cases hstep with
  | refused hno => exact absurd hadm hno
  | rejected _ _ _ hwhy =>
    rcases hwhy with h | h
    · rw [hc] at h
      cases h
    · rw [hb] at h
      cases h
  | kept => rfl
  | written => rfl

/-- **The rule for invariants of records and their rows**: `Φ` holds of a record just
loaded and of a record just written, so every input keeps it. -/
theorem PeerStore.Each.change {i : Input} (hwf : StoreWF s) (hE : s.Each Φ)
    (h : Change J e i s t)
    (hload : ∀ id r, findRow s.db id = some r → Φ (some r) (r.ident J))
    (hfail : ∀ rk addr ws, i.registerPk? = some (rk, addr, ws) → Written J e rk addr ws s →
      ¬CallSucceeds e s.db (s.found J e rk.id).guid rk.id →
        Φ (findRow s.db rk.id) ⟨(s.found J e rk.id).guid, rk.uuid, rk.pk, ⟨addr.ip.toText⟩⟩)
    (hok : ∀ rk addr ws r, i.registerPk? = some (rk, addr, ws) → Written J e rk addr ws s →
      Rewritten J s.db (s.found J e rk.id).guid rk addr.ip.toText r →
        Φ (some r) ⟨r.guid, rk.uuid, rk.pk, ⟨addr.ip.toText⟩⟩) : t.Each Φ := by
  cases h with
  | same hno hm hr hdb =>
    unfold PeerStore.Each
    rw [hm, hr, hdb]
    exact hE
  | @looked id p q hno hreg hf hp ht hq hdb =>
    -- the record was there, or was loaded from a row that nobody touched
    refine ht.each hwf.handles hE (fun _ _ => by rw [hdb]) ?_
    rw [hdb, hq]
    rcases hf.of_owned hp with ⟨h, hm, rfl⟩ | ⟨-, -, r, hr, rfl⟩
    · exact hE id h hm
    · rw [hr]
      exact hload id r hr
  | confirmed hok hp huuid hpk hip ht hq hdb =>
    refine ht.each hwf.handles hE (fun _ _ => by rw [hdb]) ?_
    rw [hdb, hq]
    exact hE.found hload hp
  | failed hi hok hw hc ht hq hdb =>
    refine ht.each hwf.handles hE (fun _ _ => by rw [hdb]) ?_
    rw [hdb, hq]
    exact hfail _ _ _ hi hw hc
  | stored hi _ hw hc ht hq hrow hself hdb hwf' =>
    refine ht.each hwf.handles hE hdb ?_
    rw [hself, hq]
    exact hok _ _ _ _ hi hw hrow
  | restart hi ht =>
    subst ht
    intro id h hm
    simp [PeerStore.restart, PeerStore.start] at hm

theorem Change.db_cases {i : Input} (h : Change J e i s t) : t.db = s.db ∨ DbWF t.db := by
  cases h with
  | same hno hm hr hdb => exact Or.inl hdb
  | looked hno hreg hf hp ht hq hdb => exact Or.inl hdb
  | confirmed hok hp huuid hpk hip ht hq hdb => exact Or.inl hdb
  | failed hi hok hw hc ht hq hdb => exact Or.inl hdb
  | stored hi hok hw hc ht hq hrow hself hdb hwf' => exact Or.inr hwf'
  | restart hi ht => exact Or.inl (by rw [ht]; rfl)

/-- Only an answer `ok` changes the rows. -/
theorem Change.db_of_not_ok {i : Input} (h : Change J e i s t)
    (hno : ∀ rk addr, ¬AnsweredOk J e s i rk addr) : t.db = s.db := by
  cases h with
  | same _ hm hr hdb => exact hdb
  | looked _ hreg hf hp ht hq hdb => exact hdb
  | confirmed hok hp huuid hpk hip ht hq hdb => exact hdb
  | failed hi hok hw hc ht hq hdb => exact hdb
  | stored hi hok hw hc ht hq hrow hself hdb hwf' => exact absurd hok (hno _ _)
  | restart hi ht => rw [ht]; rfl

theorem Change.handlesOk {i : Input} (h : Change J e i s t) (hs : s.HandlesOk) :
    t.HandlesOk := by
  cases h with
  | same hno hm hr hdb =>
    unfold PeerStore.HandlesOk
    rw [hm]
    exact hs
  | looked hno hreg hf hp ht hq hdb => exact ht.handlesOk hs
  | confirmed hok hp huuid hpk hip ht hq hdb => exact ht.handlesOk hs
  | failed hi hok hw hc ht hq hdb => exact ht.handlesOk hs
  | stored hi hok hw hc ht hq hrow hself hdb hwf' => exact ht.handlesOk hs
  | restart hi ht =>
    subst ht
    intro id h hm
    simp [PeerStore.restart, PeerStore.start] at hm

/-- **Every input keeps the invariant.** -/
theorem StoreWF.change {i : Input} (hwf : StoreWF s) (h : Change J e i s t) : StoreWF t where
  db := by
    rcases h.db_cases with hdb | hdb
    · rw [hdb]
      exact hwf.db
    · exact hdb
  handles := h.handlesOk hwf.handles
  owned := by
    refine PeerStore.Each.change hwf hwf.owned h ?_ ?_ ?_
    · intro id r hr
      exact ⟨hwf.db.uuid_ne r (mem_of_findRow hr).1, Or.inr ⟨r, rfl, rfl⟩⟩
    · intro rk addr ws hi hw hc
      exact ⟨hw.1.1, hwf.guidOf_found rk.id⟩
    · intro rk addr ws r hi hw hrow
      exact ⟨hw.1.1, Or.inr ⟨r, rfl, rfl⟩⟩

/-- A record and its row have the same owner. -/
def OwnersAgree (s : PeerStore) : Prop :=
  s.Each fun row p => ∀ r, row = some r → p.uuid = r.uuid

theorem OwnersAgree.found (hs : OwnersAgree s) {id : String} {r : Row}
    (hp : (s.found J e id).uuid ≠ []) (hr : findRow s.db id = some r) :
    (s.found J e id).uuid = r.uuid := by
  refine PeerStore.Each.found hs (fun id r hr r' hr' => ?_) hp r hr
  rw [Option.some.injEq] at hr'
  rw [← hr']
  rfl

/-- Where a row was written over, the record had an owner. -/
theorem Rewritten.found_owned (hwf : StoreWF s) {rk : RegisterPk} {ip : String} {r r₀ : Row}
    (hrow : Rewritten J s.db (s.found J e rk.id).guid rk ip r)
    (hr₀ : findRow s.db rk.id = some r₀) : (s.found J e rk.id).uuid ≠ [] := by
  rcases hrow.uuid with ⟨-, hnone, -⟩ | ⟨r₁, hr₁, hg, -⟩
  · rw [hr₀] at hnone
    cases hnone
  · refine hwf.found_owned_of_guid ?_
    rw [← hg]
    exact hwf.db.guid_ne r₁ (mem_of_findRow hr₁).1

/-- The row a registration leaves carries the owner it came from. -/
theorem OwnersAgree.rewritten_uuid (hs : OwnersAgree s) (hwf : StoreWF s) {rk : RegisterPk}
    {addr : SocketAddr} {ws : Bool} {r : Row} (hw : Written J e rk addr ws s)
    (hrow : Rewritten J s.db (s.found J e rk.id).guid rk addr.ip.toText r) : r.uuid = rk.uuid := by
  rcases hrow.uuid with ⟨-, -, h⟩ | ⟨r₀, hr₀, hg, hu⟩
  · exact h
  · -- the record has a row, so it has an owner, and the owner is the row's
    have howned := hrow.found_owned hwf hr₀
    rw [hu, ← hs.found howned hr₀]
    exact (hw.same_owner howned).1

end Inv

end RustdeskServer
