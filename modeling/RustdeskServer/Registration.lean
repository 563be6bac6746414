import RustdeskServer.Peer

/-!
# Registering a public key, and refreshing an address

`handle_register_pk` binds an id to a machine (`uuid`) and a public key, and
`update_addr` keeps the address of a bound peer fresh.  Both are programs over
the sections of `RustdeskServer.Peer`; the decision in the middle of
`handle_register_pk`, which the source makes while it holds the record's read
lock, is the pure function `regCheck`.

The result of `PeerMap.updatePk` is dropped, as in the source: whatever the
database said, the answer is `ok`.

## Main definitions

* `regCheck`, `bumpRegPk` — the two decisions of `handle_register_pk`.
* `handleRegisterPk`, `updateAddr` — the handlers.

## Main results

* `run_get`, `touched_getOr` — what the lookups do when nothing interrupts them.
* `RegStep`, `regStep_run` — **everything an uninterrupted `handleRegisterPk` can do**.
* `run_updateAddr` — the same for `updateAddr`.
-/

namespace RustdeskServer

open Atomic

/-! ### The handlers -/

/-- The decision of `handle_register_pk` about a record: `none` to refuse with
`UUID_MISMATCH`, otherwise `(changed, ip_changed)`. -/
def regCheck (p : Peer) (rk : RegisterPk) (ip : String) : Option (Bool × Bool) :=
  if p.uuid.isEmpty then some (true, false)
  else if p.uuid = rk.uuid then
    if p.info.ip ≠ ip ∧ p.pk ≠ rk.pk then none
    else
      let ipChanged := decide (p.info.ip ≠ ip)
      some (decide (p.uuid ≠ rk.uuid) || decide (p.pk ≠ rk.pk) || ipChanged, ipChanged)
  else none

/-- The counter of `handle_register_pk`: the next value of `reg_pk.0`, or `none`
to refuse with `TOO_FREQUENT`. -/
def bumpRegPk (now : Instant) (r : ℕ × Instant) : Option ℕ :=
  if elapsedSecs now r.2 > 6 then some 1
  else if r.1 > 2 then none
  else some (r.1 + 1)

/-- The `IP_CHANGES` section, taken only when the address changed. -/
def noteIpChange (ipChanged : Bool) (id ip : String) : Prog PeerSig Unit :=
  if ipChanged then .op (.recordIpChange id ip) fun _ => .ret () else .ret ()

/-- `handle_register_pk` from the point where the record was found acceptable. -/
def commitReg (J : Serde) (rk : RegisterPk) (addr : SocketAddr) (ws : Bool) (peer : Handle)
    (changed ipChanged : Bool) : Prog PeerSig (Option RegisterPkResult) :=
  .op (.readPeer peer) fun p : Peer =>
    .op .now fun now : Instant =>
      match bumpRegPk now p.regPk with
      | none => .ret (some .tooFrequent)
      | some n =>
        .op .now fun now : Instant =>
          .op (.setRegPk peer (n, now)) fun _ => do
            noteIpChange ipChanged rk.id addr.ip.toText
            -- a websocket's registration is its heartbeat, so it is always written
            if changed || ws then do
              let _ ← PeerMap.updatePk J rk.id peer addr rk.uuid rk.pk addr.ip.toText
              .ret (some .ok)
            else .ret (some .ok)

/-- `handle_register_pk`. -/
def handleRegisterPk (J : Serde) (rk : RegisterPk) (addr : SocketAddr) (ws : Bool) :
    Prog PeerSig (Option RegisterPkResult) :=
  if rk.uuid.isEmpty || rk.pk.isEmpty then .ret none
  else if byteLen rk.id < 6 || byteLen rk.id > MAX_PEER_ID_LEN then .ret (some .uuidMismatch)
  else
    .op (.checkIpBlocker addr.ip.toText rk.id) fun pass : Bool =>
      if !pass then .ret (some .tooFrequent)
      else do
        let peer ← PeerMap.getOr J rk.id
        .op (.readPeer peer) fun p : Peer =>
          match regCheck p rk addr.ip.toText with
          | none => .ret (some .uuidMismatch)
          | some (changed, ipChanged) => commitReg J rk addr ws peer changed ipChanged

/-- `update_addr`: whether the peer should send its public key again. -/
def updateAddr (id : String) (addr : SocketAddr) : Prog PeerSig Bool := do
  match ← PeerMap.getInMemory id with
  | some old => .op (.updateAddr old addr) fun requestPk : Bool => .ret requestPk
  | none => .ret true

/-! ### Uninterrupted lookups -/

@[simp] theorem peerMachine_exec (e : Env) (o : PeerOp) (s : PeerStore) :
    peerMachine.exec e o s = o.exec e s := rfl

section RunOp

variable {α : Type} (e : Env) (s : PeerStore)

@[simp] theorem run_now (k : Instant → Prog PeerSig α) :
    peerMachine.run e (.op .now k) s = peerMachine.run e (k e.now) s := rfl

@[simp] theorem run_checkIpBlocker (ip id : String) (k : Bool → Prog PeerSig α) :
    peerMachine.run e (.op (.checkIpBlocker ip id) k) s =
      peerMachine.run e (k (s.checkIpBlocker e.now ip id).2) (s.checkIpBlocker e.now ip id).1 := rfl

@[simp] theorem run_mapGet (id : String) (k : Option Handle → Prog PeerSig α) :
    peerMachine.run e (.op (.mapGet id) k) s = peerMachine.run e (k (s.map.lookup id)) s := rfl

@[simp] theorem run_dbGetPeer (id : String) (k : Except Unit (Option Row) → Prog PeerSig α) :
    peerMachine.run e (.op (.dbGetPeer id) k) s =
      peerMachine.run e (k (if e.getFails then .error () else .ok (findRow s.db id))) s := rfl

@[simp] theorem run_readPeer (h : Handle) (k : Peer → Prog PeerSig α) :
    peerMachine.run e (.op (.readPeer h) k) s = peerMachine.run e (k (s.recs h)) s := rfl

@[simp] theorem run_setRegPk (h : Handle) (v : ℕ × Instant) (k : Unit → Prog PeerSig α) :
    peerMachine.run e (.op (.setRegPk h v) k) s =
      peerMachine.run e (k ()) (s.modify h (Peer.setRegPk v)) := rfl

@[simp] theorem run_writeReg (h : Handle) (addr : SocketAddr) (uuid pk : Bytes) (ip : String)
    (k : PeerInfo × Bytes → Prog PeerSig α) :
    peerMachine.run e (.op (.writeReg h addr uuid pk ip) k) s =
      peerMachine.run e (k (⟨ip⟩, (s.recs h).guid))
        (s.modify h (Peer.register e.now addr uuid pk ip)) := rfl

end RunOp

/-- What `PeerMap::get` does when nothing interrupts it. -/
theorem run_get (J : Serde) (e : Env) (id : String) (s : PeerStore) :
    peerMachine.run e (PeerMap.get J id) s =
      match s.map.lookup id with
      | some h => (s, some h)
      | none =>
        if e.getFails then (s, none)
        else match findRow s.db id with
          | some v => (s.alloc id (v.load J e.now), some ⟨id, s.next⟩)
          | none => (s, none) := by
  unfold PeerMap.get
  rw [run_mapGet]
  cases hm : s.map.lookup id with
  | some h => rfl
  | none =>
    simp only [run_dbGetPeer]
    cases hf : e.getFails with
    | true => rfl
    | false =>
      simp only [Bool.false_eq_true, if_false]
      cases hr : findRow s.db id with
      | some v => rfl
      | none => rfl

/-- The record an uninterrupted `get_or` allocates for an id the map does not
hold: the row's, if the database answers with one. -/
def loaded (J : Serde) (e : Env) (db : List Row) (id : String) : Peer :=
  if e.getFails then Peer.default e.now
  else match findRow db id with
    | some v => v.load J e.now
    | none => Peer.default e.now

/-- What `PeerMap::get_or` does when nothing interrupts it. -/
theorem run_getOr (J : Serde) (e : Env) (id : String) (s : PeerStore) :
    peerMachine.run e (PeerMap.getOr J id) s =
      match s.map.lookup id with
      | some h => (s, h)
      | none => (s.alloc id (loaded J e s.db id), ⟨id, s.next⟩) := by
  unfold PeerMap.getOr
  rw [Machine.run_bind, run_get]
  cases hm : s.map.lookup id with
  | some h => rfl
  | none =>
    simp only [loaded]
    cases hf : e.getFails with
    | true => simp [PeerOp.exec, hm]
    | false =>
      cases hr : findRow s.db id with
      | some v => rfl
      | none => simp [PeerOp.exec, hm]

/-- Two stores with the same records and the same rows; the tables kept per
address and per id may differ. -/
structure SameRecords (s t : PeerStore) : Prop where
  /-- The same map. -/
  map : t.map = s.map
  /-- The same records. -/
  recs : t.recs = s.recs
  /-- The same allocations. -/
  next : t.next = s.next
  /-- The same rows. -/
  db : t.db = s.db

theorem SameRecords.refl (s : PeerStore) : SameRecords s s := ⟨rfl, rfl, rfl, rfl⟩

theorem sameRecords_checkIpBlocker (s : PeerStore) (now : Instant) (ip id : String) :
    SameRecords s (s.checkIpBlocker now ip id).1 := by
  unfold PeerStore.checkIpBlocker
  split
  · exact ⟨rfl, rfl, rfl, rfl⟩
  · dsimp only
    split
    · exact .refl s
    · split
      · exact ⟨rfl, rfl, rfl, rfl⟩
      · exact ⟨rfl, rfl, rfl, rfl⟩

theorem SameRecords.alloc {s t : PeerStore} (h : SameRecords s t) (id : String) (p : Peer) :
    SameRecords (s.alloc id p) (t.alloc id p) := by
  simp only [PeerStore.alloc, h.map, h.recs, h.next]
  exact ⟨rfl, rfl, rfl, h.db⟩

/-! ### Uninterrupted registration -/

namespace PeerStore

/-- The handle `get_or` returns: the one in the map, or the next one allocated. -/
def slot (s : PeerStore) (id : String) : Handle :=
  match s.map.lookup id with
  | some h => h
  | none => ⟨id, s.next⟩

/-- The record `get_or` returns when nothing interrupts it. -/
def found (J : Serde) (e : Env) (s : PeerStore) (id : String) : Peer :=
  match s.map.lookup id with
  | some h => s.recs h
  | none => loaded J e s.db id

end PeerStore

/-- `t` is `s` with the record of one id in memory and equal to `p`; the rows may
differ. -/
structure Touched (s t : PeerStore) (id : String) (p : Peer) : Prop where
  /-- The id is in the map. -/
  map_self : t.map.lookup id = some (s.slot id)
  /-- No other id moved. -/
  map_ne : ∀ id', id' ≠ id → t.map.lookup id' = s.map.lookup id'
  /-- Its record is `p`. -/
  recs_self : t.recs (s.slot id) = p
  /-- No other record changed. -/
  recs_ne : ∀ h, h ≠ s.slot id → t.recs h = s.recs h
  /-- Handles are not reused. -/
  next_le : s.next ≤ t.next
  /-- A handle that was allocated for it is counted. -/
  slot_lt : s.map.lookup id = none → s.next < t.next

/-- A store touched at the id and then changed only in that record. -/
theorem Touched.update {s t u : PeerStore} {id : String} {p q : Peer} (h : Touched s t id p)
    (hmap : u.map = t.map) (hnext : u.next = t.next)
    (hrecs : u.recs = Function.update t.recs (s.slot id) q) : Touched s u id q where
  map_self := by rw [hmap, h.map_self]
  map_ne := fun id' hne => by rw [hmap, h.map_ne id' hne]
  recs_self := by rw [hrecs, Function.update_self]
  recs_ne := fun x hx => by rw [hrecs, Function.update_of_ne hx, h.recs_ne x hx]
  next_le := by rw [hnext]; exact h.next_le
  slot_lt := fun hn => by rw [hnext]; exact h.slot_lt hn

theorem Touched.congr {s t u : PeerStore} {id : String} {p : Peer} (h : Touched s t id p)
    (hu : SameRecords t u) : Touched s u id p where
  map_self := by rw [hu.map, h.map_self]
  map_ne := fun id' hne => by rw [hu.map, h.map_ne id' hne]
  recs_self := by rw [hu.recs, h.recs_self]
  recs_ne := fun x hx => by rw [hu.recs, h.recs_ne x hx]
  next_le := by rw [hu.next]; exact h.next_le
  slot_lt := fun hn => by rw [hu.next]; exact h.slot_lt hn

theorem PeerStore.slot_of_some {s : PeerStore} {id : String} {h : Handle}
    (hm : s.map.lookup id = some h) : s.slot id = h := by
  simp [PeerStore.slot, hm]

theorem PeerStore.slot_of_none {s : PeerStore} {id : String} (hm : s.map.lookup id = none) :
    s.slot id = ⟨id, s.next⟩ := by
  simp [PeerStore.slot, hm]

/-- Changing a record in place. -/
theorem touched_modify {s : PeerStore} {id : String} {h : Handle} (hm : s.map.lookup id = some h)
    (f : Peer → Peer) : Touched s (s.modify h f) id (f (s.recs h)) where
  map_self := by rw [PeerStore.slot_of_some hm]; exact hm
  map_ne := fun _ _ => rfl
  recs_self := by simp [PeerStore.slot_of_some hm, PeerStore.modify]
  recs_ne := fun x hx => by
    rw [PeerStore.slot_of_some hm] at hx
    exact Function.update_of_ne hx _ _
  next_le := le_refl _
  slot_lt := fun hn => by
    rw [hm] at hn
    cases hn

/-- Allocating a record. -/
theorem touched_alloc {s : PeerStore} {id : String} (hm : s.map.lookup id = none) (p : Peer) :
    Touched s (s.alloc id p) id p where
  map_self := by simp [PeerStore.slot_of_none hm, PeerStore.alloc]
  map_ne := fun id' hne => by simp [PeerStore.alloc, AList.lookup_insert_ne hne]
  recs_self := by simp [PeerStore.slot_of_none hm, PeerStore.alloc]
  recs_ne := fun x hx => by
    rw [PeerStore.slot_of_none hm] at hx
    exact Function.update_of_ne hx _ _
  next_le := Nat.le_succ _
  slot_lt := fun _ => Nat.lt_succ_self _

/-- Reading a record that is there. -/
theorem touched_self {s : PeerStore} {id : String} {h : Handle} (hm : s.map.lookup id = some h) :
    Touched s s id (s.recs h) where
  map_self := by rw [PeerStore.slot_of_some hm]; exact hm
  map_ne := fun _ _ => rfl
  recs_self := by rw [PeerStore.slot_of_some hm]
  recs_ne := fun _ _ => rfl
  next_le := le_refl _
  slot_lt := fun hn => by
    rw [hm] at hn
    cases hn

/-- **What an uninterrupted `get_or` does**: afterwards the id is in the map, with
the record that was found. -/
theorem touched_getOr (J : Serde) (e : Env) (id : String) {s s' : PeerStore}
    (hs : SameRecords s s') :
    Touched s (peerMachine.run e (PeerMap.getOr J id) s').1 id (s.found J e id) ∧
      (peerMachine.run e (PeerMap.getOr J id) s').2 = s.slot id ∧
        (peerMachine.run e (PeerMap.getOr J id) s').1.db = s.db := by
  rw [run_getOr, hs.map, hs.db, hs.next]
  unfold PeerStore.slot PeerStore.found
  cases hm : s.map.lookup id with
  | some h => exact ⟨(touched_self hm).congr hs, rfl, hs.db⟩
  | none => exact ⟨(touched_alloc hm _).congr (hs.alloc id _), rfl, hs.db⟩

/-- The database call of `update_pk`, by whether the record has a row: the rows
after it and the record's guid, or `none` if the call fails. -/
def writeRow (J : Serde) (e : Env) (db : List Row) (guid : Bytes) (rk : RegisterPk)
    (ip : String) : Option (List Row × Bytes) :=
  if guid.isEmpty then
    if e.insertFails then none
    else (Database.insertPeer db ⟨e.guid.bytes, rk.id, rk.uuid, rk.pk, J.toString ⟨ip⟩⟩).map
      fun db => (db, e.guid.bytes)
  else if e.updateFails then none
  else (Database.updatePk db guid rk.id rk.pk (J.toString ⟨ip⟩)).map fun db => (db, guid)

/-- The record and the rows after `update_pk` of the record `p`: the record is
written whatever the database says. -/
def writeBack (J : Serde) (e : Env) (db : List Row) (p : Peer) (rk : RegisterPk)
    (addr : SocketAddr) : Peer × List Row :=
  let q := p.register e.now addr rk.uuid rk.pk addr.ip.toText
  match writeRow J e db p.guid rk addr.ip.toText with
  | none => (q, db)
  | some (db, guid) => (q.setGuid guid, db)

theorem run_updatePk (J : Serde) (e : Env) (s : PeerStore) (h : Handle) (rk : RegisterPk)
    (addr : SocketAddr) :
    (peerMachine.run e (PeerMap.updatePk J rk.id h addr rk.uuid rk.pk addr.ip.toText) s).1 =
      { s with
        recs := Function.update s.recs h (writeBack J e s.db (s.recs h) rk addr).1
        db := (writeBack J e s.db (s.recs h) rk addr).2 } := by
  unfold PeerMap.updatePk writeBack writeRow
  rw [run_writeReg]
  cases hg : (s.recs h).guid.isEmpty with
  | true =>
    simp only [if_true, Machine.run_op, peerMachine_exec, PeerOp.exec]
    cases e.insertFails with
    | true => rfl
    | false =>
      simp only [Bool.false_eq_true, if_false, PeerStore.modify]
      cases Database.insertPeer s.db ⟨e.guid.bytes, rk.id, rk.uuid, rk.pk,
          J.toString ⟨addr.ip.toText⟩⟩ with
      | none => rfl
      | some db => simp [PeerOp.exec, PeerStore.modify]
  | false =>
    simp only [Bool.false_eq_true, if_false, Machine.run_op, peerMachine_exec, PeerOp.exec]
    cases e.updateFails with
    | true => rfl
    | false =>
      simp only [Bool.false_eq_true, if_false, PeerStore.modify]
      cases Database.updatePk s.db (s.recs h).guid rk.id rk.pk
          (J.toString ⟨addr.ip.toText⟩) with
      | none => rfl
      | some db => rfl

/-- The request is well formed and its address is not blocked: `handle_register_pk`
goes on to look the id up. -/
def Admitted (e : Env) (rk : RegisterPk) (addr : SocketAddr) (s : PeerStore) : Prop :=
  rk.uuid ≠ [] ∧ rk.pk ≠ [] ∧ 6 ≤ byteLen rk.id ∧ byteLen rk.id ≤ MAX_PEER_ID_LEN ∧
    (s.checkIpBlocker e.now addr.ip.toText rk.id).2 = true

instance (e : Env) (rk : RegisterPk) (addr : SocketAddr) (s : PeerStore) :
    Decidable (Admitted e rk addr s) :=
  inferInstanceAs (Decidable (_ ∧ _ ∧ _ ∧ _ ∧ _))

/-- Everything an uninterrupted `handle_register_pk` can do: the store after it and
its answer. -/
inductive RegStep (J : Serde) (e : Env) (rk : RegisterPk) (addr : SocketAddr) (ws : Bool)
    (s t : PeerStore) : Option RegisterPkResult → Prop
  /-- Refused before the id is looked up, with an answer or silently. -/
  | refused {res : Option RegisterPkResult} (hadm : ¬Admitted e rk addr s)
      (hsame : SameRecords s t) (hres : res ≠ some .ok) : RegStep J e rk addr ws s t res
  /-- Refused for the record that was found, or for its counter. -/
  | rejected {res : Option RegisterPkResult} (hadm : Admitted e rk addr s)
      (ht : Touched s t rk.id (s.found J e rk.id)) (hdb : t.db = s.db)
      (hwhy : regCheck (s.found J e rk.id) rk addr.ip.toText = none ∨
        bumpRegPk e.now (s.found J e rk.id).regPk = none) (hres : res ≠ some .ok) :
      RegStep J e rk addr ws s t res
  /-- Accepted, and nothing to write but the counter. -/
  | kept {ipChanged : Bool} {n : ℕ} (hadm : Admitted e rk addr s)
      (hc : regCheck (s.found J e rk.id) rk addr.ip.toText = some (false, ipChanged))
      (hb : bumpRegPk e.now (s.found J e rk.id).regPk = some n) (hws : ws = false)
      (ht : Touched s t rk.id ((s.found J e rk.id).setRegPk (n, e.now)))
      (hdb : t.db = s.db) : RegStep J e rk addr ws s t (some .ok)
  /-- Accepted and written. -/
  | written {changed ipChanged : Bool} {n : ℕ} (hadm : Admitted e rk addr s)
      (hc : regCheck (s.found J e rk.id) rk addr.ip.toText = some (changed, ipChanged))
      (hb : bumpRegPk e.now (s.found J e rk.id).regPk = some n) (hw : (changed || ws) = true)
      (ht : Touched s t rk.id
        (writeBack J e s.db ((s.found J e rk.id).setRegPk (n, e.now)) rk addr).1)
      (hdb : t.db =
        (writeBack J e s.db ((s.found J e rk.id).setRegPk (n, e.now)) rk addr).2) :
      RegStep J e rk addr ws s t (some .ok)

theorem run_noteIpChange (e : Env) (ipChanged : Bool) (id ip : String) (s : PeerStore) :
    SameRecords s (peerMachine.run e (noteIpChange ipChanged id ip) s).1 := by
  unfold noteIpChange
  cases ipChanged with
  | true => exact ⟨rfl, rfl, rfl, rfl⟩
  | false => exact .refl s

/-- From the point where the record that was found is acceptable. -/
theorem regStep_commit (J : Serde) (e : Env) {rk : RegisterPk} {addr : SocketAddr} (ws : Bool)
    {s t : PeerStore} {changed ipChanged : Bool} (hadm : Admitted e rk addr s)
    (htouch : Touched s t rk.id (s.found J e rk.id)) (hdb : t.db = s.db)
    (hc : regCheck (s.found J e rk.id) rk addr.ip.toText = some (changed, ipChanged)) :
    RegStep J e rk addr ws s
      (peerMachine.run e (commitReg J rk addr ws (s.slot rk.id) changed ipChanged) t).1
      (peerMachine.run e (commitReg J rk addr ws (s.slot rk.id) changed ipChanged) t).2 := by
  have hrec : t.recs (s.slot rk.id) = s.found J e rk.id := htouch.recs_self
  simp only [commitReg, run_readPeer, run_now, hrec]
  cases hb : bumpRegPk e.now (s.found J e rk.id).regPk with
  | none => exact .rejected hadm htouch hdb (Or.inr hb) (by simp)
  | some n =>
    simp only [run_now, run_setRegPk]
    rw [Machine.run_bind]
    have hmod : Touched s (t.modify (s.slot rk.id) (Peer.setRegPk (n, e.now))) rk.id
        ((s.found J e rk.id).setRegPk (n, e.now)) :=
      htouch.update rfl rfl (by rw [← hrec]; rfl)
    -- the table of address changes is none of the records
    have hu := run_noteIpChange e ipChanged rk.id addr.ip.toText
      (t.modify (s.slot rk.id) (Peer.setRegPk (n, e.now)))
    have hdb' := hu.db.trans (show _ = s.db from hdb)
    have hmod' := hmod.congr hu
    generalize (peerMachine.run e (noteIpChange ipChanged rk.id addr.ip.toText)
      (t.modify (s.slot rk.id) (Peer.setRegPk (n, e.now)))).1 = u at hdb' hmod'
    cases hw : (changed || ws) with
    | false =>
      simp only [Bool.or_eq_false_iff] at hw
      obtain ⟨rfl, hws⟩ := hw
      exact .kept hadm hc hb hws hmod' hdb'
    | true =>
      simp only [if_true]
      rw [Machine.run_bind, run_updatePk]
      refine .written hadm hc hb hw (hmod'.update rfl rfl ?_) ?_
      · rw [hmod'.recs_self, hdb']
        rfl
      · rw [hmod'.recs_self, hdb']
        rfl

/-- **An uninterrupted `handle_register_pk` does one of the things `RegStep` lists.** -/
theorem regStep_run (J : Serde) (e : Env) (rk : RegisterPk) (addr : SocketAddr) (ws : Bool)
    (s : PeerStore) :
    RegStep J e rk addr ws s (peerMachine.run e (handleRegisterPk J rk addr ws) s).1
      (peerMachine.run e (handleRegisterPk J rk addr ws) s).2 := by
  unfold handleRegisterPk
  split
  · next h =>
    refine .refused ?_ (.refl s) (by simp)
    rintro ⟨h1, h2, -⟩
    simp [h1, h2] at h
  · next hempty =>
    split
    · next h =>
      refine .refused ?_ (.refl s) (by simp)
      rintro ⟨-, -, h1, h2, -⟩
      simp only [Bool.or_eq_true, decide_eq_true_eq] at h
      omega
    · next hlen =>
      rw [run_checkIpBlocker]
      have hsame := sameRecords_checkIpBlocker s e.now addr.ip.toText rk.id
      cases hpass : (s.checkIpBlocker e.now addr.ip.toText rk.id).2 with
      | false =>
        refine .refused ?_ hsame (by simp)
        rintro ⟨-, -, -, -, h⟩
        simp [hpass] at h
      | true =>
        have hadm : Admitted e rk addr s := by
          simp only [Bool.or_eq_true, List.isEmpty_iff, not_or] at hempty
          simp only [Bool.or_eq_true, decide_eq_true_eq, not_or, not_lt] at hlen
          exact ⟨hempty.1, hempty.2, hlen.1, hlen.2, hpass⟩
        simp only [Bool.not_true, Bool.false_eq_true, if_false]
        rw [Machine.run_bind]
        obtain ⟨htouch, hslot, hdb⟩ := touched_getOr J e rk.id hsame
        generalize peerMachine.run e (PeerMap.getOr J rk.id)
          (s.checkIpBlocker e.now addr.ip.toText rk.id).1 = th at htouch hslot hdb
        obtain ⟨t, h⟩ := th
        simp only at htouch hslot hdb
        subst hslot
        rw [run_readPeer, htouch.recs_self]
        cases hc : regCheck (s.found J e rk.id) rk addr.ip.toText with
        | none => exact .rejected hadm htouch hdb (Or.inl hc) (by simp)
        | some c => exact regStep_commit J e ws hadm htouch hdb hc

/-- What `update_addr` does when nothing interrupts it. -/
theorem run_updateAddr (e : Env) (id : String) (addr : SocketAddr) (s : PeerStore) :
    peerMachine.run e (updateAddr id addr) s =
      match s.map.lookup id with
      | some h => (s.modify h (Peer.refresh e.now addr), (s.recs h).requestPk addr)
      | none => (s, true) := by
  unfold updateAddr PeerMap.getInMemory
  rw [Machine.run_bind, run_mapGet]
  cases s.map.lookup id with
  | some h => rfl
  | none => rfl

end RustdeskServer
