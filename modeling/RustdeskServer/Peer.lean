import RustdeskServer.Atomic.Interleave
import RustdeskServer.Message

/-!
# Peer records, the peer map and the database

A peer's record lives twice: in memory, behind a `LockPeer` found through the
peer map, and as a row of the SQLite table `peer`.  The memory is read and
written under locks and the database one call at a time, so the operations of
`PeerSig` are exactly those: one per lock-protected section, one per database
call, and the clock.  `PeerMap.get`, `getOr` and `updatePk` are programs over
them, in the order of the source.

A `LockPeer` is an `Arc`: two of them are the same record only if they came from
the same allocation.  A `Handle` is therefore the id it was allocated for with a
number that is never used twice.

## Main definitions

* `Peer`, `PeerInfo`, `Row` — the record in memory and the row in the database.
* `PeerStore`, `PeerStore.start`, `PeerStore.restart` — the two together.
* `PeerOp`, `peerMachine` — the atomic sections and what they do.
* `PeerMap.get`, `PeerMap.getOr`, `PeerMap.getInMemory`, `PeerMap.updatePk`.
-/

namespace RustdeskServer

open Atomic

/-! ### Data -/

/-- `IP_CHANGE_DUR`, seconds. -/
def IP_CHANGE_DUR : ℕ := 180

/-- `DAY_SECONDS`. -/
def DAY_SECONDS : ℕ := 3600 * 24

/-- `IP_BLOCK_DUR`, seconds. -/
def IP_BLOCK_DUR : ℕ := 60

/-- `MAX_PEER_ID_LEN`, bytes. -/
def MAX_PEER_ID_LEN : ℕ := 253

/-- `PeerInfo`: what the `info` column holds. -/
structure PeerInfo where
  /-- The address the peer last registered from, as text. -/
  ip : String
  deriving DecidableEq

/-- `peer::Peer`, the record in memory. -/
structure Peer where
  /-- Where the peer was last seen. -/
  socketAddr : SocketAddr
  /-- When it was last seen. -/
  lastRegTime : Instant
  /-- The key of its row, empty while it has none. -/
  guid : Bytes
  /-- The machine the id belongs to. -/
  uuid : Bytes
  /-- Its public key. -/
  pk : Bytes
  /-- What the row remembers about it. -/
  info : PeerInfo
  /-- How often `RegisterPk` came lately, and when last. -/
  regPk : ℕ × Instant
  deriving DecidableEq

/-- `Peer::default`, built when the clock reads `now`. -/
def Peer.default (now : Instant) : Peer where
  socketAddr := .unspecified
  lastRegTime := getExpiredTime now
  guid := []
  uuid := []
  pk := []
  info := ⟨""⟩
  regPk := (0, getExpiredTime now)

/-- A row of the table `peer`: the columns that are written and read. -/
structure Row where
  /-- Primary key. -/
  guid : Bytes
  /-- Unique. -/
  id : String
  /-- The machine the id belongs to. -/
  uuid : Bytes
  /-- Its public key. -/
  pk : Bytes
  /-- `PeerInfo` as JSON. -/
  info : String
  deriving DecidableEq

/-- `serde_json` on `PeerInfo`: `to_string`, and `from_str` with its errors
defaulted. -/
structure Serde where
  /-- `serde_json::to_string`. -/
  toString : PeerInfo → String
  /-- `serde_json::from_str(..).unwrap_or_default()`. -/
  fromStr : String → PeerInfo

/-- `serde_json` on addresses, whose text needs no escapes: the instance that
concrete runs use. -/
def Serde.plain : Serde where
  toString i := "\x7b\"ip\":\"" ++ i.ip ++ "\"\x7d"
  fromStr s := ⟨String.ofList (s.toList.drop 7).dropLast.dropLast⟩

theorem Serde.plain_fromStr_toString (i : PeerInfo) :
    Serde.plain.fromStr (Serde.plain.toString i) = i := by
  have h : (("\x7b\"ip\":\"" ++ i.ip ++ "\"\x7d").toList.drop 7).dropLast.dropLast =
      i.ip.toList := by
    rw [String.toList_append, String.toList_append]
    change ((i.ip.toList ++ ['"', '\x7d']).dropLast).dropLast = _
    rw [show ['"', '\x7d'] = ['"'] ++ ['\x7d'] from rfl, ← List.append_assoc,
      List.dropLast_concat, List.dropLast_concat]
  simp only [Serde.plain, h, String.ofList_toList]

/-- The record `PeerMap::get` builds from a row when the clock reads `now`. -/
def Row.load (J : Serde) (now : Instant) (r : Row) : Peer :=
  { Peer.default now with
    guid := r.guid
    uuid := r.uuid
    pk := r.pk
    info := J.fromStr r.info }

/-- A `LockPeer`: the id it was allocated for, and which allocation it is. -/
structure Handle where
  /-- The id it was made for. -/
  id : String
  /-- The number of the allocation. -/
  no : ℕ
  deriving DecidableEq

/-- An entry of `IP_BLOCKER`: the burst counter, and the ids seen in a day. -/
structure IpBlock where
  /-- Registrations counted, and the last one. -/
  burst : ℕ × Instant
  /-- The ids they were for, and the last one. -/
  ids : List String × Instant
  deriving DecidableEq

/-- Everything the registration code shares: the peer map with the records behind
it, the database, and the two tables kept per address and per id. -/
structure PeerStore where
  /-- `PeerMap::map`. -/
  map : HashMap String Handle
  /-- What is behind each `LockPeer`. -/
  recs : Handle → Peer
  /-- The next allocation. -/
  next : ℕ
  /-- The table `peer`. -/
  db : List Row
  /-- `IP_BLOCKER`. -/
  ipBlocker : HashMap String IpBlock
  /-- `IP_CHANGES`. -/
  ipChanges : HashMap String (Instant × HashMap String ℕ)

/-- A process that starts on the rows `db`. -/
def PeerStore.start (db : List Row) : PeerStore where
  map := ∅
  recs := fun _ => Peer.default 0
  next := 0
  db := db
  ipBlocker := ∅
  ipChanges := ∅

/-- A restart keeps the database and loses the rest. -/
def PeerStore.restart (s : PeerStore) : PeerStore := .start s.db

/-- `Uuid::new_v4`: sixteen bytes. -/
structure Guid where
  /-- The bytes. -/
  bytes : Bytes
  /-- There are sixteen of them. -/
  len : bytes.length = 16

theorem Guid.bytes_ne_nil (g : Guid) : g.bytes ≠ [] := by
  intro h
  have := g.len
  simp [h] at this

/-- What reaches a section from outside: the clock, the next random guid, and
which database calls fail. -/
structure Env where
  /-- `Instant::now`. -/
  now : Instant
  /-- `Uuid::new_v4`. -/
  guid : Guid
  /-- `Database::get_peer` fails. -/
  getFails : Bool
  /-- `Database::insert_peer` fails. -/
  insertFails : Bool
  /-- `Database::update_pk` fails. -/
  updateFails : Bool

/-- A guid of sixteen equal bytes. -/
def Guid.of (n : UInt8) : Guid := ⟨List.replicate 16 n, by simp⟩

/-- A moment at which every database call succeeds. -/
def Env.ok (now : Instant) (n : UInt8) : Env := ⟨now, .of n, false, false, false⟩

/-! ### The atomic sections -/

/-- The lock-protected sections and database calls of the registration code. -/
inductive PeerOp
  /-- `Instant::now()`. -/
  | now
  /-- `check_ip_blocker`, all of it under the lock of `IP_BLOCKER`. -/
  | checkIpBlocker (ip id : String)
  /-- `self.map.read().await.get(id).cloned()`. -/
  | mapGet (id : String)
  /-- `self.db.get_peer(id)`. -/
  | dbGetPeer (id : String)
  /-- `self.map.write().await.insert(id, Arc::new(..peer..))`. -/
  | mapInsert (id : String) (peer : Peer)
  /-- The write-locked half of `get_or`. -/
  | mapGetOrInsert (id : String)
  /-- `peer.read()`. -/
  | readPeer (h : Handle)
  /-- `peer.write().await.reg_pk = ..`. -/
  | setRegPk (h : Handle) (v : ℕ × Instant)
  /-- The `IP_CHANGES` section of `handle_register_pk`. -/
  | recordIpChange (id ip : String)
  /-- The write-locked half of `update_pk`. -/
  | writeReg (h : Handle) (addr : SocketAddr) (uuid pk : Bytes) (ip : String)
  /-- `self.db.insert_peer(..)`. -/
  | dbInsertPeer (id : String) (uuid pk : Bytes) (info : String)
  /-- `peer.write().await.guid = guid`. -/
  | setGuid (h : Handle) (guid : Bytes)
  /-- `self.db.update_pk(..)`. -/
  | dbUpdatePk (guid : Bytes) (id : String) (pk : Bytes) (info : String)
  /-- The write-locked section of `update_addr`. -/
  | updateAddr (h : Handle) (addr : SocketAddr)
  deriving DecidableEq

/-- What a section answers. -/
@[reducible] def PeerOp.Res : PeerOp → Type
  | .now => Instant
  | .checkIpBlocker _ _ => Bool
  | .mapGet _ => Option Handle
  | .dbGetPeer _ => Except Unit (Option Row)
  | .mapInsert _ _ => Handle
  | .mapGetOrInsert _ => Handle
  | .readPeer _ => Peer
  | .setRegPk _ _ => Unit
  | .recordIpChange _ _ => Unit
  | .writeReg _ _ _ _ _ => PeerInfo × Bytes
  | .dbInsertPeer _ _ _ _ => Except Unit Bytes
  | .setGuid _ _ => Unit
  | .dbUpdatePk _ _ _ _ => Except Unit Unit
  | .updateAddr _ _ => Bool

/-- The signature of the registration code. -/
abbrev PeerSig : Sig := ⟨PeerOp, PeerOp.Res⟩

/-- The database rows with an id. -/
def findRow (db : List Row) (id : String) : Option Row := db.find? fun r => r.id = id

namespace PeerStore

/-- Change the record behind a handle. -/
def modify (s : PeerStore) (h : Handle) (f : Peer → Peer) : PeerStore :=
  { s with recs := Function.update s.recs h (f (s.recs h)) }

/-- Allocate a record and put it into the map. -/
def alloc (s : PeerStore) (id : String) (p : Peer) : PeerStore :=
  { s with
    map := s.map.insert id ⟨id, s.next⟩
    recs := Function.update s.recs ⟨id, s.next⟩ p
    next := s.next + 1 }

/-- The record the map holds for an id. -/
def peer? (s : PeerStore) (id : String) : Option Peer := (s.map.lookup id).map s.recs

/-- `check_ip_blocker`. -/
def checkIpBlocker (s : PeerStore) (now : Instant) (ip id : String) : PeerStore × Bool :=
  match s.ipBlocker.lookup ip with
  | none =>
    ({ s with ipBlocker := s.ipBlocker.insert ip ⟨(0, now), ([], now)⟩ }, true)
  | some old =>
    let expired := elapsedSecs now old.burst.2 > IP_BLOCK_DUR
    if ¬expired ∧ old.burst.1 > 30 then (s, false)
    else
      let burst := ((if expired then 0 else old.burst.1) + 1, now)
      let isNew := id ∉ old.ids.1
      let cleared := elapsedSecs now old.ids.2 > DAY_SECONDS
      if ¬cleared ∧ old.ids.1.length > 300 then
        ({ s with ipBlocker := s.ipBlocker.insert ip ⟨burst, old.ids⟩ }, !decide isNew)
      else
        let ids := if cleared then [] else old.ids.1
        let ids := if isNew then ids ++ [id] else ids
        ({ s with ipBlocker := s.ipBlocker.insert ip ⟨burst, (ids, now)⟩ }, true)

/-- The `IP_CHANGES` section of `handle_register_pk`. -/
def recordIpChange (s : PeerStore) (now : Instant) (id ip : String) : PeerStore :=
  let entry := match s.ipChanges.lookup id with
    | none => (now, (∅ : HashMap String ℕ).insert ip 1)
    | some (tm, ips) =>
      if elapsedSecs now tm > IP_CHANGE_DUR then (now, (∅ : HashMap String ℕ).insert ip 1)
      else match ips.lookup ip with
        | some v => (tm, ips.insert ip (v + 1))
        | none => (tm, ips.insert ip 1)
  { s with ipChanges := s.ipChanges.insert id entry }

end PeerStore

/-- The write-locked half of `update_pk`. -/
def Peer.register (now : Instant) (addr : SocketAddr) (uuid pk : Bytes) (ip : String)
    (p : Peer) : Peer :=
  { p with socketAddr := addr, uuid := uuid, pk := pk, lastRegTime := now, info := ⟨ip⟩ }

/-- `w.reg_pk = v`. -/
def Peer.setRegPk (v : ℕ × Instant) (p : Peer) : Peer := { p with regPk := v }

/-- `w.guid = guid`. -/
def Peer.setGuid (guid : Bytes) (p : Peer) : Peer := { p with guid := guid }

/-- Whether `update_addr` asks the peer to send its key again. -/
def Peer.requestPk (p : Peer) (addr : SocketAddr) : Bool :=
  let ipChange :=
    (if p.socketAddr.port ≠ 0 then decide (addr.ip ≠ p.socketAddr.ip)
      else decide (addr.ip.toText ≠ p.info.ip)) && !addr.ip.isLoopback
  p.pk.isEmpty || ipChange

/-- The write-locked section of `update_addr`. -/
def Peer.refresh (now : Instant) (addr : SocketAddr) (p : Peer) : Peer :=
  if p.requestPk addr then p else { p with socketAddr := addr, lastRegTime := now }

namespace Database

/-- `insert_peer`: the primary key and the unique index refuse a second row. -/
def insertPeer (db : List Row) (r : Row) : Option (List Row) :=
  if db.any fun x => x.guid = r.guid ∨ x.id = r.id then none else some (db ++ [r])

/-- `update_pk`: the row with this guid gets the id, the key and the info, but not
the uuid.  Taking an id another row has is refused by the unique index. -/
def updatePk (db : List Row) (guid : Bytes) (id : String) (pk : Bytes) (info : String) :
    Option (List Row) :=
  if (db.any fun x => x.guid = guid) ∧ (db.any fun x => x.id = id ∧ x.guid ≠ guid) then none
  else some (db.map fun x => if x.guid = guid then { x with id := id, pk := pk, info := info } else x)

end Database

/-- What each section does. -/
def PeerOp.exec (e : Env) : (o : PeerOp) → PeerStore → PeerStore × o.Res
  | .now, s => (s, e.now)
  | .checkIpBlocker ip id, s => s.checkIpBlocker e.now ip id
  | .mapGet id, s => (s, s.map.lookup id)
  | .dbGetPeer id, s => (s, if e.getFails then .error () else .ok (findRow s.db id))
  | .mapInsert id p, s => (s.alloc id p, ⟨id, s.next⟩)
  | .mapGetOrInsert id, s =>
    match s.map.lookup id with
    | some h => (s, h)
    | none => (s.alloc id (Peer.default e.now), ⟨id, s.next⟩)
  | .readPeer h, s => (s, s.recs h)
  | .setRegPk h v, s => (s.modify h (Peer.setRegPk v), ())
  | .recordIpChange id ip, s => (s.recordIpChange e.now id ip, ())
  | .writeReg h addr uuid pk ip, s =>
    (s.modify h (Peer.register e.now addr uuid pk ip), (⟨ip⟩, (s.recs h).guid))
  | .dbInsertPeer id uuid pk info, s =>
    if e.insertFails then (s, .error ())
    else match Database.insertPeer s.db ⟨e.guid.bytes, id, uuid, pk, info⟩ with
      | none => (s, .error ())
      | some db => ({ s with db := db }, .ok e.guid.bytes)
  | .setGuid h guid, s => (s.modify h (Peer.setGuid guid), ())
  | .dbUpdatePk guid id pk info, s =>
    if e.updateFails then (s, .error ())
    else match Database.updatePk s.db guid id pk info with
      | none => (s, .error ())
      | some db => ({ s with db := db }, .ok ())
  | .updateAddr h addr, s => (s.modify h (Peer.refresh e.now addr), (s.recs h).requestPk addr)

/-- The registration code's machine. -/
def peerMachine : Machine PeerSig PeerStore Env := ⟨PeerOp.exec⟩

/-! ### `PeerMap` -/

namespace PeerMap

/-- `PeerMap::get`. -/
def get (J : Serde) (id : String) : Prog PeerSig (Option Handle) :=
  .op (.mapGet id) fun p : Option Handle =>
    match p with
    | some h => .ret (some h)
    | none =>
      .op (.dbGetPeer id) fun v : Except Unit (Option Row) =>
        match v with
        | .ok (some v) =>
          .op .now fun now : Instant =>
            .op (.mapInsert id (v.load J now)) fun h : Handle => .ret (some h)
        | _ => .ret none

/-- `PeerMap::get_or`. -/
def getOr (J : Serde) (id : String) : Prog PeerSig Handle := do
  match ← get J id with
  | some p => .ret p
  | none => .op (.mapGetOrInsert id) fun p : Handle => .ret p

/-- `PeerMap::get_in_memory`. -/
def getInMemory (id : String) : Prog PeerSig (Option Handle) :=
  .op (.mapGet id) fun p : Option Handle => .ret p

/-- `PeerMap::update_pk`: memory first, then the database. -/
def updatePk (J : Serde) (id : String) (peer : Handle) (addr : SocketAddr) (uuid pk : Bytes)
    (ip : String) : Prog PeerSig RegisterPkResult :=
  .op (.writeReg peer addr uuid pk ip) fun w : PeerInfo × Bytes =>
    if w.2.isEmpty then
      .op (.dbInsertPeer id uuid pk (J.toString w.1)) fun r : Except Unit Bytes =>
        match r with
        | .error _ => .ret .serverError
        | .ok guid => .op (.setGuid peer guid) fun _ => .ret .ok
    else
      .op (.dbUpdatePk w.2 id pk (J.toString w.1)) fun r : Except Unit Unit =>
        match r with
        | .error _ => .ret .serverError
        | .ok _ => .ret .ok

end PeerMap
end RustdeskServer
