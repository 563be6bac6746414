import RustdeskServer.Registration

/-!
# The rendezvous server's shared state

`hbbs` runs one task per connection and a main loop.  What they share is the peer
store, the registry of websocket peers (`ws_peers`), the sinks parked for a later
answer (`tcp_punch`), two global switches, the log of punch requests, the queue
into the main loop, and the main loop's own configuration, of which every
connection takes a copy when it opens.

Each operation of `SrvSig` is again one lock-protected section or one queue
operation.  The server also keeps a *history*: who registered from where, who
asked for a session from where, whose token was accepted, and what was handed to
whom.  The history is never read by a handler; statements about runs are read off
it.

## Main definitions

* `Ext` — everything the handlers call outside this repository.
* `Inner`, `Settings` — configuration.
* `Cause` — the message being handled and the connection it came over.
* `Event`, `Server` — the history and the state.
* `SrvOp`, `srvMachine` — the atomic sections and what they do.
* `liftPeer` — a program of the registration code, run for some cause.
-/

namespace RustdeskServer

open Atomic

/-! ### Configuration and outside code -/

/-- `jwt::Claims`: the field that is checked. -/
structure Claims where
  /-- Expiry, seconds since the epoch. -/
  exp : ℕ
  deriving DecidableEq

/-- Everything the handlers call outside this repository. -/
structure Ext where
  /-- `hbb_common`. -/
  hbb : HbbCommon
  /-- `serde_json`. -/
  serde : Serde
  /-- `jsonwebtoken::decode` for HS256: secret, token, and the time it reads. -/
  decodeToken : String → String → ℕ → Option Claims
  /-- `sign::sign` of the `IdPk` message for an id and a key: what `get_pk` answers. -/
  signIdPk : Bytes → String → Bytes → Bytes
  /-- Whether `enum_value()` knows a NAT type. -/
  natTypeKnown : NatType → Bool
  /-- `test_if_valid_server`: the name resolves. -/
  validServer : String → Bool

/-- An instance that concrete runs use: addresses travel as their bytes, and the one
good token is the secret itself. -/
def Ext.sample : Ext where
  hbb :=
    { tryIntoV4 := fun a => ⟨a.ip.toCanonical, a.port⟩
      encode := fun _ a => (match a.ip with
        | .v4 b => IpAddr.octets b
        | .v6 b => (IpAddr.segments b).flatMap fun x => [x / 256, x % 256]).map UInt8.ofNat ++
          [UInt8.ofNat (a.port.toNat / 256), UInt8.ofNat a.port.toNat]
      decode := fun bs => match bs with
        | [a, b, c, d, p, q] => ⟨.ofOctets a b c d, UInt16.ofNat (p.toNat * 256 + q.toNat)⟩
        | _ => .unspecified }
  serde := .plain
  decodeToken := fun secret token _ => if token = secret then some ⟨2 ^ 40⟩ else none
  signIdPk := fun sk _ pk => sk ++ pk
  natTypeKnown := fun _ => true
  validServer := fun _ => true

/-- `Inner`. -/
structure Inner where
  /-- The serial of the configuration. -/
  serial : ℤ
  /-- The version named by the software URL. -/
  version : String
  /-- Where the client software is. -/
  softwareUrl : String
  /-- The local network, if one is configured. -/
  mask : Option Ipv4Network
  /-- The server's address in it. -/
  localIp : String
  /-- The secret signing key. -/
  sk : Option Bytes
  deriving DecidableEq

/-- What does not change while the process runs. -/
structure Settings where
  /-- The validation key; empty means none. -/
  key : String
  /-- `jwt::SECRET`; empty means none. -/
  jwtSecret : String
  /-- `PUNCH_REQ_MAX`. -/
  punchReqMax : ℕ
  deriving DecidableEq

/-- The copy of the server that a connection works on. -/
structure Snapshot where
  /-- `inner`. -/
  inner : Inner
  /-- `rendezvous_servers`. -/
  rendezvousServers : List String
  deriving DecidableEq

/-- A server with nothing configured. -/
def Snapshot.blank : Snapshot := ⟨⟨0, "", "", none, "", none⟩, []⟩

/-- `jwt::verify_token`: whether it accepts, read at the time `utc`. -/
def verifyToken (E : Ext) (secret token : String) (utc : ℕ) : Bool :=
  match E.decodeToken secret token utc with
  | some claims => decide (claims.exp > utc)
  | none => false

/-! ### State and history -/

/-- A connection, by the number of its task. -/
abbrev ConnId := ℕ

/-- How a message came in. -/
inductive Via
  /-- A UDP datagram. -/
  | udp
  /-- A frame on a plain TCP connection. -/
  | tcp (c : ConnId)
  /-- A frame on a websocket. -/
  | ws (c : ConnId)
  deriving DecidableEq

/-- The connection a message came in over, if any. -/
def Via.conn? : Via → Option ConnId
  | .udp => none
  | .tcp c => some c
  | .ws c => some c

/-- The message being handled, and how it came in. -/
structure Cause where
  /-- How it came in. -/
  via : Via
  /-- How many came in before it over the same connection. -/
  no : ℕ
  /-- The message. -/
  frame : Msg
  deriving DecidableEq

/-- What the history records. -/
inductive Event
  /-- The record of `id` got an address whose registry key is `key`. -/
  | addrSet (id : String) (cause : Cause) (key : SocketAddr)
  /-- Connection `c`, whose registry key is `key`, asked for a session. -/
  | requested (c : ConnId) (key : SocketAddr)
  /-- `verify_token` accepted the token of a request at the time `utc`. -/
  | verified (cause : Cause) (utc : ℕ)
  /-- A message went into the channel of the websocket `dst`, found under `key`. -/
  | pushed (cause : Cause) (key : SocketAddr) (dst : ConnId) (msg : Msg)
  /-- A message was queued for the main loop to send over UDP. -/
  | queued (cause : Cause) (msg : Msg) (addr : SocketAddr)
  /-- A message was written to a connection; a key is offered without a cause. -/
  | sent (cause : Option Cause) (dst : ConnId) (msg : Msg)
  deriving DecidableEq

/-- An entry of `PUNCH_REQS`. -/
structure PunchReqEntry where
  /-- When. -/
  tm : Instant
  /-- Who asked. -/
  fromIp : String
  /-- Where the peer was. -/
  toIp : String
  /-- Which peer. -/
  toId : String
  deriving DecidableEq

/-- The state the tasks of `hbbs` share, with its history, newest event first. -/
structure Server where
  /-- The peer map and the database. -/
  pm : PeerStore
  /-- `ws_peers`: the connection registered under each key. -/
  wsPeers : HashMap SocketAddr ConnId
  /-- Websockets whose receiver is gone. -/
  rxGone : List ConnId
  /-- `tcp_punch`: whose sink is parked under each key. -/
  tcpPunch : HashMap SocketAddr ConnId
  /-- `MUST_LOGIN`. -/
  mustLogin : Bool
  /-- `ALWAYS_USE_RELAY`. -/
  alwaysUseRelay : Bool
  /-- `PUNCH_REQS`, oldest first. -/
  punchReqs : List PunchReqEntry
  /-- The main loop's configuration. -/
  conf : Snapshot
  /-- The queue into the main loop. -/
  queue : List Data
  /-- What happened so far. -/
  log : List Event

/-- A server that starts on the rows `db`. -/
def Server.start (db : List Row) (mustLogin alwaysUseRelay : Bool) (conf : Snapshot) : Server where
  pm := .start db
  wsPeers := ∅
  rxGone := []
  tcpPunch := ∅
  mustLogin := mustLogin
  alwaysUseRelay := alwaysUseRelay
  punchReqs := []
  conf := conf
  queue := []
  log := []

/-- What reaches a section from outside. -/
structure SrvEnv extends Env where
  /-- `chrono::Utc::now`, seconds. -/
  utc : ℕ
  /-- The relay `RelaySelector::pick` names: any relay at all, since the handlers
  only pass its name on. -/
  relay : String

/-- A moment at which every database call succeeds. -/
def SrvEnv.ok (now : Instant) (n : UInt8) : SrvEnv := { Env.ok now n with utc := 0, relay := "" }

/-! ### The atomic sections -/

/-- The lock-protected sections, channel and queue operations of the handlers. -/
inductive SrvOp
  /-- A section of the registration code. -/
  | peer (cause : Cause) (o : PeerOp)
  /-- `MUST_LOGIN.load`. -/
  | mustLogin
  /-- `ALWAYS_USE_RELAY.load`. -/
  | alwaysUseRelay
  /-- `jwt::verify_token(token).is_ok()`. -/
  | verifyToken (cause : Cause) (token : String)
  /-- `record_punch_req`, all of it under its lock. -/
  | recordPunchReq (fromIp toIp toId : String)
  /-- `get_relay_server`. -/
  | getRelayServer (pa pb : IpAddr)
  /-- `self.clone()`, taken when a connection opens. -/
  | cloneServer
  /-- `self.inner = ..; self.rendezvous_servers = ..` in the main loop. -/
  | setConf (conf : Snapshot)
  /-- `register_ws_peer`. -/
  | registerWs (cause : Cause) (addr : SocketAddr) (c : ConnId)
  /-- `push_to_ws_peer`. -/
  | pushWs (cause : Cause) (addr : SocketAddr) (msg : Msg)
  /-- `tcp_punch.lock().await.insert(try_into_v4(addr), sink)`. -/
  | punchInsert (addr : SocketAddr) (c : ConnId)
  /-- `tcp_punch.lock().await.remove(&try_into_v4(addr))`. -/
  | punchRemove (addr : SocketAddr)
  /-- `sink.send(msg)`. -/
  | sendSink (cause : Option Cause) (c : ConnId) (msg : Msg)
  /-- `socket.send(msg, addr)`. -/
  | sendUdp (msg : Msg) (addr : SocketAddr)
  /-- `self.tx.send(Data::Msg(msg, addr))`. -/
  | sendData (cause : Cause) (msg : Msg) (addr : SocketAddr)
  /-- `WsPeerGuard::drop`. -/
  | guardDrop (addr : SocketAddr) (c : ConnId)
  /-- `rx_ws` is dropped. -/
  | rxDrop (c : ConnId)

/-- What a section answers. -/
@[reducible] def SrvOp.Res : SrvOp → Type
  | .peer _ o => o.Res
  | .mustLogin => Bool
  | .alwaysUseRelay => Bool
  | .verifyToken _ _ => Bool
  | .recordPunchReq _ _ _ => Unit
  | .getRelayServer _ _ => String
  | .cloneServer => Snapshot
  | .setConf _ => Unit
  | .registerWs _ _ _ => Unit
  | .pushWs _ _ _ => Bool
  | .punchInsert _ _ => Unit
  | .punchRemove _ => Option ConnId
  | .sendSink _ _ _ => Unit
  | .sendUdp _ _ => Unit
  | .sendData _ _ _ => Unit
  | .guardDrop _ _ => Unit
  | .rxDrop _ => Unit

/-- The signature of the handlers. -/
abbrev SrvSig : Sig := ⟨SrvOp, SrvOp.Res⟩

/-- `PUNCH_REQ_DEDUPE_SEC`. -/
def PUNCH_REQ_DEDUPE_SEC : ℕ := 60

/-- `record_punch_req`: the newest of the last thirty entries for the same pair
decides whether this one is a repetition. -/
def recordPunchReq (max : ℕ) (q : List PunchReqEntry) (e : PunchReqEntry) : List PunchReqEntry :=
  if max = 0 then q
  else
    let dup := match (q.reverse.take 30).find? fun x => x.fromIp = e.fromIp ∧ x.toId = e.toId with
      | some x => decide (elapsedSecs e.tm x.tm < PUNCH_REQ_DEDUPE_SEC)
      | none => false
    if dup then q
    else (if q.length ≥ max then q.drop 1 else q) ++ [e]

section Exec

variable (E : Ext) (cfg : Settings)

/-- The registry key of an address. -/
def keyOf (addr : SocketAddr) : SocketAddr := E.hbb.tryIntoV4 addr

/-- What the history records of a section of the registration code: a record that
got an address. -/
def peerEvents (s : PeerStore) (cause : Cause) : PeerOp → List Event
  | .writeReg h addr _ _ _ => [.addrSet h.id cause (keyOf E addr)]
  | .updateAddr h addr =>
    if (s.recs h).requestPk addr then [] else [.addrSet h.id cause (keyOf E addr)]
  | _ => []

/-- Whether a message asks for a session. -/
def Msg.asksSession : Msg → Bool
  | .punchHoleRequest _ => true
  | .requestRelay _ => true
  | _ => false

/-- What each section does. -/
def SrvOp.exec (e : SrvEnv) : (o : SrvOp) → Server → Server × o.Res
  | .peer cause o, s =>
    ({ s with
        pm := (o.exec e.toEnv s.pm).1
        log := peerEvents E s.pm cause o ++ s.log }, (o.exec e.toEnv s.pm).2)
  | .mustLogin, s => (s, s.mustLogin)
  | .alwaysUseRelay, s => (s, s.alwaysUseRelay)
  | .verifyToken cause token, s =>
    ({ s with
        log := (if RustdeskServer.verifyToken E cfg.jwtSecret token e.utc then
          [.verified cause e.utc] else []) ++ s.log },
      RustdeskServer.verifyToken E cfg.jwtSecret token e.utc)
  | .recordPunchReq fromIp toIp toId, s =>
    ({ s with
        punchReqs := RustdeskServer.recordPunchReq cfg.punchReqMax s.punchReqs
          ⟨e.now, fromIp, toIp, toId⟩ }, ())
  | .getRelayServer _ _, s => (s, e.relay)
  | .cloneServer, s => (s, s.conf)
  | .setConf conf, s => ({ s with conf := conf }, ())
  | .registerWs cause addr c, s =>
    ({ s with
        wsPeers := s.wsPeers.insert (keyOf E addr) c
        log := (if cause.frame.asksSession then [.requested c (keyOf E addr)] else []) ++ s.log },
      ())
  | .pushWs cause addr msg, s =>
    match s.wsPeers.lookup (keyOf E addr) with
    | none => (s, false)
    | some c =>
      if c ∈ s.rxGone then ({ s with wsPeers := s.wsPeers.erase (keyOf E addr) }, false)
      else ({ s with log := .pushed cause (keyOf E addr) c msg :: s.log }, true)
  | .punchInsert addr c, s =>
    ({ s with
        tcpPunch := s.tcpPunch.insert (keyOf E addr) c
        log := .requested c (keyOf E addr) :: s.log }, ())
  | .punchRemove addr, s =>
    ({ s with tcpPunch := s.tcpPunch.erase (keyOf E addr) }, s.tcpPunch.lookup (keyOf E addr))
  | .sendSink cause c msg, s => ({ s with log := .sent cause c msg :: s.log }, ())
  | .sendUdp _ _, s => (s, ())
  | .sendData cause msg addr, s =>
    ({ s with queue := s.queue ++ [.msg msg addr], log := .queued cause msg addr :: s.log }, ())
  | .guardDrop addr c, s =>
    (if s.wsPeers.lookup (keyOf E addr) = some c then
        { s with wsPeers := s.wsPeers.erase (keyOf E addr) }
      else s, ())
  | .rxDrop c, s => ({ s with rxGone := c :: s.rxGone }, ())

/-- The handlers' machine. -/
def srvMachine : Machine SrvSig Server SrvEnv := ⟨SrvOp.exec E cfg⟩

variable {E cfg}

/-- Only parking puts a sink into `tcp_punch`. -/
theorem lookup_tcpPunch_exec {o : SrvOp} {e : SrvEnv} {s : Server} {key : SocketAddr} {j : ConnId}
    (hl : (o.exec E cfg e s).1.tcpPunch.lookup key = some j) :
    s.tcpPunch.lookup key = some j ∨ ∃ addr, o = .punchInsert addr j ∧ keyOf E addr = key := by
  cases o with
  | punchInsert addr c =>
    rw [show ((SrvOp.punchInsert addr c).exec E cfg e s).1.tcpPunch =
      s.tcpPunch.insert (keyOf E addr) c from rfl] at hl
    by_cases hk : key = keyOf E addr
    · subst hk
      rw [AList.lookup_insert, Option.some.injEq] at hl
      subst hl
      exact Or.inr ⟨addr, rfl, rfl⟩
    · rw [AList.lookup_insert_ne hk] at hl
      exact Or.inl hl
  | punchRemove addr =>
    rw [show ((SrvOp.punchRemove addr).exec E cfg e s).1.tcpPunch = s.tcpPunch.erase (keyOf E addr)
      from rfl] at hl
    by_cases hk : key = keyOf E addr
    · subst hk
      rw [AList.lookup_erase] at hl
      cases hl
    · rw [AList.lookup_erase_ne hk] at hl
      exact Or.inl hl
  | pushWs cause addr msg =>
    simp only [SrvOp.exec] at hl
    split at hl
    · exact Or.inl hl
    · split at hl <;> exact Or.inl hl
  | guardDrop addr c =>
    simp only [SrvOp.exec] at hl
    split at hl <;> exact Or.inl hl
  | _ => exact Or.inl hl

end Exec

/-- A program of the registration code, run on behalf of `cause`. -/
def liftPeer (cause : Cause) {α : Type} : Prog PeerSig α → Prog SrvSig α
  | .ret a => .ret a
  | .op o k => .op (.peer cause o) fun r => liftPeer cause (k r)

end RustdeskServer
