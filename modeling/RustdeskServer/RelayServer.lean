import RustdeskServer.Atomic.Interleave
import RustdeskServer.Message

/-!
# The relay server

`hbbr` brings the two ends of a session together.  Each connection is a task of its own:
it reads one `RequestRelay`, and either takes the stream that waits under the same `uuid`
out of `PEERS` and relays between the two, or puts its own stream there and waits half a
minute for a partner.  `PEERS`, `USAGE` and the two address lists are shared, each behind a
lock of its own; as in `hbbs`, one operation of `Sig` is one acquisition of a lock, one
read of an atomic, or one wait for the network or the clock.

A stream is known by its connection.  What is read from a stream is marked with where it
was read, and a *history* keeps who took, left and removed which stream and what was read
and sent.  Neither is ever looked at by the code.

A program is finite, so a connection brings with it how many turns its relay loop takes at
most; a session that lasts longer is one of a connection with more turns.  Rates are exact
here; the source computes the downgrade threshold in floating point.

## Main definitions

* `Stream`, `Chunk`, `Conn` — streams, what is read from them, and connections.
* `State`, `Event` — the state the tasks share, and its history.
* `Op`, `machine` — the sections and what they do.
* `relay`, `makePair_`, `handleConnection` — the code of a connection's task.
* `start` — the server before anything happened.
-/

namespace RustdeskServer

namespace Hbbr

open Atomic

/-! ### Streams and connections -/

/-- A connection, by the number of its task. -/
abbrev ConnId := ℕ

/-- `dyn StreamTrait`: the stream of a connection. -/
structure Stream where
  /-- Whose it is. -/
  conn : ConnId
  /-- `is_ws`. -/
  ws : Bool
  /-- Frames are read and written without their length. -/
  raw : Bool
  deriving DecidableEq

/-- `set_raw`: nothing, for a websocket. -/
def Stream.setRaw (s : Stream) : Stream := if s.ws then s else { s with raw := true }

@[simp] theorem Stream.setRaw_conn (s : Stream) : s.setRaw.conn = s.conn := by
  unfold Stream.setRaw
  split <;> rfl

/-- What one `recv` brings, marked with the stream it came from. -/
structure Chunk where
  /-- Where it was read. -/
  src : ConnId
  /-- The bytes. -/
  bytes : Bytes
  deriving DecidableEq

/-- What a turn of the relay loop wakes up for.  Without a chunk the stream has ended or
failed. -/
inductive Turn
  /-- `peer.recv()`. -/
  | peer (res : Option Chunk)
  /-- `stream.recv()`. -/
  | stream (res : Option Chunk)
  /-- `timer.tick()`. -/
  | tick

/-- `Usage`: milliseconds, bits, highest and current rate. -/
abbrev Usage := ℕ × ℕ × ℕ × ℕ

/-- The settings that are atomics. -/
inductive Param
  /-- `DOWNGRADE_THRESHOLD_100`. -/
  | downgradeThreshold100
  /-- `DOWNGRADE_START_CHECK`, milliseconds. -/
  | downgradeStartCheck
  /-- `LIMIT_SPEED`, bit/s. -/
  | limitSpeed
  /-- `SINGLE_BANDWIDTH`, bit/s. -/
  | singleBandwidth
  deriving DecidableEq

/-- The rate limiters of a session. -/
inductive Limiter
  /-- `limiter`, with its speed. -/
  | single (speed : ℕ)
  /-- `blacklist_limiter`, with its speed. -/
  | blacklist (speed : ℕ)
  /-- `total_limiter`, which all sessions share. -/
  | total
  deriving DecidableEq

/-! ### State -/

/-- What the history records. -/
inductive Event
  /-- `c` found nothing under `uuid`. -/
  | looked (c : ConnId) (uuid : String)
  /-- `c` took the stream of `peer` from under `uuid`. -/
  | paired (c peer : ConnId) (uuid : String)
  /-- `c` put its stream under `uuid`, in the place of another. -/
  | inserted (c : ConnId) (uuid : String) (dropped : Option ConnId) (tm : Instant)
  /-- The clean-up of `c` removed a stream from under `uuid`. -/
  | cleaned (c : ConnId) (uuid : String) (removed : Option ConnId) (tm : Instant)
  /-- Bytes were read from `src`. -/
  | received (src : ConnId) (bytes : Bytes)
  /-- A chunk was sent to `dst`. -/
  | sent (dst : ConnId) (chunk : Chunk)
  deriving DecidableEq

/-- The state the tasks share, with its history, newest event first. -/
structure State where
  /-- `PEERS`. -/
  peers : HashMap String Stream
  /-- `USAGE`. -/
  usage : HashMap String Usage
  /-- `BLACKLIST`. -/
  blacklist : List String
  /-- `BLOCKLIST`. -/
  blocklist : List String
  /-- The settings. -/
  params : Param → ℕ
  /-- The time of the last operation. -/
  clock : Instant
  /-- Until when each connection that waits sleeps. -/
  due : ConnId → Option Instant
  /-- What happened so far. -/
  log : List Event

/-- A connection: where it is from, and what it will bring. -/
structure Conn where
  /-- The address it was accepted from. -/
  tcpAddr : SocketAddr
  /-- It came in over the websocket port. -/
  ws : Bool
  /-- Its address after the websocket handshake, which may name another one. -/
  realAddr : SocketAddr
  /-- The first message, unless there is none within half a minute or the handshake fails. -/
  first : Option Msg
  /-- How many turns its relay loop takes at most. -/
  turns : ℕ
  /-- What its console command does to lists and settings, if it is one. -/
  command : State → State

/-- The address `make_pair_` is called with. -/
def Conn.addr (conn : Conn) : SocketAddr := if conn.ws then conn.realAddr else conn.tcpAddr

/-- What the network does when a turn waits for it. -/
inductive Input
  /-- The peer's stream brings bytes, or ends. -/
  | peer (res : Option Bytes)
  /-- The own stream brings bytes, or ends. -/
  | stream (res : Option Bytes)
  /-- Nothing before the timer. -/
  | tick

/-- What reaches a section from outside. -/
structure Env where
  /-- `Instant::now`. -/
  now : Instant
  /-- What wakes a turn up. -/
  input : Input
  /-- `send_raw` fails, with this error. -/
  sendFails : Option String

/-- A moment at which nothing arrives. -/
def Env.at (now : Instant) : Env := ⟨now, .tick, none⟩

/-! ### The sections -/

/-- The sections of the tasks. -/
inductive Op
  /-- `PEERS.lock().await.remove(&rf.uuid)`, by the connection that asks. -/
  | take (c : ConnId) (uuid : String)
  /-- `PEERS.lock().await.insert(rf.uuid.clone(), Box::new(stream))`. -/
  | insert (uuid : String) (stream : Stream)
  /-- `sleep(30.).await`, then `PEERS.lock().await.remove(&rf.uuid)`. -/
  | cleanUp (c : ConnId) (uuid : String)
  /-- `USAGE.write().await.insert(id, usage)`. -/
  | usageInsert (id : String) (usage : Usage)
  /-- `USAGE.write().await.remove(&id)`. -/
  | usageRemove (id : String)
  /-- `BLOCKLIST.read().await.get(&ip).is_some()`. -/
  | blocked (ip : String)
  /-- `BLACKLIST.read().await.get(&ip).is_some()`. -/
  | blacked (ip : String)
  /-- A setting is read. -/
  | load (p : Param)
  /-- `Instant::now`. -/
  | now
  /-- `tokio::select!` over the two streams and the timer. -/
  | select (stream peer : Stream)
  /-- `consume(nb).await`. -/
  | consume (limiter : Limiter) (nb : ℕ)
  /-- `send_raw`. -/
  | sendRaw (stream : Stream) (chunk : Chunk)
  /-- `check_cmd`: it may change lists, settings and usage, but not `PEERS`. -/
  | checkCmd (f : State → State)

/-- What a section answers. -/
@[reducible] def Op.Res : Op → Type
  | .take _ _ => Option Stream
  | .insert _ _ => Unit
  | .cleanUp _ _ => Unit
  | .usageInsert _ _ => Unit
  | .usageRemove _ => Unit
  | .blocked _ => Bool
  | .blacked _ => Bool
  | .load _ => ℕ
  | .now => Instant
  | .select _ _ => Turn
  | .consume _ _ => Unit
  | .sendRaw _ _ => Option String
  | .checkCmd _ => Unit

/-- The signature of the relay server. -/
abbrev RelaySig : Sig := ⟨Op, Op.Res⟩

/-- The events of reading from a stream. -/
def receivedFrom (src : ConnId) : Option Bytes → List Event
  | some bytes => [.received src bytes]
  | none => []

/-- What each section does, the clock apart. -/
def Op.act (e : Env) : (o : Op) → State → State × o.Res
  | .take c uuid, s =>
    match s.peers.lookup uuid with
    | some peer =>
      ({ s with
          peers := s.peers.erase uuid
          log := .paired c peer.conn uuid :: s.log }, some peer)
    | none => ({ s with log := .looked c uuid :: s.log }, none)
  | .insert uuid stream, s =>
    ({ s with
        peers := s.peers.insert uuid stream
        due := Function.update s.due stream.conn (some (e.now + 30000))
        log := .inserted stream.conn uuid ((s.peers.lookup uuid).map Stream.conn) e.now :: s.log }, ())
  | .cleanUp c uuid, s =>
    ({ s with
        peers := s.peers.erase uuid
        log := .cleaned c uuid ((s.peers.lookup uuid).map Stream.conn) e.now :: s.log }, ())
  | .usageInsert id usage, s => ({ s with usage := s.usage.insert id usage }, ())
  | .usageRemove id, s => ({ s with usage := s.usage.erase id }, ())
  | .blocked ip, s => (s, decide (ip ∈ s.blocklist))
  | .blacked ip, s => (s, decide (ip ∈ s.blacklist))
  | .load p, s => (s, s.params p)
  | .now, s => (s, e.now)
  | .select stream peer, s =>
    match e.input with
    | .peer res =>
      ({ s with log := receivedFrom peer.conn res ++ s.log },
        .peer (res.map fun bytes => ⟨peer.conn, bytes⟩))
    | .stream res =>
      ({ s with log := receivedFrom stream.conn res ++ s.log },
        .stream (res.map fun bytes => ⟨stream.conn, bytes⟩))
    | .tick => (s, .tick)
  | .consume _ _, s => (s, ())
  | .sendRaw stream chunk, s =>
    match e.sendFails with
    | some err => (s, some err)
    | none => ({ s with log := .sent stream.conn chunk :: s.log }, none)
  | .checkCmd f, s => ({ f s with peers := s.peers, due := s.due, log := s.log }, ())

/-- What each section does. -/
def Op.exec (e : Env) (o : Op) (s : State) : State × o.Res :=
  ({ (o.act e s).1 with clock := e.now }, (o.act e s).2)

/-- The relay server's machine. -/
def machine : Machine RelaySig State Env := ⟨Op.exec⟩

@[simp] theorem machine_exec (e : Env) (o : Op) (s : State) :
    machine.exec e o s = ({ (o.act e s).1 with clock := e.now }, (o.act e s).2) := rfl

/-! ### The relay loop -/

/-- What stays the same during a session. -/
structure Session where
  /-- The address the lists are asked for. -/
  ip : String
  /-- The key of its usage. -/
  id : String
  /-- The stream of the task. -/
  stream : Stream
  /-- The stream it took. -/
  peer : Stream
  /-- The speed of `limiter`. -/
  speed : ℕ
  /-- The speed of `blacklist_limiter`. -/
  limitSpeed : ℕ
  /-- `downgrade_threshold`, bit/ms. -/
  downgradeThreshold : ℕ

/-- The local variables of the loop. -/
structure Loop where
  /-- `tm`. -/
  tm : Instant
  /-- `elapsed`. -/
  elapsed : ℕ
  /-- `total`. -/
  total : ℕ
  /-- `total_s`. -/
  totalS : ℕ
  /-- `highest_s`. -/
  highestS : ℕ
  /-- `downgrade`. -/
  downgrade : Bool
  /-- `blacked`. -/
  blacked : Bool
  /-- `last_recv_time`. -/
  lastRecvTime : Instant

/-- A chunk is accounted for and goes to the other stream. -/
def forward (x : Session) (l : Loop) (dst : Stream) (chunk : Chunk) :
    Prog RelaySig (Except String Loop) :=
  .op .now fun now : Instant =>
    let nb := chunk.bytes.length * 8
    let limiter := if l.blacked || l.downgrade then .blacklist x.limitSpeed else .single x.speed
    .op (.consume limiter nb) fun _ =>
      .op (.consume .total nb) fun _ =>
        let l := { l with lastRecvTime := now, total := l.total + nb, totalS := l.totalS + nb }
        if chunk.bytes = [] then .ret (.ok l)
        else .op (.sendRaw dst chunk) fun err : Option String =>
          match err with
          | some err => .ret (.error err)
          | none => .ret (.ok l)

/-- One `tokio::select!`.  No loop is left to go on with after a `break`. -/
def turn (x : Session) (l : Loop) : Prog RelaySig (Except String (Option Loop)) :=
  .op (.select x.stream x.peer) fun t : Turn =>
    match t with
    | .peer (some chunk) => do
      let r ← forward x l x.stream chunk
      .ret (r.map some)
    | .peer none => .ret (.ok none)
    | .stream (some chunk) => do
      let r ← forward x l x.peer chunk
      .ret (r.map some)
    | .stream none => .ret (.ok none)
    | .tick => .op .now fun now : Instant =>
      if elapsedSecs now l.lastRecvTime > 30 then .ret (.error "Timeout") else .ret (.ok (some l))

/-- The accounting after each turn, once a second. -/
def account (x : Session) (l : Loop) : Prog RelaySig (Option Loop) :=
  .op .now fun now : Instant =>
    let n := elapsedMillis now l.tm
    if 1000 ≤ n then
      .op (.blocked x.ip) fun blocked : Bool =>
        if blocked then .ret none
        else .op (.blacked x.ip) fun blacked : Bool =>
          .op .now fun tm : Instant =>
            let speed := l.totalS / n
            let l := { l with
              blacked := blacked
              tm := tm
              highestS := if speed > l.highestS then speed else l.highestS
              elapsed := l.elapsed + n }
            .op (.usageInsert x.id (l.elapsed, l.total, l.highestS, speed)) fun _ =>
              let l := { l with totalS := 0 }
              .op (.load .downgradeStartCheck) fun startCheck : ℕ =>
                .ret (some (if l.elapsed > startCheck ∧ l.downgrade = false ∧
                    l.total > l.elapsed * x.downgradeThreshold then { l with downgrade := true }
                  else l))
    else .ret (some l)

/-- The loop of `relay`. -/
def relayLoop (x : Session) : ℕ → Loop → Prog RelaySig (Except String Unit)
  | 0, _ => .ret (.ok ())
  | n + 1, l => do
    let r ← turn x l
    match r with
    | .error err => .ret (.error err)
    | .ok none => .ret (.ok ())
    | .ok (some l) => do
      let l ← account x l
      match l with
      | none => .ret (.ok ())
      | some l => relayLoop x n l

/-- `relay`. -/
def relay (addr : SocketAddr) (stream peer : Stream) (id : String) (turns : ℕ) :
    Prog RelaySig (Except String Unit) :=
  .op .now fun tm : Instant =>
    .op (.load .singleBandwidth) fun sb : ℕ =>
      .op (.load .limitSpeed) fun limitSpeed : ℕ =>
        .op (.load .downgradeThreshold100) fun threshold : ℕ =>
          .op .now fun lastRecvTime : Instant =>
            relayLoop
              { ip := addr.ip.toText
                id := id
                stream := stream
                peer := peer
                speed := sb
                limitSpeed := limitSpeed
                downgradeThreshold := sb * threshold / 100000 }
              turns ⟨tm, 0, 0, 0, 0, false, false, lastRecvTime⟩

/-! ### A connection's task -/

/-- The part of `make_pair_` that has found a partner. -/
def pairedWith (conn : Conn) (stream peer : Stream) : Prog RelaySig Unit :=
  let id := conn.addr.ip.toText ++ ":" ++ toString conn.addr.port.toNat
  .op (.usageInsert id (0, 0, 0, 0)) fun _ => do
    -- only two plain streams are passed through without their frames
    let raw := !stream.ws && !peer.ws
    let _ ← relay conn.addr (if raw then stream.setRaw else stream)
      (if raw then peer.setRaw else peer) id conn.turns
    .op (.usageRemove id) fun _ => .ret ()

/-- The part of `make_pair_` that waits for one. -/
def waitFor (uuid : String) (stream : Stream) : Prog RelaySig Unit :=
  .op (.insert uuid stream) fun _ => .op (.cleanUp stream.conn uuid) fun _ => .ret ()

/-- `make_pair_`. -/
def makePair_ (key : String) (c : ConnId) (conn : Conn) : Prog RelaySig Unit :=
  match conn.first with
  | some (.requestRelay rf) =>
    if key ≠ "" ∧ rf.licenceKey ≠ key then .ret ()
    else if rf.uuid = "" then .ret ()
    else .op (.take c rf.uuid) fun peer : Option Stream =>
      match peer with
      | some peer => pairedWith conn ⟨c, conn.ws, false⟩ peer
      | none => waitFor rf.uuid ⟨c, conn.ws, false⟩
  | _ => .ret ()

/-- `handle_connection`, and the task it spawns. -/
def handleConnection (hbb : HbbCommon) (key : String) (c : ConnId) (conn : Conn) :
    Prog RelaySig Unit :=
  let ip := (hbb.tryIntoV4 conn.tcpAddr).ip
  if !conn.ws && ip.isLoopback then .op (.checkCmd conn.command) fun _ => .ret ()
  else .op (.blocked ip.toText) fun blocked : Bool =>
    if blocked then .ret () else makePair_ key c conn

/-- The functions of `hbb_common` that concrete runs use: every address is as it is. -/
def plainHbb : HbbCommon where
  tryIntoV4 := id
  encode := fun _ _ => []
  decode := fun _ => .unspecified

/-- A state of nothing, for concrete runs. -/
def State.blank : State := ⟨∅, ∅, [], [], fun _ => 0, 0, fun _ => none, []⟩

/-- A plain connection that asks for `uuid` with the key `key`. -/
def asking (uuid key : String) (turns : ℕ) : Conn where
  tcpAddr := ⟨.ofOctets 192 0 2 7, 21117⟩
  ws := false
  realAddr := ⟨.ofOctets 192 0 2 7, 21117⟩
  first := some (.requestRelay ⟨"", uuid, [], key⟩)
  turns := turns
  command := id

/-- The server with these connections before any of them is handled: lists and settings
are whatever they are, and nothing waits. -/
def start (hbb : HbbCommon) (key : String) (conns : ConnId → Conn) (s : State) :
    Config RelaySig State ConnId Unit where
  st := { s with peers := ∅, due := fun _ => none, log := [] }
  task c := handleConnection hbb key c (conns c)

end Hbbr

end RustdeskServer
