import RustdeskServer.Server

/-!
# The message handlers of the rendezvous server

`handle_tcp`, `handle_udp` and what they call, as programs over the sections of
`RustdeskServer.Server`, and on top of them the life of a connection
(`handle_listener_inner`) and of the main loop's UDP socket.

A connection's write half, its *sink*, is a local of its task until a TCP request
moves it into `tcp_punch`; `handleTcp` therefore takes and returns whether the
sink is still there.  Frames arrive parsed: `none` is a frame that does not parse.
What a TCP connection reads is what is left after decryption.

## Main definitions

* `authorize`, `handlePunchHoleRequest` — the gate in front of a punch-hole
  request, and the request itself.
* `handleTcp`, `handleUdp` — one frame, one datagram.
* `wsTask`, `tcpTask`, `udpTask`, `Task` — a websocket, a TCP connection, the UDP
  socket, and any of them.
-/

namespace RustdeskServer

open Atomic

/-- `REG_TIMEOUT`, milliseconds. -/
def REG_TIMEOUT : ℕ := 30000

/-- `Ipv6Addr::to_ipv4`: mapped and compatible addresses. -/
def IpAddr.toIpv4 (b : BitVec 128) : Option (BitVec 32) :=
  if b.toNat / 2 ^ 32 = 0 ∨ b.toNat / 2 ^ 32 = 0xffff then some (BitVec.ofNat 32 b.toNat) else none

/-- `is_lan`. -/
def isLan (inner : Inner) (addr : SocketAddr) : Bool :=
  match inner.mask with
  | none => false
  | some network =>
    match addr.ip with
    | .v4 b => network.contains b
    | .v6 b => match IpAddr.toIpv4 b with
      | some a => network.contains a
      | none => false

/-- Both addresses are of one family and equal. -/
def sameIp (a b : SocketAddr) : Bool :=
  match a.ip, b.ip with
  | .v4 x, .v4 y => x == y
  | .v6 x, .v6 y => x == y
  | _, _ => false

section Handlers

variable (E : Ext) (cfg : Settings) (snap : Snapshot)

/-! ### Sending -/

/-- `send_to_sink` on a connection's own sink, if it is still there. -/
def sendToSink (cause : Option Cause) (sink : Option ConnId) (msg : Msg) : Prog SrvSig Unit :=
  match sink with
  | some c => .op (.sendSink cause c msg) fun _ => .ret ()
  | none => .ret ()

/-- `send_to_tcp` and `send_to_tcp_sync`: the registry first, then a parked sink.
They differ only in that the first spawns the write. -/
def sendToTcp (cause : Cause) (msg : Msg) (addr : SocketAddr) : Prog SrvSig Unit :=
  .op (.pushWs cause addr msg) fun done : Bool =>
    if done then .ret ()
    else .op (.punchRemove addr) fun sink : Option ConnId => sendToSink (some cause) sink msg

/-- Hand a message to a peer: into its websocket's channel, or over UDP. -/
def forward (cause : Cause) (msg : Msg) (addr : SocketAddr) : Prog SrvSig Unit :=
  .op (.pushWs cause addr msg) fun done : Bool =>
    if done then .ret () else .op (.sendData cause msg addr) fun _ => .ret ()

/-! ### Punch-hole requests -/

/-- `get_pk`. -/
def getPk (cause : Cause) (version id : String) : Prog SrvSig Bytes :=
  match snap.inner.sk with
  | none => .ret []
  | some sk =>
    if version = "" then .ret []
    else do
      match ← liftPeer cause (PeerMap.get E.serde id) with
      | some peer => .op (.peer cause (.readPeer peer)) fun p : Peer => .ret (E.signIdPk sk id p.pk)
      | none => .ret []

/-- The two checks in front of a punch-hole request: the answer to refuse with, or
`none` to go on. -/
def authorize (cause : Cause) (ph : PunchHoleRequest) :
    Prog SrvSig (Option PunchHoleResponse) :=
  if cfg.key ≠ "" ∧ ph.licenceKey ≠ cfg.key then
    .ret (some { failure := some .licenseMismatch })
  else
    .op .mustLogin fun mustLogin : Bool =>
      if mustLogin then
        if ph.token = "" then
          .ret (some { otherFailure := "Connection failed, please login!" })
        else if cfg.jwtSecret ≠ "" then
          .op (.verifyToken cause ph.token) fun good : Bool =>
            if good then .ret none
            else .ret (some { otherFailure := "Token error, please log out and log back in!" })
        else .ret none
      else .ret none

/-- `handle_punch_hole_request` for a peer found at `peerAddr`: what to send it. -/
def punchMessage (cause : Cause) (addr : SocketAddr) (ph : PunchHoleRequest) (ws : Bool)
    (peerAddr : SocketAddr) : Prog SrvSig Msg :=
  .op (.recordPunchReq (E.hbb.tryIntoV4 addr).ip.toText (E.hbb.tryIntoV4 peerAddr).ip.toText ph.id)
    fun _ =>
  .op (.getRelayServer addr.ip peerAddr.ip) fun relay : String =>
  .op .alwaysUseRelay fun always : Bool =>
  .op (.peer cause .now) fun now : Instant =>
    let peerIsLan := isLan snap.inner peerAddr
    let lan := isLan snap.inner addr
    let force := always || (peerIsLan ^^ lan)
    let relay := if force && peerIsLan then snap.inner.localIp else relay
    let natType := if force then .symmetric else ph.natType
    let sameIntranet := !ws && (peerIsLan && lan || sameIp peerAddr addr)
    let socketAddr := E.hbb.encode now addr
    .ret (if sameIntranet then .fetchLocalAddr ⟨socketAddr, relay⟩
      else .punchHole ⟨socketAddr, natType, relay⟩)

/-- `handle_punch_hole_request`: a message, and the peer it is for, or `none` when
it is the requester's answer. -/
def handlePunchHoleRequest (cause : Cause) (addr : SocketAddr) (ph : PunchHoleRequest)
    (ws : Bool) : Prog SrvSig (Msg × Option SocketAddr) := do
  match ← authorize cfg cause ph with
  | some refusal => .ret (.punchHoleResponse refusal, none)
  | none =>
    match ← liftPeer cause (PeerMap.get E.serde ph.id) with
    | none => .ret (.punchHoleResponse { failure := some .idNotExist }, none)
    | some peer =>
      .op (.peer cause (.readPeer peer)) fun r : Peer =>
      .op (.peer cause .now) fun now : Instant =>
        if elapsedMillis now r.lastRegTime ≥ REG_TIMEOUT then
          .ret (.punchHoleResponse { failure := some .offline }, none)
        else do
          let msg ← punchMessage E snap cause addr ph ws r.socketAddr
          .ret (msg, some r.socketAddr)

/-- `handle_tcp_punch_hole_request`. -/
def handleTcpPunchHoleRequest (cause : Cause) (addr : SocketAddr) (ph : PunchHoleRequest)
    (ws : Bool) : Prog SrvSig Unit := do
  match ← handlePunchHoleRequest E cfg snap cause addr ph ws with
  | (msg, some peerAddr) => forward cause msg peerAddr
  | (msg, none) => sendToTcp cause msg addr

/-! ### Answers -/

/-- `handle_hole_sent`, over TCP. -/
def handleHoleSent (cause : Cause) (addr : SocketAddr) (phs : PunchHoleSent) :
    Prog SrvSig Unit :=
  .op (.peer cause .now) fun now : Instant => do
    let pk ← getPk E snap cause phs.version phs.id
    sendToTcp cause
      (.punchHoleResponse
        { socketAddr := E.hbb.encode now addr
          pk := pk
          relayServer := phs.relayServer
          natType := if E.natTypeKnown phs.natType then some phs.natType else none })
      (E.hbb.decode phs.socketAddr)

/-- `handle_local_addr`, over TCP. -/
def handleLocalAddr (cause : Cause) (la : LocalAddr) : Prog SrvSig Unit := do
  let pk ← getPk E snap cause la.version la.id
  sendToTcp cause
    (.punchHoleResponse
      { socketAddr := la.localAddr, pk := pk, relayServer := la.relayServer, isLocal := true })
    (E.hbb.decode la.socketAddr)

/-- The relay a `RelayResponse` goes out with. -/
def relayOfResponse (addr addrB : SocketAddr) (relayServer : String) : Prog SrvSig String :=
  if relayServer = "" then .ret relayServer
  else if isLan snap.inner addrB then .ret snap.inner.localIp
  else if relayServer = snap.inner.localIp then
    .op (.getRelayServer addr.ip addrB.ip) fun relay : String => .ret relay
  else .ret relayServer

/-- The `RelayResponse` arm of `handle_tcp`. -/
def handleRelayResponse (cause : Cause) (addr : SocketAddr) (rr : RelayResponse) :
    Prog SrvSig Unit := do
  let addrB := E.hbb.decode rr.socketAddr
  let union ← (if rr.idText = "" then .ret rr.union
    else do
      let pk ← getPk E snap cause rr.version rr.idText
      .ret (RelayResponseUnion.pk pk) : Prog SrvSig RelayResponseUnion)
  let relay ← relayOfResponse snap addr addrB rr.relayServer
  sendToTcp cause (.relayResponse ⟨[], union, relay, rr.version⟩) addrB

/-! ### Online status -/

/-- `peers_online_state` from index `i` on, over the bytes made so far. -/
def onlineFrom (cause : Cause) : List String → ℕ → Bytes → Prog SrvSig Bytes
  | [], _, states => .ret states
  | id :: ids, i, states =>
    .op (.peer cause (.mapGet id)) fun p : Option Handle =>
      match p with
      | none => onlineFrom cause ids (i + 1) states
      | some peer =>
        .op (.peer cause (.readPeer peer)) fun r : Peer =>
        .op (.peer cause .now) fun now : Instant =>
          onlineFrom cause ids (i + 1)
            (if elapsedMillis now r.lastRegTime < REG_TIMEOUT then
              states.modify (i / 8) fun b => b ||| UInt8.ofNat (2 ^ (7 - i % 8))
            else states)

/-- `peers_online_state`: one bit for each id, most significant first. -/
def peersOnlineState (cause : Cause) (peers : List String) : Prog SrvSig Bytes :=
  onlineFrom cause peers 0 (List.replicate ((peers.length + 7) / 8) 0)

/-! ### One frame, one datagram -/

/-- The configuration a peer with an older serial is sent. -/
def configFor (serial : ℤ) : Option ConfigUpdate :=
  if snap.inner.serial > serial then some ⟨snap.inner.serial, snap.rendezvousServers⟩ else none

/-- An acceptable id in a `RegisterPeer`. -/
def peerIdOk (id : String) : Bool := id != "" && decide (byteLen id ≤ MAX_PEER_ID_LEN)

/-- The route back to a requester: the registry for a websocket, `tcp_punch` for a
TCP connection whose sink is still there.  Returns the sink that is left. -/
def routeBack (cause : Cause) (addr : SocketAddr) (ws : Bool) (c : ConnId)
    (sink : Option ConnId) : Prog SrvSig (Option ConnId) :=
  if ws then .op (.registerWs cause addr c) fun _ => .ret sink
  else match sink with
    | some c => .op (.punchInsert addr c) fun _ => .ret none
    | none => .ret none

/-- `register_ws_peer`, for a websocket only. -/
def registerIfWs (cause : Cause) (addr : SocketAddr) (ws : Bool) (c : ConnId) :
    Prog SrvSig Unit :=
  if ws then .op (.registerWs cause addr c) fun _ => .ret () else .ret ()

/-- The `RequestRelay` arm of `handle_tcp`, after the route back is made. -/
def handleRequestRelay (cause : Cause) (addr : SocketAddr) (rf : RequestRelay) :
    Prog SrvSig Unit :=
  .op (.peer cause (.mapGet rf.id)) fun p : Option Handle =>
    match p with
    | none => .ret ()
    | some peer =>
      .op (.peer cause .now) fun now : Instant =>
      .op (.peer cause (.readPeer peer)) fun r : Peer =>
        forward cause (.requestRelay { rf with socketAddr := E.hbb.encode now addr }) r.socketAddr

/-- The `RegisterPeer` arm of `handle_tcp`. -/
def handleRegisterPeer (cause : Cause) (addr : SocketAddr) (ws : Bool) (c : ConnId)
    (sink : Option ConnId) (rp : RegisterPeer) : Prog SrvSig Unit :=
  if peerIdOk rp.id then do
    let requestPk ← liftPeer cause (updateAddr rp.id addr)
    sendToSink (some cause) sink (.registerPeerResponse requestPk)
    registerIfWs cause addr ws c
    match configFor snap rp.serial with
    | some cu => sendToSink (some cause) sink (.configureUpdate cu)
    | none => .ret ()
  else .ret ()

/-- `handle_tcp` on the frame number `no` of connection `c`: whether the connection
stays open, and the sink that is left. -/
def handleTcp (addr : SocketAddr) (ws : Bool) (c : ConnId) (sink : Option ConnId) (no : ℕ)
    (frame : Option Msg) : Prog SrvSig (Bool × Option ConnId) :=
  match frame with
  | none => .ret (ws, sink)
  | some frame =>
    let cause : Cause := ⟨if ws then .ws c else .tcp c, no, frame⟩
    match frame with
    | .punchHoleRequest ph => do
      let sink ← routeBack cause addr ws c sink
      handleTcpPunchHoleRequest E cfg snap cause addr ph ws
      .ret (true, sink)
    | .requestRelay rf => do
      let sink ← routeBack cause addr ws c sink
      handleRequestRelay E cause addr rf
      .ret (true, sink)
    | .relayResponse rr => do
      handleRelayResponse E snap cause addr rr
      .ret (ws, sink)
    | .punchHoleSent phs => do
      handleHoleSent E snap cause addr phs
      .ret (ws, sink)
    | .localAddr la => do
      handleLocalAddr E snap cause la
      .ret (ws, sink)
    | .testNatRequest serial => do
      sendToSink (some cause) sink (.testNatResponse addr.port.toNat (configFor snap serial))
      .ret (ws, sink)
    | .onlineRequest peers => do
      let states ← peersOnlineState cause peers
      sendToSink (some cause) sink (.onlineResponse states)
      .ret (ws, sink)
    | .registerPeer rp => do
      handleRegisterPeer snap cause addr ws c sink rp
      .ret (ws, sink)
    | .registerPk rk => do
      match ← liftPeer cause (handleRegisterPk E.serde rk addr ws) with
      | none => .ret (false, sink)
      | some res =>
        sendToSink (some cause) sink (.registerPkResponse res)
        if res = .ok then do
          registerIfWs cause addr ws c
          .ret (true, sink)
        else .ret (false, sink)
    | _ => .ret (ws, sink)

/-- `handle_udp` on the datagram number `no`, with the main loop's own configuration. -/
def handleUdp (addr : SocketAddr) (no : ℕ) (frame : Option Msg) : Prog SrvSig Unit :=
  match frame with
  | none => .ret ()
  | some frame =>
    let cause : Cause := ⟨.udp, no, frame⟩
    match frame with
    | .registerPeer rp =>
      if peerIdOk rp.id then do
        let requestPk ← liftPeer cause (updateAddr rp.id addr)
        .op (.sendUdp (.registerPeerResponse requestPk) addr) fun _ =>
        .op .cloneServer fun snap : Snapshot =>
          match configFor snap rp.serial with
          | some cu => .op (.sendUdp (.configureUpdate cu) addr) fun _ => .ret ()
          | none => .ret ()
      else .ret ()
    | .registerPk rk => do
      match ← liftPeer cause (handleRegisterPk E.serde rk addr false) with
      | some res => .op (.sendUdp (.registerPkResponse res) addr) fun _ => .ret ()
      | none => .ret ()
    | .configureUpdate cu =>
      .op .cloneServer fun snap : Snapshot =>
        if (E.hbb.tryIntoV4 addr).ip.isLoopback && decide (cu.serial > snap.inner.serial) then
          .op (.setConf ⟨{ snap.inner with serial := cu.serial },
            cu.rendezvousServers.filter fun x => x != "" && E.validServer x⟩) fun _ => .ret ()
        else .ret ()
    | .softwareUpdate url =>
      .op .cloneServer fun snap : Snapshot =>
        if snap.inner.version ≠ "" ∧ url ≠ snap.inner.version then
          .op (.sendUdp (.softwareUpdate snap.inner.softwareUrl) addr) fun _ => .ret ()
        else .ret ()
    -- punch-hole requests and their answers are not served over UDP
    | _ => .ret ()

end Handlers

/-! ### Connections -/

section Tasks

variable (E : Ext) (cfg : Settings)

/-- The read loop of a connection over the frames it will receive, from the frame
number `no` on: the sink that is left when the loop ends. -/
def readLoop (snap : Snapshot) (addr : SocketAddr) (ws : Bool) (c : ConnId) :
    List (Option Msg) → ℕ → Option ConnId → Prog SrvSig (Option ConnId)
  | [], _, sink => .ret sink
  | f :: fs, no, sink => do
    match ← handleTcp E cfg snap addr ws c sink no f with
    | (true, sink) => readLoop snap addr ws c fs (no + 1) sink
    | (false, sink) => .ret sink

/-- The end of `handle_listener_inner`. -/
def sinkCleanup (addr : SocketAddr) (sink : Option ConnId) : Prog SrvSig Unit :=
  match sink with
  | some _ => .ret ()
  | none => .op (.punchRemove addr) fun _ => .ret ()

/-- A websocket, from the handshake to its end, however it ends: `addr` is its
address after the headers were read, `frames` what it receives.  What arrives in its
channel is written to its own socket, and the idle timer only ends the loop, so
neither appears here. -/
def wsTask (c : ConnId) (addr : SocketAddr) (frames : List (Option Msg)) : Prog SrvSig Unit :=
  .op .cloneServer fun snap : Snapshot => do
    let sink ← readLoop E cfg snap addr true c frames 0 (some c)
    .op (.guardDrop addr c) fun _ => .op (.rxDrop c) fun _ => sinkCleanup addr sink

/-- A TCP connection. -/
def tcpTask (c : ConnId) (addr : SocketAddr) (frames : List (Option Msg)) : Prog SrvSig Unit :=
  .op .cloneServer fun snap : Snapshot => do
    let sink ← readLoop E cfg snap addr false c frames 0 (some c)
    sinkCleanup addr sink

/-- The UDP socket, over the datagrams it will receive, from the number `no` on. -/
def udpTask : List (SocketAddr × Option Msg) → ℕ → Prog SrvSig Unit
  | [], _ => .ret ()
  | (addr, f) :: fs, no => do
    handleUdp E addr no f
    udpTask fs (no + 1)

/-- What runs over the shared state: a websocket, a TCP connection, or the UDP socket. -/
inductive Task
  /-- `handle_listener_inner` on a websocket. -/
  | ws (c : ConnId) (addr : SocketAddr) (frames : List (Option Msg))
  /-- `handle_listener_inner` on a TCP connection. -/
  | tcp (c : ConnId) (addr : SocketAddr) (frames : List (Option Msg))
  /-- The UDP side of `io_loop`. -/
  | udp (datagrams : List (SocketAddr × Option Msg))

/-- The program of a task. -/
def Task.prog : Task → Prog SrvSig Unit
  | .ws c addr frames => wsTask E cfg c addr frames
  | .tcp c addr frames => tcpTask E cfg c addr frames
  | .udp datagrams => udpTask E datagrams 0

end Tasks
end RustdeskServer
