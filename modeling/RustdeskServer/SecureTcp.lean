import RustdeskServer.Rendezvous

/-!
# Encrypted TCP connections

A TCP connection may secure itself before it says anything else.  The server offers an
ephemeral public key, signed with its long-term key, and the client's first frame may be a
`KeyExchange` that carries a session key sealed to it.  From then on both directions are
encrypted, each with its own counter.

What the server decrypts with is a local of the read loop; what it encrypts with is a field
of the sink, and goes where the sink goes: into `tcp_punch`, and from there to whichever
task answers.  The sink has one owner at a time, so its cipher is kept here under the
number of the connection, and whoever holds the sink encrypts with it.

The other handlers are those of `RustdeskServer.Rendezvous`, run over a larger state.  The
traffic of every connection is recorded: when it was secured, which frames were acted on,
and what was written to it.

## Main definitions

* `Crypt` — the cipher and the wire format, which are outside this repository.
* `SecOp`, `secMachine` — the sections of the handlers and those of the key exchange.
* `keyExchangePhase1`, `secureLoop`, `secureTask` — a TCP connection over raw frames.
* `Link`, `securing` — what comes in, and the server over all of it.
-/

namespace RustdeskServer

open Atomic

/-- What `hbb_common` and `sodiumoxide` provide. -/
structure Crypt where
  /-- `tcp::Encrypt`. -/
  Encrypt : Type
  /-- `Encrypt::new`, from a `secretbox::Key`. -/
  new : Bytes → Encrypt
  /-- `Encrypt::enc`, which changes the cipher. -/
  enc : Encrypt → Bytes → Encrypt × Bytes
  /-- `Encrypt::dec`, which changes the cipher and may fail. -/
  dec : Encrypt → Bytes → Encrypt × Option Bytes
  /-- `Encrypt::decode`: the session key, from the sealed key, the client's public key and
  the server's ephemeral secret key. -/
  decode : Bytes → Bytes → Bytes → Option Bytes
  /-- `sign::sign`, of some bytes with a secret key. -/
  sign : Bytes → Bytes → Bytes
  /-- `RendezvousMessage::parse_from_bytes`. -/
  parse : Bytes → Option Msg
  /-- `write_to_bytes`. -/
  write : Msg → Option Bytes

/-! ### State and sections -/

/-- What is recorded of the traffic. -/
inductive Traffic
  /-- Frame `no` of connection `c` was a good phase 2 with this session key. -/
  | secured (c : ConnId) (no : ℕ) (key : Bytes)
  /-- Frame `no` of connection `c` came in as `raw` and went to `handle_tcp` as `bytes`. -/
  | acted (c : ConnId) (no : ℕ) (raw bytes : Bytes)
  /-- These bytes were written to connection `c`. -/
  | wrote (c : ConnId) (bytes : Bytes)
  deriving DecidableEq

/-- The state of the handlers, the cipher of each connection's sink, and the traffic,
newest first. -/
structure SecServer (K : Crypt) where
  /-- What the handlers share. -/
  srv : Server
  /-- `EncryptedSink::encrypt` of each sink. -/
  ciphers : ConnId → Option K.Encrypt
  /-- What happened so far. -/
  traffic : List Traffic

/-- What reaches a section from outside. -/
structure SecEnv extends SrvEnv where
  /-- What `box_::gen_keypair` makes: a public key and a secret key. -/
  keypair : Bytes × Bytes

/-- The sections of a connection. -/
inductive SecOp
  /-- A section of the handlers. -/
  | srv (o : SrvOp)
  /-- `box_::gen_keypair`. -/
  | genKeypair
  /-- A good phase 2 on frame `no` of connection `c`: the session key goes to the read loop
  and, by `Sink::set_key`, to the sink if it is there. -/
  | setKey (c : ConnId) (no : ℕ) (key : Bytes) (sink : Option ConnId)
  /-- `handle_tcp` is called on `bytes`, which came in as `raw`. -/
  | act (c : ConnId) (no : ℕ) (raw bytes : Bytes)

/-- What a section answers. -/
@[reducible] def SecOp.Res : SecOp → Type
  | .srv o => o.Res
  | .genKeypair => Bytes × Bytes
  | .setKey _ _ _ _ => Unit
  | .act _ _ _ _ => Unit

/-- The signature of a connection. -/
abbrev SecSig : Sig := ⟨SecOp, SecOp.Res⟩

section Exec

variable (E : Ext) (cfg : Settings) (K : Crypt)

/-- `Sink::send` on the sink of connection `c`. -/
def SecServer.send (s : SecServer K) (c : ConnId) (msg : Msg) : SecServer K :=
  match K.write msg with
  | none => s
  | some bytes =>
    match s.ciphers c with
    | none => { s with traffic := .wrote c bytes :: s.traffic }
    | some key =>
      { s with
        ciphers := Function.update s.ciphers c (some (K.enc key bytes).1)
        traffic := .wrote c (K.enc key bytes).2 :: s.traffic }

/-- `Sink::set_key`. -/
def SecServer.setKey (s : SecServer K) (c : ConnId) (key : Bytes) : SecServer K :=
  { s with ciphers := Function.update s.ciphers c (some (K.new key)) }

/-- What each section does. -/
def SecOp.exec (e : SecEnv) : (o : SecOp) → SecServer K → SecServer K × o.Res
  | .srv o, s =>
    let s' := { s with srv := (o.exec E cfg e.toSrvEnv s.srv).1 }
    (match o with
      | .sendSink _ c msg => s'.send K c msg
      | _ => s', (o.exec E cfg e.toSrvEnv s.srv).2)
  | .genKeypair, s => (s, e.keypair)
  | .setKey c no key sink, s =>
    let s' := { s with traffic := .secured c no key :: s.traffic }
    (match sink with
      | some c' => s'.setKey K c' key
      | none => s', ())
  | .act c no raw bytes, s => ({ s with traffic := .acted c no raw bytes :: s.traffic }, ())

/-- The machine of the connections. -/
def secMachine : Machine SecSig (SecServer K) SecEnv := ⟨SecOp.exec E cfg K⟩

end Exec

/-- A program of the handlers. -/
def liftSrv {α : Type} : Prog SrvSig α → Prog SecSig α
  | .ret a => .ret a
  | .op o k => .op (.srv o) fun r => liftSrv (k r)

/-! ### A TCP connection -/

section Tcp

variable (E : Ext) (cfg : Settings) (K : Crypt)

/-- `key_exchange_phase1`: the secret half of the ephemeral key that was offered. -/
def keyExchangePhase1 (snap : Snapshot) (sink : Option ConnId) : Prog SecSig (Option Bytes) :=
  match snap.inner.sk with
  | none => .ret none
  | some sk =>
    .op .genKeypair fun kp : Bytes × Bytes => do
      liftSrv (sendToSink none sink (.keyExchange [K.sign kp.1 sk]))
      .ret (some kp.2)

/-- What becomes of a frame that is looked at as a phase 2. -/
inductive Phase2
  /-- It is none, and goes to `handle_tcp`. -/
  | other
  /-- It is one that does not do, and the connection is closed. -/
  | bad
  /-- It carries this session key. -/
  | good (key : Bytes)
  deriving DecidableEq

/-- The frame `bytes` against what `handshake_sk.take()` gave. -/
def phase2 (handshakeSk : Option Bytes) (bytes : Bytes) : Phase2 :=
  match handshakeSk with
  | none => .other
  | some skB =>
    match K.parse bytes with
    | some (.keyExchange keys) =>
      match keys with
      | [theirPk, sealedKey] =>
        match K.decode sealedKey theirPk skB with
        | some sym => .good sym
        | none => .bad
      | _ => .bad
    | _ => .other

/-- `crypt.dec` on a frame, if the connection is encrypted: the cipher after it, and the
frame, or none if it fails. -/
def decFrame (recvEncrypt : Option K.Encrypt) (raw : Bytes) : Option K.Encrypt × Option Bytes :=
  match recvEncrypt with
  | some crypt => (some (K.dec crypt raw).1, (K.dec crypt raw).2)
  | none => (none, some raw)

/-- The read loop of a TCP connection over the frames that come in, from the frame number
`no` on: the sink that is left when the loop ends. -/
def secureLoop (snap : Snapshot) (addr : SocketAddr) (c : ConnId) :
    List Bytes → ℕ → Option Bytes → Option K.Encrypt → Option ConnId →
      Prog SecSig (Option ConnId)
  | [], _, _, _, sink => .ret sink
  | raw :: fs, no, handshakeSk, recvEncrypt, sink =>
    let recv := (decFrame K recvEncrypt raw).1
    match (decFrame K recvEncrypt raw).2 with
    -- a frame that does not decrypt ends the connection
    | none => .ret sink
    | some bytes =>
      match phase2 K handshakeSk bytes with
      | .bad => .ret sink
      | .good key =>
        .op (.setKey c no key sink) fun _ =>
          secureLoop snap addr c fs (no + 1) none (some (K.new key)) sink
      | .other =>
        .op (.act c no raw bytes) fun _ => do
          match ← liftSrv (handleTcp E cfg snap addr false c sink no (K.parse bytes)) with
          | (true, sink) => secureLoop snap addr c fs (no + 1) none recv sink
          | (false, sink) => .ret sink

/-- `handle_listener_inner` on a TCP connection. -/
def secureTask (c : ConnId) (addr : SocketAddr) (frames : List Bytes) : Prog SecSig Unit :=
  .op (.srv .cloneServer) fun snap : Snapshot => do
    let handshakeSk ← (if cfg.key ≠ "" then keyExchangePhase1 K snap (some c) else .ret none :
      Prog SecSig (Option Bytes))
    let sink ← secureLoop E cfg K snap addr c frames 0 handshakeSk none (some c)
    liftSrv (sinkCleanup addr sink)

/-! ### The server over its connections -/

/-- What the server listens to.  A websocket is never encrypted here, and its frames and
the datagrams come parsed. -/
inductive Link
  /-- A websocket. -/
  | ws (addr : SocketAddr) (frames : List (Option Msg))
  /-- A TCP connection and the raw frames that come in over it. -/
  | tcp (addr : SocketAddr) (frames : List Bytes)
  /-- The UDP socket. -/
  | udp (datagrams : List (SocketAddr × Option Msg))

/-- The task that serves connection `c`. -/
def Link.prog (c : ConnId) : Link → Prog SecSig Unit
  | .ws addr frames => liftSrv (wsTask E cfg c addr frames)
  | .tcp addr frames => secureTask E cfg K c addr frames
  | .udp datagrams => liftSrv (udpTask E datagrams 0)

/-- The server `s` with its connections, none of which has begun. -/
def securing (s : Server) (links : ConnId → Link) : Config SecSig (SecServer K) ConnId Unit :=
  ⟨⟨s, fun _ => none, []⟩, fun i => (links i).prog E cfg K i⟩

end Tcp
end RustdeskServer
