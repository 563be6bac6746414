import RustdeskServer.Net

/-!
# Rendezvous messages

`RendezvousMessage` and its variants, with the fields that the server reads or
writes.  The protocol files are not part of this repository, so a field the
server never looks at is left out, and an enumeration is known only by the values
the server names.

## Main definitions

* `Msg` — one variant of `RendezvousMessage`.
* `Msg.StartsSession` — the messages that start a session at the peer they reach.
-/

namespace RustdeskServer

/-- `register_pk_response::Result`: the values the server answers with. -/
inductive RegisterPkResult
  /-- Registered. -/
  | ok
  /-- The id is bound to another machine, or has a bad length. -/
  | uuidMismatch
  /-- Too many registrations. -/
  | tooFrequent
  /-- A database call failed. -/
  | serverError
  deriving DecidableEq

/-- `RegisterPk`. -/
structure RegisterPk where
  /-- The id to register. -/
  id : String
  /-- The machine. -/
  uuid : Bytes
  /-- Its public key. -/
  pk : Bytes
  deriving DecidableEq

/-- `RegisterPeer`. -/
structure RegisterPeer where
  /-- The id that registers. -/
  id : String
  /-- The serial of the configuration it has. -/
  serial : ℤ
  deriving DecidableEq

/-- `NatType`, as an open enumeration. -/
inductive NatType
  /-- `SYMMETRIC`, which forces a relay. -/
  | symmetric
  /-- Any other value. -/
  | other (raw : ℤ)
  deriving DecidableEq

/-- `PunchHoleRequest`. -/
structure PunchHoleRequest where
  /-- The peer to reach. -/
  id : String
  /-- The requester's NAT. -/
  natType : NatType
  /-- The server key the requester presents. -/
  licenceKey : String
  /-- Its login token. -/
  token : String
  deriving DecidableEq

/-- `PunchHole`. -/
structure PunchHole where
  /-- The requester, mangled. -/
  socketAddr : Bytes
  /-- The requester's NAT. -/
  natType : NatType
  /-- The relay to fall back to. -/
  relayServer : String
  deriving DecidableEq

/-- `FetchLocalAddr`. -/
structure FetchLocalAddr where
  /-- The requester, mangled. -/
  socketAddr : Bytes
  /-- The relay to fall back to. -/
  relayServer : String
  deriving DecidableEq

/-- `PunchHoleSent`. -/
structure PunchHoleSent where
  /-- The requester, mangled. -/
  socketAddr : Bytes
  /-- The peer that answers. -/
  id : String
  /-- The relay it names. -/
  relayServer : String
  /-- Its NAT. -/
  natType : NatType
  /-- Its version. -/
  version : String
  deriving DecidableEq

/-- `LocalAddr`. -/
structure LocalAddr where
  /-- The requester, mangled. -/
  socketAddr : Bytes
  /-- The local address of the peer that answers. -/
  localAddr : Bytes
  /-- The relay it names. -/
  relayServer : String
  /-- The peer that answers. -/
  id : String
  /-- Its version. -/
  version : String
  deriving DecidableEq

/-- `punch_hole_response::Failure`: the values the server answers with. -/
inductive Failure
  /-- No such peer. -/
  | idNotExist
  /-- The peer has not registered lately. -/
  | offline
  /-- The key is wrong. -/
  | licenseMismatch
  deriving DecidableEq

/-- `PunchHoleResponse`; a field left at its default is empty or `none`. -/
structure PunchHoleResponse where
  /-- The peer that answered, mangled, or its local address. -/
  socketAddr : Bytes := []
  /-- Its signed public key. -/
  pk : Bytes := []
  /-- Why there is no answer. -/
  failure : Option Failure := none
  /-- The NAT of the peer that answered. -/
  natType : Option NatType := none
  /-- The relay to fall back to. -/
  relayServer : String := ""
  /-- The address is a local one. -/
  isLocal : Bool := false
  /-- Why there is no answer, in words. -/
  otherFailure : String := ""
  deriving DecidableEq

/-- `RequestRelay`. -/
structure RequestRelay where
  /-- The peer to reach. -/
  id : String
  /-- The session, as the relay knows it. -/
  uuid : String
  /-- The requester, mangled; the server fills it in. -/
  socketAddr : Bytes
  /-- The server key the requester presents to the relay. -/
  licenceKey : String
  deriving DecidableEq

/-- The `union` of a `RelayResponse`. -/
inductive RelayResponseUnion
  /-- The peer that answers. -/
  | id (id : String)
  /-- Its signed public key. -/
  | pk (pk : Bytes)
  deriving DecidableEq

/-- `RelayResponse`. -/
structure RelayResponse where
  /-- The requester, mangled. -/
  socketAddr : Bytes
  /-- The peer that answers: its id on the way in, its key on the way out. -/
  union : RelayResponseUnion
  /-- The relay it names. -/
  relayServer : String
  /-- Its version. -/
  version : String
  deriving DecidableEq

/-- `RelayResponse::id()`, empty when the union is not an id. -/
def RelayResponse.idText (rr : RelayResponse) : String :=
  match rr.union with
  | .id id => id
  | .pk _ => ""

/-- `ConfigUpdate`. -/
structure ConfigUpdate where
  /-- The serial of the configuration. -/
  serial : ℤ
  /-- The rendezvous servers it lists. -/
  rendezvousServers : List String
  deriving DecidableEq

/-- One variant of `RendezvousMessage`. -/
inductive Msg
  | registerPeer (rp : RegisterPeer)
  | registerPeerResponse (requestPk : Bool)
  | registerPk (rk : RegisterPk)
  | registerPkResponse (result : RegisterPkResult)
  | punchHoleRequest (ph : PunchHoleRequest)
  | punchHole (ph : PunchHole)
  | fetchLocalAddr (fla : FetchLocalAddr)
  | punchHoleSent (phs : PunchHoleSent)
  | localAddr (la : LocalAddr)
  | punchHoleResponse (p : PunchHoleResponse)
  | requestRelay (rf : RequestRelay)
  | relayResponse (rr : RelayResponse)
  | configureUpdate (cu : ConfigUpdate)
  | softwareUpdate (url : String)
  | testNatRequest (serial : ℤ)
  | testNatResponse (port : ℕ) (cu : Option ConfigUpdate)
  | onlineRequest (peers : List String)
  | onlineResponse (states : Bytes)
  | keyExchange (keys : List Bytes)
  deriving DecidableEq

/-- The messages that start a session at the peer they reach. -/
def Msg.StartsSession : Msg → Bool
  | .punchHole _ => true
  | .fetchLocalAddr _ => true
  | .requestRelay _ => true
  | _ => false

/-- The messages that bring a requester its answer. -/
def Msg.IsReply : Msg → Bool
  | .punchHoleResponse _ => true
  | .relayResponse _ => true
  | _ => false

theorem Msg.startsSession_of_isReply {m : Msg} (h : m.IsReply = true) :
    m.StartsSession = false := by
  cases m with
  | punchHoleResponse p => rfl
  | relayResponse rr => rfl
  | _ => cases h

/-- `Data`: what the handlers and the console queue for the main loop. -/
inductive Data
  /-- Send a message over UDP. -/
  | msg (m : Msg) (addr : SocketAddr)
  /-- Configure the relay list. -/
  | relayServers0 (list : String)
  /-- Set the list of relays that answer. -/
  | relayServers (rs : List String)
  deriving DecidableEq

end RustdeskServer
