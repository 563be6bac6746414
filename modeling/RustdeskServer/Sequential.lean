import RustdeskServer.Atomic.Trace
import RustdeskServer.Rendezvous

/-!
# Messages handled one at a time

Seen from outside one message at a time, `hbbs` is a deterministic system: a
datagram, a frame on a connection, a question on the NAT-test port, or a restart,
each under one reading of the clock and one pattern of database failures, leads
from one state to the next.

What an input does to the peer store is one of very few things, `PmStep`, which is
all that the results about identities need.

## Main definitions

* `Input`, `Server.step` — the inputs, and the state after one.
* `Input.registerPk?`, `answer`, `AnsweredOk` — the registration an input carries,
  and how `handle_register_pk` answers it.
* `PmStep` — what an input can do to the peer store.

## Main results

* `run_liftPeer` — registration code run by a handler is registration code.
* `pmStep_step` — **every input does to the peer store one of the things `PmStep` lists.**
* `frame_reached` — what a frame handled to its end leads to is reached when handlers
  interleave.
-/

namespace RustdeskServer

open Atomic

section Frame

variable {E : Ext} {cfg : Settings} {α β : Type}

@[simp] theorem srvMachine_exec (e : SrvEnv) (o : SrvOp) (s : Server) :
    (srvMachine E cfg).exec e o s = o.exec E cfg e s := rfl

/-- **Registration code run by a handler is registration code**: same effect on the
peer store, same result. -/
theorem run_liftPeer (e : SrvEnv) (cause : Cause) (p : Prog PeerSig α) (s : Server) :
    ((srvMachine E cfg).run e (liftPeer cause p) s).1.pm = (peerMachine.run e.toEnv p s.pm).1 ∧
      ((srvMachine E cfg).run e (liftPeer cause p) s).2 = (peerMachine.run e.toEnv p s.pm).2 := by
  induction p generalizing s with
  | ret a => exact ⟨rfl, rfl⟩
  | op o k ih => exact ih _ _

/-- The sections that only read the peer store. -/
def PeerOp.ReadOnly : PeerOp → Bool
  | .now => true
  | .mapGet _ => true
  | .dbGetPeer _ => true
  | .readPeer _ => true
  | _ => false

/-- The sections that leave the peer store as it is. -/
def SrvOp.KeepsPm : SrvOp → Prop
  | .peer _ o => o.ReadOnly = true
  | _ => True

theorem PeerOp.exec_readOnly {o : PeerOp} (h : o.ReadOnly = true) (e : Env) (s : PeerStore) :
    (o.exec e s).1 = s := by
  cases o <;> simp_all [PeerOp.ReadOnly, PeerOp.exec]

theorem SrvOp.exec_keepsPm {o : SrvOp} (h : o.KeepsPm) (e : SrvEnv) (s : Server) :
    (o.exec E cfg e s).1.pm = s.pm := by
  cases o with
  | peer cause o => exact PeerOp.exec_readOnly h e.toEnv s.pm
  | pushWs cause addr msg =>
    simp only [SrvOp.exec]
    split
    · rfl
    · split <;> rfl
  | guardDrop addr c =>
    simp only [SrvOp.exec]
    split <;> rfl
  | _ => rfl

/-- A program of sections that leave the peer store alone leaves it alone. -/
theorem run_keepsPm (e : SrvEnv) {p : Prog SrvSig α} (h : p.All SrvOp.KeepsPm) (s : Server) :
    ((srvMachine E cfg).run e p s).1.pm = s.pm :=
  (srvMachine E cfg).run_inv (R := fun s t => t.pm = s.pm) (fun _ => rfl)
    (fun h₁ h₂ => h₂.trans h₁) e (fun _ s h => SrvOp.exec_keepsPm h e s) h s

/-- The sections that change none of the peer store, the configuration, the registry of
websockets and the parked sinks, except by dropping an entry or taking a sink out. -/
def SrvOp.Plain : SrvOp → Prop
  | .peer _ o => o.ReadOnly = true
  | .setConf _ => False
  | .registerWs _ _ _ => False
  | .punchInsert _ _ => False
  | .guardDrop _ _ => False
  | .rxDrop _ => False
  | _ => True

theorem SrvOp.Plain.keepsPm (o : SrvOp) (h : o.Plain) : o.KeepsPm := by
  cases o with
  | peer cause o => exact h
  | _ => trivial

/-! ### The parts of the handlers that are made of plain sections -/

section Plain

variable {P : SrvOp → Prop} (hP : ∀ o : SrvOp, o.Plain → P o)
include hP

theorem all_sendToSink (cause : Option Cause) (sink : Option ConnId) (msg : Msg) :
    (sendToSink cause sink msg).All P := by
  cases sink with
  | none => trivial
  | some c => exact ⟨hP _ trivial, fun _ => trivial⟩

theorem all_sendToTcp (cause : Cause) (msg : Msg) (addr : SocketAddr) :
    (sendToTcp cause msg addr).All P := by
  refine ⟨hP _ trivial, ?_⟩
  intro done
  cases done with
  | true => trivial
  | false => exact ⟨hP _ trivial, fun sink => all_sendToSink hP _ sink msg⟩

theorem all_forward (cause : Cause) (msg : Msg) (addr : SocketAddr) :
    (forward cause msg addr).All P := by
  refine ⟨hP _ trivial, ?_⟩
  intro done
  cases done with
  | true => trivial
  | false => exact ⟨hP _ trivial, fun _ => trivial⟩

theorem all_authorize (cause : Cause) (ph : PunchHoleRequest) :
    (authorize cfg cause ph).All P := by
  unfold authorize
  refine Prog.All.ite trivial ⟨hP _ trivial, ?_⟩
  intro mustLogin
  refine Prog.All.ite (Prog.All.ite trivial (Prog.All.ite ⟨hP _ trivial, fun good => ?_⟩ trivial))
    trivial
  exact Prog.All.ite trivial trivial

theorem all_punchMessage (snap : Snapshot) (cause : Cause) (addr : SocketAddr)
    (ph : PunchHoleRequest) (ws : Bool) (peerAddr : SocketAddr) :
    (punchMessage E snap cause addr ph ws peerAddr).All P :=
  ⟨hP _ trivial, fun _ => ⟨hP _ trivial, fun _ => ⟨hP _ trivial, fun _ => ⟨hP _ rfl,
    fun _ => trivial⟩⟩⟩⟩

theorem all_onlineFrom (cause : Cause) (ids : List String) (i : ℕ) (states : Bytes) :
    (onlineFrom cause ids i states).All P := by
  induction ids generalizing i states with
  | nil => trivial
  | cons id ids ih =>
    refine ⟨hP _ rfl, ?_⟩
    intro p
    cases p with
    | none => exact ih _ _
    | some peer => exact ⟨hP _ rfl, fun r => ⟨hP _ rfl, fun now => ih _ _⟩⟩

theorem all_handleRequestRelay (cause : Cause) (addr : SocketAddr) (rf : RequestRelay) :
    (handleRequestRelay E cause addr rf).All P := by
  refine ⟨hP _ rfl, ?_⟩
  intro p
  cases p with
  | none => trivial
  | some peer => exact ⟨hP _ rfl, fun now => ⟨hP _ rfl, fun r => all_forward hP _ _ _⟩⟩

theorem all_relayOfResponse (snap : Snapshot) (addr addrB : SocketAddr) (relay : String) :
    (relayOfResponse snap addr addrB relay).All P :=
  Prog.All.ite trivial (Prog.All.ite trivial
    (Prog.All.ite ⟨hP _ trivial, fun _ => trivial⟩ trivial))

end Plain

theorem all_routeBack (cause : Cause) (addr : SocketAddr) (ws : Bool) (c : ConnId)
    (sink : Option ConnId) : (routeBack cause addr ws c sink).All SrvOp.KeepsPm := by
  unfold routeBack
  refine Prog.All.ite ⟨trivial, fun _ => trivial⟩ ?_
  cases sink with
  | none => trivial
  | some c => exact ⟨trivial, fun _ => trivial⟩

theorem all_registerIfWs (cause : Cause) (addr : SocketAddr) (ws : Bool) (c : ConnId) :
    (registerIfWs cause addr ws c).All SrvOp.KeepsPm :=
  Prog.All.ite ⟨trivial, fun _ => trivial⟩ trivial

/-- A program whose last part leaves the peer store alone. -/
theorem run_bind_keepsPm (e : SrvEnv) (p : Prog SrvSig α) {f : α → Prog SrvSig β}
    (hf : ∀ a, (f a).All SrvOp.KeepsPm) (s : Server) :
    ((srvMachine E cfg).run e (p >>= f) s).1.pm = ((srvMachine E cfg).run e p s).1.pm := by
  rw [Machine.run_bind, run_keepsPm e (hf _)]

/-! ### The parts that look a peer up -/

/-- The store after at most one `PeerMap::get`. -/
def Loads (J : Serde) (e : Env) (s t : PeerStore) : Prop :=
  t = s ∨ ∃ id, t = (peerMachine.run e (PeerMap.get J id) s).1

/-- A program that changes the peer store by at most one `PeerMap::get`. -/
def LoadsOnly (E : Ext) (cfg : Settings) (e : SrvEnv) (p : Prog SrvSig α) : Prop :=
  ∀ s, Loads E.serde e.toEnv s.pm ((srvMachine E cfg).run e p s).1.pm

variable {e : SrvEnv}

theorem loadsOnly_of_all {p : Prog SrvSig α} (h : p.All SrvOp.KeepsPm) : LoadsOnly E cfg e p :=
  fun s => Or.inl (run_keepsPm e h s)

theorem loadsOnly_get (cause : Cause) (id : String) :
    LoadsOnly E cfg e (liftPeer cause (PeerMap.get E.serde id)) :=
  fun s => Or.inr ⟨id, (run_liftPeer e cause _ s).1⟩

theorem LoadsOnly.bind_all {p : Prog SrvSig α} {f : α → Prog SrvSig β} (hp : LoadsOnly E cfg e p)
    (hf : ∀ a, (f a).All SrvOp.KeepsPm) : LoadsOnly E cfg e (p >>= f) := by
  intro s
  rw [run_bind_keepsPm e p hf]
  exact hp s

theorem LoadsOnly.all_bind {p : Prog SrvSig α} {f : α → Prog SrvSig β} (hp : p.All SrvOp.KeepsPm)
    (hf : ∀ a, LoadsOnly E cfg e (f a)) : LoadsOnly E cfg e (p >>= f) := by
  intro s
  have h := hf ((srvMachine E cfg).run e p s).2 ((srvMachine E cfg).run e p s).1
  rw [run_keepsPm e hp] at h
  rw [Machine.run_bind]
  exact h

theorem LoadsOnly.op {o : SrvOp} {k : SrvOp.Res o → Prog SrvSig α} (ho : o.KeepsPm)
    (hk : ∀ r, LoadsOnly E cfg e (k r)) : LoadsOnly E cfg e (.op o k) := by
  intro s
  have h := hk (o.exec E cfg e s).2 (o.exec E cfg e s).1
  rw [SrvOp.exec_keepsPm ho] at h
  exact h

theorem loadsOnly_getPk (snap : Snapshot) (cause : Cause) (version id : String) :
    LoadsOnly E cfg e (getPk E snap cause version id) := by
  unfold getPk
  cases snap.inner.sk with
  | none => exact loadsOnly_of_all trivial
  | some sk =>
    by_cases hv : version = ""
    · simp only [hv, if_true]
      exact loadsOnly_of_all trivial
    · simp only [hv, if_false]
      refine (loadsOnly_get cause id).bind_all ?_
      intro p
      cases p with
      | none => trivial
      | some peer => exact ⟨rfl, fun _ => trivial⟩

theorem loadsOnly_handlePunchHoleRequest (snap : Snapshot) (cause : Cause) (addr : SocketAddr)
    (ph : PunchHoleRequest) (ws : Bool) :
    LoadsOnly E cfg e (handlePunchHoleRequest E cfg snap cause addr ph ws) := by
  refine LoadsOnly.all_bind (all_authorize SrvOp.Plain.keepsPm cause ph) ?_
  intro refusal
  cases refusal with
  | some refusal => exact loadsOnly_of_all trivial
  | none =>
    refine (loadsOnly_get cause ph.id).bind_all ?_
    intro p
    cases p with
    | none => trivial
    | some peer =>
      refine ⟨rfl, fun r => ⟨rfl, ?_⟩⟩
      intro now
      refine Prog.All.ite trivial ?_
      exact (all_punchMessage SrvOp.Plain.keepsPm snap cause addr ph ws _).bind fun _ => trivial

theorem loadsOnly_handleTcpPunchHoleRequest (snap : Snapshot) (cause : Cause)
    (addr : SocketAddr) (ph : PunchHoleRequest) (ws : Bool) :
    LoadsOnly E cfg e (handleTcpPunchHoleRequest E cfg snap cause addr ph ws) := by
  refine (loadsOnly_handlePunchHoleRequest snap cause addr ph ws).bind_all ?_
  intro res
  obtain ⟨msg, peerAddr⟩ := res
  cases peerAddr with
  | none => exact all_sendToTcp SrvOp.Plain.keepsPm cause msg addr
  | some peerAddr => exact all_forward SrvOp.Plain.keepsPm cause msg peerAddr

theorem loadsOnly_handleHoleSent (snap : Snapshot) (cause : Cause) (addr : SocketAddr)
    (phs : PunchHoleSent) : LoadsOnly E cfg e (handleHoleSent E snap cause addr phs) :=
  .op rfl fun _ => (loadsOnly_getPk snap cause _ _).bind_all fun _ =>
    all_sendToTcp SrvOp.Plain.keepsPm _ _ _

theorem loadsOnly_handleLocalAddr (snap : Snapshot) (cause : Cause) (la : LocalAddr) :
    LoadsOnly E cfg e (handleLocalAddr E snap cause la) :=
  (loadsOnly_getPk snap cause _ _).bind_all fun _ => all_sendToTcp SrvOp.Plain.keepsPm _ _ _

theorem loadsOnly_handleRelayResponse (snap : Snapshot) (cause : Cause) (addr : SocketAddr)
    (rr : RelayResponse) : LoadsOnly E cfg e (handleRelayResponse E snap cause addr rr) := by
  have hrest : ∀ union : RelayResponseUnion,
      ((relayOfResponse snap addr (E.hbb.decode rr.socketAddr) rr.relayServer) >>= fun relay =>
        sendToTcp cause (.relayResponse ⟨[], union, relay, rr.version⟩)
          (E.hbb.decode rr.socketAddr)).All SrvOp.KeepsPm :=
    fun union => (all_relayOfResponse SrvOp.Plain.keepsPm snap addr _ _).bind fun _ =>
      all_sendToTcp SrvOp.Plain.keepsPm _ _ _
  unfold handleRelayResponse
  by_cases hid : rr.idText = ""
  · simp only [hid, if_true]
    exact loadsOnly_of_all (hrest rr.union)
  · simp only [hid, if_false]
    refine LoadsOnly.bind_all ?_ hrest
    exact (loadsOnly_getPk snap cause _ _).bind_all fun _ => trivial

end Frame

/-! ### One input after another -/

/-- An input, handled to its end before the next. -/
inductive Input
  /-- A UDP datagram from `addr`. -/
  | datagram (addr : SocketAddr) (frame : Option Msg)
  /-- A frame on connection `c`, which opened when the configuration was `snap`. -/
  | frame (snap : Snapshot) (addr : SocketAddr) (ws : Bool) (c : ConnId) (sink : Option ConnId)
      (frame : Option Msg)
  /-- An `OnlineRequest` on the NAT-test port, which has no other message that
  looks at a peer. -/
  | online (peers : List String)
  /-- The process ends, and one with these switches starts on the same database. -/
  | restart (mustLogin alwaysUseRelay : Bool) (conf : Snapshot)

section Step

variable (E : Ext) (cfg : Settings)

/-- The server after one input. -/
def Server.step (s : Server) (x : SrvEnv × Input) : Server :=
  match x.2 with
  | .datagram addr frame => ((srvMachine E cfg).run x.1 (handleUdp E addr 0 frame) s).1
  | .frame snap addr ws c sink frame =>
    ((srvMachine E cfg).run x.1 (handleTcp E cfg snap addr ws c sink 0 frame) s).1
  | .online peers =>
    ((srvMachine E cfg).run x.1 (peersOnlineState ⟨.tcp 0, 0, .onlineRequest peers⟩ peers) s).1
  | .restart mustLogin alwaysUseRelay conf => .start s.pm.db mustLogin alwaysUseRelay conf

end Step

/-- The registration an input carries, with its address and whether it came over a
websocket. -/
def Input.registerPk? : Input → Option (RegisterPk × SocketAddr × Bool)
  | .datagram addr (some (.registerPk rk)) => some (rk, addr, false)
  | .frame _ addr ws _ _ (some (.registerPk rk)) => some (rk, addr, ws)
  | _ => none

/-- How `handle_register_pk` answers. -/
def answer (J : Serde) (e : Env) (s : PeerStore) (rk : RegisterPk) (addr : SocketAddr)
    (ws : Bool) : Option RegisterPkResult :=
  (peerMachine.run e (handleRegisterPk J rk addr ws) s).2

/-- The input is a registration, and it is answered `ok`. -/
def AnsweredOk (J : Serde) (e : Env) (s : PeerStore) (i : Input) (rk : RegisterPk)
    (addr : SocketAddr) : Prop :=
  ∃ ws, i.registerPk? = some (rk, addr, ws) ∧ answer J e s rk addr ws = some .ok

/-- Everything an input can do to the peer store. -/
inductive PmStep (J : Serde) (e : Env) (i : Input) (s t : PeerStore) : Prop
  /-- A registration. -/
  | reg {rk : RegisterPk} {addr : SocketAddr} {ws : Bool} (hi : i.registerPk? = some (rk, addr, ws))
      (h : RegStep J e rk addr ws s t (answer J e s rk addr ws))
  /-- A `RegisterPeer`. -/
  | refresh (hi : i.registerPk? = none) (id : String) (addr : SocketAddr)
      (h : t = (peerMachine.run e (updateAddr id addr) s).1)
  /-- Any other message: at most a lookup. -/
  | loads (hi : i.registerPk? = none) (h : Loads J e s t)
  /-- A restart. -/
  | restart (hi : i.registerPk? = none) (h : t = s.restart)

section Steps

variable {E : Ext} {cfg : Settings}

/-- A `RegisterPeer` over a connection refreshes the address, then the answer goes out. -/
theorem pm_handleTcp_registerPeer (e : SrvEnv) (snap : Snapshot) (addr : SocketAddr) (ws : Bool)
    (c : ConnId) (sink : Option ConnId) (no : ℕ) {rp : RegisterPeer} (hid : peerIdOk rp.id = true)
    (s : Server) :
    ((srvMachine E cfg).run e
        (handleTcp E cfg snap addr ws c sink no (some (.registerPeer rp))) s).1.pm =
      (peerMachine.run e.toEnv (updateAddr rp.id addr) s.pm).1 := by
  simp only [handleTcp, handleRegisterPeer, hid, if_true]
  rw [run_bind_keepsPm e _ fun _ => Prog.all_ret _ _, run_bind_keepsPm, (run_liftPeer e _ _ s).1]
  intro requestPk
  refine (all_sendToSink SrvOp.Plain.keepsPm _ sink _).bind ?_
  intro _
  refine (all_registerIfWs _ addr ws c).bind ?_
  intro _
  cases configFor snap rp.serial with
  | none => trivial
  | some cu => exact all_sendToSink SrvOp.Plain.keepsPm _ sink _

/-- A `RegisterPeer` over UDP. -/
theorem pm_handleUdp_registerPeer (e : SrvEnv) (addr : SocketAddr) (no : ℕ) {rp : RegisterPeer}
    (hid : peerIdOk rp.id = true) (s : Server) :
    ((srvMachine E cfg).run e (handleUdp E addr no (some (.registerPeer rp))) s).1.pm =
      (peerMachine.run e.toEnv (updateAddr rp.id addr) s.pm).1 := by
  simp only [handleUdp, hid, if_true]
  rw [run_bind_keepsPm, (run_liftPeer e _ _ s).1]
  refine fun requestPk => ⟨trivial, fun _ => ⟨trivial, ?_⟩⟩
  intro snap
  dsimp only
  cases configFor snap rp.serial with
  | none => trivial
  | some cu => exact ⟨trivial, fun _ => trivial⟩

theorem pmStep_handleTcp (e : SrvEnv) (snap : Snapshot) (addr : SocketAddr) (ws : Bool)
    (c : ConnId) (sink : Option ConnId) (frame : Option Msg) (s : Server) :
    PmStep E.serde e.toEnv (.frame snap addr ws c sink frame) s.pm
      ((srvMachine E cfg).run e (handleTcp E cfg snap addr ws c sink 0 frame) s).1.pm := by
  cases frame with
  | none => exact .loads rfl (Or.inl rfl)
  | some frame =>
    cases frame with
    | punchHoleRequest ph =>
      refine .loads rfl ?_
      refine LoadsOnly.all_bind (all_routeBack _ addr ws c sink) (fun sink => ?_) s
      exact (loadsOnly_handleTcpPunchHoleRequest snap _ addr ph ws).bind_all fun _ => trivial
    | requestRelay rf =>
      refine .loads rfl (loadsOnly_of_all ?_ s)
      refine (all_routeBack _ addr ws c sink).bind ?_
      intro sink
      exact (all_handleRequestRelay SrvOp.Plain.keepsPm _ addr rf).bind fun _ => trivial
    | relayResponse rr =>
      exact .loads rfl ((loadsOnly_handleRelayResponse snap _ addr rr).bind_all
        (fun _ => Prog.all_ret _ _) s)
    | punchHoleSent phs =>
      exact .loads rfl ((loadsOnly_handleHoleSent snap _ addr phs).bind_all
        (fun _ => Prog.all_ret _ _) s)
    | localAddr la =>
      exact .loads rfl ((loadsOnly_handleLocalAddr snap _ la).bind_all
        (fun _ => Prog.all_ret _ _) s)
    | testNatRequest serial =>
      exact .loads rfl (loadsOnly_of_all
        ((all_sendToSink SrvOp.Plain.keepsPm _ sink _).bind fun _ => Prog.all_ret _ _) s)
    | onlineRequest peers =>
      refine .loads rfl (loadsOnly_of_all ?_ s)
      refine (all_onlineFrom SrvOp.Plain.keepsPm _ peers 0 _).bind ?_
      intro states
      exact (all_sendToSink SrvOp.Plain.keepsPm _ sink _).bind fun _ => trivial
    | registerPeer rp =>
      by_cases hid : peerIdOk rp.id = true
      · exact .refresh rfl rp.id addr (pm_handleTcp_registerPeer e snap addr ws c sink 0 hid s)
      · simp only [handleTcp, handleRegisterPeer, if_neg hid]
        exact .loads rfl (Or.inl rfl)
    | registerPk rk =>
      refine .reg rfl ?_
      simp only [handleTcp]
      -- what follows the registration only sends its answer and fills the registry
      rw [run_bind_keepsPm, (run_liftPeer e _ _ s).1]
      · exact regStep_run E.serde e.toEnv rk addr ws s.pm
      · intro res
        cases res with
        | none => trivial
        | some res =>
          refine (all_sendToSink SrvOp.Plain.keepsPm _ sink _).bind ?_
          intro _
          exact Prog.All.ite ((all_registerIfWs _ addr ws c).bind fun _ => trivial) trivial
    | _ => exact .loads rfl (Or.inl rfl)

theorem pmStep_handleUdp (e : SrvEnv) (addr : SocketAddr) (frame : Option Msg) (s : Server) :
    PmStep E.serde e.toEnv (.datagram addr frame) s.pm
      ((srvMachine E cfg).run e (handleUdp E addr 0 frame) s).1.pm := by
  cases frame with
  | none => exact .loads rfl (Or.inl rfl)
  | some frame =>
    cases frame with
    | registerPeer rp =>
      by_cases hid : peerIdOk rp.id = true
      · exact .refresh rfl rp.id addr (pm_handleUdp_registerPeer e addr 0 hid s)
      · simp only [handleUdp, if_neg hid]
        exact .loads rfl (Or.inl rfl)
    | registerPk rk =>
      refine .reg rfl ?_
      simp only [handleUdp]
      rw [run_bind_keepsPm, (run_liftPeer e _ _ s).1]
      · exact regStep_run E.serde e.toEnv rk addr false s.pm
      · intro res
        cases res with
        | none => trivial
        | some res => exact ⟨trivial, fun _ => trivial⟩
    | configureUpdate cu =>
      refine .loads rfl (loadsOnly_of_all ?_ s)
      exact ⟨trivial, fun snap => Prog.All.ite ⟨trivial, fun _ => trivial⟩ trivial⟩
    | softwareUpdate url =>
      refine .loads rfl (loadsOnly_of_all ?_ s)
      exact ⟨trivial, fun snap => Prog.All.ite ⟨trivial, fun _ => trivial⟩ trivial⟩
    | _ => exact .loads rfl (Or.inl rfl)

variable (E cfg) in
/-- **Every input does to the peer store one of the things `PmStep` lists.** -/
theorem pmStep_step (s : Server) (x : SrvEnv × Input) :
    PmStep E.serde x.1.toEnv x.2 s.pm (s.step E cfg x).pm := by
  obtain ⟨e, i⟩ := x
  cases i with
  | datagram addr frame => exact pmStep_handleUdp e addr frame s
  | frame snap addr ws c sink frame => exact pmStep_handleTcp e snap addr ws c sink frame s
  | online peers =>
    exact .loads rfl (Or.inl (run_keepsPm e (all_onlineFrom SrvOp.Plain.keepsPm _ peers 0 _) s))
  | restart mustLogin alwaysUseRelay conf => exact .restart rfl rfl

/-- **Handling a frame to its end is one of the interleavings**: wherever its handler is
about to begin, the state after the frame is reached. -/
theorem frame_reached {ι : Type} [DecidableEq ι]
    {k : Config SrvSig Server ι (Bool × Option ConnId)} {i : ι} {snap : Snapshot}
    {addr : SocketAddr} {ws : Bool} {c : ConnId} {sink : Option ConnId} {frame : Option Msg}
    (h : k.task i = handleTcp E cfg snap addr ws c sink 0 frame) (e : SrvEnv) :
    ∃ k', Reach (srvMachine E cfg) (fun _ _ _ => True) k k' ∧
      k'.st = k.st.step E cfg (e, .frame snap addr ws c sink frame) := by
  refine ⟨_, reach_run k i e, ?_⟩
  rw [h]
  rfl

end Steps

end RustdeskServer
