import RustdeskServer.TaskSections

/-!
# Which configuration a heartbeat is answered with

The main loop of `hbbs` owns the configuration: its serial and the list of rendezvous
servers.  A `ConfigureUpdate` from the machine itself, with a higher serial, replaces
it.  The UDP side of the loop answers a heartbeat with the configuration the loop has
now; a connection answers with the copy its task took when the connection was
accepted.

A `Hub` is the main loop with the connections it has accepted, handling one input at a
time.  It counts the updates the loop accepted, and remembers for every connection how
many there had been when it was opened; neither number is read by a handler.

## Main definitions

* `handleListener2` — the NAT-test port.
* `Conn`, `Hub`, `HubInput`, `Hub.step` — the main loop and its connections.
* `Hub.answer` — the configurations that the sender of an input is sent.
* `Hub.Current` — the heartbeats that are answered with the loop's configuration.

## Main results

* `Hub.inv_step` — a copy is the loop's configuration, or of an older serial.
* `Hub.answer_iff_current` — **a heartbeat is answered with the current configuration
  exactly when its connection was opened after the last update.**
-/

namespace RustdeskServer

open Atomic

section Model

variable (E : Ext) (cfg : Settings)

/-- `handle_listener2` on the one message of connection `c`, for a peer that is not the
machine itself: the serial of a `TestNatRequest` is not looked at. -/
def handleListener2 (c : ConnId) (addr : SocketAddr) (frame : Option Msg) : Prog SrvSig Unit :=
  if (E.hbb.tryIntoV4 addr).ip.isLoopback then .ret ()
  else match frame with
    | some (.testNatRequest _) =>
      .op (.sendSink none c (.testNatResponse addr.port.toNat none)) fun _ => .ret ()
    | some (.onlineRequest peers) => do
      let cause : Cause := ⟨.tcp c, 0, .onlineRequest peers⟩
      let states ← peersOnlineState cause peers
      .op (.sendSink (some cause) c (.onlineResponse states)) fun _ => .ret ()
    | _ => .ret ()

/-- A connection that `handle_listener` accepted. -/
structure Conn where
  /-- Where it comes from. -/
  addr : SocketAddr
  /-- Whether it is a websocket. -/
  ws : Bool
  /-- Its write half, while its task has it. -/
  sink : Option ConnId
  /-- How many frames it received. -/
  no : ℕ
  /-- The copy of the server its task works on. -/
  snap : Snapshot
  /-- How many updates had been accepted when it was opened. -/
  opened : ℕ

/-- The main loop and the connections it accepted. -/
structure Hub where
  /-- The shared state, with the loop's configuration. -/
  srv : Server
  /-- The open connections. -/
  conns : ConnId → Option Conn
  /-- How many updates were accepted. -/
  updates : ℕ

/-- A loop that starts, with no connection yet. -/
def Hub.start (srv : Server) : Hub := ⟨srv, fun _ => none, 0⟩

/-- What reaches the main loop or a connection. -/
inductive HubInput
  /-- `handle_listener` accepts connection `c`. -/
  | accept (c : ConnId) (addr : SocketAddr) (ws : Bool)
  /-- A datagram. -/
  | datagram (addr : SocketAddr) (frame : Option Msg)
  /-- A frame on connection `c`. -/
  | frame (c : ConnId) (frame : Option Msg)
  /-- A connection to the NAT-test port, and its message. -/
  | natTest (c : ConnId) (addr : SocketAddr) (frame : Option Msg)
  /-- Connection `c` ends. -/
  | close (c : ConnId)

/-- The connection an input opens, uses or ends. -/
def HubInput.conn? : HubInput → Option ConnId
  | .accept c _ _ => some c
  | .frame c _ => some c
  | .close c => some c
  | _ => none

/-- The end of a connection's task. -/
def endConn (c : ConnId) (k : Conn) (sink : Option ConnId) : Prog SrvSig Unit :=
  if k.ws then
    .op (.guardDrop k.addr c) fun _ => .op (.rxDrop c) fun _ => sinkCleanup k.addr sink
  else sinkCleanup k.addr sink

/-- One turn of a connection's read loop: what is left of the connection. -/
def connFrame (c : ConnId) (k : Conn) (frame : Option Msg) : Prog SrvSig (Option Conn) := do
  match ← handleTcp E cfg k.snap k.addr k.ws c k.sink k.no frame with
  | (true, sink) => .ret (some { k with sink := sink, no := k.no + 1 })
  | (false, sink) => do
    endConn c k sink
    .ret none

/-- What handles an input, and what is left of its connection. -/
def Hub.prog (h : Hub) : HubInput → Prog SrvSig (Option Conn)
  | .accept c addr ws =>
    match h.conns c with
    | some k => .ret (some k)
    | none => .op .cloneServer fun snap : Snapshot =>
        .ret (some ⟨addr, ws, some c, 0, snap, h.updates⟩)
  | .datagram addr frame => do
    handleUdp E addr 0 frame
    .ret none
  | .frame c frame =>
    match h.conns c with
    | some k => connFrame E cfg c k frame
    | none => .ret none
  | .natTest c addr frame => do
    handleListener2 E c addr frame
    .ret none
  | .close c =>
    match h.conns c with
    | some k => do
      endConn c k k.sink
      .ret none
    | none => .ret none

/-- The configuration the main loop takes over from a datagram, if it does. -/
def accepted (conf : Snapshot) (addr : SocketAddr) (frame : Option Msg) : Option Snapshot :=
  match frame with
  | some (.configureUpdate cu) =>
    if (E.hbb.tryIntoV4 addr).ip.isLoopback && decide (cu.serial > conf.inner.serial) then
      some ⟨{ conf.inner with serial := cu.serial },
        cu.rendezvousServers.filter fun x => x != "" && E.validServer x⟩
    else none
  | _ => none

/-- The configuration an input makes the main loop take over. -/
def Hub.accepted? (h : Hub) : HubInput → Option Snapshot
  | .datagram addr frame => accepted E h.srv.conf addr frame
  | _ => none

/-- The hub after an input. -/
def Hub.step (h : Hub) (x : SrvEnv × HubInput) : Hub where
  srv := ((srvMachine E cfg).run x.1 (h.prog E cfg x.2) h.srv).1
  conns := match x.2.conn? with
    | some c => Function.update h.conns c ((srvMachine E cfg).run x.1 (h.prog E cfg x.2) h.srv).2
    | none => h.conns
  updates := if (h.accepted? E x.2).isSome then h.updates + 1 else h.updates

/-- The hub after a run. -/
def Hub.run (h : Hub) (l : List (SrvEnv × HubInput)) : Hub := l.foldl (Hub.step E cfg) h

/-- Who sent an input: a connection, or an address over UDP. -/
def HubInput.sender : HubInput → ConnId ⊕ SocketAddr
  | .accept c _ _ => .inl c
  | .datagram addr _ => .inr addr
  | .frame c _ => .inl c
  | .natTest c _ _ => .inl c
  | .close c => .inl c

/-- The configuration that a section sends to `d`. -/
def SrvOp.configTo (d : ConnId ⊕ SocketAddr) : SrvOp → Option ConfigUpdate
  | .sendSink _ c (.configureUpdate cu) => if d = .inl c then some cu else none
  | .sendSink _ c (.testNatResponse _ cu) => if d = .inl c then cu else none
  | .sendUdp (.configureUpdate cu) addr => if d = .inr addr then some cu else none
  | _ => none

/-- The configurations that an input's sender is sent while it is handled. -/
def Hub.answer (h : Hub) (e : SrvEnv) (i : HubInput) : List ConfigUpdate :=
  ((srvMachine E cfg).ops e (h.prog E cfg i) h.srv).filterMap (SrvOp.configTo i.sender)

end Model

/-- The configuration of a snapshot, as a peer is sent it. -/
def Snapshot.config (snap : Snapshot) : ConfigUpdate := ⟨snap.inner.serial, snap.rendezvousServers⟩

/-- The serial a heartbeat carries: `RegisterPeer` or `TestNatRequest`, on any transport. -/
def HubInput.serial? : HubInput → Option ℤ
  | .datagram _ (some (.registerPeer rp)) => some rp.serial
  | .datagram _ (some (.testNatRequest serial)) => some serial
  | .frame _ (some (.registerPeer rp)) => some rp.serial
  | .frame _ (some (.testNatRequest serial)) => some serial
  | .natTest _ _ (some (.registerPeer rp)) => some rp.serial
  | .natTest _ _ (some (.testNatRequest serial)) => some serial
  | _ => none

/-- Connection `c` has its write half, and no update was accepted since it was opened. -/
def Hub.Fresh (h : Hub) (c : ConnId) : Prop :=
  ∃ k, h.conns c = some k ∧ k.sink = some c ∧ k.opened = h.updates

/-- The heartbeats that are answered with the loop's own configuration: a `RegisterPeer`
with an acceptable id over UDP, and on a fresh connection that or a `TestNatRequest`. -/
def Hub.Current (h : Hub) : HubInput → Prop
  | .datagram _ (some (.registerPeer rp)) => peerIdOk rp.id = true
  | .frame c (some (.registerPeer rp)) => peerIdOk rp.id = true ∧ h.Fresh c
  | .frame c (some (.testNatRequest _)) => h.Fresh c
  | _ => False

/-! ### The configuration changes only through accepted updates -/

/-- The sections that leave the main loop's configuration alone. -/
def SrvOp.KeepsConf : SrvOp → Prop
  | .setConf _ => False
  | _ => True

section Conf

variable {E : Ext} {cfg : Settings} {α : Type} {e : SrvEnv}

theorem SrvOp.Plain.keepsConf (o : SrvOp) (h : o.Plain) : o.KeepsConf := by
  cases o with
  | setConf conf => exact h
  | _ => trivial

theorem keepsConf_peer (cause : Cause) (o : PeerOp) : (SrvOp.peer cause o).KeepsConf := trivial

theorem SrvOp.exec_keepsConf {o : SrvOp} (h : o.KeepsConf) (s : Server) :
    (o.exec E cfg e s).1.conf = s.conf := by
  cases o with
  | setConf conf => exact h.elim
  | pushWs cause addr msg =>
    simp only [SrvOp.exec]
    split
    · rfl
    · split <;> rfl
  | guardDrop addr c =>
    simp only [SrvOp.exec]
    split <;> rfl
  | _ => rfl

theorem run_keepsConf {p : Prog SrvSig α} (h : p.All SrvOp.KeepsConf) (s : Server) :
    ((srvMachine E cfg).run e p s).1.conf = s.conf :=
  (srvMachine E cfg).run_inv (R := fun s t => t.conf = s.conf) (fun _ => rfl)
    (fun h₁ h₂ => h₂.trans h₁) e (fun _ s h => SrvOp.exec_keepsConf h s) h s

variable (E cfg) in
/-- A frame on a connection leaves the configuration alone, and the sink where it is unless
it is parked. -/
theorem only_handleTcp_conf (snap : Snapshot) (addr : SocketAddr) (ws : Bool) (c : ConnId)
    (sink : Option ConnId) (no : ℕ) (frame : Option Msg) :
    (handleTcp E cfg snap addr ws c sink no frame).Only SrvOp.KeepsConf
      fun r => r.2 = sink ∨ r.2 = none := by
  have himp : ∀ {p : Prog SrvSig (Bool × Option ConnId)} {sink' : Option ConnId},
      (sink' = sink ∨ sink' = none) → (p.Only SrvOp.KeepsConf fun r => r.2 = sink') →
      p.Only SrvOp.KeepsConf fun r => r.2 = sink ∨ r.2 = none := by
    intro p sink' hs hp
    induction p with
    | ret a => exact hs.imp (hp.trans ·) (hp.trans ·)
    | op o k ih => exact ⟨hp.1, fun r => ih r (hp.2 r)⟩
  rcases asks_cases frame with hask | ⟨m, rfl, hask⟩
  · exact himp (Or.inl rfl) (only_handleTcp E cfg snap SrvOp.Plain.keepsConf keepsConf_peer
      (fun _ _ => trivial) sink no frame hask)
  · obtain ⟨rest, hrest, heq⟩ := handleTcp_asks E cfg snap SrvOp.Plain.keepsConf keepsConf_peer
      addr ws c sink no hask
    rw [heq]
    unfold routeBack
    cases ws with
    | true => exact ⟨trivial, fun _ => himp (Or.inl rfl) (hrest sink)⟩
    | false =>
      cases sink with
      | none => exact himp (Or.inl rfl) (hrest none)
      | some c => exact ⟨trivial, fun _ => himp (Or.inr rfl) (hrest none)⟩

theorem keepsConf_endConn (c : ConnId) (k : Conn) (sink : Option ConnId) :
    (endConn c k sink).All SrvOp.KeepsConf := by
  have hclean : (sinkCleanup k.addr sink).All SrvOp.KeepsConf := by
    cases sink with
    | none => exact ⟨trivial, fun _ => trivial⟩
    | some c => trivial
  exact Prog.All.ite ⟨trivial, fun _ => ⟨trivial, fun _ => hclean⟩⟩ hclean

variable (E cfg) in
/-- What is left of a connection after a frame keeps its copy, and its sink unless that
was parked. -/
theorem only_connFrame (c : ConnId) (k : Conn) (frame : Option Msg) :
    (connFrame E cfg c k frame).Only SrvOp.KeepsConf fun r => ∀ k' ∈ r,
      k'.snap = k.snap ∧ k'.opened = k.opened ∧ (k'.sink = k.sink ∨ k'.sink = none) := by
  refine (only_handleTcp_conf E cfg k.snap k.addr k.ws c k.sink k.no frame).bind ?_
  rintro ⟨more, sink⟩ hsink
  cases more with
  | true =>
    intro k' hk'
    cases hk'
    exact ⟨rfl, rfl, hsink⟩
  | false =>
    refine (keepsConf_endConn c k sink).bind_only ?_
    rintro _ k' ⟨⟩

theorem srv_run_cloneServer (k : Snapshot → Prog SrvSig α) (s : Server) :
    (srvMachine E cfg).run e (.op .cloneServer k) s = (srvMachine E cfg).run e (k s.conf) s := rfl

/-- What a datagram does to the configuration. -/
theorem conf_handleUdp (addr : SocketAddr) (frame : Option Msg) (s : Server) :
    ((srvMachine E cfg).run e (handleUdp E addr 0 frame) s).1.conf =
      (accepted E s.conf addr frame).getD s.conf := by
  cases frame with
  | none => rfl
  | some frame =>
    cases frame with
    | registerPeer rp =>
      refine run_keepsConf (Prog.All.ite ?_ (Prog.all_ret _ _)) s
      refine (all_liftPeer keepsConf_peer _ _).bind ?_
      intro requestPk
      refine ⟨trivial, fun _ => ⟨trivial, ?_⟩⟩
      intro snap
      dsimp only
      cases configFor snap rp.serial with
      | some cu => exact ⟨trivial, fun _ => trivial⟩
      | none => trivial
    | registerPk rk =>
      refine run_keepsConf ((all_liftPeer keepsConf_peer _ _).bind ?_) s
      intro res
      cases res with
      | some res => exact ⟨trivial, fun _ => trivial⟩
      | none => trivial
    | configureUpdate cu =>
      simp only [handleUdp, accepted]
      rw [srv_run_cloneServer]
      by_cases hc : ((E.hbb.tryIntoV4 addr).ip.isLoopback &&
          decide (cu.serial > s.conf.inner.serial)) = true
      · rw [if_pos hc, if_pos hc]
        rfl
      · rw [if_neg hc, if_neg hc]
        rfl
    | softwareUpdate url =>
      have hall : (handleUdp E addr 0 (some (.softwareUpdate url))).All SrvOp.KeepsConf :=
        ⟨trivial, fun _ => Prog.All.ite ⟨trivial, fun _ => trivial⟩ trivial⟩
      exact run_keepsConf hall s
    | _ => rfl

theorem keepsConf_handleListener2 (c : ConnId) (addr : SocketAddr) (frame : Option Msg) :
    (handleListener2 E c addr frame).All SrvOp.KeepsConf := by
  refine Prog.All.ite trivial ?_
  split
  · exact ⟨trivial, fun _ => trivial⟩
  · exact (all_onlineFrom SrvOp.Plain.keepsConf _ _ 0 _).bind fun _ =>
      ⟨trivial, fun _ => trivial⟩
  · trivial

/-- **The configuration after an input**: the one it made the loop take over, or the same. -/
theorem Hub.conf_step (h : Hub) (x : SrvEnv × HubInput) :
    (h.step E cfg x).srv.conf = (h.accepted? E x.2).getD h.srv.conf := by
  obtain ⟨e, i⟩ := x
  cases i with
  | accept c addr ws =>
    simp only [Hub.step, Hub.prog, Hub.accepted?, Option.getD_none]
    split <;> rfl
  | datagram addr frame =>
    simp only [Hub.step, Hub.prog, Hub.accepted?, Machine.run_bind, Machine.run_ret]
    exact conf_handleUdp addr frame h.srv
  | frame c frame =>
    simp only [Hub.step, Hub.prog, Hub.accepted?, Option.getD_none]
    split
    · exact run_keepsConf (only_connFrame E cfg c _ frame).all h.srv
    · rfl
  | natTest c addr frame =>
    exact run_keepsConf ((keepsConf_handleListener2 c addr frame).bind fun _ => Prog.all_ret _ _)
      h.srv
  | close c =>
    simp only [Hub.step, Hub.prog, Hub.accepted?, Option.getD_none]
    split
    · exact run_keepsConf ((keepsConf_endConn c _ _).bind fun _ => Prog.all_ret _ _) h.srv
    · rfl

/-! ### A copy is current or of an older serial -/

/-- Connection `c` has its own write half or none, and its copy is the configuration `conf`
after `updates` updates, or was taken before some of them. -/
structure Conn.Ok (conf : Snapshot) (updates : ℕ) (c : ConnId) (k : Conn) : Prop where
  /-- Its write half is its own. -/
  sink : k.sink = some c ∨ k.sink = none
  /-- Its copy is current, or of an older serial. -/
  copy : (k.opened = updates ∧ k.snap = conf) ∨
    (k.opened < updates ∧ k.snap.inner.serial < conf.inner.serial)

/-- Every open connection is as `Conn.Ok` says. -/
def Hub.Inv (h : Hub) : Prop := ∀ c k, h.conns c = some k → k.Ok h.srv.conf h.updates c

theorem Hub.inv_start (srv : Server) : (Hub.start srv).Inv := by
  rintro c k ⟨⟩

/-- An update that is taken over has a higher serial. -/
theorem serial_lt_of_accepted {conf conf' : Snapshot} {addr : SocketAddr} {frame : Option Msg}
    (h : accepted E conf addr frame = some conf') : conf.inner.serial < conf'.inner.serial := by
  unfold accepted at h
  split at h
  · split at h
    · next hc =>
      cases h
      exact of_decide_eq_true (Bool.and_eq_true_iff.mp hc).2
    · cases h
  · cases h

theorem Hub.serial_lt_of_accepted? {h : Hub} {i : HubInput} {conf : Snapshot}
    (hacc : h.accepted? E i = some conf) : h.srv.conf.inner.serial < conf.inner.serial := by
  cases i with
  | datagram addr frame => exact serial_lt_of_accepted hacc
  | _ => cases hacc

/-- Whatever comes in, a connection that is left alone stays as `Conn.Ok` says. -/
theorem Conn.Ok.step {h : Hub} {c : ConnId} {k : Conn} (hk : k.Ok h.srv.conf h.updates c)
    (x : SrvEnv × HubInput) :
    k.Ok (h.step E cfg x).srv.conf (h.step E cfg x).updates c := by
  refine ⟨hk.sink, ?_⟩
  rw [Hub.conf_step]
  cases hacc : h.accepted? E x.2 with
  | none =>
    simp only [Hub.step, hacc, Option.isSome_none, Bool.false_eq_true, if_false, Option.getD_none]
    exact hk.copy
  | some conf =>
    have hlt := Hub.serial_lt_of_accepted? hacc
    simp only [Hub.step, hacc, Option.isSome_some, if_true, Option.getD_some]
    right
    rcases hk.copy with ⟨hop, hsnap⟩ | ⟨hop, hser⟩
    · exact ⟨by omega, by rwa [hsnap]⟩
    · exact ⟨by omega, hser.trans hlt⟩

/-- What an input leaves of its connection is as `Conn.Ok` says. -/
theorem Hub.Inv.prog {h : Hub} (hinv : h.Inv) {i : HubInput} {c : ConnId}
    (hi : i.conn? = some c) :
    ∀ k ∈ ((srvMachine E cfg).run e (h.prog E cfg i) h.srv).2, k.Ok h.srv.conf h.updates c := by
  intro k hk
  cases i with
  | datagram addr frame => cases hi
  | natTest c addr frame => cases hi
  | accept c' addr ws =>
    cases hi
    cases hc : h.conns c with
    | some k' =>
      simp only [Hub.prog, hc] at hk
      cases hk
      exact hinv c k hc
    | none =>
      simp only [Hub.prog, hc] at hk
      cases hk
      exact ⟨Or.inl rfl, Or.inl ⟨rfl, rfl⟩⟩
  | frame c' frame =>
    cases hi
    cases hc : h.conns c with
    | none =>
      simp only [Hub.prog, hc] at hk
      cases hk
    | some k' =>
      simp only [Hub.prog, hc] at hk
      obtain ⟨hsnap, hop, hsink⟩ := (srvMachine E cfg).run_only (only_connFrame E cfg c k' frame)
        e h.srv k hk
      have hok := hinv c k' hc
      refine ⟨?_, by rw [hsnap, hop]; exact hok.copy⟩
      rcases hsink with hs | hs
      · rw [hs]
        exact hok.sink
      · exact Or.inr hs
  | close c' =>
    cases hi
    cases hc : h.conns c with
    | none =>
      simp only [Hub.prog, hc] at hk
      cases hk
    | some k' =>
      simp only [Hub.prog, hc, Machine.run_bind] at hk
      cases hk

/-- **A copy is the loop's configuration, or of an older serial**, after every input. -/
theorem Hub.inv_step {h : Hub} (hinv : h.Inv) (x : SrvEnv × HubInput) :
    (h.step E cfg x).Inv := by
  intro c k hk
  refine Conn.Ok.step ?_ x
  cases hi : x.2.conn? with
  | none =>
    simp only [Hub.step, hi] at hk
    exact hinv c k hk
  | some c' =>
    simp only [Hub.step, hi] at hk
    by_cases hc : c = c'
    · subst hc
      rw [Function.update_self] at hk
      exact hinv.prog hi k hk
    · rw [Function.update_of_ne hc] at hk
      exact hinv c k hk

theorem Hub.inv_run {h : Hub} (hinv : h.Inv) (l : List (SrvEnv × HubInput)) :
    (h.run E cfg l).Inv := by
  induction l generalizing h with
  | nil => exact hinv
  | cons x l ih => exact ih (Hub.inv_step hinv x)

/-- The loop's serial never goes down. -/
theorem Hub.serial_le_step (h : Hub) (x : SrvEnv × HubInput) :
    h.srv.conf.inner.serial ≤ (h.step E cfg x).srv.conf.inner.serial := by
  rw [Hub.conf_step]
  cases hacc : h.accepted? E x.2 with
  | none => exact le_refl _
  | some conf => exact (Hub.serial_lt_of_accepted? hacc).le

theorem Hub.serial_le_run (h : Hub) (l : List (SrvEnv × HubInput)) :
    h.srv.conf.inner.serial ≤ (h.run E cfg l).srv.conf.inner.serial := by
  induction l generalizing h with
  | nil => exact le_refl _
  | cons x l ih => exact (h.serial_le_step x).trans (ih _)

/-! ### Answers -/

/-- The sections that send `d` no configuration. -/
def SrvOp.Silent (d : ConnId ⊕ SocketAddr) (o : SrvOp) : Prop := o.configTo d = none

variable {d : ConnId ⊕ SocketAddr} {β : Type}

/-- The configurations that a program sends to `d`. -/
def configs (E : Ext) (cfg : Settings) (d : ConnId ⊕ SocketAddr) (e : SrvEnv) (p : Prog SrvSig α)
    (s : Server) : List ConfigUpdate :=
  ((srvMachine E cfg).ops e p s).filterMap (SrvOp.configTo d)

theorem configs_bind (p : Prog SrvSig α) (f : α → Prog SrvSig β) (s : Server) :
    configs E cfg d e (p >>= f) s = configs E cfg d e p s ++
      configs E cfg d e (f ((srvMachine E cfg).run e p s).2) ((srvMachine E cfg).run e p s).1 := by
  unfold configs
  rw [Machine.ops_bind, List.filterMap_append]

theorem configs_silent {p : Prog SrvSig α} (hp : p.All (SrvOp.Silent d)) (s : Server) :
    configs E cfg d e p s = [] :=
  List.filterMap_eq_nil_iff.mpr ((srvMachine E cfg).ops_all hp e s)

/-- A silent program may come first. -/
theorem configs_silent_bind {p : Prog SrvSig α} {f : α → Prog SrvSig β}
    (hp : p.All (SrvOp.Silent d)) (s : Server) :
    configs E cfg d e (p >>= f) s =
      configs E cfg d e (f ((srvMachine E cfg).run e p s).2) ((srvMachine E cfg).run e p s).1 := by
  rw [configs_bind, configs_silent hp, List.nil_append]

/-- A silent program may come last. -/
theorem configs_bind_silent {p : Prog SrvSig α} {f : α → Prog SrvSig β}
    (hf : ∀ a, (f a).All (SrvOp.Silent d)) (s : Server) :
    configs E cfg d e (p >>= f) s = configs E cfg d e p s := by
  rw [configs_bind, configs_silent (hf _), List.append_nil]

theorem silent_peer (cause : Cause) (o : PeerOp) : (SrvOp.peer cause o).Silent d := rfl

theorem silent_endConn (c : ConnId) (k : Conn) (sink : Option ConnId) :
    (endConn c k sink).All (SrvOp.Silent d) := by
  have hclean : (sinkCleanup k.addr sink).All (SrvOp.Silent d) := by
    cases sink with
    | none => exact ⟨rfl, fun _ => trivial⟩
    | some c => trivial
  exact Prog.All.ite ⟨rfl, fun _ => ⟨rfl, fun _ => hclean⟩⟩ hclean

/-- A connection's answer to a frame is what `handle_tcp` sends. -/
theorem Hub.answer_frame {h : Hub} {c : ConnId} {k : Conn} (hk : h.conns c = some k)
    (frame : Option Msg) :
    h.answer E cfg e (.frame c frame) =
      configs E cfg (.inl c) e (handleTcp E cfg k.snap k.addr k.ws c k.sink k.no frame) h.srv := by
  have hans : h.answer E cfg e (.frame c frame) =
      configs E cfg (.inl c) e (connFrame E cfg c k frame) h.srv := by
    simp only [Hub.answer, Hub.prog, hk, HubInput.sender]
    rfl
  rw [hans]
  refine configs_bind_silent ?_ h.srv
  rintro ⟨more, sink⟩
  cases more with
  | true => trivial
  | false => exact (silent_endConn c k sink).bind fun _ => trivial

/-- The answer to a `TestNatRequest` on a connection. -/
theorem Hub.answer_testNat {h : Hub} {c : ConnId} {k : Conn} (hk : h.conns c = some k)
    (hsink : k.sink = some c ∨ k.sink = none) (serial : ℤ) :
    h.answer E cfg e (.frame c (some (.testNatRequest serial))) =
      if k.sink = some c then (configFor k.snap serial).toList else [] := by
  rw [Hub.answer_frame hk, handleTcp, configs_bind_silent fun _ => Prog.all_ret _ _]
  rcases hsink with hs | hs
  · rw [hs, if_pos rfl]
    cases configFor k.snap serial <;> simp [configs, sendToSink, SrvOp.configTo]
  · rw [hs]
    rfl

/-- The answer to a `RegisterPeer` on a connection. -/
theorem Hub.answer_registerPeer {h : Hub} {c : ConnId} {k : Conn} (hk : h.conns c = some k)
    (hsink : k.sink = some c ∨ k.sink = none) (rp : RegisterPeer) :
    h.answer E cfg e (.frame c (some (.registerPeer rp))) =
      if peerIdOk rp.id = true ∧ k.sink = some c then (configFor k.snap rp.serial).toList
      else [] := by
  rw [Hub.answer_frame hk, handleTcp, configs_bind_silent fun _ => Prog.all_ret _ _,
    handleRegisterPeer]
  by_cases hid : peerIdOk rp.id = true
  · simp only [hid, if_true, true_and]
    have hresp : ∀ cause requestPk, (sendToSink cause k.sink (.registerPeerResponse requestPk)).All
        (SrvOp.Silent (.inl c)) := by
      intro cause requestPk
      cases k.sink with
      | none => trivial
      | some c => exact ⟨rfl, fun _ => trivial⟩
    rw [configs_silent_bind (all_liftPeer silent_peer _ _), configs_silent_bind (hresp _ _),
      configs_silent_bind (all_registerIfWs_of (fun _ _ => rfl) _)]
    rcases hsink with hs | hs
    · rw [hs, if_pos rfl]
      cases configFor k.snap rp.serial <;> simp [configs, sendToSink, SrvOp.configTo]
    · rw [hs, if_neg (show ¬(none : Option ConnId) = some c by simp)]
      cases configFor k.snap rp.serial <;> simp [configs, sendToSink]
  · simp only [hid, Bool.false_eq_true, if_false, false_and]
    rfl

/-- The answer to a `RegisterPeer` over UDP. -/
theorem Hub.answer_datagram_registerPeer (h : Hub) (addr : SocketAddr) (rp : RegisterPeer) :
    h.answer E cfg e (.datagram addr (some (.registerPeer rp))) =
      if peerIdOk rp.id = true then (configFor h.srv.conf rp.serial).toList else [] := by
  have hans : h.answer E cfg e (.datagram addr (some (.registerPeer rp))) =
      configs E cfg (.inr addr) e (handleUdp E addr 0 (some (.registerPeer rp))) h.srv :=
    configs_bind_silent (fun _ => Prog.all_ret _ _) h.srv
  rw [hans, handleUdp]
  by_cases hid : peerIdOk rp.id = true
  · simp only [hid, if_true]
    have hconf := @run_keepsConf E cfg _ e _
      (all_liftPeer keepsConf_peer ⟨.udp, 0, .registerPeer rp⟩ (updateAddr rp.id addr)) h.srv
    rw [configs_silent_bind (all_liftPeer silent_peer _ _)]
    generalize ((srvMachine E cfg).run e _ h.srv) = r at hconf ⊢
    simp only [configs, Machine.ops_op, srvMachine_exec, SrvOp.exec, hconf]
    cases configFor h.srv.conf rp.serial <;> simp [List.filterMap_cons, SrvOp.configTo]
  · simp only [hid, Bool.false_eq_true, if_false]
    rfl

/-- A heartbeat is sent nothing else than the configuration of a higher serial. -/
theorem configFor_eq_config_iff {snap conf : Snapshot} {serial : ℤ}
    (hlt : serial < conf.inner.serial) :
    (configFor snap serial).toList = [conf.config] ↔ snap.config = conf.config := by
  unfold configFor
  constructor
  · intro h
    split at h
    · exact List.head_eq_of_cons_eq h
    · cases h
  · intro h
    have hser : snap.inner.serial = conf.inner.serial := congrArg ConfigUpdate.serial h
    rw [if_pos (by omega)]
    exact congrArg (fun cu => [cu]) h

/-- A connection's copy is the loop's configuration exactly if no update was accepted since
it was opened. -/
theorem Conn.Ok.config_eq_iff {conf : Snapshot} {updates : ℕ} {c : ConnId} {k : Conn}
    (hk : k.Ok conf updates c) : k.snap.config = conf.config ↔ k.opened = updates := by
  rcases hk.copy with ⟨hop, hsnap⟩ | ⟨hop, hser⟩
  · simp [hop, hsnap]
  · refine iff_of_false ?_ (by omega)
    intro h
    have := congrArg ConfigUpdate.serial h
    simp only [Snapshot.config] at this
    omega

/-- A heartbeat with an older serial, in a state where every copy is current or older. -/
theorem Hub.Inv.answer_iff {h : Hub} (hinv : h.Inv) {i : HubInput} {n : ℤ}
    (hi : i.serial? = some n) (hn : n < h.srv.conf.inner.serial) :
    h.answer E cfg e i = [h.srv.conf.config] ↔ h.Current i := by
  -- on a connection: what is left to compare is the copy
  have hconn : ∀ {c : ConnId} {k : Conn} (P : Prop) [Decidable P] {serial : ℤ},
      h.conns c = some k → serial < h.srv.conf.inner.serial →
      ((if P ∧ k.sink = some c then (configFor k.snap serial).toList else []) =
        [h.srv.conf.config] ↔ P ∧ h.Fresh c) := by
    intro c k P _ serial hk hser
    have hfresh : h.Fresh c ↔ k.sink = some c ∧ k.opened = h.updates := by
      simp [Hub.Fresh, hk]
    rw [hfresh]
    split
    · next hc => rw [configFor_eq_config_iff hser, (hinv c k hk).config_eq_iff]; tauto
    · next hc => simp only [List.nil_eq, reduceCtorEq, false_iff]; tauto
  cases i with
  | accept c addr ws => cases hi
  | close c => cases hi
  | natTest c addr frame =>
    -- the NAT-test port sends no configuration at all
    have hans : h.answer E cfg e (.natTest c addr frame) =
        configs E cfg (.inl c) e (handleListener2 E c addr frame) h.srv :=
      configs_bind_silent (fun _ => Prog.all_ret _ _) h.srv
    have hsilent : configs E cfg (.inl c) e (handleListener2 E c addr frame) h.srv = [] := by
      unfold handleListener2
      refine configs_silent (Prog.All.ite (Prog.all_ret _ _) ?_) h.srv
      split
      · exact ⟨by simp [SrvOp.Silent, SrvOp.configTo], fun _ => trivial⟩
      · cases hi
      · trivial
    rw [hans, hsilent]
    simp [Hub.Current]
  | datagram addr frame =>
    cases frame with
    | none => cases hi
    | some m =>
      cases m with
      | registerPeer rp =>
        cases hi
        rw [Hub.answer_datagram_registerPeer]
        split
        · next hid => simp [configFor_eq_config_iff hn, Hub.Current, hid]
        · next hid => simp [Hub.Current, hid]
      | testNatRequest serial =>
        -- not served over UDP
        have hans : h.answer E cfg e (.datagram addr (some (.testNatRequest serial))) = [] := rfl
        rw [hans]
        simp [Hub.Current]
      | _ => cases hi
  | frame c frame =>
    cases hk : h.conns c with
    | none =>
      have hans : h.answer E cfg e (.frame c frame) = [] := by simp [Hub.answer, Hub.prog, hk]
      have hstale : ¬h.Fresh c := by simp [Hub.Fresh, hk]
      rw [hans]
      refine iff_of_false (by simp) ?_
      cases frame with
      | none => cases hi
      | some m =>
        cases m with
        | registerPeer rp => exact fun hc => hstale hc.2
        | testNatRequest serial => exact hstale
        | _ => cases hi
    | some k =>
      have hsink := (hinv c k hk).sink
      cases frame with
      | none => cases hi
      | some m =>
        cases m with
        | registerPeer rp =>
          cases hi
          rw [Hub.answer_registerPeer hk hsink, hconn _ hk hn]
          rfl
        | testNatRequest serial =>
          cases hi
          have h' := hconn True hk hn
          simp only [true_and] at h'
          rw [Hub.answer_testNat hk hsink, h']
          rfl
        | _ => cases hi

variable (E cfg) in
/-- **A heartbeat is answered with the current configuration exactly when it is `Current`**:
in every run of the main loop and its connections in which an update with the serial of
`cu` was taken over, a later heartbeat with a lower serial is sent the loop's serial and
servers, and nothing else, if and only if it came over UDP as a `RegisterPeer`, or over a
connection that has its write half and was opened after the last update; and the id of a
`RegisterPeer` is acceptable. -/
theorem Hub.answer_iff_current (srv : Server) (l₁ l₂ : List (SrvEnv × HubInput)) (e₁ : SrvEnv)
    (addr : SocketAddr) (cu : ConfigUpdate)
    (hacc : (((Hub.start srv).run E cfg l₁).accepted? E
      (.datagram addr (some (.configureUpdate cu)))).isSome = true)
    (i : HubInput) (n : ℤ) (hi : i.serial? = some n) (hn : n < cu.serial) :
    let h := (Hub.start srv).run E cfg
      (l₁ ++ (e₁, .datagram addr (some (.configureUpdate cu))) :: l₂)
    h.answer E cfg e i = [h.srv.conf.config] ↔ h.Current i := by
  intro h
  obtain ⟨conf, hconf⟩ := Option.isSome_iff_exists.mp hacc
  have hser : conf.inner.serial = cu.serial := by
    simp only [Hub.accepted?, accepted] at hconf
    split at hconf
    · cases hconf
      rfl
    · cases hconf
  -- the loop has the serial of the update right after it, and no lower one since
  have hle : cu.serial ≤ h.srv.conf.inner.serial := by
    have hstep := @Hub.conf_step E cfg ((Hub.start srv).run E cfg l₁)
      (e₁, .datagram addr (some (.configureUpdate cu)))
    rw [hconf, Option.getD_some] at hstep
    have hrun := @Hub.serial_le_run E cfg (((Hub.start srv).run E cfg l₁).step E cfg
      (e₁, .datagram addr (some (.configureUpdate cu)))) l₂
    rw [hstep, hser] at hrun
    simpa only [h, Hub.run, List.foldl_append, List.foldl_cons] using hrun
  exact (Hub.inv_run (Hub.inv_start srv) _).answer_iff hi (hn.trans_le hle)

end Conf

/-! ### A connection that outlives an update -/

/-- A websocket that opens before an update, and another after it. -/
def staleRun : List (SrvEnv × HubInput) :=
  [(.ok 0 0, .accept 1 ⟨.ofOctets 9 9 9 9, 1⟩ true),
    (.ok 1 0, .datagram ⟨.ofOctets 127 0 0 1, 5⟩ (some (.configureUpdate ⟨7, ["new"]⟩))),
    (.ok 2 0, .accept 2 ⟨.ofOctets 9 9 9 8, 1⟩ true)]

/-- The server `staleRun` starts on. -/
def staleServer : Server := .start [] false false .blank

/-- The heartbeat of the second websocket is answered as over UDP. -/
theorem Hub.answer_iff_current_fresh :
    ((Hub.start staleServer).run .sample ⟨"", "", 0⟩ staleRun).answer .sample ⟨"", "", 0⟩ (.ok 3 0)
      (.frame 2 (some (.registerPeer ⟨"a", 0⟩))) = [⟨7, ["new"]⟩] := by
  have h := Hub.answer_iff_current .sample ⟨"", "", 0⟩ (e := .ok 3 0) staleServer
    [(.ok 0 0, .accept 1 ⟨.ofOctets 9 9 9 9, 1⟩ true)] [(.ok 2 0, .accept 2 ⟨.ofOctets 9 9 9 8, 1⟩ true)]
    (.ok 1 0) ⟨.ofOctets 127 0 0 1, 5⟩ ⟨7, ["new"]⟩ (by decide)
    (.frame 2 (some (.registerPeer ⟨"a", 0⟩))) 0 rfl (by decide)
  exact h.mpr ⟨by decide, _, rfl, rfl, rfl⟩

/-- **A websocket that was open before the update keeps the old configuration**: its
heartbeat is sent none, where the same heartbeat over UDP is sent the new one. -/
theorem Hub.stale_websocket :
    let h := (Hub.start staleServer).run .sample ⟨"", "", 0⟩ staleRun
    h.srv.conf.config = ⟨7, ["new"]⟩ ∧
      h.answer .sample ⟨"", "", 0⟩ (.ok 3 0) (.frame 1 (some (.registerPeer ⟨"a", 0⟩))) = [] ∧
      h.answer .sample ⟨"", "", 0⟩ (.ok 3 0)
        (.datagram ⟨.ofOctets 9 9 9 9, 1⟩ (some (.registerPeer ⟨"a", 0⟩))) = [⟨7, ["new"]⟩] := by
  decide

end RustdeskServer
