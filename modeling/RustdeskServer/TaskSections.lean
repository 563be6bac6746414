import RustdeskServer.Sequential

/-!
# The sections a task performs

A connection adds to the shared registries in two places only: a websocket registers
itself, under its own address, and a TCP connection parks its own sink.  Everything else
a handler does is *passive*: it may drop an entry or take a sink out, but it adds nothing
and ends no websocket.

With this the life of a task can be told from its program alone.  A websocket registers
as often as it likes until its guard is dropped, and never after.  A TCP connection parks
its sink at most once, and a connection that parked its sink takes the entry out again as
the last thing it does.

## Main definitions

* `SrvOp.Passive`, `SrvOp.Registers` — sections that add nothing, or only the websocket.
* `Open`, `Unparked`, `Parked` — what is left of a task, by what it still has to do.

## Main results

* `open_wsTask`, `unparked_tcpTask`, `passive_udpTask` — **every task is of its kind.**
-/

namespace RustdeskServer

open Atomic

/-- The sections that add nothing to a registry and end no websocket. -/
def SrvOp.Passive : SrvOp → Prop
  | .registerWs _ _ _ => False
  | .punchInsert _ _ => False
  | .guardDrop _ _ => False
  | .rxDrop _ => False
  | _ => True

/-- The sections of connection `c` at `addr` apart from parking its sink: a websocket may
register itself. -/
def SrvOp.Registers (ws : Bool) (addr : SocketAddr) (c : ConnId) (o : SrvOp) : Prop :=
  o.Passive ∨ (ws = true ∧ ∃ cause, o = .registerWs cause addr c)

/-- The sections of a websocket whose guard is dropped. -/
def SrvOp.Closing (c : ConnId) (o : SrvOp) : Prop := o.Passive ∨ o = .rxDrop c

theorem SrvOp.Plain.passive (o : SrvOp) (h : o.Plain) : o.Passive := by
  cases o with
  | peer cause o => trivial
  | setConf conf => trivial
  | _ => exact h

theorem SrvOp.Passive.registers {ws : Bool} {addr : SocketAddr} {c : ConnId} (o : SrvOp)
    (h : o.Passive) : o.Registers ws addr c := Or.inl h

theorem SrvOp.Registers.passive {addr : SocketAddr} {c : ConnId} (o : SrvOp)
    (h : o.Registers false addr c) : o.Passive := by
  rcases h with h | ⟨hws, -⟩
  · exact h
  · cases hws

section Kinds

variable {α : Type}

/-- A websocket whose guard is still to be dropped. -/
def Open (addr : SocketAddr) (c : ConnId) : Prog SrvSig α → Prop :=
  Prog.Until (SrvOp.Registers true addr c) (.guardDrop addr c) (Prog.All (SrvOp.Closing c))
    fun _ => False

/-- A TCP connection that still has to take its parked sink out. -/
def Parked (addr : SocketAddr) : Prog SrvSig α → Prop :=
  Prog.Until SrvOp.Passive (.punchRemove addr) (Prog.All SrvOp.Passive) fun _ => False

/-- A TCP connection that has not parked its sink. -/
def Unparked (addr : SocketAddr) (c : ConnId) : Prog SrvSig α → Prop :=
  Prog.Until SrvOp.Passive (.punchInsert addr c) (Parked addr) fun _ => True

end Kinds

/-! ### The handlers -/

section Handlers

variable {E : Ext} {cfg : Settings} (snap : Snapshot) {α : Type}

/-! What a handler does apart from the two places: plain sections and sections of the
registration code. -/

section Parts

variable {P : SrvOp → Prop} (hP : ∀ o : SrvOp, o.Plain → P o) (hpeer : ∀ cause o, P (.peer cause o))

include hpeer in
theorem all_liftPeer (cause : Cause) (p : Prog PeerSig α) : (liftPeer cause p).All P := by
  induction p with
  | ret a => trivial
  | op o k ih => exact ⟨hpeer cause o, ih⟩

include hpeer in
theorem all_getPk (cause : Cause) (version id : String) :
    (getPk E snap cause version id).All P := by
  unfold getPk
  cases snap.inner.sk with
  | none => trivial
  | some sk =>
    refine Prog.All.ite trivial ((all_liftPeer hpeer cause _).bind fun p => ?_)
    cases p with
    | none => trivial
    | some peer => exact ⟨hpeer _ _, fun _ => trivial⟩

include hP hpeer

theorem all_handleTcpPunchHoleRequest (cause : Cause) (addr : SocketAddr)
    (ph : PunchHoleRequest) (ws : Bool) :
    (handleTcpPunchHoleRequest E cfg snap cause addr ph ws).All P := by
  refine Prog.All.bind ?_ fun res => ?_
  · refine (all_authorize hP cause ph).bind ?_
    intro refusal
    cases refusal with
    | some refusal => trivial
    | none =>
      refine (all_liftPeer hpeer cause _).bind ?_
      intro p
      cases p with
      | none => trivial
      | some peer =>
        refine ⟨hpeer _ _, fun r => ⟨hpeer _ _, fun now => Prog.All.ite trivial ?_⟩⟩
        exact (all_punchMessage hP snap cause addr ph ws _).bind fun _ => trivial
  · obtain ⟨msg, peerAddr⟩ := res
    cases peerAddr with
    | none => exact all_sendToTcp hP cause msg addr
    | some peerAddr => exact all_forward hP cause msg peerAddr

theorem all_handleHoleSent (cause : Cause) (addr : SocketAddr) (phs : PunchHoleSent) :
    (handleHoleSent E snap cause addr phs).All P :=
  ⟨hpeer _ _, fun _ => (all_getPk snap hpeer cause _ _).bind fun _ => all_sendToTcp hP _ _ _⟩

theorem all_handleLocalAddr (cause : Cause) (la : LocalAddr) :
    (handleLocalAddr E snap cause la).All P :=
  (all_getPk snap hpeer cause _ _).bind fun _ => all_sendToTcp hP _ _ _

theorem all_handleRelayResponse (cause : Cause) (addr : SocketAddr) (rr : RelayResponse) :
    (handleRelayResponse E snap cause addr rr).All P := by
  refine Prog.All.bind ?_ fun union => ?_
  · exact Prog.All.ite trivial ((all_getPk snap hpeer cause _ _).bind fun _ => trivial)
  · exact (all_relayOfResponse hP snap addr _ _).bind fun _ => all_sendToTcp hP _ _ _

variable {addr : SocketAddr} {ws : Bool} {c : ConnId}
  (hreg : ws = true → ∀ cause, P (.registerWs cause addr c))

omit hP hpeer in
include hreg in
theorem all_registerIfWs_of (cause : Cause) : (registerIfWs cause addr ws c).All P := by
  cases ws with
  | true => exact ⟨hreg rfl cause, fun _ => trivial⟩
  | false => trivial

include hreg

theorem all_handleRegisterPeer (cause : Cause) (sink : Option ConnId) (rp : RegisterPeer) :
    (handleRegisterPeer snap cause addr ws c sink rp).All P := by
  refine Prog.All.ite ?_ trivial
  refine (all_liftPeer hpeer cause _).bind ?_
  intro requestPk
  refine (all_sendToSink hP _ sink _).bind ?_
  intro _
  refine (all_registerIfWs_of hreg cause).bind ?_
  intro _
  cases configFor snap rp.serial with
  | some cu => exact all_sendToSink hP _ sink _
  | none => trivial

variable (E cfg)

/-- A frame that asks for no session leaves the sink where it is, and adds nothing but the
websocket it came over. -/
theorem only_handleTcp (sink : Option ConnId) (no : ℕ) (frame : Option Msg)
    (hask : ∀ m ∈ frame, m.asksSession = false) :
    (handleTcp E cfg snap addr ws c sink no frame).Only P fun r => r.2 = sink := by
  -- in every arm the handler proper runs, and then the sink is returned
  have harm : ∀ {β : Type} {p : Prog SrvSig β} {b : Bool}, p.All P →
      (p >>= fun _ => .ret (b, sink)).Only P
        fun r : Bool × Option ConnId => r.2 = sink := fun hp => hp.bind_only fun _ => rfl
  cases frame with
  | none => rfl
  | some frame =>
    cases frame with
    | punchHoleRequest ph => cases hask _ rfl
    | requestRelay rf => cases hask _ rfl
    | relayResponse rr => exact harm (all_handleRelayResponse snap hP hpeer _ addr rr)
    | punchHoleSent phs => exact harm (all_handleHoleSent snap hP hpeer _ addr phs)
    | localAddr la => exact harm (all_handleLocalAddr snap hP hpeer _ la)
    | testNatRequest serial => exact harm (all_sendToSink hP _ sink _)
    | onlineRequest peers =>
      exact (all_onlineFrom hP _ peers 0 _).bind_only fun _ => harm (all_sendToSink hP _ sink _)
    | registerPeer rp => exact harm (all_handleRegisterPeer snap hP hpeer hreg _ sink rp)
    | registerPk rk =>
      refine (all_liftPeer hpeer _ _).bind_only ?_
      intro res
      cases res with
      | none => rfl
      | some res =>
        refine (all_sendToSink hP _ sink _).bind_only ?_
        intro _
        by_cases hok : res = .ok
        · simp only [hok, if_true]
          exact harm (all_registerIfWs_of hreg _)
        · simp only [hok, if_false]
          rfl
    | _ => rfl

omit hreg in
/-- A frame that asks for a session makes the route back first; what follows adds nothing
and returns the sink that is left. -/
theorem handleTcp_asks (addr : SocketAddr) (ws : Bool) (c : ConnId) (sink : Option ConnId) (no : ℕ)
    {frame : Msg} (hask : frame.asksSession = true) :
    ∃ rest : Option ConnId → Prog SrvSig (Bool × Option ConnId),
      (∀ sink', (rest sink').Only P fun r => r.2 = sink') ∧
      handleTcp E cfg snap addr ws c sink no (some frame) =
        routeBack ⟨if ws then .ws c else .tcp c, no, frame⟩ addr ws c sink >>= rest := by
  cases frame with
  | punchHoleRequest ph =>
    refine ⟨_, fun sink' => ?_, rfl⟩
    exact (all_handleTcpPunchHoleRequest snap hP hpeer _ addr ph ws).bind_only fun _ => rfl
  | requestRelay rf =>
    refine ⟨_, fun sink' => ?_, rfl⟩
    exact (all_handleRequestRelay hP _ addr rf).bind_only fun _ => rfl
  | _ => cases hask

end Parts

/-- Registration code is passive. -/
theorem passive_peer (cause : Cause) (o : PeerOp) : (SrvOp.peer cause o).Passive := trivial

end Handlers

/-! ### One frame, one connection -/

section Tasks

variable (E : Ext) (cfg : Settings) (snap : Snapshot) (addr : SocketAddr) (c : ConnId)

/-- Whether a frame asks for a session. -/
theorem asks_cases (frame : Option Msg) :
    (∀ m ∈ frame, m.asksSession = false) ∨ ∃ m, frame = some m ∧ m.asksSession = true := by
  cases frame with
  | none => exact Or.inl fun m hm => by cases hm
  | some m =>
    cases hm : m.asksSession with
    | true => exact Or.inr ⟨m, rfl, hm⟩
    | false =>
      refine Or.inl ?_
      intro m' hm'
      cases hm'
      exact hm

/-- A websocket registers itself and adds nothing else. -/
theorem registers_handleTcp (sink : Option ConnId) (no : ℕ) (frame : Option Msg) :
    (handleTcp E cfg snap addr true c sink no frame).All (SrvOp.Registers true addr c) := by
  rcases asks_cases frame with hask | ⟨m, rfl, hask⟩
  · exact (only_handleTcp E cfg snap (fun o ho => Or.inl (ho.passive o))
      (fun cause o => Or.inl (passive_peer cause o)) (fun hws cause => Or.inr ⟨hws, cause, rfl⟩)
      sink no frame hask).all
  · obtain ⟨rest, hrest, heq⟩ := handleTcp_asks E cfg snap SrvOp.Plain.passive passive_peer addr
      true c sink no hask
    rw [heq]
    exact ⟨Or.inr ⟨rfl, _, rfl⟩, fun _ => (hrest sink).all.mono SrvOp.Passive.registers⟩

/-- A TCP connection without a sink adds nothing. -/
theorem passive_handleTcp (no : ℕ) (frame : Option Msg) :
    (handleTcp E cfg snap addr false c none no frame).Only SrvOp.Passive
      fun r => r.2 = none := by
  rcases asks_cases frame with hask | ⟨m, rfl, hask⟩
  · exact only_handleTcp E cfg snap SrvOp.Plain.passive passive_peer (by simp) none no frame hask
  · obtain ⟨rest, hrest, heq⟩ := handleTcp_asks E cfg snap SrvOp.Plain.passive passive_peer addr
      false c none no hask
    rw [heq]
    exact hrest none

/-- A TCP connection with its sink parks it, or keeps it. -/
theorem parks_handleTcp (no : ℕ) (frame : Option Msg) :
    (handleTcp E cfg snap addr false c (some c) no frame).Until SrvOp.Passive
      (SrvOp.punchInsert addr c) (Prog.Only SrvOp.Passive fun r => r.2 = none)
      fun r => r.2 = some c := by
  rcases asks_cases frame with hask | ⟨m, rfl, hask⟩
  · exact (only_handleTcp E cfg snap SrvOp.Plain.passive passive_peer (by simp) (some c) no frame
      hask).until
  · obtain ⟨rest, hrest, heq⟩ := handleTcp_asks E cfg snap SrvOp.Plain.passive passive_peer addr
      false c (some c) no hask
    rw [heq]
    exact Or.inl ⟨rfl, fun _ => hrest none⟩

theorem registers_readLoop (frames : List (Option Msg)) (no : ℕ) (sink : Option ConnId) :
    (readLoop E cfg snap addr true c frames no sink).All (SrvOp.Registers true addr c) := by
  induction frames generalizing no sink with
  | nil => trivial
  | cons f fs ih =>
    refine (registers_handleTcp E cfg snap addr c sink no f).bind ?_
    intro r
    obtain ⟨more, sink'⟩ := r
    cases more with
    | true => exact ih (no + 1) sink'
    | false => trivial

/-- Once the sink is gone the loop adds nothing, and ends without a sink. -/
theorem passive_readLoop (frames : List (Option Msg)) (no : ℕ) :
    (readLoop E cfg snap addr false c frames no none).Only SrvOp.Passive (· = none) := by
  induction frames generalizing no with
  | nil => rfl
  | cons f fs ih =>
    refine (passive_handleTcp E cfg snap addr c no f).bind ?_
    intro r hr
    obtain ⟨more, sink'⟩ := r
    cases hr
    cases more with
    | true => exact ih (no + 1)
    | false => rfl

/-- The loop parks the sink once and then ends without it, or ends with it. -/
theorem parks_readLoop (frames : List (Option Msg)) (no : ℕ) :
    (readLoop E cfg snap addr false c frames no (some c)).Until SrvOp.Passive
      (SrvOp.punchInsert addr c) (Prog.Only SrvOp.Passive (· = none)) (· = some c) := by
  induction frames generalizing no with
  | nil => rfl
  | cons f fs ih =>
    refine (parks_handleTcp E cfg snap addr c no f).bind (fun p hp => ?_) fun r hr => ?_
    · refine hp.bind ?_
      intro r hr
      obtain ⟨more, sink'⟩ := r
      cases hr
      cases more with
      | true => exact passive_readLoop E cfg snap addr c fs (no + 1)
      | false => rfl
    · obtain ⟨more, sink'⟩ := r
      cases hr
      cases more with
      | true => exact ih (no + 1)
      | false => rfl

theorem passive_sinkCleanup (sink : Option ConnId) : (sinkCleanup addr sink).All SrvOp.Passive := by
  cases sink with
  | none => exact ⟨trivial, fun _ => trivial⟩
  | some c => trivial

/-- **A websocket registers itself until its guard is dropped, and never after.** -/
theorem open_wsTask (frames : List (Option Msg)) : Open addr c (wsTask E cfg c addr frames) := by
  refine Or.inr ⟨Or.inl trivial, ?_⟩
  intro snap
  have hloop := (registers_readLoop E cfg snap addr c frames 0 (some c)).only
  refine hloop.bind_until fun sink _ => Or.inl ⟨rfl, fun _ => ⟨Or.inr rfl, ?_⟩⟩
  intro _
  exact (passive_sinkCleanup addr sink).mono fun _ h => Or.inl h

/-- **A TCP connection parks its sink at most once, and takes it out again if it did.** -/
theorem unparked_tcpTask (frames : List (Option Msg)) :
    Unparked addr c (tcpTask E cfg c addr frames) := by
  refine Or.inr ⟨trivial, ?_⟩
  intro snap
  refine (parks_readLoop E cfg snap addr c frames 0).bind (fun p hp => ?_) fun sink hsink => ?_
  · -- the loop that parked the sink ends without it, so the clean-up is not skipped
    refine hp.bind_until ?_
    intro sink hsink
    subst hsink
    exact Or.inl ⟨rfl, fun _ => trivial⟩
  · subst hsink
    trivial

/-- The UDP socket adds nothing. -/
theorem passive_handleUdp (addr : SocketAddr) (no : ℕ) (frame : Option Msg) :
    (handleUdp E addr no frame).All SrvOp.Passive := by
  cases frame with
  | none => trivial
  | some frame =>
    cases frame with
    | registerPeer rp =>
      refine Prog.All.ite ((all_liftPeer passive_peer _ _).bind fun requestPk => ?_) trivial
      refine ⟨trivial, fun _ => ⟨trivial, ?_⟩⟩
      intro snap
      dsimp only
      cases configFor snap rp.serial with
      | some cu => exact ⟨trivial, fun _ => trivial⟩
      | none => trivial
    | registerPk rk =>
      refine (all_liftPeer passive_peer _ _).bind ?_
      intro res
      cases res with
      | some res => exact ⟨trivial, fun _ => trivial⟩
      | none => trivial
    | configureUpdate cu =>
      exact ⟨trivial, fun snap => Prog.All.ite ⟨trivial, fun _ => trivial⟩ trivial⟩
    | softwareUpdate url =>
      exact ⟨trivial, fun snap => Prog.All.ite ⟨trivial, fun _ => trivial⟩ trivial⟩
    | _ => trivial

theorem passive_udpTask (datagrams : List (SocketAddr × Option Msg)) (no : ℕ) :
    (udpTask E datagrams no).All SrvOp.Passive := by
  induction datagrams generalizing no with
  | nil => trivial
  | cons d ds ih =>
    obtain ⟨addr, f⟩ := d
    exact (passive_handleUdp E addr no f).bind fun _ => ih (no + 1)

end Tasks
end RustdeskServer
