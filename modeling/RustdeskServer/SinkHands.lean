import RustdeskServer.Atomic.Hold
import RustdeskServer.RegistryLeak

/-!
# What a task holds of the TCP connections

The write half of a TCP connection is a value that is moved: from its task into `tcp_punch`
when the connection asks for a session, from there to whichever task takes it out to answer,
and it is dropped after that answer.  Which task comes to hold a sink is not known in advance:
a peer answers over a connection of its own, and an answer goes where the bytes in it lead.

Here each task has a *hand*: its own sink while it has it, the answer it looks for a sink
for, and the sink it took out for that answer.  What the handlers do is said in these terms,
handler by handler.

## Main definitions

* `Answer` — what a frame makes the server write to an address.
* `Hand`, `Hand.Moves` — what a task holds, and how a section changes it.

## Main results

* `handles_sendToTcp` — an answer goes to at most one sink.
* `handles_handleTcp` — one frame.
* `handles_prog` — **every task moves its hand as it should.**
-/

namespace RustdeskServer

open Atomic

/-! ### What a frame answers -/

/-- The response says no: it names no peer and has a reason. -/
def PunchHoleResponse.Refuses (p : PunchHoleResponse) : Prop :=
  p.socketAddr = [] ∧ p.relayServer = "" ∧ (p.failure ≠ none ∨ p.otherFailure ≠ "")

/-- What a frame from the address `addr` makes the server write to `dst`: a refusal to the
requester itself, or a peer's answer to the requester it names. -/
def Answer (E : Ext) (addr : SocketAddr) (frame : Msg) (dst : SocketAddr) (msg : Msg) : Prop :=
  match frame with
  | .punchHoleRequest _ => dst = addr ∧ ∃ p, msg = .punchHoleResponse p ∧ p.Refuses
  | .punchHoleSent phs => dst = E.hbb.decode phs.socketAddr ∧ ∃ now p,
      msg = .punchHoleResponse p ∧ p.socketAddr = E.hbb.encode now addr ∧
        p.relayServer = phs.relayServer ∧ p.isLocal = false
  | .localAddr la => dst = E.hbb.decode la.socketAddr ∧ ∃ p,
      msg = .punchHoleResponse p ∧ p.socketAddr = la.localAddr ∧
        p.relayServer = la.relayServer ∧ p.isLocal = true
  | .relayResponse rr => dst = E.hbb.decode rr.socketAddr ∧ ∃ union relay,
      msg = .relayResponse ⟨[], union, relay, rr.version⟩
  | _ => False

/-- The address and the frames of a connection. -/
def Listener.Hears (addr : SocketAddr) (frame : Msg) : Listener → Prop
  | .ws a frames => a = addr ∧ some frame ∈ frames
  | .tcp a frames => a = addr ∧ some frame ∈ frames
  | .udp _ => False

/-! ### What a task holds -/

/-- What a task holds: its own sink, the answer it found no websocket for, and a sink it took
out of `tcp_punch`, with the address it looked under. -/
structure Hand where
  /-- Its own sink. -/
  own : Bool
  /-- The answer. -/
  answer : Option (Cause × SocketAddr × Msg)
  /-- The sink of another connection, or its own again. -/
  taken : Option (ConnId × SocketAddr)

/-- The hand of a task that begins. -/
def Hand.initial : Hand := ⟨true, none, none⟩

/-- The sink of the task of connection `c`, which still has it or not. -/
def ownSink (c : ConnId) (own : Bool) : Option ConnId := if own then some c else none

variable (E : Ext)

/-- How a section changes the hand of the task of connection `c`, which is `l`. -/
def Hand.Moves (l : Listener) (c : ConnId) (h : Hand) : (o : SrvOp) → o.Res → Hand → Prop
  | .sendSink _ d msg, _, h' =>
    (d = c ∧ h.own = true ∧ h' = h) ∨
      ∃ cause dst key addr, h.answer = some (cause, dst, msg) ∧ h.taken = some (d, key) ∧
        keyOf E key = keyOf E dst ∧ cause.via.conn? = some c ∧ l.Hears addr cause.frame ∧
        Answer E addr cause.frame dst msg ∧ h' = { h with answer := none, taken := none }
  | .punchInsert a d, _, h' =>
    d = c ∧ h.own = true ∧ (∃ frames, l = .tcp a frames) ∧ h' = { h with own := false }
  | .pushWs cause dst msg, done, h' =>
    h' = { h with answer := if done then none else some (cause, dst, msg) }
  | .punchRemove a, r, h' => h' = { h with taken := r.map fun d => (d, a) }
  | _, _, h' => h' = h

/-- The sections that leave every hand as it is. -/
def SrvOp.Handless : SrvOp → Prop
  | .sendSink _ _ _ => False
  | .punchInsert _ _ => False
  | .pushWs _ _ _ => False
  | .punchRemove _ => False
  | _ => True

variable {E}

theorem SrvOp.Handless.moves {l : Listener} {c : ConnId} (h : Hand) (o : SrvOp) (r : o.Res)
    (ho : o.Handless) : h.Moves E l c o r h := by
  cases o with
  | sendSink cause d msg => exact ho.elim
  | punchInsert a d => exact ho.elim
  | pushWs cause dst msg => exact ho.elim
  | punchRemove a => exact ho.elim
  | _ => rfl

section Handlers

variable {cfg : Settings} {snap : Snapshot} {l : Listener} {c : ConnId} {h : Hand} {own : Bool}
  {addr : SocketAddr} {cause : Cause} {α : Type}

variable (E l c) in
/-- What the task of connection `c` performs are moves of its hand, to `Q`. -/
abbrev Handles (Q : α → Hand → Prop) (p : Prog SrvSig α) (h : Hand) : Prop :=
  p.Holds (Hand.Moves E l c) Q h

/-- The task has its own sink at the end, or has not. -/
def Left (own : Bool) (_ : α) (h : Hand) : Prop := h.own = own

/-- A part that leaves the hand as it is. -/
theorem handles_handless {p : Prog SrvSig α} (hp : p.All SrvOp.Handless) {Q : α → Hand → Prop}
    (hQ : ∀ a, Q a h) : Handles E l c Q p h :=
  hp.holds SrvOp.Handless.moves hQ

theorem handles_op {o : SrvOp} {k : o.Res → Prog SrvSig α} {Q : α → Hand → Prop}
    (ho : o.Handless) (hk : ∀ r, Handles E l c Q (k r) h) : Handles E l c Q (.op o k) h :=
  fun r => ⟨h, ho.moves h o r, hk r⟩

theorem handless_peer (cause : Cause) (o : PeerOp) : (SrvOp.peer cause o).Handless := trivial

/-- A task writes to its own sink while it has it. -/
theorem handles_sendToSink (hown : h.own = own) (cause : Option Cause) (msg : Msg) :
    Handles E l c (Left own) (sendToSink cause (ownSink c own) msg) h := by
  cases own with
  | false => exact hown
  | true => exact fun _ => ⟨h, Or.inl ⟨rfl, hown, rfl⟩, hown⟩

/-- **An answer goes into a websocket's channel or to the one sink that is taken out for it.** -/
theorem handles_sendToTcp (hown : h.own = own) {dst : SocketAddr} {msg : Msg}
    (hvia : cause.via.conn? = some c) (hears : l.Hears addr cause.frame)
    (hanswer : Answer E addr cause.frame dst msg) :
    Handles E l c (Left own) (sendToTcp cause msg dst) h := by
  intro done
  refine ⟨_, rfl, ?_⟩
  cases done with
  | true => exact hown
  | false =>
    intro taken
    refine ⟨_, rfl, ?_⟩
    cases taken with
    | none => exact hown
    | some d => exact fun _ => ⟨_, Or.inr ⟨cause, dst, dst, addr, rfl, rfl, rfl, hvia, hears,
        hanswer, rfl⟩, hown⟩

theorem handles_forward (hown : h.own = own) (dst : SocketAddr) (msg : Msg) :
    Handles E l c (Left own) (forward cause msg dst) h := by
  intro done
  refine ⟨_, rfl, ?_⟩
  cases done with
  | true => exact hown
  | false => exact handles_op trivial fun _ => hown

/-! ### The handlers -/

/-- What `authorize` refuses with is a refusal. -/
theorem handles_authorize (ph : PunchHoleRequest) :
    Handles E l c (fun r h' => h' = h ∧ ∀ p ∈ r, p.Refuses) (authorize cfg cause ph) h := by
  unfold authorize
  refine Prog.Holds.ite (fun _ => ⟨rfl, ?_⟩) fun _ => handles_op trivial fun mustLogin => ?_
  · rintro p ⟨⟩
    exact ⟨rfl, rfl, Or.inl nofun⟩
  refine Prog.Holds.ite (fun _ => ?_) fun _ => ⟨rfl, nofun⟩
  refine Prog.Holds.ite (fun _ => ⟨rfl, ?_⟩) fun _ => ?_
  · rintro p ⟨⟩
    exact ⟨rfl, rfl, Or.inr (by decide)⟩
  refine Prog.Holds.ite (fun _ => handles_op trivial fun good => ?_) fun _ => ⟨rfl, nofun⟩
  refine Prog.Holds.ite (fun _ => ⟨rfl, nofun⟩) fun _ => ⟨rfl, ?_⟩
  rintro p ⟨⟩
  exact ⟨rfl, rfl, Or.inr (by decide)⟩

/-- What goes back to the requester is a refusal. -/
theorem handles_handlePunchHoleRequest (ph : PunchHoleRequest) (ws : Bool) :
    Handles E l c (fun r h' => h' = h ∧
        (r.2 = none → ∃ p, r.1 = .punchHoleResponse p ∧ p.Refuses))
      (handlePunchHoleRequest E cfg snap cause addr ph ws) h := by
  refine (handles_authorize ph).bind ?_
  rintro refusal h₁ ⟨rfl, hrefuses⟩
  cases refusal with
  | some p => exact ⟨rfl, fun _ => ⟨p, rfl, hrefuses p rfl⟩⟩
  | none =>
    refine Prog.Holds.bind (handles_handless (all_liftPeer handless_peer _ _)
      (Q := fun _ h₂ => h₂ = h₁) fun _ => rfl) ?_
    rintro peer h₂ rfl
    cases peer with
    | none => exact ⟨rfl, fun _ => ⟨_, rfl, rfl, rfl, Or.inl nofun⟩⟩
    | some peer =>
      refine handles_op trivial fun r => handles_op trivial fun now => ?_
      refine Prog.Holds.ite (fun _ => ⟨rfl, fun _ => ⟨_, rfl, rfl, rfl, Or.inl nofun⟩⟩) fun _ => ?_
      -- the peer is there, so that the message is for it
      refine handles_op trivial fun _ => handles_op trivial fun _ => handles_op trivial fun _ =>
        handles_op trivial fun _ => ⟨rfl, nofun⟩

theorem handles_handleTcpPunchHoleRequest (hown : h.own = own)
    (hvia : cause.via.conn? = some c) (hears : l.Hears addr cause.frame) {ph : PunchHoleRequest}
    (hframe : cause.frame = .punchHoleRequest ph) (ws : Bool) :
    Handles E l c (Left own) (handleTcpPunchHoleRequest E cfg snap cause addr ph ws) h := by
  refine (handles_handlePunchHoleRequest ph ws).bind ?_
  rintro ⟨msg, dst⟩ _ ⟨rfl, hrefuses⟩
  cases dst with
  | some dst => exact handles_forward hown dst msg
  | none =>
    refine handles_sendToTcp hown hvia hears ?_
    rw [hframe]
    exact ⟨rfl, hrefuses rfl⟩

theorem handless_getPk (version id : String) : (getPk E snap cause version id).All SrvOp.Handless :=
  all_getPk snap handless_peer cause version id

theorem handles_handleHoleSent (hown : h.own = own) (hvia : cause.via.conn? = some c)
    (hears : l.Hears addr cause.frame) {phs : PunchHoleSent}
    (hframe : cause.frame = .punchHoleSent phs) :
    Handles E l c (Left own) (handleHoleSent E snap cause addr phs) h := by
  refine handles_op trivial fun now => ?_
  refine Prog.Holds.bind (handles_handless (handless_getPk _ _) (Q := fun _ h' => h' = h)
    fun _ => rfl) ?_
  rintro pk _ rfl
  refine handles_sendToTcp hown hvia hears ?_
  rw [hframe]
  exact ⟨rfl, now, _, rfl, rfl, rfl, rfl⟩

theorem handles_handleLocalAddr (hown : h.own = own) (hvia : cause.via.conn? = some c)
    (hears : l.Hears addr cause.frame) {la : LocalAddr} (hframe : cause.frame = .localAddr la) :
    Handles E l c (Left own) (handleLocalAddr E snap cause la) h := by
  refine Prog.Holds.bind (handles_handless (handless_getPk _ _) (Q := fun _ h' => h' = h)
    fun _ => rfl) ?_
  rintro pk _ rfl
  refine handles_sendToTcp hown hvia hears ?_
  rw [hframe]
  exact ⟨rfl, _, rfl, rfl, rfl, rfl⟩

theorem handless_relayOfResponse (addrB : SocketAddr) (relayServer : String) :
    (relayOfResponse snap addr addrB relayServer).All SrvOp.Handless :=
  Prog.All.ite trivial (Prog.All.ite trivial
    (Prog.All.ite ⟨trivial, fun _ => trivial⟩ trivial))

theorem handles_handleRelayResponse (hown : h.own = own) (hvia : cause.via.conn? = some c)
    (hears : l.Hears addr cause.frame) {rr : RelayResponse}
    (hframe : cause.frame = .relayResponse rr) :
    Handles E l c (Left own) (handleRelayResponse E snap cause addr rr) h := by
  refine Prog.Holds.bind (Q := fun _ h₁ => h₁ = h) (handles_handless ?_ fun _ => rfl) ?_
  · exact Prog.All.ite trivial ((handless_getPk _ _).bind fun _ => trivial)
  rintro union h₁ rfl
  refine Prog.Holds.bind (handles_handless (handless_relayOfResponse _ _)
    (Q := fun _ h₂ => h₂ = h₁) fun _ => rfl) ?_
  rintro relay h₂ rfl
  refine handles_sendToTcp hown hvia hears ?_
  rw [hframe]
  exact ⟨rfl, union, relay, rfl⟩

theorem handless_onlineFrom (ids : List String) (i : ℕ) (states : Bytes) :
    (onlineFrom cause ids i states).All SrvOp.Handless := by
  induction ids generalizing i states with
  | nil => trivial
  | cons id ids ih =>
    refine ⟨trivial, ?_⟩
    intro p
    cases p with
    | none => exact ih _ _
    | some peer => exact ⟨trivial, fun _ => ⟨trivial, fun _ => ih _ _⟩⟩

theorem handless_registerIfWs (ws : Bool) : (registerIfWs cause addr ws c).All SrvOp.Handless := by
  cases ws with
  | true => exact ⟨trivial, fun _ => trivial⟩
  | false => trivial

theorem handles_handleRegisterPeer (hown : h.own = own) (ws : Bool) (rp : RegisterPeer) :
    Handles E l c (Left own) (handleRegisterPeer snap cause addr ws c (ownSink c own) rp) h := by
  unfold handleRegisterPeer
  refine Prog.Holds.ite (fun _ => ?_) fun _ => hown
  refine Prog.Holds.bind (handles_handless (all_liftPeer handless_peer _ _)
    (Q := fun _ h' => h' = h) fun _ => rfl) ?_
  rintro requestPk _ rfl
  refine (handles_sendToSink hown _ _).bind ?_
  intro _ h₁ hown₁
  refine Prog.Holds.bind (handles_handless (handless_registerIfWs ws) (Q := Left own)
    fun _ => hown₁) ?_
  intro _ h₂ hown₂
  cases configFor snap rp.serial with
  | some cu => exact handles_sendToSink hown₂ _ _
  | none => exact hown₂

theorem handles_handleRequestRelay (hown : h.own = own) (rf : RequestRelay) :
    Handles E l c (Left own) (handleRequestRelay E cause addr rf) h := by
  refine handles_op trivial fun p => ?_
  cases p with
  | none => exact hown
  | some peer =>
    exact handles_op trivial fun _ => handles_op trivial fun _ => handles_forward hown _ _

end Handlers

/-! ### Connections -/

section Tasks

variable (cfg : Settings) (snap : Snapshot) {l : Listener} {c : ConnId} {h : Hand} {own : Bool}
  {addr : SocketAddr} {α : Type}

/-- The sink that a part returns is the one the task still has. -/
def SinkLeft (c : ConnId) (sink : Option ConnId) (h : Hand) : Prop := sink = ownSink c h.own

/-- A handler that leaves the sink alone. -/
theorem handles_keep {p : Prog SrvSig α} (hp : Handles E l c (Left own) p h) (stay : Bool) :
    Handles E l c (fun r h' => SinkLeft c r.2 h')
      (p >>= fun _ => .ret (stay, ownSink c own)) h := by
  refine hp.bind ?_
  intro _ h' hown
  exact congrArg (ownSink c) (Eq.symm hown)

/-- A TCP connection gives its sink away, a websocket keeps it. -/
theorem handles_routeBack (hown : h.own = own) (cause : Cause) (ws : Bool)
    (hplace : ws = false → ∃ frames, l = .tcp addr frames) :
    Handles E l c (SinkLeft c) (routeBack cause addr ws c (ownSink c own)) h := by
  cases ws with
  | true => exact handles_op trivial fun _ => congrArg (ownSink c) hown.symm
  | false =>
    cases own with
    | false => exact congrArg (ownSink c) hown.symm
    | true => exact fun _ => ⟨_, ⟨rfl, hown, hplace rfl, rfl⟩, rfl⟩

/-- **`handle_tcp` moves the hand of its connection.** -/
theorem handles_handleTcp (hown : h.own = own) (ws : Bool)
    (hplace : ws = false → ∃ frames, l = .tcp addr frames) (no : ℕ) (frame : Option Msg)
    (hears : ∀ m ∈ frame, l.Hears addr m) :
    Handles E l c (fun r h' => SinkLeft c r.2 h')
      (handleTcp E cfg snap addr ws c (ownSink c own) no frame) h := by
  have hsame : SinkLeft c (ownSink c own) h := congrArg (ownSink c) hown.symm
  cases frame with
  | none => exact hsame
  | some frame =>
    have hvia : (if ws then Via.ws c else Via.tcp c).conn? = some c := by cases ws <;> rfl
    have hframe : l.Hears addr frame := hears frame rfl
    unfold handleTcp
    cases frame with
    | punchHoleRequest ph =>
      refine (handles_routeBack hown _ ws hplace).bind ?_
      rintro sink h₁ rfl
      exact handles_keep (handles_handleTcpPunchHoleRequest rfl hvia hframe rfl ws) true
    | requestRelay rf =>
      refine (handles_routeBack hown _ ws hplace).bind ?_
      rintro sink h₁ rfl
      exact handles_keep (handles_handleRequestRelay rfl rf) true
    | relayResponse rr =>
      exact handles_keep (handles_handleRelayResponse hown hvia hframe rfl) ws
    | punchHoleSent phs => exact handles_keep (handles_handleHoleSent hown hvia hframe rfl) ws
    | localAddr la => exact handles_keep (handles_handleLocalAddr hown hvia hframe rfl) ws
    | testNatRequest serial => exact handles_keep (handles_sendToSink hown _ _) ws
    | onlineRequest peers =>
      refine Prog.Holds.bind (handles_handless (handless_onlineFrom peers 0 _) (Q := Left own)
        fun _ => hown) ?_
      intro states h₁ hown₁
      exact handles_keep (handles_sendToSink hown₁ _ _) ws
    | registerPeer rp => exact handles_keep (handles_handleRegisterPeer hown ws rp) ws
    | registerPk rk =>
      refine Prog.Holds.bind (handles_handless (all_liftPeer handless_peer _ _) (Q := Left own)
        fun _ => hown) ?_
      intro res h₁ hown₁
      cases res with
      | none => exact congrArg (ownSink c) (Eq.symm hown₁)
      | some res =>
        refine (handles_sendToSink hown₁ _ _).bind ?_
        intro _ h₂ hown₂
        refine Prog.Holds.ite (fun _ => ?_) fun _ => congrArg (ownSink c) (Eq.symm hown₂)
        exact handles_keep (handles_handless (handless_registerIfWs ws) fun _ => hown₂) true
    | _ => exact hsame

theorem handles_readLoop (ws : Bool) (hplace : ws = false → ∃ frames, l = .tcp addr frames)
    (frames : List (Option Msg)) (hears : ∀ m, some m ∈ frames → l.Hears addr m) (no : ℕ)
    (hown : h.own = own) :
    Handles E l c (SinkLeft c)
      (readLoop E cfg snap addr ws c frames no (ownSink c own)) h := by
  induction frames generalizing no h own with
  | nil => exact congrArg (ownSink c) hown.symm
  | cons f fs ih =>
    refine (handles_handleTcp cfg snap hown ws hplace no f fun m hm =>
      hears m (hm ▸ List.mem_cons_self)).bind ?_
    rintro ⟨more, sink⟩ h₁ hsink
    cases hsink
    cases more with
    | true => exact ih (fun m hm => hears m (List.mem_cons_of_mem _ hm)) (no + 1) rfl
    | false => exact rfl

/-- The clean-up takes the sink out, and drops it. -/
theorem handles_sinkCleanup (sink : Option ConnId) :
    Handles E l c (fun _ _ => True) (sinkCleanup addr sink) h := by
  cases sink with
  | some d => trivial
  | none => exact fun _ => ⟨_, rfl, trivial⟩

theorem handless_handleUdp (no : ℕ) (frame : Option Msg) :
    (handleUdp E addr no frame).All SrvOp.Handless := by
  cases frame with
  | none => trivial
  | some frame =>
    cases frame with
    | registerPeer rp =>
      refine Prog.All.ite ((all_liftPeer handless_peer _ _).bind fun requestPk => ?_) trivial
      refine ⟨trivial, fun _ => ⟨trivial, ?_⟩⟩
      intro snap
      dsimp only
      cases configFor snap rp.serial with
      | some cu => exact ⟨trivial, fun _ => trivial⟩
      | none => trivial
    | registerPk rk =>
      refine (all_liftPeer handless_peer _ _).bind ?_
      intro res
      cases res with
      | some res => exact ⟨trivial, fun _ => trivial⟩
      | none => trivial
    | configureUpdate cu =>
      exact ⟨trivial, fun snap => Prog.All.ite ⟨trivial, fun _ => trivial⟩ trivial⟩
    | softwareUpdate url =>
      exact ⟨trivial, fun snap => Prog.All.ite ⟨trivial, fun _ => trivial⟩ trivial⟩
    | _ => trivial

theorem handless_udpTask (datagrams : List (SocketAddr × Option Msg)) (no : ℕ) :
    (udpTask E datagrams no).All SrvOp.Handless := by
  induction datagrams generalizing no with
  | nil => trivial
  | cons d ds ih =>
    obtain ⟨a, f⟩ := d
    exact (handless_handleUdp no f).bind fun _ => ih (no + 1)

/-- **Every task moves its hand as it should.** -/
theorem handles_prog (l : Listener) (c : ConnId) :
    Handles E l c (fun _ _ => True) ((l.task c).prog E cfg) .initial := by
  cases l with
  | ws addr frames =>
    have hears : ∀ m, some m ∈ frames → (Listener.ws addr frames).Hears addr m :=
      fun m hm => ⟨rfl, hm⟩
    refine handles_op trivial fun snap => ?_
    refine (handles_readLoop cfg snap true nofun frames hears 0 (h := .initial) rfl).bind ?_
    intro sink h₁ _
    exact handles_op trivial fun _ => handles_op trivial fun _ => handles_sinkCleanup sink
  | tcp addr frames =>
    have hears : ∀ m, some m ∈ frames → (Listener.tcp addr frames).Hears addr m :=
      fun m hm => ⟨rfl, hm⟩
    refine handles_op trivial fun snap => ?_
    refine (handles_readLoop cfg snap false (fun _ => ⟨frames, rfl⟩) frames hears 0
      (h := .initial) rfl).bind ?_
    intro sink h₁ _
    exact handles_sinkCleanup sink
  | udp datagrams => exact handles_handless (handless_udpTask datagrams 0) fun _ => trivial

end Tasks

end RustdeskServer
