import RustdeskServer.AddrParse
import RustdeskServer.RelayPhases
import RustdeskServer.RelayStream

/-!
# The lists of the relay server

`handle_connection` looks a client up in `BLOCKLIST` under its address after `try_into_v4`;
`relay` looks it up in both lists, once a second, under the address as it was accepted.  The
two texts differ for an IPv4 client of a dual-stack listener.  And `relay` only ever looks up
the client that came second: the one that came first left its stream, but not its address.

## Main definitions

* `Op.asked?`, `Asks` — the texts that are looked up.
* `SameLists` — a client is looked up under one text.
* `Decision`, `decisions` — what a session decides about its limits.
* `SameDecisions` — who came first does not matter.

## Main results

* `lists_same_iff` — **which clients are looked up under one text.**
* `limits_order_free` — **when it does not matter who came first.**
-/

namespace RustdeskServer

namespace Hbbr

open Atomic AddrParse

/-! ### Which texts are looked up -/

/-- The text that a section looks up in a list. -/
def Op.asked? : Op → Option String
  | .blocked ip => some ip
  | .blacked ip => some ip
  | _ => none

/-- A list is asked for this text only. -/
def Asks (ip : String) (o : Op) : Prop := ∀ t ∈ o.asked?, t = ip

theorem asks_of_none {ip : String} {o : Op} (h : o.asked? = none) : Asks ip o := by
  intro t ht
  rw [h] at ht
  cases ht

theorem asks_blocked (ip : String) : Asks ip (.blocked ip) := by
  intro t ht
  exact (Option.some.inj ht).symm

theorem asks_blacked (ip : String) : Asks ip (.blacked ip) := by
  intro t ht
  exact (Option.some.inj ht).symm

theorem forward_asks (ip : String) (x : Session) (l : Loop) (dst : Stream) (chunk : Chunk) :
    (forward x l dst chunk).All (Asks ip) := by
  refine ⟨asks_of_none rfl, fun now => ⟨asks_of_none rfl, fun _ => ⟨asks_of_none rfl, fun _ => ?_⟩⟩⟩
  dsimp only
  split
  · trivial
  · refine ⟨asks_of_none rfl, ?_⟩
    intro err
    cases err with
    | none => trivial
    | some err => trivial

theorem turn_asks (ip : String) (x : Session) (l : Loop) : (turn x l).All (Asks ip) := by
  refine ⟨asks_of_none rfl, ?_⟩
  intro t
  cases t with
  | peer res =>
    cases res with
    | none => trivial
    | some chunk => exact (forward_asks ip x l _ chunk).bind fun _ => trivial
  | stream res =>
    cases res with
    | none => trivial
    | some chunk => exact (forward_asks ip x l _ chunk).bind fun _ => trivial
  | tick =>
    refine ⟨asks_of_none rfl, fun now => ?_⟩
    exact Prog.All.ite trivial trivial

theorem account_asks (x : Session) (l : Loop) : (account x l).All (Asks x.ip) := by
  refine ⟨asks_of_none rfl, fun now => ?_⟩
  refine Prog.All.ite ⟨asks_blocked x.ip, fun blocked => ?_⟩ trivial
  refine Prog.All.ite trivial ⟨asks_blacked x.ip, fun blacked => ?_⟩
  exact ⟨asks_of_none rfl, fun _ => ⟨asks_of_none rfl, fun _ => ⟨asks_of_none rfl, fun _ =>
    trivial⟩⟩⟩

theorem relayLoop_asks (x : Session) (n : ℕ) (l : Loop) : (relayLoop x n l).All (Asks x.ip) := by
  induction n generalizing l with
  | zero => trivial
  | succ n ih =>
    rw [relayLoop]
    refine (turn_asks x.ip x l).bind ?_
    rintro (err | _ | l)
    · trivial
    · trivial
    · refine (account_asks x l).bind ?_
      rintro (_ | l)
      · trivial
      · exact ih l

/-- A session asks for the address it was given. -/
theorem relay_asks (addr : SocketAddr) (stream peer : Stream) (id : String) (turns : ℕ) :
    (relay addr stream peer id turns).All (Asks addr.ip.toText) :=
  ⟨asks_of_none rfl, fun _ => ⟨asks_of_none rfl, fun (sb : ℕ) => ⟨asks_of_none rfl,
    fun (limitSpeed : ℕ) => ⟨asks_of_none rfl, fun (threshold : ℕ) => ⟨asks_of_none rfl, fun _ =>
      relayLoop_asks ⟨addr.ip.toText, id, stream, peer, sb, limitSpeed,
        sb * threshold / 100000⟩ turns _⟩⟩⟩⟩⟩

/-- So does a connection's task after `handle_connection`. -/
theorem makePair_asks (key : String) (c : ConnId) (conn : Conn) :
    (makePair_ key c conn).All (Asks conn.addr.ip.toText) := by
  rw [makePair_eq]
  cases conn.request? key with
  | none => trivial
  | some uuid =>
    refine ⟨asks_of_none rfl, ?_⟩
    rintro (_ | peer)
    · exact ⟨asks_of_none rfl, fun _ => ⟨asks_of_none rfl, fun _ => trivial⟩⟩
    · exact ⟨asks_of_none rfl, fun _ => (relay_asks _ _ _ _ _).bind fun _ =>
        ⟨asks_of_none rfl, fun _ => trivial⟩⟩

/-! ### One text for a client -/

/-- A plain client at this address is looked up under the text that `handle_connection` looks
up, wherever it is looked up: so every answer is the one that `handle_connection` would get from
the same list. -/
structure SameLists (hbb : HbbCommon) (addr : SocketAddr) : Prop where
  /-- The texts. -/
  texts : ∀ key c (conn : Conn), conn.ws = false → conn.tcpAddr = addr →
    ∀ l, ∀ x ∈ machine.trace (handleConnection hbb key c conn) l,
      ∀ t ∈ x.1.asked?, t = (hbb.tryIntoV4 addr).ip.toText
  /-- The answers of `BLOCKLIST`. -/
  blocked : ∀ key c (conn : Conn), conn.ws = false → conn.tcpAddr = addr → ∀ l f t r,
    ⟨.blocked t, r⟩ ∈ machine.does (machine.feed (handleConnection hbb key c conn) l) f →
      r = decide ((hbb.tryIntoV4 addr).ip.toText ∈ f.2.blocklist)
  /-- The answers of `BLACKLIST`. -/
  blacked : ∀ key c (conn : Conn), conn.ws = false → conn.tcpAddr = addr → ∀ l f t r,
    ⟨.blacked t, r⟩ ∈ machine.does (machine.feed (handleConnection hbb key c conn) l) f →
      r = decide ((hbb.tryIntoV4 addr).ip.toText ∈ f.2.blacklist)

theorem handleConnection_asks {hbb : HbbCommon} {key : String} {c : ConnId} {conn : Conn}
    (hws : conn.ws = false)
    (h : (hbb.tryIntoV4 conn.tcpAddr).ip = conn.tcpAddr.ip ∨
      (hbb.tryIntoV4 conn.tcpAddr).ip.isLoopback = true) :
    (handleConnection hbb key c conn).All (Asks (hbb.tryIntoV4 conn.tcpAddr).ip.toText) := by
  unfold handleConnection
  dsimp only
  by_cases hloop : (hbb.tryIntoV4 conn.tcpAddr).ip.isLoopback = true
  · -- the console
    rw [if_pos (by simp [hws, hloop])]
    exact ⟨asks_of_none rfl, fun _ => trivial⟩
  · rw [if_neg (by simp [hws, hloop])]
    refine ⟨asks_blocked _, fun blocked => Prog.All.ite trivial ?_⟩
    have haddr : conn.addr = conn.tcpAddr := by simp [Conn.addr, hws]
    have hpair := makePair_asks key c conn
    rwa [haddr, ← h.resolve_right hloop] at hpair

/-- An answer about a text that was asked for. -/
theorem answer_of_asks {ip : String} {p : Prog RelaySig Unit} (hp : p.All (Asks ip))
    {f : Env × State} {x : Done} (hx : x ∈ machine.does p f) :
    (∀ t r, x = ⟨.blocked t, r⟩ → r = decide (ip ∈ f.2.blocklist)) ∧
      ∀ t r, x = ⟨.blacked t, r⟩ → r = decide (ip ∈ f.2.blacklist) := by
  cases p with
  | ret a => cases hx
  | op o k =>
    obtain rfl : x = ⟨o, (machine.exec f.1 o f.2).2⟩ := List.mem_singleton.mp hx
    constructor
    · rintro t r heq
      obtain ⟨rfl, hr⟩ := Sigma.mk.inj heq
      obtain rfl : t = ip := hp.1 t rfl
      exact (eq_of_heq hr).symm
    · rintro t r heq
      obtain ⟨rfl, hr⟩ := Sigma.mk.inj heq
      obtain rfl : t = ip := hp.1 t rfl
      exact (eq_of_heq hr).symm

/-! ### An accounting point -/

/-- A session keeps the address it was given. -/
theorem Sess.step_ip (s : Sess) (f : Find) : (s.step f).x.ip = s.x.ip := by
  obtain ⟨x, n, l, stage⟩ := s
  cases stage <;> simp only [Sess.step] <;> (try split) <;> simp

theorem Sess.run_ip (s : Sess) (l : List Find) : (l.foldl Sess.step s).x.ip = s.x.ip := by
  induction l generalizing s with
  | nil => rfl
  | cons f l ih => exact (ih (s.step f)).trans (s.step_ip f)

/-- A second passes, and nothing arrives. -/
def quietSecond (st : State) : List Find :=
  List.replicate 7 ⟨0, .tick, none, st⟩ ++ [⟨1000, .tick, none, st⟩]

theorem quietSecond_stage (addr : SocketAddr) (stream peer : Stream) (id : String) (n : ℕ)
    (st : State) :
    ((quietSecond st).foldl Sess.step (Sess.start addr stream peer id (n + 1))).stage =
      .blocking 1000 := by
  simp [quietSecond, List.replicate, Sess.step, Sess.start, Sess.again, Arrival.input,
    elapsedSecs, elapsedMillis]

/-- After it a session reads `BLOCKLIST`. -/
theorem quietSecond_blocking (addr : SocketAddr) (stream peer : Stream) (id : String) (n : ℕ)
    (st : State) :
    ((quietSecond st).foldl Sess.step (Sess.start addr stream peer id (n + 1))).next? =
      some (.blocked addr.ip.toText) := by
  rw [Sess.next?, quietSecond_stage, Sess.run_ip]
  rfl

/-- The first thing that a session decides. -/
theorem trace_quietSecond (addr : SocketAddr) (stream peer : Stream) (id : String) (n : ℕ)
    (st : State) (f : Find) :
    (⟨.blocked addr.ip.toText, decide (addr.ip.toText ∈ f.st.blocklist)⟩ : Done) ∈
      machine.trace (relay addr stream peer id (n + 1))
        ((quietSecond st ++ [f]).map Find.input) := by
  have hdoes := (Sess.relay_feed addr stream peer id (n + 1) (quietSecond st)).does_eq f
  rw [quietSecond_blocking] at hdoes
  rw [List.map_append, List.map_singleton, Machine.trace_concat, hdoes]
  exact List.mem_append_right _ (List.mem_singleton.mpr rfl)

/-! ### Which clients are looked up under one text -/

/-- A plain client that asks for `u`. -/
def clientAt (addr : SocketAddr) : Conn where
  tcpAddr := addr
  ws := false
  realAddr := addr
  first := some (.requestRelay ⟨"", "u", [], ""⟩)
  turns := 1
  command := id

/-- A state in which a stream waits under `u`. -/
def oneWaits : State :=
  { State.blank with peers := (∅ : HashMap String Stream).insert "u" ⟨0, false, false⟩ }

theorem handleConnection_clientAt {hbb : HbbCommon} {addr : SocketAddr}
    (hloop : (hbb.tryIntoV4 addr).ip.isLoopback = false) :
    handleConnection hbb "" 1 (clientAt addr) =
      .op (.blocked (hbb.tryIntoV4 addr).ip.toText) fun blocked : Bool =>
        if blocked then .ret () else makePair_ "" 1 (clientAt addr) := by
  simp [handleConnection, clientAt, hloop]

/-- Its task comes to a session, and there to its first accounting point. -/
theorem clientAt_asks {hbb : HbbCommon} {addr : SocketAddr}
    (hloop : (hbb.tryIntoV4 addr).ip.isLoopback = false) :
    ∃ l, ∃ x ∈ machine.trace (handleConnection hbb "" 1 (clientAt addr)) l,
      x.1.asked? = some addr.ip.toText := by
  have hlook := trace_quietSecond addr ⟨1, false, true⟩ ⟨0, false, true⟩
    (addr.ip.toText ++ ":" ++ toString addr.port.toNat) 0 .blank ⟨1000, .tick, none, .blank⟩
  refine ⟨(Env.at 0, oneWaits) :: (Env.at 0, oneWaits) :: (Env.at 0, oneWaits) ::
    (quietSecond .blank ++ [(⟨1000, .tick, none, .blank⟩ : Find)]).map Find.input,
    ⟨.blocked addr.ip.toText, decide (addr.ip.toText ∈ State.blank.blocklist)⟩, ?_, rfl⟩
  rw [handleConnection_clientAt hloop]
  refine List.mem_append_right _ (List.mem_append_right _ (List.mem_append_right _ ?_))
  exact Machine.mem_trace_bind hlook

/-- **Which clients are looked up under one text**: those whose address `try_into_v4` leaves
alone, and those that come to the console instead. -/
theorem lists_same_iff (hbb : HbbCommon) (addr : SocketAddr) :
    SameLists hbb addr ↔
      (hbb.tryIntoV4 addr).ip = addr.ip ∨ (hbb.tryIntoV4 addr).ip.isLoopback = true := by
  constructor
  · intro h
    by_cases hloop : (hbb.tryIntoV4 addr).ip.isLoopback = true
    · exact .inr hloop
    · obtain ⟨l, x, hx, ht⟩ := clientAt_asks (Bool.not_eq_true _ ▸ hloop)
      have htext := h.texts "" 1 (clientAt addr) rfl rfl l x hx _ ht
      exact .inl (toText_injective htext.symm)
  · intro h
    have hasks : ∀ key c (conn : Conn), conn.ws = false → conn.tcpAddr = addr →
        (handleConnection hbb key c conn).All (Asks (hbb.tryIntoV4 addr).ip.toText) := by
      rintro key c conn hws rfl
      exact handleConnection_asks hws h
    refine ⟨?_, ?_, ?_⟩
    · intro key c conn hws haddr l x hx t ht
      exact Machine.trace_all (hasks key c conn hws haddr) l x hx t ht
    · intro key c conn hws haddr l f t r hx
      exact (answer_of_asks (Machine.feed_all (hasks key c conn hws haddr) l) hx).1 t r rfl
    · intro key c conn hws haddr l f t r hx
      exact (answer_of_asks (Machine.feed_all (hasks key c conn hws haddr) l) hx).2 t r rfl

/-- `try_into_v4` on addresses that are no deprecated IPv4-compatible ones: a mapped address is
unwrapped. -/
def unwrapping : HbbCommon where
  tryIntoV4 := fun a => ⟨a.ip.toCanonical, a.port⟩
  encode := fun _ _ => []
  decode := fun _ => .unspecified

/-- `192.0.2.7`, as a dual-stack listener reports it. -/
def mappedClient : SocketAddr := ⟨.v6 0xffffc0000207, 40000⟩

/-- A state in which its dotted address is blocked. -/
def dottedBlocked : State := { State.blank with blocklist := ["192.0.2.7"] }

/-- **An IPv4 client of a dual-stack listener is looked up under two texts**: with its dotted
address in `BLOCKLIST`, `handle_connection` turns it away, and `relay` does not find it. -/
theorem mapped_client_two_texts :
    machine.feed (handleConnection unwrapping "" 1 (clientAt mappedClient))
        [(Env.at 0, dottedBlocked)] = .ret () ∧
      (⟨.blocked "::ffff:192.0.2.7", false⟩ : Done) ∈
        machine.trace (relay mappedClient ⟨1, false, true⟩ ⟨0, false, true⟩ "id" 1)
          ((quietSecond dottedBlocked ++
            [(⟨1000, .tick, none, dottedBlocked⟩ : Find)]).map Find.input) ∧
      ¬SameLists unwrapping mappedClient := by
  have htext : mappedClient.ip.toText = "::ffff:192.0.2.7" := by decide
  have hno : decide (mappedClient.ip.toText ∈ dottedBlocked.blocklist) = false := by decide
  refine ⟨?_, ?_, ?_⟩
  · have hyes : decide ((unwrapping.tryIntoV4 mappedClient).ip.toText ∈
        dottedBlocked.blocklist) = true := by decide
    rw [handleConnection_clientAt (by decide)]
    exact @if_pos _ _ hyes _ _ (makePair_ "" 1 (clientAt mappedClient))
  · have hlook := trace_quietSecond mappedClient ⟨1, false, true⟩ ⟨0, false, true⟩ "id" 0
      dottedBlocked ⟨1000, .tick, none, dottedBlocked⟩
    rw [hno, htext] at hlook
    exact hlook
  · intro h
    obtain ⟨l, x, hx, ht⟩ := @clientAt_asks unwrapping mappedClient (by decide)
    have hsame := h.texts "" 1 (clientAt mappedClient) rfl rfl l x hx _ ht
    exact absurd hsame (by decide)

/-! ### What a session decides about its limits -/

/-- A decision of an accounting point. -/
inductive Decision
  /-- The session ends as blocked, or not. -/
  | blocked (b : Bool)
  /-- It is limited as blacklisted, or not. -/
  | blacked (b : Bool)
  deriving DecidableEq

/-- The decision that an operation makes. -/
def Done.decision : Done → Option Decision
  | ⟨.blocked _, b⟩ => some (.blocked b)
  | ⟨.blacked _, b⟩ => some (.blacked b)
  | _ => none

/-- The decisions in a trace. -/
def decisions (tr : List Done) : List Decision := tr.filterMap Done.decision

/-- The same traffic, seen from the other end. -/
def Input.mirror : Input → Input
  | .peer res => .stream res
  | .stream res => .peer res
  | .tick => .tick

/-- Two sessions find the same time, lists and settings, and the same traffic, each from its
own end. -/
structure Mirrored (f g : Find) : Prop where
  /-- The time. -/
  now : g.now = f.now
  /-- The traffic. -/
  input : g.arrival.input = f.arrival.input.mirror
  /-- Whether a message can be sent. -/
  sendFails : g.sendFails = f.sendFails
  /-- `BLOCKLIST`. -/
  blocklist : g.st.blocklist = f.st.blocklist
  /-- `BLACKLIST`. -/
  blacklist : g.st.blacklist = f.st.blacklist
  /-- The settings. -/
  params : g.st.params = f.st.params

/-- The lists treat two texts alike. -/
def Alike (t u : String) (st : State) : Prop :=
  (t ∈ st.blocklist ↔ u ∈ st.blocklist) ∧ (t ∈ st.blacklist ↔ u ∈ st.blacklist)

/-- Two sessions are at the same place; a message may be on its way to different ends. -/
inductive Stage.Twin : Stage → Stage → Prop
  /-- The same place. -/
  | same (stage : Stage) : Twin stage stage
  /-- A message has arrived. -/
  | arrived {dst dst' : Stream} {c c' : Chunk} (h : c'.bytes = c.bytes) :
    Twin (.arrived dst c) (.arrived dst' c')
  /-- It waits for the session's limiter. -/
  | limiting {dst dst' : Stream} {c c' : Chunk} (h : c'.bytes = c.bytes) (now : Instant) :
    Twin (.limiting dst c now) (.limiting dst' c' now)
  /-- It waits for the limiter of all sessions. -/
  | sharing {dst dst' : Stream} {c c' : Chunk} (h : c'.bytes = c.bytes) (now : Instant) :
    Twin (.sharing dst c now) (.sharing dst' c' now)
  /-- It is sent. -/
  | sending {dst dst' : Stream} {c c' : Chunk} (h : c'.bytes = c.bytes) :
    Twin (.sending dst c) (.sending dst' c')
  /-- It was lost. -/
  | ended (r : Except String Unit) (lost lost' : Option (Stream × Chunk)) :
    Twin (.ended r lost) (.ended r lost')

/-- Two sessions whose variables are the same, but for their ends. -/
structure Sess.Twin (s s' : Sess) : Prop where
  /-- The limiters. -/
  speeds : s'.x.speed = s.x.speed ∧ s'.x.limitSpeed = s.x.limitSpeed ∧
    s'.x.downgradeThreshold = s.x.downgradeThreshold
  /-- The turns that are left. -/
  n : s'.n = s.n
  /-- The local variables. -/
  l : s'.l = s.l
  /-- Where they are. -/
  stage : s.stage.Twin s'.stage

namespace Sess

/-- What a session decides on a find. -/
def decides (s : Sess) (f : Find) : List Decision :=
  match s.stage with
  | .blocking _ => [.blocked (decide (s.x.ip ∈ f.st.blocklist))]
  | .blacking _ => [.blacked (decide (s.x.ip ∈ f.st.blacklist))]
  | _ => []

theorem decisions_done (s : Sess) (f : Find) : decisions (s.done f) = s.decides f := by
  obtain ⟨x, n, l, stage⟩ := s
  cases stage <;> rfl

theorem twin_again {s s' : Sess} (hx : s'.x.speed = s.x.speed ∧
    s'.x.limitSpeed = s.x.limitSpeed ∧ s'.x.downgradeThreshold = s.x.downgradeThreshold)
    (hn : s'.n = s.n) (hl : s'.l = s.l) : s.again.Twin s'.again := by
  unfold again
  rw [hn]
  split
  · exact ⟨hx, rfl, hl, .same _⟩
  · exact ⟨hx, rfl, hl, .same _⟩

/-- Twins that find the same decide the same, as long as the lists treat them alike. -/
theorem Twin.decides_eq {s s' : Sess} (h : s.Twin s') {f f' : Find} (hm : Mirrored f f')
    (ha : Alike s.x.ip s'.x.ip f.st) : s'.decides f' = s.decides f := by
  have hblock : decide (s'.x.ip ∈ f'.st.blocklist) = decide (s.x.ip ∈ f.st.blocklist) := by
    rw [hm.blocklist]
    exact decide_eq_decide.mpr ha.1.symm
  have hblack : decide (s'.x.ip ∈ f'.st.blacklist) = decide (s.x.ip ∈ f.st.blacklist) := by
    rw [hm.blacklist]
    exact decide_eq_decide.mpr ha.2.symm
  obtain ⟨x, n, l, stage⟩ := s
  obtain ⟨x', n', l', stage'⟩ := s'
  have hst := h.stage
  dsimp only at hst
  cases hst with
  | same stage =>
    cases stage with
    | blocking m => exact congrArg (fun b => [Decision.blocked b]) hblock
    | blacking m => exact congrArg (fun b => [Decision.blacked b]) hblack
    | _ => rfl
  | _ => rfl

/-- And they stay twins. -/
theorem Twin.step {s s' : Sess} (h : s.Twin s') {f f' : Find} (hm : Mirrored f f')
    (ha : Alike s.x.ip s'.x.ip f.st) : (s.step f).Twin (s'.step f') := by
  have hblock : (s'.x.ip ∈ f'.st.blocklist) ↔ (s.x.ip ∈ f.st.blocklist) := by
    rw [hm.blocklist]
    exact ha.1.symm
  have hblack : decide (s'.x.ip ∈ f'.st.blacklist) = decide (s.x.ip ∈ f.st.blacklist) := by
    rw [hm.blacklist]
    exact decide_eq_decide.mpr ha.2.symm
  obtain ⟨hx, hn, hl, hst⟩ := h
  obtain ⟨x, n, l, stage⟩ := s
  obtain ⟨x', n', l', stage'⟩ := s'
  dsimp only at hx hn hl hst hblock hblack
  subst hn hl
  cases hst with
  | same stage =>
    cases stage with
    | begun => exact ⟨hx, rfl, by simp only [Sess.step, hm.now], .same _⟩
    | timed => exact ⟨⟨by simp only [Sess.step, hm.params], hx.2⟩, rfl, rfl, .same _⟩
    | single => exact ⟨⟨hx.1, by simp only [Sess.step, hm.params], hx.2.2⟩, rfl, rfl, .same _⟩
    | limited =>
      exact ⟨⟨hx.1, hx.2.1, by simp only [Sess.step, hm.params, hx.1]⟩, rfl, rfl, .same _⟩
    | threshold => exact twin_again hx rfl (by simp only [hm.now])
    | waiting =>
      -- what one of them reads from its stream, the other reads from its peer
      simp only [Sess.step, hm.input]
      cases f.arrival.input with
      | peer res =>
        cases res with
        | none => exact ⟨hx, rfl, rfl, .same _⟩
        | some bytes => exact ⟨hx, rfl, rfl, .arrived rfl⟩
      | stream res =>
        cases res with
        | none => exact ⟨hx, rfl, rfl, .same _⟩
        | some bytes => exact ⟨hx, rfl, rfl, .arrived rfl⟩
      | tick => exact ⟨hx, rfl, rfl, .same _⟩
    | ticked =>
      simp only [Sess.step, hm.now]
      split
      · exact ⟨hx, rfl, rfl, .same _⟩
      · exact ⟨hx, rfl, rfl, .same _⟩
    | accounting =>
      simp only [Sess.step, hm.now]
      split
      · exact ⟨hx, rfl, rfl, .same _⟩
      · exact twin_again hx rfl rfl
    | blocking m =>
      simp only [Sess.step, hblock]
      split
      · exact ⟨hx, rfl, rfl, .same _⟩
      · exact ⟨hx, rfl, rfl, .same _⟩
    | blacking m =>
      simp only [Sess.step, hblack]
      exact ⟨hx, rfl, rfl, .same _⟩
    | windowing m blacked =>
      simp only [Sess.step, hm.now]
      exact ⟨hx, rfl, rfl, .same _⟩
    | reporting speed => exact ⟨hx, rfl, rfl, .same _⟩
    | checking =>
      refine twin_again hx rfl ?_
      simp only [hm.params, hx.2.2]
    | ended r lost => exact ⟨hx, rfl, rfl, .same _⟩
    | arrived dst c =>
      simp only [Sess.step, hm.now]
      exact ⟨hx, rfl, rfl, .same _⟩
    | limiting dst c now => exact ⟨hx, rfl, rfl, .same _⟩
    | sharing dst c now => exact ⟨hx, rfl, rfl, .same _⟩
    | sending dst c =>
      simp only [Sess.step, hm.sendFails]
      split
      · exact ⟨hx, rfl, rfl, .same _⟩
      · exact ⟨hx, rfl, rfl, .same _⟩
  | arrived hb =>
    simp only [Sess.step, hm.now]
    exact ⟨hx, rfl, rfl, .limiting hb _⟩
  | limiting hb now => exact ⟨hx, rfl, rfl, .sharing hb now⟩
  | sharing hb now =>
    simp only [Sess.step, hb]
    refine ⟨hx, rfl, rfl, ?_⟩
    dsimp only
    split
    · exact .same _
    · exact .sending hb
  | sending hb =>
    simp only [Sess.step, hm.sendFails]
    split
    · exact ⟨hx, rfl, rfl, .ended _ _ _⟩
    · exact ⟨hx, rfl, rfl, .same _⟩
  | ended r lost lost' => exact ⟨hx, rfl, rfl, .ended r lost lost'⟩

/-- The decisions of a session, find by find. -/
def decidesAll : Sess → List Find → List Decision
  | _, [] => []
  | s, f :: l => s.decides f ++ decidesAll (s.step f) l

theorem decidesAll_append (s : Sess) (l l' : List Find) :
    s.decidesAll (l ++ l') = s.decidesAll l ++ (l.foldl Sess.step s).decidesAll l' := by
  induction l generalizing s with
  | nil => rfl
  | cons f l ih => rw [List.cons_append, decidesAll, decidesAll, ih, List.append_assoc]; rfl

/-- Twins decide the same over a whole run. -/
theorem Twin.decidesAll_eq {s s' : Sess} (h : s.Twin s') {l l' : List Find}
    (hm : List.Forall₂ Mirrored l l') (ha : ∀ f ∈ l, Alike s.x.ip s'.x.ip f.st) :
    s'.decidesAll l' = s.decidesAll l := by
  induction hm generalizing s s' with
  | nil => rfl
  | @cons f f' l l' hf _ ih =>
    have hhead := ha f List.mem_cons_self
    have htail : ∀ g ∈ l, Alike (s.step f).x.ip (s'.step f').x.ip g.st := by
      intro g hg
      rw [step_ip, step_ip]
      exact ha g (List.mem_cons_of_mem _ hg)
    rw [decidesAll, decidesAll, h.decides_eq hf hhead, ih (h.step hf hhead) htail]

/-- The decisions in the trace of `relay` are those of its session. -/
theorem decisions_relay (addr : SocketAddr) (stream peer : Stream) (id : String) (turns : ℕ)
    (l : List Find) :
    decisions (machine.trace (relay addr stream peer id turns) (l.map Find.input)) =
      (start addr stream peer id turns).decidesAll l := by
  have hdone : ∀ (s : Sess) (l : List Find),
      decisions (Machine.doneBy machine next? Sess.step Find.input s l) = s.decidesAll l := by
    intro s l
    induction l generalizing s with
    | nil => rfl
    | cons f l ih =>
      rw [Machine.doneBy, decisions, List.filterMap_append, decidesAll, ← ih, ← decisions_done]
      rfl
  have hruns : (start addr stream peer id turns).Runs (relay addr stream peer id turns) :=
    relay_feed addr stream peer id turns []
  rw [hruns.trace_eq step_ended l]
  exact hdone _ l

end Sess

/-! ### Who came first -/

/-- What the task of the client that came second decides: it finds the other's stream under
their `uuid`, reports its usage, and relays. -/
def secondDecides (key : String) (c : ConnId) (conn : Conn) (taken begun : Env × State)
    (l : List Find) : List Decision :=
  decisions (machine.trace (makePair_ key c conn) (taken :: begun :: l.map Find.input))

/-- The two orders of arrival: with the first client's stream under `uuid`, whatever its task
finds otherwise, and the same lists, settings and traffic over time. -/
structure Orders (uuid : String) (a b : ConnId) (A B : Conn) (takenB takenA : Env × State)
    (l l' : List Find) : Prop where
  /-- `A` came first. -/
  first : takenB.2.peers.lookup uuid = some ⟨a, A.ws, false⟩
  /-- `B` came first. -/
  second : takenA.2.peers.lookup uuid = some ⟨b, B.ws, false⟩
  /-- What their sessions find. -/
  finds : List.Forall₂ Mirrored l l'

/-- The same decisions in both orders, for every number of turns. -/
def SameDecisions (key uuid : String) (a b : ConnId) (A B : Conn) : Prop :=
  ∀ turns takenB takenA begunB begunA l l', Orders uuid a b A B takenB takenA l l' →
    secondDecides key b { B with turns := turns } takenB begunB l =
      secondDecides key a { A with turns := turns } takenA begunA l'

theorem decisions_pairedWith (conn : Conn) (stream peer : Stream) (begun : Env × State)
    (l : List Find) :
    ∃ stream' peer' id, decisions (machine.trace (pairedWith conn stream peer)
      (begun :: l.map Find.input)) =
        (Sess.start conn.addr stream' peer' id conn.turns).decidesAll l := by
  set id := conn.addr.ip.toText ++ ":" ++ toString conn.addr.port.toNat with hid
  have hafter : ∀ _ : Except String Unit, Prog.All (fun o => ∀ r, Done.decision ⟨o, r⟩ = none)
      (.op (.usageRemove id) fun _ => .ret () : Prog RelaySig Unit) :=
    fun _ => ⟨fun _ => rfl, fun _ => trivial⟩
  refine ⟨if !stream.ws && !peer.ws then stream.setRaw else stream,
    if !stream.ws && !peer.ws then peer.setRaw else peer, id, ?_⟩
  rw [← Sess.decisions_relay]
  exact Machine.filterMap_trace_bind hafter (l.map Find.input)

/-- The decisions of the client that came second are those of a session with its address. -/
theorem secondDecides_eq {key uuid : String} {c : ConnId} {conn : Conn} {peer : Stream}
    (hreq : conn.request? key = some uuid) {taken : Env × State}
    (hpeer : taken.2.peers.lookup uuid = some peer) (begun : Env × State) (l : List Find) :
    ∃ stream peer id, secondDecides key c conn taken begun l =
      (Sess.start conn.addr stream peer id conn.turns).decidesAll l := by
  have hanswer : (machine.exec taken.1 (.take c uuid) taken.2).2 = some peer := by
    simp [Op.act, hpeer]
  have htask : Machine.advance machine (makePair_ key c conn) taken =
      pairedWith conn ⟨c, conn.ws, false⟩ peer := by
    rw [makePair_eq, hreq]
    simp only [Machine.advance]
    rw [hanswer]
  have hquiet : decisions (Machine.does machine (makePair_ key c conn) taken) = [] := by
    rw [makePair_eq, hreq]
    rfl
  obtain ⟨stream', peer', id, heq⟩ :=
    decisions_pairedWith conn ⟨c, conn.ws, false⟩ peer begun l
  refine ⟨stream', peer', id, ?_⟩
  rw [← heq, ← htask, secondDecides, Machine.trace, decisions, List.filterMap_append]
  exact (congrArg (· ++ _) hquiet).trans (List.nil_append _)

/-- Both orders lead to twins. -/
theorem twin_start (addr addr' : SocketAddr) (stream peer stream' peer' : Stream)
    (id id' : String) (turns : ℕ) :
    (Sess.start addr stream peer id turns).Twin (Sess.start addr' stream' peer' id' turns) :=
  ⟨⟨rfl, rfl, rfl⟩, rfl, rfl, .same _⟩

/-- The first decision of a session with nothing to do. -/
theorem decidesAll_quietSecond (addr : SocketAddr) (stream peer : Stream) (id : String) (n : ℕ)
    (st : State) (f : Find) :
    (Sess.start addr stream peer id (n + 1)).decidesAll (quietSecond st ++ [f]) =
      [.blocked (decide (addr.ip.toText ∈ f.st.blocklist))] := by
  have hquiet : (Sess.start addr stream peer id (n + 1)).decidesAll (quietSecond st) = [] := by
    simp [quietSecond, List.replicate, Sess.decidesAll, Sess.decides, Sess.step, Sess.start,
      Sess.again, Arrival.input, elapsedSecs]
  rw [Sess.decidesAll_append, hquiet, Sess.decidesAll, Sess.decides, quietSecond_stage,
    Sess.run_ip]
  rfl

/-- Nothing arrives at either end. -/
theorem mirrored_quiet (now : Instant) (st : State) :
    Mirrored ⟨now, .tick, none, st⟩ ⟨now, .tick, none, st⟩ := ⟨rfl, rfl, rfl, rfl, rfl, rfl⟩

theorem forall₂_quietSecond (st : State) :
    List.Forall₂ Mirrored (quietSecond st ++ [⟨1000, .tick, none, st⟩])
      (quietSecond st ++ [⟨1000, .tick, none, st⟩]) := by
  rw [List.forall₂_same]
  intro f hf
  simp only [quietSecond, List.mem_append, List.mem_replicate, List.mem_singleton] at hf
  rcases hf with (⟨-, rfl⟩ | rfl) | rfl
  · exact mirrored_quiet 0 st
  · exact mirrored_quiet 1000 st
  · exact mirrored_quiet 1000 st

/-- The first decision of a client that came second. -/
theorem secondDecides_quietSecond {key uuid : String} {c : ConnId} {conn : Conn} {peer : Stream}
    (hreq : conn.request? key = some uuid) {taken : Env × State}
    (hpeer : taken.2.peers.lookup uuid = some peer) {begun : Env × State} {st : State} :
    secondDecides key c { conn with turns := 1 } taken begun
        (quietSecond st ++ [⟨1000, .tick, none, st⟩]) =
      [.blocked (decide (conn.addr.ip.toText ∈ st.blocklist))] := by
  have hreq' : Conn.request? key { conn with turns := 1 } = some uuid := hreq
  obtain ⟨stream, peer', id, heq⟩ := secondDecides_eq hreq' hpeer begun _
  rw [heq]
  exact decidesAll_quietSecond _ _ _ _ 0 st _

/-- A state in which a stream waits under `uuid`, and one address is blocked. -/
def blockedWaits (uuid : String) (stream : Stream) (ip : String) : State :=
  { State.blank with
    peers := (∅ : HashMap String Stream).insert uuid stream
    blocklist := [ip] }

section

variable {key uuid : String} {a b : ConnId} {A B : Conn} (hA : A.request? key = some uuid)
  (hB : B.request? key = some uuid)
include hA hB

/-- While the lists treat both clients alike, the order does not matter. -/
theorem secondDecides_alike {takenB takenA : Env × State} {l l' : List Find}
    (h : Orders uuid a b A B takenB takenA l l')
    (ha : ∀ f ∈ l, Alike B.addr.ip.toText A.addr.ip.toText f.st) (turns : ℕ)
    (begunB begunA : Env × State) :
    secondDecides key b { B with turns := turns } takenB begunB l =
      secondDecides key a { A with turns := turns } takenA begunA l' := by
  have hB' : Conn.request? key { B with turns := turns } = some uuid := hB
  have hA' : Conn.request? key { A with turns := turns } = some uuid := hA
  obtain ⟨s, p, id, heq⟩ := secondDecides_eq hB' h.first begunB l
  obtain ⟨s', p', id', heq'⟩ := secondDecides_eq hA' h.second begunA l'
  rw [heq, heq']
  exact ((twin_start _ _ _ _ _ _ _ _ _).decidesAll_eq h.finds ha).symm

/-- With one of two addresses blocked, it does. -/
theorem addr_eq_of_sameDecisions (h : SameDecisions key uuid a b A B) :
    A.addr.ip = B.addr.ip := by
  have hsame := h 1 (Env.at 0, blockedWaits uuid ⟨a, A.ws, false⟩ B.addr.ip.toText)
    (Env.at 0, blockedWaits uuid ⟨b, B.ws, false⟩ B.addr.ip.toText) (Env.at 0, .blank)
    (Env.at 0, .blank) _ _ ⟨AList.lookup_insert _, AList.lookup_insert _,
      forall₂_quietSecond (blockedWaits uuid ⟨a, A.ws, false⟩ B.addr.ip.toText)⟩
  rw [secondDecides_quietSecond hB (AList.lookup_insert _),
    secondDecides_quietSecond hA (AList.lookup_insert _)] at hsame
  have hmem : A.addr.ip.toText ∈ [B.addr.ip.toText] := by
    simpa [blockedWaits] using hsame
  exact toText_injective (List.mem_singleton.mp hmem)

/-- **When it does not matter who came first**: in every run in which the lists treat both
clients alike, both orders decide the same; and they do so in all runs just if the clients have
one address. -/
theorem limits_order_free :
    (∀ turns takenB takenA begunB begunA l l', Orders uuid a b A B takenB takenA l l' →
      (∀ f ∈ l, Alike B.addr.ip.toText A.addr.ip.toText f.st) →
      secondDecides key b { B with turns := turns } takenB begunB l =
        secondDecides key a { A with turns := turns } takenA begunA l') ∧
      (SameDecisions key uuid a b A B ↔ A.addr.ip = B.addr.ip) := by
  refine ⟨?_, addr_eq_of_sameDecisions hA hB, ?_⟩
  · intro turns takenB takenA begunB begunA l l' h ha
    exact secondDecides_alike hA hB h ha turns begunB begunA
  · intro heq turns takenB takenA begunB begunA l l' h
    refine secondDecides_alike hA hB h ?_ turns begunB begunA
    intro f _
    rw [heq]
    exact ⟨Iff.rfl, Iff.rfl⟩

end

theorem limits_order_free_twice :
    (clientAt mappedClient).request? "" = some "u" ∧
      SameDecisions "" "u" 0 1 (clientAt mappedClient) (clientAt mappedClient) :=
  ⟨rfl, (limits_order_free rfl rfl).2.mpr rfl⟩

/-- `192.0.2.7`, and a client somewhere else. -/
def blockedClient : Conn := clientAt ⟨.ofOctets 192 0 2 7, 40000⟩

/-- A client that is on no list. -/
def otherClient : Conn := clientAt ⟨.ofOctets 198 51 100 9, 40000⟩

/-- **Who comes first decides**: with the address of one of them blocked, their session ends if
that one came second, and goes on if it came first. -/
theorem first_comer_not_looked_up :
    secondDecides "" 1 otherClient (Env.at 0, blockedWaits "u" ⟨0, false, false⟩ "192.0.2.7")
        (Env.at 0, .blank) (quietSecond dottedBlocked ++ [⟨1000, .tick, none, dottedBlocked⟩]) =
        [.blocked false] ∧
      secondDecides "" 0 blockedClient
        (Env.at 0, blockedWaits "u" ⟨1, false, false⟩ "192.0.2.7") (Env.at 0, .blank)
        (quietSecond dottedBlocked ++ [⟨1000, .tick, none, dottedBlocked⟩]) =
        [.blocked true] ∧
      ¬SameDecisions "" "u" 0 1 blockedClient otherClient := by
  refine ⟨?_, ?_, ?_⟩
  · exact (@secondDecides_quietSecond "" "u" 1 otherClient _ rfl _ (AList.lookup_insert _) _
      dottedBlocked).trans (by decide)
  · exact (@secondDecides_quietSecond "" "u" 0 blockedClient _ rfl _ (AList.lookup_insert _) _
      dottedBlocked).trans (by decide)
  · intro h
    have heq := @addr_eq_of_sameDecisions "" "u" 0 1 blockedClient otherClient rfl rfl h
    exact absurd heq (by decide)

end Hbbr

end RustdeskServer
