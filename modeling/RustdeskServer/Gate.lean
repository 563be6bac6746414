import RustdeskServer.WsRegistry

/-!
# The gate in front of a session

With a server key, `MUST_LOGIN` and a token secret configured, a punch-hole request is
refused unless it carries the key and a token that `verify_token` accepts.  A
`RequestRelay` starts a session at its peer just as well, and its arm of `handle_tcp`
makes neither check.

That arm is the only way around the checks.  Along every run in which no `RequestRelay`
names a peer that is in memory, whatever starts a session at a peer was caused by a
request that passed both checks, and a request that did not is at most answered, at the
address it came from.  The answer finds its websocket, or the sink of its TCP connection, by
that address, so it reaches nobody else when, besides, connections that ask do not share an
address.

## Main definitions

* `Authorized` — the request behind a message passed both checks.
* `GateKept` — what the gate promises of an event.
* `RefusedAtHome` — no other connection hears of a request that was refused.

## Main results

* `gate_kept` — **the gate holds along every run in which no relay request finds its
  peer, and a refusal stays with its requester where keys are kept apart.**
* `relay_request_unchecked` — a run that passes the gate unchecked.
-/

namespace RustdeskServer

open Atomic

/-- The message is a punch-hole request with the server key and with a token that
`verify_token` accepted while the request was handled. -/
def Authorized (E : Ext) (cfg : Settings) (past : List Event) (cause : Cause) : Prop :=
  ∃ ph, cause.frame = .punchHoleRequest ph ∧ ph.licenceKey = cfg.key ∧ ph.token ≠ "" ∧
    ∃ utc, Event.verified cause utc ∈ past ∧ verifyToken E cfg.jwtSecret ph.token utc = true

/-- What the gate promises of an event, given what came before it: a message that starts
a session was caused by an authorized request, and a request that is not authorized
causes nothing but an answer to where it came from, into a websocket's channel or on the sink
of a TCP connection that asked from the same key. -/
def GateKept (E : Ext) (cfg : Settings) (ev : Event) (past : List Event) : Prop :=
  match ev with
  | .pushed cause key _ msg =>
    (msg.StartsSession = true → Authorized E cfg past cause) ∧
      (cause.frame.asksSession = true → Authorized E cfg past cause ∨
        msg.IsReply = true ∧ ∃ c, cause.via.conn? = some c ∧ Event.requested c key ∈ past)
  | .queued cause _ _ => Authorized E cfg past cause
  | .sent (some cause) dst msg =>
    cause.frame.asksSession = true → Authorized E cfg past cause ∨
      msg.IsReply = true ∧ ∃ c key, cause.via.conn? = some c ∧ Event.requested c key ∈ past ∧
        Event.requested dst key ∈ past
  | _ => True

/-- Whatever is pushed or written for a request that is not authorized goes to the connection
that sent it. -/
def RefusedAtHome (E : Ext) (cfg : Settings) (ev : Event) (past : List Event) : Prop :=
  match ev with
  | .pushed cause _ dst _ =>
    cause.frame.asksSession = true → Authorized E cfg past cause ∨ cause.via.conn? = some dst
  | .sent (some cause) dst _ =>
    cause.frame.asksSession = true → Authorized E cfg past cause ∨ cause.via.conn? = some dst
  | _ => True

section Gate

variable {E : Ext} {cfg : Settings} {s : Server} {cause : Cause} {addr : SocketAddr} {msg : Msg}

/-- When no relay request finds its peer, only authorized requests reach one. -/
theorem Handed.authorized (hkey : cfg.key ≠ "") (hjwt : cfg.jwtSecret ≠ "")
    (hm : s.mustLogin = true) (h : Handed E cfg True s cause addr msg) :
    Authorized E cfg s.log cause := by
  cases h with
  | punch hframe hpassed _ _ =>
    obtain ⟨htok, hver⟩ := hpassed.2 hm
    exact ⟨_, hframe, hpassed.1.resolve_left hkey, htok, hver hjwt⟩
  | relay _ hcalm _ _ => exact absurd trivial hcalm

theorem gateKept_pushed (hkey : cfg.key ≠ "") (hjwt : cfg.jwtSecret ≠ "")
    (hm : s.mustLogin = true)
    (h : Handed E cfg True s cause addr msg ∨ Answered E s cause addr msg) (dst : ConnId) :
    GateKept E cfg (.pushed cause (keyOf E addr) dst msg) s.log := by
  rcases h with h | h
  · have hauth := h.authorized hkey hjwt hm
    exact ⟨fun _ => hauth, fun _ => Or.inl hauth⟩
  · cases h with
    | own hvia _ hreq hmsg =>
      refine ⟨fun h => ?_, fun _ => Or.inr ⟨hmsg, _, hvia, hreq⟩⟩
      rw [Msg.startsSession_of_isReply hmsg] at h
      cases h
    | peer hask _ _ hmsg =>
      refine ⟨fun h => ?_, fun h => ?_⟩
      · rw [Msg.startsSession_of_isReply hmsg] at h
        cases h
      · rw [hask] at h
        cases h

/-- What is written for a request is the answer to it, under its key. -/
theorem gateKept_sent {why : Option Cause} {dst : ConnId} (h : WrittenTo E s why dst msg) :
    GateKept E cfg (.sent why dst msg) s.log := by
  cases why with
  | none => trivial
  | some cause =>
    intro hask
    obtain ⟨addr, hans, hreq⟩ := h cause rfl hask
    cases hans with
    | own hvia _ hown hmsg => exact Or.inr ⟨hmsg, _, _, hvia, hown, hreq⟩
    | peer hpeer _ _ _ =>
      rw [hpeer] at hask
      cases hask

/-- A section performed as `SrvSpec` says keeps the promise. -/
theorem exec_gateKept (hkey : cfg.key ≠ "") (hjwt : cfg.jwtSecret ≠ "") (e : SrvEnv) (o : SrvOp)
    (hG : SrvSpec E cfg True e o s) (hm : s.mustLogin = true)
    (hlog : Chronicle (GateKept E cfg) s.log) :
    Chronicle (GateKept E cfg) (o.exec E cfg e s).1.log := by
  refine chronicle_exec (fun ev l hev => ?_) (fun cause addr msg c ho _ _ => ?_)
    (fun cause msg addr ho => ?_) (fun why c msg ho => ?_) hlog
  · cases ev with
    | pushed => cases hev
    | queued => cases hev
    | sent => cases hev
    | _ => trivial
  · subst ho
    exact gateKept_pushed hkey hjwt hm hG c
  · subst ho
    exact Handed.authorized hkey hjwt hm hG
  · subst ho
    exact gateKept_sent hG

/-- A refusal is addressed to where the request came from, and under that key only the
requester itself is registered. -/
theorem GateKept.pushedAtHome {key : SocketAddr} {dst : ConnId} {past : List Event}
    (h : GateKept E cfg (.pushed cause key dst msg) past) (hown : AskedBy past key dst) :
    RefusedAtHome E cfg (.pushed cause key dst msg) past := by
  intro hask
  rcases h.2 hask with hauth | ⟨-, c, hvia, hreq⟩
  · exact Or.inl hauth
  · exact Or.inr (hown.eq hreq ▸ hvia)

/-- The sink it is written to was parked under that key, from which nobody else asked. -/
theorem GateKept.sentAtHome {why : Option Cause} {dst : ConnId}
    (h : GateKept E cfg (.sent why dst msg) s.log) (hone : OneAsker s) :
    RefusedAtHome E cfg (.sent why dst msg) s.log := by
  cases why with
  | none => trivial
  | some cause =>
    intro hask
    rcases h hask with hauth | ⟨-, c, key, hvia, hc, hdst⟩
    · exact Or.inl hauth
    · exact Or.inr ((hone key dst hdst).eq hc ▸ hvia)

/-- With requesters kept apart, a section keeps refusals with their requesters. -/
theorem exec_refusedAtHome (hkey : cfg.key ≠ "") (hjwt : cfg.jwtSecret ≠ "") (e : SrvEnv)
    (o : SrvOp) (hG : SrvSpec E cfg True e o s) (hm : s.mustLogin = true)
    (hreg : Registered AskedBy s) (hone : OneAsker s)
    (hlog : Chronicle (RefusedAtHome E cfg) s.log) :
    Chronicle (RefusedAtHome E cfg) (o.exec E cfg e s).1.log := by
  refine chronicle_exec (fun ev l hev => ?_) (fun cause addr msg c ho hl _ => ?_)
    (fun _ _ _ _ => trivial) (fun why c msg ho => ?_) hlog
  · cases ev with
    | pushed => cases hev
    | sent => cases hev
    | _ => trivial
  · subst ho
    exact (gateKept_pushed hkey hjwt hm hG c).pushedAtHome (hreg _ c hl)
  · subst ho
    exact (gateKept_sent hG).sentAtHome hone

end Gate

/-- **The gate holds.**  A server with a key, `MUST_LOGIN` and a token secret, and any
number of connections and datagrams in any order.  Along every run in which no
`RequestRelay` finds the peer it names in memory, whatever starts a session at a peer was
caused by a request that passed both checks, and a request that did not is at most
answered, where it came from.  When no two connections ask from one key, that answer, pushed to
a websocket or written to a TCP connection, reaches nobody but the requester. -/
theorem gate_kept {ι : Type} [DecidableEq ι] (E : Ext) (cfg : Settings) (hkey : cfg.key ≠ "")
    (hjwt : cfg.jwtSecret ≠ "") (T : ι → Task) (db : List Row) (alwaysUseRelay : Bool)
    (conf : Snapshot) :
    (∀ c : Config SrvSig Server ι Unit, Reach (srvMachine E cfg) (OpOk NoRelayTarget)
        ⟨.start db true alwaysUseRelay conf, fun i => (T i).prog E cfg⟩ c →
      Chronicle (GateKept E cfg) c.st.log) ∧
    ∀ c : Config SrvSig Server ι Unit, Reach (srvMachine E cfg)
        (OpOk fun e o s => NoRelayTarget e o s ∧ RequestersApart E e o s)
        ⟨.start db true alwaysUseRelay conf, fun i => (T i).prog E cfg⟩ c →
      Chronicle (RefusedAtHome E cfg) c.st.log := by
  have hstart := allLocated_start E db true alwaysUseRelay conf
  refine ⟨fun c h => ?_, fun c h => ?_⟩
  · refine (reach_inv (E := E) True (D := fun _ _ _ => True)
      (J := fun s => s.mustLogin = true ∧ Chronicle (GateKept E cfg) s.log) hstart ?_
      ⟨rfl, trivial⟩ (h.mono fun _ _ _ hok o ho => ⟨fun _ => hok o ho, trivial⟩)).2
    rintro e o s - ⟨hm, hlog⟩ hG -
    exact ⟨(onward_exec e o s).mustLogin.trans hm, exec_gateKept hkey hjwt e o hG hm hlog⟩
  · refine (reach_inv (E := E) True (D := RequestersApart E)
      (J := fun s => s.mustLogin = true ∧ Registered AskedBy s ∧ OneAsker s ∧
        Chronicle (RefusedAtHome E cfg) s.log) hstart ?_
      ⟨rfl, fun _ _ h => (by cases h), fun _ _ h => (by cases h), trivial⟩
      (h.mono fun _ _ _ hok o ho => ⟨fun _ => (hok o ho).1, (hok o ho).2⟩)).2.2.2
    rintro e o s - ⟨hm, hreg, hone, hlog⟩ hG hD
    exact ⟨(onward_exec e o s).mustLogin.trans hm, exec_askedBy e o hreg hD,
      exec_oneAsker e o hone hD, exec_refusedAtHome hkey hjwt e o hG hm hreg hone hlog⟩

/-! ### Two clients -/

/-- A server with everything configured. -/
def gatedSettings : Settings := ⟨"key", "secret", 0⟩

/-- A peer registers over UDP and a client on a TCP connection sends one message. -/
def clientSends (m : Msg) (i : Bool) : Task :=
  if i then .udp [(⟨.ofOctets 192 0 2 7, 21116⟩, some (.registerPk ⟨"alpha1", [1], [2]⟩))]
  else .tcp 1 ⟨.ofOctets 198 51 100 9, 4000⟩ [some m]

/-- First the peer, then the client. -/
def peerThenClient : List (Bool × SrvEnv) :=
  (List.replicate 12 true ++ List.replicate 13 false).map fun i => (i, .ok 0 1)

/-- The run of `clientSends`. -/
def clientRun (m : Msg) : Config SrvSig Server Bool Unit :=
  (⟨.start [] true false .blank, fun i => (clientSends m i).prog .sample gatedSettings⟩ :
    Config SrvSig Server Bool Unit).sched (srvMachine .sample gatedSettings) peerThenClient

/-- A request that carries the key and a good token. -/
def goodRequest : Msg := .punchHoleRequest ⟨"alpha1", .other 0, "key", "secret"⟩

/-- A request for a relay, with no key and no token. -/
def bareRelayRequest : Msg := .requestRelay ⟨"alpha1", "s", [], ""⟩

/-- A request that carries the key and no token. -/
def tokenlessRequest : Msg := .punchHoleRequest ⟨"alpha1", .other 0, "key", ""⟩

/-- One client sends it over a websocket, another over TCP. -/
def refusedClients (ws : Bool) : Task :=
  if ws then .ws 1 ⟨.ofOctets 203 0 113 5, 0⟩ [some tokenlessRequest]
  else .tcp 2 ⟨.ofOctets 198 51 100 9, 4000⟩ [some tokenlessRequest]

/-- The run of `refusedClients`. -/
def refusedRun : Config SrvSig Server Bool Unit :=
  (⟨.start [] true false .blank, fun i => (refusedClients i).prog .sample gatedSettings⟩ :
    Config SrvSig Server Bool Unit).sched (srvMachine .sample gatedSettings)
      ((List.replicate 8 true ++ List.replicate 8 false).map fun i => (i, .ok 0 1))

/-- The good request reaches the peer, and the refused ones are answered themselves. -/
theorem gate_kept_good :
    (∃ msg addr, Event.queued ⟨.tcp 1, 0, goodRequest⟩ msg addr ∈ (clientRun goodRequest).st.log) ∧
      Chronicle (GateKept .sample gatedSettings) (clientRun goodRequest).st.log ∧
      (∃ key msg, Event.pushed ⟨.ws 1, 0, tokenlessRequest⟩ key 1 msg ∈ refusedRun.st.log ∧
        Event.sent (some ⟨.tcp 2, 0, tokenlessRequest⟩) 2 msg ∈ refusedRun.st.log) ∧
      Chronicle (RefusedAtHome .sample gatedSettings) refusedRun.st.log := by
  refine ⟨⟨.punchHole ⟨[198, 51, 100, 9, 15, 160], .other 0, ""⟩,
      ⟨.ofOctets 192 0 2 7, 21116⟩, by decide⟩, ?_,
    ⟨⟨.ofOctets 203 0 113 5, 0⟩,
      .punchHoleResponse { otherFailure := "Connection failed, please login!" }, by decide,
      by decide⟩, ?_⟩
  · exact (gate_kept .sample gatedSettings (by decide) (by decide) (clientSends goodRequest)
      [] false .blank).1 _ (reach_sched (by decide))
  · exact (gate_kept .sample gatedSettings (by decide) (by decide) refusedClients
      [] false .blank).2 _ (reach_sched (by decide))

/-- The relay request reaches the peer. -/
theorem relay_request_unchecked :
    ¬∀ c, Reach (srvMachine .sample gatedSettings) (fun _ _ _ => True)
        ⟨.start [] true false .blank,
          fun i => (clientSends bareRelayRequest i).prog .sample gatedSettings⟩ c →
      Chronicle (GateKept .sample gatedSettings) c.st.log := by
  intro hall
  have h := hall (clientRun bareRelayRequest) (reach_sched (along_true _ _))
  have hlog : (clientRun bareRelayRequest).st.log =
      Event.queued ⟨.tcp 1, 0, bareRelayRequest⟩
        (.requestRelay ⟨"alpha1", "s", [198, 51, 100, 9, 15, 160], ""⟩)
        ⟨.ofOctets 192 0 2 7, 21116⟩ :: (clientRun bareRelayRequest).st.log.tail := by
    decide
  rw [hlog] at h
  obtain ⟨ph, hframe, -⟩ := h.1
  cases hframe

end RustdeskServer
