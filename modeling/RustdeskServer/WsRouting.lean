import RustdeskServer.WsRegistry

/-!
# Which websocket a message is pushed to

`push_to_ws_peer` finds the channel of a websocket by the address of the peer.  Behind a
reverse proxy that address is the client's IP with port 0, so several connections of one
client, or of clients behind one IP, have the same key, and the last that registered
takes the key over: what is meant for one of them reaches another.

Messages go astray only when a key is shared, or when a peer answers somebody who never
asked.  A connection *owns* a key when every id that registered from the key did so over that
connection, and no other connection asked for a session from it.  Along every run in which a
connection registers itself only under a key it owns, nobody else starts to use the key while
it is registered, and a peer's answer names no websocket that never asked, every pushed message
reaches a connection over which the target registered, or the connection that asked.

## Main definitions

* `RegisteredOver`, `KeyOwned` — the ids of a connection, and its keys.
* `KeysApart` — the condition on a section.
* `Delivered` — what routing promises of a pushed message.

## Main results

* `exec_keysOwned` — a section that meets the condition keeps the registry right.
* `pushed_to_owner` — **along every run that meets it every pushed message arrives.**
* `pushed_to_stranger` — two clients behind one IP for which that fails.
-/

namespace RustdeskServer

open Atomic

/-! ### Owners of keys -/

/-- The event is the registration of an id over a websocket.  A `RegisterPk` that gets
to write the record is answered `ok`. -/
def Event.registers (id : String) (c : ConnId) : Event → Bool
  | .addrSet id' cause _ =>
    id' == id && decide (cause.via = .ws c) && decide (cause.frame.registers? = some id)
  | _ => false

/-- The id registered over the websocket `c`. -/
def RegisteredOver (log : List Event) (id : String) (c : ConnId) : Prop :=
  ∃ ev ∈ log, ev.registers id c = true

instance (log : List Event) (id : String) (c : ConnId) : Decidable (RegisteredOver log id c) :=
  inferInstanceAs (Decidable (∃ ev ∈ log, ev.registers id c = true))

section Owner

variable (E : Ext)

/-- The key is the connection's own. -/
def KeyOwned (log : List Event) (key : SocketAddr) (c : ConnId) : Prop :=
  key ≠ keyOf E .unspecified ∧
    (∀ ev ∈ log, ∀ id ∈ ev.idAt? key, RegisteredOver log id c) ∧ AskedBy log key c

instance (log : List Event) (key : SocketAddr) (c : ConnId) : Decidable (KeyOwned E log key c) :=
  inferInstanceAs (Decidable (_ ∧ (∀ ev ∈ log, ∀ id ∈ ev.idAt? key, RegisteredOver log id c) ∧
    AskedBy log key c))

/-- An address that a record gets is not the key of a websocket over which its id did
not register. -/
def Event.Free (s : Server) (ev : Event) : Prop :=
  match ev with
  | .addrSet id cause key =>
    ∀ c ∈ s.wsPeers.lookup key, RegisteredOver (.addrSet id cause key :: s.log) id c
  | _ => True

instance (s : Server) (ev : Event) : Decidable (ev.Free s) :=
  match ev with
  | .addrSet id cause key => inferInstanceAs (Decidable (∀ c ∈ s.wsPeers.lookup key,
      RegisteredOver (.addrSet id cause key :: s.log) id c))
  | .requested _ _ => isTrue trivial
  | .verified _ _ => isTrue trivial
  | .pushed _ _ _ _ => isTrue trivial
  | .queued _ _ _ => isTrue trivial
  | .sent _ _ _ => isTrue trivial

/-- An open websocket that is found under the key of an address has asked for a session from
it. -/
def FindsRequester (s : Server) (addr : SocketAddr) : Prop :=
  ∀ c ∈ s.wsPeers.lookup (keyOf E addr),
    c ∉ s.rxGone → Event.requested c (keyOf E addr) ∈ s.log

instance (s : Server) (addr : SocketAddr) : Decidable (FindsRequester E s addr) :=
  inferInstanceAs (Decidable (∀ c ∈ s.wsPeers.lookup (keyOf E addr), _ → _))

/-- A connection registers under a key it owns, and nobody else starts to use the key of
a registered connection: no id registers from it, and no TCP connection asks for a
session from it.  And a peer's answer names no websocket that never asked. -/
def KeysApart (_ : SrvEnv) (o : SrvOp) (s : Server) : Prop :=
  match o with
  | .registerWs _ addr c => KeyOwned E s.log (keyOf E addr) c
  | .punchInsert addr _ => s.wsPeers.lookup (keyOf E addr) = none
  | .peer cause o => ∀ ev ∈ peerEvents E s.pm cause o, ev.Free s
  | .pushWs cause addr _ => cause.frame.requester?.isSome = true → FindsRequester E s addr
  | _ => True

instance (e : SrvEnv) (o : SrvOp) (s : Server) : Decidable (KeysApart E e o s) :=
  match o with
  | .registerWs _ addr c => inferInstanceAs (Decidable (KeyOwned E s.log (keyOf E addr) c))
  | .punchInsert addr _ => inferInstanceAs (Decidable (s.wsPeers.lookup (keyOf E addr) = none))
  | .peer cause o => inferInstanceAs (Decidable (∀ ev ∈ peerEvents E s.pm cause o, ev.Free s))
  | .mustLogin => isTrue trivial
  | .alwaysUseRelay => isTrue trivial
  | .verifyToken _ _ => isTrue trivial
  | .recordPunchReq _ _ _ => isTrue trivial
  | .getRelayServer _ _ => isTrue trivial
  | .cloneServer => isTrue trivial
  | .setConf _ => isTrue trivial
  | .pushWs cause addr _ => inferInstanceAs (Decidable
      (cause.frame.requester?.isSome = true → FindsRequester E s addr))
  | .punchRemove _ => isTrue trivial
  | .sendSink _ _ _ => isTrue trivial
  | .sendUdp _ _ => isTrue trivial
  | .sendData _ _ _ => isTrue trivial
  | .guardDrop _ _ => isTrue trivial
  | .rxDrop _ => isTrue trivial

/-- The connection asked for a session from the address, and it alone did. -/
def Requester (past : List Event) (addr : SocketAddr) (c : ConnId) : Prop :=
  Event.requested c (keyOf E addr) ∈ past ∧
    ∀ r, Event.requested r (keyOf E addr) ∈ past → r = c

/-- What routing promises of a pushed message, given what came before: one that starts
a session went to a websocket over which the target registered; an answer to a request
went to the connection that sent that request; and a peer's answer went to the connection that
asked for a session from the address which the answer names. -/
def Delivered (ev : Event) (past : List Event) : Prop :=
  match ev with
  | .pushed cause _ dst msg =>
    (msg.StartsSession = true →
      ∃ id, cause.frame.target? = some id ∧ RegisteredOver past id dst) ∧
    (msg.IsReply = true →
      cause.frame.asksSession = true ∧ cause.via.conn? = some dst ∨
        ∃ named, cause.frame.requester? = some named ∧ Requester E past (E.hbb.decode named) dst)
  | _ => True

end Owner

/-! ### One section -/

section Exec

variable {E : Ext} {cfg : Settings} {s : Server}

theorem RegisteredOver.mono {l l' : List Event} {id : String} {c : ConnId}
    (h : RegisteredOver l id c) (hl : ∀ ev ∈ l, ev ∈ l') : RegisteredOver l' id c := by
  obtain ⟨ev, hev, hr⟩ := h
  exact ⟨ev, hl ev hev, hr⟩

/-- A new event that concerns a key only through its owner leaves it owned. -/
theorem KeyOwned.cons {log : List Event} {ev : Event} {key : SocketAddr} {c : ConnId}
    (h : KeyOwned E log key c) (hid : ∀ id ∈ ev.idAt? key, RegisteredOver (ev :: log) id c)
    (hreq : ∀ r ∈ ev.requesterAt? key, r = c) : KeyOwned E (ev :: log) key c := by
  obtain ⟨hne, hids, hreqs⟩ := h
  refine ⟨hne, fun ev' hmem id hat => ?_, hreqs.cons hreq⟩
  rcases List.mem_cons.mp hmem with rfl | hmem
  · exact hid id hat
  · exact (hids ev' hmem id hat).mono fun _ hm => List.mem_cons_of_mem _ hm

theorem KeyOwned.other {log : List Event} {ev : Event} {key : SocketAddr} {c : ConnId}
    (hid : ev.idAt? key = none) (hreq : ev.requesterAt? key = none) (h : KeyOwned E log key c) :
    KeyOwned E (ev :: log) key c := by
  refine h.cons (fun id hat => ?_) fun r hat => ?_
  · rw [hid] at hat
    cases hat
  · rw [hreq] at hat
    cases hat

theorem KeyOwned.asked {log : List Event} {key : SocketAddr} {c : ConnId}
    (h : KeyOwned E log key c) : KeyOwned E (.requested c key :: log) key c := by
  exact h.cons (fun id hat => by cases hat) fun _ hat => Event.requester_requested hat

/-- A record may get an address that is nobody's key, or its own websocket's. -/
theorem keyOwned_peer (cause : Cause) (o : PeerOp) {key : SocketAddr} {c : ConnId}
    (h : KeyOwned E s.log key c) (hl : s.wsPeers.lookup key = some c)
    (hfree : ∀ ev ∈ peerEvents E s.pm cause o, ev.Free s) :
    KeyOwned E (peerEvents E s.pm cause o ++ s.log) key c := by
  rcases peerEvents_cases E s.pm cause o with hev | ⟨id, k, hev⟩
  · rw [hev]
    exact h
  · rw [hev] at hfree ⊢
    refine h.cons (fun id' hat => ?_) fun r hat => by cases hat
    rw [Event.idAt?] at hat
    split at hat
    · next hk =>
      cases hat
      subst hk
      exact hfree _ List.mem_cons_self c hl
    · cases hat

/-- **A section that meets the condition keeps every key with its owner.** -/
theorem exec_keysOwned (e : SrvEnv) (o : SrvOp) (h : Registered (KeyOwned E) s)
    (hD : KeysApart E e o s) : Registered (KeyOwned E) (o.exec E cfg e s).1 := by
  refine registered_exec e o KeyOwned.other KeyOwned.asked (fun cause p ho key c hl => ?_)
    (fun cause addr c ho => ?_) (fun addr c ho => ?_) h
  · subst ho
    exact keyOwned_peer cause p (h key c hl) hl hD
  · subst ho
    exact hD
  · subst ho
    exact hD

theorem Handed.target {calm : Prop} {cause : Cause} {addr : SocketAddr} {msg : Msg}
    (h : Handed E cfg calm s cause addr msg) :
    ∃ id, cause.frame.target? = some id ∧ Located E s.log id addr ∧ msg.StartsSession = true := by
  cases h with
  | punch hframe _ hloc hmsg => exact ⟨_, by rw [hframe]; rfl, hloc, hmsg⟩
  | relay hframe _ hloc hmsg => exact ⟨_, by rw [hframe]; rfl, hloc, hmsg⟩

theorem delivered_pushed {cause : Cause} {addr : SocketAddr} {msg : Msg} {dst : ConnId}
    (hG : Handed E cfg False s cause addr msg ∨ Answered E s cause addr msg)
    (hown : KeyOwned E s.log (keyOf E addr) dst)
    (hasked : cause.frame.requester?.isSome = true → Event.requested dst (keyOf E addr) ∈ s.log) :
    Delivered E (.pushed cause (keyOf E addr) dst msg) s.log := by
  obtain ⟨hne, hids, hreqs⟩ := hown
  have hreq : ∀ r, Event.requested r (keyOf E addr) ∈ s.log → r = dst :=
    fun r hr => hreqs.eq hr
  -- the target's address is a key it registered from, and that key is `dst`'s own
  have hloc : ∀ {id : String}, Located E s.log id addr → RegisteredOver s.log id dst := by
    rintro id (rfl | ⟨cause', hset⟩)
    · exact absurd rfl hne
    · exact hids _ hset id (if_pos rfl)
  rcases hG with h | h
  · obtain ⟨id, htarget, hl, hmsg⟩ := h.target
    refine ⟨fun _ => ⟨id, htarget, hloc hl⟩, ?_⟩
    intro hr
    rw [Msg.startsSession_of_isReply hr] at hmsg
    cases hmsg
  · have hno : msg.StartsSession = false := by
      cases h with
      | own _ _ _ hmsg => exact Msg.startsSession_of_isReply hmsg
      | peer _ _ _ hmsg => exact Msg.startsSession_of_isReply hmsg
    refine ⟨fun hs => absurd (hno.symm.trans hs) (by decide), fun _ => ?_⟩
    cases h with
    | own hvia hask hown _ => exact Or.inl ⟨hask, hreq _ hown ▸ hvia⟩
    | peer _ hnamed haddr _ =>
      subst haddr
      exact Or.inr ⟨_, hnamed, hasked (by rw [hnamed]; rfl), hreq⟩

/-- A section performed as `SrvSpec` says, with the registry right, delivers. -/
theorem exec_delivered (e : SrvEnv) (o : SrvOp) (hG : SrvSpec E cfg False e o s)
    (hD : KeysApart E e o s) (hkeys : Registered (KeyOwned E) s)
    (hlog : Chronicle (Delivered E) s.log) :
    Chronicle (Delivered E) (o.exec E cfg e s).1.log := by
  refine chronicle_exec (fun ev l hev => ?_) (fun cause addr msg c ho hl hopen => ?_)
    (fun _ _ _ _ => trivial) (fun _ _ _ _ => trivial) hlog
  · cases ev with
    | pushed => cases hev
    | _ => trivial
  · subst ho
    exact delivered_pushed hG (hkeys _ c hl) fun hnamed => hD hnamed c hl hopen

end Exec

/-- **Pushed messages arrive.**  Any number of websockets, TCP connections and datagrams,
in any order: along every run in which keys are kept apart, every message pushed for a
target went to a websocket over which the target registered, every refusal to the connection
that asked, and every peer's answer to the connection that asked from the address it names. -/
theorem pushed_to_owner {ι : Type} [DecidableEq ι] (E : Ext) (cfg : Settings) (T : ι → Task)
    (db : List Row) (mustLogin alwaysUseRelay : Bool) (conf : Snapshot)
    {c : Config SrvSig Server ι Unit}
    (h : Reach (srvMachine E cfg) (OpOk (KeysApart E))
      ⟨.start db mustLogin alwaysUseRelay conf, fun i => (T i).prog E cfg⟩ c) :
    Chronicle (Delivered E) c.st.log := by
  refine (reach_inv (E := E) False (D := KeysApart E)
    (J := fun s => Registered (KeyOwned E) s ∧ Chronicle (Delivered E) s.log)
    (allLocated_start E db mustLogin alwaysUseRelay conf) ?_
    ⟨fun _ _ h => (by cases h), trivial⟩
    (h.mono fun _ _ _ hok o ho => ⟨False.elim, hok o ho⟩)).2
  rintro e o s - ⟨hkeys, hlog⟩ hG hD
  exact ⟨exec_keysOwned e o hkeys hD, exec_delivered e o hG hD hkeys hlog⟩

/-! ### Three clients -/

/-- A server with nothing configured. -/
def openSettings : Settings := ⟨"", "", 0⟩

/-- Two ids register over a websocket each, and a third client asks for the first. -/
def threeClients (a b : SocketAddr) (i : Fin 3) : Task :=
  match i with
  | 0 => .ws 1 a [some (.registerPk ⟨"alpha1", [1], [2]⟩),
      some (.punchHoleSent ⟨[198, 51, 100, 9, 15, 160], "alpha1", "", .other 0, ""⟩)]
  | 1 => .ws 2 b [some (.registerPk ⟨"bravo1", [3], [4]⟩)]
  | 2 => .ws 3 ⟨.ofOctets 198 51 100 9, 4000⟩
      [some (.punchHoleRequest ⟨"alpha1", .other 0, "", ""⟩)]

/-- The two register, the third asks, and the first answers. -/
def askAndAnswer : List (Fin 3 × SrvEnv) :=
  List.replicate 15 (0, .ok 0 1) ++ List.replicate 15 (1, .ok 0 2) ++
    List.replicate 11 (2, .ok 0 3) ++ List.replicate 2 (0, .ok 0 3)

/-- The run of `threeClients`. -/
def threeClientsRun (a b : SocketAddr) : Config SrvSig Server (Fin 3) Unit :=
  (⟨.start [] false false .blank, fun i => (threeClients a b i).prog .sample openSettings⟩ :
    Config SrvSig Server (Fin 3) Unit).sched (srvMachine .sample openSettings) askAndAnswer

/-- The question reaches the first client, and its answer the third. -/
theorem pushed_to_owner_apart :
    (∃ cause key msg, Event.pushed cause key 1 (.punchHole msg) ∈
        (threeClientsRun ⟨.ofOctets 203 0 113 5, 0⟩ ⟨.ofOctets 203 0 113 6, 0⟩).st.log) ∧
      (∃ cause key msg, Event.pushed cause key 3 (.punchHoleResponse msg) ∈
        (threeClientsRun ⟨.ofOctets 203 0 113 5, 0⟩ ⟨.ofOctets 203 0 113 6, 0⟩).st.log) ∧
      Chronicle (Delivered .sample)
        (threeClientsRun ⟨.ofOctets 203 0 113 5, 0⟩ ⟨.ofOctets 203 0 113 6, 0⟩).st.log := by
  refine ⟨⟨⟨.ws 3, 0, .punchHoleRequest ⟨"alpha1", .other 0, "", ""⟩⟩, ⟨.ofOctets 203 0 113 5, 0⟩,
      ⟨[198, 51, 100, 9, 15, 160], .other 0, ""⟩, by decide⟩,
    ⟨⟨.ws 1, 1, .punchHoleSent ⟨[198, 51, 100, 9, 15, 160], "alpha1", "", .other 0, ""⟩⟩,
      ⟨.ofOctets 198 51 100 9, 4000⟩,
      { socketAddr := [203, 0, 113, 5, 0, 0], natType := some (.other 0) }, by decide⟩, ?_⟩
  exact pushed_to_owner .sample openSettings (threeClients _ _) [] false false .blank
    (reach_sched (by decide))

/-- Behind one IP the question for the first client goes to the second. -/
theorem pushed_to_stranger :
    ¬∀ c, Reach (srvMachine .sample openSettings) (fun _ _ _ => True)
        ⟨.start [] false false .blank,
          fun i => (threeClients ⟨.ofOctets 203 0 113 5, 0⟩ ⟨.ofOctets 203 0 113 5, 0⟩ i).prog
            .sample openSettings⟩ c →
      Chronicle (Delivered .sample) c.st.log := by
  intro hall
  have h := hall (threeClientsRun ⟨.ofOctets 203 0 113 5, 0⟩ ⟨.ofOctets 203 0 113 5, 0⟩)
    (reach_sched (along_true _ _))
  have hlog : (threeClientsRun ⟨.ofOctets 203 0 113 5, 0⟩ ⟨.ofOctets 203 0 113 5, 0⟩).st.log =
      (threeClientsRun ⟨.ofOctets 203 0 113 5, 0⟩ ⟨.ofOctets 203 0 113 5, 0⟩).st.log.take 1 ++
        Event.pushed ⟨.ws 3, 0, .punchHoleRequest ⟨"alpha1", .other 0, "", ""⟩⟩
          ⟨.ofOctets 203 0 113 5, 0⟩ 2 (.punchHole ⟨[198, 51, 100, 9, 15, 160], .other 0, ""⟩) ::
        (threeClientsRun ⟨.ofOctets 203 0 113 5, 0⟩ ⟨.ofOctets 203 0 113 5, 0⟩).st.log.drop 2 := by
    decide
  rw [hlog] at h
  obtain ⟨id, hid, hover⟩ := h.of_append.1 rfl
  cases hid
  exact absurd hover (by decide)

end RustdeskServer
