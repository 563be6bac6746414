import RustdeskServer.Routing

/-!
# The registry of websockets

`ws_peers` maps an address to the channel of the websocket that registered last under
it.  What a section can do to the registry is said here once: a websocket is put under
its key, a key is dropped, and everything else leaves the registry alone while the
history grows.  A property of keys and connections that survives these three holds of the
whole registry along a run.

## Main definitions

* `AskedBy` — nobody but this connection asked for a session from the key.
* `Registered` — a property of every entry of the registry.
* `RequestersApart` — keys are not shared between connections that ask for sessions.

## Main results

* `registered_exec` — the rule for properties of the registry.
* `exec_askedBy` — a websocket in the registry is the only one that asked from its key.
* `exec_oneAsker` — from every key only one connection asked.
-/

namespace RustdeskServer

open Atomic

/-- The id that registered from a key. -/
def Event.idAt? (key : SocketAddr) : Event → Option String
  | .addrSet id _ k => if k = key then some id else none
  | _ => none

/-- The connection that asked for a session from a key. -/
def Event.requesterAt? (key : SocketAddr) : Event → Option ConnId
  | .requested c k => if k = key then some c else none
  | _ => none

/-- Whoever asked for a session from the key did so over the connection. -/
def AskedBy (log : List Event) (key : SocketAddr) (c : ConnId) : Prop :=
  ∀ ev ∈ log, ∀ r ∈ ev.requesterAt? key, r = c

instance (log : List Event) (key : SocketAddr) (c : ConnId) : Decidable (AskedBy log key c) :=
  inferInstanceAs (Decidable (∀ ev ∈ log, ∀ r ∈ ev.requesterAt? key, r = c))

/-- Every websocket in the registry stands in the relation to its key. -/
def Registered (P : List Event → SocketAddr → ConnId → Prop) (s : Server) : Prop :=
  ∀ key c, s.wsPeers.lookup key = some c → P s.log key c

/-! ### What a section does to the registry -/

section Exec

variable {E : Ext} {cfg : Settings} {s : Server} {P : List Event → SocketAddr → ConnId → Prop}

theorem Registered.erase (h : Registered P s) (k : SocketAddr) :
    Registered P { s with wsPeers := s.wsPeers.erase k } := by
  intro key c hl
  by_cases hk : key = k
  · subst hk
    rw [AList.lookup_erase] at hl
    cases hl
  · rw [AList.lookup_erase_ne hk] at hl
    exact h key c hl

/-- A websocket may register under a key to which it stands in the relation. -/
theorem registered_registerWs (e : SrvEnv) (cause : Cause) {addr : SocketAddr} {c₀ : ConnId}
    (hother : ∀ {ev log key c}, ev.idAt? key = none → ev.requesterAt? key = none → P log key c →
      P (ev :: log) key c)
    (hask : ∀ {log key c}, P log key c → P (.requested c key :: log) key c)
    (h : Registered P s) (hown : P s.log (keyOf E addr) c₀) :
    Registered P ((SrvOp.registerWs cause addr c₀).exec E cfg e s).1 := by
  intro key c hl
  rw [show ((SrvOp.registerWs cause addr c₀).exec E cfg e s).1.wsPeers =
    s.wsPeers.insert (keyOf E addr) c₀ from rfl] at hl
  change P ((if _ then _ else _) ++ s.log) key c
  by_cases hk : key = keyOf E addr
  · subst hk
    rw [AList.lookup_insert, Option.some.injEq] at hl
    subst hl
    split
    · exact hask hown
    · exact hown
  · rw [AList.lookup_insert_ne hk] at hl
    split
    · exact hother rfl (if_neg fun hk' => hk hk'.symm) (h key c hl)
    · exact h key c hl

/-- **The rule for the registry**: a relation between keys and connections that events
about other keys and a connection's own requests leave alone holds of every registered
websocket after a section, if the section gives no record an address against it,
registers no websocket against it, and lets no TCP connection ask from a taken key. -/
theorem registered_exec (e : SrvEnv) (o : SrvOp)
    (hother : ∀ {ev log key c}, ev.idAt? key = none → ev.requesterAt? key = none → P log key c →
      P (ev :: log) key c)
    (hask : ∀ {log key c}, P log key c → P (.requested c key :: log) key c)
    (hpeer : ∀ cause p, o = .peer cause p → ∀ key c, s.wsPeers.lookup key = some c →
      P (peerEvents E s.pm cause p ++ s.log) key c)
    (hws : ∀ cause addr c, o = .registerWs cause addr c → P s.log (keyOf E addr) c)
    (hpunch : ∀ addr c, o = .punchInsert addr c → s.wsPeers.lookup (keyOf E addr) = none)
    (h : Registered P s) : Registered P (o.exec E cfg e s).1 := by
  cases o with
  | peer cause p => exact hpeer cause p rfl
  | registerWs cause addr c =>
    exact registered_registerWs e cause hother hask h (hws cause addr c rfl)
  | punchInsert addr c₀ =>
    intro key c hl
    refine hother rfl (if_neg ?_) (h key c hl)
    -- a key under which a websocket is registered is not the one that asks
    rintro rfl
    have hnone := hpunch addr c₀ rfl
    rw [show s.wsPeers.lookup (keyOf E addr) = some c from hl] at hnone
    cases hnone
  | pushWs cause addr msg =>
    simp only [SrvOp.exec]
    split
    · exact h
    · split
      · exact h.erase _
      · exact fun key c hl => hother rfl rfl (h key c hl)
  | guardDrop addr c =>
    simp only [SrvOp.exec]
    split
    · exact h.erase _
    · exact h
  | verifyToken cause token =>
    intro key c hl
    change P ((if _ then _ else _) ++ s.log) key c
    split
    · exact hother rfl rfl (h key c hl)
    · exact h key c hl
  | sendSink cause c msg => exact fun key c hl => hother rfl rfl (h key c hl)
  | sendData cause msg addr => exact fun key c hl => hother rfl rfl (h key c hl)
  | _ => exact h

end Exec

/-! ### Who asked from a key -/

section Asked

variable {E : Ext} {cfg : Settings} {s : Server}

/-- A connection registers itself, or asks for a session, under a key from which nobody else
asked, and no TCP connection asks from the key of a registered websocket. -/
def RequestersApart (E : Ext) (_ : SrvEnv) (o : SrvOp) (s : Server) : Prop :=
  match o with
  | .registerWs _ addr c => AskedBy s.log (keyOf E addr) c
  | .punchInsert addr c =>
    s.wsPeers.lookup (keyOf E addr) = none ∧ AskedBy s.log (keyOf E addr) c
  | _ => True

instance (e : SrvEnv) (o : SrvOp) (s : Server) : Decidable (RequestersApart E e o s) :=
  match o with
  | .registerWs _ addr c => inferInstanceAs (Decidable (AskedBy s.log (keyOf E addr) c))
  | .punchInsert addr c => inferInstanceAs (Decidable
      (s.wsPeers.lookup (keyOf E addr) = none ∧ AskedBy s.log (keyOf E addr) c))
  | .peer _ _ => isTrue trivial
  | .mustLogin => isTrue trivial
  | .alwaysUseRelay => isTrue trivial
  | .verifyToken _ _ => isTrue trivial
  | .recordPunchReq _ _ _ => isTrue trivial
  | .getRelayServer _ _ => isTrue trivial
  | .cloneServer => isTrue trivial
  | .setConf _ => isTrue trivial
  | .pushWs _ _ _ => isTrue trivial
  | .punchRemove _ => isTrue trivial
  | .sendSink _ _ _ => isTrue trivial
  | .sendUdp _ _ => isTrue trivial
  | .sendData _ _ _ => isTrue trivial
  | .guardDrop _ _ => isTrue trivial
  | .rxDrop _ => isTrue trivial

theorem AskedBy.cons {log : List Event} {ev : Event} {key : SocketAddr} {c : ConnId}
    (h : AskedBy log key c) (hev : ∀ r ∈ ev.requesterAt? key, r = c) :
    AskedBy (ev :: log) key c := by
  intro ev' hmem r hr
  rcases List.mem_cons.mp hmem with rfl | hmem
  · exact hev r hr
  · exact h ev' hmem r hr

theorem AskedBy.other {log : List Event} {ev : Event} {key : SocketAddr} {c : ConnId}
    (hreq : ev.requesterAt? key = none) (h : AskedBy log key c) : AskedBy (ev :: log) key c := by
  refine h.cons ?_
  intro r hr
  rw [hreq] at hr
  cases hr

theorem Event.requester_requested {key : SocketAddr} {c r : ConnId}
    (h : r ∈ (Event.requested c key).requesterAt? key) : r = c := by
  rw [Event.requesterAt?, if_pos rfl] at h
  exact (Option.some.inj h).symm

theorem AskedBy.own {log : List Event} {key : SocketAddr} {c : ConnId} (h : AskedBy log key c) :
    AskedBy (.requested c key :: log) key c :=
  h.cons fun _ hr => Event.requester_requested hr

theorem AskedBy.eq {log : List Event} {key : SocketAddr} {c r : ConnId} (h : AskedBy log key c)
    (hr : Event.requested r key ∈ log) : r = c :=
  h _ hr r (if_pos rfl)

/-- **A section that keeps requesters apart keeps every registered websocket the only one
that asked from its key.** -/
theorem exec_askedBy (e : SrvEnv) (o : SrvOp) (h : Registered AskedBy s)
    (hD : RequestersApart E e o s) : Registered AskedBy (o.exec E cfg e s).1 := by
  refine registered_exec e o (fun _ hreq => AskedBy.other hreq) AskedBy.own
    (fun cause p _ key c hl => ?_) (fun cause addr c ho => ?_) (fun addr c ho => ?_) h
  · rcases peerEvents_cases E s.pm cause p with hev | ⟨id, k, hev⟩
    · rw [hev]
      exact h key c hl
    · rw [hev]
      exact AskedBy.other rfl (h key c hl)
  · subst ho
    exact hD
  · subst ho
    exact hD.1

/-- From every key only one connection asked. -/
def OneAsker (s : Server) : Prop := ∀ key c, Event.requested c key ∈ s.log → AskedBy s.log key c

/-- A section records one request at most: that of the connection that registers itself or
parks its sink. -/
theorem requests_exec (e : SrvEnv) (o : SrvOp) :
    (∀ ev ∈ (o.exec E cfg e s).1.log, ev ∈ s.log ∨ ∀ key, ev.requesterAt? key = none) ∨
      ∃ addr c, (o.exec E cfg e s).1.log = .requested c (keyOf E addr) :: s.log ∧
        (o = .punchInsert addr c ∨ ∃ cause, o = .registerWs cause addr c) := by
  have hcons : ∀ {ev : Event} {l : List Event}, l = ev :: s.log →
      (∀ key, ev.requesterAt? key = none) →
      ∀ ev' ∈ l, ev' ∈ s.log ∨ ∀ key, ev'.requesterAt? key = none := by
    rintro ev l rfl hev ev' hmem
    rcases List.mem_cons.mp hmem with rfl | hmem
    · exact Or.inr hev
    · exact Or.inl hmem
  cases o with
  | punchInsert addr c => exact Or.inr ⟨addr, c, rfl, Or.inl rfl⟩
  | registerWs cause addr c =>
    by_cases hask : cause.frame.asksSession = true
    · refine Or.inr ⟨addr, c, ?_, Or.inr ⟨cause, rfl⟩⟩
      simp only [SrvOp.exec, if_pos hask]
      rfl
    · refine Or.inl fun ev hev => Or.inl ?_
      simpa only [SrvOp.exec, if_neg hask, List.nil_append] using hev
  | peer cause o =>
    refine Or.inl fun ev hev => ?_
    rcases List.mem_append.mp hev with hev | hev
    · rcases peerEvents_cases E s.pm cause o with h | ⟨id, k, h⟩
      · rw [h] at hev
        cases hev
      · rw [h] at hev
        rw [List.mem_singleton.mp hev]
        exact Or.inr fun _ => rfl
    · exact Or.inl hev
  | verifyToken cause token =>
    refine Or.inl fun ev hev => ?_
    rcases List.mem_append.mp hev with hev | hev
    · split at hev
      · rw [List.mem_singleton.mp hev]
        exact Or.inr fun _ => rfl
      · cases hev
    · exact Or.inl hev
  | pushWs cause addr msg =>
    refine Or.inl ?_
    simp only [SrvOp.exec]
    split
    · exact fun ev hev => Or.inl hev
    · split
      · exact fun ev hev => Or.inl hev
      · exact hcons rfl fun _ => rfl
  | guardDrop addr c =>
    refine Or.inl fun ev hev => Or.inl ?_
    simp only [SrvOp.exec] at hev
    split at hev <;> exact hev
  | sendSink cause c msg => exact Or.inl (hcons rfl fun _ => rfl)
  | sendData cause msg addr => exact Or.inl (hcons rfl fun _ => rfl)
  | _ => exact Or.inl fun ev hev => Or.inl hev

/-- **So it stays while requesters are kept apart.** -/
theorem exec_oneAsker (e : SrvEnv) (o : SrvOp) (h : OneAsker s) (hD : RequestersApart E e o s) :
    OneAsker (o.exec E cfg e s).1 := by
  rcases @requests_exec E cfg s e o with hold | ⟨addr, d, hlog, ho⟩
  · intro key c hc ev hev r hr
    have hpast : ∀ {ev r}, ev ∈ (o.exec E cfg e s).1.log → r ∈ ev.requesterAt? key →
        ev ∈ s.log := by
      intro ev r hev hr
      refine (hold ev hev).resolve_right fun hnone => ?_
      rw [hnone key] at hr
      cases hr
    exact h key c (hpast hc (if_pos rfl)) ev (hpast hev hr) r hr
  · have hasked : AskedBy s.log (keyOf E addr) d := by
      rcases ho with rfl | ⟨cause, rfl⟩
      · exact hD.2
      · exact hD
    rw [OneAsker, hlog]
    intro key c hc
    rcases List.mem_cons.mp hc with heq | hc
    · cases heq
      exact hasked.own
    · refine (h key c hc).cons fun r hr => ?_
      -- the newcomer asked from this key only if it is the one that did before
      rw [Event.requesterAt?] at hr
      split at hr
      · next hk =>
        cases hr
        subst hk
        exact (hasked.eq hc).symm
      · cases hr

end Asked

end RustdeskServer
