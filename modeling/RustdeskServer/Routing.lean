import RustdeskServer.LookupRace
import RustdeskServer.Store

/-!
# What the handlers hand to whom

Everything a handler puts into another connection's channel or into the main loop's
queue goes through a few sections.  This module says once what is known when such a
section is performed, whatever the other tasks do in between: which message caused it,
which checks that message passed, and how the address was come by.

The knowledge is read off the history.  It is proved along the programs of the handlers
with the rely-guarantee judgement, for any number of connections and the UDP socket.
Statements about runs then need only look at one section at a time.

## Main definitions

* `Located` — an address some id registered from.
* `Passed` — a punch-hole request got through the gate.
* `Handed`, `Answered` — what is known of a message for a peer, and of an answer.
* `SrvSpec` — what is known when a section is performed.

## Main results

* `exec_located` — a section performed as `SrvSpec` says keeps the records located.
* `chronicle_exec` — the rule for what is handed over.
* `safe_handleTcp`, `safe_task` — **the handlers perform every section as `SrvSpec`
  says.**
* `reach_inv` — the rule for runs of the server.
-/

namespace RustdeskServer

open Atomic

/-! ### What is known -/

/-- The id a message registers. -/
def Msg.registers? : Msg → Option String
  | .registerPk rk => some rk.id
  | .registerPeer rp => some rp.id
  | _ => none

/-- The id a message asks a session with. -/
def Msg.target? : Msg → Option String
  | .punchHoleRequest ph => some ph.id
  | .requestRelay rf => some rf.id
  | _ => none

/-- The requester that a peer's answer names, mangled. -/
def Msg.requester? : Msg → Option Bytes
  | .punchHoleSent phs => some phs.socketAddr
  | .localAddr la => some la.socketAddr
  | .relayResponse rr => some rr.socketAddr
  | _ => none

/-- The id that a `RequestRelay` looks up in memory. -/
def SrvOp.relayLookup? : SrvOp → Option String
  | .peer ⟨_, _, .requestRelay _⟩ (.mapGet id) => some id
  | _ => none

/-- A `RequestRelay` finds no peer. -/
def NoRelayTarget (_ : SrvEnv) (o : SrvOp) (s : Server) : Prop :=
  ∀ id ∈ o.relayLookup?, s.pm.map.lookup id = none

instance (e : SrvEnv) (o : SrvOp) (s : Server) : Decidable (NoRelayTarget e o s) :=
  inferInstanceAs (Decidable (∀ id ∈ o.relayLookup?, s.pm.map.lookup id = none))

section Spec

variable (E : Ext) (cfg : Settings)

/-- The address is one that the id registered from, or no address at all. -/
def Located (log : List Event) (id : String) (addr : SocketAddr) : Prop :=
  addr = .unspecified ∨ ∃ cause, Event.addrSet id cause (keyOf E addr) ∈ log

/-- A punch-hole request got through the two checks of `authorize`. -/
def Passed (s : Server) (cause : Cause) (ph : PunchHoleRequest) : Prop :=
  (cfg.key = "" ∨ ph.licenceKey = cfg.key) ∧
    (s.mustLogin = true → ph.token ≠ "" ∧ (cfg.jwtSecret ≠ "" →
      ∃ utc, Event.verified cause utc ∈ s.log ∧
        verifyToken E cfg.jwtSecret ph.token utc = true))

/-- What is known of a message for a peer.  `calm` says that no `RequestRelay` finds
its peer. -/
inductive Handed (calm : Prop) (s : Server) (cause : Cause) (addr : SocketAddr) (msg : Msg) : Prop
  /-- A punch-hole request that got through. -/
  | punch {ph : PunchHoleRequest} (hframe : cause.frame = .punchHoleRequest ph)
      (hpassed : Passed E cfg s cause ph) (hloc : Located E s.log ph.id addr)
      (hmsg : msg.StartsSession = true)
  /-- A relay request, which nothing checks. -/
  | relay {rf : RequestRelay} (hframe : cause.frame = .requestRelay rf) (hcalm : ¬calm)
      (hloc : Located E s.log rf.id addr) (hmsg : msg.StartsSession = true)

/-- What is known of an answer to a requester. -/
inductive Answered (s : Server) (cause : Cause) (addr : SocketAddr) (msg : Msg) : Prop
  /-- The server's own answer, addressed to where the request came from. -/
  | own {c : ConnId} (hvia : cause.via.conn? = some c) (hask : cause.frame.asksSession = true)
      (hreq : Event.requested c (keyOf E addr) ∈ s.log) (hmsg : msg.IsReply = true)
  /-- A peer's answer, addressed to whatever requester it names. -/
  | peer {named : Bytes} (hask : cause.frame.asksSession = false)
      (hnamed : cause.frame.requester? = some named) (haddr : addr = E.hbb.decode named)
      (hmsg : msg.IsReply = true)

/-- What is known of a message that is written to a connection on behalf of a request: it is an
answer to an address from which the connection asked. -/
def WrittenTo (s : Server) (cause : Option Cause) (c : ConnId) (msg : Msg) : Prop :=
  ∀ x ∈ cause, x.frame.asksSession = true →
    ∃ addr, Answered E s x addr msg ∧ Event.requested c (keyOf E addr) ∈ s.log

/-- What is known when a section of the registration code is performed. -/
def PeerSpec (frame : Msg) (_ : Env) : PeerOp → PeerStore → Prop
  | .mapInsert _ p, _ => p.socketAddr = .unspecified
  | .writeReg h _ _ _ _, _ => frame.registers? = some h.id
  | .updateAddr h _, _ => frame.registers? = some h.id
  | _, _ => True

/-- What is known when a section of a handler is performed. -/
def SrvSpec (calm : Prop) (e : SrvEnv) : SrvOp → Server → Prop
  | .peer cause o, s => PeerSpec cause.frame e.toEnv o s.pm
  | .registerWs cause _ c, _ => cause.via = .ws c
  | .pushWs cause addr msg, s => Handed E cfg calm s cause addr msg ∨ Answered E s cause addr msg
  | .sendData cause msg addr, s => Handed E cfg calm s cause addr msg
  | .sendSink cause c msg, s => WrittenTo E s cause c msg
  | _, _ => True

/-- Every record has an address its id registered from, and every parked sink is under the key
its connection asked from. -/
structure AllLocated (s : Server) : Prop where
  /-- Handles are found under their id. -/
  handles : s.pm.HandlesOk
  /-- The address of every record. -/
  located : ∀ h, Located E s.log h.id (s.pm.recs h).socketAddr
  /-- The key of every parked sink. -/
  parked : ∀ key c, s.tcpPunch.lookup key = some c → Event.requested c key ∈ s.log

/-- Nothing is forgotten, and the switch stays. -/
structure Onward (s t : Server) : Prop where
  /-- The history grows. -/
  log : s.log <:+ t.log
  /-- `MUST_LOGIN` is not touched by the handlers. -/
  mustLogin : t.mustLogin = s.mustLogin

end Spec

theorem Onward.refl (s : Server) : Onward s s := ⟨List.suffix_refl _, rfl⟩

theorem Onward.trans {s t u : Server} (h₁ : Onward s t) (h₂ : Onward t u) : Onward s u :=
  ⟨h₁.log.trans h₂.log, h₂.mustLogin.trans h₁.mustLogin⟩

section Mono

variable {E : Ext} {cfg : Settings} {calm : Prop} {s t : Server} {cause : Cause}
  {addr : SocketAddr} {msg : Msg}

theorem Located.mono {l l' : List Event} {id : String} (h : Located E l id addr)
    (hl : ∀ ev ∈ l, ev ∈ l') : Located E l' id addr := by
  rcases h with h | ⟨cause, h⟩
  · exact Or.inl h
  · exact Or.inr ⟨cause, hl _ h⟩

theorem Passed.mono {ph : PunchHoleRequest} (h : Passed E cfg s cause ph) (hR : Onward s t) :
    Passed E cfg t cause ph := by
  refine ⟨h.1, ?_⟩
  intro hm
  obtain ⟨htok, hver⟩ := h.2 (hR.mustLogin ▸ hm)
  refine ⟨htok, ?_⟩
  intro hjwt
  obtain ⟨utc, hmem, hgood⟩ := hver hjwt
  exact ⟨utc, hR.log.subset hmem, hgood⟩

theorem Handed.mono (h : Handed E cfg calm s cause addr msg) (hR : Onward s t) :
    Handed E cfg calm t cause addr msg := by
  cases h with
  | punch hframe hpassed hloc hmsg =>
    exact .punch hframe (hpassed.mono hR) (hloc.mono fun _ h => hR.log.subset h) hmsg
  | relay hframe hcalm hloc hmsg =>
    exact .relay hframe hcalm (hloc.mono fun _ h => hR.log.subset h) hmsg

theorem Answered.mono (h : Answered E s cause addr msg) (hR : Onward s t) :
    Answered E t cause addr msg := by
  cases h with
  | own hvia hask hreq hmsg => exact .own hvia hask (hR.log.subset hreq) hmsg
  | peer hask hnamed haddr hmsg => exact .peer hask hnamed haddr hmsg

theorem WrittenTo.mono {why : Option Cause} {c : ConnId} (h : WrittenTo E s why c msg)
    (hR : Onward s t) : WrittenTo E t why c msg := by
  intro x hx hask
  obtain ⟨addr, hans, hreq⟩ := h x hx hask
  exact ⟨addr, hans.mono hR, hR.log.subset hreq⟩

/-- Nothing need be known of what is written for another message. -/
theorem WrittenTo.other {c : ConnId} (hask : cause.frame.asksSession = false) :
    WrittenTo E s (some cause) c msg := by
  rintro x ⟨⟩ h
  rw [hask] at h
  cases h

end Mono

/-! ### One section -/

section Exec

variable {E : Ext} {cfg : Settings} {calm : Prop}

theorem handlesOk_alloc {s : PeerStore} (hs : s.HandlesOk) (id : String) (p : Peer) :
    (s.alloc id p).HandlesOk := by
  intro id' h' hm
  rw [show (s.alloc id p).map = s.map.insert id ⟨id, s.next⟩ from rfl] at hm
  by_cases hid : id' = id
  · subst hid
    rw [AList.lookup_insert, Option.some.injEq] at hm
    rw [← hm]
  · rw [AList.lookup_insert_ne hid] at hm
    exact hs id' h' hm

theorem handlesOk_exec {s : PeerStore} (hs : s.HandlesOk) (e : Env) (o : PeerOp) :
    (o.exec e s).1.HandlesOk := by
  by_cases hk : o.KeepsMap = true
  · unfold PeerStore.HandlesOk
    rw [(PeerOp.exec_keepsMap hk e s).1]
    exact hs
  · cases o with
    | mapInsert id p => exact handlesOk_alloc hs id p
    | mapGetOrInsert id =>
      simp only [PeerOp.exec]
      cases hm : s.map.lookup id with
      | some h => exact hs
      | none => exact handlesOk_alloc hs id _
    | _ => exact absurd rfl hk

theorem located_update {l : List Event} {recs : Handle → Peer} {h₀ : Handle} {p : Peer}
    (hnew : Located E l h₀.id p.socketAddr) (hold : ∀ h, Located E l h.id (recs h).socketAddr)
    (h : Handle) : Located E l h.id (Function.update recs h₀ p h).socketAddr := by
  by_cases hh : h = h₀
  · subst hh
    rw [Function.update_self]
    exact hnew
  · rw [Function.update_of_ne hh]
    exact hold h

/-- A section of the registration code records at most one address. -/
theorem peerEvents_cases (E : Ext) (s : PeerStore) (cause : Cause) (o : PeerOp) :
    peerEvents E s cause o = [] ∨
      ∃ id key, peerEvents E s cause o = [.addrSet id cause key] := by
  cases o with
  | writeReg h addr uuid pk ip => exact Or.inr ⟨_, _, rfl⟩
  | updateAddr h addr =>
    simp only [peerEvents]
    split
    · exact Or.inl rfl
    · exact Or.inr ⟨_, _, rfl⟩
  | _ => exact Or.inl rfl

/-- A section of the registration code records every address it writes. -/
theorem located_exec {frame : Msg} {cause : Cause} {e : Env} {o : PeerOp} {s : PeerStore}
    {l : List Event} (hG : PeerSpec frame e o s)
    (hl : ∀ h, Located E l h.id (s.recs h).socketAddr) (h : Handle) :
    Located E (peerEvents E s cause o ++ l) h.id ((o.exec e s).1.recs h).socketAddr := by
  have hold : ∀ h, Located E (peerEvents E s cause o ++ l) h.id (s.recs h).socketAddr :=
    fun h => (hl h).mono fun _ hm => List.mem_append_right _ hm
  -- a record that gets into the map has no address yet; an address is on record at once
  cases o with
  | mapInsert id p => exact located_update (Or.inl hG) hold h
  | mapGetOrInsert id =>
    simp only [PeerOp.exec]
    cases hm : s.map.lookup id with
    | some h' => exact hold h
    | none => exact located_update (Or.inl rfl) hold h
  | setRegPk h₀ v => exact located_update (p := (s.recs h₀).setRegPk v) (hold h₀) hold h
  | setGuid h₀ guid => exact located_update (p := (s.recs h₀).setGuid guid) (hold h₀) hold h
  | writeReg h₀ addr uuid pk ip =>
    exact located_update (Or.inr ⟨cause, List.mem_cons_self⟩) hold h
  | updateAddr h₀ addr =>
    refine located_update ?_ hold h
    unfold Peer.refresh
    split
    · exact hold h₀
    · next hr =>
      refine Or.inr ⟨cause, ?_⟩
      simp only [peerEvents, hr, Bool.false_eq_true, if_false]
      exact List.mem_cons_self
  | checkIpBlocker ip id =>
    simp only [PeerOp.exec, (sameRecords_checkIpBlocker s e.now ip id).recs]
    exact hold h
  | dbInsertPeer id uuid pk info =>
    simp only [PeerOp.exec]
    split
    · exact hold h
    · split <;> exact hold h
  | dbUpdatePk guid id pk info =>
    simp only [PeerOp.exec]
    split
    · exact hold h
    · split <;> exact hold h
  | _ => exact hold h

/-- The history only grows, and the switch stays. -/
theorem onward_exec (e : SrvEnv) (o : SrvOp) (s : Server) :
    Onward s ((srvMachine E cfg).exec e o s).1 := by
  cases o with
  | pushWs cause addr msg =>
    simp only [srvMachine_exec, SrvOp.exec]
    split
    · exact ⟨List.suffix_refl _, rfl⟩
    · split
      · exact ⟨List.suffix_refl _, rfl⟩
      · exact ⟨List.suffix_cons _ _, rfl⟩
  | guardDrop addr c =>
    simp only [srvMachine_exec, SrvOp.exec]
    split <;> exact ⟨List.suffix_refl _, rfl⟩
  | peer cause o => exact ⟨List.suffix_append _ _, rfl⟩
  | verifyToken cause token => exact ⟨List.suffix_append _ _, rfl⟩
  | registerWs cause addr c => exact ⟨List.suffix_append _ _, rfl⟩
  | punchInsert addr c => exact ⟨List.suffix_cons _ _, rfl⟩
  | sendSink cause c msg => exact ⟨List.suffix_cons _ _, rfl⟩
  | sendData cause msg addr => exact ⟨List.suffix_cons _ _, rfl⟩
  | _ => exact ⟨List.suffix_refl _, rfl⟩

/-- The event hands a message to another task, or writes it to a connection. -/
def Event.HandsOver : Event → Bool
  | .pushed _ _ _ _ => true
  | .queued _ _ _ => true
  | .sent _ _ _ => true
  | _ => false

/-- **The rule for histories**: a property of what is handed over holds after a section
if it holds of what this section hands over. -/
theorem chronicle_exec {P : Event → List Event → Prop}
    (hP : ∀ ev l, ev.HandsOver = false → P ev l) {e : SrvEnv} {o : SrvOp} {s : Server}
    (hpush : ∀ cause addr msg c, o = .pushWs cause addr msg →
      s.wsPeers.lookup (keyOf E addr) = some c → c ∉ s.rxGone →
        P (.pushed cause (keyOf E addr) c msg) s.log)
    (hqueue : ∀ cause msg addr, o = .sendData cause msg addr → P (.queued cause msg addr) s.log)
    (hsend : ∀ cause c msg, o = .sendSink cause c msg → P (.sent cause c msg) s.log)
    (hlog : Chronicle P s.log) : Chronicle P (o.exec E cfg e s).1.log := by
  -- by the section; all but three record only what is handed to nobody
  cases o with
  | pushWs cause addr msg =>
    simp only [SrvOp.exec]
    split
    · exact hlog
    · next c hl =>
      split
      · exact hlog
      · next hopen => exact ⟨hpush cause addr msg c rfl hl hopen, hlog⟩
  | sendData cause msg addr => exact ⟨hqueue cause msg addr rfl, hlog⟩
  | peer cause o =>
    refine hlog.append fun ev hev l => hP ev l ?_
    rcases peerEvents_cases E s.pm cause o with h | ⟨id, key, h⟩
    · rw [h] at hev
      cases hev
    · rw [h] at hev
      rw [List.mem_singleton.mp hev]
      rfl
  | verifyToken cause token =>
    refine hlog.append fun ev hev l => hP ev l ?_
    split at hev
    · rw [List.mem_singleton.mp hev]
      rfl
    · cases hev
  | registerWs cause addr c =>
    refine hlog.append fun ev hev l => hP ev l ?_
    split at hev
    · rw [List.mem_singleton.mp hev]
      rfl
    · cases hev
  | guardDrop addr c =>
    simp only [SrvOp.exec]
    split <;> exact hlog
  | punchInsert addr c => exact ⟨hP _ _ rfl, hlog⟩
  | sendSink cause c msg => exact ⟨hsend cause c msg rfl, hlog⟩
  | _ => exact hlog

/-- Only the registration code touches the peer store. -/
theorem pm_exec (e : SrvEnv) {o : SrvOp} (ho : ∀ cause p, o ≠ .peer cause p) (s : Server) :
    ((srvMachine E cfg).exec e o s).1.pm = s.pm := by
  have hkeeps : o.KeepsPm := by
    cases o with
    | peer cause p => exact absurd rfl (ho cause p)
    | _ => trivial
  exact SrvOp.exec_keepsPm hkeeps e s

/-- A sink is parked when its connection asks. -/
theorem parked_exec {e : SrvEnv} {o : SrvOp} {s : Server} (hI : AllLocated E s)
    {key : SocketAddr} {c : ConnId} (hl : (o.exec E cfg e s).1.tcpPunch.lookup key = some c) :
    Event.requested c key ∈ (o.exec E cfg e s).1.log := by
  rcases lookup_tcpPunch_exec hl with hold | ⟨addr, rfl, rfl⟩
  · exact (onward_exec e o s).log.subset (hI.parked key c hold)
  · exact List.mem_cons_self

/-- **A section performed as `SrvSpec` says keeps every record located.** -/
theorem exec_located {e : SrvEnv} {o : SrvOp} {s : Server} (hI : AllLocated E s)
    (hG : SrvSpec E cfg calm e o s) : AllLocated E ((srvMachine E cfg).exec e o s).1 := by
  have hparked : ∀ key c, ((srvMachine E cfg).exec e o s).1.tcpPunch.lookup key = some c →
      Event.requested c key ∈ ((srvMachine E cfg).exec e o s).1.log :=
    fun key c hl => parked_exec hI hl
  by_cases ho : ∀ cause p, o ≠ .peer cause p
  · have hpm : ((srvMachine E cfg).exec e o s).1.pm = s.pm := pm_exec e ho s
    refine ⟨by rw [hpm]; exact hI.handles, ?_, hparked⟩
    intro h
    rw [hpm]
    exact (hI.located h).mono fun _ hm => (onward_exec e o s).log.subset hm
  · push Not at ho
    obtain ⟨cause, p, rfl⟩ := ho
    exact ⟨handlesOk_exec hI.handles _ p, fun h => located_exec hG hI.located h, hparked⟩

end Exec

/-! ### The registration code -/

/-- The judgement for registration code run for a message. -/
abbrev SafeReg (frame : Msg) {α : Type} (Q : α → Prop) (p : Prog PeerSig α) (s : PeerStore) :
    Prop :=
  Safe peerMachine (fun _ _ _ => True) PeerStore.HandlesOk (fun _ _ => True) (PeerSpec frame)
    (fun a _ => Q a) p s

section Reg

variable {α β : Type} {frame : Msg} {J : Serde} {s : PeerStore} {Q : α → Prop}

theorem safeReg_op {o : PeerOp} {k : PeerOp.Res o → Prog PeerSig α}
    (h : ∀ s', s'.HandlesOk → ∀ e, PeerSpec frame e o s' ∧
      SafeReg frame Q (k (o.exec e s').2) (o.exec e s').1) : SafeReg frame Q (.op o k) s :=
  safe_op fun s' _ hI e _ => ⟨trivial, handlesOk_exec hI e o, h s' hI e⟩

/-- A section of which nothing need be known, and whose answer does not matter. -/
theorem safeReg_any {o : PeerOp} {k : PeerOp.Res o → Prog PeerSig α}
    (ho : ∀ e s, PeerSpec frame e o s) (hk : ∀ r t, SafeReg frame Q (k r) t) :
    SafeReg frame Q (.op o k) s :=
  safeReg_op fun s' _ e => ⟨ho e s', hk _ _⟩

theorem SafeReg.bind {Q' : β → Prop} {p : Prog PeerSig α} {f : α → Prog PeerSig β}
    (hp : SafeReg frame Q p s) (hf : ∀ a t, Q a → SafeReg frame Q' (f a) t) :
    SafeReg frame Q' (p >>= f) s :=
  Safe.bind (R := fun _ _ => True) (fun _ _ => trivial) trivial hp fun a t _ ha => hf a t ha

theorem safeReg_get (id : String) :
    SafeReg frame (fun p => ∀ h, p = some h → h.id = id) (PeerMap.get J id) s := by
  refine safeReg_op fun s' hs' e => ⟨trivial, ?_⟩
  simp only [PeerOp.exec]
  cases hm : s'.map.lookup id with
  | some h =>
    refine safe_ret ?_
    rintro _ ⟨⟩
    exact hs' id h hm
  | none =>
    refine safeReg_any (fun _ _ => trivial) ?_
    intro v t
    rcases v with _ | _ | v
    · exact safe_ret fun _ h => by cases h
    · exact safe_ret fun _ h => by cases h
    · refine safeReg_any (fun _ _ => trivial) ?_
      intro now t
      refine safeReg_op fun s' _ e => ⟨rfl, safe_ret ?_⟩
      rintro _ ⟨⟩
      rfl

theorem safeReg_getOr (id : String) :
    SafeReg frame (fun h => h.id = id) (PeerMap.getOr J id) s := by
  refine (safeReg_get id).bind ?_
  intro p t hp
  cases p with
  | some h => exact safe_ret (hp h rfl)
  | none =>
    refine safeReg_op fun s' hs' e => ⟨trivial, safe_ret ?_⟩
    simp only [PeerOp.exec]
    cases hm : s'.map.lookup id with
    | some h => exact hs' id h hm
    | none => rfl

theorem safeReg_updatePk {h : Handle} (hf : frame.registers? = some h.id) (id : String)
    (addr : SocketAddr) (uuid pk : Bytes) (ip : String) :
    SafeReg frame (fun _ => True) (PeerMap.updatePk J id h addr uuid pk ip) s := by
  refine safeReg_any (fun _ _ => hf) ?_
  intro w t
  refine Safe.ite (fun _ => ?_) fun _ => ?_
  · refine safeReg_any (fun _ _ => trivial) ?_
    intro r t
    cases r with
    | error _ => exact safe_ret trivial
    | ok guid => exact safeReg_any (fun _ _ => trivial) fun _ _ => safe_ret trivial
  · refine safeReg_any (fun _ _ => trivial) ?_
    intro r t
    cases r with
    | error _ => exact safe_ret trivial
    | ok _ => exact safe_ret trivial

theorem safeReg_handleRegisterPk (rk : RegisterPk) (addr : SocketAddr) (ws : Bool) :
    SafeReg (.registerPk rk) (fun _ => True) (handleRegisterPk J rk addr ws) s := by
  unfold handleRegisterPk
  refine Safe.ite (fun _ => safe_ret trivial) ?_
  intro _
  refine Safe.ite (fun _ => safe_ret trivial) ?_
  intro _
  refine safeReg_any (fun _ _ => trivial) ?_
  intro pass t
  refine Safe.ite (fun _ => safe_ret trivial) ?_
  intro _
  refine (safeReg_getOr rk.id).bind ?_
  intro peer t hpeer
  refine safeReg_any (fun _ _ => trivial) ?_
  intro p t
  cases regCheck p rk addr.ip.toText with
  | none => exact safe_ret trivial
  | some c =>
    refine safeReg_any (fun _ _ => trivial) ?_
    intro p t
    refine safeReg_any (fun _ _ => trivial) ?_
    intro now t
    cases bumpRegPk now p.regPk with
    | none => exact safe_ret trivial
    | some n =>
      refine safeReg_any (fun _ _ => trivial) ?_
      intro now t
      refine safeReg_any (fun _ _ => trivial) ?_
      intro _ t
      have hnote : SafeReg (.registerPk rk) (fun _ => True)
          (noteIpChange c.2 rk.id addr.ip.toText) t :=
        Safe.ite (fun _ => safeReg_any (fun _ _ => trivial) fun _ _ => safe_ret trivial)
          fun _ => safe_ret trivial
      refine hnote.bind ?_
      intro _ t _
      refine Safe.ite (fun _ => ?_) fun _ => safe_ret trivial
      have hreg : (Msg.registerPk rk).registers? = some peer.id := by rw [hpeer]; rfl
      exact (safeReg_updatePk hreg _ _ _ _ _).bind fun _ t _ => safe_ret trivial

theorem safeReg_updateAddr (rp : RegisterPeer) (addr : SocketAddr) :
    SafeReg (.registerPeer rp) (fun _ => True) (updateAddr rp.id addr) s := by
  unfold updateAddr PeerMap.getInMemory
  refine safeReg_op fun s' hs' e => ⟨trivial, ?_⟩
  simp only [PeerOp.exec]
  cases hm : s'.map.lookup rp.id with
  | none => exact safe_ret trivial
  | some h =>
    have hreg : (Msg.registerPeer rp).registers? = some h.id := by rw [hs' rp.id h hm]; rfl
    exact safeReg_any (fun _ _ => hreg) fun _ _ => safe_ret trivial

end Reg

/-! ### The handlers -/

/-- The judgement for the handlers. -/
abbrev SafeSrv (E : Ext) (cfg : Settings) (calm : Prop) {α : Type} (Q : α → Server → Prop)
    (p : Prog SrvSig α) (s : Server) : Prop :=
  Safe (srvMachine E cfg) (fun e o s => calm → NoRelayTarget e o s) (AllLocated E) Onward
    (SrvSpec E cfg calm) Q p s

section Handlers

variable {α β : Type} {E : Ext} {cfg : Settings} {calm : Prop} {s : Server} {cause : Cause}
  {addr : SocketAddr} {msg : Msg} {Q : α → Server → Prop}

theorem safeSrv_op {o : SrvOp} {k : SrvOp.Res o → Prog SrvSig α}
    (h : ∀ s', Onward s s' → AllLocated E s' → ∀ e, (calm → NoRelayTarget e o s') →
      SrvSpec E cfg calm e o s' ∧
        SafeSrv E cfg calm Q (k (o.exec E cfg e s').2) (o.exec E cfg e s').1) :
    SafeSrv E cfg calm Q (.op o k) s := by
  refine safe_op ?_
  intro s' hR hI e hC
  obtain ⟨hG, hk⟩ := h s' hR hI e hC
  exact ⟨onward_exec e o s', exec_located hI hG, hG, hk⟩

/-- A section whose answer does not matter. -/
theorem safeSrv_any {o : SrvOp} {k : SrvOp.Res o → Prog SrvSig α}
    (ho : ∀ e s', Onward s s' → SrvSpec E cfg calm e o s')
    (hk : ∀ r t, Onward s t → SafeSrv E cfg calm Q (k r) t) :
    SafeSrv E cfg calm Q (.op o k) s :=
  safeSrv_op fun s' hR _ e _ => ⟨ho e s' hR, hk _ _ (hR.trans (onward_exec e o s'))⟩

theorem SafeSrv.bind {Q' : β → Server → Prop} {p : Prog SrvSig α} {f : α → Prog SrvSig β}
    (hp : SafeSrv E cfg calm Q p s)
    (hf : ∀ a t, Onward s t → Q a t → SafeSrv E cfg calm Q' (f a) t) :
    SafeSrv E cfg calm Q' (p >>= f) s :=
  Safe.bind (R := Onward) Onward.trans (.refl s) hp hf

/-- Registration code that is safe by itself is safe inside a handler. -/
theorem safe_liftPeer {Q : α → Prop} {p : Prog PeerSig α} (hp : SafeReg cause.frame Q p s.pm) :
    SafeSrv E cfg calm (fun a _ => Q a) (liftPeer cause p) s := by
  induction p generalizing s with
  | ret a => exact hp
  | op o k ih =>
    refine safeSrv_op ?_
    intro s' _ hI e _
    obtain ⟨-, -, hG, hk⟩ := hp s'.pm trivial hI.handles e.toEnv trivial
    exact ⟨hG, ih _ hk⟩

theorem safe_sendToSink (sink : Option ConnId) (msg : Msg)
    (h : ∀ c ∈ sink, WrittenTo E s (some cause) c msg) :
    SafeSrv E cfg calm (fun _ _ => True) (sendToSink (some cause) sink msg) s := by
  cases sink with
  | none => exact safe_ret trivial
  | some c => exact safeSrv_any (fun _ _ hR => (h c rfl).mono hR) fun _ _ _ => safe_ret trivial

/-- What a connection is sent for other messages. -/
theorem safe_sendOwn (hask : cause.frame.asksSession = false) (sink : Option ConnId) (msg : Msg) :
    SafeSrv E cfg calm (fun _ _ => True) (sendToSink (some cause) sink msg) s :=
  safe_sendToSink sink msg fun _ _ => WrittenTo.other hask

theorem safe_sendToTcp (h : Answered E s cause addr msg) :
    SafeSrv E cfg calm (fun _ _ => True) (sendToTcp cause msg addr) s := by
  refine safeSrv_any (fun _ _ hR => Or.inr (h.mono hR)) ?_
  intro done t hstep
  refine Safe.ite (fun _ => safe_ret trivial) ?_
  intro _
  refine safeSrv_op fun s' hR hI e _ => ⟨trivial, safe_sendToSink _ msg ?_⟩
  rintro c hc x ⟨⟩ -
  have hstep' : Onward s' ((srvMachine E cfg).exec e (.punchRemove addr) s').1 :=
    onward_exec e _ s'
  -- the sink that is taken out was parked under the key of the address
  exact ⟨addr, h.mono (hstep.trans (hR.trans hstep')), hI.parked _ c hc⟩

theorem safe_forward (h : Handed E cfg calm s cause addr msg) :
    SafeSrv E cfg calm (fun _ _ => True) (forward cause msg addr) s := by
  refine safeSrv_any (fun _ _ hR => Or.inl (h.mono hR)) ?_
  intro done t ht
  refine Safe.ite (fun _ => safe_ret trivial) ?_
  intro _
  exact safeSrv_any (fun _ _ hR => h.mono (ht.trans hR)) fun _ _ _ => safe_ret trivial

theorem safe_getPk (snap : Snapshot) (version id : String) :
    SafeSrv E cfg calm (fun _ _ => True) (getPk E snap cause version id) s := by
  unfold getPk
  cases snap.inner.sk with
  | none => exact safe_ret trivial
  | some sk =>
    refine Safe.ite (fun _ => safe_ret trivial) ?_
    intro _
    refine (safe_liftPeer (safeReg_get id)).bind ?_
    intro p t _ _
    cases p with
    | none => exact safe_ret trivial
    | some peer => exact safeSrv_any (fun _ _ _ => trivial) fun _ _ _ => safe_ret trivial

/-- **A request that `authorize` lets through has passed.** -/
theorem safe_authorize (ph : PunchHoleRequest) :
    SafeSrv E cfg calm (fun r t => r = none → Passed E cfg t cause ph) (authorize cfg cause ph)
      s := by
  unfold authorize
  refine Safe.ite (fun _ => safe_ret fun h => by cases h) ?_
  intro hkey
  have hlic : cfg.key = "" ∨ ph.licenceKey = cfg.key := by
    by_cases h : cfg.key = ""
    · exact Or.inl h
    · exact Or.inr (not_not.mp fun hne => hkey ⟨h, hne⟩)
  refine safeSrv_op fun s' _ _ e _ => ⟨trivial, ?_⟩
  refine Safe.ite (fun _ => ?_) fun hoff => ?_
  · refine Safe.ite (fun _ => safe_ret fun h => by cases h) ?_
    intro htok
    refine Safe.ite (fun hjwt => ?_) fun hjwt => safe_ret fun _ => ?_
    · refine safeSrv_op fun t _ _ e _ => ⟨trivial, ?_⟩
      refine Safe.ite (fun hgood => safe_ret fun _ => ?_) fun _ => safe_ret fun h => by cases h
      refine ⟨hlic, fun _ => ⟨htok, fun _ => ⟨e.utc, ?_, hgood⟩⟩⟩
      simp only [SrvOp.exec] at hgood ⊢
      rw [if_pos hgood]
      exact List.mem_cons_self
    · exact ⟨hlic, fun _ => ⟨htok, fun h => absurd h hjwt⟩⟩
  · exact safe_ret fun _ => ⟨hlic, fun h => absurd h hoff⟩

theorem safe_punchMessage (snap : Snapshot) (ph : PunchHoleRequest) (ws : Bool)
    (peerAddr : SocketAddr) :
    SafeSrv E cfg calm (fun msg _ => msg.StartsSession = true)
      (punchMessage E snap cause addr ph ws peerAddr) s := by
  refine safeSrv_any (fun _ _ _ => trivial) ?_
  intro _ _ _
  refine safeSrv_any (fun _ _ _ => trivial) ?_
  intro _ _ _
  refine safeSrv_any (fun _ _ _ => trivial) ?_
  intro _ _ _
  refine safeSrv_any (fun _ _ _ => trivial) fun _ _ _ => safe_ret ?_
  split <;> rfl

/-- What `handle_punch_hole_request` returns: a message for a peer, or a refusal. -/
def PunchResult (E : Ext) (cfg : Settings) (calm : Prop) (cause : Cause)
    (res : Msg × Option SocketAddr) (s : Server) : Prop :=
  match res with
  | (msg, some peerAddr) => Handed E cfg calm s cause peerAddr msg
  | (msg, none) => msg.IsReply = true

theorem safe_handlePunchHoleRequest (snap : Snapshot) {ph : PunchHoleRequest}
    (hframe : cause.frame = .punchHoleRequest ph) (ws : Bool) :
    SafeSrv E cfg calm (PunchResult E cfg calm cause)
      (handlePunchHoleRequest E cfg snap cause addr ph ws) s := by
  refine (safe_authorize ph).bind ?_
  intro refusal t _ hpass
  cases refusal with
  | some refusal => exact safe_ret rfl
  | none =>
    refine (safe_liftPeer (safeReg_get ph.id)).bind ?_
    intro p t₁ h₁ hp
    cases p with
    | none => exact safe_ret rfl
    | some peer =>
      refine safeSrv_op fun t₂ h₂ hI₂ e _ => ⟨trivial, ?_⟩
      refine safeSrv_any (fun _ _ _ => trivial) ?_
      intro now t₃ h₃
      refine Safe.ite (fun _ => safe_ret rfl) ?_
      intro _
      refine (safe_punchMessage snap ph ws _).bind fun msg t₄ h₄ hmsg => safe_ret ?_
      have hloc : Located E t₂.log ph.id (t₂.pm.recs peer).socketAddr :=
        hp peer rfl ▸ hI₂.located peer
      -- the address is the one that was read, whatever the record says by now
      have hon : Onward t₂ t₄ := Onward.trans (s := t₂) h₃ h₄
      exact .punch hframe ((hpass rfl).mono (h₁.trans (h₂.trans hon)))
        (hloc.mono fun _ h => hon.log.subset h) hmsg

theorem safe_handleTcpPunchHoleRequest (snap : Snapshot) {ph : PunchHoleRequest}
    (hframe : cause.frame = .punchHoleRequest ph) (ws : Bool) {c : ConnId}
    (hvia : cause.via.conn? = some c) (hreq : Event.requested c (keyOf E addr) ∈ s.log) :
    SafeSrv E cfg calm (fun _ _ => True)
      (handleTcpPunchHoleRequest E cfg snap cause addr ph ws) s := by
  refine (safe_handlePunchHoleRequest snap hframe ws).bind ?_
  intro res t ht hres
  match res, hres with
  | (msg, some peerAddr), hres => exact safe_forward hres
  | (msg, none), hres =>
    exact safe_sendToTcp (.own hvia (by rw [hframe]; rfl) (ht.log.subset hreq) hres)

theorem safe_handleRequestRelay {rf : RequestRelay} (hframe : cause.frame = .requestRelay rf) :
    SafeSrv E cfg calm (fun _ _ => True) (handleRequestRelay E cause addr rf) s := by
  refine safeSrv_op fun s' _ hI₀ e hC => ⟨trivial, ?_⟩
  simp only [SrvOp.exec, PeerOp.exec]
  cases hm : s'.pm.map.lookup rf.id with
  | none => exact safe_ret trivial
  | some peer =>
    -- the peer was found, so this is not one of the calm runs
    have hcalm : ¬calm := by
      intro hc
      have hnone := hC hc rf.id (by
        obtain ⟨via, no, frame⟩ := cause
        cases hframe
        rfl)
      rw [hm] at hnone
      cases hnone
    refine safeSrv_any (fun _ _ _ => trivial) ?_
    intro now t _
    refine safeSrv_op fun t _ hI e _ => ⟨trivial, ?_⟩
    refine safe_forward (.relay hframe hcalm ?_ rfl)
    have hid : peer.id = rf.id := hI₀.handles rf.id peer hm
    exact hid ▸ hI.located peer

theorem safe_handleHoleSent (snap : Snapshot) {phs : PunchHoleSent}
    (hframe : cause.frame = .punchHoleSent phs) :
    SafeSrv E cfg calm (fun _ _ => True) (handleHoleSent E snap cause addr phs) s := by
  refine safeSrv_any (fun _ _ _ => trivial) ?_
  intro now t _
  refine (safe_getPk snap _ _).bind ?_
  intro pk t _ _
  exact safe_sendToTcp (.peer (by rw [hframe]; rfl) (by rw [hframe]; rfl) rfl rfl)

theorem safe_handleLocalAddr (snap : Snapshot) {la : LocalAddr}
    (hframe : cause.frame = .localAddr la) :
    SafeSrv E cfg calm (fun _ _ => True) (handleLocalAddr E snap cause la) s :=
  (safe_getPk snap _ _).bind fun _ _ _ _ =>
    safe_sendToTcp (.peer (by rw [hframe]; rfl) (by rw [hframe]; rfl) rfl rfl)

theorem safe_relayOfResponse (snap : Snapshot) (addrB : SocketAddr) (relayServer : String) :
    SafeSrv E cfg calm (fun _ _ => True) (relayOfResponse snap addr addrB relayServer) s := by
  unfold relayOfResponse
  refine Safe.ite (fun _ => safe_ret trivial) ?_
  intro _
  refine Safe.ite (fun _ => safe_ret trivial) ?_
  intro _
  refine Safe.ite (fun _ => ?_) fun _ => safe_ret trivial
  exact safeSrv_any (fun _ _ _ => trivial) fun _ _ _ => safe_ret trivial

theorem safe_handleRelayResponse (snap : Snapshot) {rr : RelayResponse}
    (hframe : cause.frame = .relayResponse rr) :
    SafeSrv E cfg calm (fun _ _ => True) (handleRelayResponse E snap cause addr rr) s := by
  have hunion : SafeSrv E cfg calm (fun _ _ => True)
      (if rr.idText = "" then .ret rr.union
        else do
          let pk ← getPk E snap cause rr.version rr.idText
          .ret (RelayResponseUnion.pk pk) : Prog SrvSig RelayResponseUnion) s :=
    Safe.ite (fun _ => safe_ret trivial) fun _ =>
      (safe_getPk snap _ _).bind fun _ _ _ _ => safe_ret trivial
  refine hunion.bind ?_
  intro union t _ _
  refine (safe_relayOfResponse snap _ _).bind ?_
  intro relay t _ _
  exact safe_sendToTcp (.peer (by rw [hframe]; rfl) (by rw [hframe]; rfl) rfl rfl)

theorem safe_onlineFrom (ids : List String) (i : ℕ) (states : Bytes) :
    SafeSrv E cfg calm (fun _ _ => True) (onlineFrom cause ids i states) s := by
  induction ids generalizing i states s with
  | nil => exact safe_ret trivial
  | cons id ids ih =>
    refine safeSrv_any (fun _ _ _ => trivial) ?_
    intro p t _
    match p with
    | none => exact ih _ _
    | some peer =>
      refine safeSrv_any (fun _ _ _ => trivial) ?_
      intro r t _
      exact safeSrv_any (fun _ _ _ => trivial) fun now t _ => ih _ _

end Handlers

/-! ### Connections -/

section Conn

variable {E : Ext} {cfg : Settings} {calm : Prop} {s : Server} {cause : Cause}
  {addr : SocketAddr} {c : ConnId}

/-- The sink of a connection is its own, or it was moved away for a request. -/
def SinkOk (E : Ext) (addr : SocketAddr) (c : ConnId) (sink : Option ConnId) (s : Server) : Prop :=
  sink = some c ∨ sink = none ∧ Event.requested c (keyOf E addr) ∈ s.log

theorem SinkOk.mono {sink : Option ConnId} {t : Server} (h : SinkOk E addr c sink s)
    (hR : Onward s t) : SinkOk E addr c sink t := by
  rcases h with h | ⟨h, hm⟩
  · exact Or.inl h
  · exact Or.inr ⟨h, hR.log.subset hm⟩

/-- After `routeBack` the request is on record. -/
theorem safe_routeBack {ws : Bool} (hvia : cause.via = if ws then .ws c else .tcp c)
    (hask : cause.frame.asksSession = true) {sink : Option ConnId}
    (hsink : SinkOk E addr c sink s) :
    SafeSrv E cfg calm
      (fun sink' t => Event.requested c (keyOf E addr) ∈ t.log ∧ SinkOk E addr c sink' t)
      (routeBack cause addr ws c sink) s := by
  unfold routeBack
  cases ws with
  | true =>
    refine safeSrv_op fun s' hR _ e _ => ⟨hvia, safe_ret ⟨?_, ?_⟩⟩
    · simp only [SrvOp.exec, hask, if_true]
      exact List.mem_cons_self
    · have hstep : Onward s' ((srvMachine E cfg).exec e (.registerWs cause addr c) s').1 :=
        onward_exec e _ s'
      exact hsink.mono (hR.trans hstep)
  | false =>
    rcases hsink with rfl | ⟨rfl, hreq⟩
    · refine safeSrv_op fun s' _ _ e _ => ⟨trivial, safe_ret ?_⟩
      have hmem : Event.requested c (keyOf E addr) ∈
          (SrvOp.exec E cfg e (.punchInsert addr c) s').1.log := List.mem_cons_self
      exact ⟨hmem, Or.inr ⟨rfl, hmem⟩⟩
    · exact safe_ret ⟨hreq, Or.inr ⟨rfl, hreq⟩⟩

theorem safe_registerIfWs {ws : Bool} (hvia : cause.via = if ws then .ws c else .tcp c) :
    SafeSrv E cfg calm (fun _ _ => True) (registerIfWs cause addr ws c) s := by
  unfold registerIfWs
  cases ws with
  | true => exact safeSrv_any (fun _ _ _ => hvia) fun _ _ _ => safe_ret trivial
  | false => exact safe_ret trivial

theorem safe_handleRegisterPeer (snap : Snapshot) {ws : Bool}
    (hvia : cause.via = if ws then .ws c else .tcp c) {rp : RegisterPeer}
    (hframe : cause.frame = .registerPeer rp) (sink : Option ConnId) :
    SafeSrv E cfg calm (fun _ _ => True) (handleRegisterPeer snap cause addr ws c sink rp) s := by
  unfold handleRegisterPeer
  refine Safe.ite (fun _ => ?_) fun _ => safe_ret trivial
  refine (safe_liftPeer (hframe ▸ safeReg_updateAddr rp addr)).bind ?_
  intro requestPk t _ _
  have hask : cause.frame.asksSession = false := by rw [hframe]; rfl
  refine (safe_sendOwn hask sink _).bind ?_
  intro _ t _ _
  refine (safe_registerIfWs hvia).bind ?_
  intro _ t _ _
  cases configFor snap rp.serial with
  | some cu => exact safe_sendOwn hask sink _
  | none => exact safe_ret trivial

/-- A handler that leaves the sink alone. -/
theorem safe_keepSink {α : Type} {p : Prog SrvSig α} {stay : Bool} {sink : Option ConnId}
    (hp : SafeSrv E cfg calm (fun _ _ => True) p s) (hsink : SinkOk E addr c sink s) :
    SafeSrv E cfg calm (fun r t => SinkOk E addr c r.2 t)
      (p >>= fun _ => .ret (stay, sink)) s :=
  hp.bind fun _ _ hR _ => safe_ret (hsink.mono hR)

/-- **`handle_tcp` performs every section as `SrvSpec` says.** -/
theorem safe_handleTcp (snap : Snapshot) (ws : Bool) {sink : Option ConnId}
    (hsink : SinkOk E addr c sink s) (no : ℕ) (frame : Option Msg) :
    SafeSrv E cfg calm (fun r t => SinkOk E addr c r.2 t)
      (handleTcp E cfg snap addr ws c sink no frame) s := by
  cases frame with
  | none => exact safe_ret hsink
  | some frame =>
    have hconn : (if ws then Via.ws c else Via.tcp c).conn? = some c := by cases ws <;> rfl
    unfold handleTcp
    cases frame with
    | punchHoleRequest ph =>
      refine (safe_routeBack rfl rfl hsink).bind ?_
      intro sink' t _ h
      exact safe_keepSink (safe_handleTcpPunchHoleRequest snap rfl ws hconn h.1) h.2
    | requestRelay rf =>
      refine (safe_routeBack rfl rfl hsink).bind ?_
      intro sink' t _ h
      exact safe_keepSink (safe_handleRequestRelay rfl) h.2
    | relayResponse rr => exact safe_keepSink (safe_handleRelayResponse snap rfl) hsink
    | punchHoleSent phs => exact safe_keepSink (safe_handleHoleSent snap rfl) hsink
    | localAddr la => exact safe_keepSink (safe_handleLocalAddr snap rfl) hsink
    | testNatRequest serial => exact safe_keepSink (safe_sendOwn rfl sink _) hsink
    | onlineRequest peers =>
      refine (safe_onlineFrom peers 0 _).bind ?_
      intro states t hR _
      exact safe_keepSink (safe_sendOwn rfl sink _) (hsink.mono hR)
    | registerPeer rp =>
      exact safe_keepSink (safe_handleRegisterPeer snap rfl rfl sink) hsink
    | registerPk rk =>
      refine (safe_liftPeer (safeReg_handleRegisterPk rk addr ws)).bind ?_
      intro res t h₁ _
      cases res with
      | none => exact safe_ret (hsink.mono h₁)
      | some res =>
        refine (safe_sendOwn rfl sink _).bind ?_
        intro _ t h₂ _
        refine Safe.ite (fun _ => ?_) fun _ => safe_ret (hsink.mono (h₁.trans h₂))
        exact safe_keepSink (safe_registerIfWs rfl) (hsink.mono (h₁.trans h₂))
    | _ => exact safe_ret hsink

theorem safe_handleUdp (no : ℕ) (frame : Option Msg) :
    SafeSrv E cfg calm (fun _ _ => True) (handleUdp E addr no frame) s := by
  cases frame with
  | none => exact safe_ret trivial
  | some frame =>
    unfold handleUdp
    cases frame with
    | registerPeer rp =>
      refine Safe.ite (fun _ => ?_) fun _ => safe_ret trivial
      refine (safe_liftPeer (safeReg_updateAddr rp addr)).bind ?_
      intro requestPk t _ _
      refine safeSrv_any (fun _ _ _ => trivial) ?_
      intro _ t _
      refine safeSrv_any (fun _ _ _ => trivial) ?_
      intro snap t _
      cases configFor snap rp.serial with
      | some cu => exact safeSrv_any (fun _ _ _ => trivial) fun _ _ _ => safe_ret trivial
      | none => exact safe_ret trivial
    | registerPk rk =>
      refine (safe_liftPeer (safeReg_handleRegisterPk rk addr false)).bind ?_
      intro res t _ _
      cases res with
      | some res => exact safeSrv_any (fun _ _ _ => trivial) fun _ _ _ => safe_ret trivial
      | none => exact safe_ret trivial
    | configureUpdate cu =>
      refine safeSrv_any (fun _ _ _ => trivial) ?_
      intro snap t _
      refine Safe.ite (fun _ => ?_) fun _ => safe_ret trivial
      exact safeSrv_any (fun _ _ _ => trivial) fun _ _ _ => safe_ret trivial
    | softwareUpdate url =>
      refine safeSrv_any (fun _ _ _ => trivial) ?_
      intro snap t _
      refine Safe.ite (fun _ => ?_) fun _ => safe_ret trivial
      exact safeSrv_any (fun _ _ _ => trivial) fun _ _ _ => safe_ret trivial
    | _ => exact safe_ret trivial

theorem safe_readLoop (snap : Snapshot) (ws : Bool) (frames : List (Option Msg)) {no : ℕ}
    {sink : Option ConnId} (hsink : SinkOk E addr c sink s) :
    SafeSrv E cfg calm (fun _ _ => True) (readLoop E cfg snap addr ws c frames no sink) s := by
  induction frames generalizing no sink s with
  | nil => exact safe_ret trivial
  | cons f fs ih =>
    refine (safe_handleTcp snap ws hsink no f).bind ?_
    intro r t _ hr
    match r, hr with
    | (true, sink'), hr => exact ih hr
    | (false, sink'), _ => exact safe_ret trivial

theorem safe_sinkCleanup (sink : Option ConnId) :
    SafeSrv E cfg calm (fun _ _ => True) (sinkCleanup addr sink) s := by
  cases sink with
  | some c => exact safe_ret trivial
  | none => exact safeSrv_any (fun _ _ _ => trivial) fun _ _ _ => safe_ret trivial

/-- **Every task performs every section as `SrvSpec` says.** -/
theorem safe_task (T : Task) : SafeSrv E cfg calm (fun _ _ => True) (T.prog E cfg) s := by
  cases T with
  | ws c addr frames =>
    refine safeSrv_any (fun _ _ _ => trivial) ?_
    intro snap t _
    refine (safe_readLoop snap true frames (Or.inl rfl)).bind ?_
    intro sink t _ _
    refine safeSrv_any (fun _ _ _ => trivial) ?_
    intro _ t _
    exact safeSrv_any (fun _ _ _ => trivial) fun _ t _ => safe_sinkCleanup sink
  | tcp c addr frames =>
    refine safeSrv_any (fun _ _ _ => trivial) ?_
    intro snap t _
    refine (safe_readLoop snap false frames (Or.inl rfl)).bind ?_
    intro sink t _ _
    exact safe_sinkCleanup sink
  | udp datagrams =>
    simp only [Task.prog]
    -- by induction on the datagrams, from any number on
    generalize 0 = no
    induction datagrams generalizing no s with
    | nil => exact safe_ret trivial
    | cons d ds ih => exact (safe_handleUdp no d.2).bind fun _ t _ _ => ih (no + 1)

end Conn

/-! ### Any number of tasks -/

theorem allLocated_start (E : Ext) (db : List Row) (mustLogin alwaysUseRelay : Bool)
    (conf : Snapshot) : AllLocated E (.start db mustLogin alwaysUseRelay conf) :=
  ⟨fun _ _ h => (by cases h), fun _ => Or.inl rfl, fun _ _ h => (by cases h)⟩

/-- **The rule for runs of the server**: what every section performed as `SrvSpec` says
keeps holds along every run whose steps meet the condition. -/
theorem reach_inv {ι : Type} [DecidableEq ι] {E : Ext} {cfg : Settings} (calm : Prop)
    {T : ι → Task} {s₀ : Server} (h₀ : AllLocated E s₀)
    {D : SrvEnv → SrvOp → Server → Prop} {J : Server → Prop}
    (hJ : ∀ e o s, AllLocated E s → J s → SrvSpec E cfg calm e o s → D e o s →
      J (o.exec E cfg e s).1)
    (hJ0 : J s₀) {c : Config SrvSig Server ι Unit}
    (h : Reach (srvMachine E cfg)
      (OpOk fun e o s => (calm → NoRelayTarget e o s) ∧ D e o s)
      ⟨s₀, fun i => (T i).prog E cfg⟩ c) : J c.st :=
  Reach.guarantee_inv (R := Onward) (Q := fun _ _ _ => True) (fun s => .refl s) Onward.trans
    (fun _ _ _ _ _ _ => trivial) hJ h₀ hJ0 (fun i => safe_task (T i)) h

end RustdeskServer
