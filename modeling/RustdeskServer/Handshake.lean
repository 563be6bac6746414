import RustdeskServer.Store

/-!
# The registration handshake

A peer that is told to send its public key answers with a `RegisterPk`, and once that is
answered `ok` its next heartbeat is wanted to refresh the record.

The two messages look at different notes of where the peer is.  The heartbeat compares
its address with `socket_addr`, or with `info.ip` while the stored port is 0; `RegisterPk`
compares only `info.ip`, and writes nothing when nothing changed.  A heartbeat from a
loopback address moves `socket_addr` alone, and from then on the two disagree: the peer is
told `ok` and asked for its key again, each time.  A record so stranded is the only one
for which the handshake does not converge.

## Main definitions

* `Converges` — the heartbeat after a registration refreshes the record.
* `Stranded`, `NotStranded` — the two notes disagree about a registration that changes
  nothing; no registration meets such a record.

## Main results

* `converges_iff` — **the handshake converges exactly along the runs in which no
  registration meets a stranded record.**
* `loopback_strands_peer` — a heartbeat over loopback strands a peer.
-/

namespace RustdeskServer

open Atomic

/-! ### The heartbeat -/

/-- The heartbeat an input carries: the id, and where it came from. -/
def Input.registerPeer? : Input → Option (String × SocketAddr)
  | .datagram addr (some (.registerPeer rp)) => some (rp.id, addr)
  | .frame _ addr _ _ _ (some (.registerPeer rp)) => some (rp.id, addr)
  | _ => none

/-- The `request_pk` a heartbeat is answered with. -/
def requestsPk (e : Env) (s : PeerStore) (id : String) (addr : SocketAddr) : Bool :=
  (peerMachine.run e (updateAddr id addr) s).2

/-- A registration that is answered `ok` converges: the next heartbeat from the same
address is not asked for the key and refreshes the record. -/
def Converges (E : Ext) (cfg : Settings) (s : Server) (x : SrvEnv × Input) : Prop :=
  ∀ rk addr, AnsweredOk E.serde x.1.toEnv s.pm x.2 rk addr →
    ∀ y : SrvEnv × Input, y.2.registerPeer? = some (rk.id, addr) →
      requestsPk y.1.toEnv (s.step E cfg x).pm rk.id addr = false ∧
        ∃ p, ((s.step E cfg x).step E cfg y).pm.peer? rk.id = some p ∧
          p.socketAddr = addr ∧ p.lastRegTime = y.1.now

/-- The registration changes nothing of the record, and the heartbeat after it will take
the address for a new one. -/
def Stranded (p : Peer) (rk : RegisterPk) (addr : SocketAddr) : Prop :=
  p.uuid = rk.uuid ∧ p.pk = rk.pk ∧ p.info.ip = addr.ip.toText ∧
    p.socketAddr.port ≠ 0 ∧ p.socketAddr.ip ≠ addr.ip ∧ addr.ip.isLoopback = false

instance (p : Peer) (rk : RegisterPk) (addr : SocketAddr) : Decidable (Stranded p rk addr) :=
  inferInstanceAs (Decidable (_ ∧ _ ∧ _ ∧ _ ∧ _ ∧ _))

/-- No registration that gets through, other than over a websocket, meets a record in
memory that is stranded. -/
def NotStranded (s : Server) (x : SrvEnv × Input) : Prop :=
  ∀ rk addr p, x.2.registerPk? = some (rk, addr, false) → Admitted x.1.toEnv rk addr s.pm →
    s.pm.peer? rk.id = some p → bumpRegPk x.1.now p.regPk ≠ none → ¬Stranded p rk addr

section Heartbeat

variable {E : Ext} {cfg : Settings}

/-- A heartbeat with an acceptable id is an `update_addr`. -/
theorem step_registerPeer (s : Server) {y : SrvEnv × Input} {id : String} {addr : SocketAddr}
    (hy : y.2.registerPeer? = some (id, addr)) (hid : peerIdOk id = true) :
    (s.step E cfg y).pm = (peerMachine.run y.1.toEnv (updateAddr id addr) s.pm).1 := by
  obtain ⟨e, i⟩ := y
  cases i with
  | datagram a frame =>
    cases frame with
    | none => cases hy
    | some m =>
      cases m with
      | registerPeer rp =>
        simp only [Input.registerPeer?, Option.some.injEq, Prod.mk.injEq] at hy
        obtain ⟨rfl, rfl⟩ := hy
        exact pm_handleUdp_registerPeer e a 0 hid s
      | _ => cases hy
  | frame snap a ws c sink frame =>
    cases frame with
    | none => cases hy
    | some m =>
      cases m with
      | registerPeer rp =>
        simp only [Input.registerPeer?, Option.some.injEq, Prod.mk.injEq] at hy
        obtain ⟨rfl, rfl⟩ := hy
        exact pm_handleTcp_registerPeer e snap a ws c sink 0 hid s
      | _ => cases hy
  | online peers => cases hy
  | restart mustLogin alwaysUseRelay conf => cases hy

/-- A heartbeat that finds the record `p`. -/
theorem requestsPk_of_some {s : PeerStore} {id : String} {p : Peer} (hp : s.peer? id = some p)
    (e : Env) (addr : SocketAddr) : requestsPk e s id addr = p.requestPk addr := by
  unfold requestsPk
  rw [run_updateAddr]
  obtain ⟨h, hm, rfl⟩ := Option.map_eq_some_iff.mp hp
  rw [hm]

/-- What a heartbeat leaves of the record `p`. -/
theorem peer?_updateAddr {s : PeerStore} {id : String} {p : Peer} (hp : s.peer? id = some p)
    (e : Env) (addr : SocketAddr) :
    (peerMachine.run e (updateAddr id addr) s).1.peer? id = some (p.refresh e.now addr) := by
  rw [run_updateAddr]
  obtain ⟨h, hm, rfl⟩ := Option.map_eq_some_iff.mp hp
  rw [hm]
  exact (touched_modify hm (Peer.refresh e.now addr)).peer?_self

/-- The heartbeat refreshes the record exactly when it does not ask for the key. -/
theorem heartbeat_iff (s : Server) {y : SrvEnv × Input} {id : String} {addr : SocketAddr}
    {p : Peer} (hp : s.pm.peer? id = some p) (hy : y.2.registerPeer? = some (id, addr))
    (hid : peerIdOk id = true) :
    (requestsPk y.1.toEnv s.pm id addr = false ∧
        ∃ q, (s.step E cfg y).pm.peer? id = some q ∧ q.socketAddr = addr ∧
          q.lastRegTime = y.1.now) ↔ p.requestPk addr = false := by
  rw [requestsPk_of_some hp, step_registerPeer s hy hid, peer?_updateAddr hp]
  refine ⟨fun h => h.1, fun h => ⟨h, _, rfl, ?_⟩⟩
  unfold Peer.refresh
  rw [h]
  exact ⟨rfl, rfl⟩

end Heartbeat

/-! ### After a registration -/

/-- A record that a registration has just written is not asked for the key. -/
theorem requestPk_registered {p : Peer} {addr : SocketAddr} (hpk : p.pk ≠ [])
    (haddr : p.socketAddr = addr) (hip : p.info.ip = addr.ip.toText) :
    p.requestPk addr = false := by
  simp [Peer.requestPk, hpk, haddr, hip]

/-- A record that a registration leaves as it is, but for the counter, is asked for the
key exactly when it is stranded. -/
theorem requestPk_kept {p : Peer} {rk : RegisterPk} {addr : SocketAddr} (v : ℕ × Instant)
    (hrk : rk.pk ≠ []) (huuid : p.uuid = rk.uuid) (hpk : p.pk = rk.pk)
    (hip : p.info.ip = addr.ip.toText) :
    (p.setRegPk v).requestPk addr = false ↔ ¬Stranded p rk addr := by
  have hne : p.pk ≠ [] := hpk ▸ hrk
  by_cases hport : p.socketAddr.port = 0
  · simp [Stranded, Peer.requestPk, Peer.setRegPk, hne, hport, hip]
  · simp only [Stranded, Peer.requestPk, Peer.setRegPk, huuid, hpk, hip, hrk, hport, ne_eq,
      not_false_eq_true, true_and, if_true, Bool.or_eq_false_iff, Bool.and_eq_false_iff,
      decide_eq_false_iff_not, Bool.not_eq_false', List.isEmpty_eq_false_iff]
    rw [eq_comm (a := addr.ip)]
    cases addr.ip.isLoopback <;> simp

/-- A registration of a stranded record changes nothing. -/
theorem Stranded.regCheck_eq {p : Peer} {rk : RegisterPk} {addr : SocketAddr}
    (h : Stranded p rk addr) (hrk : rk.uuid ≠ []) :
    regCheck p rk addr.ip.toText = some (false, false) := by
  obtain ⟨huuid, hpk, hip, -⟩ := h
  simp [regCheck, huuid, hpk, hip, hrk]

theorem writeBack_fields (J : Serde) (e : Env) (db : List Row) (p : Peer) (rk : RegisterPk)
    (addr : SocketAddr) :
    (writeBack J e db p rk addr).1.pk = rk.pk ∧
      (writeBack J e db p rk addr).1.socketAddr = addr ∧
        (writeBack J e db p rk addr).1.info.ip = addr.ip.toText := by
  unfold writeBack
  dsimp only
  split <;> exact ⟨rfl, rfl, rfl⟩

/-- A record that is not in memory has no port yet, so it is not stranded. -/
theorem not_stranded_of_absent {J : Serde} {e : Env} {s : PeerStore} {rk : RegisterPk}
    (addr : SocketAddr) (hm : s.peer? rk.id = none) : ¬Stranded (s.found J e rk.id) rk addr := by
  rintro ⟨-, -, -, hport, -⟩
  have hfound := found_spec J e s rk.id
  generalize s.found J e rk.id = p at hfound hport
  cases hfound with
  | cached h => simp [PeerStore.peer?, h] at hm
  | row _ _ _ => exact hport rfl
  | fresh _ _ => exact hport rfl

theorem found_of_peer? {J : Serde} {e : Env} {s : PeerStore} {id : String} {p : Peer}
    (hp : s.peer? id = some p) : s.found J e id = p := by
  obtain ⟨h, hm, rfl⟩ := Option.map_eq_some_iff.mp hp
  simp [PeerStore.found, hm]

section Converge

variable {E : Ext} {cfg : Settings}

theorem peerIdOk_of_admitted {e : Env} {rk : RegisterPk} {addr : SocketAddr} {s : PeerStore}
    (h : Admitted e rk addr s) : peerIdOk rk.id = true := by
  obtain ⟨-, -, hlo, hhi, -⟩ := h
  have hne : rk.id ≠ "" := by
    intro h
    rw [h] at hlo
    exact absurd hlo (by decide)
  simp [peerIdOk, hne, hhi]

/-- What a registration that is answered `ok` leaves in memory, and when the next
heartbeat from its address asks for the key. -/
theorem registered_requestPk {J : Serde} {e : Env} {rk : RegisterPk} {addr : SocketAddr}
    {ws : Bool} {s t : PeerStore} (h : RegStep J e rk addr ws s t (some .ok)) :
    Admitted e rk addr s ∧ bumpRegPk e.now (s.found J e rk.id).regPk ≠ none ∧
      ∃ p, t.peer? rk.id = some p ∧
        (p.requestPk addr = false ↔ (ws = false → ¬Stranded (s.found J e rk.id) rk addr)) := by
  cases h with
  | refused _ _ hres => exact absurd rfl hres
  | rejected _ _ _ _ hres => exact absurd rfl hres
  | kept hadm hc hb hws ht hdb =>
    refine ⟨hadm, by rw [hb]; simp, _, ht.peer?_self, ?_⟩
    rcases regCheck_eq_some hc with ⟨-, hchanged⟩ | ⟨-, huuid, -, hsame⟩
    · cases hchanged
    · obtain ⟨hpk, hip⟩ := hsame rfl
      rw [requestPk_kept _ hadm.2.1 huuid hpk hip]
      simp [hws]
  | written hadm hc hb hw ht hdb =>
    refine ⟨hadm, by rw [hb]; simp, _, ht.peer?_self, ?_⟩
    obtain ⟨hpk, haddr, hip⟩ := writeBack_fields J e s.db
      ((s.found J e rk.id).setRegPk (_, e.now)) rk addr
    refine iff_of_true (requestPk_registered (hpk ▸ hadm.2.1) haddr hip) ?_
    intro hws hstr
    -- a stranded record is one that the registration does not change
    rw [hstr.regCheck_eq hadm.1, Option.some.injEq, Prod.mk.injEq] at hc
    rw [← hc.1, hws] at hw
    cases hw

variable (E cfg) in
/-- An input that carries a registration runs `handle_register_pk`. -/
theorem regStep_step (s : Server) {x : SrvEnv × Input} {rk : RegisterPk} {addr : SocketAddr}
    {ws : Bool} (hi : x.2.registerPk? = some (rk, addr, ws)) :
    RegStep E.serde x.1.toEnv rk addr ws s.pm (s.step E cfg x).pm
      (answer E.serde x.1.toEnv s.pm rk addr ws) := by
  cases pmStep_step E cfg s x with
  | reg hi' h =>
    rw [hi, Option.some.injEq, Prod.mk.injEq, Prod.mk.injEq] at hi'
    obtain ⟨rfl, rfl, rfl⟩ := hi'
    exact h
  | refresh hi' => rw [hi] at hi'; cases hi'
  | loads hi' => rw [hi] at hi'; cases hi'
  | restart hi' => rw [hi] at hi'; cases hi'

/-- A registration of a stranded record is answered `ok`, unless it comes too often. -/
theorem Stranded.answer_ok {s : Server} {x : SrvEnv × Input} {rk : RegisterPk}
    {addr : SocketAddr} {ws : Bool} {p : Peer} (h : Stranded p rk addr)
    (hi : x.2.registerPk? = some (rk, addr, ws)) (hadm : Admitted x.1.toEnv rk addr s.pm)
    (hp : s.pm.peer? rk.id = some p) (hb : bumpRegPk x.1.now p.regPk ≠ none) :
    answer E.serde x.1.toEnv s.pm rk addr ws = some .ok := by
  have hstep := regStep_step E ⟨"", "", 0⟩ s hi
  have hfound : s.pm.found E.serde x.1.toEnv rk.id = p := found_of_peer? hp
  generalize answer E.serde x.1.toEnv s.pm rk addr ws = res at hstep
  cases hstep with
  | refused hno => exact absurd hadm hno
  | rejected _ _ _ hwhy =>
    rw [hfound, h.regCheck_eq hadm.1] at hwhy
    rcases hwhy with hwhy | hwhy
    · cases hwhy
    · exact absurd hwhy hb
  | kept => rfl
  | written => rfl

theorem notStranded_of_converges {s : Server} {x : SrvEnv × Input} (h : Converges E cfg s x) :
    NotStranded s x := by
  intro rk addr p hi hadm hp hb hstr
  have hok := hstr.answer_ok (E := E) hi hadm hp hb
  have hreg := regStep_step E cfg s hi
  rw [hok] at hreg
  obtain ⟨-, -, q, hq, hiff⟩ := registered_requestPk hreg
  -- any heartbeat will do
  have hbeat := h rk addr ⟨false, hi, hok⟩
    (x.1, .datagram addr (some (.registerPeer ⟨rk.id, 0⟩))) rfl
  have hno := (heartbeat_iff _ hq rfl (peerIdOk_of_admitted hadm)).mp hbeat
  rw [hiff, found_of_peer? hp] at hno
  exact hno rfl hstr

theorem converges_of_notStranded {s : Server} {x : SrvEnv × Input} (h : NotStranded s x) :
    Converges E cfg s x := by
  rintro rk addr ⟨ws, hi, hok⟩ y hy
  have hreg := regStep_step E cfg s hi
  rw [hok] at hreg
  obtain ⟨hadm, hb, q, hq, hiff⟩ := registered_requestPk hreg
  refine (heartbeat_iff _ hq hy (peerIdOk_of_admitted hadm)).mpr (hiff.mpr ?_)
  rintro rfl
  cases hp : s.pm.peer? rk.id with
  | none => exact not_stranded_of_absent addr hp
  | some p =>
    rw [found_of_peer? hp] at hb ⊢
    exact h rk addr p hi hadm hp hb

end Converge

/-- **The handshake converges exactly along the runs in which no registration meets a
stranded record**: from any rows, with any inputs one at a time, under any pattern of
database failures. -/
theorem converges_iff (E : Ext) (cfg : Settings) (db : List Row) (mustLogin alwaysUseRelay : Bool)
    (conf : Snapshot) (l : List (SrvEnv × Input)) :
    Always (Server.step E cfg) (Converges E cfg) (.start db mustLogin alwaysUseRelay conf) l ↔
      Always (Server.step E cfg) NotStranded (.start db mustLogin alwaysUseRelay conf) l :=
  always_congr (I := fun _ => True) (fun _ _ _ _ => trivial)
    (fun _ _ _ => ⟨notStranded_of_converges, converges_of_notStranded⟩) trivial

/-- A peer registers over UDP, sends a heartbeat over loopback, and registers again from
where it was. -/
def loopbackRun : List (SrvEnv × Input) :=
  [(.ok 0 1, .datagram ⟨.ofOctets 192 0 2 7, 21116⟩ (some (.registerPk ⟨"alpha1", [1], [2]⟩))),
    (.ok 1000 1, .datagram ⟨.ofOctets 127 0 0 1, 5000⟩ (some (.registerPeer ⟨"alpha1", 0⟩))),
    (.ok 9000 1, .datagram ⟨.ofOctets 192 0 2 7, 21116⟩ (some (.registerPk ⟨"alpha1", [1], [2]⟩)))]

/-- It is told `ok`, and asked for its key again. -/
theorem loopback_strands_peer :
    ¬Always (Server.step .sample ⟨"", "", 0⟩) (Converges .sample ⟨"", "", 0⟩)
      (.start [] false false .blank) loopbackRun := by
  rintro ⟨-, -, h, -⟩
  have hbeat := h ⟨"alpha1", [1], [2]⟩ ⟨.ofOctets 192 0 2 7, 21116⟩ ⟨false, rfl, by decide⟩
    (.ok 10000 1, .datagram ⟨.ofOctets 192 0 2 7, 21116⟩ (some (.registerPeer ⟨"alpha1", 0⟩))) rfl
  exact absurd hbeat.1 (by decide)

end RustdeskServer
