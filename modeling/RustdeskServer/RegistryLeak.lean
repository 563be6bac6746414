import RustdeskServer.TaskSections

/-!
# Nothing stays in a registry after its connection

Websockets reconnect, and behind a proxy many of them have one key: entries of `ws_peers`
are overwritten, taken out by guards that run at arbitrary later times, and dropped by
pushes that find a receiver gone.  A TCP connection's sink may sit in `tcp_punch` when its
read loop ends.  Here any number of connections run over one server, in any order, and the
registries are compared with the history of what the tasks did.

The number of a connection is also the number its websocket gets from `WS_CONN_SERIAL`,
so that no two websockets have one.

## Main definitions

* `Listener`, `accepting` — what comes in, and the server over all of it.
* `lastRegistered`, `Ended` — read off the history: the websocket that registered last
  under a key, and the websockets whose guard is dropped.
* `Role`, `Kept` — what is left of each task, and the invariant.

## Main results

* `Role.step` — a task goes on as its kind prescribes.
* `kept_exec` — a section keeps the invariant.
* `no_registry_leak` — **along every run both registries hold exactly what they should.**
-/

namespace RustdeskServer

open Atomic

/-- What the server listens to: a websocket or a TCP connection with the frames that come
in over it, or the UDP socket. -/
inductive Listener
  /-- A websocket; `addr` is its address after the headers were read. -/
  | ws (addr : SocketAddr) (frames : List (Option Msg))
  /-- A TCP connection. -/
  | tcp (addr : SocketAddr) (frames : List (Option Msg))
  /-- The UDP socket. -/
  | udp (datagrams : List (SocketAddr × Option Msg))

/-- The task that serves connection `c`. -/
def Listener.task (c : ConnId) : Listener → Task
  | .ws addr frames => .ws c addr frames
  | .tcp addr frames => .tcp c addr frames
  | .udp datagrams => .udp datagrams

/-- A websocket. -/
def Listener.isWs : Listener → Bool
  | .ws _ _ => true
  | _ => false

/-- A TCP connection. -/
def Listener.isTcp : Listener → Bool
  | .tcp _ _ => true
  | _ => false

/-- The server `s` with its connections, none of which has begun. -/
def accepting (E : Ext) (cfg : Settings) (s : Server) (conns : ConnId → Listener) :
    Config SrvSig Server ConnId Unit :=
  ⟨s, fun i => ((conns i).task i).prog E cfg⟩

/-! ### What the history says -/

/-- The websocket whose registration under `key` came last. -/
def lastRegistered (E : Ext) (key : SocketAddr) : List (ConnId × SrvOp) → Option ConnId
  | [] => none
  | (_, .registerWs _ addr c) :: past =>
    if keyOf E addr = key then some c else lastRegistered E key past
  | _ :: past => lastRegistered E key past

/-- The task of websocket `i` has come to its end, and the guard it held is dropped. -/
def Ended (past : List (ConnId × SrvOp)) (i : ConnId) : Prop :=
  ∃ addr, (i, SrvOp.guardDrop addr i) ∈ past

section History

variable {E : Ext} {past : List (ConnId × SrvOp)} {i j : ConnId} {o : SrvOp}

theorem lastRegistered_registerWs (key : SocketAddr) (cause : Cause) (addr : SocketAddr)
    (c : ConnId) :
    lastRegistered E key ((i, .registerWs cause addr c) :: past) =
      if keyOf E addr = key then some c else lastRegistered E key past := rfl

theorem lastRegistered_other (key : SocketAddr)
    (ho : ∀ cause addr c, o ≠ .registerWs cause addr c) :
    lastRegistered E key ((i, o) :: past) = lastRegistered E key past := by
  cases o with
  | registerWs cause addr c => exact absurd rfl (ho cause addr c)
  | _ => rfl

theorem Ended.cons (h : Ended past j) : Ended ((i, o) :: past) j := by
  obtain ⟨addr, h⟩ := h
  exact ⟨addr, List.mem_cons_of_mem _ h⟩

/-- Only the drop of its own guard ends a websocket. -/
theorem ended_cons_iff (ho : i = j → ∀ addr, o ≠ .guardDrop addr j) :
    Ended ((i, o) :: past) j ↔ Ended past j := by
  refine ⟨fun h => ?_, Ended.cons⟩
  obtain ⟨addr, h⟩ := h
  rcases List.mem_cons.mp h with heq | h
  · cases heq
    exact absurd rfl (ho rfl addr)
  · exact ⟨addr, h⟩

end History

/-! ### What is left of a task -/

/-- What is left of the task of connection `i`, given what was done so far. -/
def Role (past : List (ConnId × SrvOp)) (i : ConnId) (p : Prog SrvSig Unit) : Listener → Prop
  | .ws addr _ =>
    (¬Ended past i ∧ Open addr i p) ∨ (Ended past i ∧ p.All (SrvOp.Closing i))
  | .tcp addr _ => Unparked addr i p ∨ Parked addr p ∨ p.All SrvOp.Passive
  | .udp _ => p.All SrvOp.Passive

section Role

variable {past : List (ConnId × SrvOp)} {i : ConnId} {l : Listener} {o : SrvOp}
  {k : SrvOp.Res o → Prog SrvSig Unit}

theorem role_prog (E : Ext) (cfg : Settings) (i : ConnId) (l : Listener) :
    Role [] i ((l.task i).prog E cfg) l := by
  cases l with
  | ws addr frames =>
    refine Or.inl ⟨fun h => ?_, open_wsTask E cfg addr i frames⟩
    obtain ⟨_, h⟩ := h
    cases h
  | tcp addr frames => exact Or.inl (unparked_tcpTask E cfg addr i frames)
  | udp datagrams => exact passive_udpTask E datagrams 0

/-- What the others do does not concern a task. -/
theorem Role.frame {j : ConnId} {p : Prog SrvSig Unit} (h : Role past j p l) (hij : i ≠ j) :
    Role ((i, o) :: past) j p l := by
  cases l with
  | ws addr frames =>
    have hend : Ended ((i, o) :: past) j ↔ Ended past j := ended_cons_iff fun h => absurd h hij
    rw [Role, hend]
    exact h
  | tcp addr frames => exact h
  | udp datagrams => exact h

/-- The sections a task of each kind can be about to perform. -/
inductive Role.Next (past : List (ConnId × SrvOp)) (i : ConnId) :
    Listener → (o : SrvOp) → (SrvOp.Res o → Prog SrvSig Unit) → Prop
  /-- One that adds nothing and ends no websocket. -/
  | passive {l : Listener} {o : SrvOp} {k : SrvOp.Res o → Prog SrvSig Unit} (ho : o.Passive) :
      Next past i l o k
  /-- An open websocket registers itself. -/
  | register {addr : SocketAddr} {frames : List (Option Msg)} {cause : Cause}
      {k : Unit → Prog SrvSig Unit} (hopen : ¬Ended past i) :
      Next past i (.ws addr frames) (.registerWs cause addr i) k
  /-- An open websocket ends. -/
  | drop {addr : SocketAddr} {frames : List (Option Msg)} {k : Unit → Prog SrvSig Unit}
      (hopen : ¬Ended past i) : Next past i (.ws addr frames) (.guardDrop addr i) k
  /-- Its receiver goes after its guard. -/
  | rxDrop {addr : SocketAddr} {frames : List (Option Msg)} {k : Unit → Prog SrvSig Unit}
      (hend : Ended past i) : Next past i (.ws addr frames) (.rxDrop i) k
  /-- A TCP connection parks its sink, and has to take it out again. -/
  | park {addr : SocketAddr} {frames : List (Option Msg)} {k : Unit → Prog SrvSig Unit}
      (hk : ∀ r, Parked addr (k r)) : Next past i (.tcp addr frames) (.punchInsert addr i) k

/-- **What a task may do next**, by its kind. -/
theorem Role.next (h : Role past i (.op o k) l) : Role.Next past i l o k := by
  cases l with
  | ws addr frames =>
    rcases h with ⟨hopen, ⟨rfl, -⟩ | ⟨ho | ⟨-, cause, rfl⟩, -⟩⟩ | ⟨hend, ho | rfl, -⟩
    · exact .drop hopen
    · exact .passive ho
    · exact .register hopen
    · exact .passive ho
    · exact .rxDrop hend
  | tcp addr frames =>
    rcases h with (⟨rfl, hk⟩ | ⟨ho, -⟩) | (⟨rfl, -⟩ | ⟨ho, -⟩) | ⟨ho, -⟩
    · exact .park hk
    · exact .passive ho
    · exact .passive trivial
    · exact .passive ho
    · exact .passive ho
  | udp datagrams => exact .passive h.1

/-- **A task goes on as its kind prescribes.** -/
theorem Role.step (h : Role past i (.op o k) l) (r : SrvOp.Res o) :
    Role ((i, o) :: past) i (k r) l := by
  cases l with
  | ws addr frames =>
    rcases h with ⟨hopen, ⟨rfl, hk⟩ | ⟨ho, hk⟩⟩ | ⟨hend, -, hk⟩
    · exact Or.inr ⟨⟨addr, List.mem_cons_self⟩, hk r⟩
    · -- a section of an open websocket is not the drop of a guard
      refine Or.inl ⟨fun hend => hopen ((ended_cons_iff fun _ addr' => ?_).mp hend), hk r⟩
      rintro rfl
      rcases ho with ho | ⟨-, cause, ho⟩
      · exact ho
      · cases ho
    · exact Or.inr ⟨hend.cons, hk r⟩
  | tcp addr frames =>
    rcases h with (⟨-, hk⟩ | ⟨-, hk⟩) | (⟨-, hk⟩ | ⟨-, hk⟩) | ⟨-, hk⟩
    · exact Or.inr (Or.inl (hk r))
    · exact Or.inl (hk r)
    · exact Or.inr (Or.inr (hk r))
    · exact Or.inr (Or.inl (hk r))
    · exact Or.inr (Or.inr (hk r))
  | udp datagrams => exact h.2 r

end Role

/-! ### The invariant -/

section Kept

variable (E : Ext) (conns : ConnId → Listener)

/-- `ws_peers` is as the history says it should be. -/
structure WsKept (past : List (ConnId × SrvOp)) (s : Server) : Prop where
  /-- A key leads to the websocket that registered last, while that one is open. -/
  entry : ∀ key i, s.wsPeers.lookup key = some i ↔
    lastRegistered E key past = some i ∧ ¬Ended past i
  /-- Websockets register under their own key. -/
  place : ∀ key i, lastRegistered E key past = some i →
    ∃ addr frames, conns i = .ws addr frames ∧ keyOf E addr = key
  /-- A receiver outlives the guard. -/
  gone : ∀ i ∈ s.rxGone, Ended past i

/-- Every parked sink is its connection's, under its own key, and the connection still
has to take it out. -/
def PunchKept (c : Config SrvSig Server ConnId Unit) : Prop :=
  ∀ key i, c.st.tcpPunch.lookup key = some i →
    ∃ addr frames, conns i = .tcp addr frames ∧ keyOf E addr = key ∧ Parked addr (c.task i)

/-- The invariant of a run. -/
structure Kept (past : List (ConnId × SrvOp)) (c : Config SrvSig Server ConnId Unit) : Prop where
  /-- The tasks. -/
  role : ∀ i, Role past i (c.task i) (conns i)
  /-- The registry of websockets. -/
  ws : WsKept E conns past c.st
  /-- The parked sinks. -/
  punch : PunchKept E conns c

end Kept

section Exec

variable {E : Ext} {cfg : Settings} {conns : ConnId → Listener} {past : List (ConnId × SrvOp)}
  {s : Server} {i : ConnId}

/-- A section neither registers nor drops a guard: the history says the same as before. -/
theorem WsKept.same {o : SrvOp} {s' : Server} (h : WsKept E conns past s)
    (hreg : ∀ cause addr c, o ≠ .registerWs cause addr c) (hdrop : ∀ addr c, o ≠ .guardDrop addr c)
    (hws : s'.wsPeers = s.wsPeers) (hrx : ∀ j ∈ s'.rxGone, j ∈ s.rxGone ∨ Ended past j) :
    WsKept E conns ((i, o) :: past) s' := by
  have hlast : ∀ key, lastRegistered E key ((i, o) :: past) = lastRegistered E key past :=
    fun key => lastRegistered_other key hreg
  have hend : ∀ j, Ended ((i, o) :: past) j ↔ Ended past j :=
    fun j => ended_cons_iff fun _ addr => hdrop addr j
  refine ⟨fun key j => ?_, fun key j hj => ?_, fun j hj => ?_⟩
  · rw [hws, hlast, hend]
    exact h.entry key j
  · rw [hlast] at hj
    exact h.place key j hj
  · rw [hend]
    rcases hrx j hj with hj | hj
    · exact h.gone j hj
    · exact hj

/-- A push finds no receiver gone: the entry of an ended websocket is not there. -/
theorem WsKept.exec_passive {o : SrvOp} (h : WsKept E conns past s) (ho : o.Passive) (e : SrvEnv) :
    WsKept E conns ((i, o) :: past) (o.exec E cfg e s).1 := by
  have hreg : ∀ cause addr c, o ≠ .registerWs cause addr c := by
    rintro cause addr c rfl
    exact ho
  have hdrop : ∀ addr c, o ≠ .guardDrop addr c := by
    rintro addr c rfl
    exact ho
  have hsame : (o.exec E cfg e s).1.wsPeers = s.wsPeers ∧
      (o.exec E cfg e s).1.rxGone = s.rxGone := by
    cases o with
    | pushWs cause addr msg =>
      simp only [SrvOp.exec]
      split
      · exact ⟨rfl, rfl⟩
      · next c hl =>
        split
        · next hgone => exact absurd (h.gone c hgone) ((h.entry _ c).mp hl).2
        · exact ⟨rfl, rfl⟩
    | registerWs cause addr c => exact ho.elim
    | guardDrop addr c => exact ho.elim
    | rxDrop c => exact ho.elim
    | _ => exact ⟨rfl, rfl⟩
  refine h.same hreg hdrop hsame.1 fun j hj => Or.inl ?_
  rwa [hsame.2] at hj

variable (cfg) in
/-- A websocket that registers takes its key over. -/
theorem WsKept.exec_register {addr : SocketAddr} {frames : List (Option Msg)}
    (h : WsKept E conns past s) (hi : conns i = .ws addr frames) (hopen : ¬Ended past i)
    (cause : Cause) (e : SrvEnv) :
    WsKept E conns ((i, .registerWs cause addr i) :: past)
      ((SrvOp.registerWs cause addr i).exec E cfg e s).1 := by
  have hend : ∀ j, Ended ((i, .registerWs cause addr i) :: past) j ↔ Ended past j :=
    fun j => ended_cons_iff fun _ _ ho => by cases ho
  have hws : ((SrvOp.registerWs cause addr i).exec E cfg e s).1.wsPeers =
      s.wsPeers.insert (keyOf E addr) i := rfl
  refine ⟨fun key j => ?_, fun key j hj => ?_, fun j hj => (hend j).mpr (h.gone j hj)⟩
  · rw [hws, lastRegistered_registerWs, hend]
    by_cases hk : keyOf E addr = key
    · subst hk
      rw [if_pos rfl, AList.lookup_insert]
      exact ⟨fun hj => ⟨hj, Option.some.inj hj ▸ hopen⟩, fun hj => hj.1⟩
    · rw [if_neg hk, AList.lookup_insert_ne (Ne.symm hk)]
      exact h.entry key j
  · rw [lastRegistered_registerWs] at hj
    by_cases hk : keyOf E addr = key
    · rw [if_pos hk, Option.some.injEq] at hj
      subst hj
      exact ⟨addr, frames, hi, hk⟩
    · rw [if_neg hk] at hj
      exact h.place key j hj

/-- **The guard of a websocket removes the websocket's own entry and no other.** -/
theorem lookup_guardDrop (e : SrvEnv) (addr key : SocketAddr) {j : ConnId}
    (hplace : s.wsPeers.lookup key = some i → keyOf E addr = key) :
    ((SrvOp.guardDrop addr i).exec E cfg e s).1.wsPeers.lookup key = some j ↔
      s.wsPeers.lookup key = some j ∧ j ≠ i := by
  have hws : ((SrvOp.guardDrop addr i).exec E cfg e s).1.wsPeers =
      if s.wsPeers.lookup (keyOf E addr) = some i then s.wsPeers.erase (keyOf E addr)
      else s.wsPeers := by
    simp only [SrvOp.exec]
    split <;> rfl
  rw [hws]
  by_cases hk : key = keyOf E addr
  · subst hk
    by_cases hl : s.wsPeers.lookup (keyOf E addr) = some i
    · rw [if_pos hl, AList.lookup_erase, hl]
      constructor
      · intro hj
        cases hj
      · rintro ⟨hj, hne⟩
        exact absurd (Option.some.inj hj).symm hne
    · rw [if_neg hl]
      refine ⟨fun hj => ⟨hj, ?_⟩, fun hj => hj.1⟩
      rintro rfl
      exact hl hj
  · have hsame : (if s.wsPeers.lookup (keyOf E addr) = some i then s.wsPeers.erase (keyOf E addr)
        else s.wsPeers).lookup key = s.wsPeers.lookup key := by
      split
      · exact AList.lookup_erase_ne hk
      · rfl
    rw [hsame]
    refine ⟨fun hj => ⟨hj, ?_⟩, fun hj => hj.1⟩
    rintro rfl
    exact hk (hplace hj).symm

variable (cfg) in
theorem WsKept.exec_drop {addr : SocketAddr} {frames : List (Option Msg)}
    (h : WsKept E conns past s) (hi : conns i = .ws addr frames) (e : SrvEnv) :
    WsKept E conns ((i, .guardDrop addr i) :: past)
      ((SrvOp.guardDrop addr i).exec E cfg e s).1 := by
  have hlast : ∀ key, lastRegistered E key ((i, .guardDrop addr i) :: past) =
      lastRegistered E key past :=
    fun key => lastRegistered_other key fun _ _ _ ho => by cases ho
  have hend : ∀ j, Ended ((i, .guardDrop addr i) :: past) j ↔ j = i ∨ Ended past j := by
    intro j
    by_cases hj : j = i
    · subst hj
      exact ⟨fun _ => Or.inl rfl, fun _ => ⟨addr, List.mem_cons_self⟩⟩
    · rw [ended_cons_iff fun hij => absurd hij.symm hj]
      exact ⟨Or.inr, fun h => h.resolve_left hj⟩
  -- an entry of this websocket is under the key that its guard looks at
  have hplace : ∀ key, s.wsPeers.lookup key = some i → keyOf E addr = key := by
    intro key hl
    obtain ⟨addr', frames', hi', hk⟩ := h.place key i ((h.entry key i).mp hl).1
    rw [hi] at hi'
    cases hi'
    exact hk
  refine ⟨fun key j => ?_, fun key j hj => ?_, fun j hj => ?_⟩
  · rw [lookup_guardDrop e addr key (hplace key), hlast, hend, h.entry, not_or]
    tauto
  · rw [hlast] at hj
    exact h.place key j hj
  · have hrx : ((SrvOp.guardDrop addr i).exec E cfg e s).1.rxGone = s.rxGone := by
      simp only [SrvOp.exec]
      split <;> rfl
    rw [hrx] at hj
    exact (h.gone j hj).cons

variable {c : Config SrvSig Server ConnId Unit} {o : SrvOp} {k : SrvOp.Res o → Prog SrvSig Unit}

/-- A connection that parked its sink still has to take it out, or just did. -/
theorem PunchKept.exec (h : PunchKept E conns c) (hi : c.task i = .op o k)
    (hnext : Role.Next past i (conns i) o k) (e : SrvEnv) :
    PunchKept E conns
      ⟨(o.exec E cfg e c.st).1, Function.update c.task i (k (o.exec E cfg e c.st).2)⟩ := by
  intro key j hl
  rcases lookup_tcpPunch_exec hl with hold | ⟨addr, rfl, hk⟩
  · obtain ⟨addr, frames, hj, hk, hp⟩ := h key j hold
    refine ⟨addr, frames, hj, hk, ?_⟩
    by_cases hij : j = i
    · subst hij
      rw [hi] at hp
      rcases hp with ⟨rfl, -⟩ | ⟨-, hp⟩
      · -- this was the clean-up, which leaves nothing under the key
        subst hk
        have hnone : ((SrvOp.punchRemove addr).exec E cfg e c.st).1.tcpPunch.lookup
            (keyOf E addr) = none := AList.lookup_erase _ _
        rw [hnone] at hl
        cases hl
      · simp only [Function.update_self]
        exact hp _
    · simpa only [Function.update_of_ne hij] using hp
  · -- the sink was parked just now
    generalize hci : conns i = l at hnext
    cases hnext with
    | passive ho => exact ho.elim
    | park hp =>
      refine ⟨addr, _, hci, hk, ?_⟩
      simp only [Function.update_self]
      exact hp _

/-- **A section keeps the invariant**, whichever task performs it. -/
theorem kept_exec (h : Kept E conns past c) (hi : c.task i = .op o k) (e : SrvEnv) :
    Kept E conns ((i, o) :: past)
      ⟨(o.exec E cfg e c.st).1, Function.update c.task i (k (o.exec E cfg e c.st).2)⟩ := by
  have hrole : Role past i (.op o k) (conns i) := hi ▸ h.role i
  refine ⟨fun j => ?_, ?_, h.punch.exec hi hrole.next e⟩
  · by_cases hij : j = i
    · subst hij
      simp only [Function.update_self]
      exact hrole.step _
    · simp only [Function.update_of_ne hij]
      exact (h.role j).frame (Ne.symm hij)
  · have hnext := hrole.next
    generalize hci : conns i = l at hnext
    cases hnext with
    | passive ho => exact h.ws.exec_passive ho e
    | register hopen => exact h.ws.exec_register cfg hci hopen _ e
    | drop hopen => exact h.ws.exec_drop cfg hci e
    | rxDrop hend =>
      refine h.ws.same (fun _ _ _ ho => by cases ho) (fun _ _ ho => by cases ho) rfl ?_
      intro j hj
      rcases List.mem_cons.mp hj with rfl | hj
      · exact Or.inr hend
      · exact Or.inl hj
    | park hp =>
      exact h.ws.same (fun _ _ _ ho => by cases ho) (fun _ _ ho => by cases ho) rfl
        fun j hj => Or.inl hj

end Exec

/-! ### Every run -/

section Run

variable (E : Ext) (cfg : Settings) (db : List Row) (mustLogin alwaysUseRelay : Bool)
  (conf : Snapshot) (conns : ConnId → Listener)

theorem kept_start :
    Kept E conns [] (accepting E cfg (.start db mustLogin alwaysUseRelay conf) conns) := by
  refine ⟨fun i => role_prog E cfg i (conns i), ⟨fun key i => ?_, fun key i h => ?_, fun i h => ?_⟩,
    fun key i h => ?_⟩
  · constructor
    · intro h
      cases h
    · rintro ⟨h, -⟩
      cases h
  · cases h
  · cases h
  · cases h

/-- A websocket whose task has returned has come to its end. -/
theorem Role.ended {past : List (ConnId × SrvOp)} {i : ConnId} {p : Prog SrvSig Unit}
    {l : Listener} (h : Role past i p l) (hws : l.isWs = true) (hp : p.result? ≠ none) :
    Ended past i := by
  cases l with
  | ws addr frames =>
    rcases h with ⟨-, hopen⟩ | ⟨hend, -⟩
    · exact absurd (Prog.Until.result?_eq_none hopen) hp
    · exact hend
  | tcp addr frames => cases hws
  | udp datagrams => cases hws

/-- **Nothing stays in a registry after its connection.**  Along every run of any number
of connections, whatever addresses they have, `ws_peers` leads from a key to exactly the
websocket that registered last under it, so long as that websocket's task has not come to
its end (a task that has returned has), and every sink in `tcp_punch` belongs to a TCP
connection whose task is still going. -/
theorem no_registry_leak (schedule : List (ConnId × SrvEnv)) :
    let c₀ := accepting E cfg (.start db mustLogin alwaysUseRelay conf) conns
    let past := c₀.performed (srvMachine E cfg) schedule
    let c := c₀.sched (srvMachine E cfg) schedule
    (∀ key i, c.st.wsPeers.lookup key = some i ↔
      lastRegistered E key past = some i ∧ ¬Ended past i) ∧
    (∀ i, (conns i).isWs = true → (c.task i).result? ≠ none → Ended past i) ∧
    ∀ key i, c.st.tcpPunch.lookup key = some i →
      (conns i).isTcp = true ∧ (c.task i).result? = none := by
  intro c₀ past c
  have hkept : Kept E conns past c :=
    performed_inv (kept_start E cfg db mustLogin alwaysUseRelay conf conns)
      (fun _ _ _ e _ _ h hi => kept_exec h hi e) schedule
  refine ⟨hkept.ws.entry, fun i hws hp => (hkept.role i).ended hws hp, ?_⟩
  intro key i hl
  obtain ⟨addr, frames, hi, -, hparked⟩ := hkept.punch key i hl
  exact ⟨by rw [hi]; rfl, Prog.Until.result?_eq_none hparked⟩

end Run

/-- Two websockets behind one proxy: the second registers an id, is told so and is entered, then
the first comes to its end and leaves the second's entry alone. -/
example :
    let addr : SocketAddr := ⟨.ofOctets 203 0 113 5, 0⟩
    let conns : ConnId → Listener := fun c =>
      if c = 0 then .ws addr [some (.requestRelay ⟨"a", "", [], ""⟩)]
      else .ws addr [some (.registerPk ⟨"alpha1", [1], [2]⟩)]
    let c₀ := accepting .sample ⟨"", "", 0⟩ (.start [] false false .blank) conns
    let steps := ([0, 0] ++ List.replicate 15 1 ++ [0, 0, 0]).map fun i => (i, SrvEnv.ok 0 1)
    let c := c₀.sched (srvMachine .sample ⟨"", "", 0⟩) steps
    (∃ cause, Event.sent (some cause) 1 (.registerPkResponse .ok) ∈ c.st.log) ∧
      (c.task 0).result? = some () ∧ c.st.wsPeers.lookup addr = some 1 := by
  refine ⟨⟨⟨.ws 1, 0, .registerPk ⟨"alpha1", [1], [2]⟩⟩, ?_⟩, ?_⟩
  · decide
  · decide

end RustdeskServer
