import RustdeskServer.RelayServer

/-!
# What a connection of the relay server can do

The code of a connection's task goes through a few phases: it has not asked yet, it has
looked for a partner and found none, it waits, or it relays with the partner it found.
`Moves` says what a step of a task does to `PEERS`, to the deadlines and to the history,
by the phase it leaves and the phase it enters; nothing else is ever said about the code.

That the tasks move so, whatever the others do in between, is `Point.move`, and
`reach_phases` derives an invariant of the phases and the shared state from what one move
keeps.

## Main definitions

* `Phase`, `Point` — the phases, and what is left of a task in each.
* `Moves` — what a step does.

## Main results

* `Point.move` — **every step of a task is a move.**
* `reach_phases` — the invariant rule over phases.
-/

namespace RustdeskServer

namespace Hbbr

open Atomic

/-- Where a connection is. -/
inductive Phase
  /-- It has not looked for a partner. -/
  | arriving
  /-- It has looked and found none. -/
  | missed (uuid : String)
  /-- Its stream is in `PEERS`, or was. -/
  | waiting (uuid : String)
  /-- It relays with the stream it took, and has read these chunks, newest first. -/
  | relaying (peer : ConnId) (read : List Chunk)
  /-- It is done. -/
  | finished
  deriving DecidableEq

/-- The connection has not left its stream and taken no other. -/
def Phase.Fresh : Phase → Prop
  | .arriving | .missed _ => True
  | _ => False

/-- The `uuid` a connection asks for: that of its `RequestRelay`, if the key check passes. -/
def Conn.request? (key : String) (conn : Conn) : Option String :=
  match conn.first with
  | some (.requestRelay rf) =>
    if key ≠ "" ∧ rf.licenceKey ≠ key then none else if rf.uuid = "" then none else some rf.uuid
  | _ => none

theorem makePair_eq (key : String) (c : ConnId) (conn : Conn) :
    makePair_ key c conn = match conn.request? key with
      | some uuid => .op (.take c uuid) fun peer : Option Stream =>
        match peer with
        | some peer => pairedWith conn ⟨c, conn.ws, false⟩ peer
        | none => waitFor uuid ⟨c, conn.ws, false⟩
      | none => .ret () := by
  cases hfirst : conn.first with
  | none =>
    have hreq : conn.request? key = none := by rw [Conn.request?, hfirst]
    rw [hreq, makePair_, hfirst]
  | some m =>
    cases m with
    | requestRelay rf =>
      by_cases hkey : key ≠ "" ∧ rf.licenceKey ≠ key
      · have hreq : conn.request? key = none := by rw [Conn.request?, hfirst]; exact if_pos hkey
        rw [hreq, makePair_, hfirst]
        exact if_pos hkey
      · by_cases huuid : rf.uuid = ""
        · have hreq : conn.request? key = none := by
            rw [Conn.request?, hfirst]
            exact (if_neg hkey).trans (if_pos huuid)
          rw [hreq, makePair_, hfirst]
          exact (if_neg hkey).trans (if_pos huuid)
        · have hreq : conn.request? key = some rf.uuid := by
            rw [Conn.request?, hfirst]
            exact (if_neg hkey).trans (if_neg huuid)
          rw [hreq, makePair_, hfirst]
          exact (if_neg hkey).trans (if_neg huuid)
    | _ =>
      have hreq : conn.request? key = none := by rw [Conn.request?, hfirst]
      rw [hreq, makePair_, hfirst]

/-- What a connection that asks has presented. -/
theorem Conn.request?_eq_some {key uuid : String} {conn : Conn} (h : conn.request? key = some uuid) :
    ∃ rf, conn.first = some (.requestRelay rf) ∧ rf.uuid = uuid ∧ uuid ≠ "" ∧
      (key ≠ "" → rf.licenceKey = key) := by
  unfold Conn.request? at h
  split at h
  · next rf hfirst =>
    split at h
    · cases h
    · next hkey =>
      split at h
      · cases h
      · next huuid =>
        cases h
        refine ⟨rf, hfirst, rfl, huuid, ?_⟩
        intro hne
        by_contra hlk
        exact hkey ⟨hne, hlk⟩
  · cases h

/-! ### The code of a session -/

/-- The operation belongs to the session of `c` with `d`, in which these chunks were read:
what is sent to one was read from the other. -/
def Op.InSession (c d : ConnId) (read : List Chunk) : Op → Prop
  | .select stream peer => stream.conn = c ∧ peer.conn = d
  | .sendRaw stream chunk =>
    chunk ∈ read ∧ ((stream.conn = c ∧ chunk.src = d) ∨ (stream.conn = d ∧ chunk.src = c))
  | .take _ _ | .insert _ _ | .cleanUp _ _ | .checkCmd _ => False
  | _ => True

/-- What a turn brings comes from the stream it was read from. -/
def Turn.From (c d : ConnId) : Turn → Prop
  | .peer (some chunk) => chunk.src = d
  | .stream (some chunk) => chunk.src = c
  | _ => True

/-- An answer the operation can have in the session of `c` with `d`. -/
def Op.Brings (c d : ConnId) : (o : Op) → o.Res → Prop
  | .select _ _, t => Turn.From c d t
  | _, _ => True

/-- The chunk a turn brings. -/
def Turn.chunk? : Turn → Option Chunk
  | .peer res => res
  | .stream res => res
  | .tick => none

/-- The chunks an answer brings. -/
def Op.reads : (o : Op) → o.Res → List Chunk
  | .select _ _, t => Option.toList (Turn.chunk? t)
  | _, _ => []

/-- Every operation of the program belongs to the session of `c` with `d`, in which these
chunks were read so far. -/
def Relays (c d : ConnId) {α : Type} : List Chunk → Prog RelaySig α → Prop
  | _, .ret _ => True
  | read, .op o k =>
    o.InSession c d read ∧ ∀ r, o.Brings c d r → Relays c d (o.reads r ++ read) (k r)

section Relays

variable {c d : ConnId} {read : List Chunk} {α β : Type}

theorem Relays.bind {p : Prog RelaySig α} {f : α → Prog RelaySig β} (hp : Relays c d read p)
    (hf : ∀ a read, Relays c d read (f a)) : Relays c d read (p >>= f) := by
  induction p generalizing read with
  | ret a => exact hf a read
  | op o k ih => exact ⟨hp.1, fun r hr => ih r (hp.2 r hr)⟩

theorem Relays.ite {q : Prop} [Decidable q] {p p' : Prog RelaySig α} (hp : q → Relays c d read p)
    (hp' : ¬q → Relays c d read p') : Relays c d read (if q then p else p') := by
  split
  · next h => exact hp h
  · next h => exact hp' h

theorem relays_forward (x : Session) (l : Loop) {dst : Stream} {chunk : Chunk}
    (hread : chunk ∈ read)
    (h : (dst.conn = c ∧ chunk.src = d) ∨ (dst.conn = d ∧ chunk.src = c)) :
    Relays c d read (forward x l dst chunk) := by
  refine ⟨trivial, fun now _ => ⟨trivial, fun _ _ => ⟨trivial, ?_⟩⟩⟩
  intro _ _
  refine Relays.ite (fun _ => trivial) fun _ => ⟨⟨hread, h⟩, ?_⟩
  intro err _
  cases err <;> trivial

theorem relays_turn {x : Session} (hs : x.stream.conn = c) (hp : x.peer.conn = d) (l : Loop) :
    Relays c d read (turn x l) := by
  refine ⟨⟨hs, hp⟩, ?_⟩
  intro t ht
  match t, ht with
  | .peer (some chunk), ht =>
    exact (relays_forward x l List.mem_cons_self (Or.inl ⟨hs, ht⟩)).bind fun _ _ => trivial
  | .peer none, _ => trivial
  | .stream (some chunk), ht =>
    exact (relays_forward x l List.mem_cons_self (Or.inr ⟨hp, ht⟩)).bind fun _ _ => trivial
  | .stream none, _ => trivial
  | .tick, _ =>
    refine ⟨trivial, ?_⟩
    intro now _
    dsimp only
    split <;> trivial

theorem relays_account (x : Session) (l : Loop) : Relays c d read (account x l) := by
  refine ⟨trivial, ?_⟩
  intro now _
  dsimp only
  split
  · refine ⟨trivial, ?_⟩
    intro blocked _
    cases blocked with
    | true => trivial
    | false => exact ⟨trivial, fun _ _ => ⟨trivial, fun _ _ => ⟨trivial, fun _ _ =>
        ⟨trivial, fun _ _ => trivial⟩⟩⟩⟩
  · trivial

theorem relays_loop {x : Session} (hs : x.stream.conn = c) (hp : x.peer.conn = d) (n : ℕ)
    (l : Loop) : Relays c d read (relayLoop x n l) := by
  induction n generalizing l read with
  | zero => trivial
  | succ n ih =>
    refine (relays_turn hs hp l).bind ?_
    intro r _
    match r with
    | .error _ => trivial
    | .ok none => trivial
    | .ok (some l) =>
      refine (relays_account x l).bind ?_
      intro l _
      cases l with
      | none => trivial
      | some l => exact ih l

/-- **A session is between the two streams.** -/
theorem relays_pairedWith (conn : Conn) {stream peer : Stream} (hs : stream.conn = c)
    (hp : peer.conn = d) : Relays c d read (pairedWith conn stream peer) := by
  refine ⟨trivial, fun _ _ => Relays.bind ?_ fun _ _ => ⟨trivial, fun _ _ => trivial⟩⟩
  refine ⟨trivial, fun _ _ => ⟨trivial, fun _ _ => ⟨trivial, fun _ _ => ⟨trivial, fun _ _ =>
    ⟨trivial, fun _ _ => relays_loop ?_ ?_ _ _⟩⟩⟩⟩⟩
  · dsimp only
    split
    · rw [Stream.setRaw_conn, hs]
    · exact hs
  · dsimp only
    split
    · rw [Stream.setRaw_conn, hp]
    · exact hp

end Relays

/-! ### Phases of a task -/

/-- What is left of the task of connection `c` in each phase. -/
inductive Point (hbb : HbbCommon) (key : String) (c : ConnId) (conn : Conn) :
    Phase → Prog RelaySig Unit → Prop
  /-- The connection is accepted. -/
  | handle : Point hbb key c conn .arriving (handleConnection hbb key c conn)
  /-- Its task is spawned. -/
  | spawned : Point hbb key c conn .arriving (makePair_ key c conn)
  /-- It goes to wait. -/
  | missed {uuid : String} (h : conn.request? key = some uuid) :
      Point hbb key c conn (.missed uuid) (waitFor uuid ⟨c, conn.ws, false⟩)
  /-- It waits. -/
  | waiting {uuid : String} (h : conn.request? key = some uuid) :
      Point hbb key c conn (.waiting uuid) (.op (.cleanUp c uuid) fun _ => .ret ())
  /-- It relays. -/
  | relaying {d : ConnId} {read : List Chunk} {p : Prog RelaySig Unit} (h : Relays c d read p) :
      Point hbb key c conn (.relaying d read) p
  /-- Nothing is left. -/
  | finished : Point hbb key c conn .finished (.ret ())

theorem Point.next_missed {hbb : HbbCommon} {key uuid : String} {c : ConnId} {conn : Conn}
    {p : Prog RelaySig Unit} (h : Point hbb key c conn (.missed uuid) p) :
    p.next? = some (.insert uuid ⟨c, conn.ws, false⟩) := by
  cases h
  rfl

theorem Point.next_waiting {hbb : HbbCommon} {key uuid : String} {c : ConnId} {conn : Conn}
    {p : Prog RelaySig Unit} (h : Point hbb key c conn (.waiting uuid) p) :
    p.next? = some (.cleanUp c uuid) := by
  cases h
  rfl

/-- `PEERS`, the deadlines and the history are the same. -/
structure Same (s s' : State) : Prop where
  /-- `PEERS`. -/
  peers : s'.peers = s.peers
  /-- The deadlines. -/
  due : s'.due = s.due
  /-- The history. -/
  log : s'.log = s.log

/-- What the operation `o` of connection `c`, which asks for `ask`, does. -/
inductive Moves (ask : Option String) (o : Op) (e : Env) (c : ConnId) (s s' : State) :
    Phase → Phase → Prop
  /-- It is not refused. -/
  | arrive (h : Same s s') : Moves ask o e c s s' .arriving .arriving
  /-- It is refused, or was a command. -/
  | refuse (h : Same s s') : Moves ask o e c s s' .arriving .finished
  /-- It looks and finds nothing. -/
  | miss {uuid : String} (ho : o = .take c uuid) (hask : ask = some uuid)
      (hlook : s.peers.lookup uuid = none) (hpeers : s'.peers = s.peers) (hdue : s'.due = s.due)
      (hlog : s'.log = .looked c uuid :: s.log) : Moves ask o e c s s' .arriving (.missed uuid)
  /-- It looks and takes what it finds. -/
  | pair {uuid : String} {peer : Stream} (ho : o = .take c uuid) (hask : ask = some uuid)
      (hlook : s.peers.lookup uuid = some peer) (hpeers : s'.peers = s.peers.erase uuid)
      (hdue : s'.due = s.due) (hlog : s'.log = .paired c peer.conn uuid :: s.log) :
      Moves ask o e c s s' .arriving (.relaying peer.conn [])
  /-- It leaves its stream. -/
  | insert {uuid : String} {stream : Stream} (ho : o = .insert uuid stream)
      (hask : ask = some uuid) (hc : stream.conn = c)
      (hpeers : s'.peers = s.peers.insert uuid stream)
      (hdue : s'.due = Function.update s.due c (some (e.now + 30000)))
      (hlog : s'.log = .inserted c uuid ((s.peers.lookup uuid).map Stream.conn) e.now :: s.log) :
      Moves ask o e c s s' (.missed uuid) (.waiting uuid)
  /-- It gives up. -/
  | cleanUp {uuid : String} (ho : o = .cleanUp c uuid) (hask : ask = some uuid)
      (hpeers : s'.peers = s.peers.erase uuid) (hdue : s'.due = s.due)
      (hlog : s'.log = .cleaned c uuid ((s.peers.lookup uuid).map Stream.conn) e.now :: s.log) :
      Moves ask o e c s s' (.waiting uuid) .finished
  /-- It reads from one of its two streams. -/
  | receive {d src : ConnId} {bytes : Bytes} {read : List Chunk} (hsrc : src = c ∨ src = d)
      (hpeers : s'.peers = s.peers) (hdue : s'.due = s.due)
      (hlog : s'.log = .received src bytes :: s.log) :
      Moves ask o e c s s' (.relaying d read) (.relaying d (⟨src, bytes⟩ :: read))
  /-- It sends what it read from one of them to the other. -/
  | send {d dst : ConnId} {chunk : Chunk} {read : List Chunk} (hread : chunk ∈ read)
      (hends : (dst = c ∧ chunk.src = d) ∨ (dst = d ∧ chunk.src = c))
      (hpeers : s'.peers = s.peers) (hdue : s'.due = s.due)
      (hlog : s'.log = .sent dst chunk :: s.log) :
      Moves ask o e c s s' (.relaying d read) (.relaying d read)
  /-- It does anything else of a session. -/
  | work {d : ConnId} {read : List Chunk} (h : Same s s') :
      Moves ask o e c s s' (.relaying d read) (.relaying d read)

section Move

variable {hbb : HbbCommon} {key : String} {c : ConnId} {conn : Conn}

/-- A step of a session. -/
theorem Relays.move {d : ConnId} {read : List Chunk} {o : Op} {k : o.Res → Prog RelaySig Unit}
    (h : Relays c d read (.op o k)) (e : Env) (s : State) :
    ∃ read', Relays c d read' (k (o.act e s).2) ∧
      Moves (conn.request? key) o e c s (o.exec e s).1 (.relaying d read) (.relaying d read') := by
  obtain ⟨hin, hk⟩ := h
  cases o with
  | take _ _ | insert _ _ | cleanUp _ _ | checkCmd _ => exact hin.elim
  | select stream peer =>
    obtain ⟨hs, hp⟩ := hin
    cases hinput : e.input with
    | peer res =>
      have hact : (Op.select stream peer).act e s =
          ({ s with log := receivedFrom peer.conn res ++ s.log },
            .peer (res.map fun bytes => ⟨peer.conn, bytes⟩)) := by simp only [Op.act, hinput]
      unfold Op.exec
      rw [hact]
      cases res with
      | none => exact ⟨read, hk (Turn.peer none) trivial, .work ⟨rfl, rfl, rfl⟩⟩
      | some bytes => exact ⟨_, hk _ hp, .receive (Or.inr hp) rfl rfl rfl⟩
    | stream res =>
      have hact : (Op.select stream peer).act e s =
          ({ s with log := receivedFrom stream.conn res ++ s.log },
            .stream (res.map fun bytes => ⟨stream.conn, bytes⟩)) := by simp only [Op.act, hinput]
      unfold Op.exec
      rw [hact]
      cases res with
      | none => exact ⟨read, hk (Turn.stream none) trivial, .work ⟨rfl, rfl, rfl⟩⟩
      | some bytes => exact ⟨_, hk _ hs, .receive (Or.inl hs) rfl rfl rfl⟩
    | tick =>
      have hact : (Op.select stream peer).act e s = (s, .tick) := by simp only [Op.act, hinput]
      unfold Op.exec
      rw [hact]
      exact ⟨read, hk Turn.tick trivial, .work ⟨rfl, rfl, rfl⟩⟩
  | sendRaw stream chunk =>
    refine ⟨read, hk _ trivial, ?_⟩
    unfold Op.exec Op.act
    cases e.sendFails with
    | some err => exact .work ⟨rfl, rfl, rfl⟩
    | none => exact .send hin.1 hin.2 rfl rfl rfl
  | _ => exact ⟨read, hk _ trivial, .work ⟨rfl, rfl, rfl⟩⟩

/-- A step of a task that has not asked. -/
theorem move_makePair {o : Op} {k : o.Res → Prog RelaySig Unit}
    (h : makePair_ key c conn = .op o k) (e : Env) (s : State) :
    ∃ ph, Point hbb key c conn ph (k (o.act e s).2) ∧
      Moves (conn.request? key) o e c s (o.exec e s).1 .arriving ph := by
  rw [makePair_eq] at h
  cases hask : conn.request? key with
  | none =>
    rw [hask] at h
    cases h
  | some uuid =>
    rw [hask] at h
    cases h
    cases hlook : s.peers.lookup uuid with
    | none =>
      have hact : (Op.take c uuid).act e s = ({ s with log := .looked c uuid :: s.log }, none) := by
        simp only [Op.act, hlook]
      unfold Op.exec
      rw [hact]
      exact ⟨.missed uuid, .missed hask, .miss rfl rfl hlook rfl rfl rfl⟩
    | some peer =>
      have hact : (Op.take c uuid).act e s = ({ s with
          peers := s.peers.erase uuid
          log := .paired c peer.conn uuid :: s.log }, some peer) := by
        simp only [Op.act, hlook]
      unfold Op.exec
      rw [hact]
      exact ⟨.relaying peer.conn [], .relaying (relays_pairedWith conn rfl rfl),
        .pair rfl rfl hlook rfl rfl rfl⟩

/-- **Every step of a task is a move.** -/
theorem Point.move {ph : Phase} {o : Op} {k : o.Res → Prog RelaySig Unit}
    (h : Point hbb key c conn ph (.op o k)) (e : Env) (s : State) :
    ∃ ph', Point hbb key c conn ph' (k (o.act e s).2) ∧
      Moves (conn.request? key) o e c s (o.exec e s).1 ph ph' := by
  generalize hp : (Prog.op o k : Prog RelaySig Unit) = p at h
  cases h with
  | handle =>
    unfold handleConnection at hp
    dsimp only at hp
    split at hp
    · cases hp
      exact ⟨.finished, .finished, .refuse ⟨rfl, rfl, rfl⟩⟩
    · cases hp
      by_cases hb : (hbb.tryIntoV4 conn.tcpAddr).ip.toText ∈ s.blocklist
      · simp only [Op.act, hb, decide_true, if_true]
        exact ⟨.finished, .finished, .refuse ⟨rfl, rfl, rfl⟩⟩
      · simp only [Op.act, hb, decide_false, Bool.false_eq_true, if_false]
        exact ⟨.arriving, .spawned, .arrive ⟨rfl, rfl, rfl⟩⟩
  | spawned => exact move_makePair hp.symm e s
  | @missed uuid hask =>
    cases hp
    exact ⟨.waiting uuid, .waiting hask, .insert rfl hask rfl rfl rfl rfl⟩
  | @waiting uuid hask =>
    cases hp
    exact ⟨.finished, .finished, .cleanUp rfl hask rfl rfl rfl⟩
  | @relaying d read _ hr =>
    subst hp
    obtain ⟨read', hk, hm⟩ := hr.move e s
    exact ⟨.relaying d read', .relaying hk, hm⟩
  | finished => cases hp

end Move

/-! ### Runs -/

section Runs

variable {hbb : HbbCommon} {key : String} {conns : ConnId → Conn}

/-- Every task is in the phase that is given for it. -/
def Phased (hbb : HbbCommon) (key : String) (conns : ConnId → Conn)
    (cfg : Config RelaySig State ConnId Unit) (phases : ConnId → Phase) : Prop :=
  ∀ c, Point hbb key c (conns c) (phases c) (cfg.task c)

/-- **The invariant rule over phases**: what holds of the start and is kept by every move
that meets the condition holds in every run whose steps meet it. -/
theorem reach_phases {ok : Config RelaySig State ConnId Unit → ConnId → Env → Prop}
    {P : (ConnId → Phase) → State → Prop} {s : State}
    (h0 : P (fun _ => .arriving) (start hbb key conns s).st)
    (hstep : ∀ cfg phases c e o s' ph, Phased hbb key conns cfg phases → P phases cfg.st →
      ok cfg c e → (cfg.task c).next? = some o →
      Moves ((conns c).request? key) o e c cfg.st s' (phases c) ph → s'.clock = e.now →
      P (Function.update phases c ph) s')
    {cfg : Config RelaySig State ConnId Unit} (h : Reach machine ok (start hbb key conns s) cfg) :
    ∃ phases, Phased hbb key conns cfg phases ∧ P phases cfg.st := by
  induction h with
  | refl => exact ⟨fun _ => .arriving, fun c => .handle, h0⟩
  | @step cfg _ c e hok ih =>
    obtain ⟨phases, hph, hP⟩ := ih
    cases htask : cfg.task c with
    | ret a =>
      rw [Config.step_ret _ htask]
      exact ⟨phases, hph, hP⟩
    | op o k =>
      have hc := hph c
      rw [htask] at hc
      obtain ⟨ph, hpoint, hmove⟩ := hc.move e cfg.st
      rw [Config.step_op _ htask]
      have hnext : (cfg.task c).next? = some o := by rw [htask, Prog.next?_op]
      refine ⟨Function.update phases c ph, fun j => ?_,
        hstep cfg phases c e o _ ph hph hP hok hnext hmove rfl⟩
      by_cases hj : j = c
      · subst hj
        simpa using hpoint
      · simpa only [Function.update_of_ne hj] using hph j

end Runs

end Hbbr

end RustdeskServer
