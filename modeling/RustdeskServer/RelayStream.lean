import RustdeskServer.Atomic.Feed
import RustdeskServer.RelayServer

/-!
# What a relay session carries

One session of `hbbr` is one run of `relay`, between the streams of two connections.
`Sess` is the session with its local variables at every operation: `Sess.step` is what an
operation makes of it, and `prog_step` says that the code does just that.  What the other
tasks of the server do in between is in the states a session finds, which are arbitrary.

A message that was read waits for the limiters, is counted, and is sent, before anything
else is read.  So the messages received from one end are those sent to the other, in order,
with at most one on its way.

## Main definitions

* `Wire`, `Wire.recv` — what arrives at a stream, and what `recv` makes of it.
* `Stage`, `Sess`, `Sess.step`, `Sess.prog` — a session, and what is left of its code.
* `receivedOf`, `sentOf`, `sinceReport` — the messages in a trace.

## Main results

* `relay_feed` — **the code of a session is the session.**
* `relay_lossless` — **nothing is lost, doubled, reordered or mixed, the totals are eight
  times the bytes received, and a downgrade lasts.**
-/

namespace RustdeskServer

namespace Hbbr

open Atomic

/-! ### Streams -/

/-- `tungstenite::Message`. -/
inductive WsMessage
  /-- Binary data. -/
  | binary (bytes : Bytes)
  /-- Text. -/
  | text (text : String)
  /-- A ping. -/
  | ping (bytes : Bytes)
  /-- A pong. -/
  | pong (bytes : Bytes)
  /-- The end. -/
  | close
  deriving DecidableEq

/-- What arrives at a stream. -/
inductive Wire
  /-- A frame of a plain stream. -/
  | frame (bytes : Bytes)
  /-- A message of a websocket. -/
  | message (m : WsMessage)
  /-- An error. -/
  | failed (err : String)
  /-- The end of the stream. -/
  | ended
  deriving DecidableEq

/-- `StreamTrait::recv`, up to the error: `Some(Ok(bytes))` or not.  A websocket's messages
other than binary ones are no bytes. -/
def Wire.recv : Wire → Option Bytes
  | .frame bytes => some bytes
  | .message (.binary bytes) => some bytes
  | .message _ => some []
  | .failed _ | .ended => none

/-- What wakes a turn up. -/
inductive Arrival
  /-- Something arrives from the peer. -/
  | peer (w : Wire)
  /-- Something arrives from the own stream. -/
  | stream (w : Wire)
  /-- Nothing before the timer. -/
  | tick

/-- The same, after `recv`. -/
def Arrival.input : Arrival → Input
  | .peer w => .peer w.recv
  | .stream w => .stream w.recv
  | .tick => .tick

/-- What a session finds at one of its operations. -/
structure Find where
  /-- `Instant::now`. -/
  now : Instant
  /-- What wakes a turn up. -/
  arrival : Arrival
  /-- `send_raw` fails, with this error. -/
  sendFails : Option String
  /-- The state that the tasks share. -/
  st : State

/-- As the machine takes it. -/
def Find.input (f : Find) : Env × State := (⟨f.now, f.arrival.input, f.sendFails⟩, f.st)

/-! ### A session -/

/-- Where a session is: which operation comes next. -/
inductive Stage
  /-- `tm` is read. -/
  | begun
  /-- `SINGLE_BANDWIDTH` is read. -/
  | timed
  /-- `LIMIT_SPEED` is read. -/
  | single
  /-- `DOWNGRADE_THRESHOLD_100` is read. -/
  | limited
  /-- `last_recv_time` is read. -/
  | threshold
  /-- `tokio::select!` waits. -/
  | waiting
  /-- A chunk for `dst` has arrived. -/
  | arrived (dst : Stream) (chunk : Chunk)
  /-- It waits for the session's limiter. -/
  | limiting (dst : Stream) (chunk : Chunk) (now : Instant)
  /-- It waits for the limiter of all sessions. -/
  | sharing (dst : Stream) (chunk : Chunk) (now : Instant)
  /-- It is counted, and is sent. -/
  | sending (dst : Stream) (chunk : Chunk)
  /-- The timer has fired. -/
  | ticked
  /-- The accounting begins. -/
  | accounting
  /-- `BLOCKLIST` is read, after `n` milliseconds. -/
  | blocking (n : ℕ)
  /-- `BLACKLIST` is read. -/
  | blacking (n : ℕ)
  /-- `tm` is set. -/
  | windowing (n : ℕ) (blacked : Bool)
  /-- The usage is reported, with this speed. -/
  | reporting (speed : ℕ)
  /-- `DOWNGRADE_START_CHECK` is read. -/
  | checking
  /-- `relay` has returned; a chunk that could not be sent is lost. -/
  | ended (r : Except String Unit) (lost : Option (Stream × Chunk))

/-- A session: what stays the same, how many turns are left, its variables, and where it is. -/
structure Sess where
  /-- What stays the same, once it is read. -/
  x : Session
  /-- The turns after this one. -/
  n : ℕ
  /-- The local variables. -/
  l : Loop
  /-- Where it is. -/
  stage : Stage

namespace Sess

/-- The loop goes on, if it has a turn left. -/
def again (s : Sess) : Sess :=
  match s.n with
  | 0 => { s with stage := .ended (.ok ()) none }
  | n + 1 => { s with n := n, stage := .waiting }

/-- The session after one operation. -/
def step (s : Sess) (f : Find) : Sess :=
  match s.stage with
  | .begun => { s with l := { s.l with tm := f.now }, stage := .timed }
  | .timed => { s with x := { s.x with speed := f.st.params .singleBandwidth }, stage := .single }
  | .single =>
    { s with x := { s.x with limitSpeed := f.st.params .limitSpeed }, stage := .limited }
  | .limited =>
    { s with
      x := { s.x with
        downgradeThreshold := s.x.speed * f.st.params .downgradeThreshold100 / 100000 }
      stage := .threshold }
  | .threshold => again { s with l := { s.l with lastRecvTime := f.now } }
  | .waiting =>
    match f.arrival.input with
    | .peer (some bytes) => { s with stage := .arrived s.x.stream ⟨s.x.peer.conn, bytes⟩ }
    | .stream (some bytes) => { s with stage := .arrived s.x.peer ⟨s.x.stream.conn, bytes⟩ }
    | .peer none => { s with stage := .ended (.ok ()) none }
    | .stream none => { s with stage := .ended (.ok ()) none }
    | .tick => { s with stage := .ticked }
  | .arrived dst chunk => { s with stage := .limiting dst chunk f.now }
  | .limiting dst chunk now => { s with stage := .sharing dst chunk now }
  | .sharing dst chunk now =>
    { s with
      l := { s.l with
        lastRecvTime := now
        total := s.l.total + chunk.bytes.length * 8
        totalS := s.l.totalS + chunk.bytes.length * 8 }
      stage := if chunk.bytes = [] then .accounting else .sending dst chunk }
  | .sending dst chunk =>
    match f.sendFails with
    | some err => { s with stage := .ended (.error err) (some (dst, chunk)) }
    | none => { s with stage := .accounting }
  | .ticked =>
    if elapsedSecs f.now s.l.lastRecvTime > 30 then { s with stage := .ended (.error "Timeout") none }
    else { s with stage := .accounting }
  | .accounting =>
    if 1000 ≤ elapsedMillis f.now s.l.tm then
      { s with stage := .blocking (elapsedMillis f.now s.l.tm) }
    else s.again
  | .blocking n =>
    if s.x.ip ∈ f.st.blocklist then { s with stage := .ended (.ok ()) none }
    else { s with stage := .blacking n }
  | .blacking n => { s with stage := .windowing n (decide (s.x.ip ∈ f.st.blacklist)) }
  | .windowing n blacked =>
    { s with
      l := { s.l with
        blacked := blacked
        tm := f.now
        highestS := if s.l.totalS / n > s.l.highestS then s.l.totalS / n else s.l.highestS
        elapsed := s.l.elapsed + n }
      stage := .reporting (s.l.totalS / n) }
  | .reporting _ => { s with l := { s.l with totalS := 0 }, stage := .checking }
  | .checking =>
    again { s with l :=
      if s.l.elapsed > f.st.params .downgradeStartCheck ∧ s.l.downgrade = false ∧
        s.l.total > s.l.elapsed * s.x.downgradeThreshold then { s.l with downgrade := true }
      else s.l }
  | .ended _ _ => s

/-- `relay` before its first operation. -/
def start (addr : SocketAddr) (stream peer : Stream) (id : String) (turns : ℕ) : Sess where
  x := ⟨addr.ip.toText, id, stream, peer, 0, 0, 0⟩
  n := turns
  l := ⟨0, 0, 0, 0, 0, false, false, 0⟩
  stage := .begun

/-- The operation that comes next. -/
def next? (s : Sess) : Option Op :=
  match s.stage with
  | .begun => some .now
  | .timed => some (.load .singleBandwidth)
  | .single => some (.load .limitSpeed)
  | .limited => some (.load .downgradeThreshold100)
  | .threshold => some .now
  | .waiting => some (.select s.x.stream s.x.peer)
  | .arrived _ _ => some .now
  | .limiting _ chunk _ =>
    some (.consume
      (if s.l.blacked || s.l.downgrade then .blacklist s.x.limitSpeed else .single s.x.speed)
      (chunk.bytes.length * 8))
  | .sharing _ chunk _ => some (.consume .total (chunk.bytes.length * 8))
  | .sending dst chunk => some (.sendRaw dst chunk)
  | .ticked => some .now
  | .accounting => some .now
  | .blocking _ => some (.blocked s.x.ip)
  | .blacking _ => some (.blacked s.x.ip)
  | .windowing _ _ => some .now
  | .reporting speed =>
    some (.usageInsert s.x.id (s.l.elapsed, s.l.total, s.l.highestS, speed))
  | .checking => some (.load .downgradeStartCheck)
  | .ended _ _ => none

/-! ### The code of a session -/

/-- What `relay` returned. -/
def Returned (s : Sess) (r : Except String Unit) : Prop := ∃ lost, s.stage = .ended r lost

/-- A program that does what the session does. -/
abbrev Runs (s : Sess) (p : Prog RelaySig (Except String Unit)) : Prop :=
  machine.Tracks next? step Find.input Returned s p

theorem step_ended (s : Sess) (f : Find) (h : s.next? = none) : s.step f = s := by
  obtain ⟨x, n, l, stage⟩ := s
  cases stage with
  | ended r lost => rfl
  | _ => cases h

/-- What comes after the accounting. -/
def afterAccount (x : Session) (n : ℕ) : Option Loop → Prog RelaySig (Except String Unit)
  | none => .ret (.ok ())
  | some l => relayLoop x n l

/-- What comes after a turn. -/
def afterTurn (x : Session) (n : ℕ) :
    Except String (Option Loop) → Prog RelaySig (Except String Unit)
  | .error err => .ret (.error err)
  | .ok none => .ret (.ok ())
  | .ok (some l) => account x l >>= afterAccount x n

theorem relayLoop_succ (x : Session) (n : ℕ) (l : Loop) :
    relayLoop x (n + 1) l = turn x l >>= afterTurn x n := by
  rw [relayLoop]
  refine congrArg (turn x l >>= ·) (funext ?_)
  rintro (err | _ | l)
  · rfl
  · rfl
  · refine congrArg (account x l >>= ·) (funext ?_)
    rintro (_ | l) <;> rfl

variable {x : Session} {n : ℕ}

/-- The accounting, once a second has passed. -/
def accountRest (x : Session) (l : Loop) (n : ℕ) : Prog RelaySig (Option Loop) :=
  .op (.blocked x.ip) fun blocked : Bool =>
    if blocked then .ret none
    else .op (.blacked x.ip) fun blacked : Bool => .op .now fun tm : Instant =>
      let speed := l.totalS / n
      let l := { l with
        blacked := blacked
        tm := tm
        highestS := if speed > l.highestS then speed else l.highestS
        elapsed := l.elapsed + n }
      .op (.usageInsert x.id (l.elapsed, l.total, l.highestS, speed)) fun _ =>
        .op (.load .downgradeStartCheck) fun startCheck : ℕ =>
          .ret (some (if l.elapsed > startCheck ∧ l.downgrade = false ∧
              l.total > l.elapsed * x.downgradeThreshold then
              { l with totalS := 0, downgrade := true }
            else { l with totalS := 0 }))

theorem account_eq (x : Session) (l : Loop) : account x l = .op .now fun now : Instant =>
    if 1000 ≤ elapsedMillis now l.tm then accountRest x l (elapsedMillis now l.tm)
    else .ret (some l) := rfl

theorem runs_ite {α : Type} {c : Prop} {_ : Decidable c} {s : Sess} {p q : Prog RelaySig α}
    {k : α → Prog RelaySig (Except String Unit)} (hp : c → Runs s (p >>= k))
    (hq : ¬c → Runs s (q >>= k)) : Runs s ((if c then p else q) >>= k) := by
  split
  · next h => exact hp h
  · next h => exact hq h

theorem runs_accountRest {m : ℕ}
    (hloop : ∀ l stage, Runs (again ⟨x, n, l, stage⟩) (relayLoop x n l)) (l : Loop) :
    Runs ⟨x, n, l, .blocking m⟩ (accountRest x l m >>= afterAccount x n) := by
  refine ⟨rfl, ?_⟩
  intro f
  refine runs_ite ?_ ?_
  · intro hb
    rw [show step ⟨x, n, l, .blocking m⟩ f = ⟨x, n, l, .ended (.ok ()) none⟩ from
      if_pos (of_decide_eq_true hb)]
    exact ⟨rfl, none, rfl⟩
  · intro hb
    rw [show step ⟨x, n, l, .blocking m⟩ f = ⟨x, n, l, .blacking m⟩ from
      if_neg fun h => hb (decide_eq_true h)]
    -- four more operations, and then the decision on the downgrade
    refine ⟨rfl, fun f₁ => ⟨rfl, fun f₂ => ⟨rfl, fun _ => ⟨rfl, ?_⟩⟩⟩⟩
    intro f₃
    exact hloop _ _

/-- The accounting. -/
theorem runs_account (hloop : ∀ l stage, Runs (again ⟨x, n, l, stage⟩) (relayLoop x n l))
    (l : Loop) : Runs ⟨x, n, l, .accounting⟩ (account x l >>= afterAccount x n) := by
  rw [account_eq]
  refine ⟨rfl, ?_⟩
  intro f
  refine runs_ite ?_ ?_
  · intro hn
    rw [show step ⟨x, n, l, .accounting⟩ f = ⟨x, n, l, .blocking (elapsedMillis f.now l.tm)⟩ from
      if_pos hn]
    exact runs_accountRest hloop l
  · intro hn
    rw [show step ⟨x, n, l, .accounting⟩ f = again ⟨x, n, l, .accounting⟩ from if_neg hn]
    exact hloop l _

/-- A chunk on its way. -/
theorem runs_forward (hloop : ∀ l stage, Runs (again ⟨x, n, l, stage⟩) (relayLoop x n l))
    (l : Loop) (dst : Stream) (chunk : Chunk) :
    Runs ⟨x, n, l, .arrived dst chunk⟩
      (forward x l dst chunk >>= fun r => afterTurn x n (r.map some)) := by
  refine ⟨rfl, fun f => ⟨rfl, fun _ => ⟨rfl, ?_⟩⟩⟩
  intro _
  refine runs_ite ?_ ?_
  · intro hempty
    have hstage : (if chunk.bytes = [] then Stage.accounting else .sending dst chunk) =
      .accounting := if_pos hempty
    simp only [step, hstage]
    exact runs_account hloop _
  · intro hne
    have hstage : (if chunk.bytes = [] then Stage.accounting else .sending dst chunk) =
      .sending dst chunk := if_neg hne
    simp only [step, hstage]
    refine ⟨rfl, ?_⟩
    intro f'
    cases hfail : f'.sendFails with
    | some err =>
      simp only [step, Find.input, machine_exec, Op.act, hfail]
      exact ⟨rfl, _, rfl⟩
    | none =>
      simp only [step, Find.input, machine_exec, Op.act, hfail]
      exact runs_account hloop _

/-- A turn. -/
theorem runs_turn (hloop : ∀ l stage, Runs (again ⟨x, n, l, stage⟩) (relayLoop x n l)) (l : Loop) :
    Runs ⟨x, n, l, .waiting⟩ (turn x l >>= afterTurn x n) := by
  refine ⟨rfl, ?_⟩
  intro f
  cases hin : f.arrival.input with
  | peer res =>
    cases res with
    | some bytes =>
      simp only [step, Find.input, machine_exec, Op.act, hin, Option.map_some]
      exact (congrArg (Runs _) (Prog.bind_assoc _ _ _)).mpr
        (runs_forward hloop l x.stream ⟨x.peer.conn, bytes⟩)
    | none =>
      simp only [step, Find.input, machine_exec, Op.act, hin, Option.map_none]
      exact ⟨rfl, _, rfl⟩
  | stream res =>
    cases res with
    | some bytes =>
      simp only [step, Find.input, machine_exec, Op.act, hin, Option.map_some]
      exact (congrArg (Runs _) (Prog.bind_assoc _ _ _)).mpr
        (runs_forward hloop l x.peer ⟨x.stream.conn, bytes⟩)
    | none =>
      simp only [step, Find.input, machine_exec, Op.act, hin, Option.map_none]
      exact ⟨rfl, _, rfl⟩
  | tick =>
    simp only [step, Find.input, machine_exec, Op.act, hin]
    refine ⟨rfl, ?_⟩
    intro f'
    refine runs_ite ?_ ?_
    · intro hlate
      rw [show step ⟨x, n, l, .ticked⟩ f' = ⟨x, n, l, .ended (.error "Timeout") none⟩ from
        if_pos hlate]
      exact ⟨rfl, _, rfl⟩
    · intro hlate
      rw [show step ⟨x, n, l, .ticked⟩ f' = ⟨x, n, l, .accounting⟩ from if_neg hlate]
      exact runs_account hloop l

theorem runs_loop (x : Session) (n : ℕ) (l : Loop) (stage : Stage) :
    Runs (again ⟨x, n, l, stage⟩) (relayLoop x n l) := by
  induction n generalizing l stage with
  | zero => exact ⟨rfl, _, rfl⟩
  | succ n ih =>
    rw [relayLoop_succ]
    exact runs_turn ih l

/-- **The code of a session is the session**: at every moment, whatever it found so far, what
is left of `relay` does what the session does. -/
theorem relay_feed (addr : SocketAddr) (stream peer : Stream) (id : String) (turns : ℕ)
    (l : List Find) :
    Runs (l.foldl step (start addr stream peer id turns))
      (machine.feed (relay addr stream peer id turns) (l.map Find.input)) := by
  refine Machine.Tracks.feed step_ended ?_ l
  exact ⟨rfl, fun _ => ⟨rfl, fun _ => ⟨rfl, fun _ => ⟨rfl, fun _ => ⟨rfl, fun _ =>
    runs_loop _ _ _ _⟩⟩⟩⟩⟩

end Sess

/-! ### Messages -/

/-- An operation with its answer. -/
abbrev Done := (o : Op) × o.Res

/-- The two ends of a session. -/
inductive Side
  /-- The own stream. -/
  | stream
  /-- The peer. -/
  | peer
  deriving DecidableEq

/-- The message that an operation read, and from which end. -/
def Done.received : Done → Option (Side × Bytes)
  | ⟨.select _ _, .peer (some chunk)⟩ => some (.peer, chunk.bytes)
  | ⟨.select _ _, .stream (some chunk)⟩ => some (.stream, chunk.bytes)
  | _ => none

/-- The message that an operation sent, and where. -/
def Done.sent : Done → Option (Stream × Bytes)
  | ⟨.sendRaw dst chunk, none⟩ => some (dst, chunk.bytes)
  | _ => none

/-- The message, if it is of this kind. -/
def messageOf {κ : Type} [DecidableEq κ] (k : κ) : Option (κ × Bytes) → List Bytes
  | some (k', bytes) => if k' = k then [bytes] else []
  | none => []

/-- The non-empty messages received from an end, in order. -/
def receivedOf (side : Side) (tr : List Done) : List Bytes :=
  (tr.flatMap fun d => messageOf side d.received).filter (· ≠ [])

/-- The messages sent to a stream, in order. -/
def sentOf (dst : Stream) (tr : List Done) : List Bytes :=
  tr.flatMap fun d => messageOf dst d.sent

/-- How many bytes an operation read. -/
def Done.bytes (d : Done) : ℕ := (d.received.map fun m => m.2.length).getD 0

/-- The bytes received from both ends. -/
def bytesOf (tr : List Done) : ℕ := (tr.map Done.bytes).sum

/-- The operation reports the usage. -/
def Done.reports : Done → Bool
  | ⟨.usageInsert _ _, _⟩ => true
  | _ => false

/-- The bytes received from both ends since the usage was last reported. -/
def sinceReport (tr : List Done) : ℕ :=
  tr.foldl (fun n d => if d.reports then 0 else n + d.bytes) 0

/-- Where the messages from an end go. -/
def Session.other (x : Session) : Side → Stream
  | .peer => x.stream
  | .stream => x.peer

namespace Sess

/-- The message on its way, and where to. -/
def pending (s : Sess) : Option (Stream × Bytes) :=
  match s.stage with
  | .arrived dst chunk | .limiting dst chunk _ | .sharing dst chunk _ =>
    if chunk.bytes = [] then none else some (dst, chunk.bytes)
  | .sending dst chunk => some (dst, chunk.bytes)
  | .ended _ lost => lost.map fun p => (p.1, p.2.bytes)
  | _ => none

/-- The bytes that were read and are not counted yet: their message waits for the limiters. -/
def uncounted (s : Sess) : ℕ :=
  match s.stage with
  | .arrived _ chunk | .limiting _ chunk _ | .sharing _ chunk _ => chunk.bytes.length
  | _ => 0

/-- The operation that a session performs on a find, with its answer. -/
def done (s : Sess) (f : Find) : List Done :=
  (s.next?.map fun o => (⟨o, (machine.exec f.input.1 o f.input.2).2⟩ : Done)).toList

@[simp] theorem again_pending (s : Sess) : s.again.pending = none := by
  unfold again
  split <;> rfl

@[simp] theorem again_uncounted (s : Sess) : s.again.uncounted = 0 := by
  unfold again
  split <;> rfl

@[simp] theorem again_l (s : Sess) : s.again.l = s.l := by
  unfold again
  split <;> rfl

@[simp] theorem again_x (s : Sess) : s.again.x = s.x := by
  unfold again
  split <;> rfl

/-- The two streams stay. -/
theorem step_streams (s : Sess) (f : Find) :
    (s.step f).x.stream = s.x.stream ∧ (s.step f).x.peer = s.x.peer := by
  obtain ⟨x, n, l, stage⟩ := s
  cases stage <;> simp only [step] <;> (try split) <;> simp

/-- What one operation does to the message on its way, and to the totals. -/
inductive Effect (s t : Sess) : List Done → Prop
  /-- A message is read. -/
  | read {d : Done} {side : Side} {bytes : Bytes} (hd : d.received = some (side, bytes))
      (hsent : d.sent = none) (hreports : d.reports = false) (hs : s.pending = none)
      (ht : t.pending = if bytes = [] then none else some (s.x.other side, bytes))
      (hcount : s.uncounted = 0) (hcount' : t.uncounted = bytes.length) (hl : t.l = s.l) :
      Effect s t [d]
  /-- The message is counted. -/
  | counted {d : Done} (hd : d.received = none) (hsent : d.sent = none)
      (hreports : d.reports = false) (hpending : t.pending = s.pending) (hcount : t.uncounted = 0)
      (htotal : t.l.total = s.l.total + s.uncounted * 8)
      (htotalS : t.l.totalS = s.l.totalS + s.uncounted * 8)
      (hdown : t.l.downgrade = s.l.downgrade) : Effect s t [d]
  /-- The message is sent. -/
  | sent {d : Done} {dst : Stream} {bytes : Bytes} (hd : d.received = none)
      (hsent : d.sent = some (dst, bytes)) (hreports : d.reports = false)
      (hs : s.pending = some (dst, bytes)) (ht : t.pending = none) (hcount : s.uncounted = 0)
      (hcount' : t.uncounted = 0) (hl : t.l = s.l) : Effect s t [d]
  /-- The usage is reported. -/
  | reported {d : Done} (hd : d.received = none) (hsent : d.sent = none)
      (hreports : d.reports = true) (hpending : t.pending = s.pending) (hcount : s.uncounted = 0)
      (hcount' : t.uncounted = 0) (hl : t.l = { s.l with totalS := 0 }) : Effect s t [d]
  /-- Anything else. -/
  | quiet {ds : List Done}
      (hds : ∀ d ∈ ds, d.received = none ∧ d.sent = none ∧ d.reports = false)
      (hpending : t.pending = s.pending) (hcount : t.uncounted = s.uncounted)
      (htotal : t.l.total = s.l.total) (htotalS : t.l.totalS = s.l.totalS)
      (hdown : s.l.downgrade = true → t.l.downgrade = true) : Effect s t ds

/-- **What one operation does.** -/
theorem step_effect (s : Sess) (f : Find) : s.Effect (s.step f) (s.done f) := by
  obtain ⟨x, n, l, stage⟩ := s
  -- an operation that reads, sends and reports nothing
  have hquiet : ∀ o : Op, (∀ r, Done.received ⟨o, r⟩ = none) → (∀ r, Done.sent ⟨o, r⟩ = none) →
      (∀ r, Done.reports ⟨o, r⟩ = false) →
      next? ⟨x, n, l, stage⟩ = some o → ∀ d ∈ done ⟨x, n, l, stage⟩ f,
        d.received = none ∧ d.sent = none ∧ d.reports = false := by
    intro o hr hs hp ho d hd
    rw [done, ho] at hd
    simp only [Option.map_some, Option.toList_some, List.mem_singleton] at hd
    rw [hd]
    exact ⟨hr _, hs _, hp _⟩
  have hone : ∀ {d : Done}, d.received = none → d.sent = none → d.reports = false →
      ∀ d' ∈ [d], d'.received = none ∧ d'.sent = none ∧ d'.reports = false := by
    intro d h₁ h₂ h₃ d' hd'
    rw [List.mem_singleton] at hd'
    rw [hd']
    exact ⟨h₁, h₂, h₃⟩
  cases stage with
  | waiting =>
    cases hin : f.arrival.input with
    | peer res =>
      cases res with
      | some bytes =>
        have hdone : done ⟨x, n, l, .waiting⟩ f =
            [⟨.select x.stream x.peer, .peer (some ⟨x.peer.conn, bytes⟩)⟩] := by
          simp only [done, next?, Find.input, machine_exec, Op.act, hin, Option.map_some]
          rfl
        have hstep : step ⟨x, n, l, .waiting⟩ f =
            ⟨x, n, l, .arrived x.stream ⟨x.peer.conn, bytes⟩⟩ := by simp only [step, hin]
        rw [hdone, hstep]
        exact .read rfl rfl rfl rfl rfl rfl rfl rfl
      | none =>
        have hdone : done ⟨x, n, l, .waiting⟩ f = [⟨.select x.stream x.peer, .peer none⟩] := by
          simp only [done, next?, Find.input, machine_exec, Op.act, hin, Option.map_none]
          rfl
        have hstep : step ⟨x, n, l, .waiting⟩ f = ⟨x, n, l, .ended (.ok ()) none⟩ := by
          simp only [step, hin]
        rw [hdone, hstep]
        exact .quiet (hone rfl rfl rfl) rfl rfl rfl rfl id
    | stream res =>
      cases res with
      | some bytes =>
        have hdone : done ⟨x, n, l, .waiting⟩ f =
            [⟨.select x.stream x.peer, .stream (some ⟨x.stream.conn, bytes⟩)⟩] := by
          simp only [done, next?, Find.input, machine_exec, Op.act, hin, Option.map_some]
          rfl
        have hstep : step ⟨x, n, l, .waiting⟩ f =
            ⟨x, n, l, .arrived x.peer ⟨x.stream.conn, bytes⟩⟩ := by simp only [step, hin]
        rw [hdone, hstep]
        exact .read rfl rfl rfl rfl rfl rfl rfl rfl
      | none =>
        have hdone : done ⟨x, n, l, .waiting⟩ f = [⟨.select x.stream x.peer, .stream none⟩] := by
          simp only [done, next?, Find.input, machine_exec, Op.act, hin, Option.map_none]
          rfl
        have hstep : step ⟨x, n, l, .waiting⟩ f = ⟨x, n, l, .ended (.ok ()) none⟩ := by
          simp only [step, hin]
        rw [hdone, hstep]
        exact .quiet (hone rfl rfl rfl) rfl rfl rfl rfl id
    | tick =>
      have hdone : done ⟨x, n, l, .waiting⟩ f = [⟨.select x.stream x.peer, .tick⟩] := by
        simp only [done, next?, Find.input, machine_exec, Op.act, hin, Option.map_some]
        rfl
      have hstep : step ⟨x, n, l, .waiting⟩ f = ⟨x, n, l, .ticked⟩ := by simp only [step, hin]
      rw [hdone, hstep]
      exact .quiet (hone rfl rfl rfl) rfl rfl rfl rfl id
  | sharing dst chunk now =>
    by_cases hempty : chunk.bytes = []
    · have hstep : (step ⟨x, n, l, .sharing dst chunk now⟩ f).stage = .accounting := if_pos hempty
      refine .counted rfl rfl rfl ?_ ?_ rfl rfl rfl
      · simp only [pending, hstep, if_pos hempty]
      · simp only [uncounted, hstep]
    · have hstep : (step ⟨x, n, l, .sharing dst chunk now⟩ f).stage = .sending dst chunk :=
        if_neg hempty
      refine .counted rfl rfl rfl ?_ ?_ rfl rfl rfl
      · simp only [pending, hstep, if_neg hempty]
      · simp only [uncounted, hstep]
  | sending dst chunk =>
    cases hfail : f.sendFails with
    | some err =>
      have hdone : done ⟨x, n, l, .sending dst chunk⟩ f = [⟨.sendRaw dst chunk, some err⟩] := by
        simp only [done, next?, Find.input, machine_exec, Op.act, hfail, Option.map_some]
        rfl
      have hstep : step ⟨x, n, l, .sending dst chunk⟩ f =
          ⟨x, n, l, .ended (.error err) (some (dst, chunk))⟩ := by simp only [step, hfail]
      rw [hdone, hstep]
      exact .quiet (hone rfl rfl rfl) rfl rfl rfl rfl id
    | none =>
      have hdone : done ⟨x, n, l, .sending dst chunk⟩ f = [⟨.sendRaw dst chunk, none⟩] := by
        simp only [done, next?, Find.input, machine_exec, Op.act, hfail, Option.map_some]
        rfl
      have hstep : step ⟨x, n, l, .sending dst chunk⟩ f = ⟨x, n, l, .accounting⟩ := by
        simp only [step, hfail]
      rw [hdone, hstep]
      exact .sent rfl rfl rfl rfl rfl rfl rfl rfl
  | reporting speed => exact .reported rfl rfl rfl rfl rfl rfl rfl
  | ended r lost => exact .quiet (fun d hd => by cases hd) rfl rfl rfl rfl id
  | threshold =>
    exact .quiet (hquiet _ (fun _ => rfl) (fun _ => rfl) (fun _ => rfl) rfl) (again_pending _)
      (again_uncounted _) (by simp [step]) (by simp [step]) (by simp [step])
  | checking =>
    refine .quiet (hquiet _ (fun _ => rfl) (fun _ => rfl) (fun _ => rfl) rfl) (again_pending _)
      (again_uncounted _) ?_ ?_ ?_
    · simp only [step, again_l]
      split <;> rfl
    · simp only [step, again_l]
      split <;> rfl
    · simp only [step, again_l]
      split
      · exact fun _ => rfl
      · exact id
  | ticked =>
    refine .quiet (hquiet _ (fun _ => rfl) (fun _ => rfl) (fun _ => rfl) rfl) ?_ ?_ ?_ ?_ ?_
    all_goals
      simp only [step]
      split <;> first | rfl | exact id
  | accounting =>
    have hds := hquiet _ (fun _ => rfl) (fun _ => rfl) (fun _ => rfl) rfl
    by_cases hn : 1000 ≤ elapsedMillis f.now l.tm
    · rw [show step ⟨x, n, l, .accounting⟩ f =
        ⟨x, n, l, .blocking (elapsedMillis f.now l.tm)⟩ from if_pos hn]
      exact .quiet hds rfl rfl rfl rfl id
    · rw [show step ⟨x, n, l, .accounting⟩ f = again ⟨x, n, l, .accounting⟩ from if_neg hn]
      refine .quiet hds (again_pending _) (again_uncounted _) ?_ ?_ ?_
      all_goals rw [again_l]
      exact id
  | blocking m =>
    refine .quiet (hquiet _ (fun _ => rfl) (fun _ => rfl) (fun _ => rfl) rfl) ?_ ?_ ?_ ?_ ?_
    all_goals
      simp only [step]
      split <;> first | rfl | exact id
  | _ => exact .quiet (hquiet _ (fun _ => rfl) (fun _ => rfl) (fun _ => rfl) rfl) rfl rfl rfl rfl id

/-! ### Runs -/

/-- **Conservation**: what was on its way and what is read is what is sent and what is on its
way afterwards. -/
theorem Effect.conserves {s t : Sess} {ds : List Done} (h : s.Effect t ds)
    (hne : s.x.stream ≠ s.x.peer) (side : Side) :
    messageOf (s.x.other side) s.pending ++ receivedOf side ds =
      sentOf (s.x.other side) ds ++ messageOf (s.x.other side) t.pending := by
  cases h with
  | @read d side' bytes hd hsent _ hs ht _ _ _ =>
    have hother : s.x.other side' = s.x.other side ↔ side' = side := by
      cases side <;> cases side' <;> simp [Session.other, hne, Ne.symm hne]
    by_cases hempty : bytes = []
    · simp [receivedOf, sentOf, messageOf, hd, hsent, hs, ht, hempty]
    · by_cases hside : side' = side
      · simp [receivedOf, sentOf, messageOf, hd, hsent, hs, ht, hempty, hside]
      · simp [receivedOf, sentOf, messageOf, hd, hsent, hs, ht, hempty, hside, hother]
  | counted hd hsent _ hpending _ _ _ _ =>
    simp [receivedOf, sentOf, messageOf, hd, hsent, hpending]
  | sent hd hsent _ hs ht _ _ _ => simp [receivedOf, sentOf, messageOf, hd, hsent, hs, ht]
  | reported hd hsent _ hpending _ _ _ =>
    simp [receivedOf, sentOf, messageOf, hd, hsent, hpending]
  | quiet hds hpending _ _ _ _ =>
    have hrec : receivedOf side ds = [] := by
      rw [receivedOf, List.flatMap_eq_nil_iff.mpr, List.filter_nil]
      intro d hd
      rw [(hds d hd).1]
      rfl
    have hsent : sentOf (s.x.other side) ds = [] := by
      rw [sentOf, List.flatMap_eq_nil_iff]
      intro d hd
      rw [(hds d hd).2.1]
      rfl
    rw [hrec, hsent, hpending, List.append_nil, List.nil_append]

theorem bytesOf_quiet {ds : List Done} (h : ∀ d ∈ ds, d.received = none) : bytesOf ds = 0 := by
  induction ds with
  | nil => rfl
  | cons d ds ih =>
    have hrest := ih fun d' hd' => h d' (List.mem_cons_of_mem _ hd')
    simpa [bytesOf, Done.bytes, h d List.mem_cons_self] using hrest

theorem sinceReport_quiet {ds : List Done} (h : ∀ d ∈ ds, d.received = none ∧ d.reports = false)
    (tr : List Done) : sinceReport (tr ++ ds) = sinceReport tr := by
  induction ds generalizing tr with
  | nil => rw [List.append_nil]
  | cons d ds ih =>
    obtain ⟨hd, hr⟩ := h d List.mem_cons_self
    rw [List.append_cons, ih fun d' hd' => h d' (List.mem_cons_of_mem _ hd')]
    simp [sinceReport, Done.bytes, hd, hr]

/-- The bits that were counted, and those that wait to be. -/
theorem Effect.totals {s t : Sess} {ds : List Done} (h : s.Effect t ds) (tr : List Done)
    (htotal : s.l.total + s.uncounted * 8 = bytesOf tr * 8)
    (htotalS : s.l.totalS + s.uncounted * 8 = sinceReport tr * 8) :
    t.l.total + t.uncounted * 8 = bytesOf (tr ++ ds) * 8 ∧
      t.l.totalS + t.uncounted * 8 = sinceReport (tr ++ ds) * 8 := by
  have happend : bytesOf (tr ++ ds) = bytesOf tr + bytesOf ds := by simp [bytesOf]
  rw [happend]
  cases h with
  | @read d side bytes hd _ hreports _ _ hcount hcount' hl =>
    have hbytes : d.bytes = bytes.length := by simp [Done.bytes, hd]
    have hsum : bytesOf [d] = bytes.length := by simp [bytesOf, hbytes]
    have hsince : sinceReport (tr ++ [d]) = sinceReport tr + bytes.length := by
      simp [sinceReport, hreports, hbytes]
    rw [hsum, hsince, hl, hcount']
    omega
  | counted hd _ hreports _ hcount ht hts _ =>
    have hnone : bytesOf [_] = 0 := bytesOf_quiet (by simpa using hd)
    rw [hnone, sinceReport_quiet (by simp [hd, hreports]), hcount, ht, hts]
    omega
  | sent hd _ hreports _ _ hcount hcount' hl =>
    have hnone : bytesOf [_] = 0 := bytesOf_quiet (by simpa using hd)
    rw [hnone, sinceReport_quiet (by simp [hd, hreports]), hcount', hl]
    omega
  | @reported d hd _ hreports _ hcount hcount' hl =>
    have hsince : sinceReport (tr ++ [d]) = 0 := by simp [sinceReport, hreports]
    have hnone : bytesOf [d] = 0 := bytesOf_quiet (by simpa using hd)
    rw [hnone, hsince, hcount', hl]
    refine ⟨?_, rfl⟩
    simp only
    omega
  | quiet hds _ hcount ht hts _ =>
    rw [bytesOf_quiet fun d hd => (hds d hd).1,
      sinceReport_quiet fun d hd => ⟨(hds d hd).1, (hds d hd).2.2⟩, hcount, ht, hts]
    omega

/-- A downgrade lasts. -/
theorem Effect.downgrade {s t : Sess} {ds : List Done} (h : s.Effect t ds)
    (hs : s.l.downgrade = true) : t.l.downgrade = true := by
  cases h with
  | read _ _ _ _ _ _ _ hl => rw [hl, hs]
  | counted _ _ _ _ _ _ _ hdown => rw [hdown, hs]
  | sent _ _ _ _ _ _ _ hl => rw [hl, hs]
  | reported _ _ _ _ _ _ hl => rw [hl, hs]
  | quiet _ _ _ _ _ hdown => exact hdown hs

theorem downgrade_run {s : Sess} (hs : s.l.downgrade = true) (l : List Find) :
    (l.foldl step s).l.downgrade = true := by
  induction l generalizing s with
  | nil => exact hs
  | cons f l ih => exact ih ((step_effect s f).downgrade hs)

/-- What holds at every moment of a session. -/
structure Carried (stream peer : Stream) (s : Sess) (tr : List Done) : Prop where
  /-- It is between these streams. -/
  streams : s.x.stream = stream ∧ s.x.peer = peer
  /-- Its messages. -/
  messages : ∀ side, receivedOf side tr =
    sentOf (s.x.other side) tr ++ messageOf (s.x.other side) s.pending
  /-- The bits of the session. -/
  total : s.l.total + s.uncounted * 8 = bytesOf tr * 8
  /-- The bits since the last report. -/
  totalS : s.l.totalS + s.uncounted * 8 = sinceReport tr * 8

theorem Carried.step {stream peer : Stream} (hne : stream ≠ peer) {s : Sess} {tr : List Done}
    (h : Carried stream peer s tr) (f : Find) :
    Carried stream peer (s.step f) (tr ++ s.done f) := by
  have heff := step_effect s f
  obtain ⟨hstream, hpeer⟩ := h.streams
  obtain ⟨hstream', hpeer'⟩ := step_streams s f
  have hother : ∀ side, (s.step f).x.other side = s.x.other side := by
    intro side
    cases side with
    | stream => exact hpeer'
    | peer => exact hstream'
  obtain ⟨htotal, htotalS⟩ := heff.totals tr h.total h.totalS
  refine ⟨⟨hstream'.trans hstream, hpeer'.trans hpeer⟩, ?_, htotal, htotalS⟩
  intro side
  have hcons := heff.conserves (by rw [hstream, hpeer]; exact hne) side
  have happend : receivedOf side (tr ++ s.done f) =
      receivedOf side tr ++ receivedOf side (s.done f) := by simp [receivedOf]
  have hsent : sentOf (s.x.other side) (tr ++ s.done f) =
      sentOf (s.x.other side) tr ++ sentOf (s.x.other side) (s.done f) := by simp [sentOf]
  rw [hother, happend, hsent, h.messages side, List.append_assoc, hcons, List.append_assoc]

/-- At every moment of `relay`. -/
theorem carried_run (addr : SocketAddr) {stream peer : Stream} (hne : stream ≠ peer) (id : String)
    (turns : ℕ) (l : List Find) :
    Carried stream peer (l.foldl step (start addr stream peer id turns))
      (machine.trace (relay addr stream peer id turns) (l.map Find.input)) := by
  -- one find more at the end
  induction l using List.reverseRecOn with
  | nil => exact ⟨⟨rfl, rfl⟩, fun side => by cases side <;> rfl, rfl, rfl⟩
  | append_singleton l f ih =>
    have hdoes := (relay_feed addr stream peer id turns l).does_eq f
    rw [List.foldl_append, List.map_append, List.map_singleton, Machine.trace_concat, hdoes]
    exact ih.step hne f

end Sess

/-- **A session carries its messages**: whatever arrives at its streams, whatever the other
tasks do in between and wherever it is, the non-empty messages received from one end are
those sent to the other, in order, but for at most one message on its way; the totals are
eight times the bytes received from both ends, in the session and since its last report, but
for a message that waits for the limiters; and a downgrade lasts. -/
theorem relay_lossless (addr : SocketAddr) {stream peer : Stream} (hne : stream ≠ peer)
    (id : String) (turns : ℕ) (l : List Find) :
    let s := l.foldl Sess.step (Sess.start addr stream peer id turns)
    let tr := machine.trace (relay addr stream peer id turns) (l.map Find.input)
    s.Runs (machine.feed (relay addr stream peer id turns) (l.map Find.input)) ∧
      (receivedOf .peer tr = sentOf stream tr ++ messageOf stream s.pending ∧
        receivedOf .stream tr = sentOf peer tr ++ messageOf peer s.pending) ∧
      (s.l.total + s.uncounted * 8 = bytesOf tr * 8 ∧
        s.l.totalS + s.uncounted * 8 = sinceReport tr * 8) ∧
      ∀ l₁ l₂, l = l₁ ++ l₂ →
        (l₁.foldl Sess.step (Sess.start addr stream peer id turns)).l.downgrade = true →
        s.l.downgrade = true := by
  intro s tr
  have h := Sess.carried_run addr hne id turns l
  obtain ⟨hstream, hpeer⟩ := h.streams
  refine ⟨Sess.relay_feed addr stream peer id turns l, ⟨?_, ?_⟩, ⟨h.total, h.totalS⟩, ?_⟩
  · have hmsg := h.messages .peer
    simp only [Session.other, hstream] at hmsg
    exact hmsg
  · have hmsg := h.messages .stream
    simp only [Session.other, hpeer] at hmsg
    exact hmsg
  · rintro l₁ l₂ rfl hdown
    have hs : s = l₂.foldl Sess.step
        (l₁.foldl Sess.step (Sess.start addr stream peer id turns)) := List.foldl_append
    rw [hs]
    exact Sess.downgrade_run hdown l₂

/-- A session in which the peer sends a text and three bytes over its websocket. -/
def sampleFinds : List Find :=
  let f (w : Wire) : Find := ⟨0, .peer w, none, .blank⟩
  List.replicate 5 (f .ended) ++ f (.message (.text "hi")) :: List.replicate 4 (f .ended) ++
    f (.message (.binary [7, 8, 9])) :: List.replicate 3 (f .ended)

theorem relay_lossless_sample :
    let tr := machine.trace (relay ⟨.ofOctets 192 0 2 7, 21117⟩ ⟨1, false, false⟩ ⟨0, true, false⟩
      "id" 3) (sampleFinds.map Find.input)
    receivedOf .peer tr = [[7, 8, 9]] ∧ receivedOf .peer tr = sentOf ⟨1, false, false⟩ tr ++
      messageOf ⟨1, false, false⟩ (sampleFinds.foldl Sess.step (Sess.start
        ⟨.ofOctets 192 0 2 7, 21117⟩ ⟨1, false, false⟩ ⟨0, true, false⟩ "id" 3)).pending := by
  intro tr
  refine ⟨by decide, ?_⟩
  exact (relay_lossless _ (by decide) "id" 3 sampleFinds).2.1.1

end Hbbr

end RustdeskServer
