import RustdeskServer.Atomic.Trace
import RustdeskServer.Message

/-!
# The idle timer of a websocket

The loop of a websocket waits for whichever comes first: a message that another task
pushed into its channel, something from the client, or the end of a time-out.  The
time-out belongs to one wait and starts anew with the next, and only when it ends is the
client's silence looked at.  A client that vanished keeps its socket as long as others
push often enough.

Timers end exactly when they are due and handlers take no time, so an event is handled no
later than the time-out of the wait it ends.  What is ready at the moment the time-out is
due may be handled before it or after it, as `tokio::select!` has it.

## Main definitions

* `WsLoop`, `WsEvent`, `WsLoop.step` — the loop, what it handles, and the loop after that.
* `WsLoop.Next` — what can be handled next, and when.
* `WsLoop.Prompt` — an event is handled soon enough after the last inbound frame.
* `WsLoop.PushInTime` — it is not a push that comes after the idle time.

## Main results

* `WsLoop.silent_closed_iff` — **a silent websocket is closed in time exactly when no
  message is pushed to it after the idle time.**
-/

namespace RustdeskServer

open Atomic

/-- `WS_PING_INTERVAL_MS`. -/
def WS_PING_INTERVAL_MS : ℕ := 30000

/-- What the loop writes to its socket. -/
inductive WsOut
  /-- A pushed message. -/
  | message (msg : Msg)
  /-- A ping. -/
  | ping

/-- What a wait ends with.  The channel itself does not end, since the loop holds one of its
senders. -/
inductive WsEvent
  /-- `rx_ws.recv()`: another task pushed a message. -/
  | push (msg : Msg)
  /-- A binary frame, and what `handle_tcp` answers to it. -/
  | binary (frame : Option Msg) (stays : Bool)
  /-- Any other frame; a pong is one. -/
  | other
  /-- The client closed, or the stream broke. -/
  | broken
  /-- The time-out. -/
  | timer

/-- The event is the time-out. -/
def WsEvent.isTimer : WsEvent → Bool
  | .timer => true
  | _ => false

/-- The loop of a websocket between two events, in milliseconds. -/
structure WsLoop where
  /-- `idle_timeout_ms`. -/
  idleTimeoutMs : ℕ
  /-- `last_seen`. -/
  lastSeen : ℕ
  /-- Since when it waits, which is when it handled the last event. -/
  since : ℕ
  /-- It has not ended. -/
  isOpen : Bool
  /-- What it wrote, newest first. -/
  written : List WsOut

namespace WsLoop

/-- `poll_ms`. -/
def pollMs (s : WsLoop) : ℕ := min WS_PING_INTERVAL_MS s.idleTimeoutMs

/-- The loop before its first wait. -/
def start (idleTimeoutMs now : ℕ) : WsLoop := ⟨idleTimeoutMs, now, now, true, []⟩

/-- The loop after an event at the time `x.1`. -/
def step (s : WsLoop) (x : ℕ × WsEvent) : WsLoop :=
  match x.2 with
  | .push msg => { s with since := x.1, written := .message msg :: s.written }
  | .binary _ stays => { s with since := x.1, lastSeen := x.1, isOpen := stays }
  | .other => { s with since := x.1, lastSeen := x.1 }
  | .broken => { s with since := x.1, isOpen := false }
  | .timer =>
    if x.1 - s.lastSeen ≥ s.idleTimeoutMs then { s with since := x.1, isOpen := false }
    else { s with since := x.1, written := .ping :: s.written }

/-- When the time-out of this wait is due. -/
def due (s : WsLoop) : ℕ := s.since + s.pollMs

/-- The wait of an open loop can end so: the time-out ends when it is due, and nothing ends a
wait after that. -/
def Next (s : WsLoop) (x : ℕ × WsEvent) : Prop :=
  s.isOpen = true ∧ s.since ≤ x.1 ∧ x.1 ≤ s.due ∧ (x.2.isTimer = true → x.1 = s.due)

instance (s : WsLoop) (x : ℕ × WsEvent) : Decidable (s.Next x) :=
  inferInstanceAs (Decidable (_ ∧ _ ∧ _ ∧ _))

/-- The event is handled no more than `idle + poll` after the last inbound frame. -/
def Prompt (s : WsLoop) (x : ℕ × WsEvent) : Prop :=
  x.1 ≤ s.lastSeen + (s.idleTimeoutMs + s.pollMs)

instance (s : WsLoop) (x : ℕ × WsEvent) : Decidable (s.Prompt x) :=
  inferInstanceAs (Decidable (_ ≤ _))

/-- The event is not a push that comes more than the idle time after the last inbound frame. -/
def PushInTime (s : WsLoop) (x : ℕ × WsEvent) : Prop :=
  match x.2 with
  | .push _ => x.1 ≤ s.lastSeen + s.idleTimeoutMs
  | _ => True

/-- The last event of an open loop was handled before the idle time was over. -/
def Fresh (s : WsLoop) : Prop := s.isOpen = true → s.since ≤ s.lastSeen + s.idleTimeoutMs

variable {s : WsLoop} {x : ℕ × WsEvent}

/-- From a fresh loop every event is handled promptly. -/
theorem Fresh.prompt (hs : s.Fresh) (hx : s.Next x) : s.Prompt x := by
  obtain ⟨hopen, -, hdue, -⟩ := hx
  have hsince := hs hopen
  unfold due at hdue
  unfold Prompt
  omega

/-- **One event**: a frame makes the loop fresh, a time-out ends it or finds it fresh, and a
push leaves it fresh if it comes in time. -/
theorem Fresh.step (hx : s.PushInTime x) : (s.step x).Fresh := by
  obtain ⟨t, ev⟩ := x
  cases ev with
  | push msg => exact fun _ => hx
  | binary frame stays => exact fun _ => Nat.le_add_right _ _
  | other => exact fun _ => Nat.le_add_right _ _
  | broken => exact fun h => by cases h
  | timer =>
    unfold Fresh WsLoop.step
    dsimp only
    split
    · exact fun h => by cases h
    · next hidle =>
      intro _
      dsimp only
      omega

/-- After a push that comes too late, the time-out is handled too late. -/
theorem not_prompt_of_late_push {t : ℕ} {msg : Msg} (hx : s.Next (t, .push msg))
    (hlate : ¬s.PushInTime (t, .push msg)) :
    (s.step (t, .push msg)).Next ((s.step (t, .push msg)).due, .timer) ∧
      ¬(s.step (t, .push msg)).Prompt ((s.step (t, .push msg)).due, .timer) := by
  have hlt : ¬t ≤ s.lastSeen + s.idleTimeoutMs := hlate
  refine ⟨⟨hx.1, ?_, Nat.le_refl _, fun _ => rfl⟩, ?_⟩
  · exact Nat.le_add_right _ _
  · unfold Prompt due
    simp only [WsLoop.step]
    omega

/-! ### Runs -/

theorem fresh_start (idleTimeoutMs now : ℕ) : (start idleTimeoutMs now).Fresh :=
  fun _ => Nat.le_add_right _ _

/-- Every moment of a run without late pushes is fresh. -/
theorem fresh_run {l₁ l₂ : List (ℕ × WsEvent)} (hs : s.Fresh)
    (hl : Always step PushInTime s (l₁ ++ l₂)) : (l₁.foldl step s).Fresh :=
  Always.foldl (I := Fresh) (fun _ _ _ hx => Fresh.step hx) hs (always_append.mp hl).1

/-- **A silent websocket is closed in time exactly when nothing is pushed to it after the idle
time.**  In every run of the loop, whatever the clients and the other tasks do: if no push is
handled more than the idle time after the last inbound frame, then every event, the time-out
that closes the connection among them, is handled at most `idle + poll` after it, and so was
the last event of a loop that is open; and conversely, if at every moment of the run whatever
can be handled next is handled so soon, then no push came after the idle time. -/
theorem silent_closed_iff (idleTimeoutMs now : ℕ) (l : List (ℕ × WsEvent))
    (hl : Always step Next (start idleTimeoutMs now) l) :
    let s₀ := start idleTimeoutMs now
    (Always step PushInTime s₀ l →
      Always step Prompt s₀ l ∧ ((l.foldl step s₀).isOpen = true →
        (l.foldl step s₀).since ≤ (l.foldl step s₀).lastSeen +
          ((l.foldl step s₀).idleTimeoutMs + (l.foldl step s₀).pollMs))) ∧
      (Always step PushInTime s₀ l ↔ ∀ l₁ l₂, l = l₁ ++ l₂ → ∀ x,
        (l₁.foldl step s₀).Next x → (l₁.foldl step s₀).Prompt x) := by
  intro s₀
  have hsplit := always_iff_split.mp hl
  have hprompt : Always step PushInTime s₀ l → ∀ l₁ l₂, l = l₁ ++ l₂ → ∀ x,
      (l₁.foldl step s₀).Next x → (l₁.foldl step s₀).Prompt x := by
    rintro hpush l₁ l₂ rfl x hx
    exact (fresh_run (fresh_start _ _) hpush).prompt hx
  refine ⟨?_, hprompt, ?_⟩
  · intro hpush
    refine ⟨always_iff_split.mpr ?_, ?_⟩
    · intro l₁ x l₂ heq
      exact hprompt hpush l₁ (x :: l₂) heq x (hsplit l₁ x l₂ heq)
    · intro hopen
      have hfresh : (l.foldl step s₀).Fresh :=
        @fresh_run s₀ l [] (fresh_start idleTimeoutMs now) (by rwa [List.append_nil])
      have hsince := hfresh hopen
      omega
  · intro h
    refine always_iff_split.mpr ?_
    rintro l₁ ⟨t, ev⟩ l₂ heq
    cases ev with
    | push msg =>
      by_contra hlate
      -- the time-out that follows the push
      obtain ⟨hnext, hnot⟩ := not_prompt_of_late_push (hsplit l₁ _ l₂ heq) hlate
      have hafter := h (l₁ ++ [(t, .push msg)]) l₂ (by rw [heq, List.append_cons])
      rw [List.foldl_append] at hafter
      exact hnot (hafter _ hnext)
    | _ => trivial

/-- A client is asked for a relay session twice, half a second and a second after it connected,
and then vanishes: with an idle time of one second it is closed after two. -/
theorem silent_closed_iff_twice :
    let l : List (ℕ × WsEvent) := [(500, .push (.requestRelay ⟨"a", "u", [], ""⟩)),
      (1000, .push (.requestRelay ⟨"a", "u", [], ""⟩)), (2000, .timer)]
    Always step Prompt (start 1000 0) l ∧ (l.foldl step (start 1000 0)).isOpen = false := by
  refine ⟨((silent_closed_iff 1000 0 _ (by decide)).1 ?_).1, by decide⟩
  exact ⟨(by decide : 500 ≤ 0 + 1000), (by decide : 1000 ≤ 0 + 1000), trivial, trivial⟩

/-- **A vanished client is kept**: it is asked for a relay session every half second, and the
loop handles a push two and a half seconds after the last inbound frame, with an idle time of
one second and so a limit of two. -/
theorem pushes_keep_silent :
    let l : List (ℕ × WsEvent) := [500, 1000, 1500, 2000, 2500].map fun t =>
      (t, .push (.requestRelay ⟨"a", "u", [], ""⟩))
    Always step Next (start 1000 0) l ∧ ¬Always step Prompt (start 1000 0) l ∧
      (l.foldl step (start 1000 0)).isOpen = true := by
  decide

end WsLoop

end RustdeskServer
