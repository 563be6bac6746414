import Mathlib.Data.List.Sort
import RustdeskServer.Atomic.Trace
import RustdeskServer.Console

/-!
# Health checks and the list of relays that answer

Every few seconds, when more than one relay is configured, the main loop starts a health
check over the relays configured at that moment.  A check connects to all of them at
once and in the end sends the ones that answered, in configured order, to the main loop,
which makes them the live list.  Nothing ties the result to the configuration it was made
for, nor to the order in which checks were started.

So a result that arrives after the operator has configured other relays brings the old
ones back, and when checks overlap an older result can replace a newer one.  Both are the
only ways: as long as the relays a check was started with are still configured when its
result arrives, the live list is part of the configured one; and as long as results arrive
in the order their checks were started, the live list is the newest result.

## Main definitions

* `checkRelayServers` — what a health check sends.
* `Loop`, `Loop.step` — the main loop, the checks in flight and the queue between them.
* `LiveOk`, `FreshestWins` — the two properties.

## Main results

* `checkRelayServers_sublist` — a check sends some of its relays, in configured order.
* `live_stays_configured` — **the live list is part of the configured one along every run
  in which results arrive while their relays are configured.**
* `retired_relay_returns` — a run in which a retired relay comes back.
* `freshest_wins` — **the live list is the newest result along every run in which results
  arrive in order.**
* `older_result_wins` — a run in which an older result stays.
-/

namespace RustdeskServer

open Atomic

/-! ### One health check -/

/-- The probes of a health check that connected, by the position of their relay, in the
order they did. -/
structure Probes where
  /-- The positions. -/
  order : List ℕ
  /-- There is one probe for each relay. -/
  nodup : order.Nodup

/-- What the probes push: position and relay. -/
def answering (rs0 : List String) (p : Probes) : List (ℕ × String) :=
  p.order.filterMap fun i => (rs0[i]?).map fun x => (i, x)

/-- By position. -/
def byPosition (a b : ℕ × String) : Prop := a.1 ≤ b.1

instance : DecidableRel byPosition := fun a b => inferInstanceAs (Decidable (a.1 ≤ b.1))

/-- `check_relay_servers`: the list it sends, if it sends one. -/
def checkRelayServers (rs0 : List String) (p : Probes) : Option (List String) :=
  let rs := ((answering rs0 p).insertionSort byPosition).map Prod.snd
  if rs.isEmpty then none else some rs

example : checkRelayServers ["a", "b", "c"] ⟨[2, 0], by decide⟩ = some ["a", "c"] := by decide

theorem mem_answering {rs0 : List String} {p : Probes} {x : ℕ × String}
    (h : x ∈ answering rs0 p) : rs0[x.1]? = some x.2 := by
  obtain ⟨i, -, hi⟩ := List.mem_filterMap.mp h
  obtain ⟨y, hy, rfl⟩ := Option.map_eq_some_iff.mp hi
  exact hy

theorem positions_sublist (rs0 : List String) (order : List ℕ) :
    ((order.filterMap fun i => (rs0[i]?).map fun x => (i, x)).map Prod.fst).Sublist order := by
  induction order with
  | nil => exact List.nil_sublist _
  | cons i order ih =>
    rw [List.filterMap_cons]
    cases rs0[i]? with
    | none => exact ih.cons i
    | some x => exact ih.cons_cons i

/-- Entries taken at increasing positions, from `k` on, are a sublist. -/
theorem sublist_drop_of_positions {rs0 : List String} {l : List (ℕ × String)} {k : ℕ}
    (hsorted : l.Pairwise fun a b => a.1 < b.1)
    (hget : ∀ x ∈ l, k ≤ x.1 ∧ rs0[x.1]? = some x.2) : (l.map Prod.snd).Sublist (rs0.drop k) := by
  -- by induction on the entries; each one moves `k` past itself
  induction l generalizing k with
  | nil => exact List.nil_sublist _
  | cons x l ih =>
    obtain ⟨hlt, hsorted⟩ := List.pairwise_cons.mp hsorted
    obtain ⟨hk, hx⟩ := hget x List.mem_cons_self
    obtain ⟨hlen, hval⟩ := List.getElem?_eq_some_iff.mp hx
    have hrest : (l.map Prod.snd).Sublist (rs0.drop (x.1 + 1)) :=
      ih hsorted fun y hy => ⟨hlt y hy, (hget y (List.mem_cons_of_mem _ hy)).2⟩
    calc ((x :: l).map Prod.snd).Sublist (x.2 :: rs0.drop (x.1 + 1)) := hrest.cons_cons x.2
      _ = rs0.drop x.1 := by rw [← hval, List.getElem_cons_drop]
      List.Sublist _ (rs0.drop k) := List.drop_sublist_drop_left rs0 hk

/-- The positions of a sorted answer increase. -/
theorem pairwise_answering (rs0 : List String) (p : Probes) :
    ((answering rs0 p).insertionSort byPosition).Pairwise fun a b => a.1 < b.1 := by
  have : Std.Total byPosition := ⟨fun a b => Nat.le_total a.1 b.1⟩
  have : IsTrans _ byPosition := ⟨fun _ _ _ => Nat.le_trans⟩
  have hle := List.pairwise_insertionSort byPosition (answering rs0 p)
  have hne : ((answering rs0 p).insertionSort byPosition).Pairwise fun a b => a.1 ≠ b.1 := by
    have hnodup : ((answering rs0 p).map Prod.fst).Nodup :=
      (positions_sublist rs0 p.order).nodup p.nodup
    have hperm := (List.perm_insertionSort byPosition (answering rs0 p)).map Prod.fst
    exact List.pairwise_map.mp (hperm.nodup_iff.mpr hnodup)
  exact (hle.and hne).imp fun h => Nat.lt_of_le_of_ne h.1 h.2

/-- **A health check sends some of its relays, in configured order.** -/
theorem checkRelayServers_sublist {rs0 rs : List String} {p : Probes}
    (h : checkRelayServers rs0 p = some rs) : rs.Sublist rs0 ∧ rs ≠ [] := by
  unfold checkRelayServers at h
  dsimp only at h
  split at h
  · cases h
  · next hne =>
    cases h
    refine ⟨?_, fun hnil => hne (List.isEmpty_iff.mpr hnil)⟩
    refine sublist_drop_of_positions (k := 0) (pairwise_answering rs0 p) ?_
    intro x hx
    exact ⟨Nat.zero_le _, mem_answering ((List.mem_insertionSort byPosition).mp hx)⟩

/-! ### The main loop and the checks in flight -/

/-- A health check in flight. -/
structure Check where
  /-- How many were started before it. -/
  no : ℕ
  /-- `relay_servers0` when it was started. -/
  snapshot : List String

/-- A message in the queue, with the health check it came from. -/
structure Posted where
  /-- The message. -/
  data : Data
  /-- Its check, if it is a result. -/
  check : Option Check

/-- The main loop with everything that sends to it. -/
structure Loop where
  /-- The server. -/
  hbbs : Hbbs
  /-- The checks in flight. -/
  checks : List Check
  /-- How many were started. -/
  started : ℕ
  /-- The queue, oldest first. -/
  queue : List Posted
  /-- The results taken from it, with the number of their check, newest first. -/
  applied : List (ℕ × List String)

/-- What happens next. -/
inductive LoopInput
  /-- `timer_check_relay` ticks. -/
  | tick
  /-- The `i`-th check in flight ends. -/
  | finish (i : ℕ) (p : Probes)
  /-- A line arrives at the console. -/
  | command (e : RelaySelector.ConsoleEnv) (cmd : String)
  /-- A handler queues a message to be sent. -/
  | post (m : Msg) (addr : SocketAddr)
  /-- The main loop takes a message from the queue. -/
  | deliver

section Step

variable (P : Platform)

/-- A server that was started with a relay list. -/
def Loop.start (s : Hbbs) (list : String) : Loop := ⟨s.parseRelayServers P list, [], 0, [], []⟩

/-- The result a message from the queue brings. -/
def Posted.result? (p : Posted) : Option (ℕ × List String) :=
  match p.check, p.data with
  | some c, .relayServers rs => some (c.no, rs)
  | _, _ => none

/-- One step. -/
def Loop.step (s : Loop) : LoopInput → Loop
  | .tick =>
    if 1 < s.hbbs.relayServers0.length then
      { s with
        checks := s.checks ++ [⟨s.started, s.hbbs.relayServers0⟩]
        started := s.started + 1 }
    else s
  | .finish i p =>
    match s.checks[i]? with
    | none => s
    | some c =>
      { s with
        checks := s.checks.eraseIdx i
        queue := s.queue ++ (checkRelayServers c.snapshot p).toList.map fun rs =>
          ⟨.relayServers rs, some c⟩ }
  | .command e cmd =>
    { s with
      hbbs := (s.hbbs.checkCmd P e cmd).1
      queue := s.queue ++ (s.hbbs.checkCmd P e cmd).2.1.map fun d => ⟨d, none⟩ }
  | .post m addr => { s with queue := s.queue ++ [⟨.msg m addr, none⟩] }
  | .deliver =>
    match s.queue with
    | [] => s
    | p :: queue =>
      { s with
        hbbs := s.hbbs.deliver P p.data
        queue := queue
        applied := p.result?.toList ++ s.applied }

end Step

/-- The live list is part of the configured one, in its order, and there is a live relay
if one is configured. -/
def LiveOk (s : Hbbs) : Prop :=
  s.relayServers.live.Sublist s.relayServers0 ∧
    (s.relayServers0 ≠ [] → s.relayServers.live ≠ [])

/-- The live list is the result of the check that was started last, of those whose results
have arrived. -/
def FreshestWins (s : Loop) : Prop :=
  ∀ r ∈ s.applied, (∀ q ∈ s.applied, q.1 ≤ r.1) → s.hbbs.relayServers.live = r.2

/-- A result is taken from the queue while the relays its check was started with are still
configured, in the same order. -/
def StillConfigured (s : Loop) (x : LoopInput) : Prop :=
  match x with
  | .deliver => ∀ p ∈ s.queue.head?, ∀ c ∈ p.check, c.snapshot.Sublist s.hbbs.relayServers0
  | _ => True

instance (s : Loop) (x : LoopInput) : Decidable (StillConfigured s x) :=
  match x with
  | .deliver => inferInstanceAs (Decidable (∀ p ∈ s.queue.head?, ∀ c ∈ p.check,
      c.snapshot.Sublist s.hbbs.relayServers0))
  | .tick => isTrue trivial
  | .finish _ _ => isTrue trivial
  | .command _ _ => isTrue trivial
  | .post _ _ => isTrue trivial

/-- The relay list a message configures. -/
def Data.list? : Data → Option String
  | .relayServers0 list => some list
  | _ => none

/-- No new list is configured. -/
def ListFixed (s : Loop) (x : LoopInput) : Prop :=
  match x with
  | .deliver => ∀ p ∈ s.queue.head?, p.data.list? = none
  | _ => True

/-- A result is taken from the queue before those of all checks started later. -/
def StartOrder (s : Loop) (x : LoopInput) : Prop :=
  match x with
  | .deliver => ∀ p ∈ s.queue.head?, ∀ c ∈ p.check, ∀ q ∈ s.applied, q.1 < c.no
  | _ => True

instance (s : Loop) (x : LoopInput) : Decidable (ListFixed s x) :=
  match x with
  | .deliver => inferInstanceAs (Decidable (∀ p ∈ s.queue.head?, p.data.list? = none))
  | .tick => isTrue trivial
  | .finish _ _ => isTrue trivial
  | .command _ _ => isTrue trivial
  | .post _ _ => isTrue trivial

instance (s : Loop) (x : LoopInput) : Decidable (StartOrder s x) :=
  match x with
  | .deliver => inferInstanceAs (Decidable (∀ p ∈ s.queue.head?, ∀ c ∈ p.check,
      ∀ q ∈ s.applied, q.1 < c.no))
  | .tick => isTrue trivial
  | .finish _ _ => isTrue trivial
  | .command _ _ => isTrue trivial
  | .post _ _ => isTrue trivial

/-! ### What is in the queue -/

/-- A health result is some of the relays of its check, in order. -/
def Posted.Ok (p : Posted) : Prop :=
  ∀ rs, p.data = .relayServers rs → ∃ c, p.check = some c ∧ rs.Sublist c.snapshot ∧ rs ≠ []

/-- Every message in the queue is right. -/
def QueueOk (s : Loop) : Prop := ∀ p ∈ s.queue, p.Ok

section Run

variable {P : Platform} {s : Loop} {x : LoopInput}

/-- A console line queues relay lists only, and leaves the lists alone until they are
taken from the queue. -/
theorem checkCmd_keeps (s : Hbbs) (e : RelaySelector.ConsoleEnv) (cmd : String) :
    (s.checkCmd P e cmd).1.relayServers0 = s.relayServers0 ∧
      (s.checkCmd P e cmd).1.relayServers.live = s.relayServers.live ∧
      ∀ d ∈ (s.checkCmd P e cmd).2.1, ∃ list, d = .relayServers0 list := by
  rcases Hbbs.checkCmd_cases P s e cmd with ⟨list, -, h1, h2⟩ | ⟨arg, -, h1, h2⟩ |
      ⟨-, h1, h2, h3⟩
  · rw [h1, h2]
    exact ⟨rfl, rfl, fun d hd => ⟨list, List.mem_singleton.mp hd⟩⟩
  · rw [h1, h2]
    exact ⟨rfl, rfl, fun d hd => ⟨arg, List.mem_singleton.mp hd⟩⟩
  · rw [h3]
    exact ⟨h1, h2, fun d hd => by cases hd⟩

/-- **A step keeps the queue right.** -/
theorem queueOk_step (h : QueueOk s) (x : LoopInput) : QueueOk (s.step P x) := by
  cases x with
  | tick =>
    simp only [Loop.step]
    split <;> exact h
  | finish i p =>
    simp only [Loop.step]
    split
    · exact h
    · next c _ =>
      intro q hq
      rcases List.mem_append.mp hq with hq | hq
      · exact h q hq
      · obtain ⟨rs, hrs, rfl⟩ := List.mem_map.mp hq
        rintro _ ⟨⟩
        exact ⟨c, rfl, checkRelayServers_sublist (Option.mem_toList.mp hrs)⟩
  | command e cmd =>
    intro q hq rs hdata
    rcases List.mem_append.mp hq with hq | hq
    · exact h q hq rs hdata
    · obtain ⟨d, hd, rfl⟩ := List.mem_map.mp hq
      obtain ⟨list, rfl⟩ := (checkCmd_keeps s.hbbs e cmd).2.2 d hd
      cases hdata
  | post m addr =>
    intro q hq rs hdata
    rcases List.mem_append.mp hq with hq | hq
    · exact h q hq rs hdata
    · rw [List.mem_singleton.mp hq] at hdata
      cases hdata
  | deliver =>
    simp only [Loop.step]
    cases hqueue : s.queue with
    | nil => exact h
    | cons p queue =>
      exact fun q hq => h q (by rw [hqueue]; exact List.mem_cons_of_mem _ hq)

/-- The relay lists change only when a message is taken from the queue. -/
theorem lists_step (hx : x ≠ .deliver) :
    (s.step P x).hbbs.relayServers0 = s.hbbs.relayServers0 ∧
      (s.step P x).hbbs.relayServers.live = s.hbbs.relayServers.live ∧
      (s.step P x).applied = s.applied := by
  cases x with
  | tick =>
    simp only [Loop.step]
    split <;> exact ⟨rfl, rfl, rfl⟩
  | finish i p =>
    simp only [Loop.step]
    split <;> exact ⟨rfl, rfl, rfl⟩
  | command e cmd =>
    obtain ⟨h1, h2, -⟩ := checkCmd_keeps (P := P) s.hbbs e cmd
    simp only [Loop.step]
    exact ⟨h1, h2, trivial⟩
  | post m addr => exact ⟨rfl, rfl, rfl⟩
  | deliver => exact absurd rfl hx

/-! ### Retired relays -/

theorem liveOk_parse (s : Hbbs) (list : String) : LiveOk (s.parseRelayServers P list) :=
  ⟨List.Sublist.refl _, id⟩

/-- **A step that meets the condition keeps the live list part of the configured one.** -/
theorem liveOk_step (hq : QueueOk s) (h : LiveOk s.hbbs) (hx : StillConfigured s x) :
    LiveOk (s.step P x).hbbs := by
  by_cases hd : x = .deliver
  · subst hd
    simp only [Loop.step]
    cases hqueue : s.queue with
    | nil => exact h
    | cons p queue =>
      have hp : p.Ok := hq p (by rw [hqueue]; exact List.mem_cons_self)
      simp only [Hbbs.deliver]
      cases hdata : p.data with
      | msg m addr => exact h
      | relayServers0 list => exact liveOk_parse s.hbbs list
      | relayServers rs =>
        obtain ⟨c, hc, hsub, hne⟩ := hp rs hdata
        have hsnap := hx p (by rw [hqueue]; rfl) c hc
        exact ⟨hsub.trans hsnap, fun _ => hne⟩
  · obtain ⟨h1, h2, -⟩ := lists_step (P := P) (s := s) hd
    unfold LiveOk
    rw [h1, h2]
    exact h

end Run

/-- **Retired relays stay retired.**  From a server started with any relay list, and for
any ticks, health checks and console lines in any order: along every run in which results
are taken from the queue while the relays of their check are configured, the live list is
part of the configured list, in its order, and not empty unless that is. -/
theorem live_stays_configured (P : Platform) (s : Hbbs) (list : String) (l : List LoopInput)
    (h : Always (Loop.step P) StillConfigured (Loop.start P s list) l) :
    LiveOk (l.foldl (Loop.step P) (Loop.start P s list)).hbbs := by
  refine (Always.foldl (I := fun s => QueueOk s ∧ LiveOk s.hbbs) ?_ ?_ h).2
  · exact fun s x hI hx => ⟨queueOk_step hI.1 x, liveOk_step hI.1 hI.2 hx⟩
  · exact ⟨fun p hp => (by cases hp), liveOk_parse s list⟩

/-- Both relays answer, then only the first does, and the results arrive. -/
def checkedTwice : List LoopInput :=
  [.tick, .finish 0 ⟨[1, 0], by decide⟩, .deliver, .tick, .finish 0 ⟨[0], by decide⟩, .deliver]

theorem live_stays_configured_checked :
    LiveOk (checkedTwice.foldl (Loop.step .plain) (Loop.start .plain twoRelays "a,b")).hbbs ∧
      (checkedTwice.foldl (Loop.step .plain) (Loop.start .plain twoRelays "a,b")).hbbs.relayServers.live =
        ["a"] :=
  ⟨live_stays_configured .plain twoRelays "a,b" checkedTwice (by decide +kernel), by decide +kernel⟩

/-- A check is in flight while the operator retires its relays. -/
def retireDuringCheck : List LoopInput :=
  [.tick, .command (.ok 0) "rs c", .deliver, .finish 0 ⟨[0, 1], by decide⟩, .deliver]

/-- The result brings the retired relays back. -/
theorem retired_relay_returns :
    ¬∀ l : List LoopInput,
      LiveOk (l.foldl (Loop.step .plain) (Loop.start .plain twoRelays "a,b")).hbbs := by
  intro hall
  have h := (hall retireDuringCheck).1
  exact absurd h (by decide +kernel)

/-! ### Overlapping checks -/

section Fresh

variable {P : Platform} {s : Loop} {x : LoopInput}

/-- The results arrived in the order their checks were started, and the last one is
live. -/
def Ordered (s : Loop) : Prop :=
  s.applied.Pairwise (fun a b => b.1 < a.1) ∧
    ∀ r ∈ s.applied.head?, s.hbbs.relayServers.live = r.2

theorem Ordered.freshestWins (h : Ordered s) : FreshestWins s := by
  obtain ⟨hsorted, hlive⟩ := h
  intro r hr hmax
  cases happ : s.applied with
  | nil =>
    rw [happ] at hr
    cases hr
  | cons first rest =>
    rw [happ] at hr hmax hsorted hlive
    rcases List.mem_cons.mp hr with rfl | hr
    · exact hlive r rfl
    · -- the newest result would be later than `r`
      have hlt := (List.pairwise_cons.mp hsorted).1 r hr
      exact absurd (hmax first List.mem_cons_self) (Nat.not_le.mpr hlt)

/-- **A step that meets the conditions keeps the results in order.** -/
theorem ordered_step (hq : QueueOk s) (h : Ordered s) (hfix : ListFixed s x)
    (hx : StartOrder s x) : Ordered (s.step P x) := by
  by_cases hd : x = .deliver
  · subst hd
    simp only [Loop.step]
    cases hqueue : s.queue with
    | nil => exact h
    | cons p queue =>
      have hp : p.Ok := hq p (by rw [hqueue]; exact List.mem_cons_self)
      have hhead : p ∈ s.queue.head? := by rw [hqueue]; rfl
      cases hdata : p.data with
      | msg m addr =>
        have hres : p.result? = none := by
          unfold Posted.result?
          rw [hdata]
          cases p.check <;> rfl
        dsimp only
        rw [hres, hdata]
        exact h
      | relayServers0 list =>
        have hlist : p.data.list? = none := hfix p hhead
        rw [hdata] at hlist
        cases hlist
      | relayServers rs =>
        obtain ⟨c, hc, -⟩ := hp rs hdata
        have hres : p.result? = some (c.no, rs) := by
          unfold Posted.result?
          rw [hdata, hc]
        dsimp only
        rw [hres, hdata]
        refine ⟨List.pairwise_cons.mpr ⟨fun q hqa => hx p hhead c hc q hqa, h.1⟩, ?_⟩
        rintro _ ⟨⟩
        rfl
  · obtain ⟨-, h2, h3⟩ := lists_step (P := P) (s := s) hd
    unfold Ordered
    rw [h2, h3]
    exact h

end Fresh

/-- **The freshest result wins.**  While the configured list stays as it is, and for any
ticks, health checks and console lines: along every run in which results are taken from
the queue in the order their checks were started, the live list is the result of the check
started last, of those whose results have arrived. -/
theorem freshest_wins (P : Platform) (s : Hbbs) (list : String) (l : List LoopInput)
    (h : Always (Loop.step P) (fun s x => ListFixed s x ∧ StartOrder s x)
      (Loop.start P s list) l) :
    FreshestWins (l.foldl (Loop.step P) (Loop.start P s list)) := by
  refine (Always.foldl (I := fun s => QueueOk s ∧ Ordered s) ?_ ?_ h).2.freshestWins
  · exact fun s x hI hx => ⟨queueOk_step hI.1 x, ordered_step hI.1 hI.2 hx.1 hx.2⟩
  · exact ⟨fun p hp => (by cases hp), List.Pairwise.nil, fun r hr => (by cases hr)⟩

theorem freshest_wins_checked :
    FreshestWins (checkedTwice.foldl (Loop.step .plain) (Loop.start .plain twoRelays "a,b")) ∧
      (checkedTwice.foldl (Loop.step .plain) (Loop.start .plain twoRelays "a,b")).applied =
        [(1, ["a"]), (0, ["a", "b"])] :=
  ⟨freshest_wins .plain twoRelays "a,b" checkedTwice (by decide +kernel), by decide +kernel⟩

/-- Two checks overlap, and the later one ends first. -/
def overlapping : List LoopInput :=
  [.tick, .tick, .finish 1 ⟨[0], by decide⟩, .finish 0 ⟨[0, 1], by decide⟩, .deliver, .deliver]

/-- The older result stays. -/
theorem older_result_wins :
    ¬∀ l : List LoopInput,
      Always (Loop.step .plain) ListFixed (Loop.start .plain twoRelays "a,b") l →
      FreshestWins (l.foldl (Loop.step .plain) (Loop.start .plain twoRelays "a,b")) := by
  intro hall
  have h := hall overlapping (by decide +kernel)
  have happ : (overlapping.foldl (Loop.step .plain) (Loop.start .plain twoRelays "a,b")).applied =
      [(0, ["a", "b"]), (1, ["a"])] := by decide +kernel
  have hlive := h (1, ["a"]) (by rw [happ]; simp) (by rw [happ]; simp)
  exact absurd hlive (by decide +kernel)

end RustdeskServer
