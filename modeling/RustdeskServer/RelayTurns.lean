import RustdeskServer.Plain.Turns
import RustdeskServer.RelayEntries
import RustdeskServer.RelayLive

/-!
# Relays take turns

Where nothing is known of the two ends of a session, the relays take turns: a counter of
`usize` goes up by one with every committed choice of this kind.  Taking a turn is one section,
so that no two tasks are given the same turn, whatever they do before and after it; a choice
for which the tables or a held choice decide takes none, and so does a dry run.

The counter's values are served in a cycle.  In every run the relays are therefore at most one
turn apart, but for the one place where the counter goes round.

## Main definitions

* `SelTask.KeepsTurns` — the task leaves the counter to the choices.
* `Awaits` — a program before its turn.
* `InTurn` — the invariant, with who was given which relay.

## Main results

* `LiveSource.nodup` — no relay stands twice in a live list that the server makes.
* `awaits_pick` — a choice takes at most one turn, and returns the relay of it.
* `turns_fair` — **in every run, no relay is handed out in turn more often than another and
  once more.**
-/

namespace RustdeskServer

open Atomic Plain

/-- The relay of a value of the counter. -/
def turnRelay (live : List String) (n : ℕ) : String := live.getD (n % live.length) ""

/-- The operation takes no turn, and leaves the live list. -/
def SelOp.Still (live : List String) : SelOp → Prop
  | .rotation commit => commit = false
  | .setLive relays => relays = live
  | .elsewhere f => ∀ s, (f s).rotation = s.rotation
  | _ => True

/-- The task leaves the counter to the choices, and the live list as it is. -/
def SelTask.KeepsTurns (P : Platform) (live : List String) : SelTask → Prop
  | .pick _ _ _ => True
  | .setLive source => ∀ relays ∈ source.relays P.toUnicode, relays = live
  | .elsewhere sections => ∀ f ∈ sections, ∀ s, RelaySelector.rotation (f s) = s.rotation

/-- The task is a committed choice. -/
def SelTask.committed : SelTask → Bool
  | .pick _ _ commit => commit
  | _ => false

/-! ### Before a turn -/

section Awaits

variable {live : List String} {C : Prop} {α β : Type} {R : α → Prop} {T : ℕ → α → Prop}
  {R' : β → Prop} {T' : ℕ → β → Prop}

/-- What an operation leads to: a turn is the last of its kind and the result is as `T` says,
and the live list is `live`. -/
def SelOp.Leads (live : List String) (C : Prop) (T : ℕ → α → Prop) :
    (o : SelOp) → (o.Res → Prog SelSig α) → (o.Res → Prop) → Prop
  | .rotation true, k, _ => C ∧ ∀ n : ℕ, (k n).Only (SelOp.Still live) (T n)
  | .live, _, rest => rest live
  | o, _, rest => o.Still live ∧ ∀ r, rest r

/-- The program has not taken a turn.  Without one its result is in `R`; only if `C` it may take
one, and with the turn `n` its result is in `T n`. -/
def Awaits (live : List String) (C : Prop) (R : α → Prop) (T : ℕ → α → Prop) :
    Prog SelSig α → Prop
  | .ret a => R a
  | .op o k => o.Leads live C T k fun r => Awaits live C R T (k r)

/-- A program that takes no turn at all. -/
theorem awaits_of_only {p : Prog SelSig α} (h : p.Only (SelOp.Still live) R) :
    Awaits live C R T p := by
  induction p with
  | ret a => exact h
  | op o k ih =>
    obtain ⟨ho, hk⟩ := h
    cases o with
    | live => exact ih live (hk live)
    | rotation commit =>
      obtain rfl : commit = false := ho
      exact ⟨rfl, fun r => ih r (hk r)⟩
    | _ => exact ⟨ho, fun r => ih r (hk r)⟩

theorem Awaits.bind {p : Prog SelSig α} {f : α → Prog SelSig β} (hp : Awaits live C R T p)
    (hf : ∀ a, R a → Awaits live C R' T' (f a))
    (hT : ∀ n a, T n a → (f a).Only (SelOp.Still live) (T' n)) :
    Awaits live C R' T' (p >>= f) := by
  induction p with
  | ret a => exact hf a hp
  | op o k ih =>
    cases o with
    | live => exact ih live hp
    | rotation commit =>
      cases commit with
      | true => exact ⟨hp.1, fun n => (hp.2 n).bind (hT n)⟩
      | false => exact ⟨hp.1, fun r => ih r (hp.2 r)⟩
    | _ => exact ⟨hp.1, fun r => ih r (hp.2 r)⟩

end Awaits

/-! ### A choice -/

section Choice

variable {P : Platform} {live : List String}

/-- The choice that a turn makes. -/
def turnPick (live : List String) (n : ℕ) : RelayPick := ⟨turnRelay live n, .roundRobin, []⟩

theorem sideCosts_still (ip : IpAddr) :
    (sideCostsSections ip).Only (SelOp.Still live) fun _ => True := by
  refine ⟨trivial, ?_⟩
  intro costs
  cases costs with
  | some costs => trivial
  | none =>
    refine ⟨trivial, ?_⟩
    intro at_
    cases at_ with
    | none => trivial
    | some at_ => exact ⟨trivial, fun _ => trivial⟩

/-- A dry run takes no turn. -/
theorem fresh_still (live' : List String) (pa pb : IpAddr) :
    (freshSections P live' pa pb false).Only (SelOp.Still live) fun _ => True := by
  refine (sideCosts_still pa).bind fun a _ => (sideCosts_still pb).bind fun b _ => ?_
  unfold chooseSections
  split
  · trivial
  · exact ⟨rfl, fun _ => trivial⟩

/-- A fresh choice takes a turn where the tables do not decide. -/
theorem awaits_fresh (pa pb : IpAddr) :
    Awaits live True (fun pick : RelayPick => pick.reason ≠ .roundRobin)
      (fun n pick => pick = turnPick live n) (freshSections P live pa pb true) := by
  have hside : ∀ ip, Awaits live True (fun _ => True) (fun _ _ => False)
      (sideCostsSections ip) := fun ip => awaits_of_only (sideCosts_still ip)
  refine (hside pa).bind (fun a _ => (hside pb).bind (fun b _ => ?_) ?_) ?_
  · unfold chooseSections
    split
    · -- the reason names what decided
      dsimp only
      split
      · exact fun h => by cases h
      · split
        · exact fun h => by cases h
        · exact fun h => by cases h
    · exact ⟨trivial, fun n => rfl⟩
  · exact fun _ _ h => h.elim
  · exact fun _ _ h => h.elim

theorem pinRelay_still (key : IpAddr × IpAddr) (relay : String) :
    (pinRelaySections key relay).Only (SelOp.Still live) fun _ => True := by
  refine ⟨trivial, ?_⟩
  intro ttl
  dsimp only
  split
  · trivial
  · exact ⟨trivial, fun _ => trivial⟩

theorem awaits_among (pa pb : IpAddr) :
    Awaits live True (fun pick : RelayPick => pick.reason ≠ .roundRobin)
      (fun n pick => pick = turnPick live n) (amongSections P live pa pb true) := by
  refine ⟨trivial, ?_⟩
  intro held
  cases held with
  | some relay => exact fun h => by cases h
  | none =>
    refine (awaits_fresh pa pb).bind ?_ ?_
    · intro pick hpick
      exact awaits_of_only ((pinRelay_still _ _).bind fun _ _ => hpick)
    · rintro n pick rfl
      exact (pinRelay_still _ _).bind fun _ _ => rfl

theorem awaits_preferred (pa pb : IpAddr) :
    Awaits live True (fun pick : RelayPick => pick.reason ≠ .roundRobin)
      (fun n pick => pick = turnPick live n) (preferredSections P live pa pb true) := by
  refine ⟨trivial, ?_⟩
  intro preferred
  cases preferred with
  | none => exact awaits_among pa pb
  | some want =>
    dsimp only
    split
    · exact fun h => by cases h
    · exact awaits_among pa pb

/-- **A committed choice takes at most one turn**, and returns the relay of it. -/
theorem awaits_pick (pa pb : IpAddr) :
    Awaits live True (fun r : List String × RelayPick => r.2.reason ≠ .roundRobin)
      (fun n r => r = (live, turnPick live n)) (pickSections P pa pb true) := by
  have hfrom : Awaits live True (fun pick : RelayPick => pick.reason ≠ .roundRobin)
      (fun n pick => pick = turnPick live n) (pickFrom P live pa pb true) := by
    unfold pickFrom
    split
    · exact fun h => by cases h
    · exact fun h => by cases h
    · exact awaits_preferred pa pb
  refine hfrom.bind ?_ ?_
  · exact fun _ h => h
  · rintro n pick rfl
    rfl

theorem pickFrom_still (live' : List String) (pa pb : IpAddr) :
    (pickFrom P live' pa pb false).Only (SelOp.Still live) fun _ => True := by
  have hamong : (amongSections P live' pa pb false).Only (SelOp.Still live) fun _ => True := by
    unfold amongSections
    rw [if_neg Bool.false_ne_true]
    exact fresh_still live' pa pb
  unfold pickFrom
  split
  · trivial
  · trivial
  · refine ⟨trivial, ?_⟩
    intro preferred
    cases preferred with
    | none => exact hamong
    | some want =>
      dsimp only
      split
      · trivial
      · exact hamong

/-- What a task returns: no choice in turn, if it is a committed one. -/
def Unturned (committed : Bool) (r : Option (List String × RelayPick)) : Prop :=
  committed = true → ∀ x ∈ r, x.2.reason ≠ .roundRobin

/-- **Every task takes at most one turn**, and only a committed choice takes one. -/
theorem awaits_prog {task : SelTask} (h : task.KeepsTurns P live) :
    Awaits live (task.committed = true) (Unturned task.committed)
      (fun n r => r = some (live, turnPick live n)) (task.prog P) := by
  cases task with
  | pick pa pb commit =>
    cases commit with
    | true =>
      refine Awaits.bind (R := fun r => r.2.reason ≠ .roundRobin)
        (T := fun n r => r = (live, turnPick live n)) ?_ ?_ ?_
      · have hpick := @awaits_pick P live pa pb
        simpa only [SelTask.committed, eq_self_iff_true] using hpick
      · intro r hr _ x hx
        cases hx
        exact hr
      · rintro n r rfl
        rfl
    | false =>
      refine awaits_of_only ?_
      refine Prog.Only.bind (R := fun _ => True) ?_ ?_
      · exact ⟨trivial, fun live' => (pickFrom_still live' pa pb).bind fun _ _ => trivial⟩
      · exact fun _ _ hc => by cases hc
  | setLive source =>
    refine awaits_of_only ?_
    rw [SelTask.prog]
    cases hrel : source.relays P.toUnicode with
    | none => exact fun hc => by cases hc
    | some relays => exact ⟨h relays hrel, fun _ hc => by cases hc⟩
  | elsewhere sections =>
    refine awaits_of_only ?_
    rw [SelTask.prog]
    induction sections with
    | nil => exact fun hc => by cases hc
    | cons f sections ih =>
      refine ⟨h f List.mem_cons_self, fun _ => ih ?_⟩
      exact fun g hg => h g (List.mem_cons_of_mem f hg)

end Choice

/-! ### Runs -/

/-- What the tasks have returned, and what is left of them. -/
abbrev Choosers (ι : Type) := Config SelSig RelaySelector ι (Option (List String × RelayPick))

/-- The invariant of all runs: `given` is who took a turn, and the relay of it, the last one
first. -/
structure InTurn {ι : Type} (live : List String) (start : ℕ) (tasks : ι → SelTask)
    (given : List (ι × String)) (c : Choosers ι) : Prop where
  /-- The live list is as it was. -/
  same : c.st.live = live
  /-- The counter has gone up with every turn. -/
  counter : c.st.rotation = (start + given.length) % 2 ^ 64
  /-- Nobody took two turns. -/
  once : (given.map Prod.fst).Nodup
  /-- The relays are those of the counter's values. -/
  relays : given.map Prod.snd =
    ((turns start (2 ^ 64) live.length given.length).map fun j => live.getD j "").reverse
  /-- Who took none may take one, or returns a choice that is none in turn. -/
  waits : ∀ i, i ∉ given.map Prod.fst → Awaits live ((tasks i).committed = true)
    (Unturned (tasks i).committed) (fun n r => r = some (live, turnPick live n)) (c.task i)
  /-- Who took one is a committed choice, and returns the relay of it. -/
  took : ∀ x ∈ given, (tasks x.1).committed = true ∧
    (c.task x.1).Only (SelOp.Still live) fun r => r = some (live, ⟨x.2, .roundRobin, []⟩)

section Runs

variable {ι : Type} {P : Platform} {live : List String} {start : ℕ} {tasks : ι → SelTask}
  {given : List (ι × String)} {c : Choosers ι}

/-- What an operation that takes no turn leaves. -/
theorem SelOp.Still.exec {o : SelOp} (h : o.Still live) (now : Instant) {s : RelaySelector}
    (hlive : s.live = live) :
    (o.exec P now s).1.live = live ∧ (o.exec P now s).1.rotation = s.rotation := by
  cases o with
  | rotation commit =>
    obtain rfl : commit = false := h
    exact ⟨hlive, rfl⟩
  | setLive relays =>
    obtain rfl : relays = live := h
    exact ⟨rfl, rfl⟩
  | elsewhere f => exact ⟨hlive, h s⟩
  | pinnedRelay key relays =>
    rcases exec_pinnedRelay (P := P) now s key relays with ⟨_, _, _, _, hexec⟩ | hexec
    · rw [hexec]
      exact ⟨hlive, rfl⟩
    · rw [hexec]
      exact ⟨hlive, rfl⟩
  | _ => exact ⟨hlive, rfl⟩

/-- One turn more. -/
theorem turns_relays_succ (live : List String) (start k : ℕ) :
    ((turns start (2 ^ 64) live.length (k + 1)).map fun j => live.getD j "").reverse =
      turnRelay live ((start + k) % 2 ^ 64) ::
        ((turns start (2 ^ 64) live.length k).map fun j => live.getD j "").reverse := by
  rw [turns_succ, List.map_append, List.reverse_append]
  rfl

variable [DecidableEq ι]

/-- An operation that takes no turn keeps the invariant. -/
theorem InTurn.still (h : InTurn live start tasks given c) {i : ι} {o : SelOp} (ho : o.Still live)
    (now : Instant) {p : Prog SelSig (Option (List String × RelayPick))}
    (hwaits : i ∉ given.map Prod.fst → Awaits live ((tasks i).committed = true)
      (Unturned (tasks i).committed) (fun n r => r = some (live, turnPick live n)) p)
    (htook : ∀ relay, (i, relay) ∈ given →
      p.Only (SelOp.Still live) fun r => r = some (live, ⟨relay, .roundRobin, []⟩)) :
    InTurn live start tasks given ⟨(o.exec P now c.st).1, Function.update c.task i p⟩ := by
  obtain ⟨hlive, hrotation⟩ := ho.exec (P := P) now h.same
  refine ⟨hlive, hrotation.trans h.counter, h.once, h.relays, fun j hj => ?_, fun x hx => ?_⟩
  · by_cases hij : j = i
    · subst hij
      simpa only [Function.update_self] using hwaits hj
    · simpa only [Function.update_of_ne hij] using h.waits j hj
  · obtain ⟨hcommitted, hleft⟩ := h.took x hx
    refine ⟨hcommitted, ?_⟩
    by_cases hij : x.1 = i
    · subst hij
      simpa only [Function.update_self] using htook x.2 hx
    · simpa only [Function.update_of_ne hij] using hleft

/-- Somebody takes a turn. -/
theorem InTurn.turn (h : InTurn live start tasks given c) {i : ι} (hi : i ∉ given.map Prod.fst)
    (hcommitted : (tasks i).committed = true) (now : Instant)
    {k : ℕ → Prog SelSig (Option (List String × RelayPick))}
    (hk : ∀ n, (k n).Only (SelOp.Still live) fun r => r = some (live, turnPick live n)) :
    InTurn live start tasks ((i, turnRelay live c.st.rotation) :: given)
      ⟨((SelOp.rotation true).exec P now c.st).1,
        Function.update c.task i (k c.st.rotation)⟩ := by
  refine ⟨h.same, ?_, List.nodup_cons.mpr ⟨hi, h.once⟩, ?_, fun j hj => ?_, fun x hx => ?_⟩
  · show (c.st.rotation + 1) % 2 ^ 64 = (start + (given.length + 1)) % 2 ^ 64
    rw [h.counter]
    omega
  · rw [List.map_cons, List.length_cons, turns_relays_succ, h.relays, h.counter]
  · have hji : j ≠ i := by
      rintro rfl
      exact hj List.mem_cons_self
    have hw := h.waits j fun hm => hj (List.mem_cons_of_mem i hm)
    simpa only [Function.update_of_ne hji] using hw
  · rcases List.mem_cons.mp hx with rfl | hx
    · refine ⟨hcommitted, ?_⟩
      simpa only [Function.update_self, turnPick] using hk c.st.rotation
    · have hxi : x.1 ≠ i := by
        intro heq
        exact hi (heq ▸ List.mem_map_of_mem hx)
      obtain ⟨hx', hleft⟩ := h.took x hx
      exact ⟨hx', by simpa only [Function.update_of_ne hxi] using hleft⟩

/-- **Every step keeps the invariant**, with one more turn or with none. -/
theorem InTurn.step (h : InTurn live start tasks given c) (i : ι) (now : Instant) :
    ∃ given', InTurn live start tasks given' (c.step (selMachine P) i now) := by
  cases htask : c.task i with
  | ret r =>
    rw [Config.step_ret _ htask]
    exact ⟨given, h⟩
  | op o k =>
    rw [Config.step_op _ htask]
    by_cases hi : i ∈ given.map Prod.fst
    · -- it has had its turn
      obtain ⟨x, hx, rfl⟩ := List.mem_map.mp hi
      have hleft := (h.took x hx).2
      rw [htask] at hleft
      refine ⟨given, h.still hleft.1 now (fun hno => absurd hi hno) fun relay hrelay => ?_⟩
      have hleft' := (h.took (x.1, relay) hrelay).2
      rw [htask] at hleft'
      exact hleft'.2 _
    · have hno : ∀ relay, (i, relay) ∉ given := fun relay hm => hi (List.mem_map_of_mem hm)
      have hleft := h.waits i hi
      rw [htask] at hleft
      cases o with
      | rotation commit =>
        cases commit with
        | true => exact ⟨_, h.turn (P := P) hi hleft.1 now hleft.2⟩
        | false =>
          exact ⟨given, h.still (P := P) hleft.1 now (fun _ => hleft.2 _) fun relay hm =>
            absurd hm (hno relay)⟩
      | live =>
        have hstill : SelOp.Still live .live := trivial
        refine ⟨given, h.still (P := P) hstill now (fun _ => ?_) fun relay hm =>
          absurd hm (hno relay)⟩
        have hread : ((selMachine P).exec now .live c.st).2 = live := h.same
        rw [hread]
        exact hleft
      | _ =>
        exact ⟨given, h.still (P := P) hleft.1 now (fun _ => hleft.2 _) fun relay hm =>
            absurd hm (hno relay)⟩

end Runs

/-- The turns of a relay are those of its place. -/
theorem count_relays {live : List String} (hnodup : live.Nodup) {l : List ℕ}
    (hl : ∀ j ∈ l, j < live.length) {a : ℕ} (ha : a < live.length) :
    (l.map fun j => live.getD j "").count (live.getD a "") = l.count a := by
  rw [List.count_eq_countP, List.countP_map, List.count_eq_countP]
  refine List.countP_congr fun j hj => ?_
  have hjl := hl j hj
  simp only [Function.comp_apply, beq_iff_eq, List.getD_eq_getElem _ _ hjl,
    List.getD_eq_getElem _ _ ha]
  exact hnodup.getElem_inj_iff

/-- No relay stands twice in a live list that the server makes. -/
theorem LiveSource.nodup {U : Unicode} {source : LiveSource} {relays : List String}
    (h : source.relays U = some relays) : relays.Nodup := by
  have hparse : ∀ list, (parseRelayList U list).1.Nodup := fun list =>
    (parseEntries_pairwise List.Pairwise.nil).imp fun hne heq => hne (congrArg (normalize U) heq)
  cases source with
  | configured list =>
    cases h
    exact hparse list
  | answering list p => exact (checkRelayServers_sublist h).1.nodup (hparse list)

/-- **Relays take turns.**  In every run of choices for any ends, dry runs and anything else that
leaves the live list and the counter alone: the choices made in turn are those of `given`, and
no relay is given more often than another and once more, and once more again for each time the
counter goes round. -/
theorem turns_fair {ι : Type} [DecidableEq ι] (P : Platform) {s : RelaySelector}
    (hstart : s.rotation < 2 ^ 64) (hnodup : s.live.Nodup) {tasks : ι → SelTask}
    (hkeeps : ∀ i, (tasks i).KeepsTurns P s.live) {c : Choosers ι}
    (h : Reach (selMachine P) (fun _ _ _ => True) ⟨s, fun i => (tasks i).prog P⟩ c) :
    ∃ given : List (ι × String), (given.map Prod.fst).Nodup ∧
      (∀ x ∈ given, (tasks x.1).committed = true) ∧
      (∀ i live pick, (c.task i).result? = some (some (live, pick)) →
        (tasks i).committed = true → (pick.reason = .roundRobin ↔ (i, pick.relay) ∈ given)) ∧
      ∀ r ∈ s.live, ∀ r' ∈ s.live, (given.map Prod.snd).count r ≤
        (given.map Prod.snd).count r' + 1 + (s.rotation + given.length) / 2 ^ 64 := by
  have hinv : ∃ given, InTurn s.live s.rotation tasks given c := by
    refine Reach.inv (P := fun c => ∃ given, InTurn s.live s.rotation tasks given c) ?_
      (fun c i now hc _ => ?_) h
    · refine ⟨[], rfl, (Nat.mod_eq_of_lt hstart).symm, List.nodup_nil, rfl, fun i _ => ?_,
        fun x hx => (List.not_mem_nil hx).elim⟩
      exact awaits_prog (hkeeps i)
    · obtain ⟨given, hgiven⟩ := hc
      exact hgiven.step i now
  obtain ⟨given, hgiven⟩ := hinv
  refine ⟨given, hgiven.once, fun x hx => (hgiven.took x hx).1, fun i live pick hr hc => ?_,
    fun r hr r' hr' => ?_⟩
  · have hret := Prog.eq_ret_of_result? hr
    constructor
    · intro hreason
      by_cases hi : i ∈ given.map Prod.fst
      · obtain ⟨x, hx, rfl⟩ := List.mem_map.mp hi
        have hleft := (hgiven.took x hx).2
        rw [hret] at hleft
        obtain ⟨rfl, rfl⟩ := Prod.mk.inj (Option.some.inj hleft)
        exact hx
      · have hleft := hgiven.waits i hi
        rw [hret] at hleft
        exact absurd hreason (hleft hc _ rfl)
    · intro hm
      have hleft := (hgiven.took _ hm).2
      rw [hret] at hleft
      exact congrArg RelayPick.reason (Prod.mk.inj (Option.some.inj hleft)).2
  · -- two relays are two places of the counter's cycle
    obtain ⟨a, ha, rfl⟩ := List.getElem_of_mem hr
    obtain ⟨b, hb, rfl⟩ := List.getElem_of_mem hr'
    have hlt : ∀ j ∈ turns s.rotation (2 ^ 64) s.live.length given.length, j < s.live.length :=
      turns_lt (by omega)
    rw [hgiven.relays, List.count_reverse, List.count_reverse,
      ← List.getD_eq_getElem _ "" ha, ← List.getD_eq_getElem _ "" hb,
      count_relays hnodup hlt ha, count_relays hnodup hlt hb]
    exact count_turns_le hstart ha hb given.length

/-- Three sessions, each of two ends of its own. -/
def threeSessions (i : ℕ) : SelTask :=
  .pick (.ofOctets 192 0 2 (UInt8.ofNat i)) (.ofOctets 198 51 100 (UInt8.ofNat i)) true

/-- The choices, section by section in turn. -/
def threeChosen : Choosers ℕ :=
  Config.sched (selMachine .plain)
    ⟨.ofLive ["a:1", "b:1"], fun i => (threeSessions i).prog .plain⟩
    ((List.replicate 10 [(0, 0), (1, 0), (2, 0)]).flatten)

theorem turns_fair_threeChosen :
    (threeChosen.task 2).result? = some (some (["a:1", "b:1"], ⟨"a:1", .roundRobin, []⟩)) ∧
      ∃ given : List (ℕ × String), (2, "a:1") ∈ given ∧
        (given.map Prod.snd).count "a:1" ≤
          (given.map Prod.snd).count "b:1" + 1 + given.length / 2 ^ 64 := by
  have hchosen : (threeChosen.task 2).result? =
      some (some (["a:1", "b:1"], ⟨"a:1", .roundRobin, []⟩)) := by decide +kernel
  have hreach : Reach (selMachine .plain) (fun _ _ _ => True)
      ⟨.ofLive ["a:1", "b:1"], fun i => (threeSessions i).prog .plain⟩ threeChosen :=
    reach_sched (along_true _ _)
  have hkeeps : ∀ i, (threeSessions i).KeepsTurns .plain
      (RelaySelector.ofLive ["a:1", "b:1"]).live :=
    fun _ => trivial
  have hnodup : (RelaySelector.ofLive ["a:1", "b:1"]).live.Nodup :=
    @LiveSource.nodup .ascii (.configured "a:1,b:1") _ (by decide +kernel)
  obtain ⟨given, -, -, hres, hcount⟩ := turns_fair .plain (by decide) hnodup hkeeps hreach
  refine ⟨hchosen, given, (hres 2 _ _ hchosen rfl).mp rfl, ?_⟩
  have hturns := hcount "a:1" (by decide) "b:1" (by decide)
  rwa [show (RelaySelector.ofLive ["a:1", "b:1"]).rotation = 0 from rfl, Nat.zero_add] at hturns

end RustdeskServer
