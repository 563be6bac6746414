import RustdeskServer.RelayHealth
import RustdeskServer.RelaySections

/-!
# Only relays that answer are handed out

A choice of relay reads the list of relays that answer once, and whatever decides it — the
only relay, the operator's choice, a held choice, the costs or the turn — must name a relay
of that list, as it is written there.  Meanwhile the list may be replaced, and so may held
choices, tables and the operator's choice.

The list itself comes from a configured list or from a health check of one, and neither
has an empty entry; so the empty answer stands for an empty list only.

## Main definitions

* `LiveSource` — where a live list comes from.
* `SelTask` — what runs over a selector.
* `Answers` — a choice is of the list it was made from.

## Main results

* `only_live_relays` — **every choice in every run is of the list it read**, and empty
  exactly when the list is.
-/

namespace RustdeskServer

open Atomic

/-! ### Where a live list comes from -/

/-- The lists `set_live` is called with. -/
inductive LiveSource
  /-- `parse_relay_servers` of a list as written. -/
  | configured (list : String)
  /-- The result of a health check of such a list. -/
  | answering (list : String) (p : Probes)

/-- The list, if there is one. -/
def LiveSource.relays (U : Unicode) : LiveSource → Option (List String)
  | .configured list => some (parseRelayList U list).1
  | .answering list p => checkRelayServers (parseRelayList U list).1 p

/-- An entry that is kept is not empty. -/
theorem empty_notMem_parseEntries (U : Unicode) (raws : List String) {kept : List String}
    (dropped : List (String × String)) (h : "" ∉ kept) : "" ∉ (parseEntries U raws kept dropped).1 := by
  induction raws generalizing kept dropped with
  | nil => exact h
  | cons raw raws ih =>
    unfold parseEntries
    dsimp only
    split
    · exact ih dropped h
    · next hne =>
      split
      · split
        · exact ih _ h
        · refine ih _ ?_
          intro hmem
          rcases List.mem_append.mp hmem with hmem | hmem
          · exact h hmem
          · exact hne (List.mem_singleton.mp hmem).symm
      · exact ih _ h

theorem LiveSource.empty_notMem {U : Unicode} {source : LiveSource} {relays : List String}
    (h : source.relays U = some relays) : "" ∉ relays := by
  have hparse : ∀ list, "" ∉ (parseRelayList U list).1 := fun list =>
    empty_notMem_parseEntries U _ _ List.not_mem_nil
  cases source with
  | configured list =>
    cases h
    exact hparse list
  | answering list p => exact fun hmem => hparse list ((checkRelayServers_sublist h).1.subset hmem)

/-! ### What runs over a selector -/

/-- A task over a selector. -/
inductive SelTask
  /-- A choice, committed or not. -/
  | pick (pa pb : IpAddr) (commit : Bool)
  /-- The main loop takes a relay list over. -/
  | setLive (source : LiveSource)
  /-- Sections of anything else: reloads, console commands, the settings. -/
  | elsewhere (sections : List (RelaySelector → RelaySelector))

/-- The task as a program; a choice returns the list it read and what it chose. -/
def SelTask.prog (P : Platform) : SelTask → Prog SelSig (Option (List String × RelayPick))
  | .pick pa pb commit => do
    let r ← pickSections P pa pb commit
    .ret (some r)
  | .setLive source =>
    match source.relays P.toUnicode with
    | some relays => .op (.setLive relays) fun _ => .ret none
    | none => .ret none
  | .elsewhere sections => sections.foldr (fun f p => .op (.elsewhere f) fun _ => p) (.ret none)

/-- The choice is of the list, and empty exactly when the list is. -/
def Answers (live : List String) (p : RelayPick) : Prop :=
  (live ≠ [] → p.relay ∈ live) ∧ (p.relay = "" ↔ live = [])

theorem answers_of_mem {live : List String} {p : RelayPick} (hempty : "" ∉ live)
    (h : p.relay ∈ live) : Answers live p := by
  refine ⟨fun _ => h, fun he => ?_, fun hl => ?_⟩
  · rw [he] at h
    exact absurd h hempty
  · rw [hl] at h
    cases h

section Safe

variable {P : Platform}

/-- The judgement under the invariant that no live relay is empty. -/
abbrev LiveSafe (P : Platform) {α : Type} (Q : α → Prop) (p : Prog SelSig α) (s : RelaySelector) :
    Prop :=
  Safe (selMachine P) (fun _ _ _ => True) (fun t => "" ∉ t.live) (fun _ _ => True)
    (fun _ _ _ => True) (fun a _ => Q a) p s

theorem LiveSafe.bind {α β : Type} {Q : α → Prop} {Q' : β → Prop} {p : Prog SelSig α}
    {f : α → Prog SelSig β} {s : RelaySelector} (hp : LiveSafe P Q p s)
    (hf : ∀ a s, Q a → LiveSafe P Q' (f a) s) : LiveSafe P Q' (p >>= f) s :=
  Safe.bind (fun _ _ => trivial) trivial hp fun a s _ ha => hf a s ha

/-- An operation that leaves the live list alone. -/
theorem LiveSafe.op {α : Type} {Q : α → Prop} {o : SelOp} {k : o.Res → Prog SelSig α}
    {s : RelaySelector} (ho : ∀ s now, (o.exec P now s).1.live = s.live)
    (h : ∀ s now, "" ∉ s.live → LiveSafe P Q (k (o.exec P now s).2) (o.exec P now s).1) :
    LiveSafe P Q (.op o k) s := by
  refine safe_op fun t _ hI now _ => ⟨trivial, ?_, trivial, h t now hI⟩
  rw [selMachine_exec, ho]
  exact hI

theorem AsksFor.liveSafe {α : Type} {Q : α → Prop} {p : Prog SelSig α} (h : AsksFor Q p)
    (s : RelaySelector) : LiveSafe P Q p s := by
  induction p generalizing s with
  | ret a => exact h
  | op o k ih =>
    refine LiveSafe.op (fun s now => ?_) fun s now _ => ih _ (h.2 _) _
    cases o with
    | rotation commit => cases commit <;> rfl
    | costsFor _ | locate _ | costsFrom _ => rfl
    | _ => exact h.1.elim

theorem liveSafe_pinRelay (key : IpAddr × IpAddr) (relay : String) (s : RelaySelector) :
    LiveSafe P (fun _ => True) (pinRelaySections key relay) s :=
  LiveSafe.op (fun _ _ => rfl) fun _ _ _ => Safe.ite (fun _ => safe_ret trivial) fun _ =>
    LiveSafe.op (fun _ _ => rfl) fun _ _ _ => safe_ret trivial

/-- Several relays, no preferred one among them. -/
theorem liveSafe_among {live : List String} (hlive : live ≠ []) (pa pb : IpAddr) (commit : Bool)
    (s : RelaySelector) :
    LiveSafe P (fun pick : RelayPick => pick.relay ∈ live) (amongSections P live pa pb commit) s := by
  unfold amongSections
  refine Safe.ite (fun _ => ?_) fun _ => (asksFor_fresh hlive pa pb false).liveSafe s
  refine LiveSafe.op (fun t now => ?_) fun t now _ => ?_
  · rcases exec_pinnedRelay (P := P) now t (RelaySelector.pinKey pa pb) live with ⟨_, _, _, _, h⟩ | h
    · rw [h]
    · rw [h]
  · -- a held choice is answered only if its relay is in the list
    rcases exec_pinnedRelay (P := P) now t (RelaySelector.pinKey pa pb) live with
      ⟨pin, -, -, hmem, h⟩ | h
    · rw [h]
      exact safe_ret hmem
    · rw [h]
      refine ((asksFor_fresh hlive pa pb true).liveSafe _).bind ?_
      intro pick t hmem
      exact (liveSafe_pinRelay _ _ t).bind fun _ _ _ => safe_ret hmem

/-- **A choice is of the list it read**, whatever happens meanwhile. -/
theorem liveSafe_pick (pa pb : IpAddr) (commit : Bool) (s : RelaySelector) :
    LiveSafe P (fun r : List String × RelayPick => Answers r.1 r.2) (pickSections P pa pb commit) s := by
  have hmany : ∀ (live : List String) (s : RelaySelector), live ≠ [] →
      LiveSafe P (fun pick : RelayPick => pick.relay ∈ live) (preferredSections P live pa pb commit) s := by
    intro live s hlive
    refine LiveSafe.op (fun _ _ => rfl) ?_
    intro t now _
    cases (SelOp.preferred.exec P now t).2 with
    | none => exact liveSafe_among hlive pa pb commit _
    | some want =>
      dsimp only
      split
      · next hfind => exact safe_ret (List.mem_of_find?_eq_some hfind)
      · exact liveSafe_among hlive pa pb commit _
  refine LiveSafe.op (fun _ _ => rfl) ?_
  intro t now hI
  change LiveSafe P _ (pickFrom P t.live pa pb commit >>= fun pick => .ret (t.live, pick)) t
  match hl : t.live with
  | [] => exact safe_ret ⟨fun h => absurd rfl h, fun _ => rfl, fun _ => rfl⟩
  | [relay] => exact safe_ret (answers_of_mem (hl ▸ hI) List.mem_cons_self)
  | a :: b :: l =>
    refine LiveSafe.bind (hmany _ t (List.cons_ne_nil _ _)) fun pick _ hmem => safe_ret ?_
    exact answers_of_mem (hl ▸ hI) hmem

/-- Every task keeps the live list free of empty entries. -/
theorem liveSafe_prog (task : SelTask) (s : RelaySelector) :
    LiveSafe P (fun r => ∀ x ∈ r, Answers x.1 x.2) (task.prog P) s := by
  cases task with
  | pick pa pb commit =>
    refine (liveSafe_pick pa pb commit s).bind fun r _ hr => safe_ret ?_
    intro x hx
    cases hx
    exact hr
  | setLive source =>
    simp only [SelTask.prog]
    cases hrel : source.relays P.toUnicode with
    | none => exact safe_ret fun x hx => by cases hx
    | some relays =>
      exact safe_op fun t _ _ now _ =>
        ⟨trivial, LiveSource.empty_notMem hrel, trivial, safe_ret fun x hx => by cases hx⟩
  | elsewhere sections =>
    simp only [SelTask.prog]
    induction sections generalizing s with
    | nil => exact safe_ret fun x hx => by cases hx
    | cons f sections ih => exact LiveSafe.op (fun _ _ => rfl) fun t now _ => ih _

end Safe

/-- **Only relays that answer are handed out.**  From a selector without relays, and
whatever else it holds, in every run of any number of tasks: a choice made without
interruption is of the live list of that moment, and one that other tasks interrupt is of
the list it read; both are empty exactly when that list is. -/
theorem only_live_relays {ι : Type} [DecidableEq ι] (P : Platform) {s : RelaySelector}
    (hs : s.live = []) (tasks : ι → SelTask)
    {c : Config SelSig RelaySelector ι (Option (List String × RelayPick))}
    (h : Reach (selMachine P) (fun _ _ _ => True) ⟨s, fun i => (tasks i).prog P⟩ c) :
    (∀ now pa pb commit, Answers c.st.live (c.st.pick P now pa pb commit).2) ∧
      ∀ i live pick, (c.task i).result? = some (some (live, pick)) → Answers live pick := by
  have hI : "" ∉ s.live := by
    rw [hs]
    exact List.not_mem_nil
  obtain ⟨hI', -, hsafe⟩ := Reach.safe (C := fun _ _ _ => True) (R := fun _ _ => True)
    (I := fun t : RelaySelector => "" ∉ t.live) (G := fun _ _ _ => True) (fun _ => trivial)
    (fun _ _ => trivial) (fun _ _ _ _ _ hq => hq) hI (fun i => liveSafe_prog (tasks i) s)
    (h.mono fun _ _ _ _ _ _ => trivial)
  constructor
  · intro now pa pb commit
    have hrun := (Safe.run (fun _ => trivial) (fun _ _ => trivial)
      (liveSafe_pick (P := P) pa pb commit c.st) hI' (e := now)).2
    rw [run_pickSections] at hrun
    exact hrun
  · intro i live pick hr
    have hi := hsafe i
    rw [Prog.eq_ret_of_result? hr] at hi
    exact hi (live, pick) rfl

/-- A relay list is taken over, and a choice is made. -/
def takeOver (i : Bool) : SelTask :=
  if i then .pick endA endB true else .setLive (.configured "a:1, b:1")

/-- First the list, then the choice. -/
def takenOver : Config SelSig RelaySelector Bool (Option (List String × RelayPick)) :=
  Config.sched (selMachine .plain) ⟨.ofLive [], fun i => (takeOver i).prog .plain⟩
    ((false, 0) :: List.replicate 10 (true, 0))

theorem only_live_relays_takenOver :
    takenOver.st.live = ["a:1", "b:1"] ∧ Answers ["a:1", "b:1"] ⟨"a:1", .roundRobin, []⟩ := by
  have hlive : takenOver.st.live = ["a:1", "b:1"] := by decide +kernel
  have hpick : (takenOver.task true).result? =
      some (some (["a:1", "b:1"], ⟨"a:1", .roundRobin, []⟩)) := by decide +kernel
  have hreach : Reach (selMachine .plain) (fun _ _ _ => True)
      ⟨.ofLive [], fun i => (takeOver i).prog .plain⟩ takenOver := reach_sched (along_true _ _)
  exact ⟨hlive, (only_live_relays .plain rfl takeOver hreach).2 true _ _ hpick⟩

end RustdeskServer
