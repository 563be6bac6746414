import Mathlib.Algebra.BigOperators.Group.List.Basic
import RustdeskServer.RelaySections

/-!
# Two questions about one attempt, at the same time

Both ends of a session may ask for a relay at the same moment, each in a task of its own.
Looking a held choice up and storing a new one are two sections, and the turn is taken in
between: when both tasks look before either has stored, each takes a turn of its own and
the ends are handed different relays.

Where the tables know one of the ends the order does not matter, since the cheapest relay
is the same for both.  Otherwise the two agree in every run where no task looks while the
other is between its look and its store, and what is stored is still held when it is
looked up.

## Main definitions

* `Choosing` — the store of a new choice is still to come, and no look-up before it.
* `LooksApart` — the condition on a step.

## Main results

* `concurrent_picks_agree` — **two committed choices for one pair of ends agree** in every
  run whose steps meet the condition.
* `concurrent_picks_differ` — a run in which they do not.
-/

namespace RustdeskServer

open Atomic

/-- The result of one question: the live list it read, and the choice. -/
abbrev Picked := List String × RelayPick

/-- Two tasks that each commit to a choice for their own two ends. -/
def twoPicks (P : Platform) (s : RelaySelector) (ends : Bool → IpAddr × IpAddr) :
    Config SelSig RelaySelector Bool Picked where
  st := s
  task i := pickSections P (ends i).1 (ends i).2 true

/-- The program is between its look for a held choice and the store of a new one. -/
def Choosing {α : Type} : Prog SelSig α → Prop
  | .ret _ => False
  | .op o k =>
    match o with
    | .pinRelay _ _ _ => True
    | .pinnedRelay _ _ => False
    | _ => ∃ r, Choosing (k r)

/-- Where task `i` looks for a held choice, the other task is not about to store one, and
a choice that is stored has not expired. -/
def LooksApart (key : IpAddr × IpAddr) (c : Config SelSig RelaySelector Bool Picked) (i : Bool)
    (now : Instant) : Prop :=
  ∀ relays, (c.task i).next? = some (.pinnedRelay key relays) →
    ¬Choosing (c.task !i) ∧ ∀ pin ∈ c.st.pins.lookup key, now < pin.untilTime

/-- The tables know one of the two ends. -/
def KnownEnd (P : Platform) (s : RelaySelector) (pa pb : IpAddr) : Prop :=
  s.sideCosts P pa ≠ none ∨ s.sideCosts P pb ≠ none

/-! ### Where neither end is known -/

section Points

variable {P : Platform} {live : List String} {key : IpAddr × IpAddr}

/-- A task before its look for a held choice. -/
inductive Looks (P : Platform) (live : List String) (pa pb : IpAddr) : Prog SelSig Picked → Prop
  /-- Nothing is read. -/
  | begin : Looks P live pa pb (pickSections P pa pb true)
  /-- The live list is read. -/
  | many : Looks P live pa pb
      (preferredSections P live pa pb true >>= fun pick => .ret (live, pick))
  /-- There is no preferred relay. -/
  | among : Looks P live pa pb (amongSections P live pa pb true >>= fun pick => .ret (live, pick))

/-- A task after its look: whatever it is answered, it stores a relay of the live list and
returns it. -/
inductive Chooses (live : List String) (key : IpAddr × IpAddr) : Prog SelSig Picked → Prop
  /-- It asks the tables, or takes a turn. -/
  | ask {o : SelOp} {k : o.Res → Prog SelSig Picked} (ho : o.Asks)
      (h : ∀ r, Chooses live key (k r)) : Chooses live key (.op o k)
  /-- It reads for how long choices are held. -/
  | ttl {k : ℕ → Prog SelSig Picked} (h : ∀ ttl, ttl ≠ 0 → Chooses live key (k ttl)) :
      Chooses live key (.op .pinTtl k)
  /-- It stores. -/
  | pin {res : Picked} {ttl : ℕ} (hmem : res.2.relay ∈ live) (httl : ttl ≠ 0) :
      Chooses live key (.op (.pinRelay key res.2.relay ttl) fun _ => .ret res)

theorem AsksFor.chooses {α : Type} {Q : α → Prop} {p : Prog SelSig α}
    {f : α → Prog SelSig Picked} (hp : AsksFor Q p) (hf : ∀ a, Q a → Chooses live key (f a)) :
    Chooses live key (p >>= f) := by
  induction p with
  | ret a => exact hf a hp
  | op o k ih => exact .ask hp.1 fun r => ih r (hp.2 r)

/-- A look that finds nothing is followed by a choice. -/
theorem chooses_fresh (hlive : live ≠ []) (pa pb : IpAddr) :
    Chooses live (RelaySelector.pinKey pa pb)
      ((do
        let pick ← freshSections P live pa pb true
        pinRelaySections (RelaySelector.pinKey pa pb) pick.relay
        .ret pick) >>= fun pick => .ret (live, pick)) := by
  rw [Prog.bind_assoc]
  refine (asksFor_fresh hlive pa pb true).chooses ?_
  intro pick hmem
  refine .ttl ?_
  intro ttl httl
  dsimp only
  rw [if_neg httl]
  exact @Chooses.pin _ _ (live, pick) _ hmem httl

theorem Chooses.choosing {p : Prog SelSig Picked} (h : Chooses live key p) : Choosing p := by
  induction h with
  | @ask o k ho _ ih =>
    cases o with
    | costsFor ip => exact ⟨none, ih none⟩
    | locate ip => exact ⟨none, ih none⟩
    | costsFrom at_ => exact ⟨none, ih none⟩
    | rotation commit => exact ⟨(0 : ℕ), ih (0 : ℕ)⟩
    | _ => exact ho.elim
  | ttl _ ih => exact ⟨(1 : ℕ), ih 1 Nat.one_ne_zero⟩
  | pin _ _ => trivial

theorem not_choosing_preferred (live : List String) (pa pb : IpAddr) (f : RelayPick → Picked) :
    ¬Choosing (preferredSections P live pa pb true >>= fun pick => .ret (f pick)) := by
  unfold preferredSections
  rw [Prog.op_bind]
  rintro ⟨preferred, h⟩
  cases preferred with
  | none => exact h
  | some want =>
    -- it returns the preferred relay, or it looks
    dsimp only at h
    split at h
    · exact h
    · exact h

/-- Before its look a task is not about to store. -/
theorem Looks.not_choosing {pa pb : IpAddr} {p : Prog SelSig Picked} (h : Looks P live pa pb p) :
    ¬Choosing p := by
  cases h with
  | begin =>
    rintro ⟨relays, h⟩
    match relays, h with
    | _ :: _ :: _, h => exact not_choosing_preferred _ pa pb _ h
  | many => exact not_choosing_preferred live pa pb _
  | among => exact fun h => h

/-- What stays as it is while the two tasks run. -/
structure RaceFrame (live : List String) (t : RelaySelector) : Prop where
  /-- The live list. -/
  live : t.live = live
  /-- There is more than one relay. -/
  many : 2 ≤ t.live.length
  /-- No relay is preferred. -/
  preferred : t.preferred.relay = none
  /-- Choices are held. -/
  ttl : t.pinTtlMs ≠ 0

/-- A step before the look reads and goes on, or is the look. -/
theorem Looks.op {pa pb : IpAddr} {p : Prog SelSig Picked} (h : Looks P live pa pb p)
    {t : RelaySelector} (ht : RaceFrame live t) (now : Instant) :
    (∃ (o : SelOp) (k : o.Res → Prog SelSig Picked), p = .op o k ∧ (o.exec P now t).1 = t ∧
        Looks P live pa pb (k (o.exec P now t).2)) ∨
      ∃ k : Option String → Prog SelSig Picked,
        p = .op (.pinnedRelay (RelaySelector.pinKey pa pb) live) k ∧
          (∀ relay, k (some relay) = .ret (live, ⟨relay, .pinned, []⟩)) ∧
          Chooses live (RelaySelector.pinKey pa pb) (k none) := by
  cases h with
  | begin =>
    refine Or.inl ⟨.live, _, rfl, rfl, ?_⟩
    have hmany : 2 ≤ live.length := ht.live ▸ ht.many
    have hfrom : pickFrom P live pa pb true = preferredSections P live pa pb true := by
      match live, hmany with
      | _ :: _ :: _, _ => rfl
    change Looks P live pa pb (pickFrom P t.live pa pb true >>= fun pick => .ret (t.live, pick))
    rw [ht.live, hfrom]
    exact .many
  | many =>
    refine Or.inl ⟨.preferred, _, rfl, rfl, ?_⟩
    rw [show (SelOp.preferred.exec P now t).2 = none from ht.preferred]
    exact .among
  | among =>
    have hlive : live ≠ [] := by
      rintro rfl
      have hmany := ht.many
      rw [ht.live] at hmany
      exact absurd hmany (by decide)
    exact Or.inr ⟨_, rfl, fun _ => rfl, chooses_fresh hlive pa pb⟩

/-- A step after the look asks and goes on, or is the store. -/
theorem Chooses.op {p : Prog SelSig Picked} (h : Chooses live key p) {t : RelaySelector}
    (ht : RaceFrame live t) (now : Instant) :
    (∃ (o : SelOp) (k : o.Res → Prog SelSig Picked), p = .op o k ∧
        RaceFrame live (o.exec P now t).1 ∧ (o.exec P now t).1.pins = t.pins ∧
        Chooses live key (k (o.exec P now t).2)) ∨
      ∃ (res : Picked) (ttl : ℕ), p = .op (.pinRelay key res.2.relay ttl) (fun _ => .ret res) ∧
        res.2.relay ∈ live ∧ ttl ≠ 0 := by
  cases h with
  | @ask o k ho hk =>
    refine Or.inl ⟨o, k, rfl, ?_, ?_, hk _⟩
    · cases o with
      | costsFor _ | locate _ | costsFrom _ => exact ht
      | rotation commit =>
        cases commit with
        | true => exact ⟨ht.live, ht.many, ht.preferred, ht.ttl⟩
        | false => exact ht
      | _ => exact ho.elim
    · cases o with
      | costsFor _ | locate _ | costsFrom _ => rfl
      | rotation commit => cases commit <;> rfl
      | _ => exact ho.elim
  | ttl hk => exact Or.inl ⟨.pinTtl, _, rfl, ht, rfl, hk _ ht.ttl⟩
  | pin hmem httl => exact Or.inr ⟨_, _, rfl, hmem, httl⟩

variable {ends : Bool → IpAddr × IpAddr}

/-- How far the two tasks are, by the choice that is stored. -/
inductive RacePoints (P : Platform) (live : List String) (key : IpAddr × IpAddr)
    (ends : Bool → IpAddr × IpAddr) : Option RelayPin → (Bool → Prog SelSig Picked) → Prop
  /-- Neither has looked. -/
  | looking {task : Bool → Prog SelSig Picked}
      (h : ∀ i, Looks P live (ends i).1 (ends i).2 (task i)) : RacePoints P live key ends none task
  /-- One has looked and not stored. -/
  | choosing {task : Bool → Prog SelSig Picked} (i : Bool) (hi : Chooses live key (task i))
      (hother : Looks P live (ends !i).1 (ends !i).2 (task !i)) :
      RacePoints P live key ends none task
  /-- A choice is stored, and who is done has it. -/
  | chosen {task : Bool → Prog SelSig Picked} (pin : RelayPin) (hmem : pin.relay ∈ live)
      (h : ∀ i, Looks P live (ends i).1 (ends i).2 (task i) ∨
        ∃ res, task i = .ret res ∧ res.2.relay = pin.relay) :
      RacePoints P live key ends (some pin) task

/-- The invariant of the runs whose looks are apart. -/
def RaceInv (P : Platform) (live : List String) (key : IpAddr × IpAddr)
    (ends : Bool → IpAddr × IpAddr) (c : Config SelSig RelaySelector Bool Picked) : Prop :=
  RaceFrame live c.st ∧ RacePoints P live key ends (c.st.pins.lookup key) c.task

theorem exec_pinned_none {t : RelaySelector} (h : t.pins.lookup key = none) (now : Instant) :
    (SelOp.pinnedRelay key live).exec P now t = (t, none) := by
  simp [SelOp.exec, h]

theorem exec_pinned_some {t : RelaySelector} {pin : RelayPin} (h : t.pins.lookup key = some pin)
    {now : Instant} (huntil : now < pin.untilTime) (hmem : pin.relay ∈ live) :
    (SelOp.pinnedRelay key live).exec P now t = (t, some pin.relay) := by
  simp [SelOp.exec, h, huntil, hmem]

theorem bool_eq_or (i j : Bool) : j = i ∨ j = !i := by
  cases i <;> cases j <;> decide

/-- Replacing what is left of one task keeps a property of tasks that the new rest has. -/
theorem update_all {Q : Bool → Prog SelSig Picked → Prop} {task : Bool → Prog SelSig Picked}
    {i : Bool} {p : Prog SelSig Picked} (hp : Q i p) (j : Bool) (hj : Q j (task j)) :
    Q j (Function.update task i p j) := by
  by_cases hji : j = i
  · subst hji
    rw [Function.update_self]
    exact hp
  · rw [Function.update_of_ne hji]
    exact hj

section Step

variable {c : Config SelSig RelaySelector Bool Picked} {i : Bool} {now : Instant}

/-- A task that has not looked reads, and still has to look. -/
theorem RacePoints.read {held : Option RelayPin} {task : Bool → Prog SelSig Picked}
    (h : RacePoints P live key ends held task)
    (hi : Looks P live (ends i).1 (ends i).2 (task i)) {p : Prog SelSig Picked}
    (hp : Looks P live (ends i).1 (ends i).2 p) :
    RacePoints P live key ends held (Function.update task i p) := by
  cases h with
  | looking h =>
    exact .looking fun j =>
      update_all (Q := fun j p => Looks P live (ends j).1 (ends j).2 p) hp j (h j)
  | choosing j hj hother =>
    have hne : j ≠ i := by
      rintro rfl
      exact hi.not_choosing hj.choosing
    refine .choosing j ?_ ?_
    · rw [Function.update_of_ne hne]
      exact hj
    · exact update_all (Q := fun j p => Looks P live (ends j).1 (ends j).2 p) hp _ hother
  | chosen pin hmem h =>
    exact .chosen pin hmem fun j => update_all
      (Q := fun j p => Looks P live (ends j).1 (ends j).2 p ∨
        ∃ res, p = .ret res ∧ res.2.relay = pin.relay) (Or.inl hp) j (h j)

/-- The step of a task that has not looked. -/
theorem RaceInv.step_looks (h : RaceInv P live key ends c)
    (hkey : RelaySelector.pinKey (ends i).1 (ends i).2 = key)
    (hi : Looks P live (ends i).1 (ends i).2 (c.task i)) (hok : LooksApart key c i now) :
    RaceInv P live key ends (c.step (selMachine P) i now) := by
  obtain ⟨hf, hp⟩ := h
  rcases hi.op hf now with ⟨o, k, htask, hst, hk⟩ | ⟨k, htask, hsome, hnone⟩
  · rw [Config.step_op _ htask, selMachine_exec, hst]
    exact ⟨hf, hp.read hi hk⟩
  · rw [hkey] at htask hnone
    obtain ⟨hother, huntil⟩ := hok live (by rw [htask]; rfl)
    rw [Config.step_op _ htask, selMachine_exec]
    cases hpin : c.st.pins.lookup key with
    | none =>
      rw [exec_pinned_none hpin]
      rw [hpin] at hp
      cases hp with
      | looking h =>
        refine ⟨hf, ?_⟩
        dsimp only
        rw [hpin]
        refine .choosing i ?_ ?_
        · rw [Function.update_self]
          exact hnone
        · rw [Function.update_of_ne (by simp)]
          exact h _
      | choosing j hj _ =>
        -- the other one would be between its look and its store
        rcases bool_eq_or i j with rfl | rfl
        · exact absurd hj.choosing hi.not_choosing
        · exact absurd hj.choosing hother
    | some pin =>
      rw [hpin] at hp
      cases hp with
      | chosen _ hmem h =>
        rw [exec_pinned_some hpin (huntil pin hpin) hmem]
        refine ⟨hf, ?_⟩
        dsimp only
        rw [hpin]
        exact .chosen pin hmem fun j => update_all
          (Q := fun j p => Looks P live (ends j).1 (ends j).2 p ∨
            ∃ res, p = .ret res ∧ res.2.relay = pin.relay) (Or.inr ⟨_, hsome _, rfl⟩) j (h j)

/-- The step of a task that has looked and not stored. -/
theorem RaceInv.step_chooses (hf : RaceFrame live c.st) (hpin : c.st.pins.lookup key = none)
    (hi : Chooses live key (c.task i)) (hother : Looks P live (ends !i).1 (ends !i).2 (c.task !i)) :
    RaceInv P live key ends (c.step (selMachine P) i now) := by
  have hne : (!i) ≠ i := by simp
  rcases hi.op hf now with ⟨o, k, htask, hf', hpins, hk⟩ | ⟨res, ttl, htask, hmem, httl⟩
  · rw [Config.step_op _ htask]
    refine ⟨hf', ?_⟩
    dsimp only
    rw [selMachine_exec, hpins, hpin]
    refine .choosing i ?_ ?_
    · rw [Function.update_self]
      exact hk
    · rw [Function.update_of_ne hne]
      exact hother
  · rw [Config.step_op _ htask]
    have hpinned := RelaySelector.pinRelay_self (s := { c.st with pinTtlMs := ttl })
      (Nat.pos_of_ne_zero httl) now key res.2.relay
    refine ⟨⟨hf.live, hf.many, hf.preferred, hf.ttl⟩, ?_⟩
    dsimp only [selMachine_exec, SelOp.exec]
    rw [hpinned]
    refine .chosen _ hmem ?_
    intro j
    rcases bool_eq_or i j with rfl | rfl
    · rw [Function.update_self]
      exact Or.inr ⟨res, rfl, rfl⟩
    · rw [Function.update_of_ne hne]
      exact Or.inl hother

/-- **A step that looks apart keeps the invariant.** -/
theorem RaceInv.step (h : RaceInv P live key ends c)
    (hkey : ∀ i, RelaySelector.pinKey (ends i).1 (ends i).2 = key)
    (hok : LooksApart key c i now) : RaceInv P live key ends (c.step (selMachine P) i now) := by
  obtain ⟨hf, hp⟩ := id h
  generalize hpin : c.st.pins.lookup key = held at hp
  cases hp with
  | looking hall => exact h.step_looks (hkey i) (hall i) hok
  | choosing j hj hother =>
    rcases bool_eq_or j i with rfl | rfl
    · exact RaceInv.step_chooses hf hpin hj hother
    · exact h.step_looks (hkey _) hother hok
  | chosen pin hmem hall =>
    rcases hall i with hi | ⟨res, hi, -⟩
    · exact h.step_looks (hkey i) hi hok
    · rw [Config.step_ret _ hi]
      exact h

end Step

theorem Looks.not_done {pa pb : IpAddr} {p : Prog SelSig Picked} (h : Looks P live pa pb p) :
    p.result? = none := by
  cases h <;> rfl

/-- Two tasks that are done have the same relay. -/
theorem RacePoints.agree {held : Option RelayPin} {task : Bool → Prog SelSig Picked}
    (h : RacePoints P live key ends held task) {r r' : Picked}
    (hr : (task false).result? = some r) (hr' : (task true).result? = some r') :
    r.2.relay = r'.2.relay := by
  have hdone : ∀ i, ∃ r, (task i).result? = some r := by
    intro i
    cases i with
    | false => exact ⟨r, hr⟩
    | true => exact ⟨r', hr'⟩
  cases h with
  | looking h =>
    rw [(h false).not_done] at hr
    cases hr
  | choosing i _ hother =>
    obtain ⟨r, hr⟩ := hdone !i
    rw [hother.not_done] at hr
    cases hr
  | chosen pin _ h =>
    have hpin : ∀ i r, (task i).result? = some r → r.2.relay = pin.relay := by
      intro i r hr
      rcases h i with hi | ⟨res, hi, hres⟩
      · rw [hi.not_done] at hr
        cases hr
      · rw [hi, Prog.result?_ret, Option.some.injEq] at hr
        rw [← hr]
        exact hres
    exact (hpin _ _ hr).trans (hpin _ _ hr').symm

end Points

/-! ### Where one end is known -/

section Known

variable {P : Platform} {s : RelaySelector} {key : IpAddr × IpAddr} {relay : String}

/-- The sum of two costs does not depend on their order, however it is rounded. -/
theorem sumCosts_perm (round : ℚ → ℚ) {l l' : List ℚ} (h : l.Perm l') (htwo : l.length ≤ 2) :
    sumCosts round l = sumCosts round l' := by
  induction h with
  | nil => rfl
  | @cons x l l' h _ =>
    have hone : l.length ≤ 1 := by simpa using htwo
    have heq : l = l' := by
      match l, hone with
      | [], _ => exact (List.nil_perm.mp h).symm
      | [y], _ => exact List.singleton_perm.mp h
    rw [heq]
  | swap x y l =>
    have hnil : l = [] := by simpa using htwo
    rw [hnil]
    exact congrArg round (add_comm y x)
  | trans h _ ih ih' => rw [ih htwo, ih' (h.length_eq ▸ htwo)]

theorem chooseFrom_congr_totals {round : ℚ → ℚ} {U : Unicode} {healthy : List String}
    {sides sides' : List Costs} (h : sides.Perm sides')
    (htotals : totals round U healthy sides = totals round U healthy sides') :
    chooseFrom round U healthy sides = chooseFrom round U healthy sides' := by
  unfold chooseFrom
  rw [htotals, h.isEmpty_eq]

/-- The cheapest relay does not depend on which end asks. -/
theorem chooseFrom_perm (round : ℚ → ℚ) (U : Unicode) (healthy : List String)
    {sides sides' : List Costs} (h : sides.Perm sides') (htwo : sides.length ≤ 2) :
    chooseFrom round U healthy sides = chooseFrom round U healthy sides' := by
  refine chooseFrom_congr_totals h (List.map_congr_left ?_)
  intro r _
  rw [sumCosts_perm round (h.map _) (by rwa [List.length_map])]

/-- The ends that are known are at most two. -/
theorem known_length_le {P : Platform} (s : RelaySelector) (pa pb : IpAddr) :
    (([pa, pb].filterMap (s.sideCosts P)).map Prod.fst).length ≤ 2 := by
  rw [List.length_map]
  exact List.length_filterMap_le _ _

/-- What holds while the two tasks run: the tables stay, and a stored choice names the
cheapest relay. -/
structure KnownInv (s : RelaySelector) (key : IpAddr × IpAddr) (relay : String)
    (t : RelaySelector) : Prop where
  /-- The live list. -/
  live : t.live = s.live
  /-- No relay is preferred. -/
  preferred : t.preferred.relay = none
  /-- The routing table. -/
  routes : t.routes = s.routes
  /-- The locations. -/
  geo : t.geo = s.geo
  /-- The stored choice. -/
  pinned : ∀ pin ∈ t.pins.lookup key, pin.relay = relay

/-- The judgement under that invariant. -/
abbrev KnownSafe (P : Platform) (s : RelaySelector) (key : IpAddr × IpAddr) (relay : String)
    {α : Type} (Q : α → Prop) (p : Prog SelSig α) (t : RelaySelector) : Prop :=
  Safe (selMachine P) (fun _ _ _ => True) (KnownInv s key relay) (fun _ _ => True)
    (fun _ _ _ => True) (fun a _ => Q a) p t

theorem KnownSafe.bind {α β : Type} {Q : α → Prop} {Q' : β → Prop} {p : Prog SelSig α}
    {f : α → Prog SelSig β} {t : RelaySelector} (hp : KnownSafe P s key relay Q p t)
    (hf : ∀ a t, Q a → KnownSafe P s key relay Q' (f a) t) :
    KnownSafe P s key relay Q' (p >>= f) t :=
  Safe.bind (fun _ _ => trivial) trivial hp fun a t _ ha => hf a t ha

theorem KnownSafe.op {α : Type} {Q : α → Prop} {o : SelOp} {k : o.Res → Prog SelSig α}
    {t : RelaySelector}
    (h : ∀ t now, KnownInv s key relay t → KnownInv s key relay (o.exec P now t).1 ∧
      KnownSafe P s key relay Q (k (o.exec P now t).2) (o.exec P now t).1) :
    KnownSafe P s key relay Q (.op o k) t :=
  safe_op fun t _ hI now _ => ⟨trivial, (h t now hI).1, trivial, (h t now hI).2⟩

theorem knownSafe_sideCosts (ip : IpAddr) (t : RelaySelector) :
    KnownSafe P s key relay (fun r => r = s.sideCosts P ip) (sideCostsSections ip) t := by
  refine KnownSafe.op fun t now hI => ⟨hI, ?_⟩
  -- the answer of a section is what the tables of the start say
  have hexec : ((SelOp.costsFor ip).exec P now t).2 =
      s.routes.table.bind fun tab => tab.costsFor ip := by
    simp only [SelOp.exec, hI.routes]
  rw [hexec]
  unfold RelaySelector.sideCosts
  cases s.routes.table.bind fun tab => tab.costsFor ip with
  | some costs => exact safe_ret rfl
  | none =>
    refine KnownSafe.op fun t now hI => ⟨hI, ?_⟩
    have hexec : ((SelOp.locate ip).exec P now t).2 = s.locate ip := by
      simp only [SelOp.exec, RelaySelector.locate, hI.geo]
    rw [hexec]
    cases s.locate ip with
    | none => exact safe_ret rfl
    | some at_ =>
      refine KnownSafe.op fun t now hI => ⟨hI, safe_ret ?_⟩
      simp only [SelOp.exec, hI.geo]
      cases s.geo.locations with
      | none => rfl
      | some l => rfl

/-- The choice by cost, for two ends of which one is known. -/
theorem knownSafe_fresh {pa pb : IpAddr} {c : Choice}
    (hc : chooseFrom P.round P.toUnicode s.live (([pa, pb].filterMap (s.sideCosts P)).map Prod.fst) = some c)
    (t : RelaySelector) :
    KnownSafe P s key relay (fun pick => pick.relay = c.relay)
      (freshSections P s.live pa pb true) t := by
  refine (knownSafe_sideCosts pa t).bind ?_
  intro a t ha
  refine (knownSafe_sideCosts pb t).bind ?_
  intro b t hb
  have hknown : a.toList ++ b.toList = [pa, pb].filterMap (s.sideCosts P) := by
    rw [ha, hb]
    cases hpa : s.sideCosts P pa <;> cases hpb : s.sideCosts P pb <;> simp [hpa, hpb]
  unfold chooseSections
  rw [hknown, hc]
  exact safe_ret rfl

/-- Storing the cheapest relay. -/
theorem knownSafe_pinRelay (t : RelaySelector) :
    KnownSafe P s key relay (fun _ => True) (pinRelaySections key relay) t := by
  refine KnownSafe.op fun t now hI => ⟨hI, Safe.ite (fun _ => safe_ret trivial) ?_⟩
  intro httl
  refine KnownSafe.op fun t' now' hI' => ⟨?_, safe_ret trivial⟩
  have hpinned := RelaySelector.pinRelay_self (s := { t' with pinTtlMs := t.pinTtlMs })
    (Nat.pos_of_ne_zero httl) now' key relay
  refine ⟨hI'.live, hI'.preferred, hI'.routes, hI'.geo, ?_⟩
  intro pin hpin
  rw [Option.mem_def] at hpin
  cases hpinned.symm.trans hpin
  rfl

/-- Looking a stored choice up. -/
theorem KnownInv.lookup {t : RelaySelector} (hI : KnownInv s key relay t) (now : Instant)
    (relays : List String) :
    KnownInv s key relay ((SelOp.pinnedRelay key relays).exec P now t).1 ∧
      ∀ r ∈ ((SelOp.pinnedRelay key relays).exec P now t).2, r = relay := by
  rcases exec_pinnedRelay (P := P) now t key relays with ⟨pin, hpin, -, -, h⟩ | h
  · rw [h]
    refine ⟨hI, ?_⟩
    intro r hr
    cases hr
    exact hI.pinned pin hpin
  · rw [h]
    refine ⟨⟨hI.live, hI.preferred, hI.routes, hI.geo, fun pin hpin => ?_⟩, fun r hr => by cases hr⟩
    rw [AList.lookup_erase] at hpin
    cases hpin

/-- **Where one end is known, every task answers the cheapest relay**, whatever the others
do. -/
theorem knownSafe_pick {pa pb : IpAddr} {c : Choice} (hkey : RelaySelector.pinKey pa pb = key)
    (hmany : 2 ≤ s.live.length)
    (hc : chooseFrom P.round P.toUnicode s.live (([pa, pb].filterMap (s.sideCosts P)).map Prod.fst) = some c)
    (t : RelaySelector) :
    KnownSafe P s key c.relay (fun res : Picked => res.2.relay = c.relay)
      (pickSections P pa pb true) t := by
  have hfrom : pickFrom P s.live pa pb true = preferredSections P s.live pa pb true := by
    match s.live, hmany with
    | _ :: _ :: _, _ => rfl
  have hpick : ∀ t, KnownSafe P s key c.relay (fun pick : RelayPick => pick.relay = c.relay)
      (preferredSections P s.live pa pb true) t := by
    intro t
    refine KnownSafe.op fun t now hI => ⟨hI, ?_⟩
    have hnone : (SelOp.preferred.exec P now t).2 = none := hI.preferred
    rw [hnone]
    refine KnownSafe.op ?_
    intro t now hI
    rw [hkey]
    obtain ⟨hI', hheld⟩ := hI.lookup (P := P) now s.live
    refine ⟨hI', ?_⟩
    cases hans : ((SelOp.pinnedRelay key s.live).exec P now t).2 with
    | some r =>
      rw [hans] at hheld
      exact safe_ret (hheld r rfl)
    | none =>
      refine (knownSafe_fresh hc _).bind ?_
      intro pick t hpick
      rw [hpick]
      exact (knownSafe_pinRelay t).bind fun _ _ _ => safe_ret hpick
  refine KnownSafe.op fun t now hI => ⟨hI, ?_⟩
  have hlive : (SelOp.live.exec P now t).2 = s.live := hI.live
  rw [hlive, hfrom]
  exact (hpick _).bind fun pick _ h => safe_ret h

end Known

/-! ### The two together -/

theorem pinKey_comm (pa pb : IpAddr) : RelaySelector.pinKey pa pb = RelaySelector.pinKey pb pa :=
  SameEnds.pinKey_eq (Or.inr ⟨rfl, rfl⟩)

/-- Where one end is known and there are relays, the cheapest is chosen. -/
theorem chooseFrom_known {P : Platform} {s : RelaySelector} {pa pb : IpAddr}
    (h : KnownEnd P s pa pb) (hlive : s.live ≠ []) :
    ∃ c, chooseFrom P.round P.toUnicode s.live (([pa, pb].filterMap (s.sideCosts P)).map Prod.fst) =
      some c := by
  have hsides : (([pa, pb].filterMap (s.sideCosts P)).map Prod.fst).isEmpty = false := by
    cases hpa : s.sideCosts P pa with
    | some a => simp [hpa]
    | none =>
      cases hpb : s.sideCosts P pb with
      | some b => simp [hpa, hpb]
      | none => exact absurd h (by simp [KnownEnd, hpa, hpb])
  unfold chooseFrom
  rw [hsides, if_neg Bool.false_ne_true]
  cases hl : s.live with
  | nil => exact absurd hl hlive
  | cons r rest => exact ⟨_, rfl⟩

/-- **Two committed choices for one pair of ends agree**, in every run in which one end is
known to the tables or no task looks for a held choice while the other is about to store
one or after what was stored has expired. -/
theorem concurrent_picks_agree (P : Platform) {s : RelaySelector} {ends : Bool → IpAddr × IpAddr}
    (hends : ends true = ends false ∨ ends true = (ends false).swap) (httl : 0 < s.pinTtlMs)
    (hlive : 2 ≤ s.live.length) (hpref : s.preferred.relay = none)
    (hpin : s.pins.lookup (RelaySelector.pinKey (ends false).1 (ends false).2) = none)
    {c : Config SelSig RelaySelector Bool Picked}
    (h : Reach (selMachine P) (fun c i now => KnownEnd P s (ends false).1 (ends false).2 ∨
      LooksApart (RelaySelector.pinKey (ends false).1 (ends false).2) c i now) (twoPicks P s ends) c)
    {r r' : Picked} (hr : (c.task false).result? = some r) (hr' : (c.task true).result? = some r') :
    r.2.relay = r'.2.relay := by
  have hkey : ∀ i, RelaySelector.pinKey (ends i).1 (ends i).2 =
      RelaySelector.pinKey (ends false).1 (ends false).2 := by
    intro i
    cases i with
    | false => rfl
    | true =>
      rcases hends with he | he
      · rw [he]
      · rw [he]
        exact pinKey_comm _ _
  have hne : s.live ≠ [] := by
    intro hnil
    simp [hnil] at hlive
  by_cases hknown : KnownEnd P s (ends false).1 (ends false).2
  · obtain ⟨ch, hch⟩ := chooseFrom_known hknown hne
    have hch' : ∀ i, chooseFrom P.round P.toUnicode s.live
        (([(ends i).1, (ends i).2].filterMap (s.sideCosts P)).map Prod.fst) = some ch := by
      intro i
      cases i with
      | false => exact hch
      | true =>
        rcases hends with he | he
        · rw [he]
          exact hch
        · rw [he, ← hch]
          exact chooseFrom_perm _ _ _ (((List.Perm.swap _ _ []).filterMap _).map _)
            (known_length_le s _ _)
    have hinv : KnownInv s (RelaySelector.pinKey (ends false).1 (ends false).2) ch.relay s :=
      ⟨rfl, hpref, rfl, rfl, fun pin hp => by rw [hpin] at hp; cases hp⟩
    obtain ⟨-, -, hsafe⟩ := Reach.safe (C := fun _ _ _ => True) (fun _ => trivial)
      (fun _ _ => trivial) (fun _ _ _ _ _ hq => hq) hinv
      (fun i => knownSafe_pick (hkey i) hlive (hch' i) s) (h.mono fun _ _ _ _ _ _ => trivial)
    have hres : ∀ i r, (c.task i).result? = some r → r.2.relay = ch.relay := by
      intro i r hr
      have hi := hsafe i
      rw [Prog.eq_ret_of_result? hr] at hi
      exact hi
    exact (hres _ _ hr).trans (hres _ _ hr').symm
  · have hinv : RaceInv P s.live (RelaySelector.pinKey (ends false).1 (ends false).2) ends c := by
      refine Reach.inv ⟨⟨rfl, hlive, hpref, Nat.pos_iff_ne_zero.mp httl⟩, ?_⟩
        (fun c i now hc hok => hc.step hkey (hok.resolve_left hknown)) h
      rw [show (twoPicks P s ends).st = s from rfl, hpin]
      exact .looking fun i => .begin
    exact hinv.2.agree hr hr'

/-- Both ends of a session, each asking with itself first. -/
def bothEnds (i : Bool) : IpAddr × IpAddr := if i then (endB, endA) else (endA, endB)

/-- The two tasks, where nothing is known of either end. -/
def asking : Config SelSig RelaySelector Bool Picked :=
  twoPicks .plain twoAnswering.sel bothEnds

/-- One task runs to its end, then the other. -/
def oneAfterTheOther : List (Bool × Instant) :=
  List.replicate 10 (false, 0) ++ List.replicate 3 (true, 1)

/-- Both tasks look, then both choose. -/
def bothLookFirst : List (Bool × Instant) :=
  List.replicate 3 (false, 0) ++ List.replicate 3 (true, 0) ++ List.replicate 7 (false, 0) ++
    List.replicate 7 (true, 0)

theorem concurrent_picks_differ :
    (bothEnds true = (bothEnds false).swap ∧ 0 < asking.st.pinTtlMs ∧
      2 ≤ asking.st.live.length ∧ asking.st.preferred.relay = none ∧
      asking.st.pins.lookup (RelaySelector.pinKey endA endB) = none) ∧
    (((asking.sched (selMachine .plain) bothLookFirst).task false).result?.map
      fun r => r.2.relay) = some "a:1" ∧
    (((asking.sched (selMachine .plain) bothLookFirst).task true).result?.map
      fun r => r.2.relay) = some "b:1" := by
  decide

/-- A step that is no look for a held choice looks apart. -/
theorem looksApart_of_next {key : IpAddr × IpAddr} {c : Config SelSig RelaySelector Bool Picked}
    {i : Bool} {now : Instant} {o : SelOp} (ho : (c.task i).next? = some o)
    (hne : ∀ key relays, o ≠ .pinnedRelay key relays) : LooksApart key c i now := by
  intro relays h
  rw [ho, Option.some.injEq] at h
  exact absurd h (hne _ _)

theorem concurrent_picks_agree_apart :
    ∃ r r', ((asking.sched (selMachine .plain) oneAfterTheOther).task false).result? = some r ∧
      ((asking.sched (selMachine .plain) oneAfterTheOther).task true).result? = some r' ∧
      r.2.relay = r'.2.relay := by
  refine ⟨_, _, rfl, rfl, @concurrent_picks_agree .plain twoAnswering.sel bothEnds
    (Or.inr (by decide)) (by decide) (by decide) rfl rfl _
    (reach_sched (l := oneAfterTheOther) ?_) _ _ rfl rfl⟩
  have hother : ¬Choosing ((asking.sched (selMachine .plain) (oneAfterTheOther.take 2)).task true) :=
    @Looks.not_choosing _ [] _ _ _ Looks.begin
  -- the first task to its end, then the second
  refine ⟨Or.inr (looksApart_of_next rfl nofun), Or.inr (looksApart_of_next rfl nofun),
    Or.inr fun _ _ => ⟨hother, nofun⟩, Or.inr (looksApart_of_next rfl nofun),
    Or.inr (looksApart_of_next rfl nofun), Or.inr (looksApart_of_next rfl nofun),
    Or.inr (looksApart_of_next rfl nofun), Or.inr (looksApart_of_next rfl nofun),
    Or.inr (looksApart_of_next rfl nofun), Or.inr (looksApart_of_next rfl nofun),
    Or.inr (looksApart_of_next rfl nofun), Or.inr (looksApart_of_next rfl nofun),
    Or.inr fun _ _ => ⟨id, by decide⟩, trivial⟩

end RustdeskServer
