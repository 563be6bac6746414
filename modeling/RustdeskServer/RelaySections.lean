import RustdeskServer.Atomic.Interleave
import RustdeskServer.RelayPins

/-!
# A choice of relay, section by section

`pick` takes one lock after another: it reads the live list, then the preferred relay, then
looks a held choice up, asks the tables for the two ends, takes a turn, and stores the new
choice.  Between any two of these other tasks may run.  This module cuts `pick` at its
sections.

The uninterrupted run of the sections is `RelaySelector.pick`, so what is known of the
function is known of them.

## Main definitions

* `SelOp`, `selMachine` — the sections and what they do.
* `pickSections` — `pick` as a program over them.
* `AsksFor` — a program that only reads the tables and takes turns.

## Main results

* `run_pickSections` — **uninterrupted, the sections are `pick`.**
-/

namespace RustdeskServer

open Atomic

/-- The locked sections and counter operations of the relay selector. -/
inductive SelOp
  /-- `live`. -/
  | live
  /-- `self.preferred.lock()`, the relay cloned. -/
  | preferred
  /-- `pinned_relay`, for the live list that was read. -/
  | pinnedRelay (key : IpAddr × IpAddr) (live : List String)
  /-- `self.routes.lock()`, then `costs_for`. -/
  | costsFor (ip : IpAddr)
  /-- `locate`. -/
  | locate (ip : IpAddr)
  /-- `self.geo.lock()`, then `costs_from`. -/
  | costsFrom (at_ : Geo.Point)
  /-- `ROTATION_RELAY_SERVER`: `fetch_add` with `commit`, `load` without. -/
  | rotation (commit : Bool)
  /-- `RELAY_PIN_TTL_MS.load`. -/
  | pinTtl
  /-- `pin_relay` from its lock on. -/
  | pinRelay (key : IpAddr × IpAddr) (relay : String) (ttl : ℕ)
  /-- `set_live`. -/
  | setLive (relays : List String)
  /-- A section of anything else: it may do whatever it likes but to the live list. -/
  | elsewhere (f : RelaySelector → RelaySelector)

/-- What a section answers. -/
@[reducible] def SelOp.Res : SelOp → Type
  | .live => List String
  | .preferred => Option String
  | .pinnedRelay _ _ => Option String
  | .costsFor _ => Option Costs
  | .locate _ => Option Geo.Point
  | .costsFrom _ => Option Costs
  | .rotation _ => ℕ
  | .pinTtl => ℕ
  | .pinRelay _ _ _ => Unit
  | .setLive _ => Unit
  | .elsewhere _ => Unit

/-- The signature of the selector. -/
abbrev SelSig : Sig := ⟨SelOp, SelOp.Res⟩

section Sections

variable (P : Platform)

/-- What each section does, at one reading of the clock. -/
def SelOp.exec (now : Instant) : (o : SelOp) → RelaySelector → RelaySelector × o.Res
  | .live, s => (s, s.live)
  | .preferred, s => (s, s.preferred.relay)
  | .pinnedRelay key relays, s =>
    match s.pins.lookup key with
    | some p =>
      if p.untilTime > now ∧ p.relay ∈ relays then (s, some p.relay)
      else ({ s with pins := s.pins.erase key }, none)
    | none => (s, none)
  | .costsFor ip, s => (s, s.routes.table.bind fun t => t.costsFor ip)
  | .locate ip, s => (s, s.locate ip)
  | .costsFrom at_, s =>
    (s, s.geo.locations.map fun l relay =>
      (l.lookup relay).map fun p => P.round (P.distanceKm at_ p / KM_PER_MS))
  | .rotation commit, s =>
    (if commit then { s with rotation := (s.rotation + 1) % 2 ^ 64 } else s, s.rotation)
  | .pinTtl, s => (s, s.pinTtlMs)
  | .pinRelay key relay ttl, s =>
    ({ s with pins := (RelaySelector.pinRelay { s with pinTtlMs := ttl } now key relay).pins }, ())
  | .setLive relays, s => (s.setLive relays, ())
  | .elsewhere f, s => ({ f s with live := s.live }, ())

/-- The selector's machine.  All that comes from outside is the time. -/
def selMachine : Machine SelSig RelaySelector Instant := ⟨SelOp.exec P⟩

/-- `side_costs`. -/
def sideCostsSections (ip : IpAddr) : Prog SelSig (Option (Costs × CostSource)) :=
  .op (.costsFor ip) fun costs : Option Costs =>
    match costs with
    | some costs => .ret (some (costs, .routes))
    | none =>
      .op (.locate ip) fun at_ : Option Geo.Point =>
        match at_ with
        | none => .ret none
        | some at_ => .op (.costsFrom at_) fun costs : Option Costs =>
            .ret (costs.map fun c => (c, .geo))

/-- The choice by cost or in turn, for what is known of the two ends. -/
def chooseSections (live : List String) (known : List (Costs × CostSource)) (commit : Bool) :
    Prog SelSig RelayPick :=
  match chooseFrom P.round P.toUnicode live (known.map Prod.fst) with
  | some c =>
    let reason :=
      if known.all fun k => k.2 = .routes then .routes
      else if known.all fun k => k.2 = .geo then .geo
      else .routesGeo
    .ret ⟨c.relay, reason, c.costs⟩
  | none =>
    .op (.rotation commit) fun n : ℕ => .ret ⟨live.getD (n % live.length) "", .roundRobin, []⟩

/-- The part of `pick` where no choice is held. -/
def freshSections (live : List String) (pa pb : IpAddr) (commit : Bool) :
    Prog SelSig RelayPick := do
  let a ← sideCostsSections pa
  let b ← sideCostsSections pb
  chooseSections P live (a.toList ++ b.toList) commit

/-- `pin_relay`. -/
def pinRelaySections (key : IpAddr × IpAddr) (relay : String) : Prog SelSig Unit :=
  .op .pinTtl fun ttl : ℕ =>
    if ttl = 0 then .ret () else .op (.pinRelay key relay ttl) fun _ => .ret ()

/-- The part of `pick` with more than one relay and no preferred one among them. -/
def amongSections (live : List String) (pa pb : IpAddr) (commit : Bool) :
    Prog SelSig RelayPick :=
  if commit then
    .op (.pinnedRelay (RelaySelector.pinKey pa pb) live) fun held : Option String =>
      match held with
      | some relay => .ret ⟨relay, .pinned, []⟩
      | none => do
        let pick ← freshSections P live pa pb true
        pinRelaySections (RelaySelector.pinKey pa pb) pick.relay
        .ret pick
  else freshSections P live pa pb false

/-- The part of `pick` with more than one relay. -/
def preferredSections (live : List String) (pa pb : IpAddr) (commit : Bool) :
    Prog SelSig RelayPick :=
  .op .preferred fun preferred : Option String =>
    match preferred with
    | some want =>
      match live.find? fun r => normalize P.toUnicode r = normalize P.toUnicode want with
      | some relay => .ret ⟨relay, .preferred, []⟩
      | none => amongSections P live pa pb commit
    | none => amongSections P live pa pb commit

/-- `pick` for the live list it has read. -/
def pickFrom (live : List String) (pa pb : IpAddr) (commit : Bool) : Prog SelSig RelayPick :=
  match live with
  | [] => .ret ⟨"", .noRelay, []⟩
  | [relay] => .ret ⟨relay, .onlyRelay, []⟩
  | _ => preferredSections P live pa pb commit

/-- `pick`, with the live list it read. -/
def pickSections (pa pb : IpAddr) (commit : Bool) : Prog SelSig (List String × RelayPick) :=
  .op .live fun live : List String => do
    let pick ← pickFrom P live pa pb commit
    .ret (live, pick)

end Sections

/-! ### Uninterrupted -/

section Run

variable {P : Platform} (now : Instant) (s : RelaySelector)

@[simp] theorem selMachine_exec (o : SelOp) : (selMachine P).exec now o s = o.exec P now s := rfl

/-- A look for a held choice finds one that holds, or leaves none. -/
theorem exec_pinnedRelay (key : IpAddr × IpAddr) (relays : List String) :
    (∃ pin, s.pins.lookup key = some pin ∧ now < pin.untilTime ∧ pin.relay ∈ relays ∧
        (SelOp.pinnedRelay key relays).exec P now s = (s, some pin.relay)) ∨
      (SelOp.pinnedRelay key relays).exec P now s =
        ({ s with pins := s.pins.erase key }, none) := by
  cases hpin : s.pins.lookup key with
  | none =>
    refine Or.inr ?_
    rw [RelaySelector.erase_of_lookup_none hpin]
    simp only [SelOp.exec, hpin]
  | some pin =>
    by_cases h : now < pin.untilTime ∧ pin.relay ∈ relays
    · exact Or.inl ⟨pin, rfl, h.1, h.2, by simp only [SelOp.exec, hpin, gt_iff_lt, if_pos h]⟩
    · exact Or.inr (by simp only [SelOp.exec, hpin, gt_iff_lt, if_neg h])

theorem run_sideCostsSections (ip : IpAddr) :
    (selMachine P).run now (sideCostsSections ip) s = (s, s.sideCosts P ip) := by
  simp only [sideCostsSections, Machine.run_op, selMachine_exec, SelOp.exec,
    RelaySelector.sideCosts]
  cases s.routes.table.bind fun t => t.costsFor ip with
  | some costs => rfl
  | none =>
    simp only [Machine.run_op, selMachine_exec, SelOp.exec]
    cases s.locate ip with
    | none => rfl
    | some at_ =>
      simp only [Machine.run_op, selMachine_exec, SelOp.exec, Machine.run_ret]
      cases s.geo.locations with
      | none => rfl
      | some l => rfl

theorem run_freshSections (pa pb : IpAddr) (commit : Bool) :
    (selMachine P).run now (freshSections P s.live pa pb commit) s = s.pickFresh P pa pb commit := by
  unfold freshSections RelaySelector.pickFresh
  rw [Machine.run_bind, run_sideCostsSections, Machine.run_bind, run_sideCostsSections]
  have hknown : (s.sideCosts P pa).toList ++ (s.sideCosts P pb).toList =
      [pa, pb].filterMap (s.sideCosts P) := by
    cases hpa : s.sideCosts P pa <;> cases hpb : s.sideCosts P pb <;> simp [hpa, hpb]
  simp only [hknown, chooseSections]
  cases chooseFrom P.round P.toUnicode s.live (([pa, pb].filterMap (s.sideCosts P)).map Prod.fst) with
  | some c => rfl
  | none => rfl

theorem run_pinRelaySections (key : IpAddr × IpAddr) (relay : String) :
    ((selMachine P).run now (pinRelaySections key relay) s).1 = s.pinRelay now key relay := by
  unfold pinRelaySections
  rw [Machine.run_op]
  change ((selMachine P).run now (if s.pinTtlMs = 0 then .ret ()
    else .op (.pinRelay key relay s.pinTtlMs) fun _ => .ret ()) s).1 = _
  by_cases httl : s.pinTtlMs = 0
  · rw [if_pos httl, Machine.run_ret]
    simp [RelaySelector.pinRelay, httl]
  · rw [if_neg httl]
    obtain ⟨pins, hpins⟩ := RelaySelector.pinRelay_state s now key relay
    simp only [Machine.run_op, selMachine_exec, SelOp.exec, Machine.run_ret]
    rw [hpins]

theorem run_amongSections (pa pb : IpAddr) (commit : Bool) :
    (selMachine P).run now (amongSections P s.live pa pb commit) s =
      s.pickAmong P now pa pb commit := by
  unfold amongSections RelaySelector.pickAmong
  cases commit with
  | false => exact run_freshSections now s pa pb false
  | true =>
    have hexec : (SelOp.pinnedRelay (RelaySelector.pinKey pa pb) s.live).exec P now s =
        s.pinnedRelay now (RelaySelector.pinKey pa pb) := rfl
    have hlive : (s.pinnedRelay now (RelaySelector.pinKey pa pb)).1.live = s.live := by
      unfold RelaySelector.pinnedRelay
      split
      · split <;> rfl
      · rfl
    simp only [if_true, Machine.run_op, selMachine_exec, hexec]
    generalize s.pinnedRelay now (RelaySelector.pinKey pa pb) = r at hlive
    obtain ⟨t, held⟩ := r
    cases held with
    | some relay => rfl
    | none =>
      rw [Machine.run_bind, ← hlive, run_freshSections, Machine.run_bind, Machine.run_ret,
        run_pinRelaySections]

theorem run_pickFrom (pa pb : IpAddr) (commit : Bool) :
    (selMachine P).run now (pickFrom P s.live pa pb commit) s = s.pick P now pa pb commit := by
  by_cases hmany : 1 < s.live.length
  · have hfrom : pickFrom P s.live pa pb commit = preferredSections P s.live pa pb commit := by
      unfold pickFrom
      split
      · next heq => simp [heq] at hmany
      · next heq => simp [heq] at hmany
      · rfl
    unfold RelaySelector.pick
    split
    · next heq => simp [heq] at hmany
    · next heq => simp [heq] at hmany
    · rw [hfrom]
      simp only [preferredSections, Machine.run_op, selMachine_exec, SelOp.exec]
      cases s.preferred.relay with
      | none => exact run_amongSections now s pa pb commit
      | some want =>
        cases hfind : s.live.find? fun r =>
          decide (normalize P.toUnicode r = normalize P.toUnicode want) with
        | none =>
          simp only [hfind]
          exact run_amongSections now s pa pb commit
        | some relay => simp only [hfind, Machine.run_ret]
  · rcases hl : s.live with _ | ⟨relay, _ | ⟨_, _⟩⟩
    · simp [pickFrom, RelaySelector.pick, hl]
    · simp [pickFrom, RelaySelector.pick, hl]
    · simp [hl] at hmany

/-- **Uninterrupted, the sections are `pick`.** -/
theorem run_pickSections (pa pb : IpAddr) (commit : Bool) :
    (selMachine P).run now (pickSections P pa pb commit) s =
      ((s.pick P now pa pb commit).1, s.live, (s.pick P now pa pb commit).2) := by
  unfold pickSections
  rw [Machine.run_op, Machine.run_bind, Machine.run_ret]
  change (((selMachine P).run now (pickFrom P s.live pa pb commit) s).1, s.live,
    ((selMachine P).run now (pickFrom P s.live pa pb commit) s).2) = _
  rw [run_pickFrom]

end Run

/-! ### What a fresh choice asks -/

section Asks

variable {P : Platform}

/-- An operation that reads the tables or takes a turn. -/
def SelOp.Asks : SelOp → Prop
  | .costsFor _ | .locate _ | .costsFrom _ | .rotation _ => True
  | _ => False

/-- The program only reads the tables and takes turns, and returns with `Q`. -/
def AsksFor {α : Type} (Q : α → Prop) : Prog SelSig α → Prop
  | .ret a => Q a
  | .op o k => o.Asks ∧ ∀ r, AsksFor Q (k r)

theorem AsksFor.bind {α β : Type} {Q : α → Prop} {Q' : β → Prop} {p : Prog SelSig α}
    {f : α → Prog SelSig β} (hp : AsksFor Q p) (hf : ∀ a, Q a → AsksFor Q' (f a)) :
    AsksFor Q' (p >>= f) := by
  induction p with
  | ret a => exact hf a hp
  | op o k ih => exact ⟨hp.1, fun r => ih r (hp.2 r)⟩

theorem asksFor_sideCosts (ip : IpAddr) : AsksFor (fun _ => True) (sideCostsSections ip) := by
  refine ⟨trivial, ?_⟩
  intro costs
  cases costs with
  | some costs => trivial
  | none =>
    refine ⟨trivial, ?_⟩
    intro at_
    cases at_ with
    | none => trivial
    | some at_ => exact ⟨trivial, fun _ => trivial⟩

theorem asksFor_fresh {live : List String} (hlive : live ≠ []) (pa pb : IpAddr) (commit : Bool) :
    AsksFor (fun pick : RelayPick => pick.relay ∈ live) (freshSections P live pa pb commit) := by
  refine (asksFor_sideCosts pa).bind fun a _ => (asksFor_sideCosts pb).bind ?_
  intro b _
  unfold chooseSections
  split
  · next hc => exact RelaySelector.chooseFrom_mem hc
  · exact ⟨trivial, fun n => RelaySelector.turn_mem hlive n⟩

end Asks

end RustdeskServer
