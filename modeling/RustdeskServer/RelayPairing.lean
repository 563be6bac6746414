import RustdeskServer.RelayExpiry
import RustdeskServer.RelayTaker

/-!
# Two connections with one `uuid`

The two ends of a session reach the relay server at nearly the same moment.  Each looks
into `PEERS`, and leaves its stream there if it finds none; the look and the leaving are
two acquisitions of the lock.  When both look before either has left its stream, both go
on to wait, and the second drops the stream of the first.

They do find each other in every run where no connection looks while the other is between
its look and its leaving, nor after the other's half minute is over.

## Main definitions

* `LooksPromptly` — the condition on a step; `Promptly` adds that of the clock.
* `Course` — how far the two are, with everything that has happened under their `uuid`.

## Main results

* `pairs_once` — **exactly one of the two takes the other's stream and relays with it** in
  every run whose steps meet the condition, and no stream is dropped.
* `both_wait` — a run in which both wait and one stream is dropped.
-/

namespace RustdeskServer

namespace Hbbr

open Atomic

/-- Where a connection looks for a partner under `uuid`, no other one is between its look
and its leaving, and a stream that was left by one that asks for the same has not expired. -/
def LooksPromptly (key : String) (conns : ConnId → Conn) (cfg : Config RelaySig State ConnId Unit)
    (c : ConnId) (e : Env) : Prop :=
  ∀ uuid, (cfg.task c).next? = some (.take c uuid) → ∀ d, d ≠ c →
    (∀ stream, (cfg.task d).next? ≠ some (.insert uuid stream)) ∧
      ((conns d).request? key = some uuid → ∀ t ∈ cfg.st.due d, e.now < t)

/-- Such a step, by the clock. -/
def Promptly (key : String) (conns : ConnId → Conn) (cfg : Config RelaySig State ConnId Unit)
    (c : ConnId) (e : Env) : Prop :=
  Clocked cfg c e ∧ LooksPromptly key conns cfg c e

/-- The `uuid` an event is about. -/
def Event.uuid? : Event → Option String
  | .looked _ uuid => some uuid
  | .paired _ _ uuid => some uuid
  | .inserted _ uuid _ _ => some uuid
  | .cleaned _ uuid _ _ => some uuid
  | .received _ _ => none
  | .sent _ _ => none

/-- What has happened under a `uuid`. -/
def about (uuid : String) (log : List Event) : List Event :=
  log.filter fun ev => ev.uuid? = some uuid

/-- The connection has neither looked nor waits. -/
def Phase.Idle (ph : Phase) : Prop := ph = .arriving ∨ ph = .finished

/-- How far two connections are of which `a` looked first, if any of them has. -/
inductive Course (uuid : String) (a b : ConnId) (phases : ConnId → Phase) (s : State) : Prop
  /-- Neither has looked. -/
  | before (hlog : about uuid s.log = []) (hmap : s.peers.lookup uuid = none)
      (ha : (phases a).Idle) (hb : (phases b).Idle)
  /-- `a` has looked. -/
  | missed (hlog : about uuid s.log = [.looked a uuid]) (hmap : s.peers.lookup uuid = none)
      (ha : phases a = .missed uuid) (hb : (phases b).Idle)
  /-- `a` waits. -/
  | waiting {tm : Instant} {stream : Stream}
      (hlog : about uuid s.log = [.inserted a uuid none tm, .looked a uuid])
      (hmap : s.peers.lookup uuid = some stream) (hconn : stream.conn = a)
      (hdue : s.due a = some (tm + 30000)) (ha : phases a = .waiting uuid) (hb : (phases b).Idle)
  /-- `a` has given up. -/
  | expired {tm tm' : Instant}
      (hlog : about uuid s.log =
        [.cleaned a uuid (some a) tm', .inserted a uuid none tm, .looked a uuid])
      (hmap : s.peers.lookup uuid = none) (hdue : s.due a = some (tm + 30000))
      (hclock : tm + 30000 ≤ s.clock) (ha : phases a = .finished) (hb : (phases b).Idle)
  /-- `b` has taken the stream of `a`. -/
  | paired {tm : Instant} {read : List Chunk}
      (hlog : about uuid s.log = [.paired b a uuid, .inserted a uuid none tm, .looked a uuid])
      (hmap : s.peers.lookup uuid = none) (ha : phases a = .waiting uuid)
      (hb : phases b = .relaying a read)
  /-- And `a` has woken up. -/
  | woken {tm tm' : Instant} {read : List Chunk}
      (hlog : about uuid s.log = [.cleaned a uuid none tm', .paired b a uuid,
        .inserted a uuid none tm, .looked a uuid])
      (hmap : s.peers.lookup uuid = none) (ha : phases a = .finished) (hb : phases b = .relaying a read)

section Step

variable {key uuid : String} {conns : ConnId → Conn} {phases : ConnId → Phase} {s s' : State}
  {a b c : ConnId} {o : Op} {e : Env} {ph : Phase} {ask : Option String}

theorem about_cons {ev : Event} (h : ev.uuid? = some uuid) (log : List Event) :
    about uuid (ev :: log) = ev :: about uuid log := by
  simp [about, h]

theorem about_cons_ne {ev : Event} (h : ev.uuid? ≠ some uuid) (log : List Event) :
    about uuid (ev :: log) = about uuid log := by
  simp [about, h]

/-- What a move leaves alone under a `uuid`. -/
structure Untouched (uuid : String) (c : ConnId) (s s' : State) : Prop where
  /-- The history. -/
  log : about uuid s'.log = about uuid s.log
  /-- `PEERS`. -/
  peers : s'.peers.lookup uuid = s.peers.lookup uuid
  /-- The deadlines of the others. -/
  due : ∀ d, d ≠ c → s'.due d = s.due d

theorem Same.untouched (h : Same s s') : Untouched uuid c s s' :=
  ⟨by rw [h.log], by rw [h.peers], fun d _ => by rw [h.due]⟩

/-- A connection that asks for something else leaves the `uuid` alone. -/
theorem Moves.untouched {old : Phase} (hm : Moves ask o e c s s' old ph)
    (hask : ask ≠ some uuid) : Untouched uuid c s s' := by
  have hne : ∀ {u}, ask = some u → u ≠ uuid := by
    rintro u hu rfl
    exact hask hu
  cases hm with
  | arrive hs => exact hs.untouched
  | refuse hs => exact hs.untouched
  | miss ho hu hlook hpeers hdue hlog =>
    refine ⟨?_, by rw [hpeers], fun d _ => by rw [hdue]⟩
    rw [hlog, about_cons_ne (by simpa [Event.uuid?] using hne hu)]
  | pair ho hu hlook hpeers hdue hlog =>
    refine ⟨?_, ?_, fun d _ => by rw [hdue]⟩
    · rw [hlog, about_cons_ne (by simpa [Event.uuid?] using hne hu)]
    · rw [hpeers, AList.lookup_erase_ne (hne hu).symm]
  | insert ho hu hc hpeers hdue hlog =>
    refine ⟨?_, ?_, fun d hd => ?_⟩
    · rw [hlog, about_cons_ne (by simpa [Event.uuid?] using hne hu)]
    · rw [hpeers, AList.lookup_insert_ne (hne hu).symm]
    · rw [hdue, Function.update_of_ne hd]
  | cleanUp ho hu hpeers hdue hlog =>
    refine ⟨?_, ?_, fun d _ => by rw [hdue]⟩
    · rw [hlog, about_cons_ne (by simpa [Event.uuid?] using hne hu)]
    · rw [hpeers, AList.lookup_erase_ne (hne hu).symm]
  | receive hsrc hpeers hdue hlog =>
    refine ⟨?_, by rw [hpeers], fun d _ => by rw [hdue]⟩
    rw [hlog, about_cons_ne (by simp [Event.uuid?])]
  | send hread hends hpeers hdue hlog =>
    refine ⟨?_, by rw [hpeers], fun d _ => by rw [hdue]⟩
    rw [hlog, about_cons_ne (by simp [Event.uuid?])]
  | work hs => exact hs.untouched

/-- A session leaves every `uuid` alone. -/
theorem Moves.of_relaying {d : ConnId} {read : List Chunk}
    (hm : Moves ask o e c s s' (.relaying d read) ph) :
    Untouched uuid c s s' ∧ ∃ read', ph = .relaying d read' := by
  cases hm with
  | receive hsrc hpeers hdue hlog =>
    refine ⟨⟨?_, by rw [hpeers], fun d _ => by rw [hdue]⟩, _, rfl⟩
    rw [hlog, about_cons_ne (by simp [Event.uuid?])]
  | send hread hends hpeers hdue hlog =>
    refine ⟨⟨?_, by rw [hpeers], fun d _ => by rw [hdue]⟩, _, rfl⟩
    rw [hlog, about_cons_ne (by simp [Event.uuid?])]
  | work hs => exact ⟨hs.untouched, _, rfl⟩

/-- A connection that has not looked stays so, or looks. -/
theorem Moves.of_idle {old : Phase} (hidle : old.Idle)
    (hm : Moves (some uuid) o e c s s' old ph) :
    (Same s s' ∧ ph.Idle) ∨ (o = .take c uuid ∧
      ((s.peers.lookup uuid = none ∧ s'.peers = s.peers ∧ s'.log = .looked c uuid :: s.log ∧
          ph = .missed uuid) ∨
        ∃ peer, s.peers.lookup uuid = some peer ∧ s'.peers = s.peers.erase uuid ∧
          s'.log = .paired c peer.conn uuid :: s.log ∧ ph = .relaying peer.conn [])) := by
  cases hm with
  | arrive hs => exact Or.inl ⟨hs, Or.inl rfl⟩
  | refuse hs => exact Or.inl ⟨hs, Or.inr rfl⟩
  | miss ho hu hlook hpeers hdue hlog =>
    cases hu
    exact Or.inr ⟨ho, Or.inl ⟨hlook, hpeers, hlog, rfl⟩⟩
  | pair ho hu hlook hpeers hdue hlog =>
    cases hu
    exact Or.inr ⟨ho, Or.inr ⟨_, hlook, hpeers, hlog, rfl⟩⟩
  | _ => rcases hidle with h | h <;> cases h

/-- Nothing happens under the `uuid`, `a` stays where it is, and `b` does for all that
matters. -/
theorem Course.frame {phases' : ConnId → Phase} (h : Course uuid a b phases s)
    (hu : Untouched uuid c s s') (hc : c ≠ a) (hclock : s.clock ≤ s'.clock)
    (ha' : phases' a = phases a) (hidle : (phases b).Idle → (phases' b).Idle)
    (hrel : ∀ read, phases b = .relaying a read → ∃ read', phases' b = .relaying a read') :
    Course uuid a b phases' s' := by
  have hdue' : s'.due a = s.due a := hu.due a hc.symm
  cases h with
  | before hlog hmap ha hb =>
    exact .before (hu.log.trans hlog) (hu.peers.trans hmap) (ha' ▸ ha) (hidle hb)
  | missed hlog hmap ha hb =>
    exact .missed (hu.log.trans hlog) (hu.peers.trans hmap) (ha'.trans ha) (hidle hb)
  | waiting hlog hmap hconn hdue ha hb =>
    exact .waiting (hu.log.trans hlog) (hu.peers.trans hmap) hconn (hdue'.trans hdue)
      (ha'.trans ha) (hidle hb)
  | expired hlog hmap hdue hclk ha hb =>
    exact .expired (hu.log.trans hlog) (hu.peers.trans hmap) (hdue'.trans hdue)
      (hclk.trans hclock) (ha'.trans ha) (hidle hb)
  | paired hlog hmap ha hb =>
    obtain ⟨read', hb'⟩ := hrel _ hb
    exact .paired (hu.log.trans hlog) (hu.peers.trans hmap) (ha'.trans ha) hb'
  | woken hlog hmap ha hb =>
    obtain ⟨read', hb'⟩ := hrel _ hb
    exact .woken (hu.log.trans hlog) (hu.peers.trans hmap) (ha'.trans ha) hb'

/-- A step of a connection that asks for something else. -/
theorem Course.other (h : Course uuid a b phases s) (hca : c ≠ a) (hcb : c ≠ b)
    (hask : ask ≠ some uuid) (hclock : s.clock ≤ s'.clock)
    (hm : Moves ask o e c s s' (phases c) ph) :
    Course uuid a b (Function.update phases c ph) s' := by
  have hb : Function.update phases c ph b = phases b := Function.update_of_ne hcb.symm _ _
  refine h.frame (hm.untouched hask) hca hclock (Function.update_of_ne hca.symm _ _) ?_ ?_
  · rw [hb]
    exact id
  · rw [hb]
    exact fun read hr => ⟨read, hr⟩

/-- A step of the one that looked first. -/
theorem Course.first (h : Course uuid a b phases s) (hab : a ≠ b)
    (hwake : ∀ u, phases a = .waiting u → ∀ t ∈ s.due a, t ≤ e.now) (hnow : s'.clock = e.now)
    (hm : Moves (some uuid) o e a s s' (phases a) ph) :
    Course uuid a b (Function.update phases a ph) s' := by
  have hb' : Function.update phases a ph b = phases b := Function.update_of_ne hab.symm _ _
  have ha' : Function.update phases a ph a = ph := Function.update_self _ _ _
  cases h with
  | before hlog hmap ha hb =>
    rcases hm.of_idle ha with ⟨hs, hidle⟩ | ⟨-, ⟨-, hpeers, hlog', hph⟩ | ⟨peer, hlook, -⟩⟩
    · have hu : Untouched uuid a s s' := hs.untouched
      exact .before (hu.log.trans hlog) (hu.peers.trans hmap) (by rwa [ha']) (hb' ▸ hb)
    · refine .missed ?_ (hpeers ▸ hmap) (ha'.trans hph) (hb' ▸ hb)
      rw [hlog', about_cons rfl, hlog]
    · rw [hmap] at hlook
      cases hlook
  | missed hlog hmap ha hb =>
    rw [ha] at hm
    cases hm with
    | insert ho hask hc hpeers hdue hlog' =>
      have hlog₁ : about uuid s'.log = [.inserted a uuid none e.now, .looked a uuid] := by
        rw [hlog', about_cons rfl, hlog, hmap, Option.map_none]
      refine .waiting hlog₁ (by rw [hpeers, AList.lookup_insert]) hc ?_ ha' (hb' ▸ hb)
      rw [hdue, Function.update_self]
  | @waiting tm stream hlog hmap hconn hdue ha hb =>
    have hexp : tm + 30000 ≤ e.now := hwake uuid ha _ hdue
    rw [ha] at hm
    cases hm with
    | cleanUp ho hask hpeers hdue' hlog' =>
      have hlog₁ : about uuid s'.log =
          [.cleaned a uuid (some a) e.now, .inserted a uuid none tm, .looked a uuid] := by
        rw [hlog', about_cons rfl, hlog, hmap, Option.map_some, hconn]
      exact .expired hlog₁ (by rw [hpeers, AList.lookup_erase]) (hdue' ▸ hdue) (hnow ▸ hexp) ha'
        (hb' ▸ hb)
  | expired hlog hmap hdue hclk ha hb =>
    rw [ha] at hm
    cases hm
  | @paired tm read hlog hmap ha hb =>
    rw [ha] at hm
    cases hm with
    | cleanUp ho hask hpeers hdue' hlog' =>
      have hlog₁ : about uuid s'.log = [.cleaned a uuid none e.now, .paired b a uuid,
          .inserted a uuid none tm, .looked a uuid] := by
        rw [hlog', about_cons rfl, hlog, hmap, Option.map_none]
      exact .woken hlog₁ (by rw [hpeers, AList.lookup_erase]) ha' (hb'.trans hb)
  | woken hlog hmap ha hb =>
    rw [ha] at hm
    cases hm

/-- A step of the other one. -/
theorem Course.second (h : Course uuid a b phases s) (hab : a ≠ b)
    (hlook : o = .take b uuid → phases a ≠ .missed uuid ∧ ∀ t ∈ s.due a, e.now < t)
    (hclock : s.clock ≤ s'.clock) (hnow : s'.clock = e.now)
    (hm : Moves (some uuid) o e b s s' (phases b) ph) :
    Course uuid a b (Function.update phases b ph) s' ∨
      Course uuid b a (Function.update phases b ph) s' := by
  have ha' : Function.update phases b ph a = phases a := Function.update_of_ne hab _ _
  have hb' : Function.update phases b ph b = ph := Function.update_self _ _ _
  by_cases hidle : (phases b).Idle
  · rcases hm.of_idle hidle with ⟨hs, hph⟩ | ⟨ho, hfound⟩
    · refine Or.inl (h.frame hs.untouched hab.symm hclock ha' (fun _ => by rwa [hb']) fun read hr => ?_)
      rw [hr] at hidle
      rcases hidle with hi | hi <;> cases hi
    · obtain ⟨hmiss, hdl⟩ := hlook ho
      cases h with
      | before hlog hmap ha hb =>
        rcases hfound with ⟨-, hpeers, hlog', hph⟩ | ⟨peer, hl, -⟩
        · refine Or.inr (.missed ?_ (hpeers ▸ hmap) (hb'.trans hph) (by rwa [ha']))
          rw [hlog', about_cons rfl, hlog]
        · rw [hmap] at hl
          cases hl
      | missed hlog hmap ha hb => exact absurd ha hmiss
      | @waiting tm stream hlog hmap hconn hdue ha hb =>
        rcases hfound with ⟨hl, -⟩ | ⟨peer, hl, hpeers, hlog', hph⟩
        · rw [hmap] at hl
          cases hl
        · rw [hmap] at hl
          cases hl
          rw [hconn] at hlog' hph
          have hlog₁ : about uuid s'.log =
              [.paired b a uuid, .inserted a uuid none tm, .looked a uuid] := by
            rw [hlog', about_cons rfl, hlog]
          exact Or.inl (.paired hlog₁ (by rw [hpeers, AList.lookup_erase]) (ha'.trans ha)
            (hb'.trans hph))
      | expired hlog hmap hdue hclk ha hb =>
        have hlate := hclk.trans (hclock.trans_eq hnow)
        exact absurd (hdl _ hdue) (Nat.not_lt.mpr hlate)
      | paired hlog hmap ha hb =>
        rw [hb] at hidle
        rcases hidle with hi | hi <;> cases hi
      | woken hlog hmap ha hb =>
        rw [hb] at hidle
        rcases hidle with hi | hi <;> cases hi
  · -- it has taken the stream of the first
    have hrel : ∃ read, phases b = .relaying a read := by
      cases h with
      | before _ _ _ hb | missed _ _ _ hb | waiting _ _ _ _ _ hb | expired _ _ _ _ _ hb =>
        exact absurd hb hidle
      | paired _ _ _ hb | woken _ _ _ hb => exact ⟨_, hb⟩
    obtain ⟨read, hread⟩ := hrel
    rw [hread] at hm
    obtain ⟨hu, read', hph⟩ := hm.of_relaying
    exact Or.inl (h.frame hu hab.symm hclock ha' (fun hi => absurd hi hidle)
      fun _ _ => ⟨read', hb'.trans hph⟩)

end Step

/-- **Every step that meets the condition goes on with the course.** -/
theorem Course.move {key uuid : String} {conns : ConnId → Conn} {phases : ConnId → Phase}
    {s s' : State} {a b c : ConnId} {o : Op} {e : Env} {ph : Phase}
    (h : Course uuid a b phases s) (hab : a ≠ b) (ha : (conns a).request? key = some uuid)
    (hb : (conns b).request? key = some uuid)
    (hothers : ∀ c, c ≠ a → c ≠ b → (conns c).request? key ≠ some uuid)
    (hwake : ∀ u, phases c = .waiting u → ∀ t ∈ s.due c, t ≤ e.now)
    (hlook : o = .take c uuid → ∀ d, d ≠ c →
      phases d ≠ .missed uuid ∧ ((conns d).request? key = some uuid → ∀ t ∈ s.due d, e.now < t))
    (hclock : s.clock ≤ e.now) (hnow : s'.clock = e.now)
    (hm : Moves ((conns c).request? key) o e c s s' (phases c) ph) :
    Course uuid a b (Function.update phases c ph) s' ∨
      Course uuid b a (Function.update phases c ph) s' := by
  have hclock' : s.clock ≤ s'.clock := hnow ▸ hclock
  by_cases hca : c = a
  · subst hca
    rw [ha] at hm
    exact Or.inl (h.first hab hwake hnow hm)
  · by_cases hcb : c = b
    · subst hcb
      rw [hb] at hm
      refine h.second hab (fun ho => ?_) hclock' hnow hm
      obtain ⟨hmiss, hdl⟩ := hlook ho a hab
      exact ⟨hmiss, hdl ha⟩
    · exact Or.inl (h.other hca hcb (hothers c hca hcb) hclock' hm)

/-- The connection has looked for a partner under the `uuid`. -/
def HasLooked (log : List Event) (c : ConnId) (uuid : String) : Prop :=
  .looked c uuid ∈ log ∨ ∃ d, .paired c d uuid ∈ log

/-- The two have found each other, as far as they have looked: they do not both wait, no
stream took the place of another, and once both have looked exactly one has taken the
stream of the other. -/
structure PairedOnce (log : List Event) (a b : ConnId) (uuid : String) : Prop where
  /-- They do not both wait. -/
  oneWaits : ¬((∃ dropped tm, .inserted a uuid dropped tm ∈ log) ∧
    ∃ dropped tm, .inserted b uuid dropped tm ∈ log)
  /-- No stream is dropped. -/
  kept : ∀ c d tm, .inserted c uuid (some d) tm ∉ log
  /-- One takes the stream of the other. -/
  oneTakes : HasLooked log a uuid → HasLooked log b uuid →
    Xor (.paired a b uuid ∈ log) (.paired b a uuid ∈ log)

theorem PairedOnce.symm {log : List Event} {a b : ConnId} {uuid : String}
    (h : PairedOnce log a b uuid) : PairedOnce log b a uuid := by
  refine ⟨fun hw => h.oneWaits ⟨hw.2, hw.1⟩, h.kept, ?_⟩
  intro hb ha
  rw [xor_comm]
  exact h.oneTakes ha hb

theorem mem_about {uuid : String} {log : List Event} (ev : Event) (h : ev.uuid? = some uuid) :
    ev ∈ log ↔ ev ∈ about uuid log := by
  simp [about, h]

/-- Only what happened under the `uuid` matters. -/
theorem pairedOnce_about {uuid : String} {log : List Event} {a b : ConnId}
    (h : PairedOnce (about uuid log) a b uuid) : PairedOnce log a b uuid := by
  have hlooked : ∀ c, HasLooked log c uuid → HasLooked (about uuid log) c uuid := by
    rintro c (hl | ⟨d, hp⟩)
    · exact Or.inl ((mem_about _ rfl).mp hl)
    · exact Or.inr ⟨d, (mem_about _ rfl).mp hp⟩
  refine ⟨?_, fun c d tm hm => h.kept c d tm ((mem_about _ rfl).mp hm), fun ha hb => ?_⟩
  · rintro ⟨⟨x, tm, hx⟩, y, tm', hy⟩
    exact h.oneWaits ⟨⟨x, tm, (mem_about _ rfl).mp hx⟩, y, tm', (mem_about _ rfl).mp hy⟩
  · rw [mem_about (.paired a b uuid) rfl, mem_about (.paired b a uuid) rfl]
    exact h.oneTakes (hlooked a ha) (hlooked b hb)

theorem Course.pairedOnce {uuid : String} {a b : ConnId} {phases : ConnId → Phase} {s : State}
    (h : Course uuid a b phases s) (hab : a ≠ b) : PairedOnce s.log a b uuid := by
  apply pairedOnce_about
  cases h with
  | before hlog hmap ha hb =>
    rw [hlog]
    exact ⟨by simp, by simp, by simp [HasLooked]⟩
  | missed hlog hmap ha hb =>
    rw [hlog]
    exact ⟨by simp, by simp, by simp [HasLooked, hab.symm]⟩
  | waiting hlog hmap hconn hdue ha hb =>
    rw [hlog]
    exact ⟨by simp [hab.symm], by simp, by simp [HasLooked, hab.symm]⟩
  | expired hlog hmap hdue hclk ha hb =>
    rw [hlog]
    exact ⟨by simp [hab.symm], by simp, by simp [HasLooked, hab.symm]⟩
  | paired hlog hmap ha hb =>
    rw [hlog]
    exact ⟨by simp [hab.symm], by simp, by simp [Xor, hab, hab.symm]⟩
  | woken hlog hmap ha hb =>
    rw [hlog]
    exact ⟨by simp [hab.symm], by simp, by simp [Xor, hab, hab.symm]⟩

/-- **Two connections that ask for one `uuid` find each other.**  If no other connection asks
for it, then in every run in which neither looks while the other is about to leave its
stream, nor after the other's half minute, exactly one of the two takes the stream of the
other, and relays with it from that step on; they never both wait, and no stream is dropped. -/
theorem pairs_once (hbb : HbbCommon) (key : String) (conns : ConnId → Conn) (s : State)
    {a b : ConnId} (hab : a ≠ b) {uuid : String} (ha : (conns a).request? key = some uuid)
    (hb : (conns b).request? key = some uuid)
    (hothers : ∀ c, c ≠ a → c ≠ b → (conns c).request? key ≠ some uuid)
    {cfg : Config RelaySig State ConnId Unit}
    (h : Reach machine (Promptly key conns) (start hbb key conns s) cfg) :
    PairedOnce cfg.st.log a b uuid ∧
      (.paired a b uuid ∈ cfg.st.log →
        TookToRelay (Promptly key conns) conns (start hbb key conns s) cfg a b uuid) ∧
      (.paired b a uuid ∈ cfg.st.log →
        TookToRelay (Promptly key conns) conns (start hbb key conns s) cfg b a uuid) := by
  have hinv : ∃ phases, Phased hbb key conns cfg phases ∧
      (Course uuid a b phases cfg.st ∨ Course uuid b a phases cfg.st) := by
    refine reach_phases (P := fun phases s => Course uuid a b phases s ∨ Course uuid b a phases s)
      (Or.inl (.before rfl rfl (Or.inl rfl) (Or.inl rfl))) ?_ h
    intro cfg phases c e o s' ph hph hP hok ho hm hnow
    have hwake : ∀ u, phases c = .waiting u → ∀ t ∈ cfg.st.due c, t ≤ e.now := by
      intro u hw
      have hc := hph c
      rw [hw] at hc
      exact hok.1.2 _ hc.next_waiting rfl
    have hlook : o = .take c uuid → ∀ d, d ≠ c → phases d ≠ .missed uuid ∧
        ((conns d).request? key = some uuid → ∀ t ∈ cfg.st.due d, e.now < t) := by
      rintro rfl d hd
      obtain ⟨hins, hdl⟩ := hok.2 uuid ho d hd
      refine ⟨fun hmiss => ?_, hdl⟩
      have hd' := hph d
      rw [hmiss] at hd'
      exact hins _ hd'.next_missed
    rcases hP with hP | hP
    · exact hP.move hab ha hb hothers hwake hlook hok.1.1 hnow hm
    · refine (hP.move hab.symm hb ha (fun c hcb hca => hothers c hca hcb) hwake hlook hok.1.1 hnow
        hm).symm
  refine ⟨?_, tookToRelay_of_paired h hab, tookToRelay_of_paired h hab.symm⟩
  obtain ⟨phases, -, hP | hP⟩ := hinv
  · exact hP.pairedOnce hab
  · exact (hP.pairedOnce hab.symm).symm

/-- Two connections ask for one `uuid`, and nobody else does. -/
def twoEnds (c : ConnId) : Conn := asking (if c < 2 then "u" else "") "" 0

theorem twoEnds_others (c : ℕ) (h0 : c ≠ 0) (h1 : c ≠ 1) :
    (twoEnds c).request? "" ≠ some "u" := by
  have hc : ¬c < 2 := by omega
  simp [twoEnds, hc, asking, Conn.request?]

/-- The server before they are handled. -/
def twoComing : Config RelaySig State ConnId Unit := start plainHbb "" twoEnds .blank

/-- Both look, then both leave their streams. -/
def bothLook : List (ConnId × Env) :=
  [(0, .at 0), (0, .at 0), (1, .at 0), (1, .at 0), (0, .at 0), (1, .at 0)]

theorem both_wait :
    ((twoEnds 0).request? "" = some "u" ∧ (twoEnds 1).request? "" = some "u" ∧
      ∀ c, c ≠ 0 → c ≠ 1 → (twoEnds c).request? "" ≠ some "u") ∧
    twoComing.Along machine Clocked bothLook ∧
    .inserted 1 "u" (some 0) 0 ∈ (twoComing.sched machine bothLook).st.log ∧
    ¬PairedOnce (twoComing.sched machine bothLook).st.log 0 1 "u" := by
  have hdrop : .inserted 1 "u" (some 0) 0 ∈ (twoComing.sched machine bothLook).st.log := by decide
  exact ⟨⟨by decide, by decide, twoEnds_others⟩, by decide, hdrop, fun h => h.kept 1 0 0 hdrop⟩

/-- One leaves its stream, the other looks. -/
def oneLooks : List (ConnId × Env) :=
  [(0, .at 0), (0, .at 0), (0, .at 0), (1, .at 0), (1, .at 0)]

theorem pairs_once_oneLooks :
    PairedOnce (twoComing.sched machine oneLooks).st.log 0 1 "u" ∧
      .paired 1 0 "u" ∈ (twoComing.sched machine oneLooks).st.log ∧
      TookToRelay (Promptly "" twoEnds) twoEnds twoComing (twoComing.sched machine oneLooks)
        1 0 "u" := by
  have htaken : .paired 1 0 "u" ∈ (twoComing.sched machine oneLooks).st.log := by decide
  suffices hlong : twoComing.Along machine (Promptly "" twoEnds) oneLooks by
    obtain ⟨honce, -, htook⟩ := pairs_once plainHbb "" twoEnds .blank (by decide) (by decide)
      (by decide) twoEnds_others (reach_sched (l := oneLooks) hlong)
    exact ⟨honce, htaken, htook htaken⟩
  -- who has not begun is not about to leave a stream
  have hbegin : ∀ d uuid stream, (twoComing.task d).next? ≠ some (.insert uuid stream) := nofun
  have hfirst : ∀ d, d ≠ 0 →
      (twoComing.sched machine (oneLooks.take 1)).task d = twoComing.task d := fun d hd =>
    Function.update_of_ne hd _ _
  have hsecond : ∀ d, d ≠ 0 → d ≠ 1 →
      (twoComing.sched machine (oneLooks.take 4)).task d = twoComing.task d := by
    intro d h0 h1
    refine (Function.update_of_ne h1 _ _).trans ((Function.update_of_ne h0 _ _).trans ?_)
    exact (Function.update_of_ne h0 _ _).trans (Function.update_of_ne h0 _ _)
  refine ⟨⟨by decide, nofun⟩, ⟨by decide, fun uuid hnext d hd => ⟨fun stream => ?_, nofun⟩⟩,
    ⟨by decide, nofun⟩, ⟨by decide, nofun⟩, ⟨by decide, fun uuid hnext d hd => ⟨fun stream => ?_,
      fun _ t ht => ?_⟩⟩, trivial⟩
  · exact (hfirst d hd).symm ▸ hbegin d uuid stream
  · by_cases h0 : d = 0
    · subst h0
      nofun
    · exact (hsecond d h0 hd).symm ▸ hbegin d uuid stream
  · by_cases h0 : d = 0
    · subst h0
      cases ht
      decide
    · have hnone : (twoComing.sched machine (oneLooks.take 4)).st.due d = none :=
        Function.update_of_ne h0 _ _
      cases hnone.symm.trans ht

end Hbbr

end RustdeskServer
