import RustdeskServer.RelayPhases

/-!
# What the clean-up of a waiting connection removes

A connection that waits for a partner sleeps half a minute and then removes whatever is in
`PEERS` under its `uuid`.  By then its own stream may have been taken, and another one with
the same `uuid` left there: the clean-up looks at the `uuid` alone and removes that one.
In the same way leaving a stream drops the one that waits under the same `uuid`.

Neither happens in a run where no connection leaves its stream under a `uuid` while another
one still has to clean up after the same `uuid`.  Then every stream that was left is still
there, was taken by a connection that asked for the same `uuid`, or was removed by its own
connection after half a minute.

## Main definitions

* `Clocked` — time does not go back, and nobody wakes up early.
* `LeavesAlone` — the condition on a step.
* `Accounted` — what became of a stream that was left.

## Main results

* `expires_by_itself` — **a stream leaves `PEERS` by a partner or by its own expiry** in
  every run whose steps meet the condition.
* `cleanUp_removes_another` — a run in which a clean-up removes another connection's stream.
-/

namespace RustdeskServer

namespace Hbbr

open Atomic

/-- The operation ends a sleep. -/
def Op.wakes : Op → Bool
  | .cleanUp _ _ => true
  | _ => false

/-- Time does not go back, and a sleep is not over before its time. -/
def Clocked (cfg : Config RelaySig State ConnId Unit) (c : ConnId) (e : Env) : Prop :=
  cfg.st.clock ≤ e.now ∧
    ∀ o ∈ (cfg.task c).next?, o.wakes = true → ∀ t ∈ cfg.st.due c, t ≤ e.now

instance (cfg : Config RelaySig State ConnId Unit) (c : ConnId) (e : Env) :
    Decidable (Clocked cfg c e) :=
  inferInstanceAs (Decidable (_ ∧ ∀ o ∈ (cfg.task c).next?, _))

instance (cfg : Config RelaySig State ConnId Unit) (l : List (ConnId × Env)) :
    Decidable (cfg.Along machine Clocked l) :=
  decidableAlong machine Clocked cfg l

/-- Where a connection leaves its stream, no other connection has still to clean up after
the same `uuid`. -/
def LeavesAlone (cfg : Config RelaySig State ConnId Unit) (c : ConnId) : Prop :=
  ∀ uuid stream, (cfg.task c).next? = some (.insert uuid stream) →
    ∀ d, d ≠ c → (cfg.task d).next? ≠ some (.cleanUp d uuid)

/-- What became of the stream that `c` left under `uuid` at the time `tm`: it is there, a
connection that asked for the same `uuid` took it, or `c` itself removed it half a minute
later. -/
def Accounted (key : String) (conns : ConnId → Conn) (s : State) (c : ConnId) (uuid : String)
    (tm : Instant) : Prop :=
  (∃ stream, s.peers.lookup uuid = some stream ∧ stream.conn = c) ∨
    (∃ d, d ≠ c ∧ (conns d).request? key = some uuid ∧ .paired d c uuid ∈ s.log) ∨
      ∃ tm', tm + 30000 ≤ tm' ∧ .cleaned c uuid (some c) tm' ∈ s.log

/-- The event neither leaves a stream nor cleans up. -/
def Event.Aside : Event → Prop
  | .inserted _ _ _ _ | .cleaned _ _ _ _ => False
  | _ => True

/-- The invariant of the runs that meet the condition. -/
structure OwnExpiry (key : String) (conns : ConnId → Conn) (phases : ConnId → Phase) (s : State) :
    Prop where
  /-- One connection at a time has still to clean up after a `uuid`. -/
  alone : ∀ c d uuid, phases c = .waiting uuid → phases d = .waiting uuid → c = d
  /-- A stream in `PEERS` is that of a connection that waits. -/
  stored : ∀ uuid stream, s.peers.lookup uuid = some stream → phases stream.conn = .waiting uuid
  /-- Who has its stream has not left it. -/
  fresh : ∀ c uuid dropped tm, .inserted c uuid dropped tm ∈ s.log → ¬(phases c).Fresh
  /-- The deadlines. -/
  due : ∀ c uuid dropped tm, .inserted c uuid dropped tm ∈ s.log → s.due c = some (tm + 30000)
  /-- Nothing is dropped. -/
  kept : ∀ c uuid d tm, .inserted c uuid (some d) tm ∉ s.log
  /-- A clean-up removes its own stream or none. -/
  own : ∀ c uuid d tm, .cleaned c uuid (some d) tm ∈ s.log → d = c
  /-- Every stream that was left is accounted for. -/
  accounted : ∀ c uuid dropped tm, .inserted c uuid dropped tm ∈ s.log →
    Accounted key conns s c uuid tm

section Step

variable {key : String} {conns : ConnId → Conn} {phases : ConnId → Phase} {s s' : State}
  {c : ConnId} {o : Op} {e : Env} {ph : Phase}

theorem mem_of_aside {ev ev' : Event} {log : List Event} (h : ev ∈ ev' :: log) (haside : ev'.Aside)
    (hev : ¬ev.Aside) : ev ∈ log := by
  rcases List.mem_cons.mp h with rfl | h
  · exact absurd haside hev
  · exact h

/-- A move that leaves no stream. -/
theorem OwnExpiry.frame (h : OwnExpiry key conns phases s)
    (hstored : ∀ uuid stream, s'.peers.lookup uuid = some stream →
      s.peers.lookup uuid = some stream ∧ stream.conn ≠ c)
    (hwait : ∀ uuid, ph ≠ .waiting uuid) (hfresh : ph.Fresh → (phases c).Fresh)
    (hdue : s'.due = s.due)
    (hins : ∀ a uuid dropped tm, .inserted a uuid dropped tm ∈ s'.log →
      .inserted a uuid dropped tm ∈ s.log)
    (hown : ∀ a uuid d tm, .cleaned a uuid (some d) tm ∈ s'.log →
      .cleaned a uuid (some d) tm ∈ s.log ∨ d = a)
    (hacc : ∀ a uuid dropped tm, .inserted a uuid dropped tm ∈ s.log →
      Accounted key conns s a uuid tm → Accounted key conns s' a uuid tm) :
    OwnExpiry key conns (Function.update phases c ph) s' := by
  have hw : ∀ d uuid, Function.update phases c ph d = .waiting uuid → phases d = .waiting uuid := by
    intro d uuid hd
    by_cases hdc : d = c
    · subst hdc
      rw [Function.update_self] at hd
      exact absurd hd (hwait uuid)
    · rwa [Function.update_of_ne hdc] at hd
  refine ⟨fun a b uuid ha hb => h.alone a b uuid (hw a uuid ha) (hw b uuid hb), ?_, ?_, ?_,
    fun a uuid d tm hm => h.kept a uuid d tm (hins _ _ _ _ hm), ?_,
    fun a uuid dropped tm hm => hacc _ _ _ _ (hins _ _ _ _ hm)
      (h.accounted a uuid dropped tm (hins _ _ _ _ hm))⟩
  · intro uuid stream hl
    obtain ⟨hl', hne⟩ := hstored uuid stream hl
    rw [Function.update_of_ne hne]
    exact h.stored uuid stream hl'
  · intro a uuid dropped tm hm ha
    have hold := h.fresh a uuid dropped tm (hins _ _ _ _ hm)
    by_cases hac : a = c
    · subst hac
      rw [Function.update_self] at ha
      exact hold (hfresh ha)
    · rw [Function.update_of_ne hac] at ha
      exact hold ha
  · intro a uuid dropped tm hm
    rw [hdue]
    exact h.due a uuid dropped tm (hins _ _ _ _ hm)
  · intro a uuid d tm hm
    rcases hown a uuid d tm hm with hm | hd
    · exact h.own a uuid d tm hm
    · exact hd

/-- What was accounted for stays so, unless it was in `PEERS` and is not any more. -/
theorem Accounted.mono {uuid : String} {tm : Instant} {a : ConnId}
    (h : Accounted key conns s a uuid tm) (hsub : s.log ⊆ s'.log)
    (hgone : ∀ stream, s.peers.lookup uuid = some stream → stream.conn = a →
      Accounted key conns s' a uuid tm) : Accounted key conns s' a uuid tm := by
  rcases h with ⟨stream, hl, hc⟩ | ⟨d, hd, hask, hp⟩ | ⟨tm', htm, hp⟩
  · exact hgone stream hl hc
  · exact Or.inr (Or.inl ⟨d, hd, hask, hsub hp⟩)
  · exact Or.inr (Or.inr ⟨tm', htm, hsub hp⟩)

variable (s' c ph) in
/-- A move of a connection that does not wait, without a change to `PEERS`. -/
theorem OwnExpiry.quiet (h : OwnExpiry key conns phases s) (hpeers : s'.peers = s.peers)
    (hdue : s'.due = s.due)
    (hlog : s'.log = s.log ∨ ∃ ev, Event.Aside ev ∧ s'.log = ev :: s.log)
    (hold : ∀ uuid, phases c ≠ .waiting uuid) (hwait : ∀ uuid, ph ≠ .waiting uuid)
    (hfresh : ph.Fresh → (phases c).Fresh) :
    OwnExpiry key conns (Function.update phases c ph) s' := by
  have hsub : s.log ⊆ s'.log := by
    rcases hlog with hl | ⟨ev, -, hl⟩
    · exact hl ▸ List.Subset.refl _
    · exact hl ▸ List.subset_cons_self ev s.log
  have hback : ∀ ev : Event, ¬ev.Aside → ev ∈ s'.log → ev ∈ s.log := by
    intro ev hev hm
    rcases hlog with hl | ⟨ev', haside, hl⟩
    · rwa [hl] at hm
    · rw [hl] at hm
      exact mem_of_aside hm haside hev
  refine h.frame (fun uuid stream hl => ?_) hwait hfresh hdue (fun _ _ _ _ hm => hback _ id hm)
    (fun _ _ _ _ hm => Or.inl (hback _ id hm)) fun a uuid dropped tm _ hacc => ?_
  · rw [hpeers] at hl
    refine ⟨hl, ?_⟩
    rintro rfl
    exact hold uuid (h.stored uuid stream hl)
  · exact hacc.mono hsub fun stream hl hc => Or.inl ⟨stream, hpeers ▸ hl, hc⟩

/-- A connection takes a stream. -/
theorem OwnExpiry.pair (h : OwnExpiry key conns phases s) {uuid : String} {peer : Stream}
    (harr : phases c = .arriving) (hask : (conns c).request? key = some uuid)
    (hlook : s.peers.lookup uuid = some peer) (hpeers : s'.peers = s.peers.erase uuid)
    (hdue : s'.due = s.due) (hlog : s'.log = .paired c peer.conn uuid :: s.log) :
    OwnExpiry key conns (Function.update phases c (.relaying peer.conn [])) s' := by
  have hback : ∀ ev : Event, ¬ev.Aside → ev ∈ s'.log → ev ∈ s.log := by
    intro ev hev hm
    rw [hlog] at hm
    exact mem_of_aside hm trivial hev
  have hother : ∀ u stream, s.peers.lookup u = some stream → stream.conn ≠ c := by
    rintro u stream hl rfl
    have hold := h.stored u stream hl
    rw [harr] at hold
    cases hold
  refine h.frame (fun u stream hl => ?_) nofun (fun hf => hf.elim) hdue
    (fun _ _ _ _ hm => hback _ id hm) (fun _ _ _ _ hm => Or.inl (hback _ id hm))
    fun a u dropped tm _ hacc => ?_
  · rw [hpeers] at hl
    have hu : u ≠ uuid := by
      rintro rfl
      rw [AList.lookup_erase] at hl
      cases hl
    rw [AList.lookup_erase_ne hu] at hl
    exact ⟨hl, hother u stream hl⟩
  · refine hacc.mono (hlog ▸ List.subset_cons_self _ _) ?_
    intro stream hl hc
    by_cases hu : u = uuid
    · -- it is the stream that is taken
      subst hu
      rw [hlook] at hl
      cases hl
      refine Or.inr (Or.inl ⟨c, fun hca => hother u peer hlook (hc.trans hca.symm), hask, ?_⟩)
      rw [hlog, hc]
      exact List.mem_cons_self
    · refine Or.inl ⟨stream, ?_, hc⟩
      rw [hpeers, AList.lookup_erase_ne hu]
      exact hl

/-- A connection gives up: what it removes is its own. -/
theorem OwnExpiry.cleanUp (h : OwnExpiry key conns phases s) {uuid : String}
    (hw : phases c = .waiting uuid) (hnow : ∀ t ∈ s.due c, t ≤ e.now)
    (hpeers : s'.peers = s.peers.erase uuid) (hdue : s'.due = s.due)
    (hlog : s'.log = .cleaned c uuid ((s.peers.lookup uuid).map Stream.conn) e.now :: s.log) :
    OwnExpiry key conns (Function.update phases c .finished) s' := by
  have hmine : ∀ stream, s.peers.lookup uuid = some stream → stream.conn = c := fun stream hl =>
    h.alone _ _ uuid (h.stored uuid stream hl) hw
  refine h.frame (fun u stream hl => ?_) nofun (fun hf => hf.elim) hdue (fun a u dropped tm hm => ?_)
    (fun a u d tm hm => ?_) fun a u dropped tm hins hacc => ?_
  · rw [hpeers] at hl
    have hu : u ≠ uuid := by
      rintro rfl
      rw [AList.lookup_erase] at hl
      cases hl
    rw [AList.lookup_erase_ne hu] at hl
    refine ⟨hl, ?_⟩
    rintro rfl
    have hold := h.stored u stream hl
    rw [hw] at hold
    cases hold
    exact hu rfl
  · rw [hlog] at hm
    rcases List.mem_cons.mp hm with heq | hm
    · cases heq
    · exact hm
  · rw [hlog] at hm
    rcases List.mem_cons.mp hm with heq | hm
    · injection heq with ha hu hd htm
      obtain ⟨stream, hl, hconn⟩ := Option.map_eq_some_iff.mp hd.symm
      exact Or.inr (by rw [← hconn, hmine stream hl, ha])
    · exact Or.inl hm
  · refine hacc.mono (hlog ▸ List.subset_cons_self _ _) ?_
    intro stream hl hc
    by_cases hu : u = uuid
    · -- it is the stream that is removed
      subst hu
      have hac : a = c := hc.symm.trans (hmine stream hl)
      subst hac
      refine Or.inr (Or.inr ⟨e.now, hnow _ (h.due a u dropped tm hins), ?_⟩)
      rw [hlog, hl, Option.map_some, hc]
      exact List.mem_cons_self
    · refine Or.inl ⟨stream, ?_, hc⟩
      rw [hpeers, AList.lookup_erase_ne hu]
      exact hl

/-- Where nobody else has still to clean up and `c` has not left its stream, nothing is
stored. -/
theorem OwnExpiry.lookup_eq_none (h : OwnExpiry key conns phases s) {uuid : String}
    (hmiss : phases c = .missed uuid) (halone : ∀ d, d ≠ c → phases d ≠ .waiting uuid) :
    s.peers.lookup uuid = none := by
  cases hl : s.peers.lookup uuid with
  | none => rfl
  | some x =>
    have hx := h.stored uuid x hl
    refine absurd hx (halone x.conn ?_)
    rintro rfl
    rw [hmiss] at hx
    cases hx

/-- A connection that has its stream left none before. -/
theorem OwnExpiry.inserted_cases (h : OwnExpiry key conns phases s) (hfresh : (phases c).Fresh)
    {uuid : String} {dropped₀ : Option ConnId} {now : Instant}
    (hlog : s'.log = .inserted c uuid dropped₀ now :: s.log) {a : ConnId} {u : String}
    {dropped : Option ConnId} {tm : Instant} (hm : .inserted a u dropped tm ∈ s'.log) :
    (a = c ∧ u = uuid ∧ dropped = dropped₀ ∧ tm = now) ∨
      (a ≠ c ∧ .inserted a u dropped tm ∈ s.log) := by
  rw [hlog] at hm
  rcases List.mem_cons.mp hm with heq | hold
  · injection heq with h1 h2 h3 h4
    exact Or.inl ⟨h1, h2, h3, h4⟩
  · refine Or.inr ⟨?_, hold⟩
    rintro rfl
    exact h.fresh a u dropped tm hold hfresh

/-- One more connection waits, alone after its `uuid`. -/
theorem OwnExpiry.alone_insert (h : OwnExpiry key conns phases s) {uuid : String}
    (halone : ∀ d, d ≠ c → phases d ≠ .waiting uuid) (a b : ConnId) (u : String)
    (ha : Function.update phases c (.waiting uuid) a = .waiting u)
    (hb : Function.update phases c (.waiting uuid) b = .waiting u) : a = b := by
  by_cases hac : a = c
  · by_cases hbc : b = c
    · exact hac.trans hbc.symm
    · rw [hac, Function.update_self] at ha
      cases ha
      rw [Function.update_of_ne hbc] at hb
      exact absurd hb (halone b hbc)
  · rw [Function.update_of_ne hac] at ha
    by_cases hbc : b = c
    · rw [hbc, Function.update_self] at hb
      cases hb
      exact absurd ha (halone a hac)
    · rw [Function.update_of_ne hbc] at hb
      exact h.alone a b u ha hb

/-- The stream that is left is that of a connection that waits, and so are the others. -/
theorem OwnExpiry.stored_insert (h : OwnExpiry key conns phases s) {uuid : String}
    {stream : Stream} (hmiss : phases c = .missed uuid) (hc : stream.conn = c)
    (hpeers : s'.peers = s.peers.insert uuid stream) (u : String) (x : Stream)
    (hl : s'.peers.lookup u = some x) :
    Function.update phases c (.waiting uuid) x.conn = .waiting u := by
  rw [hpeers] at hl
  by_cases hu : u = uuid
  · subst hu
    rw [AList.lookup_insert] at hl
    cases hl
    rw [hc, Function.update_self]
  · rw [AList.lookup_insert_ne hu] at hl
    have hold := h.stored u x hl
    have hne : x.conn ≠ c := by
      rintro rfl
      rw [hmiss] at hold
      cases hold
    rwa [Function.update_of_ne hne]

/-- A connection leaves its stream where nobody has still to clean up. -/
theorem OwnExpiry.insert (h : OwnExpiry key conns phases s) {uuid : String} {stream : Stream}
    (hmiss : phases c = .missed uuid) (hc : stream.conn = c)
    (halone : ∀ d, d ≠ c → phases d ≠ .waiting uuid)
    (hpeers : s'.peers = s.peers.insert uuid stream)
    (hdue : s'.due = Function.update s.due c (some (e.now + 30000)))
    (hlog : s'.log = .inserted c uuid ((s.peers.lookup uuid).map Stream.conn) e.now :: s.log) :
    OwnExpiry key conns (Function.update phases c (.waiting uuid)) s' := by
  have hfresh : (phases c).Fresh := by
    rw [hmiss]
    trivial
  have hnone := h.lookup_eq_none hmiss halone
  rw [hnone, Option.map_none] at hlog
  have hsub : s.log ⊆ s'.log := hlog ▸ List.subset_cons_self _ _
  refine ⟨h.alone_insert halone, h.stored_insert hmiss hc hpeers, ?_, ?_, ?_, ?_, ?_⟩
  · intro a u dropped tm hm ha
    rcases h.inserted_cases hfresh hlog hm with ⟨rfl, -⟩ | ⟨hac, hm⟩
    · rw [Function.update_self] at ha
      exact ha
    · rw [Function.update_of_ne hac] at ha
      exact h.fresh a u dropped tm hm ha
  · intro a u dropped tm hm
    rw [hdue]
    rcases h.inserted_cases hfresh hlog hm with ⟨rfl, -, -, rfl⟩ | ⟨hac, hm⟩
    · rw [Function.update_self]
    · rw [Function.update_of_ne hac]
      exact h.due a u dropped tm hm
  · intro a u d tm hm
    rcases h.inserted_cases hfresh hlog hm with ⟨-, -, hd, -⟩ | ⟨-, hm⟩
    · cases hd
    · exact h.kept a u d tm hm
  · intro a u d tm hm
    rw [hlog] at hm
    rcases List.mem_cons.mp hm with heq | hm
    · cases heq
    · exact h.own a u d tm hm
  · intro a u dropped tm hm
    rcases h.inserted_cases hfresh hlog hm with ⟨rfl, rfl, -, -⟩ | ⟨-, hm⟩
    · refine Or.inl ⟨stream, ?_, hc⟩
      rw [hpeers, AList.lookup_insert]
    · refine (h.accounted a u dropped tm hm).mono hsub fun x hl hx => Or.inl ⟨x, ?_, hx⟩
      have hu : u ≠ uuid := by
        rintro rfl
        rw [hnone] at hl
        cases hl
      rw [hpeers, AList.lookup_insert_ne hu]
      exact hl

/-- **A move that meets the condition keeps the invariant.** -/
theorem OwnExpiry.move (h : OwnExpiry key conns phases s)
    (hnow : ∀ uuid, phases c = .waiting uuid → ∀ t ∈ s.due c, t ≤ e.now)
    (halone : ∀ uuid, phases c = .missed uuid → ∀ d, d ≠ c → phases d ≠ .waiting uuid)
    (hm : Moves ((conns c).request? key) o e c s s' (phases c) ph) :
    OwnExpiry key conns (Function.update phases c ph) s' := by
  have hquiet := h.quiet s' c ph
  generalize hold : phases c = old at hm hquiet hnow halone
  cases hm with
  | arrive hs => exact hquiet hs.peers hs.due (Or.inl hs.log) nofun nofun id
  | refuse hs => exact hquiet hs.peers hs.due (Or.inl hs.log) nofun nofun fun hf => hf.elim
  | @miss uuid ho hask hlook hpeers hdue hlog =>
    exact hquiet hpeers hdue (Or.inr ⟨.looked c uuid, trivial, hlog⟩) nofun nofun id
  | pair ho hask hlook hpeers hdue hlog => exact h.pair hold hask hlook hpeers hdue hlog
  | @insert uuid stream ho hask hc hpeers hdue hlog =>
    exact h.insert hold hc (halone uuid rfl) hpeers hdue hlog
  | @cleanUp uuid ho hask hpeers hdue hlog => exact h.cleanUp hold (hnow uuid rfl) hpeers hdue hlog
  | @receive d src bytes read hsrc hpeers hdue hlog =>
    exact hquiet hpeers hdue (Or.inr ⟨.received src bytes, trivial, hlog⟩) nofun nofun id
  | @send d dst chunk read hread hends hpeers hdue hlog =>
    exact hquiet hpeers hdue (Or.inr ⟨.sent dst chunk, trivial, hlog⟩) nofun nofun id
  | work hs => exact hquiet hs.peers hs.due (Or.inl hs.log) nofun nofun id

end Step

/-- **A waiting connection leaves `PEERS` by a partner or by its own expiry.**  In every run
in which no connection leaves its stream under a `uuid` while another one has still to clean
up after it: every stream that was left is still there, or was taken by another connection
that asked for its `uuid`, or its own connection removed it half a minute later; no stream
took the place of another, and no clean-up removed another connection's stream. -/
theorem expires_by_itself (hbb : HbbCommon) (key : String) (conns : ConnId → Conn) (s : State)
    {cfg : Config RelaySig State ConnId Unit}
    (h : Reach machine (fun cfg c e => Clocked cfg c e ∧ LeavesAlone cfg c)
      (start hbb key conns s) cfg) :
    (∀ c uuid dropped tm, .inserted c uuid dropped tm ∈ cfg.st.log →
        dropped = none ∧ Accounted key conns cfg.st c uuid tm) ∧
      ∀ c uuid d tm, .cleaned c uuid (some d) tm ∈ cfg.st.log → d = c := by
  have hinv : ∃ phases, Phased hbb key conns cfg phases ∧ OwnExpiry key conns phases cfg.st := by
    refine reach_phases ⟨nofun, nofun, nofun, nofun, nofun, nofun, nofun⟩ ?_ h
    intro cfg phases c e o s' ph hph hP hok ho hm _
    refine hP.move (fun uuid hw => ?_) (fun uuid hmiss d hd hw => ?_) hm
    · have hc := hph c
      rw [hw] at hc
      exact hok.1.2 _ hc.next_waiting rfl
    · have hc := hph c
      have hd' := hph d
      rw [hmiss] at hc
      rw [hw] at hd'
      exact hok.2 uuid _ hc.next_missed d hd hd'.next_waiting
  obtain ⟨phases, -, hinv⟩ := hinv
  refine ⟨fun c uuid dropped tm hm => ⟨?_, hinv.accounted c uuid dropped tm hm⟩, hinv.own⟩
  cases dropped with
  | none => rfl
  | some d => exact absurd hm (hinv.kept c uuid d tm)

/-- Connections that all ask for one `uuid`. -/
def sameUuid : Config RelaySig State ConnId Unit :=
  start plainHbb "" (fun _ => asking "u" "" 0) .blank

/-- The second connection takes the stream of the first, the third leaves its own, and the
first cleans up. -/
def thirdComesEarly : List (ConnId × Env) :=
  [(0, .at 0), (0, .at 0), (0, .at 0), (1, .at 5000), (1, .at 5000), (2, .at 10000), (2, .at 10000),
    (2, .at 10000), (0, .at 30000)]

theorem cleanUp_removes_another :
    sameUuid.Along machine Clocked thirdComesEarly ∧
      .cleaned 0 "u" (some 2) 30000 ∈ (sameUuid.sched machine thirdComesEarly).st.log := by
  decide

/-- One connection waits and gives up. -/
def givesUp : List (ConnId × Env) := [(0, .at 0), (0, .at 0), (0, .at 0), (0, .at 30000)]

theorem expires_by_itself_givesUp :
    .inserted 0 "u" none 0 ∈ (sameUuid.sched machine givesUp).st.log ∧
      Accounted "" (fun _ => asking "u" "" 0) (sameUuid.sched machine givesUp).st 0 "u" 0 := by
  have hins : .inserted 0 "u" none 0 ∈ (sameUuid.sched machine givesUp).st.log := by decide
  refine ⟨hins, ((expires_by_itself plainHbb "" (fun _ => asking "u" "" 0) .blank
    (reach_sched (l := givesUp) ?_)).1 0 "u" none 0 hins).2⟩
  -- the others have not begun when the first one leaves its stream
  have hother : ∀ d, d ≠ 0 → ((sameUuid.sched machine (givesUp.take 2)).task d).next? ≠
      some (.cleanUp d "u") := by
    intro d hd
    have htask : (sameUuid.sched machine (givesUp.take 2)).task d = sameUuid.task d := by
      refine (Function.update_of_ne hd _ _).trans ?_
      exact Function.update_of_ne hd _ _
    rw [htask]
    nofun
  refine ⟨⟨by decide, nofun⟩, ⟨by decide, nofun⟩, ⟨by decide, fun uuid stream hnext d hd => ?_⟩,
    ⟨by decide, nofun⟩, trivial⟩
  cases hnext
  exact hother d hd

end Hbbr

end RustdeskServer
