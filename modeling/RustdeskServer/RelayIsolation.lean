import RustdeskServer.RelayPhases

/-!
# Sessions of the relay server do not mix

Streams move: from the task of their connection into `PEERS`, and from there to the task
that takes them.  A stream that is in `PEERS` belongs to a connection that waits, under the
`uuid` it asked for, and nobody has taken it before; a connection that has not looked, or
has looked and not yet left its stream, is in no pair.  Clean-ups and overwrites only lose
streams, and never bring one to a second pair.

## Main definitions

* `members` — the connections of all pairs so far.
* `Presented` — what a connection showed when it asked.
* `Isolated` — the invariant.

## Main results

* `relay_isolation` — **in every run a connection is in at most one pair, both ends of a
  pair presented the same `uuid` and the key, and what is read from one is sent to the other
  only.**
-/

namespace RustdeskServer

namespace Hbbr

open Atomic

/-- The two connections of a pairing. -/
def Event.pair? : Event → Option (ConnId × ConnId)
  | .paired c peer _ => some (c, peer)
  | _ => none

/-- The connections of all pairs, newest first. -/
def members (log : List Event) : List ConnId :=
  (log.filterMap Event.pair?).flatMap fun p => [p.1, p.2]

/-- The connection presented this `uuid` and this key. -/
def Presented (conn : Conn) (key uuid : String) : Prop :=
  ∃ rf, conn.first = some (.requestRelay rf) ∧ rf.uuid = uuid ∧ rf.licenceKey = key

/-- The chunk was read where it says, and its connection and `dst` are a pair. -/
def StaysInPair (log : List Event) (dst : ConnId) (chunk : Chunk) : Prop :=
  .received chunk.src chunk.bytes ∈ log ∧
    ∃ uuid, .paired dst chunk.src uuid ∈ log ∨ .paired chunk.src dst uuid ∈ log

/-- The invariant of all runs. -/
structure Isolated (key : String) (conns : ConnId → Conn) (phases : ConnId → Phase) (s : State) :
    Prop where
  /-- Nobody is in two pairs. -/
  nodup : (members s.log).Nodup
  /-- Both ends of a pair asked for its `uuid`. -/
  asked : ∀ c d uuid, .paired c d uuid ∈ s.log →
    (conns c).request? key = some uuid ∧ (conns d).request? key = some uuid
  /-- A stream in `PEERS` is under the `uuid` its connection waits for, and in no pair. -/
  stored : ∀ uuid stream, s.peers.lookup uuid = some stream →
    phases stream.conn = .waiting uuid ∧ (conns stream.conn).request? key = some uuid ∧
      stream.conn ∉ members s.log
  /-- Who has not left its stream is in no pair. -/
  fresh : ∀ c, (phases c).Fresh → c ∉ members s.log
  /-- Who relays is in that pair, and has read what it has. -/
  relaying : ∀ c d read, phases c = .relaying d read → (∃ uuid, .paired c d uuid ∈ s.log) ∧
    ∀ chunk ∈ read, .received chunk.src chunk.bytes ∈ s.log
  /-- What is sent stays in a pair. -/
  sent : ∀ dst chunk, .sent dst chunk ∈ s.log → StaysInPair s.log dst chunk

section Step

variable {key : String} {conns : ConnId → Conn} {phases : ConnId → Phase} {s s' : State}
  {c : ConnId} {o : Op} {e : Env} {ph : Phase}

theorem members_cons {ev : Event} (h : ev.pair? = none) (log : List Event) :
    members (ev :: log) = members log := by
  simp [members, h]

theorem members_paired (c d : ConnId) (uuid : String) (log : List Event) :
    members (.paired c d uuid :: log) = c :: d :: members log := by
  simp [members, Event.pair?]

theorem members_append (l₁ l₂ : List Event) : members (l₁ ++ l₂) = members l₁ ++ members l₂ := by
  simp [members]

theorem paired_mem_cons {ev : Event} (h : ev.pair? = none) {log : List Event} {c d : ConnId}
    {uuid : String} (hm : .paired c d uuid ∈ ev :: log) : .paired c d uuid ∈ log := by
  rcases List.mem_cons.mp hm with rfl | hm
  · cases h
  · exact hm

theorem StaysInPair.mono {log log' : List Event} {dst : ConnId} {chunk : Chunk}
    (h : StaysInPair log dst chunk) (hsub : log ⊆ log') : StaysInPair log' dst chunk := by
  obtain ⟨hread, uuid, hp⟩ := h
  exact ⟨hsub hread, uuid, hp.imp (fun h => hsub h) fun h => hsub h⟩

/-- A move that makes no pair. -/
theorem Isolated.stays (h : Isolated key conns phases s)
    (hstored : ∀ uuid stream, s'.peers.lookup uuid = some stream →
      Function.update phases c ph stream.conn = .waiting uuid ∧
        (conns stream.conn).request? key = some uuid ∧ stream.conn ∉ members s.log)
    (hlog : s'.log = s.log ∨ ∃ ev, ev.pair? = none ∧ s'.log = ev :: s.log)
    (hfresh : ph.Fresh → (phases c).Fresh)
    (hrel : ∀ d read, ph = .relaying d read → ∃ read', phases c = .relaying d read' ∧
      ∀ chunk ∈ read, chunk ∈ read' ∨ .received chunk.src chunk.bytes ∈ s'.log)
    (hsent : ∀ dst chunk, .sent dst chunk ∈ s'.log →
      .sent dst chunk ∈ s.log ∨ StaysInPair s.log dst chunk) :
    Isolated key conns (Function.update phases c ph) s' := by
  have hmem : members s'.log = members s.log := by
    rcases hlog with hl | ⟨ev, hev, hl⟩
    · rw [hl]
    · rw [hl, members_cons hev]
  have hsub : s.log ⊆ s'.log := by
    rcases hlog with hl | ⟨ev, -, hl⟩
    · exact hl ▸ List.Subset.refl _
    · exact hl ▸ List.subset_cons_self ev s.log
  refine ⟨hmem ▸ h.nodup, fun a b uuid hp => ?_, fun uuid stream hl => ?_, fun a ha => ?_,
    fun a d read hd => ?_, fun dst chunk hm => ?_⟩
  · rcases hlog with hl | ⟨ev, hev, hl⟩
    · exact h.asked a b uuid (hl ▸ hp)
    · rw [hl] at hp
      exact h.asked a b uuid (paired_mem_cons hev hp)
  · rw [hmem]
    exact hstored uuid stream hl
  · rw [hmem]
    by_cases hac : a = c
    · subst hac
      rw [Function.update_self] at ha
      exact h.fresh a (hfresh ha)
    · rw [Function.update_of_ne hac] at ha
      exact h.fresh a ha
  · by_cases hac : a = c
    · subst hac
      rw [Function.update_self] at hd
      obtain ⟨read', hold, hread⟩ := hrel d read hd
      obtain ⟨⟨uuid, hp⟩, hrecv⟩ := h.relaying a d read' hold
      refine ⟨⟨uuid, hsub hp⟩, ?_⟩
      intro chunk hc
      rcases hread chunk hc with hc | hc
      · exact hsub (hrecv chunk hc)
      · exact hc
    · rw [Function.update_of_ne hac] at hd
      obtain ⟨⟨uuid, hp⟩, hrecv⟩ := h.relaying a d read hd
      exact ⟨⟨uuid, hsub hp⟩, fun chunk hc => hsub (hrecv chunk hc)⟩
  · rcases hsent dst chunk hm with hm | hp
    · exact (h.sent dst chunk hm).mono hsub
    · exact hp.mono hsub

/-- When a stream is taken, what is left in `PEERS` waits under another `uuid`. -/
theorem Isolated.stored_pair (h : Isolated key conns phases s) {uuid : String} {peer : Stream}
    (harr : phases c = .arriving) (hw : phases peer.conn = .waiting uuid)
    (hpeers : s'.peers = s.peers.erase uuid)
    (hmem : members s'.log = c :: peer.conn :: members s.log) {u : String} {stream : Stream}
    (hl : s'.peers.lookup u = some stream) :
    phases stream.conn = .waiting u ∧ (conns stream.conn).request? key = some u ∧
      stream.conn ≠ c ∧ stream.conn ∉ members s'.log := by
  rw [hpeers] at hl
  have hu : u ≠ uuid := by
    rintro rfl
    rw [AList.lookup_erase] at hl
    cases hl
  rw [AList.lookup_erase_ne hu] at hl
  obtain ⟨hw', hask, hno⟩ := h.stored u stream hl
  have hsc : stream.conn ≠ c := by
    rintro rfl
    rw [harr] at hw'
    cases hw'
  have hsp : stream.conn ≠ peer.conn := by
    intro heq
    rw [heq, hw] at hw'
    cases hw'
    exact hu rfl
  rw [hmem, List.mem_cons, List.mem_cons]
  exact ⟨hw', hask, hsc, not_or.mpr ⟨hsc, not_or.mpr ⟨hsp, hno⟩⟩⟩

/-- A connection takes a stream. -/
theorem Isolated.pair (h : Isolated key conns phases s) {uuid : String} {peer : Stream}
    (harr : phases c = .arriving) (hask : (conns c).request? key = some uuid)
    (hlook : s.peers.lookup uuid = some peer) (hpeers : s'.peers = s.peers.erase uuid)
    (hlog : s'.log = .paired c peer.conn uuid :: s.log) :
    Isolated key conns (Function.update phases c (.relaying peer.conn [])) s' := by
  obtain ⟨hw, hask', hno⟩ := h.stored uuid peer hlook
  have hfresh : (phases c).Fresh := by
    rw [harr]
    trivial
  have hne : c ≠ peer.conn := by
    rintro rfl
    rw [harr] at hw
    cases hw
  have hmem : members s'.log = c :: peer.conn :: members s.log := by rw [hlog, members_paired]
  have hsub : s.log ⊆ s'.log := hlog ▸ List.subset_cons_self _ s.log
  refine ⟨?_, ?_, ?_, ?_, ?_, ?_⟩
  · rw [hmem, List.nodup_cons, List.nodup_cons, List.mem_cons]
    exact ⟨not_or.mpr ⟨hne, h.fresh c hfresh⟩, hno, h.nodup⟩
  · intro a b u hp
    rw [hlog] at hp
    rcases List.mem_cons.mp hp with heq | hp
    · cases heq
      exact ⟨hask, hask'⟩
    · exact h.asked a b u hp
  · intro u stream hl
    obtain ⟨hw', hask'', hsc, hno'⟩ := h.stored_pair harr hw hpeers hmem hl
    rw [Function.update_of_ne hsc]
    exact ⟨hw', hask'', hno'⟩
  · intro a ha
    by_cases hac : a = c
    · subst hac
      rw [Function.update_self] at ha
      exact ha.elim
    · rw [Function.update_of_ne hac] at ha
      have hap : a ≠ peer.conn := by
        rintro rfl
        rw [hw] at ha
        exact ha.elim
      rw [hmem, List.mem_cons, List.mem_cons]
      exact not_or.mpr ⟨hac, not_or.mpr ⟨hap, h.fresh a ha⟩⟩
  · intro a d read hd
    by_cases hac : a = c
    · subst hac
      rw [Function.update_self] at hd
      cases hd
      refine ⟨⟨uuid, ?_⟩, nofun⟩
      rw [hlog]
      exact List.mem_cons_self
    · rw [Function.update_of_ne hac] at hd
      obtain ⟨⟨u, hp⟩, hrecv⟩ := h.relaying a d read hd
      exact ⟨⟨u, hsub hp⟩, fun chunk hc => hsub (hrecv chunk hc)⟩
  · intro dst chunk hm
    rw [hlog] at hm
    rcases List.mem_cons.mp hm with heq | hm
    · cases heq
    · exact (h.sent dst chunk hm).mono hsub

/-- What is in `PEERS` stays so when a connection moves that does not wait. -/
theorem Isolated.stored_of_same (h : Isolated key conns phases s) (hpeers : s'.peers = s.peers)
    (hwait : ∀ uuid, phases c ≠ .waiting uuid) (uuid : String) (stream : Stream)
    (hl : s'.peers.lookup uuid = some stream) :
    Function.update phases c ph stream.conn = .waiting uuid ∧
      (conns stream.conn).request? key = some uuid ∧ stream.conn ∉ members s.log := by
  rw [hpeers] at hl
  obtain ⟨hw, hask, hno⟩ := h.stored uuid stream hl
  have hne : stream.conn ≠ c := by
    rintro rfl
    exact hwait uuid hw
  rw [Function.update_of_ne hne]
  exact ⟨hw, hask, hno⟩

/-- A connection leaves its stream. -/
theorem Isolated.insert (h : Isolated key conns phases s) {uuid : String} {stream : Stream}
    {dropped : Option ConnId} {tm : Instant} (hmiss : phases c = .missed uuid)
    (hask : (conns c).request? key = some uuid) (hc : stream.conn = c)
    (hpeers : s'.peers = s.peers.insert uuid stream)
    (hlog : s'.log = .inserted c uuid dropped tm :: s.log) :
    Isolated key conns (Function.update phases c (.waiting uuid)) s' := by
  refine h.stays (fun u x hl => ?_) (Or.inr ⟨_, rfl, hlog⟩) (fun hf => hf.elim)
    (fun d read hd => by cases hd) fun dst chunk hm => ?_
  · rw [hpeers] at hl
    by_cases hu : u = uuid
    · subst hu
      rw [AList.lookup_insert] at hl
      cases hl
      rw [hc, Function.update_self]
      refine ⟨rfl, hask, h.fresh c ?_⟩
      rw [hmiss]
      trivial
    · rw [AList.lookup_insert_ne hu] at hl
      refine h.stored_of_same rfl (fun v hv => ?_) u x hl
      rw [hmiss] at hv
      cases hv
  · rw [hlog] at hm
    exact Or.inl ((List.mem_cons.mp hm).resolve_left (by rintro ⟨⟩))

/-- A connection gives up. -/
theorem Isolated.cleanUp (h : Isolated key conns phases s) {uuid : String}
    {removed : Option ConnId} {tm : Instant} (hw : phases c = .waiting uuid)
    (hpeers : s'.peers = s.peers.erase uuid) (hlog : s'.log = .cleaned c uuid removed tm :: s.log) :
    Isolated key conns (Function.update phases c .finished) s' := by
  refine h.stays (fun u x hl => ?_) (Or.inr ⟨_, rfl, hlog⟩) (fun hf => hf.elim)
    (fun d read hd => by cases hd) fun dst chunk hm => ?_
  · rw [hpeers] at hl
    have hu : u ≠ uuid := by
      rintro rfl
      rw [AList.lookup_erase] at hl
      cases hl
    rw [AList.lookup_erase_ne hu] at hl
    obtain ⟨hw', hask, hno⟩ := h.stored u x hl
    have hne : x.conn ≠ c := by
      rintro rfl
      rw [hw] at hw'
      cases hw'
      exact hu rfl
    rw [Function.update_of_ne hne]
    exact ⟨hw', hask, hno⟩
  · rw [hlog] at hm
    exact Or.inl ((List.mem_cons.mp hm).resolve_left (by rintro ⟨⟩))

variable (s' c ph) in
/-- A move that makes no pair, changes nothing in `PEERS` and sends nothing. -/
theorem Isolated.quiet (h : Isolated key conns phases s)
    (hwait : ∀ uuid, phases c ≠ .waiting uuid) (hpeers : s'.peers = s.peers)
    (hlog : s'.log = s.log ∨ ∃ ev, ev.pair? = none ∧ (∀ dst chunk, ev ≠ .sent dst chunk) ∧
      s'.log = ev :: s.log)
    (hfresh : ph.Fresh → (phases c).Fresh)
    (hrel : ∀ d read, ph = .relaying d read → ∃ read', phases c = .relaying d read' ∧
      ∀ chunk ∈ read, chunk ∈ read' ∨ .received chunk.src chunk.bytes ∈ s'.log) :
    Isolated key conns (Function.update phases c ph) s' := by
  refine h.stays (h.stored_of_same hpeers hwait) ?_ hfresh hrel fun dst chunk hm => Or.inl ?_
  · rcases hlog with hl | ⟨ev, hev, -, hl⟩
    · exact Or.inl hl
    · exact Or.inr ⟨ev, hev, hl⟩
  · rcases hlog with hl | ⟨ev, -, hne, hl⟩
    · rwa [hl] at hm
    · rw [hl] at hm
      exact (List.mem_cons.mp hm).resolve_left fun heq => hne _ _ heq.symm

/-- A chunk goes to the other end of its session. -/
theorem Isolated.send (h : Isolated key conns phases s) {d dst : ConnId} {read : List Chunk}
    {chunk : Chunk} (hold : phases c = .relaying d read) (hread : chunk ∈ read)
    (hends : (dst = c ∧ chunk.src = d) ∨ (dst = d ∧ chunk.src = c))
    (hpeers : s'.peers = s.peers) (hlog : s'.log = .sent dst chunk :: s.log) :
    Isolated key conns (Function.update phases c (.relaying d read)) s' := by
  obtain ⟨⟨uuid, hp⟩, hrecv⟩ := h.relaying c d read hold
  refine h.stays (h.stored_of_same hpeers fun u hu => ?_) (Or.inr ⟨_, rfl, hlog⟩)
    (fun hf => hf.elim) (fun d' read' heq => ?_) fun dst' chunk' hm => ?_
  · rw [hold] at hu
    cases hu
  · cases heq
    exact ⟨read, hold, fun _ hc => Or.inl hc⟩
  · rw [hlog] at hm
    rcases List.mem_cons.mp hm with heq | hm
    · cases heq
      refine Or.inr ⟨hrecv chunk hread, uuid, ?_⟩
      rcases hends with ⟨hd, hs⟩ | ⟨hd, hs⟩
      · rw [hd, hs]
        exact Or.inl hp
      · rw [hd, hs]
        exact Or.inr hp
    · exact Or.inl hm

/-- **Every move keeps the invariant.** -/
theorem Isolated.move (h : Isolated key conns phases s)
    (hm : Moves ((conns c).request? key) o e c s s' (phases c) ph) :
    Isolated key conns (Function.update phases c ph) s' := by
  have hquiet := h.quiet s' c ph
  generalize hold : phases c = old at hm hquiet
  cases hm with
  | arrive hs => exact hquiet nofun hs.peers (Or.inl hs.log) id nofun
  | refuse hs => exact hquiet nofun hs.peers (Or.inl hs.log) (fun hf => hf.elim) nofun
  | miss ho hask hlook hpeers hdue hlog =>
    exact hquiet nofun hpeers (Or.inr ⟨_, rfl, fun _ _ heq => (by cases heq), hlog⟩) id nofun
  | pair ho hask hlook hpeers hdue hlog => exact h.pair hold hask hlook hpeers hlog
  | insert ho hask hc hpeers hdue hlog => exact h.insert hold hask hc hpeers hlog
  | cleanUp ho hask hpeers hdue hlog => exact h.cleanUp hold hpeers hlog
  | @receive d src bytes read hsrc hpeers hdue hlog =>
    refine hquiet nofun hpeers (Or.inr ⟨_, rfl, fun _ _ heq => (by cases heq), hlog⟩) id ?_
    intro d' read' heq
    cases heq
    refine ⟨read, rfl, ?_⟩
    intro chunk hc
    rcases List.mem_cons.mp hc with rfl | hc
    · rw [hlog]
      exact Or.inr List.mem_cons_self
    · exact Or.inl hc
  | send hread hends hpeers hdue hlog => exact h.send hold hread hends hpeers hlog
  | @work d read hs =>
    refine hquiet nofun hs.peers (Or.inl hs.log) id ?_
    intro d' read' heq
    cases heq
    exact ⟨read, rfl, fun _ hc => Or.inl hc⟩

end Step

/-- **Relay isolation.**  In every run of a relay server with a key, whatever the order of
its tasks and their timing: no connection is in two pairs or twice in one, both ends of a
pair presented its `uuid`, which is not empty, and the key, and what was read from a
connection went only to the other end of its pair. -/
theorem relay_isolation (hbb : HbbCommon) {key : String} (hkey : key ≠ "")
    (conns : ConnId → Conn) (s : State) {cfg : Config RelaySig State ConnId Unit}
    (h : Reach machine (fun _ _ _ => True) (start hbb key conns s) cfg) :
    (members cfg.st.log).Nodup ∧
      (∀ c d uuid, .paired c d uuid ∈ cfg.st.log →
        c ≠ d ∧ uuid ≠ "" ∧ Presented (conns c) key uuid ∧ Presented (conns d) key uuid) ∧
      ∀ dst chunk, .sent dst chunk ∈ cfg.st.log → StaysInPair cfg.st.log dst chunk := by
  obtain ⟨phases, -, hinv⟩ := reach_phases (P := Isolated key conns)
    ⟨List.nodup_nil, nofun, nofun, fun _ _ => List.not_mem_nil, nofun, nofun⟩
    (fun _ _ _ _ _ _ _ _ hP _ _ hm _ => hP.move hm) h
  refine ⟨hinv.nodup, fun c d uuid hp => ?_, hinv.sent⟩
  obtain ⟨hc, hd⟩ := hinv.asked c d uuid hp
  obtain ⟨rf, hfirst, huuid, hne, hlk⟩ := Conn.request?_eq_some hc
  obtain ⟨rf', hfirst', huuid', -, hlk'⟩ := Conn.request?_eq_some hd
  refine ⟨?_, hne, ⟨rf, hfirst, huuid, hlk hkey⟩, ⟨rf', hfirst', huuid', hlk' hkey⟩⟩
  rintro rfl
  obtain ⟨new, past, hsplit⟩ := List.append_of_mem hp
  have hnodup := hinv.nodup
  rw [hsplit, members_append, members_paired] at hnodup
  exact (List.nodup_cons.mp hnodup.of_append_right).1 List.mem_cons_self

/-- One connection waits, the next one takes its stream and passes on what it sends. -/
def oneSession : Config RelaySig State ConnId Unit :=
  (start plainHbb "k" (fun _ => asking "u" "k" 1) .blank).sched machine <|
    List.replicate 3 (0, .at 0) ++ List.replicate 8 (1, .at 0) ++
      [(1, ⟨0, .peer (some [7]), none⟩)] ++ List.replicate 4 (1, .at 0)

theorem relay_isolation_oneSession :
    .sent 1 ⟨0, [7]⟩ ∈ oneSession.st.log ∧ StaysInPair oneSession.st.log 1 ⟨0, [7]⟩ := by
  have hsent : .sent 1 ⟨0, [7]⟩ ∈ oneSession.st.log := by decide
  exact ⟨hsent, (relay_isolation plainHbb (by decide) _ _ (reach_sched (along_true _ _))).2.2
    1 ⟨0, [7]⟩ hsent⟩

end Hbbr

end RustdeskServer
