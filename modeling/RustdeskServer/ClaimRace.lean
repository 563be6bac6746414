import RustdeskServer.ClaimInv
import RustdeskServer.LookupRace

/-!
# Claims of one id that race

Any number of `handle_register_pk` tasks claim an id that nobody has.  Each looks the
record up, checks its owner, lets the lock go, and only then writes the record and the
row.  Two tasks that both pass the check before either writes are both told `ok`, and
the row keeps the first claim while memory keeps the last.

The check goes wrong only in that way.  A task is *committed* from the moment its check
passes until it returns.  In the runs in which a check passes only while the committed
tasks make the same claim, and no lookup overwrites the record, one owner is told `ok`
and in the end memory and row agree.

## Main definitions

* `ClaimsApart` — the condition on a step.
* `Tracked` — every task is at a point, and the invariant holds.

## Main results

* `tracked_step` — **a step that meets the condition keeps the invariant.**
* `one_owner_per_claim` — one owner is told `ok`, and memory and row agree.
* `two_owners_told_ok` — two tasks for which that fails.
-/

namespace RustdeskServer

open Atomic

/-! ### All tasks together -/

section Rows

variable {J : Serde} {id : String} {T : Claimant} {e : Env} {s : PeerStore}

/-- `insert_peer` is refused only because the row is there. -/
theorem store_insertRow (J : Serde) (id : String) (hwf : DbWF s.db) (hok : DbOk e s)
    (hu : T.uuid ≠ []) (h : Handle) :
    (∃ r, findRow s.db id = some r ∧ (Point.insertRow h).store J id T e s = s ∧
        (Point.insertRow h).next J id T e s = .done (some .ok)) ∨
      ∃ r : Row, findRow s.db id = none ∧ r.uuid = T.uuid ∧ r.pk = T.pk ∧
        r.guid = e.guid.bytes ∧
        (Point.insertRow h).store J id T e s = { s with db := s.db ++ [r] } ∧
        (Point.insertRow h).next J id T e s = .setGuid h e.guid.bytes ∧
        findRow (s.db ++ [r]) id = some r ∧ DbWF (s.db ++ [r]) := by
  simp only [Point.store, Point.section?, PeerOp.exec, Point.next, hok.insert, Bool.false_eq_true,
    if_false]
  cases hr : findRow s.db id with
  | some r =>
    obtain ⟨hmem, hid⟩ := mem_of_findRow hr
    have hrefused : Database.insertPeer s.db
        ⟨e.guid.bytes, id, T.uuid, T.pk, J.toString ⟨T.ip⟩⟩ = none := by
      unfold Database.insertPeer
      rw [if_pos]
      simp only [List.any_eq_true, decide_eq_true_eq]
      exact ⟨r, hmem, Or.inr hid⟩
    rw [hrefused]
    exact Or.inl ⟨r, rfl, rfl, rfl⟩
  | none =>
    rw [findRow_eq_none_iff] at hr
    have hdone : Database.insertPeer s.db ⟨e.guid.bytes, id, T.uuid, T.pk, J.toString ⟨T.ip⟩⟩ =
        some (s.db ++ [⟨e.guid.bytes, id, T.uuid, T.pk, J.toString ⟨T.ip⟩⟩]) := by
      unfold Database.insertPeer
      rw [if_neg]
      simp only [List.any_eq_true, decide_eq_true_eq, not_exists, not_and, not_or]
      exact fun x hx => ⟨hok.guid x hx, hr x hx⟩
    rw [hdone]
    exact Or.inr ⟨_, rfl, rfl, rfl, rfl, rfl, rfl, findRow_append_self hr,
      hwf.insert hok.guid hr hu e.guid.bytes_ne_nil⟩

/-- `update_pk` rewrites the row. -/
theorem store_updateRow (hwf : DbWF s.db) (hok : DbOk e s) {r : Row}
    (hr : findRow s.db id = some r) (h : Handle) :
    ∃ db, (Point.updateRow h r.guid).store J id T e s = { s with db := db } ∧ DbWF db ∧
      findRow db id = some { r with pk := T.pk, info := J.toString ⟨T.ip⟩ } := by
  obtain ⟨hmem, hid⟩ := mem_of_findRow hr
  subst hid
  simp only [Point.store, Point.section?, PeerOp.exec, hok.update, Bool.false_eq_true, if_false,
    hwf.updatePk_eq T.pk _ hmem]
  exact ⟨_, rfl, hwf.rekey _ _ hmem, hwf.findRow_rekey_self _ _ hmem⟩

end Rows

/-- Database calls succeed, except that `insert_peer` is refused for a row that is there. -/
def CallsSucceed (e : Env) (_ : PeerOp) (s : PeerStore) : Prop := DbOk e s

instance (e : Env) (o : PeerOp) (s : PeerStore) : Decidable (CallsSucceed e o s) :=
  inferInstanceAs (Decidable (DbOk e s))

section Tasks

variable {ι : Type} (J : Serde) (id : String) (T : ι → Claimant)

/-- Database calls succeed, no lookup overwrites a record, and a check passes only while
the tasks that are committed make the same claim. -/
def ClaimsApart (c : Config PeerSig PeerStore ι (Option RegisterPkResult)) (i : ι) (e : Env) :
    Prop :=
  OpOk CallsSucceed c i e ∧ OpOk NoOverwrite c i e ∧
    ∀ h, c.task i = (Point.check h).prog J id (T i) →
      regCheck (c.st.recs h) ((T i).rk id) (T i).ip ≠ none →
        ∀ j, j ≠ i → (∃ pt : Point, pt.Committed = true ∧ c.task j = pt.prog J id (T j)) →
          (T j).Same (T i)

/-- Every task is at a point, and the invariant holds there. -/
def Tracked (c : Config PeerSig PeerStore ι (Option RegisterPkResult)) : Prop :=
  ∃ pts : ι → Point, (∀ i, c.task i = (pts i).prog J id (T i)) ∧ DbWF c.st.db ∧
    ClaimInv T (c.st.view id) pts

variable [DecidableEq ι] {J id T}

theorem tracked_update {c : Config PeerSig PeerStore ι (Option RegisterPkResult)}
    {pts : ι → Point} (htask : ∀ i, c.task i = (pts i).prog J id (T i)) (i : ι) (e : Env)
    (hdb : DbWF ((pts i).store J id (T i) e c.st).db)
    (hinv : ClaimInv T (((pts i).store J id (T i) e c.st).view id)
      (Function.update pts i ((pts i).next J id (T i) e c.st))) :
    Tracked J id T (c.step peerMachine i e) := by
  rw [Point.step_point (htask i) e]
  refine ⟨_, fun j => ?_, hdb, hinv⟩
  by_cases hj : j = i
  · subst hj
    simp
  · simp only [Function.update_of_ne hj, htask j]

/-- A section that changes nothing the tasks see. -/
theorem tracked_move {c : Config PeerSig PeerStore ι (Option RegisterPkResult)}
    {pts : ι → Point} (htask : ∀ i, c.task i = (pts i).prog J id (T i)) (hwf : DbWF c.st.db)
    (hI : ClaimInv T (c.st.view id) pts) {i : ι} {e : Env} {pt : Point} (hi : pts i = pt)
    (hdb : (pt.store J id (T i) e c.st).db = c.st.db)
    (hview : (pt.store J id (T i) e c.st).view id = c.st.view id) (hw : pt.Wrote = false)
    (hne : pt ≠ .done none) (hnew : (pt.next J id (T i) e c.st).Holds (T i) (c.st.view id))
    (hc : (pt.next J id (T i) e c.st).Committed = true → pt.Committed = true ∨
      ∀ j, j ≠ i → (pts j).Committed = true → (T j).Same (T i)) :
    Tracked J id T (c.step peerMachine i e) := by
  subst hi
  refine tracked_update htask i e (by rw [hdb]; exact hwf) ?_
  rw [hview]
  exact hI.move hw hnew (Or.inl (hI.uuid_ne rfl hne)) hc

section Step

variable {c : Config PeerSig PeerStore ι (Option RegisterPkResult)} {pts : ι → Point} {i : ι}
  {e : Env}

theorem tracked_getOrInsert (htask : ∀ i, c.task i = (pts i).prog J id (T i))
    (hwf : DbWF c.st.db) (hI : ClaimInv T (c.st.view id) pts) (hi : pts i = .getOrInsert) :
    Tracked J id T (c.step peerMachine i e) := by
  cases hm : c.st.map.lookup id with
  | some h =>
    have hst : Point.getOrInsert.store J id (T i) e c.st = c.st := by
      simp [Point.store, Point.section?, PeerOp.exec, hm]
    refine tracked_move htask hwf hI hi (by rw [hst]) (by rw [hst]) rfl (by simp) ?_
      fun h => by cases h
    simp only [Point.next, PeerStore.slot_of_some hm]
    exact view_handle.trans hm
  | none =>
    have hst : Point.getOrInsert.store J id (T i) e c.st =
        c.st.alloc id (Peer.default e.now) := by
      simp [Point.store, Point.section?, PeerOp.exec, hm]
    refine tracked_update htask i e ?_ ?_
    · rw [hi, hst]
      exact hwf
    · rw [hi, hst, view_alloc_default hm]
      have hnone : (c.st.view id).handle = none := view_handle.trans hm
      refine (hI.alloc hnone ⟨id, c.st.next⟩).move (by rw [hi]; rfl) ?_
        (Or.inl (hI.uuid_ne hi (by simp))) fun h => by cases h
      simp only [Point.next, PeerStore.slot_of_none hm]
      rfl

/-- A check passes only while the committed tasks make the same claim. -/
theorem tracked_check (htask : ∀ i, c.task i = (pts i).prog J id (T i))
    (hwf : DbWF c.st.db) (hI : ClaimInv T (c.st.view id) pts) {h : Handle}
    (hi : pts i = .check h)
    (hcheck : regCheck (c.st.recs h) ((T i).rk id) (T i).ip ≠ none →
      ∀ j, j ≠ i → (pts j).Committed = true → (T j).Same (T i)) :
    Tracked J id T (c.step peerMachine i e) := by
  have hhold := hI.holds i
  rw [hi] at hhold
  have hm : c.st.map.lookup id = some h := view_handle.symm.trans hhold
  refine tracked_move htask hwf hI hi rfl rfl rfl (by simp) ?_ ?_
  · simp only [Point.next]
    split
    · exact fun h => by cases h
    · next changed ipChanged hc =>
      refine ⟨hhold, ?_⟩
      rw [view_of_some hm]
      rcases regCheck_eq_some hc with ⟨hu, hch⟩ | ⟨-, hu, -⟩
      · exact Or.inr ⟨hu, hch⟩
      · exact Or.inl hu
  · simp only [Point.next]
    split
    · exact fun h => by cases h
    · next changed ipChanged hc => exact fun _ => Or.inr (hcheck (by rw [hc]; simp))

theorem tracked_write (htask : ∀ i, c.task i = (pts i).prog J id (T i))
    (hwf : DbWF c.st.db) (hI : ClaimInv T (c.st.view id) pts) {h : Handle}
    (hi : pts i = .write h) : Tracked J id T (c.step peerMachine i e) := by
  have hhold := hI.holds i
  rw [hi] at hhold
  have hm : c.st.map.lookup id = some h := view_handle.symm.trans hhold.1
  have hinv := hI.write hi
  rw [view_of_some hm] at hinv
  refine tracked_update htask i e ?_ ?_
  · rw [hi]
    exact hwf
  · rw [hi]
    simp only [Point.store, Point.section?, PeerOp.exec, Point.next]
    rw [view_modify hm (Peer.register e.now (T i).addr (T i).uuid (T i).pk (T i).ip)]
    exact hinv

theorem tracked_insertRow (htask : ∀ i, c.task i = (pts i).prog J id (T i))
    (hwf : DbWF c.st.db) (hI : ClaimInv T (c.st.view id) pts) (hdbok : DbOk e c.st) {h : Handle}
    (hi : pts i = .insertRow h) : Tracked J id T (c.step peerMachine i e) := by
  have hhold := hI.holds i
  rw [hi] at hhold
  have hne : (T i).uuid ≠ [] := hI.uuid_ne hi (by simp)
  rcases store_insertRow J id hwf hdbok hne h with
    ⟨r, hr, hst, hnext⟩ | ⟨r, hr, hru, hrk, hrg, hst, hnext, hself, hwf'⟩
  · refine tracked_update htask i e ?_ ?_
    · rw [hi, hst]
      exact hwf
    · rw [hi, hst, hnext]
      exact hI.insert_refused hi (view_row.trans hr)
  · refine tracked_update htask i e ?_ ?_
    · rw [hi, hst]
      exact hwf'
    · have hnorow : (c.st.view id).row = none := view_row.trans hr
      rw [hi, hst, hnext, view_db, hself]
      refine hI.rewrite (by rw [hi]; rfl) hhold.2.1 hhold.2.2.1 hne hru hrk ?_ ?_ ?_ rfl ?_
      · intro r' hr'
        rw [hnorow] at hr'
        cases hr'
      · exact fun _ => ⟨h, by rw [hrg]⟩
      · intro h' g hg
        rw [hi] at hg
        cases hg
      · exact ⟨hhold.1, hhold.2.1, hhold.2.2.1, r, rfl, hrg, hrk⟩

theorem tracked_setGuid (htask : ∀ i, c.task i = (pts i).prog J id (T i))
    (hwf : DbWF c.st.db) (hI : ClaimInv T (c.st.view id) pts) {h : Handle} {g : Bytes}
    (hi : pts i = .setGuid h g) : Tracked J id T (c.step peerMachine i e) := by
  have hhold := hI.holds i
  rw [hi] at hhold
  have hm : c.st.map.lookup id = some h := view_handle.symm.trans hhold.1
  have hg : g ≠ [] := by
    obtain ⟨r, hr, rfl, -⟩ := hhold.2.2.2
    exact hwf.guid_ne r (mem_of_findRow (view_row.symm.trans hr)).1
  have hinv := hI.setGuid hi hg
  rw [view_of_some hm] at hinv
  refine tracked_update htask i e ?_ ?_
  · rw [hi]
    exact hwf
  · rw [hi]
    simp only [Point.store, Point.section?, PeerOp.exec, Point.next]
    rw [view_modify hm (Peer.setGuid g)]
    exact hinv

theorem tracked_updateRow (htask : ∀ i, c.task i = (pts i).prog J id (T i))
    (hwf : DbWF c.st.db) (hI : ClaimInv T (c.st.view id) pts) (hdbok : DbOk e c.st) {h : Handle}
    {g : Bytes} (hi : pts i = .updateRow h g) : Tracked J id T (c.step peerMachine i e) := by
  have hhold := hI.holds i
  rw [hi] at hhold
  obtain ⟨hm, huuid, hpk, r, hr, rfl⟩ := hhold
  have hr' : findRow c.st.db id = some r := view_row.symm.trans hr
  have hne : (T i).uuid ≠ [] := hI.uuid_ne hi (by simp)
  obtain ⟨db, hst, hwf', hself⟩ := store_updateRow (J := J) (T := T i) hwf hdbok hr' h
  refine tracked_update htask i e ?_ ?_
  · rw [hi, hst]
    exact hwf'
  · rw [hi, hst, view_db, hself]
    refine hI.rewrite (by rw [hi]; rfl) huuid hpk hne ?_ rfl ?_ ?_ ?_ rfl ?_
    · exact (hI.rowUuid r hr).trans huuid
    · intro r₀ hr₀
      rw [hr, Option.some.injEq] at hr₀
      rw [← hr₀]
    · intro hnone
      rw [hr] at hnone
      cases hnone
    · intro h' g' hg
      rw [hi] at hg
      cases hg
    · exact fun _ => ⟨by rw [hm]; simp, huuid⟩

/-- **A step that meets the condition keeps the invariant.** -/
theorem tracked_step (h : Tracked J id T c) (hok : ClaimsApart J id T c i e) :
    Tracked J id T (c.step peerMachine i e) := by
  obtain ⟨pts, htask, hwf, hI⟩ := h
  obtain ⟨hcalls, hover, hcheck⟩ := hok
  have hti := htask i
  have hhold := hI.holds i
  rcases Point.prog_cases J id (T i) (pts i) with ⟨res, hdone⟩ | ⟨o, k, -, hp, -⟩
  · rw [hdone] at hti
    rw [Config.step_ret _ hti]
    exact ⟨pts, htask, hwf, hI⟩
  have hdbok : DbOk e c.st := hcalls o (by rw [hti, hp]; rfl)
  -- by the point the task is at; most sections change nothing that the tasks see
  cases hi : pts i with
  | done res =>
    rw [hi] at hp
    cases hp
  | ipCheck =>
    have hsame := sameRecords_checkIpBlocker c.st e.now (T i).ip id
    refine tracked_move htask hwf hI hi hsame.db (view_of_same hsame) rfl (by simp) ?_ ?_
    · simp only [Point.next]
      split
      · trivial
      · exact fun h => by cases h
    · simp only [Point.next]
      split <;> exact fun h => by cases h
  | mapGet =>
    refine tracked_move htask hwf hI hi rfl rfl rfl (by simp) ?_ ?_
    · simp only [Point.next]
      split
      · next h hm => exact view_handle.trans hm
      · trivial
    · simp only [Point.next]
      split <;> exact fun h => by cases h
  | dbGet =>
    refine tracked_move htask hwf hI hi rfl rfl rfl (by simp) ?_ ?_
    · simp only [Point.next, hdbok.get, Bool.false_eq_true, if_false]
      split
      · next v hr =>
        -- the row has an owner, so the record is in the map
        intro hm
        have hrow : (c.st.view id).row = some v := view_row.trans hr
        rw [(hI.unowned (hI.mapped hm)).1] at hrow
        cases hrow
      · trivial
    · simp only [Point.next, hdbok.get, Bool.false_eq_true, if_false]
      split <;> exact fun h => by cases h
  | loadClock v =>
    rw [hi] at hhold
    exact tracked_move htask hwf hI hi rfl rfl rfl (by simp) hhold fun h => by cases h
  | load p =>
    -- the record is in the map, so this insert would overwrite it
    rw [hi] at hhold hti
    have hnone := hover (.mapInsert id p) (by rw [hti]; rfl) id rfl
    exact absurd (view_handle.trans hnone) hhold
  | getOrInsert => exact tracked_getOrInsert htask hwf hI hi
  | check h =>
    refine tracked_check htask hwf hI hi ?_
    intro hpass j hj hjc
    rw [hi] at hti
    exact hcheck h hti hpass j hj ⟨pts j, hjc, htask j⟩
  | count h changed ipChanged =>
    rw [hi] at hhold
    exact tracked_move htask hwf hI hi rfl rfl rfl (by simp) hhold fun _ => Or.inl rfl
  | countClock h changed ipChanged p =>
    rw [hi] at hhold
    refine tracked_move htask hwf hI hi rfl rfl rfl (by simp) ?_ fun _ => Or.inl rfl
    simp only [Point.next]
    split
    · exact fun h => by cases h
    · exact hhold
  | stamp h changed ipChanged n =>
    rw [hi] at hhold
    exact tracked_move htask hwf hI hi rfl rfl rfl (by simp) hhold fun _ => Or.inl rfl
  | bump h changed ipChanged x =>
    rw [hi] at hhold
    refine tracked_move htask hwf hI hi rfl (view_modify_of_ident h (Peer.ident_setRegPk x)) rfl
      (by simp) ?_ fun _ => Or.inl rfl
    simp only [Point.next]
    split
    · exact hhold
    · exact holds_afterNote hhold
  | note h changed =>
    rw [hi] at hhold
    refine tracked_move htask hwf hI hi rfl (view_of_same ⟨rfl, rfl, rfl, rfl⟩) rfl (by simp) ?_
      fun _ => Or.inl rfl
    exact holds_afterNote hhold
  | write h => exact tracked_write htask hwf hI hi
  | insertRow h => exact tracked_insertRow htask hwf hI hdbok hi
  | setGuid h g => exact tracked_setGuid htask hwf hI hi
  | updateRow h g => exact tracked_updateRow htask hwf hI hdbok hi

end Step

end Tasks

section Ends

variable {ι : Type} {J : Serde} {id : String} {T : ι → Claimant}

theorem first_cases (id : String) (T : Claimant) :
    (T.uuid = [] ∧ Point.first id T = .done none) ∨
      (Point.first id T = .done none ∨ Point.first id T = .done (some .uuidMismatch) ∨
        Point.first id T = .ipCheck) ∧ T.uuid ≠ [] := by
  unfold Point.first
  by_cases hu : T.uuid = []
  · exact Or.inl ⟨hu, by simp [hu]⟩
  · refine Or.inr ⟨?_, hu⟩
    split
    · exact Or.inl rfl
    · split
      · exact Or.inr (Or.inl rfl)
      · exact Or.inr (Or.inr rfl)

theorem tracked_init {s₀ : PeerStore} (hwf : DbWF s₀.db) (hm : s₀.map.lookup id = none)
    (hr : findRow s₀.db id = none) : Tracked J id T ⟨s₀, fun i => (T i).task J id⟩ := by
  refine ⟨fun i => Point.first id (T i), fun i => Point.task_eq_prog_first J id (T i), hwf, ?_⟩
  have hnot : ∀ i, (Point.first id (T i)).Committed = false := by
    intro i
    rcases first_cases id (T i) with ⟨-, h⟩ | ⟨h | h | h, -⟩ <;> rw [h] <;> rfl
  rw [view_of_none hm, hr]
  refine ⟨fun _ => ⟨rfl, rfl⟩, fun _ => rfl, ?_, ?_, ?_, ?_, ?_, ?_, ?_, ?_⟩
  · exact fun r h => by cases h
  · exact fun h => absurd rfl h
  · exact fun r h => by cases h
  · exact fun h => absurd rfl h
  · exact fun h => absurd rfl h
  · intro i j h
    rw [hnot i] at h
    cases h
  · intro i
    rcases first_cases id (T i) with ⟨-, h⟩ | ⟨-, h⟩
    · exact Or.inr h
    · exact Or.inl h
  · intro i
    rcases first_cases id (T i) with ⟨-, h⟩ | ⟨h | h | h, -⟩ <;> rw [h]
    · exact fun h => by cases h
    · exact fun h => by cases h
    · exact fun h => by cases h
    · trivial

/-- A task that has returned is at its end. -/
theorem eq_done_of_result? {T : Claimant} {pt : Point} {res : Option RegisterPkResult}
    (h : (pt.prog J id T).result? = some res) : pt = .done res := by
  rcases Point.prog_cases J id T pt with ⟨res', rfl⟩ | ⟨o, k, -, hp, -⟩
  · simpa [Point.prog] using h
  · rw [hp] at h
    cases h

end Ends

/-- **One owner is told `ok`, and memory and row agree.**  Any number of tasks claim an id
that is neither in memory nor in the database; along every run whose steps meet the
condition at most one machine is told `ok`, and once all tasks have returned the record
and the row name that machine and one key, which a task that was told `ok` brought. -/
theorem one_owner_per_claim {ι : Type} [DecidableEq ι] (J : Serde) (id : String)
    (T : ι → Claimant) {s₀ : PeerStore} (hwf : DbWF s₀.db) (hm : s₀.map.lookup id = none)
    (hr : findRow s₀.db id = none)
    {c : Config PeerSig PeerStore ι (Option RegisterPkResult)}
    (h : Reach peerMachine (ClaimsApart J id T) ⟨s₀, fun i => (T i).task J id⟩ c) :
    (∀ i j, (c.task i).result? = some (some .ok) → (c.task j).result? = some (some .ok) →
      (T i).uuid = (T j).uuid) ∧
    ((∀ i, (c.task i).result? ≠ none) → ∀ i, (c.task i).result? = some (some .ok) →
      ∃ p r, c.st.peer? id = some p ∧ findRow c.st.db id = some r ∧ p.uuid = (T i).uuid ∧
        r.uuid = (T i).uuid ∧ p.pk = r.pk ∧
        ∃ j, (c.task j).result? = some (some .ok) ∧ (T j).uuid = p.uuid ∧ (T j).pk = p.pk) := by
  obtain ⟨pts, htask, -, hI⟩ := Reach.inv (P := Tracked J id T) (tracked_init hwf hm hr)
    (fun c i e hc hok => tracked_step hc hok) h
  have hpt : ∀ {i res}, (c.task i).result? = some res → pts i = .done res := by
    intro i res hres
    rw [htask i] at hres
    exact eq_done_of_result? hres
  -- a task that was told `ok` sees its machine in the record
  have hok : ∀ {i}, (c.task i).result? = some (some .ok) →
      (c.st.view id).handle ≠ none ∧ (c.st.view id).uuid = (T i).uuid := by
    intro i hres
    have hhold := hI.holds i
    rw [hpt hres] at hhold
    exact hhold rfl
  refine ⟨fun i j hi hj => (hok hi).2.symm.trans (hok hj).2, ?_⟩
  intro hall i hi
  obtain ⟨hh, huuid⟩ := hok hi
  have hne : (c.st.view id).uuid ≠ [] := by
    rw [huuid]
    exact hI.uuid_ne (hpt hi) (by simp)
  have hdone : ∀ j, ∃ res, pts j = .done res := by
    intro j
    cases hres : (c.task j).result? with
    | none => exact absurd hres (hall j)
    | some res => exact ⟨res, hpt hres⟩
  obtain ⟨h, hlook⟩ := Option.ne_none_iff_exists'.mp hh
  rw [view_handle] at hlook
  rw [view_of_some hlook] at hI huuid hne
  -- nobody is about to write the row, so it has the key of the record
  obtain ⟨r, hrow, hpk⟩ : ∃ r, findRow c.st.db id = some r ∧ r.pk = (c.st.recs h).pk := by
    rcases hI.rowPk hne with hrow | ⟨j, hj⟩
    · exact hrow
    · obtain ⟨res, hres⟩ := hdone j
      rw [hres] at hj
      cases hj
  obtain ⟨j, hwrote, hju, hjk⟩ := hI.wrote hne
  have hjok : (c.task j).result? = some (some .ok) := by
    obtain ⟨res, hres⟩ := hdone j
    rw [htask j, hres]
    rw [hres] at hwrote
    match res, hwrote with
    | some .ok, _ => rfl
  refine ⟨c.st.recs h, r, by simp [PeerStore.peer?, hlook], hrow, huuid, ?_, hpk.symm, j, hjok,
    hju, hjk⟩
  exact (hI.rowUuid r hrow).trans huuid

/-! ### Two tasks -/

/-- Two tasks of one machine claim an id. -/
def sameMachine (_ : Bool) : Claimant := ⟨[1], [2], ⟨.ofOctets 192 0 2 7, 21116⟩, false⟩

/-- Two machines claim an id. -/
def twoMachines (i : Bool) : Claimant :=
  if i then ⟨[1], [2], ⟨.ofOctets 192 0 2 7, 21116⟩, false⟩
  else ⟨[9], [9], ⟨.ofOctets 192 0 2 8, 21116⟩, false⟩

/-- Both tasks pass the check before either writes. -/
def claimSchedule : List (Bool × Env) :=
  [true, true, true, true, true, false, false, false, true, true, true, true, true, true].map
      (fun i => (i, .ok 0 1)) ++
    [true, false, false, false, false, false, false].map fun i => (i, .ok 0 2)

theorem one_owner_per_claim_same :
    ∃ p r, ((⟨.start [], fun i => (sameMachine i).task .plain "alpha1"⟩ :
          Config PeerSig PeerStore Bool _).sched peerMachine claimSchedule).st.peer? "alpha1" = some p ∧
      findRow ((⟨.start [], fun i => (sameMachine i).task .plain "alpha1"⟩ :
          Config PeerSig PeerStore Bool _).sched peerMachine claimSchedule).st.db "alpha1" = some r ∧
      p.uuid = [1] ∧ r.uuid = [1] ∧ p.pk = r.pk := by
  have hreach : Reach peerMachine (ClaimsApart .plain "alpha1" sameMachine)
      ⟨.start [], fun i => (sameMachine i).task .plain "alpha1"⟩
      ((⟨.start [], fun i => (sameMachine i).task .plain "alpha1"⟩ :
        Config PeerSig PeerStore Bool _).sched peerMachine claimSchedule) := by
    have hsched : Reach peerMachine (OpOk fun e o s => CallsSucceed e o s ∧ NoOverwrite e o s)
        ⟨.start [], fun i => (sameMachine i).task .plain "alpha1"⟩ _ :=
      reach_sched (l := claimSchedule) (by decide)
    exact hsched.mono fun c i e h => ⟨fun o ho => (h o ho).1, fun o ho => (h o ho).2,
      fun _ _ _ _ _ _ => ⟨rfl, rfl⟩⟩
  obtain ⟨p, r, hp, hr, hpu, hru, hpk, -⟩ := (one_owner_per_claim .plain "alpha1" sameMachine
    dbWF_nil rfl rfl hreach).2 (by decide) true (by decide)
  exact ⟨p, r, hp, hr, hpu, hru, hpk⟩

/-- Both machines are told `ok`. -/
theorem two_owners_told_ok :
    ¬∀ c, Reach peerMachine (OpOk CallsSucceed)
        ⟨.start [], fun i => (twoMachines i).task .plain "alpha1"⟩ c →
      ∀ i j, (c.task i).result? = some (some .ok) → (c.task j).result? = some (some .ok) →
        (twoMachines i).uuid = (twoMachines j).uuid := by
  intro hall
  have h := hall _ (reach_sched (l := claimSchedule) (by decide)) true false (by decide) (by decide)
  exact absurd h (by decide)

end RustdeskServer
