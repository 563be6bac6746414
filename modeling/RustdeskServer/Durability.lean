import RustdeskServer.Store

/-!
# Registrations when the database fails

Two things are wanted of a registration when database calls may fail.  A row binds
its id, so a registration for another machine is refused whatever goes wrong; and an
answer `ok` means that the row is there.

Neither holds of every run.  `PeerMap::get` treats a failed read as a missing row, so
an id whose row cannot be read right after a restart is up for grabs; and
`handle_register_pk` drops what `update_pk` returns, so the answer is `ok` whether or
not the row was written.  Exactly these two things go wrong: the runs in which they do
not happen are the runs in which the registrations behave.

## Main definitions

* `KeepsRowOwner`, `NoBlindClaim` — the first property, and when it holds.
* `DurableOk`, `RowWritten` — the second, and when it holds.

## Main results

* `keepsRowOwner_iff` — **rows bind their ids exactly along the runs without a blind
  claim.**
* `durableOk_iff` — **answers are durable exactly along the runs whose writes reach
  the row.**
-/

namespace RustdeskServer

open Atomic

section Read

/-! ### A row binds its id -/

/-- From `s` to `t` the record of `id` keeps its owner and its key; one that was not in
memory has those of the row `r`. -/
def OwnerStays (s t : PeerStore) (id : String) (r : Row) : Prop :=
  (∀ p p', s.peer? id = some p → t.peer? id = some p' → p'.uuid = p.uuid ∧ p'.pk = p.pk) ∧
    ∀ p', s.peer? id = none → t.peer? id = some p' → p'.uuid = r.uuid ∧ p'.pk = r.pk

/-- If a row binds the id to another machine, the registration is not answered `ok`,
and the record in memory gets no other owner and no other key. -/
def KeepsRowOwner (E : Ext) (cfg : Settings) (s : Server) (x : SrvEnv × Input) : Prop :=
  ∀ rk addr ws r, x.2.registerPk? = some (rk, addr, ws) → findRow s.pm.db rk.id = some r →
    r.uuid ≠ rk.uuid →
      answer E.serde x.1.toEnv s.pm rk addr ws ≠ some .ok ∧
        OwnerStays s.pm (s.step E cfg x).pm rk.id r

/-- No registration that gets past the first checks is for an id that is not in
memory, whose row cannot be read just then, and whose row names another machine. -/
def NoBlindClaim (s : Server) (x : SrvEnv × Input) : Prop :=
  ∀ rk addr ws r, x.2.registerPk? = some (rk, addr, ws) → Admitted x.1.toEnv rk addr s.pm →
    s.pm.map.lookup rk.id = none → x.1.getFails = true → findRow s.pm.db rk.id = some r →
      r.uuid = rk.uuid

variable {E : Ext} {cfg : Settings}

/-- A registration for an id that is not in memory and whose row cannot be read is
accepted. -/
theorem written_of_blind {J : Serde} {e : Env} {s : PeerStore} {rk : RegisterPk}
    {addr : SocketAddr} (ws : Bool) (hadm : Admitted e rk addr s)
    (hm : s.map.lookup rk.id = none) (hget : e.getFails = true) : Written J e rk addr ws s := by
  have hfound : s.found J e rk.id = Peer.default e.now := by
    simp [PeerStore.found, hm, loaded, hget]
  obtain ⟨n, hn⟩ := bumpRegPk_default e.now
  refine ⟨hadm, (true, false), n, ?_, ?_, rfl⟩
  · rw [hfound]
    rfl
  · rw [hfound]
    exact hn

theorem NoBlindClaim.found_owned {s : Server} {x : SrvEnv × Input} (hC : NoBlindClaim s x)
    (hwf : StoreWF s.pm) {rk : RegisterPk} {addr : SocketAddr} {ws : Bool} {r : Row}
    (hi : x.2.registerPk? = some (rk, addr, ws)) (hadm : Admitted x.1.toEnv rk addr s.pm)
    (hr : findRow s.pm.db rk.id = some r) (hne : r.uuid ≠ rk.uuid) :
    (s.pm.found E.serde x.1.toEnv rk.id).uuid ≠ [] := by
  have hf := found_spec E.serde x.1.toEnv s.pm rk.id
  generalize s.pm.found E.serde x.1.toEnv rk.id = p at hf
  cases hf with
  | cached hm => exact (hwf.owned _ _ hm).1
  | row hm hget hr => exact hwf.db.uuid_ne _ (mem_of_findRow hr).1
  | fresh hm hget =>
    rcases hget with hget | hnone
    · exact absurd (hC rk addr ws r hi hadm hm hget hr) hne
    · rw [hr] at hnone
      cases hnone

/-- Without a blind claim, a registration that is written has the owner of the row. -/
theorem NoBlindClaim.uuid_eq {s : Server} {x : SrvEnv × Input} (hC : NoBlindClaim s x)
    (hwf : StoreWF s.pm) (hs : OwnersAgree s.pm) {rk : RegisterPk} {addr : SocketAddr}
    {ws : Bool} {r : Row} (hi : x.2.registerPk? = some (rk, addr, ws))
    (hw : Written E.serde x.1.toEnv rk addr ws s.pm) (hr : findRow s.pm.db rk.id = some r) :
    rk.uuid = r.uuid := by
  by_contra hne
  have howned := hC.found_owned (E := E) hwf hi hw.1 hr (Ne.symm hne)
  exact hne ((hw.same_owner howned).1.symm.trans (hs.found howned hr))

theorem ownersAgree_step {s : Server} {x : SrvEnv × Input} (hwf : StoreWF s.pm)
    (hs : OwnersAgree s.pm) (hC : NoBlindClaim s x) : OwnersAgree (s.step E cfg x).pm := by
  refine PeerStore.Each.change hwf hs (change_step E cfg s x hwf) ?_ ?_ ?_
  · intro id r hr r' hr'
    rw [Option.some.injEq] at hr'
    rw [← hr']
    rfl
  · intro rk addr ws hi hw hc r hr
    exact hC.uuid_eq hwf hs hi hw hr
  · intro rk addr ws r hi hw hrow r' hr'
    rw [Option.some.injEq] at hr'
    rw [← hr']
    exact (hs.rewritten_uuid hwf hw hrow).symm

theorem ownerStays_of_eq {s t : PeerStore} {id : String} (h : t.peer? id = s.peer? id) (r : Row) :
    OwnerStays s t id r := by
  unfold OwnerStays
  rw [h]
  refine ⟨fun p p' hp hp' => ?_, fun p' hp hp' => ?_⟩
  · rw [hp, Option.some.injEq] at hp'
    subst hp'
    exact ⟨rfl, rfl⟩
  · rw [hp] at hp'
    cases hp'

/-- A lookup that leaves the record's identity leaves its owner and key. -/
theorem ownerStays_of_looked {J : Serde} {e : Env} {s t : PeerStore} {id id' : String}
    {p q : Peer} {r : Row} (hwf : StoreWF s) (hf : Found J e s id' p) (hp : p.uuid ≠ [])
    (ht : Touched s t id' q) (hq : q.ident = p.ident) (hr : findRow s.db id = some r) :
    OwnerStays s t id r := by
  by_cases hid : id = id'
  · subst hid
    unfold OwnerStays
    rw [ht.peer?_self]
    have huuid : q.uuid = p.uuid := congrArg Ident.uuid hq
    have hpk : q.pk = p.pk := congrArg Ident.pk hq
    rcases hf.of_owned hp with ⟨h, hm, rfl⟩ | ⟨hm, -, r', hr', rfl⟩
    · simp only [PeerStore.peer?, hm, Option.map_some, Option.some.injEq, reduceCtorEq,
        false_imp_iff, implies_true, and_true]
      rintro _ _ rfl rfl
      exact ⟨huuid, hpk⟩
    · rw [hr, Option.some.injEq] at hr'
      subst hr'
      simp only [PeerStore.peer?, hm, Option.map_none, Option.some.injEq, reduceCtorEq,
        false_imp_iff, implies_true, true_and, forall_const]
      rintro _ rfl
      exact ⟨huuid, hpk⟩
  · exact ownerStays_of_eq (ht.peer?_other hwf.handles hid) r

theorem keepsRowOwner_of_noBlindClaim {s : Server} {x : SrvEnv × Input} (hwf : StoreWF s.pm)
    (hs : OwnersAgree s.pm) (hC : NoBlindClaim s x) : KeepsRowOwner E cfg s x := by
  intro rk addr ws r hi hr hne
  -- whatever is written has the owner of the row, so nothing is
  have hno : ∀ {rk' addr' ws'}, x.2.registerPk? = some (rk', addr', ws') →
      ¬Written E.serde x.1.toEnv rk' addr' ws' s.pm := by
    intro rk' addr' ws' hi' hw
    rw [hi, Option.some.injEq, Prod.mk.injEq, Prod.mk.injEq] at hi'
    obtain ⟨rfl, rfl, rfl⟩ := hi'
    exact hne (hC.uuid_eq hwf hs hi hw hr).symm
  cases change_step E cfg s x hwf with
  | same hnok hm hrec hdb =>
    exact ⟨fun h => hnok rk addr ⟨ws, hi, h⟩,
      ownerStays_of_eq (by simp [PeerStore.peer?, hm, hrec]) r⟩
  | looked hnok hreg hf hp ht hq hdb =>
    exact ⟨fun h => hnok rk addr ⟨ws, hi, h⟩, ownerStays_of_looked hwf hf hp ht hq hr⟩
  | confirmed hok hp huuid hpk hip ht hq hdb =>
    obtain ⟨ws', hi', -⟩ := hok
    rw [hi, Option.some.injEq, Prod.mk.injEq, Prod.mk.injEq] at hi'
    obtain ⟨rfl, rfl, rfl⟩ := hi'
    exact absurd ((hs.found hp hr).symm.trans huuid) hne
  | failed hi' hok hw hc ht hq hdb => exact absurd hw (hno hi')
  | stored hi' hok hw hc ht hq hrow hself hdb hwf' => exact absurd hw (hno hi')
  | restart hi' ht =>
    rw [hi] at hi'
    cases hi'

theorem noBlindClaim_of_keepsRowOwner {s : Server} {x : SrvEnv × Input}
    (hP : KeepsRowOwner E cfg s x) : NoBlindClaim s x := by
  intro rk addr ws r hi hadm hm hget hr
  by_contra hne
  exact (hP rk addr ws r hi hr hne).1 (written_of_blind ws hadm hm hget).answer

/-- **Rows bind their ids exactly along the runs without a blind claim**: in every run
from an empty database, under any pattern of database failures and with any number of
restarts. -/
theorem keepsRowOwner_iff (E : Ext) (cfg : Settings) (mustLogin alwaysUseRelay : Bool)
    (conf : Snapshot) (l : List (SrvEnv × Input)) :
    Always (Server.step E cfg) (KeepsRowOwner E cfg)
        (.start [] mustLogin alwaysUseRelay conf) l ↔
      Always (Server.step E cfg) NoBlindClaim (.start [] mustLogin alwaysUseRelay conf) l := by
  refine always_congr (I := fun s => StoreWF s.pm ∧ OwnersAgree s.pm) ?_ ?_ ?_
  · intro s x hI hC
    exact ⟨hI.1.change (change_step E cfg s x hI.1), ownersAgree_step hI.1 hI.2 hC⟩
  · intro s x hI
    exact ⟨noBlindClaim_of_keepsRowOwner, keepsRowOwner_of_noBlindClaim hI.1 hI.2⟩
  · exact ⟨storeWF_start dbWF_nil, fun id h hm => by simp [Server.start, PeerStore.start] at hm⟩

/-- One machine registers an id, the process restarts, and another machine tries while
the database cannot be read. -/
def blindRun : List (SrvEnv × Input) :=
  [(.ok 0 1, .datagram ⟨.ofOctets 192 0 2 7, 21116⟩ (some (.registerPk ⟨"alpha1", [1], [2]⟩))),
    (.ok 1000 2, .restart false false .blank),
    ({ SrvEnv.ok 2000 3 with getFails := true },
      .datagram ⟨.ofOctets 192 0 2 8, 21116⟩ (some (.registerPk ⟨"alpha1", [9], [9]⟩)))]

/-- The other machine gets the id. -/
theorem blind_claim_accepted :
    ¬Always (Server.step .sample ⟨"", "", 0⟩) (KeepsRowOwner .sample ⟨"", "", 0⟩)
      (.start [] false false .blank) blindRun := by
  rintro ⟨-, -, h, -⟩
  refine (h ⟨"alpha1", [9], [9]⟩ ⟨.ofOctets 192 0 2 8, 21116⟩ false
    ⟨(Guid.of 1).bytes, "alpha1", [1], [2], Serde.plain.toString ⟨"192.0.2.7"⟩⟩ rfl
    (by decide) (by decide)).1 (by decide)

end Read

section Write

/-! ### An answer `ok` means that the row is there -/

/-- After an answer `ok` the row has the owner and the key that were registered, and a
process that starts on these rows finds them. -/
def DurableOk (E : Ext) (cfg : Settings) (s : Server) (x : SrvEnv × Input) : Prop :=
  ∀ rk addr, AnsweredOk E.serde x.1.toEnv s.pm x.2 rk addr →
    (∃ r, findRow (s.step E cfg x).pm.db rk.id = some r ∧ r.uuid = rk.uuid ∧ r.pk = rk.pk) ∧
    ∀ e : Env, e.getFails = false →
      ∃ u h, peerMachine.run e (PeerMap.get E.serde rk.id) (s.step E cfg x).pm.restart =
          (u, some h) ∧ (u.recs h).uuid = rk.uuid ∧ (u.recs h).pk = rk.pk

/-- A registration that is accepted and has something to write either finds its row as
it should be, or its database call succeeds. -/
def RowWritten (E : Ext) (s : Server) (x : SrvEnv × Input) : Prop :=
  ∀ rk addr ws, x.2.registerPk? = some (rk, addr, ws) →
    Written E.serde x.1.toEnv rk addr ws s.pm →
      CallSucceeds x.1.toEnv s.pm.db (s.pm.found E.serde x.1.toEnv rk.id).guid rk.id ∨
        ∃ r, findRow s.pm.db rk.id = some r ∧ r.uuid = rk.uuid ∧ r.pk = rk.pk

/-- Every record in memory has the owner and the key of its row. -/
def Durable (s : PeerStore) : Prop :=
  s.Each fun row p => ∃ r, row = some r ∧ r.uuid = p.uuid ∧ r.pk = p.pk

variable {E : Ext} {cfg : Settings}

theorem Durable.ownersAgree {s : PeerStore} (hs : Durable s) : OwnersAgree s := by
  intro id h hm r hr
  obtain ⟨r', hr', huuid, -⟩ := hs id h hm
  rw [hr, Option.some.injEq] at hr'
  rw [hr', huuid]

theorem durable_step {s : Server} {x : SrvEnv × Input} (hwf : StoreWF s.pm)
    (hs : Durable s.pm) (hC : RowWritten E s x) : Durable (s.step E cfg x).pm := by
  refine PeerStore.Each.change hwf hs (change_step E cfg s x hwf) ?_ ?_ ?_
  · exact fun id r hr => ⟨r, rfl, rfl, rfl⟩
  · intro rk addr ws hi hw hc
    rcases hC rk addr ws hi hw with h | h
    · exact absurd h hc
    · exact h
  · intro rk addr ws r hi hw hrow
    exact ⟨r, rfl, hs.ownersAgree.rewritten_uuid hwf hw hrow, hrow.pk⟩

/-- A process that starts on rows with an id finds what the row says. -/
theorem get_after_restart (J : Serde) {e : Env} (hget : e.getFails = false) {s : PeerStore}
    {id : String} {r : Row} (hr : findRow s.db id = some r) :
    ∃ u h, peerMachine.run e (PeerMap.get J id) s.restart = (u, some h) ∧
      (u.recs h).uuid = r.uuid ∧ (u.recs h).pk = r.pk := by
  have hm : s.restart.map.lookup id = none := by simp [PeerStore.restart, PeerStore.start]
  have hr' : findRow s.restart.db id = some r := hr
  refine ⟨s.restart.alloc id (r.load J e.now), ⟨id, s.restart.next⟩, ?_, ?_⟩
  · rw [run_get, hm, hget, hr']
    rfl
  · simp [PeerStore.alloc, Row.load]

theorem durableOk_of_row {s : Server} {x : SrvEnv × Input}
    (h : ∀ rk addr, AnsweredOk E.serde x.1.toEnv s.pm x.2 rk addr →
      ∃ r, findRow (s.step E cfg x).pm.db rk.id = some r ∧ r.uuid = rk.uuid ∧ r.pk = rk.pk) :
    DurableOk E cfg s x := by
  intro rk addr hok
  obtain ⟨r, hr, huuid, hpk⟩ := h rk addr hok
  refine ⟨⟨r, hr, huuid, hpk⟩, ?_⟩
  intro e hget
  obtain ⟨u, h', hrun, hu, hp⟩ := get_after_restart E.serde hget hr
  exact ⟨u, h', hrun, hu.trans huuid, hp.trans hpk⟩

theorem AnsweredOk.unique {J : Serde} {e : Env} {s : PeerStore} {i : Input}
    {rk rk' : RegisterPk} {addr addr' : SocketAddr} (h : AnsweredOk J e s i rk addr)
    (h' : AnsweredOk J e s i rk' addr') : rk' = rk := by
  obtain ⟨ws, hi, -⟩ := h
  obtain ⟨ws', hi', -⟩ := h'
  rw [hi, Option.some.injEq, Prod.mk.injEq] at hi'
  exact hi'.1.symm

theorem durableOk_of_rowWritten {s : Server} {x : SrvEnv × Input} (hwf : StoreWF s.pm)
    (hs : Durable s.pm) (hC : RowWritten E s x) : DurableOk E cfg s x := by
  refine durableOk_of_row ?_
  intro rk addr hans
  cases change_step E cfg s x hwf with
  | same hno hm hr hdb => exact absurd hans (hno rk addr)
  | looked hno hreg hf hp ht hq hdb => exact absurd hans (hno rk addr)
  | confirmed hok hp huuid hpk hip ht hq hdb =>
    obtain rfl := hok.unique hans
    obtain ⟨r, hr, hu, hk⟩ := PeerStore.Each.found hs (J := E.serde)
      (fun id r hr => ⟨r, rfl, rfl, rfl⟩) hp
    rw [hdb]
    exact ⟨r, hr, hu.trans huuid, hk.trans hpk⟩
  | failed hi hok hw hc ht hq hdb =>
    obtain rfl := hok.unique hans
    rw [hdb]
    rcases hC _ _ _ hi hw with h | h
    · exact absurd h hc
    · exact h
  | stored hi hok hw hc ht hq hrow hself hdb hwf' =>
    obtain rfl := hok.unique hans
    exact ⟨_, hself, hs.ownersAgree.rewritten_uuid hwf hw hrow, hrow.pk⟩
  | restart hi ht => exact absurd hans (not_answeredOk_of_none hi rk addr)

theorem rowWritten_of_durableOk {s : Server} {x : SrvEnv × Input} (hwf : StoreWF s.pm)
    (hP : DurableOk E cfg s x) : RowWritten E s x := by
  intro rk addr ws hi hw
  have hans : AnsweredOk E.serde x.1.toEnv s.pm x.2 rk addr := ⟨ws, hi, hw.answer⟩
  have hrow := (hP rk addr hans).1
  cases change_step E cfg s x hwf with
  | same hno hm hr hdb => exact absurd hans (hno rk addr)
  | looked hno hreg hf hp ht hq hdb => exact absurd hans (hno rk addr)
  | confirmed hok hp huuid hpk hip ht hq hdb =>
    rw [hdb] at hrow
    exact Or.inr hrow
  | failed hi' hok hw' hc ht hq hdb =>
    rw [hdb] at hrow
    exact Or.inr hrow
  | stored hi' hok hw' hc ht hq hrow hself hdb hwf' =>
    obtain rfl := hok.unique hans
    exact Or.inl hc
  | restart hi' ht => exact absurd hans (not_answeredOk_of_none hi' rk addr)

/-- **Answers are durable exactly along the runs whose writes reach the row**: in every
run from an empty database, under any pattern of database failures and with any number
of restarts. -/
theorem durableOk_iff (E : Ext) (cfg : Settings) (mustLogin alwaysUseRelay : Bool)
    (conf : Snapshot) (l : List (SrvEnv × Input)) :
    Always (Server.step E cfg) (DurableOk E cfg)
        (.start [] mustLogin alwaysUseRelay conf) l ↔
      Always (Server.step E cfg) (RowWritten E) (.start [] mustLogin alwaysUseRelay conf) l := by
  refine always_congr (I := fun s => StoreWF s.pm ∧ Durable s.pm) ?_ ?_ ?_
  · intro s x hI hC
    exact ⟨hI.1.change (change_step E cfg s x hI.1), durable_step hI.1 hI.2 hC⟩
  · intro s x hI
    exact ⟨rowWritten_of_durableOk hI.1, durableOk_of_rowWritten hI.1 hI.2⟩
  · exact ⟨storeWF_start dbWF_nil, fun id h hm => by simp [Server.start, PeerStore.start] at hm⟩

/-- A machine registers an id while the database takes no row. -/
def unwrittenRun : List (SrvEnv × Input) :=
  [({ SrvEnv.ok 0 1 with insertFails := true },
    .datagram ⟨.ofOctets 192 0 2 7, 21116⟩ (some (.registerPk ⟨"alpha1", [1], [2]⟩)))]

/-- It is told `ok`, and there is no row. -/
theorem unwritten_registration_ok :
    ¬Always (Server.step .sample ⟨"", "", 0⟩) (DurableOk .sample ⟨"", "", 0⟩)
      (.start [] false false .blank) unwrittenRun := by
  rintro ⟨h, -⟩
  obtain ⟨⟨r, hr, -⟩, -⟩ := h ⟨"alpha1", [1], [2]⟩ ⟨.ofOctets 192 0 2 7, 21116⟩
    ⟨false, rfl, by decide⟩
  have hnone : findRow ((Server.start [] false false .blank).step .sample ⟨"", "", 0⟩
      ({ SrvEnv.ok 0 1 with insertFails := true },
        .datagram ⟨.ofOctets 192 0 2 7, 21116⟩ (some (.registerPk ⟨"alpha1", [1], [2]⟩)))).pm.db
      "alpha1" = none := by decide
  exact absurd (hr.symm.trans hnone) (by simp)

end Write

end RustdeskServer
