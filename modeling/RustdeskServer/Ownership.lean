import RustdeskServer.Registry
import RustdeskServer.Store

/-!
# Who owns an id

As long as the database calls succeed and messages are handled one at a time, the
rows of the table `peer` are a registry of owned names: an answer `ok` is a claim
that the registry grants, and nothing else changes a binding.  Memory only ever
repeats what the rows say, so a restart loses nothing.

## Main definitions

* `Synced` — every record in memory repeats its row.
* `bindings`, `granted` — the registry the rows make, and the claim an input makes.
* `PeerStore.bound` — the identity in force for an id.
* `KeepsIdentities` — what one input does to the identities.

## Main results

* `registry_step` — **the server refines the registry.**
* `identity_ownership` — an id never changes hands, its key changes only at the
  request of its owner from where it registered, and a refused registration changes
  nothing.
-/

namespace RustdeskServer

open Atomic

/-- Every record in memory repeats its row. -/
def Synced (J : Serde) (s : PeerStore) : Prop :=
  s.Each fun row p => ∃ r, row = some r ∧ p = r.ident J

/-- The bindings the rows make. -/
def bindings (J : Serde) (db : List Row) : Registry String Bytes Bytes String :=
  fun id => (findRow db id).map fun r => ⟨r.uuid, r.pk, (J.fromStr r.info).ip⟩

/-- The claim an input makes, if it is granted. -/
def granted (J : Serde) (e : Env) (s : PeerStore) (i : Input) :
    Option (String × Binding Bytes Bytes String) :=
  match i.registerPk? with
  | none => none
  | some (rk, addr, ws) =>
    if answer J e s rk addr ws = some .ok then some (rk.id, ⟨rk.uuid, rk.pk, addr.ip.toText⟩)
    else none

/-- The identity in force for an id: what memory says, or else the row. -/
def PeerStore.bound (J : Serde) (s : PeerStore) (id : String) : Option Ident :=
  match s.peer? id with
  | some p => some p.ident
  | none => (findRow s.db id).map (Row.ident J)

section Refine

variable {J : Serde} {e : Env} {s t : PeerStore} {i : Input}

/-! ### Claims -/

theorem granted_of_answeredOk {rk : RegisterPk} {addr : SocketAddr}
    (h : AnsweredOk J e s i rk addr) :
    granted J e s i = some (rk.id, ⟨rk.uuid, rk.pk, addr.ip.toText⟩) := by
  obtain ⟨ws, hi, hok⟩ := h
  simp [granted, hi, hok]

theorem granted_eq_none (h : ∀ rk addr, ¬AnsweredOk J e s i rk addr) :
    granted J e s i = none := by
  unfold granted
  split
  · rfl
  · next rk addr ws hi =>
    split
    · next hok => exact absurd ⟨ws, hi, hok⟩ (h rk addr)
    · rfl

theorem answeredOk_of_granted {id : String} {b : Binding Bytes Bytes String}
    (h : granted J e s i = some (id, b)) :
    ∃ rk addr, AnsweredOk J e s i rk addr ∧ rk.id = id ∧
      b = ⟨rk.uuid, rk.pk, addr.ip.toText⟩ := by
  unfold granted at h
  split at h
  · cases h
  · next rk addr ws hi =>
    split at h
    · next hok =>
      simp only [Option.some.injEq, Prod.mk.injEq] at h
      exact ⟨rk, addr, ⟨ws, hi, hok⟩, h.1, h.2.symm⟩
    · cases h

/-! ### Memory repeats the rows -/

theorem Synced.found (hs : Synced J s) {id : String} (hp : (s.found J e id).uuid ≠ []) :
    ∃ r, findRow s.db id = some r ∧ (s.found J e id).ident = r.ident J :=
  PeerStore.Each.found hs (fun _ r _ => ⟨r, rfl, rfl⟩) hp

/-- When memory repeats the rows, the database call that a registration needs is the
one that works. -/
theorem Synced.callSucceeds (hs : Synced J s) (hwf : StoreWF s) (hok : DbOk e s) (id : String) :
    CallSucceeds e s.db (s.found J e id).guid id := by
  unfold CallSucceeds
  split
  · next hg =>
    refine ⟨hok.insert, ?_, hok.guid⟩
    have hf := found_spec J e s id
    generalize s.found J e id = p at hf hg
    cases hf with
    | cached hm =>
      obtain ⟨r, hr, hident⟩ := hs id _ hm
      have hguid : (s.recs _).guid = r.guid := congrArg Ident.guid hident
      rw [hg] at hguid
      exact absurd hguid.symm (hwf.db.guid_ne r (mem_of_findRow hr).1)
    | row hm hget hr => exact absurd hg (hwf.db.guid_ne _ (mem_of_findRow hr).1)
    | fresh hm hget =>
      rcases hget with h | h
      · rw [hok.get] at h
        cases h
      · exact h
  · exact hok.update

theorem Synced.ownersAgree (hs : Synced J s) : OwnersAgree s := by
  intro id h hm r hr
  obtain ⟨r', hr', hident⟩ := hs id h hm
  rw [hr, Option.some.injEq] at hr'
  rw [hident, hr']
  rfl

theorem Synced.change (hserde : ∀ x, J.fromStr (J.toString x) = x) (hs : Synced J s)
    (hwf : StoreWF s) (hok : DbOk e s) (h : Change J e i s t) : Synced J t := by
  refine PeerStore.Each.change hwf hs h (fun _ r _ => ⟨r, rfl, rfl⟩) ?_ ?_
  · intro rk addr ws hi hw hc
    exact absurd (hs.callSucceeds hwf hok rk.id) hc
  · intro rk addr ws r hi hw hrow
    refine ⟨r, rfl, ?_⟩
    simp only [Row.ident, hrow.info, hserde, hs.ownersAgree.rewritten_uuid hwf hw hrow, hrow.pk]

/-! ### The refinement -/

theorem bindings_apply {id : String} {r : Row} (h : findRow s.db id = some r) :
    bindings J s.db id = some ⟨r.uuid, r.pk, (J.fromStr r.info).ip⟩ := by
  simp [bindings, h]

/-- A record that was found with an owner repeats the binding in force. -/
theorem Synced.bindings_found (hs : Synced J s) {id : String} (hp : (s.found J e id).uuid ≠ []) :
    bindings J s.db id =
      some ⟨(s.found J e id).uuid, (s.found J e id).pk, (s.found J e id).info.ip⟩ := by
  obtain ⟨r, hr, hident⟩ := hs.found hp
  have h1 : (s.found J e id).uuid = r.uuid := congrArg Ident.uuid hident
  have h2 : (s.found J e id).pk = r.pk := congrArg Ident.pk hident
  have h3 : (s.found J e id).info = J.fromStr r.info := congrArg Ident.info hident
  rw [bindings_apply hr, h1, h2, h3]

/-- The bindings after a registration whose row was written. -/
theorem Synced.bindings_stored (hserde : ∀ x, J.fromStr (J.toString x) = x) (hs : Synced J s)
    (hwf : StoreWF s) {rk : RegisterPk} {addr : SocketAddr} {ws : Bool} {r : Row}
    (hw : Written J e rk addr ws s)
    (hrow : Rewritten J s.db (s.found J e rk.id).guid rk addr.ip.toText r)
    (hself : findRow t.db rk.id = some r)
    (hdb : ∀ id, id ≠ rk.id → findRow t.db id = findRow s.db id) :
    bindings J t.db =
      Function.update (bindings J s.db) rk.id (some ⟨rk.uuid, rk.pk, addr.ip.toText⟩) := by
  funext id
  by_cases hid : id = rk.id
  · subst hid
    rw [bindings_apply hself, Function.update_self, hrow.info, hserde, hrow.pk,
      hs.ownersAgree.rewritten_uuid hwf hw hrow]
  · rw [Function.update_of_ne hid]
    simp only [bindings, hdb id hid]

/-- **The server refines the registry**: an answer `ok` is a claim that is granted,
and nothing else changes a binding. -/
theorem registry_step (hserde : ∀ x, J.fromStr (J.toString x) = x) (hs : Synced J s)
    (hwf : StoreWF s) (hok : DbOk e s) (h : Change J e i s t) :
    Registry.Step (bindings J s.db) (granted J e s i) (bindings J t.db) := by
  cases h with
  | same hno hm hr hdb =>
    rw [granted_eq_none hno, hdb]
    exact .idle
  | looked hno hreg hf hp ht hq hdb =>
    rw [granted_eq_none hno, hdb]
    exact .idle
  | restart hi ht =>
    rw [granted_eq_none (not_answeredOk_of_none hi), ht]
    exact .idle
  | failed hi hans hw hc ht hq hdb => exact absurd (hs.callSucceeds hwf hok _) hc
  | @confirmed rk addr q hans hp huuid hpk hip ht hq hdb =>
    -- the claim repeats the binding in force
    have hb : bindings J s.db rk.id = some ⟨rk.uuid, rk.pk, addr.ip.toText⟩ := by
      rw [hs.bindings_found hp, huuid, hpk, hip]
    have hself : bindings J t.db =
        Function.update (bindings J s.db) rk.id (some ⟨rk.uuid, rk.pk, addr.ip.toText⟩) := by
      rw [hdb, ← hb, Function.update_eq_self]
    rw [granted_of_answeredOk hans, hself]
    refine .claim ?_
    intro b₀ hb₀
    rw [hb, Option.some.injEq] at hb₀
    subst hb₀
    exact ⟨rfl, Or.inl rfl⟩
  | @stored rk addr ws q r hi hans hw hc ht hq hrow hself hdb hwf' =>
    rw [granted_of_answeredOk hans, hs.bindings_stored hserde hwf hw hrow hself hdb]
    refine .claim ?_
    intro b₀ hb₀
    -- an id that is bound was found with its owner, and `regCheck` compared the two
    obtain ⟨r₀, hr₀, -⟩ := Option.map_eq_some_iff.mp hb₀
    have howned := hrow.found_owned hwf hr₀
    rw [hs.bindings_found howned, Option.some.injEq] at hb₀
    subst hb₀
    obtain ⟨hsame, hor⟩ := hw.same_owner howned
    exact ⟨hsame.symm, hor.imp Eq.symm Eq.symm⟩

/-! ### Identities -/

/-- When memory repeats the rows, the identity in force is the row's. -/
theorem Synced.bound (hs : Synced J s) (id : String) :
    s.bound J id = (findRow s.db id).map (Row.ident J) := by
  unfold PeerStore.bound PeerStore.peer?
  cases hm : s.map.lookup id with
  | none => rfl
  | some h =>
    obtain ⟨r, hr, hident⟩ := hs id h hm
    simp [hr, hident]

theorem Synced.bindings_of_bound (hs : Synced J s) {id : String} {b : Ident}
    (h : s.bound J id = some b) : bindings J s.db id = some ⟨b.uuid, b.pk, b.info.ip⟩ := by
  rw [hs.bound, Option.map_eq_some_iff] at h
  obtain ⟨r, hr, rfl⟩ := h
  exact bindings_apply hr

theorem Synced.bound_of_bindings (hs : Synced J s) {id : String}
    {b : Binding Bytes Bytes String} (h : bindings J s.db id = some b) :
    ∃ b', s.bound J id = some b' ∧ b'.uuid = b.owner := by
  unfold bindings at h
  rw [Option.map_eq_some_iff] at h
  obtain ⟨r, hr, rfl⟩ := h
  exact ⟨r.ident J, by simp [hs.bound, hr], rfl⟩

theorem Synced.bindings_eq_none (hs : Synced J s) {id : String} (h : s.bound J id = none) :
    bindings J s.db id = none := by
  rw [hs.bound, Option.map_eq_none_iff] at h
  simp [bindings, h]

/-- A registration that is refused leaves every record that is in memory, and loads at
most the one it asked for. -/
theorem Change.peer_of_refused (hwf : StoreWF s) (h : Change J e i s t)
    (hreg : i.registerPk? ≠ none) (hno : ∀ rk addr, ¬AnsweredOk J e s i rk addr) (id : String) :
    t.peer? id = s.peer? id ∨
      (s.peer? id = none ∧ ∃ r, findRow s.db id = some r ∧ t.peer? id = some (r.load J e.now)) := by
  cases h with
  | same _ hm hr hdb =>
    left
    simp [PeerStore.peer?, hm, hr]
  | @looked id' p q _ hq' hf hp ht hq hdb =>
    by_cases hid : id = id'
    · subst hid
      rw [ht.peer?_self, hq' hreg]
      rcases hf.of_owned hp with ⟨h', hm, rfl⟩ | ⟨hm, -, r, hr, rfl⟩
      · left
        simp [PeerStore.peer?, hm]
      · right
        exact ⟨by simp [PeerStore.peer?, hm], r, hr, rfl⟩
    · exact Or.inl (ht.peer?_other hwf.handles hid)
  | confirmed hok hp huuid hpk hip ht hq hdb => exact absurd hok (hno _ _)
  | failed hi hok hw hc ht hq hdb => exact absurd hok (hno _ _)
  | stored hi hok hw hc ht hq hrow hself hdb hwf' => exact absurd hok (hno _ _)
  | restart hi ht => exact absurd hi hreg

end Refine

/-- What one input does to the identities. -/
structure KeepsIdentities (E : Ext) (cfg : Settings) (s : Server) (x : SrvEnv × Input) :
    Prop where
  /-- Memory and the database name the same owner, key and address for every id. -/
  agree : ∀ id p, s.pm.peer? id = some p →
    ∃ r, findRow s.pm.db id = some r ∧ p.ident = r.ident E.serde
  /-- A bound id stays bound, to the same owner. -/
  owner : ∀ id b, s.pm.bound E.serde id = some b →
    ∃ b', (s.step E cfg x).pm.bound E.serde id = some b' ∧ b'.uuid = b.uuid
  /-- An id is bound by a registration that is answered `ok`. -/
  bind : ∀ id b', s.pm.bound E.serde id = none →
    (s.step E cfg x).pm.bound E.serde id = some b' →
      ∃ rk addr, AnsweredOk E.serde x.1.toEnv s.pm x.2 rk addr ∧ rk.id = id ∧
        rk.uuid = b'.uuid ∧ rk.pk = b'.pk
  /-- Its key is changed only by a registration that is answered `ok`, carries the
  owner, and comes from the address recorded for the id. -/
  key : ∀ id b b', s.pm.bound E.serde id = some b →
    (s.step E cfg x).pm.bound E.serde id = some b' → b'.pk ≠ b.pk →
      ∃ rk addr, AnsweredOk E.serde x.1.toEnv s.pm x.2 rk addr ∧ rk.id = id ∧
        rk.uuid = b.uuid ∧ rk.pk = b'.pk ∧ addr.ip.toText = b.info.ip
  /-- A registration with any other answer, or none, leaves the rows and every record
  as they were; at most it loads a record from its row. -/
  refused : x.2.registerPk? ≠ none →
    (∀ rk addr, ¬AnsweredOk E.serde x.1.toEnv s.pm x.2 rk addr) →
      (s.step E cfg x).pm.db = s.pm.db ∧
      ∀ id, (s.step E cfg x).pm.peer? id = s.pm.peer? id ∨
        (s.pm.peer? id = none ∧ ∃ r, findRow s.pm.db id = some r ∧
          (s.step E cfg x).pm.peer? id = some (r.load E.serde x.1.now))
  /-- Every other message leaves the rows and every identity as they were. -/
  others : x.2.registerPk? = none →
    (s.step E cfg x).pm.db = s.pm.db ∧
      ∀ id, (s.step E cfg x).pm.bound E.serde id = s.pm.bound E.serde id

section Run

variable {E : Ext} {cfg : Settings}

/-- What holds of the peer store between two messages while the database works. -/
def InSync (E : Ext) (s : Server) : Prop := StoreWF s.pm ∧ Synced E.serde s.pm

theorem inSync_step (cfg : Settings) (hserde : ∀ x, E.serde.fromStr (E.serde.toString x) = x)
    (s : Server) (x : SrvEnv × Input) (hs : InSync E s) (hok : DbOk x.1.toEnv s.pm) :
    InSync E (s.step E cfg x) := by
  have h := change_step E cfg s x hs.1
  exact ⟨hs.1.change h, hs.2.change hserde hs.1 hok h⟩

theorem registry_step_server (cfg : Settings)
    (hserde : ∀ x, E.serde.fromStr (E.serde.toString x) = x)
    (s : Server) (x : SrvEnv × Input) (hs : InSync E s) (hok : DbOk x.1.toEnv s.pm) :
    Registry.Step (bindings E.serde s.pm.db) (granted E.serde x.1.toEnv s.pm x.2)
      (bindings E.serde (s.step E cfg x).pm.db) :=
  registry_step hserde hs.2 hs.1 hok (change_step E cfg s x hs.1)

theorem keepsIdentities_step (hserde : ∀ x, E.serde.fromStr (E.serde.toString x) = x)
    (s : Server) (x : SrvEnv × Input) (hs : InSync E s) (hok : DbOk x.1.toEnv s.pm) :
    KeepsIdentities E cfg s x := by
  have hstep := registry_step_server cfg hserde s x hs hok
  have hchange := change_step E cfg s x hs.1
  have hs' := (inSync_step cfg hserde s x hs hok).2
  refine ⟨?_, ?_, ?_, ?_, ?_, ?_⟩
  · intro id p hp
    simp only [PeerStore.peer?, Option.map_eq_some_iff] at hp
    obtain ⟨h, hm, rfl⟩ := hp
    exact hs.2 id h hm
  · intro id b hb
    obtain ⟨b₁, hb₁, ho⟩ := hstep.owner (hs.2.bindings_of_bound hb)
    obtain ⟨b', hb', hu⟩ := hs'.bound_of_bindings hb₁
    exact ⟨b', hb', hu.trans ho⟩
  · intro id b' hb hb'
    have hg := hstep.bound (hs.2.bindings_eq_none hb) (hs'.bindings_of_bound hb')
    obtain ⟨rk, addr, hans, hid, heq⟩ := answeredOk_of_granted hg
    simp only [Binding.mk.injEq] at heq
    exact ⟨rk, addr, hans, hid, heq.1.symm, heq.2.1.symm⟩
  · intro id b b' hb hb' hne
    obtain ⟨hg, howner, horigin⟩ :=
      hstep.key (hs.2.bindings_of_bound hb) (hs'.bindings_of_bound hb') hne
    obtain ⟨rk, addr, hans, hid, heq⟩ := answeredOk_of_granted hg
    simp only [Binding.mk.injEq] at heq
    obtain ⟨h1, h2, h3⟩ := heq
    exact ⟨rk, addr, hans, hid, by rw [← h1]; exact howner, h2.symm, by rw [← h3]; exact horigin⟩
  · intro hreg hno
    exact ⟨hchange.db_of_not_ok hno, hchange.peer_of_refused hs.1 hreg hno⟩
  · intro hi
    have hdb := hchange.db_of_not_ok (not_answeredOk_of_none hi)
    exact ⟨hdb, fun id => by rw [hs'.bound, hs.2.bound, hdb]⟩

end Run

/-- **Identity ownership.**  In every run from an empty database in which the database
calls succeed, with any number of restarts: an id that was registered `ok` for one
machine is never registered `ok` for another, and every input keeps the identities. -/
theorem identity_ownership (E : Ext) (cfg : Settings)
    (hserde : ∀ x, E.serde.fromStr (E.serde.toString x) = x) (mustLogin alwaysUseRelay : Bool)
    (conf : Snapshot) (l : List (SrvEnv × Input))
    (hdb : Always (Server.step E cfg) (fun s x => DbOk x.1.toEnv s.pm)
      (.start [] mustLogin alwaysUseRelay conf) l) :
    (∀ l₁ x l₂ y l₃ rk addr rk' addr', l = l₁ ++ x :: (l₂ ++ y :: l₃) →
      AnsweredOk E.serde x.1.toEnv
        (l₁.foldl (Server.step E cfg) (.start [] mustLogin alwaysUseRelay conf)).pm x.2 rk addr →
      AnsweredOk E.serde y.1.toEnv
        ((l₁ ++ x :: l₂).foldl (Server.step E cfg)
          (.start [] mustLogin alwaysUseRelay conf)).pm y.2 rk' addr' →
      rk'.id = rk.id → rk'.uuid = rk.uuid) ∧
    Always (Server.step E cfg) (KeepsIdentities E cfg)
      (.start [] mustLogin alwaysUseRelay conf) l := by
  have hinit : InSync E (.start [] mustLogin alwaysUseRelay conf) :=
    ⟨storeWF_start dbWF_nil, fun id h hm => by simp [Server.start, PeerStore.start] at hm⟩
  have hstep := fun s x => inSync_step (E := E) cfg hserde s x
  refine ⟨?_, Always.inv hstep (keepsIdentities_step hserde) hinit hdb⟩
  rintro l₁ x l₂ y l₃ rk addr rk' addr' rfl hx hy hid
  generalize Server.start [] mustLogin alwaysUseRelay conf = s₀ at hinit hdb hx hy
  rw [always_append] at hdb
  obtain ⟨hdb₁, hdbx, hdb₂⟩ := hdb
  rw [always_append] at hdb₂
  obtain ⟨hdb₂, hdby, -⟩ := hdb₂
  rw [List.foldl_append, List.foldl_cons] at hy
  -- the states before and after `x`, and before `y`
  have hI₁ := Always.foldl hstep hinit hdb₁
  generalize l₁.foldl (Server.step E cfg) s₀ = s₁ at hI₁ hdbx hdb₂ hdby hx hy
  have hI₂ := hstep s₁ x hI₁ hdbx
  have hI₃ := Always.foldl hstep hI₂ hdb₂
  have hx' := registry_step_server cfg hserde s₁ x hI₁ hdbx
  rw [granted_of_answeredOk hx] at hx'
  have hrun : Relation.ReflTransGen (fun R R' => ∃ a, Registry.Step R a R')
      (bindings E.serde (s₁.step E cfg x).pm.db)
      (bindings E.serde (l₂.foldl (Server.step E cfg) (s₁.step E cfg x)).pm.db) :=
    Always.sim (fun s : Server => bindings E.serde s.pm.db)
      (Always.inv hstep (fun s x hs hok => ⟨_, registry_step_server cfg hserde s x hs hok⟩) hI₂ hdb₂)
  obtain ⟨b, hb, howner⟩ := Registry.steps_owner hrun hx'.claimed
  have hy' := registry_step_server cfg hserde _ y hI₃ hdby
  rw [granted_of_answeredOk hy] at hy'
  rw [← hid] at hb
  exact (hy'.permits b hb).1.trans howner

/-- One machine registers an id, the process restarts, and another machine tries. -/
def restartRun : List (SrvEnv × Input) :=
  [(.ok 0 1, .datagram ⟨.ofOctets 192 0 2 7, 21116⟩ (some (.registerPk ⟨"alpha1", [1], [2]⟩))),
    (.ok 1000 2, .restart false false .blank),
    (.ok 2000 3, .datagram ⟨.ofOctets 192 0 2 8, 21116⟩ (some (.registerPk ⟨"alpha1", [9], [9]⟩)))]

theorem identity_ownership_restart :
    Always (Server.step .sample ⟨"", "", 0⟩) (KeepsIdentities .sample ⟨"", "", 0⟩)
      (.start [] false false .blank) restartRun :=
  (identity_ownership .sample ⟨"", "", 0⟩ Serde.plain_fromStr_toString false false .blank
    restartRun ⟨⟨rfl, rfl, rfl, by decide⟩, ⟨rfl, rfl, rfl, by decide⟩,
      ⟨rfl, rfl, rfl, by decide⟩, trivial⟩).2

end RustdeskServer
