import RustdeskServer.Registration

/-!
# Lookups that race

`PeerMap::get` reads the map, asks the database and inserts what it found, in three
steps; `get_or` looks again before it inserts, `get` does not.  A `get` whose insert
comes after somebody else's puts a second record into the map, and a registration
written to the first is no longer seen.

This is the only way a record is replaced.  In the runs in which no insert of a `get`
meets a record, every caller holds the record that later lookups find, and what is
registered stays until it is registered anew.

## Main definitions

* `Call`, `calls` — calls into `PeerMap`, and a task that makes some.
* `NoOverwrite` — the insert of a `get` meets no record.
* `StepKeeps` — what one step does to the records of the map.

## Main results

* `safe_get`, `safe_getOr`, `safe_calls` — what one task can rely on.
* `one_record_per_id` — **without an overwriting insert there is one record per id.**
* `lookup_loses_registration` — two tasks that lose a registration.
-/

namespace RustdeskServer

open Atomic

/-! ### Calls into the peer map -/

/-- A call into `PeerMap`. -/
inductive Call
  /-- `get`. -/
  | get (id : String)
  /-- `get_or`. -/
  | getOr (id : String)
  /-- `get_in_memory`. -/
  | getInMemory (id : String)
  /-- `update_pk` on the record that `get_or` returned, as `handle_register_pk` does. -/
  | updatePk (id : String) (addr : SocketAddr) (uuid pk : Bytes) (ip : String)

/-- The records a call hands to its caller. -/
def Call.prog (J : Serde) : Call → Prog PeerSig (List Handle)
  | .get id => do
    let p ← PeerMap.get J id
    .ret p.toList
  | .getOr id => do
    let p ← PeerMap.getOr J id
    .ret [p]
  | .getInMemory id => do
    let p ← PeerMap.getInMemory id
    .ret p.toList
  | .updatePk id addr uuid pk ip => do
    let p ← PeerMap.getOr J id
    let _ ← PeerMap.updatePk J id p addr uuid pk ip
    .ret [p]

/-- A task that makes some calls, with every record it was handed. -/
def calls (J : Serde) : List Call → Prog PeerSig (List Handle)
  | [] => .ret []
  | c :: cs => do
    let ps ← c.prog J
    let qs ← calls J cs
    .ret (ps ++ qs)

/-! ### What holds without an overwriting insert -/

/-- The id for which `get` inserts the record it loaded. -/
def PeerOp.inserts? : PeerOp → Option String
  | .mapInsert id _ => some id
  | _ => none

/-- The insert of a `get` meets no record. -/
def NoOverwrite (_ : Env) (o : PeerOp) (s : PeerStore) : Prop :=
  ∀ id ∈ o.inserts?, s.map.lookup id = none

instance (e : Env) (o : PeerOp) (s : PeerStore) : Decidable (NoOverwrite e o s) :=
  inferInstanceAs (Decidable (∀ id ∈ o.inserts?, s.map.lookup id = none))

/-- Handles are found under their id, and the next one is new. -/
def HandlesNew (s : PeerStore) : Prop :=
  ∀ id h, s.map.lookup id = some h → h.id = id ∧ h.no < s.next

/-- No record of the map is replaced. -/
def MapGrows (s t : PeerStore) : Prop :=
  ∀ id h, s.map.lookup id = some h → t.map.lookup id = some h

/-- The sections that leave the registration of every record alone. -/
def PeerOp.KeepsReg : PeerOp → Bool
  | .writeReg _ _ _ _ _ => false
  | .updateAddr _ _ => false
  | _ => true

/-- A section is a registration written to the record that the map holds, or it
registers nothing. -/
def WritesMapped (_ : Env) (o : PeerOp) (s : PeerStore) : Prop :=
  o.KeepsReg = true ∨
    ∃ h addr uuid pk ip, o = .writeReg h addr uuid pk ip ∧ s.map.lookup h.id = some h

theorem MapGrows.refl (s : PeerStore) : MapGrows s s := fun _ _ h => h

theorem MapGrows.trans {s t u : PeerStore} (h₁ : MapGrows s t) (h₂ : MapGrows t u) :
    MapGrows s u := fun id h hm => h₂ id h (h₁ id h hm)

theorem mapGrows_alloc {s : PeerStore} {id : String} (h : s.map.lookup id = none) (p : Peer) :
    MapGrows s (s.alloc id p) := by
  intro id' h' hm
  have hne : id' ≠ id := by
    rintro rfl
    rw [h] at hm
    cases hm
  rw [show (s.alloc id p).map = s.map.insert id ⟨id, s.next⟩ from rfl, AList.lookup_insert_ne hne]
  exact hm

theorem handlesNew_alloc {s : PeerStore} (hs : HandlesNew s) (id : String) (p : Peer) :
    HandlesNew (s.alloc id p) := by
  intro id' h' hm
  rw [show (s.alloc id p).map = s.map.insert id ⟨id, s.next⟩ from rfl] at hm
  by_cases hid : id' = id
  · subst hid
    rw [AList.lookup_insert, Option.some.injEq] at hm
    rw [← hm]
    exact ⟨rfl, Nat.lt_succ_self _⟩
  · rw [AList.lookup_insert_ne hid] at hm
    exact ⟨(hs id' h' hm).1, Nat.lt_succ_of_lt (hs id' h' hm).2⟩

/-- The sections that leave the map alone. -/
def PeerOp.KeepsMap : PeerOp → Bool
  | .mapInsert _ _ => false
  | .mapGetOrInsert _ => false
  | _ => true

theorem PeerOp.exec_keepsMap {o : PeerOp} (h : o.KeepsMap = true) (e : Env) (s : PeerStore) :
    (o.exec e s).1.map = s.map ∧ (o.exec e s).1.next = s.next := by
  cases o with
  | mapInsert id p => cases h
  | mapGetOrInsert id => cases h
  | checkIpBlocker ip id =>
    have hs := sameRecords_checkIpBlocker s e.now ip id
    exact ⟨hs.map, hs.next⟩
  | dbInsertPeer id uuid pk info =>
    simp only [PeerOp.exec]
    split
    · exact ⟨rfl, rfl⟩
    · split <;> exact ⟨rfl, rfl⟩
  | dbUpdatePk guid id pk info =>
    simp only [PeerOp.exec]
    split
    · exact ⟨rfl, rfl⟩
    · split <;> exact ⟨rfl, rfl⟩
  | _ => exact ⟨rfl, rfl⟩

/-- **A section that does not overwrite keeps the map's records**, and the handles new. -/
theorem exec_mapGrows {e : Env} {o : PeerOp} {s : PeerStore} (hC : NoOverwrite e o s)
    (hs : HandlesNew s) : MapGrows s (o.exec e s).1 ∧ HandlesNew (o.exec e s).1 := by
  by_cases hk : o.KeepsMap = true
  · obtain ⟨hmap, hnext⟩ := PeerOp.exec_keepsMap hk e s
    unfold MapGrows HandlesNew
    rw [hmap, hnext]
    exact ⟨fun _ _ h => h, hs⟩
  · cases o with
    | mapInsert id p => exact ⟨mapGrows_alloc (hC id rfl) p, handlesNew_alloc hs id p⟩
    | mapGetOrInsert id =>
      simp only [PeerOp.exec]
      cases hm : s.map.lookup id with
      | some h => exact ⟨.refl s, hs⟩
      | none => exact ⟨mapGrows_alloc hm _, handlesNew_alloc hs id _⟩
    | _ => exact absurd rfl hk

/-- **Only an overwriting insert replaces a record.** -/
theorem mapGrows_iff {e : Env} {o : PeerOp} {s : PeerStore} (hs : HandlesNew s) :
    MapGrows s (o.exec e s).1 ↔ NoOverwrite e o s := by
  refine ⟨fun hg => ?_, fun hC => (exec_mapGrows hC hs).1⟩
  cases o with
  | mapInsert id p =>
    rintro _ ⟨⟩
    cases hm : s.map.lookup id with
    | none => rfl
    | some h =>
      -- the new record has a number that no record had
      have hnew : (s.alloc id p).map.lookup id = some ⟨id, s.next⟩ := AList.lookup_insert _
      have hold : (s.alloc id p).map.lookup id = some h := hg id h hm
      rw [hnew, Option.some.injEq] at hold
      have hlt := (hs id h hm).2
      rw [← hold] at hlt
      exact absurd hlt (Nat.lt_irrefl _)
  | _ => exact fun id hid => by cases hid

/-! ### What one task can rely on -/

/-- The judgement used here. -/
abbrev SafeCall {α : Type} (Q : α → PeerStore → Prop) (p : Prog PeerSig α) (s : PeerStore) :
    Prop :=
  Safe peerMachine NoOverwrite HandlesNew MapGrows WritesMapped Q p s

section Calls

variable {α : Type} {J : Serde} {s : PeerStore} {Q : α → PeerStore → Prop}

/-- One section: what is left to show is what comes after. -/
theorem safeCall_op {o : PeerOp} {k : PeerOp.Res o → Prog PeerSig α}
    (hG : ∀ s', MapGrows s s' → ∀ e, WritesMapped e o s')
    (hk : ∀ s', MapGrows s s' → HandlesNew s' → ∀ e, NoOverwrite e o s' →
      SafeCall Q (k (o.exec e s').2) (o.exec e s').1) : SafeCall Q (.op o k) s := by
  refine safe_op ?_
  intro s' hR hI e hC
  obtain ⟨hgrow, hnew⟩ := exec_mapGrows hC hI
  exact ⟨hgrow, hnew, hG s' hR e, hk s' hR hI e hC⟩

/-- One section whose answer does not matter. -/
theorem safeCall_any {o : PeerOp} {k : PeerOp.Res o → Prog PeerSig α}
    (hG : ∀ s', MapGrows s s' → ∀ e, WritesMapped e o s')
    (hk : ∀ t r, MapGrows s t → SafeCall Q (k r) t) : SafeCall Q (.op o k) s :=
  safeCall_op hG fun _ hR hs' _ hC => hk _ _ (hR.trans (exec_mapGrows hC hs').1)

/-- A handle that the map holds for the id asked for. -/
def Mapped (id : String) (h : Handle) (t : PeerStore) : Prop :=
  h.id = id ∧ t.map.lookup id = some h

theorem Mapped.mono {id : String} {h : Handle} {t u : PeerStore} (hm : Mapped id h t)
    (hR : MapGrows t u) : Mapped id h u := ⟨hm.1, hR id h hm.2⟩

theorem mapped_of_lookup {id : String} {h : Handle} {t : PeerStore} (hs : HandlesNew t)
    (hm : t.map.lookup id = some h) : Mapped id h t := ⟨(hs id h hm).1, hm⟩

theorem safe_get (id : String) :
    SafeCall (fun p t => ∀ h, p = some h → Mapped id h t) (PeerMap.get J id) s := by
  refine safeCall_op (fun _ _ _ => Or.inl rfl) ?_
  intro s' _ hs' e _
  simp only [PeerOp.exec]
  cases hm : s'.map.lookup id with
  | some h => exact safe_ret fun h' hh => by cases hh; exact mapped_of_lookup hs' hm
  | none =>
    refine safeCall_op (fun _ _ _ => Or.inl rfl) ?_
    intro s₂ _ _ e _
    simp only [PeerOp.exec]
    have hmiss : SafeCall (fun p t => ∀ h, p = some h → Mapped id h t) (.ret none) s₂ :=
      safe_ret fun h hh => by cases hh
    cases e.getFails with
    | true => exact hmiss
    | false =>
      simp only [Bool.false_eq_true, if_false]
      cases hr : findRow s₂.db id with
      | none => exact hmiss
      | some v =>
        -- between the read and this insert the map may have grown; the condition is that
        -- it did not grow here
        refine safeCall_op (fun _ _ _ => Or.inl rfl) ?_
        intro s₃ _ _ e _
        refine safeCall_op (fun _ _ _ => Or.inl rfl) ?_
        intro s₄ _ _ e _
        refine safe_ret ?_
        intro h hh
        cases hh
        exact ⟨rfl, AList.lookup_insert _⟩

theorem safe_getOr (id : String) :
    SafeCall (fun h t => Mapped id h t) (PeerMap.getOr J id) s := by
  refine Safe.bind (R := MapGrows) MapGrows.trans (.refl s) (safe_get id) ?_
  intro p t _ hp
  cases p with
  | some h => exact safe_ret (hp h rfl)
  | none =>
    refine safeCall_op (fun _ _ _ => Or.inl rfl) ?_
    intro s' _ hs' e _
    simp only [PeerOp.exec]
    cases hm : s'.map.lookup id with
    | some h => exact safe_ret (mapped_of_lookup hs' hm)
    | none => exact safe_ret ⟨rfl, AList.lookup_insert _⟩

theorem safe_getInMemory (id : String) :
    SafeCall (fun p t => ∀ h, p = some h → Mapped id h t) (PeerMap.getInMemory id) s := by
  refine safeCall_op (fun _ _ _ => Or.inl rfl) ?_
  intro s' _ hs' e _
  exact safe_ret fun h hh => mapped_of_lookup hs' hh

/-- `update_pk` on a record that the map holds. -/
theorem safe_updatePk {id : String} {h : Handle} (hm : Mapped id h s) (addr : SocketAddr)
    (uuid pk : Bytes) (ip : String) :
    SafeCall (fun _ t => Mapped id h t) (PeerMap.updatePk J id h addr uuid pk ip) s := by
  refine safeCall_any ?_ fun s₁ w hR₁ => Safe.ite (fun _ => ?_) fun _ => ?_
  · intro s' hR e
    refine Or.inr ⟨h, addr, uuid, pk, ip, rfl, ?_⟩
    rw [hm.1]
    exact hR id h hm.2
  · refine safeCall_any (fun _ _ _ => Or.inl rfl) ?_
    intro s₂ r hR₂
    have hm₂ := (hm.mono hR₁).mono hR₂
    cases r with
    | error u => exact safe_ret hm₂
    | ok guid =>
      exact safeCall_any (fun _ _ _ => Or.inl rfl)
        fun s₃ _ hR₃ => safe_ret (hm₂.mono hR₃)
  · refine safeCall_any (fun _ _ _ => Or.inl rfl) ?_
    intro s₂ r hR₂
    have hm₂ := (hm.mono hR₁).mono hR₂
    cases r with
    | error u => exact safe_ret hm₂
    | ok u => exact safe_ret hm₂

/-- Every record in a list is the one that the map holds for its id. -/
def AllMapped (hs : List Handle) (t : PeerStore) : Prop :=
  ∀ h ∈ hs, t.map.lookup h.id = some h

theorem AllMapped.mono {hs : List Handle} {t u : PeerStore} (h : AllMapped hs t)
    (hR : MapGrows t u) : AllMapped hs u := fun x hx => hR _ _ (h x hx)

theorem allMapped_toList {p : Option Handle} {id : String} {t : PeerStore}
    (h : ∀ x, p = some x → Mapped id x t) : AllMapped p.toList t := by
  intro x hx
  obtain ⟨hid, hm⟩ := h x (by simpa [Option.mem_toList] using hx)
  rw [hid]
  exact hm

theorem allMapped_singleton {h : Handle} {id : String} {t : PeerStore} (hm : Mapped id h t) :
    AllMapped [h] t := by
  intro x hx
  rw [List.mem_singleton] at hx
  rw [hx, hm.1]
  exact hm.2

theorem safe_call (c : Call) : SafeCall AllMapped (c.prog J) s := by
  cases c with
  | get id =>
    exact Safe.bind (R := MapGrows) MapGrows.trans (.refl s) (safe_get id)
      fun p t _ hp => safe_ret (allMapped_toList hp)
  | getOr id =>
    exact Safe.bind (R := MapGrows) MapGrows.trans (.refl s) (safe_getOr id)
      fun h t _ hm => safe_ret (allMapped_singleton hm)
  | getInMemory id =>
    exact Safe.bind (R := MapGrows) MapGrows.trans (.refl s) (safe_getInMemory id)
      fun p t _ hp => safe_ret (allMapped_toList hp)
  | updatePk id addr uuid pk ip =>
    refine Safe.bind (R := MapGrows) MapGrows.trans (.refl s) (safe_getOr id) ?_
    intro h t _ hm
    exact Safe.bind (R := MapGrows) MapGrows.trans (.refl t) (safe_updatePk hm addr uuid pk ip)
      fun _ u _ hm' => safe_ret (allMapped_singleton hm')

/-- **A task whose calls never overwrite holds the records that the map holds.** -/
theorem safe_calls (cs : List Call) : SafeCall AllMapped (calls J cs) s := by
  induction cs generalizing s with
  | nil => exact safe_ret fun h hh => by cases hh
  | cons c cs ih =>
    refine Safe.bind (R := MapGrows) MapGrows.trans (.refl s) (safe_call c) ?_
    intro ps t _ hps
    refine Safe.bind (R := MapGrows) MapGrows.trans (.refl t) ih fun qs u hR hqs => safe_ret ?_
    intro h hh
    rcases List.mem_append.mp hh with hh | hh
    · exact hps.mono hR h hh
    · exact hqs h hh

end Calls

/-! ### All tasks together -/

/-- The fields of a record that a registration writes. -/
def Peer.SameReg (p q : Peer) : Prop :=
  q.socketAddr = p.socketAddr ∧ q.lastRegTime = p.lastRegTime ∧ q.uuid = p.uuid ∧ q.pk = p.pk

/-- What one step does to the records of the map. -/
structure StepKeeps {ι α : Type} [DecidableEq ι] (c : Config PeerSig PeerStore ι α) (i : ι)
    (e : Env) : Prop where
  /-- No record is replaced. -/
  keeps : ∀ id h, c.st.map.lookup id = some h →
    (c.step peerMachine i e).st.map.lookup id = some h
  /-- A registration is written to the record that lookups find. -/
  writes : ∀ h addr uuid pk ip, (c.task i).next? = some (.writeReg h addr uuid pk ip) →
    ∃ p, (c.step peerMachine i e).st.peer? h.id = some p ∧ p.socketAddr = addr ∧
      p.lastRegTime = e.now ∧ p.uuid = uuid ∧ p.pk = pk
  /-- It stays there until the id is registered again. -/
  stays : ∀ id p, c.st.peer? id = some p →
    (∀ h addr uuid pk ip, (c.task i).next? = some (.writeReg h addr uuid pk ip) → h.id ≠ id) →
      ∃ q, (c.step peerMachine i e).st.peer? id = some q ∧ p.SameReg q

theorem peer?_eq_some {s : PeerStore} {id : String} {p : Peer} :
    s.peer? id = some p ↔ ∃ h, s.map.lookup id = some h ∧ s.recs h = p := by
  simp [PeerStore.peer?]

theorem Peer.SameReg.refl (p : Peer) : p.SameReg p := ⟨rfl, rfl, rfl, rfl⟩

/-- A change of a record that keeps its registration, seen from any record. -/
theorem modify_sameReg (s : PeerStore) (h h' : Handle) {f : Peer → Peer}
    (hf : ∀ p : Peer, p.SameReg (f p)) : (s.recs h).SameReg ((s.modify h' f).recs h) := by
  by_cases heq : h = h'
  · subst heq
    simpa [PeerStore.modify] using hf (s.recs h)
  · rw [show (s.modify h' f).recs h = s.recs h from Function.update_of_ne heq _ _]
    exact .refl _

/-- A section that registers nothing leaves the registration of every record of the map. -/
theorem keepsReg_sameReg {e : Env} {o : PeerOp} {s : PeerStore} {h : Handle}
    (ho : o.KeepsReg = true) (hs : HandlesNew s) (hm : s.map.lookup h.id = some h) :
    (s.recs h).SameReg ((o.exec e s).1.recs h) := by
  -- a record that is in the map is not the one being allocated
  have halloc : ∀ id p, (s.alloc id p).recs h = s.recs h := by
    intro id p
    refine Function.update_of_ne (fun heq => ?_) _ _
    have hlt := (hs h.id h hm).2
    rw [heq] at hlt
    exact absurd hlt (Nat.lt_irrefl _)
  cases o with
  | writeReg h' addr uuid pk ip => cases ho
  | updateAddr h' addr => cases ho
  | mapInsert id p =>
    simp only [PeerOp.exec, halloc]
    exact .refl _
  | mapGetOrInsert id =>
    simp only [PeerOp.exec]
    cases s.map.lookup id with
    | some h' => exact .refl _
    | none =>
      simp only [halloc]
      exact .refl _
  | setRegPk h' v => exact modify_sameReg s h h' fun p => ⟨rfl, rfl, rfl, rfl⟩
  | setGuid h' g => exact modify_sameReg s h h' fun p => ⟨rfl, rfl, rfl, rfl⟩
  | checkIpBlocker ip id =>
    rw [show ((PeerOp.checkIpBlocker ip id).exec e s).1.recs = s.recs from
      (sameRecords_checkIpBlocker s e.now ip id).recs]
    exact .refl _
  | dbInsertPeer id uuid pk info =>
    simp only [PeerOp.exec]
    split
    · exact .refl _
    · split <;> exact .refl _
  | dbUpdatePk guid id pk info =>
    simp only [PeerOp.exec]
    split
    · exact .refl _
    · split <;> exact .refl _
  | _ => exact .refl _

section Tasks

variable {ι α : Type} [DecidableEq ι] {c : Config PeerSig PeerStore ι α} {i : ι} {e : Env}

theorem stepKeeps_of_ret {a : α} (hi : c.task i = .ret a) : StepKeeps c i e := by
  refine ⟨?_, ?_, ?_⟩
  · rw [Config.step_ret _ hi]
    exact fun _ _ h => h
  · intro h addr uuid pk ip hn
    simp [hi] at hn
  · rw [Config.step_ret _ hi]
    exact fun id p hp _ => ⟨p, hp, .refl p⟩

theorem stepKeeps_of_op {o : PeerOp} {k : PeerOp.Res o → Prog PeerSig α}
    (hi : c.task i = .op o k) (hs : HandlesNew c.st) (hC : NoOverwrite e o c.st)
    (hG : WritesMapped e o c.st) : StepKeeps c i e := by
  have hst : (c.step peerMachine i e).st = (o.exec e c.st).1 := by rw [Config.step_op _ hi]; rfl
  have hgrow := (exec_mapGrows hC hs).1
  refine ⟨?_, ?_, ?_⟩
  · rw [hst]
    exact hgrow
  · intro h addr uuid pk ip hn
    rw [hi, Prog.next?_op, Option.some.injEq] at hn
    subst hn
    rw [hst]
    rcases hG with hno | ⟨h', _, _, _, _, ho, hm⟩
    · cases hno
    · cases ho
      refine ⟨_, peer?_eq_some.mpr ⟨h, hgrow _ _ hm, rfl⟩, ?_⟩
      simp [PeerOp.exec, PeerStore.modify, Peer.register]
  · intro id p hp hne
    obtain ⟨h, hm, rfl⟩ := peer?_eq_some.mp hp
    have hid := (hs id h hm).1
    subst hid
    rw [hst]
    refine ⟨_, peer?_eq_some.mpr ⟨h, hgrow _ _ hm, rfl⟩, ?_⟩
    rcases hG with hno | ⟨h', addr, uuid, pk, ip, rfl, hm'⟩
    · exact keepsReg_sameReg hno hs hm
    · -- the registration is written to the record of another id
      have hother := hne h' addr uuid pk ip (by rw [hi]; rfl)
      have heq : h ≠ h' := fun heq => hother (by rw [heq])
      rw [show ((PeerOp.writeReg h' addr uuid pk ip).exec e c.st).1.recs h = c.st.recs h from
        Function.update_of_ne heq _ _]
      exact .refl _

end Tasks

/-- **Without an overwriting insert there is one record per id.**  A process starts on
any rows, and any number of tasks make any calls into `PeerMap`; wherever a run leads
whose steps never overwrite, every record a task was handed is the one that the map
holds, the next step replaces no record exactly if it does not overwrite either, and
then registrations are written to the record that lookups find and stay there. -/
theorem one_record_per_id {ι : Type} [DecidableEq ι] (J : Serde) (db : List Row)
    (cs : ι → List Call) {c : Config PeerSig PeerStore ι (List Handle)}
    (h : Reach peerMachine (OpOk NoOverwrite) ⟨.start db, fun i => calls J (cs i)⟩ c) :
    (∀ i hs, (c.task i).result? = some hs → ∀ h ∈ hs, c.st.map.lookup h.id = some h) ∧
    (∀ i e, MapGrows c.st (c.step peerMachine i e).st ↔ OpOk NoOverwrite c i e) ∧
    ∀ i e, OpOk NoOverwrite c i e → StepKeeps c i e := by
  obtain ⟨hI, -, hs⟩ := Reach.safe (G := WritesMapped) (Q := fun _ => AllMapped) MapGrows.refl
    MapGrows.trans (fun _ _ _ _ hR hQ => hQ.mono hR)
    (fun id h hm => by simp [PeerStore.start] at hm) (fun i => safe_calls (cs i)) h
  refine ⟨fun i hs' hr => ?_, fun i e => ?_, fun i e hok => ?_⟩
  · have hi := hs i
    rw [Prog.eq_ret_of_result? hr] at hi
    exact hi
  · cases hi : c.task i with
    | ret a =>
      rw [Config.step_ret _ hi]
      exact ⟨fun _ o ho => by simp [hi] at ho, fun _ => .refl _⟩
    | op o k =>
      rw [Config.step_op _ hi]
      refine (mapGrows_iff hI).trans ⟨fun hC o' ho => ?_, fun hC => hC o (by rw [hi]; rfl)⟩
      rw [hi, Prog.next?_op, Option.some.injEq] at ho
      rw [← ho]
      exact hC
  · cases hi : c.task i with
    | ret a => exact stepKeeps_of_ret hi
    | op o k =>
      have hC := hok o (by rw [hi]; rfl)
      exact stepKeeps_of_op hi hI hC ((hs i).guarantee MapGrows.refl hI (by rw [hi]; rfl) hC)

/-! ### Two tasks -/

/-- The row of an id, as an earlier process left it. -/
def oldRow : Row := ⟨(Guid.of 1).bytes, "alpha1", [1], [2], Serde.plain.toString ⟨"192.0.2.7"⟩⟩

/-- One task looks the id up, the other registers a new key for it. -/
def lookupRace : Config PeerSig PeerStore Bool (List Handle) where
  st := .start [oldRow]
  task := fun i => calls .plain (if i then
    [.updatePk "alpha1" ⟨.ofOctets 192 0 2 7, 21116⟩ [1] [3] "192.0.2.7"] else [.get "alpha1"])

/-- The registration is over before the lookup begins. -/
def calmSchedule : List (Bool × Env) :=
  [true, true, true, true, true, true, false].map fun i => (i, .ok 0 2)

/-- The record that the lookup was handed is the one in the map. -/
theorem one_record_per_id_calm :
    ((lookupRace.sched peerMachine calmSchedule).task false).result? = some [⟨"alpha1", 0⟩] ∧
      (lookupRace.sched peerMachine calmSchedule).st.map.lookup "alpha1" = some ⟨"alpha1", 0⟩ := by
  have hres : ((lookupRace.sched peerMachine calmSchedule).task false).result? =
      some [⟨"alpha1", 0⟩] := by decide
  exact ⟨hres, (one_record_per_id .plain [oldRow] _ (c := lookupRace.sched peerMachine calmSchedule)
    (reach_sched (by decide))).1 false _ hres ⟨"alpha1", 0⟩ (List.mem_singleton_self _)⟩

/-- The registration runs from its lookup to its end between the database call and the
insert of the lookup. -/
def lookupSchedule : List (Bool × Env) :=
  [false, false, false, true, true, true, true, true, true, false].map fun i => (i, .ok 0 2)

/-- The registration has its row, and lookups find the record with the old key. -/
theorem lookup_loses_registration :
    ¬∀ c, Reach peerMachine (fun _ _ _ => True) lookupRace c →
      ∀ i hs, (c.task i).result? = some hs → ∀ h ∈ hs, c.st.map.lookup h.id = some h := by
  intro hall
  have h := hall _ (reach_sched (along_true lookupRace lookupSchedule)) true [⟨"alpha1", 0⟩]
    (by decide) ⟨"alpha1", 0⟩ (by simp)
  exact absurd h (by decide)

end RustdeskServer
