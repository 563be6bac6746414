import RustdeskServer.Registration

/-!
# The points of a registration

A `handle_register_pk` task, cut at its sections: `Point` names where a task is,
`Point.prog` what is left of its program there, and `Point.next` where its next
section takes it.

## Main definitions

* `Claimant`, `Point`, `Point.prog` — a task, and the points of its program.
* `Point.Committed` — the check of the owner passed, and the task has not returned.
* `Point.section?`, `Point.store`, `Point.next` — one step.

## Main results

* `Point.task_eq_prog_first` — a task begins at a point.
* `Point.step_point` — **a step leads from one point to the next.**
-/

namespace RustdeskServer

open Atomic

/-! ### The points of a task -/

/-- A task that claims an id. -/
structure Claimant where
  /-- The machine. -/
  uuid : Bytes
  /-- Its key. -/
  pk : Bytes
  /-- Where the request came from. -/
  addr : SocketAddr
  /-- Whether it came over a websocket. -/
  ws : Bool

namespace Claimant

/-- The request. -/
def rk (id : String) (T : Claimant) : RegisterPk := ⟨id, T.uuid, T.pk⟩

/-- The address, as text. -/
def ip (T : Claimant) : String := T.addr.ip.toText

/-- The task. -/
def task (J : Serde) (id : String) (T : Claimant) : Prog PeerSig (Option RegisterPkResult) :=
  handleRegisterPk J (T.rk id) T.addr T.ws

/-- Two tasks make the same claim. -/
def Same (T U : Claimant) : Prop := T.uuid = U.uuid ∧ T.pk = U.pk

end Claimant

/-- Where a task is. -/
inductive Point
  /-- Before `check_ip_blocker`. -/
  | ipCheck
  /-- Before the map is read. -/
  | mapGet
  /-- Before `get_peer`. -/
  | dbGet
  /-- A row was read; before the clock is read for its record. -/
  | loadClock (v : Row)
  /-- Before the insert of `get`. -/
  | load (p : Peer)
  /-- Before the write-locked half of `get_or`. -/
  | getOrInsert
  /-- Before the check of the owner. -/
  | check (h : Handle)
  /-- The check passed; before the counter is read. -/
  | count (h : Handle) (changed ipChanged : Bool)
  /-- Before the clock is read for the counter. -/
  | countClock (h : Handle) (changed ipChanged : Bool) (p : Peer)
  /-- Before the clock is read for the counter's stamp. -/
  | stamp (h : Handle) (changed ipChanged : Bool) (n : ℕ)
  /-- Before the counter is written. -/
  | bump (h : Handle) (changed ipChanged : Bool) (v : ℕ × Instant)
  /-- Before `IP_CHANGES` is written. -/
  | note (h : Handle) (changed : Bool)
  /-- Before the record is written. -/
  | write (h : Handle)
  /-- Before `insert_peer`. -/
  | insertRow (h : Handle)
  /-- The row is there; before the record gets its guid. -/
  | setGuid (h : Handle) (g : Bytes)
  /-- Before `update_pk` of the database. -/
  | updateRow (h : Handle) (g : Bytes)
  /-- Finished. -/
  | done (res : Option RegisterPkResult)

namespace Point

/-- The check passed and the task has not returned. -/
def Committed : Point → Bool
  | .count _ _ _ => true
  | .countClock _ _ _ _ => true
  | .stamp _ _ _ _ => true
  | .bump _ _ _ _ => true
  | .note _ _ => true
  | .write _ => true
  | .insertRow _ => true
  | .setGuid _ _ => true
  | .updateRow _ _ => true
  | _ => false

/-- The record is written and the row is not. -/
def Pending : Point → Bool
  | .insertRow _ => true
  | .updateRow _ _ => true
  | _ => false

/-- The record is written, or the task was told `ok`. -/
def Wrote : Point → Bool
  | .insertRow _ => true
  | .updateRow _ _ => true
  | .setGuid _ _ => true
  | .done (some .ok) => true
  | _ => false

theorem wrote_of_pending {pt : Point} (h : pt.Pending = true) : pt.Wrote = true := by
  cases pt with
  | insertRow _ => rfl
  | updateRow _ _ => rfl
  | _ => cases h

section Prog

variable (J : Serde) (id : String) (T : Claimant)

/-- From the check on. -/
def fromCheck (h : Handle) : Prog PeerSig (Option RegisterPkResult) :=
  .op (.readPeer h) fun p : Peer =>
    match regCheck p (T.rk id) T.ip with
    | none => .ret (some .uuidMismatch)
    | some (changed, ipChanged) => commitReg J (T.rk id) T.addr T.ws h changed ipChanged

/-- From `insert_peer` on. -/
def fromInsertRow (h : Handle) : Prog PeerSig (Option RegisterPkResult) :=
  .op (.dbInsertPeer id T.uuid T.pk (J.toString ⟨T.ip⟩)) fun r : Except Unit Bytes =>
    match r with
    | .error _ => .ret (some .ok)
    | .ok guid => .op (.setGuid h guid) fun _ => .ret (some .ok)

/-- From `update_pk` of the database on. -/
def fromUpdateRow (g : Bytes) : Prog PeerSig (Option RegisterPkResult) :=
  .op (.dbUpdatePk g id T.pk (J.toString ⟨T.ip⟩)) fun _ : Except Unit Unit => .ret (some .ok)

/-- From the write of the record on. -/
def fromWrite (h : Handle) : Prog PeerSig (Option RegisterPkResult) :=
  .op (.writeReg h T.addr T.uuid T.pk T.ip) fun w : PeerInfo × Bytes => do
    let _ ← (if w.2.isEmpty then
        .op (.dbInsertPeer id T.uuid T.pk (J.toString w.1)) fun r : Except Unit Bytes =>
          match r with
          | .error _ => .ret .serverError
          | .ok guid => .op (.setGuid h guid) fun _ => .ret .ok
      else
        .op (.dbUpdatePk w.2 id T.pk (J.toString w.1)) fun r : Except Unit Unit =>
          match r with
          | .error _ => .ret .serverError
          | .ok _ => .ret .ok : Prog PeerSig RegisterPkResult)
    .ret (some .ok)

/-- From where `IP_CHANGES` is done. -/
def fromNote (h : Handle) (changed : Bool) : Prog PeerSig (Option RegisterPkResult) :=
  if changed || T.ws then fromWrite J id T h else .ret (some .ok)

/-- From where the counter is written. -/
def fromBump (h : Handle) (changed ipChanged : Bool) : Prog PeerSig (Option RegisterPkResult) := do
  noteIpChange ipChanged id T.ip
  fromNote J id T h changed

/-- What is left of the task at a point. -/
def prog : Point → Prog PeerSig (Option RegisterPkResult)
  | .ipCheck =>
    .op (.checkIpBlocker T.ip id) fun pass : Bool =>
      if !pass then .ret (some .tooFrequent) else PeerMap.getOr J id >>= fromCheck J id T
  | .mapGet => PeerMap.getOr J id >>= fromCheck J id T
  | .dbGet =>
    .op (.dbGetPeer id) fun v : Except Unit (Option Row) =>
      match v with
      | .ok (some v) =>
        .op .now fun now : Instant => .op (.mapInsert id (v.load J now)) fun h => fromCheck J id T h
      | _ => .op (.mapGetOrInsert id) fun h : Handle => fromCheck J id T h
  | .loadClock v =>
    .op .now fun now : Instant => .op (.mapInsert id (v.load J now)) fun h => fromCheck J id T h
  | .load p => .op (.mapInsert id p) fun h : Handle => fromCheck J id T h
  | .getOrInsert => .op (.mapGetOrInsert id) fun h : Handle => fromCheck J id T h
  | .check h => fromCheck J id T h
  | .count h changed ipChanged => commitReg J (T.rk id) T.addr T.ws h changed ipChanged
  | .countClock h changed ipChanged p =>
    .op .now fun now : Instant =>
      match bumpRegPk now p.regPk with
      | none => .ret (some .tooFrequent)
      | some n =>
        .op .now fun now : Instant =>
          .op (.setRegPk h (n, now)) fun _ => fromBump J id T h changed ipChanged
  | .stamp h changed ipChanged n =>
    .op .now fun now : Instant =>
      .op (.setRegPk h (n, now)) fun _ => fromBump J id T h changed ipChanged
  | .bump h changed ipChanged v =>
    .op (.setRegPk h v) fun _ => fromBump J id T h changed ipChanged
  | .note h changed => .op (.recordIpChange id T.ip) fun _ => fromNote J id T h changed
  | .write h => fromWrite J id T h
  | .insertRow h => fromInsertRow J id T h
  | .setGuid h g => .op (.setGuid h g) fun _ => .ret (some .ok)
  | .updateRow _ g => fromUpdateRow J id T g
  | .done res => .ret res

/-- Where a task begins: a request that is not well formed is over at once. -/
def first : Point :=
  if T.uuid.isEmpty || T.pk.isEmpty then .done none
  else if byteLen id < 6 || byteLen id > MAX_PEER_ID_LEN then .done (some .uuidMismatch)
  else .ipCheck

/-- Where a task is after `IP_CHANGES`. -/
def afterNote (h : Handle) (changed : Bool) : Point :=
  if changed || T.ws then .write h else .done (some .ok)

/-- The point after a step. -/
def next (e : Env) (s : PeerStore) : Point → Point
  | .ipCheck =>
    if (s.checkIpBlocker e.now T.ip id).2 then .mapGet else .done (some .tooFrequent)
  | .mapGet => match s.map.lookup id with
    | some h => .check h
    | none => .dbGet
  | .dbGet =>
    if e.getFails then .getOrInsert
    else match findRow s.db id with
      | some v => .loadClock v
      | none => .getOrInsert
  | .loadClock v => .load (v.load J e.now)
  | .load _ => .check ⟨id, s.next⟩
  | .getOrInsert => .check (s.slot id)
  | .check h => match regCheck (s.recs h) (T.rk id) T.ip with
    | none => .done (some .uuidMismatch)
    | some (changed, ipChanged) => .count h changed ipChanged
  | .count h changed ipChanged => .countClock h changed ipChanged (s.recs h)
  | .countClock h changed ipChanged p => match bumpRegPk e.now p.regPk with
    | none => .done (some .tooFrequent)
    | some n => .stamp h changed ipChanged n
  | .stamp h changed ipChanged n => .bump h changed ipChanged (n, e.now)
  | .bump h changed ipChanged _ => if ipChanged then .note h changed else afterNote T h changed
  | .note h changed => afterNote T h changed
  | .write h =>
    if (s.recs h).guid.isEmpty then .insertRow h else .updateRow h (s.recs h).guid
  | .insertRow h =>
    if e.insertFails then .done (some .ok)
    else match Database.insertPeer s.db ⟨e.guid.bytes, id, T.uuid, T.pk, J.toString ⟨T.ip⟩⟩ with
      | none => .done (some .ok)
      | some _ => .setGuid h e.guid.bytes
  | .setGuid _ _ => .done (some .ok)
  | .updateRow _ _ => .done (some .ok)
  | .done res => .done res

/-- The section a task enters at a point. -/
def section? : Point → Option PeerOp
  | .ipCheck => some (.checkIpBlocker T.ip id)
  | .mapGet => some (.mapGet id)
  | .dbGet => some (.dbGetPeer id)
  | .loadClock _ => some .now
  | .load p => some (.mapInsert id p)
  | .getOrInsert => some (.mapGetOrInsert id)
  | .check h => some (.readPeer h)
  | .count h _ _ => some (.readPeer h)
  | .countClock _ _ _ _ => some .now
  | .stamp _ _ _ _ => some .now
  | .bump h _ _ v => some (.setRegPk h v)
  | .note _ _ => some (.recordIpChange id T.ip)
  | .write h => some (.writeReg h T.addr T.uuid T.pk T.ip)
  | .insertRow _ => some (.dbInsertPeer id T.uuid T.pk (J.toString ⟨T.ip⟩))
  | .setGuid h g => some (.setGuid h g)
  | .updateRow _ g => some (.dbUpdatePk g id T.pk (J.toString ⟨T.ip⟩))
  | .done _ => none

/-- The store after a step. -/
def store (e : Env) (s : PeerStore) (pt : Point) : PeerStore :=
  match pt.section? J id T with
  | some o => (o.exec e s).1
  | none => s

theorem task_eq_prog_first : T.task J id = (first id T).prog J id T := by
  by_cases h₁ : (T.uuid.isEmpty || T.pk.isEmpty) = true
  · have hf : first id T = .done none := if_pos h₁
    rw [hf]
    exact if_pos h₁
  · by_cases h₂ : (decide (byteLen id < 6) || decide (byteLen id > MAX_PEER_ID_LEN)) = true
    · have hf : first id T = .done (some .uuidMismatch) := (if_neg h₁).trans (if_pos h₂)
      rw [hf]
      exact (if_neg h₁).trans (if_pos h₂)
    · have hf : first id T = .ipCheck := (if_neg h₁).trans (if_neg h₂)
      rw [hf]
      exact (if_neg h₁).trans (if_neg h₂)

/-! ### A step leads from one point to the next -/

variable {J id T}

theorem ipCheck_next (pass : Bool) :
    (if !pass then .ret (some .tooFrequent) else PeerMap.getOr J id >>= fromCheck J id T) =
      (if pass then mapGet else done (some .tooFrequent)).prog J id T := by
  cases pass <;> rfl

theorem getOr_miss :
    (.op (.dbGetPeer id) fun v : Except Unit (Option Row) =>
      ((match v with
        | .ok (some v) =>
          .op .now fun now : Instant =>
            .op (.mapInsert id (v.load J now)) fun h : Handle => .ret (some h)
        | _ => .ret none : Prog PeerSig (Option Handle)) >>= fun p =>
        match p with
        | some p => .ret p
        | none => .op (.mapGetOrInsert id) fun p : Handle => .ret p) >>= fromCheck J id T) =
      dbGet.prog J id T := by
  unfold prog
  congr 1
  funext v
  rcases v with _ | v
  · rfl
  · cases v <;> rfl

theorem fromWrite_next (h : Handle) (g : Bytes) :
    (do
      let _ ← (if g.isEmpty then
          .op (.dbInsertPeer id T.uuid T.pk (J.toString ⟨T.ip⟩)) fun r : Except Unit Bytes =>
            match r with
            | .error _ => .ret .serverError
            | .ok guid => .op (.setGuid h guid) fun _ => .ret .ok
        else
          .op (.dbUpdatePk g id T.pk (J.toString ⟨T.ip⟩)) fun r : Except Unit Unit =>
            match r with
            | .error _ => .ret .serverError
            | .ok _ => .ret .ok : Prog PeerSig RegisterPkResult)
      .ret (some .ok)) =
      (if g.isEmpty then insertRow h else updateRow h g).prog J id T := by
  cases hg : g.isEmpty with
  | true =>
    simp only [if_true, prog, fromInsertRow, Prog.op_bind]
    congr 1
    funext r
    cases r <;> rfl
  | false =>
    simp only [Bool.false_eq_true, if_false, prog, fromUpdateRow, Prog.op_bind]
    congr 1
    funext r
    cases r <;> rfl

theorem fromNote_eq (h : Handle) (changed : Bool) :
    fromNote J id T h changed = (afterNote T h changed).prog J id T := by
  unfold fromNote afterNote
  split <;> rfl

/-- **A task at a point enters its section, and is then at the next point.** -/
theorem prog_cases (J : Serde) (id : String) (T : Claimant) (pt : Point) :
    (∃ res, pt = .done res) ∨
      ∃ o k, pt.section? J id T = some o ∧ pt.prog J id T = .op o k ∧
        ∀ e s, k (PeerOp.exec e o s).2 = (pt.next J id T e s).prog J id T := by
  -- by the point, then by what the section answers; both sides are then one program
  cases pt with
  | done res => exact Or.inl ⟨res, rfl⟩
  | ipCheck =>
    exact Or.inr ⟨_, _, rfl, rfl, fun e s => ipCheck_next (s.checkIpBlocker e.now T.ip id).2⟩
  | mapGet =>
    refine Or.inr ⟨_, _, rfl, rfl, ?_⟩
    intro e s
    simp only [PeerOp.exec, next]
    cases s.map.lookup id with
    | some h => rfl
    | none =>
      -- `get` failed in memory, and `get_or` waits for its answer
      exact getOr_miss
  | dbGet =>
    refine Or.inr ⟨_, _, rfl, rfl, ?_⟩
    intro e s
    simp only [PeerOp.exec, next]
    cases e.getFails with
    | true => rfl
    | false =>
      simp only [Bool.false_eq_true, if_false]
      cases findRow s.db id with
      | some v => rfl
      | none => rfl
  | getOrInsert =>
    refine Or.inr ⟨_, _, rfl, rfl, ?_⟩
    intro e s
    simp only [PeerOp.exec, next, PeerStore.slot]
    cases s.map.lookup id with
    | some h => rfl
    | none => rfl
  | check h =>
    refine Or.inr ⟨_, _, rfl, rfl, ?_⟩
    intro e s
    simp only [PeerOp.exec, next]
    cases regCheck (s.recs h) (T.rk id) T.ip with
    | none => rfl
    | some c => rfl
  | count h changed ipChanged =>
    refine Or.inr ⟨_, _, rfl, rfl, ?_⟩
    intro e s
    rfl
  | countClock h changed ipChanged p =>
    refine Or.inr ⟨_, _, rfl, rfl, ?_⟩
    intro e s
    simp only [PeerOp.exec, next]
    cases bumpRegPk e.now p.regPk with
    | none => rfl
    | some n => rfl
  | bump h changed ipChanged v =>
    refine Or.inr ⟨_, _, rfl, rfl, ?_⟩
    intro e s
    simp only [next]
    cases ipChanged with
    | true => rfl
    | false => exact fromNote_eq h changed
  | note h changed => exact Or.inr ⟨_, _, rfl, rfl, fun e s => fromNote_eq h changed⟩
  | write h =>
    exact Or.inr ⟨_, _, rfl, rfl, fun e s => fromWrite_next h (s.recs h).guid⟩
  | insertRow h =>
    refine Or.inr ⟨_, _, rfl, rfl, ?_⟩
    intro e s
    simp only [PeerOp.exec, next]
    cases e.insertFails with
    | true => rfl
    | false =>
      simp only [Bool.false_eq_true, if_false]
      cases Database.insertPeer s.db ⟨e.guid.bytes, id, T.uuid, T.pk, J.toString ⟨T.ip⟩⟩ with
      | none => rfl
      | some db => rfl
  | _ => exact Or.inr ⟨_, _, rfl, rfl, fun e s => rfl⟩

/-- **A step leads from one point to the next.** -/
theorem step_point {ι : Type} [DecidableEq ι]
    {c : Config PeerSig PeerStore ι (Option RegisterPkResult)} {i : ι} {pt : Point}
    (hi : c.task i = pt.prog J id T) (e : Env) :
    c.step peerMachine i e =
      { st := pt.store J id T e c.st
        task := Function.update c.task i ((pt.next J id T e c.st).prog J id T) } := by
  rcases prog_cases J id T pt with ⟨res, rfl⟩ | ⟨o, k, ho, hp, hk⟩
  · rw [Config.step_ret _ hi]
    have hself : Function.update c.task i ((done res).prog J id T) = c.task := by
      rw [← hi, Function.update_eq_self]
    simp only [store, section?, next, hself]
  · rw [hp] at hi
    rw [Config.step_op _ hi, ← hk e c.st]
    simp only [store, ho]
    rfl

end Prog
end Point

end RustdeskServer
