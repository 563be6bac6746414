import RustdeskServer.IpBlocker
import RustdeskServer.Routing

/-!
# How often an id may register

`handle_register_pk` keeps a counter in the record of each id, which starts again after more
than six seconds.  Every registration that is answered `ok` is counted, so no more than three
of them come within seven seconds.

The record of an id stays the same one as long as the process runs: memory is never cleaned,
and messages are handled one at a time.

## Main definitions

* `PeerStore.regCounter` — the counter in the record of an id.
* `okTimes` — when an id was answered `ok`.

## Main results

* `regCounter_step` — what an input does to the counter of an id.
* `registration_rate_limits` — **the limits hold over every run.**
-/

namespace RustdeskServer

open Atomic

/-- The counter in the record of an id. -/
def PeerStore.regCounter (s : PeerStore) (id : String) : Option (ℕ × Instant) :=
  (s.peer? id).map Peer.regPk

/-- The input is a registration of the id, and it is answered `ok`. -/
def okFor (E : Ext) (s : Server) (x : SrvEnv × Input) (id : String) : Bool :=
  match x.2.registerPk? with
  | some (rk, addr, ws) =>
    decide (rk.id = id ∧ answer E.serde x.1.toEnv s.pm rk addr ws = some .ok)
  | none => false

/-- When the id was answered `ok`, along a run. -/
def okTimes (E : Ext) (cfg : Settings) (id : String) : Server → List (SrvEnv × Input) → List Instant
  | _, [] => []
  | s, x :: xs =>
    (if okFor E s x id then [x.1.now] else []) ++ okTimes E cfg id (s.step E cfg x) xs

/-- A process does not start again by itself. -/
def Input.isRestart : Input → Bool
  | .restart _ _ _ => true
  | _ => false

/-! ### Memory is never cleaned -/

/-- No id leaves the map, and handles stay where they belong. -/
def MapStays (s t : PeerStore) : Prop :=
  (∀ id, s.map.lookup id ≠ none → t.map.lookup id ≠ none) ∧ (s.HandlesOk → t.HandlesOk)

theorem MapStays.refl (s : PeerStore) : MapStays s s := ⟨fun _ h => h, fun h => h⟩

theorem MapStays.trans {s t u : PeerStore} (h₁ : MapStays s t) (h₂ : MapStays t u) :
    MapStays s u :=
  ⟨fun id h => h₂.1 id (h₁.1 id h), fun h => h₂.2 (h₁.2 h)⟩

theorem lookup_alloc_ne_none (s : PeerStore) (id : String) (p : Peer) {id' : String}
    (h : s.map.lookup id' ≠ none) : (s.alloc id p).map.lookup id' ≠ none := by
  by_cases hid : id' = id
  · subst hid
    simp [PeerStore.alloc]
  · simpa [PeerStore.alloc, AList.lookup_insert_ne hid] using h

theorem mapStays_exec (e : Env) (o : PeerOp) (s : PeerStore) : MapStays s (o.exec e s).1 := by
  refine ⟨?_, fun hs => handlesOk_exec hs e o⟩
  intro id hid
  by_cases hk : o.KeepsMap = true
  · rw [(PeerOp.exec_keepsMap hk e s).1]
    exact hid
  · cases o with
    | mapInsert id' p => exact lookup_alloc_ne_none s id' p hid
    | mapGetOrInsert id' =>
      simp only [PeerOp.exec]
      cases s.map.lookup id' with
      | some h => exact hid
      | none => exact lookup_alloc_ne_none s id' _ hid
    | _ => exact absurd rfl hk

section Step

variable {E : Ext} {cfg : Settings}

theorem mapStays_srvExec (e : SrvEnv) (o : SrvOp) (s : Server) :
    MapStays s.pm ((srvMachine E cfg).exec e o s).1.pm := by
  cases o with
  | peer cause o => exact mapStays_exec e.toEnv o s.pm
  | pushWs cause addr msg =>
    simp only [srvMachine_exec, SrvOp.exec]
    split
    · exact .refl s.pm
    · split <;> exact .refl s.pm
  | guardDrop addr c =>
    simp only [srvMachine_exec, SrvOp.exec]
    split <;> exact .refl s.pm
  | _ => exact .refl s.pm

theorem mapStays_run {α : Type} (e : SrvEnv) (p : Prog SrvSig α) (s : Server) :
    MapStays s.pm ((srvMachine E cfg).run e p s).1.pm := by
  refine (srvMachine E cfg).run_inv (P := fun _ => True)
    (R := fun s t : Server => MapStays s.pm t.pm) (fun s => .refl s.pm) MapStays.trans e
    (fun o s _ => mapStays_srvExec e o s) ?_ s
  induction p with
  | ret a => trivial
  | op o k ih => exact ⟨trivial, ih⟩

theorem mapStays_step (s : Server) {x : SrvEnv × Input} (hx : x.2.isRestart = false) :
    MapStays s.pm (s.step E cfg x).pm := by
  obtain ⟨e, i⟩ := x
  cases i with
  | datagram addr frame => exact mapStays_run e _ s
  | frame snap addr ws c sink frame => exact mapStays_run e _ s
  | online peers => exact mapStays_run e _ s
  | restart mustLogin alwaysUseRelay conf => cases hx

/-! ### The counter of an id -/

/-- The counter of `handle_register_pk` is a counter that starts again after a pause. -/
theorem hit_regPk (now : Instant) (r : ℕ × Instant) :
    Plain.hit 2 7000 r now = (bumpRegPk now r).map fun n => (n, now) := by
  have hiff : elapsedSecs now r.2 > 6 ↔ 7000 ≤ now - r.2 := elapsedSecs_gt_iff now r.2 6
  unfold Plain.hit bumpRegPk
  by_cases hpause : elapsedSecs now r.2 > 6
  · rw [if_pos (hiff.mp hpause), if_pos hpause]
    rfl
  · rw [if_neg fun h => hpause (hiff.mpr h), if_neg hpause]
    by_cases hlimit : r.1 > 2
    · rw [if_pos hlimit, if_pos hlimit]
      rfl
    · rw [if_neg hlimit, if_neg hlimit]
      rfl

/-- What an input does to the counter of an id: an `ok` is a hit, nothing else changes it, and
it begins with a hit or with the record. -/
inductive CounterStep (now : Instant) (c c' : Option (ℕ × Instant)) : Bool → Prop
  /-- The id is answered `ok`: the counter in force is hit. -/
  | ok {r : ℕ × Instant} {n : ℕ} (hc : ∀ r' ∈ c, r' = r) (hr : c = none → r.2 ≤ now)
      (hb : bumpRegPk now r = some n) (hc' : c' = some (n, now)) : CounterStep now c c' true
  /-- The counter stays. -/
  | stays (hc : c' = c) : CounterStep now c c' false
  /-- There is a record now. -/
  | made (hc : c = none) (hc' : ∀ r ∈ c', r.2 ≤ now) : CounterStep now c c' false

theorem regCounter_touched_self {s t : PeerStore} {id : String} {q : Peer}
    (h : Touched s t id q) : t.regCounter id = some q.regPk := by
  rw [PeerStore.regCounter, h.peer?_self]
  rfl

theorem regCounter_touched_other {s t : PeerStore} {id id' : String} {q : Peer}
    (h : Touched s t id q) (hs : s.HandlesOk) (hne : id' ≠ id) :
    t.regCounter id' = s.regCounter id' := by
  rw [PeerStore.regCounter, PeerStore.regCounter, h.peer?_other hs hne]

theorem getExpiredTime_le (now : Instant) : getExpiredTime now ≤ now := by
  unfold getExpiredTime
  split
  · exact Nat.sub_le now 3600000
  · exact le_refl now

/-- The counter of the record that a lookup finds: the one in memory, or a new one. -/
theorem regCounter_found (J : Serde) (e : Env) (s : PeerStore) (id : String) :
    (∀ r ∈ s.regCounter id, r = (s.found J e id).regPk) ∧
      (s.regCounter id = none → (s.found J e id).regPk.2 ≤ e.now) := by
  have hfound := found_spec J e s id
  generalize s.found J e id = p at hfound
  cases hfound with
  | cached hm => simp [PeerStore.regCounter, PeerStore.peer?, hm]
  | row hm hget hr =>
    refine ⟨by simp [PeerStore.regCounter, PeerStore.peer?, hm], fun _ => ?_⟩
    exact getExpiredTime_le e.now
  | fresh hm hget =>
    refine ⟨by simp [PeerStore.regCounter, PeerStore.peer?, hm], fun _ => ?_⟩
    exact getExpiredTime_le e.now

/-- A record is found and nothing is counted. -/
theorem counterStep_looked (J : Serde) {e : Env} {s t : PeerStore} {id' : String} {q : Peer}
    (hs : s.HandlesOk) (ht : Touched s t id' q) (hq : q.regPk = (s.found J e id').regPk)
    (id : String) : CounterStep e.now (s.regCounter id) (t.regCounter id) false := by
  by_cases hid : id = id'
  · subst hid
    obtain ⟨hsame, hnew⟩ := regCounter_found J e s id
    rw [regCounter_touched_self ht, hq]
    cases hc : s.regCounter id with
    | none =>
      refine .made rfl ?_
      intro r hr
      rw [← Option.mem_some_iff.mp hr]
      exact hnew hc
    | some r => exact .stays (by rw [hsame r hc])
  · exact .stays (regCounter_touched_other ht hs hid)

/-- The record that is found is hit. -/
theorem counterStep_ok {J : Serde} {e : Env} {s t : PeerStore} {id : String} {q : Peer} {n : ℕ}
    (hb : bumpRegPk e.now (s.found J e id).regPk = some n) (ht : Touched s t id q)
    (hq : q.regPk = (n, e.now)) :
    CounterStep e.now (s.regCounter id) (t.regCounter id) true := by
  obtain ⟨hsame, hnew⟩ := regCounter_found J e s id
  refine .ok hsame hnew hb ?_
  rw [regCounter_touched_self ht, hq]

theorem writeBack_regPk (J : Serde) (e : Env) (db : List Row) (p : Peer) (rk : RegisterPk)
    (addr : SocketAddr) : (writeBack J e db p rk addr).1.regPk = p.regPk := by
  unfold writeBack
  cases writeRow J e db p.guid rk addr.ip.toText with
  | none => rfl
  | some w => rfl

/-- A registration, for the id it is for and for the others. -/
theorem counterStep_reg {J : Serde} {e : Env} {rk : RegisterPk} {addr : SocketAddr} {ws : Bool}
    {s t : PeerStore} {res : Option RegisterPkResult} (hs : s.HandlesOk)
    (h : RegStep J e rk addr ws s t res) (id : String) :
    CounterStep e.now (s.regCounter id) (t.regCounter id)
      (decide (rk.id = id ∧ res = some .ok)) := by
  cases h with
  | refused hadm hsame hres =>
    rw [decide_eq_false fun h => hres h.2]
    refine .stays ?_
    rw [PeerStore.regCounter, PeerStore.regCounter, PeerStore.peer?, PeerStore.peer?, hsame.map,
      hsame.recs]
  | rejected hadm ht hdb hwhy hres =>
    rw [decide_eq_false fun h => hres h.2]
    exact counterStep_looked J hs ht rfl id
  | kept hadm hc hb hws ht hdb =>
    by_cases hid : rk.id = id
    · subst hid
      rw [decide_eq_true ⟨rfl, rfl⟩]
      exact counterStep_ok hb ht rfl
    · rw [decide_eq_false fun h => hid h.1]
      exact .stays (regCounter_touched_other ht hs fun h => hid h.symm)
  | written hadm hc hb hw ht hdb =>
    by_cases hid : rk.id = id
    · subst hid
      rw [decide_eq_true ⟨rfl, rfl⟩]
      exact counterStep_ok hb ht (writeBack_regPk J e _ _ rk addr)
    · rw [decide_eq_false fun h => hid h.1]
      exact .stays (regCounter_touched_other ht hs fun h => hid h.symm)

/-- **What an input does to the counter of an id.** -/
theorem regCounter_step {s : Server} {x : SrvEnv × Input} (hs : s.pm.HandlesOk)
    (hx : x.2.isRestart = false) (id : String) :
    CounterStep x.1.now (s.pm.regCounter id) ((s.step E cfg x).pm.regCounter id)
      (okFor E s x id) := by
  have hno : x.2.registerPk? = none → okFor E s x id = false := by
    intro hi
    rw [okFor, hi]
  cases pmStep_step E cfg s x with
  | reg hi h =>
    rw [okFor, hi]
    exact counterStep_reg hs h id
  | refresh hi id' addr h =>
    rw [hno hi, h, run_updateAddr]
    cases hm : s.pm.map.lookup id' with
    | none => exact .stays rfl
    | some hd =>
      refine counterStep_looked E.serde hs (touched_modify hm _) ?_ id
      rw [PeerStore.found, hm]
      unfold Peer.refresh
      split <;> rfl
  | loads hi h =>
    rw [hno hi]
    rcases h with h | ⟨id', h⟩
    · rw [h]
      exact .stays rfl
    · rw [h, run_get]
      cases hm : s.pm.map.lookup id' with
      | some hd => exact .stays rfl
      | none =>
        dsimp only
        split
        · exact .stays rfl
        · next hget =>
          split
          · next v hrow =>
            refine counterStep_looked E.serde hs (touched_alloc hm _) ?_ id
            rw [PeerStore.found, hm]
            simp [loaded, hget, hrow]
          · exact .stays rfl
  | restart hi h =>
    -- nothing leaves the map, so there was nothing in it
    rw [hno hi]
    refine .made ?_ ?_
    · have hempty : s.pm.map.lookup id = none := by
        by_contra hne
        have hstays := (@mapStays_step E cfg s x hx).1 id hne
        rw [h] at hstays
        exact hstays rfl
      simp [PeerStore.regCounter, PeerStore.peer?, hempty]
    · rw [h]
      intro r hr
      simp [PeerStore.regCounter, PeerStore.peer?, PeerStore.restart, PeerStore.start] at hr

/-! ### Along a run -/

/-- What holds of the counter of an id at the time `now`, when it was answered `ok` at these
times. -/
def RegInv (now : Instant) (times : List Instant) : Option (ℕ × Instant) → Prop
  | none => times = []
  | some c => c.2 ≤ now ∧ Plain.Counts 7000 0 3 times c

theorem RegInv.step {now now' : Instant} {times : List Instant} {c c' : Option (ℕ × Instant)}
    {ok : Bool} (h : RegInv now times c) (hnow : now ≤ now') (hstep : CounterStep now' c c' ok) :
    RegInv now' (times ++ if ok then [now'] else []) c' := by
  cases hstep with
  | @ok r n hc hr hb hc' =>
    have hhit : Plain.hit 2 7000 r now' = some (n, now') := by
      rw [hit_regPk, hb]
      rfl
    rw [hc', if_pos rfl]
    refine ⟨le_refl now', ?_⟩
    cases c with
    | none =>
      rw [show times = [] from h]
      exact (Plain.Counts.nil r).accept (by decide) (hr rfl) hhit
    | some r' =>
      obtain rfl := hc r' rfl
      exact h.2.accept (by decide) (le_trans h.1 hnow) hhit
  | stays hc =>
    rw [hc, if_neg Bool.false_ne_true, List.append_nil]
    cases c with
    | none => exact h
    | some r => exact ⟨le_trans h.1 hnow, h.2⟩
  | made hc hc' =>
    rw [hc] at h
    rw [if_neg Bool.false_ne_true, List.append_nil, show times = [] from h]
    cases c' with
    | none => rfl
    | some r => exact ⟨hc' r rfl, Plain.Counts.nil r⟩

/-- No more than three registrations that are answered `ok` follow each other within seven
seconds. -/
theorem okTimes_most (id : String) (xs : List (SrvEnv × Input)) {s : Server} {now : Instant}
    {times : List Instant} (hs : s.pm.HandlesOk) (hinv : RegInv now times (s.pm.regCounter id))
    (hnow : ∀ x ∈ xs, now ≤ x.1.now) (htimes : xs.Pairwise fun x y => x.1.now ≤ y.1.now)
    (hup : ∀ x ∈ xs, x.2.isRestart = false) {l : List Instant}
    (hl : l <:+: times ++ okTimes E cfg id s xs) (hclose : Plain.Close 7000 l) : l.length ≤ 3 := by
  induction xs generalizing s now times with
  | nil =>
    rw [okTimes, List.append_nil] at hl
    cases hc : s.pm.regCounter id with
    | none =>
      rw [hc] at hinv
      rw [show times = [] from hinv] at hl
      rw [List.infix_nil.mp hl]
      exact Nat.zero_le 3
    | some c =>
      rw [hc] at hinv
      exact hinv.2.most l hl hclose
  | cons x xs ih =>
    obtain ⟨hafter, hxs⟩ := List.pairwise_cons.mp htimes
    have hx := hup x List.mem_cons_self
    have hstep := hinv.step (hnow x List.mem_cons_self) (@regCounter_step E cfg s x hs hx id)
    rw [okTimes, ← List.append_assoc] at hl
    exact ih ((mapStays_step s hx).2 hs) hstep hafter hxs
      (fun y hy => hup y (List.mem_cons_of_mem x hy)) hl

theorem okTimes_sublist (id : String) (s : Server) (xs : List (SrvEnv × Input)) :
    (okTimes E cfg id s xs).Sublist (xs.map fun x => x.1.now) := by
  induction xs generalizing s with
  | nil => exact List.Sublist.refl []
  | cons x xs ih =>
    rw [okTimes, List.map_cons]
    split
    · exact (ih _).cons_cons _
    · exact (ih _).cons _

end Step

/-- **The limits hold over every run.**  An address has no more than 32 calls accepted that
follow each other within 61 seconds; 61 seconds after the last call that was counted, and
when its calls are 61 seconds apart, it is not refused by the burst counter.  An id has no
more than three registrations answered `ok` in any time shorter than seven seconds. -/
theorem registration_rate_limits (E : Ext) (cfg : Settings) (db : List Row)
    (calls : List BlockerCall) (hcalls : calls.Pairwise fun x y => x.now ≤ y.now)
    (mustLogin alwaysUseRelay : Bool) (conf : Snapshot) (xs : List (SrvEnv × Input))
    (htimes : xs.Pairwise fun x y => x.1.now ≤ y.1.now)
    (hup : ∀ x ∈ xs, x.2.isRestart = false) :
    (∀ ip, BurstLimited (.start db) calls ip) ∧
      ∀ id t, ((okTimes E cfg id (.start db mustLogin alwaysUseRelay conf) xs).filter
        fun x => t ≤ x ∧ x < t + 7000).length ≤ 3 := by
  refine ⟨fun ip => burstLimited_run db hcalls ip, ?_⟩
  intro id t
  have hstart : RegInv 0 [] ((Server.start db mustLogin alwaysUseRelay conf).pm.regCounter id) :=
    rfl
  have hhandles : (Server.start db mustLogin alwaysUseRelay conf).pm.HandlesOk := by
    intro id' h hm
    simp [Server.start, PeerStore.start] at hm
  have hsorted : (okTimes E cfg id (.start db mustLogin alwaysUseRelay conf) xs).Pairwise
      (· ≤ ·) := by
    apply List.Pairwise.sublist (okTimes_sublist id _ xs)
    exact List.pairwise_map.mpr htimes
  apply Plain.length_window_le _ hsorted
  intro l hl hclose
  exact okTimes_most id xs hhandles hstart (fun x _ => Nat.zero_le _) htimes hup hl hclose

/-- One id registers four times within three seconds, over UDP. -/
def fourRegistrations : List (SrvEnv × Input) :=
  [0, 1000, 2000, 3000].map fun now =>
    (.ok now 1, .datagram ⟨.ofOctets 192 0 2 7, 21116⟩ (some (.registerPk ⟨"123456", [1], [2]⟩)))

/-- The fourth is refused, and so is the call of an address that has made 32. -/
theorem registration_rate_limits_reached :
    (okTimes .sample ⟨"", "", 0⟩ "123456" (.start [] false false .blank) fourRegistrations =
        [0, 1000, 2000] ∧
      acceptedTimes (ofIp "a" (blockerTrace (.start []) (List.replicate 33 ⟨0, "a", "x"⟩))) =
        List.replicate 32 0) ∧
    (∀ ip, BurstLimited (.start []) (List.replicate 33 ⟨0, "a", "x"⟩) ip) ∧
      ∀ id t, ((okTimes .sample ⟨"", "", 0⟩ id (.start [] false false .blank)
        fourRegistrations).filter fun x => t ≤ x ∧ x < t + 7000).length ≤ 3 :=
  ⟨⟨by decide +kernel, by decide +kernel⟩,
    registration_rate_limits .sample ⟨"", "", 0⟩ [] (List.replicate 33 ⟨0, "a", "x"⟩)
      (by decide +kernel) false false .blank fourRegistrations (by decide +kernel)
      (by decide +kernel)⟩

end RustdeskServer
