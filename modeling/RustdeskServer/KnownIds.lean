import Mathlib.Data.Finset.Card
import RustdeskServer.IpBlocker

/-!
# Which ids of an address are known

When three hundred ids have registered from an address within a day, a new one is refused.
An id that has registered before is not new; but the entry of an address does not note the id
of the call that makes it.  So there is one id of each address that may be refused although
it was accepted: the first.

## Main definitions

* `notedIds` — the ids whose calls were accepted, but for the first call.

## Main results

* `noted_run` — within a day the entry holds just these ids.
* `known_id_kept_iff` — **when a call for an id that was accepted before is refused for the
  burst counter alone.**
* `first_id_refused` — a run in which it is refused as new.
-/

namespace RustdeskServer

/-- A day, in milliseconds. -/
def DAY_MILLIS : ℕ := DAY_SECONDS * 1000

/-- The ids of the calls that were accepted after the first one. -/
def notedIds (tr : List (BlockerCall × Verdict)) : List String :=
  (tr.tail.filter fun x => x.2 = .accepted).map fun x => x.1.id

theorem notedIds_concat {tr : List (BlockerCall × Verdict)} (hne : tr ≠ []) (c : BlockerCall)
    (v : Verdict) :
    notedIds (tr ++ [(c, v)]) = notedIds tr ++ if v = .accepted then [c.id] else [] := by
  unfold notedIds
  rw [List.tail_append_of_ne_nil hne, List.filter_append, List.map_append]
  cases v <;> simp

/-- Calls in order, all of them within a day. -/
def WithinDay (calls : List BlockerCall) : Prop :=
  calls.Pairwise fun x y => x.now ≤ y.now ∧ y.now < x.now + DAY_MILLIS

instance (calls : List BlockerCall) : Decidable (WithinDay calls) :=
  inferInstanceAs (Decidable (calls.Pairwise _))

/-- What holds of the entry of an address after its calls within a day. -/
def NotedInv (calls : List BlockerCall) : Option IpBlock → Prop
  | none => calls = []
  | some e =>
    calls ≠ [] ∧ e.ids.1.Nodup ∧ (∀ id, id ∈ e.ids.1 ↔ id ∈ notedIds (entryTrace none calls)) ∧
      ∃ c ∈ calls, e.ids.2 = c.now

theorem elapsedSecs_le_day {now t : ℕ} (h : now < t + DAY_MILLIS) :
    ¬elapsedSecs now t > DAY_SECONDS := by
  intro hgt
  have hge : 86401000 ≤ now - t := (elapsedSecs_gt_iff now t DAY_SECONDS).mp hgt
  have hlt : now < t + 86400000 := h
  omega

/-- A call within a day of the last that was noted: the burst counter refuses it, or the id is
noted unless it is new and three hundred are. -/
theorem IpBlock.after_noted {old : IpBlock} {now : Instant} (id : String)
    (hday : ¬elapsedSecs now old.ids.2 > DAY_SECONDS) :
    (IpBlock.after (some old) now id = (old, .burst)) ∨
      ∃ burst, IpBlock.after (some old) now id =
        if old.ids.1.length > 300 then
          (⟨burst, old.ids⟩, if id ∈ old.ids.1 then .accepted else .asNew)
        else
          (⟨burst, (if id ∈ old.ids.1 then old.ids.1 else old.ids.1 ++ [id], now)⟩, .accepted) := by
  cases hhit : Plain.hit 30 BURST_PAUSE old.burst now with
  | none =>
    left
    simp only [IpBlock.after, hhit]
  | some burst =>
    right
    refine ⟨burst, ?_⟩
    simp only [IpBlock.after, hhit, hday, not_false_eq_true, true_and, if_false]

theorem entryTrace_ne_nil {entry : Option IpBlock} {calls : List BlockerCall} (h : calls ≠ []) :
    entryTrace entry calls ≠ [] := by
  cases calls with
  | nil => exact absurd rfl h
  | cons c calls => exact List.cons_ne_nil _ _

/-- **Within a day the entry holds the ids that were accepted, but for the first call.** -/
theorem noted_run (calls : List BlockerCall) (hday : WithinDay calls) :
    NotedInv calls (entryRun none calls) := by
  induction calls using List.reverseRecOn with
  | nil => rfl
  | append_singleton calls c ih =>
    obtain ⟨hcalls, -, hlast⟩ := List.pairwise_append.mp hday
    have hinv := ih hcalls
    have hrun : entryRun none (calls ++ [c]) =
        some (IpBlock.after (entryRun none calls) c.now c.id).1 := by
      rw [entryRun, List.foldl_append]
      rfl
    have hc : c ∈ calls ++ [c] := List.mem_append_right _ (List.mem_singleton_self c)
    rw [hrun, NotedInv, entryTrace_concat]
    cases hentry : entryRun none calls with
    | none =>
      rw [hentry, NotedInv] at hinv
      subst hinv
      refine ⟨by simp, List.nodup_nil, ?_, c, hc, rfl⟩
      intro id
      simp [IpBlock.after, notedIds, entryTrace]
    | some e =>
      rw [hentry, NotedInv] at hinv
      obtain ⟨hne, hnodup, hmem, c₀, hc₀, htime⟩ := hinv
      refine ⟨by simp, ?_⟩
      have hd : ¬elapsedSecs c.now e.ids.2 > DAY_SECONDS := by
        rw [htime]
        exact elapsedSecs_le_day (hlast c₀ hc₀ c (List.mem_singleton_self c)).2
      have hold : c₀ ∈ calls ++ [c] := List.mem_append_left _ hc₀
      rw [notedIds_concat (entryTrace_ne_nil hne)]
      rcases IpBlock.after_noted c.id hd with hburst | ⟨burst, hafter⟩
      · rw [hburst]
        exact ⟨hnodup, by simpa using hmem, c₀, hold, htime⟩
      · rw [hafter]
        by_cases hfull : e.ids.1.length > 300
        · simp only [if_pos hfull]
          refine ⟨hnodup, ?_, c₀, hold, htime⟩
          intro id
          by_cases hid : c.id ∈ e.ids.1
          · rw [if_pos hid, if_pos rfl, List.mem_append, List.mem_singleton, ← hmem]
            exact (or_iff_left_of_imp fun h => h ▸ hid).symm
          · simpa [hid] using hmem id
        · simp only [if_neg hfull, if_true]
          by_cases hid : c.id ∈ e.ids.1
          · simp only [if_pos hid]
            refine ⟨hnodup, ?_, c, hc, rfl⟩
            intro id
            rw [List.mem_append, List.mem_singleton, ← hmem]
            exact (or_iff_left_of_imp fun h => h ▸ hid).symm
          · simp only [if_neg hid]
            refine ⟨?_, ?_, c, hc, rfl⟩
            · refine List.nodup_append.mpr ⟨hnodup, List.nodup_singleton _, ?_⟩
              intro a ha b hb hab
              rw [List.mem_singleton.mp hb] at hab
              exact hid (hab ▸ ha)
            · intro id
              rw [List.mem_append, List.mem_append, hmem]

theorem WithinDay.filter {calls : List BlockerCall} (h : WithinDay calls) (ip : String) :
    WithinDay (calls.filter fun c => c.ip = ip) :=
  List.Pairwise.filter _ h

/-- A call is refused as new when its id is not noted and more than three hundred are. -/
theorem verdict_asNew_iff (db : List Row) {calls : List BlockerCall} {c : BlockerCall}
    (hday : WithinDay (calls ++ [c])) :
    (blockerRun (.start db) calls).verdict c = .asNew ↔
      (blockerRun (.start db) calls).verdict c ≠ .burst ∧
        c.id ∉ notedIds (ofIp c.ip (blockerTrace (.start db) calls)) ∧
        300 < (notedIds (ofIp c.ip (blockerTrace (.start db) calls))).toFinset.card := by
  obtain ⟨hcalls, -, hlast⟩ := List.pairwise_append.mp hday
  have hinv := noted_run _ (WithinDay.filter hcalls c.ip)
  rw [verdict_blockerRun, ofIp, trace_of_ip]
  change (IpBlock.after (entryRun none _) c.now c.id).2 = .asNew ↔
    (IpBlock.after (entryRun none _) c.now c.id).2 ≠ .burst ∧
      c.id ∉ notedIds (entryTrace none _) ∧ 300 < (notedIds (entryTrace none _)).toFinset.card
  cases hentry : entryRun none (calls.filter fun x => x.ip = c.ip) with
  | none =>
    rw [hentry, NotedInv] at hinv
    rw [hinv]
    simp [IpBlock.after, notedIds, entryTrace]
  | some e =>
    rw [hentry, NotedInv] at hinv
    obtain ⟨-, hnodup, hmem, c₀, hc₀, htime⟩ := hinv
    -- as many as are noted
    have hcard : (notedIds (entryTrace none (calls.filter fun x => x.ip = c.ip))).toFinset.card =
        e.ids.1.length := by
      rw [← List.toFinset_card_of_nodup hnodup]
      congr 1
      ext id
      rw [List.mem_toFinset, List.mem_toFinset, hmem]
    have hd : ¬elapsedSecs c.now e.ids.2 > DAY_SECONDS := by
      rw [htime]
      exact elapsedSecs_le_day
        (hlast c₀ (List.mem_of_mem_filter hc₀) c (List.mem_singleton_self c)).2
    rw [hcard, ← hmem]
    rcases IpBlock.after_noted c.id hd with hburst | ⟨burst, hafter⟩
    · rw [hburst]
      simp
    · rw [hafter]
      by_cases hfull : e.ids.1.length > 300
      · by_cases hid : c.id ∈ e.ids.1 <;> simp [hfull, hid]
      · simp only [if_neg hfull]
        simp [hfull]

/-- A call that returns false without the burst counter is refused as new. -/
theorem verdict_eq_asNew_iff (s : PeerStore) (c : BlockerCall) :
    s.verdict c = .asNew ↔ (s.checkIpBlocker c.now c.ip c.id).2 = false ∧ s.bursting c = false := by
  unfold PeerStore.verdict
  cases (s.checkIpBlocker c.now c.ip c.id).2 <;> cases s.bursting c <;> simp

/-- The burst counter refuses no call that it does not refuse. -/
theorem verdict_ne_burst_of_not_bursting {s : PeerStore} {c : BlockerCall}
    (h : s.bursting c = false) : s.verdict c ≠ .burst := by
  unfold PeerStore.verdict
  rw [h]
  split <;> simp

/-- A call for the same id from the same address was accepted before. -/
def KnownBefore (db : List Row) (calls : List BlockerCall) (c : BlockerCall) : Prop :=
  ∃ x ∈ blockerTrace (.start db) calls, x.1.ip = c.ip ∧ x.1.id = c.id ∧ x.2 = .accepted

/-- The id of the call that made the entry of the address. -/
def firstId (calls : List BlockerCall) (ip : String) : Option String :=
  (calls.find? fun c => c.ip = ip).map BlockerCall.id

/-- An id was accepted in the first call of its address or in a later one. -/
theorem knownBefore_iff (db : List Row) (calls : List BlockerCall) (c : BlockerCall) :
    KnownBefore db calls c ↔ firstId calls c.ip = some c.id ∨
      c.id ∈ notedIds (ofIp c.ip (blockerTrace (.start db) calls)) := by
  have hmem : KnownBefore db calls c ↔
      ∃ x ∈ ofIp c.ip (blockerTrace (.start db) calls), x.1.id = c.id ∧ x.2 = .accepted := by
    simp [KnownBefore, ofIp, and_assoc]
  have hfirst : firstId calls c.ip =
      ((calls.filter fun x => x.ip = c.ip).head?).map BlockerCall.id := by
    rw [firstId, List.head?_filter]
  rw [hmem, hfirst, ofIp, trace_of_ip]
  change (∃ x ∈ entryTrace none _, _) ↔ _ ∨ c.id ∈ notedIds (entryTrace none _)
  cases calls.filter fun x => x.ip = c.ip with
  | nil => simp [entryTrace, notedIds]
  | cons a l => simp [entryTrace, notedIds, IpBlock.after, and_comm, and_or_left, exists_or]

/-- **When a known id is not refused as new.**  In every run within a day, a call for an id
that was accepted before from the same address returns false only because of the burst
counter, just when it is not the id of the first call of its address, or was accepted again
later, or no more than three hundred ids were, or the burst counter refuses the call. -/
theorem known_id_kept_iff (db : List Row) (calls : List BlockerCall) (c : BlockerCall)
    (hday : WithinDay (calls ++ [c])) :
    (KnownBefore db calls c →
      ((blockerRun (.start db) calls).checkIpBlocker c.now c.ip c.id).2 = false →
        (blockerRun (.start db) calls).bursting c = true) ↔
    (firstId calls c.ip ≠ some c.id ∨
      c.id ∈ notedIds (ofIp c.ip (blockerTrace (.start db) calls)) ∨
      (notedIds (ofIp c.ip (blockerTrace (.start db) calls))).toFinset.card ≤ 300 ∨
      (blockerRun (.start db) calls).bursting c = true) := by
  have hiff := verdict_asNew_iff db hday
  rw [verdict_eq_asNew_iff] at hiff
  rw [knownBefore_iff]
  constructor
  · intro hkept
    by_contra hno
    simp only [not_or, not_not, not_le, Bool.not_eq_true] at hno
    obtain ⟨hfirst, hnew, hmany, hburst⟩ := hno
    have hne := verdict_ne_burst_of_not_bursting hburst
    have hrefused := (hiff.mpr ⟨hne, hnew, hmany⟩).1
    rw [hkept (Or.inl hfirst) hrefused] at hburst
    cases hburst
  · intro hcond hknown hfalse
    by_contra hburst
    rw [Bool.not_eq_true] at hburst
    obtain ⟨-, hnew, hmany⟩ := hiff.mp ⟨hfalse, hburst⟩
    rcases hcond with h | h | h | h
    · exact hknown.elim h hnew
    · exact hnew h
    · exact absurd hmany (not_lt.mpr h)
    · rw [h] at hburst
      cases hburst

/-- An address that registers its first id twice is not refused. -/
theorem known_id_kept_twice :
    WithinDay [⟨0, "192.0.2.7", "x"⟩, ⟨1, "192.0.2.7", "x"⟩] ∧
    (KnownBefore [] [⟨0, "192.0.2.7", "x"⟩] ⟨1, "192.0.2.7", "x"⟩ →
      ((blockerRun (.start []) [⟨0, "192.0.2.7", "x"⟩]).checkIpBlocker
        1 "192.0.2.7" "x").2 = false →
        (blockerRun (.start []) [⟨0, "192.0.2.7", "x"⟩]).bursting ⟨1, "192.0.2.7", "x"⟩ = true) :=
  ⟨by decide,
    (known_id_kept_iff [] [⟨0, "192.0.2.7", "x"⟩] ⟨1, "192.0.2.7", "x"⟩ (by decide)).mpr
      (Or.inr (Or.inr (Or.inl (by decide +kernel))))⟩

/-! ### A run in which it is refused -/

/-- Calls for these ids, each 61 seconds after the one before. -/
def pacedCalls (ip : String) : Instant → List String → List BlockerCall
  | _, [] => []
  | t, id :: ids => ⟨t + BURST_PAUSE, ip, id⟩ :: pacedCalls ip (t + BURST_PAUSE) ids

/-- A call 61 seconds after the last one, when there is room: its id is noted. -/
theorem after_paced {known : List String} {n : ℕ} {t now : Instant} {id : String}
    (hpause : BURST_PAUSE ≤ now - t) (hday : ¬elapsedSecs now t > DAY_SECONDS)
    (hnew : id ∉ known) (hroom : known.length ≤ 300) :
    IpBlock.after (some ⟨(n, t), (known, t)⟩) now id =
      (⟨(1, now), (known ++ [id], now)⟩, .accepted) := by
  have hhit : Plain.hit 30 BURST_PAUSE (n, t) now = some (1, now) := by
    rw [Plain.hit, if_pos hpause]
  have hlen : ¬known.length > 300 := by omega
  simp only [IpBlock.after, hhit, hday, hnew, hlen, and_false, if_false]

/-- All of them are noted, as long as there is room. -/
theorem entryRun_paced (ip : String) (ids : List String) {known : List String} {n : ℕ}
    {t : Instant} (hnodup : (known ++ ids).Nodup) (hroom : known.length + ids.length ≤ 301) :
    ∃ m, entryRun (some ⟨(n, t), (known, t)⟩) (pacedCalls ip t ids) =
      some ⟨(m, t + ids.length * BURST_PAUSE), (known ++ ids, t + ids.length * BURST_PAUSE)⟩ := by
  induction ids generalizing known n t with
  | nil => exact ⟨n, by simp [pacedCalls, entryRun]⟩
  | cons id ids ih =>
    rw [List.length_cons] at hroom
    have hnew : id ∉ known := by
      intro h
      exact (List.nodup_append.mp hnodup).2.2 id h id List.mem_cons_self rfl
    have hnodup' : ((known ++ [id]) ++ ids).Nodup := by simpa using hnodup
    obtain ⟨m, hm⟩ := @ih (known ++ [id]) 1 (t + BURST_PAUSE) hnodup' (by simp; omega)
    refine ⟨m, ?_⟩
    have hpause : BURST_PAUSE ≤ t + BURST_PAUSE - t := by rw [Nat.add_sub_cancel_left]
    have hday : ¬elapsedSecs (t + BURST_PAUSE) t > DAY_SECONDS :=
      elapsedSecs_le_day (Nat.add_lt_add_left (by decide) t)
    rw [pacedCalls, entryRun, List.foldl_cons, after_paced hpause hday hnew (by omega)]
    refine hm.trans ?_
    rw [List.append_assoc, List.singleton_append, List.length_cons, Nat.succ_mul,
      Nat.add_comm (ids.length * BURST_PAUSE), Nat.add_assoc]

theorem filter_pacedCalls (ip : String) (t : Instant) (ids : List String) :
    (pacedCalls ip t ids).filter (fun c => c.ip = ip) = pacedCalls ip t ids := by
  rw [List.filter_eq_self]
  intro c hc
  induction ids generalizing t with
  | nil => cases hc
  | cons id ids ih =>
    rcases List.mem_cons.mp hc with rfl | hc
    · simp
    · exact ih _ hc

/-- The first id of an address is refused after three hundred and one others. -/
theorem verdict_paced (db : List Row) (ip : String) {first : String} {ids : List String}
    (hnodup : ids.Nodup) (hnew : first ∉ ids) (hlen : ids.length = 301) :
    (blockerRun (.start db) (⟨0, ip, first⟩ :: pacedCalls ip 0 ids)).verdict
      ⟨302 * BURST_PAUSE, ip, first⟩ = .asNew := by
  have hstart : (PeerStore.start db).ipBlocker.lookup ip = none := rfl
  obtain ⟨m, hm⟩ := @entryRun_paced ip ids [] 0 0 hnodup (by simp [hlen])
  have hrun : entryRun none (⟨0, ip, first⟩ :: pacedCalls ip 0 ids) =
      some ⟨(m, 0 + 301 * BURST_PAUSE), (ids, 0 + 301 * BURST_PAUSE)⟩ := by
    rw [← hlen]
    exact hm
  have hhit : Plain.hit 30 BURST_PAUSE (m, 0 + 301 * BURST_PAUSE) (302 * BURST_PAUSE) =
      some (1, 302 * BURST_PAUSE) :=
    if_pos (show BURST_PAUSE ≤ 302 * BURST_PAUSE - (0 + 301 * BURST_PAUSE) by decide)
  have hday : ¬elapsedSecs (302 * BURST_PAUSE) (0 + 301 * BURST_PAUSE) > DAY_SECONDS :=
    elapsedSecs_le_day (by decide)
  have hfull : ids.length > 300 := by omega
  rw [verdict_blockerRun, hstart, List.filter_cons_of_pos (by simp), filter_pacedCalls, hrun]
  simp only [IpBlock.after, hhit, hday, hfull, hnew, not_false_eq_true, and_self, if_true, if_false]

/-- The calls come in order, and not later than they take. -/
theorem pacedCalls_times (ip : String) (t : Instant) (ids : List String) :
    (pacedCalls ip t ids).Pairwise (fun x y => x.now ≤ y.now) ∧
      ∀ c ∈ pacedCalls ip t ids, t ≤ c.now ∧ c.now ≤ t + ids.length * BURST_PAUSE := by
  induction ids generalizing t with
  | nil => exact ⟨List.Pairwise.nil, List.forall_mem_nil _⟩
  | cons id ids ih =>
    obtain ⟨hpair, hbounds⟩ := ih (t + BURST_PAUSE)
    have hsum : t + (ids.length + 1) * BURST_PAUSE =
        t + BURST_PAUSE + ids.length * BURST_PAUSE := by
      rw [Nat.succ_mul, Nat.add_comm (ids.length * BURST_PAUSE), Nat.add_assoc]
    rw [pacedCalls, List.pairwise_cons, List.length_cons, hsum]
    refine ⟨⟨fun c hc => (hbounds c hc).1, hpair⟩, ?_⟩
    intro c hc
    rcases List.mem_cons.mp hc with rfl | hc
    · exact ⟨Nat.le_add_right _ _, Nat.le_add_right _ _⟩
    · exact ⟨le_trans (Nat.le_add_right _ _) (hbounds c hc).1, (hbounds c hc).2⟩

/-- Calls in order that begin at zero and end within a day. -/
theorem withinDay_of_lt {calls : List BlockerCall}
    (htimes : calls.Pairwise fun x y => x.now ≤ y.now) (hday : ∀ c ∈ calls, c.now < DAY_MILLIS) :
    WithinDay calls := by
  refine htimes.imp_of_mem ?_
  intro x y _ hy hle
  exact ⟨hle, Nat.lt_add_left x.now (hday y hy)⟩

/-- Three hundred and one ids. -/
def manyIds : List String := (List.range 301).map fun n => String.ofList (List.replicate n 'x')

theorem length_manyIds : manyIds.length = 301 := by
  rw [manyIds, List.length_map, List.length_range]

theorem nodup_manyIds : manyIds.Nodup := by
  refine List.nodup_range.map fun m n h => ?_
  have hlist := String.ofList_injective h
  simpa using congrArg List.length hlist

theorem first_notMem_manyIds : "first" ∉ manyIds := by
  intro h
  obtain ⟨n, -, hn⟩ := List.mem_map.mp h
  have hchars : List.replicate n 'x' = ['f', 'i', 'r', 's', 't'] := String.ofList_injective hn
  have hf : 'f' ∈ List.replicate n 'x' := hchars ▸ List.mem_cons_self
  cases (List.mem_replicate.mp hf).2

/-- An address begins with one id, and goes on with three hundred and one others. -/
def crowdedCalls : List BlockerCall :=
  ⟨0, "192.0.2.7", "first"⟩ :: pacedCalls "192.0.2.7" 0 manyIds

/-- The first of its ids registers again. -/
def firstAgain : BlockerCall := ⟨302 * BURST_PAUSE, "192.0.2.7", "first"⟩

theorem withinDay_crowded : WithinDay (crowdedCalls ++ [firstAgain]) := by
  obtain ⟨hpair, hbounds⟩ := pacedCalls_times "192.0.2.7" 0 manyIds
  rw [length_manyIds] at hbounds
  have hend : ∀ c ∈ pacedCalls "192.0.2.7" 0 manyIds, c.now ≤ firstAgain.now := by
    intro c hc
    exact le_trans (hbounds c hc).2 (by decide)
  apply withinDay_of_lt
  · refine List.pairwise_append.mpr ⟨?_, List.pairwise_singleton _ _, ?_⟩
    · exact List.pairwise_cons.mpr ⟨fun c _ => Nat.zero_le c.now, hpair⟩
    · intro x hx y hy
      rw [List.mem_singleton.mp hy]
      rcases List.mem_cons.mp hx with rfl | hx
      · exact Nat.zero_le _
      · exact hend x hx
  · intro c hc
    refine lt_of_le_of_lt (b := firstAgain.now) ?_ (by decide)
    rcases List.mem_append.mp hc with hc | hc
    · rcases List.mem_cons.mp hc with rfl | hc
      · exact Nat.zero_le _
      · exact hend c hc
    · rw [List.mem_singleton.mp hc]

/-- **A known id is refused as new.**  The first id of the address was accepted, and its second
call, on the same day and long after any burst, returns false. -/
theorem first_id_refused :
    WithinDay (crowdedCalls ++ [firstAgain]) ∧ KnownBefore [] crowdedCalls firstAgain ∧
      ((blockerRun (.start []) crowdedCalls).checkIpBlocker firstAgain.now firstAgain.ip
        firstAgain.id).2 = false ∧
      (blockerRun (.start []) crowdedCalls).bursting firstAgain = false := by
  refine ⟨withinDay_crowded, (knownBefore_iff _ _ _).mpr (Or.inl ?_), ?_⟩
  · rw [firstId, crowdedCalls, List.find?_cons_of_pos (by simp [firstAgain])]
    rfl
  · exact (verdict_eq_asNew_iff _ _).mp
      (verdict_paced [] "192.0.2.7" nodup_manyIds first_notMem_manyIds length_manyIds)

end RustdeskServer
