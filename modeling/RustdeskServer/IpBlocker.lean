import RustdeskServer.Plain.Counter
import RustdeskServer.Sequential

/-!
# How often an address may register

`check_ip_blocker` keeps an entry for each address: a counter of registrations that starts
again after a minute without one, and the ids they were for.  A call that comes too soon
after thirty others is refused, and so is one for a new id when three hundred are known.

The first call of an address makes its entry.  It is not counted, and its id is not noted.

## Main definitions

* `BlockerCall`, `Verdict`, `PeerStore.verdict` — a call, and what becomes of it.
* `blockerTrace` — the calls of a run with their verdicts.
* `IpBlock.after` — the entry of an address after a call.

## Main results

* `checkIpBlocker_spec` — a call changes the entry of its address, by `IpBlock.after`.
* `trace_of_ip` — what becomes of the calls of one address depends on them alone.
* `BurstLimited`, `burstLimited_run` — the burst counter, along every run.
-/

namespace RustdeskServer

/-- A call of `check_ip_blocker`. -/
structure BlockerCall where
  /-- When it is made. -/
  now : Instant
  /-- The address, as text. -/
  ip : String
  /-- The id that registers. -/
  id : String
  deriving DecidableEq

/-- What becomes of a call. -/
inductive Verdict
  /-- It returns true. -/
  | accepted
  /-- The burst counter refuses it. -/
  | burst
  /-- It is refused as a new id. -/
  | asNew
  deriving DecidableEq

/-- The branch of `check_ip_blocker` that refuses a call for the burst counter. -/
def PeerStore.bursting (s : PeerStore) (c : BlockerCall) : Bool :=
  match s.ipBlocker.lookup c.ip with
  | none => false
  | some old => decide (¬elapsedSecs c.now old.burst.2 > IP_BLOCK_DUR ∧ old.burst.1 > 30)

/-- What becomes of a call. -/
def PeerStore.verdict (s : PeerStore) (c : BlockerCall) : Verdict :=
  if (s.checkIpBlocker c.now c.ip c.id).2 then .accepted
  else if s.bursting c then .burst
  else .asNew

/-- The calls of a run, with what becomes of each. -/
def blockerTrace : PeerStore → List BlockerCall → List (BlockerCall × Verdict)
  | _, [] => []
  | s, c :: cs => (c, s.verdict c) :: blockerTrace (s.checkIpBlocker c.now c.ip c.id).1 cs

/-! ### The entry of one address -/

/-- The pause after which the burst counter starts again, in milliseconds. -/
def BURST_PAUSE : ℕ := (IP_BLOCK_DUR + 1) * 1000

/-- The entry after a call at `now` for `id`, and what becomes of the call. -/
def IpBlock.after (entry : Option IpBlock) (now : Instant) (id : String) : IpBlock × Verdict :=
  match entry with
  | none => (⟨(0, now), ([], now)⟩, .accepted)
  | some old =>
    match Plain.hit 30 BURST_PAUSE old.burst now with
    | none => (old, .burst)
    | some burst =>
      if ¬elapsedSecs now old.ids.2 > DAY_SECONDS ∧ old.ids.1.length > 300 then
        (⟨burst, old.ids⟩, if id ∈ old.ids.1 then .accepted else .asNew)
      else
        let ids := if elapsedSecs now old.ids.2 > DAY_SECONDS then [] else old.ids.1
        (⟨burst, (if id ∈ old.ids.1 then ids else ids ++ [id], now)⟩, .accepted)

/-- Whole seconds: more than a minute is a minute and a second. -/
theorem elapsedSecs_gt_iff (now t n : ℕ) : elapsedSecs now t > n ↔ (n + 1) * 1000 ≤ now - t := by
  unfold elapsedSecs
  rw [gt_iff_lt, Nat.lt_iff_add_one_le, Nat.le_div_iff_mul_le (by decide)]

/-- The burst counter is a counter that starts again after a pause. -/
theorem hit_burst (c : ℕ × Instant) (now : Instant) :
    Plain.hit 30 BURST_PAUSE c now =
      if ¬elapsedSecs now c.2 > IP_BLOCK_DUR ∧ c.1 > 30 then none
      else some ((if elapsedSecs now c.2 > IP_BLOCK_DUR then 0 else c.1) + 1, now) := by
  have hiff : elapsedSecs now c.2 > IP_BLOCK_DUR ↔ BURST_PAUSE ≤ now - c.2 :=
    elapsedSecs_gt_iff now c.2 IP_BLOCK_DUR
  unfold Plain.hit
  by_cases hpause : elapsedSecs now c.2 > IP_BLOCK_DUR
  · rw [if_pos (hiff.mp hpause), if_neg fun h => h.1 hpause, if_pos hpause]
  · rw [if_neg fun h => hpause (hiff.mpr h)]
    by_cases hlimit : c.1 > 30
    · rw [if_pos hlimit, if_pos ⟨hpause, hlimit⟩]
    · rw [if_neg hlimit, if_neg fun h => hlimit h.2, if_neg hpause]

/-- **A call changes the entry of its address, and no other.** -/
theorem checkIpBlocker_spec (s : PeerStore) (c : BlockerCall) :
    ((s.checkIpBlocker c.now c.ip c.id).1.ipBlocker.lookup c.ip =
        some (IpBlock.after (s.ipBlocker.lookup c.ip) c.now c.id).1 ∧
      s.verdict c = (IpBlock.after (s.ipBlocker.lookup c.ip) c.now c.id).2) ∧
    ∀ ip, ip ≠ c.ip →
      (s.checkIpBlocker c.now c.ip c.id).1.ipBlocker.lookup ip = s.ipBlocker.lookup ip := by
  unfold PeerStore.verdict PeerStore.bursting PeerStore.checkIpBlocker
  cases hold : s.ipBlocker.lookup c.ip with
  | none =>
    refine ⟨⟨AList.lookup_insert _, rfl⟩, ?_⟩
    intro ip hip
    exact AList.lookup_insert_ne hip
  | some old =>
    simp only [IpBlock.after, hit_burst]
    by_cases hburst : ¬elapsedSecs c.now old.burst.2 > IP_BLOCK_DUR ∧ old.burst.1 > 30
    · simp only [if_pos hburst]
      refine ⟨⟨hold, ?_⟩, fun ip _ => trivial⟩
      rw [if_neg Bool.false_ne_true, if_pos (decide_eq_true hburst)]
    · simp only [if_neg hburst]
      by_cases hfull : ¬elapsedSecs c.now old.ids.2 > DAY_SECONDS ∧ old.ids.1.length > 300
      · simp only [if_pos hfull]
        refine ⟨⟨AList.lookup_insert _, ?_⟩, fun ip hip => AList.lookup_insert_ne hip⟩
        rw [if_neg fun h : decide _ = true => hburst (of_decide_eq_true h)]
        by_cases hid : c.id ∈ old.ids.1 <;> simp [hid]
      · simp only [if_neg hfull]
        refine ⟨⟨?_, by simp⟩, fun ip hip => AList.lookup_insert_ne hip⟩
        rw [AList.lookup_insert]
        by_cases hid : c.id ∈ old.ids.1 <;> simp [hid]

/-- The calls of one address from some entry on, with what becomes of each. -/
def entryTrace : Option IpBlock → List BlockerCall → List (BlockerCall × Verdict)
  | _, [] => []
  | entry, c :: cs =>
    (c, (IpBlock.after entry c.now c.id).2) ::
      entryTrace (some (IpBlock.after entry c.now c.id).1) cs

/-- The entry of an address after these calls of it. -/
def entryRun (entry : Option IpBlock) (calls : List BlockerCall) : Option IpBlock :=
  calls.foldl (fun entry c => some (IpBlock.after entry c.now c.id).1) entry

/-- **What becomes of the calls of one address depends on them alone.** -/
theorem trace_of_ip (ip : String) (s : PeerStore) (calls : List BlockerCall) :
    (blockerTrace s calls).filter (fun x => x.1.ip = ip) =
      entryTrace (s.ipBlocker.lookup ip) (calls.filter fun c => c.ip = ip) := by
  induction calls generalizing s with
  | nil => rfl
  | cons c calls ih =>
    obtain ⟨⟨hself, hverdict⟩, hother⟩ := checkIpBlocker_spec s c
    rw [blockerTrace]
    by_cases hip : c.ip = ip
    · subst hip
      rw [List.filter_cons_of_pos (by simp), List.filter_cons_of_pos (by simp), entryTrace, ih,
        hself, hverdict]
    · rw [List.filter_cons_of_neg (by simpa using hip),
        List.filter_cons_of_neg (by simpa using hip), ih, hother ip fun h => hip h.symm]

theorem entryTrace_concat (entry : Option IpBlock) (calls : List BlockerCall) (c : BlockerCall) :
    entryTrace entry (calls ++ [c]) =
      entryTrace entry calls ++ [(c, (IpBlock.after (entryRun entry calls) c.now c.id).2)] := by
  induction calls generalizing entry with
  | nil => rfl
  | cons a calls ih =>
    rw [List.cons_append, entryTrace, ih]
    rfl

theorem mem_of_mem_entryTrace {entry : Option IpBlock} {calls : List BlockerCall}
    {x : BlockerCall × Verdict} (h : x ∈ entryTrace entry calls) : x.1 ∈ calls := by
  induction calls generalizing entry with
  | nil => cases h
  | cons a calls ih =>
    rcases List.mem_cons.mp h with rfl | h
    · exact List.mem_cons_self
    · exact List.mem_cons_of_mem a (ih h)

/-- The store after the calls of a run. -/
def blockerRun (s : PeerStore) (calls : List BlockerCall) : PeerStore :=
  calls.foldl (fun s c => (s.checkIpBlocker c.now c.ip c.id).1) s

theorem lookup_blockerRun (ip : String) (s : PeerStore) (calls : List BlockerCall) :
    (blockerRun s calls).ipBlocker.lookup ip =
      entryRun (s.ipBlocker.lookup ip) (calls.filter fun c => c.ip = ip) := by
  induction calls generalizing s with
  | nil => rfl
  | cons c calls ih =>
    obtain ⟨⟨hself, -⟩, hother⟩ := checkIpBlocker_spec s c
    refine (ih _).trans ?_
    by_cases hip : c.ip = ip
    · subst hip
      rw [List.filter_cons_of_pos (by simp), hself]
      rfl
    · rw [List.filter_cons_of_neg (by simpa using hip), hother ip fun h => hip h.symm]

/-- What becomes of the next call, by the entry of its address. -/
theorem verdict_blockerRun (s : PeerStore) (calls : List BlockerCall) (c : BlockerCall) :
    (blockerRun s calls).verdict c =
      (IpBlock.after (entryRun (s.ipBlocker.lookup c.ip) (calls.filter fun x => x.ip = c.ip))
        c.now c.id).2 := by
  rw [(checkIpBlocker_spec _ c).1.2, lookup_blockerRun]

/-- Each call of a run, with those before it. -/
theorem mem_blockerTrace {s : PeerStore} {calls : List BlockerCall} {x : BlockerCall × Verdict}
    (h : x ∈ blockerTrace s calls) :
    ∃ pre c post, calls = pre ++ c :: post ∧ x = (c, (blockerRun s pre).verdict c) := by
  induction calls generalizing s with
  | nil => cases h
  | cons a calls ih =>
    rcases List.mem_cons.mp h with rfl | h
    · exact ⟨[], a, calls, rfl, rfl⟩
    · obtain ⟨pre, c, post, rfl, rfl⟩ := ih h
      exact ⟨a :: pre, c, post, rfl, rfl⟩

/-! ### The burst counter -/

/-- The times of the calls that were accepted. -/
def acceptedTimes (tr : List (BlockerCall × Verdict)) : List Instant :=
  (tr.filter fun x => x.2 = .accepted).map fun x => x.1.now

/-- The times of the calls that were counted. -/
def countedTimes (tr : List (BlockerCall × Verdict)) : List Instant :=
  (tr.filter fun x => x.2 ≠ .burst).map fun x => x.1.now

theorem acceptedTimes_concat (tr : List (BlockerCall × Verdict)) (c : BlockerCall) (v : Verdict) :
    acceptedTimes (tr ++ [(c, v)]) =
      acceptedTimes tr ++ if v = .accepted then [c.now] else [] := by
  cases v <;> simp [acceptedTimes]

theorem countedTimes_concat (tr : List (BlockerCall × Verdict)) (c : BlockerCall) (v : Verdict) :
    countedTimes (tr ++ [(c, v)]) = countedTimes tr ++ if v ≠ .burst then [c.now] else [] := by
  cases v <;> simp [countedTimes]

/-- The calls of one address. -/
def ofIp (ip : String) (tr : List (BlockerCall × Verdict)) : List (BlockerCall × Verdict) :=
  tr.filter fun x => x.1.ip = ip

/-- What holds of the entry of an address after its calls: the counter knows those that were
accepted, and the time of the last that was counted. -/
def BurstInv (calls : List BlockerCall) : Option IpBlock → Prop
  | none => calls = []
  | some e =>
    Plain.Counts BURST_PAUSE 1 32 (acceptedTimes (entryTrace none calls)) e.burst ∧
      (countedTimes (entryTrace none calls)).getLast? = some e.burst.2

/-- A call refused by the burst counter changes nothing, any other is counted. -/
theorem IpBlock.after_cases (old : IpBlock) (now : Instant) (id : String) :
    (Plain.hit 30 BURST_PAUSE old.burst now = none ∧
        IpBlock.after (some old) now id = (old, .burst)) ∨
      ∃ burst, Plain.hit 30 BURST_PAUSE old.burst now = some burst ∧
        (IpBlock.after (some old) now id).1.burst = burst ∧
        ((IpBlock.after (some old) now id).2 = .accepted ∨
          (IpBlock.after (some old) now id).2 = .asNew) := by
  cases hhit : Plain.hit 30 BURST_PAUSE old.burst now with
  | none =>
    left
    simp [IpBlock.after, hhit]
  | some burst =>
    right
    refine ⟨burst, rfl, ?_⟩
    simp only [IpBlock.after, hhit]
    split
    · by_cases hid : id ∈ old.ids.1 <;> simp [hid]
    · exact ⟨rfl, Or.inl rfl⟩

theorem burstInv_run (calls : List BlockerCall)
    (htimes : calls.Pairwise fun x y => x.now ≤ y.now) :
    BurstInv calls (entryRun none calls) := by
  induction calls using List.reverseRecOn with
  | nil => rfl
  | append_singleton calls c ih =>
    obtain ⟨hcalls, -, hlast⟩ := List.pairwise_append.mp htimes
    have hinv := ih hcalls
    have hrun : entryRun none (calls ++ [c]) =
        some (IpBlock.after (entryRun none calls) c.now c.id).1 := by
      rw [entryRun, List.foldl_append]
      rfl
    rw [hrun, BurstInv, entryTrace_concat]
    cases hentry : entryRun none calls with
    | none =>
      -- the first call makes the entry
      rw [hentry, BurstInv] at hinv
      subst hinv
      exact ⟨Plain.Counts.first le_rfl (by decide) c.now, rfl⟩
    | some e =>
      rw [hentry, BurstInv] at hinv
      obtain ⟨hcounts, hcounted⟩ := hinv
      have hnow : e.burst.2 ≤ c.now := by
        have hmem := List.mem_of_getLast? hcounted
        rw [countedTimes, List.mem_map] at hmem
        obtain ⟨x, hx, hxt⟩ := hmem
        rw [← hxt]
        refine hlast x.1 ?_ c (List.mem_singleton_self c)
        exact mem_of_mem_entryTrace (List.mem_of_mem_filter hx)
      rw [acceptedTimes_concat, countedTimes_concat]
      rcases IpBlock.after_cases e c.now c.id with ⟨-, hafter⟩ | ⟨burst, hhit, hburst, hverdict⟩
      · rw [hafter, if_neg (by simp), if_neg (by simp), List.append_nil, List.append_nil]
        exact ⟨hcounts, hcounted⟩
      · have htime : burst.2 = c.now := (Plain.hit_eq_some hhit).1
        rw [hburst]
        rcases hverdict with hverdict | hverdict
        · rw [hverdict, if_pos rfl, if_pos (by decide), List.getLast?_concat, htime]
          exact ⟨hcounts.accept (by decide) hnow hhit, rfl⟩
        · rw [hverdict, if_neg (by decide), if_pos (by decide), List.append_nil,
            List.getLast?_concat, htime]
          exact ⟨hcounts.miss hnow hhit, rfl⟩

/-- What the burst counter promises to an address along a run. -/
structure BurstLimited (s : PeerStore) (calls : List BlockerCall) (ip : String) : Prop where
  /-- No more than 32 calls are accepted that follow each other within 61 seconds. -/
  chain : ∀ l, l <:+: acceptedTimes (ofIp ip (blockerTrace s calls)) →
    Plain.Close 61000 l → l.length ≤ 32
  /-- A call 61 seconds after the last that was counted is not refused by the counter. -/
  again : ∀ pre c post, calls = pre ++ c :: post → c.ip = ip →
    (∀ t ∈ (countedTimes (ofIp ip (blockerTrace s pre))).getLast?, t + 61000 ≤ c.now) →
      (blockerRun s pre).verdict c = .accepted ∨ (blockerRun s pre).verdict c = .asNew
  /-- Calls that are all 61 seconds apart are not refused by the counter. -/
  apart : ((calls.filter fun c => c.ip = ip).map BlockerCall.now).Pairwise
      (fun a b => a + 61000 ≤ b) →
    ∀ x ∈ blockerTrace s calls, x.1.ip = ip → x.2 ≠ .burst

/-- After the last call that was counted by 61 seconds, the counter refuses nothing. -/
theorem verdict_ne_burst (db : List Row) {pre : List BlockerCall} {c : BlockerCall}
    (htimes : pre.Pairwise fun x y => x.now ≤ y.now)
    (hlast : ∀ t ∈ (countedTimes (ofIp c.ip (blockerTrace (.start db) pre))).getLast?,
      t + 61000 ≤ c.now) : (blockerRun (.start db) pre).verdict c ≠ .burst := by
  have hinv := burstInv_run _ (htimes.filter fun x => decide (x.ip = c.ip))
  rw [verdict_blockerRun]
  rw [ofIp, trace_of_ip] at hlast
  change (IpBlock.after (entryRun none _) c.now c.id).2 ≠ .burst
  change ∀ t ∈ (countedTimes (entryTrace none _)).getLast?, t + 61000 ≤ c.now at hlast
  cases hentry : entryRun none (pre.filter fun x => x.ip = c.ip) with
  | none => exact fun h => by cases h
  | some e =>
    rw [hentry] at hinv
    rcases IpBlock.after_cases e c.now c.id with ⟨hnone, -⟩ | ⟨burst, -, -, hverdict⟩
    · have hlate := hlast e.burst.2 hinv.2
      have hsoon := (Plain.hit_eq_none hnone).1
      exact absurd hlate (not_le.mpr hsoon)
    · rcases hverdict with h | h <;> rw [h] <;> decide

theorem verdict_cases {v : Verdict} (h : v ≠ .burst) : v = .accepted ∨ v = .asNew := by
  cases v with
  | accepted => exact Or.inl rfl
  | burst => exact absurd rfl h
  | asNew => exact Or.inr rfl

/-- **The burst counter, along every run.** -/
theorem burstLimited_run (db : List Row) {calls : List BlockerCall}
    (htimes : calls.Pairwise fun x y => x.now ≤ y.now) (ip : String) :
    BurstLimited (.start db) calls ip := by
  refine ⟨?_, ?_, ?_⟩
  · intro l hl hclose
    have hinv := burstInv_run _ (htimes.filter fun x => decide (x.ip = ip))
    rw [ofIp, trace_of_ip] at hl
    change l <:+: acceptedTimes (entryTrace none _) at hl
    cases hentry : entryRun none (calls.filter fun x => x.ip = ip) with
    | none =>
      rw [hentry] at hinv
      rw [show calls.filter (fun x => x.ip = ip) = [] from hinv] at hl
      rw [List.infix_nil.mp hl]
      exact Nat.zero_le 32
    | some e =>
      rw [hentry] at hinv
      exact hinv.1.most l hl hclose
  · rintro pre c post rfl rfl hlast
    apply verdict_cases
    exact verdict_ne_burst db (List.pairwise_append.mp htimes).1 hlast
  · intro hapart x hx hip
    obtain ⟨pre, c, post, rfl, rfl⟩ := mem_blockerTrace hx
    subst hip
    apply verdict_ne_burst db (List.pairwise_append.mp htimes).1
    intro t ht
    -- what was counted last is one of the calls before
    have hmem := List.mem_of_mem_getLast? ht
    rw [countedTimes, List.mem_map] at hmem
    obtain ⟨y, hy, rfl⟩ := hmem
    rw [ofIp, trace_of_ip] at hy
    have hbefore := mem_of_mem_entryTrace (List.mem_of_mem_filter hy)
    rw [List.filter_append, List.filter_cons_of_pos (by simp), List.map_append,
      List.map_cons] at hapart
    exact (List.pairwise_append.mp hapart).2.2 _ (List.mem_map_of_mem hbefore) _ List.mem_cons_self

end RustdeskServer
