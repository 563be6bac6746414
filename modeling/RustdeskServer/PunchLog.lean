import RustdeskServer.Plain.Recent
import RustdeskServer.Server

/-!
# The log of punch requests

`record_punch_req` keeps at most `MAX_PUNCH_REQUESTS` entries, and skips a request that
repeats one of the last minute.  To tell, it looks at the newest thirty entries, of what is
left of the queue.  A queue of thirty or more therefore forgets nothing that matters: it is
the end of the queue that would be kept without a bound.

## Main definitions

* `punchRepeats` — the entry repeats one of the newest.
* `recordPunchReqUnbounded` — `record_punch_req` without its bound.

## Main results

* `recordPunchReq_eq` — the source's queue is the bounded log.
* `punch_log_is_suffix` — **the queue is the end of the unbounded one, and every queue keeps
  its bound and the order in time.**
-/

namespace RustdeskServer

/-- The newest entry for the same pair, if there is one, is less than a minute old. -/
def punchRepeats (newest : List PunchReqEntry) (e : PunchReqEntry) : Bool :=
  match newest.find? fun x => x.fromIp = e.fromIp ∧ x.toId = e.toId with
  | some x => decide (elapsedSecs e.tm x.tm < PUNCH_REQ_DEDUPE_SEC)
  | none => false

/-- `record_punch_req` on a queue without a bound: nothing is dropped. -/
def recordPunchReqUnbounded (q : List PunchReqEntry) (e : PunchReqEntry) : List PunchReqEntry :=
  if punchRepeats (q.reverse.take 30) e then q else q ++ [e]

/-- With a bound of zero nothing is recorded. -/
theorem foldl_recordPunchReq_zero (calls q : List PunchReqEntry) :
    calls.foldl (recordPunchReq 0) q = q := by
  induction calls with
  | nil => rfl
  | cons e calls ih => exact ih

/-- The source's queue is the bounded log. -/
theorem recordPunchReq_eq {max : ℕ} (hmax : 0 < max) :
    recordPunchReq max = Plain.recordUpTo punchRepeats 30 max := by
  funext q e
  rw [recordPunchReq, if_neg (by omega)]
  rfl

/-- **The bounded queue is the end of the unbounded one.**  Requests that come one after
another leave, with room for thirty or more, the newest `max` entries of the queue that has
no bound; and with any room at all, at most `max` entries, in the order of their times. -/
theorem punch_log_is_suffix (max : ℕ) (calls : List PunchReqEntry)
    (htimes : calls.Pairwise fun x y => x.tm ≤ y.tm) :
    (30 ≤ max →
      calls.foldl (recordPunchReq max) [] =
        (calls.foldl recordPunchReqUnbounded []).rtake max) ∧
    (calls.foldl (recordPunchReq max) []).length ≤ max ∧
      (calls.foldl (recordPunchReq max) []).Pairwise fun x y => x.tm ≤ y.tm := by
  rcases Nat.eq_zero_or_pos max with rfl | hmax
  · rw [foldl_recordPunchReq_zero]
    refine ⟨?_, le_refl 0, List.Pairwise.nil⟩
    intro h
    omega
  · rw [recordPunchReq_eq hmax]
    refine ⟨?_, ?_, ?_⟩
    · intro hroom
      have h := @Plain.foldl_recordUpTo _ punchRepeats 30 max hroom hmax calls []
      rw [List.rtake_nil] at h
      exact h
    · exact Plain.length_foldl_recordUpTo hmax calls (Nat.zero_le max)
    · -- what is kept is a part of what came, in its order
      apply List.Pairwise.sublist _ htimes
      exact Plain.foldl_recordUpTo_sublist calls []

/-- A request that repeats one of the last minute, and one that comes a minute later. -/
theorem punch_log_is_suffix_repeated :
    (([⟨0, "a", "b", "x"⟩, ⟨59999, "a", "b", "x"⟩, ⟨60000, "a", "b", "x"⟩] :
      List PunchReqEntry).foldl (recordPunchReq 30) []).length ≤ 30 ∧
    ([⟨0, "a", "b", "x"⟩, ⟨59999, "a", "b", "x"⟩, ⟨60000, "a", "b", "x"⟩] :
      List PunchReqEntry).foldl (recordPunchReq 30) [] =
        [⟨0, "a", "b", "x"⟩, ⟨60000, "a", "b", "x"⟩] :=
  ⟨(punch_log_is_suffix 30 _ (by decide)).2.1, by decide⟩

end RustdeskServer
