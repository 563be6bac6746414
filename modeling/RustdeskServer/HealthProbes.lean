import RustdeskServer.Atomic.Interleave
import RustdeskServer.RelayHealth

/-!
# The probes of a health check

`check_relay_servers` starts a task for each configured relay and waits for all of them.  A
task connects to its relay, and if that succeeds it pushes the relay, with its position, to a
list that all tasks share.  The tasks end in whatever order the network allows; then the list
is sorted by position and sent, unless it is empty.

## Main definitions

* `probeHost` — the address that is dialled.
* `ProbeOp`, `probeMachine`, `probing` — the tasks over the shared list.
* `answered` — the configured relays that answer.

## Main results

* `checkRelayServers_eq` — what a check sends does not depend on the order of the probes.
* `probeInv_step` — what every step of a task keeps.
* `health_check_keeps_order` — **however the tasks interleave, the check sends the configured
  list without the relays that do not answer.**
-/

namespace RustdeskServer

open Atomic

/-! ### The tasks -/

/-- The address a probe dials. -/
def probeHost (x : String) : String :=
  if Text.contains ':' x then x else x ++ ":" ++ toString RELAY_PORT

/-- The operations of a probe. -/
inductive ProbeOp
  /-- `FramedStream::new`, for the relay at a position. -/
  | connect (i : ℕ) (host : String)
  /-- `rs.lock().await.push`. -/
  | push (entry : ℕ × String)

/-- What an operation returns. -/
abbrev ProbeOp.Res : ProbeOp → Type
  | .connect _ _ => Bool
  | .push _ => Unit

/-- The operations of the probes. -/
def ProbeSig : Sig := ⟨ProbeOp, ProbeOp.Res⟩

/-- What an operation does to the shared list, when the relays at some positions answer. -/
def ProbeOp.exec (answers : ℕ → Bool) (rs : List (ℕ × String)) :
    (o : ProbeOp) → List (ℕ × String) × o.Res
  | .connect i _ => (rs, answers i)
  | .push entry => (rs ++ [entry], ())

/-- The shared list. -/
def probeMachine (answers : ℕ → Bool) : Machine ProbeSig (List (ℕ × String)) Unit where
  exec _ o rs := ProbeOp.exec answers rs o

/-- The task that pushes a relay. -/
def pushing (i : ℕ) (x : String) : Prog ProbeSig Unit := .op (.push (i, x)) fun _ => .ret ()

/-- The task of a relay. -/
def probe (i : ℕ) (x : String) : Prog ProbeSig Unit :=
  .op (.connect i (probeHost x)) fun (ok : Bool) => if ok then pushing i x else .ret ()

/-- All tasks are started. -/
def probing (rs0 : List String) : Config ProbeSig (List (ℕ × String)) ℕ Unit :=
  ⟨[], fun i => (rs0[i]?).elim (.ret ()) (probe i)⟩

/-- What is sent after all tasks have ended. -/
def sendAfter (rs : List (ℕ × String)) : Option (List String) :=
  let rs := (rs.insertionSort byPosition).map Prod.snd
  if rs.isEmpty then none else some rs

/-- The configured relays that answer, in configured order. -/
def answered (rs0 : List String) (answers : ℕ → Bool) : List String :=
  (rs0.zipIdx.filter fun x => answers x.2).map Prod.fst

/-! ### The order of the probes -/

section Order

variable {rs0 : List String} {answers : ℕ → Bool}

/-- The positions with their relays, where the relay answers. -/
def answeredAt (rs0 : List String) (answers : ℕ → Bool) : List (ℕ × String) :=
  (rs0.zipIdx.filter fun x => answers x.2).map Prod.swap

theorem mem_answeredAt {e : ℕ × String} :
    e ∈ answeredAt rs0 answers ↔ rs0[e.1]? = some e.2 ∧ answers e.1 = true := by
  rw [answeredAt, List.mem_map]
  constructor
  · rintro ⟨x, hx, rfl⟩
    obtain ⟨hmem, hans⟩ := List.mem_filter.mp hx
    exact ⟨List.mem_zipIdx_iff_getElem?.mp hmem, hans⟩
  · rintro ⟨hget, hans⟩
    exact ⟨e.swap, List.mem_filter.mpr ⟨List.mem_zipIdx_iff_getElem?.mpr hget, hans⟩, rfl⟩

theorem answeredAt_sorted (rs0 : List String) (answers : ℕ → Bool) :
    (answeredAt rs0 answers).Pairwise fun a b => a.1 < b.1 := by
  have hpos : (rs0.zipIdx.map Prod.snd).Pairwise (· < ·) := by
    rw [List.zipIdx_map_snd]
    exact List.pairwise_lt_range'
  exact List.pairwise_map.mpr ((List.pairwise_map.mp hpos).sublist List.filter_sublist)

/-- **What a check sends does not depend on the order of the probes.** -/
theorem checkRelayServers_eq {p : Probes}
    (h : ∀ e, e ∈ answering rs0 p ↔ rs0[e.1]? = some e.2 ∧ answers e.1 = true) :
    checkRelayServers rs0 p =
      if (answered rs0 answers).isEmpty then none else some (answered rs0 answers) := by
  have hsorted := pairwise_answering rs0 p
  have hperm : ((answering rs0 p).insertionSort byPosition).Perm (answeredAt rs0 answers) := by
    refine (List.perm_ext_iff_of_nodup ?_ ?_).mpr fun e => ?_
    · exact hsorted.imp fun hlt heq => absurd hlt (by rw [heq]; exact Nat.lt_irrefl _)
    · exact (answeredAt_sorted rs0 answers).imp
        fun hlt heq => absurd hlt (by rw [heq]; exact Nat.lt_irrefl _)
    · rw [List.mem_insertionSort, h, mem_answeredAt]
  have heq : (answering rs0 p).insertionSort byPosition = answeredAt rs0 answers :=
    hperm.eq_of_pairwise (fun _ _ _ _ hlt hgt => absurd hlt (Nat.lt_asymm hgt)) hsorted
      (answeredAt_sorted rs0 answers)
  have hmap : (answeredAt rs0 answers).map Prod.snd = answered rs0 answers := by
    rw [answeredAt, answered, List.map_map]
    rfl
  rw [checkRelayServers, heq, hmap]

end Order

/-! ### The tasks over the shared list -/

section Tasks

variable {rs0 : List String} {answers : ℕ → Bool}

/-- How far the task at a position is. -/
inductive Phase (rs0 : List String) (answers : ℕ → Bool) (rs : List (ℕ × String)) (i : ℕ) :
    Prog ProbeSig Unit → Prop
  /-- It has not connected. -/
  | connecting (x : String) (hx : rs0[i]? = some x) (hnew : i ∉ rs.map Prod.fst) :
    Phase rs0 answers rs i (probe i x)
  /-- It has connected. -/
  | connected (x : String) (hx : rs0[i]? = some x) (hans : answers i = true)
    (hnew : i ∉ rs.map Prod.fst) : Phase rs0 answers rs i (pushing i x)
  /-- It has pushed its relay. -/
  | pushed (x : String) (hmem : (i, x) ∈ rs) : Phase rs0 answers rs i (.ret ())
  /-- It could not connect, or there is no such relay. -/
  | failed (hno : ∀ x, rs0[i]? = some x → answers i = false) : Phase rs0 answers rs i (.ret ())

/-- The shared list holds relays that answer, each once, and every task is somewhere. -/
structure ProbeInv (rs0 : List String) (answers : ℕ → Bool)
    (c : Config ProbeSig (List (ℕ × String)) ℕ Unit) : Prop where
  /-- A position is pushed once. -/
  nodup : (c.st.map Prod.fst).Nodup
  /-- What is pushed is a relay that answers. -/
  right : ∀ e ∈ c.st, rs0[e.1]? = some e.2 ∧ answers e.1 = true
  /-- The tasks. -/
  phase : ∀ i, Phase rs0 answers c.st i (c.task i)

/-- A relay that is pushed leaves the tasks of the others alone. -/
theorem Phase.push {rs : List (ℕ × String)} {i j : ℕ} {x : String} {p : Prog ProbeSig Unit}
    (h : Phase rs0 answers rs j p) (hne : j ≠ i) : Phase rs0 answers (rs ++ [(i, x)]) j p := by
  have hnew : j ∉ rs.map Prod.fst → j ∉ (rs ++ [(i, x)]).map Prod.fst := by
    intro hnot hmem
    rw [List.map_append, List.mem_append] at hmem
    rcases hmem with hmem | hmem
    · exact hnot hmem
    · exact hne (List.mem_singleton.mp hmem)
  cases h with
  | connecting y hy hnot => exact .connecting y hy (hnew hnot)
  | connected y hy hans hnot => exact .connected y hy hans (hnew hnot)
  | pushed y hmem => exact .pushed y (List.mem_append_left _ hmem)
  | failed hno => exact .failed hno

/-- **Every step of a task keeps the invariant.** -/
theorem probeInv_step {c : Config ProbeSig (List (ℕ × String)) ℕ Unit}
    (h : ProbeInv rs0 answers c) (i : ℕ) :
    ProbeInv rs0 answers (c.step (probeMachine answers) i ()) := by
  have hi := h.phase i
  generalize hp : c.task i = p at hi
  cases hi with
  | connecting x hx hnew =>
    rw [Config.step_op _ hp]
    refine ⟨h.nodup, h.right, fun j => ?_⟩
    by_cases hj : j = i
    · subst hj
      simp only [Function.update_self]
      change Phase rs0 answers c.st j (if answers j then pushing j x else .ret ())
      cases hans : answers j with
      | true => exact .connected x hx hans hnew
      | false => exact .failed fun _ _ => hans
    · simp only [Function.update_of_ne hj]
      exact h.phase j
  | connected x hx hans hnew =>
    rw [Config.step_op _ hp]
    change ProbeInv rs0 answers ⟨c.st ++ [(i, x)], Function.update c.task i (.ret ())⟩
    refine ⟨?_, ?_, fun j => ?_⟩
    · rw [List.map_append, List.map_singleton, List.nodup_append]
      refine ⟨h.nodup, List.nodup_singleton _, ?_⟩
      rintro a ha b hb rfl
      rw [List.mem_singleton.mp hb] at ha
      exact hnew ha
    · intro e he
      rcases List.mem_append.mp he with he | he
      · exact h.right e he
      · rw [List.mem_singleton.mp he]
        exact ⟨hx, hans⟩
    · by_cases hj : j = i
      · subst hj
        simp only [Function.update_self]
        exact .pushed x (by simp)
      · simp only [Function.update_of_ne hj]
        exact (h.phase j).push hj
  | pushed x hmem =>
    rw [Config.step_ret _ hp]
    exact h
  | failed hno =>
    rw [Config.step_ret _ hp]
    exact h

theorem probeInv_probing (rs0 : List String) (answers : ℕ → Bool) :
    ProbeInv rs0 answers (probing rs0) := by
  refine ⟨List.nodup_nil, nofun, fun i => ?_⟩
  simp only [probing]
  cases hx : rs0[i]? with
  | none => exact .failed fun x hx' => by rw [hx] at hx'; cases hx'
  | some x => exact .connecting x hx List.not_mem_nil

/-- What the tasks have pushed in the end, as the list of positions in that order. -/
theorem ProbeInv.answering_eq {c : Config ProbeSig (List (ℕ × String)) ℕ Unit}
    (h : ProbeInv rs0 answers c) : answering rs0 ⟨c.st.map Prod.fst, h.nodup⟩ = c.st := by
  have hright := h.right
  rw [answering, List.filterMap_map]
  refine (List.filterMap_congr fun e he => ?_).trans List.filterMap_some
  simp only [Function.comp, (hright e he).1, Option.map_some]

end Tasks

/-- **Health checks keep the configured order.**  For every configured list, whichever of its
relays answer and however their tasks interleave: once all have ended, what is sent is the
configured list without the relays that do not answer, in configured order, and nothing is
sent if none answers. -/
theorem health_check_keeps_order (rs0 : List String) (answers : ℕ → Bool)
    {c : Config ProbeSig (List (ℕ × String)) ℕ Unit}
    (h : Reach (probeMachine answers) (fun _ _ _ => True) (probing rs0) c)
    (hdone : ∀ i, (c.task i).result? = some ()) :
    (answered rs0 answers ≠ [] → sendAfter c.st = some (answered rs0 answers)) ∧
      (answered rs0 answers = [] → sendAfter c.st = none) := by
  have hinv : ProbeInv rs0 answers c :=
    Reach.inv (probeInv_probing rs0 answers) (fun c i _ hc _ => probeInv_step hc i) h
  have hmem : ∀ e, e ∈ answering rs0 ⟨c.st.map Prod.fst, hinv.nodup⟩ ↔
      rs0[e.1]? = some e.2 ∧ answers e.1 = true := by
    intro e
    rw [hinv.answering_eq]
    refine ⟨hinv.right e, fun ⟨hx, hans⟩ => ?_⟩
    have hret := Prog.eq_ret_of_result? (hdone e.1)
    have hphase := hinv.phase e.1
    rw [hret] at hphase
    -- a task that has ended has pushed its relay, or could not connect
    cases hphase with
    | pushed x hx' =>
      have hx'' := (hinv.right _ hx').1
      rw [hx, Option.some.injEq] at hx''
      rw [show e = (e.1, x) from Prod.ext rfl hx'']
      exact hx'
    | failed hno =>
      rw [hno e.2 hx] at hans
      cases hans
  have hsend : sendAfter c.st = checkRelayServers rs0 ⟨c.st.map Prod.fst, hinv.nodup⟩ := by
    rw [checkRelayServers, hinv.answering_eq]
    rfl
  rw [hsend, checkRelayServers_eq hmem]
  refine ⟨fun hne => if_neg ?_, fun hnil => if_pos ?_⟩
  · rwa [List.isEmpty_iff]
  · rwa [List.isEmpty_iff]

/-- Of three relays the first and the last answer, and the last ends first. -/
def lastEndsFirst : List (ℕ × Unit) := [(2, ()), (1, ()), (0, ()), (2, ()), (0, ())]

theorem health_check_keeps_order_last :
    sendAfter ((probing ["a", "b", "c"]).sched (probeMachine fun i => i ≠ 1) lastEndsFirst).st =
      some ["a", "c"] := by
  refine (health_check_keeps_order ["a", "b", "c"] (fun i => i ≠ 1)
    (reach_sched (l := lastEndsFirst) (along_true _ _)) ?_).1 (by decide)
  intro i
  match i with
  | 0 => rfl
  | 1 => rfl
  | 2 => rfl
  | n + 3 => rfl

end RustdeskServer
