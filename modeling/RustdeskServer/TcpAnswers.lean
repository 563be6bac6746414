import RustdeskServer.SinkHands

/-!
# A TCP connection is answered once

Peers answer over connections of their own, at any time; two connections may have one key, and
a connection may end while its answer is on the way.  Over all of it a sink is in one place:
with its own task, under its key in `tcp_punch`, or in the hand of the one task that is to
write to it; and from there it is gone.

## Main definitions

* `answersTo` — read off the history: what was written to a connection after it was parked.
* `AnswerFor` — such a message and where it comes from.
* `OnePlace` — the invariant.

## Main results

* `OnePlace.step` — a section keeps every sink in one place.
* `one_answer` — **a TCP connection that asked is answered at most once.**
-/

namespace RustdeskServer

open Atomic

variable {E : Ext}

/-! ### What the history says -/

/-- The section parks the sink of connection `c`. -/
def SrvOp.parks (c : ConnId) : SrvOp → Bool
  | .punchInsert _ d => d == c
  | _ => false

/-- The sink of connection `c` was parked. -/
def wasParked (c : ConnId) (past : List (ConnId × SrvOp)) : Bool :=
  past.any fun x => x.2.parks c

/-- What was written to connection `c` after its sink was parked, and by whom, newest first. -/
def answersTo (c : ConnId) : List (ConnId × SrvOp) → List (ConnId × Msg)
  | [] => []
  | (j, .sendSink _ d msg) :: past =>
    if d = c ∧ wasParked c past then (j, msg) :: answersTo c past else answersTo c past
  | _ :: past => answersTo c past

section History

variable {past : List (ConnId × SrvOp)} {i j c : ConnId} {o : SrvOp} {msg : Msg}

theorem answersTo_other (ho : ∀ why msg, o ≠ .sendSink why c msg) :
    answersTo c ((i, o) :: past) = answersTo c past := by
  cases o with
  | sendSink why d msg =>
    have hd : d ≠ c := by
      rintro rfl
      exact ho why msg rfl
    exact if_neg fun h => hd h.1
  | _ => rfl

theorem answersTo_sendSink_parked {why : Option Cause} (h : wasParked c past = true) :
    answersTo c ((i, .sendSink why c msg) :: past) = (i, msg) :: answersTo c past :=
  if_pos ⟨rfl, h⟩

theorem answersTo_sendSink_unparked {why : Option Cause} (h : wasParked c past = false) :
    answersTo c ((i, .sendSink why c msg) :: past) = answersTo c past :=
  if_neg fun h' => by simp [h] at h'

/-- Nothing is written to a connection after it parked its sink, before it did. -/
theorem answersTo_unparked (h : wasParked c past = false) : answersTo c past = [] := by
  induction past with
  | nil => rfl
  | cons x past ih =>
    obtain ⟨i, o⟩ := x
    obtain ⟨-, hpast⟩ : o.parks c = false ∧ wasParked c past = false := by
      simpa [wasParked] using h
    cases o with
    | sendSink why d msg =>
      rw [show answersTo c ((i, .sendSink why d msg) :: past) = answersTo c past from
        if_neg fun h' => by simp [hpast] at h']
      exact ih hpast
    | _ => exact ih hpast

theorem wasParked_cons (h : o.parks c = false) :
    wasParked c ((i, o) :: past) = wasParked c past := by
  rw [wasParked, List.any_cons, h, Bool.false_or, wasParked]

end History

/-! ### The invariant -/

section Invariant

variable (E) (conns : ConnId → Listener)

/-- Connection `c`, whose key is `key`, asked and was not answered yet. -/
structure Waiting (past : List (ConnId × SrvOp)) (c : ConnId) (key : SocketAddr) : Prop where
  /-- Its sink was parked. -/
  parked : wasParked c past = true
  /-- Nothing was written to it since. -/
  unanswered : answersTo c past = []
  /-- It is a TCP connection. -/
  place : ∃ addr frames, conns c = .tcp addr frames ∧ keyOf E addr = key

/-- Connection `j` wrote `msg` to connection `c` as the answer to a frame of its own, which names
the key of `c`; a websocket under that key was looked for first. -/
def AnswerFor (past : List (ConnId × SrvOp)) (c j : ConnId) (msg : Msg) : Prop :=
  ∃ addr frames, conns c = .tcp addr frames ∧ ∃ cause dst src, cause.via.conn? = some j ∧
    (conns j).Hears src cause.frame ∧ Answer E src cause.frame dst msg ∧
    keyOf E dst = keyOf E addr ∧ (j, .pushWs cause dst msg) ∈ past

/-- Every sink is in one place: with its own task, under its key, or in the hand of one task
that is to write to it, and it is gone after that. -/
structure OnePlace (past : List (ConnId × SrvOp)) (hand : ConnId → Hand) (s : Server) : Prop where
  /-- A task has its own sink until it parks it. -/
  own : ∀ c, (hand c).own = true ↔ wasParked c past = false
  /-- A sink in `tcp_punch` is in nobody's hand. -/
  map : ∀ key c, s.tcpPunch.lookup key = some c →
    Waiting E conns past c key ∧ ∀ j a, (hand j).taken ≠ some (c, a)
  /-- A sink is in one hand. -/
  taken : ∀ j c a, (hand j).taken = some (c, a) →
    Waiting E conns past c (keyOf E a) ∧ ∀ j' a', (hand j').taken = some (c, a') → j' = j
  /-- The answer in a hand found no websocket. -/
  answer : ∀ j cause dst msg, (hand j).answer = some (cause, dst, msg) →
    (j, SrvOp.pushWs cause dst msg) ∈ past
  /-- No connection is answered twice. -/
  once : ∀ c, (answersTo c past).length ≤ 1
  /-- Whatever is written to a connection that waits is an answer. -/
  right : ∀ c j msg, (j, msg) ∈ answersTo c past → AnswerFor E conns past c j msg
  /-- The others write to a connection only then. -/
  others : ∀ c j why msg, (j, SrvOp.sendSink why c msg) ∈ past → j ≠ c →
    (j, msg) ∈ answersTo c past

end Invariant

section Step

variable {conns : ConnId → Listener} {past : List (ConnId × SrvOp)} {hand : ConnId → Hand}
  {s : Server} {i c : ConnId} {o : SrvOp} {key : SocketAddr} {cfg : Settings}

theorem Waiting.cons (h : Waiting E conns past c key) (ho : ∀ why msg, o ≠ .sendSink why c msg) :
    Waiting E conns ((i, o) :: past) c key where
  parked := by
    rw [wasParked, List.any_cons, ← wasParked, h.parked, Bool.or_true]
  unanswered := by
    rw [answersTo_other ho]
    exact h.unanswered
  place := h.place

theorem AnswerFor.cons {j : ConnId} {msg : Msg} (h : AnswerFor E conns past c j msg) :
    AnswerFor E conns ((i, o) :: past) c j msg := by
  obtain ⟨addr, frames, hc, cause, dst, src, hvia, hears, hans, hkey, hmem⟩ := h
  exact ⟨addr, frames, hc, cause, dst, src, hvia, hears, hans, hkey, List.mem_cons_of_mem _ hmem⟩

/-- A section that neither parks a sink nor writes to one that is parked: the history says the
same of every connection, and it remains to see where the sinks are. -/
theorem OnePlace.same {hand' : ConnId → Hand} {s' : Server} (h : OnePlace E conns past hand s)
    (hpark : ∀ c, o.parks c = false)
    (hsend : ∀ why c msg, o = .sendSink why c msg → c = i ∧ wasParked c past = false)
    (hown : ∀ c, (hand' c).own = (hand c).own)
    (hmap : ∀ key c, s'.tcpPunch.lookup key = some c →
      s.tcpPunch.lookup key = some c ∧ ∀ j a, (hand' j).taken ≠ some (c, a))
    (htaken : ∀ j c a, (hand' j).taken = some (c, a) →
      Waiting E conns past c (keyOf E a) ∧ ∀ j' a', (hand' j').taken = some (c, a') → j' = j)
    (hanswer : ∀ j cause dst msg, (hand' j).answer = some (cause, dst, msg) →
      (hand j).answer = some (cause, dst, msg) ∨ (j, SrvOp.pushWs cause dst msg) = (i, o)) :
    OnePlace E conns ((i, o) :: past) hand' s' := by
  have hparked : ∀ c, wasParked c ((i, o) :: past) = wasParked c past :=
    fun c => wasParked_cons (hpark c)
  have hanswers : ∀ c, answersTo c ((i, o) :: past) = answersTo c past := by
    intro c
    by_cases ho : ∃ why msg, o = .sendSink why c msg
    · obtain ⟨why, msg, rfl⟩ := ho
      exact answersTo_sendSink_unparked (hsend why c msg rfl).2
    · exact answersTo_other fun why msg hmsg => ho ⟨why, msg, hmsg⟩
  have hwait : ∀ {c key}, Waiting E conns past c key → Waiting E conns ((i, o) :: past) c key := by
    intro c key hw
    exact ⟨(hparked c).trans hw.parked, (hanswers c).trans hw.unanswered, hw.place⟩
  refine ⟨fun c => ?_, fun key c hl => ?_, fun j c a ht => ?_, fun j cause dst msg ha => ?_,
    fun c => ?_, fun c j msg hm => ?_, fun c j why msg hm hne => ?_⟩
  · rw [hown, hparked]
    exact h.own c
  · obtain ⟨hold, hnone⟩ := hmap key c hl
    exact ⟨hwait (h.map key c hold).1, hnone⟩
  · obtain ⟨hw, huniq⟩ := htaken j c a ht
    exact ⟨hwait hw, huniq⟩
  · rcases hanswer j cause dst msg ha with hold | heq
    · exact List.mem_cons_of_mem _ (h.answer j cause dst msg hold)
    · rw [heq]
      exact List.mem_cons_self
  · rw [hanswers]
    exact h.once c
  · rw [hanswers] at hm
    exact (h.right c j msg hm).cons
  · rw [hanswers]
    rcases List.mem_cons.mp hm with heq | hm
    · cases heq
      exact absurd (hsend why c msg rfl).1.symm hne
    · exact h.others c j why msg hm hne

theorem OnePlace.exec_handless (h : OnePlace E conns past hand s) (ho : o.Handless) (e : SrvEnv) :
    OnePlace E conns ((i, o) :: past) hand (o.exec E cfg e s).1 := by
  refine h.same (fun c => ?_) (fun why c msg hmsg => ?_) (fun _ => rfl) (fun key c hl => ?_) h.taken
    fun j cause dst msg ha => Or.inl ha
  · cases o with
    | punchInsert a d => exact ho.elim
    | _ => rfl
  · rw [hmsg] at ho
    exact ho.elim
  · rcases lookup_tcpPunch_exec hl with hold | ⟨a, rfl, -⟩
    · exact ⟨hold, (h.map key c hold).2⟩
    · exact ho.elim

/-- A task writes to its own sink. -/
theorem OnePlace.exec_own (h : OnePlace E conns past hand s) (hown : (hand i).own = true)
    (why : Option Cause) (msg : Msg) (e : SrvEnv) :
    OnePlace E conns ((i, .sendSink why i msg) :: past) hand
      ((SrvOp.sendSink why i msg).exec E cfg e s).1 := by
  refine h.same (fun _ => rfl) (fun why' c msg' hmsg => ?_) (fun _ => rfl)
    (fun key c hl => ⟨hl, (h.map key c hl).2⟩) h.taken fun j cause dst msg ha => Or.inl ha
  cases hmsg
  exact ⟨rfl, (h.own i).mp hown⟩

theorem update_own {hand : ConnId → Hand} {i : ConnId} {h' : Hand} (heq : h'.own = (hand i).own)
    (c : ConnId) : (Function.update hand i h' c).own = (hand c).own := by
  by_cases hc : c = i
  · subst hc
    rw [Function.update_self, heq]
  · rw [Function.update_of_ne hc]

/-- A task looks for a websocket to push an answer to. -/
theorem OnePlace.exec_push (h : OnePlace E conns past hand s) (cause : Cause) (dst : SocketAddr)
    (msg : Msg) (e : SrvEnv) {done : Bool} :
    OnePlace E conns ((i, .pushWs cause dst msg) :: past)
      (Function.update hand i
        { hand i with answer := if done then none else some (cause, dst, msg) })
      ((SrvOp.pushWs cause dst msg).exec E cfg e s).1 := by
  -- the sinks in the hands are what they were
  have htaken : ∀ j, (Function.update hand i { hand i with
      answer := if done then none else some (cause, dst, msg) } j).taken = (hand j).taken := by
    intro j
    by_cases hj : j = i
    · subst hj
      rw [Function.update_self]
    · rw [Function.update_of_ne hj]
  refine h.same (fun _ => rfl) (fun why c msg' hmsg => by cases hmsg) (update_own rfl)
    (fun key c hl => ?_) (fun j c a ht => ?_) fun j cause' dst' msg' ha => ?_
  · rcases lookup_tcpPunch_exec hl with hold | ⟨a, ho, -⟩
    · refine ⟨hold, fun j a => ?_⟩
      rw [htaken]
      exact (h.map key c hold).2 j a
    · cases ho
  · rw [htaken] at ht
    obtain ⟨hw, huniq⟩ := h.taken j c a ht
    refine ⟨hw, fun j' a' ht' => huniq j' a' ?_⟩
    rwa [htaken] at ht'
  · by_cases hj : j = i
    · subst hj
      rw [Function.update_self] at ha
      refine Or.inr ?_
      cases done with
      | true => cases ha
      | false =>
        cases ha
        rfl
    · rw [Function.update_of_ne hj] at ha
      exact Or.inl ha

/-- A task takes out what is under a key: that sink is in its hand now and nowhere else. -/
theorem OnePlace.exec_take (h : OnePlace E conns past hand s) (a : SocketAddr) (e : SrvEnv) :
    OnePlace E conns ((i, .punchRemove a) :: past)
      (Function.update hand i
        { hand i with taken := (s.tcpPunch.lookup (keyOf E a)).map fun d => (d, a) })
      ((SrvOp.punchRemove a).exec E cfg e s).1 := by
  set h' : Hand := { hand i with taken := (s.tcpPunch.lookup (keyOf E a)).map fun d => (d, a) }
    with hh'
  -- what is in a hand was there before, or was under the key
  have hcases : ∀ j c b, (Function.update hand i h' j).taken = some (c, b) →
      (j ≠ i ∧ (hand j).taken = some (c, b)) ∨
        (j = i ∧ b = a ∧ s.tcpPunch.lookup (keyOf E a) = some c) := by
    intro j c b ht
    by_cases hj : j = i
    · subst hj
      rw [Function.update_self, hh'] at ht
      obtain ⟨d, hd, heq⟩ := Option.map_eq_some_iff.mp ht
      cases heq
      exact Or.inr ⟨rfl, rfl, hd⟩
    · rw [Function.update_of_ne hj] at ht
      exact Or.inl ⟨hj, ht⟩
  refine h.same (fun _ => rfl) (fun why c msg hmsg => by cases hmsg) (update_own rfl)
    (fun key c hl => ?_) (fun j c b ht => ?_) fun j cause dst msg ha => ?_
  · have hl' : (s.tcpPunch.erase (keyOf E a)).lookup key = some c := hl
    by_cases hk : key = keyOf E a
    · rw [hk, AList.lookup_erase] at hl'
      cases hl'
    · rw [AList.lookup_erase_ne hk] at hl'
      refine ⟨hl', fun j b ht => ?_⟩
      rcases hcases j c b ht with ⟨-, hold⟩ | ⟨-, -, hat⟩
      · exact (h.map key c hl').2 j b hold
      · -- one sink would be under two keys
        obtain ⟨addr, frames, hc, rfl⟩ := (h.map key c hl').1.place
        obtain ⟨addr', frames', hc', hk'⟩ := (h.map _ c hat).1.place
        rw [hc] at hc'
        cases hc'
        exact hk hk'
  · rcases hcases j c b ht with ⟨hj, hold⟩ | ⟨rfl, rfl, hat⟩
    · refine ⟨(h.taken j c b hold).1, fun j' b' ht' => ?_⟩
      rcases hcases j' c b' ht' with ⟨-, hold'⟩ | ⟨-, -, hat⟩
      · exact (h.taken j c b hold).2 j' b' hold'
      · exact absurd hold ((h.map _ c hat).2 j b)
    · refine ⟨(h.map _ c hat).1, fun j' b' ht' => ?_⟩
      rcases hcases j' c b' ht' with ⟨-, hold'⟩ | ⟨hj', -, -⟩
      · exact absurd hold' ((h.map _ c hat).2 j' b')
      · exact hj'
  · by_cases hj : j = i
    · subst hj
      rw [Function.update_self] at ha
      exact Or.inl ha
    · rw [Function.update_of_ne hj] at ha
      exact Or.inl ha

/-- A TCP connection parks its sink. -/
theorem OnePlace.exec_park (h : OnePlace E conns past hand s) (hown : (hand i).own = true)
    {a : SocketAddr} (hplace : ∃ frames, conns i = .tcp a frames) (e : SrvEnv) :
    OnePlace E conns ((i, .punchInsert a i) :: past)
      (Function.update hand i { hand i with own := false })
      ((SrvOp.punchInsert a i).exec E cfg e s).1 := by
  have hnew : wasParked i past = false := (h.own i).mp hown
  have hanswers : ∀ c, answersTo c ((i, .punchInsert a i) :: past) = answersTo c past :=
    fun c => answersTo_other fun why msg ho => by cases ho
  have hwait : ∀ {c key}, Waiting E conns past c key →
      Waiting E conns ((i, .punchInsert a i) :: past) c key :=
    fun hw => hw.cons fun why msg ho => by cases ho
  have htaken : ∀ j, (Function.update hand i { hand i with own := false } j).taken =
      (hand j).taken := by
    intro j
    by_cases hj : j = i
    · subst hj
      rw [Function.update_self]
    · rw [Function.update_of_ne hj]
  refine ⟨fun c => ?_, fun key c hl => ?_, fun j c b ht => ?_, fun j cause dst msg ha => ?_,
    fun c => ?_, fun c j msg hm => ?_, fun c j why msg hm hne => ?_⟩
  · by_cases hc : c = i
    · subst hc
      rw [Function.update_self]
      simp [wasParked, SrvOp.parks]
    · rw [Function.update_of_ne hc, wasParked_cons]
      · exact h.own c
      · exact beq_false_of_ne (Ne.symm hc)
  · simp only [htaken]
    rcases lookup_tcpPunch_exec hl with hold | ⟨b, ho, hk⟩
    · exact ⟨hwait (h.map key c hold).1, (h.map key c hold).2⟩
    · cases ho
      refine ⟨⟨by simp [wasParked, SrvOp.parks], ?_, ?_⟩, fun j b ht => ?_⟩
      · rw [hanswers]
        exact answersTo_unparked hnew
      · obtain ⟨frames, hi⟩ := hplace
        exact ⟨a, frames, hi, hk⟩
      · -- what is in a hand was parked before
        have hparked := (h.taken j i b ht).1.parked
        rw [hnew] at hparked
        cases hparked
  · rw [htaken] at ht
    refine ⟨hwait (h.taken j c b ht).1, fun j' b' ht' => (h.taken j c b ht).2 j' b' ?_⟩
    rwa [htaken] at ht'
  · refine List.mem_cons_of_mem _ (h.answer j cause dst msg ?_)
    by_cases hj : j = i
    · subst hj
      rwa [Function.update_self] at ha
    · rwa [Function.update_of_ne hj] at ha
  · rw [hanswers]
    exact h.once c
  · rw [hanswers] at hm
    exact (h.right c j msg hm).cons
  · rw [hanswers]
    rcases List.mem_cons.mp hm with heq | hm
    · cases heq
    · exact h.others c j why msg hm hne

/-- A task writes its answer to the sink it took out, and lets the sink go. -/
theorem OnePlace.exec_answer (h : OnePlace E conns past hand s) {cause : Cause}
    {dst a src : SocketAddr} {d : ConnId} {msg : Msg}
    (hans : (hand i).answer = some (cause, dst, msg)) (htaken : (hand i).taken = some (d, a))
    (hkey : keyOf E a = keyOf E dst) (hvia : cause.via.conn? = some i)
    (hears : (conns i).Hears src cause.frame) (hright : Answer E src cause.frame dst msg)
    (why : Option Cause) (e : SrvEnv) :
    OnePlace E conns ((i, .sendSink why d msg) :: past)
      (Function.update hand i { hand i with answer := none, taken := none })
      ((SrvOp.sendSink why d msg).exec E cfg e s).1 := by
  obtain ⟨hw, huniq⟩ := h.taken i d a htaken
  have hanswer : answersTo d ((i, .sendSink why d msg) :: past) = [(i, msg)] := by
    rw [answersTo_sendSink_parked hw.parked, hw.unanswered]
  have hothers : ∀ {c}, c ≠ d → ∀ why' msg', SrvOp.sendSink why d msg ≠ .sendSink why' c msg' := by
    intro c hc why' msg' ho
    cases ho
    exact hc rfl
  -- only this task had the sink
  have hgone : ∀ j c b, (Function.update hand i { hand i with answer := none, taken := none }
      j).taken = some (c, b) → j ≠ i ∧ c ≠ d ∧ (hand j).taken = some (c, b) := by
    intro j c b ht
    by_cases hj : j = i
    · subst hj
      rw [Function.update_self] at ht
      cases ht
    · rw [Function.update_of_ne hj] at ht
      refine ⟨hj, ?_, ht⟩
      rintro rfl
      exact hj (huniq j b ht)
  refine ⟨fun c => ?_, fun key c hl => ?_, fun j c b ht => ?_, fun j cause' dst' msg' ha => ?_,
    fun c => ?_, fun c j msg' hm => ?_, fun c j why' msg' hm hne => ?_⟩
  · have hown : (Function.update hand i { hand i with answer := none, taken := none } c).own =
        (hand c).own := update_own (by rfl) c
    rw [hown, wasParked_cons rfl]
    exact h.own c
  · have hl' : s.tcpPunch.lookup key = some c := hl
    have hc : c ≠ d := by
      rintro rfl
      exact (h.map key c hl').2 i a htaken
    refine ⟨(h.map key c hl').1.cons (hothers hc), fun j b ht => ?_⟩
    exact (h.map key c hl').2 j b (hgone j c b ht).2.2
  · obtain ⟨-, hc, ht⟩ := hgone j c b ht
    refine ⟨(h.taken j c b ht).1.cons (hothers hc), fun j' b' ht' => ?_⟩
    exact (h.taken j c b ht).2 j' b' (hgone j' c b' ht').2.2
  · refine List.mem_cons_of_mem _ ?_
    by_cases hj : j = i
    · subst hj
      rw [Function.update_self] at ha
      cases ha
    · rw [Function.update_of_ne hj] at ha
      exact h.answer j cause' dst' msg' ha
  · by_cases hc : c = d
    · subst hc
      rw [hanswer]
      exact Nat.le_refl 1
    · rw [answersTo_other (hothers hc)]
      exact h.once c
  · by_cases hc : c = d
    · subst hc
      rw [hanswer] at hm
      cases List.mem_singleton.mp hm
      obtain ⟨addr, frames, hc, hk⟩ := hw.place
      exact ⟨addr, frames, hc, cause, dst, src, hvia, hears, hright, by rw [hk, hkey],
        List.mem_cons_of_mem _ (h.answer _ _ _ _ hans)⟩
    · rw [answersTo_other (hothers hc)] at hm
      exact (h.right c j msg' hm).cons
  · by_cases hc : c = d
    · subst hc
      rw [hanswer]
      rcases List.mem_cons.mp hm with heq | hm
      · cases heq
        exact List.mem_singleton_self _
      · -- nobody wrote to it before
        have hnone := h.others c j why' msg' hm hne
        rw [hw.unanswered] at hnone
        cases hnone
    · rw [answersTo_other (hothers hc)]
      rcases List.mem_cons.mp hm with heq | hm
      · cases heq
        exact absurd rfl hc
      · exact h.others c j why' msg' hm hne

/-- **A section keeps every sink in one place.** -/
theorem OnePlace.step (h : OnePlace E conns past hand s) {e : SrvEnv} {h' : Hand}
    (hmove : (hand i).Moves E (conns i) i o (o.exec E cfg e s).2 h') :
    OnePlace E conns ((i, o) :: past) (Function.update hand i h') (o.exec E cfg e s).1 := by
  have hless : o.Handless → h' = hand i → OnePlace E conns ((i, o) :: past)
      (Function.update hand i h') (o.exec E cfg e s).1 := by
    rintro ho rfl
    rw [Function.update_eq_self]
    exact h.exec_handless ho e
  cases o with
  | sendSink why d msg =>
    rcases hmove with ⟨rfl, hown, rfl⟩ |
      ⟨cause, dst, a, src, hans, htaken, hkey, hvia, hears, hright, rfl⟩
    · rw [Function.update_eq_self]
      exact h.exec_own hown why msg e
    · exact h.exec_answer hans htaken hkey hvia hears hright why e
  | punchInsert a d =>
    obtain ⟨rfl, hown, hplace, rfl⟩ := hmove
    exact h.exec_park hown hplace e
  | pushWs cause dst msg =>
    cases hmove
    exact h.exec_push cause dst msg e
  | punchRemove a =>
    cases hmove
    exact h.exec_take a e
  | _ => exact hless trivial hmove

end Step

/-! ### Every run -/

section Run

variable (E) (cfg : Settings) (db : List Row) (mustLogin alwaysUseRelay : Bool)
  (conf : Snapshot) (conns : ConnId → Listener)

theorem onePlace_start :
    OnePlace E conns [] (fun _ => .initial) (.start db mustLogin alwaysUseRelay conf) := by
  refine ⟨fun c => ⟨fun _ => rfl, fun _ => rfl⟩, fun key c hl => ?_, fun j c a ht => ?_,
    fun j cause dst msg ha => ?_, fun c => Nat.zero_le 1, fun c j msg hm => ?_,
    fun c j why msg hm => ?_⟩
  · cases hl
  · cases ht
  · cases ha
  · cases hm
  · cases hm

/-- **A TCP connection that asked for a session is answered at most once**, along every run of
any number of connections and whatever addresses they have.  Before it asks, no other task
writes to it, and after it asked at most one message is written to it; that message refuses a
request that came from its key, or is the answer of a connection whose frame names its key: a
`PunchHoleSent` is passed on with the address that its connection really has. -/
theorem one_answer (schedule : List (ConnId × SrvEnv)) (c : ConnId) :
    let past := (accepting E cfg (.start db mustLogin alwaysUseRelay conf) conns).performed
      (srvMachine E cfg) schedule
    (answersTo c past).length ≤ 1 ∧
    (∀ j why msg, (j, SrvOp.sendSink why c msg) ∈ past → j ≠ c → (j, msg) ∈ answersTo c past) ∧
    ∀ j msg, (j, msg) ∈ answersTo c past → AnswerFor E conns past c j msg := by
  intro past
  have htask : ∀ i, ((accepting E cfg (.start db mustLogin alwaysUseRelay conf) conns).task i).Holds
      (Hand.Moves E (conns i) i) (fun _ _ => True) Hand.initial :=
    fun i => handles_prog cfg (conns i) i
  obtain ⟨hand, hplace, -⟩ := performed_holds (M := srvMachine E cfg) (J := OnePlace E conns)
    htask (onePlace_start E db mustLogin alwaysUseRelay conf conns)
    (fun _ _ _ _ _ _ _ h hmove => h.step hmove) schedule
  exact ⟨hplace.once c, hplace.others c, hplace.right c⟩

end Run

/-- A peer answers over a connection of its own, twice: the second answer reaches nobody. -/
example :
    let sent : Msg := .punchHoleSent ⟨[203, 0, 113, 5, 0, 9], "a", "r", .symmetric, ""⟩
    let conns : ConnId → Listener := fun i =>
      if i = 0 then .tcp ⟨.ofOctets 203 0 113 5, 9⟩ [some (.requestRelay ⟨"a", "", [], ""⟩)]
      else .tcp ⟨.ofOctets 203 0 113 7, 8⟩ [some sent]
    let c₀ := accepting .sample ⟨"", "", 0⟩ (.start [] false false .blank) conns
    let steps := [0, 0, 0, 1, 1, 1, 1, 1, 2, 2, 2, 2, 2].map fun i => (i, SrvEnv.ok 0 1)
    answersTo 0 (c₀.performed (srvMachine .sample ⟨"", "", 0⟩) steps) =
      [(1, .punchHoleResponse
        { socketAddr := [203, 0, 113, 7, 0, 8]
          relayServer := "r"
          natType := some .symmetric })] := by
  decide

end RustdeskServer
