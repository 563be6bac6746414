import RustdeskServer.Atomic.Trace
import RustdeskServer.RelayUsage

/-!
# Blocking an address takes effect

`BLOCKLIST` is asked when a connection comes in, and once a second while a session lasts.  An
address that is in the list stays there until a line of the console takes it out, and a task
that finds it there goes on to nothing but taking its session out of `USAGE`.  So while the
address is blocked no connection gets in from it, and a session of it ends at its next look
into the list, whatever the other tasks and the console do in between.

## Main definitions

* `Heeds` — what a program goes on to when `BLOCKLIST` says yes.
* `Spares` — no line that is typed takes the address out.

## Main results

* `handleConnection_heeds` — every task heeds the list.
* `blocked_stays_out` — **while an address is blocked, the first look into the list ends every
  session of it, and no connection from it takes or leaves a stream.**
-/

namespace RustdeskServer

namespace Hbbr

open Atomic

/-! ### What follows a yes -/

/-- A session is taken out of `USAGE`. -/
def Op.Withdraws : Op → Prop
  | .usageRemove _ => True
  | _ => False

section Heeds

variable {α β : Type} {conn : Conn} {Q : α → Prop} {R : β → Prop}

/-- After a yes of `BLOCKLIST` there are only withdrawals, and a result in `Q`; and what is typed
at the console is the connection's own line. -/
def Op.Heeded (conn : Conn) (Q : α → Prop) : (o : Op) → (o.Res → Prog RelaySig α) → Prop
  | .blocked _, k => (k true).Only Op.Withdraws Q
  | .checkCmd f, _ => f = conn.command
  | _, _ => True

/-- Every operation of the program is heeded. -/
def Heeds (conn : Conn) (Q : α → Prop) : Prog RelaySig α → Prop
  | .ret _ => True
  | .op o k => o.Heeded conn Q k ∧ ∀ r, Heeds conn Q (k r)

theorem Heeds.bind {p : Prog RelaySig α} {f : α → Prog RelaySig β} (hp : Heeds conn Q p)
    (hf : ∀ a, Heeds conn R (f a)) (hQ : ∀ a, Q a → (f a).Only Op.Withdraws R) :
    Heeds conn R (p >>= f) := by
  induction p with
  | ret a => exact hf a
  | op o k ih =>
    refine ⟨?_, fun r => ih r (hp.2 r)⟩
    have ho := hp.1
    cases o with
    | blocked ip => exact Prog.Only.bind ho hQ
    | checkCmd f => exact ho
    | _ => trivial

theorem forward_heeds (x : Session) (l : Loop) (dst : Stream) (chunk : Chunk) :
    Heeds conn (fun _ => False) (forward x l dst chunk) := by
  refine ⟨trivial, fun now => ⟨trivial, fun _ => ⟨trivial, fun _ => ?_⟩⟩⟩
  dsimp only
  split
  · trivial
  · refine ⟨trivial, ?_⟩
    intro err
    cases err <;> trivial

/-- A turn does not ask the list. -/
theorem turn_heeds (x : Session) (l : Loop) : Heeds conn (fun _ => False) (turn x l) := by
  refine ⟨trivial, ?_⟩
  intro t
  match t with
  | .peer (some chunk) =>
    exact (forward_heeds x l _ chunk).bind (fun _ => trivial) fun _ h => h.elim
  | .peer none => trivial
  | .stream (some chunk) =>
    exact (forward_heeds x l _ chunk).bind (fun _ => trivial) fun _ h => h.elim
  | .stream none => trivial
  | .tick =>
    refine ⟨trivial, fun now => ?_⟩
    dsimp only
    split <;> trivial

/-- The accounting gives up after a yes. -/
theorem account_heeds (x : Session) (l : Loop) :
    Heeds conn (fun r => r = none) (account x l) := by
  refine ⟨trivial, fun now => ?_⟩
  dsimp only
  split
  · refine ⟨rfl, ?_⟩
    intro blocked
    cases blocked with
    | true => trivial
    | false => exact ⟨trivial, fun _ => ⟨trivial, fun _ => ⟨trivial, fun _ => ⟨trivial, fun _ =>
        trivial⟩⟩⟩⟩
  · trivial

theorem relayLoop_heeds (x : Session) (n : ℕ) (l : Loop) :
    Heeds conn (fun _ => True) (relayLoop x n l) := by
  induction n generalizing l with
  | zero => trivial
  | succ n ih =>
    rw [relayLoop]
    refine (turn_heeds x l).bind ?_ fun _ h => h.elim
    intro r
    cases r with
    | error _ => trivial
    | ok r =>
      cases r with
      | none => trivial
      | some l =>
        refine (account_heeds x l).bind ?_ ?_
        · intro l'
          cases l' with
          | none => trivial
          | some l' => exact ih l'
        · rintro _ rfl
          trivial

theorem pairedWith_heeds (stream peer : Stream) :
    Heeds conn (fun _ => True) (pairedWith conn stream peer) := by
  have hrelay : ∀ stream peer id, Heeds conn (fun _ => True)
      (relay conn.addr stream peer id conn.turns) := fun stream peer id =>
    ⟨trivial, fun tm => ⟨trivial, fun (sb : ℕ) => ⟨trivial, fun (limitSpeed : ℕ) => ⟨trivial,
      fun (threshold : ℕ) => ⟨trivial, fun lastRecvTime =>
        relayLoop_heeds ⟨conn.addr.ip.toText, id, stream, peer, sb, limitSpeed,
          sb * threshold / 100000⟩ conn.turns ⟨tm, 0, 0, 0, 0, false, false, lastRecvTime⟩⟩⟩⟩⟩⟩
  refine ⟨trivial, fun _ => (hrelay _ _ _).bind ?_ ?_⟩
  · exact fun _ => ⟨trivial, fun _ => trivial⟩
  · exact fun _ _ => ⟨trivial, fun _ => trivial⟩

theorem makePair_heeds (key : String) (c : ConnId) :
    Heeds conn (fun _ => True) (makePair_ key c conn) := by
  rw [makePair_eq]
  cases conn.request? key with
  | none => trivial
  | some uuid =>
    refine ⟨trivial, ?_⟩
    rintro (_ | peer)
    · exact ⟨trivial, fun _ => ⟨trivial, fun _ => trivial⟩⟩
    · exact pairedWith_heeds _ peer

/-- **Every task heeds the list.** -/
theorem handleConnection_heeds (hbb : HbbCommon) (key : String) (c : ConnId) :
    Heeds conn (fun _ => True) (handleConnection hbb key c conn) := by
  unfold handleConnection
  dsimp only
  split
  · exact ⟨rfl, fun _ => trivial⟩
  · refine ⟨trivial, ?_⟩
    intro blocked
    cases blocked with
    | true => trivial
    | false => exact makePair_heeds key c

end Heeds

/-! ### Runs -/

/-- No line that is typed takes the address out of `BLOCKLIST`. -/
def Spares (lines : ConnId → String) (ip : String) (cfg : Config RelaySig State ConnId Unit)
    (c : ConnId) (_ : Env) : Prop :=
  ∀ f, (cfg.task c).next? = some (.checkCmd f) → ruling .block ip (lines c) ≠ some false

section Runs

variable {hbb : HbbCommon} {key : String} {conns : ConnId → Conn} {s : State} {F : Floats}
  {lines : ConnId → String} {cfg : Config RelaySig State ConnId Unit} {ip : String}

/-- A line that does not take an address out leaves it in. -/
theorem Conn.Types.keeps {conn : Conn} {line : String} (h : conn.Types F line)
    (hspare : ruling .block ip line ≠ some false) {s : State} (hin : ip ∈ s.blocklist) :
    ip ∈ (conn.command s).blocklist := by
  obtain ⟨total, speed, hcmd⟩ := h
  rw [hcmd, typed]
  have hlist := (mem_list_checkCmd F ⟨s, total, speed⟩ .block ip line).mpr
  refine hlist ?_
  cases hrule : ruling .block ip line with
  | none => exact decide_eq_true hin
  | some b =>
    cases b with
    | true => rfl
    | false => exact absurd hrule hspare

/-- **What is blocked stays blocked.** -/
theorem act_keeps_blocked (hconsole : ∀ c, (conns c).Types F (lines c)) {c : ConnId} {o : Op}
    {k : o.Res → Prog RelaySig Unit} (hheeds : Heeds (conns c) (fun _ => True) (.op o k))
    (hspare : ∀ f, o = .checkCmd f → ruling .block ip (lines c) ≠ some false) (e : Env)
    {s : State} (hin : ip ∈ s.blocklist) : ip ∈ (o.exec e s).1.blocklist := by
  cases o with
  | checkCmd f =>
    obtain rfl : f = (conns c).command := hheeds.1
    exact (hconsole c).keeps (hspare _ rfl) hin
  | take c uuid =>
    simp only [Op.exec, Op.act]
    split <;> exact hin
  | select stream peer =>
    simp only [Op.exec, Op.act]
    split <;> exact hin
  | sendRaw stream chunk =>
    simp only [Op.exec, Op.act]
    split <;> exact hin
  | _ => exact hin

/-- Every task that is left heeds the list. -/
theorem reach_heeds {ok : Config RelaySig State ConnId Unit → ConnId → Env → Prop}
    (h : Reach machine ok (start hbb key conns s) cfg) (c : ConnId) :
    Heeds (conns c) (fun _ => True) (cfg.task c) := by
  induction h with
  | refl => exact handleConnection_heeds hbb key c
  | @step cfg _ i e _ ih =>
    cases hi : cfg.task i with
    | ret a => rwa [Config.step_ret _ hi]
    | op o k =>
      rw [Config.step_op _ hi]
      by_cases hc : c = i
      · subst hc
        rw [hi] at ih
        simpa using ih.2 _
      · simpa only [Function.update_of_ne hc] using ih

/-- What holds while an address is blocked. -/
structure Shut (conns : ConnId → Conn) (ip : String) (past : List (ConnId × Op))
    (cfg : Config RelaySig State ConnId Unit) : Prop where
  /-- It is. -/
  blocked : ip ∈ cfg.st.blocklist
  /-- The tasks heed the list. -/
  heeds : ∀ c, Heeds (conns c) (fun _ => True) (cfg.task c)
  /-- Who has found it there only withdraws. -/
  ends : ∀ c, (c, .blocked ip) ∈ past → (cfg.task c).All Op.Withdraws
  /-- And only did so since. -/
  since : Chronicle (fun ev older => (ev.1, .blocked ip) ∈ older → ev.2.Withdraws) past

/-- It holds where the address is found in the list. -/
theorem shut_start {ok : Config RelaySig State ConnId Unit → ConnId → Env → Prop}
    (h : Reach machine ok (start hbb key conns s) cfg) (hin : ip ∈ cfg.st.blocklist) :
    Shut conns ip [] cfg where
  blocked := hin
  heeds := reach_heeds h
  ends _ ha := (List.not_mem_nil ha).elim
  since := trivial

/-- **Every step keeps it.** -/
theorem Shut.step (hconsole : ∀ c, (conns c).Types F (lines c)) {past : List (ConnId × Op)}
    (h : Shut conns ip past cfg) {c : ConnId} {e : Env} {o : Op} {k : o.Res → Prog RelaySig Unit}
    (hspare : Spares lines ip cfg c e) (htask : cfg.task c = .op o k) :
    Shut conns ip ((c, o) :: past)
      ⟨(machine.exec e o cfg.st).1,
        Function.update cfg.task c (k (machine.exec e o cfg.st).2)⟩ := by
  have hheeds := h.heeds c
  rw [htask] at hheeds
  refine ⟨?_, fun a => ?_, fun a ha => ?_, ?_, h.since⟩
  · refine act_keeps_blocked hconsole hheeds (fun f hf => hspare f ?_) e h.blocked
    rw [htask, Prog.next?_op, hf]
  · by_cases hac : a = c
    · subst hac
      simpa only [Function.update_self] using hheeds.2 _
    · simpa only [Function.update_of_ne hac] using h.heeds a
  · dsimp only
    by_cases hac : a = c
    · subst hac
      rw [Function.update_self]
      rcases List.mem_cons.mp ha with heq | hpast
      · -- it finds the address in the list now
        obtain rfl : o = .blocked ip := (Prod.mk.inj heq).2.symm
        have hyes : (machine.exec e (.blocked ip) cfg.st).2 = true := decide_eq_true h.blocked
        rw [hyes]
        exact Prog.Only.all hheeds.1
      · have hall := h.ends a hpast
        rw [htask] at hall
        exact hall.2 _
    · rw [Function.update_of_ne hac]
      refine h.ends a ?_
      rcases List.mem_cons.mp ha with heq | hpast
      · exact absurd (Prod.mk.inj heq).1 hac
      · exact hpast
  · intro hpast
    have hall := h.ends c hpast
    rw [htask] at hall
    exact hall.1

/-- A connection from the address that has not begun, or was turned away. -/
theorem turned_away (hconsole : ∀ c, (conns c).Types F (lines c))
    (h : Reach machine (fun _ _ _ => True) (start hbb key conns s) cfg)
    (hin : ip ∈ cfg.st.blocklist) {l : List (ConnId × Env)}
    (hl : cfg.Along machine (Spares lines ip) l) {c : ConnId}
    (hnew : cfg.task c = handleConnection hbb key c (conns c))
    (hfrom : (hbb.tryIntoV4 (conns c).tcpAddr).ip.toText = ip)
    (hclient : (conns c).ws = true ∨ (hbb.tryIntoV4 (conns c).tcpAddr).ip.isLoopback = false) :
    ∀ o, (c, o) ∈ cfg.performed machine l → o = .blocked ip := by
  have hcode : handleConnection hbb key c (conns c) = .op (.blocked ip) fun blocked : Bool =>
      if blocked then .ret () else makePair_ key c (conns c) := by
    unfold handleConnection
    dsimp only
    rw [if_neg (by rcases hclient with h | h <;> simp [h]), hfrom]
  -- until it is looked up it has done nothing, and afterwards nothing is left of it
  have hstep : ∀ past cfg' i e o k, (Shut conns ip past cfg' ∧
      (∀ o, (c, o) ∈ past → o = .blocked ip) ∧
      (cfg'.task c = handleConnection hbb key c (conns c) ∨ cfg'.task c = .ret ())) →
      Spares lines ip cfg' i e → cfg'.task i = .op o k → Shut conns ip ((i, o) :: past)
        ⟨(machine.exec e o cfg'.st).1,
          Function.update cfg'.task i (k (machine.exec e o cfg'.st).2)⟩ ∧
      (∀ o', (c, o') ∈ (i, o) :: past → o' = .blocked ip) ∧
      (Function.update cfg'.task i (k (machine.exec e o cfg'.st).2) c =
          handleConnection hbb key c (conns c) ∨
        Function.update cfg'.task i (k (machine.exec e o cfg'.st).2) c = .ret ()) := by
    rintro past cfg' i e o k ⟨hshut, hpast, hleft⟩ hspare htask
    have hnext := hshut.step hconsole hspare htask
    by_cases hic : c = i
    · subst hic
      rcases hleft with hleft | hleft
      · rw [hleft, hcode] at htask
        cases htask
        have hyes : (machine.exec e (.blocked ip) cfg'.st).2 = true :=
          decide_eq_true hshut.blocked
        refine ⟨hnext, fun o' ho' => ?_, Or.inr ?_⟩
        · rcases List.mem_cons.mp ho' with heq | ho'
          · exact (Prod.mk.inj heq).2
          · exact hpast o' ho'
        · rw [Function.update_self, hyes]
          rfl
      · rw [hleft] at htask
        cases htask
    · refine ⟨hnext, fun o' ho' => ?_, by rwa [Function.update_of_ne hic]⟩
      rcases List.mem_cons.mp ho' with heq | ho'
      · exact absurd (Prod.mk.inj heq).1 hic
      · exact hpast o' ho'
  have hrun := performed_along
    (P := fun past cfg' => Shut conns ip past cfg' ∧ (∀ o, (c, o) ∈ past → o = .blocked ip) ∧
      (cfg'.task c = handleConnection hbb key c (conns c) ∨ cfg'.task c = .ret ()))
    ⟨shut_start h hin, fun o ho => (List.not_mem_nil ho).elim, Or.inl hnew⟩ hstep l hl
  exact hrun.2.1

/-- **Blocking takes effect.**  While an address is in `BLOCKLIST` and no line takes it out, in
every order of what the tasks and the console do: it stays there; a task that has looked it up
does nothing from then on but take its session out of `USAGE`; and a client that comes in from
it does nothing but being looked up. -/
theorem blocked_stays_out (hconsole : ∀ c, (conns c).Types F (lines c))
    (h : Reach machine (fun _ _ _ => True) (start hbb key conns s) cfg)
    (hin : ip ∈ cfg.st.blocklist) {l : List (ConnId × Env)}
    (hl : cfg.Along machine (Spares lines ip) l) :
    ip ∈ (cfg.sched machine l).st.blocklist ∧
      (∀ newer older c, cfg.performed machine l = newer ++ (c, .blocked ip) :: older →
        ∀ o, (c, o) ∈ newer → ∃ id, o = .usageRemove id) ∧
      ∀ c, cfg.task c = handleConnection hbb key c (conns c) →
        (hbb.tryIntoV4 (conns c).tcpAddr).ip.toText = ip →
        (conns c).ws = true ∨ (hbb.tryIntoV4 (conns c).tcpAddr).ip.isLoopback = false →
        ∀ o, (c, o) ∈ cfg.performed machine l → o = .blocked ip := by
  have hshut := performed_along (P := Shut conns ip)
    (shut_start h hin) (fun _ _ _ _ _ _ hP hspare htask => hP.step hconsole hspare htask) l hl
  refine ⟨hshut.blocked, fun newer older c hsplit o ho => ?_,
    fun c hnew hfrom hclient => turned_away hconsole h hin hl hnew hfrom hclient⟩
  -- where it comes in the history, the lookup is behind it
  obtain ⟨newest, middle, hmid⟩ := List.append_of_mem ho
  have hsince := hshut.since
  rw [hsplit, hmid, List.append_assoc, List.cons_append] at hsince
  have hw : o.Withdraws :=
    Chronicle.of_append hsince (List.mem_append_right _ List.mem_cons_self)
  cases o with
  | usageRemove id => exact ⟨id, rfl⟩
  | _ => exact hw.elim

/-- A schedule on which nobody types a line that takes the address out. -/
theorem along_spares (hline : ∀ c, ruling .block ip (lines c) ≠ some false)
    (cfg : Config RelaySig State ConnId Unit) (l : List (ConnId × Env)) :
    cfg.Along machine (Spares lines ip) l := by
  induction l generalizing cfg with
  | nil => trivial
  | cons x l ih => exact ⟨fun _ _ => hline x.1, ih _⟩

end Runs

/-- The line that blocks the clients of the sample. -/
def blockLine (_ : ConnId) : String := "Ba 192.0.2.7"

/-- Clients from one address, and the console. -/
def clientsAndConsole (c : ConnId) : Conn :=
  { asking "u" "k" 2 with
    tcpAddr := if c = 3 then ⟨.ofOctets 127 0 0 1, 40000⟩ else ⟨.ofOctets 192 0 2 7, 21117⟩
    command := typed .whole 0 0 (blockLine c) }

/-- Two clients are paired when the console blocks their address. -/
def blockedPair : Config RelaySig State ConnId Unit :=
  (start plainHbb "k" clientsAndConsole .blank).sched machine <|
    List.replicate 3 (0, .at 0) ++ List.replicate 8 (1, .at 0) ++ [(3, .at 0)]

/-- The session goes on, and a third client comes in. -/
def afterBlock : List (ConnId × Env) :=
  List.replicate 8 (1, .at 2000) ++ List.replicate 4 (2, .at 2000)

theorem blocked_stays_out_afterBlock :
    ((blockedPair.sched machine afterBlock).task 1).result? = some () ∧
      ∀ o, (2, o) ∈ blockedPair.performed machine afterBlock → o = .blocked "192.0.2.7" := by
  have hreach : Reach machine (fun _ _ _ => True) (start plainHbb "k" clientsAndConsole .blank)
      blockedPair := reach_sched (along_true _ _)
  have hconsole : ∀ c, (clientsAndConsole c).Types .whole (blockLine c) := by
    intro c
    refine ⟨0, 0, ?_⟩
    dsimp only [clientsAndConsole]
  have hin : "192.0.2.7" ∈ blockedPair.st.blocklist := by decide +kernel
  have hline : ∀ c, ruling .block "192.0.2.7" (blockLine c) ≠ some false := by
    intro c
    unfold blockLine
    decide +kernel
  refine ⟨by decide +kernel, ?_⟩
  exact (blocked_stays_out hconsole hreach hin (along_spares hline _ afterBlock)).2.2 2 rfl
    (by decide) (Or.inr (by decide))

end Hbbr

end RustdeskServer
