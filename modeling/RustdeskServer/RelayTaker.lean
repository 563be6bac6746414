import RustdeskServer.RelayPhases
import RustdeskServer.RelayStream

/-!
# The connection that finds a partner

A connection that finds a stream under its `uuid` takes it out of `PEERS` and relays between its
own stream and that one.  In its task this is one session, with an entry in `USAGE` before it
and the removal of the entry after it.

## Main definitions

* `Pairing` — a session with the entries of its usage around it.
* `RelaysBetween` — a program that does what such a session does.
* `TookToRelay` — a run has a step at which a connection takes a stream to relay with it.

## Main results

* `relaysBetween_pairedWith` — **what is left of the task relays between the two streams.**
* `tookToRelay_of_paired` — **who takes a stream relays with it.**
-/

namespace RustdeskServer

namespace Hbbr

open Atomic

/-! ### A session and its usage -/

/-- A session, with the key of its usage. -/
inductive Pairing
  /-- The usage is entered. -/
  | opening (id : String) (s : Sess)
  /-- The session goes on; when it has ended the usage is removed. -/
  | relaying (id : String) (s : Sess)
  /-- Nothing is left. -/
  | closed

namespace Pairing

/-- The operation that comes next. -/
def next? : Pairing → Option Op
  | opening id _ => some (.usageInsert id (0, 0, 0, 0))
  | relaying id s => some (s.next?.getD (.usageRemove id))
  | closed => none

/-- After one operation. -/
def step : Pairing → Find → Pairing
  | opening id s, _ => relaying id s
  | relaying id s, f => if s.next? = none then closed else relaying id (s.step f)
  | closed, _ => closed

/-- A session of this connection between two streams. -/
def begin (conn : Conn) (stream peer : Stream) : Pairing :=
  let id := conn.addr.ip.toText ++ ":" ++ toString conn.addr.port.toNat
  opening id (Sess.start conn.addr stream peer id conn.turns)

end Pairing

/-- The program relays between two streams. -/
structure RelaysBetween (conn : Conn) (stream peer : Stream) (p : Prog RelaySig Unit) : Prop where
  /-- It does what a session between them does, whatever it finds. -/
  session : machine.Tracks Pairing.next? Pairing.step Find.input (fun t _ => t = .closed)
    (.begin conn stream peer) p
  /-- What it receives from one it sends to the other, in order, but for one message. -/
  carries : ∀ l : List Find, ∃ toStream toPeer : List Bytes,
    receivedOf .peer (machine.trace p (l.map Find.input)) =
        sentOf stream (machine.trace p (l.map Find.input)) ++ toStream ∧
      receivedOf .stream (machine.trace p (l.map Find.input)) =
        sentOf peer (machine.trace p (l.map Find.input)) ++ toPeer ∧
      toStream.length + toPeer.length ≤ 1

theorem tracks_pairing {s : Sess} {p : Prog RelaySig (Except String Unit)} (h : s.Runs p)
    (id : String) : machine.Tracks Pairing.next? Pairing.step Find.input (fun t _ => t = .closed)
      (.relaying id s) (p >>= fun _ => .op (.usageRemove id) fun _ => .ret ()) := by
  refine Machine.Tracks.bind (Pairing.relaying id) ?_ ?_ ?_ h
  · intro s o ho
    rw [Pairing.next?, ho, Option.getD_some]
  · intro s f hs
    exact if_neg hs
  · intro s _ hs _
    refine ⟨by rw [Pairing.next?, hs, Option.getD_none], fun f => ⟨?_, ?_⟩⟩
    · rw [Pairing.step, if_pos hs, Pairing.next?]
    · rw [Pairing.step, if_pos hs]

/-- The messages of an end are told by the operations that have one. -/
theorem flatMap_messageOf {κ : Type} [DecidableEq κ] (k : κ) (d : Done → Option (κ × Bytes))
    (tr : List Done) : (tr.flatMap fun x => messageOf k (d x)) =
      (tr.filterMap d).flatMap fun m => messageOf k (some m) := by
  induction tr with
  | nil => rfl
  | cons x tr ih =>
    rw [List.flatMap_cons, ih, List.filterMap_cons]
    cases d x with
    | none => rfl
    | some m => rfl

theorem receivedOf_congr {tr tr' : List Done}
    (h : tr.filterMap Done.received = tr'.filterMap Done.received) (side : Side) :
    receivedOf side tr = receivedOf side tr' := by
  rw [receivedOf, receivedOf, flatMap_messageOf, h, ← flatMap_messageOf]

theorem sentOf_congr {tr tr' : List Done} (h : tr.filterMap Done.sent = tr'.filterMap Done.sent)
    (dst : Stream) : sentOf dst tr = sentOf dst tr' := by
  rw [sentOf, sentOf, flatMap_messageOf, h, ← flatMap_messageOf]

theorem messageOf_length_le {κ : Type} [DecidableEq κ] {k k' : κ} (h : k ≠ k')
    (m : Option (κ × Bytes)) : (messageOf k m).length + (messageOf k' m).length ≤ 1 := by
  match m with
  | none => exact Nat.zero_le _
  | some (k₀, bytes) =>
    rw [messageOf, messageOf]
    split_ifs with hk hk'
    · exact absurd (hk.symm.trans hk') h
    · exact le_rfl
    · exact le_rfl
    · exact Nat.zero_le _

/-- What a session receives from one end it sends to the other, but for one message. -/
theorem relay_carries (addr : SocketAddr) {stream peer : Stream} (hne : stream ≠ peer)
    (id : String) (turns : ℕ) (l : List Find) : ∃ toStream toPeer : List Bytes,
      receivedOf .peer (machine.trace (relay addr stream peer id turns) (l.map Find.input)) =
          sentOf stream (machine.trace (relay addr stream peer id turns) (l.map Find.input)) ++
            toStream ∧
        receivedOf .stream (machine.trace (relay addr stream peer id turns) (l.map Find.input)) =
          sentOf peer (machine.trace (relay addr stream peer id turns) (l.map Find.input)) ++
            toPeer ∧
        toStream.length + toPeer.length ≤ 1 := by
  obtain ⟨⟨hs, hp⟩, hmessages, -, -⟩ := Sess.carried_run addr hne id turns l
  have hpeer := hmessages .peer
  have hstream := hmessages .stream
  rw [Session.other, hs] at hpeer
  rw [Session.other, hp] at hstream
  exact ⟨_, _, hpeer, hstream, messageOf_length_le hne _⟩

/-- Between the entries of the usage, a connection that found a partner does what a session
does. -/
theorem filterMap_pairedWith {γ : Type} {d : Done → Option γ}
    (hremove : ∀ id r, d ⟨.usageRemove id, r⟩ = none)
    (hinsert : ∀ id u r, d ⟨.usageInsert id u, r⟩ = none) (conn : Conn) (stream peer : Stream)
    (f : Find) (l : List Find) :
    let raw := !stream.ws && !peer.ws
    (machine.trace (pairedWith conn stream peer) ((f :: l).map Find.input)).filterMap d =
      (machine.trace (relay conn.addr (if raw then stream.setRaw else stream)
        (if raw then peer.setRaw else peer)
        (conn.addr.ip.toText ++ ":" ++ toString conn.addr.port.toNat) conn.turns)
        (l.map Find.input)).filterMap d := by
  intro raw
  have hbind := Machine.filterMap_trace_bind (M := machine) (d := d)
    (p := relay conn.addr (if raw then stream.setRaw else stream)
      (if raw then peer.setRaw else peer)
      (conn.addr.ip.toText ++ ":" ++ toString conn.addr.port.toNat) conn.turns)
    (f := fun _ => .op (.usageRemove _) fun _ => .ret ())
    (fun _ => ⟨hremove (conn.addr.ip.toText ++ ":" ++ toString conn.addr.port.toNat),
      fun _ => trivial⟩) (l.map Find.input)
  rw [← hbind]
  change List.filterMap d (_ :: _) = _
  rw [List.filterMap_cons, hinsert]
  rfl

/-- **What is left of the task of a connection that found a partner relays between the two
streams**, without their frames if both are plain. -/
theorem relaysBetween_pairedWith (conn : Conn) {stream peer : Stream}
    (hne : stream.conn ≠ peer.conn) : ∃ own other, own.conn = stream.conn ∧
      other.conn = peer.conn ∧ RelaysBetween conn own other (pairedWith conn stream peer) := by
  set own := if !stream.ws && !peer.ws then stream.setRaw else stream with hown
  set other := if !stream.ws && !peer.ws then peer.setRaw else peer with hother
  have hconn : own.conn = stream.conn := by rw [hown]; split <;> simp
  have hconn' : other.conn = peer.conn := by rw [hother]; split <;> simp
  have hdiffer : own ≠ other := fun heq => hne (by rw [← hconn, ← hconn', heq])
  refine ⟨own, other, hconn, hconn', ⟨rfl, fun _ => ?_⟩, fun l => ?_⟩
  · exact tracks_pairing (Sess.relay_feed conn.addr own other _ conn.turns []) _
  · cases l with
    | nil => exact ⟨[], [], rfl, rfl, Nat.zero_le _⟩
    | cons f l =>
      have hreceived := receivedOf_congr
        (@filterMap_pairedWith _ Done.received (fun _ _ => rfl) (fun _ _ _ => rfl) conn stream
          peer f l)
      have hsent := sentOf_congr
        (@filterMap_pairedWith _ Done.sent (fun _ _ => rfl) (fun _ _ _ => rfl) conn stream peer f l)
      simp only [hreceived, hsent]
      exact relay_carries conn.addr hdiffer _ conn.turns l

/-! ### The step that takes a stream -/

section Taken

variable {hbb : HbbCommon} {key uuid : String} {conns : ConnId → Conn} {s s' : State}
  {ok : Config RelaySig State ConnId Unit → ConnId → Env → Prop}

/-- A task that finds a stream goes on with it. -/
theorem Point.taken {c : ConnId} {conn : Conn} {ph : Phase} {k : Option Stream → Prog RelaySig Unit}
    (h : Point hbb key c conn ph (.op (.take c uuid) k)) (peer : Stream) :
    k (some peer) = pairedWith conn ⟨c, conn.ws, false⟩ peer := by
  generalize hp : (Prog.op (.take c uuid) k : Prog RelaySig Unit) = p at h
  cases h with
  | handle =>
    unfold handleConnection at hp
    dsimp only at hp
    split at hp <;> cases hp
  | spawned =>
    rw [makePair_eq] at hp
    cases hask : conn.request? key with
    | none =>
      rw [hask] at hp
      cases hp
    | some u =>
      rw [hask] at hp
      cases hp
      rfl
  | missed | waiting => cases hp
  | relaying hr =>
    subst hp
    exact hr.1.elim
  | finished => cases hp

/-- A stream is taken by the look of the one that takes it. -/
theorem Moves.of_paired {ask : Option String} {o : Op} {e : Env} {c c' d : ConnId}
    {old ph : Phase} (hm : Moves ask o e c s s' old ph) (hnew : .paired c' d uuid ∈ s'.log) :
    .paired c' d uuid ∈ s.log ∨ (c' = c ∧ o = .take c uuid ∧
      ∃ peer, s.peers.lookup uuid = some peer ∧ peer.conn = d) := by
  cases hm with
  | arrive hs | refuse hs | work hs =>
    rw [hs.log] at hnew
    exact Or.inl hnew
  | pair ho _ hlook _ _ hlog =>
    rw [hlog, List.mem_cons] at hnew
    rcases hnew with heq | hold
    · cases heq
      exact Or.inr ⟨rfl, ho, _, hlook, rfl⟩
    · exact Or.inl hold
  | miss _ _ _ _ _ hlog | insert _ _ _ _ _ hlog | cleanUp _ _ _ _ hlog | receive _ _ _ hlog
  | send _ _ _ _ hlog =>
    rw [hlog, List.mem_cons] at hnew
    exact Or.inl (hnew.resolve_left nofun)

/-- A run has a step at which `c` finds a stream of `d` under the `uuid`; what is left of its
task then relays between its stream and that one. -/
def TookToRelay (ok : Config RelaySig State ConnId Unit → ConnId → Env → Prop)
    (conns : ConnId → Conn) (cfg₀ cfg : Config RelaySig State ConnId Unit) (c d : ConnId)
    (uuid : String) : Prop :=
  ∃ (before : Config RelaySig State ConnId Unit) (e : Env) (stream own other : Stream),
    Reach machine ok cfg₀ before ∧ ok before c e ∧
    (before.task c).next? = some (.take c uuid) ∧
    before.st.peers.lookup uuid = some stream ∧ stream.conn = d ∧
    own.conn = c ∧ other.conn = d ∧
    RelaysBetween (conns c) own other ((before.step machine c e).task c) ∧
    Reach machine ok (before.step machine c e) cfg

theorem TookToRelay.step {cfg₀ cfg : Config RelaySig State ConnId Unit} {c d : ConnId}
    (h : TookToRelay ok conns cfg₀ cfg c d uuid) (i : ConnId) (e : Env) (hok : ok cfg i e) :
    TookToRelay ok conns cfg₀ (cfg.step machine i e) c d uuid := by
  obtain ⟨before, e₀, stream, own, other, hb, hok₀, hnext, hlook, hd, ho, hp, hr, hrest⟩ := h
  exact ⟨before, e₀, stream, own, other, hb, hok₀, hnext, hlook, hd, ho, hp, hr, hrest.step i e hok⟩

/-- **Who takes the stream of another relays with it.** -/
theorem tookToRelay_of_paired {cfg : Config RelaySig State ConnId Unit}
    (h : Reach machine ok (start hbb key conns s) cfg) {c d : ConnId} (hcd : c ≠ d)
    (hp : .paired c d uuid ∈ cfg.st.log) :
    TookToRelay ok conns (start hbb key conns s) cfg c d uuid := by
  induction h with
  | refl => cases hp
  | @step cfg hcfg i e hok ih =>
    obtain ⟨phases, hph, -⟩ :=
      reach_phases (P := fun _ _ => True) trivial (fun _ _ _ _ _ _ _ _ _ _ _ _ _ => trivial) hcfg
    cases htask : cfg.task i with
    | ret a =>
      rw [Config.step_ret _ htask] at hp ⊢
      exact ih hp
    | op o k =>
      have hpoint := hph i
      rw [htask] at hpoint
      obtain ⟨ph, -, hmove⟩ := hpoint.move e cfg.st
      have hp' := hp
      rw [Config.step_op _ htask] at hp'
      rcases hmove.of_paired hp' with hold | ⟨rfl, rfl, stream, hlook, rfl⟩
      · exact (ih hold).step i e hok
      · obtain ⟨own, other, hown, hother, hrelay⟩ :=
          @relaysBetween_pairedWith (conns c) ⟨c, (conns c).ws, false⟩ stream hcd
        refine ⟨cfg, e, stream, own, other, hcfg, hok, by rw [htask, Prog.next?_op], hlook, rfl,
          hown, hother, ?_, .refl⟩
        -- it has found the stream
        have hfound : (machine.exec e (.take c uuid) cfg.st).2 = some stream := by
          simp only [machine_exec, Op.act, hlook]
        rw [Config.step_op _ htask]
        dsimp only
        rw [Function.update_self, hfound, hpoint.taken stream]
        exact hrelay

end Taken

end Hbbr

end RustdeskServer
