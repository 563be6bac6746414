import RustdeskServer.RelayConsole
import RustdeskServer.RelayPhases

/-!
# Who is in the usage report

A task that has found a partner files its session in `USAGE` under its own address and port,
replaces the entry once a second, and takes it out when the session is over.  Two clients can
share that key: the port of a websocket behind a proxy is always zero.  Then the one that ends
first takes the entry of both out, and it comes back with the next report of the other.

What is filed are four numbers, and the console divides one by another.  That the average
stays below the highest rate is an invariant of the loop's variables, carried through the
rounding of every second.

## Main definitions

* `Honest` — numbers that a session can have.
* `Standing`, `Spot` — where a task stands with its entry, and what is left of it there.
* `Filed` — the invariant.

## Main results

* `Spot.move` — **what a step of a task does to `USAGE`.**
* `usage_names_sessions` — **who is in the report has a session, and who has a session is in
  the report unless it shares its key.**
* `usage_report` — **what the report says of them.**
-/

namespace RustdeskServer

namespace Hbbr

open Atomic

/-- The key under which a connection's session is filed. -/
def Conn.usageId (conn : Conn) : String :=
  conn.addr.ip.toText ++ ":" ++ toString conn.addr.port.toNat

/-- The numbers of a session: none yet, or those of at least a second, in which neither the
average nor the current rate is above the highest. -/
def Honest (u : Usage) : Prop :=
  u = (0, 0, 0, 0) ∨ 1000 ≤ u.1 ∧ u.2.1 / u.1 ≤ u.2.2.1 ∧ u.2.2.2 ≤ u.2.2.1

/-! ### What a session files -/

/-- The operation belongs to a session that is filed under `id`. -/
def Op.FiledUnder (id : String) : Op → Prop
  | .usageInsert id' u => id' = id ∧ Honest u
  | .usageRemove _ | .take _ _ | .insert _ _ | .cleanUp _ _ | .checkCmd _ => False
  | _ => True

/-- What was counted before the current second is below the highest rate. -/
def Loop.Rated (l : Loop) : Prop :=
  l.elapsed = 0 ∧ l.total = l.totalS ∨
    1000 ≤ l.elapsed ∧ ∃ old < (l.highestS + 1) * l.elapsed, l.total = old + l.totalS

/-- Where an answer goes on, the variables are rated. -/
def GoesOnRated : Except String (Option Loop) → Prop
  | .ok (some l) => l.Rated
  | _ => True

section Files

variable {id : String}

/-- A chunk counts for the whole and for the second. -/
theorem Loop.Rated.count {l : Loop} (h : l.Rated) (now : Instant) (nb : ℕ) :
    Loop.Rated { l with
      lastRecvTime := now, total := l.total + nb, totalS := l.totalS + nb } := by
  rcases h with ⟨helapsed, htotal⟩ | ⟨helapsed, old, hold, htotal⟩
  · exact Or.inl ⟨helapsed, by dsimp only; omega⟩
  · exact Or.inr ⟨helapsed, old, hold, by dsimp only; omega⟩

theorem forward_files {l : Loop} (h : l.Rated) (x : Session) (dst : Stream) (chunk : Chunk) :
    (forward x l dst chunk).Only (Op.FiledUnder id) fun r => GoesOnRated (r.map some) := by
  refine ⟨trivial, fun now => ⟨trivial, fun _ => ⟨trivial, fun _ => ?_⟩⟩⟩
  have hcount := h.count now (chunk.bytes.length * 8)
  dsimp only
  split
  · exact hcount
  · refine ⟨trivial, ?_⟩
    intro err
    cases err with
    | none => exact hcount
    | some err => trivial

theorem turn_files {l : Loop} (h : l.Rated) (x : Session) :
    (turn x l).Only (Op.FiledUnder id) GoesOnRated := by
  refine ⟨trivial, ?_⟩
  intro t
  match t with
  | .peer (some chunk) => exact (forward_files h x _ chunk).bind fun _ hr => hr
  | .peer none => trivial
  | .stream (some chunk) => exact (forward_files h x _ chunk).bind fun _ hr => hr
  | .stream none => trivial
  | .tick =>
    refine ⟨trivial, fun now => ?_⟩
    dsimp only
    split
    · trivial
    · exact h

/-- **The second's sum is below the highest rate, and so is the sum of all seconds.** -/
theorem Loop.Rated.below {l : Loop} (h : l.Rated) {n highest : ℕ} (hn : 1000 ≤ n)
    (hspeed : l.totalS / n ≤ highest) (hhighest : l.highestS ≤ highest) :
    l.total < (highest + 1) * (l.elapsed + n) := by
  have hsecond : l.totalS < (highest + 1) * n := by
    have hlt : l.totalS < n * (l.totalS / n + 1) := Nat.lt_mul_div_succ l.totalS (by omega)
    calc l.totalS < n * (l.totalS / n + 1) := hlt
      _ ≤ n * (highest + 1) := Nat.mul_le_mul_left n (by omega)
      _ = (highest + 1) * n := Nat.mul_comm _ _
  rw [Nat.mul_add]
  rcases h with ⟨helapsed, htotal⟩ | ⟨-, old, hold, htotal⟩
  · rw [htotal]
    omega
  · have hgrow : (l.highestS + 1) * l.elapsed ≤ (highest + 1) * l.elapsed :=
      Nat.mul_le_mul_right l.elapsed (by omega)
    omega

theorem account_files {x : Session} {l : Loop} (h : l.Rated) :
    (account x l).Only (Op.FiledUnder x.id) fun r => ∀ l' ∈ r, l'.Rated := by
  refine ⟨trivial, fun now => ?_⟩
  dsimp only
  split
  · next hn =>
    refine ⟨trivial, fun blocked => ?_⟩
    cases blocked with
    | true =>
      intro l' hl'
      cases hl'
    | false =>
      -- the rate of the second, and the highest with it
      have hspeed : l.totalS / elapsedMillis now l.tm ≤
          if l.totalS / elapsedMillis now l.tm > l.highestS then l.totalS / elapsedMillis now l.tm
          else l.highestS := by
        split <;> omega
      have hhighest : l.highestS ≤
          if l.totalS / elapsedMillis now l.tm > l.highestS then l.totalS / elapsedMillis now l.tm
          else l.highestS := by
        split <;> omega
      have hbelow := h.below hn hspeed hhighest
      refine ⟨trivial, fun blacked => ⟨trivial, fun tm => ⟨⟨rfl, Or.inr ⟨?_, ?_, hspeed⟩⟩, fun _ =>
        ⟨trivial, fun startCheck => ?_⟩⟩⟩⟩
      · show 1000 ≤ l.elapsed + elapsedMillis now l.tm
        omega
      · refine Nat.lt_succ_iff.mp ?_
        rw [Nat.div_lt_iff_lt_mul (by dsimp only; omega)]
        exact hbelow
      · intro l' hl'
        cases hl'
        have hrated : 1000 ≤ l.elapsed + elapsedMillis now l.tm := by omega
        split
        · exact Or.inr ⟨hrated, l.total, hbelow, rfl⟩
        · exact Or.inr ⟨hrated, l.total, hbelow, rfl⟩
  · intro l' hl'
    cases hl'
    exact h

theorem relayLoop_files (x : Session) (n : ℕ) {l : Loop} (h : l.Rated) :
    (relayLoop x n l).All (Op.FiledUnder x.id) := by
  induction n generalizing l with
  | zero => trivial
  | succ n ih =>
    rw [relayLoop]
    refine Prog.Only.all (R := fun _ => True) ((turn_files h x).bind ?_)
    intro r hr
    match r, hr with
    | .error _, _ => trivial
    | .ok none, _ => trivial
    | .ok (some l), hr =>
      refine (account_files hr).bind ?_
      intro l' hl'
      cases l' with
      | none => trivial
      | some l' => exact (ih (hl' l' rfl)).only

/-- **A session files honest numbers under its own key.** -/
theorem relay_files (addr : SocketAddr) (stream peer : Stream) (id : String) (turns : ℕ) :
    (relay addr stream peer id turns).All (Op.FiledUnder id) :=
  ⟨trivial, fun tm => ⟨trivial, fun (sb : ℕ) => ⟨trivial, fun (limitSpeed : ℕ) => ⟨trivial,
    fun (threshold : ℕ) => ⟨trivial, fun lastRecvTime =>
      relayLoop_files ⟨addr.ip.toText, id, stream, peer, sb, limitSpeed, sb * threshold / 100000⟩
        turns (l := ⟨tm, 0, 0, 0, 0, false, false, lastRecvTime⟩) (Or.inl ⟨rfl, rfl⟩)⟩⟩⟩⟩⟩

end Files

/-! ### Where a task stands -/

/-- Where a task stands with its entry in `USAGE`. -/
inductive Standing
  /-- It has no partner. -/
  | outside
  /-- It has one, and has not filed its session. -/
  | paired
  /-- Its session is filed. -/
  | listed
  /-- It has taken its session out. -/
  | gone
  deriving DecidableEq

/-- The operation has nothing to do with partners found, with `USAGE` or with the console. -/
def Op.Apart : Op → Prop
  | .usageInsert _ _ | .usageRemove _ | .take _ _ | .checkCmd _ => False
  | _ => True

/-- What is left of the task of connection `c`, by where it stands. -/
inductive Spot (hbb : HbbCommon) (key : String) (c : ConnId) (conn : Conn) :
    Standing → Prog RelaySig Unit → Prop
  /-- The connection is accepted. -/
  | handle : Spot hbb key c conn .outside (handleConnection hbb key c conn)
  /-- Its task is spawned. -/
  | spawned : Spot hbb key c conn .outside (makePair_ key c conn)
  /-- It waits for a partner, or was refused. -/
  | apart {p : Prog RelaySig Unit} (h : p.All Op.Apart) : Spot hbb key c conn .outside p
  /-- It has found one. -/
  | paired (stream peer : Stream) : Spot hbb key c conn .paired (pairedWith conn stream peer)
  /-- It relays. -/
  | listed {p : Prog RelaySig (Except String Unit)} (h : p.All (Op.FiledUnder conn.usageId)) :
      Spot hbb key c conn .listed (p >>= fun _ => .op (.usageRemove conn.usageId) fun _ => .ret ())
  /-- Nothing is left. -/
  | gone : Spot hbb key c conn .gone (.ret ())

/-- What a step of connection `c` does to `USAGE` and to the pairs in the history. -/
inductive Files (c : ConnId) (id : String) (s s' : State) : Standing → Standing → Prop
  /-- Nothing. -/
  | idle {q : Standing} (husage : s'.usage = s.usage)
      (hlog : ∀ a d uuid, .paired a d uuid ∈ s'.log ↔ .paired a d uuid ∈ s.log) :
      Files c id s s' q q
  /-- It finds a partner. -/
  | pair {d : ConnId} {uuid : String} (husage : s'.usage = s.usage)
      (hlog : s'.log = .paired c d uuid :: s.log) : Files c id s s' .outside .paired
  /-- It files its session, or a report of it. -/
  | file {q : Standing} {u : Usage} (hq : q = .paired ∨ q = .listed) (hu : Honest u)
      (husage : s'.usage = s.usage.insert id u) (hlog : s'.log = s.log) :
      Files c id s s' q .listed
  /-- It takes it out. -/
  | remove (husage : s'.usage = s.usage.erase id) (hlog : s'.log = s.log) :
      Files c id s s' .listed .gone

section Move

variable {hbb : HbbCommon} {key : String} {c : ConnId} {conn : Conn}

/-- What an operation apart from `USAGE` and the partners found leaves. -/
theorem Op.Apart.act {o : Op} (h : o.Apart) (e : Env) (s : State) :
    (o.act e s).1.usage = s.usage ∧
      ∀ a d uuid, .paired a d uuid ∈ (o.act e s).1.log ↔ .paired a d uuid ∈ s.log := by
  cases o with
  | usageInsert _ _ | usageRemove _ | take _ _ | checkCmd _ => exact h.elim
  | select stream peer =>
    -- what is read is not a pair
    have hread : ∀ (src : ConnId) (res : Option Bytes) a d uuid,
        .paired a d uuid ∈ receivedFrom src res ++ s.log ↔ .paired a d uuid ∈ s.log := by
      intro src res a d uuid
      cases res <;> simp [receivedFrom]
    unfold Op.act
    cases e.input with
    | peer res => exact ⟨rfl, hread _ res⟩
    | stream res => exact ⟨rfl, hread _ res⟩
    | tick => exact ⟨rfl, fun _ _ _ => Iff.rfl⟩
  | sendRaw stream chunk =>
    unfold Op.act
    cases e.sendFails with
    | some err => exact ⟨rfl, fun _ _ _ => Iff.rfl⟩
    | none => exact ⟨rfl, fun a d uuid => by simp⟩
  | insert uuid stream => exact ⟨rfl, fun a d uuid => by simp [Op.act]⟩
  | cleanUp c uuid => exact ⟨rfl, fun a d uuid => by simp [Op.act]⟩
  | _ => exact ⟨rfl, fun _ _ _ => Iff.rfl⟩

/-- A step of a task that has not asked. -/
theorem makePair_move {o : Op} {k : o.Res → Prog RelaySig Unit}
    (h : makePair_ key c conn = .op o k) (e : Env) (s : State) :
    ∃ q, Spot hbb key c conn q (k (o.act e s).2) ∧
      Files c conn.usageId s (o.exec e s).1 .outside q := by
  rw [makePair_eq] at h
  cases hask : conn.request? key with
  | none =>
    rw [hask] at h
    cases h
  | some uuid =>
    rw [hask] at h
    cases h
    cases hlook : s.peers.lookup uuid with
    | none =>
      have hact : (Op.take c uuid).act e s = ({ s with log := .looked c uuid :: s.log }, none) := by
        simp only [Op.act, hlook]
      unfold Op.exec
      rw [hact]
      refine ⟨.outside, .apart ⟨trivial, fun _ => ⟨trivial, fun _ => trivial⟩⟩, .idle rfl ?_⟩
      intro a d uuid'
      simp
    | some peer =>
      have hact : (Op.take c uuid).act e s = ({ s with
          peers := s.peers.erase uuid
          log := .paired c peer.conn uuid :: s.log }, some peer) := by
        simp only [Op.act, hlook]
      unfold Op.exec
      rw [hact]
      exact ⟨.paired, .paired _ peer, .pair rfl rfl⟩

/-- A step of a session that is filed. -/
theorem listed_move {p : Prog RelaySig (Except String Unit)}
    (h : p.All (Op.FiledUnder conn.usageId)) {o : Op} {k : o.Res → Prog RelaySig Unit}
    (hp : (Prog.op o k : Prog RelaySig Unit) =
      p >>= fun _ => .op (.usageRemove conn.usageId) fun _ => .ret ()) (e : Env) (s : State) :
    ∃ q, Spot hbb key c conn q (k (o.act e s).2) ∧
      Files c conn.usageId s (o.exec e s).1 .listed q := by
  cases p with
  | ret r =>
    cases hp
    exact ⟨.gone, .gone, .remove rfl rfl⟩
  | op o' k' =>
    cases hp
    obtain ⟨ho, hk⟩ := h
    cases o with
    | usageRemove _ | take _ _ | insert _ _ | cleanUp _ _ | checkCmd _ => exact ho.elim
    | usageInsert id u =>
      obtain ⟨rfl, hu⟩ := ho
      exact ⟨.listed, .listed (hk _), .file (Or.inr rfl) hu rfl rfl⟩
    | blocked ip => exact ⟨.listed, .listed (hk _), .idle rfl fun _ _ _ => Iff.rfl⟩
    | blacked ip => exact ⟨.listed, .listed (hk _), .idle rfl fun _ _ _ => Iff.rfl⟩
    | load p => exact ⟨.listed, .listed (hk _), .idle rfl fun _ _ _ => Iff.rfl⟩
    | now => exact ⟨.listed, .listed (hk _), .idle rfl fun _ _ _ => Iff.rfl⟩
    | consume limiter nb => exact ⟨.listed, .listed (hk _), .idle rfl fun _ _ _ => Iff.rfl⟩
    | select stream peer =>
      have hapart := Op.Apart.act (o := .select stream peer) trivial e s
      exact ⟨.listed, .listed (hk _), .idle hapart.1 hapart.2⟩
    | sendRaw stream chunk =>
      have hapart := Op.Apart.act (o := .sendRaw stream chunk) trivial e s
      exact ⟨.listed, .listed (hk _), .idle hapart.1 hapart.2⟩

/-- **What a step of a task does to `USAGE`.** -/
theorem Spot.move (hcmd : ∀ s, (conn.command s).usage = s.usage) {q : Standing} {o : Op}
    {k : o.Res → Prog RelaySig Unit} (h : Spot hbb key c conn q (.op o k)) (e : Env) (s : State) :
    ∃ q', Spot hbb key c conn q' (k (o.act e s).2) ∧
      Files c conn.usageId s (o.exec e s).1 q q' := by
  generalize hp : (Prog.op o k : Prog RelaySig Unit) = p at h
  cases h with
  | handle =>
    unfold handleConnection at hp
    dsimp only at hp
    split at hp
    · cases hp
      exact ⟨.outside, .apart trivial, .idle (hcmd s) fun _ _ _ => Iff.rfl⟩
    · cases hp
      by_cases hb : (hbb.tryIntoV4 conn.tcpAddr).ip.toText ∈ s.blocklist
      · simp only [Op.act, hb, decide_true, if_true]
        exact ⟨.outside, .apart trivial, .idle rfl fun _ _ _ => Iff.rfl⟩
      · simp only [Op.act, hb, decide_false, Bool.false_eq_true, if_false]
        exact ⟨.outside, .spawned, .idle rfl fun _ _ _ => Iff.rfl⟩
  | spawned => exact makePair_move hp.symm e s
  | apart h =>
    subst hp
    have hact := h.1.act e s
    exact ⟨.outside, .apart (h.2 _), .idle hact.1 hact.2⟩
  | paired stream peer =>
    cases hp
    exact ⟨.listed, .listed (relay_files _ _ _ _ _), .file (Or.inl rfl) (Or.inl rfl) rfl rfl⟩
  | listed h => exact listed_move h hp e s
  | gone => cases hp

end Move

/-! ### Runs -/

/-- No other connection that has found a partner shares the key of this one. -/
def OwnKey (conns : ConnId → Conn) (log : List Event) (c : ConnId) : Prop :=
  ∀ c' d uuid, c' ≠ c → .paired c' d uuid ∈ log → (conns c').usageId ≠ (conns c).usageId

/-- The invariant of all runs. -/
structure Filed (conns : ConnId → Conn) (stands : ConnId → Standing) (s : State) : Prop where
  /-- An entry has honest numbers, and is that of a session. -/
  entry : ∀ id u, s.usage.lookup id = some u →
    Honest u ∧ ∃ c, stands c = .listed ∧ (conns c).usageId = id
  /-- A session whose key is its own has an entry. -/
  own : ∀ c, stands c = .listed → OwnKey conns s.log c →
    ∃ u, s.usage.lookup (conns c).usageId = some u
  /-- Who has found a partner is no longer outside. -/
  paired : ∀ c, (∃ d uuid, .paired c d uuid ∈ s.log) ↔ stands c ≠ .outside

section Runs

variable {hbb : HbbCommon} {key : String} {conns : ConnId → Conn} {stands : ConnId → Standing}
  {s s' : State} {c : ConnId}

/-- Nothing is filed or taken out. -/
theorem Filed.keep (h : Filed conns stands s) {q : Standing} (husage : s'.usage = s.usage)
    (hlisted : q = .listed ↔ stands c = .listed)
    (hlog : ∀ a d uuid, .paired a d uuid ∈ s.log → .paired a d uuid ∈ s'.log)
    (hpaired : ∀ a, (∃ d uuid, .paired a d uuid ∈ s'.log) ↔
      Function.update stands c q a ≠ .outside) :
    Filed conns (Function.update stands c q) s' := by
  have hsame : ∀ a, Function.update stands c q a = .listed ↔ stands a = .listed := by
    intro a
    by_cases hac : a = c
    · subst hac
      rw [Function.update_self]
      exact hlisted
    · rw [Function.update_of_ne hac]
  refine ⟨fun id u hl => ?_, fun a ha hown => ?_, hpaired⟩
  · rw [husage] at hl
    obtain ⟨hu, a, ha, hid⟩ := h.entry id u hl
    exact ⟨hu, a, (hsame a).mpr ha, hid⟩
  · rw [husage]
    exact h.own a ((hsame a).mp ha) fun c' d uuid hne hm => hown c' d uuid hne (hlog c' d uuid hm)

/-- A session is filed. -/
theorem Filed.file (h : Filed conns stands s) {u : Usage} (hu : Honest u)
    (husage : s'.usage = s.usage.insert (conns c).usageId u) (hlog : s'.log = s.log)
    (hc : stands c ≠ .outside) : Filed conns (Function.update stands c .listed) s' := by
  refine ⟨fun id u' hl => ?_, fun a ha hown => ?_, fun a => ?_⟩
  · rw [husage] at hl
    by_cases hid : id = (conns c).usageId
    · subst hid
      rw [AList.lookup_insert] at hl
      cases hl
      exact ⟨hu, c, Function.update_self .., rfl⟩
    · rw [AList.lookup_insert_ne hid] at hl
      obtain ⟨hu', a, ha, haid⟩ := h.entry id u' hl
      refine ⟨hu', a, ?_, haid⟩
      by_cases hac : a = c
      · subst hac
        exact Function.update_self ..
      · rw [Function.update_of_ne hac]
        exact ha
  · rw [husage]
    by_cases hac : a = c
    · subst hac
      exact ⟨u, AList.lookup_insert _⟩
    · rw [Function.update_of_ne hac] at ha
      rw [hlog] at hown
      obtain ⟨d, uuid, hm⟩ := (h.paired c).mpr hc
      rw [AList.lookup_insert_ne fun heq => hown c d uuid (Ne.symm hac) hm heq.symm]
      exact h.own a ha hown
  · rw [hlog, h.paired a]
    by_cases hac : a = c
    · subst hac
      rw [Function.update_self]
      exact iff_of_true hc (by decide)
    · rw [Function.update_of_ne hac]

/-- A session is taken out. -/
theorem Filed.remove (h : Filed conns stands s)
    (husage : s'.usage = s.usage.erase (conns c).usageId) (hlog : s'.log = s.log)
    (hc : stands c = .listed) : Filed conns (Function.update stands c .gone) s' := by
  refine ⟨fun id u hl => ?_, fun a ha hown => ?_, fun a => ?_⟩
  · rw [husage] at hl
    have hid : id ≠ (conns c).usageId := by
      rintro rfl
      rw [AList.lookup_erase] at hl
      cases hl
    rw [AList.lookup_erase_ne hid] at hl
    obtain ⟨hu, a, ha, haid⟩ := h.entry id u hl
    have hac : a ≠ c := by
      rintro rfl
      exact hid haid.symm
    exact ⟨hu, a, by rw [Function.update_of_ne hac]; exact ha, haid⟩
  · by_cases hac : a = c
    · subst hac
      rw [Function.update_self] at ha
      cases ha
    · rw [Function.update_of_ne hac] at ha
      rw [hlog] at hown
      obtain ⟨d, uuid, hm⟩ := (h.paired c).mpr (by rw [hc]; decide)
      rw [husage, AList.lookup_erase_ne fun heq => hown c d uuid (Ne.symm hac) hm heq.symm]
      exact h.own a ha hown
  · rw [hlog, h.paired a]
    by_cases hac : a = c
    · subst hac
      rw [Function.update_self, hc]
      exact iff_of_true (by decide) (by decide)
    · rw [Function.update_of_ne hac]

/-- **Every step keeps the invariant.** -/
theorem Filed.step (h : Filed conns stands s) {q : Standing}
    (hfiles : Files c (conns c).usageId s s' (stands c) q) :
    Filed conns (Function.update stands c q) s' := by
  generalize hstand : stands c = st at hfiles
  cases hfiles with
  | idle husage hlog =>
    rw [← hstand, Function.update_eq_self]
    have hkeep := h.keep (c := c) (q := stands c) husage Iff.rfl fun a d uuid => (hlog a d uuid).mpr
    rw [Function.update_eq_self] at hkeep
    refine hkeep fun a => ?_
    simp only [hlog]
    exact h.paired a
  | @pair d uuid husage hlog =>
    have hgrow : ∀ a d uuid, .paired a d uuid ∈ s.log → .paired a d uuid ∈ s'.log := by
      intro a d uuid hm
      rw [hlog]
      exact List.mem_cons_of_mem _ hm
    refine h.keep husage (by simp [hstand]) hgrow fun a => ?_
    by_cases hac : a = c
    · subst hac
      rw [Function.update_self, hlog]
      exact iff_of_true ⟨d, uuid, List.mem_cons_self⟩ (by decide)
    · rw [Function.update_of_ne hac, ← h.paired a, hlog]
      simp [hac]
  | file hq hu husage hlog =>
    refine h.file hu husage hlog ?_
    rw [hstand]
    rcases hq with rfl | rfl <;> decide
  | remove husage hlog => exact h.remove husage hlog hstand

/-- Every task is where it stands. -/
def Stands (hbb : HbbCommon) (key : String) (conns : ConnId → Conn)
    (cfg : Config RelaySig State ConnId Unit) (stands : ConnId → Standing) : Prop :=
  ∀ c, Spot hbb key c (conns c) (stands c) (cfg.task c)

/-- **The invariant holds in every run.** -/
theorem reach_filed (hcmd : ∀ c s, ((conns c).command s).usage = s.usage) (hs : s.usage = ∅)
    {ok : Config RelaySig State ConnId Unit → ConnId → Env → Prop}
    {cfg : Config RelaySig State ConnId Unit} (h : Reach machine ok (start hbb key conns s) cfg) :
    ∃ stands, Stands hbb key conns cfg stands ∧ Filed conns stands cfg.st := by
  induction h with
  | refl =>
    refine ⟨fun _ => .outside, fun c => .handle, fun id u hl => ?_, fun c hc => ?_, fun c => ?_⟩
    · have hempty : (start hbb key conns s).st.usage = ∅ := hs
      rw [hempty, AList.lookup_empty] at hl
      cases hl
    · cases hc
    · exact iff_of_false (by rintro ⟨d, uuid, hm⟩; cases hm) (by simp)
  | @step cfg _ c e _ ih =>
    obtain ⟨stands, hspot, hfiled⟩ := ih
    cases htask : cfg.task c with
    | ret a =>
      rw [Config.step_ret _ htask]
      exact ⟨stands, hspot, hfiled⟩
    | op o k =>
      have hc := hspot c
      rw [htask] at hc
      obtain ⟨q, hq, hfiles⟩ := hc.move (hcmd c) e cfg.st
      rw [Config.step_op _ htask]
      refine ⟨Function.update stands c q, fun j => ?_, hfiled.step hfiles⟩
      by_cases hj : j = c
      · subst hj
        simpa using hq
      · simpa only [Function.update_of_ne hj] using hspot j

end Runs

/-! ### The report -/

/-- The command of a connection is this line of the console. -/
def Conn.Types (F : Floats) (conn : Conn) (line : String) : Prop :=
  ∃ total speed, conn.command = typed F total speed line

theorem Conn.Types.usage {F : Floats} {conn : Conn} {line : String} (h : conn.Types F line)
    (s : State) : (conn.command s).usage = s.usage := by
  obtain ⟨total, speed, hcmd⟩ := h
  rw [hcmd, typed]
  exact checkCmd_usage F _ line

/-- A session that is filed is one of a connection that has a partner, and runs. -/
theorem Filed.session {hbb : HbbCommon} {key : String} {conns : ConnId → Conn}
    {stands : ConnId → Standing} {cfg : Config RelaySig State ConnId Unit}
    (h : Filed conns stands cfg.st) (hspot : Stands hbb key conns cfg stands) {c : ConnId}
    (hc : stands c = .listed) :
    (∃ d uuid, .paired c d uuid ∈ cfg.st.log) ∧ (cfg.task c).result? = none := by
  refine ⟨(h.paired c).mpr (by rw [hc]; decide), ?_⟩
  have hc' := hspot c
  rw [hc] at hc'
  generalize cfg.task c = p at hc'
  cases hc' with
  | @listed p _ => cases p <;> rfl

section Report

variable {hbb : HbbCommon} {key : String} {conns : ConnId → Conn} {s : State} {F : Floats}
  {lines : ConnId → String} {cfg : Config RelaySig State ConnId Unit}

/-- **Who is in the report**: an entry is that of a connection that has found a partner and has
not finished; and such a connection has an entry from its first operation on, unless another one
that has found a partner shares its key. -/
theorem usage_names_sessions (hconsole : ∀ c, (conns c).Types F (lines c)) (hs : s.usage = ∅)
    (h : Reach machine (fun _ _ _ => True) (start hbb key conns s) cfg) :
    (∀ id u, cfg.st.usage.lookup id = some u → ∃ c d uuid, (conns c).usageId = id ∧
        .paired c d uuid ∈ cfg.st.log ∧ (cfg.task c).result? = none) ∧
      ∀ c d uuid, .paired c d uuid ∈ cfg.st.log → (cfg.task c).result? = none →
        OwnKey conns cfg.st.log c →
        (cfg.task c).next? = some (.usageInsert (conns c).usageId (0, 0, 0, 0)) ∨
          ∃ u, cfg.st.usage.lookup (conns c).usageId = some u := by
  obtain ⟨stands, hspot, hfiled⟩ := reach_filed (fun c => (hconsole c).usage) hs h
  constructor
  · intro id u hl
    obtain ⟨-, c, hc, hid⟩ := hfiled.entry id u hl
    obtain ⟨⟨d, uuid, hm⟩, hrun⟩ := hfiled.session hspot hc
    exact ⟨c, d, uuid, hid, hm, hrun⟩
  · intro c d uuid hm hrun hown
    have hne := (hfiled.paired c).mp ⟨d, uuid, hm⟩
    have hc := hspot c
    cases hst : stands c with
    | outside => exact absurd hst hne
    | listed => exact Or.inr (hfiled.own c hst hown)
    | paired =>
      left
      rw [hst] at hc
      generalize cfg.task c = p at hc
      cases hc
      rfl
    | gone =>
      rw [hst] at hc
      generalize cfg.task c = p at hc hrun
      cases hc
      cases hrun

end Report

/-- Whole numbers, for concrete runs. -/
def Floats.whole : Floats where
  scaled factor text := ((Text.parseUnsigned U64_MAX text).filter (0 < ·)).map (· * factor)
  quotient n d := toString (n / d)
  megabytes n := toString (n / (1024 * 1024 * 8))

/-- What is typed at the console: always the same. -/
def askersLine (_ : ConnId) : String := "usage"

/-- Connections that ask for one `uuid`, from one address. -/
def askers (c : ConnId) : Conn :=
  { asking "u" "k" 2 with command := typed .whole 0 0 (askersLine c) }

/-- One connection waits, the next one takes its stream, and has passed on two bytes when it
files its first report. -/
def reported : Config RelaySig State ConnId Unit :=
  (start plainHbb "k" askers .blank).sched machine <|
    List.replicate 3 (0, .at 0) ++ List.replicate 8 (1, .at 0) ++
      [(1, ⟨0, .peer (some [7, 9]), none⟩)] ++ List.replicate 11 (1, .at 2000)

theorem reported_reached :
    Reach machine (fun _ _ _ => True) (start plainHbb "k" askers .blank) reported :=
  reach_sched (along_true _ _)

theorem askers_type (c : ConnId) : (askers c).Types .whole (askersLine c) := by
  refine ⟨0, 0, ?_⟩
  dsimp only [askers]

theorem reported_lookup :
    reported.st.usage.lookup "192.0.2.7:21117" = some (2000, 16, 0, 0) := by
  decide +kernel

theorem usage_names_sessions_reported :
    ∃ c d uuid, (askers c).usageId = "192.0.2.7:21117" ∧ .paired c d uuid ∈ reported.st.log ∧
      (reported.task c).result? = none :=
  (usage_names_sessions askers_type rfl reported_reached).1 _ _ reported_lookup

end Hbbr

end RustdeskServer
