import RustdeskServer.Atomic.Monitor
import RustdeskServer.SecureTcp

/-!
# An encrypted connection stays encrypted and in step

A connection is secured by its first frame or not at all.  From then on the read loop
decrypts every frame at the next receive counter, and whoever holds the sink encrypts at
the next send counter, also when the sink has been parked and another task answers.

Of the cipher only this is used: it counts what it encrypts and what it decrypts, each by
one and before it does so, and what it decrypts was sealed under its key and that counter.

## Main definitions

* `Counting`, `Counting.Lawful` — the counters of the cipher, and what is assumed of them.
* `Stage`, `Stage.Moves` — where a connection is, and what it may do there.
* `InStep` — what is wanted of the traffic after a connection was secured.

## Main results

* `follows_secureTask` — a TCP connection does only what its stage allows.
* `connsOk_exec` — a section keeps every connection in step.
* `secured_in_step` — **along every run a secured connection stays encrypted and in step.**
-/

namespace RustdeskServer

open Atomic

/-! ### What is assumed of the cipher -/

/-- The key and the counters inside an `Encrypt`, and `secretbox::seal` under the nonce of
a counter. -/
structure Counting (K : Crypt) where
  /-- The key. -/
  key : K.Encrypt → Bytes
  /-- How many frames it encrypted. -/
  sent : K.Encrypt → ℕ
  /-- How many frames it tried to decrypt. -/
  received : K.Encrypt → ℕ
  /-- A message sealed under a key and a counter. -/
  sealFrame : Bytes → ℕ → Bytes → Bytes

/-- Each direction counts before it seals or opens, and only what was sealed under the key
and the counter opens. -/
structure Counting.Lawful {K : Crypt} (V : Counting K) : Prop where
  /-- A new cipher has counted nothing. -/
  new : ∀ key, V.key (K.new key) = key ∧ V.sent (K.new key) = 0 ∧ V.received (K.new key) = 0
  /-- Encryption counts first. -/
  enc : ∀ c b, V.key (K.enc c b).1 = V.key c ∧ V.sent (K.enc c b).1 = V.sent c + 1 ∧
    (K.enc c b).2 = V.sealFrame (V.key c) (V.sent c + 1) b
  /-- So does decryption. -/
  dec : ∀ c b, V.key (K.dec c b).1 = V.key c ∧ V.received (K.dec c b).1 = V.received c + 1
  /-- What decrypts was sealed under the key and the counter. -/
  sealed : ∀ c b m, (K.dec c b).2 = some m → b = V.sealFrame (V.key c) (V.received c + 1) m

/-! ### The traffic of one connection -/

/-- The frame of connection `i` that was acted on: as it came in, and as it was read. -/
def Traffic.acted? (i : ConnId) : Traffic → Option (Bytes × Bytes)
  | .acted c _ raw bytes => if c = i then some (raw, bytes) else none
  | _ => none

/-- What was written to connection `i`. -/
def Traffic.wrote? (i : ConnId) : Traffic → Option Bytes
  | .wrote c bytes => if c = i then some bytes else none
  | _ => none

/-- The session key that connection `i` was given. -/
def Traffic.secured? (i : ConnId) : Traffic → Option Bytes
  | .secured c _ key => if c = i then some key else none
  | _ => none

/-- The connection an event is about. -/
def Traffic.conn : Traffic → ConnId
  | .secured c _ _ => c
  | .acted c _ _ _ => c
  | .wrote c _ => c

/-- The frames of connection `i` that were acted on, oldest first. -/
def actedOn (i : ConnId) (traffic : List Traffic) : List (Bytes × Bytes) :=
  (traffic.filterMap (Traffic.acted? i)).reverse

/-- What was written to connection `i`, oldest first. -/
def written (i : ConnId) (traffic : List Traffic) : List Bytes :=
  (traffic.filterMap (Traffic.wrote? i)).reverse

/-- The session keys of connection `i`. -/
def keysOf (i : ConnId) (traffic : List Traffic) : List Bytes :=
  traffic.filterMap (Traffic.secured? i)

/-- After connection `i` was secured with `key` by its first frame, `n` frames were acted
on and `m` were written.  Those acted on are the `n` that came in next, in order, and the
`j`-th is sealed under the key and the counter `j`; so is the `j`-th that was written. -/
structure InStep {K : Crypt} (V : Counting K) (frames : List Bytes) (i : ConnId) (key : Bytes)
    (n m : ℕ) (after before : List Traffic) : Prop where
  /-- No frame was acted on before. -/
  first : actedOn i before = []
  /-- There is no other session key. -/
  once : keysOf i before = [] ∧ keysOf i after = []
  /-- No frame is skipped, and none comes out of order. -/
  order : (actedOn i after).map Prod.fst = frames.tail.take n
  /-- What is acted on was sealed at the next counter. -/
  received : ∃ plains : List Bytes, plains.length = n ∧
    actedOn i after = plains.mapIdx fun j p => (V.sealFrame key (j + 1) p, p)
  /-- What is written is sealed at the next counter. -/
  sent : ∃ bodies : List Bytes, bodies.length = m ∧
    written i after = bodies.mapIdx fun j b => V.sealFrame key (j + 1) b

section Traffic

variable {i : ConnId} {ev : Traffic} {tr : List Traffic}

theorem actedOn_cons : actedOn i (ev :: tr) = actedOn i tr ++ (ev.acted? i).toList := by
  unfold actedOn
  cases h : ev.acted? i <;> simp [h]

theorem written_cons : written i (ev :: tr) = written i tr ++ (ev.wrote? i).toList := by
  unfold written
  cases h : ev.wrote? i <;> simp [h]

theorem keysOf_cons : keysOf i (ev :: tr) = (ev.secured? i).toList ++ keysOf i tr := by
  unfold keysOf
  cases h : ev.secured? i <;> simp [h]

/-- What happens to another connection does not show. -/
theorem Traffic.other (h : ev.conn ≠ i) :
    ev.acted? i = none ∧ ev.wrote? i = none ∧ ev.secured? i = none := by
  cases ev with
  | secured c no key => exact ⟨rfl, rfl, if_neg h⟩
  | acted c no raw bytes => exact ⟨if_neg h, rfl, rfl⟩
  | wrote c bytes => exact ⟨rfl, if_neg h, rfl⟩

variable {K : Crypt} {V : Counting K} {frames : List Bytes} {key : Bytes} {n m : ℕ}
  {after before : List Traffic}

theorem InStep.start (hfirst : actedOn i before = []) (honce : keysOf i before = []) :
    InStep V frames i key 0 0 [] before where
  first := hfirst
  once := ⟨honce, rfl⟩
  order := rfl
  received := ⟨[], rfl, rfl⟩
  sent := ⟨[], rfl, rfl⟩

theorem InStep.other (h : InStep V frames i key n m after before) (hev : ev.conn ≠ i) :
    InStep V frames i key n m (ev :: after) before := by
  obtain ⟨ha, hw, hs⟩ := Traffic.other hev
  have hacted : actedOn i (ev :: after) = actedOn i after := by simp [actedOn_cons, ha]
  have hwritten : written i (ev :: after) = written i after := by simp [written_cons, hw]
  refine ⟨h.first, ⟨h.once.1, ?_⟩, ?_, ?_, ?_⟩
  · simpa [keysOf_cons, hs] using h.once.2
  · rw [hacted]
    exact h.order
  · rw [hacted]
    exact h.received
  · rw [hwritten]
    exact h.sent

/-- One more frame is written. -/
theorem InStep.wrote (h : InStep V frames i key n m after before) (body : Bytes) :
    InStep V frames i key n (m + 1) (.wrote i (V.sealFrame key (m + 1) body) :: after) before := by
  have hacted : actedOn i (.wrote i (V.sealFrame key (m + 1) body) :: after) = actedOn i after := by
    simp [actedOn_cons, Traffic.acted?]
  refine ⟨h.first, ⟨h.once.1, h.once.2⟩, ?_, ?_, ?_⟩
  · rw [hacted]
    exact h.order
  · rw [hacted]
    exact h.received
  · obtain ⟨bodies, hlen, hb⟩ := h.sent
    refine ⟨bodies ++ [body], by simp [hlen], ?_⟩
    simp [written_cons, Traffic.wrote?, hb, List.mapIdx_concat, hlen]

/-- One more frame is acted on: the next that came in. -/
theorem InStep.acted (h : InStep V frames i key n m after before) (no : ℕ) {plain : Bytes}
    (hnext : frames[n + 1]? = some (V.sealFrame key (n + 1) plain)) :
    InStep V frames i key (n + 1) m (.acted i no (V.sealFrame key (n + 1) plain) plain :: after)
      before := by
  have hacted : actedOn i (.acted i no (V.sealFrame key (n + 1) plain) plain :: after) =
      actedOn i after ++ [(V.sealFrame key (n + 1) plain, plain)] := by
    simp [actedOn_cons, Traffic.acted?]
  refine ⟨h.first, ⟨h.once.1, h.once.2⟩, ?_, ?_, ?_⟩
  · rw [hacted, List.map_append, h.order, List.take_add_one]
    simp [hnext]
  · obtain ⟨plains, hlen, hp⟩ := h.received
    refine ⟨plains ++ [plain], by simp [hlen], ?_⟩
    rw [hacted, hp, List.mapIdx_concat, hlen]
  · simpa [written_cons, Traffic.wrote?] using h.sent

end Traffic

/-! ### What a connection may do -/

/-- Where a connection is. -/
inductive Stage
  /-- Its first frame is still to come. -/
  | fresh
  /-- It went on in the clear. -/
  | clear
  /-- It was secured with this key, and this many frames were acted on since. -/
  | secured (key : Bytes) (n : ℕ)

/-- The raw frames that come in over a link. -/
def Link.frames : Link → List Bytes
  | .tcp _ frames => frames
  | _ => []

section Moves

variable {K : Crypt} (V : Counting K) (frames : List Bytes) (i : ConnId)

/-- What connection `i` may do, and where it is then. -/
inductive Stage.Moves : Stage → SecOp → Stage → Prop
  /-- The handlers know of no key. -/
  | srv (q : Stage) (o : SrvOp) : Moves q (.srv o) q
  /-- Neither does the offer. -/
  | genKeypair (q : Stage) : Moves q .genKeypair q
  /-- The first frame secures the connection. -/
  | secure (key : Bytes) : Moves .fresh (.setKey i 0 key (some i)) (.secured key 0)
  /-- The first frame is something else. -/
  | carryOn (no : ℕ) (raw bytes : Bytes) : Moves .fresh (.act i no raw bytes) .clear
  /-- A connection in the clear stays there. -/
  | clear (no : ℕ) (raw bytes : Bytes) : Moves .clear (.act i no raw bytes) .clear
  /-- A secured connection acts on the next frame, if that was sealed at the next counter. -/
  | next {key : Bytes} {n : ℕ} {bytes : Bytes} (no : ℕ)
      (hnext : frames[n + 1]? = some (V.sealFrame key (n + 1) bytes)) :
      Moves (.secured key n) (.act i no (V.sealFrame key (n + 1) bytes) bytes)
        (.secured key (n + 1))

theorem moves_liftSrv {α : Type} (q : Stage) (p : Prog SrvSig α) :
    (liftSrv p).All fun o => Stage.Moves V frames i q o q := by
  induction p with
  | ret a => trivial
  | op o k ih => exact ⟨.srv q o, ih⟩

end Moves

section Follows

variable (E : Ext) (cfg : Settings) {K : Crypt} (V : Counting K) (frames : List Bytes)
  (snap : Snapshot) (addr : SocketAddr) (i : ConnId)

/-- A loop that has not been secured by its first frame never is. -/
theorem follows_clear (fs : List Bytes) (no : ℕ) (sink : Option ConnId) :
    (secureLoop E cfg K snap addr i fs no none none sink).Follows (Stage.Moves V frames i)
      .clear := by
  induction fs generalizing no sink with
  | nil => trivial
  | cons raw fs ih =>
    refine ⟨.clear, .clear no raw raw, ?_⟩
    intro _
    refine (moves_liftSrv V frames i .clear _).follows_bind ?_
    intro r
    obtain ⟨more, sink'⟩ := r
    cases more with
    | true => exact ih (no + 1) sink'
    | false => trivial

variable {V frames}

/-- A secured loop acts on frames that decrypt at the next counter, one after the other. -/
theorem follows_secured (hV : V.Lawful) (fs : List Bytes) (n : ℕ) (crypt : K.Encrypt)
    (sink : Option ConnId) (hn : V.received crypt = n) (hfs : frames.drop (n + 1) = fs) :
    (secureLoop E cfg K snap addr i fs (n + 1) none (some crypt) sink).Follows
      (Stage.Moves V frames i) (.secured (V.key crypt) n) := by
  induction fs generalizing n crypt sink with
  | nil => trivial
  | cons raw fs ih =>
    have hraw : frames[n + 1]? = some raw := by
      rw [← List.head?_drop, hfs]
      rfl
    have hdrop : frames.drop (n + 1 + 1) = fs := by
      rw [← List.tail_drop, hfs]
      rfl
    obtain ⟨hkey, hrec⟩ := hV.dec crypt raw
    simp only [secureLoop, decFrame]
    cases hdec : (K.dec crypt raw).2 with
    | none => trivial
    | some bytes =>
      have hsealed := hV.sealed crypt raw bytes hdec
      rw [hn] at hsealed
      subst hsealed
      refine ⟨_, .next (n + 1) hraw, ?_⟩
      intro _
      refine (moves_liftSrv V frames i _ _).follows_bind ?_
      intro r
      obtain ⟨more, sink'⟩ := r
      cases more with
      | true =>
        have h := ih (n + 1) (K.dec crypt _).1 sink' (by rw [hrec, hn]) hdrop
        rw [hkey] at h
        exact h
      | false => trivial

/-- The first frame decides. -/
theorem follows_fresh (hV : V.Lawful) (handshakeSk : Option Bytes) :
    (secureLoop E cfg K snap addr i frames 0 handshakeSk none (some i)).Follows
      (Stage.Moves V frames i) .fresh := by
  cases frames with
  | nil => trivial
  | cons raw fs =>
    simp only [secureLoop, decFrame]
    cases phase2 K handshakeSk raw with
    | bad => trivial
    | good key =>
      refine ⟨_, .secure key, ?_⟩
      intro _
      obtain ⟨hkey, -, hrec⟩ := hV.new key
      have h : (secureLoop E cfg K snap addr i fs 1 none (some (K.new key)) (some i)).Follows
          (Stage.Moves V (raw :: fs) i) (.secured (V.key (K.new key)) 0) :=
        follows_secured E cfg snap addr i hV fs 0 (K.new key) (some i) hrec rfl
      rw [hkey] at h
      exact h
    | other =>
      refine ⟨_, .carryOn 0 raw raw, ?_⟩
      intro _
      refine (moves_liftSrv V _ i .clear _).follows_bind ?_
      intro r
      obtain ⟨more, sink'⟩ := r
      cases more with
      | true => exact follows_clear E cfg V _ snap addr i fs 1 sink'
      | false => trivial

theorem moves_keyExchangePhase1 (sink : Option ConnId) (q : Stage) :
    (keyExchangePhase1 K snap sink).All fun o => Stage.Moves V frames i q o q := by
  unfold keyExchangePhase1
  cases snap.inner.sk with
  | none => trivial
  | some sk =>
    exact ⟨.genKeypair q, fun kp => (moves_liftSrv V frames i q _).bind fun _ => trivial⟩

/-- **A TCP connection does only what its stage allows.** -/
theorem follows_secureTask (hV : V.Lawful) :
    (secureTask E cfg K i addr frames).Follows (Stage.Moves V frames i) .fresh := by
  refine ⟨.fresh, .srv _ _, ?_⟩
  intro snap
  refine Prog.All.follows_bind ?_ fun handshakeSk => ?_
  · exact Prog.All.ite (moves_keyExchangePhase1 snap i (some i) .fresh) trivial
  · exact (follows_fresh E cfg snap addr i hV handshakeSk).bind fun sink q =>
      (moves_liftSrv V frames i q _).follows

theorem follows_prog (hV : V.Lawful) (l : Link) :
    (l.prog E cfg K i).Follows (Stage.Moves V l.frames i) .fresh := by
  cases l with
  | ws addr frames => exact (moves_liftSrv V _ i .fresh _).follows
  | tcp addr frames => exact follows_secureTask E cfg addr i hV
  | udp datagrams => exact (moves_liftSrv V _ i .fresh _).follows

end Follows

/-! ### The invariant -/

section Inv

variable {K : Crypt} (V : Counting K)

/-- The traffic and the cipher of connection `i` are right for its stage. -/
def ConnOk (frames : List Bytes) (i : ConnId) (s : SecServer K) : Stage → Prop
  | .fresh => s.ciphers i = none ∧ keysOf i s.traffic = [] ∧ actedOn i s.traffic = []
  | .clear => s.ciphers i = none ∧ keysOf i s.traffic = []
  | .secured key n => ∃ crypt, s.ciphers i = some crypt ∧ V.key crypt = key ∧
      ∀ after before no key', s.traffic = after ++ .secured i no key' :: before →
        no = 0 ∧ key' = key ∧ InStep V frames i key n (V.sent crypt) after before

/-- Every connection is as its stage says. -/
def ConnsOk (links : ConnId → Link) (q : ConnId → Stage) (s : SecServer K) : Prop :=
  ∀ i, ConnOk V (links i).frames i s (q i)

end Inv

section Exec

variable {E : Ext} {cfg : Settings} {K : Crypt} {V : Counting K} {frames : List Bytes}
  {i : ConnId} {s s' : SecServer K} {q : Stage}

/-- The stage, the cipher and the traffic of a connection are all that counts. -/
theorem ConnOk.congr (h : ConnOk V frames i s q) (hc : s'.ciphers i = s.ciphers i)
    (ht : s'.traffic = s.traffic) : ConnOk V frames i s' q := by
  cases q with
  | fresh => exact ⟨hc ▸ h.1, ht ▸ h.2⟩
  | clear => exact ⟨hc ▸ h.1, ht ▸ h.2⟩
  | secured key n =>
    obtain ⟨crypt, hcrypt, hkey, hall⟩ := h
    exact ⟨crypt, hc.trans hcrypt, hkey, ht ▸ hall⟩

/-- What happens to another connection leaves this one in step. -/
theorem ConnOk.other (h : ConnOk V frames i s q) (ev : Traffic) (hev : ev.conn ≠ i)
    (hc : s'.ciphers i = s.ciphers i) (ht : s'.traffic = ev :: s.traffic) :
    ConnOk V frames i s' q := by
  obtain ⟨ha, -, hs⟩ := Traffic.other hev
  have hkeys : keysOf i s'.traffic = keysOf i s.traffic := by rw [ht]; simp [keysOf_cons, hs]
  have hacted : actedOn i s'.traffic = actedOn i s.traffic := by rw [ht]; simp [actedOn_cons, ha]
  cases q with
  | fresh => exact ⟨hc.trans h.1, hkeys.trans h.2.1, hacted.trans h.2.2⟩
  | clear => exact ⟨hc.trans h.1, hkeys.trans h.2⟩
  | secured key n =>
    obtain ⟨crypt, hcrypt, hkey, hall⟩ := h
    refine ⟨crypt, hc.trans hcrypt, hkey, ?_⟩
    intro after before no key' hsplit
    rw [ht] at hsplit
    -- the event is not the one that secured this connection
    cases after with
    | nil =>
      cases hsplit
      exact absurd rfl hev
    | cons ev' after =>
      obtain ⟨rfl, hrest⟩ := List.cons_eq_cons.mp hsplit
      obtain ⟨hno, hkey', hin⟩ := hall after before no key' hrest
      exact ⟨hno, hkey', hin.other hev⟩

/-- What is written to a connection goes through its cipher. -/
theorem ConnOk.send (hV : V.Lawful) (h : ConnOk V frames i s q) (c : ConnId) (msg : Msg) :
    ConnOk V frames i (s.send K c msg) q := by
  unfold SecServer.send
  cases K.write msg with
  | none => exact h
  | some bytes =>
    by_cases hci : c = i
    · subst hci
      cases q with
      | fresh =>
        obtain ⟨hnone, hkeys, hacted⟩ := h
        simp only [hnone]
        refine ⟨hnone, ?_, ?_⟩
        · simpa [keysOf_cons, Traffic.secured?] using hkeys
        · simpa [actedOn_cons, Traffic.acted?] using hacted
      | clear =>
        obtain ⟨hnone, hkeys⟩ := h
        simp only [hnone]
        exact ⟨hnone, by simpa [keysOf_cons, Traffic.secured?] using hkeys⟩
      | secured key n =>
        obtain ⟨crypt, hcrypt, hkey, hall⟩ := h
        obtain ⟨hkey', hsent, hsealed⟩ := hV.enc crypt bytes
        simp only [hcrypt]
        refine ⟨(K.enc crypt bytes).1, by simp, hkey'.trans hkey, ?_⟩
        intro after before no key₁ hsplit
        cases after with
        | nil => cases hsplit
        | cons ev' after =>
          obtain ⟨rfl, hrest⟩ := List.cons_eq_cons.mp hsplit
          obtain ⟨hno, hk, hin⟩ := hall after before no key₁ hrest
          refine ⟨hno, hk, ?_⟩
          rw [hsealed, hsent, hkey]
          exact hin.wrote bytes
    · cases hcrypt : s.ciphers c with
      | none => exact h.other (.wrote c bytes) hci rfl rfl
      | some crypt =>
        refine h.other (.wrote c (K.enc crypt bytes).2) hci ?_ rfl
        simp only [Function.update_of_ne (Ne.symm hci)]

/-- A section of the handlers keeps every connection in step. -/
theorem ConnOk.srv (hV : V.Lawful) (h : ConnOk V frames i s q) (e : SecEnv) (o : SrvOp) :
    ConnOk V frames i ((SecOp.srv o).exec E cfg K e s).1 q := by
  have hbase : ConnOk V frames i { s with srv := (o.exec E cfg e.toSrvEnv s.srv).1 } q :=
    h.congr rfl rfl
  cases o with
  | sendSink cause c msg => exact hbase.send hV c msg
  | _ => exact hbase

/-- A frame is acted on as the stage allows. -/
theorem ConnOk.act {no : ℕ} {raw bytes : Bytes} {q' : Stage} (h : ConnOk V frames i s q)
    (hmove : Stage.Moves V frames i q (.act i no raw bytes) q') :
    ConnOk V frames i { s with traffic := .acted i no raw bytes :: s.traffic } q' := by
  cases hmove with
  | carryOn =>
    exact ⟨h.1, by simpa [keysOf_cons, Traffic.secured?] using h.2.1⟩
  | clear =>
    exact ⟨h.1, by simpa [keysOf_cons, Traffic.secured?] using h.2⟩
  | next no hnext =>
    obtain ⟨crypt, hcrypt, hkey, hall⟩ := h
    refine ⟨crypt, hcrypt, hkey, ?_⟩
    intro after before no₁ key₁ hsplit
    cases after with
    | nil => cases hsplit
    | cons ev' after =>
      obtain ⟨rfl, hrest⟩ := List.cons_eq_cons.mp hsplit
      obtain ⟨hno, hk, hin⟩ := hall after before no₁ key₁ hrest
      exact ⟨hno, hk, hin.acted no hnext⟩

/-- The first frame secures a connection of which nothing was recorded before. -/
theorem ConnOk.secure (hV : V.Lawful) (h : ConnOk V frames i s .fresh) (key : Bytes) :
    ConnOk V frames i (SecServer.setKey K { s with traffic := .secured i 0 key :: s.traffic } i key)
      (.secured key 0) := by
  obtain ⟨-, hkeys, hacted⟩ := h
  obtain ⟨hkey, hsent, -⟩ := hV.new key
  refine ⟨K.new key, by simp [SecServer.setKey], hkey, ?_⟩
  intro after before no key₁ hsplit
  rw [hsent]
  cases after with
  | nil =>
    cases hsplit
    exact ⟨rfl, rfl, .start hacted hkeys⟩
  | cons ev' after =>
    -- there is no older key
    obtain ⟨-, hrest⟩ := List.cons_eq_cons.mp hsplit
    rw [hrest] at hkeys
    simp [keysOf, Traffic.secured?] at hkeys

/-- **A section keeps every connection in step**, if it is a move of the connection that
performs it. -/
theorem connsOk_exec (hV : V.Lawful) {links : ConnId → Link} {q : ConnId → Stage} {q' : Stage}
    (e : SecEnv) {o : SecOp} (h : ConnsOk V links q s)
    (hmove : Stage.Moves V (links i).frames i (q i) o q') :
    ConnsOk V links (Function.update q i q') (o.exec E cfg K e s).1 := by
  intro j
  by_cases hji : j = i
  · subst hji
    rw [Function.update_self]
    have hj := h j
    generalize q j = qj at hj hmove
    cases o with
    | srv o =>
      cases hmove
      exact hj.srv hV e o
    | genKeypair =>
      cases hmove
      exact hj
    | setKey c no key sink =>
      cases hmove
      exact hj.secure hV key
    | act c no raw bytes =>
      have hc : c = j := by cases hmove <;> rfl
      subst hc
      exact hj.act hmove
  · rw [Function.update_of_ne hji]
    have hj := h j
    generalize q i = qi at hmove
    cases o with
    | srv o => exact hj.srv hV e o
    | genKeypair => exact hj
    | setKey c no key sink =>
      cases hmove
      refine hj.other (.secured i 0 key) (Ne.symm hji) ?_ rfl
      exact Function.update_of_ne hji _ _
    | act c no raw bytes =>
      have hc : c = i := by cases hmove <;> rfl
      subst hc
      exact hj.other (.acted c no raw bytes) (Ne.symm hji) rfl rfl

end Exec

/-! ### Every run -/

theorem connsOk_start {K : Crypt} (V : Counting K) (E : Ext) (cfg : Settings) (s : Server)
    (links : ConnId → Link) : ConnsOk V links (fun _ => .fresh) (securing E cfg K s links).st :=
  fun _ => ⟨rfl, rfl, rfl⟩

/-- **A secured connection stays encrypted and in step.**  Any number of connections, in
any order: wherever a run leads, if connection `i` was secured with `key`, it was so by its
first frame, the frames acted on since are the next ones that came in, each sealed under
the key at the next receive counter, and whatever was written to it since, by whichever
task, is sealed under the key at the next send counter. -/
theorem secured_in_step (E : Ext) (cfg : Settings) (K : Crypt) (V : Counting K) (hV : V.Lawful)
    (db : List Row) (mustLogin alwaysUseRelay : Bool) (conf : Snapshot) (links : ConnId → Link)
    {c : Config SecSig (SecServer K) ConnId Unit}
    (h : Reach (secMachine E cfg K) (fun _ _ _ => True)
      (securing E cfg K (.start db mustLogin alwaysUseRelay conf) links) c)
    (i : ConnId) {no : ℕ} {key : Bytes} {after before : List Traffic}
    (hsec : c.st.traffic = after ++ .secured i no key :: before) :
    no = 0 ∧ ∃ n m, InStep V (links i).frames i key n m after before := by
  obtain ⟨q, -, hok⟩ := h.follows (J := ConnsOk V links)
    (fun i => follows_prog E cfg i hV (links i)) (connsOk_start V E cfg _ links)
    (fun q s i e o q' hJ hmove => connsOk_exec hV e hJ hmove)
  -- a connection that was secured is in no other stage
  have hkeys : keysOf i c.st.traffic ≠ [] := by
    rw [hsec]
    simp [keysOf, Traffic.secured?]
  have hi := hok i
  cases hq : q i with
  | fresh =>
    rw [hq] at hi
    exact absurd hi.2.1 hkeys
  | clear =>
    rw [hq] at hi
    exact absurd hi.2 hkeys
  | secured key' n =>
    rw [hq] at hi
    obtain ⟨crypt, -, -, hall⟩ := hi
    obtain ⟨hno, rfl, hin⟩ := hall after before no key hsec
    exact ⟨hno, n, _, hin⟩

/-! ### A parked sink -/

/-- A cipher that writes the counter and the key in front, and a format with a byte for
each message that the run below needs. -/
def Crypt.sample : Crypt where
  Encrypt := Bytes × ℕ × ℕ
  new key := (key, 0, 0)
  enc c b := ((c.1, c.2.1 + 1, c.2.2), UInt8.ofNat (c.2.1 + 1) :: (c.1 ++ b))
  dec c b := ((c.1, c.2.1, c.2.2 + 1),
    if b.take (c.1.length + 1) = UInt8.ofNat (c.2.2 + 1) :: c.1 then some (b.drop (c.1.length + 1))
    else none)
  decode sealedKey _ _ := some sealedKey
  sign b sk := sk ++ b
  parse
    | [0] => some (.keyExchange [[1], [7]])
    | [1] => some (.requestRelay ⟨"peer", "", [], ""⟩)
    | [2] => some (.relayResponse ⟨[192, 0, 2, 1, 15, 160], .pk [], "", ""⟩)
    | _ => none
  write
    | .keyExchange _ => some [0]
    | .requestRelay _ => some [1]
    | .relayResponse _ => some [2]
    | _ => none

/-- Its counters. -/
def Counting.sample : Counting Crypt.sample where
  key c := c.1
  sent c := c.2.1
  received c := c.2.2
  sealFrame key n b := UInt8.ofNat n :: (key ++ b)

theorem lawful_sample : Counting.sample.Lawful where
  new _ := ⟨rfl, rfl, rfl⟩
  enc _ _ := ⟨rfl, rfl, rfl⟩
  dec _ _ := ⟨rfl, rfl⟩
  sealed c b m h := by
    obtain ⟨key, sent, received⟩ := c
    simp only [Crypt.sample] at h
    split at h
    · next htake =>
      cases h
      have hb : b.take (key.length + 1) ++ b.drop (key.length + 1) = b := List.take_append_drop _ b
      rw [htake] at hb
      exact hb.symm
    · cases h

/-- The first connection secures itself and asks for a session twice; the second answers
the first request, in the clear. -/
def askSecurely (i : ConnId) : Link :=
  if i = 0 then .tcp ⟨.ofOctets 192 0 2 1, 4000⟩ [[0], [1, 7, 1], [2, 7, 1]]
  else .tcp ⟨.ofOctets 198 51 100 9, 5000⟩ [[2]]

/-- The run in which the first connection's sink is parked when its second request comes
in and the second connection answers. -/
def askSecurelyRun : Config SecSig (SecServer Crypt.sample) ConnId Unit :=
  (securing .sample ⟨"key", "", 0⟩ .sample
    (.start [] false false ⟨⟨0, "", "", none, "", some [5]⟩, []⟩) askSecurely).sched
    (secMachine .sample ⟨"key", "", 0⟩ .sample)
    (List.replicate 8 (0, { SrvEnv.ok 0 1 with keypair := ([3], [4]) }) ++
      List.replicate 7 (1, { SrvEnv.ok 0 1 with keypair := ([5], [6]) }))

/-- Two frames were acted on, and the answer went out sealed at the first counter. -/
theorem secured_in_step_parked :
    ∃ after before, askSecurelyRun.st.traffic = after ++ .secured 0 0 [7] :: before ∧
      actedOn 0 after = [([1, 7, 1], [1]), ([2, 7, 1], [1])] ∧ written 0 after = [[1, 7, 2]] ∧
      ∃ n m, InStep Counting.sample (askSecurely 0).frames 0 [7] n m after before := by
  have htraffic : askSecurelyRun.st.traffic =
      [.wrote 0 [1, 7, 2], .acted 1 0 [2] [2], .wrote 1 [0], .acted 0 2 [2, 7, 1] [1],
        .acted 0 1 [1, 7, 1] [1]] ++ .secured 0 0 [7] :: [.wrote 0 [0]] := by decide
  refine ⟨_, _, htraffic, by decide, by decide, ?_⟩
  exact (secured_in_step .sample ⟨"key", "", 0⟩ .sample .sample lawful_sample [] false false
    ⟨⟨0, "", "", none, "", some [5]⟩, []⟩ askSecurely (reach_sched (along_true _ _)) 0 htraffic).2

end RustdeskServer
