import RustdeskServer.Sequential

/-!
# Online status and reachability

An `OnlineRequest` is answered from memory alone: one bit for each id, packed most
significant first, set when the record in the peer map is younger than
`REG_TIMEOUT`.  A punch-hole request goes through `PeerMap::get`, which may build a
record from the database, and compares the other way round.  The two agree, because
a record built from a row counts as expired: at any moment a bit is set exactly when
a request for that id, let through by the key and login checks, would be forwarded.

## Main definitions

* `bitOf` — a bit of a byte string, most significant first.
* `PeerStore.online` — what both paths compute: a record in memory, and a young one.

## Main results

* `run_peersOnlineState` — the answer's length, its bits and its padding.
* `run_handlePunchHoleRequest` — a request that is let through is forwarded, or
  answered `OFFLINE` or `ID_NOT_EXIST`.
* `onlineBit_iff_forwarded` — **the answer's bits are the forwarded requests.**
-/

namespace RustdeskServer

open Atomic

/-! ### Bits of a byte string -/

/-- Bit `i` of a byte string, the most significant bit of the first byte being bit 0. -/
def bitOf (bs : Bytes) (i : ℕ) : Bool := (bs.getD (i / 8) 0).toNat.testBit (7 - i % 8)

theorem bitOf_replicate_zero (n i : ℕ) : bitOf (List.replicate n 0) i = false := by
  have h : (List.replicate n (0 : UInt8)).getD (i / 8) 0 = 0 := by
    rw [List.getD_eq_getElem?_getD, List.getElem?_replicate]
    split <;> rfl
  rw [bitOf, h]
  exact Nat.zero_testBit _

/-- The mask of bit `k` of a byte. -/
theorem toNat_mask {k : ℕ} (hk : k < 8) : (UInt8.ofNat (2 ^ k)).toNat = 2 ^ k := by
  have h : 2 ^ k < 2 ^ 8 := Nat.pow_lt_pow_right (by omega) hk
  rw [UInt8.toNat_ofNat']
  exact Nat.mod_eq_of_lt h

/-- Setting a bit sets that bit and no other. -/
theorem bitOf_modify {bs : Bytes} {i : ℕ} (hi : i / 8 < bs.length) (j : ℕ) :
    bitOf (bs.modify (i / 8) fun b => b ||| UInt8.ofNat (2 ^ (7 - i % 8))) j =
      (bitOf bs j || decide (i = j)) := by
  unfold bitOf
  rw [List.getD_eq_getElem?_getD, List.getD_eq_getElem?_getD, List.getElem?_modify]
  by_cases hij : i / 8 = j / 8
  · have hj : j / 8 < bs.length := by omega
    simp only [hij, List.getElem?_eq_getElem hj, Option.map_eq_map, Option.map_some, if_true,
      Option.getD_some, UInt8.toNat_or, Nat.testBit_or, toNat_mask (show 7 - i % 8 < 8 by omega),
      Nat.testBit_two_pow]
    congr 2
    -- in the same byte, the same place is the same index
    exact propext ⟨fun _ => by omega, fun _ => by omega⟩
  · have hne : i ≠ j := fun h => hij (by rw [h])
    simp [hij, hne]

/-! ### The answer from memory -/

/-- The map holds a record of `id`, and it was refreshed within `REG_TIMEOUT`. -/
def PeerStore.online (s : PeerStore) (now : Instant) (id : String) : Bool :=
  match s.peer? id with
  | some r => decide (elapsedMillis now r.lastRegTime < REG_TIMEOUT)
  | none => false

/-- The bytes after the id at index `i` is looked at. -/
def PeerStore.mark (s : PeerStore) (now : Instant) (id : String) (i : ℕ) (states : Bytes) : Bytes :=
  if s.online now id then states.modify (i / 8) fun b => b ||| UInt8.ofNat (2 ^ (7 - i % 8))
  else states

theorem PeerStore.length_mark (s : PeerStore) (now : Instant) (id : String) (i : ℕ)
    (states : Bytes) : (s.mark now id i states).length = states.length := by
  unfold PeerStore.mark
  split
  · exact List.length_modify _ _ _
  · rfl

theorem PeerStore.bitOf_mark (s : PeerStore) (now : Instant) (id : String) {i : ℕ}
    {states : Bytes} (hi : i / 8 < states.length) (j : ℕ) :
    bitOf (s.mark now id i states) j =
      (bitOf states j || (decide (i = j) && s.online now id)) := by
  unfold PeerStore.mark
  by_cases hon : s.online now id = true
  · rw [if_pos hon, bitOf_modify hi, hon, Bool.and_true]
  · rw [if_neg hon, Bool.eq_false_of_not_eq_true hon, Bool.and_false, Bool.or_false]

section Run

variable {E : Ext} {cfg : Settings} {e : SrvEnv}

/-! Sections that only read leave the server as it is. -/

variable {α : Type}

@[simp] theorem srv_run_mapGet (cause : Cause) (id : String) (k : Option Handle → Prog SrvSig α)
    (s : Server) :
    (srvMachine E cfg).run e (.op (.peer cause (.mapGet id)) k) s =
      (srvMachine E cfg).run e (k (s.pm.map.lookup id)) s := rfl

@[simp] theorem srv_run_readPeer (cause : Cause) (h : Handle) (k : Peer → Prog SrvSig α)
    (s : Server) :
    (srvMachine E cfg).run e (.op (.peer cause (.readPeer h)) k) s =
      (srvMachine E cfg).run e (k (s.pm.recs h)) s := rfl

@[simp] theorem srv_run_now (cause : Cause) (k : Instant → Prog SrvSig α) (s : Server) :
    (srvMachine E cfg).run e (.op (.peer cause .now) k) s =
      (srvMachine E cfg).run e (k e.now) s := rfl

/-- One id is looked at: its bit is set if it is online. -/
theorem run_onlineFrom_cons (cause : Cause) (id : String) (ids : List String) (i : ℕ)
    (states : Bytes) (s : Server) :
    (srvMachine E cfg).run e (onlineFrom cause (id :: ids) i states) s =
      (srvMachine E cfg).run e (onlineFrom cause ids (i + 1) (s.pm.mark e.now id i states)) s := by
  rw [onlineFrom, srv_run_mapGet, PeerStore.mark, PeerStore.online, PeerStore.peer?]
  cases s.pm.map.lookup id with
  | none => rfl
  | some h => simp only [srv_run_readPeer, srv_run_now, Option.map_some, decide_eq_true_eq]

/-- **The loop of `peers_online_state`**: it keeps the length, adds the bits of the ids it
looks at, and no others. -/
theorem run_onlineFrom (cause : Cause) (s : Server) (ids : List String) (i : ℕ) (states : Bytes)
    (hlen : i + ids.length ≤ 8 * states.length) :
    ((srvMachine E cfg).run e (onlineFrom cause ids i states) s).2.length = states.length ∧
      ∀ j, bitOf ((srvMachine E cfg).run e (onlineFrom cause ids i states) s).2 j =
        (bitOf states j || (decide (i ≤ j) && ids[j - i]?.any (s.pm.online e.now))) := by
  induction ids generalizing i states with
  | nil => exact ⟨rfl, fun j => by simp [onlineFrom]⟩
  | cons id ids ih =>
    rw [List.length_cons] at hlen
    have hkeep := s.pm.length_mark e.now id i states
    obtain ⟨hl, hb⟩ := ih (i + 1) (s.pm.mark e.now id i states) (by rw [hkeep]; omega)
    rw [run_onlineFrom_cons]
    refine ⟨hl.trans hkeep, ?_⟩
    intro j
    rw [hb j, PeerStore.bitOf_mark _ _ _ (by omega), Bool.or_assoc]
    congr 1
    -- the head is at index `i`, the tail from `i + 1` on
    rcases Nat.lt_trichotomy i j with h | h | h
    · obtain ⟨k, rfl⟩ : ∃ k, j = i + 1 + k := ⟨j - (i + 1), by omega⟩
      have h₁ : i + 1 + k - i = k + 1 := by omega
      have h₂ : i + 1 + k - (i + 1) = k := by omega
      have h₃ : i ≠ i + 1 + k := by omega
      have h₄ : i ≤ i + 1 + k := by omega
      simp [h₁, h₂, h₃, h₄]
    · subst h
      simp
    · have h₁ : ¬i + 1 ≤ j := by omega
      have h₂ : ¬i ≤ j := by omega
      have h₃ : i ≠ j := by omega
      simp [h₁, h₂, h₃]

/-- What `peers_online_state` answers. -/
theorem run_peersOnlineState (cause : Cause) (peers : List String) (s : Server) :
    ((srvMachine E cfg).run e (peersOnlineState cause peers) s).2.length =
        (peers.length + 7) / 8 ∧
      ∀ j, bitOf ((srvMachine E cfg).run e (peersOnlineState cause peers) s).2 j =
        peers[j]?.any (s.pm.online e.now) := by
  obtain ⟨hl, hb⟩ := @run_onlineFrom E cfg e cause s peers 0
    (List.replicate ((peers.length + 7) / 8) 0) (by rw [List.length_replicate]; omega)
  refine ⟨hl.trans (List.length_replicate ..), ?_⟩
  intro j
  rw [peersOnlineState, hb j, bitOf_replicate_zero]
  simp

/-! ### The answer to a punch-hole request -/

/-- What a punch-hole request that is let through comes to, by the record it finds. -/
theorem run_punchHole_of_get (snap : Snapshot) {cause : Cause} (addr : SocketAddr)
    {ph : PunchHoleRequest} (ws : Bool) {s : Server} {t : PeerStore} {found : Option Handle}
    (hpass : ((srvMachine E cfg).run e (authorize cfg cause ph) s).2 = none)
    (hget : peerMachine.run e.toEnv (PeerMap.get E.serde ph.id) s.pm = (t, found)) :
    (found = none →
      ((srvMachine E cfg).run e (handlePunchHoleRequest E cfg snap cause addr ph ws) s).2 =
        (.punchHoleResponse { failure := some .idNotExist }, none)) ∧
    ∀ h, found = some h →
      if elapsedMillis e.now (t.recs h).lastRegTime ≥ REG_TIMEOUT then
        ((srvMachine E cfg).run e (handlePunchHoleRequest E cfg snap cause addr ph ws) s).2 =
          (.punchHoleResponse { failure := some .offline }, none)
      else
        ((srvMachine E cfg).run e (handlePunchHoleRequest E cfg snap cause addr ph ws) s).2.2 =
          some (t.recs h).socketAddr := by
  have hpm : ((srvMachine E cfg).run e (authorize cfg cause ph) s).1.pm = s.pm :=
    run_keepsPm e (all_authorize SrvOp.Plain.keepsPm cause ph) s
  have hlift := @run_liftPeer E cfg _ e cause (PeerMap.get E.serde ph.id)
    ((srvMachine E cfg).run e (authorize cfg cause ph) s).1
  rw [hpm, hget] at hlift
  obtain ⟨ht, hfound⟩ := hlift
  rw [handlePunchHoleRequest, Machine.run_bind, hpass]
  simp only
  rw [Machine.run_bind, hfound, ← show _ = t from ht]
  refine ⟨?_, ?_⟩
  · rintro rfl
    rfl
  · rintro h rfl
    rw [srv_run_readPeer, srv_run_now]
    split
    · rfl
    · rw [Machine.run_bind, Machine.run_ret]

/-- **A request that is let through is forwarded if the peer is online, and answered
`OFFLINE` or `ID_NOT_EXIST` if it is not**: a record built from a row is expired. -/
theorem run_handlePunchHoleRequest
    (hexp : REG_TIMEOUT ≤ elapsedMillis e.now (getExpiredTime e.now)) (snap : Snapshot)
    {cause : Cause} (addr : SocketAddr) {ph : PunchHoleRequest} (ws : Bool) {s : Server}
    (hpass : ((srvMachine E cfg).run e (authorize cfg cause ph) s).2 = none) :
    if s.pm.online e.now ph.id then
      ((srvMachine E cfg).run e
        (handlePunchHoleRequest E cfg snap cause addr ph ws) s).2.2.isSome = true
    else
      ((srvMachine E cfg).run e (handlePunchHoleRequest E cfg snap cause addr ph ws) s).2 =
          (.punchHoleResponse { failure := some .offline }, none) ∨
        ((srvMachine E cfg).run e (handlePunchHoleRequest E cfg snap cause addr ph ws) s).2 =
          (.punchHoleResponse { failure := some .idNotExist }, none) := by
  have hget := run_get E.serde e.toEnv ph.id s.pm
  unfold PeerStore.online PeerStore.peer?
  cases hm : s.pm.map.lookup ph.id with
  | some h =>
    rw [hm] at hget
    have hres := (run_punchHole_of_get snap addr ws hpass hget).2 _ rfl
    simp only [Option.map_some, decide_eq_true_eq] at hres ⊢
    split
    · next hlt =>
      rw [if_neg (by omega)] at hres
      rw [hres]
      rfl
    · next hge =>
      rw [if_pos (by omega)] at hres
      exact Or.inl hres
  | none =>
    rw [hm] at hget
    simp only [Option.map_none, Bool.false_eq_true, if_false] at hget ⊢
    by_cases hf : e.getFails = true
    · rw [if_pos hf] at hget
      exact Or.inr ((run_punchHole_of_get snap addr ws hpass hget).1 rfl)
    · rw [if_neg hf] at hget
      cases hr : findRow s.pm.db ph.id with
      | none =>
        rw [hr] at hget
        exact Or.inr ((run_punchHole_of_get snap addr ws hpass hget).1 rfl)
      | some v =>
        rw [hr] at hget
        have hres := (run_punchHole_of_get snap addr ws hpass hget).2 _ rfl
        -- the record that was just built carries the expired time
        have hrec : ((s.pm.alloc ph.id (v.load E.serde e.now)).recs
            ⟨ph.id, s.pm.next⟩).lastRegTime = getExpiredTime e.now := by
          simp [PeerStore.alloc, Row.load, Peer.default]
        simp only [hrec] at hres
        rw [if_pos hexp] at hres
        exact Or.inl hres

variable (E cfg) in
/-- **Online status and reachability agree**: an `OnlineRequest` is answered with a byte
for every eight ids; the bit of an id is set exactly when a punch-hole request for it that
passes the key and login checks at that moment is forwarded, and clear exactly when it is
answered `OFFLINE` or `ID_NOT_EXIST`; the padding is zero. -/
theorem onlineBit_iff_forwarded
    (hexp : REG_TIMEOUT ≤ elapsedMillis e.now (getExpiredTime e.now)) (s : Server) (cause : Cause)
    (peers : List String) :
    let states := ((srvMachine E cfg).run e (peersOnlineState cause peers) s).2
    states.length = (peers.length + 7) / 8 ∧
      (∀ (i : ℕ) (snap : Snapshot) (cause' : Cause) (addr : SocketAddr) (ph : PunchHoleRequest)
        (ws : Bool), peers[i]? = some ph.id →
          ((srvMachine E cfg).run e (authorize cfg cause' ph) s).2 = none →
          let r := ((srvMachine E cfg).run e
            (handlePunchHoleRequest E cfg snap cause' addr ph ws) s).2
          (bitOf states i = true ↔ r.2.isSome = true) ∧
            (bitOf states i = false ↔
              r = (.punchHoleResponse { failure := some .offline }, none) ∨
                r = (.punchHoleResponse { failure := some .idNotExist }, none))) ∧
      ∀ j, peers.length ≤ j → bitOf states j = false := by
  obtain ⟨hlen, hbit⟩ := @run_peersOnlineState E cfg e cause peers s
  refine ⟨hlen, ?_, ?_⟩
  · intro i snap cause' addr ph ws hi hpass
    have hres := run_handlePunchHoleRequest hexp snap addr ws hpass
    have hb := hbit i
    rw [hi, Option.any_some] at hb
    simp only
    rw [hb]
    by_cases hon : s.pm.online e.now ph.id = true
    · rw [if_pos hon] at hres
      simp only [hon, true_iff, Bool.true_eq_false, false_iff]
      refine ⟨hres, ?_⟩
      rintro (h | h)
      · rw [h] at hres
        cases hres
      · rw [h] at hres
        cases hres
    · rw [if_neg hon] at hres
      simp only [Bool.eq_false_of_not_eq_true hon, Bool.false_eq_true, false_iff, true_iff]
      refine ⟨?_, hres⟩
      rcases hres with h | h
      · rw [h]
        simp
      · rw [h]
        simp
  · intro j hj
    rw [hbit j, List.getElem?_eq_none hj]
    rfl

end Run

/-- A server that knows one peer, `a`, seen at the time `now`, and has a row for `b`. -/
def Server.sampleOnline (now : Instant) : Server :=
  { Server.start [⟨[1], "b", [], [], ""⟩] false false .blank with
    pm := (PeerStore.start [⟨[1], "b", [], [], ""⟩]).alloc "a"
      { Peer.default now with lastRegTime := now } }

theorem onlineBit_iff_forwarded_sample :
    REG_TIMEOUT ≤ elapsedMillis 3600000 (getExpiredTime 3600000) ∧
      ((srvMachine .sample ⟨"", "", 0⟩).run (SrvEnv.ok 3600000 0)
        (handlePunchHoleRequest .sample ⟨"", "", 0⟩ .blank ⟨.udp, 0, .onlineRequest []⟩ .unspecified
          ⟨"a", .symmetric, "", ""⟩ false)
        (Server.sampleOnline 3600000)).2.2.isSome = true := by
  refine ⟨by decide, ?_⟩
  have h := onlineBit_iff_forwarded .sample ⟨"", "", 0⟩ (e := SrvEnv.ok 3600000 0)
    (by decide) (Server.sampleOnline 3600000) ⟨.udp, 0, .onlineRequest []⟩ ["a", "b"]
  exact ((h.2.1 0 .blank ⟨.udp, 0, .onlineRequest []⟩ .unspecified ⟨"a", .symmetric, "", ""⟩ false
    rfl rfl).1).1 (by decide)

end RustdeskServer
