import RustdeskServer.OnlineState
import RustdeskServer.RelayAsker

/-!
# One address, two forms

A dual-stack listener reports an IPv4 client as `::ffff:a.b.c.d`, and a reverse proxy's header
names it as `a.b.c.d`.  What `handle_punch_hole_request` tells the peer should not depend on
which of the two was used.  The LAN check and the choice of a relay unwrap an address first; the
test that sends two ends behind one router to their local addresses compares addresses of one
family only, and so misses an end that is known in both forms.

## Main definitions

* `SocketAddr.SameEnd` — one address and port, plain or mapped.
* `hbbsMachine` — the handlers' sections, with the relay selector in place.
* `PeerStore.target` — the record a request finds.
* `punchDecision` — what a request comes to, but for the mangled address of who asked.
* `FormFree` — the decision is the same for either form of either address.

## Main results

* `punchDecision_eq` — a decision by the record that is found.
* `formFree_iff` — **exactly when the form does not matter.**
-/

namespace RustdeskServer

open Atomic

/-! ### The two forms of an IPv4 address -/

/-- `Ipv4Addr::to_ipv6_mapped`. -/
def IpAddr.mapped (b : BitVec 32) : IpAddr := .v6 (BitVec.ofNat 128 (0xffff * 2 ^ 32 + b.toNat))

theorem IpAddr.toCanonical_mapped (b : BitVec 32) : (IpAddr.mapped b).toCanonical = .v4 b := by
  have hb : b.toNat < 2 ^ 32 := b.isLt
  have hnat : (BitVec.ofNat 128 (0xffff * 2 ^ 32 + b.toNat)).toNat = 0xffff * 2 ^ 32 + b.toNat := by
    rw [BitVec.toNat_ofNat]
    exact Nat.mod_eq_of_lt (by omega)
  have hhigh : (0xffff * 2 ^ 32 + b.toNat) / 2 ^ 32 = 0xffff := by omega
  have hlow : BitVec.ofNat 32 (0xffff * 2 ^ 32 + b.toNat) = b := by
    apply BitVec.eq_of_toNat_eq
    rw [BitVec.toNat_ofNat]
    omega
  simp only [IpAddr.mapped, IpAddr.toCanonical, IpAddr.toIpv4Mapped, hnat, hhigh, if_true, hlow]

/-- An IPv4 address has two forms. -/
theorem IpAddr.eq_of_toCanonical {ip : IpAddr} {b : BitVec 32} (h : ip.toCanonical = .v4 b) :
    ip = .v4 b ∨ ip = .mapped b := by
  cases ip with
  | v4 x => exact Or.inl h
  | v6 x =>
    right
    simp only [IpAddr.toCanonical, IpAddr.toIpv4Mapped] at h
    have hx : x.toNat < 2 ^ 128 := x.isLt
    by_cases hhigh : x.toNat / 2 ^ 32 = 0xffff
    · rw [if_pos hhigh] at h
      injection h with h
      rw [IpAddr.mapped, ← h]
      congr 1
      apply BitVec.eq_of_toNat_eq
      rw [BitVec.toNat_ofNat, BitVec.toNat_ofNat]
      omega
    · rw [if_neg hhigh] at h
      cases h

/-- Any other address has one. -/
theorem IpAddr.eq_v6_of_toCanonical {ip : IpAddr} {c : BitVec 128} (h : ip.toCanonical = .v6 c) :
    ip = .v6 c := by
  cases ip with
  | v4 x => cases h
  | v6 x =>
    simp only [IpAddr.toCanonical] at h
    cases hx : IpAddr.toIpv4Mapped x with
    | none =>
      rw [hx] at h
      exact h
    | some a =>
      rw [hx] at h
      cases h

theorem IpAddr.v4_ne_mapped (b : BitVec 32) : IpAddr.v4 b ≠ .mapped b := by
  intro h
  cases h

/-- One address and port, plain or IPv4-mapped. -/
def SocketAddr.SameEnd (a b : SocketAddr) : Prop :=
  a.ip.toCanonical = b.ip.toCanonical ∧ a.port = b.port

theorem SocketAddr.SameEnd.refl (a : SocketAddr) : a.SameEnd a := ⟨rfl, rfl⟩

/-- **The LAN check does not depend on the form.** -/
theorem isLan_canonical (inner : Inner) (a : SocketAddr) :
    isLan inner a = isLan inner ⟨a.ip.toCanonical, 0⟩ := by
  obtain ⟨ip, port⟩ := a
  unfold isLan
  cases inner.mask with
  | none => rfl
  | some network =>
    cases ip with
    | v4 b => rfl
    | v6 b =>
      by_cases hhigh : b.toNat / 2 ^ 32 = 0xffff
      · simp only [IpAddr.toCanonical, IpAddr.toIpv4Mapped, IpAddr.toIpv4, if_pos hhigh,
          if_pos (Or.inr hhigh)]
      · simp only [IpAddr.toCanonical, IpAddr.toIpv4Mapped, if_neg hhigh]

theorem isLan_sameEnd (inner : Inner) {a b : SocketAddr} (h : a.SameEnd b) :
    isLan inner a = isLan inner b := by
  rw [isLan_canonical inner a, isLan_canonical inner b, h.1]

/-- The test for one router compares the addresses as they are. -/
theorem sameIp_eq (a b : SocketAddr) : sameIp a b = decide (a.ip = b.ip) := by
  unfold sameIp
  cases a.ip with
  | v4 x =>
    cases b.ip with
    | v4 y => simp [beq_eq_decide]
    | v6 y => simp
  | v6 x =>
    cases b.ip with
    | v4 y => simp
    | v6 y => simp [beq_eq_decide]

/-! ### The server with its relay selector -/

section Decision

variable (P : Platform) (E : Ext) (cfg : Settings)

/-- What each section does when `get_relay_server` asks the selector. -/
def SrvOp.execJoint (e : SrvEnv) : (o : SrvOp) → Server × RelaySelector →
    (Server × RelaySelector) × o.Res
  | .getRelayServer pa pb, (s, sel) =>
    ((s, (sel.pick P e.now pa pb true).1), (sel.pick P e.now pa pb true).2.relay)
  | o, (s, sel) => (((o.exec E cfg e s).1, sel), (o.exec E cfg e s).2)

/-- The handlers' machine, with the selector they share. -/
def hbbsMachine : Machine SrvSig (Server × RelaySelector) SrvEnv := ⟨SrvOp.execJoint P E cfg⟩

/-- A message without the mangled address of who asked: what was decided. -/
def Msg.decision : Msg → Msg
  | .fetchLocalAddr fla => .fetchLocalAddr { fla with socketAddr := [] }
  | .punchHole ph => .punchHole { ph with socketAddr := [] }
  | msg => msg

/-- What `handle_punch_hole_request` decides, run to its end. -/
def punchDecision (e : SrvEnv) (snap : Snapshot) (cause : Cause) (ph : PunchHoleRequest)
    (ws : Bool) (s : Server) (sel : RelaySelector) (addr : SocketAddr) : Msg :=
  ((hbbsMachine P E cfg).run e (handlePunchHoleRequest E cfg snap cause addr ph ws)
    (s, sel)).2.1.decision

/-- The record of an id gets another address. -/
def Server.readdress (s : Server) (id : String) (a : SocketAddr) : Server :=
  match s.pm.map.lookup id with
  | some h => { s with pm := s.pm.modify h fun p => { p with socketAddr := a } }
  | none => s

/-- The decision is the same when the requester's address, and the address that the peer it
asks for is registered with, are each given in either form. -/
def FormFree (e : SrvEnv) (snap : Snapshot) (cause : Cause) (ph : PunchHoleRequest)
    (ws : Bool) (s : Server) (sel : RelaySelector) (addr : SocketAddr) : Prop :=
  ∀ addr' peerAddr' : SocketAddr, addr'.SameEnd addr →
    (∀ r ∈ s.pm.peer? ph.id, peerAddr'.SameEnd r.socketAddr) →
    punchDecision P E cfg e snap cause ph ws (s.readdress ph.id peerAddr') sel addr' =
      punchDecision P E cfg e snap cause ph ws s sel addr

/-- The record `PeerMap::get` finds: the one in memory, or the one it builds from a row. -/
def PeerStore.target (J : Serde) (e : Env) (s : PeerStore) (id : String) : Option Peer :=
  match s.map.lookup id with
  | some h => some (s.recs h)
  | none => if e.getFails then none else (findRow s.db id).map (Row.load J e.now)

/-! ### A decision by the record that is found -/

/-- What is told a peer at `peerAddr`, given the relay. -/
def chosen (inner : Inner) (always ws : Bool) (natType : NatType) (relay : String)
    (addr peerAddr : SocketAddr) : Msg :=
  let peerIsLan := isLan inner peerAddr
  let lan := isLan inner addr
  let force := always || (peerIsLan ^^ lan)
  let relay := if force && peerIsLan then inner.localIp else relay
  let natType := if force then .symmetric else natType
  if !ws && (peerIsLan && lan || sameIp peerAddr addr) then .fetchLocalAddr ⟨[], relay⟩
  else .punchHole ⟨[], natType, relay⟩

/-- What a request comes to when it finds the record `r`. -/
def decidedFor (now : Instant) (inner : Inner) (always ws : Bool) (natType : NatType)
    (sel : RelaySelector) (addr : SocketAddr) (r : Peer) : Msg :=
  if elapsedMillis now r.lastRegTime ≥ REG_TIMEOUT then
    .punchHoleResponse { failure := some .offline }
  else
    chosen inner always ws natType (sel.pick P now addr.ip r.socketAddr.ip true).2.relay addr
      r.socketAddr

variable {P E cfg} {e : SrvEnv}

/-- The sections that leave the selector alone. -/
def SrvOp.KeepsSel : SrvOp → Prop
  | .getRelayServer _ _ => False
  | _ => True

theorem execJoint_of_keepsSel {o : SrvOp} (h : o.KeepsSel) (s : Server) (sel : RelaySelector) :
    o.execJoint P E cfg e (s, sel) = (((o.exec E cfg e s).1, sel), (o.exec E cfg e s).2) := by
  cases o with
  | getRelayServer pa pb => exact absurd h id
  | _ => rfl

/-- A program that does not choose a relay runs on the server. -/
theorem hbbs_run_of_all {α : Type} {p : Prog SrvSig α} (hp : p.All SrvOp.KeepsSel) (s : Server)
    (sel : RelaySelector) :
    (hbbsMachine P E cfg).run e p (s, sel) =
      ((((srvMachine E cfg).run e p s).1, sel), ((srvMachine E cfg).run e p s).2) :=
  @Machine.run_embed _ _ _ _ (srvMachine E cfg) _ (hbbsMachine P E cfg) _ (fun s => (s, sel)) e
    (fun _ s h => execJoint_of_keepsSel h s sel) _ hp s

/-- The sections of the two checks. -/
def SrvOp.Checks : SrvOp → Prop
  | .mustLogin => True
  | .verifyToken _ _ => True
  | _ => False

theorem checks_authorize (cause : Cause) (ph : PunchHoleRequest) :
    (authorize cfg cause ph).All SrvOp.Checks := by
  unfold authorize
  refine Prog.All.ite trivial ⟨trivial, ?_⟩
  intro mustLogin
  refine Prog.All.ite (Prog.All.ite trivial (Prog.All.ite ⟨trivial, ?_⟩ trivial)) trivial
  intro good
  exact Prog.All.ite trivial trivial

theorem SrvOp.Checks.keepsSel (o : SrvOp) (h : o.Checks) : o.KeepsSel := by
  cases o with
  | getRelayServer pa pb => exact h
  | _ => trivial

theorem keepsSel_authorize (cause : Cause) (ph : PunchHoleRequest) :
    (authorize cfg cause ph).All SrvOp.KeepsSel :=
  (checks_authorize cause ph).mono SrvOp.Checks.keepsSel

theorem keepsSel_liftPeer {α : Type} (cause : Cause) (p : Prog PeerSig α) :
    (liftPeer cause p).All SrvOp.KeepsSel := by
  induction p with
  | ret a => trivial
  | op o k ih => exact ⟨trivial, ih⟩

/-- No section touches the switch. -/
theorem run_alwaysUseRelay {α : Type} {p : Prog SrvSig α} (hp : p.All SrvOp.KeepsSel)
    (s : Server) : ((srvMachine E cfg).run e p s).1.alwaysUseRelay = s.alwaysUseRelay := by
  refine (srvMachine E cfg).run_inv (R := fun s t => t.alwaysUseRelay = s.alwaysUseRelay)
    (fun _ => rfl) (fun h₁ h₂ => h₂.trans h₁) e ?_ hp s
  intro o s _
  cases o with
  | pushWs cause addr msg =>
    simp only [srvMachine_exec, SrvOp.exec]
    split
    · rfl
    · split <;> rfl
  | guardDrop addr c =>
    simp only [srvMachine_exec, SrvOp.exec]
    split <;> rfl
  | _ => rfl

/-- What `PeerMap::get` finds. -/
theorem target_eq (J : Serde) (e : Env) (id : String) (s : PeerStore) :
    s.target J e id = (peerMachine.run e (PeerMap.get J id) s).2.map
      (peerMachine.run e (PeerMap.get J id) s).1.recs := by
  rw [run_get]
  unfold PeerStore.target
  cases s.map.lookup id with
  | some h => rfl
  | none =>
    simp only
    split
    · rfl
    · cases findRow s.db id with
      | none => rfl
      | some v => simp [PeerStore.alloc]

/-- What is decided for a peer found at `peerAddr`. -/
theorem run_punchMessage (snap : Snapshot) (cause : Cause) (addr : SocketAddr)
    (ph : PunchHoleRequest) (ws : Bool) (peerAddr : SocketAddr) (s : Server)
    (sel : RelaySelector) :
    ((hbbsMachine P E cfg).run e (punchMessage E snap cause addr ph ws peerAddr)
        (s, sel)).2.decision =
      chosen snap.inner s.alwaysUseRelay ws ph.natType
        (sel.pick P e.now addr.ip peerAddr.ip true).2.relay addr peerAddr := by
  unfold punchMessage chosen
  simp only [Machine.run_op, Machine.run_ret]
  simp only [hbbsMachine, SrvOp.execJoint, SrvOp.exec, PeerOp.exec]
  split <;> rfl

/-- **A decision by the record that is found.** -/
theorem punchDecision_eq (snap : Snapshot) {cause : Cause} {ph : PunchHoleRequest} (ws : Bool)
    {s : Server} (sel : RelaySelector) (addr : SocketAddr)
    (hpass : ((srvMachine E cfg).run e (authorize cfg cause ph) s).2 = none) :
    punchDecision P E cfg e snap cause ph ws s sel addr =
      match s.pm.target E.serde e.toEnv ph.id with
      | none => .punchHoleResponse { failure := some .idNotExist }
      | some r =>
        decidedFor P e.now snap.inner s.alwaysUseRelay ws ph.natType sel addr r := by
  have hsw := @run_alwaysUseRelay E cfg e _ _ (@keepsSel_authorize cfg cause ph) s
  have hpm : ((srvMachine E cfg).run e (authorize cfg cause ph) s).1.pm = s.pm :=
    run_keepsPm e (all_authorize SrvOp.Plain.keepsPm cause ph) s
  rw [punchDecision, handlePunchHoleRequest, Machine.run_bind,
    hbbs_run_of_all (keepsSel_authorize cause ph), hpass]
  generalize ((srvMachine E cfg).run e (authorize cfg cause ph) s).1 = s₁ at hsw hpm
  simp only
  rw [Machine.run_bind, hbbs_run_of_all (keepsSel_liftPeer cause _)]
  have hsw₂ := @run_alwaysUseRelay E cfg e _ _
    (keepsSel_liftPeer cause (PeerMap.get E.serde ph.id)) s₁
  obtain ⟨hpm₂, hres⟩ := @run_liftPeer E cfg _ e cause (PeerMap.get E.serde ph.id) s₁
  generalize (srvMachine E cfg).run e (liftPeer cause (PeerMap.get E.serde ph.id)) s₁ = r₂
    at hsw₂ hpm₂ hres
  obtain ⟨s₂, found⟩ := r₂
  have htarget := target_eq E.serde e.toEnv ph.id s.pm
  rw [← hpm, ← hpm₂, ← hres, hpm] at htarget
  rw [htarget]
  cases found with
  | none => rfl
  | some h =>
    have hread : ∀ k : Peer → Prog SrvSig (Msg × Option SocketAddr),
        (hbbsMachine P E cfg).run e (.op (.peer cause (.readPeer h)) k) (s₂, sel) =
          (hbbsMachine P E cfg).run e (k (s₂.pm.recs h)) (s₂, sel) := fun _ => rfl
    have hnow : ∀ k : Instant → Prog SrvSig (Msg × Option SocketAddr),
        (hbbsMachine P E cfg).run e (.op (.peer cause .now) k) (s₂, sel) =
          (hbbsMachine P E cfg).run e (k e.now) (s₂, sel) := fun _ => rfl
    simp only [Option.map_some, hread, hnow, decidedFor]
    split
    · rfl
    · rw [Machine.run_bind, Machine.run_ret, run_punchMessage,
        show s₂.alwaysUseRelay = s.alwaysUseRelay from hsw₂.trans hsw]

/-! ### When the form does not matter -/

/-- Another address of the record changes nothing else that a request finds. -/
theorem target_readdress (J : Serde) (e : Env) (s : Server) (id : String) (a : SocketAddr) :
    (s.readdress id a).pm.target J e id =
      match s.pm.peer? id with
      | some r => some { r with socketAddr := a }
      | none => s.pm.target J e id := by
  unfold Server.readdress PeerStore.peer?
  cases hm : s.pm.map.lookup id with
  | none => rfl
  | some h => simp [PeerStore.target, PeerStore.modify, hm]

/-- The two checks read the login switch only. -/
theorem authorize_congr (cause : Cause) (ph : PunchHoleRequest) {s s' : Server}
    (h : s'.mustLogin = s.mustLogin) :
    ((srvMachine E cfg).run e (authorize cfg cause ph) s').2 =
      ((srvMachine E cfg).run e (authorize cfg cause ph) s).2 := by
  refine (srvMachine E cfg).run_congr (R := fun s s' => s'.mustLogin = s.mustLogin) ?_
    (checks_authorize cause ph) h
  intro o s s' ho hs
  cases o with
  | mustLogin => exact ⟨hs, hs⟩
  | verifyToken cause token => exact ⟨rfl, hs⟩
  | _ => exact absurd ho id

theorem mustLogin_readdress (s : Server) (id : String) (a : SocketAddr) :
    (s.readdress id a).mustLogin = s.mustLogin := by
  unfold Server.readdress
  split <;> rfl

theorem alwaysUseRelay_readdress (s : Server) (id : String) (a : SocketAddr) :
    (s.readdress id a).alwaysUseRelay = s.alwaysUseRelay := by
  unfold Server.readdress
  split <;> rfl

/-- Addresses that differ in form only lead to one decision, unless the test for one router
tells them apart. -/
theorem chosen_sameEnd (inner : Inner) (always ws : Bool) (natType : NatType) (relay : String)
    {addr addr' peerAddr peerAddr' : SocketAddr} (haddr : addr'.SameEnd addr)
    (hpeer : peerAddr'.SameEnd peerAddr)
    (h : ws = false → (isLan inner peerAddr && isLan inner addr) = false →
      sameIp peerAddr' addr' = sameIp peerAddr addr) :
    chosen inner always ws natType relay addr' peerAddr' =
      chosen inner always ws natType relay addr peerAddr := by
  unfold chosen
  rw [isLan_sameEnd inner haddr, isLan_sameEnd inner hpeer]
  cases ws with
  | true => rfl
  | false =>
    cases hlan : isLan inner peerAddr && isLan inner addr with
    | true => simp only [hlan, Bool.true_or]
    | false => simp only [h rfl hlan]

/-- Two ends behind one router and outside the LAN are told apart by form. -/
theorem chosen_ne (inner : Inner) (always : Bool) (natType : NatType) (relay relay' : String)
    {addr addr' peerAddr : SocketAddr} (haddr : addr'.SameEnd addr)
    (hlan : (isLan inner peerAddr && isLan inner addr) = false)
    (h : sameIp peerAddr addr' ≠ sameIp peerAddr addr) :
    chosen inner always false natType relay' addr' peerAddr ≠
      chosen inner always false natType relay addr peerAddr := by
  unfold chosen
  rw [isLan_sameEnd inner haddr]
  simp only [hlan, Bool.not_false, Bool.true_and, Bool.false_or]
  cases hs : sameIp peerAddr addr with
  | true =>
    rw [hs, ne_eq, Bool.not_eq_true] at h
    simp [h]
  | false =>
    rw [hs, ne_eq, Bool.not_eq_false] at h
    simp [h]

/-- The other form of an IPv4 address. -/
def IpAddr.other (b : BitVec 32) (ip : IpAddr) : IpAddr :=
  if ip = .v4 b then .mapped b else .v4 b

theorem IpAddr.toCanonical_other (b : BitVec 32) (ip : IpAddr) :
    (ip.other b).toCanonical = .v4 b := by
  unfold IpAddr.other
  split
  · exact IpAddr.toCanonical_mapped b
  · rfl

/-- An address is one of the two forms, and so not the other. -/
theorem IpAddr.eq_other_iff {b : BitVec 32} {ip ip' : IpAddr} (h : ip.toCanonical = .v4 b)
    (h' : ip'.toCanonical = .v4 b) : ip' = ip.other b ↔ ip' ≠ ip := by
  have hne := IpAddr.v4_ne_mapped b
  unfold IpAddr.other
  rcases IpAddr.eq_of_toCanonical h with rfl | rfl
  · rw [if_pos rfl]
    rcases IpAddr.eq_of_toCanonical h' with rfl | rfl
    · exact ⟨fun h => absurd h hne, fun h => absurd rfl h⟩
    · exact ⟨fun _ => hne.symm, fun _ => rfl⟩
  · rw [if_neg hne.symm]
    rcases IpAddr.eq_of_toCanonical h' with rfl | rfl
    · exact ⟨fun _ => hne, fun _ => rfl⟩
    · exact ⟨fun h => absurd h hne.symm, fun h => absurd rfl h⟩

/-- A target behind the requester's router that the form decides about: it is online, the request
did not come over a websocket, and the two ends have one IPv4 address, outside the LAN. -/
def Misjudged (inner : Inner) (now : Instant) (ws : Bool) (addr : SocketAddr) (r : Peer) : Prop :=
  elapsedMillis now r.lastRegTime < REG_TIMEOUT ∧ ws = false ∧
    r.socketAddr.ip.toCanonical = addr.ip.toCanonical ∧ (∃ b, addr.ip.toCanonical = .v4 b) ∧
      isLan inner addr = false

/-- The requester and the record it finds, each in another form, and not misjudged. -/
theorem sameIp_sameEnd {inner : Inner} {now : Instant} {addr addr' : SocketAddr} {r r' : Peer}
    (haddr : addr'.SameEnd addr) (hpeer : r'.socketAddr.SameEnd r.socketAddr)
    (hon : elapsedMillis now r.lastRegTime < REG_TIMEOUT)
    (hok : ¬Misjudged inner now false addr r)
    (hlan : (isLan inner r.socketAddr && isLan inner addr) = false) :
    sameIp r'.socketAddr addr' = sameIp r.socketAddr addr := by
  rw [sameIp_eq, sameIp_eq]
  by_cases hcan : r.socketAddr.ip.toCanonical = addr.ip.toCanonical
  · -- one canonical address: it is IPv6, and has no other form
    have hout : isLan inner addr = false := by
      rw [isLan_canonical inner r.socketAddr, hcan, ← isLan_canonical] at hlan
      simpa using hlan
    obtain ⟨c, hc⟩ : ∃ c, addr.ip.toCanonical = .v6 c := by
      cases hv : addr.ip.toCanonical with
      | v4 b => exact absurd ⟨hon, rfl, hcan, ⟨b, hv⟩, hout⟩ hok
      | v6 c => exact ⟨c, rfl⟩
    rw [IpAddr.eq_v6_of_toCanonical hc, IpAddr.eq_v6_of_toCanonical (haddr.1.trans hc),
      IpAddr.eq_v6_of_toCanonical (hcan.trans hc),
      IpAddr.eq_v6_of_toCanonical (hpeer.1.trans (hcan.trans hc))]
  · have hne : r.socketAddr.ip ≠ addr.ip := fun h => hcan (congrArg IpAddr.toCanonical h)
    have hne' : r'.socketAddr.ip ≠ addr'.ip := by
      intro h
      apply hcan
      rw [← hpeer.1, h, haddr.1]
    rw [decide_eq_false hne, decide_eq_false hne']

/-- **One record, one decision**, unless the record is misjudged. -/
theorem decidedFor_sameEnd {now : Instant} {inner : Inner} {always ws : Bool} {natType : NatType}
    {sel : RelaySelector} {addr addr' : SocketAddr} {r r' : Peer} (hsel : Unwraps sel)
    (haddr : addr'.SameEnd addr) (hpeer : r'.socketAddr.SameEnd r.socketAddr)
    (htime : r'.lastRegTime = r.lastRegTime) (hok : ¬Misjudged inner now ws addr r) :
    decidedFor P now inner always ws natType sel addr' r' =
      decidedFor P now inner always ws natType sel addr r := by
  unfold decidedFor
  rw [htime]
  split
  · rfl
  · next hon =>
    rw [pick_sameEnds hsel (Or.inl ⟨haddr.1, hpeer.1⟩)]
    refine chosen_sameEnd inner always ws natType _ haddr hpeer ?_
    rintro rfl hlan
    exact sameIp_sameEnd haddr hpeer (by omega) hok hlan

/-- A misjudged record: the other form of who asks is told something else. -/
theorem decidedFor_ne {now : Instant} {inner : Inner} (always : Bool) {ws : Bool}
    (natType : NatType) (sel : RelaySelector) {addr : SocketAddr} {r : Peer}
    (h : Misjudged inner now ws addr r) :
    ∃ addr' : SocketAddr, addr'.SameEnd addr ∧
      decidedFor P now inner always ws natType sel addr' r ≠
        decidedFor P now inner always ws natType sel addr r := by
  obtain ⟨hon, rfl, hcan, ⟨b, hb⟩, hlan⟩ := h
  have hother : SocketAddr.SameEnd ⟨addr.ip.other b, addr.port⟩ addr :=
    ⟨(IpAddr.toCanonical_other b addr.ip).trans hb.symm, rfl⟩
  refine ⟨_, hother, ?_⟩
  unfold decidedFor
  rw [if_neg (by omega), if_neg (by omega)]
  refine chosen_ne inner always natType _ _ hother (by rw [hlan, Bool.and_false]) ?_
  rw [sameIp_eq, sameIp_eq, ne_eq, decide_eq_decide, IpAddr.eq_other_iff hb (hcan.trans hb)]
  exact not_iff_self

theorem target_of_peer {J : Serde} {e : Env} {s : PeerStore} {id : String} {r : Peer}
    (h : s.peer? id = some r) : s.target J e id = some r := by
  unfold PeerStore.peer? at h
  unfold PeerStore.target
  cases hm : s.map.lookup id with
  | none =>
    rw [hm] at h
    cases h
  | some x =>
    rw [hm] at h
    exact h

/-- A record given an address in another form is found as one that differs in its form. -/
theorem target_readdress_sameEnd {J : Serde} {e : Env} {s : Server} {id : String}
    {a : SocketAddr} (ha : ∀ r ∈ s.pm.peer? id, a.SameEnd r.socketAddr) {r : Peer}
    (hr : s.pm.target J e id = some r) :
    ∃ r', (s.readdress id a).pm.target J e id = some r' ∧
      r'.socketAddr.SameEnd r.socketAddr ∧ r'.lastRegTime = r.lastRegTime := by
  rw [target_readdress]
  cases hp : s.pm.peer? id with
  | none => exact ⟨r, hr, .refl _, rfl⟩
  | some q =>
    obtain rfl : q = r := Option.some.inj ((target_of_peer hp).symm.trans hr)
    exact ⟨_, rfl, ha q hp, rfl⟩

theorem target_readdress_none {J : Serde} {e : Env} {s : Server} {id : String} (a : SocketAddr)
    (hr : s.pm.target J e id = none) : (s.readdress id a).pm.target J e id = none := by
  rw [target_readdress]
  cases hp : s.pm.peer? id with
  | none => exact hr
  | some q =>
    rw [target_of_peer hp] at hr
    cases hr

/-- The address a record has already. -/
theorem target_readdress_self {J : Serde} {e : Env} {s : Server} {id : String} {r : Peer}
    (hr : s.pm.target J e id = some r) :
    (s.readdress id r.socketAddr).pm.target J e id = some r := by
  rw [target_readdress]
  cases hp : s.pm.peer? id with
  | none => exact hr
  | some q =>
    obtain rfl : q = r := Option.some.inj ((target_of_peer hp).symm.trans hr)
    rfl

end Decision

/-- **Exactly when the form of an address does not matter.**  Whatever the server's state, and
with a selector that any history led to from one without a database: the decision on an
authorised request is the same for either form of either address if and only if the record that
the request finds is not misjudged. -/
theorem formFree_iff (P : Platform) (E : Ext) (cfg : Settings) (s₀ : Selector)
    (history : List (Instant × SelInput)) (hstart : s₀.sel.geo.db = none)
    (hfiles : ∀ x ∈ history, DatabasesOpened x.2) (e : SrvEnv) (snap : Snapshot) (cause : Cause)
    (ph : PunchHoleRequest) (ws : Bool) (s : Server) (addr : SocketAddr)
    (hpass : ((srvMachine E cfg).run e (authorize cfg cause ph) s).2 = none) :
    FormFree P E cfg e snap cause ph ws s (history.foldl (Selector.step P) s₀).sel addr ↔
      ∀ r ∈ s.pm.target E.serde e.toEnv ph.id, ¬Misjudged snap.inner e.now ws addr r := by
  have hsel : Unwraps (history.foldl (Selector.step P) s₀).sel := by
    refine unwraps_run ?_ hfiles
    intro db hdb
    rw [hstart] at hdb
    cases hdb
  generalize (history.foldl (Selector.step P) s₀).sel = sel at hsel
  have hpass' : ∀ a, ((srvMachine E cfg).run e (authorize cfg cause ph)
      (s.readdress ph.id a)).2 = none := by
    intro a
    rw [authorize_congr cause ph (mustLogin_readdress s ph.id a)]
    exact hpass
  constructor
  · intro hfree r hr hmis
    obtain ⟨addr', haddr, hne⟩ := decidedFor_ne (P := P) s.alwaysUseRelay ph.natType sel hmis
    have h := hfree addr' r.socketAddr haddr fun q hq => by
      obtain rfl : q = r := Option.some.inj ((target_of_peer hq).symm.trans hr)
      exact .refl _
    rw [punchDecision_eq snap ws sel addr' (hpass' _), punchDecision_eq snap ws sel addr hpass,
      target_readdress_self hr, hr, alwaysUseRelay_readdress] at h
    exact hne h
  · intro hok addr' peerAddr' haddr hpeer
    rw [punchDecision_eq snap ws sel addr' (hpass' _), punchDecision_eq snap ws sel addr hpass,
      alwaysUseRelay_readdress]
    cases hr : s.pm.target E.serde e.toEnv ph.id with
    | none => rw [target_readdress_none peerAddr' hr]
    | some r =>
      obtain ⟨r', hr', hsame, htime⟩ := target_readdress_sameEnd hpeer hr
      rw [hr']
      exact decidedFor_sameEnd hsel haddr hsame htime (hok r hr)

/-- A peer that registered over a websocket, through a proxy that named its address: the port of
such an address is zero. -/
def viaProxy : Server :=
  (Server.start [] false false .blank).step .sample ⟨"", "", 0⟩
    (SrvEnv.ok 3600000 1, .frame .blank ⟨endA, 0⟩ true 0 none
      (some (.registerPk ⟨"alpha1", [1], [2]⟩)))

/-- A request for it over TCP. -/
def forAlpha : PunchHoleRequest := ⟨"alpha1", .other 1, "", ""⟩

theorem viaProxy_peer :
    ∃ r, viaProxy.pm.peer? "alpha1" = some r ∧ r.socketAddr = ⟨endA, 0⟩ := by
  have h : (viaProxy.pm.peer? "alpha1").map Peer.socketAddr = some ⟨endA, 0⟩ := by
    decide +kernel
  exact Option.map_eq_some_iff.mp h

/-- **One router, two forms**: the peer is known as `192.0.2.7`.  A TCP client from the same
address, reported as `::ffff:192.0.2.7`, is sent to punch a hole; reported as `192.0.2.7`, it
would get the local address. -/
theorem one_router_two_forms :
    let e := SrvEnv.ok 3601000 1
    let cause : Cause := ⟨.tcp 1, 0, .punchHoleRequest forAlpha⟩
    ((srvMachine .sample ⟨"", "", 0⟩).run e (authorize ⟨"", "", 0⟩ cause forAlpha) viaProxy).2 =
        none ∧
      ¬FormFree .plain .sample ⟨"", "", 0⟩ e .blank cause forAlpha false viaProxy
        twoAnswering.sel ⟨.mapped 0xc0000207, 50000⟩ := by
  refine ⟨rfl, ?_⟩
  intro hfree
  have h := hfree ⟨endA, 50000⟩ ⟨endA, 0⟩ ⟨by decide, rfl⟩ fun r hr => by
    obtain ⟨q, hq, haddr⟩ := viaProxy_peer
    obtain rfl : q = r := Option.some.inj (hq.symm.trans hr)
    rw [haddr]
    exact .refl _
  exact absurd h (by decide +kernel)

/-- A client from elsewhere gets one decision, in whatever form its address comes. -/
theorem formFree_elsewhere :
    FormFree .plain .sample ⟨"", "", 0⟩ (SrvEnv.ok 3601000 1) .blank
      ⟨.tcp 1, 0, .punchHoleRequest forAlpha⟩ forAlpha false viaProxy
      (([(0, .reload placed)] : List (Instant × SelInput)).foldl
        (Selector.step .plain) withGeo).sel ⟨endB, 50000⟩ := by
  refine (formFree_iff .plain .sample ⟨"", "", 0⟩ withGeo [(0, .reload placed)] rfl ?_
    (SrvEnv.ok 3601000 1) .blank ⟨.tcp 1, 0, .punchHoleRequest forAlpha⟩ forAlpha false viaProxy
    ⟨endB, 50000⟩ rfl).2 ?_
  · intro x hx
    rw [List.mem_singleton.mp hx]
    intro db hdb
    exact ⟨_, (Except.ok.inj hdb).symm⟩
  · rintro r hr ⟨-, -, hcan, -⟩
    obtain ⟨q, hq, haddr⟩ := viaProxy_peer
    obtain rfl : q = r := Option.some.inj ((target_of_peer hq).symm.trans hr)
    rw [haddr] at hcan
    exact absurd hcan (by decide)

end RustdeskServer
