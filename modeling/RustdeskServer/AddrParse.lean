import RustdeskServer.Net
import RustdeskServer.Plain.Reader

/-!
# Addresses read from text

The parser behind `str::parse` for `IpAddr` and `SocketAddr`, of Rust's standard library.  An
address that was written with `to_string` is read back, also in brackets and with a port; so
two addresses with one text are the same.

## Main definitions

* `readIpv4Addr`, `readGroups`, `readIpv6Addr`, `readSocketAddr` — the parser.
* `parseIpAddr`, `parseSocketAddr` — `str::parse`.

## Main results

* `readIpv4Addr_textV4`, `readIpv6Addr_textV6` — **what was written is read back.**
* `toText_injective` — the text of an address tells it.
-/

namespace RustdeskServer

open Plain

namespace AddrParse

/-! ### The parser -/

/-- `read_separator`. -/
def separated {α : Type} (sep : Option Char) (p : Reader α) : Reader α :=
  match sep with
  | some c => (Reader.char c).bind fun _ => p
  | none => p

/-- An octet: octal numbers are not allowed. -/
def readOctet : Reader ℕ := .number 10 (some 3) false 255

/-- The IPv4 address with these octets. -/
def ofOctetList (a b c d : ℕ) : BitVec 32 := BitVec.ofNat 32 (((a * 256 + b) * 256 + c) * 256 + d)

/-- `read_ipv4_addr`. -/
def readIpv4Addr : Reader (BitVec 32) :=
  (separated none readOctet).bind fun a =>
    (separated (some '.') readOctet).bind fun b =>
      (separated (some '.') readOctet).bind fun c =>
        (separated (some '.') readOctet).map fun d => ofOctetList a b c d

/-- A group of up to four hexadecimal digits. -/
def readGroup : Reader ℕ := .number 16 (some 4) true 65535

/-- `read_groups`, for the groups that are left: what it read, and whether it ended with an
IPv4 address, for which there must be two groups left. -/
def readGroups : ℕ → Option Char → Reader (List ℕ × Bool)
  | 0, _ => .pure ([], false)
  | left + 1, sep =>
    .orElse
      (if 0 < left then
        (separated sep readIpv4Addr).map fun b => ([b.toNat / 65536, b.toNat % 65536], true)
      else fun _ => none)
      (.orElse
        ((separated sep readGroup).bind fun g =>
          (readGroups left (some ':')).map fun x => (g :: x.1, x.2))
        (.pure ([], false)))

/-- The IPv6 address with these segments. -/
def ofSegments (gs : List ℕ) : BitVec 128 :=
  BitVec.ofNat 128 (gs.foldl (fun n g => n * 65536 + g) 0)

/-- `read_ipv6_addr`: all eight groups, or those before and those after `::`. -/
def readIpv6Addr : Reader (BitVec 128) :=
  (readGroups 8 none).bind fun head =>
    if head.1.length = 8 then .pure (ofSegments head.1)
    -- an IPv4 address is not allowed before `::`
    else if head.2 then fun _ => none
    else (Reader.char ':').bind fun _ => (Reader.char ':').bind fun _ =>
      (readGroups (7 - head.1.length) none).map fun tail =>
        ofSegments (head.1 ++ List.replicate (8 - head.1.length - tail.1.length) 0 ++ tail.1)

/-- `read_ip_addr`. -/
def readIpAddr : Reader IpAddr := (readIpv4Addr.map IpAddr.v4).orElse (readIpv6Addr.map IpAddr.v6)

/-- `read_port`. -/
def readPort : Reader UInt16 :=
  (Reader.char ':').bind fun _ => (Reader.number 10 none true 65535).map UInt16.ofNat

/-- `read_scope_id`. -/
def readScopeId : Reader ℕ :=
  (Reader.char '%').bind fun _ => Reader.number 10 none true (2 ^ 32 - 1)

/-- `read_socket_addr_v4`. -/
def readSocketAddrV4 : Reader SocketAddr :=
  readIpv4Addr.bind fun ip => readPort.map fun port => ⟨.v4 ip, port⟩

/-- An IPv6 address with its zone index, if it has one. -/
def readScoped : Reader (BitVec 128) := readIpv6Addr.bind fun ip => readScopeId.opt.map fun _ => ip

/-- `read_socket_addr_v6`; the zone index is not used. -/
def readSocketAddrV6 : Reader SocketAddr :=
  (Reader.char '[').bind fun _ => readScoped.bind fun ip =>
    (Reader.char ']').bind fun _ => readPort.map fun port => ⟨.v6 ip, port⟩

/-- `read_socket_addr`. -/
def readSocketAddr : Reader SocketAddr := readSocketAddrV4.orElse readSocketAddrV6

/-- `str::parse` for `IpAddr`. -/
def parseIpAddr (s : String) : Option IpAddr := readIpAddr.whole s.toList

/-- `str::parse` for `SocketAddr`. -/
def parseSocketAddr (s : String) : Option SocketAddr := readSocketAddr.whole s.toList

example : parseSocketAddr "192.0.2.7:80" = some ⟨.ofOctets 192 0 2 7, 80⟩ := by
  decide +kernel
example : parseIpAddr "::ffff:192.0.2.7" = some (.v6 0xffffc0000207) := by
  decide +kernel
example : parseSocketAddr "::1:0" = none := by
  decide +kernel

/-! ### Where the readers stop, and what they leave -/

section

variable {α : Type} {y : List Char}

theorem stopsAt_separated {sep : Option Char} {p : Reader α} (hsep : sep.isSome → y.head? ≠ sep)
    (hp : p.StopsAt y) : (separated sep p).StopsAt y := by
  cases sep with
  | none => exact hp
  | some c => exact (Reader.stopsAt_char (hsep rfl)).bind fun _ => hp

theorem leavesSuffix_separated (sep : Option Char) {p : Reader α} (hp : p.LeavesSuffix) :
    (separated sep p).LeavesSuffix := by
  cases sep with
  | none => exact hp
  | some c => exact (Reader.leavesSuffix_char c).bind fun _ => hp

/-- A text that starts with neither a digit nor a dot. -/
structure EndsV4 (y : List Char) : Prop where
  /-- Not with a digit. -/
  digit : ∀ c ∈ y.head?, Reader.toDigit 10 c = none
  /-- Not with a dot. -/
  dot : y.head? ≠ some '.'

theorem stopsAt_readIpv4Addr (hy : EndsV4 y) : readIpv4Addr.StopsAt y := by
  have hoctet : readOctet.StopsAt y := Reader.stopsAt_number hy.digit
  have hnext : (separated (some '.') readOctet).StopsAt y :=
    stopsAt_separated (fun _ => hy.dot) hoctet
  exact hoctet.bind fun a => hnext.bind fun b => hnext.bind fun c => hnext.map _

theorem leavesSuffix_readIpv4Addr : readIpv4Addr.LeavesSuffix := by
  have hoctet : readOctet.LeavesSuffix := Reader.leavesSuffix_number 10 (some 3) false 255
  have hnext := leavesSuffix_separated (some '.') hoctet
  exact hoctet.bind fun a => hnext.bind fun b => hnext.bind fun c => hnext.map _

/-- A text without a dot has no IPv4 address. -/
theorem readIpv4Addr_eq_none {s : List Char} (h : '.' ∉ s) : readIpv4Addr s = none := by
  show (readOctet s).bind _ = none
  cases hoctet : readOctet s with
  | none => rfl
  | some x =>
    have hdot : Reader.char '.' x.2 = none :=
      (Reader.leavesSuffix_number 10 (some 3) false 255).char_eq_none hoctet h
    simp [Reader.bind, separated, hdot]

/-- A text that starts with no character of an address: neither a hexadecimal digit nor a
separator. -/
structure EndsV6 (y : List Char) : Prop extends EndsV4 y where
  /-- Not with a hexadecimal digit. -/
  hex : ∀ c ∈ y.head?, Reader.toDigit 16 c = none
  /-- Not with a colon. -/
  colon : y.head? ≠ some ':'

theorem stopsAt_readGroups (hy : EndsV6 y) (left : ℕ) {sep : Option Char}
    (hsep : sep = none ∨ sep = some ':') : (readGroups left sep).StopsAt y := by
  have hcolon : sep.isSome → y.head? ≠ sep := by
    rcases hsep with rfl | rfl
    · intro h
      cases h
    · exact fun _ => hy.colon
  induction left generalizing sep with
  | zero => exact Reader.stopsAt_pure _
  | succ left ih =>
    have hgroup : readGroup.StopsAt y := Reader.stopsAt_number hy.hex
    have hv4 := stopsAt_separated hcolon (stopsAt_readIpv4Addr hy.toEndsV4)
    have hrest := ih (.inr rfl) fun _ => hy.colon
    rw [readGroups]
    refine Reader.StopsAt.orElse ?_ (Reader.StopsAt.orElse ?_ (Reader.stopsAt_pure _))
    · split
      · exact hv4.map _
      · exact fun s => rfl
    · exact (stopsAt_separated hcolon hgroup).bind fun g => hrest.map _

theorem stopsAt_readIpv6Addr (hy : EndsV6 y) : readIpv6Addr.StopsAt y := by
  have hchar : (Reader.char ':').StopsAt y := Reader.stopsAt_char hy.colon
  refine (stopsAt_readGroups hy 8 (.inl rfl)).bind fun head => ?_
  split
  · exact Reader.stopsAt_pure _
  · split
    · exact fun s => rfl
    · exact hchar.bind fun _ => hchar.bind fun _ =>
        (stopsAt_readGroups hy _ (.inl rfl)).map _

/-- A text that starts with a bracket ends an address with a zone index, too. -/
theorem endsV6_bracket (y : List Char) : EndsV6 (']' :: y) where
  digit := by
    intro c hc
    obtain rfl : ']' = c := by simpa using hc
    decide
  dot := by simp
  hex := by
    intro c hc
    obtain rfl : ']' = c := by simpa using hc
    decide
  colon := by simp

theorem stopsAt_readScoped (y : List Char) : readScoped.StopsAt (']' :: y) := by
  have hy := endsV6_bracket y
  have hscope : readScopeId.StopsAt (']' :: y) :=
    (Reader.stopsAt_char (by simp)).bind fun _ => Reader.stopsAt_number hy.digit
  exact (stopsAt_readIpv6Addr hy).bind fun ip => hscope.opt.map _

theorem leavesSuffix_readGroups (left : ℕ) (sep : Option Char) :
    (readGroups left sep).LeavesSuffix := by
  induction left generalizing sep with
  | zero => exact Reader.leavesSuffix_pure _
  | succ left ih =>
    have hgroup : readGroup.LeavesSuffix := Reader.leavesSuffix_number 16 (some 4) true 65535
    rw [readGroups]
    refine Reader.LeavesSuffix.orElse ?_
      (Reader.LeavesSuffix.orElse ?_ (Reader.leavesSuffix_pure _))
    · split
      · exact (leavesSuffix_separated sep leavesSuffix_readIpv4Addr).map _
      · intro s a r h
        cases h
    · exact (leavesSuffix_separated sep hgroup).bind fun g => (ih _).map _

theorem leavesSuffix_readIpv6Addr : readIpv6Addr.LeavesSuffix := by
  refine (leavesSuffix_readGroups 8 none).bind fun head => ?_
  split
  · exact Reader.leavesSuffix_pure _
  · split
    · intro s a r h
      cases h
    · exact (Reader.leavesSuffix_char ':').bind fun _ =>
        (Reader.leavesSuffix_char ':').bind fun _ => (leavesSuffix_readGroups _ none).map _

theorem leavesSuffix_readScoped : readScoped.LeavesSuffix := by
  have hscope : readScopeId.LeavesSuffix :=
    (Reader.leavesSuffix_char '%').bind fun _ => Reader.leavesSuffix_number 10 none true _
  exact leavesSuffix_readIpv6Addr.bind fun ip =>
    ((hscope.map some).orElse (Reader.leavesSuffix_pure none)).map _

end

/-! ### IPv4 addresses that were written -/

theorem readOctet_toDigits {n : ℕ} (hn : n < 256) {y : List Char}
    (hy : ∀ c ∈ y.head?, Reader.toDigit 10 c = none) :
    readOctet (Nat.toDigits 10 n ++ y) = some (n, y) :=
  Reader.number_toDigits (by decide) (by decide) false (by omega) (by decide) (by omega) hy

/-- The text of an IPv4 address, character by character. -/
theorem toList_textV4 (b : BitVec 32) :
    (IpAddr.textV4 b).toList =
      Nat.toDigits 10 (b.toNat / 256 ^ 3 % 256) ++ '.' ::
        (Nat.toDigits 10 (b.toNat / 256 ^ 2 % 256) ++ '.' ::
          (Nat.toDigits 10 (b.toNat / 256 % 256) ++ '.' ::
            Nat.toDigits 10 (b.toNat % 256))) := by
  have hoctets : IpAddr.octets b =
      [b.toNat / 256 ^ 3 % 256, b.toNat / 256 ^ 2 % 256, b.toNat / 256 % 256,
        b.toNat % 256] := by
    simp [IpAddr.octets, List.range_succ]
  simp [IpAddr.textV4, hoctets]

theorem ofOctetList_eq (b : BitVec 32) :
    ofOctetList (b.toNat / 256 ^ 3 % 256) (b.toNat / 256 ^ 2 % 256) (b.toNat / 256 % 256)
      (b.toNat % 256) = b := by
  have hlt := b.isLt
  unfold ofOctetList
  apply BitVec.eq_of_toNat_eq
  rw [BitVec.toNat_ofNat]
  omega

/-- **An IPv4 address that was written is read back.** -/
theorem readIpv4Addr_textV4 (b : BitVec 32) {y : List Char}
    (hy : ∀ c ∈ y.head?, Reader.toDigit 10 c = none) :
    readIpv4Addr ((IpAddr.textV4 b).toList ++ y) = some (b, y) := by
  have hmid : ∀ (n : ℕ) (t : List Char), n < 256 →
      readOctet (Nat.toDigits 10 n ++ '.' :: t) = some (n, '.' :: t) := by
    intro n t hn
    apply readOctet_toDigits hn
    intro c hc
    obtain rfl : '.' = c := by simpa using hc
    decide
  have hlast := @readOctet_toDigits (b.toNat % 256) (by omega) y hy
  rw [toList_textV4]
  simp only [List.append_assoc, List.cons_append]
  simp only [readIpv4Addr, Reader.bind, Reader.map, separated, Reader.char,
    hmid _ _ (Nat.mod_lt _ (by decide : 256 > 0)), hlast, Option.bind_some, if_pos,
    Option.map_some, ofOctetList_eq]

/-! ### IPv6 addresses that were written

The groups are written with colons between them.  Without a dot in the text the parser never
meets an IPv4 address, and it reads the groups up to where they stop. -/

/-- Groups as they are written, the first one after `sep`. -/
def groupsText : Option Char → List ℕ → List Char
  | _, [] => []
  | sep, g :: gs => sep.toList ++ Nat.toDigits 16 g ++ groupsText (some ':') gs

theorem toList_intercalate_hex (gs : List ℕ) :
    (":".intercalate (gs.map IpAddr.hex)).toList = groupsText none gs := by
  induction gs with
  | nil => rfl
  | cons g gs ih =>
    cases gs with
    | nil => simp [groupsText, IpAddr.hex]
    | cons g' gs =>
      rw [List.map_cons, List.map_cons, String.intercalate_cons_cons, ← List.map_cons,
        String.toList_append, String.toList_append, ih]
      simp [groupsText, IpAddr.hex]

theorem toDigit_of_mem_groupsText {sep : Option Char} {gs : List ℕ} {c : Char}
    (h : c ∈ groupsText sep gs) : sep = some c ∨ c = ':' ∨ ∃ d, Reader.toDigit 16 c = some d := by
  induction gs generalizing sep with
  | nil => cases h
  | cons g gs ih =>
    rw [groupsText, List.mem_append, List.mem_append] at h
    rcases h with (h | h) | h
    · exact .inl (by simpa using h)
    · exact .inr (.inr (Reader.toDigit_mem_toDigits (by decide) (by decide) h))
    · rcases ih h with h | h
      · exact .inr (.inl (Option.some.inj h).symm)
      · exact .inr h

theorem dot_notMem_groupsText {sep : Option Char} (hsep : sep ≠ some '.') (gs : List ℕ) :
    '.' ∉ groupsText sep gs := by
  intro h
  rcases toDigit_of_mem_groupsText h with h | h | ⟨d, h⟩
  · exact hsep h
  · exact absurd h (by decide)
  · rw [show Reader.toDigit 16 '.' = none by decide] at h
    cases h

theorem separated_toList {α : Type} (sep : Option Char) (p : Reader α) (s : List Char) :
    separated sep p (sep.toList ++ s) = p s := by
  cases sep with
  | none => rfl
  | some c => simp [separated, Reader.bind, Reader.char]

theorem separated_readIpv4Addr_eq_none (sep : Option Char) {s : List Char} (h : '.' ∉ s) :
    separated sep readIpv4Addr s = none := by
  cases sep with
  | none => exact readIpv4Addr_eq_none h
  | some c =>
    cases s with
    | nil => rfl
    | cons c' s =>
      have hrest := readIpv4Addr_eq_none fun hmem => h (List.mem_cons_of_mem c' hmem)
      by_cases hc : c' = c
      · simp [separated, Reader.bind, Reader.char, hc, hrest]
      · simp [separated, Reader.bind, Reader.char, hc]

/-- A group is read, and the ones after it. -/
theorem readGroups_cons {left g : ℕ} {sep : Option Char} {s r t : List Char} {x : List ℕ × Bool}
    (hv4 : separated sep readIpv4Addr s = none) (hg : separated sep readGroup s = some (g, r))
    (hrest : readGroups left (some ':') r = some (x, t)) :
    readGroups (left + 1) sep s = some ((g :: x.1, x.2), t) := by
  rw [readGroups, Reader.orElse]
  split
  · simp [Reader.orElse, Reader.map, Reader.bind, hv4, hg, hrest]
  · simp [Reader.orElse, Reader.map, Reader.bind, hg, hrest]

/-- No group is read. -/
theorem readGroups_stop {left : ℕ} {sep : Option Char} {s : List Char}
    (hv4 : separated sep readIpv4Addr s = none) (hg : separated sep readGroup s = none) :
    readGroups (left + 1) sep s = some (([], false), s) := by
  rw [readGroups, Reader.orElse]
  split
  · simp [Reader.orElse, Reader.map, Reader.bind, Reader.pure, hv4, hg]
  · simp [Reader.orElse, Reader.bind, Reader.pure, hg]

theorem readGroup_toDigits {g : ℕ} (hg : g < 65536) {y : List Char}
    (hy : ∀ c ∈ y.head?, Reader.toDigit 16 c = none) :
    readGroup (Nat.toDigits 16 g ++ y) = some (g, y) :=
  Reader.number_toDigits (by decide) (by decide) true (by omega) (by decide) (by omega) hy

/-- Groups that were written are read, up to where they stop. -/
theorem readGroups_groupsText {gs : List ℕ} {left : ℕ} {sep : Option Char} {y : List Char}
    (hsep : sep ≠ some '.') (hsmall : ∀ g ∈ gs, g < 65536) (hlen : gs.length ≤ left)
    (hdot : '.' ∉ y) (hhex : ∀ c ∈ y.head?, Reader.toDigit 16 c = none)
    (hstop : gs.length < left →
      separated (if gs = [] then sep else some ':') readGroup y = none) :
    readGroups left sep (groupsText sep gs ++ y) = some ((gs, false), y) := by
  induction gs generalizing left sep with
  | nil =>
    cases left with
    | zero => rfl
    | succ left =>
      exact readGroups_stop (separated_readIpv4Addr_eq_none sep hdot) (hstop (by simp))
  | cons g gs ih =>
    obtain ⟨l, rfl⟩ : ∃ l, left = l + 1 := ⟨left - 1, by simp at hlen; omega⟩
    have hnext : ∀ c ∈ (groupsText (some ':') gs ++ y).head?, Reader.toDigit 16 c = none := by
      cases gs with
      | nil => exact hhex
      | cons g' gs =>
        intro c hc
        obtain rfl : ':' = c := by simpa [groupsText] using hc
        decide
    have hdot' : '.' ∉ groupsText sep (g :: gs) ++ y := by
      rw [List.mem_append, not_or]
      exact ⟨dot_notMem_groupsText hsep _, hdot⟩
    have hgroup : separated sep readGroup (groupsText sep (g :: gs) ++ y) =
        some (g, groupsText (some ':') gs ++ y) := by
      rw [groupsText, List.append_assoc, List.append_assoc, separated_toList]
      exact readGroup_toDigits (hsmall g List.mem_cons_self) hnext
    have hrest := @ih l (some ':') (by decide)
      (fun g' hg' => hsmall g' (List.mem_cons_of_mem _ hg'))
      (by simpa using hlen) (fun hlt => by
        have h := hstop (by simpa using hlt)
        simpa using h)
    exact readGroups_cons (separated_readIpv4Addr_eq_none sep hdot') hgroup hrest

/-- A run of zeros in a list of segments, as its start and its length. -/
def ZeroRun (segs : List ℕ) (z : ℕ × ℕ) : Prop :=
  z.1 + z.2 ≤ segs.length ∧ ∀ k, z.1 ≤ k → k < z.1 + z.2 → segs[k]? = some 0

theorem zeroRun_empty (segs : List ℕ) : ZeroRun segs (0, 0) :=
  ⟨Nat.zero_le _, fun k _ hk => absurd hk (by simp)⟩

/-- The loop of `Display` finds a run of zeros. -/
theorem zeroRun_longestZeros {segs xs : List ℕ} {i : ℕ} {current longest : ℕ × ℕ}
    (hrest : segs.drop i = xs) (hcur : ZeroRun segs current)
    (hend : current.2 = 0 ∨ current.1 + current.2 = i) (hlong : ZeroRun segs longest) :
    ZeroRun segs (IpAddr.longestZeros xs i current longest) := by
  induction xs generalizing i current longest with
  | nil => exact hlong
  | cons x xs ih =>
    have hget : segs[i]? = some x := by
      rw [← List.head?_drop, hrest]
      rfl
    have hnext : segs.drop (i + 1) = xs := by
      rw [← List.drop_drop, hrest]
      rfl
    have hi : i < segs.length := (List.getElem?_eq_some_iff.mp hget).1
    rw [IpAddr.longestZeros]
    split
    · next hzero =>
      have hcur' : ZeroRun segs (if current.2 = 0 then i else current.1, current.2 + 1) := by
        by_cases h0 : current.2 = 0
        · rw [if_pos h0]
          refine ⟨by dsimp only; omega, ?_⟩
          intro k hk hk'
          obtain rfl : k = i := by dsimp only at hk hk'; omega
          rw [hget, hzero]
        · rw [if_neg h0]
          have hsum : current.1 + current.2 = i := hend.resolve_left h0
          refine ⟨by dsimp only; omega, ?_⟩
          intro k hk hk'
          dsimp only at hk hk'
          rcases Nat.lt_or_ge k i with hlt | hge
          · exact hcur.2 k hk (by omega)
          · obtain rfl : k = i := by omega
            rw [hget, hzero]
      have hend' : (if current.2 = 0 then i else current.1) + (current.2 + 1) = i + 1 := by
        by_cases h0 : current.2 = 0
        · rw [if_pos h0, h0]
        · rw [if_neg h0]
          have hsum : current.1 + current.2 = i := hend.resolve_left h0
          omega
      refine ih hnext hcur' (.inr hend') ?_
      generalize (if current.2 = 0 then i else current.1, current.2 + 1) = current' at hcur' ⊢
      split
      · exact hcur'
      · exact hlong
    · exact ih hnext (zeroRun_empty segs) (.inl rfl) hlong

/-- A run of zeros may be left out and put in again. -/
theorem ZeroRun.replicate {segs : List ℕ} {z : ℕ × ℕ} (h : ZeroRun segs z) :
    segs.take z.1 ++ List.replicate z.2 0 ++ segs.drop (z.1 + z.2) = segs := by
  obtain ⟨hlen, hzero⟩ := h
  have hmid : (segs.drop z.1).take z.2 = List.replicate z.2 0 := by
    rw [List.eq_replicate_iff]
    refine ⟨by simp; omega, ?_⟩
    intro b hb
    obtain ⟨k, hk, rfl⟩ := List.mem_iff_getElem.mp hb
    have hk' : k < z.2 := by simp at hk; omega
    have h := hzero (z.1 + k) (by omega) (by omega)
    rw [List.getElem?_eq_some_iff] at h
    obtain ⟨_, h⟩ := h
    simpa using h
  rw [← hmid, List.append_assoc, ← List.drop_drop, List.take_append_drop,
    List.take_append_drop]

theorem length_segments (b : BitVec 128) : (IpAddr.segments b).length = 8 := by
  simp [IpAddr.segments]

theorem segments_lt {b : BitVec 128} {g : ℕ} (hg : g ∈ IpAddr.segments b) : g < 65536 := by
  rw [IpAddr.segments, List.mem_map] at hg
  obtain ⟨i, -, rfl⟩ := hg
  exact Nat.mod_lt _ (by decide)

theorem ofSegments_segments (b : BitVec 128) : ofSegments (IpAddr.segments b) = b := by
  have hlt := b.isLt
  apply BitVec.eq_of_toNat_eq
  rw [ofSegments, BitVec.toNat_ofNat]
  simp [IpAddr.segments, List.range_succ]
  omega

/-- At the end of an address there is no other group. -/
theorem separated_readGroup_eq_none {y : List Char} (hy : EndsV6 y) (first : Prop)
    [Decidable first] : separated (if first then none else some ':') readGroup y = none := by
  split
  · exact Reader.number_eq_none hy.hex
  · cases y with
    | nil => rfl
    | cons c y =>
      have hne : c ≠ ':' := by simpa using hy.colon
      simp [separated, Reader.bind, Reader.char, hne]

/-- Before `::` there is no other group, either. -/
theorem separated_readGroup_colons (y : List Char) (first : Prop) [Decidable first] :
    separated (if first then none else some ':') readGroup (':' :: ':' :: y) = none := by
  have hcolon : ∀ t, readGroup (':' :: t) = none := by
    intro t
    apply Reader.number_eq_none
    intro c hc
    obtain rfl : ':' = c := by simpa using hc
    decide
  split
  · exact hcolon _
  · simp [separated, Reader.bind, Reader.char, hcolon]

/-- What is read after the groups before `::`. -/
theorem readIpv6Addr_colons {s t y : List Char} {A B : List ℕ} {v4 : Bool}
    (hhead : readGroups 8 none s = some ((A, false), ':' :: ':' :: t)) (hlen : A.length ≠ 8)
    (htail : readGroups (7 - A.length) none t = some ((B, v4), y)) :
    readIpv6Addr s =
      some (ofSegments (A ++ List.replicate (8 - A.length - B.length) 0 ++ B), y) := by
  rw [readIpv6Addr, Reader.bind, hhead]
  simp [hlen, Reader.bind, Reader.map, Reader.char, htail]

/-- Segments that were written with `::` for a run of zeros. -/
theorem readIpv6Addr_compressed {segs : List ℕ} (hsmall : ∀ g ∈ segs, g < 65536)
    (hlen : segs.length = 8) {z : ℕ × ℕ} (hrun : ZeroRun segs z) (hz : 1 < z.2)
    {y : List Char} (hdot : '.' ∉ y) (hy : EndsV6 y) :
    readIpv6Addr (groupsText none (segs.take z.1) ++
      ':' :: ':' :: (groupsText none (segs.drop (z.1 + z.2)) ++ y)) =
        some (ofSegments segs, y) := by
  have hzlen : z.1 + z.2 ≤ 8 := hlen ▸ hrun.1
  have hA : (segs.take z.1).length = z.1 := by
    rw [List.length_take]
    omega
  have hB : (segs.drop (z.1 + z.2)).length = 8 - (z.1 + z.2) := by
    rw [List.length_drop, hlen]
  have hdotB := dot_notMem_groupsText (by decide : none ≠ some '.') (segs.drop (z.1 + z.2))
  have hhead := @readGroups_groupsText (segs.take z.1) 8 none
    (':' :: ':' :: (groupsText none (segs.drop (z.1 + z.2)) ++ y)) (by decide)
    (fun g hg => hsmall g (List.mem_of_mem_take hg)) (by omega) (by simp [hdotB, hdot])
    (by
      intro c hc
      obtain rfl : ':' = c := by simpa using hc
      decide)
    (fun _ => separated_readGroup_colons _ _)
  have htail := @readGroups_groupsText (segs.drop (z.1 + z.2)) (7 - (segs.take z.1).length) none
    y (by decide) (fun g hg => hsmall g (List.mem_of_mem_drop hg)) (by omega) hdot hy.hex
    (fun _ => separated_readGroup_eq_none hy _)
  rw [readIpv6Addr_colons hhead (by omega) htail, hA, hB,
    show 8 - z.1 - (8 - (z.1 + z.2)) = z.2 by omega, hrun.replicate]

/-- **An IPv6 address that was written is read back**, unless it was written as a mapped one. -/
theorem readIpv6Addr_textV6 {b : BitVec 128} (hmapped : IpAddr.toIpv4Mapped b = none)
    {y : List Char} (hdot : '.' ∉ y) (hy : EndsV6 y) :
    readIpv6Addr ((IpAddr.textV6 b).toList ++ y) = some (b, y) := by
  have hsmall : ∀ g ∈ IpAddr.segments b, g < 65536 := fun g hg => segments_lt hg
  have hlen := length_segments b
  have hrun := @zeroRun_longestZeros (IpAddr.segments b) (IpAddr.segments b) 0 (0, 0) (0, 0) rfl
    (zeroRun_empty _) (.inl rfl) (zeroRun_empty _)
  rw [IpAddr.textV6, hmapped]
  dsimp only
  split
  · next hz =>
    have hread := readIpv6Addr_compressed hsmall hlen hrun hz hdot hy
    rw [ofSegments_segments] at hread
    rw [String.toList_append, String.toList_append, toList_intercalate_hex,
      toList_intercalate_hex, List.append_assoc, List.append_assoc]
    exact hread
  · rw [toList_intercalate_hex]
    have hread := @readGroups_groupsText (IpAddr.segments b) 8 none y (by decide) hsmall
      (by omega) hdot hy.hex (fun h => by omega)
    rw [readIpv6Addr, Reader.bind, hread]
    simp [hlen, Reader.pure, ofSegments_segments]

/-- A text that is no digit ahead has no IPv4 address. -/
theorem readIpv4Addr_head {c : Char} {s : List Char} (hc : Reader.toDigit 10 c = none) :
    readIpv4Addr (c :: s) = none := by
  have hoctet : readOctet (c :: s) = none := by
    apply Reader.number_eq_none
    intro c' hc'
    obtain rfl : c = c' := by simpa using hc'
    exact hc
  simp [readIpv4Addr, Reader.bind, separated, hoctet]

/-- The last two groups, written as an IPv4 address. -/
theorem readGroups_v4 {left : ℕ} (hleft : 0 < left) (a : BitVec 32) {y : List Char}
    (hy : ∀ c ∈ y.head?, Reader.toDigit 10 c = none) :
    readGroups (left + 1) (some ':') (':' :: ((IpAddr.textV4 a).toList ++ y)) =
      some (([a.toNat / 65536, a.toNat % 65536], true), y) := by
  rw [readGroups, if_pos hleft]
  simp [Reader.orElse, Reader.map, separated, Reader.bind, Reader.char,
    readIpv4Addr_textV4 a hy]

theorem ofSegments_mapped {b : BitVec 128} {a : BitVec 32}
    (hmapped : IpAddr.toIpv4Mapped b = some a) :
    ofSegments [0, 0, 0, 0, 0, 65535, a.toNat / 65536, a.toNat % 65536] = b := by
  unfold IpAddr.toIpv4Mapped at hmapped
  split at hmapped
  · next hpre =>
    obtain rfl := Option.some.inj hmapped
    apply BitVec.eq_of_toNat_eq
    simp [ofSegments]
    omega
  · cases hmapped

/-- A mapped address that was written is read back. -/
theorem readIpv6Addr_mapped {b : BitVec 128} {a : BitVec 32}
    (hmapped : IpAddr.toIpv4Mapped b = some a) {y : List Char}
    (hy : ∀ c ∈ y.head?, Reader.toDigit 10 c = none) :
    readIpv6Addr ((IpAddr.textV6 b).toList ++ y) = some (b, y) := by
  have hffff : Nat.toDigits 16 65535 = ['f', 'f', 'f', 'f'] := by decide
  have htext : (IpAddr.textV6 b).toList ++ y =
      ':' :: ':' :: (Nat.toDigits 16 65535 ++ ':' :: ((IpAddr.textV4 a).toList ++ y)) := by
    rw [IpAddr.textV6, hmapped]
    simp [hffff]
  have hhead : readGroups 8 none ((IpAddr.textV6 b).toList ++ y) =
      some (([], false), (IpAddr.textV6 b).toList ++ y) := by
    rw [htext]
    exact readGroups_stop (readIpv4Addr_head (by decide))
      (by simpa using separated_readGroup_colons _ True)
  have hgroup : readGroup (Nat.toDigits 16 65535 ++ ':' :: ((IpAddr.textV4 a).toList ++ y)) =
      some (65535, ':' :: ((IpAddr.textV4 a).toList ++ y)) := by
    apply readGroup_toDigits (by decide)
    intro c hc
    obtain rfl : ':' = c := by simpa using hc
    decide
  have hv4 : readIpv4Addr (Nat.toDigits 16 65535 ++ ':' :: ((IpAddr.textV4 a).toList ++ y)) =
      none := by
    rw [hffff]
    exact readIpv4Addr_head (by decide)
  have htail := @readGroups_cons _ _ none _ _ _ _ hv4 hgroup (@readGroups_v4 5 (by decide) a y hy)
  rw [htext] at hhead ⊢
  rw [readIpv6Addr_colons hhead (by decide) htail]
  exact congrArg (fun x => some (x, y)) (ofSegments_mapped hmapped)

/-! ### The text tells the address -/

theorem readIpv6Addr_toText (b : BitVec 128) :
    readIpv6Addr (IpAddr.textV6 b).toList = some (b, []) := by
  rw [← List.append_nil (IpAddr.textV6 b).toList]
  cases hmapped : IpAddr.toIpv4Mapped b with
  | none =>
    exact readIpv6Addr_textV6 hmapped List.not_mem_nil
      ⟨⟨by simp, by simp⟩, by simp, by simp⟩
  | some a => exact readIpv6Addr_mapped hmapped (by simp)

/-- Only a mapped address is written with dots. -/
theorem dot_notMem_textV6 {b : BitVec 128} (hmapped : IpAddr.toIpv4Mapped b = none) :
    '.' ∉ (IpAddr.textV6 b).toList := by
  have hdot := fun gs => dot_notMem_groupsText (by decide : none ≠ some '.') gs
  rw [IpAddr.textV6, hmapped]
  dsimp only
  split
  · rw [String.toList_append, String.toList_append, toList_intercalate_hex,
      toList_intercalate_hex]
    simp [hdot]
  · rw [toList_intercalate_hex]
    exact hdot _

/-- The text of an IPv6 address does not start with an IPv4 address. -/
theorem readIpv4Addr_textV6 (b : BitVec 128) : readIpv4Addr (IpAddr.textV6 b).toList = none := by
  cases hmapped : IpAddr.toIpv4Mapped b with
  | none => exact readIpv4Addr_eq_none (dot_notMem_textV6 hmapped)
  | some a =>
    rw [IpAddr.textV6, hmapped]
    simpa using readIpv4Addr_head (by decide)

/-- **What `to_string` writes is read back by `parse`.** -/
theorem parseIpAddr_toText (ip : IpAddr) : parseIpAddr ip.toText = some ip := by
  cases ip with
  | v4 b =>
    have hread := @readIpv4Addr_textV4 b [] (by simp)
    rw [List.append_nil] at hread
    simp [parseIpAddr, Reader.whole, readIpAddr, Reader.orElse, Reader.map, IpAddr.toText, hread]
  | v6 b =>
    simp [parseIpAddr, Reader.whole, readIpAddr, Reader.orElse, Reader.map, IpAddr.toText,
      readIpv6Addr_toText b, readIpv4Addr_textV6 b]

theorem toText_injective : Function.Injective IpAddr.toText := by
  intro a b h
  have ha := parseIpAddr_toText a
  rw [h, parseIpAddr_toText b] at ha
  exact (Option.some.inj ha).symm

end AddrParse

end RustdeskServer
