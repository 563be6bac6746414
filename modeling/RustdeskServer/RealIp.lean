import RustdeskServer.AddrParse
import RustdeskServer.Text

/-!
# The address a proxy names

Behind a reverse proxy a websocket's address is taken from the handshake's headers.  The text
is made into a socket address before it is parsed: with a port after it if it has a dot, else
in brackets with a port.  The dot is meant to tell IPv4 from IPv6, but an IPv4-mapped address is
written with dots, too; and a text in brackets of its own is taken if there is a dot in it.

## Main definitions

* `Headers`, `realIp` — the headers that are read.
* `headerAddr` — the address of the connection; `handleListenerAddr`, `makePairAddr` are its
  two places.
* `Honoured` — an address is taken, and nothing else is.

## Main results

* `real_ip_honoured_iff` — **which header values are honoured.**
-/

namespace RustdeskServer

open Plain AddrParse

/-! ### The functions of the source -/

/-- The headers of a handshake that are read. -/
structure Headers where
  /-- `X-Real-IP`. -/
  xRealIp : Option Bytes
  /-- `X-Forwarded-For`. -/
  xForwardedFor : Option Bytes

/-- The header that counts. -/
def Headers.value (h : Headers) : Option Bytes := h.xRealIp.or h.xForwardedFor

section

-- `HeaderValue::to_str`
variable (toStr : Bytes → Option String)

/-- `real_ip`. -/
def realIp (h : Headers) : Option String := h.value.bind toStr

/-- The address of the connection after the callback of the handshake. -/
def headerAddr (h : Headers) (addr : SocketAddr) : SocketAddr :=
  match realIp toStr h with
  | none => addr
  | some ip =>
    if Text.contains '.' ip then (parseSocketAddr (ip ++ ":0")).getD addr
    else (parseSocketAddr ("[" ++ ip ++ "]:0")).getD addr

/-- The address in `handle_listener_inner` of `hbbs`. -/
def handleListenerAddr (ws : Bool) (h : Headers) (addr : SocketAddr) : SocketAddr :=
  if ws then headerAddr toStr h addr else addr

/-- The address in `make_pair` of `hbbr`. -/
def makePairAddr (ws : Bool) (h : Headers) (addr : SocketAddr) : SocketAddr :=
  if ws then headerAddr toStr h addr else addr

end

/-! ### What is parsed -/

theorem toDigit_colon : ∀ c ∈ [':', '0'].head?, Reader.toDigit 10 c = none := by
  intro c hc
  obtain rfl : ':' = c := by simpa using hc
  decide

/-- Only the port that was put there ends the text. -/
theorem readPort_append {r : List Char} {p : UInt16} :
    readPort (r ++ [':', '0']) = some (p, []) ↔ r = [] ∧ p = 0 := by
  constructor
  · intro h
    cases r with
    | nil =>
      have hzero : readPort [':', '0'] = some (0, []) := by decide
      rw [List.nil_append, hzero] at h
      simp only [Option.some.injEq, Prod.mk.injEq, and_true] at h
      exact ⟨rfl, h.symm⟩
    | cons c r =>
      -- a number in front of a colon leaves that colon
      rw [List.cons_append, readPort, Reader.bind, Option.bind_eq_some_iff] at h
      obtain ⟨⟨_, t⟩, hchar, h⟩ := h
      rw [Reader.char] at hchar
      split at hchar
      · obtain ⟨-, rfl⟩ := Prod.mk.inj (Option.some.inj hchar)
        simp only [Reader.map, Reader.stopsAt_number toDigit_colon r, Option.map_map,
          Option.map_eq_some_iff] at h
        obtain ⟨x, -, heq⟩ := h
        simp at heq
      · cases hchar
  · rintro ⟨rfl, rfl⟩
    decide

theorem endsV4_port : EndsV4 [':', '0'] where
  digit := toDigit_colon
  dot := by simp

/-- With a port put after it, an IPv4 address is read, and nothing longer. -/
theorem readSocketAddrV4_append {s : List Char} {a : SocketAddr} :
    readSocketAddrV4.whole (s ++ [':', '0']) = some a ↔
      ∃ b, readIpv4Addr.whole s = some b ∧ a = ⟨.v4 b, 0⟩ := by
  rw [Reader.whole_eq_some, readSocketAddrV4, Reader.bind, stopsAt_readIpv4Addr endsV4_port]
  constructor
  · intro h
    rw [Option.bind_eq_some_iff] at h
    obtain ⟨x, hx, h⟩ := h
    rw [Option.map_eq_some_iff] at hx
    obtain ⟨⟨b, r⟩, hread, rfl⟩ := hx
    rw [Reader.map, Option.map_eq_some_iff] at h
    obtain ⟨⟨p, t⟩, hport, heq⟩ := h
    obtain ⟨rfl, rfl⟩ := Prod.mk.inj heq
    obtain ⟨rfl, rfl⟩ := readPort_append.mp hport
    exact ⟨b, Reader.whole_eq_some.mpr hread, rfl⟩
  · rintro ⟨b, hread, rfl⟩
    have hport := (@readPort_append [] 0).mpr ⟨rfl, rfl⟩
    rw [Reader.whole_eq_some.mp hread]
    simpa [Reader.map] using hport

/-- A bracket that is followed by a port that was put there ends what was there before. -/
theorem eq_of_bracket {s q t : List Char} {p : UInt16}
    (h : s ++ [':', '0'] = q ++ ']' :: t) (hport : readPort t = some (p, [])) :
    s = q ++ [']'] ∧ t = [':', '0'] ∧ p = 0 := by
  rcases List.append_eq_append_iff.mp h with ⟨l, rfl, hl⟩ | ⟨l, rfl, hl⟩
  · have hmem : ']' ∈ [':', '0'] := hl ▸ by simp
    simp at hmem
  · cases l with
    | nil => simp at hl
    | cons c l =>
      obtain ⟨rfl, rfl⟩ := List.cons.inj hl
      obtain ⟨rfl, rfl⟩ := readPort_append.mp hport
      exact ⟨rfl, rfl, rfl⟩

/-- A text in brackets, and a port put after it. -/
theorem readSocketAddrV6_append {s : List Char} {a : SocketAddr} :
    readSocketAddrV6.whole ('[' :: s ++ [':', '0']) = some a ↔
      ∃ q b, s = q ++ [']'] ∧ readScoped.whole q = some b ∧ a = ⟨.v6 b, 0⟩ := by
  have hopen : readSocketAddrV6 ('[' :: s ++ [':', '0']) =
      (readScoped.bind fun ip => (Reader.char ']').bind fun _ =>
        readPort.map fun port => (⟨.v6 ip, port⟩ : SocketAddr)) (s ++ [':', '0']) := by
    simp [readSocketAddrV6, Reader.bind, Reader.char]
  rw [Reader.whole_eq_some, hopen]
  constructor
  · intro h
    simp only [Reader.bind, Reader.map, Option.bind_eq_some_iff, Option.map_eq_some_iff] at h
    obtain ⟨⟨b, r⟩, hread, ⟨_, t⟩, hchar, ⟨p, u⟩, hport, heq⟩ := h
    obtain ⟨rfl, rfl⟩ := Prod.mk.inj heq
    obtain ⟨q, hq⟩ := leavesSuffix_readScoped _ _ _ hread
    obtain rfl : r = ']' :: t := Reader.eq_of_char hchar
    obtain ⟨rfl, rfl, rfl⟩ := eq_of_bracket hq.symm hport
    rw [List.append_assoc, List.singleton_append, stopsAt_readScoped [':', '0'],
      Option.map_eq_some_iff] at hread
    obtain ⟨⟨b', r⟩, hread, heq⟩ := hread
    obtain ⟨rfl, hr⟩ := Prod.mk.inj heq
    obtain rfl : r = [] := List.append_left_eq_self.mp hr
    exact ⟨q, b', rfl, Reader.whole_eq_some.mpr hread, rfl⟩
  · rintro ⟨q, b, rfl, hread, rfl⟩
    have hstop := stopsAt_readScoped [':', '0'] q
    rw [Reader.whole_eq_some.mp hread] at hstop
    have hport := (@readPort_append [] 0).mpr ⟨rfl, rfl⟩
    rw [List.append_assoc, List.singleton_append, Reader.bind, hstop]
    simpa [Reader.bind, Reader.map, Reader.char] using hport

/-- The two kinds of socket addresses start differently. -/
theorem parseSocketAddr_eq (s : List Char) :
    readSocketAddr.whole s = (readSocketAddrV4.whole s).or (readSocketAddrV6.whole s) := by
  cases s with
  | nil => rfl
  | cons c s =>
    by_cases hc : c = '['
    · subst hc
      have hv4 : readSocketAddrV4 ('[' :: s) = none := by
        rw [readSocketAddrV4, Reader.bind, readIpv4Addr_head (by decide)]
        rfl
      simp [Reader.whole, readSocketAddr, Reader.orElse, hv4]
    · have hv6 : readSocketAddrV6 (c :: s) = none := by
        simp [readSocketAddrV6, Reader.bind, Reader.char, hc]
      simp [Reader.whole, readSocketAddr, Reader.orElse, hv6]

/-- What a text with a dot is taken for. -/
theorem parseSocketAddr_port {t : String} {a : SocketAddr} :
    parseSocketAddr (t ++ ":0") = some a ↔
      (∃ b, readIpv4Addr.whole t.toList = some b ∧ a = ⟨.v4 b, 0⟩) ∨
        ∃ q b, t.toList = '[' :: (q ++ [']']) ∧ readScoped.whole q = some b ∧
          a = ⟨.v6 b, 0⟩ := by
  have htext : (t ++ ":0").toList = t.toList ++ [':', '0'] := String.toList_append
  rw [parseSocketAddr, htext, parseSocketAddr_eq, Option.or_eq_some_iff,
    readSocketAddrV4_append]
  refine or_congr_right ?_
  constructor
  · rintro ⟨-, h⟩
    cases ht : t.toList with
    | nil =>
      rw [ht] at h
      cases h
    | cons c s =>
      rw [ht] at h
      obtain rfl : c = '[' := by
        by_contra hc
        have hnone : readSocketAddrV6 (c :: s ++ [':', '0']) = none := by
          simp [readSocketAddrV6, Reader.bind, Reader.char, hc]
        rw [Reader.whole, hnone] at h
        cases h
      obtain ⟨q, b, rfl, hread, rfl⟩ := readSocketAddrV6_append.mp h
      exact ⟨q, b, rfl, hread, rfl⟩
  · rintro ⟨q, b, ht, hread, rfl⟩
    rw [ht]
    refine ⟨?_, readSocketAddrV6_append.mpr ⟨q, b, rfl, hread, rfl⟩⟩
    have hv4 : readSocketAddrV4 ('[' :: (q ++ [']']) ++ [':', '0']) = none := by
      rw [List.cons_append, readSocketAddrV4, Reader.bind, readIpv4Addr_head (by decide)]
      rfl
    rw [Reader.whole, hv4]
    rfl

/-- What a text without a dot is taken for. -/
theorem parseSocketAddr_brackets {t : String} {a : SocketAddr} :
    parseSocketAddr ("[" ++ t ++ "]:0") = some a ↔
      ∃ b, readScoped.whole t.toList = some b ∧ a = ⟨.v6 b, 0⟩ := by
  have htext : "[" ++ t ++ "]:0" = ("[" ++ t ++ "]") ++ ":0" := by
    apply String.toList_inj.mp
    simp
  have hlist : ("[" ++ t ++ "]").toList = '[' :: (t.toList ++ [']']) := by simp
  rw [htext, parseSocketAddr_port, hlist]
  constructor
  · rintro (⟨b, h, -⟩ | ⟨q, b, h, hread, rfl⟩)
    · rw [Reader.whole, readIpv4Addr_head (by decide)] at h
      cases h
    · obtain rfl : t.toList = q := by simpa using h
      exact ⟨b, hread, rfl⟩
  · rintro ⟨b, hread, rfl⟩
    exact .inr ⟨t.toList, b, rfl, hread, rfl⟩

/-! ### What is honoured -/

/-- The text of an address, in any form, with or without a zone index. -/
def IsAddrText (t : String) : Prop :=
  (∃ ip, parseIpAddr t = some ip) ∨ ∃ b, readScoped.whole t.toList = some b

/-- An address is taken, in both servers, and nothing else is. -/
structure Honoured (toStr : Bytes → Option String) (v : Bytes) : Prop where
  /-- The text of an address makes it the connection's. -/
  address : ∀ ip : IpAddr, toStr v = some ip.toText → ∀ h : Headers, h.value = some v →
    ∀ addr, handleListenerAddr toStr true h addr = ⟨ip, 0⟩ ∧
      makePairAddr toStr true h addr = ⟨ip, 0⟩
  /-- With anything else the connection keeps its own. -/
  other : (∀ t, toStr v = some t → ¬IsAddrText t) → ∀ h : Headers, h.value = some v →
    ∀ addr, handleListenerAddr toStr true h addr = addr ∧ makePairAddr toStr true h addr = addr

/-- A text that the dot misleads about: that of an IPv4-mapped address, or one in brackets with
a dotted IPv6 address in it. -/
def Misread (t : String) : Prop :=
  (∃ b, (IpAddr.toIpv4Mapped b).isSome ∧ t = (IpAddr.v6 b).toText) ∨
    ∃ q b, t.toList = '[' :: (q ++ [']']) ∧ '.' ∈ q ∧ readScoped.whole q = some b

section Honoured

variable {toStr : Bytes → Option String}

section

variable {h : Headers} {v : Bytes} {t : String} (hv : h.value = some v)
  (ht : toStr v = some t) (addr : SocketAddr)
include hv ht

theorem makePairAddr_of_dot (hdot : '.' ∈ t.toList) :
    makePairAddr toStr true h addr = (parseSocketAddr (t ++ ":0")).getD addr := by
  simp [makePairAddr, headerAddr, realIp, hv, ht, Text.contains, hdot]

theorem makePairAddr_of_no_dot (hdot : '.' ∉ t.toList) :
    makePairAddr toStr true h addr = (parseSocketAddr ("[" ++ t ++ "]:0")).getD addr := by
  simp [makePairAddr, headerAddr, realIp, hv, ht, Text.contains, hdot]

end

theorem readScoped_textV6 (b : BitVec 128) :
    readScoped.whole (IpAddr.textV6 b).toList = some b := by
  rw [Reader.whole_eq_some, readScoped, Reader.bind, readIpv6Addr_toText]
  rfl

theorem readIpv4Addr_whole (b : BitVec 32) :
    readIpv4Addr.whole (IpAddr.textV4 b).toList = some b := by
  rw [Reader.whole_eq_some]
  have hread := @readIpv4Addr_textV4 b [] (by simp)
  rwa [List.append_nil] at hread

theorem dot_mem_textV4 (b : BitVec 32) : '.' ∈ (IpAddr.textV4 b).toList := by
  rw [toList_textV4]
  simp

/-- A text that is not misread makes its address the connection's. -/
theorem makePairAddr_toText {h : Headers} {v : Bytes} {ip : IpAddr} (hv : h.value = some v)
    (ht : toStr v = some ip.toText) (hmis : ¬Misread ip.toText) (addr : SocketAddr) :
    makePairAddr toStr true h addr = ⟨ip, 0⟩ := by
  cases ip with
  | v4 b =>
    have hparse : parseSocketAddr ((IpAddr.v4 b).toText ++ ":0") = some ⟨.v4 b, 0⟩ :=
      parseSocketAddr_port.mpr (.inl ⟨b, readIpv4Addr_whole b, rfl⟩)
    rw [makePairAddr_of_dot hv ht addr (dot_mem_textV4 b), hparse, Option.getD_some]
  | v6 b =>
    have hmapped : IpAddr.toIpv4Mapped b = none := by
      rw [← Option.not_isSome_iff_eq_none]
      exact fun hm => hmis (.inl ⟨b, hm, rfl⟩)
    have hparse : parseSocketAddr ("[" ++ (IpAddr.v6 b).toText ++ "]:0") = some ⟨.v6 b, 0⟩ :=
      parseSocketAddr_brackets.mpr ⟨b, readScoped_textV6 b, rfl⟩
    rw [makePairAddr_of_no_dot hv ht addr (dot_notMem_textV6 hmapped), hparse,
      Option.getD_some]

/-- A text that is neither that of an address nor misread leaves the connection its own. -/
theorem makePairAddr_other {h : Headers} {v : Bytes} {t : String} (hv : h.value = some v)
    (ht : toStr v = some t) (haddr : ¬IsAddrText t) (hmis : ¬Misread t)
    (addr : SocketAddr) : makePairAddr toStr true h addr = addr := by
  by_cases hdot : '.' ∈ t.toList
  · rw [makePairAddr_of_dot hv ht addr hdot]
    cases hparse : parseSocketAddr (t ++ ":0") with
    | none => rfl
    | some a =>
      rcases parseSocketAddr_port.mp hparse with ⟨b, hread, -⟩ | ⟨q, b, hq, hread, -⟩
      · refine absurd (.inl ⟨.v4 b, ?_⟩) haddr
        rw [Reader.whole_eq_some] at hread
        simp [parseIpAddr, Reader.whole, readIpAddr, Reader.orElse, Reader.map, hread]
      · refine absurd (.inr ⟨q, b, hq, ?_, hread⟩) hmis
        rw [hq] at hdot
        simpa using hdot
  · rw [makePairAddr_of_no_dot hv ht addr hdot]
    cases hparse : parseSocketAddr ("[" ++ t ++ "]:0") with
    | none => rfl
    | some a =>
      obtain ⟨b, hread, -⟩ := parseSocketAddr_brackets.mp hparse
      exact absurd (.inr ⟨b, hread⟩) haddr

/-- A text in brackets is not that of an address. -/
theorem not_isAddrText_brackets {t : String} {s : List Char} (ht : t.toList = '[' :: s) :
    ¬IsAddrText t := by
  have hv4 : readIpv4Addr ('[' :: s) = none := readIpv4Addr_head (by decide)
  have hv6 : readIpv6Addr ('[' :: s) = none := by
    have hgroup : readGroup ('[' :: s) = none := by
      apply Reader.number_eq_none
      intro c hc
      obtain rfl : '[' = c := by simpa using hc
      decide
    rw [readIpv6Addr, Reader.bind, @readGroups_stop 7 none _ hv4 hgroup]
    simp [Reader.bind, Reader.char]
  rintro (⟨ip, h⟩ | ⟨b, h⟩)
  · simp [parseIpAddr, Reader.whole, readIpAddr, Reader.orElse, Reader.map, ht, hv4, hv6] at h
  · simp [Reader.whole, readScoped, Reader.bind, ht, hv6] at h

/-- The text of a mapped address is not parsed: the connection keeps its own. -/
theorem makePairAddr_mapped {h : Headers} {v : Bytes} {b : BitVec 128} {a : BitVec 32}
    (hmapped : IpAddr.toIpv4Mapped b = some a) (hv : h.value = some v)
    (ht : toStr v = some (IpAddr.v6 b).toText) (addr : SocketAddr) :
    makePairAddr toStr true h addr = addr := by
  have htext : (IpAddr.v6 b).toText.toList =
      [':', ':', 'f', 'f', 'f', 'f', ':'] ++ (IpAddr.textV4 a).toList := by
    simp [IpAddr.toText, IpAddr.textV6, hmapped]
  have hdot : '.' ∈ (IpAddr.v6 b).toText.toList := by
    rw [htext]
    exact List.mem_append_right _ (dot_mem_textV4 a)
  have hnone : parseSocketAddr ((IpAddr.v6 b).toText ++ ":0") = none := by
    cases hparse : parseSocketAddr ((IpAddr.v6 b).toText ++ ":0") with
    | none => rfl
    | some x =>
      rcases parseSocketAddr_port.mp hparse with ⟨b', hread, -⟩ | ⟨q, b', hq, -, -⟩
      · rw [htext, Reader.whole_eq_some, List.cons_append, readIpv4Addr_head (by decide)] at hread
        cases hread
      · rw [htext] at hq
        simp at hq
  rw [makePairAddr_of_dot hv ht addr hdot, hnone, Option.getD_none]

/-- A dotted address in brackets is taken, though it is not the text of an address. -/
theorem makePairAddr_brackets {h : Headers} {v : Bytes} {t : String} {q : List Char}
    {b : BitVec 128} (hv : h.value = some v) (ht : toStr v = some t)
    (hq : t.toList = '[' :: (q ++ [']'])) (hdot : '.' ∈ q) (hread : readScoped.whole q = some b)
    (addr : SocketAddr) : makePairAddr toStr true h addr = ⟨.v6 b, 0⟩ := by
  have hdot' : '.' ∈ t.toList := by
    rw [hq]
    simp [hdot]
  rw [makePairAddr_of_dot hv ht addr hdot',
    parseSocketAddr_port.mpr (.inr ⟨q, b, hq, hread, rfl⟩), Option.getD_some]

end Honoured

/-- **Which header values are honoured**: just those that the dot does not mislead about. -/
theorem real_ip_honoured_iff (toStr : Bytes → Option String) (v : Bytes) :
    Honoured toStr v ↔ ∀ t, toStr v = some t → ¬Misread t := by
  constructor
  · intro hon t ht hmis
    -- a connection with a port of its own, which an address from a header never has
    have hport : ∀ ip, (⟨.v4 0, 1⟩ : SocketAddr) ≠ ⟨ip, 0⟩ := by
      intro ip heq
      have hone : (1 : UInt16) = 0 := congrArg SocketAddr.port heq
      exact absurd hone (by decide)
    rcases hmis with ⟨b, hmapped, rfl⟩ | ⟨q, b, hq, hdot, hread⟩
    · obtain ⟨a, ha⟩ := Option.isSome_iff_exists.mp hmapped
      have h := (hon.address _ ht ⟨some v, none⟩ rfl ⟨.v4 0, 1⟩).2
      rw [makePairAddr_mapped ha rfl ht] at h
      exact hport _ h
    · have haddr : ∀ t', toStr v = some t' → ¬IsAddrText t' := by
        intro t' ht'
        obtain rfl : t = t' := Option.some.inj (ht.symm.trans ht')
        exact not_isAddrText_brackets hq
      have h := (hon.other haddr ⟨some v, none⟩ rfl ⟨.v4 0, 1⟩).2
      rw [makePairAddr_brackets rfl ht hq hdot hread] at h
      exact hport _ h.symm
  · intro hmis
    constructor
    · intro ip ht h hv addr
      have hpair := makePairAddr_toText hv ht (hmis _ ht) addr
      exact ⟨hpair, hpair⟩
    · intro haddr h hv addr
      cases ht : toStr v with
      | none =>
        have hreal : realIp toStr h = none := by simp [realIp, hv, ht]
        have hpair : makePairAddr toStr true h addr = addr := by
          simp [makePairAddr, headerAddr, hreal]
        exact ⟨hpair, hpair⟩
      | some t =>
        have hpair := makePairAddr_other hv ht (haddr t ht) (hmis t ht) addr
        exact ⟨hpair, hpair⟩

/-- `HeaderValue::to_str`, for concrete runs: visible ASCII, or tabs. -/
def visibleAscii (v : Bytes) : Option String :=
  if v.all fun b => (32 ≤ b && b < 127) || b == 9 then
    some (String.ofList (v.map fun b => Char.ofNat b.toNat))
  else none

/-- `::ffff:192.0.2.7`, as a proxy writes it into a header. -/
def mappedHeader : Bytes := "::ffff:192.0.2.7".toUTF8.toList

/-- **A mapped address in a header is ignored**: the connection keeps the proxy's address. -/
theorem mapped_header_ignored :
    visibleAscii mappedHeader = some (IpAddr.v6 0xffffc0000207).toText ∧
      handleListenerAddr visibleAscii true ⟨some mappedHeader, none⟩ ⟨.ofOctets 10 0 0 1, 40000⟩ =
        ⟨.ofOctets 10 0 0 1, 40000⟩ ∧
      makePairAddr visibleAscii true ⟨some mappedHeader, none⟩ ⟨.ofOctets 10 0 0 1, 40000⟩ =
        ⟨.ofOctets 10 0 0 1, 40000⟩ ∧
      ¬Honoured visibleAscii mappedHeader := by
  have htext : visibleAscii mappedHeader = some (IpAddr.v6 0xffffc0000207).toText := by
    decide +kernel
  have hkept : makePairAddr visibleAscii true ⟨some mappedHeader, none⟩
      ⟨.ofOctets 10 0 0 1, 40000⟩ = ⟨.ofOctets 10 0 0 1, 40000⟩ := by decide +kernel
  refine ⟨htext, hkept, hkept, ?_⟩
  intro hon
  have h := (hon.address _ htext ⟨some mappedHeader, none⟩ rfl ⟨.ofOctets 10 0 0 1, 40000⟩).2
  rw [hkept] at h
  exact absurd (congrArg SocketAddr.port h) (by decide)

end RustdeskServer
