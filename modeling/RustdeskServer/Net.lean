import Mathlib.Data.List.AList
import Mathlib.Data.BitVec

/-!
# Addresses, bytes, clocks and hash maps

The small types the server's data is made of.  An IP address is its 32 or 128
bits, and its text is what Rust's `Display` writes, since several decisions of
the server compare addresses as text.  A `HashMap` is a list of entries with
distinct keys, in some iteration order.

`HbbCommon` collects what the server calls from `hbb_common`, which is a separate
repository: the model takes it as a parameter.

## Main definitions

* `IpAddr`, `SocketAddr`, `IpAddr.toText` — addresses and their text.
* `Ipv4Network`, `IpNetwork` — networks.
* `Instant`, `elapsedSecs`, `elapsedMillis` — the monotonic clock, in milliseconds.
* `HbbCommon` — the functions taken from `hbb_common`.
-/

namespace RustdeskServer

/-- A byte string. -/
abbrev Bytes := List UInt8

/-- Rust's `HashMap`: entries with distinct keys, listed in iteration order. -/
abbrev HashMap (κ ν : Type) := AList fun _ : κ => ν

/-- The length of a string in bytes, Rust's `str::len`. -/
abbrev byteLen (s : String) : ℕ := s.utf8ByteSize

/-! ### The clock -/

/-- A reading of the monotonic clock, in milliseconds. -/
abbrev Instant := ℕ

/-- `t.elapsed().as_millis()` read at `now`. -/
def elapsedMillis (now t : Instant) : ℕ := now - t

/-- `t.elapsed().as_secs()` read at `now`. -/
def elapsedSecs (now t : Instant) : ℕ := (now - t) / 1000

/-- `get_expired_time`: an hour ago, or now if the clock does not reach back that far. -/
def getExpiredTime (now : Instant) : Instant := if 3600000 ≤ now then now - 3600000 else now

/-! ### Addresses -/

/-- An IP address: its bits, most significant first. -/
inductive IpAddr
  /-- An IPv4 address. -/
  | v4 (bits : BitVec 32)
  /-- An IPv6 address. -/
  | v6 (bits : BitVec 128)
  deriving DecidableEq, Repr

namespace IpAddr

/-- The four octets of an IPv4 address. -/
def octets (b : BitVec 32) : List ℕ := (List.range 4).map fun i => b.toNat / 256 ^ (3 - i) % 256

/-- The eight 16-bit segments of an IPv6 address. -/
def segments (b : BitVec 128) : List ℕ :=
  (List.range 8).map fun i => b.toNat / 65536 ^ (7 - i) % 65536

/-- The IPv4 address from its octets. -/
def ofOctets (a b c d : UInt8) : IpAddr :=
  .v4 (BitVec.ofNat 32 (((a.toNat * 256 + b.toNat) * 256 + c.toNat) * 256 + d.toNat))

/-- `Ipv6Addr::to_ipv4_mapped`: the IPv4 address inside `::ffff:a.b.c.d`. -/
def toIpv4Mapped (b : BitVec 128) : Option (BitVec 32) :=
  if b.toNat / 2 ^ 32 = 0xffff then some (BitVec.ofNat 32 b.toNat) else none

/-- `IpAddr::to_canonical`: an IPv4-mapped address is unwrapped. -/
def toCanonical : IpAddr → IpAddr
  | .v4 b => .v4 b
  | .v6 b => match toIpv4Mapped b with
    | some a => .v4 a
    | none => .v6 b

/-- `IpAddr::is_loopback`: `127.0.0.0/8`, or `::1`. -/
def isLoopback : IpAddr → Bool
  | .v4 b => b.toNat / 2 ^ 24 == 127
  | .v6 b => b.toNat == 1

/-- The text of an IPv4 address. -/
def textV4 (b : BitVec 32) : String := ".".intercalate ((octets b).map toString)

/-- A segment in lower-case hexadecimal, without leading zeros. -/
def hex (n : ℕ) : String := String.ofList (Nat.toDigits 16 n)

/-- The first longest run of zero segments, as its start and length: the loop of
`Display for Ipv6Addr`, with the position and the current run as its state. -/
def longestZeros : List ℕ → ℕ → ℕ × ℕ → ℕ × ℕ → ℕ × ℕ
  | [], _, _, longest => longest
  | x :: xs, i, current, longest =>
    if x = 0 then
      let current := (if current.2 = 0 then i else current.1, current.2 + 1)
      longestZeros xs (i + 1) current (if longest.2 < current.2 then current else longest)
    else longestZeros xs (i + 1) (0, 0) longest

/-- The text of an IPv6 address: a mapped address is written dotted, otherwise the
first longest run of two or more zero segments is written `::`. -/
def textV6 (b : BitVec 128) : String :=
  match toIpv4Mapped b with
  | some a => "::ffff:" ++ textV4 a
  | none =>
    let segs := segments b
    let z := longestZeros segs 0 (0, 0) (0, 0)
    if 1 < z.2 then
      ":".intercalate ((segs.take z.1).map hex) ++ "::" ++
        ":".intercalate ((segs.drop (z.1 + z.2)).map hex)
    else ":".intercalate (segs.map hex)

/-- `IpAddr::to_string`. -/
def toText : IpAddr → String
  | .v4 b => textV4 b
  | .v6 b => textV6 b

end IpAddr

example : (IpAddr.ofOctets 192 0 2 7).toText = "192.0.2.7" := by decide
example : (IpAddr.v6 1).toText = "::1" := by decide

/-- A socket address. -/
structure SocketAddr where
  /-- The address. -/
  ip : IpAddr
  /-- The port. -/
  port : UInt16
  deriving DecidableEq, Repr

/-- `0.0.0.0:0`, the address of a peer that has not registered. -/
def SocketAddr.unspecified : SocketAddr := ⟨.v4 0, 0⟩

/-- `Ipv4Network`. -/
structure Ipv4Network where
  /-- An address in it. -/
  addr : BitVec 32
  /-- The length of its mask. -/
  maskLen : ℕ
  deriving DecidableEq

/-- `Ipv4Network::contains`. -/
def Ipv4Network.contains (n : Ipv4Network) (ip : BitVec 32) : Bool :=
  ip.toNat / 2 ^ (32 - n.maskLen) == n.addr.toNat / 2 ^ (32 - n.maskLen)

/-- `IpNetwork`. -/
inductive IpNetwork
  /-- An IPv4 network. -/
  | v4 (n : Ipv4Network)
  /-- An IPv6 network: an address in it, and the length of its mask. -/
  | v6 (addr : BitVec 128) (maskLen : ℕ)
  deriving DecidableEq

/-- `IpNetwork::contains`: never an address of the other family. -/
def IpNetwork.contains : IpNetwork → IpAddr → Bool
  | .v4 n, .v4 b => n.contains b
  | .v6 addr maskLen, .v6 b => b.toNat / 2 ^ (128 - maskLen) == addr.toNat / 2 ^ (128 - maskLen)
  | _, _ => false

/-- `IpAddr`'s order: IPv4 first, then by value. -/
def IpAddr.le : IpAddr → IpAddr → Bool
  | .v4 a, .v4 b => decide (a.toNat ≤ b.toNat)
  | .v4 _, .v6 _ => true
  | .v6 _, .v4 _ => false
  | .v6 a, .v6 b => decide (a.toNat ≤ b.toNat)

/-- `HashMap::retain`. -/
def HashMap.retain {κ ν : Type} (p : κ → ν → Bool) (m : HashMap κ ν) : HashMap κ ν :=
  ⟨m.entries.filter fun x => p x.1 x.2, m.nodupKeys.sublist List.filter_sublist⟩

/-! ### What is taken from `hbb_common` -/

/-- The functions of `hbb_common` the server calls. -/
structure HbbCommon where
  /-- `try_into_v4`: an IPv4 address that arrived wrapped in IPv6 is unwrapped. -/
  tryIntoV4 : SocketAddr → SocketAddr
  /-- `AddrMangle::encode`, which mixes the clock into what it writes. -/
  encode : Instant → SocketAddr → Bytes
  /-- `AddrMangle::decode`. -/
  decode : Bytes → SocketAddr

end RustdeskServer
