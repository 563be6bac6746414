import Mathlib.Algebra.Group.Int.Defs
import Mathlib.Data.Int.Notation
import RustdeskServer.Text

/-!
# Settings that are numbers

Seconds are read as 64-bit numbers and kept in milliseconds, and the ports that a server
listens on are counted from the one it is given.  The sums and products are those of a
release build, which go round at the end of their type; reading a setting only checks that it
fits, and at most that it is not too small.

## Main definitions

* `mulU64`, `addU16`, `wrapI32`, `asU16` — machine arithmetic.
* `relayPinTtlMs`, `wsIdleTimeoutMs`, `downgradeStartCheck`, `downgradeStartCheckCmd` — the
  settings in milliseconds.
* `hbbsPorts`, `hbbrPorts` — the ports of the two servers.
* `NumberTexts` — the texts of all of them.

## Main results

* `numbers_exact_iff` — **which settings are used at their true value.**
-/

namespace RustdeskServer

/-! ### Machine arithmetic -/

/-- The largest `u64`, and the largest `usize` of a 64-bit machine. -/
def U64_MAX : ℕ := 2 ^ 64 - 1

/-- `*` on `u64` or `usize`. -/
def mulU64 (a b : ℕ) : ℕ := a * b % 2 ^ 64

/-- `+` on `u16`. -/
def addU16 (a b : ℕ) : ℕ := (a + b) % 2 ^ 16

/-- The `i32` that a sum is kept as. -/
def wrapI32 (z : ℤ) : ℤ := (z + 2 ^ 31) % 2 ^ 32 - 2 ^ 31

/-- `as u16` of an `i32`. -/
def asU16 (z : ℤ) : ℕ := (z % 2 ^ 16).toNat

/-! ### Seconds -/

/-- `RELAY_PIN_TTL_DEFAULT_SEC`. -/
def RELAY_PIN_TTL_DEFAULT_SEC : ℕ := 30

/-- `WS_IDLE_TIMEOUT_DEFAULT_SEC`. -/
def WS_IDLE_TIMEOUT_DEFAULT_SEC : ℕ := 90

/-- The seconds `RelaySelector::configure` reads from `RELAY_PIN_TTL`. -/
def relayPinTtl (text : String) : ℕ :=
  (Text.parseUnsigned U64_MAX text).getD RELAY_PIN_TTL_DEFAULT_SEC

/-- What it stores in `RELAY_PIN_TTL_MS`. -/
def relayPinTtlMs (text : String) : ℕ := mulU64 (relayPinTtl text) 1000

/-- The seconds `start_with_bind` of `hbbs` reads from `WS_IDLE_TIMEOUT`. -/
def wsIdleTimeout (text : String) : ℕ :=
  ((Text.parseUnsigned U64_MAX text).filter fun v => v > 0).getD WS_IDLE_TIMEOUT_DEFAULT_SEC

/-- What it stores in `WS_IDLE_TIMEOUT_MS`. -/
def wsIdleTimeoutMs (text : String) : ℕ := mulU64 (wsIdleTimeout text) 1000

/-- What `check_params` leaves in `DOWNGRADE_START_CHECK`, which held `old`. -/
def downgradeStartCheck (text : String) (old : ℕ) : ℕ :=
  let tmp := (Text.parseUnsigned U64_MAX text).getD 0
  if tmp > 0 then mulU64 tmp 1000 else old

/-- What the console command `downgrade-start-check` leaves there. -/
def downgradeStartCheckCmd (word : String) (old : ℕ) : ℕ :=
  match Text.parseUnsigned U64_MAX word with
  | some v => if v > 0 then mulU64 v 1000 else old
  | none => old

/-! ### Ports -/

/-- The ports that `hbbs` listens on. -/
structure HbbsPorts where
  /-- The UDP socket and the main listener. -/
  main : ℕ
  /-- The NAT test. -/
  nat : ℕ
  /-- Websockets. -/
  ws : ℕ
  deriving DecidableEq

/-- The port that `main` of `hbbs` accepts. -/
def hbbsPort (text : String) : Option ℤ :=
  (Text.parseSigned 32 text).filter fun port => ¬port < 3

/-- The ports `start_with_bind` of `hbbs` listens on. -/
def hbbsPorts (port : ℤ) : HbbsPorts where
  main := asU16 port
  nat := asU16 (wrapI32 (port - 1))
  ws := asU16 (wrapI32 (port + 2))

/-- The port that `start_with_bind` of `hbbr` accepts. -/
def hbbrPort (text : String) : Option ℕ := Text.parseUnsigned 65535 text

/-- The ports it listens on: the relay's, and the one for websockets. -/
def hbbrPorts (port : ℕ) : ℕ × ℕ := (port, addU16 port 2)

/-! ### What is read fits its type -/

theorem digits_le {max n m : ℕ} {l : List Char} (h : Text.digits max l n = some m)
    (hn : n ≤ max) : m ≤ max := by
  induction l generalizing n with
  | nil =>
    rw [Text.digits, Option.some.injEq] at h
    omega
  | cons c l ih =>
    rw [Text.digits, Option.bind_eq_bind, Option.bind_eq_some_iff] at h
    obtain ⟨d, -, h⟩ := h
    split at h
    · next hle => exact ih h hle
    · cases h

theorem parseUnsigned_le {max v : ℕ} {s : String} (h : Text.parseUnsigned max s = some v) :
    v ≤ max := by
  unfold Text.parseUnsigned at h
  split at h
  · cases h
  · exact digits_le h (Nat.zero_le max)
  · exact digits_le h (Nat.zero_le max)

/-- A port that is accepted is an `i32` from three on. -/
theorem hbbsPort_bounds {s : String} {z : ℤ} (h : hbbsPort s = some z) :
    3 ≤ z ∧ z ≤ 2147483647 := by
  rw [hbbsPort, Option.filter_eq_some_iff] at h
  obtain ⟨hparse, hmin⟩ := h
  have hge : 3 ≤ z := by simpa using hmin
  refine ⟨hge, ?_⟩
  unfold Text.parseSigned at hparse
  split at hparse
  · simp only [Option.bind_eq_bind, Option.pure_def, Option.map_eq_some_iff,
      Option.bind_eq_some_iff, Option.some.injEq] at hparse
    obtain ⟨_, ⟨n, -, rfl⟩, rfl⟩ := hparse
    omega
  · simp only [Option.bind_eq_bind, Option.pure_def, Option.map_eq_some_iff,
      Option.bind_eq_some_iff, Option.some.injEq] at hparse
    obtain ⟨_, ⟨n, hn, rfl⟩, rfl⟩ := hparse
    have hle : n ≤ 2147483647 := parseUnsigned_le hn
    omega

/-! ### When they are exact -/

/-- A product by a thousand is the true one up to a bound. -/
theorem mulU64_exact_iff (v : ℕ) : mulU64 v 1000 = v * 1000 ↔ v ≤ 18446744073709551 := by
  unfold mulU64
  omega

theorem hbbsPorts_exact_iff {z : ℤ} (hmin : 3 ≤ z) (hmax : z ≤ 2147483647) :
    ((hbbsPorts z).main = z ∧ (hbbsPorts z).nat = z - 1 ∧ (hbbsPorts z).ws = z + 2) ↔
      z ≤ 65533 := by
  unfold hbbsPorts asU16 wrapI32
  dsimp only
  omega

theorem hbbrPorts_exact_iff {n : ℕ} (hmax : n ≤ 65535) :
    ((hbbrPorts n).1 = n ∧ (hbbrPorts n).2 = n + 2) ↔ n ≤ 65533 := by
  unfold hbbrPorts addU16
  dsimp only
  omega

/-! ### All of them -/

/-- The texts of the settings, and the word of a console command. -/
structure NumberTexts where
  /-- `RELAY_PIN_TTL`. -/
  relayPinTtl : String
  /-- `WS_IDLE_TIMEOUT`. -/
  wsIdleTimeout : String
  /-- `DOWNGRADE_START_CHECK`. -/
  startCheck : String
  /-- The word after `downgrade-start-check`. -/
  startCheckCmd : String
  /-- The port of `hbbs`. -/
  hbbsPort : String
  /-- The port of `hbbr`. -/
  hbbrPort : String

namespace NumberTexts

/-- Both servers start with these ports. -/
structure Accepted (t : NumberTexts) (hbbs : ℤ) (hbbr : ℕ) : Prop where
  /-- `hbbs` accepts its port. -/
  hbbs : RustdeskServer.hbbsPort t.hbbsPort = some hbbs
  /-- `hbbr` accepts its port. -/
  hbbr : RustdeskServer.hbbrPort t.hbbrPort = some hbbr

/-- Every number that is accepted is used at its true value, whatever
`DOWNGRADE_START_CHECK` held before. -/
structure Exact (t : NumberTexts) (hbbs : ℤ) (hbbr : ℕ) : Prop where
  /-- The time a choice is held. -/
  relayPinTtl : relayPinTtlMs t.relayPinTtl = RustdeskServer.relayPinTtl t.relayPinTtl * 1000
  /-- The time a websocket may be silent. -/
  wsIdleTimeout :
    wsIdleTimeoutMs t.wsIdleTimeout = RustdeskServer.wsIdleTimeout t.wsIdleTimeout * 1000
  /-- The time before a downgrade, from the environment. -/
  startCheck : ∀ v, Text.parseUnsigned U64_MAX t.startCheck = some v → 0 < v →
    ∀ old, downgradeStartCheck t.startCheck old = v * 1000
  /-- And from the console. -/
  startCheckCmd : ∀ v, Text.parseUnsigned U64_MAX t.startCheckCmd = some v → 0 < v →
    ∀ old, downgradeStartCheckCmd t.startCheckCmd old = v * 1000
  /-- The ports of `hbbs`. -/
  hbbsPorts : (hbbsPorts hbbs).main = hbbs ∧ (hbbsPorts hbbs).nat = hbbs - 1 ∧
    (hbbsPorts hbbs).ws = hbbs + 2
  /-- The ports of `hbbr`. -/
  hbbrPorts : (hbbrPorts hbbr).1 = hbbr ∧ (hbbrPorts hbbr).2 = hbbr + 2

/-- A text that is no number above a bound. -/
def AtMost (bound : ℕ) (text : String) : Prop :=
  ∀ v ∈ Text.parseUnsigned U64_MAX text, v ≤ bound

/-- No number of seconds is above 18446744073709551, and no port is above 65533. -/
structure InRange (t : NumberTexts) (hbbs : ℤ) (hbbr : ℕ) : Prop where
  /-- `RELAY_PIN_TTL`. -/
  relayPinTtl : AtMost 18446744073709551 t.relayPinTtl
  /-- `WS_IDLE_TIMEOUT`. -/
  wsIdleTimeout : AtMost 18446744073709551 t.wsIdleTimeout
  /-- `DOWNGRADE_START_CHECK`. -/
  startCheck : AtMost 18446744073709551 t.startCheck
  /-- The console's. -/
  startCheckCmd : AtMost 18446744073709551 t.startCheckCmd
  /-- The port of `hbbs`. -/
  hbbs : hbbs ≤ 65533
  /-- The port of `hbbr`. -/
  hbbr : hbbr ≤ 65533

end NumberTexts

open NumberTexts

/-- The time a choice is held: the default is in range. -/
theorem relayPinTtl_exact_iff (text : String) :
    relayPinTtlMs text = relayPinTtl text * 1000 ↔ AtMost 18446744073709551 text := by
  rw [relayPinTtlMs, mulU64_exact_iff, relayPinTtl, AtMost]
  cases Text.parseUnsigned U64_MAX text with
  | none => simp [RELAY_PIN_TTL_DEFAULT_SEC]
  | some v => simp

/-- The time a websocket may be silent: zero is not accepted. -/
theorem wsIdleTimeout_exact_iff (text : String) :
    wsIdleTimeoutMs text = wsIdleTimeout text * 1000 ↔ AtMost 18446744073709551 text := by
  rw [wsIdleTimeoutMs, mulU64_exact_iff, wsIdleTimeout, AtMost]
  cases Text.parseUnsigned U64_MAX text with
  | none => simp [WS_IDLE_TIMEOUT_DEFAULT_SEC]
  | some v =>
    by_cases hv : v > 0
    · simp [Option.filter, hv]
    · have hzero : v = 0 := by omega
      simp [Option.filter, hzero, WS_IDLE_TIMEOUT_DEFAULT_SEC]

/-- Both ways to set the time before a downgrade keep the product of what they read. -/
theorem startCheck_exact_iff {f : String → ℕ → ℕ} {text : String}
    (hf : ∀ v, Text.parseUnsigned U64_MAX text = some v → 0 < v →
      ∀ old, f text old = mulU64 v 1000) :
    (∀ v, Text.parseUnsigned U64_MAX text = some v → 0 < v → ∀ old, f text old = v * 1000) ↔
      AtMost 18446744073709551 text := by
  constructor
  · intro h v hv
    by_cases hpos : 0 < v
    · rw [← mulU64_exact_iff, ← hf v hv hpos 0]
      exact h v hv hpos 0
    · omega
  · intro h v hv hpos old
    rw [hf v hv hpos old, mulU64_exact_iff]
    exact h v hv

theorem downgradeStartCheck_eq {text : String} {v : ℕ}
    (hv : Text.parseUnsigned U64_MAX text = some v) (hpos : 0 < v) (old : ℕ) :
    downgradeStartCheck text old = mulU64 v 1000 := by
  simp [downgradeStartCheck, hv, hpos]

theorem downgradeStartCheckCmd_eq {word : String} {v : ℕ}
    (hv : Text.parseUnsigned U64_MAX word = some v) (hpos : 0 < v) (old : ℕ) :
    downgradeStartCheckCmd word old = mulU64 v 1000 := by
  simp [downgradeStartCheckCmd, hv, hpos]

/-- **Which settings are used at their true value**: just those below the bounds, among all
that are accepted. -/
theorem numbers_exact_iff (t : NumberTexts) {hbbs : ℤ} {hbbr : ℕ} (h : t.Accepted hbbs hbbr) :
    t.Exact hbbs hbbr ↔ t.InRange hbbs hbbr := by
  obtain ⟨hmin, hmax⟩ := hbbsPort_bounds h.hbbs
  have hmax' : hbbr ≤ 65535 := parseUnsigned_le h.hbbr
  have hports := hbbsPorts_exact_iff hmin hmax
  have hports' := hbbrPorts_exact_iff hmax'
  have hcheck := @startCheck_exact_iff downgradeStartCheck t.startCheck
    fun v hv hpos old => downgradeStartCheck_eq hv hpos old
  have hcmd := @startCheck_exact_iff downgradeStartCheckCmd t.startCheckCmd
    fun v hv hpos old => downgradeStartCheckCmd_eq hv hpos old
  constructor
  · intro e
    exact ⟨(relayPinTtl_exact_iff _).mp e.relayPinTtl,
      (wsIdleTimeout_exact_iff _).mp e.wsIdleTimeout, hcheck.mp e.startCheck,
      hcmd.mp e.startCheckCmd, hports.mp e.hbbsPorts, hports'.mp e.hbbrPorts⟩
  · intro r
    exact ⟨(relayPinTtl_exact_iff _).mpr r.relayPinTtl,
      (wsIdleTimeout_exact_iff _).mpr r.wsIdleTimeout, hcheck.mpr r.startCheck,
      hcmd.mpr r.startCheckCmd, hports.mpr r.hbbs, hports'.mpr r.hbbr⟩

/-- The numbers of the documentation. -/
def usualNumbers : NumberTexts := ⟨"30", "90", "1800", "600", "21116", "21117"⟩

theorem numbers_exact_usual :
    usualNumbers.Accepted 21116 21117 ∧ usualNumbers.Exact 21116 21117 := by
  have haccepted : usualNumbers.Accepted 21116 21117 := ⟨by decide, by decide⟩
  refine ⟨haccepted, (numbers_exact_iff usualNumbers haccepted).mpr ?_⟩
  refine ⟨?_, ?_, ?_, ?_, by decide, by decide⟩
  · rintro v hv
    have hread : Text.parseUnsigned U64_MAX "30" = some 30 := by decide
    obtain rfl : 30 = v := Option.some.inj (hread.symm.trans hv)
    decide
  · rintro v hv
    have hread : Text.parseUnsigned U64_MAX "90" = some 90 := by decide
    obtain rfl : 90 = v := Option.some.inj (hread.symm.trans hv)
    decide
  · rintro v hv
    have hread : Text.parseUnsigned U64_MAX "1800" = some 1800 := by decide
    obtain rfl : 1800 = v := Option.some.inj (hread.symm.trans hv)
    decide
  · rintro v hv
    have hread : Text.parseUnsigned U64_MAX "600" = some 600 := by decide
    obtain rfl : 600 = v := Option.some.inj (hread.symm.trans hv)
    decide

/-- Numbers that are all accepted and all go round. -/
def hugeNumbers : NumberTexts :=
  ⟨"2305843009213693952", "2305843009213693952", "2305843009213693952", "2305843009213693952",
    "65536", "65535"⟩

/-- **Numbers that are accepted and not used at their true value**: each of the times becomes
zero, and the servers listen on other ports. -/
theorem huge_numbers_go_round :
    hugeNumbers.Accepted 65536 65535 ∧
      (relayPinTtlMs hugeNumbers.relayPinTtl = 0 ∧ wsIdleTimeoutMs hugeNumbers.wsIdleTimeout = 0 ∧
        downgradeStartCheck hugeNumbers.startCheck 1800000 = 0 ∧
        downgradeStartCheckCmd hugeNumbers.startCheckCmd 1800000 = 0 ∧
        hbbsPorts 65536 = ⟨0, 65535, 2⟩ ∧ hbbrPorts 65535 = (65535, 1)) ∧
      ¬hugeNumbers.Exact 65536 65535 := by
  refine ⟨⟨by decide, by decide⟩, by decide, ?_⟩
  intro h
  have hzero := h.hbbrPorts.2
  exact absurd hzero (by decide)

end RustdeskServer
