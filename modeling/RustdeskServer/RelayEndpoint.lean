import RustdeskServer.HealthProbes
import RustdeskServer.RelayKept

/-!
# One name for each endpoint

A relay is known by its name in the routing table, the locations, the operator's choice and
the check for entries listed twice; and it is dialled by the health check.  All of them fill
in the default port where none is written, and all of them tell that by looking for a colon.
So the port is missing where an IPv6 address in brackets stands alone; and since names are
texts, a port that is written with other digits, `080` for `80`, makes another name.

## Main definitions

* `RelayEntry.endpoint` — the host in lower case and the number of the port.
* `dialled` — the endpoint that an address as text means.
* `RelayEntry.Bare` — an IPv6 address that stands alone.
* `RelayEntry.portText` — the port as it is written, or the default.

## Main results

* `normalize_text`, `dialled_text` — the name of an entry, and what is dialled for it.
* `one_name_per_endpoint_iff` — **two entries have one name exactly if they mean one endpoint,
  and that endpoint is dialled, exactly if no address stands alone and their ports are
  written alike.**
* `name_of_endpoint_differs` — entries for which it fails.
-/

namespace RustdeskServer

/-- `to_lowercase` of a text that ends with a colon and digits is that of what stands before
them, with the colon and the digits: a capital sigma is the last letter of a word or not
whether they follow it or not. -/
def Unicode.KeepsPort (U : Unicode) : Prop :=
  ∀ (h p : List Char), (∀ c ∈ p, c.isDigit = true) →
    (U.toLowercase (String.ofList (h ++ ':' :: p))).toList =
      (U.toLowercase (String.ofList h)).toList ++ ':' :: p

/-- The endpoint that an address as text means: a host and a port behind the last colon. -/
def dialled (U : Unicode) (addr : String) : Option (String × ℕ) := do
  let (host, port) ← Plain.rsplitOnce ':' addr.toList
  let n ← Text.parseUnsigned 65535 (String.ofList port)
  some (U.toLowercase (String.ofList host), n)

namespace RelayEntry

/-- The entry as it is written. -/
def text (x : RelayEntry) : String := String.ofList x.chars

/-- The port as it is written, or the default. -/
def portText (x : RelayEntry) : List Char := x.port.getD (toString RELAY_PORT).toList

/-- The endpoint: the host in lower case, and the number of the port. -/
def endpoint (U : Unicode) (x : RelayEntry) : String × ℕ :=
  (U.toLowercase (String.ofList x.host), (x.port.map portNumber).getD RELAY_PORT)

/-- An address with a colon in it that stands alone. -/
def Bare (x : RelayEntry) : Prop := x.port = none ∧ ':' ∈ x.host

variable {U : Unicode} (x : RelayEntry)

theorem isPort_portText : IsPort x.portText := by
  unfold portText
  cases hport : x.port with
  | none => exact isPort_default
  | some p => exact x.portOk p hport

theorem colon_notMem_portText : ':' ∉ x.portText :=
  fun hmem => (isDigit_hostChar (x.isPort_portText.digits _ hmem)).1 rfl

theorem endpoint_eq :
    x.endpoint U = (U.toLowercase (String.ofList x.host), portNumber x.portText) := by
  unfold endpoint portText
  cases x.port with
  | none => rfl
  | some p => rfl

/-- An entry that does not stand alone, with the default port filled in. -/
theorem chars_or_default (h : ¬x.Bare) :
    x.chars = x.host ++ ':' :: x.portText ∨
      ':' ∉ x.chars ∧ x.chars = x.host ∧ x.portText = (toString RELAY_PORT).toList := by
  unfold chars portText
  cases hport : x.port with
  | none =>
    have hcolon : ':' ∉ x.host := fun hmem => h ⟨hport, hmem⟩
    simp [hcolon]
  | some p => exact .inl rfl

theorem wellFormed_text : WellFormed x.text := ⟨x, (String.toList_ofList).symm⟩

/-- **The name of an entry**, unless it stands alone. -/
theorem normalize_text (hU : U.KeepsShape) (hP : U.KeepsPort) (h : ¬x.Bare) :
    (normalize U x.text).toList =
      (U.toLowercase (String.ofList x.host)).toList ++ ':' :: x.portText := by
  have htrim : Text.trim x.text = x.text :=
    trim_of_problem_none (U := U) (problem_wellFormed x.wellFormed_text)
  unfold normalize
  rw [htrim, text]
  rcases x.chars_or_default h with hchars | ⟨hcolon, hchars, hport⟩
  · have hlower := hP x.host x.portText x.isPort_portText.digits
    rw [hchars]
    rw [if_pos (by rw [Text.contains, hlower]; simp), hlower]
  · have hlower : ':' ∉ (U.toLowercase (String.ofList x.chars)).toList := by
      rw [← (hU (String.ofList x.chars)).mem_iff (by decide), String.toList_ofList]
      exact hcolon
    rw [if_neg (by simpa [Text.contains] using hlower), hport, ← hchars,
      String.append_assoc, String.toList_append, String.toList_append]
    rfl

/-- **What is dialled for an entry** is its endpoint, unless it stands alone. -/
theorem dialled_text (h : ¬x.Bare) : dialled U (probeHost x.text) = some (x.endpoint U) := by
  have hhost : (probeHost x.text).toList = x.host ++ ':' :: x.portText := by
    unfold probeHost text
    rcases x.chars_or_default h with hchars | ⟨hcolon, hchars, hport⟩
    · rw [hchars, if_pos (by simp [Text.contains]), String.toList_ofList]
    · rw [if_neg (by simpa [Text.contains] using hcolon), String.append_assoc,
        String.toList_append, String.toList_append, String.toList_ofList, hport, hchars]
      rfl
  rw [dialled, hhost, Plain.rsplitOnce_append x.colon_notMem_portText]
  simp [x.isPort_portText.parse, endpoint_eq]

/-- An address that stands alone is not dialled: what follows its last colon is no port. -/
theorem dialled_bare (h : x.Bare) : dialled U (probeHost x.text) = none := by
  obtain ⟨hport, hcolon⟩ := h
  have hchars : x.chars = x.host := by
    rw [chars, hport, Option.elim_none, List.append_nil]
  have hhost : (probeHost x.text).toList = x.host := by
    unfold probeHost text
    rw [hchars, if_pos (by simpa [Text.contains] using hcolon), String.toList_ofList]
  have hlast : x.host.getLast? = some ']' := by
    have hok := x.hostOk
    generalize x.host = host at hok hcolon
    cases hok with
    | name _ hname => exact absurd rfl (hname _ hcolon).1
    | v6 _ _ => rw [← List.cons_append, List.getLast?_concat]
  rw [dialled, hhost]
  cases hsplit : Plain.rsplitOnce ':' x.host with
  | none => rfl
  | some r =>
    obtain ⟨a, b⟩ := r
    have hmem : ']' ∈ b := by
      rw [Plain.eq_of_rsplitOnce hsplit, List.getLast?_append_cons] at hlast
      exact (List.mem_cons.mp (List.mem_of_getLast? hlast)).resolve_left (by decide)
    cases hn : Text.parseUnsigned 65535 (String.ofList b) with
    | none => simp [hn]
    | some n => exact absurd (mem_of_parse hn _ hmem) (by decide)

end RelayEntry

/-- Two entries have one name exactly if they mean one endpoint, and what is dialled for each
is its endpoint. -/
def OneName (U : Unicode) (x y : RelayEntry) : Prop :=
  (normalize U x.text = normalize U y.text ↔ x.endpoint U = y.endpoint U) ∧
    dialled U (probeHost x.text) = some (x.endpoint U) ∧
    dialled U (probeHost y.text) = some (y.endpoint U)

/-- **One name for each endpoint.**  Two entries have one name exactly if they mean one
endpoint, and that endpoint is dialled, exactly if neither is an IPv6 address that stands
alone and, where they mean one endpoint, their ports are written with the same digits. -/
theorem one_name_per_endpoint_iff (U : Unicode) (hU : U.KeepsShape) (hP : U.KeepsPort)
    (x y : RelayEntry) :
    OneName U x y ↔
      ¬x.Bare ∧ ¬y.Bare ∧ (x.endpoint U = y.endpoint U → x.portText = y.portText) := by
  have hbare : ∀ z : RelayEntry, dialled U (probeHost z.text) = some (z.endpoint U) → ¬z.Bare := by
    intro z hz h
    rw [z.dialled_bare h] at hz
    cases hz
  have hname : ¬x.Bare → ¬y.Bare → (normalize U x.text = normalize U y.text ↔
      U.toLowercase (String.ofList x.host) = U.toLowercase (String.ofList y.host) ∧
        x.portText = y.portText) := by
    intro hx hy
    rw [← String.toList_inj, x.normalize_text hU hP hx, y.normalize_text hU hP hy]
    constructor
    · intro heq
      have hsplit := congrArg (Plain.rsplitOnce ':') heq
      rw [Plain.rsplitOnce_append x.colon_notMem_portText,
        Plain.rsplitOnce_append y.colon_notMem_portText, Option.some.injEq, Prod.mk.injEq] at hsplit
      exact ⟨String.toList_inj.mp hsplit.1, hsplit.2⟩
    · rintro ⟨hhost, hport⟩
      rw [hhost, hport]
  constructor
  · rintro ⟨hiff, hx, hy⟩
    have hx := hbare x hx
    have hy := hbare y hy
    exact ⟨hx, hy, fun hend => ((hname hx hy).mp (hiff.mpr hend)).2⟩
  · rintro ⟨hx, hy, hport⟩
    refine ⟨?_, x.dialled_text hx, y.dialled_text hy⟩
    rw [hname hx hy]
    constructor
    · rintro ⟨hhost, hport⟩
      rw [x.endpoint_eq, y.endpoint_eq, hhost, hport]
    · intro hend
      refine ⟨?_, hport hend⟩
      rw [x.endpoint_eq, y.endpoint_eq, Prod.mk.injEq] at hend
      exact hend.1

theorem Unicode.ascii_keepsPort : Unicode.ascii.KeepsPort := by
  intro h p hp
  have hdigit : ∀ c ∈ p, c.toLower = c := by
    intro c hc
    refine toLower_eq fun hupper => ?_
    have h57 : c.toNat ≤ 57 := (Char.isDigit_iff_toNat.mp (hp c hc)).2
    omega
  simp only [Unicode.ascii, String.toList_ofList, List.map_append, List.map_cons]
  rw [List.map_congr_left hdigit, List.map_id']
  rfl

/-- The host `a`, in capital letters or not. -/
def hostA (c : Char) (h : HostChar c) (port : Option (List Char)) (hport : ∀ p ∈ port, IsPort p) :
    RelayEntry :=
  ⟨[c], .name (by simp) (by simpa using h), port, hport⟩

/-- `A:21117`. -/
def capitalA : RelayEntry :=
  hostA 'A' (by simp [HostChar, BracketChar, Text.isWhitespace]) (some (toString RELAY_PORT).toList)
    (by rintro _ ⟨⟩; exact isPort_default)

/-- `a` with a port. -/
def smallA (port : Option (List Char)) (hport : ∀ p ∈ port, IsPort p) : RelayEntry :=
  hostA 'a' (by simp [HostChar, BracketChar, Text.isWhitespace]) port hport

/-- One relay, with the default port written and not. -/
theorem one_name_with_default : OneName .ascii capitalA (smallA none nofun) := by
  refine (one_name_per_endpoint_iff .ascii Unicode.ascii_keepsShape Unicode.ascii_keepsPort _ _).mpr
    ⟨?_, ?_, fun _ => rfl⟩
  · rintro ⟨h, -⟩
    cases h
  · rintro ⟨-, h⟩
    exact absurd h (by decide)

/-- `[::1]`. -/
def loopbackAlone : RelayEntry :=
  ⟨['[', ':', ':', '1', ']'], .v6 (v := [':', ':', '1']) (by simp)
    (by simp [BracketChar, Text.isWhitespace]), none, nofun⟩

/-- `a:80`. -/
def plainEighty : RelayEntry :=
  smallA (some ['8', '0']) (by rintro _ ⟨⟩; exact ⟨by simp, by simp, by decide, by decide⟩)

/-- `a:080`. -/
def paddedEighty : RelayEntry :=
  smallA (some ['0', '8', '0']) (by rintro _ ⟨⟩; exact ⟨by simp, by simp, by decide, by decide⟩)

/-- An address that stands alone is not dialled, and `a:080` is not `a:80`. -/
theorem name_of_endpoint_differs :
    ¬OneName .ascii loopbackAlone loopbackAlone ∧ ¬OneName .ascii plainEighty paddedEighty := by
  refine ⟨fun h => ?_, fun h => ?_⟩
  · exact absurd h.2.1 (by decide +kernel)
  · exact absurd (h.1.mpr (by decide +kernel)) (by decide +kernel)

end RustdeskServer
