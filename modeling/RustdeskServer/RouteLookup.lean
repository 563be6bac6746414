import RustdeskServer.RouteFile

/-!
# The line for an address

`RouteTable::lookup` takes the first rule whose network contains the address, and the rules
are sorted by the length of their prefix.  So it takes the longest prefix, and since two
networks with prefixes of one length are the same or have no address in common, the line
it comes from is the only one.

## Main definitions

* `Longest` — a rule with the longest prefix of those for an address.
* `Matches` — a line of the file is for an address.

## Main results

* `find_longest_iff` — the rule found in a table is the one with the longest prefix.
* `longest_prefix_wins` — **the costs for an address are those of the line with the longest
  prefix, in whatever order the lines stand.**
-/

namespace RustdeskServer

/-! ### Networks of one length -/

/-- Two networks that contain one address and have prefixes of one length are the same. -/
theorem IpNetwork.network_eq_of_contains {n n' : IpNetwork} {ip : IpAddr}
    (h : n.contains ip = true) (h' : n'.contains ip = true) (hlen : n.prefixLen = n'.prefixLen) :
    n.network = n'.network := by
  cases ip with
  | v4 b =>
    cases n with
    | v6 _ _ => cases h
    | v4 n =>
      cases n' with
      | v6 _ _ => cases h'
      | v4 n' =>
        simp only [IpNetwork.contains, Ipv4Network.contains, beq_iff_eq] at h h'
        simp only [IpNetwork.prefixLen] at hlen
        rw [hlen] at h
        simp only [IpNetwork.network]
        rw [hlen, ← h, ← h']
  | v6 b =>
    cases n with
    | v4 _ => cases h
    | v6 addr len =>
      cases n' with
      | v4 _ => cases h'
      | v6 addr' len' =>
        simp only [IpNetwork.contains, beq_iff_eq] at h h'
        simp only [IpNetwork.prefixLen] at hlen
        rw [hlen] at h
        simp only [IpNetwork.network]
        rw [hlen, ← h, ← h']

/-! ### The longest prefix -/

/-- The rule is for the address, and none with a longer prefix is. -/
def Longest (rules : List Rule) (ip : IpAddr) (r : Rule) : Prop :=
  r ∈ rules ∧ r.net.contains ip = true ∧
    ∀ r' ∈ rules, r'.net.contains ip = true → r'.net.prefixLen ≤ r.net.prefixLen

section Longest

variable {rules rules' : List Rule} {ip : IpAddr} {r r' : Rule}

theorem Longest.perm (h : Longest rules ip r) (hp : rules.Perm rules') : Longest rules' ip r :=
  ⟨hp.mem_iff.mp h.1, h.2.1, fun r' hr' => h.2.2 r' (hp.mem_iff.mpr hr')⟩

instance : Std.Symm fun r r' : Rule => ¬SameNet r r' := ⟨fun _ _ hne hsame => hne hsame.symm⟩

theorem Apart.perm (h : Apart rules) (hp : rules.Perm rules') : Apart rules' :=
  (hp.pairwise_iff fun hne hsame => hne (SameNet.symm hsame)).mp h

/-- Rules that are apart have one with the longest prefix at most. -/
theorem Longest.unique (hapart : Apart rules) (h : Longest rules ip r)
    (h' : Longest rules ip r') : r = r' := by
  by_contra hne
  have hlen : r.net.prefixLen = r'.net.prefixLen :=
    Nat.le_antisymm (h'.2.2 r h.1 h.2.1) (h.2.2 r' h'.1 h'.2.1)
  have hdiffer := hapart.forall h.1 h'.1 hne
  exact hdiffer ⟨IpNetwork.network_eq_of_contains h.2.1 h'.2.1 hlen, hlen⟩

/-- The first rule for an address has the longest prefix, where the longest stand first. -/
theorem find_longest (hsorted : rules.Pairwise longerFirst)
    (h : rules.find? (fun r => r.net.contains ip) = some r) : Longest rules ip r := by
  obtain ⟨hc, before, behind, rfl, hbefore⟩ := List.find?_eq_some_iff_append.mp h
  refine ⟨by simp, hc, ?_⟩
  intro r' hr' hc'
  rcases List.mem_append.mp hr' with hr' | hr'
  · have := hbefore r' hr'
    rw [hc'] at this
    cases this
  · rcases List.mem_cons.mp hr' with rfl | hr'
    · exact Nat.le_refl _
    · have hrest := (List.pairwise_append.mp hsorted).2.1
      exact (List.pairwise_cons.mp hrest).1 r' hr'

/-- **The rule that is found is the one with the longest prefix.** -/
theorem find_longest_iff (hapart : Apart rules)
    (hsorted : rules.Pairwise longerFirst) :
    rules.find? (fun r => r.net.contains ip) = some r ↔ Longest rules ip r := by
  refine ⟨find_longest hsorted, fun h => ?_⟩
  cases hf : rules.find? (fun r => r.net.contains ip) with
  | none => exact absurd h.2.1 (List.find?_eq_none.mp hf r h.1)
  | some r' => rw [(find_longest hsorted hf).unique hapart h]

end Longest

/-! ### The file -/

section File

variable {U : Unicode} {parseNetwork : String → Option IpNetwork}

theorem longerFirst_sorted (rules : List Rule) :
    (rules.insertionSort longerFirst).Pairwise longerFirst := by
  have : Std.Total longerFirst := ⟨fun r r' => Nat.le_total r'.net.prefixLen r.net.prefixLen⟩
  have : IsTrans _ longerFirst := ⟨fun _ _ _ h h' => Nat.le_trans h' h⟩
  exact List.pairwise_insertionSort longerFirst rules

/-- The rule a table has for an address is the one in the file with the longest prefix. -/
theorem lookup_iff {text : List Char} {t : RouteTable}
    (h : RouteTable.parse U parseNetwork text = .ok t) {ip : IpAddr} {r : Rule} :
    t.rules.find? (fun r => r.net.contains ip) = some r ↔
      Longest (fileRules U parseNetwork (Plain.lines text)) ip r := by
  obtain ⟨-, hapart, -, rfl⟩ := parse_ok_iff.mp h
  have hperm := List.perm_insertionSort longerFirst (fileRules U parseNetwork (Plain.lines text))
  rw [find_longest_iff (hapart.perm hperm.symm) (longerFirst_sorted _)]
  exact ⟨fun hr => hr.perm hperm, fun hr => hr.perm hperm.symm⟩

variable (U parseNetwork) in
/-- The line `i` of the text has the rule, and its network contains the address. -/
def Matches (text : List Char) (ip : IpAddr) (i : ℕ) (r : Rule) : Prop :=
  ∃ raw, (Plain.lines text)[i]? = some raw ∧ lineRule U parseNetwork raw = some (some r) ∧
    r.net.contains ip.toCanonical = true

theorem mem_fileRules {raws : List (List Char)} {r : Rule} :
    r ∈ fileRules U parseNetwork raws ↔
      ∃ (i : ℕ) (raw : List Char), raws[i]? = some raw ∧
        lineRule U parseNetwork raw = some (some r) := by
  rw [fileRules, List.mem_filterMap]
  constructor
  · rintro ⟨raw, hraw, hr⟩
    obtain ⟨i, hi⟩ := List.mem_iff_getElem?.mp hraw
    exact ⟨i, raw, hi, Option.join_eq_some_iff.mp hr⟩
  · rintro ⟨i, raw, hi, hr⟩
    exact ⟨raw, List.mem_of_getElem? hi, Option.join_eq_some_iff.mpr hr⟩

/-- Lines whose rules are for one network are one line. -/
theorem line_unique {raws : List (List Char)} (hapart : Apart (fileRules U parseNetwork raws))
    {i j : ℕ} {raw raw' : List Char} {r r' : Rule} (hi : raws[i]? = some raw)
    (hr : lineRule U parseNetwork raw = some (some r)) (hj : raws[j]? = some raw')
    (hr' : lineRule U parseNetwork raw' = some (some r')) (hsame : SameNet r r') : i = j := by
  rw [Apart, fileRules, List.pairwise_filterMap, List.pairwise_iff_getElem] at hapart
  obtain ⟨hilt, hi⟩ := List.getElem?_eq_some_iff.mp hi
  obtain ⟨hjlt, hj⟩ := List.getElem?_eq_some_iff.mp hj
  rcases Nat.lt_trichotomy i j with hlt | heq | hlt
  · refine absurd hsame (hapart i j hilt hjlt hlt r ?_ r' ?_)
    · rw [hi, hr]
      rfl
    · rw [hj, hr']
      rfl
  · exact heq
  · refine absurd hsame.symm (hapart j i hjlt hilt hlt r' ?_ r ?_)
    · rw [hj, hr']
      rfl
    · rw [hi, hr]
      rfl

/-- **The longest prefix wins.**  In a table read from a text, the costs for an address are
those of the line with the longest prefix, which is the only one of its length for the
address, and there are none if no line is for it.  With the lines in another order the text
is read too, and the costs are the same. -/
theorem longest_prefix_wins (U : Unicode) (parseNetwork : String → Option IpNetwork)
    {text : List Char} {t : RouteTable} (h : RouteTable.parse U parseNetwork text = .ok t) :
    (∀ ip, ((∀ i r, ¬Matches U parseNetwork text ip i r) ∧ t.costsFor ip = none) ∨
      ∃ i r, Matches U parseNetwork text ip i r ∧
        (∀ j r', Matches U parseNetwork text ip j r' → j ≠ i →
          r'.net.prefixLen < r.net.prefixLen) ∧
        t.costsFor ip = some fun relay => r.costs.lookup relay) ∧
    ∀ text', (Plain.lines text').Perm (Plain.lines text) →
      ∃ t', RouteTable.parse U parseNetwork text' = .ok t' ∧
        ∀ ip, t'.costsFor ip = t.costsFor ip := by
  obtain ⟨haccepted, hapart, hsome, -⟩ := parse_ok_iff.mp h
  refine ⟨fun ip => ?_, fun text' hperm => ?_⟩
  · rw [RouteTable.costsFor]
    cases hf : t.rules.find? (fun r => r.net.contains ip.toCanonical) with
    | none =>
      refine .inl ⟨?_, rfl⟩
      rintro i r ⟨raw, hi, hr, hc⟩
      obtain ⟨-, -, -, rfl⟩ := parse_ok_iff.mp h
      have hmem := mem_fileRules.mpr ⟨i, raw, hi, hr⟩
      exact absurd hc (List.find?_eq_none.mp hf r ((List.mem_insertionSort longerFirst).mpr hmem))
    | some r =>
      obtain ⟨hmem, hc, hlongest⟩ := (lookup_iff h).mp hf
      obtain ⟨i, raw, hi, hr⟩ := mem_fileRules.mp hmem
      refine .inr ⟨i, r, ⟨raw, hi, hr, hc⟩, ?_, rfl⟩
      rintro j r' ⟨raw', hj, hr', hc'⟩ hne
      have hle := hlongest r' (mem_fileRules.mpr ⟨j, raw', hj, hr'⟩) hc'
      refine Nat.lt_of_le_of_ne hle fun hlen => hne ?_
      -- prefixes of one length that contain the address are of one network
      have hsame : SameNet r' r := ⟨IpNetwork.network_eq_of_contains hc' hc hlen, hlen⟩
      exact line_unique hapart hj hr' hi hr hsame
  · have hrules : (fileRules U parseNetwork (Plain.lines text')).Perm
        (fileRules U parseNetwork (Plain.lines text)) := hperm.filterMap _
    have h' : RouteTable.parse U parseNetwork text' =
        .ok ⟨(fileRules U parseNetwork (Plain.lines text')).insertionSort longerFirst⟩ := by
      refine parse_ok_iff.mpr ⟨?_, hapart.perm hrules.symm, ?_, rfl⟩
      · exact fun raw hraw => haccepted raw (hperm.mem_iff.mp hraw)
      · exact fun hnil => hsome (by rw [hnil] at hrules; exact hrules.symm.eq_nil)
    refine ⟨_, h', fun ip => ?_⟩
    have hlongest : ∀ r, Longest (fileRules U parseNetwork (Plain.lines text')) ip.toCanonical r ↔
        Longest (fileRules U parseNetwork (Plain.lines text)) ip.toCanonical r :=
      fun r => ⟨fun hr => hr.perm hrules, fun hr => hr.perm hrules.symm⟩
    have hfind : ∀ r, _ = some r ↔ _ = some r :=
      fun r => ((lookup_iff h').trans (hlongest r)).trans (lookup_iff h).symm
    rw [RouteTable.costsFor, RouteTable.costsFor, Option.ext hfind]

end File

/-- An IPv4 network with the length of its prefix, as concrete files have it. -/
def plainNetwork (s : String) : Option IpNetwork := do
  let (addr, len) ← Text.splitOnce '/' s
  let len ← Text.parseUnsigned 32 len
  let octets ← (Text.split '.' addr).mapM (Text.parseUnsigned 255)
  if octets.length = 4 then
    some (.v4 ⟨BitVec.ofNat 32 (octets.foldl (fun n d => n * 256 + d) 0), len⟩)
  else none

/-- A line for a network, and one for a part of it. -/
def nested : List Char :=
  "203.0.113.0/24 a:1=40\n# near\n203.0.113.128/25 a:1=5,b:1=7\n".toList

theorem longest_prefix_wins_nested :
    ∃ t, RouteTable.parse .ascii plainNetwork nested = .ok t ∧
      ∀ text', (Plain.lines text').Perm (Plain.lines nested) →
        ∃ t', RouteTable.parse .ascii plainNetwork text' = .ok t' ∧
          ∀ ip, t'.costsFor ip = t.costsFor ip := by
  have hok : (RouteTable.parse .ascii plainNetwork nested).isOk = true := by decide +kernel
  cases hp : RouteTable.parse .ascii plainNetwork nested with
  | error e =>
    rw [hp] at hok
    cases hok
  | ok t => exact ⟨t, rfl, (longest_prefix_wins .ascii plainNetwork hp).2⟩

example : ((RouteTable.parse .ascii plainNetwork nested).toOption.bind fun t =>
    t.costsFor (.ofOctets 203 0 113 200)).bind (· "a:1") = some 5 := by decide +kernel

end RustdeskServer
