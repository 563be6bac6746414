import Mathlib.Data.List.Sort
import RustdeskServer.Plain.Binary64
import RustdeskServer.Plain.Split
import RustdeskServer.RelaySelect

/-!
# Reading a routing table

`RouteTable::parse`: a line for each client network with what every relay costs from there.
One line that is not as it should be refuses the whole file.

The text of a network is read by the `ipnetwork` crate, which is a parameter.  A cost is an
`f64`: the one nearest to the number that stands there.

What a line says does not depend on the lines before it, but for one thing: its network
must not be the network of one of them.  So the order of the lines is of no account.

## Main definitions

* `parseCosts`, `parseLine`, `RouteTable.parse` — the parser.
* `lineRule`, `fileRules` — what a line says on its own, and what all lines of a file say.
* `Apart` — no two rules are for one network.

## Main results

* `parse_ok_iff` — **which files are accepted, and with which table.**
-/

namespace RustdeskServer

/-! ### Networks -/

namespace IpNetwork

/-- `IpNetwork::prefix`. -/
def prefixLen : IpNetwork → ℕ
  | .v4 n => n.maskLen
  | .v6 _ maskLen => maskLen

/-- `IpNetwork::network`: the first address. -/
def network : IpNetwork → IpAddr
  | .v4 n => .v4 (BitVec.ofNat 32 (n.addr.toNat / 2 ^ (32 - n.maskLen) * 2 ^ (32 - n.maskLen)))
  | .v6 addr maskLen =>
    .v6 (BitVec.ofNat 128 (addr.toNat / 2 ^ (128 - maskLen) * 2 ^ (128 - maskLen)))

/-- The mask is no longer than an address, and the address is the first of the network. -/
def Normal : IpNetwork → Prop
  | .v4 n =>
    n.maskLen ≤ 32 ∧ n.addr.toNat / 2 ^ (32 - n.maskLen) * 2 ^ (32 - n.maskLen) = n.addr.toNat
  | .v6 addr maskLen =>
    maskLen ≤ 128 ∧ addr.toNat / 2 ^ (128 - maskLen) * 2 ^ (128 - maskLen) = addr.toNat

end IpNetwork

/-! ### The parser -/

section Parser

variable (U : Unicode) (parseNetwork : String → Option IpNetwork)

/-- An error in the line `n`. -/
def lineError (n : ℕ) (text : String) : String := "line " ++ toString n ++ ": " ++ text

/-- The entries of the line `n`, over the costs so far. -/
def parseCosts (n : ℕ) : List (List Char) → HashMap String ℚ → Except String (HashMap String ℚ)
  | [], costs => .ok costs
  | entry :: entries, costs =>
    match Plain.rsplitOnce '=' entry with
    | none =>
      .error (lineError n (U.debug (String.ofList entry) ++ " is not relay=milliseconds"))
    | some (relay, ms) =>
      match Plain.Binary64.parse? ms with
      | none =>
        .error (lineError n (U.debug (String.ofList ms) ++ " is not a number of milliseconds"))
      | some none =>
        .error (lineError n
          (U.debug (String.ofList entry) ++ " must be a finite, non-negative time"))
      | some (some ms) =>
        if ms < 0 then
          .error (lineError n
            (U.debug (String.ofList entry) ++ " must be a finite, non-negative time"))
        else if Text.trimChars relay = [] then
          .error (lineError n (U.debug (String.ofList entry) ++ " has no relay name"))
        else if (costs.lookup (normalize U (String.ofList relay))).isSome then
          .error (lineError n ("relay " ++ String.ofList relay ++ " is listed twice"))
        else parseCosts n entries (costs.insert (normalize U (String.ofList relay)) ms)

/-- The words of the line `n`, the first of which is the network. -/
def parseWords (n : ℕ) (rules : List Rule) : List (List Char) → Except String (List Rule)
  | [] => .ok rules
  | netText :: tokens =>
    match parseNetwork (String.ofList netText) with
    | none =>
      .error (lineError n (U.debug (String.ofList netText) ++
        " is not a network such as 203.0.113.0/24"))
    | some net =>
      if rules.any fun r => r.net.network == net.network && r.net.prefixLen == net.prefixLen then
        .error (lineError n (String.ofList netText ++ " appears twice"))
      else
        match parseCosts U n ((tokens.flatMap (·.splitOn ',')).filter fun e => !e.isEmpty) ∅ with
        | .error e => .error e
        | .ok costs =>
          if costs.entries.isEmpty then
            .error (lineError n (String.ofList netText ++ " lists no relays"))
          else .ok (rules ++ [⟨net, costs⟩])

/-- The line `n`, over the rules so far. -/
def parseLine (n : ℕ) (rules : List Rule) (raw : List Char) : Except String (List Rule) :=
  let line := Text.trimChars (raw.takeWhile (· ≠ '#'))
  if line = [] then .ok rules
  else parseWords U parseNetwork n rules (Plain.words Text.isWhitespace line)

/-- The lines from number `n` on. -/
def parseLines : ℕ → List (List Char) → List Rule → Except String (List Rule)
  | _, [], rules => .ok rules
  | n, raw :: raws, rules =>
    match parseLine U parseNetwork n rules raw with
    | .error e => .error e
    | .ok rules => parseLines (n + 1) raws rules

/-- By the length of the prefix, the longest first. -/
def longerFirst (r r' : Rule) : Prop := r'.net.prefixLen ≤ r.net.prefixLen

instance : DecidableRel longerFirst := fun r r' =>
  inferInstanceAs (Decidable (r'.net.prefixLen ≤ r.net.prefixLen))

/-- `RouteTable::parse`.  The sort is stable. -/
def RouteTable.parse (text : List Char) : Except String RouteTable :=
  match parseLines U parseNetwork 1 (Plain.lines text) [] with
  | .error e => .error e
  | .ok [] => .error "no routes found"
  | .ok rules => .ok ⟨rules.insertionSort longerFirst⟩

end Parser

/-! ### A line on its own -/

section Lines

variable (U : Unicode) (parseNetwork : String → Option IpNetwork)

/-- The rule of a line on its own: `none` if the line is refused, `some none` if there is
nothing on it. -/
def lineRule (raw : List Char) : Option (Option Rule) :=
  match parseLine U parseNetwork 0 [] raw with
  | .error _ => none
  | .ok rules => some rules.head?

/-- The rules of the lines, in their order. -/
def fileRules (raws : List (List Char)) : List Rule :=
  raws.filterMap fun raw => (lineRule U parseNetwork raw).join

/-- The rules are for one network. -/
def SameNet (r r' : Rule) : Prop :=
  r.net.network = r'.net.network ∧ r.net.prefixLen = r'.net.prefixLen

/-- No two rules are for one network. -/
def Apart (rules : List Rule) : Prop := rules.Pairwise fun r r' => ¬SameNet r r'

/-- The rules so far with that of a line, if its network is a new one. -/
def addRule (rules : List Rule) : Option Rule → Option (List Rule)
  | none => some rules
  | some r =>
    if rules.any fun r' => r'.net.network == r.net.network && r'.net.prefixLen == r.net.prefixLen
    then none else some (rules ++ [r])

variable {U parseNetwork}

theorem SameNet.symm {r r' : Rule} (h : SameNet r r') : SameNet r' r := ⟨h.1.symm, h.2.symm⟩

/-- The number of a line is only for the error. -/
theorem parseCosts_toOption (n m : ℕ) (entries : List (List Char)) (costs : HashMap String ℚ) :
    (parseCosts U n entries costs).toOption = (parseCosts U m entries costs).toOption := by
  induction entries generalizing costs with
  | nil => rfl
  | cons entry entries ih =>
    simp only [parseCosts]
    split
    · rfl
    · split
      · rfl
      · rfl
      · split
        · rfl
        · split
          · rfl
          · split
            · rfl
            · exact ih _

/-- The words of a line, after other lines. -/
theorem parseWords_toOption (n : ℕ) (rules : List Rule) (ws : List (List Char)) :
    (parseWords U parseNetwork n rules ws).toOption =
      ((parseWords U parseNetwork 0 [] ws).toOption.map List.head?).bind (addRule rules) := by
  cases ws with
  | nil => rfl
  | cons netText tokens =>
    simp only [parseWords]
    cases parseNetwork (String.ofList netText) with
    | none => rfl
    | some net =>
      dsimp only
      have hcosts := parseCosts_toOption (U := U) n 0
        ((tokens.flatMap (·.splitOn ',')).filter fun e => !e.isEmpty) ∅
      generalize parseCosts U n _ ∅ = x at hcosts ⊢
      generalize parseCosts U 0 _ ∅ = y at hcosts ⊢
      cases x with
      | error e =>
        cases y with
        | error e' => cases rules.any _ <;> rfl
        | ok costs => cases hcosts
      | ok costs =>
        cases y with
        | error e' => cases hcosts
        | ok costs' =>
          cases hcosts
          by_cases hempty : costs.entries.isEmpty = true
          · simp only [hempty, if_true]
            cases rules.any _ <;> rfl
          · have hany : (rules.any fun r =>
                r.net.network == net.network && r.net.prefixLen == net.prefixLen) =
              rules.any fun r => r.net.network == (Rule.mk net costs).net.network &&
                r.net.prefixLen == (Rule.mk net costs).net.prefixLen := rfl
            simp only [hempty, hany]
            change _ = addRule rules (some ⟨net, costs⟩)
            rw [addRule]
            cases rules.any _ <;> rfl

theorem parseLine_toOption (n : ℕ) (rules : List Rule) (raw : List Char) :
    (parseLine U parseNetwork n rules raw).toOption =
      (lineRule U parseNetwork raw).bind (addRule rules) := by
  have hrule : lineRule U parseNetwork raw =
      (parseLine U parseNetwork 0 [] raw).toOption.map List.head? := by
    unfold lineRule
    cases parseLine U parseNetwork 0 [] raw <;> rfl
  rw [hrule]
  simp only [parseLine]
  split
  · rfl
  · exact parseWords_toOption n rules _

/-- What a line adds to the rules so far. -/
theorem parseLine_ok_iff {n : ℕ} {rules rules' : List Rule} {raw : List Char} :
    parseLine U parseNetwork n rules raw = .ok rules' ↔
      (lineRule U parseNetwork raw).bind (addRule rules) = some rules' := by
  rw [← parseLine_toOption n]
  cases parseLine U parseNetwork n rules raw <;> simp [Except.toOption]

theorem addRule_eq_some_iff {rules rules' : List Rule} {r : Option Rule} (h : Apart rules) :
    addRule rules r = some rules' ↔ Apart (rules ++ r.toList) ∧ rules' = rules ++ r.toList := by
  cases r with
  | none =>
    rw [addRule, Option.toList_none, List.append_nil, Option.some.injEq, eq_comm]
    exact ⟨fun heq => ⟨h, heq⟩, fun heq => heq.2⟩
  | some r =>
    have hapart : Apart (rules ++ [r]) ↔ ¬(rules.any fun r' =>
        r'.net.network == r.net.network && r'.net.prefixLen == r.net.prefixLen) = true := by
      rw [Apart, List.pairwise_append]
      constructor
      · rintro ⟨-, -, hnew⟩ hany
        obtain ⟨r', hr', hsame⟩ := List.any_eq_true.mp hany
        rw [Bool.and_eq_true, beq_iff_eq, beq_iff_eq] at hsame
        exact hnew r' hr' r (List.mem_singleton_self r) hsame
      · intro hnew
        refine ⟨h, List.pairwise_singleton _ _, ?_⟩
        intro r' hr' x hx hsame
        rw [List.mem_singleton.mp hx] at hsame
        refine hnew (List.any_eq_true.mpr ⟨r', hr', ?_⟩)
        rw [Bool.and_eq_true, beq_iff_eq, beq_iff_eq]
        exact hsame
    rw [addRule, Option.toList_some, hapart]
    split
    · next hany => exact ⟨nofun, fun hnot => absurd hany hnot.1⟩
    · next hnew =>
      rw [Option.some.injEq, eq_comm]
      exact ⟨fun heq => ⟨hnew, heq⟩, fun heq => heq.2⟩

theorem fileRules_cons {raw : List Char} {r : Option Rule}
    (h : lineRule U parseNetwork raw = some r) (raws : List (List Char)) :
    fileRules U parseNetwork (raw :: raws) = r.toList ++ fileRules U parseNetwork raws := by
  rw [fileRules, List.filterMap_cons, h]
  cases r <;> rfl

/-- **The lines, after others.** -/
theorem parseLines_ok_iff {n : ℕ} {raws : List (List Char)} {rules rules' : List Rule}
    (h : Apart rules) :
    parseLines U parseNetwork n raws rules = .ok rules' ↔
      (∀ raw ∈ raws, lineRule U parseNetwork raw ≠ none) ∧
        Apart (rules ++ fileRules U parseNetwork raws) ∧
          rules' = rules ++ fileRules U parseNetwork raws := by
  induction raws generalizing n rules with
  | nil =>
    rw [parseLines, fileRules, List.filterMap_nil, List.append_nil, Except.ok.injEq, eq_comm]
    exact ⟨fun heq => ⟨nofun, h, heq⟩, fun heq => heq.2.2⟩
  | cons raw raws ih =>
    have hline := @parseLine_ok_iff U parseNetwork n rules
    rw [parseLines, List.forall_mem_cons]
    cases hr : lineRule U parseNetwork raw with
    | none =>
      cases hp : parseLine U parseNetwork n rules raw with
      | ok rules₁ =>
        have := hline.mp hp
        rw [hr] at this
        cases this
      | error e => exact ⟨nofun, fun hall => absurd rfl hall.1.1⟩
    | some r =>
      rw [fileRules_cons hr, ← List.append_assoc]
      cases hp : parseLine U parseNetwork n rules raw with
      | ok rules₁ =>
        have hadd := hline.mp hp
        rw [hr, Option.bind_some, addRule_eq_some_iff h] at hadd
        obtain ⟨hapart, rfl⟩ := hadd
        dsimp only
        rw [ih hapart]
        exact ⟨fun hall => ⟨⟨nofun, hall.1⟩, hall.2⟩, fun hall => ⟨hall.1.2, hall.2⟩⟩
      | error e =>
        refine ⟨nofun, fun hall => ?_⟩
        -- the network of the line is one of those before it
        have hapart : Apart (rules ++ r.toList) :=
          hall.2.1.sublist (List.sublist_append_left _ _)
        have hok := hline.mpr (show (lineRule U parseNetwork raw).bind (addRule rules) = _ by
          rw [hr, Option.bind_some]
          exact (addRule_eq_some_iff h).mpr ⟨hapart, rfl⟩)
        rw [hp] at hok
        cases hok

/-- **Which files are accepted, and with which table.** -/
theorem parse_ok_iff {text : List Char} {t : RouteTable} :
    RouteTable.parse U parseNetwork text = .ok t ↔
      (∀ raw ∈ Plain.lines text, lineRule U parseNetwork raw ≠ none) ∧
        Apart (fileRules U parseNetwork (Plain.lines text)) ∧
        fileRules U parseNetwork (Plain.lines text) ≠ [] ∧
        t = ⟨(fileRules U parseNetwork (Plain.lines text)).insertionSort longerFirst⟩ := by
  have hlines := @parseLines_ok_iff U parseNetwork 1 (Plain.lines text) []
  rw [RouteTable.parse]
  split
  · next e he =>
    refine ⟨nofun, fun hall => ?_⟩
    rw [(hlines List.Pairwise.nil).mpr ⟨hall.1, hall.2.1, rfl⟩] at he
    cases he
  · next he =>
    obtain ⟨-, -, hnil⟩ := (hlines List.Pairwise.nil).mp he
    exact ⟨nofun, fun hall => absurd hnil.symm hall.2.2.1⟩
  · next rules hne he =>
    obtain ⟨hall, hapart, rfl⟩ := (hlines List.Pairwise.nil).mp he
    rw [List.nil_append] at hapart hne
    rw [Except.ok.injEq, eq_comm]
    exact ⟨fun heq => ⟨hall, hapart, fun hnil => hne hnil, heq⟩, fun h => h.2.2.2⟩

end Lines
end RustdeskServer
