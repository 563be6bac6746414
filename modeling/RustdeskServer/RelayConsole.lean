import RustdeskServer.NumericSettings
import RustdeskServer.Plain.LastWord
import RustdeskServer.RelayServer

/-!
# The console and the lists of the relay server

`hbbr` reads its two address lists from files when it starts, and the console changes them
from then on: nothing is written back.  A line of the console names a command, by its long
or its short name, and at most one argument; addresses are separated by bars.  `all` removes
every address, but is an address like any other when it is added.

Rates are given in megabits and kept in bits.  What a text is as a floating point number, and
how such a number is printed, is a parameter.

## Main definitions

* `Floats` — the texts of floating point numbers.
* `listFile`, `checkParams` — what the server starts with.
* `checkCmd` — the console.
* `ruling` — what a line has to say about an address.

## Main results

* `mem_list_checkCmd` — one line, by what it says.
* `lists_last_word` — **the last line about an address decides, and the file when there is
  none.**
-/

namespace RustdeskServer

namespace Hbbr

/-! ### The settings -/

/-- How floating point numbers are read and printed. -/
structure Floats where
  /-- `(v * factor) as usize`, for the number that a text is, if it is above zero. -/
  scaled : ℕ → String → Option ℕ
  /-- `format!("{}", n as f64 / d)`. -/
  quotient : ℕ → ℕ → String
  /-- `format!("{:.2}", total as f64 / 1024. / 1024. / 8.)`. -/
  megabytes : ℕ → String

/-- What the console sees: the state the tasks share, and the rate of all sessions together. -/
structure Desk where
  /-- Lists, settings and usage. -/
  st : State
  /-- `TOTAL_BANDWIDTH`, bit/s. -/
  totalBandwidth : ℕ
  /-- The speed of the limiter that all sessions share. -/
  speedLimit : ℕ

/-- A setting is stored. -/
def Desk.store (d : Desk) (p : Param) (v : ℕ) : Desk :=
  { d with st := { d.st with params := Function.update d.st.params p v } }

/-- A setting is stored, if there is a value for it. -/
def Desk.store? (d : Desk) (p : Param) (v : Option ℕ) : Desk := (v.map (d.store p)).getD d

/-- `check_params`: what the arguments say, and what was there where they say nothing. -/
def checkParams (F : Floats) (arg : String → String) (d : Desk) : Desk :=
  let d := d.store? .downgradeThreshold100 (F.scaled 100 (arg "DOWNGRADE_THRESHOLD"))
  let d := d.store .downgradeStartCheck
    (downgradeStartCheck (arg "DOWNGRADE_START_CHECK") (d.st.params .downgradeStartCheck))
  let d := d.store? .limitSpeed (F.scaled (1024 * 1024) (arg "LIMIT_SPEED"))
  let d := { d with
    totalBandwidth := (F.scaled (1024 * 1024) (arg "TOTAL_BANDWIDTH")).getD d.totalBandwidth }
  d.store? .singleBandwidth (F.scaled (1024 * 1024) (arg "SINGLE_BANDWIDTH"))

/-! ### The lists -/

/-- The two lists. -/
inductive ListName
  /-- `BLACKLIST`: its addresses are slowed down. -/
  | black
  /-- `BLOCKLIST`: its addresses are refused. -/
  | block
  deriving DecidableEq

/-- The addresses of a list. -/
def State.list (s : State) : ListName → List String
  | .black => s.blacklist
  | .block => s.blocklist

/-- A list is replaced. -/
def State.setList (s : State) (addresses : List String) : ListName → State
  | .black => { s with blacklist := addresses }
  | .block => { s with blocklist := addresses }

@[simp] theorem State.list_setList (s : State) (addresses : List String) (n n' : ListName) :
    (s.setList addresses n).list n' = if n' = n then addresses else s.list n' := by
  cases n <;> cases n' <;> rfl

/-- The text before the first space of a line. -/
def firstWord (row : String) : String := ((Text.split ' ' (Text.trim row)).head?).getD ""

/-- `HashSet::insert` of several texts. -/
def insertAll (addresses new : List String) : List String :=
  new.foldl (fun l x => List.insert x l) addresses

/-- What `start_with_bind` reads from a list's file, if it can be read. -/
def listFile (contents : Option String) : List String :=
  match contents with
  | some text => insertAll [] ((Text.split '\n' text).map firstWord)
  | none => []

/-- `start_with_bind` up to `io_loop`: the lists are those of the files. -/
def startLists (files : ListName → Option String) (s : State) : State :=
  { s with blacklist := listFile (files .black), blocklist := listFile (files .block) }

/-! ### The commands -/

/-- The commands of `check_cmd`. -/
inductive Command
  | h
  | add (list : ListName)
  | remove (list : ListName)
  | query (list : ListName)
  | downgradeThreshold
  | downgradeStartCheck
  | limitSpeed
  | totalBandwidth
  | singleBandwidth
  | usage
  deriving DecidableEq

/-- The names of a command. -/
def Command.names : Command → List String
  | .h => ["h"]
  | .add .black => ["blacklist-add", "ba"]
  | .remove .black => ["blacklist-remove", "br"]
  | .query .black => ["blacklist", "b"]
  | .add .block => ["blocklist-add", "Ba"]
  | .remove .block => ["blocklist-remove", "Br"]
  | .query .block => ["blocklist", "B"]
  | .downgradeThreshold => ["downgrade-threshold", "dt"]
  | .downgradeStartCheck => ["downgrade-start-check", "t"]
  | .limitSpeed => ["limit-speed", "ls"]
  | .totalBandwidth => ["total-bandwidth", "tb"]
  | .singleBandwidth => ["single-bandwidth", "sb"]
  | .usage => ["usage", "u"]

/-- The command with a name. -/
def Command.ofName (name : String) : Option Command :=
  [.h, .add .black, .remove .black, .query .black, .add .block, .remove .block, .query .block,
    .downgradeThreshold, .downgradeStartCheck, .limitSpeed, .totalBandwidth, .singleBandwidth,
    .usage].find? fun c => name ∈ Command.names c

/-- The answer of `h`. -/
def help : String :=
  Text.lines
    ["blacklist-add(ba) <ip>", "blacklist-remove(br) <ip>", "blacklist(b) <ip>",
      "blocklist-add(Ba) <ip>", "blocklist-remove(Br) <ip>", "blocklist(B) <ip>",
      "downgrade-threshold(dt) [value]", "downgrade-start-check(t) [value(second)]",
      "limit-speed(ls) [value(Mb/s)]", "total-bandwidth(tb) [value(Mb/s)]",
      "single-bandwidth(sb) [value(Mb/s)]", "usage(u)"]

/-- A line of the usage report. -/
structure UsageRow where
  /-- The address and port of the session's second client. -/
  id : String
  /-- Milliseconds. -/
  elapsed : ℕ
  /-- Bits. -/
  total : ℕ
  /-- The highest rate, kb/s. -/
  highest : ℕ
  /-- The rate over the whole session. -/
  average : ℕ
  /-- The current rate. -/
  speed : ℕ
  deriving DecidableEq

/-- The row of a session that has reported. -/
def usageRow? (x : String × Usage) : Option UsageRow :=
  if x.2.1 = 0 then none
  else some ⟨x.1, x.2.1, x.2.2.1, x.2.2.2.1, x.2.2.1 / x.2.1, x.2.2.2.2⟩

/-- The rows of `usage`: the largest total first, without the sessions that have not reported. -/
def usageRows (usage : HashMap String Usage) : List UsageRow :=
  ((usage.entries.map fun x => (x.1, x.2)).mergeSort
    fun a b => decide (b.2.2.1 ≤ a.2.2.1)).filterMap usageRow?

/-- A row as it is printed. -/
def UsageRow.text (F : Floats) (r : UsageRow) : String :=
  r.id ++ ": " ++ toString (r.elapsed / 1000) ++ "s " ++ F.megabytes r.total ++ "MB " ++
    toString r.highest ++ "kb/s " ++ toString r.average ++ "kb/s " ++ toString r.speed ++ "kb/s"

/-- One of the rates in bit/s, given and shown in Mb/s. -/
def rateCmd (F : Floats) (d : Desk) (p : Param) : List String → Desk × String
  | v :: _ => (d.store? p (F.scaled (1024 * 1024) v), "")
  | [] => (d, F.quotient (d.st.params p) (1024 * 1024) ++ "Mb/s\n")

/-- One command: the desk after it, and the answer. -/
def runCommand (F : Floats) (d : Desk) (c : Command) (args : List String) : Desk × String :=
  match c with
  | .h => (d, help)
  | .add list =>
    match args with
    | ip :: _ =>
      ({ d with st := d.st.setList (insertAll (d.st.list list) (Text.split '|' ip)) list }, "")
    | [] => (d, "")
  | .remove list =>
    match args with
    | ip :: _ =>
      if ip = "all" then ({ d with st := d.st.setList [] list }, "")
      else ({ d with
        st := d.st.setList ((d.st.list list).filter (· ∉ Text.split '|' ip)) list }, "")
    | [] => (d, "")
  | .query list =>
    match args with
    | ip :: _ => (d, Text.line (if ip ∈ d.st.list list then "true" else "false"))
    | [] => (d, Text.lines (d.st.list list))
  | .downgradeThreshold =>
    match args with
    | v :: _ => (d.store? .downgradeThreshold100 (F.scaled 100 v), "")
    | [] => (d, Text.line (F.quotient (d.st.params .downgradeThreshold100) 100))
  | .downgradeStartCheck =>
    match args with
    | v :: _ =>
      (d.store .downgradeStartCheck
        (downgradeStartCheckCmd v (d.st.params .downgradeStartCheck)), "")
    | [] => (d, toString (d.st.params .downgradeStartCheck / 1000) ++ "s\n")
  | .limitSpeed => rateCmd F d .limitSpeed args
  | .totalBandwidth =>
    match args with
    | v :: _ =>
      match F.scaled (1024 * 1024) v with
      | some v => ({ d with totalBandwidth := v, speedLimit := v }, "")
      | none => (d, "")
    | [] => (d, F.quotient d.totalBandwidth (1024 * 1024) ++ "Mb/s\n")
  | .singleBandwidth => rateCmd F d .singleBandwidth args
  | .usage => (d, Text.lines ((usageRows d.st.usage).map (UsageRow.text F)))

/-- `check_cmd`: the desk after a line, and the answer. -/
def checkCmd (F : Floats) (d : Desk) (cmd : String) : Desk × String :=
  match Text.split ' ' (Text.trim cmd) with
  | [] => (d, "")
  | name :: args =>
    match Command.ofName name with
    | none => (d, "")
    | some c => runCommand F d c args

/-- What a line does to the state the tasks share. -/
def typed (F : Floats) (totalBandwidth speedLimit : ℕ) (cmd : String) (s : State) : State :=
  (checkCmd F ⟨s, totalBandwidth, speedLimit⟩ cmd).1.st

/-- The desk after several lines. -/
def afterLines (F : Floats) (d : Desk) (lines : List String) : Desk :=
  lines.foldl (fun d cmd => (checkCmd F d cmd).1) d

/-! ### The usage report -/

/-- What a row is made of. -/
theorem usageRow?_eq_some {x : String × Usage} {r : UsageRow} (h : usageRow? x = some r) :
    x.2.1 ≠ 0 ∧ r = ⟨x.1, x.2.1, x.2.2.1, x.2.2.2.1, x.2.2.1 / x.2.1, x.2.2.2.2⟩ := by
  unfold usageRow? at h
  split at h
  · cases h
  · next hne => exact ⟨hne, (Option.some.inj h).symm⟩

/-- **Every session that has reported has a row, and nothing else has.** -/
theorem mem_usageRows {usage : HashMap String Usage} {r : UsageRow} :
    r ∈ usageRows usage ↔ ∃ u, usage.lookup r.id = some u ∧ usageRow? (r.id, u) = some r := by
  rw [usageRows, List.mem_filterMap]
  constructor
  · rintro ⟨⟨id, u⟩, hm, hr⟩
    rw [List.mem_mergeSort, List.mem_map] at hm
    obtain ⟨y, hy, heq⟩ := hm
    cases heq
    obtain ⟨-, hrow⟩ := usageRow?_eq_some hr
    have hid : r.id = y.1 := by rw [hrow]
    rw [hid]
    exact ⟨y.2, AList.mem_lookup_iff.mpr hy, hr⟩
  · rintro ⟨u, hl, hr⟩
    refine ⟨(r.id, u), ?_, hr⟩
    rw [List.mem_mergeSort, List.mem_map]
    exact ⟨⟨r.id, u⟩, AList.mem_lookup_iff.mp hl, rfl⟩

/-- The largest total comes first. -/
theorem usageRows_sorted (usage : HashMap String Usage) :
    (usageRows usage).Pairwise fun a b => b.total ≤ a.total := by
  have hsort : ((usage.entries.map fun x => (x.1, x.2)).mergeSort
      fun a b => decide (b.2.2.1 ≤ a.2.2.1)).Pairwise fun a b => b.2.2.1 ≤ a.2.2.1 := by
    refine (List.pairwise_mergeSort ?_ ?_ _).imp fun h => of_decide_eq_true h
    · intro a b c hab hbc
      exact decide_eq_true (le_trans (of_decide_eq_true hbc) (of_decide_eq_true hab))
    · intro a b
      simpa using Nat.le_total b.2.2.1 a.2.2.1
  refine hsort.filterMap usageRow? ?_
  intro x y hxy r hr r' hr'
  obtain ⟨-, rfl⟩ := usageRow?_eq_some hr
  obtain ⟨-, rfl⟩ := usageRow?_eq_some hr'
  exact hxy

/-- No session has two rows. -/
theorem usageRows_nodup (usage : HashMap String Usage) :
    ((usageRows usage).map UsageRow.id).Nodup := by
  have hkeys : ((usage.entries.map fun x => (x.1, x.2)).map Prod.fst).Nodup := by
    rw [List.map_map]
    exact usage.nodupKeys
  have hperm := (List.mergeSort_perm (usage.entries.map fun x => (x.1, x.2))
    fun a b => decide (b.2.2.1 ≤ a.2.2.1)).map Prod.fst
  have hnodup := hperm.nodup_iff.mpr hkeys
  rw [List.Nodup, List.pairwise_map] at hnodup ⊢
  refine hnodup.filterMap usageRow? ?_
  intro x y hxy r hr r' hr'
  obtain ⟨-, rfl⟩ := usageRow?_eq_some hr
  obtain ⟨-, rfl⟩ := usageRow?_eq_some hr'
  exact hxy

/-- The answer to `usage`. -/
theorem checkCmd_report (F : Floats) (d : Desk) {cmd name : String} {args : List String}
    (h : Text.split ' ' (Text.trim cmd) = name :: args) (hname : name ∈ Command.names .usage) :
    (checkCmd F d cmd).2 = Text.lines ((usageRows d.st.usage).map (UsageRow.text F)) := by
  have hcmd : Command.ofName name = some .usage := by
    simp only [Command.names, List.mem_cons, List.not_mem_nil, or_false] at hname
    rcases hname with rfl | rfl <;> decide
  unfold checkCmd
  rw [h]
  dsimp only
  rw [hcmd]
  rfl

/-! ### What a line says about an address -/

/-- What a line says about an address and a list: that it is there, that it is not, or
nothing. -/
def ruling (list : ListName) (x : String) (cmd : String) : Option Bool :=
  match Text.split ' ' (Text.trim cmd) with
  | name :: ip :: _ =>
    if Command.ofName name = some (.add list) ∧ x ∈ Text.split '|' ip then some true
    else if Command.ofName name = some (.remove list) ∧ (ip = "all" ∨ x ∈ Text.split '|' ip) then
      some false
    else none
  | _ => none

section Lines

variable {F : Floats} {d : Desk} {list : ListName} {x cmd : String}

@[simp] theorem mem_insertAll {addresses new : List String} :
    x ∈ insertAll addresses new ↔ x ∈ addresses ∨ x ∈ new := by
  induction new generalizing addresses with
  | nil => simp [insertAll]
  | cons y new ih =>
    have hcons : insertAll addresses (y :: new) = insertAll (List.insert y addresses) new := rfl
    rw [hcons, ih, List.mem_insert_iff, List.mem_cons]
    tauto

/-- An address is read from a file if it is the first word of a row. -/
theorem mem_listFile {contents : Option String} :
    x ∈ listFile contents ↔
      ∃ text ∈ contents, ∃ row ∈ Text.split '\n' text, firstWord row = x := by
  cases contents with
  | none => simp [listFile]
  | some text => simp [listFile]

@[simp] theorem Desk.store_list (p : Param) (v : ℕ) :
    (d.store p v).st.list list = d.st.list list := by
  cases list <;> rfl

@[simp] theorem Desk.store?_list (p : Param) (v : Option ℕ) :
    (d.store? p v).st.list list = d.st.list list := by
  cases v with
  | none => rfl
  | some v => exact Desk.store_list p v

@[simp] theorem rateCmd_list (p : Param) (args : List String) :
    (rateCmd F d p args).1.st.list list = d.st.list list := by
  cases args with
  | nil => rfl
  | cons v _ => exact Desk.store?_list p _

/-- A command that is not about this list leaves it alone. -/
theorem runCommand_list {c : Command} (hadd : c ≠ .add list) (hremove : c ≠ .remove list)
    (args : List String) : (runCommand F d c args).1.st.list list = d.st.list list := by
  cases c with
  | add list' =>
    have hne : list ≠ list' := by
      rintro rfl
      exact hadd rfl
    cases args with
    | nil => rfl
    | cons ip _ =>
      show (d.st.setList _ list').list list = _
      rw [State.list_setList, if_neg hne]
  | remove list' =>
    have hne : list ≠ list' := by
      rintro rfl
      exact hremove rfl
    cases args with
    | nil => rfl
    | cons ip _ =>
      rw [runCommand]
      split
      · show (d.st.setList _ list').list list = _
        rw [State.list_setList, if_neg hne]
      · show (d.st.setList _ list').list list = _
        rw [State.list_setList, if_neg hne]
  | limitSpeed => exact rateCmd_list _ args
  | singleBandwidth => exact rateCmd_list _ args
  | totalBandwidth =>
    cases args with
    | nil => rfl
    | cons v _ =>
      rw [runCommand]
      cases F.scaled (1024 * 1024) v <;> rfl
  | downgradeThreshold =>
    cases args with
    | nil => rfl
    | cons v _ => exact Desk.store?_list _ _
  | downgradeStartCheck =>
    cases args with
    | nil => rfl
    | cons v _ => exact Desk.store_list _ _
  | query list' => cases args <;> rfl
  | h => rfl
  | usage => rfl

@[simp] theorem Desk.store?_usage (p : Param) (v : Option ℕ) :
    (d.store? p v).st.usage = d.st.usage := by
  cases v <;> rfl

@[simp] theorem State.setList_usage (s : State) (addresses : List String) (n : ListName) :
    (s.setList addresses n).usage = s.usage := by
  cases n <;> rfl

theorem runCommand_usage (F : Floats) (d : Desk) (c : Command) (args : List String) :
    (runCommand F d c args).1.st.usage = d.st.usage := by
  cases c with
  | totalBandwidth =>
    cases args with
    | nil => rfl
    | cons v _ =>
      dsimp only [runCommand]
      cases F.scaled (1024 * 1024) v <;> rfl
  | remove list =>
    cases args with
    | nil => rfl
    | cons ip _ =>
      dsimp only [runCommand]
      split <;> simp
  | _ => cases args <;> simp [runCommand, rateCmd, Desk.store]

/-- No line changes the usage of a session. -/
theorem checkCmd_usage (F : Floats) (d : Desk) (cmd : String) :
    (checkCmd F d cmd).1.st.usage = d.st.usage := by
  unfold checkCmd
  cases Text.split ' ' (Text.trim cmd) with
  | nil => rfl
  | cons name args =>
    dsimp only
    cases Command.ofName name with
    | none => rfl
    | some c => exact runCommand_usage F d c args

/-- **One line, by what it says.** -/
theorem mem_list_checkCmd (F : Floats) (d : Desk) (list : ListName) (x cmd : String) :
    x ∈ (checkCmd F d cmd).1.st.list list ↔
      (ruling list x cmd).getD (decide (x ∈ d.st.list list)) = true := by
  have hquiet : ∀ {args : List String} {c : Command}, c ≠ .add list → c ≠ .remove list →
      (x ∈ (runCommand F d c args).1.st.list list ↔ x ∈ d.st.list list) := by
    intro args c hadd hremove
    rw [runCommand_list hadd hremove]
  unfold checkCmd ruling
  cases Text.split ' ' (Text.trim cmd) with
  | nil => simp
  | cons name args =>
    dsimp only
    cases hname : Command.ofName name with
    | none => cases args <;> simp [hname]
    | some c =>
      dsimp only
      -- the two commands about this list need an argument to say something
      by_cases hadd : c = .add list
      · subst hadd
        cases args with
        | nil => simp [runCommand]
        | cons ip rest =>
          by_cases hx : x ∈ Text.split '|' ip <;> simp [runCommand, hname, hx]
      · by_cases hremove : c = .remove list
        · subst hremove
          cases args with
          | nil => simp [runCommand]
          | cons ip rest =>
            by_cases hall : ip = "all"
            · simp [runCommand, hname, hall]
            · by_cases hx : x ∈ Text.split '|' ip <;> simp [runCommand, hname, hall, hx]
        · rw [hquiet hadd hremove]
          cases args <;> simp [hname, hadd, hremove]

end Lines

/-- **What is in a list**, after any lines: the addresses that the last line about them added,
and those of the file that no line is about. -/
theorem lists_last_word (F : Floats) (files : ListName → Option String) (d : Desk)
    (lines : List String) (list : ListName) (x : String) :
    x ∈ (afterLines F { d with st := startLists files d.st } lines).st.list list ↔
      Plain.LastWord (ruling list x) true lines ∨
        ((∀ cmd ∈ lines, ruling list x cmd = none) ∧
          ∃ text ∈ files list, ∃ row ∈ Text.split '\n' text, firstWord row = x) := by
  have hfile : x ∈ (startLists files d.st).list list ↔
      ∃ text ∈ files list, ∃ row ∈ Text.split '\n' text, firstWord row = x := by
    rw [← mem_listFile]
    cases list <;> rfl
  have hstep : ∀ d cmd, True → decide (x ∈ (checkCmd F d cmd).1.st.list list) =
      (ruling list x cmd).getD (decide (x ∈ d.st.list list)) := by
    intro d cmd _
    rw [Bool.eq_iff_iff, decide_eq_true_iff]
    exact mem_list_checkCmd F d list x cmd
  have hlast := Plain.foldl_eq_lastWord (fun d cmd => (checkCmd F d cmd).1)
    (fun d => decide (x ∈ d.st.list list)) (fun _ => True) (fun _ _ _ => trivial) hstep
    (v := true) (l := lines) (s := { d with st := startLists files d.st }) trivial
  rw [decide_eq_true_iff, decide_eq_true_iff, hfile] at hlast
  exact hlast

end Hbbr

end RustdeskServer
