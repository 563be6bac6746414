import RustdeskServer.RelaySelect
import RustdeskServer.Server

/-!
# The console and the main loop's queue

`check_cmd` answers one line of text.  Most commands read or change a table on the spot;
a new relay list is only queued, as `Data::RelayServers0`, and the main loop configures
it when it takes the message from the queue.

`always-use-relay` switches a flag.  Its arm queues its own argument as a relay list as
well, so that `aur Y` also replaces the configured relays by one called `Y`.  No other
command but `relay-servers` touches the relay lists.

## Main definitions

* `Hbbs`, `Hbbs.deliver` — the server with its relays, and the main loop taking a message
  from its queue.
* `Hbbs.checkCmd` — the console.
* `ConsoleFrame` — a command leaves the relay lists alone.

## Main results

* `checkCmd_cases` — what a command does to the relay lists, and what it queues.
* `consoleFrame_iff` — **a command other than `relay-servers` leaves the relay lists alone
  exactly when it is not `always-use-relay` with an argument that names other relays.**
* `aur_replaces_relays` — `aur Y` replaces them.
-/

namespace RustdeskServer

/-! ### The server with its relays -/

/-- The server's shared state, with the relays. -/
structure Hbbs where
  /-- What the handlers share. -/
  srv : Server
  /-- `relay_servers0`: the relays as configured. -/
  relayServers0 : List String
  /-- `relay_servers`: the relays that answer, and how to choose among them. -/
  relayServers : RelaySelector

namespace Hbbs

section Loop

variable (P : Platform)

/-- `parse_relay_servers`. -/
def parseRelayServers (s : Hbbs) (list : String) : Hbbs :=
  let rs := (parseRelayList P.toUnicode list).1
  { s with relayServers0 := rs, relayServers := s.relayServers.setLive rs }

/-- The main loop takes a message from its queue.  A message to be sent leaves the
server as it is. -/
def deliver (s : Hbbs) : Data → Hbbs
  | .msg _ _ => s
  | .relayServers0 list => s.parseRelayServers P list
  | .relayServers rs => { s with relayServers := s.relayServers.setLive rs }

end Loop

/-! ### The commands -/

/-- The commands of `check_cmd`. -/
inductive Command
  | h
  | relayServers
  | ipBlocker
  | ipChanges
  | punchRequests
  | alwaysUseRelay
  | wsPeers
  | mustLogin
  | testGeo
  deriving DecidableEq

/-- The names of a command. -/
def Command.names : Command → List String
  | .h => ["h"]
  | .relayServers => ["relay-servers", "rs"]
  | .ipBlocker => ["ip-blocker", "ib"]
  | .ipChanges => ["ip-changes", "ic"]
  | .punchRequests => ["punch-requests", "pr"]
  | .alwaysUseRelay => ["always-use-relay", "aur"]
  | .wsPeers => ["ws-peers", "wp"]
  | .mustLogin => ["must-login", "ml"]
  | .testGeo => ["test-geo", "tg"]

/-- The command with a name. -/
def Command.ofName (name : String) : Option Command :=
  [.h, .relayServers, .ipBlocker, .ipChanges, .punchRequests, .alwaysUseRelay, .wsPeers,
    .mustLogin, .testGeo].find? fun c => name ∈ Command.names c

/-- The answer of `h`. -/
def help : String :=
  Text.lines
    ["relay-servers(rs) <separated by ,>", "reload-geo(rg)", "ip-blocker(ib) [<ip>|<number>] [-]",
      "ip-changes(ic) [<id>|<number>] [-]", "punch-requests(pr) [<number>] [-]",
      "always-use-relay(aur) [Y|N]", "test-geo(tg) <ip1> <ip2>", "must-login(ml) [Y|N]",
      "ws-peers(wp)", "test-relay(tr) <ip1> [<ip2>]", "relay-routes(rr)",
      "use-relay(ur) [<host:port>|auto]"]

/-- Ten entries from the one numbered `start` on.  `start + 10` is an `i32`. -/
def page {α : Type} (start : ℤ) (l : List α) : List α :=
  if start + 10 < 2 ^ 31 then (l.drop start.toNat).take 10 else []

/-- `a.0/..s b.0.len()/..s`. -/
def blockText (now : Instant) (b : IpBlock) : String :=
  toString b.burst.1 ++ "/" ++ toString (elapsedSecs now b.burst.2) ++ "s " ++
    toString b.ids.1.length ++ "/" ++ toString (elapsedSecs now b.ids.2) ++ "s"

/-- `ip-blocker`: the table after it, and the answer. -/
def ipBlockerCmd (now : Instant) (table : HashMap String IpBlock) (args : List String) :
    HashMap String IpBlock × String :=
  let table := table.retain fun _ b =>
    decide (elapsedSecs now b.burst.2 ≤ IP_BLOCK_DUR) || decide (elapsedSecs now b.ids.2 ≤ DAY_SECONDS)
  let count := Text.line (toString table.entries.length)
  let list (start : ℤ) := Text.lines ((page start table.entries).map fun x =>
    x.1 ++ ": " ++ blockText now x.2)
  match args with
  | [] => (table, count ++ list 0)
  | ip :: rest =>
    let start := (Text.parseSigned 32 ip).getD (-1)
    if start < 0 then
      (if rest.head? = some "-" then table.erase ip else table,
        count ++ ((table.lookup ip).map fun b => Text.line (blockText now b)).getD "")
    else (table, count ++ list start)

/-- `IP_CHANGE_DUR_X2`. -/
def IP_CHANGE_DUR_X2 : ℕ := IP_CHANGE_DUR * 2

/-- `{}s {:?}` of an entry of `IP_CHANGES`. -/
def changeText (U : Unicode) (now : Instant) (v : Instant × HashMap String ℕ) : String :=
  toString (elapsedSecs now v.1) ++ "s \x7b" ++
    ", ".intercalate (v.2.entries.map fun x => U.debug x.1 ++ ": " ++ toString x.2) ++ "\x7d"

/-- `ip-changes`: the table after it, and the answer. -/
def ipChangesCmd (U : Unicode) (now : Instant)
    (table : HashMap String (Instant × HashMap String ℕ)) (args : List String) :
    HashMap String (Instant × HashMap String ℕ) × String :=
  let table := table.retain fun _ v =>
    decide (elapsedSecs now v.1 < IP_CHANGE_DUR_X2) && decide (1 < v.2.entries.length)
  let count := Text.line (toString table.entries.length)
  let list (start : ℤ) (table : HashMap String (Instant × HashMap String ℕ)) :=
    if 0 ≤ start then
      Text.lines ((page start table.entries).map fun x => x.1 ++ ": " ++ changeText U now x.2)
    else ""
  match args with
  | [] => (table, count ++ list 0 table)
  | id :: rest =>
    let start := (Text.parseSigned 32 id).getD (-1)
    if 0 ≤ start ∧ start ≤ 10000000 then (table, count ++ list start table)
    else
      let left := if rest.head? = some "-" then table.erase id else table
      (left, count ++ ((table.lookup id).map fun v => Text.line (changeText U now v)).getD "" ++
        list start left)

/-- `punch-requests`: the log after it, and the answer. -/
def punchRequestsCmd (isoTime : Instant → String) (reqs : List PunchReqEntry) (args : List String) :
    List PunchReqEntry × String :=
  if args.head? = some "-" then ([], "")
  else
    let start := (args.head?.bind (Text.parseUnsigned (2 ^ 64 - 1))).getD 0
    let size := ((args.drop 1).head?.bind (Text.parseUnsigned (2 ^ 64 - 1))).getD 10
    let size := if size = 0 then 10 else size
    (reqs, Text.lines (((reqs.drop start).take size).map fun r =>
      isoTime r.tm ++ " " ++ r.fromIp ++ " -> " ++ r.toId ++ "@" ++ r.toIp))

/-- `{:?}` of a `bool`. -/
def boolText (b : Bool) : String := if b then "true" else "false"

section Cmd

variable (P : Platform)

/-- `test-geo`: the answer. -/
def testGeoCmd (s : RelaySelector) (now : Instant) (args : List String) : String :=
  match args with
  | [] => ""
  | first :: rest =>
    match P.parseIp first with
    | none => ""
    | some a =>
      match rest with
      | [] => P.debug (s.pick P now a a false).2.relay
      | second :: _ =>
        match P.parseIp second with
        | none => ""
        | some b => P.debug (s.pick P now a b false).2.relay

/-- One command of `check_cmd`: the server after it, what it queued, and the answer. -/
def runCommand (s : Hbbs) (e : RelaySelector.ConsoleEnv) (c : Command) (args : List String) :
    Hbbs × List Data × String :=
  match c with
  | .h => (s, [], help)
  | .relayServers =>
    match args with
    | rs :: _ => (s, [.relayServers0 rs], "")
    | [] => (s, [], Text.lines s.relayServers.live)
  | .ipBlocker =>
    let r := ipBlockerCmd e.now s.srv.pm.ipBlocker args
    ({ s with srv := { s.srv with pm := { s.srv.pm with ipBlocker := r.1 } } }, [], r.2)
  | .ipChanges =>
    let r := ipChangesCmd P.toUnicode e.now s.srv.pm.ipChanges args
    ({ s with srv := { s.srv with pm := { s.srv.pm with ipChanges := r.1 } } }, [], r.2)
  | .punchRequests =>
    let r := punchRequestsCmd e.isoTime s.srv.punchReqs args
    ({ s with srv := { s.srv with punchReqs := r.1 } }, [], r.2)
  | .alwaysUseRelay =>
    match args with
    | rs :: _ =>
      ({ s with srv := { s.srv with alwaysUseRelay := decide (P.toUppercase rs = "Y") } },
        [.relayServers0 rs], "")
    | [] => (s, [], Text.line ("ALWAYS_USE_RELAY: " ++ boolText s.srv.alwaysUseRelay))
  | .wsPeers => (s, [], Text.line ("ws peers: " ++ toString s.srv.wsPeers.entries.length))
  | .mustLogin =>
    match args with
    | v :: _ =>
      ({ s with srv := { s.srv with mustLogin := decide (P.toUppercase v = "Y") } }, [], "")
    | [] => (s, [], Text.line ("MUST_LOGIN: " ++ boolText s.srv.mustLogin))
  | .testGeo => (s, [], testGeoCmd P s.relayServers e.now args)

/-- `check_cmd`: the server after a line, what it queued, and the answer. -/
def checkCmd (s : Hbbs) (e : RelaySelector.ConsoleEnv) (cmd : String) :
    Hbbs × List Data × String :=
  match s.relayServers.console P e cmd with
  | some (sel, res) => ({ s with relayServers := sel }, [], res)
  | none =>
    match Text.split ' ' (Text.trim cmd) with
    | [] => (s, [], "")
    | name :: args =>
      match Command.ofName name with
      | none => (s, [], "")
      | some c => s.runCommand P e c args

/-- The server after a line and after the main loop has taken what the line queued. -/
def afterCmd (s : Hbbs) (e : RelaySelector.ConsoleEnv) (cmd : String) : Hbbs :=
  (s.checkCmd P e cmd).2.1.foldl (deliver P) (s.checkCmd P e cmd).1

end Cmd

/-! ### What a command does to the relay lists -/

/-- The argument of a command in a line. -/
def argOf (c : Command) (cmd : String) : Option String :=
  match Text.split ' ' (Text.trim cmd) with
  | name :: arg :: _ => if name ∈ c.names then some arg else none
  | _ => none

/-- A line is `relay-servers` with a list. -/
def SetsRelays (cmd : String) : Prop := ∃ list, argOf .relayServers cmd = some list

variable {P : Platform} {s : Hbbs} {e : RelaySelector.ConsoleEnv} {cmd : String}

theorem Command.mem_names {name : String} {c : Command} (h : Command.ofName name = some c) :
    name ∈ c.names := by
  simpa using List.find?_some h

theorem Command.ofName_alwaysUseRelay {name : String} (h : name ∈ Command.names .alwaysUseRelay) :
    Command.ofName name = some .alwaysUseRelay := by
  simp only [Command.names, List.mem_cons, List.not_mem_nil, or_false] at h
  rcases h with rfl | rfl <;> decide

theorem argOf_cons {c : Command} {name arg : String} {args : List String}
    (h : Text.split ' ' (Text.trim cmd) = name :: arg :: args) (hn : name ∈ c.names) :
    argOf c cmd = some arg := by
  simp only [argOf, h, if_pos hn]

/-- A line that does not name a command has no argument of it. -/
theorem argOf_eq_none {c : Command}
    (h : ∀ name args, Text.split ' ' (Text.trim cmd) = name :: args → name ∈ c.names → args = []) :
    argOf c cmd = none := by
  unfold argOf
  split
  · next name arg args heq =>
    refine if_neg ?_
    intro hn
    cases h name (arg :: args) heq hn
  · rfl

@[simp] theorem parseRelayServers_relayServers0 (s : Hbbs) (list : String) :
    (s.parseRelayServers P list).relayServers0 = (parseRelayList P.toUnicode list).1 := rfl

@[simp] theorem parseRelayServers_live (s : Hbbs) (list : String) :
    (s.parseRelayServers P list).relayServers.live = (parseRelayList P.toUnicode list).1 := rfl

/-- Configuring the list that is configured and live. -/
theorem parseRelayServers_self {list : String}
    (hconf : (parseRelayList P.toUnicode list).1 = s.relayServers0)
    (hlive : (parseRelayList P.toUnicode list).1 = s.relayServers.live) :
    s.parseRelayServers P list = s := by
  have hset : s.relayServers.setLive (parseRelayList P.toUnicode list).1 = s.relayServers := by
    rw [hlive]
    rfl
  unfold parseRelayServers
  dsimp only
  rw [hset, hconf]

/-- One command, by what it queues. -/
theorem runCommand_cases (s : Hbbs) (e : RelaySelector.ConsoleEnv) (c : Command)
    (args : List String) :
    (∃ list rest, c = .relayServers ∧ args = list :: rest ∧ (s.runCommand P e c args).1 = s ∧
        (s.runCommand P e c args).2.1 = [.relayServers0 list]) ∨
      (∃ arg rest, c = .alwaysUseRelay ∧ args = arg :: rest ∧
        (s.runCommand P e c args).1 =
          { s with srv := { s.srv with alwaysUseRelay := decide (P.toUppercase arg = "Y") } } ∧
        (s.runCommand P e c args).2.1 = [.relayServers0 arg]) ∨
      ((c = .relayServers ∨ c = .alwaysUseRelay → args = []) ∧
        (s.runCommand P e c args).1.relayServers0 = s.relayServers0 ∧
        (s.runCommand P e c args).1.relayServers = s.relayServers ∧
        (s.runCommand P e c args).2.1 = []) := by
  cases c with
  | relayServers =>
    cases args with
    | nil => exact Or.inr (Or.inr ⟨fun _ => rfl, rfl, rfl, rfl⟩)
    | cons list rest => exact Or.inl ⟨list, rest, rfl, rfl, rfl, rfl⟩
  | alwaysUseRelay =>
    cases args with
    | nil => exact Or.inr (Or.inr ⟨fun _ => rfl, rfl, rfl, rfl⟩)
    | cons arg rest => exact Or.inr (Or.inl ⟨arg, rest, rfl, rfl, rfl, rfl⟩)
  | mustLogin =>
    cases args with
    | nil => exact Or.inr (Or.inr ⟨fun _ => rfl, rfl, rfl, rfl⟩)
    | cons v rest => exact Or.inr (Or.inr ⟨fun h => by simp at h, rfl, rfl, rfl⟩)
  | _ => exact Or.inr (Or.inr ⟨fun h => by simp at h, rfl, rfl, rfl⟩)

/-- **What a line does to the relay lists**: it is one of the two commands that queue a
list, or it queues nothing and leaves them alone. -/
theorem checkCmd_cases (P : Platform) (s : Hbbs) (e : RelaySelector.ConsoleEnv) (cmd : String) :
    (∃ list, argOf .relayServers cmd = some list ∧ (s.checkCmd P e cmd).1 = s ∧
        (s.checkCmd P e cmd).2.1 = [.relayServers0 list]) ∨
      (∃ arg, argOf .alwaysUseRelay cmd = some arg ∧
        (s.checkCmd P e cmd).1 =
          { s with srv := { s.srv with alwaysUseRelay := decide (P.toUppercase arg = "Y") } } ∧
        (s.checkCmd P e cmd).2.1 = [.relayServers0 arg]) ∨
      (argOf .alwaysUseRelay cmd = none ∧
        (s.checkCmd P e cmd).1.relayServers0 = s.relayServers0 ∧
        (s.checkCmd P e cmd).1.relayServers.live = s.relayServers.live ∧
        (s.checkCmd P e cmd).2.1 = []) := by
  cases hcon : s.relayServers.console P e cmd with
  | some r =>
    -- a command of the relay selector
    obtain ⟨sel, res⟩ := r
    obtain ⟨name, args, hsplit, hname⟩ := RelaySelector.console_name P hcon
    have hnone : argOf .alwaysUseRelay cmd = none := by
      refine argOf_eq_none ?_
      intro name' args' heq hn
      rw [hsplit, List.cons.injEq] at heq
      rw [← heq.1] at hn
      simp only [Command.names, List.mem_cons, List.not_mem_nil, or_false] at hname hn
      rcases hn with rfl | rfl <;> simp at hname
    simp only [checkCmd, hcon]
    exact Or.inr (Or.inr ⟨hnone, trivial, RelaySelector.live_console P hcon, trivial⟩)
  | none =>
    simp only [checkCmd, hcon]
    cases hsplit : Text.split ' ' (Text.trim cmd) with
    | nil =>
      refine Or.inr (Or.inr ⟨argOf_eq_none fun name args heq => ?_, rfl, rfl, rfl⟩)
      rw [hsplit] at heq
      cases heq
    | cons name args =>
      cases hc : Command.ofName name with
      | none =>
        simp only [hc]
        refine Or.inr (Or.inr ⟨argOf_eq_none fun name' args' heq hn => ?_, trivial, trivial, trivial⟩)
        rw [hsplit, List.cons.injEq] at heq
        rw [← heq.1] at hn
        rw [Command.ofName_alwaysUseRelay hn] at hc
        cases hc
      | some c =>
        have hmem := Command.mem_names hc
        simp only [hc]
        rcases runCommand_cases (P := P) s e c args with
          ⟨list, rest, rfl, rfl, h1, h2⟩ | ⟨arg, rest, rfl, rfl, h1, h2⟩ | ⟨hargs, h1, h2, h3⟩
        · exact Or.inl ⟨list, argOf_cons hsplit hmem, h1, h2⟩
        · exact Or.inr (Or.inl ⟨arg, argOf_cons hsplit hmem, h1, h2⟩)
        · refine Or.inr (Or.inr ⟨argOf_eq_none fun name' args' heq hn => ?_, h1, by rw [h2], h3⟩)
          rw [hsplit, List.cons.injEq] at heq
          rw [← heq.1] at hn
          rw [← heq.2]
          rw [Command.ofName_alwaysUseRelay hn, Option.some.injEq] at hc
          exact hargs (Or.inr hc.symm)

end Hbbs

/-! ### The frame -/

section Frame

variable (P : Platform)

/-- A line, with everything it queued delivered, leaves the configured and the live relay
list as they were, and `always-use-relay` changes nothing but its switch. -/
def ConsoleFrame (s : Hbbs) (e : RelaySelector.ConsoleEnv) (cmd : String) : Prop :=
  (s.afterCmd P e cmd).relayServers0 = s.relayServers0 ∧
    (s.afterCmd P e cmd).relayServers.live = s.relayServers.live ∧
    ∀ arg, Hbbs.argOf .alwaysUseRelay cmd = some arg → s.afterCmd P e cmd =
      { s with srv := { s.srv with alwaysUseRelay := decide (P.toUppercase arg = "Y") } }

/-- **The console frame.**  A line other than `relay-servers` with a list leaves the relay
lists alone exactly when it is not `always-use-relay` with an argument, or when that
argument, read as a relay list, is the list that is configured and live. -/
theorem consoleFrame_iff (s : Hbbs) (e : RelaySelector.ConsoleEnv) (cmd : String)
    (hcmd : ¬Hbbs.SetsRelays cmd) :
    ConsoleFrame P s e cmd ↔ ∀ arg, Hbbs.argOf .alwaysUseRelay cmd = some arg →
      (parseRelayList P.toUnicode arg).1 = s.relayServers0 ∧
        (parseRelayList P.toUnicode arg).1 = s.relayServers.live := by
  unfold ConsoleFrame Hbbs.afterCmd
  rcases Hbbs.checkCmd_cases P s e cmd with ⟨list, harg, -⟩ | ⟨arg, harg, h1, h2⟩ |
      ⟨harg, h1, h2, h3⟩
  · exact absurd ⟨list, harg⟩ hcmd
  · -- the switch, which queues its argument as a relay list
    rw [h1, h2, harg]
    simp only [List.foldl_cons, List.foldl_nil, Hbbs.deliver,
      Hbbs.parseRelayServers_relayServers0, Hbbs.parseRelayServers_live]
    constructor
    · rintro ⟨hconf, hlive, -⟩ _ ⟨⟩
      exact ⟨hconf, hlive⟩
    · intro h
      obtain ⟨hconf, hlive⟩ := h arg rfl
      refine ⟨hconf, hlive, ?_⟩
      rintro _ ⟨⟩
      exact Hbbs.parseRelayServers_self hconf hlive
  · rw [h3, harg, List.foldl_nil]
    simp only [reduceCtorEq, false_imp_iff, implies_true, and_true, iff_true]
    exact ⟨h1, h2⟩

end Frame

/-- A server with two relays. -/
def twoRelays : Hbbs where
  srv := .start [] false false .blank
  relayServers0 := ["hk.example.com", "sh.example.com"]
  relayServers := .ofLive ["hk.example.com", "sh.example.com"]

/-- `must-login Y` keeps the relays. -/
theorem consoleFrame_iff_mustLogin : ConsoleFrame .plain twoRelays (.ok 0) "must-login Y" := by
  have hrs : Hbbs.argOf .relayServers "must-login Y" = none := by decide +kernel
  have haur : Hbbs.argOf .alwaysUseRelay "must-login Y" = none := by decide +kernel
  refine (consoleFrame_iff .plain twoRelays (.ok 0) "must-login Y" ?_).mpr fun arg harg => ?_
  · rintro ⟨list, h⟩
    rw [hrs] at h
    cases h
  · rw [haur] at harg
    cases harg

/-- `aur Y` replaces the relays by one called `Y`. -/
theorem aur_replaces_relays :
    ¬∀ (s : Hbbs) (e : RelaySelector.ConsoleEnv) (cmd : String), ¬Hbbs.SetsRelays cmd →
      ConsoleFrame .plain s e cmd := by
  intro hall
  have hrs : Hbbs.argOf .relayServers "aur Y" = none := by decide +kernel
  have hafter : (twoRelays.afterCmd .plain (.ok 0) "aur Y").relayServers0 = ["Y"] := by
    decide +kernel
  have h := (hall twoRelays (.ok 0) "aur Y" fun ⟨list, h⟩ => by rw [hrs] at h; cases h).1
  rw [hafter] at h
  exact absurd h (by decide)

end RustdeskServer
