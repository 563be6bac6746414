import RustdeskServer.RelayConsole

/-!
# The numbers of the relay server

The thresholds and rates of `hbbr` are set by arguments and from the console.  The arguments are
read again whenever `io_loop` begins, which it does after each error of a listener; what was
typed before is then lost where an argument is given, and kept where none is.

`io_loop` also makes the limiter that all its sessions share, with the rate of that moment.  A
console connection changes the limiter of the loop that accepted it, and no other: after an
error of a listener the sessions of the loop before keep a limiter that the console no longer
reaches.

## Main definitions

* `Setting` — a number, with its argument and its command.
* `Hub`, `Hub.step` — the server's numbers and limiters, and what happens to them.
* `setTo`, `limitTo` — what an event says about a number, about a limiter.

## Main results

* `value_checkParams`, `value_checkCmd` — an argument and a line of the console read a number
  alike.
* `settings_last_word` — **every number is what was last said of it**, and the limiter of a loop
  what its own console connections last said of the total rate.
-/

namespace RustdeskServer

namespace Hbbr

/-- A number that is set by an argument and from the console. -/
inductive Setting
  | downgradeThreshold
  | downgradeStartCheck
  | limitSpeed
  | totalBandwidth
  | singleBandwidth
  deriving DecidableEq

namespace Setting

/-- Where the number is kept, if not in `TOTAL_BANDWIDTH`. -/
def param? : Setting → Option Param
  | downgradeThreshold => some .downgradeThreshold100
  | downgradeStartCheck => some .downgradeStartCheck
  | limitSpeed => some .limitSpeed
  | totalBandwidth => none
  | singleBandwidth => some .singleBandwidth

/-- Its argument. -/
def argName : Setting → String
  | downgradeThreshold => "DOWNGRADE_THRESHOLD"
  | downgradeStartCheck => "DOWNGRADE_START_CHECK"
  | limitSpeed => "LIMIT_SPEED"
  | totalBandwidth => "TOTAL_BANDWIDTH"
  | singleBandwidth => "SINGLE_BANDWIDTH"

/-- Its command. -/
def command : Setting → Command
  | downgradeThreshold => .downgradeThreshold
  | downgradeStartCheck => .downgradeStartCheck
  | limitSpeed => .limitSpeed
  | totalBandwidth => .totalBandwidth
  | singleBandwidth => .singleBandwidth

/-- What a text sets the number to, if to anything. -/
def read (F : Floats) : Setting → String → Option ℕ
  | downgradeThreshold, v => F.scaled 100 v
  | downgradeStartCheck, v =>
    ((Text.parseUnsigned U64_MAX v).filter (0 < ·)).map (mulU64 · 1000)
  | _, v => F.scaled (1024 * 1024) v

end Setting

/-- The number at a desk. -/
def Desk.value (d : Desk) (s : Setting) : ℕ :=
  match s.param? with
  | some p => d.st.params p
  | none => d.totalBandwidth

/-! ### Arguments and lines -/

section Desk

variable {F : Floats} {d : Desk} {s : Setting}

@[simp] theorem Desk.value_store (p : Param) (v : ℕ) :
    (d.store p v).value s = if s.param? = some p then v else d.value s := by
  unfold Desk.value
  cases s.param? with
  | none => rfl
  | some q => simp [Desk.store, Function.update_apply]

@[simp] theorem Desk.value_store? (p : Param) (v : Option ℕ) :
    (d.store? p v).value s = if s.param? = some p then v.getD (d.value s) else d.value s := by
  cases v with
  | none => simp [Desk.store?]
  | some v => simp [Desk.store?]

@[simp] theorem Desk.value_withTotal (n : ℕ) :
    ({ d with totalBandwidth := n } : Desk).value s =
      if s.param? = none then n else d.value s := by
  unfold Desk.value
  cases s.param? <;> simp

@[simp] theorem Desk.value_setList (addresses : List String) (list : ListName) :
    ({ d with st := d.st.setList addresses list } : Desk).value s = d.value s := by
  cases list <;> rfl

/-- The two functions for the time before a downgrade are one. -/
theorem startCheck_eq (text : String) (old : ℕ) :
    downgradeStartCheck text old = (Setting.downgradeStartCheck.read F text).getD old ∧
      downgradeStartCheckCmd text old =
        (Setting.downgradeStartCheck.read F text).getD old := by
  simp only [downgradeStartCheck, downgradeStartCheckCmd, Setting.read]
  cases Text.parseUnsigned U64_MAX text with
  | none => simp
  | some v =>
    by_cases hv : 0 < v
    · simp [hv, Option.filter_some]
    · simp [hv, Option.filter_some]

/-- **The arguments**: a number is what its argument says, or what it was. -/
theorem value_checkParams (F : Floats) (arg : String → String) (d : Desk) (s : Setting) :
    (checkParams F arg d).value s = (s.read F (arg s.argName)).getD (d.value s) := by
  have hstart := fun old => (startCheck_eq (F := F) (arg "DOWNGRADE_START_CHECK") old).1
  have hold : ∀ d : Desk, d.st.params .downgradeStartCheck = d.value .downgradeStartCheck :=
    fun _ => rfl
  have htotal : ∀ d : Desk, d.totalBandwidth = d.value .totalBandwidth := fun _ => rfl
  simp only [checkParams, hstart, hold, htotal, Desk.value_store, Desk.value_store?,
    Desk.value_withTotal]
  -- each number is stored once
  cases s <;> rfl

/-- One command sets the number it is for, if its argument can be read. -/
theorem value_runCommand (F : Floats) (d : Desk) (s : Setting) (c : Command)
    (args : List String) :
    (runCommand F d c args).1.value s =
      if c = s.command then (args.head?.bind (s.read F)).getD (d.value s) else d.value s := by
  have hcmd := fun v old => (startCheck_eq (F := F) v old).2
  have hold : d.st.params .downgradeStartCheck = d.value .downgradeStartCheck := rfl
  cases args with
  | nil =>
    -- a question: nothing is set
    have hsame : (runCommand F d c []).1 = d := by cases c <;> rfl
    rw [hsame]
    simp
  | cons v args =>
    cases c with
    | add list => cases s <;> simp [runCommand, Setting.command]
    | remove list =>
      rw [runCommand]
      split
      · cases s <;> simp [Setting.command]
      · cases s <;> simp [Setting.command]
    | totalBandwidth =>
      cases hv : F.scaled (1024 * 1024) v with
      | none => cases s <;> simp [runCommand, hv, Setting.command, Setting.read]
      | some n =>
        cases s <;> simp [runCommand, hv, Setting.command, Setting.read, Desk.value, Setting.param?]
    | downgradeStartCheck =>
      simp only [runCommand, hcmd, hold, Desk.value_store]
      cases s <;> rfl
    | _ =>
      simp only [runCommand, rateCmd, Desk.value_store?]
      cases s <;> rfl

/-- The limiter follows the total rate. -/
theorem speedLimit_runCommand (F : Floats) (d : Desk) (c : Command) (args : List String) :
    (runCommand F d c args).1.speedLimit =
      if c = .totalBandwidth then
        (args.head?.bind (Setting.totalBandwidth.read F)).getD d.speedLimit
      else d.speedLimit := by
  cases args with
  | nil =>
    have hsame : (runCommand F d c []).1 = d := by cases c <;> rfl
    rw [hsame]
    simp
  | cons v args =>
    cases c with
    | remove list =>
      rw [runCommand]
      split <;> rfl
    | totalBandwidth =>
      cases hv : F.scaled (1024 * 1024) v <;> simp [runCommand, hv, Setting.read]
    | downgradeThreshold =>
      simp only [runCommand, Desk.store?]
      cases F.scaled 100 v <;> rfl
    | limitSpeed =>
      simp only [runCommand, rateCmd, Desk.store?]
      cases F.scaled (1024 * 1024) v <;> rfl
    | singleBandwidth =>
      simp only [runCommand, rateCmd, Desk.store?]
      cases F.scaled (1024 * 1024) v <;> rfl
    | _ => rfl

/-- What a line says about a number: what it is from then on, or nothing. -/
def lineSets (F : Floats) (s : Setting) (cmd : String) : Option ℕ :=
  match Text.split ' ' (Text.trim cmd) with
  | name :: v :: _ => if Command.ofName name = some s.command then s.read F v else none
  | _ => none

/-- **A line of the console**: it is read as an argument is. -/
theorem value_checkCmd (F : Floats) (d : Desk) (cmd : String) (s : Setting) :
    (checkCmd F d cmd).1.value s = (lineSets F s cmd).getD (d.value s) ∧
      (checkCmd F d cmd).1.speedLimit =
        (lineSets F .totalBandwidth cmd).getD d.speedLimit := by
  unfold checkCmd lineSets
  cases Text.split ' ' (Text.trim cmd) with
  | nil => simp
  | cons name args =>
    dsimp only
    cases hname : Command.ofName name with
    | none => cases args <;> simp [hname]
    | some c =>
      dsimp only
      rw [value_runCommand, speedLimit_runCommand]
      cases args with
      | nil => simp
      | cons v rest =>
        simp only [List.head?_cons, Option.bind_some, hname, Option.some.injEq]
        refine ⟨?_, ?_⟩
        · by_cases hc : c = s.command <;> simp [hc]
        · by_cases hc : c = .totalBandwidth <;> simp [hc, Setting.command]

end Desk

/-! ### The server -/

/-- What the loops and the consoles share, and the limiters of the loops. -/
structure Hub where
  /-- Lists, settings and usage. -/
  st : State
  /-- `TOTAL_BANDWIDTH`, bit/s. -/
  totalBandwidth : ℕ
  /-- How many times `io_loop` began. -/
  loops : ℕ
  /-- The rate of the limiter of each loop. -/
  limits : ℕ → ℕ

/-- What happens to the numbers. -/
inductive HubEvent
  /-- `io_loop` begins. -/
  | begins
  /-- A console connection that the loop number `k` accepted brings a line. -/
  | line (k : ℕ) (cmd : String)

/-- The desk of a console connection of the loop number `k`. -/
def Hub.desk (h : Hub) (k : ℕ) : Desk := ⟨h.st, h.totalBandwidth, h.limits k⟩

/-- The number. -/
def Hub.value (h : Hub) (s : Setting) : ℕ := (h.desk 0).value s

section Hub

variable (F : Floats) (arg : String → String)

/-- One event. -/
def Hub.step (h : Hub) : HubEvent → Hub
  | .begins =>
    let d := checkParams F arg (h.desk h.loops)
    { st := d.st
      totalBandwidth := d.totalBandwidth
      loops := h.loops + 1
      limits := Function.update h.limits h.loops d.totalBandwidth }
  | .line k cmd =>
    let d := (checkCmd F (h.desk k) cmd).1
    { h with
      st := d.st
      totalBandwidth := d.totalBandwidth
      limits := Function.update h.limits k d.speedLimit }

/-- The hub after several events. -/
def Hub.run (h : Hub) (events : List HubEvent) : Hub := events.foldl (Hub.step F arg) h

/-- What an event says about a number. -/
def setTo (s : Setting) : HubEvent → Option ℕ
  | .begins => s.read F (arg s.argName)
  | .line _ cmd => lineSets F s cmd

/-- What an event says about the limiter of the loop number `k`, which has begun. -/
def limitTo (k : ℕ) : HubEvent → Option ℕ
  | .begins => none
  | .line k' cmd => if k' = k then lineSets F .totalBandwidth cmd else none

/-- What an event says about an address and a list. -/
def heard (list : ListName) (x : String) : HubEvent → Option Bool
  | .begins => none
  | .line _ cmd => ruling list x cmd

variable {F arg}

/-- What is asked of a hub is asked of the desk it was made from. -/
theorem Hub.value_mk (d : Desk) (loops : ℕ) (limits : ℕ → ℕ) (s : Setting) :
    (⟨d.st, d.totalBandwidth, loops, limits⟩ : Hub).value s = d.value s := by
  cases s <;> rfl

theorem Hub.value_desk (h : Hub) (k : ℕ) (s : Setting) : (h.desk k).value s = h.value s := by
  cases s <;> rfl

theorem Hub.value_step (h : Hub) (e : HubEvent) (s : Setting) :
    (h.step F arg e).value s = (setTo F arg s e).getD (h.value s) := by
  cases e with
  | begins =>
    rw [Hub.step, Hub.value_mk, value_checkParams, Hub.value_desk]
    rfl
  | line k cmd =>
    rw [Hub.step, Hub.value_mk, (value_checkCmd F (h.desk k) cmd s).1, Hub.value_desk]
    rfl

/-- The limiter of a loop that has begun. -/
theorem Hub.limits_step {k : ℕ} {h : Hub} (hk : k < h.loops) (e : HubEvent) :
    (h.step F arg e).limits k = (limitTo F k e).getD (h.limits k) := by
  cases e with
  | begins =>
    -- another loop gets a limiter of its own
    have hne : k ≠ h.loops := by omega
    rw [Hub.step]
    dsimp only
    rw [Function.update_of_ne hne]
    rfl
  | line k' cmd =>
    rw [Hub.step]
    dsimp only
    by_cases hk' : k' = k
    · subst hk'
      rw [Function.update_self, (value_checkCmd F _ cmd .totalBandwidth).2]
      simp [limitTo, Hub.desk]
    · rw [Function.update_of_ne (Ne.symm hk')]
      simp [limitTo, hk']

theorem Hub.loops_step (h : Hub) (e : HubEvent) : h.loops ≤ (h.step F arg e).loops := by
  cases e with
  | begins =>
    rw [Hub.step]
    exact Nat.le_succ _
  | line k cmd =>
    rw [Hub.step]

/-- No argument is about a list. -/
theorem checkParams_list (d : Desk) (list : ListName) :
    (checkParams F arg d).st.list list = d.st.list list := by
  rw [checkParams, Desk.store?_list]
  show (Desk.store? (Desk.store (Desk.store? d _ _) _ _) _ _).st.list list = _
  rw [Desk.store?_list, Desk.store_list, Desk.store?_list]

theorem Hub.list_step (h : Hub) (e : HubEvent) (list : ListName) (x : String) :
    decide (x ∈ (h.step F arg e).st.list list) =
      (heard list x e).getD (decide (x ∈ h.st.list list)) := by
  rw [Bool.eq_iff_iff, decide_eq_true_iff]
  cases e with
  | begins =>
    rw [Hub.step]
    dsimp only
    rw [checkParams_list]
    simp [heard, Hub.desk]
  | line k cmd =>
    rw [Hub.step]
    dsimp only
    rw [mem_list_checkCmd F (h.desk k) list x cmd]
    rfl

end Hub

/-- **Every number is what was last said of it**: by the arguments, whenever `io_loop` begins, or
by a line of any console.  The limiter of a loop has the rate that a console connection of that
very loop last gave, or the total rate from when the loop began.  And a list is as the lines
leave it, whatever loops begin. -/
theorem settings_last_word (F : Floats) (arg : String → String) (h : Hub)
    (events : List HubEvent) :
    (∀ s v, (h.run F arg events).value s = v ↔
        Plain.LastWord (setTo F arg s) v events ∨
          ((∀ e ∈ events, setTo F arg s e = none) ∧ h.value s = v)) ∧
      (∀ before after, events = before ++ .begins :: after → ∀ v,
        (h.run F arg events).limits (h.run F arg before).loops = v ↔
          Plain.LastWord (limitTo F (h.run F arg before).loops) v after ∨
            ((∀ e ∈ after, limitTo F (h.run F arg before).loops e = none) ∧
              (h.run F arg (before ++ [.begins])).value .totalBandwidth = v)) ∧
      ∀ list x, x ∈ (h.run F arg events).st.list list ↔
        Plain.LastWord (heard list x) true events ∨
          ((∀ e ∈ events, heard list x e = none) ∧ x ∈ h.st.list list) := by
  refine ⟨?_, ?_, ?_⟩
  · intro s v
    exact Plain.foldl_eq_lastWord (Hub.step F arg) (fun h => h.value s) (fun _ => True)
      (fun _ _ _ => trivial) (fun h e _ => h.value_step e s) trivial
  · rintro before after rfl v
    have hsplit : h.run F arg (before ++ .begins :: after) =
        (h.run F arg (before ++ [.begins])).run F arg after := by
      simp only [Hub.run, List.foldl_append, List.foldl_cons, List.foldl_nil]
    have hbegun : h.run F arg (before ++ [.begins]) = (h.run F arg before).step F arg .begins := by
      simp only [Hub.run, List.foldl_append, List.foldl_cons, List.foldl_nil]
    -- from here on no other loop gets the number
    rw [hsplit]
    have hlast := Plain.foldl_eq_lastWord (Hub.step F arg)
      (fun t => t.limits (h.run F arg before).loops)
      (fun t => (h.run F arg before).loops < t.loops)
      (fun t e ht => lt_of_lt_of_le ht (t.loops_step e)) (fun t e ht => Hub.limits_step ht e)
      (l := after) (s := h.run F arg (before ++ [.begins])) (v := v)
      (by rw [hbegun]; exact Nat.lt_succ_self _)
    refine hlast.trans (or_congr_right (and_congr_right fun _ => ?_))
    rw [hbegun, Hub.step]
    dsimp only
    rw [Function.update_self]
    rfl
  · intro list x
    have hlast := Plain.foldl_eq_lastWord (Hub.step F arg)
      (fun t => decide (x ∈ t.st.list list)) (fun _ => True) (fun _ _ _ => trivial)
      (fun t e _ => t.list_step e list x) (l := events) (s := h) (v := true) trivial
    rw [decide_eq_true_iff, decide_eq_true_iff] at hlast
    exact hlast

end Hbbr

end RustdeskServer
