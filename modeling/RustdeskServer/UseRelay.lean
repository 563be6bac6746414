import RustdeskServer.RelayEntries
import RustdeskServer.RelayLive
import RustdeskServer.RelayPins

/-!
# The operator's choice

`use-relay` shows, sets or clears the relay that every new session is to use, and a file
remembers it.  Whatever the command was, the choices that are held are dropped in the end;
so a question, or a name that is refused with "nothing changed", makes attempts in progress
choose again.

The file is written with the relay as it stands in the live list, and read back as the first
line that is not blank.  The entries of a live list are neither empty nor do they have white
space, so what is in memory is always what a restart would read.

## Main definitions

* `AsksOrRefused` — the command is a question, or names no relay that answers.
* `readPreferred`, `Selector.loadPreferredRelay` — reading the file.
* `Remembered` — what is in memory is what the file says.

## Main results

* `use_relay_asks_iff` — **a question changes nothing exactly when no choice is held.**
* `question_drops_choice` — a run in which a question drops a choice.
* `remembered_step` — every operation keeps memory and file the same.
* `choice_survives_restart` — **at every moment a restart gives the same preference.**
-/

namespace RustdeskServer

/-! ### A question or a refusal -/

section Asks

/-- `use-relay` with no argument, or with a name that no relay that answers has. -/
def AsksOrRefused (P : Platform) (s : RelaySelector) (arg : Option String) : Prop :=
  ∀ want ∈ arg, want ≠ "auto" ∧
    ∀ r ∈ s.live, normalize P.toUnicode r ≠ normalize P.toUnicode want

instance (P : Platform) (s : RelaySelector) (arg : Option String) :
    Decidable (AsksOrRefused P s arg) :=
  inferInstanceAs (Decidable (∀ want ∈ arg, want ≠ "auto" ∧
    ∀ r ∈ s.live, normalize P.toUnicode r ≠ normalize P.toUnicode want))

/-- The choices that are held are dropped, and nothing else. -/
theorem useRelayCommand_asks {P : Platform} {s : RelaySelector} {arg : Option String}
    (h : AsksOrRefused P s arg) (e : RelaySelector.ConsoleEnv) :
    (s.useRelayCommand P e arg).1 = { s with pins := ∅ } := by
  cases arg with
  | none => rfl
  | some want =>
    obtain ⟨hauto, hno⟩ := h want rfl
    have hnone : s.live.find? (fun r => decide
        (normalize P.toUnicode r = normalize P.toUnicode want)) = none := by
      simpa using hno
    simp only [RelaySelector.useRelayCommand, if_neg hauto, hnone]

/-- **A question changes nothing exactly when no choice is held.**  In every state that a
history leads to, `use-relay` without a name, or with one that no relay that answers has,
leaves the preferred relay, its file and the held choices as they are if and only if no
choice is held. -/
theorem use_relay_asks_iff (P : Platform) (s₀ : Selector) (history : List (Instant × SelInput))
    (e : RelaySelector.ConsoleEnv) (arg : Option String)
    (h : AsksOrRefused P (history.foldl (Selector.step P) s₀).sel arg) :
    let s := (history.foldl (Selector.step P) s₀).sel
    ((s.useRelayCommand P e arg).1.preferred = s.preferred ∧
      (s.useRelayCommand P e arg).1.pins = s.pins) ↔ s.pins = ∅ := by
  intro s
  rw [useRelayCommand_asks h]
  exact ⟨fun hsame => hsame.2.symm, fun hnone => ⟨rfl, hnone.symm⟩⟩

/-- Two relays answer, and nothing was chosen yet. -/
theorem use_relay_asks_idle :
    AsksOrRefused .plain twoAnswering.sel (some "c:1") ∧
      ((twoAnswering.sel.useRelayCommand .plain (.ok 0) (some "c:1")).1.preferred =
        twoAnswering.sel.preferred ∧
      (twoAnswering.sel.useRelayCommand .plain (.ok 0) (some "c:1")).1.pins =
        twoAnswering.sel.pins) := by
  have hasks : AsksOrRefused .plain twoAnswering.sel (some "c:1") := by decide +kernel
  exact ⟨hasks, (use_relay_asks_iff .plain twoAnswering [] (.ok 0) (some "c:1") hasks).mpr rfl⟩

/-- A choice is held when the question comes, and it is dropped. -/
theorem question_drops_choice :
    ¬∀ (history : List (Instant × SelInput)) (arg : Option String),
      AsksOrRefused .plain (history.foldl (Selector.step .plain) twoAnswering).sel arg →
      let s := (history.foldl (Selector.step .plain) twoAnswering).sel
      (s.useRelayCommand .plain (.ok 1) arg).1.preferred = s.preferred ∧
        (s.useRelayCommand .plain (.ok 1) arg).1.pins = s.pins := by
  intro hall
  obtain ⟨-, hpins⟩ := hall [(0, .pick endA endB true)] none (by decide)
  have hheld := congrArg (fun m : HashMap _ RelayPin => m.entries.length) hpins
  exact absurd hheld (by decide)

end Asks

/-! ### The file -/

/-- What `load_preferred_relay` takes from the text of the file: the first line that is not
blank. -/
def readPreferred (file : Option String) : Option String :=
  file.bind fun t =>
    (((Plain.lines t.toList).map Text.trimChars).find? fun l => l ≠ []).map String.ofList

example : readPreferred (some "\n \r\n  b:99 \nc\n") = some "b:99" := by decide +kernel

/-- `load_preferred_relay`, with the content of the file, if there is one.  What is not
UTF-8 cannot be read. -/
def Selector.loadPreferredRelay (s : Selector) (path : String) (content : Option ByteArray) :
    Selector :=
  let file := content.bind String.fromUTF8?
  { s with sel := { s.sel with preferred := ⟨readPreferred file, path, file⟩ } }

/-- The entry can stand in a relay list: it has no problem and is not empty. -/
def Listable (U : Unicode) (r : String) : Prop := relayEntryProblem U r = none ∧ r ≠ ""

/-- What is in memory is what the file says, and the relays that answer can stand in a
list. -/
structure Remembered (U : Unicode) (s : RelaySelector) : Prop where
  /-- The preferred relay. -/
  preferred : s.preferred.relay = readPreferred s.preferred.file
  /-- The live list. -/
  live : ∀ r ∈ s.live, Listable U r

section Remember

variable {P : Platform} {U : Unicode}

/-- A relay of a list that was written to the file is read back. -/
theorem Listable.read {r : String} (h : Listable U r) :
    readPreferred (some (r ++ "\n")) = some r := by
  obtain ⟨hproblem, hne⟩ := h
  have hspace := noSpace_of_problem_none hproblem
  have hlines : Plain.lines (r ++ "\n").toList = [r.toList] := by
    have hfeed : '\n' ∉ r.toList := fun hmem => absurd (hspace _ hmem) (by decide)
    have hcr : Plain.stripCr r.toList = r.toList := by
      refine if_neg fun hlast => ?_
      exact absurd (hspace _ (List.mem_of_getLast? hlast)) (by decide)
    have hjoined := @Plain.lines_joined [r.toList] (by simp) (by simpa using hfeed)
    rw [List.map_singleton, hcr] at hjoined
    rw [String.toList_append]
    simpa using hjoined
  have hnil : r.toList ≠ [] := by simpa using hne
  rw [readPreferred, Option.bind_some, hlines, List.map_singleton, Text.trimChars_of_all hspace,
    List.find?_singleton, if_pos (by simpa using hnil), Option.map_some, String.ofList_toList]

theorem LiveSource.listable {source : LiveSource} {relays : List String}
    (h : source.relays U = some relays) : ∀ r ∈ relays, Listable U r := by
  have hparse : ∀ list, ∀ r ∈ (parseRelayList U list).1, Listable U r :=
    fun list r hr => ⟨(mem_parseRelayList hr).1, (mem_parseRelayList hr).2.1⟩
  cases source with
  | configured list =>
    cases h
    exact hparse list
  | answering list p =>
    exact fun r hr => hparse list r ((checkRelayServers_sublist h).1.subset hr)

/-- **`use-relay` keeps memory and file the same**, if the file can be written. -/
theorem Remembered.useRelay {s : RelaySelector} (h : Remembered P.toUnicode s)
    {e : RelaySelector.ConsoleEnv} (hremove : e.removeFails = false) (hwrite : e.writeFails = none)
    (arg : Option String) : Remembered P.toUnicode (s.useRelayCommand P e arg).1 := by
  refine ⟨?_, h.live⟩
  cases arg with
  | none => exact h.preferred
  | some want =>
    simp only [RelaySelector.useRelayCommand]
    split
    · rw [hremove, Bool.not_false, Bool.or_true]
      rfl
    · split
      · exact h.preferred
      · next relay hfind =>
        have hlisted := h.live relay (List.mem_of_find?_eq_some hfind)
        rw [hwrite]
        exact hlisted.read.symm

/-- The list comes from `parse_relay_list`, whole or after a health check. -/
def FromList (U : Unicode) (relays : List String) : Prop :=
  ∃ source : LiveSource, source.relays U = some relays

/-- New live lists come from `parse_relay_list`, and the file can be written. -/
def FilesWork (U : Unicode) : SelInput → Prop
  | .setLive relays => FromList U relays
  | .console e _ => e.removeFails = false ∧ e.writeFails = none
  | _ => True

/-- **Every operation keeps memory and file the same.** -/
theorem remembered_step {s : Selector} {x : Instant × SelInput}
    (h : Remembered P.toUnicode s.sel) (hx : FilesWork P.toUnicode x.2) :
    Remembered P.toUnicode (s.step P x).sel := by
  obtain ⟨now, i⟩ := x
  cases i with
  | pick pa pb commit =>
    obtain ⟨pins, n, hframe⟩ := RelaySelector.pick_frame P s.sel now pa pb commit
    simp only [Selector.step, hframe]
    exact ⟨h.preferred, h.live⟩
  | setLive relays =>
    obtain ⟨source, hsource⟩ := hx
    exact ⟨h.preferred, LiveSource.listable hsource⟩
  | reload files =>
    obtain ⟨routes, geo, pins, hframe, -⟩ := s.reload_frame files
    simp only [Selector.step, hframe]
    exact ⟨h.preferred, h.live⟩
  | console e cmd =>
    simp only [Selector.step]
    split
    · next r hr =>
      rcases RelaySelector.console_cases P hr with hsame | ⟨arg, hcmd⟩
      · simp only [hsame]
        exact h
      · simp only [hcmd]
        exact h.useRelay (e := { e with now := now }) hx.1 hx.2 arg
    · exact h

theorem remembered_run {s : Selector} {history : List (Instant × SelInput)}
    (h : Remembered P.toUnicode s.sel) (hx : ∀ x ∈ history, FilesWork P.toUnicode x.2) :
    Remembered P.toUnicode (history.foldl (Selector.step P) s).sel :=
  List.foldlRecOn (motive := fun s : Selector => Remembered P.toUnicode s.sel) history _ h
    fun _ hs x hmem => remembered_step hs (hx x hmem)

/-! ### The preferred branch of a choice -/

variable (P) in
/-- The relay that answers and is the operator's choice, where there is a choice at all. -/
def preferredLive (s : RelaySelector) : Option String :=
  if 2 ≤ s.live.length then
    s.preferred.relay.bind fun want =>
      s.live.find? fun r => normalize P.toUnicode r = normalize P.toUnicode want
  else none

theorem pickFresh_reason (s : RelaySelector) (pa pb : IpAddr) (commit : Bool) :
    (s.pickFresh P pa pb commit).2.reason ≠ .preferred := by
  unfold RelaySelector.pickFresh
  dsimp only
  split
  · dsimp only
    split
    · nofun
    · split <;> nofun
  · nofun

theorem pickAmong_reason (s : RelaySelector) (now : Instant) (pa pb : IpAddr) (commit : Bool) :
    (s.pickAmong P now pa pb commit).2.reason ≠ .preferred := by
  unfold RelaySelector.pickAmong
  split
  · split
    · nofun
    · exact pickFresh_reason _ pa pb true
  · exact pickFresh_reason _ pa pb false

/-- A choice is the operator's exactly if that relay answers. -/
theorem pick_preferred (s : RelaySelector) (now : Instant) (pa pb : IpAddr) (commit : Bool) :
    (∃ relay, preferredLive P s = some relay ∧
      (s.pick P now pa pb commit).2 = ⟨relay, .preferred, []⟩) ∨
    preferredLive P s = none ∧ (s.pick P now pa pb commit).2.reason ≠ .preferred := by
  unfold RelaySelector.pick
  split
  · next hl => exact .inr ⟨by simp [preferredLive, hl], nofun⟩
  · next hl => exact .inr ⟨by simp [preferredLive, hl], nofun⟩
  · next hnil hone =>
    have hlen : 2 ≤ s.live.length := by
      match hl : s.live with
      | [] => exact absurd hl hnil
      | [r] => exact absurd hl (hone r)
      | _ :: _ :: _ => simp
    rw [preferredLive, if_pos hlen]
    split
    · next want hw =>
      rw [hw, Option.bind_some]
      split
      · next relay hf => exact .inl ⟨relay, hf, rfl⟩
      · next hf => exact .inr ⟨hf, pickAmong_reason s now pa pb commit⟩
    · next hw => exact .inr ⟨by rw [hw]; rfl, pickAmong_reason s now pa pb commit⟩

/-- What decides, and for which relay. -/
theorem pick_preferred_iff (s : RelaySelector) (now : Instant) (pa pb : IpAddr) (commit : Bool) :
    ((s.pick P now pa pb commit).2.reason = .preferred ↔ (preferredLive P s).isSome = true) ∧
      ∀ relay ∈ preferredLive P s, (s.pick P now pa pb commit).2 = ⟨relay, .preferred, []⟩ := by
  rcases pick_preferred (P := P) s now pa pb commit with ⟨relay, hrelay, hpick⟩ | ⟨hnone, hno⟩
  · rw [hrelay, hpick]
    refine ⟨iff_of_true rfl rfl, ?_⟩
    rintro _ ⟨⟩
    rfl
  · rw [hnone]
    exact ⟨iff_of_false hno Bool.false_ne_true, nofun⟩

end Remember

/-- A server that is started again: the live list is the same, and the operator's choice was
read from the file. -/
structure Restarted (s s' : RelaySelector) : Prop where
  /-- The live list. -/
  live : s'.live = s.live
  /-- The operator's choice. -/
  preferred : s'.preferred = ⟨readPreferred s.preferred.file, s.preferred.path, s.preferred.file⟩

/-- **The operator's choice survives a restart.**  Whatever the file held at the start, and
whatever operations follow, with live lists from `parse_relay_list` and a file that can be
written: the preferred relay is always what the file says.  It decides exactly if it is among two
or more that answer, and then it is the choice, as it stands in the live list.  So a server that
is started again has the same preference, and where the operator's choice decides, it decides for
the same relay. -/
theorem choice_survives_restart (P : Platform) (s₀ : Selector) (path : String)
    (content : Option ByteArray) (history : List (Instant × SelInput))
    (hstart : FromList P.toUnicode s₀.sel.live)
    (h : ∀ x ∈ history, FilesWork P.toUnicode x.2) :
    let s := (history.foldl (Selector.step P) (s₀.loadPreferredRelay path content)).sel
    s.preferred.relay = readPreferred s.preferred.file ∧
    (∀ now pa pb commit,
      ((s.pick P now pa pb commit).2.reason = .preferred ↔ (preferredLive P s).isSome = true) ∧
        ∀ relay ∈ preferredLive P s, (s.pick P now pa pb commit).2 = ⟨relay, .preferred, []⟩) ∧
    ∀ s', Restarted s s' → s'.preferred = s.preferred ∧
      ∀ now pa pb commit now' pa' pb' commit',
        ((s'.pick P now' pa' pb' commit').2.reason = .preferred ↔
          (s.pick P now pa pb commit).2.reason = .preferred) ∧
        ((s.pick P now pa pb commit).2.reason = .preferred →
          (s'.pick P now' pa' pb' commit').2 = (s.pick P now pa pb commit).2) := by
  intro s
  obtain ⟨source, hsource⟩ := hstart
  have hremembered : Remembered P.toUnicode s :=
    remembered_run (s := s₀.loadPreferredRelay path content)
      ⟨rfl, LiveSource.listable hsource⟩ h
  refine ⟨hremembered.preferred, pick_preferred_iff s, fun s' hs' => ?_⟩
  have hsame : s'.preferred = s.preferred := by
    rw [hs'.preferred, ← hremembered.preferred]
  refine ⟨hsame, fun now pa pb commit now' pa' pb' commit' => ?_⟩
  have hlive : preferredLive P s' = preferredLive P s := by
    rw [preferredLive, preferredLive, hs'.live, hsame]
  rcases pick_preferred (P := P) s now pa pb commit with ⟨relay, hrelay, hpick⟩ | ⟨hnone, hno⟩
  · rcases pick_preferred (P := P) s' now' pa' pb' commit' with
      ⟨relay', hrelay', hpick'⟩ | ⟨hnone', -⟩
    · rw [hlive, hrelay, Option.some.injEq] at hrelay'
      rw [hpick, hpick', hrelay']
      exact ⟨Iff.rfl, fun _ => rfl⟩
    · rw [hlive, hrelay] at hnone'
      cases hnone'
  · rcases pick_preferred (P := P) s' now' pa' pb' commit' with ⟨relay', hrelay', -⟩ | ⟨-, hno'⟩
    · rw [hlive, hnone] at hrelay'
      cases hrelay'
    · exact ⟨iff_of_false hno' hno, fun hyes => absurd hyes hno⟩

/-- The operator chooses the second relay, after a restart with a file that is not text. -/
def chosenSecond : List (Instant × SelInput) :=
  [(0, .setLive ["a:1", "b:1"]), (1, .console (.ok 1) "use-relay B:1"), (2, .pick endA endB true)]

theorem choice_survives_restart_second :
    (∀ x ∈ chosenSecond, FilesWork Unicode.ascii x.2) ∧
      (chosenSecond.foldl (Selector.step .plain)
        (twoAnswering.loadPreferredRelay "relay_preferred" (some ⟨#[255]⟩))).sel.preferred.relay =
          some "b:1" ∧
      ∀ s', Restarted (chosenSecond.foldl (Selector.step .plain)
          (twoAnswering.loadPreferredRelay "relay_preferred" (some ⟨#[255]⟩))).sel s' →
        s'.preferred.relay = some "b:1" := by
  have hlist : FromList Unicode.ascii ["a:1", "b:1"] := ⟨.configured "a:1,b:1", by decide +kernel⟩
  have hwork : ∀ x ∈ chosenSecond, FilesWork Unicode.ascii x.2 := by
    intro x hx
    simp only [chosenSecond, List.mem_cons, List.not_mem_nil, or_false] at hx
    rcases hx with rfl | rfl | rfl
    · exact hlist
    · exact ⟨rfl, rfl⟩
    · trivial
  have hsecond : (chosenSecond.foldl (Selector.step .plain)
      (twoAnswering.loadPreferredRelay "relay_preferred" (some ⟨#[255]⟩))).sel.preferred.relay =
        some "b:1" := by decide +kernel
  refine ⟨hwork, hsecond, fun s' hs' => ?_⟩
  have h := (choice_survives_restart .plain twoAnswering "relay_preferred" (some ⟨#[255]⟩)
    chosenSecond hlist hwork).2.2 s' hs'
  rw [h.1, hsecond]

end RustdeskServer
