import RustdeskServer.Plain.Assoc
import RustdeskServer.Text

/-!
# Where a setting comes from

Every setting becomes a variable of the process environment.  `init_args` sets them from the
file `.env`, from the file given with `--config` and from the command line, in this order and
under a name in capitals with dashes; what the process inherited keeps its own spelling.
`get_arg` looks for the name in capitals with dashes first, then for three other spellings,
and then through the whole environment.

## Main definitions

* `OsString`, `Environ`, `setVar`, `var` — the environment of a process.
* `argName`, `setArg`, `initArgs`, `getArgOpt`, `getArg` — as in the source.
* `Chosen` — the value of the highest source that sets an option.

## Main results

* `getArgOpt_setArg_of_ne` — an option is not changed by setting another.
* `getArg_precedence` — **every setting is taken from the highest source that has it.**
-/

namespace RustdeskServer

open Plain

/-! ### The environment of a process -/

/-- An `OsString`: a text, or bytes that are not one. -/
inductive OsString where
  /-- UTF-8. -/
  | text (s : String)
  /-- Bytes that are no UTF-8. -/
  | raw (bytes : List UInt8)
  deriving DecidableEq

/-- `OsString::into_string`. -/
def OsString.intoString : OsString → Option String
  | text s => some s
  | raw _ => none

/-- `OsString::to_string_lossy`; what it makes of other bytes is a parameter. -/
def OsString.toStringLossy (lossy : List UInt8 → String) : OsString → String
  | text s => s
  | raw b => lossy b

/-- The environment: names with their values.  Nothing keeps a process from inheriting two
variables of one name. -/
abbrev Environ := List (OsString × OsString)

/-- `std::env::set_var` panics for other names and values. -/
def settable (k v : String) : Bool :=
  !k.isEmpty && !Text.contains '=' k && !Text.contains (Char.ofNat 0) k &&
    !Text.contains (Char.ofNat 0) v

/-- `std::env::set_var`; `none` is a panic. -/
def setVar (k v : String) (env : Environ) : Option Environ :=
  if settable k v then some (put (.text k) (.text v) env) else none

/-- `std::env::var`. -/
def var (k : String) (env : Environ) : Option String :=
  (env.lookup (.text k)).bind OsString.intoString

/-! ### The functions of the source -/

section

variable (U : Unicode)

/-- `arg_name`. -/
def argName (name : String) : String := Text.replaceChar '_' '-' (U.toUppercase name)

/-- `set_arg`. -/
def setArg (name value : String) (env : Environ) : Option Environ :=
  setVar (argName U name) value env

/-- `set_arg` for the entries of a section, or for those of the command line. -/
def setArgs (entries : List (String × String)) (env : Environ) : Option Environ :=
  entries.foldlM (fun env e => setArg U e.1 e.2 env) env

/-- `ArgMatches::value_of`, before it asks for a text. -/
def valueOf (args : List (String × List OsString)) (name : String) : Option OsString :=
  (args.lookup name).bind List.head?

/-- The entries `init_args` takes from `.env`.  `load` is `Ini::load_from_file` and the
section without a name: its entries in order, or `none` if there is no such file or section. -/
def dotEnv (load : String → Option (List (String × String))) : List (String × String) :=
  (load ".env").getD []

/-- Those it takes from the file given with `--config`. -/
def configEntries (load : String → Option (List (String × String)))
    (args : List (String × List OsString)) : List (String × String) :=
  match valueOf args "config" with
  | some (.text config) => (load config).getD []
  | _ => []

/-- Those it takes from the command line, in the order of the map they are in. -/
def flagEntries (lossy : List UInt8 → String) (args : List (String × List OsString)) :
    List (String × String) :=
  args.filterMap fun a => a.2.head?.map fun v => (a.1, v.toStringLossy lossy)

/-- `init_args`, once the command line is parsed; `none` is a panic. -/
def initArgs (lossy : List UInt8 → String) (load : String → Option (List (String × String)))
    (args : List (String × List OsString)) (env : Environ) : Option Environ := do
  let env ← setArgs U (dotEnv load) env
  let env ← match valueOf args "config" with
    -- `value_of` expects a text
    | some (.raw _) => none
    | _ => setArgs U (configEntries load args) env
  setArgs U (flagEntries lossy args) env

/-- What the scan of `get_arg_opt` keeps of a variable. -/
def aliasOf (dashed : String) (e : OsString × OsString) : Option (String × String) := do
  let key ← e.1.intoString
  if argName U key = dashed then
    let value ← e.2.intoString
    return (key, value)
  else none

/-- The spellings that it tries first. -/
def spellings (name : String) : List String :=
  let dashed := argName U name
  let underscored := Text.replaceChar '-' '_' dashed
  let lowerDashed := U.toLowercase dashed
  let lowerUnderscored := U.toLowercase underscored
  [dashed, underscored, lowerDashed, lowerUnderscored]

/-- `get_arg_opt`. -/
def getArgOpt (name : String) (env : Environ) : Option String :=
  match (spellings U name).findSome? (var · env) with
  | some value => some value
  | none =>
    let aliases := env.filterMap (aliasOf U (argName U name))
    let aliases := aliases.mergeSort fun a b => !Text.lt b.1 a.1
    aliases.head?.map Prod.snd

/-- `get_arg`. -/
def getArg (name : String) (env : Environ) : String := (getArgOpt U name env).getD ""

end

/-! ### Names in ASCII

On ASCII, case mapping goes character by character, and so does `arg_name`.  All four
spellings that `get_arg_opt` tries first have the name it is asked for. -/

/-- A name of an option, in any spelling: ASCII, and a name a variable can have. -/
def IsName (s : String) : Prop :=
  s.toList ≠ [] ∧ ∀ c ∈ s.toList, c.toNat < 128 ∧ c ≠ '=' ∧ c ≠ Char.ofNat 0

instance (s : String) : Decidable (IsName s) :=
  @instDecidableAnd _ _ (inferInstanceAs (Decidable (s.toList ≠ [])))
    (List.decidableBAll _ s.toList)

/-- All characters are ASCII. -/
def Ascii (s : String) : Prop := ∀ c ∈ s.toList, c.toNat < 128

theorem IsName.ascii {s : String} (h : IsName s) : Ascii s := fun c hc => (h.2 c hc).1

/-- What the Unicode tables say about ASCII. -/
structure Unicode.MapsAscii (U : Unicode) : Prop where
  /-- Capitals. -/
  upper : ∀ s, Ascii s → U.toUppercase s = String.ofList (s.toList.map Char.toUpper)
  /-- Small letters. -/
  lower : ∀ s, Ascii s → U.toLowercase s = String.ofList (s.toList.map Char.toLower)

/-- What `arg_name` makes of a character. -/
def canon (c : Char) : Char := if c.toUpper = '_' then '-' else c.toUpper

/-- An underscore for a dash. -/
def under (c : Char) : Char := if c = '-' then '_' else c

/-- A property of all ASCII characters is checked one by one. -/
theorem forall_ascii {P : Char → Prop} (h : ∀ n : Fin 128, P (Char.ofNat n)) {c : Char}
    (hc : c.toNat < 128) : P c := by
  have hn := h ⟨c.toNat, hc⟩
  rwa [Char.ofNat_toNat] at hn

/-- A change of spelling: the character keeps its name. -/
def Respells (f : Char → Char) : Prop :=
  ∀ c : Char, c.toNat < 128 → (f c).toNat < 128 ∧ canon (f c) = canon c

theorem respells_canon : Respells canon := by
  intro c hc
  exact @forall_ascii (fun c => (canon c).toNat < 128 ∧ canon (canon c) = canon c)
    (by decide) c hc

theorem respells_under : Respells under := by
  intro c hc
  exact @forall_ascii (fun c => (under c).toNat < 128 ∧ canon (under c) = canon c)
    (by decide) c hc

theorem respells_toLower : Respells Char.toLower := by
  intro c hc
  exact @forall_ascii (fun c => c.toLower.toNat < 128 ∧ canon c.toLower = canon c)
    (by decide) c hc

section

variable {U : Unicode} (hU : U.MapsAscii)
include hU

theorem argName_eq {s : String} (h : Ascii s) :
    argName U s = String.ofList (s.toList.map canon) := by
  rw [argName, Text.replaceChar, hU.upper s h, String.toList_ofList, List.map_map]
  rfl

/-- A text in another spelling has the same name, and is ASCII again. -/
theorem argName_respell {f : Char → Char} (hf : Respells f) {s : String} (h : Ascii s) :
    Ascii (String.ofList (s.toList.map f)) ∧
      argName U (String.ofList (s.toList.map f)) = argName U s := by
  have hascii : Ascii (String.ofList (s.toList.map f)) := by
    intro c hc
    rw [String.toList_ofList, List.mem_map] at hc
    obtain ⟨c', hc', rfl⟩ := hc
    exact (hf c' (h c' hc')).1
  refine ⟨hascii, ?_⟩
  rw [argName_eq hU hascii, argName_eq hU h, String.toList_ofList, List.map_map]
  congr 1
  exact List.map_congr_left fun c hc => (hf c (h c hc)).2

theorem argName_dashed {s : String} (h : Ascii s) :
    Ascii (argName U s) ∧ argName U (argName U s) = argName U s := by
  rw [argName_eq hU h]
  exact ⟨(argName_respell hU respells_canon h).1,
    (argName_respell hU respells_canon h).2.trans (argName_eq hU h)⟩

theorem argName_underscored {s : String} (h : Ascii s) :
    Ascii (Text.replaceChar '-' '_' s) ∧
      argName U (Text.replaceChar '-' '_' s) = argName U s :=
  argName_respell hU respells_under h

theorem argName_lower {s : String} (h : Ascii s) :
    argName U (U.toLowercase s) = argName U s := by
  rw [hU.lower s h]
  exact (argName_respell hU respells_toLower h).2

/-- The spellings that are tried first all have the name. -/
theorem argName_spellings {name a : String} (h : Ascii name)
    (ha : a ∈ spellings U name) : argName U a = argName U name := by
  obtain ⟨hascii, hdashed⟩ := argName_dashed hU h
  obtain ⟨hascii', hunder⟩ := argName_underscored hU hascii
  simp only [spellings, List.mem_cons, List.not_mem_nil, or_false] at ha
  rcases ha with rfl | rfl | rfl | rfl
  · exact hdashed
  · exact hunder.trans hdashed
  · exact (argName_lower hU hascii).trans hdashed
  · exact (argName_lower hU hascii').trans (hunder.trans hdashed)

/-! ### Setting and getting -/

omit hU in
theorem setArg_eq_some {k v : String} {env env' : Environ} (h : setArg U k v env = some env') :
    env' = put (.text (argName U k)) (.text v) env := by
  unfold setArg setVar at h
  split at h
  · exact (Option.some.inj h).symm
  · cases h

omit hU in
/-- An option that was set has its value. -/
theorem getArgOpt_setArg_of_eq {k v name : String} {env env' : Environ}
    (h : setArg U k v env = some env') (heq : argName U k = argName U name) :
    getArgOpt U name env' = some v := by
  have hvar : var (argName U name) env' = some v := by
    rw [setArg_eq_some h, var, ← heq, lookup_put_self]
    rfl
  simp [getArgOpt, spellings, hvar]

/-- **Setting an option does not change another.** -/
theorem getArgOpt_setArg_of_ne {k v name : String} {env env' : Environ} (hk : Ascii k)
    (hname : Ascii name) (h : setArg U k v env = some env')
    (hne : argName U k ≠ argName U name) : getArgOpt U name env' = getArgOpt U name env := by
  have hself : argName U (argName U k) ≠ argName U name := by
    rwa [(argName_dashed hU hk).2]
  obtain rfl := setArg_eq_some h
  -- neither one of the four spellings nor the scan meets the variable that was set
  have hvar : (spellings U name).findSome? (var · (put (.text (argName U k)) (.text v) env)) =
      (spellings U name).findSome? (var · env) := by
    rw [← List.head?_filterMap, ← List.head?_filterMap]
    congr 1
    apply List.filterMap_congr
    intro a ha
    have hname' := argName_spellings hU hname ha
    have hdiff : OsString.text a ≠ OsString.text (argName U k) := by
      intro e
      rw [OsString.text.injEq] at e
      exact hself (e ▸ hname')
    rw [var, var, lookup_put_of_ne hdiff]
  have hscan : (put (.text (argName U k)) (.text v) env).filterMap (aliasOf U (argName U name)) =
      env.filterMap (aliasOf U (argName U name)) := by
    apply filterMap_put
    intro w
    simp [aliasOf, OsString.intoString, hself]
  rw [getArgOpt, getArgOpt, hvar, hscan]

/-- A variable has the name of an option, and a value. -/
def Inherits (U : Unicode) (env : Environ) (option value : String) : Prop :=
  ∃ key, (OsString.text key, OsString.text value) ∈ env ∧ argName U key = option

omit hU in
theorem aliasOf_eq_some_iff {option : String} {e : OsString × OsString} {p : String × String} :
    aliasOf U option e = some p ↔
      e = (OsString.text p.1, OsString.text p.2) ∧ argName U p.1 = option := by
  obtain ⟨k, v⟩ := e
  obtain ⟨key, value⟩ := p
  cases k with
  | raw b => simp [aliasOf, OsString.intoString]
  | text k' =>
    cases v with
    | raw b => simp [aliasOf, OsString.intoString]
    | text v' =>
      simp only [aliasOf, OsString.intoString, Option.bind_eq_bind, Option.bind_some,
        Option.pure_def, Prod.mk.injEq, OsString.text.injEq]
      split
      · next h => simp; grind
      · next h => simp; grind

omit hU in
theorem var_eq_some {a v : String} {env : Environ} (h : var a env = some v) :
    (OsString.text a, OsString.text v) ∈ env := by
  rw [var, Option.bind_eq_some_iff] at h
  obtain ⟨x, hx, hv⟩ := h
  cases x with
  | raw b => cases hv
  | text s =>
    obtain rfl : s = v := Option.some.inj hv
    obtain ⟨l₁, l₂, rfl, -⟩ := List.lookup_eq_some_iff.mp hx
    simp

/-- What is found is the value of a variable with that name. -/
theorem getArgOpt_eq_some {name v : String} {env : Environ} (hname : Ascii name)
    (h : getArgOpt U name env = some v) : Inherits U env (argName U name) v := by
  unfold getArgOpt at h
  split at h
  · next value hfind =>
    obtain rfl : value = v := Option.some.inj h
    obtain ⟨a, ha, hvar⟩ := List.exists_of_findSome?_eq_some hfind
    exact ⟨a, var_eq_some hvar, argName_spellings hU hname ha⟩
  · rw [Option.map_eq_some_iff] at h
    obtain ⟨p, hhead, rfl⟩ := h
    have hmem : p ∈ env.filterMap (aliasOf U (argName U name)) :=
      List.mem_mergeSort.mp (List.mem_of_mem_head? hhead)
    rw [List.mem_filterMap] at hmem
    obtain ⟨e, he, hp⟩ := hmem
    obtain ⟨rfl, heq⟩ := aliasOf_eq_some_iff.mp hp
    exact ⟨p.1, he, heq⟩

omit hU in
/-- If nothing is found, there is none. -/
theorem getArgOpt_eq_none {name : String} {env : Environ} (h : getArgOpt U name env = none)
    (v : String) : ¬Inherits U env (argName U name) v := by
  rintro ⟨key, hmem, heq⟩
  have hkept : (key, v) ∈ env.filterMap (aliasOf U (argName U name)) :=
    List.mem_filterMap.mpr ⟨_, hmem, aliasOf_eq_some_iff.mpr ⟨rfl, heq⟩⟩
  unfold getArgOpt at h
  split at h
  · cases h
  · rw [Option.map_eq_none_iff, List.head?_eq_none_iff] at h
    exact List.eq_nil_iff_forall_not_mem.mp h (key, v) (List.mem_mergeSort.mpr hkept)

/-! ### A source, entry by entry -/

/-- The value of the last entry that sets an option. -/
def lastValue (U : Unicode) (option : String) (entries : List (String × String)) :
    Option String :=
  (entries.filter fun e => argName U e.1 = option).getLast?.map Prod.snd

omit hU in
theorem setArgs_cons (e : String × String) (l : List (String × String)) (env : Environ) :
    setArgs U (e :: l) env = (setArg U e.1 e.2 env).bind (setArgs U l) := rfl

omit hU in
theorem setArgs_append (l l' : List (String × String)) (env : Environ) :
    setArgs U (l ++ l') env = (setArgs U l env).bind (setArgs U l') :=
  List.foldlM_append

omit hU in
theorem lastValue_append (option : String) (l l' : List (String × String)) :
    lastValue U option (l ++ l') = (lastValue U option l').or (lastValue U option l) := by
  unfold lastValue
  rw [List.filter_append, List.getLast?_append, Option.map_or]

omit hU in
theorem lastValue_cons (option : String) (e : String × String) (l : List (String × String)) :
    lastValue U option (e :: l) =
      (lastValue U option l).or (if argName U e.1 = option then some e.2 else none) := by
  rw [← List.singleton_append, lastValue_append]
  congr 1
  by_cases h : argName U e.1 = option
  · simp [lastValue, h]
  · simp [lastValue, h]

/-- The last entry of a source decides; without one, what was there before. -/
theorem getArgOpt_setArgs {entries : List (String × String)} {name : String}
    {env env' : Environ} (hnames : ∀ e ∈ entries, Ascii e.1) (hname : Ascii name)
    (h : setArgs U entries env = some env') :
    getArgOpt U name env' =
      (lastValue U (argName U name) entries).or (getArgOpt U name env) := by
  induction entries generalizing env with
  | nil =>
    obtain rfl : env = env' := Option.some.inj h
    rfl
  | cons e l ih =>
    rw [setArgs_cons, Option.bind_eq_some_iff] at h
    obtain ⟨env₁, hset, hrest⟩ := h
    rw [ih (fun e' he' => hnames e' (List.mem_cons_of_mem _ he')) hrest, lastValue_cons,
      Option.or_assoc]
    congr 1
    split
    · next heq => rw [getArgOpt_setArg_of_eq hset heq, Option.some_or]
    · next hne =>
      rw [Option.none_or]
      exact getArgOpt_setArg_of_ne hU (hnames e List.mem_cons_self) hname hset hne

/-- A name that is a name of an option can be set, whatever its spelling. -/
theorem settable_argName {k : String} (hk : IsName k) (v : String) :
    settable (argName U k) v = true ↔ Char.ofNat 0 ∉ v.toList := by
  have hkept : ∀ c ∈ (argName U k).toList, c ≠ '=' ∧ c ≠ Char.ofNat 0 := by
    intro c hc
    rw [argName_eq hU hk.ascii, String.toList_ofList, List.mem_map] at hc
    obtain ⟨c', hc', rfl⟩ := hc
    exact @forall_ascii (fun c => c ≠ '=' ∧ c ≠ Char.ofNat 0 → canon c ≠ '=' ∧
      canon c ≠ Char.ofNat 0) (by decide) c' (hk.2 c' hc').1 (hk.2 c' hc').2
  have hne : (argName U k).toList ≠ [] := by
    rw [argName_eq hU hk.ascii, String.toList_ofList]
    simpa using hk.1
  have hempty : (argName U k).isEmpty = false := by
    simpa [← String.toList_eq_nil_iff] using hne
  have heq : '=' ∉ (argName U k).toList := fun hc => (hkept _ hc).1 rfl
  have hnul : Char.ofNat 0 ∉ (argName U k).toList := fun hc => (hkept _ hc).2 rfl
  simp [settable, Text.contains, hempty, heq, hnul]

/-- `set_arg` panics just for a value with a NUL. -/
theorem setArgs_eq_none_iff {entries : List (String × String)} {env : Environ}
    (hnames : ∀ e ∈ entries, IsName e.1) :
    setArgs U entries env = none ↔ ∃ e ∈ entries, Char.ofNat 0 ∈ e.2.toList := by
  induction entries generalizing env with
  | nil => simp [setArgs]
  | cons e l ih =>
    have hset := settable_argName hU (hnames e List.mem_cons_self) e.2
    have ih' := @ih (put (.text (argName U e.1)) (.text e.2) env)
      fun e' he' => hnames e' (List.mem_cons_of_mem _ he')
    rw [setArgs_cons, setArg, setVar, List.exists_mem_cons_iff]
    by_cases hnul : Char.ofNat 0 ∈ e.2.toList
    · have hno : ¬settable (argName U e.1) e.2 = true := fun hs => hset.mp hs hnul
      rw [if_neg hno]
      simp [hnul]
    · rw [if_pos (hset.mpr hnul)]
      simpa [hnul] using ih'

/-! ### All sources -/

/-- `init_args` panics: a value has a NUL, which an escape of the files can write, or the
name of the file is not a text. -/
def InitPanics (lossy : List UInt8 → String) (load : String → Option (List (String × String)))
    (args : List (String × List OsString)) : Prop :=
  (∃ b, valueOf args "config" = some (.raw b)) ∨
    ∃ e ∈ dotEnv load ++ configEntries load args ++ flagEntries lossy args,
      Char.ofNat 0 ∈ e.2.toList

/-- The value that `init_args` gives an option: that of the command line, or else of the last
entry of the file given with `--config`, or else of the last entry of `.env`. -/
def setValue (U : Unicode) (lossy : List UInt8 → String)
    (load : String → Option (List (String × String))) (args : List (String × List OsString))
    (option : String) : Option String :=
  (lastValue U option (flagEntries lossy args)).or
    ((lastValue U option (configEntries load args)).or (lastValue U option (dotEnv load)))

/-- The value of the highest source that sets an option. -/
inductive Chosen (U : Unicode) (lossy : List UInt8 → String)
    (load : String → Option (List (String × String))) (args : List (String × List OsString))
    (env : Environ) (option : String) : String → Prop
  /-- It is set. -/
  | set {value : String} (h : setValue U lossy load args option = some value) :
    Chosen U lossy load args env option value
  /-- It is not set, and inherited. -/
  | inherited {value : String} (h : setValue U lossy load args option = none)
    (hvar : Inherits U env option value) : Chosen U lossy load args env option value
  /-- It is neither set nor inherited. -/
  | unset (h : setValue U lossy load args option = none)
    (hvar : ∀ v, ¬Inherits U env option v) : Chosen U lossy load args env option ""

section

variable {lossy : List UInt8 → String} {load : String → Option (List (String × String))}
  {args : List (String × List OsString)} {env env' : Environ}

omit hU in
/-- The sources, one after another. -/
theorem initArgs_eq (hconfig : ∀ b, valueOf args "config" ≠ some (.raw b)) :
    initArgs U lossy load args env =
      setArgs U (dotEnv load ++ configEntries load args ++ flagEntries lossy args) env := by
  rw [setArgs_append, setArgs_append, Option.bind_assoc]
  unfold initArgs
  split
  · next b hraw => exact absurd hraw (hconfig b)
  · rfl

omit hU in
theorem initArgs_raw {b : List UInt8} (hraw : valueOf args "config" = some (.raw b)) :
    initArgs U lossy load args env = none := by
  simp [initArgs, hraw]

/-- What an option is after all sources. -/
theorem getArgOpt_initArgs {name : String} (hname : Ascii name)
    (hnames : ∀ e ∈ dotEnv load ++ configEntries load args ++ flagEntries lossy args, Ascii e.1)
    (h : initArgs U lossy load args env = some env') :
    getArgOpt U name env' =
      (setValue U lossy load args (argName U name)).or (getArgOpt U name env) := by
  have hconfig : ∀ b, valueOf args "config" ≠ some (.raw b) := by
    intro b hraw
    rw [initArgs_raw hraw] at h
    cases h
  rw [initArgs_eq hconfig] at h
  rw [getArgOpt_setArgs hU hnames hname h, lastValue_append, lastValue_append, setValue]

theorem initArgs_eq_none_iff
    (hnames : ∀ e ∈ dotEnv load ++ configEntries load args ++ flagEntries lossy args,
      IsName e.1) :
    initArgs U lossy load args env = none ↔ InitPanics lossy load args := by
  unfold InitPanics
  by_cases hraw : ∃ b, valueOf args "config" = some (.raw b)
  · obtain ⟨b, hb⟩ := hraw
    exact ⟨fun _ => .inl ⟨b, hb⟩, fun _ => initArgs_raw hb⟩
  · rw [or_iff_right hraw, initArgs_eq (not_exists.mp hraw)]
    exact setArgs_eq_none_iff hU hnames

/-- **Every setting is taken from the highest source that has it**: the command line, then
the file given with `--config`, then `.env`, then the inherited environment, however the name
is spelled in them and however it is asked for.  Setting an option never changes another. -/
theorem getArg_precedence
    (hnames : ∀ e ∈ dotEnv load ++ configEntries load args ++ flagEntries lossy args,
      IsName e.1) :
    (initArgs U lossy load args env = none ↔ InitPanics lossy load args) ∧
      (∀ env', initArgs U lossy load args env = some env' → ∀ name, IsName name →
        Chosen U lossy load args env (argName U name) (getArg U name env')) ∧
      ∀ env₁ env₂ k v name, IsName k → IsName name → argName U k ≠ argName U name →
        setArg U k v env₁ = some env₂ → getArg U name env₂ = getArg U name env₁ := by
  refine ⟨initArgs_eq_none_iff hU hnames, ?_, ?_⟩
  · intro env' h name hname
    have hget := getArgOpt_initArgs hU hname.ascii (fun e he => (hnames e he).ascii) h
    cases hset : setValue U lossy load args (argName U name) with
    | some v =>
      rw [hset, Option.some_or] at hget
      rw [getArg, hget, Option.getD_some]
      exact .set hset
    | none =>
      rw [hset, Option.none_or] at hget
      rw [getArg, hget]
      cases hinh : getArgOpt U name env with
      | some v => exact .inherited hset (getArgOpt_eq_some hU hname.ascii hinh)
      | none => exact .unset hset (getArgOpt_eq_none hinh)
  · intro env₁ env₂ k v name hk hname hne h
    rw [getArg, getArg, getArgOpt_setArg_of_ne hU hk.ascii hname.ascii h hne]

end

end

/-- A `.env` with two spellings of one option, and a file for `--config`. -/
def someFiles (path : String) : Option (List (String × String)) :=
  if path = ".env" then some [("port", "1"), ("RELAY_SERVERS", "a"), ("relay-servers", "b")]
  else if path = "hbbs.conf" then some [("Port", "2")]
  else none

/-- A command line. -/
def someFlags : List (String × List OsString) :=
  [("config", [.text "hbbs.conf"]), ("port", [.text "21120"])]

/-- An environment to inherit. -/
def someVars : Environ :=
  [(.text "port", .text "3"), (.text "Must_Login", .text "Y"), (.raw [255], .text "x")]

theorem getArg_precedence_someVars :
    (∃ env', initArgs Unicode.ascii (fun _ => "") someFiles someFlags someVars = some env' ∧
        Chosen Unicode.ascii (fun _ => "") someFiles someFlags someVars
          (argName Unicode.ascii "relay_servers") (getArg Unicode.ascii "relay_servers" env')) ∧
      (initArgs Unicode.ascii (fun _ => "") someFiles someFlags someVars).map (fun env' =>
          (getArg Unicode.ascii "PORT" env', getArg Unicode.ascii "must-login" env')) =
        some ("21120", "Y") := by
  have hascii : Unicode.ascii.MapsAscii := ⟨fun _ _ => rfl, fun _ _ => rfl⟩
  have hnames : ∀ e ∈ dotEnv someFiles ++ configEntries someFiles someFlags ++
      flagEntries (fun _ => "") someFlags, IsName e.1 := by decide +kernel
  have hall := @getArg_precedence Unicode.ascii hascii (fun _ => "") someFiles someFlags
    someVars hnames
  have hsome : (initArgs Unicode.ascii (fun _ => "") someFiles someFlags someVars).isSome =
      true := by decide +kernel
  obtain ⟨env', h⟩ := Option.isSome_iff_exists.mp hsome
  exact ⟨⟨env', h, hall.2.1 env' h "relay_servers" (by decide +kernel)⟩, by decide +kernel⟩

end RustdeskServer
