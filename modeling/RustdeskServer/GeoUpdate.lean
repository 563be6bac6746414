import RustdeskServer.Atomic.Prog
import RustdeskServer.Net
import RustdeskServer.Text

/-!
# Keeping the GeoIP database current

`geo_update::update` fetches the newest monthly database this machine does not have yet,
checks it, and renames it over the old file; the month is recorded in a second file next
to it.  The operations are the single calls on files and the HTTP request, so that a call
can be cut between any two of them and any of them can fail.

What the server answers and which operations fail is a `GeoEnv`.  Both are given for each
month, which loses nothing: a call asks for a month at most once.

`GeoFiles` keeps two histories that no operation reads: the requests with their answers,
and what was renamed into place.

## Main definitions

* `GeoExt` — gzip, the reader of database files, and the texts of HTTP statuses.
* `GeoFiles`, `GeoOp`, `geoMachine` — the files and the operations on them.
* `label`, `previous`, `isMonth` — months and the record of one.
* `fetchMonth`, `update` — the program.
* `delivers` — what an attempt at a month comes to, as a function of the answer and of
  the operations that fail.

## Main results

* `run_fetchMonth` — **an attempt that installs nothing leaves the files alone.**
* `update_failed_iff` — **a failed update changes nothing, except when it had installed a
  file and could not record it.**
-/

namespace RustdeskServer

open Atomic

namespace Geo

/-! ### Outside code and options -/

/-- A read from a stream: bytes, or an error with its text. -/
abbrev ReadResult := Except String Bytes

/-- What `geo_update` calls outside this repository. -/
structure GeoExt where
  /-- `flate2::read::GzDecoder`: what successive reads of it give, over what successive reads
  of the compressed stream give. -/
  gunzip : List ReadResult → List ReadResult
  /-- `maxminddb::Reader::open_mmap`: the database type and the node count. -/
  openMmap : Bytes → Except String (String × ℕ)
  /-- An HTTP status as text. -/
  statusText : ℕ → String
  /-- `{:?}` of a string. -/
  debug : String → String

/-- `geo_update::Options`. -/
structure Options where
  /-- The database file. -/
  out : String
  /-- Where the monthly files are. -/
  baseUrl : String
  /-- Today's year and month. -/
  now : ℤ × ℕ
  /-- Fetch even if this month's file is already installed. -/
  force : Bool
  /-- The cap on the compressed file. -/
  maxDownloadBytes : ℕ
  /-- The cap on the unpacked file. -/
  maxUnpackedBytes : ℕ
  /-- The least number of nodes. -/
  minNodes : ℕ

/-- `Options::new`. -/
def Options.new (out baseUrl : String) (now : ℤ × ℕ) : Options :=
  ⟨out, baseUrl, now, false, 300 * 2 ^ 20, 2 ^ 30, 100000⟩

/-- `Outcome`. -/
inductive Outcome
  /-- A new file was installed. -/
  | updated (month : String)
  /-- Nothing newer is available. -/
  | upToDate (month : String)
  deriving DecidableEq

/-! ### Months -/

/-- A number in decimal, zero-padded to a width. -/
def padded (width n : ℕ) : List Char :=
  List.replicate (width - (Nat.toDigits 10 n).length) '0' ++ Nat.toDigits 10 n

/-- A signed number in decimal, zero-padded to a width that includes the sign. -/
def paddedInt (width : ℕ) : ℤ → List Char
  | .ofNat n => padded width n
  | .negSucc n => '-' :: padded (width - 1) (n + 1)

/-- `label`: `{y:04}-{m:02}`. -/
def label (month : ℤ × ℕ) : String :=
  String.ofList (paddedInt 4 month.1 ++ '-' :: padded 2 month.2)

/-- `previous`. -/
def previous (month : ℤ × ℕ) : ℤ × ℕ :=
  if month.2 ≤ 1 then (month.1 - 1, 12) else (month.1, month.2 - 1)

example : label (2026, 3) = "2026-03" := by decide
example : label (previous (0, 1)) = "-001-12" := by decide

/-- The format `installed` accepts: seven bytes, digits but for a dash in the middle.  Digits
and the dash are single bytes, so these are seven characters. -/
def isMonth : List Char → Bool
  | [a, b, c, d, x, m, n] =>
    a.isDigit && b.isDigit && c.isDigit && d.isDigit && x == '-' && m.isDigit && n.isDigit
  | _ => false

/-- What `installed` makes of the text of the record. -/
def monthOf (text : String) : Option String :=
  if isMonth (Text.trim text).toList then some (Text.trim text) else none

/-- `*h >= cand`. -/
def notOlder (h cand : String) : Bool := !Text.lt h cand

/-! ### Files and operations -/

/-- What the server does with a request. -/
inductive Response
  /-- No answer. -/
  | failed (err : String)
  /-- A status, a content length if there is one, and what reading the body gives. -/
  | answer (status : ℕ) (len : Option ℕ) (body : List ReadResult)

/-- Which operations fail while a month is tried, and with what error. -/
structure Faults where
  /-- The HTTP client cannot be built. -/
  client : Option String
  /-- `File::create` of the temporary file. -/
  create : Option String
  /-- The write number `i` of `io::copy`, which puts so many bytes down before it fails. -/
  write : ℕ → Option (String × ℕ)
  /-- `file.flush()`. -/
  flush : Option String
  /-- `file.sync_all()`. -/
  sync : Option String
  /-- Mapping the temporary file. -/
  map : Option String
  /-- `fs::rename`. -/
  rename : Option String
  /-- Opening the record for writing, which empties it. -/
  truncate : Option String
  /-- Writing the record, which puts so many bytes down before it fails. -/
  record : Option (String × ℕ)

/-- Nothing fails. -/
def Faults.clean : Faults where
  client := none
  create := none
  write := fun _ => none
  flush := none
  sync := none
  map := none
  rename := none
  truncate := none
  record := none

/-- What reaches a call from outside: the server, and the failing operations. -/
structure GeoEnv where
  /-- The server's answer for a month. -/
  respond : String → Response
  /-- What fails while a month is tried. -/
  faults : String → Faults
  /-- Reading the record fails. -/
  unreadable : Bool

/-- Every file operation succeeds. -/
def GeoEnv.server (respond : String → Response) : GeoEnv := ⟨respond, fun _ => .clean, false⟩

/-- The files, with the history of the requests and of the installed files, newest first. -/
structure GeoFiles where
  /-- The database. -/
  db : Option Bytes
  /-- `<db>.version`: its text, or `some none` if it is not UTF-8. -/
  record : Option (Option String)
  /-- `<db>.<pid>.tmp`. -/
  temp : Option Bytes
  /-- The months that were asked for, and the answers. -/
  requests : List (String × Response)
  /-- What was renamed into place, and for which month. -/
  installs : List (String × Bytes)

/-- The operations of a call. -/
inductive GeoOp
  /-- `out.is_file()`. -/
  | isFile
  /-- `fs::read_to_string(version_path(out))`. -/
  | readRecord
  /-- Building the HTTP client. -/
  | client (month : String)
  /-- The request. -/
  | get (month : String)
  /-- `fs::File::create(&tmp.0)`. -/
  | create (month : String)
  /-- The write number `i` of `io::copy`. -/
  | write (month : String) (i : ℕ) (chunk : Bytes)
  /-- `file.flush()`. -/
  | flush (month : String)
  /-- `file.sync_all()`. -/
  | sync (month : String)
  /-- `GeoDb::validate_city(&tmp.0, ..)`. -/
  | validate (month : String) (minNodes : ℕ)
  /-- `fs::rename(&tmp.0, &o.out)`. -/
  | rename (month : String)
  /-- `TempFile::drop`. -/
  | removeTemp
  /-- The first half of `fs::write(version_path(..), ..)`. -/
  | truncate (month : String)
  /-- The second half. -/
  | writeRecord (month : String)
  deriving DecidableEq

/-- What an operation answers; `Option String` is an error with its text. -/
@[reducible] def GeoOp.Res : GeoOp → Type
  | .isFile => Bool
  | .readRecord => Option String
  | .get _ => Response
  | .removeTemp => Unit
  | _ => Option String

/-- The signature of a call. -/
abbrev GeoSig : Sig := ⟨GeoOp, GeoOp.Res⟩

/-- `GeoDb::validate_city` on the content of a file. -/
def validateCity (X : GeoExt) (minNodes : ℕ) (content : Bytes) : Option String :=
  match X.openMmap content with
  | .error e => some ("not a GeoIP database: " ++ e)
  | .ok (kind, nodes) =>
    if ¬Text.containsStr "City" kind then
      some ("database type is " ++ X.debug kind ++ ", not a City database")
    else if nodes < minNodes then
      some ("only " ++ toString nodes ++ " nodes, fewer than the " ++ toString minNodes ++
        " a real City database has")
    else none

/-- The text of the record. -/
def recordText (month : String) : String := month ++ "\n"

/-- What each operation does. -/
def GeoOp.exec (X : GeoExt) (e : GeoEnv) : (o : GeoOp) → GeoFiles → GeoFiles × o.Res
  | .isFile, s => (s, s.db.isSome)
  | .readRecord, s => (s, if e.unreadable then none else s.record.join)
  | .client m, s => (s, (e.faults m).client)
  | .get m, s => ({ s with requests := (m, e.respond m) :: s.requests }, e.respond m)
  | .create m, s =>
    match (e.faults m).create with
    | some err => (s, some err)
    | none => ({ s with temp := some [] }, none)
  | .write m i chunk, s =>
    match (e.faults m).write i with
    | some (err, n) => ({ s with temp := s.temp.map (· ++ chunk.take n) }, some err)
    | none => ({ s with temp := s.temp.map (· ++ chunk) }, none)
  | .flush m, s => (s, (e.faults m).flush)
  | .sync m, s => (s, (e.faults m).sync)
  | .validate m minNodes, s =>
    (s, match (e.faults m).map with
      | some err => some ("not a GeoIP database: " ++ err)
      | none => validateCity X minNodes (s.temp.getD []))
  | .rename m, s =>
    match (e.faults m).rename with
    | some err => (s, some err)
    | none => ({ s with
        db := s.temp, temp := none, installs := (m, s.temp.getD []) :: s.installs }, none)
  | .removeTemp, s => ({ s with temp := none }, ())
  | .truncate m, s =>
    match (e.faults m).truncate with
    | some err => (s, some err)
    | none => ({ s with record := some (some "") }, none)
  | .writeRecord m, s =>
    match (e.faults m).record with
    | some (err, n) =>
      ({ s with record := some (some (String.ofList ((recordText m).toList.take n))) }, some err)
    | none => ({ s with record := some (some (recordText m)) }, none)

/-- The machine of a call. -/
def geoMachine (X : GeoExt) : Machine GeoSig GeoFiles GeoEnv := ⟨GeoOp.exec X⟩

/-! ### The program -/

/-- `installed`. -/
def installed : Prog GeoSig (Option String) :=
  .op .isFile fun isFile : Bool =>
    if isFile then .op .readRecord fun text : Option String => .ret (text.bind monthOf)
    else .ret none

/-- `Capped`: what successive reads give. -/
def capped (what : String) : ℕ → List ReadResult → List ReadResult
  | _, [] => []
  | left, .error e :: reads => .error e :: capped what left reads
  | left, .ok b :: reads =>
    if b.length > left then .error (what ++ " is larger than the limit") :: capped what left reads
    else .ok b :: capped what (left - b.length) reads

/-- The unpacked stream of a body, as `io::copy` reads it. -/
def unpacked (X : GeoExt) (o : Options) (body : List ReadResult) : List ReadResult :=
  capped "the unpacked file" o.maxUnpackedBytes
    (X.gunzip (capped "the download" o.maxDownloadBytes body))

/-- `io::copy` into the temporary file, from the write number `i` on; a read of no bytes is
the end. -/
def copyTo (month : String) : List ReadResult → ℕ → Prog GeoSig (Option String)
  | [], _ => .ret none
  | .error e :: _, _ => .ret (some e)
  | .ok [] :: _, _ => .ret none
  | .ok (b :: bs) :: reads, i =>
    .op (.write month i (b :: bs)) fun err : Option String =>
      match err with
      | some e => .ret (some e)
      | none => copyTo month reads (i + 1)

/-- `Fetched`. -/
inductive Fetched
  /-- The file is in place. -/
  | installed
  /-- There is none for the month. -/
  | notPublished
  deriving DecidableEq

/-- The address of a month's file. -/
def monthUrl (o : Options) (month : String) : String :=
  String.ofList ((o.baseUrl.toList.reverse.dropWhile (· = '/')).reverse) ++ "/dbip-city-lite-" ++
    month ++ ".mmdb.gz"

/-- The temporary file of the process `pid`. -/
def tmpPath (o : Options) (pid : ℕ) : String := o.out ++ "." ++ toString pid ++ ".tmp"

/-- `?` while the temporary file has its guard: an error, told with something in front,
removes the file. -/
def orRemove (front : String) (p : Prog GeoSig (Option String))
    (rest : Prog GeoSig (Except String Fetched)) : Prog GeoSig (Except String Fetched) := do
  match ← p with
  | some err => .op .removeTemp fun _ => .ret (.error (front ++ err))
  | none => rest

/-- `fetch_month` from `TempFile` on. -/
def install (X : GeoExt) (o : Options) (pid : ℕ) (month : String) (body : List ReadResult) :
    Prog GeoSig (Except String Fetched) :=
  orRemove ("cannot write " ++ tmpPath o pid ++ ": ")
    (.op (.create month) fun err : Option String => .ret err) <|
  orRemove (monthUrl o month ++ ": ") (copyTo month (unpacked X o body) 0) <|
  orRemove "" (.op (.flush month) fun err : Option String => .ret err) <|
  orRemove "" (.op (.sync month) fun err : Option String => .ret err) <|
  orRemove (monthUrl o month ++ ": ")
    (.op (.validate month o.minNodes) fun err : Option String => .ret err) <|
  orRemove ("cannot replace " ++ o.out ++ ": ")
    (.op (.rename month) fun err : Option String => .ret err) <|
  -- `mem::forget`: the file is in place, and nothing is left to remove
  .ret (.ok .installed)

/-- What `fetch_month` makes of an answer's head: the body to install, or a result. -/
def headOf (X : GeoExt) (o : Options) (month : String) :
    Response → Except String (Option (List ReadResult))
  | .failed e => .error (monthUrl o month ++ ": " ++ e)
  | .answer status len body =>
    if status = 404 then .ok none
    else if ¬(200 ≤ status ∧ status < 300) then
      .error (monthUrl o month ++ ": HTTP " ++ X.statusText status)
    else match len with
      | some n =>
        if n > o.maxDownloadBytes then
          .error (monthUrl o month ++ ": " ++ toString n ++ " bytes is larger than the " ++
            toString o.maxDownloadBytes ++ " byte limit")
        else .ok (some body)
      | none => .ok (some body)

/-- `fetch_month` once it has an answer. -/
def fetchBody (X : GeoExt) (o : Options) (pid : ℕ) (month : String) (resp : Response) :
    Prog GeoSig (Except String Fetched) :=
  match headOf X o month resp with
  | .error e => .ret (.error e)
  | .ok none => .ret (.ok .notPublished)
  | .ok (some body) => install X o pid month body

/-- `fetch_month`, in the process `pid`. -/
def fetchMonth (X : GeoExt) (o : Options) (pid : ℕ) (month : String) :
    Prog GeoSig (Except String Fetched) :=
  .op (.client month) fun err : Option String =>
    match err with
    | some e => .ret (.error ("cannot start an HTTP client: " ++ e))
    | none => .op (.get month) fun resp : Response => fetchBody X o pid month resp

/-- `fs::write` of the record after a file is in place. -/
def recordMonth (month : String) : Prog GeoSig (Except String Outcome) :=
  let fail (e : String) : Prog GeoSig (Except String Outcome) :=
    .ret (.error ("installed " ++ month ++ " but could not record it: " ++ e))
  .op (.truncate month) fun err : Option String =>
    match err with
    | some e => fail e
    | none =>
      .op (.writeRecord month) fun err : Option String =>
        match err with
        | some e => fail e
        | none => .ret (.ok (.updated month))

/-- The recorded month that makes a candidate superfluous. -/
def settled (o : Options) (have_ : Option String) (cand : String) : Option String :=
  if o.force then none else have_.filter fun h => notOlder h cand

/-- The loop of `update` over the months that are left. -/
def tryMonths (X : GeoExt) (o : Options) (pid : ℕ) (have_ : Option String) :
    List (ℤ × ℕ) → Prog GeoSig (Except String Outcome)
  | [] => .ret (match have_ with
    | some h => .ok (.upToDate h)
    | none => .error ("neither " ++ label o.now ++ " nor " ++ label (previous o.now) ++
        " is published at " ++ o.baseUrl))
  | month :: months =>
    match settled o have_ (label month) with
    | some h => .ret (.ok (.upToDate h))
    | none => do
      match ← fetchMonth X o pid (label month) with
      | .error e => .ret (.error e)
      | .ok .installed => recordMonth (label month)
      | .ok .notPublished => tryMonths X o pid have_ months

/-- `geo_update::update`. -/
def update (X : GeoExt) (o : Options) (pid : ℕ) : Prog GeoSig (Except String Outcome) := do
  let have_ ← installed
  tryMonths X o pid have_ [o.now, previous o.now]

/-! ### What an attempt comes to -/

section Spec

variable (X : GeoExt) (o : Options) (pid : ℕ) (e : GeoEnv)

/-- Go on unless there is an error, which is told with something in front. -/
def check (front : String) : Option String → Except String Unit
  | none => .ok ()
  | some err => .error (front ++ err)

/-- What `io::copy` writes of a stream, if no write fails. -/
def copied (f : ℕ → Option (String × ℕ)) : List ReadResult → ℕ → Except String Bytes
  | [], _ => .ok []
  | .error err :: _, _ => .error err
  | .ok [] :: _, _ => .ok []
  | .ok (b :: bs) :: reads, i =>
    match f i with
    | some (err, _) => .error err
    | none => (copied f reads (i + 1)).map ((b :: bs) ++ ·)

/-- What `validate_city` says about the content of a file, which it maps first. -/
def validation (minNodes : ℕ) (map : Option String) (content : Bytes) : Option String :=
  match map with
  | some err => some ("not a GeoIP database: " ++ err)
  | none => validateCity X minNodes content

/-- The file that an answer's body is made into. -/
def installing (month : String) (body : List ReadResult) : Except String Bytes := do
  let f := e.faults month
  check ("cannot write " ++ tmpPath o pid ++ ": ") f.create
  let b ← (copied f.write (unpacked X o body) 0).mapError (monthUrl o month ++ ": " ++ ·)
  check "" f.flush
  check "" f.sync
  check (monthUrl o month ++ ": ") (validation X o.minNodes f.map b)
  check ("cannot replace " ++ o.out ++ ": ") f.rename
  .ok b

/-- What an attempt at a month comes to: an error, no file for the month, or the file that
is put in place. -/
def attempt (month : String) : Except String (Option Bytes) := do
  check "cannot start an HTTP client: " (e.faults month).client
  match ← headOf X o month (e.respond month) with
  | none => .ok none
  | some body => some <$> installing X o pid e month body

/-- The month a call installs, and the file, given the recorded month: the first of the
months that is not superfluous and that the server has. -/
def delivered (have_ : Option String) : List (ℤ × ℕ) → Option (String × Bytes)
  | [] => none
  | month :: months =>
    match settled o have_ (label month) with
    | some _ => none
    | none =>
      match attempt X o pid e (label month) with
      | .error _ => none
      | .ok none => delivered have_ months
      | .ok (some b) => some (label month, b)

end Spec

/-- The month `installed` finds. -/
def GeoFiles.month? (s : GeoFiles) (e : GeoEnv) : Option String :=
  if s.db.isSome then (if e.unreadable then none else s.record.join).bind monthOf else none

/-- Recording a month fails. -/
def Faults.recording (f : Faults) : Bool := f.truncate.isSome || f.record.isSome

/-- What the attempt to record a month leaves of the record. -/
def Faults.recordLeft (f : Faults) (month : String) (old : Option (Option String)) :
    Option (Option String) :=
  if f.truncate.isSome then old
  else match f.record with
    | some (_, n) => some (some (String.ofList ((recordText month).toList.take n)))
    | none => some (some (recordText month))

/-! ### Uninterrupted runs -/

section Run

variable {X : GeoExt} {o : Options} {pid : ℕ} {e : GeoEnv}

@[simp] theorem geoMachine_exec (op : GeoOp) (s : GeoFiles) :
    (geoMachine X).exec e op s = op.exec X e s := rfl

/-- The copy loop appends to the temporary file what it reads, up to an error. -/
theorem run_copyTo (month : String) (reads : List ReadResult) (i : ℕ) {s : GeoFiles} {t : Bytes}
    (ht : s.temp = some t) :
    match copied (e.faults month).write reads i with
    | .ok b => (geoMachine X).run e (copyTo month reads i) s =
        ({ s with temp := some (t ++ b) }, none)
    | .error err => ∃ t', (geoMachine X).run e (copyTo month reads i) s =
        ({ s with temp := some t' }, some err) := by
  -- what an end of the loop leaves is the file as it is
  have hend : ({ s with temp := some t } : GeoFiles) = s := by rw [← ht]
  induction reads generalizing i s t with
  | nil =>
    simp only [copied, copyTo, Machine.run_ret, List.append_nil]
    rw [hend]
  | cons r reads ih =>
    rcases r with err | b
    · simp only [copied, copyTo, Machine.run_ret]
      exact ⟨t, by rw [hend]⟩
    · cases b with
      | nil =>
        simp only [copied, copyTo, Machine.run_ret, List.append_nil]
        rw [hend]
      | cons b bs =>
        simp only [copied, copyTo, Machine.run_op, geoMachine_exec, GeoOp.exec]
        cases hf : (e.faults month).write i with
        | some f =>
          simp only [ht, Option.map_some, Machine.run_ret]
          exact ⟨_, rfl⟩
        | none =>
          simp only [ht, Option.map_some]
          have hrest := ih (i + 1) (s := { s with temp := some (t ++ b :: bs) }) rfl rfl
          cases hc : copied (e.faults month).write reads (i + 1) with
          | error err =>
            rw [hc] at hrest
            exact hrest
          | ok c =>
            rw [hc] at hrest
            simpa only [Except.map, List.append_assoc] using hrest

/-- A step under the guard that fails leaves the files as they were before the temporary
file. -/
theorem run_orRemove_some {front : String} {p : Prog GeoSig (Option String)}
    {rest : Prog GeoSig (Except String Fetched)} {s u : GeoFiles} {t : Option Bytes} {err : String}
    (hp : (geoMachine X).run e p s = ({ u with temp := t }, some err)) (hs : u.temp = none) :
    (geoMachine X).run e (orRemove front p rest) s = (u, .error (front ++ err)) := by
  rw [orRemove, Machine.run_bind, hp]
  simp only [Machine.run_op, geoMachine_exec, GeoOp.exec, Machine.run_ret]
  rw [← hs]

theorem run_orRemove_none {front : String} {p : Prog GeoSig (Option String)}
    {rest : Prog GeoSig (Except String Fetched)} {s u : GeoFiles}
    (hp : (geoMachine X).run e p s = (u, none)) :
    (geoMachine X).run e (orRemove front p rest) s = (geoMachine X).run e rest u := by
  rw [orRemove, Machine.run_bind, hp]

@[simp] theorem check_none_bind {α : Type} (front : String) (k : Unit → Except String α) :
    (check front none >>= k) = k () := rfl

@[simp] theorem check_some_bind {α : Type} (front err : String) (k : Unit → Except String α) :
    (check front (some err) >>= k) = .error (front ++ err) := rfl

@[simp] theorem mapError_ok_bind {α : Type} (f : String → String) (b : Bytes)
    (k : Bytes → Except String α) : ((Except.ok b : ReadResult).mapError f >>= k) = k b := rfl

@[simp] theorem mapError_error_bind {α : Type} (f : String → String) (err : String)
    (k : Bytes → Except String α) :
    ((Except.error err : ReadResult).mapError f >>= k) = .error (f err) := rfl

/-- **Installing a body**: an error leaves the files as they were, and otherwise the database
is the whole unpacked file. -/
theorem run_install (month : String) (body : List ReadResult) {s : GeoFiles}
    (hs : s.temp = none) :
    (geoMachine X).run e (install X o pid month body) s =
      match installing X o pid e month body with
      | .error err => (s, .error err)
      | .ok b => ({ s with db := some b, installs := (month, b) :: s.installs }, .ok .installed) := by
  have hself : ({ s with temp := none } : GeoFiles) = s := by rw [← hs]
  unfold install
  simp only [installing]
  cases hcreate : (e.faults month).create with
  | some err =>
    rw [check_some_bind]
    refine run_orRemove_some (u := s) (t := none) ?_ hs
    simp [GeoOp.exec, hcreate, hself]
  | none =>
    rw [check_none_bind,
      run_orRemove_none (u := { s with temp := some [] }) (by simp [GeoOp.exec, hcreate])]
    have hcopy := @run_copyTo X e month (unpacked X o body) 0 { s with temp := some [] } [] rfl
    cases hb : copied (e.faults month).write (unpacked X o body) 0 with
    | error err =>
      rw [hb] at hcopy
      obtain ⟨t, ht⟩ := hcopy
      rw [mapError_error_bind]
      exact run_orRemove_some ht hs
    | ok b =>
      rw [hb] at hcopy
      simp only [List.nil_append] at hcopy
      rw [run_orRemove_none hcopy, mapError_ok_bind]
      cases hflush : (e.faults month).flush with
      | some err =>
        rw [check_some_bind]
        refine run_orRemove_some (u := s) (t := some b) ?_ hs
        simp [GeoOp.exec, hflush]
      | none =>
        rw [run_orRemove_none (u := { s with temp := some b }) (by simp [GeoOp.exec, hflush]),
          check_none_bind]
        cases hsync : (e.faults month).sync with
        | some err =>
          rw [check_some_bind]
          refine run_orRemove_some (u := s) (t := some b) ?_ hs
          simp [GeoOp.exec, hsync]
        | none =>
          rw [run_orRemove_none (u := { s with temp := some b }) (by simp [GeoOp.exec, hsync]),
            check_none_bind]
          have hvalidate : (geoMachine X).run e
              (.op (.validate month o.minNodes) fun err : Option String => .ret err)
              { s with temp := some b } =
              ({ s with temp := some b }, validation X o.minNodes (e.faults month).map b) := rfl
          cases hval : validation X o.minNodes (e.faults month).map b with
          | some err =>
            rw [hval] at hvalidate
            rw [check_some_bind]
            exact run_orRemove_some hvalidate hs
          | none =>
            rw [hval] at hvalidate
            rw [run_orRemove_none hvalidate, check_none_bind]
            cases hren : (e.faults month).rename with
            | some err =>
              rw [check_some_bind]
              refine run_orRemove_some (u := s) (t := some b) ?_ hs
              simp [GeoOp.exec, hren]
            | none =>
              rw [run_orRemove_none (u := { s with
                  db := some b, temp := none, installs := (month, b) :: s.installs })
                  (by simp [GeoOp.exec, hren]), check_none_bind, ← hs]
              rfl

/-- The files once a month was asked for, if it was. -/
def GeoFiles.asked (s : GeoFiles) (e : GeoEnv) (month : String) : GeoFiles :=
  match (e.faults month).client with
  | some _ => s
  | none => { s with requests := (month, e.respond month) :: s.requests }

/-- **An attempt that installs nothing leaves the files alone**; otherwise the database is
the file that was delivered. -/
theorem run_fetchMonth (month : String) {s : GeoFiles} (hs : s.temp = none) :
    (geoMachine X).run e (fetchMonth X o pid month) s =
      match attempt X o pid e month with
      | .error err => (s.asked e month, .error err)
      | .ok none => (s.asked e month, .ok .notPublished)
      | .ok (some b) =>
        ({ s.asked e month with db := some b, installs := (month, b) :: s.installs },
          .ok .installed) := by
  unfold fetchMonth attempt GeoFiles.asked
  rw [Machine.run_op]
  simp only [geoMachine_exec, GeoOp.exec]
  cases hclient : (e.faults month).client with
  | some err => rfl
  | none =>
    simp only [check_none_bind, Machine.run_op, geoMachine_exec, GeoOp.exec, fetchBody]
    cases hhead : headOf X o month (e.respond month) with
    | error err => rfl
    | ok body? =>
      cases body? with
      | none => rfl
      | some body =>
        have hinst := @run_install X o pid e month body
          { s with requests := (month, e.respond month) :: s.requests } hs
        simp only [hinst]
        cases hb : installing X o pid e month body with
        | error err => simp [bind, Except.bind, hb]
        | ok b => simp [bind, Except.bind, hb]

theorem run_installed (s : GeoFiles) : (geoMachine X).run e installed s = (s, s.month? e) := by
  unfold installed GeoFiles.month?
  cases hdb : s.db.isSome <;> simp [GeoOp.exec, hdb]

/-- What recording a month comes to. -/
theorem run_recordMonth (month : String) (s : GeoFiles) :
    ((geoMachine X).run e (recordMonth month) s).1 =
        { s with record := (e.faults month).recordLeft month s.record } ∧
      (((geoMachine X).run e (recordMonth month) s).2.isOk = !(e.faults month).recording) ∧
      ((e.faults month).recording = false →
        ((geoMachine X).run e (recordMonth month) s).2 = .ok (.updated month)) := by
  unfold recordMonth Faults.recordLeft Faults.recording
  cases htr : (e.faults month).truncate with
  | some err => simp [GeoOp.exec, htr, Except.isOk, Except.toBool]
  | none =>
    cases hrec : (e.faults month).record with
    | some f => simp [GeoOp.exec, htr, hrec, Except.isOk, Except.toBool]
    | none => simp [GeoOp.exec, htr, hrec, Except.isOk, Except.toBool]

/-- **The loop of `update`**: it leaves the files alone, or it puts the delivered file in
place and then records it. -/
theorem run_tryMonths (have_ : Option String) (months : List (ℤ × ℕ)) {s : GeoFiles}
    (hs : s.temp = none) :
    ∃ requests, match delivered X o pid e have_ months with
      | none => ((geoMachine X).run e (tryMonths X o pid have_ months) s).1 =
          { s with requests := requests }
      | some (month, b) => (geoMachine X).run e (tryMonths X o pid have_ months) s =
          (geoMachine X).run e (recordMonth month)
            { s with requests := requests, db := some b, installs := (month, b) :: s.installs } := by
  induction months generalizing s with
  | nil => exact ⟨s.requests, rfl⟩
  | cons month months ih =>
    have hasked : ∃ requests, s.asked e (label month) = { s with requests := requests } := by
      unfold GeoFiles.asked
      split
      · exact ⟨s.requests, rfl⟩
      · exact ⟨_, rfl⟩
    obtain ⟨requests, hreq⟩ := hasked
    simp only [tryMonths, delivered]
    cases hset : settled o have_ (label month) with
    | some h => exact ⟨s.requests, rfl⟩
    | none =>
      simp only
      rw [Machine.run_bind, run_fetchMonth _ hs]
      cases hatt : attempt X o pid e (label month) with
      | error err => exact ⟨requests, hreq⟩
      | ok b? =>
        cases b? with
        | none =>
          simp only [hreq]
          exact ih hs
        | some b =>
          simp only [hreq]
          exact ⟨requests, rfl⟩

/-- What a call leaves of the files, by what was delivered to it. -/
theorem run_update {s : GeoFiles} (hs : s.temp = none) :
    ∃ requests, match delivered X o pid e (s.month? e) [o.now, previous o.now] with
      | none => ((geoMachine X).run e (update X o pid) s).1 = { s with requests := requests }
      | some (month, b) => (geoMachine X).run e (update X o pid) s =
          (geoMachine X).run e (recordMonth month)
            { s with requests := requests, db := some b, installs := (month, b) :: s.installs } := by
  rw [update, Machine.run_bind, run_installed]
  exact run_tryMonths _ _ hs

/-! ### A failed update -/

/-- The database and the record are as in `s`, and there is no temporary file. -/
def Unchanged (s t : GeoFiles) : Prop := t.db = s.db ∧ t.record = s.record ∧ t.temp = none

instance (s t : GeoFiles) : Decidable (Unchanged s t) := inferInstanceAs (Decidable (_ ∧ _ ∧ _))

variable (X o pid e) in
/-- **A failed update changes nothing, except when it had installed a file and could not
record it**: whatever the server does and whichever operations fail, an update that returns
an error leaves the database, the record and no temporary file, exactly when no file was
delivered whose month could not be recorded, unless it was the one in place already and the
record was left as it was. -/
theorem update_failed_iff (db : Option Bytes) (record : Option (Option String)) :
    let s : GeoFiles := ⟨db, record, none, [], []⟩
    let r := (geoMachine X).run e (update X o pid) s
    (r.2.isOk = false → Unchanged s r.1) ↔
      ∀ month b, delivered X o pid e (s.month? e) [o.now, previous o.now] = some (month, b) →
        (e.faults month).recording = true →
        db = some b ∧ record = (e.faults month).recordLeft month record := by
  intro s r
  obtain ⟨requests, hrun⟩ := @run_update X o pid e s rfl
  cases hdel : delivered X o pid e (s.month? e) [o.now, previous o.now] with
  | none =>
    rw [hdel] at hrun
    refine iff_of_true (fun _ => ?_) (fun month b h => by cases h)
    rw [show r.1 = _ from hrun]
    exact ⟨rfl, rfl, rfl⟩
  | some del =>
    obtain ⟨month, b⟩ := del
    rw [hdel] at hrun
    obtain ⟨hstate, hok, -⟩ := @run_recordMonth X e month
      { s with requests := requests, db := some b, installs := (month, b) :: s.installs }
    have hr : r = _ := hrun
    rw [hr, hok, hstate]
    constructor
    · intro h month' b' heq hrec
      cases heq
      obtain ⟨hdb, hrecord, -⟩ := h (by rw [hrec]; rfl)
      exact ⟨hdb.symm, hrecord.symm⟩
    · intro h hfail
      obtain ⟨hdb, hrecord⟩ := h month b rfl (by simpa using hfail)
      exact ⟨hdb.symm, hrecord.symm, rfl⟩

end Run

/-- Files that are not compressed, each of them a large City database: what concrete runs
use. -/
def GeoExt.sample : GeoExt where
  gunzip := id
  openMmap := fun _ => .ok ("DBIP-City-Lite", 200000)
  statusText := fun n => toString n
  debug := fun s => s

/-- An error after the file was put in place: the record cannot be opened, and the database
is not the one from before the call. -/
theorem update_failed_changed :
    let s : GeoFiles := ⟨some [0], some (some "2026-02\n"), none, [], []⟩
    let e : GeoEnv := ⟨fun _ => .answer 200 none [.ok [1]],
      fun _ => { Faults.clean with truncate := some "No space left on device" }, false⟩
    let r := (geoMachine .sample).run e (update .sample (.new "geo.mmdb" "http://a" (2026, 3)) 1) s
    r.2.isOk = false ∧ ¬Unchanged s r.1 := by
  decide

end Geo
end RustdeskServer
