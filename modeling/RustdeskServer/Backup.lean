import RustdeskServer.Net
import RustdeskServer.Plain.FileTree

/-!
# The backup script

`tools/backup/rustdesk-backup.sh` copies the files of the folders in `DATA_DIRS` into a staging
folder and archives that.  Each data folder gets a folder of its base name below `STAGE/NAME`,
and keeps its layout there.

The copy loop is the right side of a pipeline and the left side of `|| fail`.  The first means
that nobody looks at how `find` ended; the second that `set -e` is off inside, so that a command
that fails is passed over, unless it is the last one or the script says `exit`.

An SQLite database is opened by a URI with its path in it as it is, so that a `?` or `#` in the
path ends it, and `%` with two digits is read as one character.

Paths in the staging folder are lists of names below `STAGE`, with `.` and `..` resolved; the
script makes every folder on the way itself, and no link.

## Main definitions

* `shellMatch`, `skip`, `kept` — which files are saved.
* `Tools` — how the commands get on that the script calls.
* `SrcFile`, `Folder`, `Job` — what there is to save.
* `copyFile`, `copyLoop`, `copyFolders` — the loops.
* `backup` — the files of the archive, if the script succeeds.
-/

namespace RustdeskServer
namespace Backup

open Plain

/-! ### Shell patterns -/

/-- A part of a shell pattern. -/
inductive PatItem
  /-- `*`. -/
  | any
  /-- `?`. -/
  | one
  /-- A bracket expression: negated or not, and the ranges in it. -/
  | set (negated : Bool) (ranges : List (Char × Char))
  /-- A character that stands for itself. -/
  | char (c : Char)

/-- The ranges of a bracket expression up to its `]`, and what follows it.  A `]` that comes
first stands for itself, and so does a `-` that comes last. -/
def parseRanges : Bool → List Char → Option (List (Char × Char) × List Char)
  | _, [] => none
  | first, a :: '-' :: b :: rest =>
    if a = ']' ∧ first = false then some ([], '-' :: b :: rest)
    else if b = ']' then some ([(a, a), ('-', '-')], rest)
    else (parseRanges false rest).map fun r => ((a, b) :: r.1, r.2)
  | first, a :: rest =>
    if a = ']' ∧ first = false then some ([], rest)
    else (parseRanges false rest).map fun r => ((a, a) :: r.1, r.2)

/-- The parts of a shell pattern.  Each takes at least one character, so that the length of the
text is enough `fuel`. -/
def parsePattern : ℕ → List Char → List PatItem
  | 0, _ => []
  | _, [] => []
  | n + 1, '*' :: rest => .any :: parsePattern n rest
  | n + 1, '?' :: rest => .one :: parsePattern n rest
  | n + 1, '\\' :: c :: rest => .char c :: parsePattern n rest
  | n + 1, '[' :: rest =>
    let (negated, body) := match rest with
      | '!' :: body => (true, body)
      | _ => (false, rest)
    match parseRanges true body with
    | some (ranges, rest') => .set negated ranges :: parsePattern n rest'
    | none => .char '[' :: parsePattern n rest
  | n + 1, c :: rest => .char c :: parsePattern n rest

/-- A text matches the parts of a pattern. -/
def matchItems : List PatItem → List Char → Bool
  | [], t => t.isEmpty
  | .any :: p, t => t.tails.any (matchItems p)
  | .one :: p, t => match t with
    | [] => false
    | _ :: t => matchItems p t
  | .set negated ranges :: p, t => match t with
    | [] => false
    | c :: t => (ranges.any (fun r => r.1 ≤ c && c ≤ r.2) != negated) && matchItems p t
  | .char d :: p, t => match t with
    | [] => false
    | c :: t => c == d && matchItems p t

/-- `case "$s" in $pat)`, without the classes `[:alpha:]`, `[.a.]` and `[=a=]` of a bracket
expression. -/
def shellMatch (pat s : String) : Bool :=
  matchItems (parsePattern pat.toList.length pat.toList) s.toList

example : shellMatch "*.mmdb.*" "geo.mmdb.part" = true ∧ shellMatch ".*.loaded" "x.loaded" = false ∧
    shellMatch "[!a-c]?[]]" "d1]" = true := by
  decide +kernel

/-- `skip`: the file name is excluded.  The patterns are the words of `EXCLUDE` as they are: the
shell would put file names of the working directory in the place of one that matches some. -/
def skip (exclude : List String) (base : String) : Bool :=
  exclude.any fun pat => shellMatch pat base

/-- The name of a file that is part of a live database. -/
def isLive (base : String) : Bool :=
  ["-wal", "-shm", "-journal"].any fun suffix => suffix.toList.isSuffixOf base.toList

/-- A file of this name is saved.  The name is what `basename` makes of the path below the data
folder, which is the name but for a path that begins with `-`. -/
def kept (exclude : List String) (base : String) : Bool := !skip exclude base && !isLive base

/-! ### What there is, and the commands -/

/-- `basename`: the last name of a path. -/
def basename (path : String) : String :=
  let body := (path.toList.reverse.dropWhile (· = '/')).reverse
  if body = [] ∧ path ≠ "" then "/"
  else String.ofList (body.reverse.takeWhile (· ≠ '/')).reverse

/-- A regular file in a data folder. -/
structure SrcFile where
  /-- The folders it is in, below the data folder. -/
  parents : List String
  /-- Its base name. -/
  name : String
  /-- Its content. -/
  content : Bytes
  /-- It can be read. -/
  readable : Bool
  /-- `find` comes to it: the folders it is in can be read. -/
  listed : Bool
  deriving DecidableEq

/-- Its path in the data folder. -/
def SrcFile.rel (f : SrcFile) : List String := f.parents ++ [f.name]

/-- A word of `DATA_DIRS`. -/
structure Folder where
  /-- The word. -/
  dir : String
  /-- There is a folder. -/
  present : Bool
  /-- Its files, in the order in which `find` comes to them. -/
  files : List SrcFile

/-- How `cp` gets on with a file it can read and a place it can go to. -/
inductive CpOutcome
  /-- It writes the whole file. -/
  | whole
  /-- It fails after so many bytes. -/
  | cut (n : ℕ)
  /-- It fails before it makes the file. -/
  | refused
  deriving DecidableEq

/-- How the commands get on. -/
structure Tools where
  /-- The file that SQLite opens for a URI; it makes one if there is none. -/
  openUri : String → Option String
  /-- The copy that SQLite's online backup makes of the database in a file, if it can be opened
  and its copy passes the integrity check. -/
  onlineBackup : String → Option Bytes
  /-- SQLite takes a file of this content for a database, and writes over it. -/
  isDatabase : Bytes → Bool
  /-- What becomes of `cp` from here to there. -/
  cp : String → List String → CpOutcome
  /-- `tar` writes the archive, and it reads back. -/
  tarOk : Bool

/-- The staging folder. -/
abbrev Stage := FileTree String Bytes

/-- The first bytes of an SQLite database, as far as the script looks. -/
def sqliteHead : Bytes := "SQLite format 3".toList.map fun c => UInt8.ofNat c.toNat

/-- `"$dir/$rel"`. -/
def srcPath (dir : String) (f : SrcFile) : String := dir ++ "/" ++ "/".intercalate f.rel

/-- The URI the Python part opens. -/
def sqliteUri (src : String) : String := "file:" ++ src ++ "?mode=ro"

/-! ### Copying -/

/-- `cp -p "$src" "$dst"`. -/
def cpFile (T : Tools) (src : String) (f : SrcFile) (dst : List String) (s : Stage) :
    Stage × Bool :=
  let target := s.landing dst f.name
  if !f.readable || s.isDir target || !s.isDir target.dropLast then (s, false)
  else
    match T.cp src target with
    | .whole => (s.write target f.content, true)
    | .cut n => (s.write target (f.content.take n), false)
    | .refused => (s, false)

/-- `rm -f`. -/
def rmFile (s : Stage) (p : List String) : Stage × Bool :=
  if s.isDir p then (s, false) else (s.remove p, true)

/-- The Python part: it exits with an error, or leaves the copy at `dst`. -/
def sqliteCopy (T : Tools) (src : String) (dst : List String) (s : Stage) : Option Stage :=
  if s.isDir dst || !s.isDir dst.dropLast || !(s.files.lookup dst).all T.isDatabase then none
  else ((T.openUri (sqliteUri src)).bind T.onlineBackup).map (s.write dst)

/-- The body of the loop for a file that is saved: `none` is `exit 1`, otherwise the staging
folder and the status of the last command. -/
def copyFile (T : Tools) (dir : String) (root : List String) (f : SrcFile) (s : Stage) :
    Option (Stage × Bool) :=
  let src := srcPath dir f
  let dst := root ++ f.rel
  -- whether the folder could be made is not looked at
  let s := (s.mkdirs (root ++ f.parents)).1
  if f.readable && f.content.take 15 == sqliteHead then
    (sqliteCopy T src dst s).map fun s =>
      let (s, wal) := rmFile s (root ++ f.parents ++ [f.name ++ "-wal"])
      let (s, shm) := rmFile s (root ++ f.parents ++ [f.name ++ "-shm"])
      (s, wal && shm)
  else some (cpFile T src f dst s)

/-- `while read -r rel; do .. done`, over the files that `find` comes to. -/
def copyLoop (T : Tools) (exclude : List String) (dir : String) (root : List String) :
    List SrcFile → Stage → Bool → Option (Stage × Bool)
  | [], s, status => some (s, status)
  | f :: fs, s, status =>
    if !f.listed then copyLoop T exclude dir root fs s status
    else if !kept exclude f.name then copyLoop T exclude dir root fs s true
    else
      match copyFile T dir root f s with
      | none => none
      | some (s, status) => copyLoop T exclude dir root fs s status

/-- `STAGE/NAME/label`. -/
def labelPath (name label : String) : List String :=
  if label = ".." then []
  else if label = "." ∨ label = "/" then [name]
  else [name, label]

/-- `mkdir -p "$STAGE/$NAME/$label"`. -/
def enter (name : String) (root : List String) {κ : Type} (s : FileTree String κ) :
    FileTree String κ × Bool :=
  let (s, made) := s.mkdirs [name]
  let (s, made') := s.mkdirs root
  (s, made && made')

/-- The loop over `DATA_DIRS`, with `found`. -/
def copyFolders (T : Tools) (exclude : List String) (name : String) :
    List Folder → Stage → Bool → Option (Stage × Bool)
  | [], s, found => some (s, found)
  | d :: ds, s, found =>
    if !d.present then copyFolders T exclude name ds s found
    else
      let root := labelPath name (basename d.dir)
      let (s, made) := enter name root s
      if !made then none
      else
        match copyLoop T exclude d.dir root d.files s true with
        | some (s, true) => copyFolders T exclude name ds s true
        | _ => none

/-- The path is in the folder that is archived. -/
def archived (name : String) (p : List String) : Bool := p.head? = some name

/-- The script: the files in the archive, or `none` if it fails. -/
def backup (T : Tools) (exclude : List String) (name : String) (dirs : List Folder) :
    Option (List (List String × Bytes)) :=
  match copyFolders T exclude name dirs .empty false with
  | some (s, true) =>
    if T.tarOk then some (s.files.filter fun e => archived name e.1) else none
  | _ => none

end Backup
end RustdeskServer
