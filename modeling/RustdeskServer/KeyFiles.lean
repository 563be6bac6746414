import RustdeskServer.Atomic.Rely
import RustdeskServer.Base64
import RustdeskServer.Net
import RustdeskServer.Text

/-!
# Creating and reading the server key

`gen_sk` reads the private key from `id_ed25519`, or makes one and writes it there, and in
both cases sees to it that `id_ed25519.pub` has the public key.  `hbbs` and `hbbr` run in one
directory and may call it at the same time, so the operations are the single calls on files:
between any two of them the other process may act, any of them may fail, and a call may end
at any of them.

Files are numbered; an open file stays what it is when its name goes to another.  Texts are
lists of characters; the ones written here are ASCII.

Of each file the state keeps which call created it and whether its text was written to the
end, which no operation reads.  The names are plain files: where the code follows symbolic
links, only the look at the name is left.

## Main definitions

* `KeyExt` — base64 and the public key of a secret key.
* `KeyFiles`, `KeyOp`, `keyMachine` — the files and the operations on them.
* `genSk` — the program of a call.
* `base64Ext` — a concrete `KeyExt`.
-/

namespace RustdeskServer

open Atomic

namespace Key

/-! ### Outside code -/

/-- `sign::SecretKey`. -/
abbrev SecretKey := { b : Bytes // b.length = 64 }

/-- `SecretKey::from_slice`. -/
def SecretKey.fromSlice (b : Bytes) : Option SecretKey :=
  if h : b.length = 64 then some ⟨b, h⟩ else none

@[simp] theorem SecretKey.fromSlice_val (sk : SecretKey) : SecretKey.fromSlice sk.1 = some sk := by
  rw [SecretKey.fromSlice, dif_pos sk.2]

/-- A text. -/
abbrev Chars := List Char

/-- What `gen_sk` calls outside this repository. -/
structure KeyExt where
  /-- `base64::encode`. -/
  encode : Bytes → Chars
  /-- `base64::decode`, with the text of the error. -/
  decode : Chars → Except String Bytes
  /-- `SecretKey::public_key`. -/
  publicKey : SecretKey → Bytes

/-- What `sign::gen_keypair` returns: a secret key with its public key. -/
structure KeyPair (X : KeyExt) where
  /-- The public key. -/
  pk : Bytes
  /-- The secret key. -/
  sk : SecretKey
  /-- They belong together. -/
  pk_eq : pk = X.publicKey sk

/-- An `anyhow::Error`: its texts, the outermost context first. -/
abbrev Failure := List String

/-- `{err:#}`. -/
def Failure.chain (err : Failure) : String := ": ".intercalate err

/-! ### Files and operations -/

/-- The kinds of `io::Error` that are told apart. -/
inductive ErrorKind
  /-- `NotFound`. -/
  | notFound
  /-- `AlreadyExists`. -/
  | alreadyExists
  /-- Any other. -/
  | other
  deriving DecidableEq

/-- `io::Error`. -/
structure IoError where
  /-- `kind()`. -/
  kind : ErrorKind
  /-- Its text. -/
  text : String

/-- The two names. -/
inductive Name
  /-- `id_ed25519`. -/
  | key
  /-- `id_ed25519.pub`. -/
  | pub
  deriving DecidableEq

/-- What is in a file: a text, or bytes that are not UTF-8. -/
abbrev Content := Except Bytes Chars

/-- A file: its content, the call that created it, and whether that call wrote it to the
end. -/
structure Inode where
  /-- The content. -/
  content : Content
  /-- The call that created it. -/
  creator : Option ℕ
  /-- It was written to the end. -/
  complete : Bool

/-- The directory.  Files under the two names are numbered apart. -/
structure KeyFiles where
  /-- The file that has a name. -/
  entry : Name → Option ℕ
  /-- The files. -/
  inode : Name → ℕ → Inode
  /-- Their permission bits. -/
  mode : Name → ℕ → UInt32
  /-- The number of the next file. -/
  next : ℕ

namespace KeyFiles

/-- A directory as a call may find it: each file is absent, or there with a content and
permissions. -/
def initial (files : Name → Option (Content × UInt32)) : KeyFiles where
  entry := fun n => (files n).map fun _ => 0
  inode := fun n f =>
    ⟨if f = 0 then ((files n).map Prod.fst).getD (.ok []) else .ok [], none, false⟩
  mode := fun n f => if f = 0 then ((files n).map Prod.snd).getD 0 else 0
  next := 1

/-- A file is changed. -/
def setInode (s : KeyFiles) (n : Name) (f : ℕ) (i : Inode) : KeyFiles :=
  { s with inode := Function.update s.inode n (Function.update (s.inode n) f i) }

/-- The permissions of a file are changed. -/
def chmod (s : KeyFiles) (n : Name) (f : ℕ) (m : UInt32) : KeyFiles :=
  { s with mode := Function.update s.mode n (Function.update (s.mode n) f m) }

/-- A name goes to a file, or to none. -/
def setEntry (s : KeyFiles) (n : Name) (f : Option ℕ) : KeyFiles :=
  { s with entry := Function.update s.entry n f }

/-- An empty file is added, without a name yet. -/
def add (s : KeyFiles) (n : Name) (me : ℕ) (m : UInt32) : KeyFiles :=
  { (s.setInode n s.next ⟨.ok [], some me, false⟩).chmod n s.next m with next := s.next + 1 }

/-- A part of a text is written at the end of a file. -/
def append (s : KeyFiles) (n : Name) (f : ℕ) (part : Chars) (complete : Bool) : KeyFiles :=
  s.setInode n f { s.inode n f with
    content := (s.inode n f).content.map (· ++ part)
    complete := complete }

end KeyFiles

/-- What reaches an operation from outside. -/
structure KeyEnv (X : KeyExt) where
  /-- The error it fails with. -/
  fault : Option String
  /-- How many characters a write puts down. -/
  count : ℕ
  /-- The permissions of a new file. -/
  mode : UInt32
  /-- The pair that is drawn. -/
  pair : KeyPair X

/-- The operations of a call. -/
inductive KeyOp
  /-- `Path::exists`. -/
  | isThere (n : Name)
  /-- `thread::sleep`. -/
  | sleep (ms : ℕ)
  /-- `fs::symlink_metadata`. -/
  | symlinkMetadata (n : Name)
  /-- `File::open`. -/
  | openFile (n : Name)
  /-- `file.metadata()`. -/
  | metadata (n : Name) (f : ℕ)
  /-- `file.set_permissions(..)`. -/
  | setPermissions (n : Name) (f : ℕ) (m : UInt32)
  /-- `file.read_to_string(..)`. -/
  | readToString (n : Name) (f : ℕ)
  /-- `sign::gen_keypair()`. -/
  | genKeypair
  /-- `create_new(true)` at `id_ed25519`, by the call `me`. -/
  | createKey (me : ℕ)
  /-- `create_new(true)` at a name of its own, by the call `me`. -/
  | createTemp (me : ℕ)
  /-- `file.write(..)`. -/
  | write (n : Name) (f : ℕ) (text : Chars)
  /-- `fs::remove_file` at `id_ed25519`. -/
  | removeKey
  /-- `file.sync_all()`. -/
  | syncAll (f : ℕ)
  /-- `persist_noclobber` at `id_ed25519.pub`. -/
  | persistNoclobber (f : ℕ)
  deriving DecidableEq

/-- What an operation answers; `Option` is an error. -/
@[reducible] def KeyOp.Res (X : KeyExt) : KeyOp → Type
  | .isThere _ => Bool
  | .sleep _ => Unit
  | .symlinkMetadata _ => Option String
  | .openFile _ => Except IoError ℕ
  | .metadata _ _ => Except String UInt32
  | .setPermissions _ _ _ => Option String
  | .readToString _ _ => Except String Chars
  | .genKeypair => KeyPair X
  | .createKey _ => Except IoError ℕ
  | .createTemp _ => Except String ℕ
  | .write _ _ _ => Except String ℕ
  | .removeKey => Option String
  | .syncAll _ => Option String
  | .persistNoclobber _ => Option IoError

/-- The signature of a call. -/
abbrev KeySig (X : KeyExt) : Sig := ⟨KeyOp, KeyOp.Res X⟩

/-- What each operation does. -/
def KeyOp.exec (X : KeyExt) (e : KeyEnv X) : (o : KeyOp) → KeyFiles → KeyFiles × o.Res X
  | .isThere n, s => (s, e.fault.isNone && (s.entry n).isSome)
  | .sleep _, s => (s, ())
  | .symlinkMetadata _, s => (s, e.fault)
  | .openFile n, s =>
    (s, match e.fault, s.entry n with
      | some err, _ => .error ⟨.other, err⟩
      | none, none => .error ⟨.notFound, "No such file or directory (os error 2)"⟩
      | none, some f => .ok f)
  | .metadata n f, s =>
    (s, match e.fault with
      | some err => .error err
      | none => .ok (s.mode n f))
  | .setPermissions n f m, s =>
    match e.fault with
    | some err => (s, some err)
    | none => (s.chmod n f m, none)
  | .readToString n f, s =>
    (s, match e.fault, (s.inode n f).content with
      | some err, _ => .error err
      | none, .error _ => .error "stream did not contain valid UTF-8"
      | none, .ok text => .ok text)
  | .genKeypair, s => (s, e.pair)
  | .createKey me, s =>
    match e.fault, s.entry .key with
    | some err, _ => (s, .error ⟨.other, err⟩)
    | none, some _ => (s, .error ⟨.alreadyExists, "File exists (os error 17)"⟩)
    | none, none => ((s.add .key me e.mode).setEntry .key (some s.next), .ok s.next)
  | .createTemp me, s =>
    match e.fault with
    | some err => (s, .error err)
    | none => (s.add .pub me e.mode, .ok s.next)
  | .write n f text, s =>
    match e.fault with
    | some err => (s, .error err)
    | none =>
      (s.append n f (text.take e.count) (text.length ≤ e.count), .ok (min e.count text.length))
  | .removeKey, s =>
    match e.fault with
    | some err => (s, some err)
    | none => (s.setEntry .key none, none)
  | .syncAll _, s => (s, e.fault)
  | .persistNoclobber f, s =>
    match e.fault, s.entry .pub with
    | some err, _ => (s, some ⟨.other, err⟩)
    | none, some _ => (s, some ⟨.alreadyExists, "File exists (os error 17)"⟩)
    | none, none => (s.setEntry .pub (some f), none)

/-- The machine of the calls. -/
def keyMachine (X : KeyExt) : Machine (KeySig X) KeyFiles (KeyEnv X) := ⟨KeyOp.exec X⟩

/-! ### The program -/

variable (X : KeyExt)

/-- A part of a call. -/
abbrev Call (α : Type) := Prog (KeySig X) (Except Failure α)

variable {X} {α β : Type}

/-- `?`. -/
def Call.andThen (p : Call X α) (rest : α → Call X β) : Call X β :=
  Prog.bind p fun r => match r with
    | .error err => .ret (.error err)
    | .ok a => rest a

/-- `.context(..)`. -/
def Call.context (text : String) (p : Call X α) : Call X α :=
  Prog.bind p fun r => match r with
    | .error err => .ret (.error (text :: err))
    | .ok a => .ret (.ok a)

/-- What an operation that answers with an error or nothing comes to. -/
def done : Option String → Except Failure Unit
  | some err => .error [err]
  | none => .ok ()

/-- `file.metadata()?.permissions().mode()`. -/
def metadata (n : Name) (f : ℕ) : Call X UInt32 :=
  .op (.metadata n f) fun r : Except String UInt32 => .ret (r.mapError fun err => [err])

/-- `file.set_permissions(..)`. -/
def setPermissions (n : Name) (f : ℕ) (m : UInt32) : Call X Unit :=
  .op (.setPermissions n f m) fun r : Option String => .ret (done r)

/-- `file.read_to_string(..)`. -/
def readToString (n : Name) (f : ℕ) : Call X Chars :=
  .op (.readToString n f) fun r : Except String Chars => .ret (r.mapError fun err => [err])

/-- The loop of `write_all`.  A write puts down one character or more, so that as many writes
as there are characters are enough. -/
def writeLoop (n : Name) (f : ℕ) : ℕ → Chars → Call X Unit
  | _, [] => .ret (.ok ())
  | 0, _ :: _ => .ret (.ok ())
  | fuel + 1, c :: text =>
    .op (.write n f (c :: text)) fun r : Except String ℕ =>
      match r with
      | .error err => .ret (.error [err])
      | .ok 0 => .ret (.error ["failed to write whole buffer"])
      | .ok (m + 1) => writeLoop n f fuel ((c :: text).drop (m + 1))

/-- `file.write_all(..)`. -/
def writeAll (n : Name) (f : ℕ) (text : Chars) : Call X Unit := writeLoop n f text.length text

/-- `PRIVATE_KEY_FILE_MODE`. -/
def privateKeyFileMode : UInt32 := 0o600

/-- `PERMISSION_BITS`. -/
def permissionBits : UInt32 := 0o7777

/-- `{mode:04o}`. -/
def octal (mode : UInt32) : String :=
  let digits := Nat.toDigits 8 mode.toNat
  String.ofList (List.replicate (4 - digits.length) '0' ++ digits)

/-- `resolve_key_path`, where a name is no symbolic link. -/
def resolveKeyPath (n : Name) : Call X Unit :=
  .op (.symlinkMetadata n) fun r : Option String => .ret (done r)

/-- `set_private_key_permissions`. -/
def setPrivateKeyPermissions (f : ℕ) (newlyCreated : Bool) : Call X Unit :=
  (metadata .key f).andThen fun m =>
  let mode := m &&& permissionBits
  if ¬newlyCreated ∧ mode &&& ~~~privateKeyFileMode = 0 then .ret (.ok ())
  else if newlyCreated ∧ mode &&& ~~~privateKeyFileMode ≠ 0 then
    .ret (.error ["Unsafe initial private key permissions: " ++ octal mode])
  else if mode = privateKeyFileMode then .ret (.ok ())
  else
    ((setPermissions .key f privateKeyFileMode).context
      "Failed to set private key permissions to 0600").andThen fun _ =>
    (metadata .key f).andThen fun m =>
    let mode := m &&& permissionBits
    if mode = privateKeyFileMode then .ret (.ok ())
    else .ret (.error ["Private key permissions are " ++ octal mode ++ ", expected 0600"])

/-- What `create_private_key_file` does when the new file could not be completed. -/
def removeAfter (err : Failure) : Call X Unit :=
  .op .removeKey fun r : Option String =>
    match r with
    | some e => .ret (.error ["Failed to remove id_ed25519 after " ++ err.chain, e])
    | none => .ret (.error err)

/-- `create_private_key_file`, by the call `me`. -/
def createPrivateKeyFile (me : ℕ) (contents : Chars) : Call X Unit :=
  (resolveKeyPath .key).andThen fun _ =>
  .op (.createKey me) fun r : Except IoError ℕ =>
    match r with
    | .error err => .ret (.error [err.text])
    | .ok f => do
      match ← (setPrivateKeyPermissions f true).andThen fun _ =>
          (writeAll .key f contents).context "Failed to write private key" with
      | .error err => removeAfter err
      | .ok _ => .ret (.ok ())

/-- `missing_public_key_path`: whether the public key has still to be written. -/
def missingPublicKeyPath (pk : Chars) : Call X Bool :=
  ((resolveKeyPath .pub).context "Failed to resolve public key path").andThen fun _ =>
  .op (.openFile .pub) fun r : Except IoError ℕ =>
    match r with
    | .error err =>
      if err.kind = .notFound then .ret (.ok true)
      else .ret (.error ["Failed to read public key file", err.text])
    | .ok f =>
      ((readToString .pub f).context "Failed to read public key file").andThen fun text =>
      if Text.trimChars text = pk then .ret (.ok false)
      else .ret (.error
        ["Public key in id_ed25519.pub does not match private key in id_ed25519"])

/-- `publish_public_key`. -/
def publishPublicKey (f : ℕ) (pk : Chars) : Call X Unit :=
  .op (.persistNoclobber f) fun r : Option IoError =>
    match r with
    | none => .ret (.ok ())
    | some err =>
      if err.kind = .alreadyExists then
        (missingPublicKeyPath pk).andThen fun missing =>
        if missing then .ret (.error ["Public key disappeared during publication"])
        else .ret (.ok ())
      else .ret (.error ["Failed to publish public key file", err.text])

/-- `OWNER_READ_WRITE`. -/
def ownerReadWrite : UInt32 := 0o600

/-- `write_public_key` once it has a temporary file. -/
def fillPublicKey (f : ℕ) (pk : Chars) : Call X Unit :=
  (metadata .pub f).andThen fun mode =>
  (if mode &&& ownerReadWrite = ownerReadWrite then .ret (.ok ())
    else (setPermissions .pub f (mode ||| ownerReadWrite)).context
      "Failed to set public key owner permissions").andThen fun _ =>
  ((writeAll .pub f pk).context "Failed to write public key").andThen fun _ =>
  (Call.context "Failed to sync public key"
    (.op (.syncAll f) fun r : Option String => .ret (done r))).andThen fun _ =>
  publishPublicKey f pk

/-- `write_public_key`, by the call `me`. -/
def writePublicKey (me : ℕ) (pk : Chars) (required : Bool) : Call X Unit :=
  (missingPublicKeyPath pk).andThen fun missing =>
  if missing then
    .op (.createTemp me) fun r : Except String ℕ =>
      match r with
      | .ok f => fillPublicKey f pk
      | .error err =>
        if ¬required then .ret (.ok ())
        else .ret (.error ["Failed to create public key file", err])
  else .ret (.ok ())

/-- The public key of a pair, as a text. -/
def KeyPair.text (pair : KeyPair X) : Chars := X.encode pair.pk

/-- The loop that draws another pair while the text of the public key has a `/` or a `:`. -/
def redraw : ℕ → KeyPair X → Prog (KeySig X) (KeyPair X)
  | 0, pair => .ret pair
  | n + 1, pair =>
    if '/' ∉ pair.text ∧ ':' ∉ pair.text then .ret pair
    else .op .genKeypair fun pair : KeyPair X => redraw n pair

/-- What `gen_sk` returns. -/
abbrev GenSk := Chars × Option SecretKey

/-- `gen_sk` where there is no private key. -/
def generate (me : ℕ) : Call X GenSk :=
  .op .genKeypair fun pair : KeyPair X => do
    let pair ← redraw 300 pair
    (missingPublicKeyPath pair.text).andThen fun _ =>
      ((createPrivateKeyFile me (X.encode pair.sk.1)).context
        "Failed to create private key file").andThen fun _ =>
      (writePublicKey me pair.text true).andThen fun _ =>
      .ret (.ok (pair.text, some pair.sk))

/-- The secret key in the text of the file. -/
def secretKey (X : KeyExt) (text : Chars) : Except Failure SecretKey :=
  match X.decode (Text.trimChars text) with
  | .error err => .error ["Malformed private key", err]
  | .ok b =>
    match SecretKey.fromSlice b with
    | none => .error ["Malformed private key"]
    | some sk => .ok sk

/-- `gen_sk` where the private key is open. -/
def load (me f : ℕ) : Call X GenSk :=
  (setPrivateKeyPermissions f false).andThen fun _ =>
  ((readToString .key f).context "Failed to read private key").andThen fun text =>
  match secretKey X text with
  | .error err => .ret (.error err)
  | .ok sk =>
    let pk := X.encode (X.publicKey sk)
    (writePublicKey me pk false).andThen fun _ =>
    .ret (.ok (pk, some sk))

/-- `gen_sk` from `File::open` on. -/
def openOrGenerate (me : ℕ) : Call X GenSk :=
  .op (.openFile .key) fun r : Except IoError ℕ =>
    match r with
    | .ok f => load me f
    | .error err =>
      if err.kind = .notFound then generate me
      else .ret (.error ["Failed to open private key", err.text])

/-- `gen_sk`, as the call `me`. -/
def genSk (me wait : ℕ) : Call X GenSk :=
  if wait > 0 then
    .op (.isThere .key) fun there : Bool =>
      if there then openOrGenerate me
      else .op (.sleep wait) fun _ => openOrGenerate me
  else openOrGenerate me

/-- Calls that begin in a directory. -/
def calls (X : KeyExt) (files : Name → Option (Content × UInt32)) (wait : ℕ → ℕ) :
    Config (KeySig X) KeyFiles ℕ (Except Failure GenSk) where
  st := .initial files
  task := fun me => genSk me (wait me)

/-! ### A concrete `KeyExt` -/

/-- Base64 as version 0.13 of its crate reads it, which does not ask for the filling at the
end, and Ed25519 secret keys, whose second half is the public key. -/
def base64Ext : KeyExt where
  encode := Base64.encode
  decode := fun text => (Base64.decode text).elim (.error "Invalid byte") .ok
  publicKey := fun sk => sk.1.drop 32

end Key
end RustdeskServer
