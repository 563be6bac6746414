import RustdeskServer.KeyFiles

/-!
# What every step of a key call keeps

A call of `gen_sk` owns what it has created and not yet made public: the private key file
until it is written to the end, and its temporary file.  The rest is kept by every step of
every call: a public key that has its name, and a private key that can be read.

This file says so for each of the steps that change a file.

## Main definitions

* `KeyExt.Lawful` — what is used of base64.
* `KeyFiles.holds` — the key in `id_ed25519`.
* `KeyInv`, `Keeps`, `Own` — the invariant, what every step keeps, and what the steps of the
  other calls keep.

## Main results

* `base64Ext_lawful` — base64 is as it is used.
* `fine_addKey`, `NewKey.fine_append`, `NewKey.fine_remove` — the steps on a new private key
  file.
* `fine_add_pub`, `NewPub.fine_append`, `NewPub.fine_publish` — the steps on a new public key
  file.
-/

namespace RustdeskServer

open Atomic

namespace Key

/-! ### Keys and their texts -/

/-- What is used of base64: a text has no white space and decodes to its bytes; the front of
a text decodes to the front of the bytes if to anything, and once it decodes to all of them,
every longer front does. -/
structure KeyExt.Lawful (X : KeyExt) : Prop where
  /-- There is no white space in a text. -/
  noSpace : ∀ b, ∀ c ∈ X.encode b, Text.isWhitespace c = false
  /-- The round trip. -/
  decode_encode : ∀ b, X.decode (X.encode b) = .ok b
  /-- The front of a text decodes to the front of the bytes. -/
  decode_prefix : ∀ {b p m}, p <+: X.encode b → X.decode p = .ok m → m <+: b
  /-- A front that decodes to all the bytes may be continued. -/
  decode_extend : ∀ {b p q}, p <+: q → q <+: X.encode b → X.decode p = .ok b → X.decode q = .ok b

theorem base64Ext_decode {t : Chars} {b : Bytes} :
    base64Ext.decode t = .ok b ↔ Base64.decode t = some b := by
  change (Base64.decode t).elim (.error "Invalid byte") .ok = Except.ok b ↔ _
  cases Base64.decode t <;> simp

theorem base64Ext_lawful : base64Ext.Lawful where
  noSpace := by
    intro b c hc
    have key : (Base64.alphabet.all fun c => !Text.isWhitespace c) = true := by decide
    obtain hc | rfl := Base64.mem_encode hc
    · simpa using List.all_eq_true.mp key c hc
    · decide
  decode_encode := fun b => base64Ext_decode.mpr (Base64.decode_encode b)
  decode_prefix := fun hp hd => Base64.decode_prefix hp (base64Ext_decode.mp hd)
  decode_extend := fun hpq hq hd =>
    base64Ext_decode.mpr (Base64.decode_extend hpq hq (base64Ext_decode.mp hd))

variable {X : KeyExt}

/-- The key in a file's content. -/
def Content.key (X : KeyExt) : Content → Option SecretKey
  | .error _ => none
  | .ok text => (secretKey X text).toOption

theorem secretKey_eq_ok {t : Chars} {sk : SecretKey} :
    secretKey X t = .ok sk ↔ X.decode (Text.trimChars t) = .ok sk.1 := by
  rw [secretKey]
  cases X.decode (Text.trimChars t) with
  | error err => simp
  | ok b =>
    by_cases hb : b.length = 64
    · simp [SecretKey.fromSlice, hb, Subtype.ext_iff]
    · have hne : b ≠ sk.1 := fun h => hb (h ▸ sk.2)
      simp [SecretKey.fromSlice, hb, hne]

@[simp] theorem Content.key_ok {t : Chars} {sk : SecretKey} :
    Content.key X (.ok t) = some sk ↔ X.decode (Text.trimChars t) = .ok sk.1 := by
  rw [← secretKey_eq_ok, Content.key]
  cases secretKey X t <;> simp [Except.toOption]

namespace KeyExt.Lawful

variable (hX : X.Lawful)

include hX

theorem trim_prefix {b : Bytes} {p : Chars} (hp : p <+: X.encode b) : Text.trimChars p = p :=
  Text.trimChars_of_all fun c hc => hX.noSpace b c (hp.subset hc)

theorem key_encode (sk : SecretKey) : Content.key X (.ok (X.encode sk.1)) = some sk := by
  rw [Content.key_ok, hX.trim_prefix (List.prefix_refl _), hX.decode_encode]

/-- The front of a key's text reads as that key if as any. -/
theorem key_prefix {sk k : SecretKey} {p : Chars} (hp : p <+: X.encode sk.1)
    (h : Content.key X (.ok p) = some k) : k = sk := by
  rw [Content.key_ok, hX.trim_prefix hp] at h
  have hpre := hX.decode_prefix hp h
  exact Subtype.ext (hpre.eq_of_length (k.2.trans sk.2.symm))

/-- A front of a key's text that reads as a key may be continued. -/
theorem key_extend {sk k : SecretKey} {p q : Chars} (hpq : p <+: q) (hq : q <+: X.encode sk.1)
    (h : Content.key X (.ok p) = some k) : Content.key X (.ok q) = some k := by
  obtain rfl := hX.key_prefix (hpq.trans hq) h
  rw [Content.key_ok, hX.trim_prefix (hpq.trans hq)] at h
  rw [Content.key_ok, hX.trim_prefix hq]
  exact hX.decode_extend hpq hq h

/-- An empty file has no key: it would be every key. -/
theorem key_nil : Content.key X (.ok []) = none := by
  by_contra h
  obtain ⟨k, hk⟩ := Option.ne_none_iff_exists'.mp h
  have h0 : k = ⟨List.replicate 64 0, rfl⟩ := hX.key_prefix List.nil_prefix hk
  have h1 : k = ⟨List.replicate 64 1, rfl⟩ := hX.key_prefix List.nil_prefix hk
  exact absurd (congrArg Subtype.val (h0.symm.trans h1)) (by decide)

end KeyExt.Lawful

/-! ### The invariant -/

/-- The key that `id_ed25519` holds. -/
def KeyFiles.holds (X : KeyExt) (s : KeyFiles) : Option SecretKey :=
  (s.entry .key).bind fun f => (s.inode .key f).content.key X

theorem KeyFiles.holds_eq_some {s : KeyFiles} {k : SecretKey} :
    s.holds X = some k ↔
      ∃ f, s.entry .key = some f ∧ (s.inode .key f).content.key X = some k :=
  Option.bind_eq_some_iff

/-- The text of the public key of `k`. -/
def publicText (X : KeyExt) (k : SecretKey) : Chars := X.encode (X.publicKey k)

/-- What holds in every state of a run from `s₀`. -/
structure KeyInv (X : KeyExt) (s₀ s : KeyFiles) : Prop where
  /-- Named files were made. -/
  lt : ∀ n f, s.entry n = some f → f < s.next
  /-- No call has made the files to come. -/
  fresh : ∀ n f, s.next ≤ f → (s.inode n f).creator = none
  /-- Only the file that has the name reads as a key. -/
  reads : ∀ f k, (s.inode .key f).content.key X = some k → s.entry .key = some f
  /-- A public key that was there stays. -/
  start : ∀ f, s₀.entry .pub = some f → s.entry .pub = some f
  /-- A public key that was not there is that of the private key, in full. -/
  pub : ∀ f, s.entry .pub = some f → s₀.entry .pub = some f ∨
    ∃ k, s.holds X = some k ∧ (s.inode .pub f).content = .ok (publicText X k)

/-- What every step of every call keeps. -/
structure Keeps (X : KeyExt) (s s' : KeyFiles) : Prop where
  /-- Files are only added. -/
  next_le : s.next ≤ s'.next
  /-- A key that can be read stays. -/
  holds : ∀ k, s.holds X = some k → s'.holds X = some k
  /-- A public key stays as it is. -/
  pub : ∀ f, s.entry .pub = some f → s'.entry .pub = some f ∧ s'.inode .pub f = s.inode .pub f
  /-- A private key file stays as it is, unless the call that created it has not completed
  it. -/
  settled : ∀ f, s.entry .key = some f →
    (s.inode .key f).creator = none ∨ (s.inode .key f).complete = true →
    s'.entry .key = some f ∧ s'.inode .key f = s.inode .key f

/-- What the steps of all calls but `j` keep: the files that `j` created are left alone, and
keep the names they have. -/
def Own (j : ℕ) (s s' : KeyFiles) : Prop :=
  ∀ n f, (s.inode n f).creator = some j →
    s'.inode n f = s.inode n f ∧ (s'.entry n = some f ↔ s.entry n = some f)

@[refl] theorem Keeps.refl (s : KeyFiles) : Keeps X s s :=
  ⟨le_rfl, fun _ h => h, fun _ h => ⟨h, rfl⟩, fun _ h _ => ⟨h, rfl⟩⟩

theorem Keeps.trans {s t u : KeyFiles} (h₁ : Keeps X s t) (h₂ : Keeps X t u) : Keeps X s u where
  next_le := h₁.next_le.trans h₂.next_le
  holds := fun k hk => h₂.holds k (h₁.holds k hk)
  pub := by
    intro f hf
    obtain ⟨h, hsame⟩ := h₁.pub f hf
    obtain ⟨h', hsame'⟩ := h₂.pub f h
    exact ⟨h', hsame'.trans hsame⟩
  settled := by
    intro f hf hset
    obtain ⟨h, hsame⟩ := h₁.settled f hf hset
    obtain ⟨h', hsame'⟩ := h₂.settled f h (by rwa [hsame])
    exact ⟨h', hsame'.trans hsame⟩

theorem Own.refl (j : ℕ) (s : KeyFiles) : Own j s s := fun _ _ _ => ⟨rfl, Iff.rfl⟩

theorem Own.trans {j : ℕ} {s t u : KeyFiles} (h₁ : Own j s t) (h₂ : Own j t u) : Own j s u := by
  intro n f hf
  obtain ⟨hsame, hname⟩ := h₁ n f hf
  obtain ⟨hsame', hname'⟩ := h₂ n f (by rwa [hsame])
  exact ⟨hsame'.trans hsame, hname'.trans hname⟩

/-- A step of the call `i` is as it should be. -/
structure Fine (X : KeyExt) (s₀ : KeyFiles) (i : ℕ) (s s' : KeyFiles) : Prop where
  /-- It keeps what every step keeps. -/
  keeps : Keeps X s s'
  /-- It leaves alone what the others own. -/
  own : ∀ j, j ≠ i → Own j s s'
  /-- It keeps the invariant. -/
  inv : KeyInv X s₀ s'

variable {s₀ s s' : KeyFiles} {i : ℕ}

/-- The names and files are the same; permissions may differ. -/
def Alike (s s' : KeyFiles) : Prop :=
  s'.entry = s.entry ∧ s'.inode = s.inode ∧ s'.next = s.next

theorem Alike.own (h : Alike s s') (j : ℕ) : Own j s s' := by
  intro n f _
  rw [h.1, h.2.1]
  exact ⟨rfl, Iff.rfl⟩

theorem Alike.fine (h : Alike s s') (hI : KeyInv X s₀ s) : Fine X s₀ i s s' := by
  obtain ⟨entry, inode, mode, next⟩ := s
  obtain ⟨entry', inode', mode', next'⟩ := s'
  obtain ⟨rfl, rfl, rfl⟩ := h
  exact ⟨⟨le_rfl, fun _ h => h, fun _ h => ⟨h, rfl⟩, fun _ h _ => ⟨h, rfl⟩⟩,
    fun j _ => Alike.own ⟨rfl, rfl, rfl⟩ j, ⟨hI.lt, hI.fresh, hI.reads, hI.start, hI.pub⟩⟩

/-! ### The steps that change a file -/

@[simp] theorem KeyFiles.setInode_entry (s : KeyFiles) (n : Name) (f : ℕ) (a : Inode) :
    (s.setInode n f a).entry = s.entry := rfl

@[simp] theorem KeyFiles.setInode_next (s : KeyFiles) (n : Name) (f : ℕ) (a : Inode) :
    (s.setInode n f a).next = s.next := rfl

theorem KeyFiles.setInode_inode (s : KeyFiles) (n m : Name) (f g : ℕ) (a : Inode) :
    (s.setInode n f a).inode m g = if m = n ∧ g = f then a else s.inode m g := by
  unfold KeyFiles.setInode
  by_cases hm : m = n
  · subst hm
    by_cases hg : g = f
    · subst hg
      simp
    · simp [hg]
  · simp [hm]

@[simp] theorem KeyFiles.setInode_self (s : KeyFiles) (n : Name) (f : ℕ) (a : Inode) :
    (s.setInode n f a).inode n f = a := by
  rw [setInode_inode, if_pos ⟨rfl, rfl⟩]

/-- A file that the call `i` has created, and what it has written there. -/
structure Mine (i : ℕ) (n : Name) (f : ℕ) (w : Chars) (s : KeyFiles) : Prop where
  /-- The file exists. -/
  lt : f < s.next
  /-- The call created it. -/
  creator : (s.inode n f).creator = some i
  /-- It wrote this. -/
  content : (s.inode n f).content = .ok w

/-- The new private key file of the call `i`, not complete. -/
structure NewKey (i f : ℕ) (w : Chars) (s : KeyFiles) : Prop extends Mine i .key f w s where
  /-- It has the name. -/
  entry : s.entry .key = some f
  /-- It is not complete. -/
  partly : (s.inode .key f).complete = false

/-- The temporary file of the call `i`. -/
structure NewPub (i f : ℕ) (w : Chars) (s : KeyFiles) : Prop extends Mine i .pub f w s where
  /-- It does not have the name. -/
  entry : s.entry .pub ≠ some f

theorem NewKey.stable {f : ℕ} {w : Chars} (h : NewKey i f w s) (hK : Keeps X s s')
    (hO : Own i s s') : NewKey i f w s' := by
  obtain ⟨hsame, hname⟩ := hO .key f h.creator
  exact ⟨⟨h.lt.trans_le hK.next_le, by rw [hsame, h.creator], by rw [hsame, h.content]⟩,
    hname.mpr h.entry, by rw [hsame, h.partly]⟩

theorem NewPub.stable {f : ℕ} {w : Chars} (h : NewPub i f w s) (hK : Keeps X s s')
    (hO : Own i s s') : NewPub i f w s' := by
  obtain ⟨hsame, hname⟩ := hO .pub f h.creator
  exact ⟨⟨h.lt.trans_le hK.next_le, by rw [hsame, h.creator], by rw [hsame, h.content]⟩,
    fun hf => h.entry (hname.mp hf)⟩

@[simp] theorem KeyFiles.add_entry (s : KeyFiles) (n : Name) (m : UInt32) :
    (s.add n i m).entry = s.entry := rfl

@[simp] theorem KeyFiles.add_next (s : KeyFiles) (n : Name) (m : UInt32) :
    (s.add n i m).next = s.next + 1 := rfl

theorem KeyFiles.add_inode (s : KeyFiles) (n n' : Name) (m : UInt32) (f : ℕ) :
    (s.add n i m).inode n' f =
      if n' = n ∧ f = s.next then ⟨.ok [], some i, false⟩ else s.inode n' f :=
  s.setInode_inode n n' s.next f _

theorem KeyFiles.add_inode_of_lt {s : KeyFiles} {n n' : Name} {m : UInt32} {f : ℕ}
    (h : f < s.next) : (s.add n i m).inode n' f = s.inode n' f := by
  rw [add_inode, if_neg fun hf => h.ne hf.2]

@[simp] theorem KeyFiles.setEntry_inode (s : KeyFiles) (n : Name) (f : Option ℕ) :
    (s.setEntry n f).inode = s.inode := rfl

@[simp] theorem KeyFiles.setEntry_next (s : KeyFiles) (n : Name) (f : Option ℕ) :
    (s.setEntry n f).next = s.next := rfl

@[simp] theorem KeyFiles.setEntry_self (s : KeyFiles) (n : Name) (f : Option ℕ) :
    (s.setEntry n f).entry n = f := by
  simp [KeyFiles.setEntry]

theorem KeyFiles.setEntry_of_ne (s : KeyFiles) {n n' : Name} (f : Option ℕ) (h : n' ≠ n) :
    (s.setEntry n f).entry n' = s.entry n' := by
  simp [KeyFiles.setEntry, h]

/-- Files that were made are as before in a directory with one more. -/
theorem own_add (hI : KeyInv X s₀ s) (n : Name) (m : UInt32) (j : ℕ) :
    Own j s (s.add n i m) := by
  intro n' f hf
  have hlt : f < s.next := by
    by_contra hge
    rw [hI.fresh n' f (not_lt.mp hge)] at hf
    cases hf
  exact ⟨KeyFiles.add_inode_of_lt hlt, Iff.rfl⟩

theorem fresh_add (hI : KeyInv X s₀ s) (n : Name) (m : UInt32) (n' : Name) (f : ℕ)
    (hf : (s.add n i m).next ≤ f) : ((s.add n i m).inode n' f).creator = none := by
  rw [KeyFiles.add_next] at hf
  rw [KeyFiles.add_inode, if_neg fun h => by omega]
  exact hI.fresh n' f (by omega)

theorem holds_add (hI : KeyInv X s₀ s) (n : Name) (m : UInt32) :
    (s.add n i m).holds X = s.holds X := by
  rw [KeyFiles.holds, KeyFiles.holds, KeyFiles.add_entry]
  cases h : s.entry .key with
  | none => rfl
  | some f => rw [Option.bind_some, Option.bind_some, KeyFiles.add_inode_of_lt (hI.lt _ _ h)]

/-- A file without a name is added. -/
theorem fine_add_pub (hI : KeyInv X s₀ s) (m : UInt32) : Fine X s₀ i s (s.add .pub i m) where
  keeps :=
    { next_le := Nat.le_succ _
      holds := fun k hk => by rwa [holds_add hI]
      pub := fun f hf => ⟨hf, KeyFiles.add_inode_of_lt (hI.lt _ _ hf)⟩
      settled := fun f hf _ => ⟨hf, KeyFiles.add_inode_of_lt (hI.lt _ _ hf)⟩ }
  own := fun j _ => own_add hI .pub m j
  inv :=
    { lt := fun n f hf => (hI.lt n f hf).trans (Nat.lt_succ_self _)
      fresh := fresh_add hI .pub m
      reads := by
        intro f k hk
        rw [KeyFiles.add_inode, if_neg (by simp)] at hk
        exact hI.reads f k hk
      start := hI.start
      pub := by
        intro f hf
        rw [holds_add hI, KeyFiles.add_inode_of_lt (hI.lt _ _ hf)]
        exact hI.pub f hf }

/-- The temporary file that was added. -/
theorem newPub_add (hI : KeyInv X s₀ s) (m : UInt32) : NewPub i s.next [] (s.add .pub i m) where
  lt := Nat.lt_succ_self _
  creator := by rw [KeyFiles.add_inode, if_pos ⟨rfl, rfl⟩]
  content := by rw [KeyFiles.add_inode, if_pos ⟨rfl, rfl⟩]
  entry := fun hf => (hI.lt _ _ hf).false

/-- The directory with a new private key file. -/
def KeyFiles.addKey (s : KeyFiles) (i : ℕ) (m : UInt32) : KeyFiles :=
  (s.add .key i m).setEntry .key (some s.next)

@[simp] theorem KeyFiles.addKey_inode (s : KeyFiles) (m : UInt32) :
    (s.addKey i m).inode = (s.add .key i m).inode := rfl

@[simp] theorem KeyFiles.addKey_key (s : KeyFiles) (m : UInt32) :
    (s.addKey i m).entry .key = some s.next := (s.add .key i m).setEntry_self _ _

@[simp] theorem KeyFiles.addKey_pub (s : KeyFiles) (m : UInt32) :
    (s.addKey i m).entry .pub = s.entry .pub := (s.add .key i m).setEntry_of_ne _ (by decide)

/-- A private key file is created. -/
theorem fine_addKey (hX : X.Lawful) (hI : KeyInv X s₀ s) (hnone : s.entry .key = none)
    (m : UInt32) : Fine X s₀ i s (s.addKey i m) := by
  have hholds : s.holds X = none := by rw [KeyFiles.holds, hnone, Option.bind_none]
  refine ⟨⟨Nat.le_succ _, ?_, ?_, ?_⟩, ?_, ⟨?_, ?_, ?_, ?_, ?_⟩⟩
  · intro k hk
    rw [hholds] at hk
    cases hk
  · intro f hf
    rw [KeyFiles.addKey_inode, KeyFiles.add_inode_of_lt (hI.lt _ _ hf), KeyFiles.addKey_pub]
    exact ⟨hf, rfl⟩
  · intro f hf
    rw [hnone] at hf
    cases hf
  · intro j _ n f hf
    obtain ⟨hsame, -⟩ := own_add (i := i) hI .key m j n f hf
    refine ⟨hsame, ?_⟩
    cases n with
    | pub => rw [KeyFiles.addKey_pub]
    | key =>
      -- the new file is not one of those another call has made
      have hne : f ≠ s.next := by
        rintro rfl
        rw [hI.fresh .key _ le_rfl] at hf
        cases hf
      rw [KeyFiles.addKey_key, hnone]
      simp [hne.symm]
  · intro n f hf
    cases n with
    | pub =>
      rw [KeyFiles.addKey_pub] at hf
      exact (hI.lt _ _ hf).trans (Nat.lt_succ_self _)
    | key =>
      rw [KeyFiles.addKey_key, Option.some.injEq] at hf
      subst hf
      exact Nat.lt_succ_self _
  · exact fresh_add hI .key m
  · intro f k hk
    rw [KeyFiles.addKey_inode, KeyFiles.add_inode] at hk
    split at hk
    · rw [hX.key_nil] at hk
      cases hk
    · have hf := hI.reads f k hk
      rw [hnone] at hf
      cases hf
  · intro f hf
    rw [KeyFiles.addKey_pub]
    exact hI.start f hf
  · intro f hf
    rw [KeyFiles.addKey_pub] at hf
    rcases hI.pub f hf with h | ⟨k, hk, -⟩
    · exact .inl h
    · rw [hholds] at hk
      cases hk

/-- The private key file that was created. -/
theorem newKey_addKey (s : KeyFiles) (m : UInt32) : NewKey i s.next [] (s.addKey i m) where
  lt := Nat.lt_succ_self _
  creator := by rw [KeyFiles.addKey_inode, KeyFiles.add_inode, if_pos ⟨rfl, rfl⟩]
  content := by rw [KeyFiles.addKey_inode, KeyFiles.add_inode, if_pos ⟨rfl, rfl⟩]
  entry := s.addKey_key m
  partly := by rw [KeyFiles.addKey_inode, KeyFiles.add_inode, if_pos ⟨rfl, rfl⟩]

theorem KeyFiles.append_inode (s : KeyFiles) (n n' : Name) (f g : ℕ) (part : Chars) (d : Bool) :
    (s.append n f part d).inode n' g =
      if n' = n ∧ g = f then
        ⟨(s.inode n f).content.map (· ++ part), (s.inode n f).creator, d⟩
      else s.inode n' g :=
  s.setInode_inode n n' f g _

@[simp] theorem KeyFiles.append_complete (s : KeyFiles) (n : Name) (f : ℕ) (part : Chars)
    (d : Bool) : ((s.append n f part d).inode n f).complete = d := by
  rw [append_inode, if_pos ⟨rfl, rfl⟩]

@[simp] theorem KeyFiles.append_entry (s : KeyFiles) (n : Name) (f : ℕ) (part : Chars) (d : Bool) :
    (s.append n f part d).entry = s.entry := rfl

@[simp] theorem KeyFiles.append_next (s : KeyFiles) (n : Name) (f : ℕ) (part : Chars) (d : Bool) :
    (s.append n f part d).next = s.next := rfl

/-- The file that was written to. -/
theorem Mine.append {n : Name} {f : ℕ} {w : Chars} (h : Mine i n f w s) (part : Chars) (d : Bool) :
    Mine i n f (w ++ part) (s.append n f part d) where
  lt := h.lt
  creator := by rw [KeyFiles.append_inode, if_pos ⟨rfl, rfl⟩, h.creator]
  content := by rw [KeyFiles.append_inode, if_pos ⟨rfl, rfl⟩, h.content, Except.map]

theorem Mine.own_append {n : Name} {f : ℕ} {w : Chars} (h : Mine i n f w s) (part : Chars)
    (d : Bool) {j : ℕ} (hj : j ≠ i) : Own j s (s.append n f part d) := by
  intro n' g hg
  have hne : ¬(n' = n ∧ g = f) := by
    rintro ⟨rfl, rfl⟩
    rw [h.creator, Option.some.injEq] at hg
    exact hj hg.symm
  rw [KeyFiles.append_inode, if_neg hne]
  exact ⟨rfl, Iff.rfl⟩

theorem fresh_append (hI : KeyInv X s₀ s) {n : Name} {f : ℕ} (hf : f < s.next) (part : Chars)
    (d : Bool) (n' : Name) (g : ℕ) (hg : s.next ≤ g) :
    ((s.append n f part d).inode n' g).creator = none := by
  rw [KeyFiles.append_inode, if_neg fun h => by omega]
  exact hI.fresh n' g hg

/-- A call writes to its temporary file. -/
theorem NewPub.fine_append (hI : KeyInv X s₀ s) {f : ℕ} {w : Chars} (h : NewPub i f w s)
    (part : Chars) (d : Bool) : Fine X s₀ i s (s.append .pub f part d) := by
  have hkey : ∀ g, (s.append .pub f part d).inode .key g = s.inode .key g := by
    intro g
    rw [KeyFiles.append_inode, if_neg (by simp)]
  have hpub : ∀ g, s.entry .pub = some g →
      (s.append .pub f part d).inode .pub g = s.inode .pub g := by
    intro g hg
    have hne : g ≠ f := by
      rintro rfl
      exact h.entry hg
    rw [KeyFiles.append_inode, if_neg (by simp [hne])]
  have hholds : (s.append .pub f part d).holds X = s.holds X := by
    simp only [KeyFiles.holds, KeyFiles.append_entry, hkey]
  refine ⟨⟨le_rfl, ?_, fun g hg => ⟨hg, hpub g hg⟩, fun g hg _ => ⟨hg, hkey g⟩⟩,
    fun j hj => h.own_append part d hj, ⟨hI.lt, fresh_append hI h.lt part d, ?_, hI.start, ?_⟩⟩
  · intro k hk
    rwa [hholds]
  · intro g k hk
    rw [hkey] at hk
    exact hI.reads g k hk
  · intro g hg
    rw [hholds, hpub g hg]
    exact hI.pub g hg

/-- A call writes to its new private key file, on the way to a key's text. -/
theorem NewKey.fine_append (hX : X.Lawful) (hI : KeyInv X s₀ s) {f : ℕ} {w : Chars}
    (h : NewKey i f w s) {sk : SecretKey} {part : Chars} (hpre : w ++ part <+: X.encode sk.1)
    (d : Bool) : Fine X s₀ i s (s.append .key f part d) := by
  have hnew := h.append part d
  have hpub : ∀ g, (s.append .key f part d).inode .pub g = s.inode .pub g := by
    intro g
    rw [KeyFiles.append_inode, if_neg (by simp)]
  have hholds : ∀ k, s.holds X = some k → (s.append .key f part d).holds X = some k := by
    intro k hk
    obtain ⟨g, hg, hk⟩ := KeyFiles.holds_eq_some.mp hk
    obtain rfl : f = g := Option.some.inj (h.entry.symm.trans hg)
    rw [h.content] at hk
    refine KeyFiles.holds_eq_some.mpr ⟨f, h.entry, ?_⟩
    rw [hnew.content]
    exact hX.key_extend (List.prefix_append w part) hpre hk
  refine ⟨⟨le_rfl, hholds, fun g hg => ⟨hg, hpub g⟩, ?_⟩,
    fun j hj => h.own_append part d hj, ⟨hI.lt, fresh_append hI h.lt part d, ?_, hI.start, ?_⟩⟩
  · -- the file that has the name is the one that is not complete
    intro g hg hset
    obtain rfl : f = g := Option.some.inj (h.entry.symm.trans hg)
    rw [h.creator, h.partly] at hset
    simp at hset
  · intro g k hk
    by_cases hg : g = f
    · subst hg
      exact h.entry
    · rw [KeyFiles.append_inode, if_neg (by simp [hg])] at hk
      exact hI.reads g k hk
  · intro g hg
    rw [hpub]
    exact (hI.pub g hg).imp_right fun ⟨k, hk, hc⟩ => ⟨k, hholds k hk, hc⟩

/-- A call removes its new private key file, which does not read as a key. -/
theorem NewKey.fine_remove (hI : KeyInv X s₀ s) {f : ℕ} {w : Chars} (h : NewKey i f w s)
    (hw : Content.key X (.ok w) = none) : Fine X s₀ i s (s.setEntry .key none) := by
  have hholds : s.holds X = none := by
    rw [KeyFiles.holds, h.entry, Option.bind_some, h.content, hw]
  have hpub : (s.setEntry .key none).entry .pub = s.entry .pub :=
    s.setEntry_of_ne _ (by decide)
  refine ⟨⟨le_rfl, ?_, ?_, ?_⟩, ?_, ⟨?_, hI.fresh, ?_, ?_, ?_⟩⟩
  · intro k hk
    rw [hholds] at hk
    cases hk
  · intro g hg
    rw [hpub]
    exact ⟨hg, rfl⟩
  · intro g hg hset
    obtain rfl : f = g := Option.some.inj (h.entry.symm.trans hg)
    rw [h.creator, h.partly] at hset
    simp at hset
  · intro j hj n g hg
    refine ⟨rfl, ?_⟩
    cases n with
    | pub => rw [hpub]
    | key =>
      have hne : f ≠ g := by
        rintro rfl
        rw [h.creator, Option.some.injEq] at hg
        exact hj hg.symm
      rw [KeyFiles.setEntry_self, h.entry]
      simp [hne]
  · intro n g hg
    cases n with
    | pub =>
      rw [hpub] at hg
      exact hI.lt _ _ hg
    | key =>
      rw [KeyFiles.setEntry_self] at hg
      cases hg
  · intro g k hk
    have hg := hI.reads g k hk
    obtain rfl : f = g := Option.some.inj (h.entry.symm.trans hg)
    rw [KeyFiles.setEntry_inode, h.content, hw] at hk
    cases hk
  · intro g hg
    rw [hpub]
    exact hI.start g hg
  · intro g hg
    rw [hpub] at hg
    rcases hI.pub g hg with h | ⟨k, hk, -⟩
    · exact .inl h
    · rw [hholds] at hk
      cases hk

/-- A call publishes the public key of the key that the private key file holds. -/
theorem NewPub.fine_publish (hI : KeyInv X s₀ s) {f : ℕ} {sk : SecretKey}
    (h : NewPub i f (publicText X sk) s) (hsk : s.holds X = some sk) (hnone : s.entry .pub = none) :
    Fine X s₀ i s (s.setEntry .pub (some f)) := by
  have hkey : (s.setEntry .pub (some f)).entry .key = s.entry .key :=
    s.setEntry_of_ne _ (by decide)
  have hholds : (s.setEntry .pub (some f)).holds X = s.holds X := by
    rw [KeyFiles.holds, hkey]
    rfl
  refine ⟨⟨le_rfl, ?_, ?_, ?_⟩, ?_, ⟨?_, hI.fresh, ?_, ?_, ?_⟩⟩
  · intro k hk
    rwa [hholds]
  · intro g hg
    rw [hnone] at hg
    cases hg
  · intro g hg _
    rw [hkey]
    exact ⟨hg, rfl⟩
  · intro j hj n g hg
    refine ⟨rfl, ?_⟩
    cases n with
    | key => rw [hkey]
    | pub =>
      have hne : f ≠ g := by
        rintro rfl
        rw [h.creator, Option.some.injEq] at hg
        exact hj hg.symm
      rw [KeyFiles.setEntry_self, hnone]
      simp [hne]
  · intro n g hg
    cases n with
    | key =>
      rw [hkey] at hg
      exact hI.lt _ _ hg
    | pub =>
      rw [KeyFiles.setEntry_self, Option.some.injEq] at hg
      subst hg
      exact h.lt
  · intro g k hk
    rw [hkey]
    exact hI.reads g k hk
  · intro g hg
    have hg' := hI.start g hg
    rw [hnone] at hg'
    cases hg'
  · intro g hg
    rw [KeyFiles.setEntry_self, Option.some.injEq] at hg
    subst hg
    rw [hholds]
    exact .inr ⟨sk, hsk, h.content⟩

end Key
end RustdeskServer
