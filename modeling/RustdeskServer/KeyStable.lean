import RustdeskServer.KeyInv

/-!
# The server key is stable

The calls of `gen_sk` that run in one directory, however they are interleaved and wherever
they fail or stop, agree on one key, provided that no write of a new private key fails when
what it has put down reads as the key already.  Base64 as it is read here does without the
filling at the end, so the front of a key's text that lacks one or two characters is such a
text; the call that fails there removes the file, while another may have taken the key from
it.

## Main definitions

* `FailsUnread` — the condition on a failing write.
* `Undamaged` — what a step of a call may do to the files that are there.
* `Returned` — what a call that returns may rely on.

## Main results

* `genSk_safe` — a call keeps the invariant and returns the key that the files hold.
* `server_key_stable` — **every run whose failing writes meet the condition has one key.**
* `late_failure_two_keys` — without the condition two calls return different keys.
-/

namespace RustdeskServer

open Atomic

namespace Key

variable {X : KeyExt} {s₀ s s' : KeyFiles} {i : ℕ} {α β : Type}

/-- The private key file that an operation writes to. -/
def KeyOp.keyFile : KeyOp → Option ℕ
  | .write .key f _ => some f
  | _ => none

/-- A write to a private key file that fails, fails before what is there reads as a key. -/
def FailsUnread (X : KeyExt) (e : KeyEnv X) (o : KeyOp) (s : KeyFiles) : Prop :=
  ∀ f ∈ o.keyFile, e.fault.isSome ∨ e.count = 0 → (s.inode .key f).content.key X = none

instance (e : KeyEnv X) (o : KeyOp) (s : KeyFiles) : Decidable (FailsUnread X e o s) :=
  inferInstanceAs (Decidable (∀ f ∈ o.keyFile,
    e.fault.isSome ∨ e.count = 0 → (s.inode .key f).content.key X = none))

/-! ### Rules for the parts of a call -/

/-- The judgement for the call `i` of a run from `s₀`. -/
abbrev KeySafe (X : KeyExt) (s₀ : KeyFiles) (i : ℕ) (Q : α → KeyFiles → Prop)
    (p : Prog (KeySig X) α) (s : KeyFiles) : Prop :=
  SafeBy (keyMachine X) (FailsUnread X) (KeyInv X s₀) (Keeps X) Own i Q p s

/-- An operation whose steps are fine. -/
theorem safe_act {Q : α → KeyFiles → Prop} {o : KeyOp} {k : o.Res X → Prog (KeySig X) α}
    (h : ∀ s', Keeps X s s' → Own i s s' → KeyInv X s₀ s' → ∀ e, FailsUnread X e o s' →
      Fine X s₀ i s' (o.exec X e s').1 ∧ KeySafe X s₀ i Q (k (o.exec X e s').2) (o.exec X e s').1) :
    KeySafe X s₀ i Q (.op o k) s := by
  intro s' hK hO hI e hC
  obtain ⟨hfine, hk⟩ := h s' hK hO hI e hC
  exact ⟨hfine.keeps, hfine.own, hfine.inv, hk⟩

/-- An operation that leaves the directory as it is. -/
theorem safe_look {Q : α → KeyFiles → Prop} {o : KeyOp} {k : o.Res X → Prog (KeySig X) α}
    (ho : ∀ e s, (o.exec X e s).1 = s)
    (h : ∀ s', Keeps X s s' → Own i s s' → KeyInv X s₀ s' → ∀ e,
      KeySafe X s₀ i Q (k (o.exec X e s').2) s') :
    KeySafe X s₀ i Q (.op o k) s := by
  refine safe_act ?_
  intro s' hK hO hI e _
  rw [ho]
  exact ⟨Alike.fine ⟨rfl, rfl, rfl⟩ hI, h s' hK hO hI e⟩

/-- The operations that leave names and files alone. -/
def Harmless : KeyOp → Prop
  | .createKey _ | .createTemp _ | .write _ _ _ | .removeKey | .persistNoclobber _ => False
  | _ => True

theorem Harmless.alike {o : KeyOp} (ho : Harmless o) (e : KeyEnv X) (s : KeyFiles) :
    Alike s (o.exec X e s).1 := by
  cases o with
  | setPermissions n f m =>
    rw [KeyOp.exec]
    cases e.fault with
    | some err => exact ⟨rfl, rfl, rfl⟩
    | none => exact ⟨rfl, rfl, rfl⟩
  | createKey | createTemp | write | removeKey | persistNoclobber => exact ho.elim
  | _ => exact ⟨rfl, rfl, rfl⟩

/-- A part of a call without other operations keeps what the other calls keep. -/
theorem harmless_safe {P : KeyFiles → Prop}
    (hP : ∀ s s', Keeps X s s' → Own i s s' → P s → P s') {Q : α → KeyFiles → Prop}
    (hQ : ∀ a s, P s → Q a s) {p : Prog (KeySig X) α} (hp : p.All Harmless) (h : P s) :
    KeySafe X s₀ i Q p s := by
  induction p generalizing s with
  | ret a => exact hQ a s h
  | op o k ih =>
    refine safe_act ?_
    intro s' hK hO hI e _
    have halike := Harmless.alike hp.1 e s'
    have hfine := halike.fine (i := i) hI
    exact ⟨hfine, ih _ (hp.2 _) (hP _ _ hfine.keeps (halike.own i) (hP _ _ hK hO h))⟩

/-- What a part of a call returns with: `E` if it fails, `P` if it does not. -/
def post (E : KeyFiles → Prop) (P : α → KeyFiles → Prop) : Except Failure α → KeyFiles → Prop
  | .error _, s => E s
  | .ok a, s => P a s

theorem safe_bind {Q : α → KeyFiles → Prop} {Q' : β → KeyFiles → Prop} {p : Prog (KeySig X) α}
    {f : α → Prog (KeySig X) β} (hp : KeySafe X s₀ i Q p s)
    (hf : ∀ a s', Keeps X s s' → Q a s' → KeySafe X s₀ i Q' (f a) s') :
    KeySafe X s₀ i Q' (p >>= f) s :=
  SafeBy.bind (K := Keeps X) Keeps.trans (.refl s) hp hf

variable {E : KeyFiles → Prop}

theorem andThen_safe {P : α → KeyFiles → Prop} {P' : β → KeyFiles → Prop} {p : Call X α}
    {rest : α → Call X β} (hp : KeySafe X s₀ i (post E P) p s)
    (hrest : ∀ a s', Keeps X s s' → P a s' → KeySafe X s₀ i (post E P') (rest a) s') :
    KeySafe X s₀ i (post E P') (p.andThen rest) s := by
  refine safe_bind hp ?_
  intro r s' hK hr
  cases r with
  | error err => exact hr
  | ok a => exact hrest a s' hK hr

theorem context_safe {P : α → KeyFiles → Prop} {p : Call X α} {text : String}
    (hp : KeySafe X s₀ i (post E P) p s) : KeySafe X s₀ i (post E P) (p.context text) s := by
  refine safe_bind hp ?_
  intro r s' _ hr
  cases r with
  | error err => exact hr
  | ok a => exact hr

theorem all_andThen {P : KeyOp → Prop} {p : Call X α} {rest : α → Call X β}
    (hp : Prog.All P p) (hrest : ∀ a, Prog.All P (rest a)) : Prog.All P (p.andThen rest) := by
  refine Prog.All.bind hp ?_
  intro r
  cases r with
  | error err => trivial
  | ok a => exact hrest a

theorem all_context {P : KeyOp → Prop} {p : Call X α} {text : String} (hp : Prog.All P p) :
    Prog.All P (p.context text) := by
  refine Prog.All.bind hp ?_
  intro r
  cases r with
  | error err => trivial
  | ok a => trivial

/-! ### Writing -/

theorem exec_write_failed {e : KeyEnv X} {err : String} (h : e.fault = some err) (n : Name) (f : ℕ)
    (text : Chars) (s : KeyFiles) :
    (KeyOp.write n f text).exec X e s = (s, .error err) := by
  rw [KeyOp.exec, h]

theorem exec_write {e : KeyEnv X} (h : e.fault = none) (n : Name) (f : ℕ) (text : Chars)
    (s : KeyFiles) :
    (KeyOp.write n f text).exec X e s =
      (s.append n f (text.take e.count) (text.length ≤ e.count),
        .ok (min e.count text.length)) := by
  rw [KeyOp.exec, h]

/-- What a write puts down and what is left for the next are the text. -/
theorem take_drop_count (text : Chars) (n : ℕ) :
    text.take n ++ text.drop (min n text.length) = text := by
  rcases le_total n text.length with h | h
  · rw [min_eq_left h, List.take_append_drop]
  · rw [min_eq_right h, List.take_of_length_le h, List.drop_length, List.append_nil]

theorem writeLoop_pub_safe {f fuel : ℕ} {text w : Chars} (hfuel : text.length ≤ fuel)
    (h : NewPub i f w s) :
    KeySafe X s₀ i (post (fun _ => True) fun _ => NewPub i f (w ++ text))
      (writeLoop .pub f fuel text) s := by
  induction fuel generalizing text w s with
  | zero =>
    obtain rfl : text = [] := List.length_eq_zero_iff.mp (Nat.le_zero.mp hfuel)
    rw [writeLoop, List.append_nil]
    exact h
  | succ fuel ih =>
    cases text with
    | nil =>
      rw [writeLoop, List.append_nil]
      exact h
    | cons c text =>
      refine safe_act ?_
      intro s' hK hO hI e _
      have h' := h.stable hK hO
      cases hfault : e.fault with
      | some err =>
        rw [exec_write_failed hfault]
        exact ⟨Alike.fine ⟨rfl, rfl, rfl⟩ hI, trivial⟩
      | none =>
        rw [exec_write hfault]
        refine ⟨h'.fine_append hI _ _, ?_⟩
        have hnew : NewPub i f (w ++ (c :: text).take e.count)
            (s'.append .pub f ((c :: text).take e.count) ((c :: text).length ≤ e.count)) :=
          ⟨h'.append _ _, h'.entry⟩
        have htext := take_drop_count (c :: text) e.count
        cases hn : min e.count (c :: text).length with
        | zero => trivial
        | succ m =>
          rw [hn] at htext
          have hlen : ((c :: text).drop (m + 1)).length ≤ fuel := by
            rw [List.length_drop]
            omega
          have hrest := ih (s := s'.append .pub f _ _) hlen hnew
          rw [List.append_assoc, htext] at hrest
          exact hrest

/-- A private key file that the call `i` writes: it has written `w`, and `text` is left. -/
structure Writing (X : KeyExt) (i f : ℕ) (sk : SecretKey) (w text : Chars) (s : KeyFiles) :
    Prop where
  /-- The file is its own. -/
  mine : Mine i .key f w s
  /-- It has the name. -/
  entry : s.entry .key = some f
  /-- It is not complete while there is something left. -/
  partly : text ≠ [] → (s.inode .key f).complete = false
  /-- The whole is the text of the key. -/
  whole : w ++ text = X.encode sk.1

theorem Writing.newKey {f : ℕ} {sk : SecretKey} {w text : Chars} (h : Writing X i f sk w text s)
    (hne : text ≠ []) : NewKey i f w s :=
  ⟨h.mine, h.entry, h.partly hne⟩

/-- A file that is written to the end holds the key. -/
theorem Writing.holds (hX : X.Lawful) {f : ℕ} {sk : SecretKey} {w : Chars}
    (h : Writing X i f sk w [] s) : s.holds X = some sk := by
  have hw : w = X.encode sk.1 := by rw [← h.whole, List.append_nil]
  refine KeyFiles.holds_eq_some.mpr ⟨f, h.entry, ?_⟩
  rw [h.mine.content, hw]
  exact hX.key_encode sk

/-- A new private key file that does not read as a key. -/
def Unread (X : KeyExt) (i f : ℕ) (s : KeyFiles) : Prop :=
  ∃ w, NewKey i f w s ∧ Content.key X (.ok w) = none

theorem writeLoop_key_safe (hX : X.Lawful) {f fuel : ℕ} {sk : SecretKey} {text w : Chars}
    (hfuel : text.length ≤ fuel) (h : Writing X i f sk w text s) :
    KeySafe X s₀ i (post (Unread X i f) fun _ s => s.holds X = some sk)
      (writeLoop .key f fuel text) s := by
  induction fuel generalizing text w s with
  | zero =>
    obtain rfl : text = [] := List.length_eq_zero_iff.mp (Nat.le_zero.mp hfuel)
    rw [writeLoop]
    exact h.holds hX
  | succ fuel ih =>
    cases text with
    | nil =>
      rw [writeLoop]
      exact h.holds hX
    | cons c text =>
      refine safe_act ?_
      intro s' hK hO hI e hC
      have h' := (h.newKey (List.cons_ne_nil c text)).stable hK hO
      have hunread : e.fault.isSome ∨ e.count = 0 → Content.key X (.ok w) = none := by
        intro hfail
        rw [← h'.content]
        exact hC f rfl hfail
      cases hfault : e.fault with
      | some err =>
        rw [exec_write_failed hfault]
        exact ⟨Alike.fine ⟨rfl, rfl, rfl⟩ hI, w, h', hunread (.inl (by rw [hfault]; rfl))⟩
      | none =>
        rw [exec_write hfault]
        have htext := take_drop_count (c :: text) e.count
        have hwhole : w ++ (c :: text).take e.count ++
            (c :: text).drop (min e.count (c :: text).length) = X.encode sk.1 := by
          rw [List.append_assoc, htext, h.whole]
        refine ⟨h'.fine_append hX hI ⟨_, hwhole⟩ _, ?_⟩
        have hmine := h'.append ((c :: text).take e.count) ((c :: text).length ≤ e.count)
        cases hn : min e.count (c :: text).length with
        | zero =>
          -- nothing was put down, so the file is as it was
          have hcount : e.count = 0 := by
            rw [List.length_cons] at hn
            omega
          refine ⟨_, ⟨hmine, h'.entry, ?_⟩, ?_⟩
          · simp [hcount]
          · simpa [hcount] using hunread (.inr hcount)
        | succ m =>
          rw [hn] at htext hwhole
          have hlen : ((c :: text).drop (m + 1)).length ≤ fuel := by
            rw [List.length_drop]
            omega
          refine ih hlen ⟨hmine, h'.entry, ?_, hwhole⟩
          intro hne
          have hlt : m + 1 < (c :: text).length := List.length_lt_of_drop_ne_nil hne
          rw [KeyFiles.append_complete, decide_eq_false_iff_not]
          omega

/-! ### The parts of a call -/

theorem setPrivateKeyPermissions_harmless (f : ℕ) (newlyCreated : Bool) :
    Prog.All Harmless (setPrivateKeyPermissions f newlyCreated : Call X Unit) := by
  have hmeta : Prog.All Harmless (metadata .key f : Call X UInt32) := ⟨trivial, fun _ => trivial⟩
  refine all_andThen hmeta ?_
  intro m
  refine .ite trivial (.ite trivial (.ite trivial ?_))
  refine all_andThen (all_context ⟨trivial, fun _ => trivial⟩) ?_
  intro _
  refine all_andThen hmeta ?_
  intro m
  exact .ite trivial trivial

theorem resolveKeyPath_harmless (n : Name) :
    Prog.All Harmless (resolveKeyPath n : Call X Unit) := ⟨trivial, fun _ => trivial⟩

/-- A part without other operations may come first. -/
theorem harmless_andThen {P : KeyFiles → Prop}
    (hP : ∀ s s', Keeps X s s' → Own i s s' → P s → P s') {P' : β → KeyFiles → Prop}
    (hE : ∀ s, P s → E s) {p : Call X α} {rest : α → Call X β} (hp : Prog.All Harmless p) (h : P s)
    (hrest : ∀ a s', Keeps X s s' → P s' → KeySafe X s₀ i (post E P') (rest a) s') :
    KeySafe X s₀ i (post E P') (p.andThen rest) s := by
  have hsafe : KeySafe X s₀ i (post E fun _ => P) p s := by
    refine harmless_safe hP ?_ hp h
    intro r s hs
    cases r with
    | error err => exact hE s hs
    | ok a => exact hs
  exact andThen_safe hsafe hrest

theorem exec_openFile (e : KeyEnv X) (n : Name) (s : KeyFiles) {r : Except IoError ℕ}
    (h : ((KeyOp.openFile n).exec X e s).2 = r) :
    (∃ f, r = .ok f ∧ s.entry n = some f) ∨
      ∃ err, r = .error err ∧ (err.kind = .notFound → s.entry n = none) := by
  subst h
  rw [KeyOp.exec]
  cases e.fault with
  | some err => exact .inr ⟨⟨.other, err⟩, rfl, fun h => by cases h⟩
  | none =>
    cases s.entry n with
    | none => exact .inr ⟨_, rfl, fun _ => rfl⟩
    | some f => exact .inl ⟨f, rfl, rfl⟩

theorem exec_readToString (e : KeyEnv X) (n : Name) (f : ℕ) (s : KeyFiles) {t : Chars}
    (h : ((KeyOp.readToString n f).exec X e s).2 = .ok t) : (s.inode n f).content = .ok t := by
  rw [KeyOp.exec] at h
  revert h
  cases e.fault with
  | some err => exact fun h => by cases h
  | none =>
    cases (s.inode n f).content with
    | error b => exact fun h => by cases h
    | ok text =>
      intro h
      exact congrArg Except.ok (Except.ok.inj h)

/-- The text of a file, if it could be read. -/
theorem readToString_safe (n : Name) (f : ℕ) (text : String) :
    KeySafe X s₀ i (post (fun _ => True) fun t s' => KeyInv X s₀ s' ∧ Keeps X s s' ∧
      (s'.inode n f).content = .ok t) ((readToString n f).context text) s := by
  refine context_safe (safe_look (fun _ _ => rfl) ?_)
  intro s' hK _ hI e
  cases hr : ((KeyOp.readToString n f).exec X e s').2 with
  | error err => trivial
  | ok t => exact ⟨hI, hK, exec_readToString e n f s' hr⟩

/-- `id_ed25519.pub` is there and has a public key. -/
def PubIs (pk : Chars) (s : KeyFiles) : Prop :=
  ∃ f t, s.entry .pub = some f ∧ (s.inode .pub f).content = .ok t ∧ Text.trimChars t = pk

theorem PubIs.stable {pk : Chars} (h : PubIs pk s) (hK : Keeps X s s') : PubIs pk s' := by
  obtain ⟨f, t, hf, ht, hpk⟩ := h
  obtain ⟨hf', hsame⟩ := hK.pub f hf
  exact ⟨f, t, hf', by rw [hsame, ht], hpk⟩

/-- The public key is not missing, or was not there to begin with. -/
theorem missingPublicKeyPath_safe (pk : Chars) :
    KeySafe X s₀ i (post (fun _ => True) fun missing s =>
      (missing = true → s₀.entry .pub = none) ∧ (missing = false → PubIs pk s))
      (missingPublicKeyPath pk) s := by
  refine harmless_andThen (P := fun _ => True) (fun _ _ _ _ _ => trivial) (fun _ _ => trivial)
    (all_context (resolveKeyPath_harmless _)) trivial ?_
  intro _ s₁ _ _
  refine safe_look (fun _ _ => rfl) ?_
  intro s₂ _ _ hI e
  obtain ⟨f, hr, hf⟩ | ⟨err, hr, hnone⟩ := exec_openFile e .pub s₂ rfl
  · rw [hr]
    refine andThen_safe (readToString_safe .pub f _) ?_
    intro t s₃ _ hread
    obtain ⟨-, hK, ht⟩ := hread
    refine SafeBy.ite ?_ ?_
    · intro hpk
      exact ⟨fun h => (by cases h), fun _ => ⟨f, t, (hK.pub f hf).1, ht, hpk⟩⟩
    · exact fun _ => trivial
  · rw [hr]
    refine .ite ?_ fun _ => trivial
    intro hkind
    refine ⟨fun _ => ?_, fun h => by cases h⟩
    cases h : s₀.entry .pub with
    | none => rfl
    | some f =>
      have hf := hI.start f h
      rw [hnone hkind] at hf
      cases hf

theorem publishPublicKey_safe {f : ℕ} {sk : SecretKey} (hsk : s.holds X = some sk)
    (h : NewPub i f (publicText X sk) s) :
    KeySafe X s₀ i (post (fun _ => True) fun _ _ => True)
      (publishPublicKey f (publicText X sk)) s := by
  refine safe_act ?_
  intro s' hK hO hI e _
  rw [KeyOp.exec]
  cases e.fault with
  | some err => exact ⟨Alike.fine ⟨rfl, rfl, rfl⟩ hI, trivial⟩
  | none =>
    cases hpub : s'.entry .pub with
    | none => exact ⟨(h.stable hK hO).fine_publish hI (hK.holds sk hsk) hpub, trivial⟩
    | some g =>
      refine ⟨Alike.fine ⟨rfl, rfl, rfl⟩ hI, ?_⟩
      refine andThen_safe (missingPublicKeyPath_safe _) ?_
      intro missing s₁ _ _
      refine SafeBy.ite ?_ ?_
      · exact fun _ => trivial
      · exact fun _ => trivial

theorem fillPublicKey_safe {f : ℕ} {sk : SecretKey} (hsk : s.holds X = some sk)
    (h : NewPub i f [] s) :
    KeySafe X s₀ i (post (fun _ => True) fun _ _ => True)
      (fillPublicKey f (publicText X sk)) s := by
  have hstable : ∀ w s s', Keeps X s s' → Own i s s' → NewPub i f w s → NewPub i f w s' :=
    fun w s s' hK hO hs => hs.stable hK hO
  refine harmless_andThen (hstable []) (fun _ _ => trivial) ⟨trivial, fun _ => trivial⟩ h ?_
  intro mode s₁ hK₁ h₁
  refine harmless_andThen (hstable []) (fun _ _ => trivial) ?_ h₁ ?_
  · exact .ite trivial (all_context ⟨trivial, fun _ => trivial⟩)
  intro _ s₂ hK₂ h₂
  refine andThen_safe (context_safe (writeLoop_pub_safe le_rfl h₂)) ?_
  intro _ s₃ hK₃ h₃
  refine harmless_andThen (hstable _) (fun _ _ => trivial)
    (all_context ⟨trivial, fun _ => trivial⟩) h₃ ?_
  intro _ s₄ hK₄ h₄
  exact publishPublicKey_safe (hK₄.holds _ (hK₃.holds _ (hK₂.holds _ (hK₁.holds _ hsk)))) h₄

/-- A call that has its key publishes it, unless a public key was there to begin with; then it
is the right one. -/
theorem writePublicKey_safe {sk : SecretKey} (required : Bool) (hsk : s.holds X = some sk) :
    KeySafe X s₀ i (post (fun _ => True) fun _ s =>
      s₀.entry .pub = none ∨ PubIs (publicText X sk) s)
      (writePublicKey i (publicText X sk) required) s := by
  refine andThen_safe (missingPublicKeyPath_safe _) ?_
  intro missing s₁ hK₁ hmissing
  refine SafeBy.ite ?_ ?_
  · intro hm
    have hnone := hmissing.1 hm
    refine safe_act ?_
    intro s₂ hK₂ _ hI e _
    rw [KeyOp.exec]
    cases e.fault with
    | some err =>
      refine ⟨Alike.fine ⟨rfl, rfl, rfl⟩ hI, SafeBy.ite ?_ ?_⟩
      · exact fun _ => .inl hnone
      · exact fun _ => trivial
    | none =>
      have hfine := fine_add_pub (i := i) hI e.mode
      have hsk' := hfine.keeps.holds _ (hK₂.holds _ (hK₁.holds _ hsk))
      refine ⟨hfine, SafeBy.imp ?_ (fillPublicKey_safe hsk' (newPub_add hI e.mode))⟩
      intro r s _
      cases r with
      | error err => trivial
      | ok _ => exact .inl hnone
  · intro hm
    exact .inr (hmissing.2 (by simpa using hm))

theorem createPrivateKeyFile_safe (hX : X.Lawful) (sk : SecretKey) :
    KeySafe X s₀ i (post (fun _ => True) fun _ s => s.holds X = some sk)
      (createPrivateKeyFile i (X.encode sk.1)) s := by
  refine harmless_andThen (P := fun _ => True) (fun _ _ _ _ _ => trivial) (fun _ _ => trivial)
    (resolveKeyPath_harmless _) trivial ?_
  intro _ s₁ _ _
  refine safe_act ?_
  intro s₂ _ _ hI e _
  rw [KeyOp.exec]
  cases e.fault with
  | some err => exact ⟨Alike.fine ⟨rfl, rfl, rfl⟩ hI, trivial⟩
  | none =>
    cases hkey : s₂.entry .key with
    | some g => exact ⟨Alike.fine ⟨rfl, rfl, rfl⟩ hI, trivial⟩
    | none =>
      refine ⟨fine_addKey hX hI hkey e.mode, ?_⟩
      have hnew := newKey_addKey (i := i) s₂ e.mode
      -- the new file, from its permissions to its last character
      have hbody : KeySafe X s₀ i (post (Unread X i s₂.next) fun _ s => s.holds X = some sk)
          ((setPrivateKeyPermissions s₂.next true).andThen fun _ =>
            (writeAll .key s₂.next (X.encode sk.1)).context "Failed to write private key")
          (s₂.addKey i e.mode) := by
        refine harmless_andThen (fun s s' hK hO hs => NewKey.stable hs hK hO) ?_
          (setPrivateKeyPermissions_harmless _ _) hnew ?_
        · exact fun s hs => ⟨[], hs, hX.key_nil⟩
        · intro _ s₃ _ h₃
          exact context_safe (writeLoop_key_safe hX le_rfl
            ⟨h₃.toMine, h₃.entry, fun _ => h₃.partly, List.nil_append _⟩)
      refine safe_bind hbody ?_
      intro r s₃ _ hr
      cases r with
      | ok _ => exact hr
      | error err =>
        obtain ⟨w, hw, hunread⟩ := hr
        refine safe_act ?_
        intro s₄ hK hO hI₄ e' _
        rw [KeyOp.exec]
        cases e'.fault with
        | some err' => exact ⟨Alike.fine ⟨rfl, rfl, rfl⟩ hI₄, trivial⟩
        | none => exact ⟨(hw.stable hK hO).fine_remove hI₄ hunread, trivial⟩

/-- What a call that returns may rely on: the key it returns is in `id_ed25519`, with its
public key; and so is the public key in its file, if that was there to begin with. -/
def Returned (X : KeyExt) (s₀ : KeyFiles) (r : GenSk) (s : KeyFiles) : Prop :=
  ∃ sk, r = (publicText X sk, some sk) ∧ s.holds X = some sk ∧
    (s₀.entry .pub = none ∨ PubIs (publicText X sk) s)

theorem Returned.stable {r : GenSk} (h : Returned X s₀ r s) (hK : Keeps X s s') :
    Returned X s₀ r s' := by
  obtain ⟨sk, hr, hsk, hpub⟩ := h
  exact ⟨sk, hr, hK.holds sk hsk, hpub.imp_right fun hp => hp.stable hK⟩

/-- The end of a call that has its key. -/
theorem finish_safe {sk : SecretKey} (required : Bool) (hsk : s.holds X = some sk) :
    KeySafe X s₀ i (post (fun _ => True) (Returned X s₀))
      ((writePublicKey i (publicText X sk) required).andThen fun _ =>
        .ret (.ok (publicText X sk, some sk))) s := by
  refine andThen_safe (writePublicKey_safe required hsk) ?_
  intro _ s₁ hK hpub
  exact ⟨sk, rfl, hK.holds sk hsk, hpub⟩

theorem KeyPair.text_eq (pair : KeyPair X) : pair.text = publicText X pair.sk := by
  rw [KeyPair.text, publicText, pair.pk_eq]

theorem redraw_harmless (n : ℕ) (pair : KeyPair X) : Prog.All Harmless (redraw n pair) := by
  induction n generalizing pair with
  | zero => trivial
  | succ n ih => exact .ite trivial ⟨trivial, fun pair => ih pair⟩

theorem generate_safe (hX : X.Lawful) :
    KeySafe X s₀ i (post (fun _ => True) (Returned X s₀)) (generate i) s := by
  refine safe_look (fun _ _ => rfl) ?_
  intro s₁ _ _ _ e
  have hdraw : KeySafe X s₀ i (fun _ _ => True) (redraw 300 e.pair) s₁ :=
    harmless_safe (P := fun _ => True) (fun _ _ _ _ _ => trivial) (fun _ _ _ => trivial)
      (redraw_harmless _ _) trivial
  refine safe_bind hdraw ?_
  intro pair s₂ _ _
  rw [pair.text_eq]
  refine andThen_safe (missingPublicKeyPath_safe _) ?_
  intro _ s₃ _ _
  refine andThen_safe (context_safe (createPrivateKeyFile_safe hX pair.sk)) ?_
  intro _ s₄ _ h₄
  exact finish_safe true h₄

theorem load_safe (f : ℕ) :
    KeySafe X s₀ i (post (fun _ => True) (Returned X s₀)) (load i f) s := by
  refine harmless_andThen (P := fun _ => True) (fun _ _ _ _ _ => trivial) (fun _ _ => trivial)
    (setPrivateKeyPermissions_harmless _ _) trivial ?_
  intro _ s₁ _ _
  refine andThen_safe (readToString_safe .key f _) ?_
  intro t s₂ _ hread
  obtain ⟨hI, -, ht⟩ := hread
  cases hsk : secretKey X t with
  | error err => trivial
  | ok sk =>
    have hkey : (s₂.inode .key f).content.key X = some sk := by
      rw [ht, Content.key_ok, ← secretKey_eq_ok, hsk]
    have hholds : s₂.holds X = some sk :=
      KeyFiles.holds_eq_some.mpr ⟨f, hI.reads f sk hkey, hkey⟩
    exact finish_safe false hholds

theorem openOrGenerate_safe (hX : X.Lawful) :
    KeySafe X s₀ i (post (fun _ => True) (Returned X s₀)) (openOrGenerate i) s := by
  refine safe_look (fun _ _ => rfl) ?_
  intro s₁ _ _ _ e
  obtain ⟨f, hr, -⟩ | ⟨err, hr, -⟩ := exec_openFile e .key s₁ rfl
  · rw [hr]
    exact load_safe f
  · rw [hr]
    refine SafeBy.ite ?_ ?_
    · exact fun _ => generate_safe hX
    · exact fun _ => trivial

/-- **A call keeps the invariant and what the others own, and returns the key that the files
hold.** -/
theorem genSk_safe (hX : X.Lawful) (wait : ℕ) :
    KeySafe X s₀ i (post (fun _ => True) (Returned X s₀)) (genSk i wait) s := by
  refine SafeBy.ite ?_ ?_
  · intro _
    refine safe_look (fun _ _ => rfl) ?_
    intro s₁ _ _ _ e
    refine SafeBy.ite ?_ ?_
    · exact fun _ => openOrGenerate_safe hX
    · intro _
      refine safe_look (fun _ _ => rfl) ?_
      intro s₂ _ _ _ _
      exact openOrGenerate_safe hX
  · exact fun _ => openOrGenerate_safe hX

/-! ### Whole runs -/

theorem keyInv_initial (hX : X.Lawful) (files : Name → Option (Content × UInt32)) :
    KeyInv X (.initial files) (.initial files) where
  lt := by
    intro n f hf
    obtain ⟨_, _, rfl⟩ := Option.map_eq_some_iff.mp hf
    exact Nat.one_pos
  fresh := fun _ _ _ => rfl
  reads := by
    intro f k hk
    by_cases hf : f = 0
    · subst hf
      cases hfile : files .key with
      | some c => simp [KeyFiles.initial, hfile]
      | none =>
        have hnil : (KeyFiles.initial files).inode .key 0 = ⟨.ok [], none, false⟩ := by
          simp [KeyFiles.initial, hfile]
        rw [hnil, hX.key_nil] at hk
        cases hk
    · have hnil : (KeyFiles.initial files).inode .key f = ⟨.ok [], none, false⟩ := by
        simp [KeyFiles.initial, hf]
      rw [hnil, hX.key_nil] at hk
      cases hk
  start := fun _ hf => hf
  pub := fun _ hf => .inl hf

/-- What a step of the call `i` may do to the files that are there: nothing, but for a private
key file that the call created itself and has not completed. -/
structure Undamaged (i : ℕ) (s s' : KeyFiles) : Prop where
  /-- The private key file. -/
  key : ∀ f, s.entry .key = some f →
    (s.inode .key f).creator ≠ some i ∨ (s.inode .key f).complete = true →
    s'.entry .key = some f ∧ s'.inode .key f = s.inode .key f
  /-- The public key file. -/
  pub : ∀ f, s.entry .pub = some f → s'.entry .pub = some f ∧ s'.inode .pub f = s.inode .pub f

theorem Undamaged.refl (i : ℕ) (s : KeyFiles) : Undamaged i s s :=
  ⟨fun _ hf _ => ⟨hf, rfl⟩, fun _ hf => ⟨hf, rfl⟩⟩

theorem undamaged_of_keeps (hK : Keeps X s s') (hO : ∀ j, j ≠ i → Own j s s') :
    Undamaged i s s' where
  key := by
    intro f hf hset
    cases hc : (s.inode .key f).creator with
    | none => exact hK.settled f hf (.inl hc)
    | some j =>
      by_cases hj : j = i
      · subst hj
        exact hK.settled f hf (.inr (hset.resolve_left fun h => h hc))
      · obtain ⟨hsame, hname⟩ := hO j hj .key f hc
        exact ⟨hname.mpr hf, hsame⟩
  pub := hK.pub

/-- What `id_ed25519.pub` has in it, if it is there. -/
def KeyFiles.pubContent (s : KeyFiles) : Option Content :=
  (s.entry .pub).map fun f => (s.inode .pub f).content

theorem Keeps.pubContent (hK : Keeps X s s') {f : ℕ} (hf : s.entry .pub = some f) :
    s'.pubContent = s.pubContent := by
  obtain ⟨hf', hsame⟩ := hK.pub f hf
  rw [KeyFiles.pubContent, KeyFiles.pubContent, hf, hf', Option.map_some, Option.map_some, hsame]

/-- A public key that was not there to begin with is that of the private key, in full. -/
theorem KeyInv.pubContent (hI : KeyInv X s₀ s) (hK : Keeps X s₀ s) {t : Content}
    (ht : s.pubContent = some t) :
    s₀.pubContent = some t ∨ ∃ k, s.holds X = some k ∧ t = .ok (publicText X k) := by
  obtain ⟨f, hf, rfl⟩ := Option.map_eq_some_iff.mp ht
  rcases hI.pub f hf with h₀ | ⟨k, hk, hc⟩
  · rw [← hK.pubContent h₀]
    exact .inl ht
  · exact .inr ⟨k, hk, hc⟩

/-- A call that has returned finds its public key in the file, if there is one. -/
theorem Returned.pubContent (hX : X.Lawful) (hI : KeyInv X s₀ s) (hK : Keeps X s₀ s)
    {sk : SecretKey} (hsk : s.holds X = some sk)
    (hpub : s₀.entry .pub = none ∨ PubIs (publicText X sk) s) {t : Content}
    (ht : s.pubContent = some t) :
    ∃ text, t = .ok text ∧ Text.trimChars text = publicText X sk := by
  rcases hpub with hnone | ⟨f, text, hf, hc, htrim⟩
  · rcases hI.pubContent hK ht with h₀ | ⟨k, hk, rfl⟩
    · rw [KeyFiles.pubContent, hnone] at h₀
      cases h₀
    · obtain rfl : k = sk := Option.some.inj (hk.symm.trans hsk)
      exact ⟨_, rfl, hX.trim_prefix (List.prefix_refl _)⟩
  · rw [KeyFiles.pubContent, hf, Option.map_some, hc, Option.some.injEq] at ht
    exact ⟨text, ht.symm, htrim⟩

/-- **Every run whose failing writes meet the condition has one key**: no step damages the
files that are there; a public key that appears is there in full; and a call that has returned
a pair finds the secret key in `id_ed25519` and the public key in `id_ed25519.pub`, if that is
there, and every call that returns returns the same pair. -/
theorem server_key_stable (hX : X.Lawful) (files : Name → Option (Content × UInt32))
    (wait : ℕ → ℕ) {c : Config (KeySig X) KeyFiles ℕ (Except Failure GenSk)}
    (h : Reach (keyMachine X) (OpOk (FailsUnread X)) (calls X files wait) c) :
    (∀ i e, OpOk (FailsUnread X) c i e → Undamaged i c.st (c.step (keyMachine X) i e).st) ∧
      (∀ t, c.st.pubContent = some t → (KeyFiles.initial files).pubContent = some t ∨
        ∃ k, c.st.holds X = some k ∧ t = .ok (publicText X k)) ∧
      ∀ i r, (c.task i).result? = some (.ok r) →
        ∃ sk, r = (publicText X sk, some sk) ∧ c.st.holds X = some sk ∧
          (∀ t, c.st.pubContent = some t →
            ∃ text, t = .ok text ∧ Text.trimChars text = publicText X sk) ∧
          ∀ j r', (c.task j).result? = some (.ok r') → r' = r := by
  obtain ⟨hI, hK, hsafe⟩ := Reach.safeBy (K := Keeps X) (I := KeyInv X (.initial files))
    Keeps.refl Keeps.trans Own.refl (fun _ => Own.trans)
    (Q := fun _ => post (fun _ => True) (Returned X (.initial files))) (fun _ r s s' hK _ hr => by
      cases r with
      | error err => trivial
      | ok r => exact Returned.stable hr hK)
    (keyInv_initial hX files) (fun _ => genSk_safe hX _) h
  have hreturned : ∀ i r, (c.task i).result? = some (.ok r) →
      Returned X (.initial files) r c.st := by
    intro i r hr
    have hi := hsafe i
    rw [Prog.eq_ret_of_result? hr] at hi
    exact hi
  refine ⟨?_, fun t ht => hI.pubContent hK ht, ?_⟩
  · intro i e hok
    cases hi : c.task i with
    | ret a =>
      rw [Config.step_ret _ hi]
      exact .refl i _
    | op o k =>
      have hsi := hsafe i
      rw [hi] at hsi
      obtain ⟨hK', hO'⟩ := hsi.keeps Keeps.refl (Own.refl i) hI (hok o (by rw [hi]; rfl))
      rw [Config.step_op _ hi]
      exact undamaged_of_keeps hK' hO'
  · intro i r hr
    obtain ⟨sk, rfl, hsk, hpub⟩ := hreturned i r hr
    refine ⟨sk, rfl, hsk, fun t ht => Returned.pubContent hX hI hK hsk hpub ht, ?_⟩
    intro j r' hr'
    obtain ⟨sk', rfl, hsk', -⟩ := hreturned j r' hr'
    obtain rfl : sk' = sk := Option.some.inj (hsk'.symm.trans hsk)
    rfl

/-! ### Two runs -/

/-- The pair whose bytes are all `b`. -/
def pairOf (b : UInt8) : KeyPair base64Ext where
  pk := List.replicate 32 b
  sk := ⟨List.replicate 64 b, rfl⟩
  pk_eq := rfl

/-- Operations succeed, and draw the pair `pairOf b`. -/
def succeeds (b : UInt8) : KeyEnv base64Ext := ⟨none, 100, 0o600, pairOf b⟩

/-- A write puts down all but the filling of a key's text. -/
def cutShort : KeyEnv base64Ext := ⟨none, 86, 0o600, pairOf 0⟩

/-- The disk is full. -/
def diskFull : KeyEnv base64Ext :=
  ⟨some "No space left on device (os error 28)", 0, 0o600, pairOf 0⟩

/-- `hbbs` makes the key, and then `hbbr` reads it. -/
def oneAfterTheOther : List (ℕ × KeyEnv base64Ext) :=
  List.replicate 15 (0, succeeds 0) ++ List.replicate 7 (1, succeeds 0)

/-- `hbbs` writes all but the filling of the key's text; `hbbr` reads the key, and cannot make
a file for the public key; `hbbs` fails to write the rest and removes the file; started again,
it makes another key. -/
def failingLate : List (ℕ × KeyEnv base64Ext) :=
  List.replicate 7 (0, succeeds 0) ++ [(0, cutShort)] ++ List.replicate 6 (1, succeeds 0) ++
    [(1, diskFull), (0, diskFull), (0, succeeds 0)] ++ List.replicate 15 (2, succeeds 1)

/-- `hbbs` does not wait for the key, and `hbbr` does. -/
def waits (me : ℕ) : ℕ := if me = 1 then 300 else 0

/-- An empty directory. -/
def noFiles (_ : Name) : Option (Content × UInt32) := none

/-- Both calls return, with one pair. -/
theorem server_key_stable_both :
    ((calls base64Ext noFiles waits).sched (keyMachine base64Ext) oneAfterTheOther).st.holds
        base64Ext = some (pairOf 0).sk ∧
      ∀ r, (((calls base64Ext noFiles waits).sched (keyMachine base64Ext) oneAfterTheOther).task
          1).result? = some (.ok r) →
        r = (publicText base64Ext (pairOf 0).sk, some (pairOf 0).sk) := by
  have hstable := (server_key_stable base64Ext_lawful noFiles waits
    (c := (calls base64Ext noFiles waits).sched (keyMachine base64Ext) oneAfterTheOther)
    (reach_sched (by decide +kernel))).2.2 0
    (publicText base64Ext (pairOf 0).sk, some (pairOf 0).sk) (by decide +kernel)
  obtain ⟨sk, hr, hsk, -, hsame⟩ := hstable
  obtain rfl : (pairOf 0).sk = sk := Option.some.inj (congrArg Prod.snd hr)
  exact ⟨hsk, hsame 1⟩

/-- **Without the condition two calls return different keys.** -/
theorem late_failure_two_keys :
    ∃ c, Reach (keyMachine base64Ext) (fun _ _ _ => True) (calls base64Ext noFiles waits) c ∧
      ∃ sk sk', sk ≠ sk' ∧
        (c.task 1).result? = some (.ok (publicText base64Ext sk, some sk)) ∧
        (c.task 2).result? = some (.ok (publicText base64Ext sk', some sk')) := by
  refine ⟨(calls base64Ext noFiles waits).sched (keyMachine base64Ext) failingLate,
    reach_sched (along_true _ _), (pairOf 0).sk, (pairOf 1).sk, ?_, ?_, ?_⟩
  · decide
  · decide +kernel
  · decide +kernel

end Key
end RustdeskServer
