import RustdeskServer.KeyStable

/-!
# The keys the two servers go by

`hbbs` and `hbbr` are given their keys apart, each by its own `-k`, and are started apart,
again and again, in one directory.  A client has one validation key for both.  Each server
reads its argument by its own `get_server_sk`: a text may be the key itself or a private key,
two texts stand for the key in the files, and with no text at all `hbbr` leaves the files
alone while `hbbs` takes its signing key from them.

## Main definitions

* `readKeyArg`, `Hbbs.getServerSk`, `Hbbr.getServerSk` — the argument, and both functions.
* `KeyUse`, `KeyUse.Gives` — what an argument says, and the key that comes of it.
* `starts` — starts of both servers in one directory.

## Main results

* `getServerSk_safe` — what one start returns, whatever the others do meanwhile.
* `servers_agree` — **arguments that say the same give both servers one key, and `hbbs` signs
  with the key that belongs to it.**
-/

namespace RustdeskServer

open Atomic

namespace Key

/-! ### `get_server_sk` -/

section Program

variable {X : KeyExt}

variable (X) in
/-- The text of an argument, or of the public key in it if it is a private key, and that
private key. -/
def readKeyArg (key : Chars) : Chars × Option SecretKey :=
  match X.decode key with
  | .error _ => (key, none)
  | .ok b =>
    match SecretKey.fromSlice b with
    | none => (key, none)
    | some sk => (X.encode (sk.1.drop 32), some sk)

/-- The two texts that stand for the key in the files. -/
def FilesKey (key : Chars) : Prop := key = ['-'] ∨ key = ['_']

instance (key : Chars) : Decidable (FilesKey key) :=
  inferInstanceAs (Decidable (key = ['-'] ∨ key = ['_']))

/-- `get_server_sk` of `hbbs`, as the call `me`: the validation key, and the signing key. -/
def Hbbs.getServerSk (me : ℕ) (key : Chars) : Call X (Chars × Option SecretKey) :=
  let (key, outSk) := readKeyArg X key
  if key = [] ∨ FilesKey key then
    (genSk me 0).andThen fun r => .ret (.ok (if key = [] then key else r.1, r.2))
  else .ret (.ok (key, outSk))

/-- `get_server_sk` of `hbbr`, as the call `me`: the validation key. -/
def Hbbr.getServerSk (me : ℕ) (key : Chars) : Call X Chars :=
  let (key, _) := readKeyArg X key
  if FilesKey key then (genSk me 300).andThen fun r => .ret (.ok r.1)
  else .ret (.ok key)

/-- The two programs. -/
inductive Program
  /-- `hbbs`. -/
  | hbbs
  /-- `hbbr`. -/
  | hbbr
  deriving DecidableEq

/-- What a start does about its keys; `hbbr` has no signing key. -/
def Program.getServerSk (me : ℕ) (key : Chars) : Program → Call X (Chars × Option SecretKey)
  | .hbbs => Hbbs.getServerSk me key
  | .hbbr => (Hbbr.getServerSk me key).andThen fun key => .ret (.ok (key, none))

/-- Starts in a directory: which program each is of, and its argument. -/
def starts (X : KeyExt) (files : Name → Option (Content × UInt32)) (program : ℕ → Program)
    (arg : ℕ → Chars) :
    Config (KeySig X) KeyFiles ℕ (Except Failure (Chars × Option SecretKey)) where
  st := .initial files
  task := fun me => (program me).getServerSk me (arg me)

end Program

/-! ### What an argument says -/

section Use

variable (X : KeyExt)

/-- What an argument says of the key. -/
inductive KeyUse
  /-- No key: everyone is let in. -/
  | anyone
  /-- The key in the files. -/
  | files
  /-- This text. -/
  | fixed (text : Chars)
  deriving DecidableEq

/-- What an argument says. -/
def keyUse (arg : Chars) : KeyUse :=
  if (readKeyArg X arg).1 = [] then .anyone
  else if FilesKey (readKeyArg X arg).1 then .files
  else .fixed (readKeyArg X arg).1

/-- The validation key that comes of it, over the files `s`. -/
def KeyUse.Gives (s : KeyFiles) : KeyUse → Chars → Prop
  | .anyone, key => key = []
  | .files, key => ∃ sk, s.holds X = some sk ∧ key = publicText X sk
  | .fixed text, key => key = text

/-- The signing key that `hbbs` has by an argument: its own if that is a private key, none if
it is a public one, and else that in the files. -/
def Signs (s : KeyFiles) (arg : Chars) (signing : Option SecretKey) : Prop :=
  match keyUse X arg with
  | .fixed _ => signing = (readKeyArg X arg).2
  | _ => ∃ sk, s.holds X = some sk ∧ signing = some sk

/-- What a start that returns has. -/
structure Started (p : Program) (arg : Chars) (r : Chars × Option SecretKey) (s : KeyFiles) :
    Prop where
  /-- Its validation key. -/
  gives : (keyUse X arg).Gives X s r.1
  /-- Its signing key. -/
  signs : p = .hbbs → Signs X s arg r.2

variable {X} {s s' s₀ : KeyFiles} {arg : Chars}

theorem keyUse_anyone (h : (readKeyArg X arg).1 = []) : keyUse X arg = .anyone := if_pos h

theorem keyUse_files (h : FilesKey (readKeyArg X arg).1) : keyUse X arg = .files := by
  have hne : (readKeyArg X arg).1 ≠ [] := by
    rcases h with h | h <;> rw [h] <;> exact List.cons_ne_nil _ _
  rw [keyUse, if_neg hne, if_pos h]

theorem keyUse_fixed (h : (readKeyArg X arg).1 ≠ []) (h' : ¬FilesKey (readKeyArg X arg).1) :
    keyUse X arg = .fixed (readKeyArg X arg).1 := by
  rw [keyUse, if_neg h, if_neg h']

/-- What comes of an argument stays, as the key in the files does. -/
theorem KeyUse.Gives.stable {u : KeyUse} {key : Chars} (h : u.Gives X s key) (hK : Keeps X s s') :
    u.Gives X s' key := by
  cases u with
  | anyone => exact h
  | files =>
    obtain ⟨sk, hsk, hkey⟩ := h
    exact ⟨sk, hK.holds sk hsk, hkey⟩
  | fixed text => exact h

theorem Signs.stable {signing : Option SecretKey} (h : Signs X s arg signing)
    (hK : Keeps X s s') : Signs X s' arg signing := by
  unfold Signs at h ⊢
  cases hu : keyUse X arg with
  | fixed text => simpa only [hu] using h
  | anyone | files =>
    simp only [hu] at h
    obtain ⟨sk, hsk, heq⟩ := h
    exact ⟨sk, hK.holds sk hsk, heq⟩

theorem Started.stable {p : Program} {r : Chars × Option SecretKey} (h : Started X p arg r s)
    (hK : Keeps X s s') : Started X p arg r s' :=
  ⟨h.gives.stable hK, fun hp => (h.signs hp).stable hK⟩

/-- One argument gives one key. -/
theorem KeyUse.Gives.unique {u : KeyUse} {key key' : Chars} (h : u.Gives X s key)
    (h' : u.Gives X s key') : key' = key := by
  cases u with
  | anyone => exact h'.trans h.symm
  | files =>
    obtain ⟨sk, hsk, rfl⟩ := h
    obtain ⟨sk', hsk', rfl⟩ := h'
    cases hsk.symm.trans hsk'
    rfl
  | fixed text => exact h'.trans h.symm

end Use

/-! ### One start -/

section Start

variable {X : KeyExt} {s s₀ : KeyFiles} {i : ℕ}

theorem hbbs_safe (hX : X.Lawful) (arg : Chars) :
    KeySafe X s₀ i (post (fun _ => True) (Started X .hbbs arg)) (Hbbs.getServerSk i arg) s := by
  refine SafeBy.ite ?_ ?_
  · intro hfiles
    refine andThen_safe (genSk_safe hX 0) ?_
    rintro r s₁ - ⟨sk, rfl, hsk, -⟩
    rcases hfiles with hnil | hfiles
    · have huse := keyUse_anyone hnil
      refine ⟨?_, fun _ => ?_⟩
      · rw [huse]
        exact (if_pos hnil).trans hnil
      · rw [Signs, huse]
        exact ⟨sk, hsk, rfl⟩
    · have huse := keyUse_files hfiles
      have hne : (readKeyArg X arg).1 ≠ [] := by
        intro hnil
        rw [keyUse_anyone hnil] at huse
        cases huse
      refine ⟨?_, fun _ => ?_⟩
      · rw [huse]
        exact ⟨sk, hsk, if_neg hne⟩
      · rw [Signs, huse]
        exact ⟨sk, hsk, rfl⟩
  · intro hfixed
    have huse := keyUse_fixed (fun h => hfixed (Or.inl h)) fun h => hfixed (Or.inr h)
    refine ⟨?_, fun _ => ?_⟩
    · rw [huse]
      rfl
    · rw [Signs, huse]
      rfl

theorem hbbr_safe (hX : X.Lawful) (arg : Chars) :
    KeySafe X s₀ i (post (fun _ => True) fun key s => (keyUse X arg).Gives X s key)
      (Hbbr.getServerSk i arg) s := by
  refine SafeBy.ite ?_ ?_
  · intro hfiles
    refine andThen_safe (genSk_safe hX 300) ?_
    rintro r s₁ - ⟨sk, rfl, hsk, -⟩
    change (keyUse X arg).Gives X s₁ _
    rw [keyUse_files hfiles]
    exact ⟨sk, hsk, rfl⟩
  · intro hfiles
    by_cases hnil : (readKeyArg X arg).1 = []
    · change (keyUse X arg).Gives X s _
      rw [keyUse_anyone hnil]
      exact hnil
    · change (keyUse X arg).Gives X s _
      rw [keyUse_fixed hnil hfiles]
      rfl

/-- **What one start returns**, whatever the others do meanwhile. -/
theorem getServerSk_safe (hX : X.Lawful) (p : Program) (arg : Chars) :
    KeySafe X s₀ i (post (fun _ => True) (Started X p arg)) (p.getServerSk i arg) s := by
  cases p with
  | hbbs => exact hbbs_safe hX arg
  | hbbr =>
    refine andThen_safe (hbbr_safe hX arg) ?_
    intro key s₁ _ hkey
    exact ⟨hkey, nofun⟩

end Start

/-! ### Every run -/

/-- A private key in an argument comes with its public key. -/
theorem readKeyArg_publicText {X : KeyExt} (hpk : ∀ sk : SecretKey, X.publicKey sk = sk.1.drop 32)
    {arg : Chars} {sk : SecretKey} (h : (readKeyArg X arg).2 = some sk) :
    (readKeyArg X arg).1 = publicText X sk := by
  unfold readKeyArg at h ⊢
  cases hd : X.decode arg with
  | error err =>
    simp only [hd] at h
    cases h
  | ok b =>
    simp only [hd] at h ⊢
    cases hs : SecretKey.fromSlice b with
    | none =>
      simp only [hs] at h
      cases h
    | some sk' =>
      simp only [hs, Option.some.injEq] at h ⊢
      rw [publicText, hpk, h]

/-- The signing key belongs to the validation key, if there is one. -/
theorem Started.publicText_eq {X : KeyExt} (hpk : ∀ sk : SecretKey, X.publicKey sk = sk.1.drop 32)
    {s : KeyFiles} {arg : Chars} {r : Chars × Option SecretKey} (h : Started X .hbbs arg r s)
    {sk : SecretKey} (hsk : r.2 = some sk) : r.1 = [] ∨ r.1 = publicText X sk := by
  have hgives := h.gives
  have hsigns := h.signs rfl
  unfold Signs at hsigns
  cases hu : keyUse X arg with
  | anyone =>
    rw [hu] at hgives
    exact Or.inl hgives
  | files =>
    rw [hu] at hgives
    simp only [hu] at hsigns
    obtain ⟨k, hk, hkey⟩ := hgives
    obtain ⟨k', hk', hsig⟩ := hsigns
    cases hk.symm.trans hk'
    cases hsk.symm.trans hsig
    exact Or.inr hkey
  | fixed text =>
    rw [hu] at hgives
    simp only [hu] at hsigns
    have htext : text = (readKeyArg X arg).1 := by
      unfold keyUse at hu
      split at hu
      · cases hu
      · split at hu
        · cases hu
        · cases hu
          rfl
    refine Or.inr ?_
    rw [show r.1 = text from hgives, htext]
    exact readKeyArg_publicText hpk (hsigns.symm.trans hsk)

/-- **Both servers go by one key.**  Whatever order the starts of `hbbs` and `hbbr` in one
directory go on in, and wherever they fail or stop, so long as no write of a new private key
fails when what it has put down reads as the key already: a start that returns has the
validation key that its argument says, by the files as they are now; `hbbs` signs with the
secret key that belongs to it; and two starts whose arguments say the same have one validation
key, and both sign with one key unless the arguments carry their own. -/
theorem servers_agree {X : KeyExt} (hX : X.Lawful)
    (hpk : ∀ sk : SecretKey, X.publicKey sk = sk.1.drop 32)
    (files : Name → Option (Content × UInt32)) (program : ℕ → Program) (arg : ℕ → Chars)
    {c : Config (KeySig X) KeyFiles ℕ (Except Failure (Chars × Option SecretKey))}
    (h : Reach (keyMachine X) (OpOk (FailsUnread X)) (starts X files program arg) c) {i : ℕ}
    {r : Chars × Option SecretKey} (hr : (c.task i).result? = some (.ok r)) :
    (keyUse X (arg i)).Gives X c.st r.1 ∧
      (program i = .hbbs → Signs X c.st (arg i) r.2 ∧
        ∀ sk, r.2 = some sk → r.1 = [] ∨ r.1 = publicText X sk) ∧
      ∀ j r', (c.task j).result? = some (.ok r') → keyUse X (arg j) = keyUse X (arg i) →
        r'.1 = r.1 ∧ (program i = .hbbs → program j = .hbbs →
          (∀ text, keyUse X (arg i) ≠ .fixed text) → r'.2 = r.2) := by
  obtain ⟨-, -, hsafe⟩ := Reach.safeBy (K := Keeps X) (I := KeyInv X (.initial files))
    Keeps.refl Keeps.trans Own.refl (fun _ => Own.trans)
    (Q := fun j => post (fun _ => True) (Started X (program j) (arg j)))
    (fun j r s s' hK _ hr => by
      cases r with
      | error err => trivial
      | ok r => exact Started.stable hr hK)
    (keyInv_initial hX files) (fun j => getServerSk_safe hX (program j) (arg j)) h
  have hstarted : ∀ j r, (c.task j).result? = some (.ok r) →
      Started X (program j) (arg j) r c.st := by
    intro j r hr
    have hj := hsafe j
    rw [Prog.eq_ret_of_result? hr] at hj
    exact hj
  have hi := hstarted i r hr
  refine ⟨hi.gives, fun hp => ⟨hi.signs hp, fun sk hsk => ?_⟩, fun j r' hr' huse => ⟨?_, ?_⟩⟩
  · rw [hp] at hi
    exact hi.publicText_eq hpk hsk
  · have hj := (hstarted j r' hr').gives
    rw [huse] at hj
    exact hi.gives.unique hj
  · intro hpi hpj hopen
    have hsi := hi.signs hpi
    have hsj := (hstarted j r' hr').signs hpj
    unfold Signs at hsi hsj
    rw [huse] at hsj
    cases hu : keyUse X (arg i) with
    | fixed text => exact absurd hu (hopen text)
    | anyone | files =>
      simp only [hu] at hsi hsj
      obtain ⟨sk, hsk, hri⟩ := hsi
      obtain ⟨sk', hsk', hrj⟩ := hsj
      cases hsk.symm.trans hsk'
      exact hrj.trans hri.symm

/-- `hbbs -k _` makes the key and `hbbr -k -` reads it. -/
theorem servers_agree_both :
    let c := (starts base64Ext noFiles (fun me => if me = 0 then .hbbs else .hbbr)
      (fun me => if me = 0 then ['_'] else ['-'])).sched (keyMachine base64Ext) oneAfterTheOther
    ∃ r, (c.task 1).result? = some (.ok r) ∧ r.1 = publicText base64Ext (pairOf 0).sk := by
  intro c
  have hr : (c.task 0).result? =
      some (.ok (publicText base64Ext (pairOf 0).sk, some (pairOf 0).sk)) := by decide +kernel
  have hr' : (c.task 1).result? = some (.ok (publicText base64Ext (pairOf 0).sk, none)) := by
    decide +kernel
  exact ⟨_, hr', ((servers_agree base64Ext_lawful (fun _ => rfl) noFiles _ _
    (reach_sched (by decide +kernel)) hr).2.2 1 _ hr' (by decide)).1⟩

end Key
end RustdeskServer
