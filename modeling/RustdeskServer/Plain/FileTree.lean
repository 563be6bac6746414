import RustdeskServer.Plain.Assoc

/-!
# A tree of folders and files

A path is the list of its names from the root.  Folders are made with all the folders above
them, files are written in place, and a file that is copied to the path of a folder lands inside
it.  What a tree looks like apart from what is in its files is its *shape*: whether a folder can
be made and where a file lands depends on the shape only.

## Main definitions

* `FileTree`, `FileTree.isDir`, `FileTree.isFile` — a tree.
* `FileTree.mkdirs` — make a folder and those above it, as far as no file is in the way.
* `FileTree.landing` — where a file goes that is copied to a path.
* `FileTree.write`, `FileTree.remove`, `FileTree.weight` — a file is written or removed; what
  the files weigh.
* `FileTree.shape` — the tree without what is in its files.

## Main results

* `FileTree.isDir_mkdirs`, `FileTree.isDir_of_isDir_mkdirs` — which folders are made.
* `FileTree.mkdirs_shape`, `FileTree.shape_write`, `FileTree.landing_shape` — the shape decides.
-/

namespace Plain

/-- Folders, and files with their content. -/
structure FileTree (ν κ : Type*) where
  /-- The folders below the root. -/
  dirs : List (List ν)
  /-- The files. -/
  files : List (List ν × κ)

namespace FileTree

variable {ν κ : Type*} [DecidableEq ν]

/-- A root with nothing in it. -/
def empty : FileTree ν κ := ⟨[], []⟩

/-- There is a folder. -/
def isDir (t : FileTree ν κ) (p : List ν) : Bool := p.isEmpty || decide (p ∈ t.dirs)

/-- There is a file. -/
def isFile (t : FileTree ν κ) (p : List ν) : Bool := decide (p ∈ t.files.map Prod.fst)

/-- Make the folders `rest` below the folder `at_`, one after the other, until one is `taken`. -/
def mkdirFrom (taken : List ν → Bool) : List ν → List ν → List (List ν) → List (List ν) × Bool
  | _, [], dirs => (dirs, true)
  | at_, n :: rest, dirs =>
    if taken (at_ ++ [n]) then (dirs, false)
    else mkdirFrom taken (at_ ++ [n]) rest
      (if at_ ++ [n] ∈ dirs then dirs else (at_ ++ [n]) :: dirs)

/-- Make a folder and those above it: the tree after it, and whether it could be made. -/
def mkdirs (t : FileTree ν κ) (p : List ν) : FileTree ν κ × Bool :=
  ({ t with dirs := (mkdirFrom t.isFile [] p t.dirs).1 }, (mkdirFrom t.isFile [] p t.dirs).2)

/-- Where a file called `name` goes that is copied to `p`. -/
def landing (t : FileTree ν κ) (p : List ν) (name : ν) : List ν :=
  if t.isDir p then p ++ [name] else p

/-- Write a file. -/
def write (t : FileTree ν κ) (p : List ν) (c : κ) : FileTree ν κ :=
  { t with files := put p c t.files }

/-- Remove a file. -/
def remove (t : FileTree ν κ) (p : List ν) : FileTree ν κ :=
  { t with files := t.files.filter fun e => e.1 ≠ p }

/-- What the files weigh. -/
def weight (w : List ν × κ → ℕ) (t : FileTree ν κ) : ℕ := (t.files.map w).sum

/-- The tree without what is in its files. -/
def shape (t : FileTree ν κ) : FileTree ν Unit := ⟨t.dirs, t.files.map fun e => (e.1, ())⟩

/-! ### Folders -/

theorem mem_mkdirFrom {taken : List ν → Bool} {at_ rest q : List ν} {dirs : List (List ν)}
    (h : q ∈ (mkdirFrom taken at_ rest dirs).1) : q ∈ dirs ∨ q <+: at_ ++ rest := by
  induction rest generalizing at_ dirs with
  | nil => exact Or.inl h
  | cons n rest ih =>
    rw [mkdirFrom] at h
    split at h
    · exact Or.inl h
    · rcases ih h with hdir | hpre
      · split at hdir
        · exact Or.inl hdir
        · rcases List.mem_cons.mp hdir with rfl | hdir
          · exact Or.inr ⟨rest, by rw [List.append_assoc, List.singleton_append]⟩
          · exact Or.inl hdir
      · rw [List.append_assoc, List.singleton_append] at hpre
        exact Or.inr hpre

/-- Only a folder and those above it are made. -/
theorem isDir_of_isDir_mkdirs {t : FileTree ν κ} {p q : List ν}
    (h : (t.mkdirs p).1.isDir q = true) : t.isDir q = true ∨ q <+: p := by
  unfold isDir at h ⊢
  rw [Bool.or_eq_true, decide_eq_true_eq] at h ⊢
  rcases h with h | h
  · exact Or.inl (Or.inl h)
  · rcases mem_mkdirFrom h with hdir | hpre
    · exact Or.inl (Or.inr hdir)
    · exact Or.inr hpre

theorem mem_mkdirFrom_self {taken : List ν → Bool} {at_ rest : List ν} {dirs : List (List ν)}
    (hat : at_ = [] ∨ at_ ∈ dirs) (hfree : ∀ q, q <+: at_ ++ rest → taken q = false) :
    at_ ++ rest = [] ∨ at_ ++ rest ∈ (mkdirFrom taken at_ rest dirs).1 := by
  induction rest generalizing at_ dirs with
  | nil =>
    rw [List.append_nil]
    exact hat
  | cons n rest ih =>
    have hsplit : at_ ++ n :: rest = at_ ++ [n] ++ rest := by
      rw [List.append_assoc, List.singleton_append]
    have hn : taken (at_ ++ [n]) = false := hfree _ ⟨rest, hsplit.symm⟩
    have hdir : at_ ++ [n] ∈ (if at_ ++ [n] ∈ dirs then dirs else (at_ ++ [n]) :: dirs) := by
      split
      · assumption
      · exact List.mem_cons_self
    rw [mkdirFrom, hn, if_neg Bool.false_ne_true, hsplit]
    exact ih (Or.inr hdir) fun q hq => hfree q (hsplit ▸ hq)

/-- **A folder is made if no file is in the way.** -/
theorem isDir_mkdirs {t : FileTree ν κ} {p : List ν} (h : ∀ q, q <+: p → t.isFile q = false) :
    (t.mkdirs p).1.isDir p = true := by
  have hdir := @mem_mkdirFrom_self ν _ t.isFile [] p t.dirs (Or.inl rfl) h
  rw [List.nil_append] at hdir
  rw [isDir, Bool.or_eq_true, decide_eq_true_eq, List.isEmpty_iff]
  exact hdir

@[simp] theorem files_mkdirs (t : FileTree ν κ) (p : List ν) : (t.mkdirs p).1.files = t.files := rfl

/-! ### Shapes -/

@[simp] theorem isDir_shape (t : FileTree ν κ) (p : List ν) : t.shape.isDir p = t.isDir p := rfl

omit [DecidableEq ν] in
theorem map_fst_shape (t : FileTree ν κ) : t.shape.files.map Prod.fst = t.files.map Prod.fst := by
  simp [shape]

@[simp] theorem isFile_shape (t : FileTree ν κ) (p : List ν) : t.shape.isFile p = t.isFile p := by
  rw [isFile, isFile, map_fst_shape]

@[simp] theorem landing_shape (t : FileTree ν κ) (p : List ν) (name : ν) :
    t.shape.landing p name = t.landing p name := rfl

theorem mkdirs_shape (t : FileTree ν κ) (p : List ν) :
    t.shape.mkdirs p = ((t.mkdirs p).1.shape, (t.mkdirs p).2) := by
  have htaken : t.shape.isFile = t.isFile := funext t.isFile_shape
  unfold mkdirs
  rw [htaken]
  rfl

theorem shape_write {t : FileTree ν κ} {p : List ν} (h : t.isFile p = false) (c : κ) :
    (t.write p c).shape = t.shape.write p () := by
  have hmem : p ∉ t.files.map Prod.fst := by simpa [isFile] using h
  have hmem' : p ∉ t.shape.files.map Prod.fst := by rwa [map_fst_shape]
  unfold write
  rw [put_of_notMem hmem, put_of_notMem hmem']
  simp [shape]

/-! ### Files -/

theorem lookup_write_self (t : FileTree ν κ) (p : List ν) (c : κ) :
    (t.write p c).files.lookup p = some c := lookup_put_self p c t.files

theorem lookup_write_of_ne {p q : List ν} (h : q ≠ p) (t : FileTree ν κ) (c : κ) :
    (t.write p c).files.lookup q = t.files.lookup q := lookup_put_of_ne h c t.files

theorem isFile_write (t : FileTree ν κ) (p q : List ν) (c : κ) :
    (t.write p c).isFile q = true ↔ q = p ∨ t.isFile q = true := by
  rw [isFile, isFile, decide_eq_true_eq, decide_eq_true_eq]
  exact mem_map_fst_put

/-- Removing what is not there changes nothing. -/
theorem remove_of_not_isFile {t : FileTree ν κ} {p : List ν} (h : t.isFile p = false) :
    t.remove p = t := by
  have hmem : p ∉ t.files.map Prod.fst := by simpa [isFile] using h
  have hall : ∀ e ∈ t.files, decide (e.1 ≠ p) = true := by
    intro e he
    rw [decide_eq_true_eq]
    rintro rfl
    exact hmem (List.mem_map_of_mem he)
  unfold remove
  rw [List.filter_eq_self.mpr hall]

@[simp] theorem weight_mkdirs (w : List ν × κ → ℕ) (t : FileTree ν κ) (p : List ν) :
    (t.mkdirs p).1.weight w = t.weight w := rfl

theorem weight_write_le (w : List ν × κ → ℕ) (t : FileTree ν κ) (p : List ν) (c : κ) :
    (t.write p c).weight w ≤ t.weight w + w (p, c) := sum_put_le w p c t.files

/-- A file that replaces another adds less than its weight. -/
theorem weight_write_lt {w : List ν × κ → ℕ} {t : FileTree ν κ} {p : List ν}
    (h : t.isFile p = true) (hw : ∀ c, 0 < w (p, c)) (c : κ) :
    (t.write p c).weight w < t.weight w + w (p, c) :=
  sum_put_lt (of_decide_eq_true h) hw c

end FileTree
end Plain
