import RustdeskServer.Backup

/-!
# Whether the archive holds every file

Several data folders share one staging tree, under their base names.  Two folders of one name
write over each other's files; so do a folder whose base name is `.` and its neighbours; and what
is staged for `..` is not in the archive at all.  A copy that fails is passed over.  And the URI
of an SQLite database may open another file.

When the script succeeds, the archive holds an entry for every file, and distinct files have
distinct entries, exactly if every file *fits* and the copies have the contents of the files.  A
file fits if `find` comes to it, it is copied, and where it lands is free and in the folder that is
archived.  That a file which does not fit is missed is seen by counting the entries: a file adds
at most one, and none if it does not fit.

## Main definitions

* `Step`, `steps`, `Step.exec` — the script as one list of steps.
* `Job.saved`, `Holds` — what the archive should have of a file, and that it has all.
* `Job.copied`, `copies` — what the copies have.
* `Job.fits`, `allFit` — a file fits, and all do, by the shape of the staging tree.

## Main results

* `copyFile_cases` — everything the copy of a file can do.
* `found_of_allFit` — copies of files that fit are found, and nothing else.
* `weight_run` — a run adds at most one entry for each file, and fewer if one does not fit.
* `holds_iff_allFit` — **the archive holds every file exactly if all fit and the copies have their
  contents.**
-/

namespace RustdeskServer
namespace Backup

open Plain

/-! ### The script as a list of steps -/

/-- A file to save: the data folder, its place in the staging tree, and the file. -/
structure Job where
  /-- The word of `DATA_DIRS`. -/
  dir : String
  /-- The folder's place. -/
  root : List String
  /-- The file. -/
  file : SrcFile
  deriving DecidableEq

/-- A step of the script. -/
inductive Step
  /-- Make the place of a data folder. -/
  | enter (root : List String)
  /-- Copy a file. -/
  | copy (j : Job)

/-- The files of a folder that are to be saved. -/
def jobsOf (exclude : List String) (name : String) (d : Folder) : List Job :=
  (d.files.filter fun f => kept exclude f.name).map
    fun f => ⟨d.dir, labelPath name (basename d.dir), f⟩

/-- Every file that is to be saved. -/
def jobs (exclude : List String) (name : String) (dirs : List Folder) : List Job :=
  (dirs.filter Folder.present).flatMap (jobsOf exclude name)

/-- The steps of the script. -/
def steps (exclude : List String) (name : String) (dirs : List Folder) : List Step :=
  (dirs.filter Folder.present).flatMap fun d =>
    .enter (labelPath name (basename d.dir)) :: (jobsOf exclude name d).map .copy

/-- The file a step copies. -/
def Step.job? : Step → Option Job
  | .enter _ => none
  | .copy j => some j

theorem filterMap_steps (exclude : List String) (name : String) (dirs : List Folder) :
    (steps exclude name dirs).filterMap Step.job? = jobs exclude name dirs := by
  unfold steps jobs
  induction dirs.filter Folder.present with
  | nil => rfl
  | cons d ds ih =>
    have hjobs : ((jobsOf exclude name d).map Step.copy).filterMap Step.job? =
        jobsOf exclude name d := by
      rw [List.filterMap_map]
      exact List.filterMap_some
    rw [List.flatMap_cons, List.flatMap_cons, List.filterMap_append, ih]
    congr 1

section Run

variable (T : Tools) (exclude : List String) (name : String)

/-- What a step does to the staging tree; `none` ends the script. -/
def Step.exec (s : Stage) : Step → Option Stage
  | .enter root => if (Backup.enter name root s).2 then some (Backup.enter name root s).1 else none
  | .copy j => if !j.file.listed then some s else (copyFile T j.dir j.root j.file s).map Prod.fst

/-! ### What the archive should have -/

/-- The path of the original. -/
def Job.src (j : Job) : String := srcPath j.dir j.file

/-- The content that the archive should have of a file: of an SQLite database its backup copy. -/
def Job.saved (j : Job) : Option Bytes :=
  if j.file.content.take 15 == sqliteHead then T.onlineBackup j.src else some j.file.content

/-- **The archive holds every file**: each has an entry with its content, and distinct files have
distinct entries. -/
def Holds (dirs : List Folder) (archive : List (List String × Bytes)) : Prop :=
  ∃ paths : List (List String), paths.Nodup ∧
    List.Forall₂ (fun p j => ∃ c, Job.saved T j = some c ∧ archive.lookup p = some c) paths
      (jobs exclude name dirs)

/-! ### When a file fits, and what is copied -/

/-- What a tree looks like. -/
abbrev Shape := FileTree String Unit

/-- The tree when the folders of a file are made. -/
def Job.folders {κ : Type} (j : Job) (t : FileTree String κ) : FileTree String κ :=
  (t.mkdirs (j.root ++ j.file.parents)).1

/-- Where its copy goes. -/
def Job.target {κ : Type} (j : Job) (t : FileTree String κ) : List String :=
  (j.folders t).landing (j.root ++ j.file.rel) j.file.name

/-- The content of its copy, if one is made: of an SQLite database it is the backup copy of what
its URI opens. -/
def Job.copied (j : Job) (target : List String) : Option Bytes :=
  if j.file.content.take 15 == sqliteHead then
    (T.openUri (sqliteUri j.src)).bind T.onlineBackup
  else
    match T.cp j.src target with
    | .whole => some j.file.content
    | .cut n => some (j.file.content.take n)
    | .refused => none

/-- A file fits into a tree: `find` comes to it, it can be read and is copied, the folder it goes
to is there, its place is free, and it is in the folder that is archived. -/
def Job.fits (j : Job) (t : Shape) : Bool :=
  let target := j.target t
  let t := j.folders t
  j.file.listed && j.file.readable && t.isDir target.dropLast && !t.isDir target &&
    !t.isFile target && archived name target && (j.copied T target).isSome

/-- What the tree looks like after a step, if the file fits. -/
def Step.shape (t : Shape) : Step → Shape
  | .enter root => (Backup.enter name root t).1
  | .copy j => (j.folders t).write (j.target t) ()

/-- Each file fits into what those before it leave. -/
def allFit : List Step → Shape → Bool
  | [], _ => true
  | st :: sts, t => st.job?.all (fun j => j.fits T name t) && allFit sts (st.shape name t)

/-- The contents of the copies, in order. -/
def copies : List Step → Shape → List (Option Bytes)
  | [], _ => []
  | st :: sts, t =>
    (st.job?.map fun j => j.copied T (j.target t)).toList ++ copies sts (st.shape name t)

variable {T exclude name}

/-! ### A run is its steps -/

/-- The loop over the files of a folder. -/
theorem copyLoop_steps {dir : String} {root : List String} {files : List SrcFile} {s s' : Stage}
    {status status' : Bool}
    (h : copyLoop T exclude dir root files s status = some (s', status')) :
    (((files.filter fun f => kept exclude f.name).map fun f => Job.mk dir root f).map
      Step.copy).foldlM (Step.exec T name) s = some s' := by
  induction files generalizing s status with
  | nil =>
    rw [copyLoop, Option.some.injEq, Prod.mk.injEq] at h
    rw [← h.1]
    rfl
  | cons f fs ih =>
    rw [copyLoop] at h
    by_cases hk : kept exclude f.name = true
    · rw [List.filter_cons, if_pos hk, List.map_cons, List.map_cons, List.foldlM_cons]
      by_cases hl : f.listed = true
      · rw [hl, hk] at h
        simp only [Bool.not_true, Bool.false_eq_true, if_false] at h
        cases hc : copyFile T dir root f s with
        | none =>
          rw [hc] at h
          cases h
        | some r =>
          rw [hc] at h
          have hstep : Step.exec T name s (.copy ⟨dir, root, f⟩) =
              some r.1 := by
            simp [Step.exec, hl, hc]
          rw [hstep]
          exact ih h
      · rw [Bool.eq_false_of_not_eq_true hl] at h
        have hstep : Step.exec T name s (.copy ⟨dir, root, f⟩) =
            some s := by
          simp [Step.exec, hl]
        rw [hstep]
        exact ih h
    · rw [List.filter_cons, if_neg hk]
      rw [Bool.eq_false_of_not_eq_true hk] at h
      by_cases hl : f.listed = true
      · rw [hl] at h
        exact ih h
      · rw [Bool.eq_false_of_not_eq_true hl] at h
        exact ih h

/-- **A run that is not ended is its steps.** -/
theorem copyFolders_steps {dirs : List Folder} {s s' : Stage} {found found' : Bool}
    (h : copyFolders T exclude name dirs s found = some (s', found')) :
    (steps exclude name dirs).foldlM (Step.exec T name) s = some s' := by
  unfold steps
  induction dirs generalizing s found with
  | nil =>
    rw [copyFolders, Option.some.injEq, Prod.mk.injEq] at h
    rw [← h.1]
    rfl
  | cons d ds ih =>
    rw [copyFolders] at h
    by_cases hp : d.present = true
    · rw [List.filter_cons_of_pos hp, List.flatMap_cons, List.foldlM_append, List.foldlM_cons]
      rw [hp] at h
      simp only [Bool.not_true, Bool.false_eq_true, if_false] at h
      cases hm : (enter name (labelPath name (basename d.dir)) s).2 with
      | false =>
        rw [hm] at h
        cases h
      | true =>
        rw [hm] at h
        simp only [Bool.not_true, Bool.false_eq_true, if_false] at h
        have hstep : Step.exec T name s (.enter (labelPath name (basename d.dir))) =
            some (enter name (labelPath name (basename d.dir)) s).1 := by
          simp [Step.exec, hm]
        rw [hstep, Option.bind_eq_bind, Option.bind_some]
        cases hc : copyLoop T exclude d.dir (labelPath name (basename d.dir)) d.files
            (enter name (labelPath name (basename d.dir)) s).1 true with
        | none =>
          rw [hc] at h
          cases h
        | some r =>
          obtain ⟨u, status⟩ := r
          rw [hc] at h
          cases status with
          | false => cases h
          | true =>
            rw [jobsOf, copyLoop_steps hc]
            exact ih h
    · rw [List.filter_cons_of_neg hp]
      rw [Bool.eq_false_of_not_eq_true hp] at h
      exact ih h

/-! ### The shape decides -/

@[simp] theorem folders_shape (j : Job) (s : Stage) : j.folders s.shape = (j.folders s).shape := by
  rw [Job.folders, FileTree.mkdirs_shape]
  rfl

@[simp] theorem target_shape (j : Job) (s : Stage) : j.target s.shape = j.target s := by
  rw [Job.target, folders_shape, FileTree.landing_shape]
  rfl

/-- Whether a file fits, read off the staging tree itself. -/
theorem fits_shape (j : Job) (s : Stage) :
    j.fits T name s.shape =
      (j.file.listed && j.file.readable && (j.folders s).isDir (j.target s).dropLast &&
        !(j.folders s).isDir (j.target s) && !(j.folders s).isFile (j.target s) &&
          archived name (j.target s) && (j.copied T (j.target s)).isSome) := by
  simp only [Job.fits, folders_shape, target_shape, FileTree.isDir_shape, FileTree.isFile_shape]

theorem enter_shape (root : List String) (s : Stage) :
    (enter name root s.shape).1 = (enter name root s).1.shape := by
  simp only [enter, FileTree.mkdirs_shape]

/-! ### What the copy of a file can do -/

/-- No file in the tree has the name of a part of a live database. -/
def Named (s : Stage) : Prop := ∀ q n, s.isFile (q ++ [n]) = true → isLive n = false

theorem isLive_append (n suffix : String)
    (h : suffix ∈ ["-wal", "-shm", "-journal"]) : isLive (n ++ suffix) = true := by
  refine List.any_eq_true.mpr ⟨suffix, h, ?_⟩
  rw [List.isSuffixOf_iff_suffix, String.toList_append]
  exact List.suffix_append _ _

/-- Nothing is left over next to a copy. -/
theorem rmFile_live {s : Stage} (hn : Named s) (q : List String) {n : String}
    (hlive : isLive n = true) : (rmFile s (q ++ [n])).1 = s := by
  unfold rmFile
  split
  · rfl
  · refine FileTree.remove_of_not_isFile ?_
    by_contra hfile
    rw [hn q n (eq_true_of_ne_false hfile)] at hlive
    cases hlive

theorem target_eq_append (j : Job) (s : Stage) : ∃ q, j.target s = q ++ [j.file.name] := by
  unfold Job.target FileTree.landing
  split
  · exact ⟨_, rfl⟩
  · exact ⟨j.root ++ j.file.parents, by rw [SrcFile.rel, List.append_assoc]⟩

/-- A file that is written keeps the names. -/
theorem Named.write {s : Stage} (hn : Named s) {q : List String} {n : String}
    (hlive : isLive n = false) (c : Bytes) : Named (s.write (q ++ [n]) c) := by
  intro q' n' hfile
  rcases (FileTree.isFile_write _ _ _ _).mp hfile with h | h
  · obtain ⟨-, hnn⟩ := List.append_inj' h rfl
    rw [(List.cons.inj hnn).1]
    exact hlive
  · exact hn q' n' h

theorem Named.folders {s : Stage} (hn : Named s) (j : Job) : Named (j.folders s) := hn

variable (T name) in
/-- Everything the copy of a file can do to the staging tree. -/
inductive CopyStep (j : Job) (s : Stage) : Stage → Prop
  /-- Nothing but the folders, and the file does not fit. -/
  | passed (hfit : j.fits T name s.shape = false) : CopyStep j s (j.folders s)
  /-- A copy is written; if the file does not fit, it replaces another or is not archived. -/
  | wrote {c : Bytes} (hc : j.copied T (j.target s) = some c)
      (hunfit : j.fits T name s.shape = false → (j.folders s).isFile (j.target s) = true ∨
        archived name (j.target s) = false) :
      CopyStep j s ((j.folders s).write (j.target s) c)

/-- What is left to ask of a file that can be read and has a place to go to. -/
theorem fits_of_placed {j : Job} {s : Stage} (hl : j.file.listed = true)
    (hr : j.file.readable = true) (hdir : (j.folders s).isDir (j.target s) = false)
    (hparent : (j.folders s).isDir (j.target s).dropLast = true) :
    j.fits T name s.shape =
      (!(j.folders s).isFile (j.target s) && archived name (j.target s) &&
        (j.copied T (j.target s)).isSome) := by
  rw [fits_shape, hl, hr, hdir, hparent]
  rfl

/-- A copy that is made. -/
theorem copyStep_wrote {j : Job} {s : Stage} {c : Bytes} (hl : j.file.listed = true)
    (hr : j.file.readable = true) (hdir : (j.folders s).isDir (j.target s) = false)
    (hparent : (j.folders s).isDir (j.target s).dropLast = true)
    (hc : j.copied T (j.target s) = some c) :
    CopyStep T name j s ((j.folders s).write (j.target s) c) := by
  refine .wrote hc ?_
  intro hfit
  rw [fits_of_placed hl hr hdir hparent, hc, Option.isSome_some, Bool.and_true,
    Bool.and_eq_false_iff] at hfit
  refine hfit.imp_left ?_
  intro hfile
  simpa using hfile

/-- `cp` of a file that is no database, or cannot be read. -/
theorem copyStep_cpFile {j : Job} {s : Stage} (hl : j.file.listed = true)
    (hdb : (j.file.readable && j.file.content.take 15 == sqliteHead) = false) :
    CopyStep T name j s (cpFile T j.src j.file (j.root ++ j.file.rel) (j.folders s)).1 := by
  have htarget : (j.folders s).landing (j.root ++ j.file.rel) j.file.name = j.target s := rfl
  simp only [cpFile, htarget]
  by_cases hgo : (!j.file.readable || (j.folders s).isDir (j.target s) ||
      !(j.folders s).isDir (j.target s).dropLast) = true
  · rw [if_pos hgo]
    refine .passed ?_
    rw [fits_shape]
    simp only [Bool.or_eq_true, Bool.not_eq_true'] at hgo
    rcases hgo with (hr | hdir) | hparent
    · simp [hr]
    · simp [hdir]
    · simp [hparent]
  · rw [if_neg hgo]
    simp only [Bool.or_eq_true, Bool.not_eq_true', not_or, Bool.not_eq_false] at hgo
    obtain ⟨⟨hr, hdir⟩, hparent⟩ := hgo
    rw [Bool.not_eq_true] at hdir
    rw [hr, Bool.true_and] at hdb
    cases hcp : T.cp j.src (j.target s) with
    | whole => exact copyStep_wrote hl hr hdir hparent (by simp [Job.copied, hdb, hcp])
    | cut n => exact copyStep_wrote hl hr hdir hparent (by simp [Job.copied, hdb, hcp])
    | refused =>
      have hno : j.copied T (j.target s) = none := by simp [Job.copied, hdb, hcp]
      refine .passed ?_
      rw [fits_of_placed hl hr hdir hparent, hno, Option.isSome_none, Bool.and_false]

/-- The backup of a database. -/
theorem copyStep_sqliteCopy {j : Job} {s s' : Stage} (hl : j.file.listed = true)
    (hdb : (j.file.readable && j.file.content.take 15 == sqliteHead) = true)
    (h : sqliteCopy T j.src (j.root ++ j.file.rel) (j.folders s) = some s') :
    CopyStep T name j s s' ∧ ∃ c, s' = (j.folders s).write (j.target s) c := by
  rw [Bool.and_eq_true] at hdb
  obtain ⟨hr, hhead⟩ := hdb
  unfold sqliteCopy at h
  split at h
  · cases h
  · next hgo =>
    simp only [Bool.or_eq_true, Bool.not_eq_true', not_or, Bool.not_eq_false,
      Bool.not_eq_true] at hgo
    obtain ⟨⟨hdir, hparent⟩, -⟩ := hgo
    have htarget : j.target s = j.root ++ j.file.rel := by
      unfold Job.target FileTree.landing
      rw [if_neg (by rw [hdir]; exact Bool.false_ne_true)]
    obtain ⟨copy, hcopy, rfl⟩ := Option.map_eq_some_iff.mp h
    have hcopied : j.copied T (j.target s) = some copy := by
      rw [Job.copied, if_pos hhead]
      exact hcopy
    rw [← htarget] at hdir hparent ⊢
    exact ⟨copyStep_wrote hl hr hdir hparent hcopied, copy, rfl⟩

/-- **Everything the copy of a file can do.** -/
theorem copyFile_cases {j : Job} {s s' : Stage} {status : Bool} (hn : Named s)
    (hk : isLive j.file.name = false) (hl : j.file.listed = true)
    (h : copyFile T j.dir j.root j.file s = some (s', status)) : CopyStep T name j s s' := by
  unfold copyFile at h
  dsimp only at h
  split at h
  · next hdb =>
    obtain ⟨u, hcopy, hrm⟩ := Option.map_eq_some_iff.mp h
    obtain ⟨hstep, c, hu⟩ := @copyStep_sqliteCopy T name j s u hl hdb hcopy
    have hnamed : Named u := by
      obtain ⟨q, hq⟩ := target_eq_append j s
      rw [hu, hq]
      exact (hn.folders j).write hk c
    -- there is nothing next to the copy to remove
    have hwal := rmFile_live hnamed (j.root ++ j.file.parents)
      (isLive_append j.file.name "-wal" (by decide))
    have hshm := rmFile_live hnamed (j.root ++ j.file.parents)
      (isLive_append j.file.name "-shm" (by decide))
    rw [Prod.mk.injEq] at hrm
    rw [← hrm.1, hwal, hshm]
    exact hstep
  · next hdb =>
    rw [Bool.not_eq_true] at hdb
    have hstep := @copyStep_cpFile T name j s hl hdb
    rw [Option.some.injEq] at h
    rw [← show _ = s' from congrArg Prod.fst h]
    exact hstep

/-! ### Counting the entries -/

variable (name) in
/-- A staged file counts if it is archived. -/
def entryCount (e : List String × Bytes) : ℕ := if archived name e.1 then 1 else 0

theorem entryCount_le (name : String) (e : List String × Bytes) : entryCount name e ≤ 1 := by
  unfold entryCount
  split
  · exact Nat.le_refl 1
  · exact Nat.zero_le 1

/-- **A copy adds at most one entry, and none if the file does not fit.** -/
theorem CopyStep.weight_le {j : Job} {s s' : Stage} (h : CopyStep T name j s s') :
    s'.weight (entryCount name) ≤ s.weight (entryCount name) + 1 ∧
      (j.fits T name s.shape = false →
        s'.weight (entryCount name) ≤ s.weight (entryCount name)) := by
  have hsame : (j.folders s).weight (entryCount name) = s.weight (entryCount name) := rfl
  cases h with
  | passed hfit =>
    rw [hsame]
    exact ⟨Nat.le_succ _, fun _ => Nat.le_refl _⟩
  | @wrote c hc hunfit =>
    have hadd := FileTree.weight_write_le (entryCount name) (j.folders s) (j.target s) c
    have hentry := entryCount_le name (j.target s, c)
    rw [hsame] at hadd
    refine ⟨by omega, ?_⟩
    intro hno
    by_cases harch : archived name (j.target s) = true
    · have hone : ∀ c, entryCount name (j.target s, c) = 1 := fun c => if_pos harch
      rcases hunfit hno with hfile | hout
      · have hpos : ∀ c, 0 < entryCount name (j.target s, c) := fun c => by
          rw [hone]
          exact Nat.one_pos
        have hlt := FileTree.weight_write_lt hfile hpos c
        rw [hsame, hone] at hlt
        exact Nat.le_of_lt_succ hlt
      · rw [harch] at hout
        cases hout
    · have hzero : entryCount name (j.target s, c) = 0 := if_neg harch
      omega

/-! ### One step, and a run -/

theorem CopyStep.named {j : Job} {s s' : Stage} (h : CopyStep T name j s s') (hn : Named s)
    (hk : isLive j.file.name = false) : Named s' := by
  cases h with
  | passed hfit => exact hn.folders j
  | wrote hc hunfit =>
    obtain ⟨q, hq⟩ := target_eq_append j s
    rw [hq]
    exact (hn.folders j).write hk _

/-- A file that fits is written to a free place. -/
theorem CopyStep.fits {j : Job} {s s' : Stage} (h : CopyStep T name j s s')
    (hfit : j.fits T name s.shape = true) :
    ∃ c, j.copied T (j.target s) = some c ∧ s' = (j.folders s).write (j.target s) c ∧
      (j.folders s).isFile (j.target s) = false ∧ archived name (j.target s) = true := by
  have hfree := hfit
  rw [fits_shape] at hfree
  simp only [Bool.and_eq_true, Bool.not_eq_true'] at hfree
  cases h with
  | passed hno =>
    rw [hno] at hfit
    cases hfit
  | @wrote c hc hunfit => exact ⟨c, hc, rfl, hfree.1.1.2, hfree.1.2⟩

theorem copyStep_exec {j : Job} {s s' : Stage} (hn : Named s) (hk : isLive j.file.name = false)
    (hl : j.file.listed = true) (h : (Step.copy j).exec T name s = some s') :
    CopyStep T name j s s' := by
  rw [Step.exec, hl] at h
  obtain ⟨⟨u, status⟩, hcopy, rfl⟩ := Option.map_eq_some_iff.mp h
  exact copyFile_cases hn hk hl hcopy

variable (T name) in
/-- What a step leaves: names as before; one entry at most for a file, and none for one that
does not fit; and if it fits, the tree looks as it should. -/
structure StepOk (st : Step) (s s' : Stage) : Prop where
  /-- No part of a live database is staged. -/
  named : Named s'
  /-- At most one entry is added. -/
  weight_le : s'.weight (entryCount name) ≤ s.weight (entryCount name) + st.job?.toList.length
  /-- A file that does not fit adds none. -/
  weight_lt : st.job?.all (fun j => j.fits T name s.shape) = false →
    s'.weight (entryCount name) < s.weight (entryCount name) + st.job?.toList.length
  /-- If it fits, the shape is known. -/
  shape_eq : st.job?.all (fun j => j.fits T name s.shape) = true →
    s'.shape = st.shape name s.shape

/-- **One step.** -/
theorem stepOk_exec {st : Step} {s s' : Stage} (hn : Named s)
    (hk : ∀ j ∈ st.job?, isLive j.file.name = false) (h : st.exec T name s = some s') :
    StepOk T name st s s' := by
  cases st with
  | enter root =>
    rw [Step.exec] at h
    split at h
    · obtain rfl := Option.some.inj h
      refine ⟨hn, Nat.le_refl _, ?_, fun _ => (enter_shape root s).symm⟩
      intro hno
      cases hno
    · cases h
  | copy j =>
    have hlive := hk j rfl
    by_cases hl : j.file.listed = true
    · have hstep := copyStep_exec hn hlive hl h
      refine ⟨hstep.named hn hlive, hstep.weight_le.1, ?_, ?_⟩
      · intro hno
        exact Nat.lt_succ_of_le (hstep.weight_le.2 hno)
      · intro hfit
        obtain ⟨b, -, rfl, hfree, -⟩ := hstep.fits hfit
        rw [Step.shape, folders_shape, target_shape]
        exact FileTree.shape_write hfree b
    · rw [Step.exec, Bool.eq_false_of_not_eq_true hl] at h
      obtain rfl := Option.some.inj h
      have hno : j.fits T name s.shape = false := by
        rw [fits_shape, Bool.eq_false_of_not_eq_true hl]
        simp only [Bool.false_and]
      refine ⟨hn, Nat.le_succ _, fun _ => Nat.lt_succ_self _, ?_⟩
      intro hfit
      rw [Step.job?, Option.all_some, hno] at hfit
      cases hfit

theorem length_filterMap_cons (st : Step) (sts : List Step) :
    ((st :: sts).filterMap Step.job?).length =
      st.job?.toList.length + (sts.filterMap Step.job?).length := by
  cases st with
  | enter root =>
    rw [List.filterMap_cons_none rfl]
    exact (Nat.zero_add _).symm
  | copy j =>
    rw [List.filterMap_cons_some (show Step.job? (.copy j) = some j from rfl), List.length_cons]
    exact Nat.add_comm _ _

/-- **A run adds at most one entry for each file, and fewer if one does not fit.** -/
theorem weight_run {sts : List Step} {s s' : Stage} (hn : Named s)
    (hk : ∀ st ∈ sts, ∀ j ∈ st.job?, isLive j.file.name = false)
    (h : sts.foldlM (Step.exec T name) s = some s') :
    s'.weight (entryCount name) ≤
        s.weight (entryCount name) + (sts.filterMap Step.job?).length ∧
      (allFit T name sts s.shape = false →
        s'.weight (entryCount name) <
          s.weight (entryCount name) + (sts.filterMap Step.job?).length) := by
  induction sts generalizing s with
  | nil =>
    obtain rfl := Option.some.inj h
    refine ⟨Nat.le_refl _, ?_⟩
    intro hno
    cases hno
  | cons st sts ih =>
    rw [List.foldlM_cons] at h
    obtain ⟨u, hstep, hrest⟩ := Option.bind_eq_some_iff.mp h
    obtain ⟨hst, hsts⟩ := List.forall_mem_cons.mp hk
    have hok := stepOk_exec hn hst hstep
    obtain ⟨hle, hlt⟩ := ih hok.named hsts hrest
    have hstep_le := hok.weight_le
    rw [length_filterMap_cons]
    refine ⟨by omega, ?_⟩
    intro hno
    rw [allFit, Bool.and_eq_false_iff] at hno
    rcases hno with hno | hno
    · have hstep_lt := hok.weight_lt hno
      omega
    · by_cases hfit : st.job?.all (fun j => j.fits T name s.shape) = true
      · rw [← hok.shape_eq hfit] at hno
        have hrest_lt := hlt hno
        omega
      · have hstep_lt := hok.weight_lt (Bool.eq_false_of_not_eq_true hfit)
        omega

theorem isFile_copied (j : Job) (s : Stage) (b : Bytes) (p : List String) :
    ((j.folders s).write (j.target s) b).isFile p = true ↔ p = j.target s ∨ s.isFile p = true :=
  FileTree.isFile_write (j.folders s) (j.target s) p b

/-- If all fit, the run leaves what was there and the copies, each at a place of its own. -/
theorem found_of_allFit {sts : List Step} {s s' : Stage} (hn : Named s)
    (hk : ∀ st ∈ sts, ∀ j ∈ st.job?, isLive j.file.name = false)
    (h : sts.foldlM (Step.exec T name) s = some s') (hfit : allFit T name sts s.shape = true) :
    (∀ p, s.isFile p = true → s'.isFile p = true ∧ s'.files.lookup p = s.files.lookup p) ∧
      ∃ paths : List (List String), paths.Nodup ∧ (∀ p ∈ paths, s.isFile p = false) ∧
        (∀ p, s'.isFile p = true → s.isFile p = true ∨ p ∈ paths) ∧
        List.Forall₂ (fun c p => c.isSome ∧ s'.files.lookup p = c ∧ archived name p = true)
          (copies T name sts s.shape) paths := by
  induction sts generalizing s with
  | nil =>
    obtain rfl := Option.some.inj h
    exact ⟨fun p hp => ⟨hp, rfl⟩, [], List.nodup_nil, fun p hp => absurd hp List.not_mem_nil,
      fun p hp => Or.inl hp, .nil⟩
  | cons st sts ih =>
    rw [List.foldlM_cons] at h
    obtain ⟨u, hstep, hrest⟩ := Option.bind_eq_some_iff.mp h
    obtain ⟨hst, hsts⟩ := List.forall_mem_cons.mp hk
    rw [allFit, Bool.and_eq_true] at hfit
    have hok := stepOk_exec hn hst hstep
    have hshape := hok.shape_eq hfit.1
    rw [← hshape] at hfit
    obtain ⟨hkeep, paths, hnodup, hfresh, hall, hfound⟩ := ih hok.named hsts hrest hfit.2
    rw [hshape] at hfound
    cases st with
    | enter root =>
      have hfiles : u.files = s.files := by
        rw [Step.exec] at hstep
        split at hstep
        · rw [← Option.some.inj hstep]
          rfl
        · cases hstep
      have hsame : ∀ p, u.isFile p = s.isFile p := fun p => by
        rw [FileTree.isFile, FileTree.isFile, hfiles]
      simp only [hsame, hfiles] at hkeep hfresh hall
      exact ⟨hkeep, paths, hnodup, hfresh, hall, hfound⟩
    | copy j =>
      have hfits : j.fits T name s.shape = true := hfit.1
      have hlisted : j.file.listed = true := by
        rw [fits_shape] at hfits
        simp only [Bool.and_eq_true] at hfits
        exact hfits.1.1.1.1.1.1
      obtain ⟨c, hc, rfl, hfree, harch⟩ :=
        (copyStep_exec hn (hst j rfl) hlisted hstep).fits hfits
      have hnew := hkeep (j.target s) ((isFile_copied j s c _).mpr (Or.inl rfl))
      refine ⟨?_, j.target s :: paths, ?_, ?_, ?_, ?_⟩
      · intro p hp
        have hne : p ≠ j.target s := by
          rintro rfl
          rw [show (j.folders s).isFile (j.target s) = true from hp] at hfree
          cases hfree
        obtain ⟨hfile, hlook⟩ := hkeep p ((isFile_copied j s c _).mpr (Or.inr hp))
        exact ⟨hfile, hlook.trans (FileTree.lookup_write_of_ne hne _ _)⟩
      · refine List.nodup_cons.mpr ⟨?_, hnodup⟩
        intro hmem
        have hno := hfresh _ hmem
        rw [(isFile_copied j s c _).mpr (Or.inl rfl)] at hno
        cases hno
      · refine List.forall_mem_cons.mpr ⟨hfree, ?_⟩
        intro p hp
        by_contra hfile
        have hno := hfresh p hp
        rw [(isFile_copied j s c p).mpr (Or.inr (eq_true_of_ne_false hfile))] at hno
        cases hno
      · intro p hp
        rw [List.mem_cons]
        rcases hall p hp with hold | hmem
        · rcases (isFile_copied j s c p).mp hold with rfl | hold
          · exact Or.inr (Or.inl rfl)
          · exact Or.inl hold
        · exact Or.inr (Or.inr hmem)
      · have hcopies : copies T name (.copy j :: sts) s.shape =
            some c :: copies T name sts ((Step.copy j).shape name s.shape) := by
          rw [← hc, ← target_shape]
          rfl
        rw [hcopies]
        exact .cons ⟨rfl, hnew.2.trans (FileTree.lookup_write_self _ _ _), harch⟩ hfound

/-! ### The archive -/

theorem isLive_of_steps {dirs : List Folder} :
    ∀ st ∈ steps exclude name dirs, ∀ j ∈ st.job?, isLive j.file.name = false := by
  intro st hst j hj
  have hmem : j ∈ jobs exclude name dirs := by
    rw [← filterMap_steps]
    exact List.mem_filterMap.mpr ⟨st, hst, hj⟩
  obtain ⟨d, -, hd⟩ := List.mem_flatMap.mp hmem
  obtain ⟨f, hf, rfl⟩ := List.mem_map.mp hd
  have hkept := (List.mem_filter.mp hf).2
  rw [kept, Bool.and_eq_true] at hkept
  simpa using hkept.2

theorem backup_cases {dirs : List Folder} {archive : List (List String × Bytes)}
    (h : backup T exclude name dirs = some archive) :
    ∃ s : Stage, (steps exclude name dirs).foldlM (Step.exec T name) .empty = some s ∧
      archive = s.files.filter fun e => archived name e.1 := by
  unfold backup at h
  split at h
  · next s hrun =>
    split at h
    · exact ⟨s, copyFolders_steps hrun, (Option.some.inj h).symm⟩
    · cases h
  · cases h

theorem named_empty : Named .empty := by
  intro q n h
  cases h

theorem length_archive (s : Stage) :
    (s.files.filter fun e => archived name e.1).length = s.weight (entryCount name) := by
  rw [FileTree.weight]
  induction s.files with
  | nil => rfl
  | cons e l ih =>
    rw [List.map_cons, List.sum_cons, entryCount, ← ih, List.filter_cons]
    split
    · rw [List.length_cons, Nat.add_comm]
    · exact (Nat.zero_add _).symm

/-- The entry of a file is in the archive. -/
theorem lookup_of_found {archive : List (List String × Bytes)} {js : List Job}
    {paths : List (List String)}
    (h : List.Forall₂ (fun p j => ∃ c, Job.saved T j = some c ∧ archive.lookup p = some c)
      paths js) : ∀ p ∈ paths, ∃ c, archive.lookup p = some c := by
  induction h with
  | nil => exact List.forall_mem_nil _
  | cons hhead _ ih =>
    obtain ⟨c, -, hlook⟩ := hhead
    exact List.forall_mem_cons.mpr ⟨⟨c, hlook⟩, ih⟩

/-- If the archive holds every file, all fit: there are as many entries as files. -/
theorem allFit_of_holds {dirs : List Folder} {archive : List (List String × Bytes)}
    (h : backup T exclude name dirs = some archive) (hholds : Holds T exclude name dirs archive) :
    allFit T name (steps exclude name dirs) .empty = true := by
  obtain ⟨s, hrun, rfl⟩ := backup_cases h
  obtain ⟨paths, hnodup, hfound⟩ := hholds
  by_contra hno
  have hlt := (weight_run named_empty isLive_of_steps hrun).2 (Bool.eq_false_of_not_eq_true hno)
  have hle := length_le_of_lookup hnodup (lookup_of_found hfound)
  have hempty : (FileTree.empty : Stage).weight (entryCount name) = 0 := rfl
  rw [hfound.length_eq, length_archive] at hle
  rw [filterMap_steps] at hlt
  omega

/-- If all fit, the entries of the archive are the copies. -/
theorem archive_of_allFit {dirs : List Folder} {archive : List (List String × Bytes)}
    (h : backup T exclude name dirs = some archive)
    (hfit : allFit T name (steps exclude name dirs) .empty = true) :
    ∃ paths : List (List String), paths.Nodup ∧ (∀ p c, archive.lookup p = some c → p ∈ paths) ∧
      List.Forall₂ (fun c p => c.isSome ∧ archive.lookup p = c)
        (copies T name (steps exclude name dirs) .empty) paths := by
  obtain ⟨s, hrun, rfl⟩ := backup_cases h
  obtain ⟨-, paths, hnodup, -, hall, hfound⟩ :=
    found_of_allFit named_empty isLive_of_steps hrun hfit
  refine ⟨paths, hnodup, ?_, hfound.imp ?_⟩
  · intro p c hlook
    have hmem := (List.mem_filter.mp (mem_of_lookup hlook)).1
    rcases hall p (decide_eq_true (List.mem_map_of_mem hmem)) with hold | hp
    · cases hold
    · exact hp
  · rintro c p ⟨hsome, hlook, harch⟩
    obtain ⟨b, rfl⟩ := Option.isSome_iff_exists.mp hsome
    exact ⟨rfl, (lookup_filter_fst harch s.files).trans hlook⟩

theorem length_copies (sts : List Step) (t : Shape) :
    (copies T name sts t).length = (sts.filterMap Step.job?).length := by
  induction sts generalizing t with
  | nil => rfl
  | cons st sts ih =>
    rw [copies, List.length_append, ih, length_filterMap_cons]
    cases st <;> rfl

/-- If the archive holds every file, the copies have the contents the files should have. -/
theorem perm_of_holds {dirs : List Folder} {archive : List (List String × Bytes)}
    (h : backup T exclude name dirs = some archive) (hholds : Holds T exclude name dirs archive) :
    (copies T name (steps exclude name dirs) .empty).Perm
      ((jobs exclude name dirs).map (Job.saved T)) := by
  obtain ⟨paths, hnodup, hall, hcopies⟩ := archive_of_allFit h (allFit_of_holds h hholds)
  obtain ⟨paths', hnodup', hfound⟩ := hholds
  have hsaved : (paths'.map fun p => archive.lookup p) =
      (jobs exclude name dirs).map (Job.saved T) := by
    rw [← List.forall₂_eq_eq_eq, List.forall₂_map_left_iff, List.forall₂_map_right_iff]
    refine hfound.imp ?_
    rintro p j ⟨c, hsaved, hlook⟩
    rw [hsaved, hlook]
  have hcopied : copies T name (steps exclude name dirs) .empty =
      paths.map fun p => archive.lookup p := by
    rw [← List.forall₂_eq_eq_eq, List.forall₂_map_right_iff]
    exact hcopies.imp fun c p hc => hc.2.symm
  -- the entries of the files are all there are
  have hsub : paths' ⊆ paths := by
    intro p hp
    obtain ⟨c, hlook⟩ := lookup_of_found hfound p hp
    exact hall p c hlook
  have hlen : paths.length ≤ paths'.length := by
    rw [← hcopies.length_eq, length_copies, filterMap_steps]
    exact hfound.length_eq.ge
  rw [hcopied, ← hsaved]
  exact ((List.subperm_of_subset hnodup' hsub).perm_of_length_le hlen).symm.map _

/-- If all fit and the copies have the contents the files should have, the archive holds every
file. -/
theorem holds_of_perm {dirs : List Folder} {archive : List (List String × Bytes)}
    (h : backup T exclude name dirs = some archive)
    (hfit : allFit T name (steps exclude name dirs) .empty = true)
    (hperm : (copies T name (steps exclude name dirs) .empty).Perm
      ((jobs exclude name dirs).map (Job.saved T))) : Holds T exclude name dirs archive := by
  obtain ⟨paths, hnodup, -, hcopies⟩ := archive_of_allFit h hfit
  obtain ⟨paths', hfound, hpaths⟩ := List.perm_comp_forall₂ hperm.symm hcopies
  rw [List.forall₂_map_left_iff] at hfound
  refine ⟨paths', hpaths.symm.nodup hnodup, hfound.flip.imp ?_⟩
  rintro p j ⟨hsome, hlook⟩
  obtain ⟨c, hc⟩ := Option.isSome_iff_exists.mp hsome
  exact ⟨c, hc, hlook.trans hc⟩

end Run

/-- Commands that do not fail; the copy of a database is the path it was opened at. -/
def Tools.plain : Tools where
  openUri := fun uri => some (String.ofList ((uri.toList.drop 5).takeWhile fun c => c ∉ ['?', '#']))
  onlineBackup := fun path => some (path.toList.map fun c => UInt8.ofNat c.toNat)
  isDatabase := fun _ => true
  cp := fun _ _ => .whole
  tarOk := true

/-- The default of `EXCLUDE`. -/
def defaultExclude : List String := ["*.mmdb", "*.mmdb.*", ".*.loaded", "*.tmp"]

/-- The folders of the server and of the API server. -/
def usualFolders : List Folder :=
  [⟨"./data", true, [⟨[], "id_ed25519", [1], true, true⟩, ⟨["geo"], "city.mmdb", [9], true, true⟩,
      ⟨[], "db_v2.sqlite3", sqliteHead ++ [0, 1], true, true⟩]⟩,
    ⟨"./api_data", true, [⟨[], "id_ed25519", [2], true, true⟩]⟩]

/-- A folder with a database whose URI opens another file. -/
def hashFolder : List Folder :=
  [⟨"./data", true, [⟨[], "db#1.sqlite3", sqliteHead ++ [0], true, true⟩]⟩]

example : allFit .plain "rustdesk-1" (steps defaultExclude "rustdesk-1" hashFolder) .empty = true ∧
    copies .plain "rustdesk-1" (steps defaultExclude "rustdesk-1" hashFolder) .empty =
      [some ("./data/db".toList.map fun c => UInt8.ofNat c.toNat)] := by
  decide +kernel

/-- Two servers' folders, of one name. -/
def sameNameFolders : List Folder :=
  [⟨"/srv/a/data", true, [⟨[], "id_ed25519", [1], true, true⟩]⟩,
    ⟨"/srv/b/data", true, [⟨[], "id_ed25519", [2], true, true⟩]⟩]

end Backup
end RustdeskServer
