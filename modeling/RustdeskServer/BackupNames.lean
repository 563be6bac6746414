import RustdeskServer.BackupLayout

/-!
# Folders of distinct names

In the usual case the staging tree has a folder for each data folder and nothing is in the way of
anything: the base names of the data folders are distinct, and none of them is `.`, `..` or `/`.
Then the archive holds the files as soon as `find` comes to them, they can be read, `cp` writes
them whole, and SQLite takes their paths for what they are.

## Main definitions

* `Apart` — neither path leads to the other.
* `Job.Sound` — nothing is wrong with a file by itself.
* `Literal` — a path that stands for itself in a URI.

## Main results

* `allFit_of_apart` — files that are sound and apart fit, and their copies are theirs.
* `copied_eq_saved` — when a copy has the content it should have.
* `holds_of_distinct` — **distinct base names are enough.**
-/

namespace RustdeskServer
namespace Backup

open Plain

/-- Neither path leads to the other. -/
def Apart (p q : List String) : Prop := ¬p <+: q ∧ ¬q <+: p

/-- Where a file is to be staged. -/
def Job.dst (j : Job) : List String := j.root ++ j.file.rel

theorem dst_eq (j : Job) : j.dst = j.root ++ j.file.parents ++ [j.file.name] := by
  rw [Job.dst, SrcFile.rel, List.append_assoc]

section Apart

variable (T : Tools) (name : String)

/-- Nothing is wrong with a file by itself: `find` comes to it, it can be read, its copy has its
content, and its folder has a place of its own. -/
structure Job.Sound (j : Job) : Prop where
  /-- `find` comes to it. -/
  listed : j.file.listed = true
  /-- It can be read. -/
  readable : j.file.readable = true
  /-- Its copy has the content it should have. -/
  own : j.copied T j.dst = j.saved T
  /-- There is one. -/
  made : (j.saved T).isSome = true
  /-- The place of its folder. -/
  root : ∃ label, j.root = [name, label]

variable {T name}

/-- A sound file fits into a tree in which every file and every deep folder is apart from it. -/
theorem fits_of_apart {j : Job} {t : Shape} (hj : j.Sound T name)
    (hfiles : ∀ p, t.isFile p = true → Apart p j.dst)
    (hdirs : ∀ q, t.isDir q = true → q.length ≤ 2 ∨ ¬j.dst <+: q) :
    j.fits T name t = true ∧ j.target t = j.dst := by
  obtain ⟨label, hroot⟩ := hj.root
  have hlen : 2 < j.dst.length := by
    rw [dst_eq, hroot]
    simp
  have hpre : j.root ++ j.file.parents <+: j.dst := by
    rw [dst_eq]
    exact List.prefix_append _ _
  have hparent : (j.folders t).isDir (j.root ++ j.file.parents) = true := by
    refine FileTree.isDir_mkdirs ?_
    intro q hq
    by_contra hfile
    exact (hfiles q (eq_true_of_ne_false hfile)).1 (hq.trans hpre)
  have hdir : (j.folders t).isDir j.dst = false := by
    by_contra hyes
    rcases FileTree.isDir_of_isDir_mkdirs (eq_true_of_ne_false hyes) with hold | hnew
    · rcases hdirs _ hold with hshort | hno
      · omega
      · exact hno (List.prefix_refl _)
    · have hle := hnew.length_le
      rw [dst_eq, List.length_append] at hle
      simp at hle
  have htarget : j.target t = j.dst := by
    unfold Job.target FileTree.landing
    rw [if_neg (by rw [← Job.dst, hdir]; exact Bool.false_ne_true)]
    rfl
  have hfree : (j.folders t).isFile j.dst = false := by
    by_contra hfile
    exact (hfiles _ (eq_true_of_ne_false hfile)).1 (List.prefix_refl _)
  have hlast : j.dst.dropLast = j.root ++ j.file.parents := by
    rw [dst_eq, List.dropLast_concat]
  have harch : archived name j.dst = true := by
    rw [Job.dst, hroot]
    simp [archived]
  refine ⟨?_, htarget⟩
  simp only [Job.fits, htarget, hj.listed, hj.readable, hlast, hparent, hdir, hfree, harch,
    hj.own, hj.made, Bool.not_false, Bool.and_self]

/-- **Files that are sound and apart fit**, and their copies are theirs, from a tree that holds the
files `done` and no deep folder but those above them. -/
theorem allFit_of_apart {sts : List Step} {t : Shape} {done : List (List String)}
    (hfiles : ∀ p, t.isFile p = true → p ∈ done)
    (hdirs : ∀ q, t.isDir q = true → q.length ≤ 2 ∨ ∃ p ∈ done, q <+: p)
    (henter : ∀ root, .enter root ∈ sts → root.length ≤ 2)
    (hsound : ∀ j, .copy j ∈ sts → j.Sound T name)
    (hapart : (done ++ (sts.filterMap Step.job?).map Job.dst).Pairwise Apart) :
    allFit T name sts t = true ∧
      copies T name sts t = (sts.filterMap Step.job?).map (Job.saved T) := by
  induction sts generalizing t done with
  | nil => exact ⟨rfl, rfl⟩
  | cons st sts ih =>
    have henter' : ∀ root, .enter root ∈ sts → root.length ≤ 2 :=
      fun root hmem => henter root (List.mem_cons_of_mem _ hmem)
    have hsound' : ∀ j, .copy j ∈ sts → j.Sound T name :=
      fun j hmem => hsound j (List.mem_cons_of_mem _ hmem)
    rw [allFit, Bool.and_eq_true]
    cases st with
    | enter root =>
      have hrest := @ih (Step.shape name t (.enter root)) done hfiles ?_ henter' hsound' hapart
      · exact ⟨⟨rfl, hrest.1⟩, hrest.2⟩
      intro q hq
      rcases FileTree.isDir_of_isDir_mkdirs hq with hq | hpre
      · rcases FileTree.isDir_of_isDir_mkdirs hq with hq | hpre
        · exact hdirs q hq
        · exact Or.inl (hpre.length_le.trans (Nat.le_succ 1))
      · exact Or.inl (hpre.length_le.trans (henter root List.mem_cons_self))
    | copy j =>
      rw [List.filterMap_cons_some (show Step.job? (.copy j) = some j from rfl),
        List.map_cons] at hapart
      have hdone : ∀ p ∈ done, Apart p j.dst := fun p hp =>
        (List.pairwise_append.mp hapart).2.2 p hp _ List.mem_cons_self
      have hdeep : ∀ q, t.isDir q = true → q.length ≤ 2 ∨ ¬j.dst <+: q := by
        intro q hq
        refine (hdirs q hq).imp_right ?_
        rintro ⟨p, hp, hqp⟩ hpre
        exact (hdone p hp).2 (hpre.trans hqp)
      obtain ⟨hfit, htarget⟩ := fits_of_apart (hsound j List.mem_cons_self)
        (fun p hp => hdone p (hfiles p hp)) hdeep
      have hown := (hsound j List.mem_cons_self).own
      have hrest := @ih (Step.shape name t (.copy j)) (done ++ [j.dst]) ?_ ?_ henter' hsound' ?_
      · refine ⟨⟨hfit, hrest.1⟩, ?_⟩
        rw [List.filterMap_cons_some (show Step.job? (.copy j) = some j from rfl), List.map_cons,
          ← hrest.2, ← hown, ← htarget]
        rfl
      · intro p hp
        rw [Step.shape, htarget] at hp
        rw [List.mem_append, List.mem_singleton]
        exact ((FileTree.isFile_write _ _ _ _).mp hp).symm.imp_left (hfiles p)
      · intro q hq
        rcases FileTree.isDir_of_isDir_mkdirs (show (j.folders t).isDir q = true from hq) with
          hq | hpre
        · refine (hdirs q hq).imp_right ?_
          rintro ⟨p, hp, hqp⟩
          exact ⟨p, List.mem_append_left _ hp, hqp⟩
        · refine Or.inr ⟨j.dst, List.mem_append_right _ List.mem_cons_self, hpre.trans ?_⟩
          rw [dst_eq]
          exact List.prefix_append _ _
      · rw [List.append_assoc, List.singleton_append]
        exact hapart

end Apart

theorem labelPath_of_proper {label : String} (h : label ∉ [".", "..", "/"]) (name : String) :
    labelPath name label = [name, label] := by
  simp only [List.mem_cons, List.not_mem_nil, or_false, not_or] at h
  rw [labelPath, if_neg h.2.1, if_neg (not_or.mpr ⟨h.1, h.2.2⟩)]

theorem Apart.append_left {p q : List String} (h : Apart p q) (r : List String) :
    Apart (r ++ p) (r ++ q) :=
  ⟨fun hpre => h.1 ((List.prefix_append_right_inj r).mp hpre),
    fun hpre => h.2 ((List.prefix_append_right_inj r).mp hpre)⟩

/-- Files under different labels are apart. -/
theorem apart_of_label_ne {name l l' : String} (h : l ≠ l') (p q : List String) :
    Apart ([name, l] ++ p) ([name, l'] ++ q) := by
  refine ⟨?_, ?_⟩
  · intro hpre
    simp only [List.cons_append, List.nil_append, List.cons_prefix_cons] at hpre
    exact h hpre.2.1
  · intro hpre
    simp only [List.cons_append, List.nil_append, List.cons_prefix_cons] at hpre
    exact h hpre.2.1.symm

theorem root_of_mem_jobsOf {exclude : List String} {name : String} {d : Folder} {j : Job}
    (h : j ∈ jobsOf exclude name d) (hproper : basename d.dir ∉ [".", "..", "/"]) :
    j.root = [name, basename d.dir] := by
  obtain ⟨f, -, rfl⟩ := List.mem_map.mp h
  exact labelPath_of_proper hproper name

/-- The files of folders with distinct labels are staged apart. -/
theorem apart_jobs {exclude : List String} {name : String} {dirs : List Folder}
    (hlabels : (dirs.filter Folder.present).Pairwise
      fun d d' => basename d.dir ≠ basename d'.dir)
    (hproper : ∀ d ∈ dirs.filter Folder.present, basename d.dir ∉ [".", "..", "/"])
    (htree : ∀ d ∈ dirs.filter Folder.present, d.files.Pairwise fun f g => Apart f.rel g.rel) :
    (jobs exclude name dirs).Pairwise fun j j' => Apart j.dst j'.dst := by
  refine List.pairwise_flatMap.mpr ⟨?_, ?_⟩
  · intro d hd
    refine List.pairwise_map.mpr (((htree d hd).filter _).imp ?_)
    intro f g h
    exact h.append_left _
  · refine hlabels.imp_of_mem ?_
    intro d d' hd hd' hne j hj j' hj'
    rw [Job.dst, Job.dst, root_of_mem_jobsOf hj (hproper d hd),
      root_of_mem_jobsOf hj' (hproper d' hd')]
    exact apart_of_label_ne hne _ _

/-- The path stands for itself in the URI of an SQLite database. -/
def Literal (path : String) : Prop :=
  (∀ c ∈ path.toList, c ∉ ['?', '#', '%']) ∧ ¬['/', '/'] <+: path.toList

/-- SQLite takes a path that stands for itself as it is. -/
def Tools.Literal (T : Tools) : Prop :=
  ∀ dir f, Backup.Literal (srcPath dir f) →
    T.openUri (sqliteUri (srcPath dir f)) = some (srcPath dir f)

/-- A copy has the content it should have if `cp` writes the file whole, or if it is an SQLite
database whose path stands for itself. -/
theorem copied_eq_saved {T : Tools} (hT : T.Literal) {j : Job} {target : List String}
    (h : if j.file.content.take 15 == sqliteHead then Literal j.src
      else T.cp j.src target = .whole) : j.copied T target = j.saved T := by
  unfold Job.copied Job.saved
  split
  · next hhead =>
    rw [if_pos hhead] at h
    rw [show T.openUri (sqliteUri j.src) = some j.src from hT _ _ h, Option.bind_some]
  · next hhead =>
    rw [if_neg hhead] at h
    rw [h]

/-- **With distinct base names, the archive holds every file**: if the base names of the folders
are distinct and none of them is `.`, `..` or `/`, no file of a folder leads to another, `find`
comes to each file and it can be read, `cp` writes each whole, and the databases have paths that
stand for themselves. -/
theorem holds_of_distinct {T : Tools} (hT : T.Literal) {exclude : List String} {name : String}
    {dirs : List Folder} {archive : List (List String × Bytes)}
    (h : backup T exclude name dirs = some archive)
    (hlabels : (dirs.filter Folder.present).Pairwise
      fun d d' => basename d.dir ≠ basename d'.dir)
    (hproper : ∀ d ∈ dirs.filter Folder.present, basename d.dir ∉ [".", "..", "/"])
    (htree : ∀ d ∈ dirs.filter Folder.present, d.files.Pairwise fun f g => Apart f.rel g.rel)
    (hfile : ∀ j ∈ jobs exclude name dirs, j.file.listed = true ∧ j.file.readable = true ∧
      (j.saved T).isSome = true ∧ if j.file.content.take 15 == sqliteHead then Literal j.src
        else T.cp j.src j.dst = .whole) : Holds T exclude name dirs archive := by
  have hfit : allFit T name (steps exclude name dirs) .empty = true ∧
      copies T name (steps exclude name dirs) .empty =
        ((steps exclude name dirs).filterMap Step.job?).map (Job.saved T) := by
    refine @allFit_of_apart T name _ _ [] ?_ ?_ ?_ ?_ ?_
    · intro p hp
      cases hp
    · intro q hq
      rw [FileTree.isDir, Bool.or_eq_true, List.isEmpty_iff] at hq
      rcases hq with rfl | hq
      · exact Or.inl (Nat.zero_le 2)
      · cases hq
    · intro root hmem
      obtain ⟨d, hd, hroot⟩ := List.mem_flatMap.mp hmem
      rcases List.mem_cons.mp hroot with hroot | hcopy
      · rw [Step.enter.inj hroot, labelPath_of_proper (hproper d hd)]
        exact Nat.le_refl 2
      · obtain ⟨j, -, hj⟩ := List.mem_map.mp hcopy
        cases hj
    · intro j hmem
      have hj : j ∈ jobs exclude name dirs := by
        rw [← filterMap_steps]
        exact List.mem_filterMap.mpr ⟨_, hmem, rfl⟩
      obtain ⟨hl, hr, hmade, hcopy⟩ := hfile j hj
      obtain ⟨d, hd, hjd⟩ := List.mem_flatMap.mp hj
      exact ⟨hl, hr, copied_eq_saved hT hcopy, hmade, basename d.dir,
        root_of_mem_jobsOf hjd (hproper d hd)⟩
    · rw [List.nil_append, filterMap_steps]
      exact List.pairwise_map.mpr (apart_jobs hlabels hproper htree)
  refine holds_of_perm h hfit.1 ?_
  rw [hfit.2, filterMap_steps]

end Backup
end RustdeskServer
