import Mathlib.Data.List.Chain

/-!
# A value kept in memory by the stamp of its file

A program keeps in memory what it last read from a file, and reads the file again only
when its stamp is not the one it remembers.  `Copy.reread` is what a program that reads
at every tick does: a good file replaces the value, a bad one leaves it and is reported.

A file at a tick is absent, or a stamp with a content.  If, from one tick to the next, a
file with the same stamp has the same content, both programs have the same value and the
same report after every tick.

## Main definitions

* `Copy`, `Copy.reread` — a value with the report on its file, and one reading.
* `Watch`, `Watch.tick` — the same with the remembered stamp, and one tick.
* `SameContent` — the assumption on stamps.
* `Watch.always` — what reading at every tick gives.

## Main results

* `Watch.tick_always` — **reading by stamp is reading always.**
-/

namespace Atomic

variable {σ κ α ε : Type}

/-- A value in force, and why the last reading of its file failed. -/
structure Copy (α ε : Type) where
  /-- The last good version. -/
  value : Option α
  /-- The report. -/
  error : Option ε

/-- One reading: the file is good, or the value stays. -/
def Copy.reread (c : Copy α ε) : Except ε α → Copy α ε
  | .ok a => ⟨some a, none⟩
  | .error e => ⟨c.value, some e⟩

@[simp] theorem Copy.reread_reread (c : Copy α ε) (r : Except ε α) :
    (c.reread r).reread r = c.reread r := by
  cases r <;> rfl

theorem Copy.error_reread (c : Copy α ε) (r : Except ε α) :
    (c.reread r).error.isSome = true ↔ ¬∃ a, r = .ok a := by
  cases r <;> simp [Copy.reread]

/-- A value with the stamp of its file.  The outer `none` is a file that was never looked
at, the inner one a file that was absent. -/
structure Watch (σ α ε : Type) extends Copy α ε where
  /-- The stamp that was seen. -/
  seen : Option (Option σ)

/-- A file with the same stamp as before has the content it had. -/
def SameContent (f g : Option (σ × κ)) : Prop :=
  f.map Prod.fst = g.map Prod.fst → f = g

section Tick

variable [DecidableEq σ] (load : Option κ → Except ε α)

/-- One tick: a file that does not look as it did is read. -/
def Watch.tick (w : Watch σ α ε) (f : Option (σ × κ)) : Watch σ α ε :=
  if w.seen = some (f.map Prod.fst) then w
  else ⟨w.toCopy.reread (load (f.map Prod.snd)), some (f.map Prod.fst)⟩

end Tick

variable (load : Option κ → Except ε α)

/-- The copy after reading the file at every tick, and nothing before. -/
def Copy.always (fs : List (Option (σ × κ))) : Copy α ε :=
  fs.foldl (fun c f => c.reread (load (f.map Prod.snd))) ⟨none, none⟩

/-- That copy, with the stamp of the last tick. -/
def Watch.always (fs : List (Option (σ × κ))) : Watch σ α ε :=
  ⟨.always load fs, fs.getLast?.map (Option.map Prod.fst)⟩

variable {load}

theorem Copy.always_concat (fs : List (Option (σ × κ))) (f : Option (σ × κ)) :
    Copy.always load (fs ++ [f]) = (Copy.always load fs).reread (load (f.map Prod.snd)) := by
  simp [Copy.always]

theorem Watch.always_concat (fs : List (Option (σ × κ))) (f : Option (σ × κ)) :
    Watch.always load (fs ++ [f]) =
      ⟨(Copy.always load fs).reread (load (f.map Prod.snd)), some (f.map Prod.fst)⟩ := by
  simp [Watch.always, Copy.always_concat]

/-- A file that looks as it did at the last tick would be read to no effect. -/
theorem Watch.reread_always {fs : List (Option (σ × κ))} {f : Option (σ × κ)}
    (hfs : (fs ++ [f]).IsChain SameContent)
    (hseen : (Watch.always load fs).seen = some (f.map Prod.fst)) :
    (Copy.always load fs).reread (load (f.map Prod.snd)) = Copy.always load fs := by
  rcases List.eq_nil_or_concat fs with rfl | ⟨fs, g, rfl⟩
  · cases hseen
  · rw [List.concat_eq_append] at hfs hseen ⊢
    rw [Watch.always_concat] at hseen
    have hgf : g = f := by
      rw [List.append_assoc] at hfs
      have hchain := (List.isChain_append.mp hfs).2.1
      simp only [List.singleton_append, List.isChain_pair] at hchain
      exact hchain (Option.some.inj hseen)
    rw [Copy.always_concat, hgf, Copy.reread_reread]

/-- **Reading by stamp is reading always**: one more tick. -/
theorem Watch.tick_always [DecidableEq σ] {fs : List (Option (σ × κ))} {f : Option (σ × κ)}
    (hfs : (fs ++ [f]).IsChain SameContent) :
    (Watch.always load fs).tick load f = Watch.always load (fs ++ [f]) := by
  rw [Watch.always_concat]
  unfold Watch.tick
  split
  · next hseen =>
    rw [Watch.reread_always hfs hseen, ← hseen]
    rfl
  · rfl

end Atomic
