import Mathlib.Data.List.Basic
import Mathlib.Tactic.Common

/-!
# One path of a file system

A path leads to a file or to nothing; whoever has opened a file keeps it when the
path is removed or leads elsewhere later.

* `PathFile` — the files there have been at the path, and the one it leads to.
* `openTruncated`, `writeStart`, `unlink` — what opening with truncation, a write at
  the start of a file, and removing the path do.
-/

/-- The files of one path, each named by its place in the list. -/
structure PathFile (β : Type*) where
  path : Option ℕ
  files : List (List β)
  path_lt : ∀ i, path = some i → i < files.length

namespace PathFile

variable {β : Type*} (f : PathFile β) {i j : ℕ}

/-- No file yet. -/
def empty : PathFile β where
  path := none
  files := []
  path_lt := by simp

def contents (i : ℕ) : List β := f.files[i]?.getD []

/-- What a write at the start of a file leaves: the rest of a longer file stays. -/
def overwrite (new old : List β) : List β := new ++ old.drop new.length

theorem overwrite_of_length_le {new old : List β} (h : old.length ≤ new.length) :
    overwrite new old = new := by
  rw [overwrite, List.drop_eq_nil_of_le h, List.append_nil]

/-- The file that opening with truncation gives. -/
def openedFile : ℕ := f.path.getD f.files.length

/-- Open for writing, emptied; created when the path leads to nothing. -/
def openTruncated : PathFile β where
  path := some f.openedFile
  files :=
    match f.path with
    | none => f.files ++ [[]]
    | some i => f.files.set i []
  path_lt := by
    intro i hi
    obtain rfl : f.openedFile = i := Option.some.inj hi
    cases h : f.path with
    | none => simp [openedFile, h]
    | some j => simpa [openedFile, h] using f.path_lt j h

/-- Write at the start of file `i`. -/
def writeStart (i : ℕ) (new : List β) : PathFile β where
  path := f.path
  files := f.files.modify i (overwrite new)
  path_lt := by
    intro j hj
    rw [List.length_modify]
    exact f.path_lt j hj

/-- Remove the path; the file stays with whoever has it open. -/
def unlink : PathFile β where
  path := none
  files := f.files
  path_lt := by simp

variable {f}

@[simp] theorem path_openTruncated : f.openTruncated.path = some f.openedFile := rfl

theorem openedFile_of_path (h : f.path = some i) : f.openedFile = i := by
  simp [openedFile, h]

theorem openedFile_of_path_eq_none (h : f.path = none) : f.openedFile = f.files.length := by
  simp [openedFile, h]

theorem files_of_path (h : f.path = some i) : f.openTruncated.files = f.files.set i [] := by
  simp [openTruncated, h]

theorem files_of_path_eq_none (h : f.path = none) :
    f.openTruncated.files = f.files ++ [[]] := by
  simp [openTruncated, h]

theorem length_le_openTruncated : f.files.length ≤ f.openTruncated.files.length := by
  cases h : f.path with
  | none => simp [files_of_path_eq_none h]
  | some i => simp [files_of_path h]

theorem openedFile_lt : f.openedFile < f.openTruncated.files.length :=
  f.openTruncated.path_lt _ path_openTruncated

theorem contents_openTruncated :
    f.openTruncated.contents j = if j = f.openedFile then [] else f.contents j := by
  cases h : f.path with
  | none =>
    rw [contents, contents, files_of_path_eq_none h, openedFile_of_path_eq_none h]
    rcases Nat.lt_trichotomy j f.files.length with hj | hj | hj
    · rw [List.getElem?_append_left hj, if_neg (Nat.ne_of_lt hj)]
    · subst hj
      simp
    · have hnone : (f.files ++ [([] : List β)])[j]? = none :=
        List.getElem?_eq_none (by simpa using Nat.succ_le_of_lt hj)
      rw [if_neg (Nat.ne_of_gt hj), hnone, List.getElem?_eq_none (Nat.le_of_lt hj)]
  | some i =>
    have hlt : i < f.files.length := f.path_lt i h
    rw [contents, contents, files_of_path h, openedFile_of_path h]
    by_cases hij : j = i
    · subst hij
      simp [hlt]
    · rw [List.getElem?_set_ne (Ne.symm hij), if_neg hij]

@[simp] theorem path_writeStart {new : List β} : (f.writeStart i new).path = f.path := rfl

@[simp] theorem length_writeStart {new : List β} :
    (f.writeStart i new).files.length = f.files.length := List.length_modify _ _ _

theorem contents_writeStart {new : List β} (h : i < f.files.length) :
    (f.writeStart i new).contents j = if j = i then overwrite new (f.contents i) else f.contents j := by
  unfold contents writeStart
  rw [List.getElem?_modify]
  by_cases hij : i = j
  · subst hij
    simp [List.getElem?_eq_getElem h]
  · simp [hij, Ne.symm hij]

end PathFile
