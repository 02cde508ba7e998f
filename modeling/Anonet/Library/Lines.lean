import Mathlib.Data.List.Basic
import Mathlib.Tactic.Common

/-!
# Lines of a stream

A stream is read line by line while it arrives in chunks.  A line ends in a line feed,
or where the stream ends; a carriage return in front of a line feed goes with it.

* `cut` — one line taken off a buffer.
* `split` — the lines of a buffer and the unfinished one; `split_append` says what a
  further chunk does to them.
* `read` — all lines of a stream that has ended; `read_flatMap` reads back what was
  written.
* `Taken` — **what a reader has taken is what the stream starts with, wherever the chunks
  were cut.**
-/

namespace Lines

variable {α : Type*} [DecidableEq α]

/-- The line in front, without its line feed, and what follows. -/
def cut (nl : α) : List α → Option (List α × List α)
  | [] => none
  | a :: as => if a = nl then some ([], as) else (cut nl as).map fun (l, rest) => (a :: l, rest)

/-- The terminated lines, each without its line feed, and what is behind the last. -/
def split (nl : α) : List α → List (List α) × List α
  | [] => ([], [])
  | a :: as =>
    if a = nl then ([] :: (split nl as).1, (split nl as).2)
    else
      match split nl as with
      | ([], rest) => ([], a :: rest)
      | (l :: ls, rest) => ((a :: l) :: ls, rest)

/-- A carriage return in front of the line feed is not part of the line. -/
def chomp (cr : α) (l : List α) : List α := if l.getLast? = some cr then l.dropLast else l

/-- The lines of a stream that ends here. -/
def read (nl cr : α) (stream : List α) : List (List α) :=
  (split nl stream).1.map (chomp cr) ++
    if (split nl stream).2 = [] then [] else [(split nl stream).2]

variable {nl cr a : α} {as bs l rest : List α}

@[simp] theorem split_nil : split nl ([] : List α) = ([], []) := rfl

theorem split_cons_self : split nl (nl :: as) = ([] :: (split nl as).1, (split nl as).2) := by
  rw [split, if_pos rfl]

theorem split_cons_of_nil (ha : a ≠ nl) (h : split nl as = ([], rest)) :
    split nl (a :: as) = ([], a :: rest) := by
  rw [split, if_neg ha, h]

theorem split_cons_of_cons {ls : List (List α)} (ha : a ≠ nl) (h : split nl as = (l :: ls, rest)) :
    split nl (a :: as) = ((a :: l) :: ls, rest) := by
  rw [split, if_neg ha, h]

/-- **A further chunk** goes on with the unfinished line. -/
theorem split_append (as bs : List α) :
    split nl (as ++ bs) =
      ((split nl as).1 ++ (split nl ((split nl as).2 ++ bs)).1,
        (split nl ((split nl as).2 ++ bs)).2) := by
  induction as with
  | nil => rfl
  | cons a as ih =>
    by_cases ha : a = nl
    · subst ha
      rw [List.cons_append, split_cons_self, split_cons_self, ih]
      rfl
    · rcases hs : split nl as with ⟨_ | ⟨l, ls⟩, rest⟩
      · rw [split_cons_of_nil ha hs]
        simp only [hs, List.nil_append] at ih
        rw [List.cons_append, List.nil_append, List.cons_append]
        simp only [split, if_neg ha, ih]
      · rw [split_cons_of_cons ha hs]
        simp only [hs, List.cons_append] at ih
        rw [List.cons_append, split_cons_of_cons ha ih, List.cons_append]

/-- There is no line feed left behind the last line. -/
theorem split_of_notMem (h : nl ∉ as) : split nl as = ([], as) := by
  induction as with
  | nil => rfl
  | cons a as ih =>
    rw [List.mem_cons, not_or] at h
    exact split_cons_of_nil (Ne.symm h.1) (ih h.2)

/-- One line written out. -/
theorem split_line_append (h : nl ∉ l) :
    split nl (l ++ nl :: as) = (l :: (split nl as).1, (split nl as).2) := by
  induction l with
  | nil => exact split_cons_self
  | cons a l ih =>
    rw [List.mem_cons, not_or] at h
    exact split_cons_of_cons (Ne.symm h.1) (ih h.2)

/-- The first line is the one `cut` takes. -/
theorem split_of_cut (h : cut nl as = some (l, rest)) :
    split nl as = (l :: (split nl rest).1, (split nl rest).2) := by
  induction as generalizing l with
  | nil => cases h
  | cons a as ih =>
    rw [cut] at h
    split at h
    · rename_i ha
      subst ha
      cases h
      exact split_cons_self
    · rename_i ha
      obtain ⟨⟨l', rest'⟩, hcut, heq⟩ := Option.map_eq_some_iff.mp h
      cases heq
      exact split_cons_of_cons ha (ih hcut)

/-- Where `cut` takes nothing, no line has ended. -/
theorem split_of_cut_eq_none (h : cut nl as = none) : split nl as = ([], as) := by
  refine split_of_notMem ?_
  induction as with
  | nil => exact List.not_mem_nil
  | cons a as ih =>
    rw [cut] at h
    split at h
    · cases h
    · rename_i ha
      rw [List.mem_cons, not_or]
      exact ⟨Ne.symm ha, ih (Option.map_eq_none_iff.mp h)⟩

theorem chomp_concat (l : List α) : chomp cr (l ++ [cr]) = l := by
  rw [chomp, if_pos List.getLast?_concat, List.dropLast_concat]

/-! ## Reading while the stream arrives -/

@[simp] theorem read_nil : read nl cr ([] : List α) = [] := rfl

theorem read_of_cut (h : cut nl as = some (l, rest)) :
    read nl cr as = chomp cr l :: read nl cr rest := by
  rw [read, split_of_cut h]
  rfl

/-- The last line of a stream need not be terminated. -/
theorem read_of_cut_eq_none (h : cut nl as = none) (hne : as ≠ []) : read nl cr as = [as] := by
  rw [read, split_of_cut_eq_none h, if_neg hne]
  rfl

/-- Of the stream `received`, a reader has taken the lines `taken`, and `buffer` is what
it has not looked at. -/
structure Taken (nl cr : α) (taken : List (List α)) (received buffer : List α) : Prop where
  lines : (split nl received).1.map (chomp cr) = taken ++ (split nl buffer).1.map (chomp cr)
  rest : (split nl received).2 = (split nl buffer).2

section Taken

variable {taken : List (List α)} {received buffer : List α}

theorem taken_nil (received : List α) : Taken nl cr [] received received := ⟨rfl, rfl⟩

/-- A chunk arrives. -/
theorem Taken.append (h : Taken nl cr taken received buffer) (chunk : List α) :
    Taken nl cr taken (received ++ chunk) (buffer ++ chunk) := by
  constructor
  · rw [split_append received chunk, split_append buffer chunk, h.rest, List.map_append,
      List.map_append, h.lines, List.append_assoc]
  · rw [split_append received chunk, split_append buffer chunk, h.rest]

/-- The reader takes a line. -/
theorem Taken.cut (h : Taken nl cr taken received buffer)
    (hcut : Lines.cut nl buffer = some (l, rest)) :
    Taken nl cr (taken ++ [chomp cr l]) received rest := by
  have hsplit := split_of_cut hcut
  refine ⟨?_, ?_⟩
  · rw [h.lines, hsplit, List.map_cons, List.append_assoc, List.singleton_append]
  · rw [h.rest, hsplit]

/-- If the stream ends here, what is not taken is in the buffer. -/
theorem Taken.read_eq (h : Taken nl cr taken received buffer) :
    read nl cr received = taken ++ read nl cr buffer := by
  rw [read, h.lines, h.rest, List.append_assoc]
  rfl

end Taken

/-! ## Reading back -/

theorem cut_line_append (h : nl ∉ l) : cut nl (l ++ nl :: as) = some (l, as) := by
  induction l with
  | nil => rw [List.nil_append, cut, if_pos rfl]
  | cons a l ih =>
    rw [List.mem_cons, not_or] at h
    rw [List.cons_append, cut, if_neg (Ne.symm h.1), ih h.2]
    rfl

theorem split_flatMap {ls : List (List α)} (h : ∀ l ∈ ls, nl ∉ l) (as : List α) :
    split nl (ls.flatMap (· ++ [nl]) ++ as) = (ls ++ (split nl as).1, (split nl as).2) := by
  induction ls with
  | nil => rfl
  | cons l ls ih =>
    rw [List.flatMap_cons, List.append_assoc, List.append_assoc, List.singleton_append,
      split_line_append (h l List.mem_cons_self),
      ih fun l' hl' => h l' (List.mem_cons_of_mem l hl'), List.cons_append]

/-- **Lines written out with a carriage return and a line feed are read back.** -/
theorem read_flatMap {ls : List (List α)} (h : ∀ l ∈ ls, nl ∉ l) (hne : cr ≠ nl) :
    read nl cr (ls.flatMap (· ++ [cr, nl])) = ls := by
  have hlines : ls.flatMap (· ++ [cr, nl]) = (ls.map (· ++ [cr])).flatMap (· ++ [nl]) := by
    rw [List.flatMap_map]
    refine List.flatMap_congr fun l _ => ?_
    rw [List.append_assoc]
    rfl
  have hraw : ∀ l ∈ ls.map (· ++ [cr]), nl ∉ l := by
    intro l hl
    obtain ⟨l', hl', rfl⟩ := List.mem_map.mp hl
    simp [h l' hl', Ne.symm hne]
  have hsplit := split_flatMap hraw []
  rw [List.append_nil, split_nil, List.append_nil] at hsplit
  rw [read, hlines, hsplit, List.map_map, if_pos rfl, List.append_nil]
  conv_rhs => rw [← List.map_id ls]
  exact List.map_congr_left fun l _ => chomp_concat l

end Lines
