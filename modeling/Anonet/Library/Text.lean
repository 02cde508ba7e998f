import Mathlib.Data.Nat.Notation
import Mathlib.Tactic.Common

/-!
# Texts

What the standard library does with text that people and programs type.

* `isWhiteSpace`, `trim`, `splitWhitespace` — Unicode white space.
* `parseUnsigned` — `FromStr` of an unsigned integer type: an optional `+`,
  then decimal digits, within the type's range.
* `digits` — `ToString` of one; `parseU32_trim_digits` reads it back.
* `splitOn_intercalate_iff` — joined parts are cut apart again just if none of them
  holds the separator.
-/

namespace Text

/-- Unicode `White_Space`. -/
def isWhiteSpace (c : Char) : Bool :=
  (0x9 ≤ c.val ∧ c.val ≤ 0xd) ∨ c.val = 0x20 ∨ c.val = 0x85 ∨ c.val = 0xa0 ∨ c.val = 0x1680 ∨
    (0x2000 ≤ c.val ∧ c.val ≤ 0x200a) ∨ c.val = 0x2028 ∨ c.val = 0x2029 ∨ c.val = 0x202f ∨
    c.val = 0x205f ∨ c.val = 0x3000

/-- `str::trim`. -/
def trim (cs : List Char) : List Char :=
  ((cs.dropWhile isWhiteSpace).reverse.dropWhile isWhiteSpace).reverse

/-- `str::split_whitespace`. -/
def splitWhitespace (s : String) : List (List Char) :=
  (s.toList.splitOnP isWhiteSpace).filter (· ≠ [])

/-- `char::is_ascii_digit`. -/
def isAsciiDigit (c : Char) : Bool := '0' ≤ c ∧ c ≤ '9'

/-- The value of a string of decimal digits. -/
def decimal (cs : List Char) : ℕ := cs.foldl (fun n c => n * 10 + (c.toNat - '0'.toNat)) 0

/-- Digits only, at least one, of a value below `bound`. -/
def parseDigits (bound : ℕ) (cs : List Char) : Option ℕ :=
  if cs ≠ [] ∧ cs.all isAsciiDigit ∧ decimal cs < bound then some (decimal cs) else none

/-- `parse` into an unsigned integer type of `bound` values. -/
def parseUnsigned (bound : ℕ) : List Char → Option ℕ
  | '+' :: cs => parseDigits bound cs
  | cs => parseDigits bound cs

def parseU32 (cs : List Char) : Option UInt32 := (parseUnsigned UInt32.size cs).map UInt32.ofNat

/-- Decimal digits, as `to_string` writes an unsigned integer. -/
def digits (n : ℕ) : List Char := Nat.toDigits 10 n

example : parseU32 "1000".toList = some 1000 ∧ parseU32 "+7".toList = some 7 ∧
    parseU32 "4294967296".toList = none ∧ parseU32 "".toList = none := by decide

/-! ## Words -/

/-- A word in front of white space. -/
theorem splitWhitespace_word_append {w rest : List Char} {c : Char} (hne : w ≠ [])
    (hw : ∀ x ∈ w, isWhiteSpace x = false) (hc : isWhiteSpace c = true) :
    splitWhitespace (String.ofList (w ++ c :: rest)) =
      w :: splitWhitespace (String.ofList rest) := by
  have hfirst : (w ++ c :: rest).splitOnP isWhiteSpace = w :: rest.splitOnP isWhiteSpace :=
    List.splitOnP_append_cons_of_forall_mem hw c hc rest
  simp only [splitWhitespace, String.toList_ofList, hfirst]
  rw [List.filter_cons_of_pos (by simpa using hne)]

/-- A word at the end. -/
theorem splitWhitespace_word {w : List Char} (hne : w ≠ [])
    (hw : ∀ x ∈ w, isWhiteSpace x = false) : splitWhitespace (String.ofList w) = [w] := by
  have hsingle : w.splitOnP isWhiteSpace = [w] := List.splitOnP_eq_singleton hw
  simp only [splitWhitespace, String.toList_ofList, hsingle]
  rw [List.filter_cons_of_pos (by simpa using hne), List.filter_nil]

/-! ## Reading back what was written -/

theorem dropWhile_isWhiteSpace {cs : List Char} (h : ∀ c ∈ cs, isWhiteSpace c = false) :
    cs.dropWhile isWhiteSpace = cs := by
  cases cs with
  | nil => rfl
  | cons c cs => simp [h c]

theorem isWhiteSpace_of_isAsciiDigit {c : Char} (h : isAsciiDigit c) : isWhiteSpace c = false := by
  have h₀ : 48 ≤ c.toNat := by
    have h' : '0' ≤ c := by
      simp [isAsciiDigit] at h
      exact h.1
    exact h'
  have h₉ : c.toNat ≤ 57 := by
    have h' : c ≤ '9' := by
      simp [isAsciiDigit] at h
      exact h.2
    exact h'
  simp only [isWhiteSpace, UInt32.le_iff_toNat_le, ← UInt32.toNat_inj, decide_eq_false_iff_not]
  simp
  omega

theorem isAsciiDigit_of_isDigit {c : Char} (h : c.isDigit) : isAsciiDigit c := by
  simpa [isAsciiDigit, Char.isDigit, Char.le_def] using h

theorem isAsciiDigit_digits {n : ℕ} {c : Char} (h : c ∈ digits n) : isAsciiDigit c :=
  isAsciiDigit_of_isDigit (Nat.isDigit_of_mem_toDigits (by decide) (by decide) h)

theorem decimal_digits (n : ℕ) : decimal (digits n) = n := by
  have h : decimal (digits n) = Nat.ofDigitChars 10 (Nat.toDigits 10 n) 0 := by
    simp [decimal, digits, Nat.ofDigitChars_eq_foldl, Nat.mul_comm]
  rw [h, Nat.ofDigitChars_ten_toDigits]

/-- There is nothing to trim from digits. -/
theorem trim_of_isAsciiDigit {cs : List Char} (h : ∀ c ∈ cs, isAsciiDigit c) : trim cs = cs := by
  have hno : ∀ c ∈ cs, isWhiteSpace c = false := fun c hc => isWhiteSpace_of_isAsciiDigit (h c hc)
  rw [trim, dropWhile_isWhiteSpace hno, dropWhile_isWhiteSpace, List.reverse_reverse]
  intro c hc
  exact hno c (List.mem_reverse.mp hc)

theorem trim_digits (n : ℕ) : trim (digits n) = digits n :=
  trim_of_isAsciiDigit fun _ hc => isAsciiDigit_digits hc

theorem parseUnsigned_of_isAsciiDigit {bound : ℕ} {cs : List Char}
    (h : ∀ c ∈ cs, isAsciiDigit c) : parseUnsigned bound cs = parseDigits bound cs := by
  unfold parseUnsigned
  split
  · exact absurd (h '+' (by simp)) (by decide)
  · rfl

theorem parseUnsigned_digits {bound n : ℕ} (h : n < bound) :
    parseUnsigned bound (digits n) = some n := by
  have hne : digits n ≠ [] := Nat.toDigits_ne_nil
  have hall : (digits n).all isAsciiDigit := List.all_eq_true.mpr fun c hc => isAsciiDigit_digits hc
  rw [parseUnsigned_of_isAsciiDigit fun _ hc => isAsciiDigit_digits hc, parseDigits, decimal_digits,
    if_pos ⟨hne, hall, h⟩]

/-- Digits are read as the number they write, if there is one and it fits. -/
theorem parseU32_trim_eq_some {cs : List Char} (h : ∀ c ∈ cs, isAsciiDigit c) {n : UInt32} :
    parseU32 (trim cs) = some n ↔ cs ≠ [] ∧ decimal cs = n.toNat := by
  rw [trim_of_isAsciiDigit h, parseU32, parseUnsigned_of_isAsciiDigit h, parseDigits]
  have hall : cs.all isAsciiDigit = true := List.all_eq_true.mpr h
  constructor
  · intro hread
    obtain ⟨m, hm, rfl⟩ := Option.map_eq_some_iff.mp hread
    split at hm
    · rename_i hok
      obtain rfl := Option.some.inj hm
      exact ⟨hok.1, (UInt32.toNat_ofNat_of_lt' hok.2.2).symm⟩
    · cases hm
  · rintro ⟨hne, hvalue⟩
    rw [if_pos ⟨hne, hall, hvalue ▸ n.toNat_lt_size⟩, Option.map_some, hvalue]
    simp

/-- What `to_string` writes, `trim` and `parse` read back. -/
theorem parseU32_trim_digits (n : UInt32) : parseU32 (trim (digits n.toNat)) = some n := by
  rw [trim_digits, parseU32, parseUnsigned_digits n.toNat_lt_size, Option.map_some]
  simp

theorem digits_injective {n m : ℕ} (h : digits n = digits m) : n = m := by
  rw [← decimal_digits n, h, decimal_digits]

/-- There is no line break in a number, whatever its base. -/
theorem newline_notMem_toDigits {base : ℕ} (hbase : 1 < base) (n : ℕ) :
    '\n' ∉ Nat.toDigits base n := by
  have hdigit : ∀ d : ℕ, '\n' ≠ d.digitChar := by
    intro d
    simp only [Nat.digitChar, apply_ite (fun c => '\n' ≠ c)]
    simp
  induction n using Nat.strongRecOn with
  | ind n ih =>
    rw [Nat.toDigits_eq_if hbase]
    split
    · simp [hdigit]
    · rename_i hle
      have hlt : n / base < n := Nat.div_lt_self (by omega) hbase
      simp [hdigit, ih _ hlt]

/-! ## Joining and cutting -/

theorem notMem_intercalate {α : Type} {a : α} {sep : List α} (hsep : a ∉ sep) {parts : List (List α)}
    (h : ∀ p ∈ parts, a ∉ p) : a ∉ sep.intercalate parts := by
  induction parts with
  | nil => simp
  | cons p parts ih =>
    have hp : a ∉ p := h p (by simp)
    by_cases hparts : parts = []
    · subst hparts
      simpa using hp
    · rw [List.intercalate_cons_of_ne_nil hparts]
      simp [hp, hsep, ih fun q hq => h q (by simp [hq])]

theorem length_splitOn_pos {α : Type} [BEq α] (a : α) (p : List α) : 0 < (p.splitOn a).length :=
  List.length_pos_iff.mpr (List.splitOn_ne_nil a p)

theorem length_le_length_flatMap_splitOn {α : Type} [BEq α] (a : α) (parts : List (List α)) :
    parts.length ≤ (parts.flatMap (·.splitOn a)).length := by
  induction parts with
  | nil => simp
  | cons p parts ih =>
    have hp := length_splitOn_pos a p
    rw [List.flatMap_cons, List.length_append, List.length_cons]
    omega

section Join

variable {α : Type} [BEq α] [LawfulBEq α]

/-- What is joined is cut again, and so is every part. -/
theorem splitOn_intercalate_flatMap (a : α) {parts : List (List α)} (h : parts ≠ []) :
    ([a].intercalate parts).splitOn a = parts.flatMap (·.splitOn a) := by
  induction parts with
  | nil => exact absurd rfl h
  | cons p parts ih =>
    by_cases hparts : parts = []
    · subst hparts
      simp
    · have hjoin : [a].intercalate (p :: parts) = p ++ a :: [a].intercalate parts := by
        rw [List.intercalate_cons_of_ne_nil hparts, List.append_assoc]
        rfl
      rw [hjoin, List.splitOn_append_cons_self, ih hparts, List.flatMap_cons]

/-- A part that holds the separator is cut. -/
theorem one_lt_length_splitOn {a : α} {p : List α} (h : a ∈ p) : 1 < (p.splitOn a).length := by
  obtain ⟨xs, ys, rfl⟩ := List.append_of_mem h
  rw [List.splitOn_append_cons_self, List.length_append]
  have hxs := length_splitOn_pos a xs
  have hys := length_splitOn_pos a ys
  omega

/-- As many pieces as parts: no part was cut. -/
theorem notMem_of_length_flatMap_splitOn {a : α} {parts : List (List α)}
    (h : (parts.flatMap (·.splitOn a)).length = parts.length) : ∀ p ∈ parts, a ∉ p := by
  induction parts with
  | nil => nofun
  | cons p parts ih =>
    rw [List.flatMap_cons, List.length_append, List.length_cons] at h
    have hp := length_splitOn_pos a p
    have hparts := length_le_length_flatMap_splitOn a parts
    intro q hq hmem
    rcases List.mem_cons.mp hq with rfl | hq
    · have hcut := one_lt_length_splitOn hmem
      omega
    · exact ih (by omega) q hq hmem

/-- **Joined parts are cut apart again just if none of them holds the separator.** -/
theorem splitOn_intercalate_iff {a : α} {parts : List (List α)} (h : parts ≠ []) :
    ([a].intercalate parts).splitOn a = parts ↔ ∀ p ∈ parts, a ∉ p := by
  constructor
  · intro hsplit
    refine notMem_of_length_flatMap_splitOn ?_
    rw [← splitOn_intercalate_flatMap a h, hsplit]
  · intro hno
    exact List.splitOn_intercalate a hno h

end Join

end Text
