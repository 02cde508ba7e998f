import Mathlib.Algebra.Group.Nat.Defs
import Mathlib.Tactic.Common

/-!
# Byte strings

Big-endian values and UTF-8 text, as wire formats use them.

* `beNat` — the value of a byte string in network order.
* `beBytes` — a number as a given number of bytes; `beNat_beBytes` reads it back.
* `fromUtf8` / `toUtf8` — strict UTF-8 decoding and its inverse
  (`fromUtf8_toUtf8`, `toUtf8_of_fromUtf8`); `mem_of_mem_toUtf8` finds ASCII characters.
* `fromUtf8Lossy` — decoding with a replacement character for every maximal part of
  a sequence that is not UTF-8; `splitOn_lossyChars` — it commutes with cutting at an
  ASCII character.
-/

namespace Bytes

/-- The value of a byte string read in network (big-endian) order. -/
def beNat (bs : List UInt8) : Nat := bs.foldl (fun n b => n * 256 + b.toNat) 0

/-- Strict UTF-8 decoding: `none` unless the whole byte string is valid. -/
def fromUtf8 (bs : List UInt8) : Option String := String.fromUTF8? ⟨bs.toArray⟩

/-- The UTF-8 encoding of a string. -/
def toUtf8 (s : String) : List UInt8 := s.toUTF8.data.toList

@[simp] theorem fromUtf8_toUtf8 (s : String) : fromUtf8 (toUtf8 s) = some s := by
  simp only [fromUtf8, toUtf8, Array.toArray_toList, String.fromUTF8?]
  exact dif_pos s.isValidUTF8

/-- A decoded string encodes to the bytes it was decoded from. -/
theorem toUtf8_of_fromUtf8 {bs : List UInt8} {s : String} (h : fromUtf8 bs = some s) :
    toUtf8 s = bs := by
  simp only [fromUtf8, String.fromUTF8?] at h
  split at h
  · cases h
    simp [toUtf8, String.fromUTF8]
  · exact absurd h (by simp)

/-- The 16-bit value of two bytes in network order. -/
def u16FromBe (hi lo : UInt8) : UInt16 := UInt16.ofNat (beNat [hi, lo])

/-- The two bytes of a 16-bit value in network order. -/
def u16ToBe (n : UInt16) : List UInt8 := [UInt8.ofNat (n.toNat / 256), UInt8.ofNat (n.toNat % 256)]

theorem toNat_u16FromBe (hi lo : UInt8) :
    (u16FromBe hi lo).toNat = hi.toNat * 256 + lo.toNat := by
  have h := hi.toNat_lt
  have h' := lo.toNat_lt
  simp only [u16FromBe, beNat, List.foldl_cons, List.foldl_nil, UInt16.toNat_ofNat']
  omega

/-- Every pair of bytes is the encoding of the value it stands for. -/
@[simp] theorem u16ToBe_u16FromBe (hi lo : UInt8) : u16ToBe (u16FromBe hi lo) = [hi, lo] := by
  have h := hi.toNat_lt
  have h' := lo.toNat_lt
  simp only [u16ToBe, toNat_u16FromBe, List.cons.injEq, and_true, ← UInt8.toNat_inj,
    UInt8.toNat_ofNat']
  omega

theorem u16FromBe_u16ToBe (n : UInt16) :
    u16FromBe (UInt8.ofNat (n.toNat / 256)) (UInt8.ofNat (n.toNat % 256)) = n := by
  have h := n.toNat_lt
  rw [← UInt16.toNat_inj, toNat_u16FromBe, UInt8.toNat_ofNat', UInt8.toNat_ofNat']
  omega

theorem beNat_concat (bs : List UInt8) (b : UInt8) : beNat (bs ++ [b]) = beNat bs * 256 + b.toNat := by
  simp [beNat]

/-- The `width` low-order bytes of a number, in network order. -/
def beBytes : Nat → Nat → List UInt8
  | 0, _ => []
  | width + 1, n => beBytes width (n / 256) ++ [UInt8.ofNat (n % 256)]

@[simp] theorem length_beBytes (width n : Nat) : (beBytes width n).length = width := by
  induction width generalizing n with
  | zero => rfl
  | succ width ih => simp [beBytes, ih]

theorem beNat_beBytes (width n : Nat) : beNat (beBytes width n) = n % 256 ^ width := by
  induction width generalizing n with
  | zero => simp [beBytes, beNat, Nat.mod_one]
  | succ width ih =>
    have hbyte : (UInt8.ofNat (n % 256)).toNat = n % 256 := by
      rw [UInt8.toNat_ofNat']
      omega
    rw [beBytes, beNat_concat, ih, hbyte, Nat.pow_succ', Nat.mod_mul, Nat.mul_comm, Nat.add_comm]

/-! ## UTF-8 text as bytes -/

/-- The encoding, character by character. -/
theorem toUtf8_eq_flatMap (s : String) : toUtf8 s = s.toList.flatMap String.utf8EncodeChar := by
  have h : s.toByteArray = s.toList.utf8Encode := by
    rw [← String.toByteArray_ofList, String.ofList_toList]
  rw [toUtf8, String.toUTF8_eq_toByteArray, h, List.utf8Encode]
  simp

theorem toUtf8_injective : Function.Injective toUtf8 := by
  intro s t h
  rw [← Option.some_inj, ← fromUtf8_toUtf8 s, ← fromUtf8_toUtf8 t, h]

/-- A byte below 128 stands for its own character wherever it occurs. -/
theorem mem_of_mem_toUtf8 {s : String} {b : UInt8} (h : b ∈ toUtf8 s) (hb : b < 128) :
    Char.ofNat b.toNat ∈ s.toList := by
  rw [toUtf8_eq_flatMap, List.mem_flatMap] at h
  obtain ⟨c, hc, hbc⟩ := h
  have hlt : b.toNat < 128 := UInt8.lt_iff_toNat_lt.mp hb
  suffices hbn : b.toNat = c.val.toNat by
    rw [hbn, show c.val.toNat = c.toNat from rfl, Char.ofNat_toNat]
    exact hc
  -- the bytes of a longer sequence are all 128 or more
  have hno : ∀ n : ℕ, 128 ≤ n → n < 256 → b ≠ UInt8.ofNat n := by
    rintro n hn hn' rfl
    rw [UInt8.toNat_ofNat', Nat.mod_eq_of_lt hn'] at hlt
    omega
  simp only [String.utf8EncodeChar] at hbc
  split_ifs at hbc <;> simp only [List.mem_cons, List.not_mem_nil, or_false] at hbc
  · rw [hbc, UInt8.toNat_ofNat']
    exact Nat.mod_eq_of_lt (by omega)
  · rcases hbc with hbc | hbc <;> exact absurd hbc (hno _ (by omega) (by omega))
  · rcases hbc with hbc | hbc | hbc <;> exact absurd hbc (hno _ (by omega) (by omega))
  · rcases hbc with hbc | hbc | hbc | hbc <;> exact absurd hbc (hno _ (by omega) (by omega))

/-! ## Lossy decoding -/

/-- A continuation byte. -/
def isCont (b : UInt8) : Bool := 0x80 ≤ b && b ≤ 0xBF

/-- The second byte of a three-byte sequence. -/
def second3 (b b' : UInt8) : Bool :=
  if b = 0xE0 then 0xA0 ≤ b' && b' ≤ 0xBF
  else if b = 0xED then 0x80 ≤ b' && b' ≤ 0x9F
  else isCont b'

/-- The second byte of a four-byte sequence. -/
def second4 (b b' : UInt8) : Bool :=
  if b = 0xF0 then 0x90 ≤ b' && b' ≤ 0xBF
  else if b = 0xF4 then 0x80 ≤ b' && b' ≤ 0x8F
  else isCont b'

def replacementChar : Char := Char.ofNat 0xFFFD

/-- `String::from_utf8_lossy`, as characters.  What a sequence has in front of the
byte that breaks it becomes one replacement character. -/
def lossyChars : List UInt8 → List Char
  | [] => []
  | b :: bs =>
    if b < 0x80 then Char.ofNat b.toNat :: lossyChars bs
    else if 0xC2 ≤ b ∧ b ≤ 0xDF then
      match bs with
      | [] => [replacementChar]
      | b₁ :: bs₁ =>
        if isCont b₁ then
          Char.ofNat (b.toNat % 32 * 64 + b₁.toNat % 64) :: lossyChars bs₁
        else replacementChar :: lossyChars (b₁ :: bs₁)
    else if 0xE0 ≤ b ∧ b ≤ 0xEF then
      match bs with
      | [] => [replacementChar]
      | [b₁] => if second3 b b₁ then [replacementChar] else replacementChar :: lossyChars [b₁]
      | b₁ :: b₂ :: bs₂ =>
        if second3 b b₁ then
          if isCont b₂ then
            Char.ofNat ((b.toNat % 16 * 64 + b₁.toNat % 64) * 64 + b₂.toNat % 64) ::
              lossyChars bs₂
          else replacementChar :: lossyChars (b₂ :: bs₂)
        else replacementChar :: lossyChars (b₁ :: b₂ :: bs₂)
    else if 0xF0 ≤ b ∧ b ≤ 0xF4 then
      match bs with
      | [] => [replacementChar]
      | [b₁] => if second4 b b₁ then [replacementChar] else replacementChar :: lossyChars [b₁]
      | [b₁, b₂] =>
        if second4 b b₁ then
          if isCont b₂ then [replacementChar] else replacementChar :: lossyChars [b₂]
        else replacementChar :: lossyChars [b₁, b₂]
      | b₁ :: b₂ :: b₃ :: bs₃ =>
        if second4 b b₁ then
          if isCont b₂ then
            if isCont b₃ then
              Char.ofNat (((b.toNat % 8 * 64 + b₁.toNat % 64) * 64 + b₂.toNat % 64) * 64 +
                b₃.toNat % 64) :: lossyChars bs₃
            else replacementChar :: lossyChars (b₃ :: bs₃)
          else replacementChar :: lossyChars (b₂ :: b₃ :: bs₃)
        else replacementChar :: lossyChars (b₁ :: b₂ :: b₃ :: bs₃)
    else replacementChar :: lossyChars bs

def fromUtf8Lossy (bs : List UInt8) : String := String.ofList (lossyChars bs)

example : fromUtf8Lossy [0x61, 0xC3, 0xA9, 0xE2, 0x82, 0x62, 0xFF] = "aé\uFFFDb\uFFFD" := by decide

theorem isCont_of_second3 {b b₁ : UInt8} (h : second3 b b₁ = true) : isCont b₁ = true := by
  simp only [second3, isCont, UInt8.le_iff_toNat_le] at h ⊢
  grind

theorem isCont_of_second4 {b b₁ : UInt8} (h : second4 b b₁ = true) : isCont b₁ = true := by
  simp only [second4, isCont, UInt8.le_iff_toNat_le] at h ⊢
  grind

/-- What a two-byte sequence stands for is no ASCII character. -/
theorem le_two {b b₁ : UInt8} (h : 0xC2 ≤ b ∧ b ≤ 0xDF) :
    128 ≤ b.toNat % 32 * 64 + b₁.toNat % 64 := by
  simp only [UInt8.le_iff_toNat_le, UInt8.reduceToNat] at h
  omega

/-- The first two bytes of a longer sequence stand for something. -/
theorem le_three {b b₁ : UInt8} (h : 0xE0 ≤ b ∧ b ≤ 0xEF) (h₁ : second3 b b₁ = true) :
    2 ≤ b.toNat % 16 * 64 + b₁.toNat % 64 := by
  simp only [UInt8.le_iff_toNat_le, UInt8.reduceToNat] at h
  unfold second3 at h₁
  split at h₁
  · simp only [Bool.and_eq_true, decide_eq_true_eq, UInt8.le_iff_toNat_le,
      UInt8.reduceToNat] at h₁
    omega
  · rename_i hne
    have hlead : b.toNat ≠ 0xE0 := fun h₀ => hne (UInt8.toNat_inj.mp h₀)
    omega

theorem le_four {b b₁ : UInt8} (h : 0xF0 ≤ b ∧ b ≤ 0xF4) (h₁ : second4 b b₁ = true) :
    2 ≤ b.toNat % 8 * 64 + b₁.toNat % 64 := by
  simp only [UInt8.le_iff_toNat_le, UInt8.reduceToNat] at h
  unfold second4 at h₁
  split at h₁
  · simp only [Bool.and_eq_true, decide_eq_true_eq, UInt8.le_iff_toNat_le,
      UInt8.reduceToNat] at h₁
    omega
  · rename_i hne
    have hlead : b.toNat ≠ 0xF0 := fun h₀ => hne (UInt8.toNat_inj.mp h₀)
    omega

theorem lossyChars_ne_nil {bs : List UInt8} (h : bs ≠ []) : lossyChars bs ≠ [] := by
  fun_cases lossyChars bs with
  | case1 => exact absurd rfl h
  | _ => simp

section Ascii

variable {x : UInt8} (hx : x < 0x80)

include hx

theorem isCont_ascii : isCont x = false := by
  simp only [UInt8.lt_iff_toNat_lt, UInt8.reduceToNat] at hx
  simp only [isCont, Bool.and_eq_false_iff, decide_eq_false_iff_not, UInt8.le_iff_toNat_le,
    UInt8.reduceToNat]
  omega

/-- An ASCII byte ends whatever sequence is in front of it. -/
theorem lossyChars_append_ascii (a b : List UInt8) :
    lossyChars (a ++ x :: b) = lossyChars a ++ Char.ofNat x.toNat :: lossyChars b := by
  have hascii : lossyChars (x :: b) = Char.ofNat x.toNat :: lossyChars b := by
    rw [lossyChars.eq_def]
    simp only [if_pos hx]
  have hcont : isCont x = false := isCont_ascii hx
  have hsecond3 : ∀ b, second3 b x = false :=
    fun b => Bool.eq_false_iff.mpr fun h => by simp [isCont_of_second3 h] at hcont
  have hsecond4 : ∀ b, second4 b x = false :=
    fun b => Bool.eq_false_iff.mpr fun h => by simp [isCont_of_second4 h] at hcont
  fun_induction lossyChars a with
  | case1 => exact hascii
  | _ =>
    rw [List.cons_append, lossyChars.eq_def]
    grind

/-- An ASCII character stands for one number only. -/
theorem eq_of_ofNat_eq (hzero : x ≠ 0) {n : ℕ} (h : Char.ofNat x.toNat = Char.ofNat n) :
    n = x.toNat := by
  have htoNat : ∀ m : ℕ, (Char.ofNat m).toNat = m ∨ (Char.ofNat m).toNat = 0 := by
    intro m
    by_cases hm : m.isValidChar
    · left
      rw [Char.ofNat, dif_pos hm]
      rfl
    · right
      rw [Char.ofNat, dif_neg hm]
      rfl
  have hpos : x.toNat ≠ 0 := fun h₀ => hzero (UInt8.toNat_inj.mp h₀)
  have hvalid : x.toNat.isValidChar := by
    simp only [UInt8.lt_iff_toNat_lt, UInt8.reduceToNat] at hx
    exact .inl (by omega)
  have hx' : (Char.ofNat x.toNat).toNat = x.toNat := by
    rw [Char.ofNat, dif_pos hvalid]
    rfl
  have hsame := congrArg Char.toNat h
  rcases htoNat n with hn | hn <;> omega

/-- Only the byte itself is decoded to an ASCII character. -/
theorem mem_of_mem_lossyChars (hzero : x ≠ 0) {bs : List UInt8}
    (h : Char.ofNat x.toNat ∈ lossyChars bs) : x ∈ bs := by
  have hlt : x.toNat < 128 := by
    simpa only [UInt8.lt_iff_toNat_lt, UInt8.reduceToNat] using hx
  have hone : ∀ b : UInt8, Char.ofNat x.toNat = Char.ofNat b.toNat → x = b :=
    fun b hb => UInt8.toNat_inj.mp (eq_of_ofNat_eq hx hzero hb).symm
  have hmany : ∀ n : ℕ, 128 ≤ n → Char.ofNat x.toNat ≠ Char.ofNat n := by
    intro n hn h
    have hsame := eq_of_ofNat_eq hx hzero h
    omega
  have hreplacement : Char.ofNat x.toNat ≠ replacementChar := hmany 0xFFFD (by decide)
  have htwo : ∀ b b₁ : UInt8, 0xC2 ≤ b ∧ b ≤ 0xDF →
      Char.ofNat x.toNat ≠ Char.ofNat (b.toNat % 32 * 64 + b₁.toNat % 64) :=
    fun b b₁ h => hmany _ (le_two h)
  have hthree : ∀ b b₁ b₂ : UInt8, 0xE0 ≤ b ∧ b ≤ 0xEF → second3 b b₁ = true →
      Char.ofNat x.toNat ≠
        Char.ofNat ((b.toNat % 16 * 64 + b₁.toNat % 64) * 64 + b₂.toNat % 64) := by
    intro b b₁ b₂ h h₁
    have hlead := le_three h h₁
    exact hmany _ (by omega)
  have hfour : ∀ b b₁ b₂ b₃ : UInt8, 0xF0 ≤ b ∧ b ≤ 0xF4 → second4 b b₁ = true →
      Char.ofNat x.toNat ≠ Char.ofNat
        (((b.toNat % 8 * 64 + b₁.toNat % 64) * 64 + b₂.toNat % 64) * 64 + b₃.toNat % 64) := by
    intro b b₁ b₂ b₃ h h₁
    have hlead := le_four h h₁
    exact hmany _ (by omega)
  fun_induction lossyChars bs with
  | case1 => cases h
  | case2 b bs hb ih =>
    rcases List.mem_cons.mp h with h | h
    · exact List.mem_cons.mpr (.inl (hone b h))
    · exact List.mem_cons_of_mem b (ih h)
  | case4 b hb hlead b₁ bs₁ hcont ih =>
    have hrest := ih ((List.mem_cons.mp h).resolve_left (htwo b b₁ hlead))
    exact .tail _ (.tail _ hrest)
  | case9 b hb hno hlead b₁ b₂ bs₂ hsecond hcont ih =>
    have hrest := ih ((List.mem_cons.mp h).resolve_left (hthree b b₁ b₂ hlead hsecond))
    exact .tail _ (.tail _ (.tail _ hrest))
  | case18 b hb hno hno' hlead b₁ b₂ b₃ bs₃ hsecond hcont hcont' ih =>
    have hrest := ih ((List.mem_cons.mp h).resolve_left (hfour b b₁ b₂ b₃ hlead hsecond))
    exact .tail _ (.tail _ (.tail _ (.tail _ hrest)))
  | case3 | case6 | case7 | case12 | case13 | case15 =>
    exact absurd (List.mem_singleton.mp h) hreplacement
  | _ =>
    -- one replacement character, and on from the byte that broke the sequence
    rename_i ih
    have hrest := ih ((List.mem_cons.mp h).resolve_left hreplacement)
    first
    | exact .tail _ hrest
    | exact .tail _ (.tail _ hrest)
    | exact .tail _ (.tail _ (.tail _ hrest))

/-- Cutting at an ASCII character and decoding commute. -/
theorem splitOn_lossyChars (hzero : x ≠ 0) (bs : List UInt8) :
    (lossyChars bs).splitOn (Char.ofNat x.toNat) = (bs.splitOn x).map lossyChars := by
  generalize hn : bs.length = n
  induction n using Nat.strongRecOn generalizing bs with
  | ind n ih =>
    by_cases hmem : x ∈ bs
    · obtain ⟨a, b, rfl⟩ := List.append_of_mem hmem
      rw [List.length_append, List.length_cons] at hn
      rw [lossyChars_append_ascii hx, List.splitOn_append_cons_self,
        List.splitOn_append_cons_self, List.map_append, ih a.length (by omega) a rfl,
        ih b.length (by omega) b rfl]
    · have hmem' : Char.ofNat x.toNat ∉ lossyChars bs :=
        fun h => hmem (mem_of_mem_lossyChars hx hzero h)
      rw [List.splitOn_eq_singleton hmem, List.splitOn_eq_singleton hmem', List.map_singleton]

end Ascii

end Bytes
