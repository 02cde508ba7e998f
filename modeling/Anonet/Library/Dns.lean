import Anonet.Library.Bytes
import Mathlib.Data.Nat.Notation
import Mathlib.Tactic.Common

/-!
# DNS messages

A decoder for the message format of RFC 1035.  Every reader takes its value off the
front of the bytes and returns what is left, so that readers compose.

* `readLabels`, `readName` — names, with compression: a pointer leads to a name that
  starts earlier in the message.  A name's total length is not limited.
* `PlainLabel`, `encodeLabels` — names written out; `readLabels_encodeLabels` reads
  them back.
* `readMany` — a section of so many items; `readMany_flatMap` reads back what was
  written item by item, and `readMany_unique` says how many there are.
* `decode` — a whole message and the bytes behind it.
-/

namespace Dns

open Bytes

abbrev Label := List UInt8

/-- The labels of a name, without the root. -/
abbrev Name := List Label

structure Header where
  id : UInt16
  flags : UInt16
  qdcount : UInt16
  ancount : UInt16
  nscount : UInt16
  arcount : UInt16
  deriving DecidableEq

/-- The message is a response. -/
def Header.qr (h : Header) : Bool := h.flags.toNat / 2 ^ 15 = 1

/-- Zero for a standard query. -/
def Header.opcode (h : Header) : ℕ := h.flags.toNat / 2 ^ 11 % 16

/-- The message was cut short. -/
def Header.tc (h : Header) : Bool := h.flags.toNat / 2 ^ 9 % 2 = 1

def Header.rcode (h : Header) : ℕ := h.flags.toNat % 16

structure Question where
  name : Name
  qtype : UInt16
  qclass : UInt16
  deriving DecidableEq

structure ResourceRecord where
  name : Name
  type : UInt16
  rclass : UInt16
  ttl : UInt32
  rdata : List UInt8
  deriving DecidableEq

structure Message where
  header : Header
  questions : List Question
  answers : List ResourceRecord
  authority : List ResourceRecord
  additional : List ResourceRecord
  deriving DecidableEq

/-! ## Numbers -/

def readU16 : List UInt8 → Option (UInt16 × List UInt8)
  | hi :: lo :: rest => some (u16FromBe hi lo, rest)
  | _ => none

def readU32 : List UInt8 → Option (UInt32 × List UInt8)
  | a :: b :: c :: d :: rest => some (UInt32.ofNat (beNat [a, b, c, d]), rest)
  | _ => none

def readBytes (n : ℕ) (bs : List UInt8) : Option (List UInt8 × List UInt8) :=
  if n ≤ bs.length then some (bs.take n, bs.drop n) else none

@[simp] theorem readU16_append (n : UInt16) (rest : List UInt8) :
    readU16 (u16ToBe n ++ rest) = some (n, rest) := by
  simp only [u16ToBe, List.cons_append, List.nil_append, readU16, u16FromBe_u16ToBe]

@[simp] theorem readU32_append (n : UInt32) (rest : List UInt8) :
    readU32 (beBytes 4 n.toNat ++ rest) = some (n, rest) := by
  obtain ⟨a, b, c, d, hbs⟩ : ∃ a b c d, beBytes 4 n.toNat = [a, b, c, d] := ⟨_, _, _, _, rfl⟩
  have hval : beNat (beBytes 4 n.toNat) = n.toNat := by
    rw [beNat_beBytes]
    exact Nat.mod_eq_of_lt n.toNat_lt
  rw [hbs] at hval ⊢
  simp only [List.cons_append, List.nil_append, readU32, hval, UInt32.ofNat_toNat]

theorem readBytes_append (bs rest : List UInt8) :
    readBytes bs.length (bs ++ rest) = some (bs, rest) := by
  simp [readBytes]

/-! ## Names -/

/-- The labels up to the root or to a pointer, and the pointer's target if there is
one. -/
def readLabels : List UInt8 → Option (Name × Option ℕ × List UInt8)
  | [] => none
  | len :: bs =>
    if len = 0 then some ([], none, bs)
    else if len.toNat < 64 then
      if len.toNat ≤ bs.length then
        match readLabels (bs.drop len.toNat) with
        | some (labels, target, rest) => some (bs.take len.toNat :: labels, target, rest)
        | none => none
      else none
    else if 192 ≤ len.toNat then
      match bs with
      | [] => none
      | lo :: rest => some ([], some ((len.toNat - 192) * 256 + lo.toNat), rest)
    else none
termination_by bs => bs.length
decreasing_by
  simp only [List.length_drop, List.length_cons]
  omega

theorem readLabels_root (rest : List UInt8) : readLabels (0 :: rest) = some ([], none, rest) := by
  rw [readLabels.eq_def]
  rfl

theorem readLabels_label {label : Label} {len : UInt8} (rest : List UInt8) (hpos : len ≠ 0)
    (hlt : len.toNat < 64) (hlen : label.length = len.toNat) :
    readLabels (len :: (label ++ rest)) =
      (readLabels rest).map fun r => (label :: r.1, r.2.1, r.2.2) := by
  have hle : len.toNat ≤ (label ++ rest).length := by
    rw [List.length_append]
    omega
  rw [readLabels.eq_def]
  simp only [if_neg hpos, if_pos hlt, if_pos hle]
  rw [← hlen, List.drop_left, List.take_left]
  cases readLabels rest <;> rfl

/-- A pointer with nothing in front of it. -/
theorem readLabels_pointer {hi lo : UInt8} (rest : List UInt8) (hhi : 192 ≤ hi.toNat) :
    readLabels (hi :: lo :: rest) =
      some ([], some ((hi.toNat - 192) * 256 + lo.toNat), rest) := by
  have hne : hi ≠ 0 := by
    rintro rfl
    exact absurd hhi (by decide)
  have hlt : ¬ hi.toNat < 64 := by omega
  rw [readLabels.eq_def]
  simp only [if_neg hne, if_neg hlt, if_pos hhi]

/-- A label that is neither the root nor a pointer. -/
structure PlainLabel where
  bytes : Label
  length_pos : 0 < bytes.length
  length_lt : bytes.length < 64
  deriving DecidableEq

namespace PlainLabel

/-- The length byte. -/
def size (l : PlainLabel) : UInt8 := UInt8.ofNat l.bytes.length

def encode (l : PlainLabel) : List UInt8 := l.size :: l.bytes

@[simp] theorem toNat_size (l : PlainLabel) : l.size.toNat = l.bytes.length := by
  have hlt := l.length_lt
  rw [size, UInt8.toNat_ofNat']
  omega

theorem size_ne_zero (l : PlainLabel) : l.size ≠ 0 := by
  intro h
  have hpos := l.length_pos
  rw [← l.toNat_size, h] at hpos
  exact absurd hpos (by decide)

theorem ext_bytes {l l' : PlainLabel} (h : l.bytes = l'.bytes) : l = l' := by
  cases l
  cases l'
  cases h
  rfl

/-- What is read behind a length byte below 64 is some label. -/
theorem exists_of_length {n : UInt8} {bs : Label} (hpos : n ≠ 0) (hlt : n.toNat < 64)
    (h : bs.length = n.toNat) : ∃ l : PlainLabel, l.bytes = bs ∧ l.size = n := by
  have hne : n.toNat ≠ 0 := fun h₀ => hpos (UInt8.toNat_inj.mp h₀)
  refine ⟨⟨bs, by omega, by omega⟩, rfl, ?_⟩
  rw [size, h, UInt8.ofNat_toNat]

end PlainLabel

/-- A name written out, up to and with the root. -/
def encodeLabels (ls : List PlainLabel) : List UInt8 := ls.flatMap (·.encode) ++ [0]

@[simp] theorem encodeLabels_nil : encodeLabels [] = [0] := rfl

theorem encodeLabels_cons (l : PlainLabel) (ls : List PlainLabel) :
    encodeLabels (l :: ls) = l.size :: (l.bytes ++ encodeLabels ls) := by
  rw [encodeLabels, List.flatMap_cons, List.append_assoc]
  rfl

/-- A name that is written out is read back, whatever is behind it. -/
theorem readLabels_encodeLabels (ls : List PlainLabel) (rest : List UInt8) :
    readLabels (encodeLabels ls ++ rest) = some (ls.map (·.bytes), none, rest) := by
  induction ls with
  | nil => exact readLabels_root rest
  | cons l ls ih =>
    have hlt : l.size.toNat < 64 := by
      rw [l.toNat_size]
      exact l.length_lt
    rw [encodeLabels_cons, List.cons_append, List.append_assoc,
      readLabels_label _ l.size_ne_zero hlt l.toNat_size.symm, ih]
    rfl

/-- The name that starts at `pos`; a pointer in it leads in front of where it starts. -/
def nameAt (msg : List UInt8) : ℕ → ℕ → Option Name
  | 0, _ => none
  | hops + 1, pos =>
    match readLabels (msg.drop pos) with
    | some (labels, none, _) => some labels
    | some (labels, some target, _) =>
      if target < pos then (nameAt msg hops target).map (labels ++ ·) else none
    | none => none

/-- A name at the front of `bs`, which is what is left of `msg`. -/
def readName (msg bs : List UInt8) : Option (Name × List UInt8) :=
  match readLabels bs with
  | some (labels, none, rest) => some (labels, rest)
  | some (labels, some target, rest) =>
    if target < msg.length - bs.length then
      -- every further pointer leads to the left, so there are at most `target` of them
      (nameAt msg (target + 1) target).map fun suffix => (labels ++ suffix, rest)
    else none
  | none => none

/-! ## Questions, records and messages -/

def readQuestion (msg bs : List UInt8) : Option (Question × List UInt8) := do
  let (name, bs) ← readName msg bs
  let (qtype, bs) ← readU16 bs
  let (qclass, bs) ← readU16 bs
  return (⟨name, qtype, qclass⟩, bs)

def readRecord (msg bs : List UInt8) : Option (ResourceRecord × List UInt8) := do
  let (name, bs) ← readName msg bs
  let (type, bs) ← readU16 bs
  let (rclass, bs) ← readU16 bs
  let (ttl, bs) ← readU32 bs
  let (rdlength, bs) ← readU16 bs
  let (rdata, bs) ← readBytes rdlength.toNat bs
  return (⟨name, type, rclass, ttl, rdata⟩, bs)

theorem readRecord_nil (msg : List UInt8) : readRecord msg [] = none := by
  simp [readRecord, readName, readLabels]

def readHeader (bs : List UInt8) : Option (Header × List UInt8) := do
  let (id, bs) ← readU16 bs
  let (flags, bs) ← readU16 bs
  let (qdcount, bs) ← readU16 bs
  let (ancount, bs) ← readU16 bs
  let (nscount, bs) ← readU16 bs
  let (arcount, bs) ← readU16 bs
  return (⟨id, flags, qdcount, ancount, nscount, arcount⟩, bs)

/-- So many items, one behind another. -/
def readMany {α : Type} (read : List UInt8 → Option (α × List UInt8)) :
    ℕ → List UInt8 → Option (List α × List UInt8)
  | 0, bs => some ([], bs)
  | n + 1, bs => do
    let (a, bs) ← read bs
    let (as, bs) ← readMany read n bs
    return (a :: as, bs)

/-- A message, and what is left behind it. -/
def decode (msg : List UInt8) : Option (Message × List UInt8) := do
  let (header, bs) ← readHeader msg
  let (questions, bs) ← readMany (readQuestion msg) header.qdcount.toNat bs
  let (answers, bs) ← readMany (readRecord msg) header.ancount.toNat bs
  let (authority, bs) ← readMany (readRecord msg) header.nscount.toNat bs
  let (additional, bs) ← readMany (readRecord msg) header.arcount.toNat bs
  return (⟨header, questions, answers, authority, additional⟩, bs)

/-- A section read back item by item.  `bound` limits how much is left in front of an
item, for readers that look at where they are. -/
theorem readMany_flatMap {α ι : Type} (read : List UInt8 → Option (α × List UInt8))
    (write : ι → List UInt8) (value : ι → α) (bound : ℕ) (items : List ι) (rest : List UInt8)
    (hread : ∀ i ∈ items, ∀ tail, (write i ++ tail).length ≤ bound →
      read (write i ++ tail) = some (value i, tail))
    (hbound : (items.flatMap write ++ rest).length ≤ bound) :
    readMany read items.length (items.flatMap write ++ rest) = some (items.map value, rest) := by
  induction items with
  | nil => rfl
  | cons i items ih =>
    rw [List.flatMap_cons, List.append_assoc] at hbound ⊢
    have htail : (items.flatMap write ++ rest).length ≤ bound := by
      rw [List.length_append] at hbound
      omega
    rw [List.length_cons, readMany, hread i List.mem_cons_self _ hbound]
    have hrec := ih (fun j hj => hread j (List.mem_cons_of_mem i hj)) htail
    simp only [Option.bind_eq_bind, Option.bind_some, hrec]
    rfl

/-- A section has one length, if there is nothing behind it. -/
theorem readMany_unique {α : Type} {read : List UInt8 → Option (α × List UInt8)}
    (hnil : read [] = none) {n m : ℕ} {bs : List UInt8} {as as' : List α}
    (h : readMany read n bs = some (as, [])) (h' : readMany read m bs = some (as', [])) :
    n = m := by
  induction n generalizing m bs as as' with
  | zero =>
    cases h
    cases m with
    | zero => rfl
    | succ m => simp [readMany, hnil] at h'
  | succ n ih =>
    cases m with
    | zero =>
      cases h'
      simp [readMany, hnil] at h
    | succ m =>
      simp only [readMany, Option.bind_eq_bind, Option.bind_eq_some_iff] at h h'
      obtain ⟨⟨a, bs₁⟩, hread, ⟨bs₂, rest⟩, hmany, hlast⟩ := h
      obtain ⟨⟨a', bs₁'⟩, hread', ⟨bs₂', rest'⟩, hmany', hlast'⟩ := h'
      obtain ⟨-, rfl⟩ : a = a' ∧ bs₁ = bs₁' := by simpa [hread] using hread'
      cases hlast
      cases hlast'
      rw [ih hmany hmany']

/-- Twelve bytes are a header. -/
theorem readHeader_of_length {bs : List UInt8} (h : 12 ≤ bs.length) :
    ∃ header, readHeader bs = some (header, bs.drop 12) ∧
      header.id = u16FromBe (bs.getD 0 0) (bs.getD 1 0) := by
  have hread : ∀ n, n + 2 ≤ bs.length →
      readU16 (bs.drop n) = some (u16FromBe (bs.getD n 0) (bs.getD (n + 1) 0), bs.drop (n + 2)) := by
    intro n hn
    have h₀ : n < bs.length := by omega
    have h₁ : n + 1 < bs.length := by omega
    rw [List.drop_eq_getElem_cons h₀, List.drop_eq_getElem_cons h₁, readU16]
    simp [h₀, h₁]
  have hfirst := hread 0 (by omega)
  rw [List.drop_zero] at hfirst
  refine ⟨⟨u16FromBe (bs.getD 0 0) (bs.getD 1 0), u16FromBe (bs.getD 2 0) (bs.getD 3 0),
    u16FromBe (bs.getD 4 0) (bs.getD 5 0), u16FromBe (bs.getD 6 0) (bs.getD 7 0),
    u16FromBe (bs.getD 8 0) (bs.getD 9 0), u16FromBe (bs.getD 10 0) (bs.getD 11 0)⟩, ?_, rfl⟩
  simp only [readHeader, Option.bind_eq_bind, hfirst, Option.bind_some, hread 2 (by omega),
    hread 4 (by omega), hread 6 (by omega), hread 8 (by omega), hread 10 (by omega)]
  rfl

/-- The twelve bytes of a header. -/
def Header.bytes (h : Header) : List UInt8 :=
  u16ToBe h.id ++ u16ToBe h.flags ++ u16ToBe h.qdcount ++ u16ToBe h.ancount ++
    u16ToBe h.nscount ++ u16ToBe h.arcount

theorem Header.length_bytes (h : Header) : h.bytes.length = 12 := rfl

theorem readHeader_append (h : Header) (rest : List UInt8) :
    readHeader (h.bytes ++ rest) = some (h, rest) := by
  simp only [readHeader, Header.bytes, List.append_assoc, readU16_append, Option.bind_eq_bind,
    Option.bind_some]
  rfl

/-- A message of one question and a section of answers. -/
theorem decode_of_answers {msg bs bs' : List UInt8} {header : Header} {question : Question}
    {answers : List ResourceRecord} (hheader : readHeader msg = some (header, bs))
    (hquestion : readQuestion msg bs = some (question, bs'))
    (hanswers : readMany (readRecord msg) header.ancount.toNat bs' = some (answers, []))
    (hqd : header.qdcount = 1) (hns : header.nscount = 0) (har : header.arcount = 0) :
    decode msg = some (⟨header, [question], answers, [], []⟩, []) := by
  have hquestions : readMany (readQuestion msg) header.qdcount.toNat bs =
      some ([question], bs') := by
    rw [hqd]
    show readMany (readQuestion msg) 1 bs = _
    rw [readMany, hquestion]
    rfl
  have hnone : ∀ n : UInt16, n = 0 → readMany (readRecord msg) n.toNat [] = some ([], []) := by
    rintro _ rfl
    rfl
  simp only [decode, hheader, hquestions, hanswers, hnone _ hns, hnone _ har,
    Option.bind_eq_bind, Option.bind_some]
  rfl

end Dns
