import Anonet.Leakguard.DnsShim

/-!
# The questions the DNS shim accepts

`parse_query` of `leakguard/src/dns_shim.rs` against a grammar of its own: a header
that announces a question, then labels of 1 to 63 bytes, the root, a type and class IN.

* `PlainQuestion` — such a question, which cannot be ill-formed; `Asks` — a datagram
  that carries one.
* `checkedParseQuery` — the source once more, turn by turn of its loop and with every
  access that is not checked; it may panic, or still be running.
* `parseQuery_exact` — **the parser accepts just this grammar**, ends on every input
  and never reads out of range.
-/

namespace Anonet.Leakguard

open Bytes

/-! ## The grammar -/

/-- A question of class IN whose name is written out. -/
structure PlainQuestion where
  labels : List Dns.PlainLabel
  qtype : UInt16
  deriving DecidableEq

namespace PlainQuestion

/-- The name asked for, as a sequence of byte strings. -/
def name (q : PlainQuestion) : Dns.Name := q.labels.map (·.bytes)

def encode (q : PlainQuestion) : List UInt8 :=
  Dns.encodeLabels q.labels ++ (u16ToBe q.qtype ++ u16ToBe QCLASS_IN)

/-- The text the shim resolves. -/
def qname (q : PlainQuestion) : String := ".".intercalate (q.name.map fromUtf8Lossy)

/-- What the parser makes of the question in the datagram `buf`. -/
def parsed (q : PlainQuestion) (buf : List UInt8) : ParsedQuery :=
  ⟨u16FromBe (buf.getD 0 0) (buf.getD 1 0), q.encode, q.qname, q.qtype⟩

end PlainQuestion

/-- The datagram has a header with a question count other than zero, and `q` behind it. -/
structure Asks (buf : List UInt8) (q : PlainQuestion) : Prop where
  length_le : 12 ≤ buf.length
  announced : ¬ (buf.getD 4 0 = 0 ∧ buf.getD 5 0 = 0)
  question : ∃ rest, buf.drop 12 = q.encode ++ rest

/-! ## The source, access by access -/

/-- How a call in the source can go. -/
inductive Outcome (α : Type)
  | ok (a : α)
  | err (message : String)
  /-- An access was out of range. -/
  | panics
  /-- A loop has not ended yet. -/
  | running
  deriving DecidableEq

namespace Outcome

variable {α β : Type}

instance : Monad Outcome where
  pure := .ok
  bind
    | .ok a, f => f a
    | .err message, _ => .err message
    | .panics, _ => .panics
    | .running, _ => .running

def ofExcept : Except String α → Outcome α
  | .ok a => .ok a
  | .error message => .err message

/-- `Option::context(..)?`. -/
def context (message : String) : Option α → Outcome α
  | some a => .ok a
  | none => .err message

@[simp] theorem ok_bind (a : α) (f : α → Outcome β) : (Outcome.ok a >>= f) = f a := rfl

@[simp] theorem err_bind (message : String) (f : α → Outcome β) :
    (Outcome.err message >>= f) = .err message := rfl

@[simp] theorem pure_eq (a : α) : (pure a : Outcome α) = .ok a := rfl

end Outcome

/-- `buf[i]`. -/
def index (buf : List UInt8) (i : ℕ) : Outcome UInt8 :=
  match buf[i]? with
  | some b => .ok b
  | none => .panics

/-- `buf[start..stop]`. -/
def slice (buf : List UInt8) (start stop : ℕ) : Outcome (List UInt8) :=
  if start ≤ stop ∧ stop ≤ buf.length then .ok ((buf.drop start).take (stop - start))
  else .panics

/-- The local variables of the loop. -/
structure Cursor where
  pos : ℕ
  labels : List String
  deriving DecidableEq

/-- How one turn of the loop goes. -/
inductive Turn
  | again (c : Cursor)
  | leave (c : Cursor)
  | bail (message : String)
  deriving DecidableEq

/-- The body of the loop. -/
def turn (buf : List UInt8) (c : Cursor) : Turn :=
  match buf[c.pos]? with
  | none => .bail "truncated qname"
  | some len =>
    if len = 0 then .leave { c with pos := c.pos + 1 }
    else if len &&& 0xC0 ≠ 0 then .bail "compressed QNAME in a query is not supported"
    else
      match getRange buf (c.pos + 1) (c.pos + 1 + len.toNat) with
      | none => .bail "truncated qname label"
      | some label => .again ⟨c.pos + 1 + len.toNat, c.labels ++ [fromUtf8Lossy label]⟩

/-- So many turns of the loop. -/
def turns (buf : List UInt8) : ℕ → Cursor → Outcome Cursor
  | 0, _ => .running
  | fuel + 1, c =>
    match turn buf c with
    | .again c => turns buf fuel c
    | .leave c => .ok c
    | .bail message => .err message

/-- `parse_query` with at most `fuel` turns of its loop. -/
def checkedParseQuery (fuel : ℕ) (buf : List UInt8) : Outcome ParsedQuery :=
  if buf.length < 12 then .err "message shorter than a DNS header"
  else do
    let id := u16FromBe (← index buf 0) (← index buf 1)
    let qdcount := u16FromBe (← index buf 4) (← index buf 5)
    if qdcount = 0 then .err "query has no questions"
    else do
      let c ← turns buf fuel ⟨12, []⟩
      let qname := ".".intercalate c.labels
      let qtypeQclass ← Outcome.context "truncated qtype/qclass" (getRange buf c.pos (c.pos + 4))
      let qtype := u16FromBe (← index qtypeQclass 0) (← index qtypeQclass 1)
      let qclass := u16FromBe (← index qtypeQclass 2) (← index qtypeQclass 3)
      if qclass ≠ QCLASS_IN then .err s!"unsupported query class {qclass}"
      else do
        let questionRaw ← slice buf 12 (c.pos + 4)
        pure ⟨id, questionRaw, qname, qtype⟩

/-! ## The grammar is what is accepted -/

section Accepts

variable {buf : List UInt8}

theorem announced_iff {a b : UInt8} : u16FromBe a b = 0 ↔ a = 0 ∧ b = 0 := by
  rw [← UInt16.toNat_inj, toNat_u16FromBe, ← UInt8.toNat_inj, ← UInt8.toNat_inj]
  show a.toNat * 256 + b.toNat = 0 ↔ a.toNat = 0 ∧ b.toNat = 0
  omega

/-- A name written out is accepted, whatever is behind it. -/
theorem parseLabels_encodeLabels {pos : ℕ} {ls : List Dns.PlainLabel} {rest : List UInt8}
    (h : buf.drop pos = Dns.encodeLabels ls ++ rest) :
    parseLabels buf pos =
      .ok (ls.map fun l => fromUtf8Lossy l.bytes, pos + (Dns.encodeLabels ls).length) := by
  induction ls generalizing pos with
  | nil =>
    have hget : buf[pos]? = some 0 := by
      rw [← List.head?_drop, h]
      rfl
    rw [parseLabels, hget]
    rfl
  | cons l ls ih =>
    rw [Dns.encodeLabels_cons, List.cons_append, List.append_assoc] at h
    have hget : buf[pos]? = some l.size := by
      rw [← List.head?_drop, h]
      rfl
    have hlt : pos < buf.length := (List.getElem?_eq_some_iff.mp hget).1
    have hnext : buf.drop (pos + 1) = l.bytes ++ (Dns.encodeLabels ls ++ rest) := by
      rw [← List.drop_drop, h]
      rfl
    have hlabel : getRange buf (pos + 1) (pos + 1 + l.size.toNat) = some l.bytes :=
      getRange_of_drop hnext hlt (by rw [l.toNat_size])
    have hrest : buf.drop (pos + 1 + l.size.toNat) = Dns.encodeLabels ls ++ rest := by
      rw [← List.drop_drop, hnext, l.toNat_size, List.drop_left]
    have hplain : ¬ l.size &&& 0xC0 ≠ 0 := by
      rw [not_not, and_C0_eq_zero, l.toNat_size]
      exact l.length_lt
    rw [parseLabels, hget]
    simp only [if_neg l.size_ne_zero, if_neg hplain, hlabel, ih hrest]
    rw [Dns.encodeLabels_cons, List.length_cons, List.length_append, l.toNat_size, List.map_cons]
    congr 2
    omega

theorem PlainQuestion.map_text (q : PlainQuestion) :
    (q.labels.map fun l => fromUtf8Lossy l.bytes) = q.name.map fromUtf8Lossy := by
  rw [PlainQuestion.name, List.map_map]
  rfl

/-- Every question of the grammar is accepted. -/
theorem Asks.parseQuery {q : PlainQuestion} (h : Asks buf q) :
    parseQuery buf = .ok (q.parsed buf) := by
  obtain ⟨hlen, hannounced, rest, hdrop⟩ := h
  have hname : buf.drop 12 = Dns.encodeLabels q.labels ++
      ((u16ToBe q.qtype ++ u16ToBe QCLASS_IN) ++ rest) := by
    rw [hdrop, PlainQuestion.encode, List.append_assoc]
  have hlabels := parseLabels_encodeLabels hname
  have hfields : buf.drop (12 + (Dns.encodeLabels q.labels).length) =
      (u16ToBe q.qtype ++ u16ToBe QCLASS_IN) ++ rest := by
    rw [← List.drop_drop, hname, List.drop_left]
  have hend : 12 + (Dns.encodeLabels q.labels).length ≤ buf.length := by
    have hlength := congrArg List.length hname
    rw [List.length_drop, List.length_append] at hlength
    omega
  have hrange := getRange_of_drop hfields hend rfl
  have hraw : (buf.drop 12).take (12 + (Dns.encodeLabels q.labels).length + 4 - 12) = q.encode := by
    rw [hdrop]
    refine List.take_left' ?_
    rw [PlainQuestion.encode, List.length_append]
    show _ + 4 = _
    omega
  unfold Leakguard.parseQuery
  rw [if_neg (Nat.not_lt.mpr hlen)]
  simp only [if_neg (announced_iff.not.mpr hannounced), hlabels]
  rw [show (u16ToBe q.qtype ++ u16ToBe QCLASS_IN).length = 4 from rfl] at hrange
  simp only [hrange, u16ToBe, List.cons_append, List.nil_append, u16FromBe_u16ToBe]
  rw [if_neg (by simp), hraw, q.map_text]
  rfl

/-- Nothing else is accepted. -/
theorem exists_asks {query : ParsedQuery} (h : parseQuery buf = .ok query) :
    ∃ q, Asks buf q ∧ query = q.parsed buf := by
  have h₀ := h
  unfold Leakguard.parseQuery at h
  split at h
  · cases h
  · rename_i hlen
    dsimp only at h
    split at h
    · cases h
    · rename_i hannounced
      split at h
      · cases h
      · rename_i labels pos hlabels
        obtain ⟨ls, hdrop, hpos, rfl⟩ := encodeLabels_of_parseLabels hlabels
        split at h
        · rename_i a b c d hrange
          split at h
          · cases h
          · rename_i hclass
            obtain ⟨hfields, -⟩ := getRange_eq_some hrange
            have hasks : Asks buf ⟨ls, u16FromBe a b⟩ := by
              refine ⟨Nat.le_of_not_lt hlen, announced_iff.not.mp hannounced,
                buf.drop (pos + 4), ?_⟩
              rw [hdrop, hfields, PlainQuestion.encode, ← not_not.mp hclass,
                u16ToBe_u16FromBe, u16ToBe_u16FromBe, List.append_assoc]
              rfl
            refine ⟨_, hasks, ?_⟩
            exact Except.ok.inj (h₀.symm.trans hasks.parseQuery)
        · cases h

/-- The parser accepts a datagram just if it carries a question of the grammar. -/
theorem parseQuery_eq_ok_iff {query : ParsedQuery} :
    parseQuery buf = .ok query ↔ ∃ q, Asks buf q ∧ query = q.parsed buf := by
  constructor
  · exact exists_asks
  · rintro ⟨q, hasks, rfl⟩
    exact hasks.parseQuery

/-- A question shows where it ends. -/
theorem PlainQuestion.encode_inj {q q' : PlainQuestion} {rest rest' : List UInt8}
    (h : q.encode ++ rest = q'.encode ++ rest') : q = q' := by
  simp only [encode, List.append_assoc] at h
  have hread := congrArg Dns.readLabels h
  rw [Dns.readLabels_encodeLabels, Dns.readLabels_encodeLabels, Option.some.injEq, Prod.mk.injEq,
    Prod.mk.injEq] at hread
  obtain ⟨hname, -, hbehind⟩ := hread
  have hlabels : q.labels = q'.labels :=
    List.map_injective_iff.mpr (fun _ _ => Dns.PlainLabel.ext_bytes) hname
  have hqtype := congrArg Dns.readU16 hbehind
  rw [Dns.readU16_append, Dns.readU16_append, Option.some.injEq, Prod.mk.injEq] at hqtype
  cases q
  cases q'
  cases hlabels
  cases hqtype.1
  rfl

/-- A datagram carries one question only. -/
theorem Asks.unique {q q' : PlainQuestion} (h : Asks buf q) (h' : Asks buf q') : q = q' := by
  obtain ⟨-, -, rest, hdrop⟩ := h
  obtain ⟨-, -, rest', hdrop'⟩ := h'
  exact PlainQuestion.encode_inj (hdrop.symm.trans hdrop')

/-- A query of a stub resolver. -/
def PlainQuestion.request (q : PlainQuestion) : List UInt8 :=
  [0x12, 0x34, 1, 0, 0, 1, 0, 0, 0, 0, 0, 0] ++ q.encode

theorem PlainQuestion.asks_request (q : PlainQuestion) : Asks q.request q := by
  refine ⟨?_, ?_, [], ?_⟩
  · simp [PlainQuestion.request]
  · simp [PlainQuestion.request]
  · simp [PlainQuestion.request]

/-- The label `a`. -/
def labelA : Dns.PlainLabel := ⟨[0x61], by decide, by decide⟩

/-- The question for the name `a`. -/
def ofA (qtype : UInt16) : PlainQuestion := ⟨[labelA], qtype⟩

end Accepts

/-! ## No access is out of range, and the loop ends -/

section Checked

variable {buf : List UInt8}

theorem index_of_lt {i : ℕ} (h : i < buf.length) : index buf i = .ok (buf.getD i 0) := by
  simp [index, h]

theorem le_of_getRange {start stop : ℕ} {bs : List UInt8} (h : getRange buf start stop = some bs) :
    stop ≤ buf.length := by
  unfold getRange at h
  split at h
  · rename_i hrange
    exact hrange.2
  · cases h

/-- The loop, when it has a turn left for every byte from the cursor on and one more:
every turn but the last moves the cursor. -/
theorem turns_eq {fuel : ℕ} {c : Cursor} (hpos : c.pos ≤ buf.length)
    (hfuel : buf.length < c.pos + fuel) :
    turns buf fuel c = match parseLabels buf c.pos with
      | .ok (labels, stop) => .ok ⟨stop, c.labels ++ labels⟩
      | .error message => .err message := by
  induction fuel generalizing c with
  | zero => omega
  | succ fuel ih =>
    rw [parseLabels, turns, turn]
    cases hget : buf[c.pos]? with
    | none => rfl
    | some len =>
      by_cases hzero : len = 0
      · simp [hzero]
      · by_cases hcompressed : len &&& 0xC0 ≠ 0
        · simp [hzero, hcompressed]
        · simp only [if_neg hzero, if_neg hcompressed]
          cases hlabel : getRange buf (c.pos + 1) (c.pos + 1 + len.toNat) with
          | none => rfl
          | some label =>
            have hnext : c.pos + 1 + len.toNat ≤ buf.length := le_of_getRange hlabel
            dsimp only
            rw [ih hnext (by dsimp only; omega)]
            cases parseLabels buf (c.pos + 1 + len.toNat) with
            | error message => rfl
            | ok p => simp

/-- **The source neither panics nor goes on for ever**: with a turn for every byte it
comes to the parser's result. -/
theorem checkedParseQuery_eq {fuel : ℕ} (h : buf.length ≤ fuel) :
    checkedParseQuery fuel buf = .ofExcept (parseQuery buf) := by
  unfold checkedParseQuery parseQuery
  by_cases hlen : buf.length < 12
  · simp [hlen, Outcome.ofExcept]
  · have hindex : ∀ i, i < 12 → index buf i = .ok (buf.getD i 0) :=
      fun i hi => index_of_lt (by omega)
    have hturns : turns buf fuel ⟨12, []⟩ = _ := turns_eq (by dsimp only; omega) (by dsimp only; omega)
    rw [if_neg hlen, if_neg hlen, hindex 0 (by omega), hindex 1 (by omega), hindex 4 (by omega),
      hindex 5 (by omega), hturns]
    simp only [Outcome.ok_bind]
    by_cases hqd : u16FromBe (buf.getD 4 0) (buf.getD 5 0) = 0
    · rw [if_pos hqd, if_pos hqd, Outcome.ofExcept]
    · rw [if_neg hqd, if_neg hqd]
      cases hlabels : parseLabels buf 12 with
      | error message => simp [Outcome.ofExcept]
      | ok p =>
        obtain ⟨labels, pos⟩ := p
        simp only [Outcome.ok_bind, List.nil_append]
        cases hrange : getRange buf pos (pos + 4) with
        | none => simp [Outcome.context, Outcome.ofExcept]
        | some bs =>
          obtain ⟨hdrop, hlength⟩ := getRange_eq_some hrange
          have hfour : bs.length = 4 := by omega
          obtain ⟨ls, -, hpos, -⟩ := encodeLabels_of_parseLabels hlabels
          have hslice : slice buf 12 (pos + 4) = .ok ((buf.drop 12).take (pos + 4 - 12)) := by
            have hle := le_of_getRange hrange
            rw [slice, if_pos ⟨by omega, hle⟩]
          obtain ⟨a, b, c, d, rfl⟩ : ∃ a b c d, bs = [a, b, c, d] := by
            rcases bs with _ | ⟨a, _ | ⟨b, _ | ⟨c, _ | ⟨d, _ | ⟨e, bs⟩⟩⟩⟩⟩ <;>
              simp at hfour
            exact ⟨a, b, c, d, rfl⟩
          simp only [Outcome.context, Outcome.ok_bind, hslice, index]
          by_cases hclass : u16FromBe c d = QCLASS_IN
          · simp [hclass, Outcome.ofExcept]
          · simp [hclass, Outcome.ofExcept]

/-- **The parser is exact.**  It accepts a datagram just if a header that announces a
question is followed by a question of the grammar, and then returns the id, the bytes,
the name and the type of that question; run as it stands in the source it ends on
every input, without an access out of range, in this result or an error; and another
datagram with the same id and the same question, whatever its flags, its other counts
and what is behind the question, gives the same result. -/
theorem parseQuery_exact (buf : List UInt8) :
    (∀ query, parseQuery buf = .ok query ↔ ∃ q, Asks buf q ∧ query = q.parsed buf) ∧
      (∀ fuel, buf.length ≤ fuel → checkedParseQuery fuel buf = .ofExcept (parseQuery buf)) ∧
      ∀ query, parseQuery buf = .ok query → ∀ header rest, header.length = 12 →
        header.take 2 = buf.take 2 → ¬ (header.getD 4 0 = 0 ∧ header.getD 5 0 = 0) →
        parseQuery (header ++ query.questionRaw ++ rest) = .ok query := by
  refine ⟨fun query => parseQuery_eq_ok_iff, fun fuel hfuel => checkedParseQuery_eq hfuel, ?_⟩
  intro query hquery header rest hlen hid hannounced
  obtain ⟨q, hasks, rfl⟩ := exists_asks hquery
  have hget : ∀ i, i < 12 → (header ++ q.encode ++ rest).getD i 0 = header.getD i 0 := by
    intro i hi
    have hlt : i < header.length := by omega
    simp [List.getD_eq_getElem?_getD, List.append_assoc, List.getElem?_append_left hlt]
  have hsame : ∀ i, i < 2 → (header ++ q.encode ++ rest).getD i 0 = buf.getD i 0 := by
    intro i hi
    have htake := congrArg (·.getD i 0) hid
    simp only [List.getD_eq_getElem?_getD, List.getElem?_take, if_pos hi] at htake
    rw [hget i (by omega), List.getD_eq_getElem?_getD, htake, List.getD_eq_getElem?_getD]
  have hasks' : Asks (header ++ q.encode ++ rest) q := by
    refine ⟨?_, ?_, rest, ?_⟩
    · simp only [List.length_append, hlen]
      omega
    · rw [hget 4 (by omega), hget 5 (by omega)]
      exact hannounced
    · rw [List.append_assoc]
      exact List.drop_left' hlen
  have hparsed : q.parsed (header ++ q.encode ++ rest) = q.parsed buf := by
    simp only [PlainQuestion.parsed, hsame 0 (by omega), hsame 1 (by omega)]
  rw [show (q.parsed buf).questionRaw = q.encode from rfl, hasks'.parseQuery, hparsed]

example : parseQuery [0, 7, 0x81, 0x80, 0, 9, 0, 0, 0, 0, 0, 0, 1, 0x61, 1, 0xFF, 0, 0, 28, 0, 1, 5] =
    .ok ⟨7, [1, 0x61, 1, 0xFF, 0, 0, 28, 0, 1], "a.\uFFFD", QTYPE_AAAA⟩ := by
  decide +kernel

end Checked

end Anonet.Leakguard
