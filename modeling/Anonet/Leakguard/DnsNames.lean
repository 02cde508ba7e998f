import Anonet.Leakguard.DnsQuestion
import Anonet.Library.Text

/-!
# Which name is resolved

The shim resolves a text: the labels of the question, each decoded lossily, joined by
dots.  A label may hold a dot itself, or bytes that are not UTF-8.

* `pieces` — a name cut at every dot inside its labels.
* `qname_eq_iff` — two names become one text just if their pieces decode alike.
* `identifies_iff` — **different names are resolved as different texts just if their
  pieces do not decode alike.**
-/

namespace Anonet.Leakguard

open Bytes

/-- `.` in ASCII. -/
def dot : UInt8 := 0x2E

/-- The labels of a name, cut at the dots inside them. -/
def pieces (name : Dns.Name) : List (List UInt8) := name.flatMap (·.splitOn dot)

/-- What the decoder reads in them. -/
def texts (name : Dns.Name) : List String := (pieces name).map fromUtf8Lossy

namespace PlainQuestion

variable (q : PlainQuestion)

theorem toList_qname : q.qname.toList = ['.'].intercalate (q.name.map lossyChars) := by
  rw [qname, String.toList_intercalate, List.map_map]
  simp [fromUtf8Lossy, Function.comp_def]

/-- The text of a name, cut at its dots. -/
theorem splitOn_qname (h : q.name ≠ []) :
    q.qname.toList.splitOn '.' = (pieces q.name).map lossyChars := by
  have hdot : '.' = Char.ofNat dot.toNat := by decide
  rw [toList_qname, Text.splitOn_intercalate_flatMap _ (by simpa using h), List.flatMap_map, pieces,
    List.map_flatMap, hdot]
  congr 1
  funext l
  exact splitOn_lossyChars (by decide) (by decide) l

/-- The text is empty for the root only. -/
theorem qname_ne_nil (h : q.name ≠ []) : q.qname.toList ≠ [] := by
  obtain ⟨labels, qtype⟩ := q
  cases labels with
  | nil => exact absurd rfl h
  | cons l ls =>
    have hl : lossyChars l.bytes ≠ [] := lossyChars_ne_nil (List.ne_nil_of_length_pos l.length_pos)
    rw [toList_qname]
    by_cases hls : ls = []
    · subst hls
      simpa [name] using hl
    · simp only [name, List.map_cons]
      rw [List.intercalate_cons_of_ne_nil (by simpa using hls)]
      simp

end PlainQuestion

theorem texts_eq_iff {name name' : Dns.Name} :
    texts name = texts name' ↔ (pieces name).map lossyChars = (pieces name').map lossyChars := by
  have hinj : Function.Injective (List.map String.ofList) :=
    List.map_injective_iff.mpr fun a b h => by simpa using congrArg String.toList h
  have htexts : ∀ n, texts n = ((pieces n).map lossyChars).map String.ofList := by
    intro n
    rw [texts, List.map_map]
    rfl
  rw [htexts, htexts]
  exact hinj.eq_iff

theorem pieces_ne_nil {name : Dns.Name} (h : name ≠ []) : pieces name ≠ [] := by
  cases name with
  | nil => exact absurd rfl h
  | cons l ls => simp [pieces, List.splitOn_ne_nil]

/-- Two names become one text just if their pieces decode alike. -/
theorem qname_eq_iff {q q' : PlainQuestion} : q.qname = q'.qname ↔ texts q.name = texts q'.name := by
  rw [texts_eq_iff]
  by_cases h : q.name = []
  · by_cases h' : q'.name = []
    · simp [PlainQuestion.qname, h, h']
    · have hroot : q.qname.toList = [] := by
        rw [q.toList_qname, h]
        rfl
      refine iff_of_false ?_ ?_
      · intro heq
        exact q'.qname_ne_nil h' (heq ▸ hroot)
      · intro heq
        rw [h] at heq
        exact pieces_ne_nil h' (List.map_eq_nil_iff.mp heq.symm)
  · by_cases h' : q'.name = []
    · have hroot : q'.qname.toList = [] := by
        rw [q'.toList_qname, h']
        rfl
      refine iff_of_false ?_ ?_
      · intro heq
        exact q.qname_ne_nil h (heq ▸ hroot)
      · intro heq
        rw [h'] at heq
        exact pieces_ne_nil h (List.map_eq_nil_iff.mp heq)
    · rw [← q.splitOn_qname h, ← q'.splitOn_qname h']
      constructor
      · intro heq
        rw [heq]
      · intro heq
        -- what was cut is joined again
        have hjoin := congrArg ['.'].intercalate heq
        rw [List.intercalate_splitOn, List.intercalate_splitOn] at hjoin
        exact String.toList_inj.mp hjoin

/-- **Which requests are told apart.**  For any two requests the parser accepts, with
the questions `q` and `q'`: that different names are resolved as different texts holds
just if the names are the same, or the labels, cut at the dots inside them, are not
decoded to the same texts. -/
theorem identifies_iff (buf buf' : List UInt8) (query query' : ParsedQuery)
    (hquery : parseQuery buf = .ok query) (hquery' : parseQuery buf' = .ok query')
    (q q' : PlainQuestion) (h : Asks buf q) (h' : Asks buf' q') :
    (q.name ≠ q'.name → query.qname ≠ query'.qname) ↔
      q.name = q'.name ∨ texts q.name ≠ texts q'.name := by
  obtain rfl := Except.ok.inj (hquery.symm.trans h.parseQuery)
  obtain rfl := Except.ok.inj (hquery'.symm.trans h'.parseQuery)
  rw [show (q.parsed buf).qname = q.qname from rfl, show (q'.parsed buf').qname = q'.qname from rfl,
    ne_eq, ne_eq, ne_eq, qname_eq_iff]
  by_cases hname : q.name = q'.name
  · simp [hname]
  · simp [hname]

/-- Questions for the IPv4 addresses of the one label `a.b`, and of `a` below `b`. -/
def dotted : PlainQuestion := ⟨[⟨[0x61, 0x2E, 0x62], by decide, by decide⟩], QTYPE_A⟩

def below : PlainQuestion := ⟨[labelA, ⟨[0x62], by decide, by decide⟩], QTYPE_A⟩

/-- `a` below `b` and `a` are told apart. -/
theorem identifies_below : below.name ≠ (ofA QTYPE_A).name ∧
    (below.parsed below.request).qname ≠ ((ofA QTYPE_A).parsed (ofA QTYPE_A).request).qname := by
  have hname : below.name ≠ (ofA QTYPE_A).name := by decide
  exact ⟨hname, (identifies_iff below.request (ofA QTYPE_A).request _ _
    below.asks_request.parseQuery (ofA QTYPE_A).asks_request.parseQuery below (ofA QTYPE_A)
    below.asks_request (ofA QTYPE_A).asks_request).mpr (.inr (by decide +kernel)) hname⟩

/-- The one label `a.b` and `a` below `b` are different names, and both questions are
accepted; but whatever the resolver does, both get the same addresses. -/
theorem not_identifies_dotted_below : ∃ query query',
    parseQuery dotted.request = .ok query ∧ parseQuery below.request = .ok query' ∧
      Asks dotted.request dotted ∧ Asks below.request below ∧ dotted.name ≠ below.name ∧
      query.qname = query'.qname ∧ ∀ resolve, resolved resolve query = resolved resolve query' := by
  have hsame : dotted.qname = below.qname := by decide +kernel
  refine ⟨_, _, dotted.asks_request.parseQuery, below.asks_request.parseQuery,
    dotted.asks_request, below.asks_request, by decide, hsame, ?_⟩
  intro resolve
  simp only [resolved, PlainQuestion.parsed, hsame]
  rfl

/-- A name whose labels are UTF-8 without dots. -/
def Clean (name : Dns.Name) : Prop := ∀ l ∈ name, dot ∉ l ∧ toUtf8 (fromUtf8Lossy l) = l

theorem pieces_of_clean {name : Dns.Name} (h : Clean name) : pieces name = name := by
  induction name with
  | nil => rfl
  | cons l ls ih =>
    have hl : l.splitOn dot = [l] := List.splitOn_eq_singleton (h l List.mem_cons_self).1
    have hls := ih fun l' hl' => h l' (List.mem_cons_of_mem l hl')
    rw [pieces, List.flatMap_cons, hl]
    exact congrArg (l :: ·) hls

/-- Names of labels that are UTF-8 without dots are all told apart. -/
theorem texts_ne_of_clean {name name' : Dns.Name} (h : Clean name) (h' : Clean name')
    (hne : name ≠ name') : texts name ≠ texts name' := by
  have hback : ∀ n : Dns.Name, Clean n → (texts n).map toUtf8 = n := by
    intro n hn
    rw [texts, pieces_of_clean hn, List.map_map]
    exact (List.map_congr_left fun l hl => (hn l hl).2).trans (List.map_id n)
  intro heq
  refine hne ?_
  rw [← hback name h, ← hback name' h', heq]

end Anonet.Leakguard
