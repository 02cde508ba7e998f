import Anonet.Library.Dns
import Anonet.Library.IpAddr

/-!
# The DNS shim

`leakguard/src/dns_shim.rs`: a query is parsed down to its first question, the name is
resolved through Tor, and a response is built that echoes the question and answers it.

* `parseQuery`, `buildResponse`, `handleQuery` — the functions of the source; the
  resolver is a parameter.
* `readQuestion_of_parseQuery` — what the parser accepts is a question whose name has
  no pointers, so that it reads the same wherever it stands.
* `decode_handleQuery` — **every response decodes to the question of the request and
  the addresses the resolver found.**
-/

namespace Anonet.Leakguard

open Bytes Net

def QTYPE_A : UInt16 := 1
def QTYPE_AAAA : UInt16 := 28
def QCLASS_IN : UInt16 := 1

def RCODE_NOERROR : UInt8 := 0
def RCODE_SERVFAIL : UInt8 := 2
def RCODE_NXDOMAIN : UInt8 := 3
def RCODE_NOTIMP : UInt8 := 4

def ANSWER_TTL_SECS : UInt32 := 60

structure ParsedQuery where
  id : UInt16
  /-- The question's bytes as they appeared in the request. -/
  questionRaw : List UInt8
  qname : String
  qtype : UInt16
  deriving DecidableEq

/-! ## Parsing -/

/-- `buf.get(start..stop)`. -/
def getRange (buf : List UInt8) (start stop : ℕ) : Option (List UInt8) :=
  if start ≤ stop ∧ stop ≤ buf.length then some ((buf.drop start).take (stop - start)) else none

/-- The loop over the labels of the name, from `pos` on: the labels, and where the
name ends. -/
def parseLabels (buf : List UInt8) (pos : ℕ) : Except String (List String × ℕ) :=
  match _hlen : buf[pos]? with
  | none => .error "truncated qname"
  | some len =>
    if len = 0 then .ok ([], pos + 1)
    else if len &&& 0xC0 ≠ 0 then .error "compressed QNAME in a query is not supported"
    else
      match getRange buf (pos + 1) (pos + 1 + len.toNat) with
      | none => .error "truncated qname label"
      | some label =>
        match parseLabels buf (pos + 1 + len.toNat) with
        | .error e => .error e
        | .ok (labels, stop) => .ok (fromUtf8Lossy label :: labels, stop)
termination_by buf.length - pos
decreasing_by
  have hlt : pos < buf.length := (List.getElem?_eq_some_iff.mp _hlen).1
  omega

def parseQuery (buf : List UInt8) : Except String ParsedQuery :=
  if buf.length < 12 then .error "message shorter than a DNS header"
  else
    let id := u16FromBe (buf.getD 0 0) (buf.getD 1 0)
    let qdcount := u16FromBe (buf.getD 4 0) (buf.getD 5 0)
    if qdcount = 0 then .error "query has no questions"
    else
      match parseLabels buf 12 with
      | .error e => .error e
      | .ok (labels, pos) =>
        let qname := ".".intercalate labels
        match getRange buf pos (pos + 4) with
        | some [a, b, c, d] =>
          let qtype := u16FromBe a b
          let qclass := u16FromBe c d
          if qclass ≠ QCLASS_IN then .error s!"unsupported query class {qclass}"
          else .ok ⟨id, (buf.drop 12).take (pos + 4 - 12), qname, qtype⟩
        | _ => .error "truncated qtype/qclass"

/-! ## Responding -/

/-- The answer for one address; its name is a pointer to the question's. -/
def answer (qtype : UInt16) (ip : IpAddr) : List UInt8 :=
  [0xC0, 0x0C] ++ u16ToBe qtype ++ u16ToBe QCLASS_IN ++ beBytes 4 ANSWER_TTL_SECS.toNat ++
    match ip with
    | .v4 _ => u16ToBe 4 ++ ip.octets
    | .v6 _ => u16ToBe 16 ++ ip.octets

/-- QR, RD and RA, and the rcode. -/
def responseFlags (rcode : UInt8) : UInt16 := 0x8180 ||| (rcode &&& 0x0F).toUInt16

def buildResponse (id : UInt16) (questionRaw : List UInt8) (qtype : UInt16) (rcode : UInt8)
    (ips : List IpAddr) : List UInt8 :=
  u16ToBe id ++ u16ToBe (responseFlags rcode) ++ u16ToBe 1 ++ u16ToBe (UInt16.ofNat ips.length) ++
    u16ToBe 0 ++ u16ToBe 0 ++ questionRaw ++ ips.flatMap (answer qtype)

/-- What is sent back for a parsed query. -/
def respond (resolve : String → Except String (List IpAddr)) (query : ParsedQuery) : List UInt8 :=
  if query.qtype ≠ QTYPE_A ∧ query.qtype ≠ QTYPE_AAAA then
    buildResponse query.id query.questionRaw query.qtype RCODE_NOTIMP []
  else
    match resolve query.qname with
    | .ok ips =>
      let wantedV6 : Bool := query.qtype = QTYPE_AAAA
      let filtered := ips.filter fun ip => ip.isIpv6 = wantedV6
      if filtered.isEmpty then
        buildResponse query.id query.questionRaw query.qtype RCODE_NXDOMAIN []
      else buildResponse query.id query.questionRaw query.qtype RCODE_NOERROR filtered
    | .error _ => buildResponse query.id query.questionRaw query.qtype RCODE_SERVFAIL []

/-- The datagram sent for a request, if one is; `resolve` is `AnonCore::resolve` of the
core there is now. -/
def handleQuery (resolve : String → Except String (List IpAddr)) (request : List UInt8) :
    Option (List UInt8) :=
  match parseQuery request with
  | .ok query => some (respond resolve query)
  | .error _ => none

/-! ## What the parser accepts -/

section Parse

variable {buf : List UInt8}

theorem and_C0_eq_zero {len : UInt8} : len &&& 0xC0 = 0 ↔ len.toNat < 64 := by
  have hall : ∀ n : Fin 256, (n : ℕ) &&& 192 = 0 ↔ (n : ℕ) < 64 := by decide +kernel
  rw [← UInt8.toNat_inj, UInt8.toNat_and]
  exact hall ⟨len.toNat, len.toNat_lt⟩

theorem getRange_eq_some {start stop : ℕ} {bs : List UInt8} (h : getRange buf start stop = some bs) :
    buf.drop start = bs ++ buf.drop stop ∧ bs.length = stop - start := by
  unfold getRange at h
  split at h
  · rename_i hrange
    obtain rfl := Option.some.inj h
    have hstop : buf.drop stop = (buf.drop start).drop (stop - start) := by
      rw [List.drop_drop, Nat.add_sub_cancel' hrange.1]
    refine ⟨?_, ?_⟩
    · rw [hstop, List.take_append_drop]
    · rw [List.length_take, List.length_drop]
      omega
  · cases h

/-- What stands at `start` is what is taken from there. -/
theorem getRange_of_drop {start stop : ℕ} {bs rest : List UInt8}
    (h : buf.drop start = bs ++ rest) (hstart : start ≤ buf.length)
    (hstop : stop = start + bs.length) : getRange buf start stop = some bs := by
  have hlen : buf.length - start = bs.length + rest.length := by
    rw [← List.length_drop, h, List.length_append]
  rw [getRange, if_pos ⟨by omega, by omega⟩, h, hstop, Nat.add_sub_cancel_left, List.take_left]

/-- The parser accepts labels only if they are a name written out. -/
theorem encodeLabels_of_parseLabels {pos stop : ℕ} {labels : List String}
    (h : parseLabels buf pos = .ok (labels, stop)) :
    ∃ ls : List Dns.PlainLabel, buf.drop pos = Dns.encodeLabels ls ++ buf.drop stop ∧
      pos + (Dns.encodeLabels ls).length = stop ∧
      labels = ls.map fun l => fromUtf8Lossy l.bytes := by
  induction pos using parseLabels.induct buf generalizing labels stop with
  | case1 pos hnone =>
    rw [parseLabels, hnone] at h
    cases h
  | case2 pos hget =>
    rw [parseLabels, hget] at h
    cases h
    obtain ⟨hlt, hbyte⟩ := List.getElem?_eq_some_iff.mp hget
    refine ⟨[], ?_, rfl, rfl⟩
    rw [List.drop_eq_getElem_cons hlt, hbyte]
    rfl
  | case3 pos len hget hne hcompressed =>
    rw [parseLabels, hget] at h
    simp only [if_neg hne, if_pos hcompressed] at h
    cases h
  | case4 pos len hget hne hplain hlabel =>
    rw [parseLabels, hget] at h
    simp only [if_neg hne, if_neg hplain, hlabel] at h
    cases h
  | case5 pos len hget hne hplain label hlabel e hrest =>
    rw [parseLabels, hget] at h
    simp only [if_neg hne, if_neg hplain, hlabel, hrest] at h
    cases h
  | case6 pos len hget hne hplain label hlabel labels' stop' hrest ih =>
    rw [parseLabels, hget] at h
    simp only [if_neg hne, if_neg hplain, hlabel, hrest] at h
    cases h
    obtain ⟨hlt, hbyte⟩ := List.getElem?_eq_some_iff.mp hget
    obtain ⟨hdrop, hlength⟩ := getRange_eq_some hlabel
    obtain ⟨ls, hraw, hstop, rfl⟩ := ih hrest
    obtain ⟨l, rfl, rfl⟩ := Dns.PlainLabel.exists_of_length hne
      (and_C0_eq_zero.mp (not_not.mp hplain)) (show label.length = len.toNat by omega)
    refine ⟨l :: ls, ?_, ?_, rfl⟩
    · rw [List.drop_eq_getElem_cons hlt, hbyte, hdrop, hraw, Dns.encodeLabels_cons]
      simp
    · rw [Dns.encodeLabels_cons, List.length_cons, List.length_append]
      omega

/-- The labels the parser accepts are a name without pointers, which reads the same
whatever comes behind it. -/
theorem readLabels_of_parseLabels {pos stop : ℕ} {labels : List String}
    (h : parseLabels buf pos = .ok (labels, stop)) :
    ∃ name raw, buf.drop pos = raw ++ buf.drop stop ∧ pos + raw.length = stop ∧
      labels = name.map fromUtf8Lossy ∧
      ∀ tail, Dns.readLabels (raw ++ tail) = some (name, none, tail) := by
  obtain ⟨ls, hdrop, hstop, rfl⟩ := encodeLabels_of_parseLabels h
  refine ⟨ls.map (·.bytes), Dns.encodeLabels ls, hdrop, hstop, ?_, ?_⟩
  · rw [List.map_map]
    rfl
  · intro tail
    exact Dns.readLabels_encodeLabels ls tail

/-- **What the parser accepts** is the first question of the request, of class IN and
without pointers in its name. -/
theorem readQuestion_of_parseQuery {query : ParsedQuery} (h : parseQuery buf = .ok query) :
    ∃ (question : Dns.Question) (rest : List UInt8),
      buf.drop 12 = query.questionRaw ++ rest ∧ query.questionRaw ≠ [] ∧
      query.qname = ".".intercalate (question.name.map fromUtf8Lossy) ∧
      query.qtype = question.qtype ∧
      (∀ tail, ∃ behind, Dns.readLabels (query.questionRaw ++ tail) =
        some (question.name, none, behind)) ∧
      ∀ msg tail, Dns.readQuestion msg (query.questionRaw ++ tail) = some (question, tail) := by
  unfold parseQuery at h
  split at h
  · cases h
  · dsimp only at h
    split at h
    · cases h
    · split at h
      · cases h
      · rename_i labels pos hlabels
        obtain ⟨name, raw, hraw, hpos, rfl, hread⟩ := readLabels_of_parseLabels hlabels
        split at h
        · rename_i a b c d hrange
          split at h
          · cases h
          · rename_i hclass
            cases h
            obtain ⟨hdrop, -⟩ := getRange_eq_some hrange
            have hquestion : (buf.drop 12).take (pos + 4 - 12) = raw ++ [a, b, c, d] := by
              rw [hraw, hdrop, ← List.append_assoc]
              refine List.take_left' ?_
              rw [List.length_append]
              show raw.length + 4 = _
              omega
            have hread' : ∀ tail, Dns.readLabels (raw ++ [a, b, c, d] ++ tail) =
                some (name, none, [a, b, c, d] ++ tail) := by
              intro tail
              rw [List.append_assoc]
              exact hread _
            refine ⟨⟨name, u16FromBe a b, u16FromBe c d⟩, buf.drop (pos + 4), ?_, ?_, rfl, rfl,
              ?_, ?_⟩
            · show buf.drop 12 = (buf.drop 12).take (pos + 4 - 12) ++ buf.drop (pos + 4)
              rw [hquestion, hraw, hdrop, List.append_assoc]
            · show (buf.drop 12).take (pos + 4 - 12) ≠ []
              rw [hquestion]
              simp
            · intro tail
              refine ⟨[a, b, c, d] ++ tail, ?_⟩
              show Dns.readLabels ((buf.drop 12).take (pos + 4 - 12) ++ tail) = _
              rw [hquestion]
              exact hread' tail
            · intro msg tail
              show Dns.readQuestion msg ((buf.drop 12).take (pos + 4 - 12) ++ tail) = _
              rw [hquestion]
              simp only [Dns.readQuestion, Dns.readName, hread' tail]
              rfl
        · cases h

/-- The id is the one a decoder reads in the request's header. -/
theorem readHeader_of_parseQuery {query : ParsedQuery} (h : parseQuery buf = .ok query) :
    ∃ header, Dns.readHeader buf = some (header, buf.drop 12) ∧ header.id = query.id := by
  have hid : 12 ≤ buf.length ∧ query.id = u16FromBe (buf.getD 0 0) (buf.getD 1 0) := by
    unfold parseQuery at h
    split at h
    · cases h
    · rename_i hlen
      refine ⟨Nat.le_of_not_lt hlen, ?_⟩
      dsimp only at h
      split at h
      · cases h
      · split at h
        · cases h
        · split at h
          · split at h
            · cases h
            · cases h
              rfl
          · cases h
  obtain ⟨header, hread, hheader⟩ := Dns.readHeader_of_length hid.1
  exact ⟨header, hread, hheader.trans hid.2.symm⟩

end Parse

/-! ## What a decoder makes of a response -/

/-- The record an answer is read as. -/
def answerRecord (question : Dns.Question) (ip : IpAddr) : Dns.ResourceRecord :=
  ⟨question.name, question.qtype, QCLASS_IN, ANSWER_TTL_SECS, ip.octets⟩

theorem length_octets : ∀ ip : IpAddr, ip.octets.length = match ip with | .v4 _ => 4 | .v6 _ => 16
  | .v4 _ => length_beBytes 4 _
  | .v6 _ => length_beBytes 16 _

/-- An answer behind the question: its pointer leads to the question's name. -/
theorem readRecord_answer {msg : List UInt8} {question : Dns.Question} {behind : List UInt8}
    (hname : Dns.readLabels (msg.drop 12) = some (question.name, none, behind)) (ip : IpAddr)
    (tail : List UInt8)
    (hpos : 12 < msg.length - (answer question.qtype ip ++ tail).length) :
    Dns.readRecord msg (answer question.qtype ip ++ tail) =
      some (answerRecord question ip, tail) := by
  obtain ⟨fields, hanswer, hfields⟩ : ∃ fields,
      answer question.qtype ip ++ tail = 0xC0 :: 0x0C :: fields ∧
        fields = u16ToBe question.qtype ++ (u16ToBe QCLASS_IN ++
          (beBytes 4 ANSWER_TTL_SECS.toNat ++ (u16ToBe (UInt16.ofNat ip.octets.length) ++
            (ip.octets ++ tail)))) := by
    cases ip with
    | v4 a => exact ⟨_, by simp [answer, length_octets], rfl⟩
    | v6 a => exact ⟨_, by simp [answer, length_octets], rfl⟩
  have hpointer : Dns.readName msg (0xC0 :: 0x0C :: fields) = some (question.name, fields) := by
    rw [hanswer] at hpos
    have htarget : Dns.readLabels (0xC0 :: 0x0C :: fields) = some ([], some 12, fields) :=
      Dns.readLabels_pointer fields (by decide)
    rw [Dns.readName, htarget]
    simp only [if_pos hpos, Dns.nameAt, hname]
    rfl
  have hlength : (UInt16.ofNat ip.octets.length).toNat = ip.octets.length := by
    rw [length_octets]
    cases ip <;> rfl
  rw [hanswer, Dns.readRecord, hpointer, hfields]
  simp only [Option.bind_eq_bind, Option.bind_some, Dns.readU16_append, Dns.readU32_append, hlength,
    Dns.readBytes_append]
  rfl

def responseHeader (id : UInt16) (rcode : UInt8) (ips : List IpAddr) : Dns.Header :=
  ⟨id, responseFlags rcode, 1, UInt16.ofNat ips.length, 0, 0⟩

/-- The parts of a response. -/
theorem buildResponse_eq (id : UInt16) (raw : List UInt8) (qtype : UInt16) (rcode : UInt8)
    (ips : List IpAddr) : buildResponse id raw qtype rcode ips =
      (responseHeader id rcode ips).bytes ++ (raw ++ ips.flatMap (answer qtype)) := by
  simp only [buildResponse, responseHeader, Dns.Header.bytes, List.append_assoc]

/-- The answers of a response are read as its records, with nothing left over. -/
theorem readMany_answers {raw : List UInt8} {question : Dns.Question} {msg head : List UInt8}
    {ips : List IpAddr} (hraw : raw ≠ [])
    (hname : ∀ tail, ∃ behind, Dns.readLabels (raw ++ tail) = some (question.name, none, behind))
    (hhead : head.length = 12)
    (hmsg : msg = head ++ (raw ++ ips.flatMap (answer question.qtype))) :
    Dns.readMany (Dns.readRecord msg) ips.length (ips.flatMap (answer question.qtype)) =
      some (ips.map (answerRecord question), []) := by
  have hbody : msg.drop 12 = raw ++ ips.flatMap (answer question.qtype) := by
    rw [hmsg]
    exact List.drop_left' hhead
  have hlen : msg.length = 12 + (raw.length + (ips.flatMap (answer question.qtype)).length) := by
    rw [hmsg, List.length_append, List.length_append, hhead]
  obtain ⟨behind, hlabels⟩ := hname (ips.flatMap (answer question.qtype))
  rw [← hbody] at hlabels
  have hmany := Dns.readMany_flatMap (Dns.readRecord msg) (answer question.qtype)
    (answerRecord question) (ips.flatMap (answer question.qtype)).length ips [] ?_ (by simp)
  · rwa [List.append_nil] at hmany
  · intro ip _ tail hbound
    refine readRecord_answer hlabels ip tail ?_
    have hpos : 0 < raw.length := List.length_pos_of_ne_nil hraw
    omega

/-- **A response decodes**, with nothing left over, to its header, the echoed question
and one record for each address. -/
theorem decode_buildResponse (id : UInt16) (rcode : UInt8) {raw : List UInt8}
    {question : Dns.Question} {ips : List IpAddr} (hraw : raw ≠ [])
    (hname : ∀ tail, ∃ behind, Dns.readLabels (raw ++ tail) = some (question.name, none, behind))
    (hquestion : ∀ msg tail, Dns.readQuestion msg (raw ++ tail) = some (question, tail))
    (hcount : ips.length < 2 ^ 16) :
    Dns.decode (buildResponse id raw question.qtype rcode ips) =
      some (⟨responseHeader id rcode ips, [question], ips.map (answerRecord question), [], []⟩,
        []) := by
  have hbytes := buildResponse_eq id raw question.qtype rcode ips
  generalize buildResponse id raw question.qtype rcode ips = msg at hbytes
  generalize hheader : responseHeader id rcode ips = header at hbytes
  have hread : Dns.readHeader msg =
      some (header, raw ++ ips.flatMap (answer question.qtype)) := by
    rw [hbytes]
    exact Dns.readHeader_append _ _
  have hancount : header.ancount.toNat = ips.length := by
    rw [← hheader]
    show (UInt16.ofNat ips.length).toNat = ips.length
    rw [UInt16.toNat_ofNat']
    exact Nat.mod_eq_of_lt hcount
  refine Dns.decode_of_answers hread (hquestion msg _) ?_ ?_ ?_ ?_
  · rw [hancount]
    exact readMany_answers hraw hname header.length_bytes hbytes
  · rw [← hheader]
    rfl
  · rw [← hheader]
    rfl
  · rw [← hheader]
    rfl

/-! ## Every query -/

/-- The addresses of the queried family the resolver found for a query, in its order;
none if it failed or the query is for something else. -/
def resolved (resolve : String → Except String (List IpAddr)) (query : ParsedQuery) :
    List IpAddr :=
  match resolve query.qname with
  | .ok ips =>
    if query.qtype = QTYPE_A then ips.filter fun ip => !ip.isIpv6
    else if query.qtype = QTYPE_AAAA then ips.filter fun ip => ip.isIpv6
    else []
  | .error _ => []

/-- What is sent back once the name is resolved. -/
theorem respond_of_ok {resolve : String → Except String (List IpAddr)} {query : ParsedQuery}
    {ips : List IpAddr} (hqtype : query.qtype = QTYPE_A ∨ query.qtype = QTYPE_AAAA)
    (hips : resolve query.qname = .ok ips) :
    respond resolve query = buildResponse query.id query.questionRaw query.qtype
      (if resolved resolve query = [] then RCODE_NXDOMAIN else RCODE_NOERROR)
      (resolved resolve query) := by
  have hne : QTYPE_A ≠ QTYPE_AAAA := by decide
  have hfilter : (ips.filter fun ip => ip.isIpv6 = decide (query.qtype = QTYPE_AAAA)) =
      resolved resolve query := by
    unfold resolved
    rw [hips]
    rcases hqtype with hA | hAAAA
    · simp [hA, hne]
    · simp [hAAAA, hne.symm]
  have hknown : ¬ (query.qtype ≠ QTYPE_A ∧ query.qtype ≠ QTYPE_AAAA) := by
    rintro ⟨hA, hAAAA⟩
    exact hqtype.elim hA hAAAA
  unfold respond
  rw [if_neg hknown, hips]
  simp only [hfilter, List.isEmpty_iff]
  split
  · rename_i hempty
    rw [hempty]
  · rfl

/-- What is sent back is a response with the resolved addresses, under some rcode. -/
theorem respond_eq (resolve : String → Except String (List IpAddr)) (query : ParsedQuery) :
    ∃ rcode, respond resolve query =
      buildResponse query.id query.questionRaw query.qtype rcode (resolved resolve query) := by
  by_cases hunknown : query.qtype ≠ QTYPE_A ∧ query.qtype ≠ QTYPE_AAAA
  · refine ⟨RCODE_NOTIMP, ?_⟩
    have hnone : resolved resolve query = [] := by
      cases hips : resolve query.qname with
      | ok ips => simp [resolved, hips, hunknown]
      | error e => simp [resolved, hips]
    rw [respond, if_pos hunknown, hnone]
  · cases hips : resolve query.qname with
    | ok ips => exact ⟨_, respond_of_ok (by tauto) hips⟩
    | error e =>
      refine ⟨RCODE_SERVFAIL, ?_⟩
      unfold respond resolved
      rw [if_neg hunknown, hips]

/-- To a decoder, `response` answers the first question of `request` with the addresses
`ips`. -/
structure Responds (request response : List UInt8) (ips : List IpAddr) (question : Dns.Question)
    (message : Dns.Message) : Prop where
  /-- Nothing is left over. -/
  decoded : Dns.decode response = some (message, [])
  id : ∃ header, Dns.readHeader request = some (header, request.drop 12) ∧
    message.header.id = header.id
  qr : message.header.qr = true
  questions : message.questions = [question]
  /-- Byte for byte, the question is the first one of the request. -/
  echoed : ∃ raw rest rest', request.drop 12 = raw ++ rest ∧ response.drop 12 = raw ++ rest' ∧
    Dns.readQuestion request (raw ++ rest) = some (question, rest) ∧
    Dns.readQuestion response (raw ++ rest') = some (question, rest')
  ancount : message.header.ancount.toNat = message.answers.length
  nscount : message.header.nscount = 0 ∧ message.authority = []
  arcount : message.header.arcount = 0 ∧ message.additional = []
  answers : message.answers = ips.map fun ip =>
    ⟨question.name, question.qtype, QCLASS_IN, ANSWER_TTL_SECS, ip.octets⟩

theorem qr_responseFlags (rcode : UInt8) : (responseFlags rcode).toNat / 2 ^ 15 = 1 := by
  have hall : ∀ n : Fin 256, (responseFlags (UInt8.ofNat n)).toNat / 2 ^ 15 = 1 := by
    decide +kernel
  have hrcode := hall ⟨rcode.toNat, rcode.toNat_lt⟩
  rwa [UInt8.ofNat_toNat] at hrcode

/-- **Every response is right.**  Whatever the parser accepts and whatever the resolver
does, as long as at most 65535 of its addresses are of the queried family: what is sent
back decodes, with nothing left over, to the request's id and first question, and
answers that are exactly these addresses in their order. -/
theorem decode_handleQuery (resolve : String → Except String (List IpAddr))
    (request : List UInt8) (query : ParsedQuery) (hquery : parseQuery request = .ok query)
    (hcount : (resolved resolve query).length ≤ 65535) :
    ∃ response question message, handleQuery resolve request = some response ∧
      Responds request response (resolved resolve query) question message := by
  obtain ⟨question, rest, hdrop, hraw, -, hqtype, hname, hread⟩ := readQuestion_of_parseQuery hquery
  obtain ⟨header, hheader, hid⟩ := readHeader_of_parseQuery hquery
  obtain ⟨rcode, hrespond⟩ := respond_eq resolve query
  rw [hqtype] at hrespond
  have hlt : (resolved resolve query).length < 2 ^ 16 := by omega
  have hdecode := decode_buildResponse query.id rcode hraw hname hread hlt
  have hbody : (buildResponse query.id query.questionRaw question.qtype rcode
      (resolved resolve query)).drop 12 =
        query.questionRaw ++ (resolved resolve query).flatMap (answer question.qtype) := by
    rw [buildResponse_eq]
    exact List.drop_left' (Dns.Header.length_bytes _)
  refine ⟨respond resolve query, question, ⟨responseHeader query.id rcode (resolved resolve query),
    [question], (resolved resolve query).map (answerRecord question), [], []⟩, ?_, ?_⟩
  · rw [handleQuery, hquery]
  · rw [hrespond]
    refine ⟨hdecode, ⟨header, hheader, hid.symm⟩, ?_, rfl, ?_, ?_, ⟨rfl, rfl⟩, ⟨rfl, rfl⟩, rfl⟩
    · exact decide_eq_true (qr_responseFlags rcode)
    · exact ⟨query.questionRaw, rest, _, hdrop, hbody, hread _ _, hread _ _⟩
    · rw [List.length_map]
      show (UInt16.ofNat _).toNat = _
      rw [UInt16.toNat_ofNat']
      exact Nat.mod_eq_of_lt hlt

/-- A query for the IPv4 addresses of `a`, which has one of each family. -/
theorem decode_handleQuery_one :
    ∃ response question message,
      handleQuery (fun _ => .ok [.v6 .localhost, .v4 .localhost])
        [0x12, 0x34, 1, 0, 0, 1, 0, 0, 0, 0, 0, 0, 1, 0x61, 0, 0, 1, 0, 1] = some response ∧
      Responds [0x12, 0x34, 1, 0, 0, 1, 0, 0, 0, 0, 0, 0, 1, 0x61, 0, 0, 1, 0, 1] response
        [.v4 .localhost] question message := by
  have hquery : parseQuery [0x12, 0x34, 1, 0, 0, 1, 0, 0, 0, 0, 0, 0, 1, 0x61, 0, 0, 1, 0, 1] =
      .ok ⟨0x1234, [1, 0x61, 0, 0, 1, 0, 1], "a", QTYPE_A⟩ := by
    decide +kernel
  exact decode_handleQuery (fun _ => .ok [.v6 .localhost, .v4 .localhost]) _ _ hquery (by decide)

end Anonet.Leakguard
