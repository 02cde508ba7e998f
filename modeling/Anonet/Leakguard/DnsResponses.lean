import Anonet.Leakguard.DnsQuestion

/-!
# What the DNS shim sends

The responses of `leakguard/src/dns_shim.rs` against what RFC 1035 makes of them: which
datagrams are answered at all, whether the two address families agree that a name
exists, and whether a response fits its datagram.

* `onlyStandard_iff` — **the shim answers whatever has a question**, its own responses
  too, so that two shims answer each other for ever.
* `agree_iff` — **the families agree just if there is an address of both, or none.**
* `fits_iff` — **a response fits just if it is short enough**; nothing is cut.
-/

namespace Anonet.Leakguard

open Bytes Net

/-- `AnonCore::resolve`. -/
abbrev Resolver := String → Except String (List IpAddr)

/-- What `recv_from` leaves of a datagram in the buffer of `DnsShim::run`. -/
def received (datagram : List UInt8) : List UInt8 := datagram.take 512

/-! ## The header of a response -/

theorem readHeader_buildResponse (id : UInt16) (raw : List UInt8) (qtype : UInt16) (rcode : UInt8)
    (ips : List IpAddr) : Dns.readHeader (buildResponse id raw qtype rcode ips) =
      some (responseHeader id rcode ips, raw ++ ips.flatMap (answer qtype)) := by
  rw [buildResponse_eq]
  exact Dns.readHeader_append _ _

/-- Whatever is sent for a query is a response to its question. -/
theorem handleQuery_eq_some {resolve : Resolver} {request response : List UInt8}
    (h : handleQuery resolve request = some response) :
    ∃ (q : PlainQuestion) (rcode : UInt8), Asks request q ∧
      response = buildResponse (q.parsed request).id q.encode q.qtype rcode
        (resolved resolve (q.parsed request)) := by
  unfold handleQuery at h
  split at h
  · rename_i query hquery
    obtain rfl := Option.some.inj h
    obtain ⟨q, hasks, rfl⟩ := exists_asks hquery
    obtain ⟨rcode, hrespond⟩ := respond_eq resolve (q.parsed request)
    exact ⟨q, rcode, hasks, hrespond⟩
  · cases h

theorem Asks.handleQuery {request : List UInt8} {q : PlainQuestion} (h : Asks request q)
    (resolve : Resolver) :
    handleQuery resolve request = some (respond resolve (q.parsed request)) := by
  rw [Leakguard.handleQuery, h.parseQuery]

theorem length_answer (qtype : UInt16) (ip : IpAddr) :
    (answer qtype ip).length = if ip.isIpv6 then 28 else 16 := by
  cases ip with
  | v4 a => simp [answer, length_octets, u16ToBe, IpAddr.isIpv6]
  | v6 a => simp [answer, length_octets, u16ToBe, IpAddr.isIpv6]

/-! ## Which datagrams are answered -/

/-- The datagram is a standard query of one question: QR and Opcode are zero and QDCOUNT
is one. -/
def Standard (datagram : List UInt8) : Prop :=
  ∃ header rest, Dns.readHeader datagram = some (header, rest) ∧
    header.qr = false ∧ header.opcode = 0 ∧ header.qdcount = 1

/-- A response is only sent to a standard query. -/
def OnlyStandard (resolve : Resolver) (request : List UInt8) : Prop :=
  ∀ response, handleQuery resolve request = some response → Standard request

/-- A response that comes to a shim as a request is not answered. -/
def NoEcho (resolve resolve' : Resolver) (request : List UInt8) : Prop :=
  ∀ response, handleQuery resolve request = some response →
    handleQuery resolve' (received response) = none

/-- The datagram that is sent after `n` more shims, the last of them with the resolver
`resolvers n`, each got what the one before it sent. -/
def bounce (resolvers : ℕ → Resolver) (request : List UInt8) : ℕ → Option (List UInt8)
  | 0 => handleQuery (resolvers 0) request
  | n + 1 => (bounce resolvers request n).bind fun response =>
    handleQuery (resolvers (n + 1)) (received response)

/-- A response asks the question it answers, as long as the question fits into the
buffer. -/
theorem asks_received_buildResponse (q : PlainQuestion) (id : UInt16) (rcode : UInt8)
    (ips : List IpAddr) (h : q.encode.length ≤ 500) :
    Asks (received (buildResponse id q.encode q.qtype rcode ips)) q := by
  have hlen : 12 + q.encode.length ≤ (buildResponse id q.encode q.qtype rcode ips).length := by
    rw [buildResponse_eq, List.length_append, List.length_append, Dns.Header.length_bytes]
    omega
  refine ⟨?_, ?_, ?_⟩
  · rw [received, List.length_take]
    omega
  · simp [received, buildResponse, u16ToBe]
  · refine ⟨(q.encode ++ ips.flatMap (answer q.qtype)).take 500 |>.drop q.encode.length, ?_⟩
    rw [received, List.drop_take, buildResponse_eq, List.drop_left' (Dns.Header.length_bytes _),
      List.take_append, List.take_of_length_le (by omega), List.drop_left]

/-- Of a question that does not fit into the buffer nothing is understood. -/
theorem not_asks_received_buildResponse {q q' : PlainQuestion} {id : UInt16} {rcode : UInt8}
    {ips : List IpAddr} (h : 500 < q.encode.length) :
    ¬ Asks (received (buildResponse id q.encode q.qtype rcode ips)) q' := by
  rintro ⟨-, -, rest, hdrop⟩
  rw [received, List.drop_take, buildResponse_eq, List.drop_left' (Dns.Header.length_bytes _),
    List.take_append_of_le_length (by omega)] at hdrop
  have hwhole : q.encode ++ [] = q'.encode ++ (rest ++ q.encode.drop 500) := by
    rw [← List.append_assoc, ← hdrop, List.take_append_drop, List.append_nil]
  obtain rfl := PlainQuestion.encode_inj hwhole
  have hlength := congrArg List.length hdrop
  rw [List.length_take, List.length_append] at hlength
  omega

theorem noEcho_iff (resolve resolve' : Resolver) (request : List UInt8) :
    NoEcho resolve resolve' request ↔ ∀ q, Asks request q → 500 < q.encode.length := by
  constructor
  · intro h q hasks
    obtain ⟨rcode, hrespond⟩ := respond_eq resolve (q.parsed request)
    have hnone := h _ (hasks.handleQuery resolve)
    by_contra hle
    have hecho := asks_received_buildResponse q (q.parsed request).id rcode
      (resolved resolve (q.parsed request)) (Nat.le_of_not_lt hle)
    have hanswer := hecho.handleQuery resolve'
    rw [hrespond] at hnone
    exact absurd (hanswer.symm.trans hnone) (by simp)
  · intro h response hresponse
    obtain ⟨q, rcode, hasks, rfl⟩ := handleQuery_eq_some hresponse
    rw [Leakguard.handleQuery]
    split
    · rename_i query hquery
      obtain ⟨q', hasks', -⟩ := exists_asks hquery
      exact absurd hasks' (not_asks_received_buildResponse (h q hasks))
    · rfl

/-- However often it is handed on, the datagram asks the question it asked first. -/
theorem exists_bounce {request : List UInt8} {q : PlainQuestion} (resolvers : ℕ → Resolver)
    (h : Asks request q) (hlen : q.encode.length ≤ 500) (n : ℕ) :
    ∃ response, bounce resolvers request n = some response ∧ Asks (received response) q := by
  have hsent : ∀ (resolve : Resolver) (buf : List UInt8), Asks buf q →
      ∃ response, handleQuery resolve buf = some response ∧ Asks (received response) q := by
    intro resolve buf hasks
    obtain ⟨rcode, hrespond⟩ := respond_eq resolve (q.parsed buf)
    refine ⟨_, hasks.handleQuery resolve, ?_⟩
    rw [hrespond]
    exact asks_received_buildResponse q _ rcode _ hlen
  induction n with
  | zero => exact hsent (resolvers 0) request h
  | succ n ih =>
    obtain ⟨response, hbounce, hasks⟩ := ih
    rw [bounce, hbounce]
    exact hsent (resolvers (n + 1)) (received response) hasks

/-- **The shim answers whatever asks a question.**  A response goes to standard queries
only just if the request asks no question or is a standard query; a response is
answered by the next shim just if the question fits into its buffer (which it does for
every request that came through such a buffer); and then the next shim's response is
answered too, and so on for ever. -/
theorem onlyStandard_iff (resolve resolve' : Resolver) (request : List UInt8) :
    (OnlyStandard resolve request ↔ (∀ q, ¬ Asks request q) ∨ Standard request) ∧
      (NoEcho resolve resolve' request ↔ ∀ q, Asks request q → 500 < q.encode.length) ∧
      ∀ (resolvers : ℕ → Resolver) (q : PlainQuestion), Asks request q →
        q.encode.length ≤ 500 → ∀ n, ∃ response, bounce resolvers request n = some response := by
  refine ⟨?_, noEcho_iff resolve resolve' request, ?_⟩
  · constructor
    · intro h
      by_cases hasks : ∃ q, Asks request q
      · obtain ⟨q, hasks⟩ := hasks
        exact .inr (h _ (hasks.handleQuery resolve))
      · exact .inl fun q hq => hasks ⟨q, hq⟩
    · rintro (hnone | hstandard) response hresponse
      · obtain ⟨q, -, hasks, -⟩ := handleQuery_eq_some hresponse
        exact absurd hasks (hnone q)
      · exact hstandard
  · intro resolvers q hasks hlen n
    obtain ⟨response, hbounce, -⟩ := exists_bounce resolvers hasks hlen n
    exact ⟨response, hbounce⟩

theorem not_standard_buildResponse {id : UInt16} {raw : List UInt8} {qtype : UInt16} {rcode : UInt8}
    {ips : List IpAddr} : ¬ Standard (buildResponse id raw qtype rcode ips) := by
  rintro ⟨header, rest, hread, hqr, -⟩
  rw [readHeader_buildResponse, Option.some.injEq, Prod.mk.injEq] at hread
  have htrue : header.qr = true := by
    rw [← hread.1]
    exact decide_eq_true (qr_responseFlags rcode)
  exact absurd (htrue.symm.trans hqr) (by decide)

/-- A resolver that finds nothing. -/
def failing : Resolver := fun _ => .error "no exit"

/-- What it makes of a query for the addresses of `a`. -/
def failure : List UInt8 := buildResponse 0x1234 (ofA QTYPE_A).encode QTYPE_A RCODE_SERVFAIL []

/-- A query for the addresses of `a` is answered with a response that, where it comes to
a shim, is answered in turn. -/
theorem not_onlyStandard_failure : handleQuery failing (ofA QTYPE_A).request = some failure ∧
    ¬ OnlyStandard failing failure ∧ ¬ NoEcho failing failing (ofA QTYPE_A).request := by
  have hsent : handleQuery failing (ofA QTYPE_A).request = some failure := by
    rw [(ofA QTYPE_A).asks_request.handleQuery failing]
    rfl
  have hall : received failure = failure := by decide
  have hecho : Asks (received failure) (ofA QTYPE_A) :=
    asks_received_buildResponse (ofA QTYPE_A) 0x1234 RCODE_SERVFAIL [] (by decide)
  have hanswer := hecho.handleQuery failing
  refine ⟨hsent, ?_, ?_⟩
  · intro honly
    rw [hall] at hanswer
    exact not_standard_buildResponse (honly _ hanswer)
  · intro hno
    exact absurd (hanswer.symm.trans (hno _ hsent)) (by simp)

/-! ## The two address families -/

/-- The response says that the name does not exist. -/
def Nxdomain (response : List UInt8) : Prop :=
  ∃ header rest, Dns.readHeader response = some (header, rest) ∧
    header.rcode = RCODE_NXDOMAIN.toNat

/-- The two responses agree on whether the name exists, and deny it only if the resolver
found no address at all. -/
def Agree (response response' : List UInt8) (ips : List IpAddr) : Prop :=
  (Nxdomain response ↔ Nxdomain response') ∧ (Nxdomain response → ips = []) ∧
    (Nxdomain response' → ips = [])

/-- The name is denied just if no address of the queried family was found. -/
theorem nxdomain_respond {resolve : Resolver} {query : ParsedQuery} {ips : List IpAddr}
    (hqtype : query.qtype = QTYPE_A ∨ query.qtype = QTYPE_AAAA)
    (hips : resolve query.qname = .ok ips) :
    Nxdomain (respond resolve query) ↔ resolved resolve query = [] := by
  have hread := readHeader_buildResponse query.id query.questionRaw query.qtype
    (if resolved resolve query = [] then RCODE_NXDOMAIN else RCODE_NOERROR)
    (resolved resolve query)
  rw [← respond_of_ok hqtype hips] at hread
  have hrcode : Nxdomain (respond resolve query) ↔ (responseFlags
      (if resolved resolve query = [] then RCODE_NXDOMAIN else RCODE_NOERROR)).toNat % 16 = 3 := by
    constructor
    · rintro ⟨header, rest, hread', hnx⟩
      rw [hread, Option.some.injEq, Prod.mk.injEq] at hread'
      rw [← hread'.1] at hnx
      exact hnx
    · intro h
      exact ⟨_, _, hread, h⟩
  rw [hrcode]
  by_cases hnone : resolved resolve query = []
  · rw [if_pos hnone]
    exact iff_of_true (by decide) hnone
  · rw [if_neg hnone]
    exact iff_of_false (by decide) hnone

/-- **The families agree that a name exists just if there are addresses of both, or none
at all.**  For any query for the IPv4 and any query for the IPv6 addresses of one name,
and whatever the resolver finds for it. -/
theorem agree_iff (resolve : Resolver) (request request' : List UInt8) (query query' : ParsedQuery)
    (hquery : parseQuery request = .ok query) (hquery' : parseQuery request' = .ok query')
    (hA : query.qtype = QTYPE_A) (hAAAA : query'.qtype = QTYPE_AAAA)
    (hname : query.qname = query'.qname) (ips : List IpAddr)
    (hips : resolve query.qname = .ok ips) :
    (∀ response response', handleQuery resolve request = some response →
      handleQuery resolve request' = some response' → Agree response response' ips) ↔
      ips = [] ∨ (∃ ip ∈ ips, ip.isIpv6 = false) ∧ ∃ ip ∈ ips, ip.isIpv6 = true := by
  have hips' : resolve query'.qname = .ok ips := hname ▸ hips
  have hv4 : resolved resolve query = [] ↔ ¬ ∃ ip ∈ ips, ip.isIpv6 = false := by
    simp [resolved, hips, hA]
  have hv6 : resolved resolve query' = [] ↔ ¬ ∃ ip ∈ ips, ip.isIpv6 = true := by
    have hne : QTYPE_AAAA ≠ QTYPE_A := by decide
    simp [resolved, hips', hAAAA, hne]
  have hempty : ips = [] ↔ (¬ ∃ ip ∈ ips, ip.isIpv6 = false) ∧ ¬ ∃ ip ∈ ips, ip.isIpv6 = true := by
    cases ips with
    | nil => simp
    | cons ip ips => cases hip : ip.isIpv6 <;> simp [hip]
  have hagree : Agree (respond resolve query) (respond resolve query') ips ↔
      ips = [] ∨ (∃ ip ∈ ips, ip.isIpv6 = false) ∧ ∃ ip ∈ ips, ip.isIpv6 = true := by
    rw [Agree, nxdomain_respond (.inl hA) hips, nxdomain_respond (.inr hAAAA) hips', hv4, hv6,
      hempty]
    generalize (∃ ip ∈ ips, ip.isIpv6 = false) = v4
    generalize (∃ ip ∈ ips, ip.isIpv6 = true) = v6
    by_cases h4 : v4 <;> by_cases h6 : v6 <;> simp [h4, h6]
  rw [← hagree]
  simp only [handleQuery, hquery, hquery', Option.some.injEq]
  constructor
  · intro h
    exact h _ _ rfl rfl
  · rintro h response response' rfl rfl
    exact h

/-- A name with one address of each family. -/
theorem agree_dualStack : ∃ response response',
    handleQuery (fun _ => .ok [.v4 .localhost, .v6 .localhost]) (ofA QTYPE_A).request =
      some response ∧
    handleQuery (fun _ => .ok [.v4 .localhost, .v6 .localhost]) (ofA QTYPE_AAAA).request =
      some response' ∧
    Agree response response' [.v4 .localhost, .v6 .localhost] := by
  have h := (ofA QTYPE_A).asks_request.handleQuery fun _ => .ok [.v4 .localhost, .v6 .localhost]
  have h' := (ofA QTYPE_AAAA).asks_request.handleQuery
    fun _ => .ok [.v4 .localhost, .v6 .localhost]
  exact ⟨_, _, h, h', (agree_iff (fun _ => .ok [.v4 .localhost, .v6 .localhost]) _ _ _ _
    (ofA QTYPE_A).asks_request.parseQuery (ofA QTYPE_AAAA).asks_request.parseQuery rfl rfl rfl _
    rfl).mpr (.inr ⟨⟨.v4 .localhost, by simp, rfl⟩, .v6 .localhost, by simp, rfl⟩) _ _ h h'⟩

/-- A name with an IPv4 address only does not exist for a query for the other family. -/
theorem not_agree_v4Only : ∃ response response',
    handleQuery (fun _ => .ok [.v4 .localhost]) (ofA QTYPE_A).request = some response ∧
      handleQuery (fun _ => .ok [.v4 .localhost]) (ofA QTYPE_AAAA).request = some response' ∧
      ¬ Nxdomain response ∧ Nxdomain response' ∧
      ¬ Agree response response' [.v4 .localhost] := by
  have hno : ¬ Nxdomain (respond (fun _ => .ok [.v4 .localhost])
      ((ofA QTYPE_A).parsed (ofA QTYPE_A).request)) := by
    rw [nxdomain_respond (.inl rfl) rfl]
    decide +kernel
  have hnx : Nxdomain (respond (fun _ => .ok [.v4 .localhost])
      ((ofA QTYPE_AAAA).parsed (ofA QTYPE_AAAA).request)) := by
    rw [nxdomain_respond (.inr rfl) rfl]
    decide +kernel
  exact ⟨_, _, (ofA QTYPE_A).asks_request.handleQuery _,
    (ofA QTYPE_AAAA).asks_request.handleQuery _, hno, hnx, fun h => hno (h.1.mpr hnx)⟩

/-! ## The size of a response -/

/-- The response fits the 512 bytes of a datagram, or says that it was cut short. -/
def Fits (response : List UInt8) : Prop :=
  response.length ≤ 512 ∨
    ∃ header rest, Dns.readHeader response = some (header, rest) ∧ header.tc = true

/-- ANCOUNT is the number of records behind the questions. -/
def Counted (response : List UInt8) : Prop :=
  ∃ header rest questions rest' n records,
    Dns.readHeader response = some (header, rest) ∧
      Dns.readMany (Dns.readQuestion response) header.qdcount.toNat rest =
        some (questions, rest') ∧
      Dns.readMany (Dns.readRecord response) n rest' = some (records, []) ∧
      header.ancount.toNat = n

/-- The size of the record of an address of the queried family. -/
def recordSize (qtype : UInt16) : ℕ := if qtype = QTYPE_AAAA then 28 else 16

theorem tc_responseFlags (rcode : UInt8) : (responseFlags rcode).toNat / 2 ^ 9 % 2 = 0 := by
  have hall : ∀ n : Fin 256, (responseFlags (UInt8.ofNat n)).toNat / 2 ^ 9 % 2 = 0 := by
    decide +kernel
  have hrcode := hall ⟨rcode.toNat, rcode.toNat_lt⟩
  rwa [UInt8.ofNat_toNat] at hrcode

/-- Every resolved address is of the queried family. -/
theorem isIpv6_of_mem_resolved {resolve : Resolver} {query : ParsedQuery} {ip : IpAddr}
    (h : ip ∈ resolved resolve query) : ip.isIpv6 = decide (query.qtype = QTYPE_AAAA) := by
  have hne : QTYPE_A ≠ QTYPE_AAAA := by decide
  unfold resolved at h
  split at h
  · split at h
    · rename_i hA
      have hip := (List.mem_filter.mp h).2
      simpa [hA, hne] using hip
    · split at h
      · rename_i hAAAA
        have hip := (List.mem_filter.mp h).2
        simpa [hAAAA] using hip
      · cases h
  · cases h

theorem length_answers {resolve : Resolver} {query : ParsedQuery} :
    ((resolved resolve query).flatMap (answer query.qtype)).length =
      recordSize query.qtype * (resolved resolve query).length := by
  have hone : ∀ ip ∈ resolved resolve query,
      (answer query.qtype ip).length = recordSize query.qtype := by
    intro ip hip
    rw [length_answer, isIpv6_of_mem_resolved hip, recordSize]
    simp
  rw [List.length_flatMap, List.map_congr_left hone]
  simp [Nat.mul_comm]

/-- The size of a response. -/
theorem length_respond (resolve : Resolver) (query : ParsedQuery) :
    (respond resolve query).length =
      12 + query.questionRaw.length + recordSize query.qtype * (resolved resolve query).length := by
  obtain ⟨rcode, hrespond⟩ := respond_eq resolve query
  rw [hrespond, buildResponse_eq, List.length_append, List.length_append,
    Dns.Header.length_bytes, length_answers, Nat.add_assoc]

/-- Nothing is ever said to be cut short. -/
theorem fits_respond {resolve : Resolver} {query : ParsedQuery} :
    Fits (respond resolve query) ↔ 12 + query.questionRaw.length +
      recordSize query.qtype * (resolved resolve query).length ≤ 512 := by
  rw [← length_respond, Fits]
  refine or_iff_left ?_
  rintro ⟨header, rest, hread, htc⟩
  obtain ⟨rcode, hrespond⟩ := respond_eq resolve query
  rw [hrespond, readHeader_buildResponse, Option.some.injEq, Prod.mk.injEq] at hread
  have hzero : header.flags.toNat / 2 ^ 9 % 2 = 0 := by
    rw [← hread.1]
    exact tc_responseFlags rcode
  have hone : header.flags.toNat / 2 ^ 9 % 2 = 1 := of_decide_eq_true htc
  omega

/-- The count is right as long as it fits its field. -/
theorem counted_respond {resolve : Resolver} {request : List UInt8} {query : ParsedQuery}
    (hquery : parseQuery request = .ok query) :
    Counted (respond resolve query) ↔ (resolved resolve query).length < 2 ^ 16 := by
  obtain ⟨question, -, -, hraw, -, hqtype, hname, hquestion⟩ := readQuestion_of_parseQuery hquery
  obtain ⟨rcode, hrespond⟩ := respond_eq resolve query
  generalize resolved resolve query = ips at hrespond
  generalize respond resolve query = msg at hrespond
  have hread := readHeader_buildResponse query.id query.questionRaw query.qtype rcode ips
  have hbytes := buildResponse_eq query.id query.questionRaw query.qtype rcode ips
  rw [← hrespond, hqtype] at hread hbytes
  have hone : Dns.readMany (Dns.readQuestion msg) 1
      (query.questionRaw ++ ips.flatMap (answer question.qtype)) =
        some ([question], ips.flatMap (answer question.qtype)) := by
    rw [Dns.readMany, hquestion]
    rfl
  have hrecords := readMany_answers hraw hname (Dns.Header.length_bytes _) hbytes
  have hancount : (UInt16.ofNat ips.length).toNat = ips.length ↔ ips.length < 2 ^ 16 := by
    rw [UInt16.toNat_ofNat']
    omega
  rw [← hancount]
  constructor
  · rintro ⟨header, rest, questions, rest', n, records, hread', hquestions, hmany, hn⟩
    rw [hread, Option.some.injEq, Prod.mk.injEq] at hread'
    obtain ⟨rfl, rfl⟩ := hread'
    obtain rfl : ips.flatMap (answer question.qtype) = rest' :=
      congrArg (·.2) (Option.some.inj (hone.symm.trans hquestions))
    rw [Dns.readMany_unique (Dns.readRecord_nil msg) hmany hrecords] at hn
    exact hn
  · intro h
    exact ⟨_, _, _, _, ips.length, _, hread, hone, hrecords, h⟩

/-- **A response fits just if it is short enough.**  For every request the parser
accepts and every result of the resolver: the datagram that is sent is at most 512 bytes
long or has TC set, and its ANCOUNT is the number of its records, just if the header,
the question and the records of all addresses of the queried family have room in 512
bytes; the count alone is right up to 65535 of them. -/
theorem fits_iff (resolve : Resolver) (request : List UInt8) (query : ParsedQuery)
    (hquery : parseQuery request = .ok query) (response : List UInt8)
    (hresponse : handleQuery resolve request = some response) :
    (Fits response ∧ Counted response ↔ 12 + query.questionRaw.length +
      recordSize query.qtype * (resolved resolve query).length ≤ 512) ∧
      (Counted response ↔ (resolved resolve query).length < 2 ^ 16) := by
  rw [handleQuery, hquery] at hresponse
  obtain rfl := Option.some.inj hresponse
  have hcounted : Counted (respond resolve query) ↔ _ := counted_respond hquery
  refine ⟨?_, hcounted⟩
  rw [fits_respond, hcounted]
  refine and_iff_left_of_imp ?_
  intro hle
  have hsize : 16 ≤ recordSize query.qtype := by
    unfold recordSize
    split <;> omega
  have hmul := Nat.mul_le_mul_right (resolved resolve query).length hsize
  omega

/-- Seventeen addresses are room enough for the name `a`. -/
theorem fits_seventeen : ∃ response,
    handleQuery (fun _ => .ok (List.replicate 17 (.v6 .localhost))) (ofA QTYPE_AAAA).request =
      some response ∧ Fits response ∧ Counted response := by
  have hresponse := (ofA QTYPE_AAAA).asks_request.handleQuery
    fun _ => .ok (List.replicate 17 (.v6 .localhost))
  exact ⟨_, hresponse, (fits_iff (fun _ => .ok (List.replicate 17 (.v6 .localhost))) _ _
    (ofA QTYPE_AAAA).asks_request.parseQuery _ hresponse).1.mpr (by decide +kernel)⟩

/-- With eighteen the datagram is longer, and does not say so. -/
theorem not_fits_eighteen : ∃ response,
    handleQuery (fun _ => .ok (List.replicate 18 (.v6 .localhost))) (ofA QTYPE_AAAA).request =
      some response ∧ response.length = 523 ∧ ¬ Fits response := by
  refine ⟨_, (ofA QTYPE_AAAA).asks_request.handleQuery _, ?_, ?_⟩
  · rw [length_respond]
    decide +kernel
  · rw [fits_respond]
    decide +kernel

end Anonet.Leakguard
