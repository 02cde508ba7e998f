import Anonet.Socks.Server

/-!
# The messages the front end accepts

What a well-formed client sends, as data that cannot be ill-formed, and the two
directions that tie the parser to it: every encoded message is accepted
(`negotiateMethod_encode`, `readConnectRequest_encode`), and every accepted
stream starts with an encoded message (`exists_negotiation`,
`exists_connectRequest`).  `readHandshake_eq_ok_iff` says both of the two
messages in turn.
-/

namespace Anonet.Socks

open Net Leakguard Session Bytes

/-! ## Length-prefixed fields -/

/-- A byte string that fits behind a one-byte length. -/
structure ShortBytes where
  bytes : List UInt8
  length_lt : bytes.length < 256

/-- A text whose UTF-8 encoding fits behind a one-byte length. -/
structure ShortText where
  text : String
  length_lt : (toUtf8 text).length < 256

/-- The length byte. -/
def ShortBytes.size (b : ShortBytes) : UInt8 := UInt8.ofNat b.bytes.length

def ShortBytes.encode (b : ShortBytes) : List UInt8 := b.size :: b.bytes

def ShortText.toBytes (t : ShortText) : ShortBytes := ⟨toUtf8 t.text, t.length_lt⟩

@[simp] theorem ShortBytes.toNat_size (b : ShortBytes) : b.size.toNat = b.bytes.length :=
  UInt8.toNat_ofNat_of_lt' b.length_lt

theorem ShortBytes.size_eq {b : ShortBytes} {n : UInt8} (h : b.bytes.length = n.toNat) :
    b.size = n := by
  rw [ShortBytes.size, h, UInt8.ofNat_toNat]

/-- What is read behind a length byte is some length-prefixed field. -/
theorem exists_shortBytes {n : UInt8} {bs : List UInt8} (h : bs.length = n.toNat) :
    ∃ b : ShortBytes, b.bytes = bs ∧ b.size = n :=
  ⟨⟨bs, h ▸ n.toNat_lt⟩, rfl, ShortBytes.size_eq h⟩

/-- A text is decoded from the field it is sent in. -/
theorem orFail_text (t : ShortText) (e : SessionError) :
    orFail e (fromUtf8 t.toBytes.bytes) = pure t.text := by
  rw [ShortText.toBytes, fromUtf8_toUtf8]
  rfl

/-- A field that decodes is that of a text. -/
theorem exists_shortText {b : ShortBytes} {s : String} (h : fromUtf8 b.bytes = some s) :
    ∃ t : ShortText, t.text = s ∧ t.toBytes = b := by
  obtain ⟨bytes, length_lt⟩ := b
  obtain rfl : toUtf8 s = bytes := toUtf8_of_fromUtf8 h
  exact ⟨⟨s, length_lt⟩, rfl, rfl⟩

section Field

variable {α : Type} {f : List UInt8 → Session α}

/-- Reading an encoded field hands its bytes on. -/
theorem run_readField_encode (b : ShortBytes) (rest : List UInt8) (hangup : Option ℕ)
    (events : List Event) :
    (do let len ← readByte; let bs ← readExact len.toNat; f bs : Session α).run
      ⟨b.encode ++ rest, hangup, events⟩ = (f b.bytes).run ⟨rest, hangup, events⟩ := by
  have hlen : readByte.run ⟨b.encode ++ rest, hangup, events⟩ =
      (.ok b.size, ⟨b.bytes ++ rest, hangup, events⟩) := run_readByte_eq_ok.mpr ⟨rfl, rfl⟩
  have hbs : (readExact b.size.toNat).run ⟨b.bytes ++ rest, hangup, events⟩ =
      (.ok b.bytes, ⟨rest, hangup, events⟩) := run_readExact_append b.toNat_size.symm hangup events
  rw [run_bind_of_ok hlen, run_bind_of_ok hbs]

/-- A field that was read was there, encoded. -/
theorem exists_field {c c' : Conn} {a : α}
    (h : (do let len ← readByte; let bs ← readExact len.toNat; f bs : Session α).run c =
      (.ok a, c')) :
    ∃ (b : ShortBytes) (c₁ : Conn), c.unread = b.encode ++ c₁.unread ∧
      c₁ = { c with unread := c₁.unread } ∧ (f b.bytes).run c₁ = (.ok a, c') := by
  rw [run_bind_eq_ok] at h
  obtain ⟨len, c₁, hlen, h⟩ := h
  rw [run_bind_eq_ok] at h
  obtain ⟨bs, c₂, hbs, h⟩ := h
  obtain ⟨hu, hc⟩ := run_readByte_eq_ok.mp hlen
  obtain ⟨hu', hl, hc'⟩ := run_readExact_eq_ok.mp hbs
  obtain ⟨b, rfl, hb⟩ := exists_shortBytes hl
  refine ⟨b, c₂, ?_, ?_, h⟩
  · rw [hu, hu', ← hb]
    rfl
  · rw [hc', hc]

end Field

/-! ## Negotiation -/

/-- What a client sends until the request: its method list, and the RFC 1929
message when it offered that method. -/
inductive Negotiation
  | userpass (methods : ShortBytes) (offers : methodUserpass ∈ methods.bytes)
      (username : ShortText) (password : ShortBytes)
  | noAuth (methods : ShortBytes) (offers : methodNoAuth ∈ methods.bytes)
      (declines : methodUserpass ∉ methods.bytes)

/-- The identity of a presented username, as the source computes it. -/
def identityOf : Option String → String
  | some username => if username.isEmpty then defaultIsolation else username
  | none => defaultIsolation

namespace Negotiation

def encode : Negotiation → List UInt8
  | .userpass methods _ username password =>
    socksVersion :: methods.encode ++
      (userpassVersion :: username.toBytes.encode ++ password.encode)
  | .noAuth methods _ _ => socksVersion :: methods.encode

/-- The username the client presents. -/
def presented : Negotiation → Option String
  | .userpass _ _ username _ => some username.text
  | .noAuth .. => none

/-- The isolation identity a client gets for the username it presents. -/
def identity (n : Negotiation) : String := identityOf n.presented

/-- What the server writes while it negotiates. -/
def answers : Negotiation → List (List UInt8)
  | .userpass .. => [[socksVersion, methodUserpass], [userpassVersion, userpassStatusOk]]
  | .noAuth .. => [[socksVersion, methodNoAuth]]

end Negotiation

/-- The RFC 1929 message is accepted, and its username alone decides the identity. -/
theorem readUserpassIdentity_encode (username : ShortText) (password : ShortBytes)
    (rest : List UInt8) (events : List Event) :
    readUserpassIdentity.run
      ⟨userpassVersion :: username.toBytes.encode ++ (password.encode ++ rest), none, events⟩ =
      (.ok (if username.text.isEmpty then defaultIsolation else username.text),
        ⟨rest, none, events ++ [.wrote [userpassVersion, userpassStatusOk]]⟩) := by
  have hver : readByte.run
      ⟨userpassVersion :: username.toBytes.encode ++ (password.encode ++ rest), none, events⟩ =
      (.ok userpassVersion, ⟨username.toBytes.encode ++ (password.encode ++ rest), none, events⟩) :=
    run_readByte_eq_ok.mpr ⟨rfl, rfl⟩
  rw [readUserpassIdentity, run_bind_of_ok hver,
    run_bind_of_ok (run_ensure rfl), run_readField_encode, run_readField_encode,
    run_bind_of_ok (run_writeAll_none _ _ _), orFail_text]
  rfl

theorem exists_userpass {c c' : Conn} {identity : String}
    (h : readUserpassIdentity.run c = (.ok identity, c')) :
    ∃ (username : ShortText) (password : ShortBytes),
      c.unread = userpassVersion :: username.toBytes.encode ++ (password.encode ++ c'.unread) ∧
      identity = if username.text.isEmpty then defaultIsolation else username.text := by
  rw [readUserpassIdentity, run_bind_eq_ok] at h
  obtain ⟨ver, c₁, hver, h⟩ := h
  obtain ⟨hu, -⟩ := run_readByte_eq_ok.mp hver
  rw [run_bind_eq_ok] at h
  obtain ⟨_, c₁, hver, h⟩ := h
  obtain ⟨rfl, rfl⟩ := run_ensure_eq_ok.mp hver
  replace h := exists_field h
  obtain ⟨uname, c₂, hun, -, h⟩ := h
  replace h := exists_field h
  obtain ⟨password, c₃, hpw, -, h⟩ := h
  rw [run_bind_eq_ok] at h
  obtain ⟨_, c₄, hw, h⟩ := h
  rw [run_bind_eq_ok] at h
  obtain ⟨name, c₅, hname, h⟩ := h
  obtain ⟨hutf8, rfl⟩ := run_orFail_eq_ok.mp hname
  obtain ⟨username, rfl, rfl⟩ := exists_shortText hutf8
  rw [run_pure, Prod.mk.injEq, Except.ok.injEq] at h
  obtain ⟨rfl, rfl⟩ := h
  refine ⟨username, password, ?_, rfl⟩
  rw [hu, hun, hpw, unread_of_writeAll hw, List.cons_append]

/-- **Every well-formed negotiation is accepted.** -/
theorem negotiateMethod_encode (n : Negotiation) (rest : List UInt8) (events : List Event) :
    negotiateMethod.run ⟨n.encode ++ rest, none, events⟩ =
      (.ok n.identity, ⟨rest, none, events ++ n.answers.map .wrote⟩) := by
  have hhdr : ∀ (m : ShortBytes) (tail : List UInt8),
      readBytes2.run ⟨socksVersion :: m.encode ++ tail, none, events⟩ =
        (.ok (socksVersion, m.size), ⟨m.bytes ++ tail, none, events⟩) :=
    fun m tail => run_readBytes2_eq_ok.mpr ⟨rfl, rfl⟩
  have hmethods : ∀ (m : ShortBytes) (tail : List UInt8),
      (readExact m.size.toNat).run ⟨m.bytes ++ tail, none, events⟩ =
        (.ok m.bytes, ⟨tail, none, events⟩) :=
    fun m tail => run_readExact_append m.toNat_size.symm none events
  cases n with
  | userpass methods offers username password =>
    have hstream : (Negotiation.userpass methods offers username password).encode ++ rest =
        socksVersion :: methods.encode ++
          (userpassVersion :: username.toBytes.encode ++ (password.encode ++ rest)) := by
      simp [Negotiation.encode]
    rw [hstream, negotiateMethod, run_bind_of_ok (hhdr _ _)]
    dsimp only
    rw [run_bind_of_ok (run_ensure rfl), run_bind_of_ok (hmethods _ _),
      if_pos offers, run_bind_of_ok (run_writeAll_none _ _ _), readUserpassIdentity_encode,
      List.append_assoc]
    rfl
  | noAuth methods offers declines =>
    rw [Negotiation.encode, negotiateMethod, run_bind_of_ok (hhdr _ _)]
    dsimp only
    rw [run_bind_of_ok (run_ensure rfl), run_bind_of_ok (hmethods _ _),
      if_neg declines, if_pos offers, run_bind_of_ok (run_writeAll_none _ _ _)]
    rfl

/-- **Every accepted negotiation is well-formed.** -/
theorem exists_negotiation {c c' : Conn} {identity : String}
    (h : negotiateMethod.run c = (.ok identity, c')) :
    ∃ n : Negotiation, c.unread = n.encode ++ c'.unread ∧ n.identity = identity := by
  rw [negotiateMethod, run_bind_eq_ok] at h
  obtain ⟨⟨ver, nmethods⟩, c₁, hhdr, h⟩ := h
  dsimp only at h
  obtain ⟨hu, -⟩ := run_readBytes2_eq_ok.mp hhdr
  rw [run_bind_eq_ok] at h
  obtain ⟨_, c₁, hver, h⟩ := h
  obtain ⟨rfl, rfl⟩ := run_ensure_eq_ok.mp hver
  rw [run_bind_eq_ok] at h
  obtain ⟨bs, c₂, hbs, h⟩ := h
  obtain ⟨hu', hl, -⟩ := run_readExact_eq_ok.mp hbs
  obtain ⟨methods, rfl, rfl⟩ := exists_shortBytes hl
  split at h
  · rename_i offers
    rw [run_bind_eq_ok] at h
    obtain ⟨_, c₃, hw, h⟩ := h
    obtain ⟨username, password, hup, hid⟩ := exists_userpass h
    refine ⟨.userpass methods offers username password, ?_, hid.symm⟩
    rw [hu, hu', ← unread_of_writeAll hw, hup]
    simp [Negotiation.encode, ShortBytes.encode]
  · rename_i declines
    split at h
    · rename_i offers
      rw [run_bind_eq_ok] at h
      obtain ⟨_, c₃, hw, h⟩ := h
      rw [run_pure, Prod.mk.injEq, Except.ok.injEq] at h
      refine ⟨.noAuth methods offers declines, ?_, h.1⟩
      rw [hu, hu', ← unread_of_writeAll hw, h.2]
      rfl
    · obtain ⟨_, c₃, -, h⟩ := run_bind_eq_ok.mp h
      exact absurd h (by simp)

/-- A stream starts with one negotiation only, as far as the server can tell. -/
theorem Negotiation.identity_eq {n n' : Negotiation} {rest rest' : List UInt8}
    (h : n.encode ++ rest = n'.encode ++ rest') : n.identity = n'.identity ∧ rest = rest' := by
  have hn := negotiateMethod_encode n rest []
  rw [h, negotiateMethod_encode n' rest' [], Prod.mk.injEq, Except.ok.injEq, Conn.mk.injEq] at hn
  exact ⟨hn.1.symm, hn.2.1.symm⟩

/-! ## The CONNECT request -/

/-- An address as a client writes it. -/
inductive Address
  | ipv4 (octets : List UInt8) (length_eq : octets.length = 4)
  | ipv6 (octets : List UInt8) (length_eq : octets.length = 16)
  | domain (name : ShortText)

namespace Address

def atyp : Address → UInt8
  | .ipv4 .. => atypIpv4
  | .ipv6 .. => atypIpv6
  | .domain _ => atypDomain

def payload : Address → List UInt8
  | .ipv4 octets _ => octets
  | .ipv6 octets _ => octets
  | .domain name => name.toBytes.encode

def destination : Address → Destination
  | .ipv4 octets _ => .Ip (.v4 (.ofOctets octets))
  | .ipv6 octets _ => .Ip (.v6 (.ofOctets octets))
  | .domain name => .Host name.text

end Address

structure ConnectRequest where
  rsv : UInt8
  address : Address
  port : UInt16

def ConnectRequest.encode (r : ConnectRequest) : List UInt8 :=
  socksVersion :: cmdConnect :: r.rsv :: r.address.atyp ::
    (r.address.payload ++ u16ToBe r.port)

theorem readAddress_payload (a : Address) (rest : List UInt8) (events : List Event) :
    (readAddress a.atyp).run ⟨a.payload ++ rest, none, events⟩ =
      (.ok a.destination, ⟨rest, none, events⟩) := by
  cases a with
  | ipv4 octets length_eq =>
    rw [readAddress, Address.atyp, if_pos rfl, Address.payload,
      run_bind_of_ok (run_readExact_append length_eq none events)]
    rfl
  | ipv6 octets length_eq =>
    rw [readAddress, Address.atyp, if_neg (by decide), if_pos rfl, Address.payload,
      run_bind_of_ok (run_readExact_append length_eq none events)]
    rfl
  | domain name =>
    rw [readAddress, Address.atyp, if_neg (by decide), if_neg (by decide), if_pos rfl,
      Address.payload, run_readField_encode, orFail_text]
    rfl

/-- An address of fixed length is read whole. -/
theorem exists_octets {α : Type} {n : ℕ} {f : List UInt8 → α} {c c' : Conn} {a : α}
    (h : (readExact n >>= fun buf => pure (f buf)).run c = (.ok a, c')) :
    ∃ buf : List UInt8, c.unread = buf ++ c'.unread ∧ buf.length = n ∧ f buf = a := by
  rw [run_bind_eq_ok] at h
  obtain ⟨buf, c₁, hbuf, h⟩ := h
  obtain ⟨hu, hl, -⟩ := run_readExact_eq_ok.mp hbuf
  rw [run_pure, Prod.mk.injEq, Except.ok.injEq] at h
  obtain ⟨rfl, rfl⟩ := h
  exact ⟨buf, hu, hl, rfl⟩

theorem exists_address {atyp : UInt8} {c c' : Conn} {dest : Destination}
    (h : (readAddress atyp).run c = (.ok dest, c')) :
    ∃ a : Address, a.atyp = atyp ∧ c.unread = a.payload ++ c'.unread ∧ a.destination = dest := by
  rw [readAddress] at h
  split at h
  · rename_i ht
    obtain ⟨buf, hu, hl, rfl⟩ := exists_octets h
    exact ⟨.ipv4 buf hl, ht.symm, hu, rfl⟩
  · split at h
    · rename_i ht
      obtain ⟨buf, hu, hl, rfl⟩ := exists_octets h
      exact ⟨.ipv6 buf hl, ht.symm, hu, rfl⟩
    · split at h
      · rename_i ht
        replace h := exists_field h
        obtain ⟨name, c₁, hu, -, h⟩ := h
        rw [run_bind_eq_ok] at h
        obtain ⟨host, c₂, hhost, h⟩ := h
        obtain ⟨hutf8, rfl⟩ := run_orFail_eq_ok.mp hhost
        obtain ⟨text, rfl, rfl⟩ := exists_shortText hutf8
        rw [run_pure, Prod.mk.injEq, Except.ok.injEq] at h
        obtain ⟨rfl, rfl⟩ := h
        exact ⟨.domain text, ht.symm, hu, rfl⟩
      · obtain ⟨_, c₁, -, h⟩ := run_bind_eq_ok.mp h
        exact absurd h (by simp)

/-- **Every well-formed request is accepted**, and nothing behind it is read. -/
theorem readConnectRequest_encode (r : ConnectRequest) (rest : List UInt8)
    (events : List Event) :
    readConnectRequest.run ⟨r.encode ++ rest, none, events⟩ =
      (.ok (r.address.destination, r.port), ⟨rest, none, events⟩) := by
  have hhdr : readBytes4.run ⟨r.encode ++ rest, none, events⟩ =
      (.ok (socksVersion, cmdConnect, r.rsv, r.address.atyp),
        ⟨r.address.payload ++ (u16ToBe r.port ++ rest), none, events⟩) :=
    run_readBytes4_eq_ok.mpr ⟨by simp [ConnectRequest.encode], rfl⟩
  have hport : readBytes2.run ⟨u16ToBe r.port ++ rest, none, events⟩ =
      (.ok (UInt8.ofNat (r.port.toNat / 256), UInt8.ofNat (r.port.toNat % 256)),
        ⟨rest, none, events⟩) := run_readBytes2_eq_ok.mpr ⟨rfl, rfl⟩
  rw [readConnectRequest, run_bind_of_ok hhdr]
  dsimp only
  rw [run_bind_of_ok (run_ensure rfl), if_pos rfl,
    run_bind_of_ok (readAddress_payload _ _ _), run_bind_of_ok hport, run_pure, u16FromBe_u16ToBe]

/-- **Every accepted request is well-formed.** -/
theorem exists_connectRequest {c c' : Conn} {dest : Destination} {port : UInt16}
    (h : readConnectRequest.run c = (.ok (dest, port), c')) :
    ∃ r : ConnectRequest, c.unread = r.encode ++ c'.unread ∧
      r.address.destination = dest ∧ r.port = port := by
  rw [readConnectRequest, run_bind_eq_ok] at h
  obtain ⟨⟨ver, cmd, rsv, atyp⟩, c₁, hhdr, h⟩ := h
  dsimp only at h
  obtain ⟨hu, -⟩ := run_readBytes4_eq_ok.mp hhdr
  rw [run_bind_eq_ok] at h
  obtain ⟨_, c₁, hver, h⟩ := h
  obtain ⟨rfl, rfl⟩ := run_ensure_eq_ok.mp hver
  split at h
  · rename_i hcmd
    rw [run_bind_eq_ok] at h
    obtain ⟨d, c₂, haddr, h⟩ := h
    obtain ⟨a, rfl, hu', rfl⟩ := exists_address haddr
    rw [run_bind_eq_ok] at h
    obtain ⟨⟨hi, lo⟩, c₃, hport, h⟩ := h
    obtain ⟨hu'', -⟩ := run_readBytes2_eq_ok.mp hport
    rw [run_pure, Prod.mk.injEq, Except.ok.injEq, Prod.mk.injEq] at h
    obtain ⟨⟨rfl, rfl⟩, rfl⟩ := h
    refine ⟨⟨rsv, a, u16FromBe hi lo⟩, ?_, rfl, rfl⟩
    rw [hu, hu', hu'', hcmd]
    simp [ConnectRequest.encode]
  · obtain ⟨_, c₂, -, h⟩ := run_bind_eq_ok.mp h
    exact absurd h (by simp)

/-! ## Both in turn -/

/-- The part of `handleConn` in front of the policy. -/
def readHandshake : Session (String × Destination × UInt16) := do
  let identity ← negotiateMethod
  let (dest, port) ← readConnectRequest
  pure (identity, dest, port)

theorem handleConn_eq (policy : LeakPolicy) (upstream : Upstream) :
    handleConn policy upstream = (do
      let (identity, dest, port) ← readHandshake
      forward policy upstream identity dest port) := by
  refine Session.ext_run fun c => ?_
  rw [handleConn, run_bind, readHandshake, run_bind, run_bind]
  rcases negotiateMethod.run c with ⟨e | identity, c₁⟩
  · rfl
  · dsimp only
    rw [run_bind, run_bind]
    rcases readConnectRequest.run c₁ with ⟨e | ⟨dest, port⟩, c₂⟩ <;> rfl

/-- A reply to a client that takes it; what becomes of the write is not looked at. -/
theorem run_sendReply_ok (rep : UInt8) (unread : List UInt8) (events : List Event) :
    (sendReply rep).ok.run ⟨unread, none, events⟩ =
      (.ok (some ()), ⟨unread, none, events ++ [.wrote (replyBytes rep)]⟩) :=
  run_ok_of_ok (run_writeAll_none _ _ _)

/-- With its writes accepted, a whole request reaches the policy. -/
theorem run_handleConn_encode (policy : LeakPolicy) (upstream : Upstream) (n : Negotiation)
    (r : ConnectRequest) (rest : List UInt8) :
    (handleConn policy upstream).run (.accepted (n.encode ++ (r.encode ++ rest)) none) =
      (forward policy upstream n.identity r.address.destination r.port).run
        ⟨rest, none, n.answers.map .wrote⟩ := by
  have hneg := negotiateMethod_encode n (r.encode ++ rest) []
  have hreq := readConnectRequest_encode r rest (n.answers.map .wrote)
  rw [List.nil_append] at hneg
  rw [handleConn, Conn.accepted, run_bind_of_ok hneg, run_bind_of_ok hreq]

/-- A handshake that was accepted was well-formed, whatever became of the writes. -/
theorem exists_handshake {c c' : Conn} {identity : String} {dest : Destination} {port : UInt16}
    (h : readHandshake.run c = (.ok (identity, dest, port), c')) :
    ∃ (n : Negotiation) (r : ConnectRequest), c.unread = n.encode ++ (r.encode ++ c'.unread) ∧
      n.identity = identity ∧ r.address.destination = dest ∧ r.port = port := by
  rw [readHandshake, run_bind_eq_ok] at h
  obtain ⟨_, c₁, hneg, h⟩ := h
  obtain ⟨n, hn, rfl⟩ := exists_negotiation hneg
  rw [run_bind_eq_ok] at h
  obtain ⟨⟨_, _⟩, c₂, hreq, h⟩ := h
  obtain ⟨r, hr, rfl, rfl⟩ := exists_connectRequest hreq
  rw [run_pure, Prod.mk.injEq, Except.ok.injEq, Prod.mk.injEq, Prod.mk.injEq] at h
  obtain ⟨⟨rfl, rfl, rfl⟩, rfl⟩ := h
  exact ⟨n, r, by rw [hn, hr], rfl, rfl, rfl⟩

/-- **The grammar, both ways.**  The two readers accept a stream, with an
identity, a destination and a port, and leave `rest` unread, if and only if the
stream is a negotiation and a request that encode these, followed by `rest`. -/
theorem readHandshake_eq_ok_iff (stream rest : List UInt8) (identity : String)
    (dest : Destination) (port : UInt16) :
    (∃ events, readHandshake.run (.accepted stream none) =
      (.ok (identity, dest, port), ⟨rest, none, events⟩)) ↔
    ∃ (n : Negotiation) (r : ConnectRequest), stream = n.encode ++ (r.encode ++ rest) ∧
      n.identity = identity ∧ r.address.destination = dest ∧ r.port = port := by
  constructor
  · rintro ⟨events, h⟩
    exact exists_handshake h
  · rintro ⟨n, r, rfl, rfl, rfl, rfl⟩
    have hneg := negotiateMethod_encode n (r.encode ++ rest) []
    have hreq := readConnectRequest_encode r rest ([] ++ n.answers.map .wrote)
    refine ⟨[] ++ n.answers.map .wrote, ?_⟩
    rw [readHandshake, Conn.accepted, run_bind_of_ok hneg, run_bind_of_ok hreq]
    rfl

end Anonet.Socks
