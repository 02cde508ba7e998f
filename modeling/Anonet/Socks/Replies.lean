import Anonet.Socks.Grammar

/-!
# What the client is told

The messages `handleConn` writes before it splices, against RFC 1928 and RFC 1929: which
method it selects, when it reports that an authentication succeeded, and that every
request is answered once.

* `RawRequest` — a request of version 5, whatever its command, its address type and the
  bytes of its name are.
* `Obeys` — the rules, for one byte stream.
* `obeys_iff` — **they are kept just if the stream presents no username and no domain
  name that is not UTF-8.**
-/

namespace Anonet.Socks

open Net Leakguard Session Bytes

/-! ## The rules -/

/-- What an event writes to the client. -/
def Event.written : Event → Option (List UInt8)
  | .wrote bytes => some bytes
  | _ => none

/-- The messages written, one for each `write_all`. -/
def written (events : List Event) : List (List UInt8) := events.filterMap Event.written

/-- What a session writes to a client that sends `stream` and takes all it gets. -/
def said (policy : LeakPolicy) (upstream : Upstream) (stream : List UInt8) : List (List UInt8) :=
  written ((handleConn policy upstream).run (.accepted stream none)).2.events

/-- An address of a request, whether or not its name is a text. -/
inductive RawAddress
  | ipv4 (octets : List UInt8) (length_eq : octets.length = 4)
  | ipv6 (octets : List UInt8) (length_eq : octets.length = 16)
  | domain (name : ShortBytes)
  /-- Nothing says how long it is. -/
  | unknown (atyp : UInt8) (ne : atyp ≠ atypIpv4 ∧ atyp ≠ atypIpv6 ∧ atyp ≠ atypDomain)

namespace RawAddress

def atyp : RawAddress → UInt8
  | .ipv4 .. => atypIpv4
  | .ipv6 .. => atypIpv6
  | .domain _ => atypDomain
  | .unknown atyp _ => atyp

/-- The address and the port; of an unknown type nothing can be told apart. -/
def encode (port : UInt16) : RawAddress → List UInt8
  | .ipv4 octets _ => octets ++ u16ToBe port
  | .ipv6 octets _ => octets ++ u16ToBe port
  | .domain name => name.encode ++ u16ToBe port
  | .unknown .. => []

/-- What it names, if it names anything. -/
def destination : RawAddress → Option Destination
  | .ipv4 octets _ => some (.Ip (.v4 (.ofOctets octets)))
  | .ipv6 octets _ => some (.Ip (.v6 (.ofOctets octets)))
  | .domain name => (fromUtf8 name.bytes).map .Host
  | .unknown .. => none

end RawAddress

/-- A request of version 5. -/
structure RawRequest where
  cmd : UInt8
  rsv : UInt8
  address : RawAddress
  port : UInt16

namespace RawRequest

def encode (r : RawRequest) : List UInt8 :=
  socksVersion :: r.cmd :: r.rsv :: r.address.atyp :: r.address.encode r.port

/-- The request is a CONNECT that passes the policy, and the upstream connect succeeds. -/
def Succeeds (policy : LeakPolicy) (upstream : Upstream) (identity : String) (r : RawRequest) :
    Prop :=
  r.cmd = cmdConnect ∧ ∃ dest, r.address.destination = some dest ∧ policy.check dest = .ok () ∧
    upstream (hostForConnect dest) r.port identity = .ok ()

end RawRequest

/-- **The rules**, for one byte stream. -/
structure Obeys (policy : LeakPolicy) (upstream : Upstream) (stream : List UInt8) : Prop where
  /-- The selected method was offered, or is `0xFF`. -/
  method : ∀ message, (said policy upstream stream).head? = some message →
    ∃ (methods : ShortBytes) (rest : List UInt8) (m : UInt8),
      stream = socksVersion :: methods.encode ++ rest ∧ message = [socksVersion, m] ∧
        (m ∈ methods.bytes ∨ m = methodNoneAcceptable)
  /-- An authentication succeeds only if its identity is accepted. -/
  status : [userpassVersion, userpassStatusOk] ∈ said policy upstream stream →
    ∃ identity c, negotiateMethod.run (.accepted stream none) = (.ok identity, c)
  /-- Behind an accepted negotiation a request gets one reply, which reports a success
  just if there is one. -/
  reply : ∀ identity c, negotiateMethod.run (.accepted stream none) = (.ok identity, c) →
    ∀ (r : RawRequest) (rest : List UInt8), c.unread = r.encode ++ rest →
      ∃ rep, said policy upstream stream = written c.events ++ [replyBytes rep] ∧
        (rep = repSuccess ↔ r.Succeeds policy upstream identity)

/-- The stream selects username and password, and sends a username that is not UTF-8. -/
def BadUsername (stream : List UInt8) : Prop :=
  ∃ (methods username password : ShortBytes) (rest : List UInt8),
    methodUserpass ∈ methods.bytes ∧
      stream = socksVersion :: methods.encode ++
        (userpassVersion :: username.encode ++ (password.encode ++ rest)) ∧
      fromUtf8 username.bytes = none

/-- Behind a negotiation, the stream sends a CONNECT for a name that is not UTF-8. -/
def BadDomain (stream : List UInt8) : Prop :=
  ∃ (n : Negotiation) (rsv : UInt8) (name : ShortBytes) (port : UInt16) (rest : List UInt8),
    stream = n.encode ++ ((RawRequest.mk cmdConnect rsv (.domain name) port).encode ++ rest) ∧
      fromUtf8 name.bytes = none

/-! ## Reading says nothing -/

/-- The computation does nothing to the client. -/
def Silent {α : Type} (x : Session α) : Prop :=
  ∀ c, (x.run c).2.events = c.events ∧ (x.run c).2.hangup = c.hangup

section Silent

variable {α : Type}

theorem silent_pure (a : α) : Silent (pure a) := fun _ => ⟨rfl, rfl⟩

theorem silent_fail (e : SessionError) : Silent (fail e : Session α) := fun _ => ⟨rfl, rfl⟩

theorem silent_readExact (n : ℕ) : Silent (readExact n) := by
  intro c
  rw [run_readExact]
  split <;> exact ⟨rfl, rfl⟩

theorem Silent.bind {β : Type} {x : Session α} {f : α → Session β} (hx : Silent x)
    (hf : ∀ a, Silent (f a)) : Silent (x >>= f) := by
  intro c
  obtain ⟨hevents, hhangup⟩ := hx c
  rcases h : x.run c with ⟨e | a, c₁⟩
  · rw [run_bind_of_error h]
    rw [h] at hevents hhangup
    exact ⟨hevents, hhangup⟩
  · rw [run_bind_of_ok h]
    rw [h] at hevents hhangup
    obtain ⟨hevents', hhangup'⟩ := hf a c₁
    exact ⟨hevents'.trans hevents, hhangup'.trans hhangup⟩

theorem silent_readByte : Silent readByte := (silent_readExact 1).bind fun _ => silent_pure _

theorem silent_readBytes2 : Silent readBytes2 := (silent_readExact 2).bind fun _ => silent_pure _

theorem silent_ensure (p : Prop) [Decidable p] (e : SessionError) : Silent (ensure p e) := by
  unfold ensure
  split
  · exact silent_pure ()
  · exact silent_fail e

/-- A sequence that fails does so silently in its first part, or in its second. -/
theorem Silent.of_error {β : Type} {x : Session α} (hx : Silent x) {f : α → Session β}
    {c c' : Conn} {e : SessionError} (h : (x >>= f).run c = (.error e, c')) :
    c'.events = c.events ∨ ∃ a c₁, x.run c = (.ok a, c₁) ∧
      c₁.hangup = c.hangup ∧ c₁.events = c.events ∧ (f a).run c₁ = (.error e, c') := by
  obtain ⟨hevents, hhangup⟩ := hx c
  rcases hrun : x.run c with ⟨e' | a, c₁⟩
  · rw [run_bind_of_error hrun, Prod.mk.injEq] at h
    rw [hrun] at hevents
    exact .inl (h.2 ▸ hevents)
  · rw [run_bind_of_ok hrun] at h
    rw [hrun] at hevents hhangup
    exact .inr ⟨a, c₁, rfl, hhangup, hevents, h⟩

end Silent

/-! ## The negotiation on every stream -/

section Negotiation

variable {c c' : Conn} {e : SessionError}

/-- A write to a client that takes it. -/
theorem run_writeAll_of_none (bytes : List UInt8) (h : c.hangup = none) :
    (writeAll bytes).run c = (.ok (), ⟨c.unread, none, c.events ++ [.wrote bytes]⟩) := by
  rw [run_writeAll, h]

/-- A field that was read, byte for byte. -/
theorem exists_shortBytes_of_read {c₁ c₂ : Conn} {len : UInt8} {bs : List UInt8}
    (hlen : readByte.run c = (.ok len, c₁)) (hbs : (readExact len.toNat).run c₁ = (.ok bs, c₂)) :
    ∃ b : ShortBytes, b.bytes = bs ∧ c.unread = b.encode ++ c₂.unread := by
  obtain ⟨hu, -⟩ := run_readByte_eq_ok.mp hlen
  obtain ⟨hu', hl, -⟩ := run_readExact_eq_ok.mp hbs
  obtain ⟨b, rfl, hb⟩ := exists_shortBytes hl
  refine ⟨b, rfl, ?_⟩
  rw [hu, hu', ← hb]
  rfl

/-- The subnegotiation fails before it says anything, or after it reported a success for
a username that is not UTF-8. -/
theorem userpass_error (hc : c.hangup = none)
    (h : readUserpassIdentity.run c = (.error e, c')) :
    c'.events = c.events ∨ c'.events = c.events ++ [.wrote [userpassVersion, userpassStatusOk]] ∧
      ∃ (username password : ShortBytes) (rest : List UInt8),
        c.unread = userpassVersion :: username.encode ++ (password.encode ++ rest) ∧
          fromUtf8 username.bytes = none := by
  rw [readUserpassIdentity] at h
  rcases silent_readByte.of_error h with hsame | ⟨ver, c₁, hver, hnone₁, hevents₁, h⟩
  · exact .inl hsame
  obtain ⟨hu, -⟩ := run_readByte_eq_ok.mp hver
  rcases (silent_ensure _ _).of_error h with hsame | ⟨_, c₂, hensure, -, -, h⟩
  · exact .inl (hsame.trans hevents₁)
  obtain ⟨rfl, rfl⟩ := run_ensure_eq_ok.mp hensure
  rcases silent_readByte.of_error h with hsame | ⟨ulen, c₃, hulen, hnone₃, hevents₃, h⟩
  · exact .inl (hsame.trans hevents₁)
  rcases (silent_readExact _).of_error h with hsame | ⟨uname, c₄, huname, hnone₄, hevents₄, h⟩
  · exact .inl (hsame.trans (hevents₃.trans hevents₁))
  rcases silent_readByte.of_error h with hsame | ⟨plen, c₅, hplen, hnone₅, hevents₅, h⟩
  · exact .inl (hsame.trans (hevents₄.trans (hevents₃.trans hevents₁)))
  rcases (silent_readExact _).of_error h with hsame | ⟨passwd, c₆, hpasswd, hnone₆, hevents₆, h⟩
  · exact .inl (hsame.trans (hevents₅.trans (hevents₄.trans (hevents₃.trans hevents₁))))
  obtain ⟨username, rfl, husername⟩ := exists_shortBytes_of_read hulen huname
  obtain ⟨password, rfl, hpassword⟩ := exists_shortBytes_of_read hplen hpasswd
  have hnone : c₆.hangup = none := by
    rw [hnone₆, hnone₅, hnone₄, hnone₃, hnone₁, hc]
  have hevents : c₆.events = c.events := by
    rw [hevents₆, hevents₅, hevents₄, hevents₃, hevents₁]
  rw [run_bind_of_ok (run_writeAll_of_none _ hnone)] at h
  cases hutf8 : fromUtf8 username.bytes with
  | some text =>
    -- the rest of the subnegotiation cannot fail
    rw [hutf8] at h
    cases h
  | none =>
    rw [hutf8] at h
    cases h
    refine .inr ⟨by rw [hevents], username, password, c₆.unread, ?_, hutf8⟩
    rw [hu, husername, hpassword]
    rfl

/-- What was said when a negotiation fails. -/
theorem negotiate_error {stream : List UInt8}
    (h : negotiateMethod.run (.accepted stream none) = (.error e, c')) :
    c'.events = [] ∨ ∃ (methods : ShortBytes) (rest : List UInt8) (m : UInt8),
      stream = socksVersion :: methods.encode ++ rest ∧
        (m ∈ methods.bytes ∨ m = methodNoneAcceptable) ∧
        (c'.events = [.wrote [socksVersion, m]] ∨
          c'.events = [.wrote [socksVersion, m], .wrote [userpassVersion, userpassStatusOk]] ∧
            BadUsername stream) := by
  rw [negotiateMethod] at h
  rcases silent_readBytes2.of_error h with hsame | ⟨⟨ver, nmethods⟩, c₁, hhdr, hnone₁, hevents₁, h₁⟩
  · exact .inl hsame
  obtain ⟨hu, -⟩ := run_readBytes2_eq_ok.mp hhdr
  dsimp only at h₁
  rcases (silent_ensure _ _).of_error h₁ with hsame | ⟨_, c₂, hensure, -, -, h₂⟩
  · exact .inl (hsame.trans hevents₁)
  obtain ⟨rfl, rfl⟩ := run_ensure_eq_ok.mp hensure
  rcases (silent_readExact _).of_error h₂ with hsame | ⟨bs, c₃, hbs, hnone₃, hevents₃, h₃⟩
  · exact .inl (hsame.trans hevents₁)
  obtain ⟨hu', hl, -⟩ := run_readExact_eq_ok.mp hbs
  obtain ⟨methods, rfl, rfl⟩ := exists_shortBytes hl
  have hstream : stream = socksVersion :: methods.encode ++ c₃.unread := by
    rw [← show (Conn.accepted stream none).unread = stream from rfl, hu, hu']
    rfl
  have hnone : c₃.hangup = none := by
    rw [hnone₃, hnone₁]
    rfl
  have hevents : c₃.events = [] := by
    rw [hevents₃, hevents₁]
    rfl
  split at h₃
  · rename_i offers
    rw [run_bind_of_ok (run_writeAll_of_none _ hnone), hevents] at h₃
    refine .inr ⟨methods, c₃.unread, methodUserpass, hstream, .inl offers, ?_⟩
    rcases userpass_error rfl h₃ with hsame | ⟨hsaid, username, password, rest, hrest, hutf8⟩
    · exact .inl hsame
    · refine .inr ⟨hsaid, methods, username, password, rest, offers, ?_, hutf8⟩
      rw [hstream]
      exact congrArg (socksVersion :: methods.encode ++ ·) hrest
  · split at h₃
    · -- without authentication the negotiation succeeds
      rw [run_bind_of_ok (run_writeAll_of_none _ hnone)] at h₃
      cases h₃
    · rw [run_bind_of_ok (run_writeAll_of_none _ hnone), hevents] at h₃
      cases h₃
      exact .inr ⟨methods, c₃.unread, methodNoneAcceptable, hstream, .inr rfl, .inl rfl⟩

end Negotiation

/-- A negotiation that succeeds has been answered, and nothing else has been said. -/
theorem exists_answered {stream : List UInt8} {identity : String} {c : Conn}
    (h : negotiateMethod.run (.accepted stream none) = (.ok identity, c)) :
    ∃ n : Negotiation, stream = n.encode ++ c.unread ∧ n.identity = identity ∧
      c = ⟨c.unread, none, n.answers.map .wrote⟩ := by
  obtain ⟨n, hn, rfl⟩ := exists_negotiation h
  refine ⟨n, hn, rfl, ?_⟩
  have hstream : Conn.accepted stream none = ⟨n.encode ++ c.unread, none, []⟩ := by
    rw [← hn]
    rfl
  rw [hstream, negotiateMethod_encode, Prod.mk.injEq] at h
  exact h.2.symm

/-! ## One reply for every request -/

@[simp] theorem written_append (as bs : List Event) :
    written (as ++ bs) = written as ++ written bs := List.filterMap_append

@[simp] theorem written_nil : written [] = [] := rfl

@[simp] theorem written_wrote (bytes : List UInt8) (events : List Event) :
    written (.wrote bytes :: events) = bytes :: written events := rfl

@[simp] theorem written_connect (host : String) (port : UInt16) (identity : String)
    (events : List Event) : written (.connect host port identity :: events) = written events := rfl

@[simp] theorem written_splice (events : List Event) :
    written (.splice :: events) = written events := rfl

section Reply

variable {policy : LeakPolicy} {upstream : Upstream} {identity : String}

/-- An address that names something is well-formed. -/
theorem exists_address_of_destination {a : RawAddress} {dest : Destination}
    (h : a.destination = some dest) :
    ∃ a' : Address, a'.atyp = a.atyp ∧ a'.destination = dest ∧
      ∀ port, a'.payload ++ u16ToBe port = a.encode port := by
  cases a with
  | ipv4 octets length_eq => exact ⟨.ipv4 octets length_eq, rfl, Option.some.inj h, fun _ => rfl⟩
  | ipv6 octets length_eq => exact ⟨.ipv6 octets length_eq, rfl, Option.some.inj h, fun _ => rfl⟩
  | domain name =>
    obtain ⟨text, hutf8, rfl⟩ := Option.map_eq_some_iff.mp h
    obtain ⟨name', rfl, rfl⟩ := exists_shortText hutf8
    exact ⟨.domain name', rfl, rfl, fun _ => rfl⟩
  | unknown atyp ne => cases h

/-- A request that names something is read. -/
theorem readConnectRequest_of_destination {r : RawRequest} {dest : Destination}
    (hcmd : r.cmd = cmdConnect) (h : r.address.destination = some dest) (rest : List UInt8)
    (events : List Event) :
    readConnectRequest.run ⟨r.encode ++ rest, none, events⟩ =
      (.ok (dest, r.port), ⟨rest, none, events⟩) := by
  obtain ⟨a, hatyp, rfl, hpayload⟩ := exists_address_of_destination h
  have hencode : r.encode = (ConnectRequest.mk r.rsv a r.port).encode := by
    rw [RawRequest.encode, ConnectRequest.encode, hcmd, hatyp, hpayload]
  rw [hencode]
  exact readConnectRequest_encode _ rest events

/-- The header of a request is read. -/
theorem run_readBytes4_encode (r : RawRequest) (rest : List UInt8) (events : List Event) :
    readBytes4.run ⟨r.encode ++ rest, none, events⟩ =
      (.ok (socksVersion, r.cmd, r.rsv, r.address.atyp),
        ⟨r.address.encode r.port ++ rest, none, events⟩) :=
  run_readBytes4_eq_ok.mpr ⟨rfl, rfl⟩

/-- A request for anything but CONNECT is answered so. -/
theorem readConnectRequest_of_cmd {r : RawRequest} (hcmd : r.cmd ≠ cmdConnect)
    (rest : List UInt8) (events : List Event) :
    ∃ e c, readConnectRequest.run ⟨r.encode ++ rest, none, events⟩ = (.error e, c) ∧
      c.events = events ++ [.wrote (replyBytes repCmdNotSupported)] := by
  refine ⟨.unsupportedCommand r.cmd, ⟨r.address.encode r.port ++ rest, none,
    events ++ [.wrote (replyBytes repCmdNotSupported)]⟩, ?_, rfl⟩
  rw [readConnectRequest, run_bind_of_ok (run_readBytes4_encode r rest events)]
  dsimp only
  rw [run_bind_of_ok (run_ensure rfl), if_neg hcmd,
    run_bind_of_ok (run_sendReply_ok _ _ _), run_fail]

/-- So is one for an address of an unknown type. -/
theorem readConnectRequest_of_unknown {r : RawRequest} {atyp : UInt8}
    {ne : atyp ≠ atypIpv4 ∧ atyp ≠ atypIpv6 ∧ atyp ≠ atypDomain} (hcmd : r.cmd = cmdConnect)
    (h : r.address = .unknown atyp ne) (rest : List UInt8) (events : List Event) :
    ∃ e c, readConnectRequest.run ⟨r.encode ++ rest, none, events⟩ = (.error e, c) ∧
      c.events = events ++ [.wrote (replyBytes repAtypNotSupported)] := by
  have hatyp : r.address.atyp = atyp := by
    rw [h]
    rfl
  refine ⟨.unsupportedAddressType atyp, ⟨r.address.encode r.port ++ rest, none,
    events ++ [.wrote (replyBytes repAtypNotSupported)]⟩, ?_, rfl⟩
  rw [readConnectRequest, run_bind_of_ok (run_readBytes4_encode r rest events)]
  dsimp only
  rw [run_bind_of_ok (run_ensure rfl), if_pos hcmd, run_bind, readAddress, hatyp, if_neg ne.1,
    if_neg ne.2.1, if_neg ne.2.2, run_bind_of_ok (run_sendReply_ok _ _ _), run_fail]

/-- A request for a name that is not UTF-8 is not answered at all. -/
theorem readConnectRequest_of_badName {r : RawRequest} {name : ShortBytes}
    (hcmd : r.cmd = cmdConnect) (h : r.address = .domain name) (hutf8 : fromUtf8 name.bytes = none)
    (rest : List UInt8) (events : List Event) :
    ∃ e c, readConnectRequest.run ⟨r.encode ++ rest, none, events⟩ = (.error e, c) ∧
      c.events = events := by
  have hatyp : r.address.atyp = atypDomain := by
    rw [h]
    rfl
  have hencode : r.address.encode r.port ++ rest = name.encode ++ (u16ToBe r.port ++ rest) := by
    rw [h, RawAddress.encode, List.append_assoc]
  refine ⟨.domainNotUtf8, ⟨u16ToBe r.port ++ rest, none, events⟩, ?_, rfl⟩
  rw [readConnectRequest, run_bind_of_ok (run_readBytes4_encode r rest events)]
  dsimp only
  rw [run_bind_of_ok (run_ensure rfl), if_pos hcmd, run_bind, readAddress, hatyp,
    if_neg (by decide), if_neg (by decide), if_pos rfl, hencode, run_readField_encode, hutf8]
  rfl

variable (policy upstream identity) in
/-- Behind the parsing there is one reply, which tells whether the policy and the
upstream said yes. -/
theorem written_forward (dest : Destination) (port : UInt16) (rest : List UInt8)
    (events : List Event) :
    ∃ rep, written ((forward policy upstream identity dest port).run ⟨rest, none, events⟩).2.events =
        written events ++ [replyBytes rep] ∧
      (rep = repSuccess ↔ policy.check dest = .ok () ∧
        upstream (hostForConnect dest) port identity = .ok ()) := by
  unfold forward
  cases hcheck : policy.check dest with
  | error violation =>
    refine ⟨repConnNotAllowed, ?_, iff_of_false (by decide) (by simp)⟩
    dsimp only
    rw [run_bind_of_ok (run_sendReply_ok _ _ _), run_fail]
    simp
  | ok u =>
    dsimp only
    cases hup : upstream (hostForConnect dest) port identity with
    | error message =>
      refine ⟨repGeneralFailure, ?_, iff_of_false (by decide) (by simp)⟩
      dsimp only
      rw [run_bind_of_ok (run_emit _ _), run_bind_of_ok (run_sendReply_ok _ _ _), run_fail]
      simp
    | ok u =>
      refine ⟨repSuccess, ?_, iff_of_true rfl ⟨rfl, rfl⟩⟩
      rw [run_bind_of_ok (run_emit _ _)]
      dsimp only
      rw [sendReply, run_bind_of_ok (run_writeAll_none _ _ _), run_emit]
      simp

/-- What a session says if its request cannot be read. -/
theorem said_of_unread {stream : List UInt8} {c c' : Conn} {e : SessionError}
    (h : negotiateMethod.run (.accepted stream none) = (.ok identity, c))
    (hreq : readConnectRequest.run c = (.error e, c')) :
    said policy upstream stream = written c'.events := by
  rw [said, handleConn, run_bind_of_ok h, run_bind_of_error hreq]

/-- What a session says once its request is read. -/
theorem said_of_read {stream : List UInt8} {c c' : Conn} {dest : Destination} {port : UInt16}
    (h : negotiateMethod.run (.accepted stream none) = (.ok identity, c))
    (hreq : readConnectRequest.run c = (.ok (dest, port), c')) :
    said policy upstream stream =
      written ((forward policy upstream identity dest port).run c').2.events := by
  rw [said, handleConn, run_bind_of_ok h, run_bind_of_ok hreq]

variable (policy upstream) in
/-- What was said in the negotiation is said first. -/
theorem exists_said {stream : List UInt8} {c : Conn}
    (h : negotiateMethod.run (.accepted stream none) = (.ok identity, c)) :
    ∃ later, said policy upstream stream = written c.events ++ later := by
  obtain ⟨n, -, -, hc⟩ := exists_answered h
  rcases hreq : readConnectRequest.run c with ⟨e | ⟨dest, port⟩, c'⟩
  · obtain ⟨ws, hws⟩ := quiet_readConnectRequest c
    rw [hreq] at hws
    refine ⟨written (ws.map .wrote), ?_⟩
    rw [said_of_unread h hreq, hws, written_append]
  · obtain ⟨r, hr, rfl, rfl⟩ := exists_connectRequest hreq
    have hrun := readConnectRequest_encode r c'.unread c.events
    have hc' : c = ⟨r.encode ++ c'.unread, none, c.events⟩ := by
      rw [← hr, hc]
    rw [← hc', hreq, Prod.mk.injEq] at hrun
    obtain ⟨rep, hwritten, -⟩ := written_forward policy upstream identity r.address.destination
      r.port c'.unread c.events
    rw [said_of_read h hreq, hrun.2]
    exact ⟨_, hwritten⟩

/-- A request that is answered at all is answered once. -/
theorem reply_of_negotiated {stream : List UInt8} {c : Conn}
    (h : negotiateMethod.run (.accepted stream none) = (.ok identity, c)) (r : RawRequest)
    (rest : List UInt8) (hr : c.unread = r.encode ++ rest)
    (hname : ∀ name, r.cmd = cmdConnect → r.address = .domain name → fromUtf8 name.bytes ≠ none) :
    ∃ rep, said policy upstream stream = written c.events ++ [replyBytes rep] ∧
      (rep = repSuccess ↔ r.Succeeds policy upstream identity) := by
  obtain ⟨n, -, -, hc⟩ := exists_answered h
  rw [hr] at hc
  generalize n.answers.map Event.wrote = events at hc
  subst hc
  by_cases hcmd : r.cmd = cmdConnect
  · cases hdest : r.address.destination with
    | some dest =>
      have hread := readConnectRequest_of_destination hcmd hdest rest events
      obtain ⟨rep, hwritten, hrep⟩ :=
        written_forward policy upstream identity dest r.port rest events
      refine ⟨rep, (said_of_read h hread).trans hwritten, hrep.trans ?_⟩
      constructor
      · rintro ⟨hcheck, hup⟩
        exact ⟨hcmd, dest, hdest, hcheck, hup⟩
      · rintro ⟨-, dest', hdest', hcheck, hup⟩
        obtain rfl := Option.some.inj (hdest.symm.trans hdest')
        exact ⟨hcheck, hup⟩
    | none =>
      have hno : ¬ r.Succeeds policy upstream identity := by
        rintro ⟨-, dest, hdest', -⟩
        exact absurd (hdest.symm.trans hdest') (by simp)
      cases haddr : r.address with
      | ipv4 octets length_eq =>
        rw [haddr] at hdest
        cases hdest
      | ipv6 octets length_eq =>
        rw [haddr] at hdest
        cases hdest
      | domain name =>
        rw [haddr] at hdest
        exact absurd (Option.map_eq_none_iff.mp hdest) (hname name hcmd haddr)
      | unknown atyp ne =>
        obtain ⟨e, c', hrun, hevents⟩ := readConnectRequest_of_unknown hcmd haddr rest events
        refine ⟨repAtypNotSupported, ?_, iff_of_false (by decide) hno⟩
        rw [said_of_unread h hrun, hevents]
        simp
  · obtain ⟨e, c', hrun, hevents⟩ := readConnectRequest_of_cmd hcmd rest events
    refine ⟨repCmdNotSupported, ?_, iff_of_false (by decide) fun hyes => hcmd hyes.1⟩
    rw [said_of_unread h hrun, hevents]
    simp

end Reply

/-! ## When the rules are kept -/

section Obeys

variable {policy : LeakPolicy} {upstream : Upstream} {stream : List UInt8}

/-- A username that is not UTF-8 is told that it was accepted. -/
theorem negotiate_of_badUsername (h : BadUsername stream) :
    ∃ e c, negotiateMethod.run (.accepted stream none) = (.error e, c) ∧
      Event.wrote [userpassVersion, userpassStatusOk] ∈ c.events := by
  obtain ⟨methods, username, password, rest, offers, rfl, hutf8⟩ := h
  refine ⟨.usernameNotUtf8, ⟨rest, none, [.wrote [socksVersion, methodUserpass],
    .wrote [userpassVersion, userpassStatusOk]]⟩, ?_, by simp⟩
  have hhdr : readBytes2.run (.accepted (socksVersion :: methods.encode ++
      (userpassVersion :: username.encode ++ (password.encode ++ rest))) none) =
      (.ok (socksVersion, methods.size), ⟨methods.bytes ++
        (userpassVersion :: username.encode ++ (password.encode ++ rest)), none, []⟩) :=
    run_readBytes2_eq_ok.mpr ⟨rfl, rfl⟩
  have hver : readByte.run ⟨userpassVersion :: username.encode ++ (password.encode ++ rest), none,
      [.wrote [socksVersion, methodUserpass]]⟩ =
      (.ok userpassVersion, ⟨username.encode ++ (password.encode ++ rest), none,
        [.wrote [socksVersion, methodUserpass]]⟩) :=
    run_readByte_eq_ok.mpr ⟨rfl, rfl⟩
  rw [negotiateMethod, run_bind_of_ok hhdr]
  dsimp only
  rw [run_bind_of_ok (run_ensure rfl),
    run_bind_of_ok (run_readExact_append methods.toNat_size.symm none []), if_pos offers,
    run_bind_of_ok (run_writeAll_none _ _ _), List.nil_append, readUserpassIdentity,
    run_bind_of_ok hver, run_bind_of_ok (run_ensure rfl), run_readField_encode,
    run_readField_encode, run_bind_of_ok (run_writeAll_none _ _ _), hutf8]
  rfl

/-- What a session says if its negotiation fails. -/
theorem said_of_error {e : SessionError} {c : Conn}
    (h : negotiateMethod.run (.accepted stream none) = (.error e, c)) :
    said policy upstream stream = written c.events := by
  rw [said, handleConn, run_bind_of_error h]

/-- **The exact condition.**  Whatever the policy and the upstream say, what a session
writes to a client obeys the rules if and only if the client sends no username that is
not UTF-8, and no CONNECT for a name that is not. -/
theorem obeys_iff (policy : LeakPolicy) (upstream : Upstream) (stream : List UInt8) :
    Obeys policy upstream stream ↔ ¬ BadUsername stream ∧ ¬ BadDomain stream := by
  constructor
  · intro h
    refine ⟨?_, ?_⟩
    · intro hbad
      obtain ⟨e, c, hrun, hmem⟩ := negotiate_of_badUsername hbad
      obtain ⟨identity, c', hok⟩ := h.status (by
        rw [said_of_error hrun]
        exact List.mem_filterMap.mpr ⟨_, hmem, rfl⟩)
      exact absurd (hrun.symm.trans hok) (by simp)
    · rintro ⟨n, rsv, name, port, rest, rfl, hutf8⟩
      have hneg := negotiateMethod_encode n
        ((RawRequest.mk cmdConnect rsv (.domain name) port).encode ++ rest) []
      obtain ⟨rep, hsaid, -⟩ := h.reply _ _ hneg _ rest rfl
      obtain ⟨e, c, hrun, hevents⟩ := readConnectRequest_of_badName
        (r := ⟨cmdConnect, rsv, .domain name, port⟩) rfl rfl hutf8 rest
        ([] ++ n.answers.map Event.wrote)
      rw [said_of_unread hneg hrun, hevents] at hsaid
      exact absurd (congrArg List.length hsaid) (by simp)
  · rintro ⟨husername, hdomain⟩
    refine ⟨?_, ?_, ?_⟩
    · intro message hmessage
      rcases hneg : negotiateMethod.run (.accepted stream none) with ⟨e | identity, c⟩
      · rw [said_of_error hneg] at hmessage
        rcases negotiate_error hneg with hnone | ⟨methods, rest, m, hstream, hm, hsaid⟩
        · rw [hnone] at hmessage
          cases hmessage
        · refine ⟨methods, rest, m, hstream, ?_, hm⟩
          rcases hsaid with hsaid | ⟨hsaid, -⟩
          · rw [hsaid] at hmessage
            exact (Option.some.inj hmessage).symm
          · rw [hsaid] at hmessage
            exact (Option.some.inj hmessage).symm
      · obtain ⟨n, hn, -, hc⟩ := exists_answered hneg
        obtain ⟨later, hsaid⟩ := exists_said policy upstream hneg
        rw [hsaid, hc] at hmessage
        cases n with
        | userpass methods offers username password =>
          refine ⟨methods, userpassVersion :: username.toBytes.encode ++ password.encode ++ c.unread,
            methodUserpass, ?_, (Option.some.inj hmessage).symm, .inl offers⟩
          rw [hn, Negotiation.encode, List.append_assoc]
        | noAuth methods offers declines =>
          exact ⟨methods, c.unread, methodNoAuth, hn, (Option.some.inj hmessage).symm,
            .inl offers⟩
    · intro hmem
      rcases hneg : negotiateMethod.run (.accepted stream none) with ⟨e | identity, c⟩
      · rw [said_of_error hneg] at hmem
        rcases negotiate_error hneg with hnone | ⟨methods, rest, m, -, hm, hsaid | ⟨-, hbad⟩⟩
        · rw [hnone] at hmem
          cases hmem
        · rw [hsaid] at hmem
          exact absurd (List.mem_singleton.mp hmem) (by simp [userpassVersion, socksVersion])
        · exact absurd hbad husername
      · exact ⟨identity, c, rfl⟩
    · intro identity c hneg r rest hr
      refine reply_of_negotiated hneg r rest hr ?_
      intro name hcmd haddr hutf8
      obtain ⟨n, hn, -, -⟩ := exists_answered hneg
      refine hdomain ⟨n, r.rsv, name, r.port, rest, ?_, hutf8⟩
      rw [hn, hr, RawRequest.encode, hcmd, haddr]
      rfl

end Obeys

/-- A greeting that offers username and password, then the username `FF`. -/
def usernameFF : List UInt8 := [5, 1, 2, 1, 1, 0xFF, 0]

/-- A greeting without authentication, then a request for port 80 of the name `FF`. -/
def domainFF : List UInt8 := [5, 1, 0, 5, 1, 0, 3, 1, 0xFF, 0, 80]

/-- The one client is told that its username was accepted, the other is told nothing. -/
theorem not_obeys_notUtf8 :
    said .strict (fun _ _ _ => .ok ()) usernameFF = [[5, 2], [1, 0]] ∧
      ¬ Obeys .strict (fun _ _ _ => .ok ()) usernameFF ∧
      said .strict (fun _ _ _ => .ok ()) domainFF = [[5, 0]] ∧
      ¬ Obeys .strict (fun _ _ _ => .ok ()) domainFF := by
  have hname : said .strict (fun _ _ _ => .ok ()) usernameFF = [[5, 2], [1, 0]] := by
    decide +kernel
  have hdomain : said .strict (fun _ _ _ => .ok ()) domainFF = [[5, 0]] := by decide +kernel
  refine ⟨hname, ?_, hdomain, ?_⟩
  · intro h
    obtain ⟨identity, c, hok⟩ := h.status (by rw [hname]; decide)
    have herror : (negotiateMethod.run (.accepted usernameFF none)).1 =
        .error .usernameNotUtf8 := by
      decide +kernel
    rw [hok] at herror
    cases herror
  · intro h
    obtain ⟨rep, hsaid, -⟩ := h.reply defaultIsolation
      ⟨[5, 1, 0, 3, 1, 0xFF, 0, 80], none, [.wrote [5, 0]]⟩ (by decide +kernel)
      ⟨cmdConnect, 0, .domain ⟨[0xFF], by decide⟩, 80⟩ [] (by decide +kernel)
    rw [hdomain] at hsaid
    exact absurd (congrArg List.length hsaid) (by simp)

end Anonet.Socks
