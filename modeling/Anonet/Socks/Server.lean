import Anonet.Socks.Session

/-!
# The SOCKS5 front end

`socks/src/server.rs`, function by function: method negotiation, the RFC 1929
subnegotiation, the CONNECT request, and `handleConn`, which puts them together.
The SOCKS5 username is an isolation key, not a credential.
-/

namespace Anonet.Socks

open Net Leakguard Session

def socksVersion : UInt8 := 0x05
def methodNoAuth : UInt8 := 0x00
def methodUserpass : UInt8 := 0x02
def methodNoneAcceptable : UInt8 := 0xFF
def userpassVersion : UInt8 := 0x01
def userpassStatusOk : UInt8 := 0x00
def defaultIsolation : String := "default"
def cmdConnect : UInt8 := 0x01
def atypIpv4 : UInt8 := 0x01
def atypDomain : UInt8 := 0x03
def atypIpv6 : UInt8 := 0x04
def repSuccess : UInt8 := 0x00
def repGeneralFailure : UInt8 := 0x01
def repConnNotAllowed : UInt8 := 0x02
def repCmdNotSupported : UInt8 := 0x07
def repAtypNotSupported : UInt8 := 0x08

/-! ## Negotiation -/

/-- RFC 1929: the password is read but never checked. -/
def readUserpassIdentity : Session String := do
  let ver ← readByte
  ensure (ver = userpassVersion) (.unsupportedSubnegotiation ver)
  let ulen ← readByte
  let uname ← readExact ulen.toNat
  let plen ← readByte
  let _passwd ← readExact plen.toNat
  writeAll [userpassVersion, userpassStatusOk]
  let identity ← orFail .usernameNotUtf8 (Bytes.fromUtf8 uname)
  pure (if identity.isEmpty then defaultIsolation else identity)

/-- Negotiates the auth method and returns the isolation identity. -/
def negotiateMethod : Session String := do
  let (ver, nmethods) ← readBytes2
  ensure (ver = socksVersion) (.unsupportedVersion ver)
  let methods ← readExact nmethods.toNat
  if methodUserpass ∈ methods then do
    writeAll [socksVersion, methodUserpass]
    readUserpassIdentity
  else if methodNoAuth ∈ methods then do
    writeAll [socksVersion, methodNoAuth]
    pure defaultIsolation
  else do
    writeAll [socksVersion, methodNoneAcceptable]
    fail .noAcceptableMethod

/-! ## The request -/

/-- The ten bytes of a reply; `BND.ADDR` and `BND.PORT` are reported as zero. -/
def replyBytes (rep : UInt8) : List UInt8 :=
  [socksVersion, rep, 0x00, atypIpv4, 0, 0, 0, 0, 0, 0]

def sendReply (rep : UInt8) : Session Unit := writeAll (replyBytes rep)

/-- The address that follows the request header, by its type. -/
def readAddress (atyp : UInt8) : Session Destination :=
  if atyp = atypIpv4 then do
    let buf ← readExact 4
    pure (.Ip (.v4 (.ofOctets buf)))
  else if atyp = atypIpv6 then do
    let buf ← readExact 16
    pure (.Ip (.v6 (.ofOctets buf)))
  else if atyp = atypDomain then do
    let len ← readByte
    let name ← readExact len.toNat
    let host ← orFail .domainNotUtf8 (Bytes.fromUtf8 name)
    pure (.Host host)
  else do
    let _ ← (sendReply repAtypNotSupported).ok
    fail (.unsupportedAddressType atyp)

def readConnectRequest : Session (Destination × UInt16) := do
  let (ver, cmd, _rsv, atyp) ← readBytes4
  ensure (ver = socksVersion) (.unsupportedRequestVersion ver)
  if cmd = cmdConnect then do
    let dest ← readAddress atyp
    let (hi, lo) ← readBytes2
    pure (dest, Bytes.u16FromBe hi lo)
  else do
    let _ ← (sendReply repCmdNotSupported).ok
    fail (.unsupportedCommand cmd)

/-! ## The whole connection -/

/-- What `connect_isolated` answers to a host, a port and an identity. -/
abbrev Upstream := String → UInt16 → String → Except String Unit

def hostForConnect : Destination → String
  | .Host h => h
  | .Ip ip => ip.display

/-- The part of `handleConn` behind the parsing: check, connect, answer, splice. -/
def forward (policy : LeakPolicy) (upstream : Upstream) (identity : String) (dest : Destination)
    (port : UInt16) : Session Unit :=
  match policy.check dest with
  | .error violation => do
    let _ ← (sendReply repConnNotAllowed).ok
    fail (.policy violation)
  | .ok () => do
    emit (.connect (hostForConnect dest) port identity)
    match upstream (hostForConnect dest) port identity with
    | .error message => do
      let _ ← (sendReply repGeneralFailure).ok
      fail (.connect message)
    | .ok () => do
      sendReply repSuccess
      emit .splice

/-- One accepted connection, from the greeting to the splice. -/
def handleConn (policy : LeakPolicy) (upstream : Upstream) : Session Unit := do
  let identity ← negotiateMethod
  let (dest, port) ← readConnectRequest
  forward policy upstream identity dest port

/-! ## Nothing is connected while parsing -/

theorem quiet_readUserpassIdentity : Quiet readUserpassIdentity := by
  refine quiet_readByte.bind fun ver => (quiet_ensure _ _).bind fun _ => ?_
  refine quiet_readByte.bind fun ulen => (quiet_readExact _).bind fun uname => ?_
  refine quiet_readByte.bind fun plen => (quiet_readExact _).bind fun passwd => ?_
  exact (quiet_writeAll _).bind fun _ => (quiet_orFail _ _).bind fun _ => quiet_pure _

theorem quiet_negotiateMethod : Quiet negotiateMethod := by
  refine quiet_readBytes2.bind fun hdr => (quiet_ensure _ _).bind fun _ => ?_
  refine (quiet_readExact _).bind fun methods => Quiet.ite ?_ (Quiet.ite ?_ ?_)
  · exact (quiet_writeAll _).bind fun _ => quiet_readUserpassIdentity
  · exact (quiet_writeAll _).bind fun _ => quiet_pure _
  · exact (quiet_writeAll _).bind fun _ => quiet_fail _

theorem quiet_sendReply (rep : UInt8) : Quiet (sendReply rep) := quiet_writeAll _

theorem quiet_readAddress (atyp : UInt8) : Quiet (readAddress atyp) := by
  refine Quiet.ite ?_ (Quiet.ite ?_ (Quiet.ite ?_ ?_))
  · exact (quiet_readExact _).bind fun _ => quiet_pure _
  · exact (quiet_readExact _).bind fun _ => quiet_pure _
  · exact quiet_readByte.bind fun _ => (quiet_readExact _).bind fun _ =>
      (quiet_orFail _ _).bind fun _ => quiet_pure _
  · exact (quiet_sendReply _).ok.bind fun _ => quiet_fail _

theorem quiet_readConnectRequest : Quiet readConnectRequest := by
  refine quiet_readBytes4.bind fun hdr => (quiet_ensure _ _).bind fun _ => Quiet.ite ?_ ?_
  · exact (quiet_readAddress _).bind fun _ => quiet_readBytes2.bind fun _ => quiet_pure _
  · exact (quiet_sendReply _).ok.bind fun _ => quiet_fail _

/-- A connection the policy refuses is answered, and nothing is connected. -/
theorem forward_of_violation {policy : LeakPolicy} {dest : Destination}
    {violation : LeakViolation} (h : policy.check dest = .error violation) (upstream : Upstream)
    (identity : String) (port : UInt16) :
    forward policy upstream identity dest port = (do
      let _ ← (sendReply repConnNotAllowed).ok
      fail (.policy violation)) := by
  rw [forward, h]

/-- The one place that connects passes on what was parsed. -/
theorem connect_mem_forward {policy : LeakPolicy} {upstream : Upstream} {dest : Destination}
    {identity host who : String} {port p : UInt16} {c : Conn}
    (h : Event.connect host p who ∈
      ((forward policy upstream identity dest port).run c).2.events)
    (hc : Event.connect host p who ∉ c.events) :
    policy.check dest = .ok () ∧ host = hostForConnect dest ∧ p = port ∧ who = identity := by
  rw [forward] at h
  split at h
  · exact absurd (((quiet_sendReply _).ok.bind fun _ => quiet_fail _).connect_mem h) hc
  · rename_i hcheck
    rw [run_bind_of_ok (run_emit _ _)] at h
    have hmem : Event.connect host p who ∈
        c.events ++ [.connect (hostForConnect dest) port identity] := by
      split at h
      · exact ((quiet_sendReply _).ok.bind fun _ => quiet_fail _).connect_mem h
      · rw [run_bind] at h
        split at h
        · rename_i hrep
          rw [run_emit, List.mem_append, List.mem_singleton] at h
          have h := h.resolve_right (by simp)
          exact (quiet_sendReply _).connect_mem (by rw [hrep]; exact h)
        · rename_i hrep
          exact (quiet_sendReply _).connect_mem (by rw [hrep]; exact h)
    rcases List.mem_append.mp hmem with hmem | hmem
    · exact absurd hmem hc
    · rw [List.mem_singleton, Event.connect.injEq] at hmem
      exact ⟨hcheck, hmem⟩

end Anonet.Socks
