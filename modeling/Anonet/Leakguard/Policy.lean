import Anonet.Library.IpAddr

/-!
# The DNS-leak policy

`leakguard/src/policy.rs`: whether a SOCKS5 CONNECT request may proceed, decided
by how its destination was specified.
-/

namespace Anonet.Leakguard

open Net

/-- A SOCKS5 CONNECT destination, exactly as the client specified it. -/
inductive Destination
  | Host (name : String)
  | Ip (ip : IpAddr)
  deriving DecidableEq

inductive LeakViolation
  | RawIpRejected (ip : IpAddr)
  deriving DecidableEq

def LeakViolation.display : LeakViolation → String
  | .RawIpRejected ip =>
    s!"raw IP address {ip} rejected by DNS-leak policy: the client resolved this hostname " ++
    "itself instead of letting it travel down the Tor circuit, which would leak the lookup " ++
    "to the local/system DNS resolver. Configure the client for remote (SOCKS5) DNS resolution."

structure LeakPolicy where
  allowRawIp : Bool
  deriving DecidableEq

namespace LeakPolicy

/-- Reject any CONNECT request that names a raw IP address. -/
def strict : LeakPolicy := ⟨false⟩

def permissive : LeakPolicy := ⟨true⟩

def check (self : LeakPolicy) : Destination → Except LeakViolation Unit
  | .Ip ip => if !self.allowRawIp then .error (.RawIpRejected ip) else .ok ()
  | .Host _ => .ok ()

@[simp] theorem check_host (self : LeakPolicy) (name : String) :
    self.check (.Host name) = .ok () := rfl

/-- The strict policy looks at the tag only: it lets a destination pass exactly
when the client wrote it as a name. -/
theorem check_strict_eq_ok {dest : Destination} :
    strict.check dest = .ok () ↔ ∃ name, dest = .Host name := by
  cases dest with
  | Host name => exact ⟨fun _ => ⟨name, rfl⟩, fun _ => rfl⟩
  | Ip ip => exact ⟨fun h => absurd h (by simp [check, strict]), by rintro ⟨_, h⟩; cases h⟩

end LeakPolicy

end Anonet.Leakguard
