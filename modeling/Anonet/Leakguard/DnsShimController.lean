import Anonet.Library.IpAddr

/-!
# Starting and stopping the DNS shim

`leakguard/src/dns_shim_controller.rs`: at most one listener task at a time, known
by the address it was asked to bind.
-/

namespace Anonet.Leakguard

open Net

structure DnsShimController where
  /-- The address and the task of the listener. -/
  running : Option (SocketAddr × ℕ)
  /-- How many listener tasks have been spawned. -/
  spawned : ℕ
  deriving DecidableEq

namespace DnsShimController

def new : DnsShimController := ⟨none, 0⟩

def boundAddr (self : DnsShimController) : Option SocketAddr := self.running.map (·.1)

/-- Refused while a listener is recorded; otherwise a task is spawned. -/
def start (self : DnsShimController) (addr : SocketAddr) :
    Except String Unit × DnsShimController :=
  if self.running.isSome then (.error "DNS shim is already running", self)
  else (.ok (), ⟨some (addr, self.spawned), self.spawned + 1⟩)

/-- Whether there was a listener, which is then aborted. -/
def stop (self : DnsShimController) : Bool × DnsShimController :=
  (self.running.isSome, { self with running := none })

end DnsShimController

end Anonet.Leakguard
