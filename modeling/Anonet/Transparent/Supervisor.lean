import Anonet.Leakguard.KillSwitch

/-!
# The supervised tor process

`transparent/src/supervisor.rs`: one real `tor` child with a TransPort and a
DNSPort.  `start` is cut at its awaits: `launch` runs up to the spawned child,
`onBootstrap` is one turn of the loop that reads the child's output.
-/

namespace Anonet.Transparent

open Leakguard

structure TorPorts where
  transPort : UInt16 := 9040
  dnsPort : UInt16 := 5300
  controlPort : UInt16 := 9051
  deriving DecidableEq

/-- A running `tor` process and the torrc it was started with. -/
structure TorChild where
  pid : ℕ
  torrc : String
  deriving DecidableEq

structure TorSupervisor where
  ports : TorPorts
  dataDir : String
  child : Option TorChild
  deriving DecidableEq

/-- What the file system and the operating system answer while `start` prepares
and spawns the process. -/
inductive SpawnOutcome
  | noDataDir
  | noTorrc
  | noTor
  | spawned (pid : ℕ)
  deriving DecidableEq

/-- What the loop over the child's output sees next. -/
inductive BootstrapEvent
  | line (text : String)
  | readError
  | eof
  /-- The 120 s are over. -/
  | elapsed
  deriving DecidableEq

/-- How the loop goes on. -/
inductive Bootstrap
  | waiting
  | done
  | failed (message : String)
  deriving DecidableEq

/-- In nanoseconds. -/
def bootstrapTimeout : ℕ := 120 * 10 ^ 9

namespace TorSupervisor

/-- `TorSupervisor::new`; `dataDir` is the user's data directory. -/
def new (ports : TorPorts) (dataDir : Option String) : TorSupervisor where
  ports := ports
  dataDir := dataDir.getD "." ++ "/anonet/tor-transparent"
  child := none

def torrc (self : TorSupervisor) : String :=
  "SocksPort 0\n" ++
  "TransPort 127.0.0.1:" ++ toString self.ports.transPort ++ "\n" ++
  "DNSPort 127.0.0.1:" ++ toString self.ports.dnsPort ++ "\n" ++
  "ControlPort 127.0.0.1:" ++ toString self.ports.controlPort ++ "\n" ++
  "CookieAuthentication 1\n" ++
  "DataDirectory " ++ self.dataDir ++ "\n" ++
  "Log notice stdout\n" ++
  "RunAsDaemon 0\n"

/-- `start` up to its first await. -/
def launch (self : TorSupervisor) (o : SpawnOutcome) : Except String TorChild :=
  if self.child.isSome then .error "tor is already running"
  else
    match o with
    | .noDataDir => .error s!"failed to create {self.dataDir}"
    | .noTorrc => .error "failed to write torrc"
    | .noTor => .error "failed to spawn `tor` (is it installed and on PATH?)"
    | .spawned pid => .ok ⟨pid, self.torrc⟩

/-- One turn of the bootstrap loop.  On failure the child is then killed. -/
def onBootstrap : BootstrapEvent → Bootstrap
  | .line text => if contains text "Bootstrapped 100%" then .done else .waiting
  | .readError => .failed "reading tor stdout"
  | .eof => .failed "tor exited before finishing bootstrap"
  | .elapsed => .failed "tor did not finish bootstrapping within 120s"

def isRunning (self : TorSupervisor) : Bool := self.child.isSome

/-- A child is spawned only where there is none. -/
theorem child_of_launch {self : TorSupervisor} {o : SpawnOutcome} {child : TorChild}
    (h : self.launch o = .ok child) : self.child = none := by
  unfold launch at h
  split at h
  · cases h
  · rename_i hchild
    exact Option.not_isSome_iff_eq_none.mp hchild

end TorSupervisor

end Anonet.Transparent
