import Anonet.Bridges.Coordinator

/-!
# Starting up

The part of `cli/src/main.rs` (`run`) that sets the bridges up before anything runs
beside it: the configured lines are added, the candidates table is seeded, the
candidates are tried in order, and the coordinator is made for the first healthy one,
or for none.
-/

namespace Anonet.Bridges

open Anonet.Core Telemetry

variable {β γ : Type} (arti : Arti β γ)

namespace BridgeManager

def addBridgeLine (self : BridgeManager β) (fs : FileSystem) (line : String) :
    Except String ℕ × BridgeManager β :=
  match self.prepareBridgeLine arti fs line with
  | (.error e, self) => (.error e, self)
  | (.ok builder, self) =>
    let (idx, self) := self.pushCandidate line builder
    (.ok idx, self)

/-- The configured lines, each with the file system it is added on; the first error
ends the program. -/
def addBridgeLines (self : BridgeManager β) :
    List (FileSystem × String) → Except String (BridgeManager β)
  | [] => .ok self
  | (fs, line) :: lines =>
    match self.addBridgeLine arti fs line with
    | (.error e, _) => .error e
    | (.ok _, self) => self.addBridgeLines lines

/-- The loop of `find_healthy_config_reporting` from candidate `idx` on, with
`remaining` candidates to go; `answer idx` is the time and the outcome of that
candidate's check. -/
def findHealthyConfigFrom (self : BridgeManager β) (answer : ℕ → ℕ × CheckOutcome) :
    ℕ → ℕ → HealthStatus → HealthStatus × Except String (ℕ × γ)
  | 0, _, telemetry =>
    (telemetry, .error s!"all {self.candidateCount} configured bridges failed their health check")
  | remaining + 1, idx, telemetry =>
    let (now, o) := answer idx
    let result := (self.startCheck arti idx).finish o
    let telemetry := telemetry.recordCandidateResult now idx result.candidateLine result.success
      result.latencyMs
    if result.success then
      (telemetry, (self.productionConfig arti idx).map fun config => (idx, config))
    else self.findHealthyConfigFrom answer remaining (idx + 1) telemetry

/-- `find_healthy_config_reporting`, run from start to end with nobody beside it. -/
def findHealthyConfigReporting (self : BridgeManager β) (answer : ℕ → ℕ × CheckOutcome)
    (telemetry : HealthStatus) : HealthStatus × Except String (ℕ × γ) :=
  if self.candidateCount = 0 then (telemetry, .error "no bridge candidates configured")
  else self.findHealthyConfigFrom arti answer self.candidateCount 0 telemetry

/-- Which candidate the program starts with, if any, and the configuration of its
client; `direct` is the configuration of a client without bridges. -/
def chooseClient (self : BridgeManager β) (direct : γ) (answer : ℕ → ℕ × CheckOutcome)
    (telemetry : HealthStatus) : HealthStatus × Option ℕ × γ :=
  if self.candidateCount = 0 then (telemetry, none, direct)
  else
    match self.findHealthyConfigReporting arti answer telemetry with
    | (telemetry, .ok (idx, config)) => (telemetry, some idx, config)
    | (telemetry, .error _) => (telemetry, none, direct)

end BridgeManager

/-- `run` up to where the loop is spawned; `bootstraps` says whether the client comes
up. -/
def startup (direct : γ) (transports : List TransportBinary)
    (lines : List (FileSystem × String)) (answer : ℕ → ℕ × CheckOutcome) (bootstraps : Bool)
    (failureThreshold : UInt32) (now : ℕ) : Except String (Coordinator β γ) :=
  match (BridgeManager.new transports : BridgeManager β).addBridgeLines arti lines with
  | .error e => .error e
  | .ok manager =>
    let (telemetry, active, config) := manager.chooseClient arti direct answer
      (({} : HealthStatus).seedCandidates manager.allCandidates)
    if bootstraps then .ok (.new manager config telemetry active failureThreshold now)
    else .error "failed to bootstrap Tor client"

end Anonet.Bridges
