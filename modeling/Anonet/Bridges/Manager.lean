import Anonet.Bridges.Discovery
import Anonet.Library.Text
import Mathlib.Tactic.Common

/-!
# The bridge manager

`bridges/src/lib.rs`: the candidates in failover order, the registered
transports, the configuration a candidate is used with, and health checks.

* `Arti` — the parts of `arti-client` this crate calls.
* `pushCandidate`, `ensureTransport` — the two locked sections of
  `add_bridge_line`.
* `IsProductionConfig` — a configuration `production_config` returned for a
  candidate, now or earlier; `IsProductionConfig.mono` keeps it true as
  candidates and transports are added.
-/

namespace Anonet.Bridges

/-- A pluggable-transport binary to register with arti's transport manager. -/
structure TransportBinary where
  protocol : String
  path : String
  deriving DecidableEq

structure TransportConfig where
  protocols : List String
  path : String
  runOnStartup : Bool
  deriving DecidableEq

/-- Where a client keeps its state and cache. -/
inductive Storage
  | default
  | temporary
  deriving DecidableEq

/-- What the crate uses of `arti-client`: bridge lines become builders `β`, and
a builder of a whole client becomes a configuration `γ`. -/
structure Arti (β γ : Type) where
  parseBridge : String → Except String β
  validProtocol : String → Bool
  build : Storage → List β → List TransportConfig → Option γ

/-- A relay's RSA identity: forty hex digits. -/
def isRsaIdentity (word : List Char) : Bool :=
  word.length = 40 ∧ word.all fun c => c.isDigit || ('a' ≤ c.toLower && c.toLower ≤ 'f')

/-- The lines `arti-client` takes, up to the form of the address: `Bridge` may be left out, a
transport brings its settings, and the bridge's RSA identity has to be there. -/
def isBridgeLine (line : String) : Bool :=
  let words := match Text.splitWhitespace line with
    | first :: rest => if first.map Char.toLower = "bridge".toList then rest else first :: rest
    | [] => []
  match words with
  | [addr, identity] => ':' ∈ addr && isRsaIdentity identity
  | transport :: addr :: identity :: settings =>
    ':' ∉ transport && ':' ∈ addr && isRsaIdentity identity && settings.all ('=' ∈ ·)
  | _ => false

/-- A client library whose configuration is the bridge it enables. -/
def Arti.plain : Arti String String where
  parseBridge line := if isBridgeLine line then .ok line else .error "not a bridge line"
  validProtocol _ := true
  build _ bridges _ := bridges.head?

/-! Bridges reached directly, for examples. -/

def firstLine : String := "192.0.2.1:443 316E643333645F6D79216558614D3931657A5F5F"

def spareLine : String := "192.0.2.2:443 7DD62766BF2052432051D7B7E08A22F7E34A4543"

def addedLine : String := "192.0.2.7:443 0E3C51A7D9B2846F0E3C51A7D9B2846F0E3C51A7"

def laterLine : String := "192.0.2.8:443 5A5F5F316E643333645F6D79216558614D393165"

example : isBridgeLine addedLine = true ∧ isBridgeLine "192.0.2.7:443" = false := by decide

/-- One candidate bridge, kept alongside its original bridge line. -/
structure Candidate (β : Type) where
  line : String
  builder : β
  deriving DecidableEq

structure HealthResult where
  candidateLine : String
  success : Bool
  /-- In nanoseconds. -/
  latency : ℕ
  error : Option String
  deriving DecidableEq

/-- `latency.as_millis() as u64`. -/
def HealthResult.latencyMs (r : HealthResult) : UInt64 := UInt64.ofNat (r.latency / 1000000)

/-- The error `try_add_bridge` reports for a bridge that is not healthy. -/
def HealthResult.failureMessage (r : HealthResult) : String :=
  let error := r.error.getD "unknown error"
  s!"new bridge failed its health check: {error}"

structure BridgeManager (β : Type) where
  transports : List TransportBinary
  candidates : List (Candidate β)
  deriving DecidableEq

/-! ## Bridge lines -/

/-- The transport a bridge line names: its first field behind `Bridge`, unless
that is an `addr:port`. -/
def extractTransportProtocol (line : String) : Option String := do
  let (first, rest) ← match Text.splitWhitespace line with
    | first :: rest => some (first, rest)
    | [] => none
  let candidate ← if first.map Char.toLower = "bridge".toList then rest.head? else some first
  if ':' ∈ candidate then none else some (String.ofList candidate)

namespace TransportBinary

variable {β γ : Type} (arti : Arti β γ)

def toBuilder (self : TransportBinary) : Except String TransportConfig :=
  if arti.validProtocol self.protocol then .ok ⟨[self.protocol], self.path, true⟩
  else .error s!"invalid pluggable transport protocol name '{self.protocol}'"

end TransportBinary

namespace BridgeManager

variable {β γ : Type} (arti : Arti β γ)

def new (transports : List TransportBinary) : BridgeManager β := ⟨transports, []⟩

/-- The section of `ensure_transport` under the transports lock. -/
def ensureTransport (self : BridgeManager β) (fs : FileSystem) (protocol : String) :
    Except String Unit × BridgeManager β :=
  if self.transports.any (·.protocol = protocol) then (.ok (), self)
  else
    match locateTransportBinary fs protocol with
    | none => (.error (missingTransportMessage fs protocol), self)
    | some path => (.ok (), { self with transports := self.transports ++ [⟨protocol, path⟩] })

/-- The section of `add_bridge_line` under the candidates lock. -/
def pushCandidate (self : BridgeManager β) (line : String) (builder : β) : ℕ × BridgeManager β :=
  (self.candidates.length, { self with candidates := self.candidates ++ [⟨line, builder⟩] })

/-- The part of `add_bridge_line` in front of the candidates lock. -/
def prepareBridgeLine (self : BridgeManager β) (fs : FileSystem) (line : String) :
    Except String β × BridgeManager β :=
  match arti.parseBridge line with
  | .error e => (.error s!"invalid bridge line '{line}': {e}", self)
  | .ok builder =>
    match extractTransportProtocol line with
    | none => (.ok builder, self)
    | some protocol =>
      match self.ensureTransport fs protocol with
      | (.error e, self) => (.error e, self)
      | (.ok (), self) => (.ok builder, self)

def candidateCount (self : BridgeManager β) : ℕ := self.candidates.length

def allCandidates (self : BridgeManager β) : List (ℕ × String) :=
  self.candidates.zipIdx.map fun (c, i) => (i, c.line)

def candidateLine (self : BridgeManager β) (idx : ℕ) : Option String :=
  (self.candidates[idx]?).map Candidate.line

def candidate (self : BridgeManager β) (idx : ℕ) : Except String (Candidate β) :=
  match self.candidates[idx]? with
  | some c => .ok c
  | none => .error s!"no bridge candidate at index {idx}"

/-- A configuration that enables exactly one candidate and all transports. -/
def buildConfig (self : BridgeManager β) (idx : ℕ) (base : Storage) : Except String γ := do
  let candidate ← self.candidate idx
  let transports ← self.transports.mapM (·.toBuilder arti)
  match arti.build base [candidate.builder] transports with
  | some config => .ok config
  | none => .error "failed to build TorClientConfig for bridge candidate"

def productionConfig (self : BridgeManager β) (idx : ℕ) : Except String γ :=
  self.buildConfig arti idx .default

end BridgeManager

/-! ## Health checks -/

/-- How the parts of a health check that leave the process turn out. -/
inductive CheckOutcome
  | noStateDir (err : String)
  | noCacheDir (err : String)
  /-- `detail` ends with arti's reason for being blocked, if it reports one. -/
  | bootstrapTimedOut (timeout : String) (percent : UInt8) (detail : String)
      (blocked : Option String) (latency : ℕ)
  | bootstrapFailed (err : String) (latency : ℕ)
  | connected (latency : ℕ)
  | connectFailed (err : String) (latency : ℕ)
  | connectTimedOut (latency : ℕ)
  deriving DecidableEq

/-- A health check in flight: what it read before its first await. -/
structure PendingCheck (γ : Type) where
  line : String
  config : Except String γ

/-- What `health_check` reads of the manager. -/
def BridgeManager.startCheck {β γ : Type} (arti : Arti β γ) (self : BridgeManager β) (idx : ℕ) :
    PendingCheck γ :=
  ⟨(self.candidateLine idx).getD "", self.buildConfig arti idx .temporary⟩

/-- What `health_check` returns. -/
def PendingCheck.finish {γ : Type} (check : PendingCheck γ) (o : CheckOutcome) : HealthResult :=
  let failed (latency : ℕ) (error : String) : HealthResult :=
    ⟨check.line, false, latency, some error⟩
  match o, check.config with
  | .noStateDir err, _ => failed 0 s!"failed to create temp state dir: {err}"
  | .noCacheDir err, _ => failed 0 s!"failed to create temp cache dir: {err}"
  | _, .error err => failed 0 err
  | .bootstrapTimedOut timeout percent detail blocked latency, .ok _ =>
    failed latency (s!"bootstrap timed out after {timeout} at {percent}% ({detail})" ++
      match blocked with
      | some reason => s!" — {reason}"
      | none => "")
  | .bootstrapFailed err latency, .ok _ => failed latency err
  | .connected latency, .ok _ => ⟨check.line, true, latency, none⟩
  | .connectFailed err latency, .ok _ => failed latency err
  | .connectTimedOut latency, .ok _ =>
    failed latency "bootstrapped, but timed out opening a test connection"

@[simp] theorem PendingCheck.candidateLine_finish {γ : Type} (check : PendingCheck γ)
    (o : CheckOutcome) : (check.finish o).candidateLine = check.line := by
  unfold PendingCheck.finish
  dsimp only
  split <;> rfl

/-! ## Scanning -/

/-- `find_healthy_config_reporting` in flight: candidate `idx` of the `count`
there were at its start is being checked. -/
structure Scan (γ : Type) where
  count : ℕ
  idx : ℕ
  check : PendingCheck γ

/-- How a scan goes on behind one result. -/
inductive ScanStep (γ : Type)
  | next (scan : Scan γ)
  /-- The candidate is healthy; its production configuration comes next. -/
  | found (idx : ℕ)
  | failed (error : String)

section Scan

variable {β γ : Type} (arti : Arti β γ)

def BridgeManager.startScan (self : BridgeManager β) : Except String (Scan γ) :=
  if self.candidateCount = 0 then .error "no bridge candidates configured"
  else .ok ⟨self.candidateCount, 0, self.startCheck arti 0⟩

/-- The loop body behind `on_result`. -/
def Scan.step (scan : Scan γ) (manager : BridgeManager β) (result : HealthResult) : ScanStep γ :=
  if result.success then .found scan.idx
  else if scan.idx + 1 < scan.count then
    .next { scan with idx := scan.idx + 1, check := manager.startCheck arti (scan.idx + 1) }
  else .failed s!"all {scan.count} configured bridges failed their health check"

/-- A scan finds the candidate it is at, and only on a successful check. -/
theorem Scan.step_eq_found {scan : Scan γ} {manager : BridgeManager β} {result : HealthResult}
    {newIdx : ℕ} :
    scan.step arti manager result = .found newIdx ↔ result.success = true ∧ newIdx = scan.idx := by
  unfold Scan.step
  split
  · rename_i h
    simp [h, eq_comm]
  · rename_i h
    split <;> simp [h]

/-- A scan goes on or gives up only on a failed check. -/
theorem Scan.not_success_of_step_ne {scan : Scan γ} {manager : BridgeManager β}
    {result : HealthResult} {next : ScanStep γ} (h : scan.step arti manager result = next)
    (hne : ∀ newIdx, next ≠ .found newIdx) : result.success = false := by
  by_contra hresult
  have hfound : scan.step arti manager result = .found scan.idx :=
    (Scan.step_eq_found arti).mpr ⟨eq_true_of_ne_false hresult, rfl⟩
  exact hne scan.idx (h.symm.trans hfound)

end Scan

/-! ## Managers only grow -/

/-- Candidates and transports are only ever appended. -/
structure BridgeManager.Extends {β : Type} (m m' : BridgeManager β) : Prop where
  transports : m.transports <+: m'.transports
  candidates : m.candidates <+: m'.candidates

/-- Some binary is registered for the protocol. -/
def BridgeManager.Registered {β : Type} (m : BridgeManager β) (protocol : String) : Prop :=
  ∃ t ∈ m.transports, t.protocol = protocol

/-- `config` is what `production_config` built for candidate `idx`, with the
transports there are or with those there were earlier. -/
def IsProductionConfig {β γ : Type} (arti : Arti β γ) (m : BridgeManager β) (idx : ℕ)
    (config : γ) : Prop :=
  ∃ transports, transports <+: m.transports ∧
    ({ m with transports := transports } : BridgeManager β).productionConfig arti idx = .ok config

section Extends

variable {β γ : Type} {arti : Arti β γ} {m m' m'' : BridgeManager β}

theorem BridgeManager.Extends.rfl : m.Extends m := ⟨List.prefix_rfl, List.prefix_rfl⟩

theorem BridgeManager.Extends.trans (h : m.Extends m') (h' : m'.Extends m'') : m.Extends m'' :=
  ⟨h.transports.trans h'.transports, h.candidates.trans h'.candidates⟩

/-- **What `ensure_transport` can do**: nothing, because the protocol is there; nothing,
because no binary was found; or append it. -/
theorem ensureTransport_cases (m : BridgeManager β) (fs : FileSystem) (protocol : String) :
    (m.Registered protocol ∧ m.ensureTransport fs protocol = (.ok (), m)) ∨
    (∃ msg, m.ensureTransport fs protocol = (.error msg, m)) ∨
    (¬ m.Registered protocol ∧ ∃ path, m.ensureTransport fs protocol =
      (.ok (), { m with transports := m.transports ++ [⟨protocol, path⟩] })) := by
  unfold BridgeManager.ensureTransport
  have hany : m.transports.any (·.protocol = protocol) = true ↔ m.Registered protocol := by
    simp [BridgeManager.Registered]
  split
  · rename_i h
    exact .inl ⟨hany.mp h, rfl⟩
  · rename_i h
    split
    · exact .inr (.inl ⟨_, rfl⟩)
    · exact .inr (.inr ⟨fun hreg => h (hany.mpr hreg), _, rfl⟩)

/-- **What `add_bridge_line` can do in front of the candidates lock**: a line that is
accepted has its transport registered, and at most that one has been appended. -/
theorem prepareBridgeLine_cases (arti : Arti β γ) (m : BridgeManager β) (fs : FileSystem)
    (line : String) :
    (∃ msg, m.prepareBridgeLine arti fs line = (.error msg, m)) ∨
    ∃ builder transports, arti.parseBridge line = .ok builder ∧
      m.prepareBridgeLine arti fs line =
        (.ok builder, { m with transports := m.transports ++ transports }) ∧
      transports.length ≤ 1 ∧ (∀ t ∈ transports, ¬ m.Registered t.protocol) ∧
      ∀ protocol, extractTransportProtocol line = some protocol →
        BridgeManager.Registered ({ m with transports := m.transports ++ transports } :
          BridgeManager β) protocol := by
  unfold BridgeManager.prepareBridgeLine
  split
  · exact .inl ⟨_, rfl⟩
  · rename_i builder hparse
    have hsame : (⟨m.transports ++ [], m.candidates⟩ : BridgeManager β) = m := by
      rw [List.append_nil]
    split
    · rename_i hnone
      refine .inr ⟨builder, [], hparse, ?_, Nat.zero_le 1, nofun, ?_⟩
      · rw [hsame]
      · rintro protocol hsome
        cases hnone.symm.trans hsome
    · rename_i protocol hsome
      rcases ensureTransport_cases m fs protocol with ⟨hreg, h⟩ | ⟨msg, h⟩ | ⟨hnot, path, h⟩
      · rw [h]
        refine .inr ⟨builder, [], hparse, ?_, Nat.zero_le 1, nofun, ?_⟩
        · rw [hsame]
        · rintro protocol' hsome'
          cases hsome.symm.trans hsome'
          rw [hsame]
          exact hreg
      · rw [h]
        exact .inl ⟨msg, rfl⟩
      · rw [h]
        refine .inr ⟨builder, [⟨protocol, path⟩], hparse, rfl, Nat.le_refl 1, ?_, ?_⟩
        · intro t ht
          cases List.mem_singleton.mp ht
          exact hnot
        · rintro protocol' hsome'
          cases hsome.symm.trans hsome'
          exact ⟨_, List.mem_append_right _ (List.mem_singleton_self _), rfl⟩

theorem extends_prepareBridgeLine (arti : Arti β γ) (m : BridgeManager β) (fs : FileSystem)
    (line : String) :
    m.Extends (m.prepareBridgeLine arti fs line).2 := by
  rcases prepareBridgeLine_cases arti m fs line with ⟨msg, h⟩ | ⟨builder, transports, -, h, -⟩
  · rw [h]
    exact .rfl
  · rw [h]
    exact ⟨List.prefix_append _ _, List.prefix_rfl⟩

/-- Preparing a line may register a transport, but adds no candidate. -/
theorem candidates_prepareBridgeLine (arti : Arti β γ) (m : BridgeManager β) (fs : FileSystem)
    (line : String) :
    (m.prepareBridgeLine arti fs line).2.candidates = m.candidates := by
  rcases prepareBridgeLine_cases arti m fs line with ⟨msg, h⟩ | ⟨builder, transports, -, h, -⟩ <;>
    rw [h]

theorem extends_pushCandidate (line : String) (builder : β) :
    m.Extends (m.pushCandidate line builder).2 :=
  ⟨List.prefix_rfl, List.prefix_append _ _⟩

theorem candidateCount_pushCandidate (line : String) (builder : β) :
    (m.pushCandidate line builder).2.candidateCount = m.candidateCount + 1 := by
  simp [BridgeManager.pushCandidate, BridgeManager.candidateCount]

/-- The new candidate is found at the index that was returned. -/
theorem candidateLine_pushCandidate (line : String) (builder : β) :
    (m.pushCandidate line builder).2.candidateLine m.candidateCount = some line := by
  simp [BridgeManager.pushCandidate, BridgeManager.candidateLine, BridgeManager.candidateCount]

/-- A candidate keeps its index. -/
theorem BridgeManager.Extends.getElem? (h : m.Extends m') {idx : ℕ} {c : Candidate β}
    (hc : m.candidates[idx]? = some c) : m'.candidates[idx]? = some c := by
  obtain ⟨rest, hrest⟩ := h.candidates
  rw [← hrest, List.getElem?_append_left (List.getElem?_eq_some_iff.mp hc).1]
  exact hc

theorem isProductionConfig_of_eq {idx : ℕ} {config : γ}
    (h : m.productionConfig arti idx = .ok config) : IsProductionConfig arti m idx config :=
  ⟨m.transports, List.prefix_rfl, h⟩

theorem BridgeManager.Extends.length_le (h : m.Extends m') :
    m.candidates.length ≤ m'.candidates.length := h.candidates.length_le

theorem lt_of_candidateLine {idx : ℕ} {line : String} (h : m.candidateLine idx = some line) :
    idx < m.candidates.length := by
  obtain ⟨c, hc, -⟩ := Option.map_eq_some_iff.mp h
  exact (List.getElem?_eq_some_iff.mp hc).1

theorem candidateLine_of_lt {idx : ℕ} (h : idx < m.candidates.length) :
    m.candidateLine idx = some (m.candidates[idx]).line := by
  rw [BridgeManager.candidateLine, List.getElem?_eq_getElem h]
  rfl

theorem BridgeManager.Extends.candidateLine {idx : ℕ} {line : String} (hm : m.Extends m')
    (h : m.candidateLine idx = some line) : m'.candidateLine idx = some line := by
  obtain ⟨c, hc, rfl⟩ := Option.map_eq_some_iff.mp h
  rw [BridgeManager.candidateLine, hm.getElem? hc]
  rfl

/-- A transport stays registered. -/
theorem BridgeManager.Extends.registered {protocol : String} (hm : m.Extends m')
    (h : m.Registered protocol) : m'.Registered protocol := by
  obtain ⟨t, ht, hprotocol⟩ := h
  exact ⟨t, hm.transports.subset ht, hprotocol⟩

/-- A production configuration stays one while the manager grows. -/
theorem IsProductionConfig.mono {idx : ℕ} {config : γ} (h : IsProductionConfig arti m idx config)
    (hm : m.Extends m') : IsProductionConfig arti m' idx config := by
  obtain ⟨transports, hpre, hbuild⟩ := h
  refine ⟨transports, hpre.trans hm.transports, ?_⟩
  rw [← hbuild]
  simp only [BridgeManager.productionConfig, BridgeManager.buildConfig, BridgeManager.candidate]
    at hbuild ⊢
  cases hc : m.candidates[idx]? with
  | none =>
    rw [hc] at hbuild
    exact absurd hbuild (by simp [bind, Except.bind])
  | some c => rw [hm.getElem? hc]

end Extends

end Anonet.Bridges
