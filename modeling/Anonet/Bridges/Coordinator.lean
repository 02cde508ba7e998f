import Anonet.Bridges.Manager
import Anonet.Core.Sessions
import Anonet.Telemetry.HealthStatus

/-!
# The bridge coordinator

`bridges/src/coordinator.rs` as a machine: the background loop `run` and any
number of `try_add_bridge` calls, which interleave at every await and between
any two accesses to what they share (the core handle, `active_idx`, the
telemetry record, the manager).

* `RunPc`, `AddPc` — where a task is; what it holds there is its local state.
* `stepRun`, `stepAdd` — one step of the loop and of one call.
* `coordinating` — the machine of all interleavings.

A core is known by the configuration it was bootstrapped with.
-/

namespace Anonet.Bridges

open Anonet.Core Telemetry

/-- Where the loop is.  `trigger` is the index it read from `active_idx` in this
iteration. -/
inductive RunPc (γ : Type)
  /-- In `select!`. -/
  | waiting
  | starting (trigger : ℕ)
  | checking (trigger : ℕ) (check : PendingCheck γ)
  | recovered
  | failed (trigger : ℕ)
  /-- About to call `rescan_and_activate`. -/
  | thresholdReached (trigger : ℕ)
  | scanning (trigger : ℕ) (scan : Scan γ)
  | found (trigger newIdx : ℕ)
  | foundSame
  | bootstrapping (trigger newIdx : ℕ) (config : γ)
  | replacing (trigger newIdx : ℕ) (newCore : γ)
  | storing (trigger newIdx : ℕ)
  | reporting (newIdx : ℕ)

/-- Where a call of `try_add_bridge` is. -/
inductive AddPc (β γ : Type)
  | entered (line : String)
  | adding (line : String)
  | pushing (line : String) (builder : β)
  | starting (idx : ℕ)
  | checking (idx : ℕ) (check : PendingCheck γ)
  /-- About to record the error and return it. -/
  | failing (msg : String)
  | configuring (idx : ℕ)
  | bootstrapping (idx : ℕ) (config : γ)
  | replacing (idx : ℕ) (newCore : γ)
  | storing (idx : ℕ)
  | reporting (idx : ℕ)
  | returned (result : Except String ℕ)

structure Coordinator (β γ : Type) where
  manager : BridgeManager β
  coreHandle : CoreHandle γ
  telemetry : HealthStatus
  failureThreshold : UInt32
  activeIdx : Option ℕ
  /-- The loop's local counter. -/
  consecutiveFailures : UInt32
  run : RunPc γ
  adds : List (AddPc β γ)
  now : ℕ

/-- What a task learns from outside in one step. -/
inductive Event
  /-- Nothing; the step only touches the program's own state. -/
  | go
  | searched (fs : FileSystem)
  | checked (o : CheckOutcome)
  | bootstrapped (ok : Bool)

inductive Action
  /-- Someone calls `try_add_bridge`. -/
  | call (line : String)
  | run (e : Event)
  | add (i : ℕ) (e : Event)
  | tick (nanos : ℕ)

variable {β γ : Type}

namespace Coordinator

/-- `BridgeCoordinator::new`, with the loop spawned. -/
def new (manager : BridgeManager β) (core : γ) (telemetry : HealthStatus)
    (initialActiveIdx : Option ℕ) (failureThreshold : UInt32) (now : ℕ) : Coordinator β γ where
  manager := manager
  coreHandle := ⟨core⟩
  telemetry :=
    match initialActiveIdx with
    | some idx => { telemetry with
        activeBridgeIndex := some idx
        activeBridgeLine := manager.candidateLine idx }
    | none => telemetry
  failureThreshold := failureThreshold
  activeIdx := initialActiveIdx
  consecutiveFailures := 0
  run := .waiting
  adds := []
  now := now

def update (s : Coordinator β γ) (f : HealthStatus → HealthStatus) : Coordinator β γ :=
  { s with telemetry := f s.telemetry }

def recordResult (s : Coordinator β γ) (idx : ℕ) (result : HealthResult) : Coordinator β γ :=
  s.update fun t =>
    t.recordCandidateResult s.now idx result.candidateLine result.success result.latencyMs

/-- What the loop records of a periodic check. -/
def recordPeriodic (s : Coordinator β γ) (idx : ℕ) (result : HealthResult) : Coordinator β γ :=
  s.update fun t =>
    (({ t with lastCheckAt := some s.now }).pushSample
      ⟨s.now, result.success, result.latencyMs⟩).recordCandidateResult s.now idx
        result.candidateLine result.success result.latencyMs

@[simp] theorem activeBridgeIndex_recordPeriodic (s : Coordinator β γ) {idx : ℕ}
    {result : HealthResult} : (s.recordPeriodic idx result).telemetry.activeBridgeIndex =
      s.telemetry.activeBridgeIndex := by
  simp [recordPeriodic, update]

@[simp] theorem activeBridgeIndex_recordResult (s : Coordinator β γ) {idx : ℕ}
    {result : HealthResult} : (s.recordResult idx result).telemetry.activeBridgeIndex =
      s.telemetry.activeBridgeIndex :=
  HealthStatus.activeBridgeIndex_recordCandidateResult _ _ _ _ _ _

/-! ### The three writes of an activation -/

def replaceCore (s : Coordinator β γ) (newCore : γ) : Coordinator β γ :=
  { s with coreHandle := s.coreHandle.replace newCore }

def storeActive (s : Coordinator β γ) (idx : ℕ) : Coordinator β γ :=
  { s with activeIdx := some idx }

def reportActive (s : Coordinator β γ) (idx : ℕ) : Coordinator β γ :=
  s.update fun t => { t with
    activeBridgeIndex := some idx
    activeBridgeLine := s.manager.candidateLine idx
    lastSwitchAt := some s.now
    totalSwitches := t.totalSwitches + 1
    consecutiveFailures := 0 }

/-! ### Steps -/

variable (arti : Arti β γ)

/-- One step of `run`, with `rescan_and_activate` in line. -/
def stepRun (s : Coordinator β γ) (e : Event) : Option (Coordinator β γ) :=
  match s.run, e with
  | .waiting, .go =>
    match s.activeIdx with
    | some idx => some { s with run := .starting idx }
    | none => some s
  | .starting idx, .go => some { s with run := .checking idx (s.manager.startCheck arti idx) }
  | .checking idx check, .checked o =>
    let result := check.finish o
    let s := s.recordPeriodic idx result
    if result.success then some { s with consecutiveFailures := 0, run := .recovered }
    else some { s with consecutiveFailures := s.consecutiveFailures + 1, run := .failed idx }
  | .recovered, .go =>
    some { s.update fun t => { t with consecutiveFailures := 0 } with run := .waiting }
  | .failed idx, .go =>
    let s := s.update fun t => { t with consecutiveFailures := s.consecutiveFailures }
    if s.consecutiveFailures < s.failureThreshold then some { s with run := .waiting }
    else some { s with run := .thresholdReached idx }
  | .thresholdReached idx, .go =>
    match s.manager.startScan arti with
    | .ok scan => some { s with run := .scanning idx scan }
    | .error _ => some { s with run := .waiting }
  | .scanning trigger scan, .checked o =>
    let result := scan.check.finish o
    let s := s.recordResult scan.idx result
    match scan.step arti s.manager result with
    | .next scan => some { s with run := .scanning trigger scan }
    | .found newIdx => some { s with run := .found trigger newIdx }
    | .failed _ => some { s with run := .waiting }
  | .found trigger newIdx, .go =>
    match s.manager.productionConfig arti newIdx with
    | .error _ => some { s with run := .waiting }
    | .ok config =>
      if newIdx = trigger then some { s with run := .foundSame }
      else some { s with run := .bootstrapping trigger newIdx config }
  | .foundSame, .go =>
    some { s.update fun t => { t with consecutiveFailures := 0 } with
      consecutiveFailures := 0, run := .waiting }
  | .bootstrapping trigger newIdx config, .bootstrapped ok =>
    if ok then some { s with run := .replacing trigger newIdx config }
    else some { s with run := .waiting }
  | .replacing trigger newIdx newCore, .go =>
    some { s.replaceCore newCore with run := .storing trigger newIdx }
  | .storing _ newIdx, .go => some { s.storeActive newIdx with run := .reporting newIdx }
  | .reporting newIdx, .go =>
    some { s.reportActive newIdx with consecutiveFailures := 0, run := .waiting }
  | _, _ => none

/-- One step of a `try_add_bridge` call that is at `pc`: where it is then, and
the shared state. -/
def stepAdd (s : Coordinator β γ) (pc : AddPc β γ) (e : Event) :
    Option (AddPc β γ × Coordinator β γ) :=
  match pc, e with
  | .entered line, .go => some (.adding line, s.update (·.clearError))
  | .adding line, .searched fs =>
    match s.manager.prepareBridgeLine arti fs line with
    | (.ok builder, manager) => some (.pushing line builder, { s with manager := manager })
    | (.error msg, manager) => some (.failing msg, { s with manager := manager })
  | .pushing line builder, .go =>
    let (idx, manager) := s.manager.pushCandidate line builder
    some (.starting idx, { s with manager := manager })
  | .starting idx, .go => some (.checking idx (s.manager.startCheck arti idx), s)
  | .checking idx check, .checked o =>
    let result := check.finish o
    let s := s.recordResult idx result
    if result.success then some (.configuring idx, s)
    else some (.failing result.failureMessage, s)
  | .failing msg, .go => some (.returned (.error msg), s.update (·.recordError s.now msg))
  | .configuring idx, .go =>
    match s.manager.productionConfig arti idx with
    | .ok config => some (.bootstrapping idx config, s)
    | .error msg => some (.returned (.error msg), s)
  | .bootstrapping idx config, .bootstrapped ok =>
    if ok then some (.replacing idx config, s)
    else some (.returned (.error "failed to bootstrap Tor client"), s)
  | .replacing idx newCore, .go => some (.storing idx, s.replaceCore newCore)
  | .storing idx, .go => some (.reporting idx, s.storeActive idx)
  | .reporting idx, .go => some (.returned (.ok idx), s.reportActive idx)
  | _, _ => none

def step (s : Coordinator β γ) : Action → Option (Coordinator β γ)
  | .call line => some { s with adds := s.adds ++ [.entered line] }
  | .run e => s.stepRun arti e
  | .add i e => do
    let pc ← s.adds[i]?
    let (pc, s) ← s.stepAdd arti pc e
    some { s with adds := s.adds.set i pc }
  | .tick nanos => some { s with now := s.now + nanos }

end Coordinator

/-- All interleavings of the loop with calls of `try_add_bridge`. -/
def coordinating (arti : Arti β γ) : Machine (Coordinator β γ) Action where
  step := Coordinator.step arti

/-! ## What one step does

The same steps as relations: one case for each way a step can go. -/

/-- A step of the loop. -/
inductive RunStep (arti : Arti β γ) (s : Coordinator β γ) : Event → Coordinator β γ → Prop
  | wake {idx : ℕ} (hrun : s.run = .waiting) (hact : s.activeIdx = some idx) :
      RunStep arti s .go { s with run := .starting idx }
  | idle (hrun : s.run = .waiting) (hact : s.activeIdx = none) : RunStep arti s .go s
  | start {idx : ℕ} (hrun : s.run = .starting idx) :
      RunStep arti s .go { s with run := .checking idx (s.manager.startCheck arti idx) }
  | pass {idx : ℕ} {check : PendingCheck γ} {o : CheckOutcome} (hrun : s.run = .checking idx check)
      (hresult : (check.finish o).success = true) :
      RunStep arti s (.checked o) { s.recordPeriodic idx (check.finish o) with
        consecutiveFailures := 0, run := .recovered }
  | miss {idx : ℕ} {check : PendingCheck γ} {o : CheckOutcome} (hrun : s.run = .checking idx check)
      (hresult : (check.finish o).success = false) :
      RunStep arti s (.checked o) { s.recordPeriodic idx (check.finish o) with
        consecutiveFailures := s.consecutiveFailures + 1, run := .failed idx }
  | recover (hrun : s.run = .recovered) :
      RunStep arti s .go
        { s.update fun t => { t with consecutiveFailures := 0 } with run := .waiting }
  | below {idx : ℕ} (hrun : s.run = .failed idx)
      (hlt : s.consecutiveFailures < s.failureThreshold) :
      RunStep arti s .go
        { s.update fun t => { t with consecutiveFailures := s.consecutiveFailures } with
          run := .waiting }
  | reach {idx : ℕ} (hrun : s.run = .failed idx)
      (hle : s.failureThreshold ≤ s.consecutiveFailures) :
      RunStep arti s .go
        { s.update fun t => { t with consecutiveFailures := s.consecutiveFailures } with
          run := .thresholdReached idx }
  | scan {idx : ℕ} {scan : Scan γ} (hrun : s.run = .thresholdReached idx)
      (hscan : s.manager.startScan arti = .ok scan) :
      RunStep arti s .go { s with run := .scanning idx scan }
  | noScan {idx : ℕ} {msg : String} (hrun : s.run = .thresholdReached idx)
      (hscan : s.manager.startScan arti = .error msg) :
      RunStep arti s .go { s with run := .waiting }
  | next {trigger : ℕ} {scan scan' : Scan γ} {o : CheckOutcome}
      (hrun : s.run = .scanning trigger scan) (hresult : (scan.check.finish o).success = false)
      (hstep : scan.step arti s.manager (scan.check.finish o) = .next scan') :
      RunStep arti s (.checked o)
        { s.recordResult scan.idx (scan.check.finish o) with run := .scanning trigger scan' }
  | hit {trigger : ℕ} {scan : Scan γ} {o : CheckOutcome} (hrun : s.run = .scanning trigger scan)
      (hresult : (scan.check.finish o).success = true) :
      RunStep arti s (.checked o)
        { s.recordResult scan.idx (scan.check.finish o) with run := .found trigger scan.idx }
  | exhaust {trigger : ℕ} {scan : Scan γ} {o : CheckOutcome} {msg : String}
      (hrun : s.run = .scanning trigger scan) (hresult : (scan.check.finish o).success = false)
      (hstep : scan.step arti s.manager (scan.check.finish o) = .failed msg) :
      RunStep arti s (.checked o)
        { s.recordResult scan.idx (scan.check.finish o) with run := .waiting }
  | noConfig {trigger newIdx : ℕ} {msg : String} (hrun : s.run = .found trigger newIdx)
      (hconfig : s.manager.productionConfig arti newIdx = .error msg) :
      RunStep arti s .go { s with run := .waiting }
  | same {trigger : ℕ} {config : γ} (hrun : s.run = .found trigger trigger)
      (hconfig : s.manager.productionConfig arti trigger = .ok config) :
      RunStep arti s .go { s with run := .foundSame }
  | other {trigger newIdx : ℕ} {config : γ} (hrun : s.run = .found trigger newIdx)
      (hconfig : s.manager.productionConfig arti newIdx = .ok config) (hne : newIdx ≠ trigger) :
      RunStep arti s .go { s with run := .bootstrapping trigger newIdx config }
  | settle (hrun : s.run = .foundSame) :
      RunStep arti s .go { s.update fun t => { t with consecutiveFailures := 0 } with
        consecutiveFailures := 0, run := .waiting }
  | boot {trigger newIdx : ℕ} {config : γ} (hrun : s.run = .bootstrapping trigger newIdx config) :
      RunStep arti s (.bootstrapped true) { s with run := .replacing trigger newIdx config }
  | noBoot {trigger newIdx : ℕ} {config : γ}
      (hrun : s.run = .bootstrapping trigger newIdx config) :
      RunStep arti s (.bootstrapped false) { s with run := .waiting }
  | replace {trigger newIdx : ℕ} {newCore : γ} (hrun : s.run = .replacing trigger newIdx newCore) :
      RunStep arti s .go { s.replaceCore newCore with run := .storing trigger newIdx }
  | store {trigger newIdx : ℕ} (hrun : s.run = .storing trigger newIdx) :
      RunStep arti s .go { s.storeActive newIdx with run := .reporting newIdx }
  | report {newIdx : ℕ} (hrun : s.run = .reporting newIdx) :
      RunStep arti s .go { s.reportActive newIdx with consecutiveFailures := 0, run := .waiting }

/-- A step of a call that is at a given place: where it is then, and the shared
state. -/
inductive AddStep (arti : Arti β γ) (s : Coordinator β γ) :
    AddPc β γ → Event → AddPc β γ → Coordinator β γ → Prop
  | enter {line : String} :
      AddStep arti s (.entered line) .go (.adding line) (s.update (·.clearError))
  | prepare {line : String} {fs : FileSystem} {builder : β} {manager : BridgeManager β}
      (hprep : s.manager.prepareBridgeLine arti fs line = (.ok builder, manager)) :
      AddStep arti s (.adding line) (.searched fs) (.pushing line builder)
        { s with manager := manager }
  | reject {line : String} {fs : FileSystem} {msg : String} {manager : BridgeManager β}
      (hprep : s.manager.prepareBridgeLine arti fs line = (.error msg, manager)) :
      AddStep arti s (.adding line) (.searched fs) (.failing msg) { s with manager := manager }
  | push {line : String} {builder : β} :
      AddStep arti s (.pushing line builder) .go (.starting s.manager.candidates.length)
        { s with manager := (s.manager.pushCandidate line builder).2 }
  | start {idx : ℕ} :
      AddStep arti s (.starting idx) .go (.checking idx (s.manager.startCheck arti idx)) s
  | pass {idx : ℕ} {check : PendingCheck γ} {o : CheckOutcome}
      (hresult : (check.finish o).success = true) :
      AddStep arti s (.checking idx check) (.checked o) (.configuring idx)
        (s.recordResult idx (check.finish o))
  | miss {idx : ℕ} {check : PendingCheck γ} {o : CheckOutcome}
      (hresult : (check.finish o).success = false) :
      AddStep arti s (.checking idx check) (.checked o)
        (.failing (check.finish o).failureMessage) (s.recordResult idx (check.finish o))
  | fail {msg : String} :
      AddStep arti s (.failing msg) .go (.returned (.error msg))
        (s.update (·.recordError s.now msg))
  | configure {idx : ℕ} {config : γ}
      (hconfig : s.manager.productionConfig arti idx = .ok config) :
      AddStep arti s (.configuring idx) .go (.bootstrapping idx config) s
  | noConfig {idx : ℕ} {msg : String}
      (hconfig : s.manager.productionConfig arti idx = .error msg) :
      AddStep arti s (.configuring idx) .go (.returned (.error msg)) s
  | boot {idx : ℕ} {config : γ} :
      AddStep arti s (.bootstrapping idx config) (.bootstrapped true) (.replacing idx config) s
  | noBoot {idx : ℕ} {config : γ} :
      AddStep arti s (.bootstrapping idx config) (.bootstrapped false)
        (.returned (.error "failed to bootstrap Tor client")) s
  | replace {idx : ℕ} {newCore : γ} :
      AddStep arti s (.replacing idx newCore) .go (.storing idx) (s.replaceCore newCore)
  | store {idx : ℕ} : AddStep arti s (.storing idx) .go (.reporting idx) (s.storeActive idx)
  | report {idx : ℕ} :
      AddStep arti s (.reporting idx) .go (.returned (.ok idx)) (s.reportActive idx)

section Inversion

variable {arti : Arti β γ} {s s' : Coordinator β γ} {e : Event}

theorem runStep_of_stepRun (h : s.stepRun arti e = some s') : RunStep arti s e s' := by
  unfold Coordinator.stepRun at h
  split at h
  · rename_i hrun
    split at h <;> rename_i hact <;> obtain rfl := Option.some.inj h
    · exact .wake hrun hact
    · exact .idle hrun hact
  · rename_i hrun
    obtain rfl := Option.some.inj h
    exact .start hrun
  · rename_i hrun
    dsimp only at h
    split at h <;> rename_i hresult <;> obtain rfl := Option.some.inj h
    · exact .pass hrun hresult
    · exact .miss hrun (Bool.eq_false_iff.mpr hresult)
  · rename_i hrun
    obtain rfl := Option.some.inj h
    exact .recover hrun
  · rename_i hrun
    dsimp only at h
    split at h <;> rename_i hlt <;> obtain rfl := Option.some.inj h
    · exact .below hrun hlt
    · exact .reach hrun (UInt32.not_lt.mp hlt)
  · rename_i hrun
    split at h <;> rename_i hscan <;> obtain rfl := Option.some.inj h
    · exact .scan hrun hscan
    · exact .noScan hrun hscan
  · rename_i hrun
    dsimp only at h
    split at h <;> rename_i hstep <;> obtain rfl := Option.some.inj h
    · exact .next hrun (Scan.not_success_of_step_ne arti hstep (by simp)) hstep
    · obtain ⟨hresult, rfl⟩ := (Scan.step_eq_found arti).mp hstep
      exact .hit hrun hresult
    · exact .exhaust hrun (Scan.not_success_of_step_ne arti hstep (by simp)) hstep
  · rename_i hrun
    split at h
    · rename_i hconfig
      obtain rfl := Option.some.inj h
      exact .noConfig hrun hconfig
    · rename_i hconfig
      split at h <;> rename_i hsame <;> obtain rfl := Option.some.inj h
      · subst hsame
        exact .same hrun hconfig
      · exact .other hrun hconfig hsame
  · rename_i hrun
    obtain rfl := Option.some.inj h
    exact .settle hrun
  · rename_i ok hrun
    cases ok <;> obtain rfl := Option.some.inj h
    · exact .noBoot hrun
    · exact .boot hrun
  · rename_i hrun
    obtain rfl := Option.some.inj h
    exact .replace hrun
  · rename_i hrun
    obtain rfl := Option.some.inj h
    exact .store hrun
  · rename_i hrun
    obtain rfl := Option.some.inj h
    exact .report hrun
  · exact absurd h (by simp)

theorem addStep_of_stepAdd {pc pc' : AddPc β γ} (h : s.stepAdd arti pc e = some (pc', s')) :
    AddStep arti s pc e pc' s' := by
  unfold Coordinator.stepAdd at h
  split at h
  · cases h
    exact .enter
  · split at h <;> rename_i hprep <;> cases h
    · exact .prepare hprep
    · exact .reject hprep
  · cases h
    exact .push
  · cases h
    exact .start
  · dsimp only at h
    split at h <;> rename_i hresult <;> cases h
    · exact .pass hresult
    · exact .miss (Bool.eq_false_iff.mpr hresult)
  · cases h
    exact .fail
  · split at h <;> rename_i hconfig <;> cases h
    · exact .configure hconfig
    · exact .noConfig hconfig
  · rename_i ok
    cases ok <;> cases h
    · exact .noBoot
    · exact .boot
  · cases h
    exact .replace
  · cases h
    exact .store
  · cases h
    exact .report
  · cases h

/-- A step of call `i`. -/
theorem addStep_of_step {i : ℕ} (h : s.step arti (.add i e) = some s') :
    ∃ pc pc' s₁, s.adds[i]? = some pc ∧ AddStep arti s pc e pc' s₁ ∧
      s' = { s₁ with adds := s₁.adds.set i pc' } := by
  simp only [Coordinator.step, Option.bind_eq_bind, Option.bind_eq_some_iff] at h
  obtain ⟨pc, hpc, ⟨pc', s₁⟩, hs₁, h⟩ := h
  exact ⟨pc, pc', s₁, hpc, addStep_of_stepAdd hs₁, (Option.some.inj h).symm⟩

theorem RunStep.adds_eq (h : RunStep arti s e s') : s'.adds = s.adds := by
  cases h <;> rfl

theorem AddStep.adds_eq {pc pc' : AddPc β γ} (h : AddStep arti s pc e pc' s') :
    s'.adds = s.adds := by
  cases h <;> rfl

/-- A call takes a step of its own, or stays where it is. -/
theorem adds_step {a : Action} (h : s.step arti a = some s') {i : ℕ} {pc : AddPc β γ}
    (hpc : s.adds[i]? = some pc) :
    (∀ e, a ≠ .add i e) ∧ s'.adds[i]? = some pc ∨
      ∃ e pc' s₁, a = .add i e ∧ AddStep arti s pc e pc' s₁ ∧
        s' = { s₁ with adds := s.adds.set i pc' } ∧ s'.adds[i]? = some pc' := by
  cases a with
  | call line =>
    cases h
    refine .inl ⟨nofun, ?_⟩
    exact (List.getElem?_append_left (List.getElem?_eq_some_iff.mp hpc).1).trans hpc
  | run e =>
    refine .inl ⟨nofun, ?_⟩
    rw [(runStep_of_stepRun h).adds_eq]
    exact hpc
  | add j e =>
    obtain ⟨pc₀, pc', s₁, hpc₀, hadd, rfl⟩ := addStep_of_step h
    rw [hadd.adds_eq]
    by_cases hij : j = i
    · subst hij
      cases hpc.symm.trans hpc₀
      exact .inr ⟨e, pc', s₁, rfl, hadd, rfl, Machine.getElem?_set_self_of_some hpc⟩
    · refine .inl ⟨?_, (List.getElem?_set_ne hij).trans hpc⟩
      rintro e' ⟨⟩
      exact hij rfl
  | tick nanos =>
    cases h
    exact .inl ⟨nofun, hpc⟩

end Inversion

/-! ## Schedules

Stretches of runs, for examples. -/

/-- The bridge in use and one to fail over to. -/
def bridgeAndSpare : BridgeManager String :=
  ⟨[], [⟨firstLine, firstLine⟩, ⟨spareLine, spareLine⟩]⟩

/-- One turn of the loop up to the end of a failed check. -/
def failedCheck : List Action :=
  [.run .go, .run .go, .run (.checked (.connectTimedOut 0)), .run .go]

/-- With a threshold of one: the loop finds bridge 0 down and bridge 1 healthy,
and bootstraps for it. -/
def failoverUpToBootstrap : List Action :=
  failedCheck ++ [.run .go, .run (.checked (.connectTimedOut 0)), .run (.checked (.connected 0)),
    .run .go, .run (.bootstrapped true)]

/-- `try_add_bridge` call `i` from its start to the end of its bootstrap, the
health check having succeeded. -/
def addUpToBootstrap (i : ℕ) : List Action :=
  [.add i .go, .add i (.searched .empty), .add i .go, .add i .go, .add i (.checked (.connected 0)),
    .add i .go, .add i (.bootstrapped true)]

/-- The three writes of call `i`. -/
def addActivate (i : ℕ) : List Action := [.add i .go, .add i .go, .add i .go]

end Anonet.Bridges
