import Mathlib.Data.List.Sort
import Mathlib.Tactic.Common

/-!
# Live health state

`telemetry/src/lib.rs`: the record every background task updates, one closure at
a time, and the dashboard reads.  Instants are nanoseconds.
-/

namespace Anonet.Telemetry

/-- How many recent health-check outcomes to keep. -/
def historyCapacity : ℕ := 120

/-- How many recent stream events to keep. -/
def streamEventsCapacity : ℕ := 200

structure HealthSample where
  time : ℕ
  success : Bool
  latencyMs : UInt64
  deriving DecidableEq

/-- Last known status of one configured bridge candidate. -/
structure CandidateStatus where
  index : ℕ
  line : String
  lastSuccess : Option Bool
  lastLatencyMs : Option UInt64
  lastCheckedAt : Option ℕ
  deriving DecidableEq

structure StreamEvent where
  time : ℕ
  status : String
  target : String
  deriving DecidableEq

structure HealthStatus where
  activeBridgeIndex : Option ℕ := none
  activeBridgeLine : Option String := none
  lastCheckAt : Option ℕ := none
  lastSwitchAt : Option ℕ := none
  consecutiveFailures : UInt32 := 0
  totalSwitches : UInt64 := 0
  history : List HealthSample := []
  candidates : List CandidateStatus := []
  socksConnectionsTotal : UInt64 := 0
  socksConnectionsActive : UInt64 := 0
  transparentEnabled : Bool := false
  recentStreams : List StreamEvent := []
  /-- The last error from any background action. -/
  lastError : Option (ℕ × String) := none
  deriving DecidableEq

/-- Append to a queue that drops its oldest entries beyond `capacity`. -/
def pushBounded {α : Type} (capacity : ℕ) (queue : List α) (a : α) : List α :=
  (queue ++ [a]).drop ((queue ++ [a]).length - capacity)

namespace HealthStatus

/-- Every configured bridge, not yet checked. -/
def seedCandidates (self : HealthStatus) (all : List (ℕ × String)) : HealthStatus :=
  { self with candidates := all.map fun (index, line) => ⟨index, line, none, none, none⟩ }

def pushSample (self : HealthStatus) (sample : HealthSample) : HealthStatus :=
  { self with history := pushBounded historyCapacity self.history sample }

def pushStreamEvent (self : HealthStatus) (event : StreamEvent) : HealthStatus :=
  { self with recentStreams := pushBounded streamEventsCapacity self.recentStreams event }

def recordError (self : HealthStatus) (now : ℕ) (message : String) : HealthStatus :=
  { self with lastError := some (now, message) }

def clearError (self : HealthStatus) : HealthStatus := { self with lastError := none }

/-- Update the first row of `index`, or add one and sort the table. -/
def recordCandidateResult (self : HealthStatus) (now : ℕ) (index : ℕ) (line : String)
    (success : Bool) (latencyMs : UInt64) : HealthStatus :=
  match self.candidates.findIdx? (·.index = index) with
  | some i =>
    let update (c : CandidateStatus) : CandidateStatus :=
      { c with
        lastSuccess := some success
        lastLatencyMs := some latencyMs
        lastCheckedAt := some now }
    { self with candidates := self.candidates.modify i update }
  | none =>
    let row : CandidateStatus := ⟨index, line, some success, some latencyMs, some now⟩
    { self with
      candidates := (self.candidates ++ [row]).insertionSort (fun a b => a.index ≤ b.index) }

/-- `Reporter::connection_opened`. -/
def connectionOpened (self : HealthStatus) : HealthStatus :=
  { self with
    socksConnectionsTotal := self.socksConnectionsTotal + 1
    socksConnectionsActive := self.socksConnectionsActive + 1 }

/-- `Reporter::connection_closed`. -/
def connectionClosed (self : HealthStatus) : HealthStatus :=
  { self with
    socksConnectionsActive :=
      if self.socksConnectionsActive = 0 then 0 else self.socksConnectionsActive - 1 }

end HealthStatus

/-- What a step of some task does to `last_error`. -/
inductive ErrorOp
  | keep
  | clear
  | record (time : ℕ) (message : String)
  deriving DecidableEq

def ErrorOp.apply : ErrorOp → Option (ℕ × String) → Option (ℕ × String)
  | .keep, lastError => lastError
  | .clear, _ => none
  | .record time message, _ => some (time, message)

/-! ## Bounded queues -/

/-- The last `capacity` items. -/
def latest {α : Type} (capacity : ℕ) (l : List α) : List α := l.drop (l.length - capacity)

section Latest

variable {α β : Type} {capacity : ℕ} {l : List α}

theorem latest_of_length_le (h : l.length ≤ capacity) : latest capacity l = l := by
  rw [latest, Nat.sub_eq_zero_of_le h, List.drop_zero]

theorem length_latest : (latest capacity l).length = min capacity l.length := by
  rw [latest, List.length_drop]
  omega

/-- What has been dropped already makes no difference. -/
theorem latest_append (l m : List α) :
    latest capacity (latest capacity l ++ m) = latest capacity (l ++ m) := by
  obtain ⟨dropped, hl, hlen⟩ : ∃ dropped, l = dropped ++ latest capacity l ∧
      (dropped ≠ [] → (latest capacity l).length = capacity) := by
    refine ⟨l.take (l.length - capacity), (List.take_append_drop _ l).symm, ?_⟩
    intro hne
    rw [length_latest]
    have hpos : 0 < l.length - capacity := by
      refine Nat.pos_of_ne_zero ?_
      intro hzero
      rw [hzero, List.take_zero] at hne
      exact hne rfl
    omega
  generalize latest capacity l = kept at hl hlen
  subst hl
  by_cases hd : dropped = []
  · rw [hd, List.nil_append]
  · have hcap := hlen hd
    have hall : dropped.drop ((dropped ++ kept ++ m).length - capacity) = [] := by
      refine List.drop_eq_nil_of_le ?_
      simp only [List.length_append]
      omega
    calc latest capacity (kept ++ m)
        = (kept ++ m).drop ((dropped ++ kept ++ m).length - capacity - dropped.length) := by
          rw [latest]
          congr 1
          simp only [List.length_append]
          omega
      _ = dropped.drop ((dropped ++ kept ++ m).length - capacity) ++
            (kept ++ m).drop ((dropped ++ kept ++ m).length - capacity - dropped.length) := by
          rw [hall, List.nil_append]
      _ = latest capacity (dropped ++ kept ++ m) := by
          rw [← List.drop_append, ← List.append_assoc]
          rfl

theorem map_latest (f : α → β) : (latest capacity l).map f = latest capacity (l.map f) := by
  rw [latest, latest, List.map_drop, List.length_map]

end Latest

theorem HealthStatus.recentStreams_pushStreamEvent (self : HealthStatus) (event : StreamEvent) :
    (self.pushStreamEvent event).recentStreams =
      latest streamEventsCapacity (self.recentStreams ++ [event]) := by
  simp only [pushStreamEvent, pushBounded, latest]
namespace HealthStatus

/-! ## What an update leaves alone -/

section Frame

variable (self : HealthStatus) (now index : ℕ) (line message : String) (success : Bool)
  (latencyMs : UInt64) (sample : HealthSample)

@[simp] theorem activeBridgeIndex_pushSample :
    (self.pushSample sample).activeBridgeIndex = self.activeBridgeIndex := by
  simp only [pushSample]

@[simp] theorem activeBridgeIndex_recordError :
    (self.recordError now message).activeBridgeIndex = self.activeBridgeIndex := rfl

@[simp] theorem activeBridgeIndex_clearError :
    self.clearError.activeBridgeIndex = self.activeBridgeIndex := rfl

@[simp] theorem activeBridgeIndex_recordCandidateResult :
    (self.recordCandidateResult now index line success latencyMs).activeBridgeIndex =
      self.activeBridgeIndex := by
  unfold recordCandidateResult
  split <;> rfl

@[simp] theorem lastError_recordCandidateResult :
    (self.recordCandidateResult now index line success latencyMs).lastError = self.lastError := by
  unfold recordCandidateResult
  split <;> rfl

end Frame

/-! ## The candidates table -/

/-- The table's rows, without what the checks found. -/
def table (self : HealthStatus) : List (ℕ × String) :=
  self.candidates.map fun row => (row.index, row.line)

@[simp] theorem table_seedCandidates (self : HealthStatus) (all : List (ℕ × String)) :
    (self.seedCandidates all).table = all := by
  rw [table, seedCandidates, List.map_map]
  exact List.map_id all

/-- A result goes into the row of its candidate, or into a new row at its place. -/
theorem table_recordCandidateResult (self : HealthStatus) (now index : ℕ) (line : String)
    (success : Bool) (latencyMs : UInt64) :
    (self.recordCandidateResult now index line success latencyMs).table =
      if ∃ row ∈ self.table, row.1 = index then self.table
      else (self.table ++ [(index, line)]).insertionSort (fun a b => a.1 ≤ b.1) := by
  have hmem : (∃ row ∈ self.table, row.1 = index) ↔ ∃ c ∈ self.candidates, c.index = index := by
    simp [table]
  unfold recordCandidateResult
  split
  · rename_i i hi
    have hfound : ∃ c ∈ self.candidates, c.index = index := by
      obtain ⟨hlt, hc, -⟩ := List.findIdx?_eq_some_iff_getElem.mp hi
      exact ⟨_, List.getElem_mem hlt, of_decide_eq_true hc⟩
    rw [if_pos (hmem.mpr hfound)]
    refine List.ext_getElem? ?_
    intro j
    simp only [table, List.getElem?_map, List.getElem?_modify]
    cases self.candidates[j]? with
    | none => rfl
    | some c => by_cases hij : i = j <;> simp [hij]
  · rename_i hnone
    have habsent : ¬ ∃ c ∈ self.candidates, c.index = index := by
      rintro ⟨c, hc, hindex⟩
      have hno := List.findIdx?_eq_none_iff.mp hnone c hc
      exact absurd hindex (of_decide_eq_false hno)
    rw [if_neg (hmem.not.mpr habsent)]
    simp only [table]
    rw [List.map_insertionSort (fun a b : CandidateStatus => a.index ≤ b.index)
      (fun a b : ℕ × String => a.1 ≤ b.1) _ _ fun _ _ _ _ => Iff.rfl, List.map_append]
    rfl

end HealthStatus

end Anonet.Telemetry
