import Anonet.Bridges.CandidateTable
import Anonet.Bridges.Search

/-!
# The record of the checks

The telemetry record keeps little of what the loop, its scans and the calls of
`try_add_bridge` do: the last result for each candidate, the last 120 periodic checks,
when the bridge in use last changed.  Here everything is kept, beside the machine, and
the record is what is to be read off that.

* `Report`, `CheckLog` — all checks and all switches of a run; a history variable.
* `RecordStep` — what one step adds to the log, and does to the record.
* `Digest` — the record read off the log; `Digest.step` is its step lemma.
* `digest_of_reach` — **it is that in every run**, from the startup's own scan on.
-/

namespace Anonet.Bridges

open Anonet.Core Telemetry

variable {β γ : Type}

/-! ## The log -/

/-- A health check that has ended and was reported. -/
structure Report where
  time : ℕ
  index : ℕ
  result : HealthResult
  /-- One of the loop's own checks of the bridge in use. -/
  periodic : Bool
  deriving DecidableEq

def Report.sample (r : Report) : HealthSample := ⟨r.time, r.result.success, r.result.latencyMs⟩

/-- A change of the bridge in use, as reported. -/
structure Switch where
  time : ℕ
  index : ℕ
  deriving DecidableEq

/-- The checks and the switches there have been, the latest last. -/
structure CheckLog where
  reports : List Report
  switches : List Switch
  deriving DecidableEq

namespace CheckLog

def periodic (g : CheckLog) : List Report := g.reports.filter (·.periodic)

/-- The latest check of a candidate. -/
def last (g : CheckLog) (idx : ℕ) : Option Report := (g.reports.filter (·.index = idx)).getLast?

/-- The bridge in use, when it was `initial` before the first switch. -/
def active (g : CheckLog) (initial : Option ℕ) : Option ℕ :=
  (g.switches.getLast?.map (·.index)).or initial

end CheckLog

/-- The check that ends with an action. -/
def reportsOf (s : Coordinator β γ) : Action → List Report
  | .run (.checked o) =>
    match s.run with
    | .checking idx check => [⟨s.now, idx, check.finish o, true⟩]
    | .scanning _ scan => [⟨s.now, scan.idx, scan.check.finish o, false⟩]
    | _ => []
  | .add i (.checked o) =>
    match s.adds[i]? with
    | some (.checking idx check) => [⟨s.now, idx, check.finish o, false⟩]
    | _ => []
  | _ => []

/-- The switch an action reports. -/
def switchesOf (s : Coordinator β γ) : Action → List Switch
  | .run .go =>
    match s.run with
    | .reporting newIdx => [⟨s.now, newIdx⟩]
    | _ => []
  | .add i .go =>
    match s.adds[i]? with
    | some (.reporting idx) => [⟨s.now, idx⟩]
    | _ => []
  | _ => []

def noteReports (s : Coordinator β γ) (a : Action) (_ : Coordinator β γ) (g : CheckLog) : CheckLog :=
  ⟨g.reports ++ reportsOf s a, g.switches ++ switchesOf s a⟩

/-! ## One step -/

/-- What the bridge panels are drawn from. -/
structure PanelData where
  history : List HealthSample
  lastCheckAt : Option ℕ
  lastSwitchAt : Option ℕ
  totalSwitches : UInt64
  activeBridgeIndex : Option ℕ
  activeBridgeLine : Option String
  candidates : List CandidateStatus

def panelData (t : HealthStatus) : PanelData :=
  ⟨t.history, t.lastCheckAt, t.lastSwitchAt, t.totalSwitches, t.activeBridgeIndex,
    t.activeBridgeLine, t.candidates⟩

/-- The candidates' rows after a check. -/
def Report.enter (r : Report) (t : HealthStatus) : HealthStatus :=
  t.recordCandidateResult r.time r.index r.result.candidateLine r.result.success r.result.latencyMs

/-- What a step adds to the log, and what it does to the record. -/
inductive RecordStep (m : BridgeManager β) (t : HealthStatus) :
    List Report → List Switch → HealthStatus → Prop
  | quiet {t' : HealthStatus} (h : panelData t' = panelData t) : RecordStep m t [] [] t'
  | check {r : Report} (hline : m.candidateLine r.index = some r.result.candidateLine)
      (hr : r.periodic = false) : RecordStep m t [r] [] (r.enter t)
  | periodic {r : Report} (hline : m.candidateLine r.index = some r.result.candidateLine)
      (hr : r.periodic = true) :
      RecordStep m t [r] []
        (r.enter (({ t with lastCheckAt := some r.time }).pushSample r.sample))
  | switch {w : Switch} {t' : HealthStatus} (h : panelData t' = { panelData t with
      activeBridgeIndex := some w.index
      activeBridgeLine := m.candidateLine w.index
      lastSwitchAt := some w.time
      totalSwitches := t.totalSwitches + 1 }) : RecordStep m t [] [w] t'

section Steps

variable {arti : Arti β γ} {s s' : Coordinator β γ}

theorem RunStep.record {e : Event} (h : Tabled s) (hs : RunStep arti s e s') :
    RecordStep s.manager s.telemetry (reportsOf s (.run e)) (switchesOf s (.run e))
      s'.telemetry := by
  have hrun := h.run
  cases hs with
  | pass hpc | miss hpc =>
    rw [hpc] at hrun
    simp only [reportsOf, switchesOf, hpc]
    refine .periodic ?_ rfl
    rw [PendingCheck.candidateLine_finish]
    exact hrun
  | next hpc | hit hpc | exhaust hpc =>
    rw [hpc] at hrun
    simp only [reportsOf, switchesOf, hpc]
    refine .check ?_ rfl
    rw [PendingCheck.candidateLine_finish]
    exact hrun.2
  | report hpc =>
    simp only [reportsOf, switchesOf, hpc]
    exact .switch rfl
  | wake hpc | idle hpc | start hpc | recover hpc | below hpc | reach hpc | scan hpc | noScan hpc
  | noConfig hpc | same hpc | other hpc | settle hpc | boot hpc | noBoot hpc | replace hpc
  | store hpc =>
    simp only [reportsOf, switchesOf, hpc]
    exact .quiet rfl

theorem AddStep.record {i : ℕ} {pc pc' : AddPc β γ} {e : Event} (h : Tabled s)
    (hpc : s.adds[i]? = some pc) (hs : AddStep arti s pc e pc' s') :
    RecordStep s.manager s.telemetry (reportsOf s (.add i e)) (switchesOf s (.add i e))
      s'.telemetry := by
  have hvalid := h.adds i pc hpc
  cases hs with
  | pass | miss =>
    simp only [reportsOf, switchesOf, hpc]
    refine .check ?_ rfl
    rw [PendingCheck.candidateLine_finish]
    exact hvalid
  | report =>
    simp only [reportsOf, switchesOf, hpc]
    exact .switch rfl
  | enter | prepare | reject | push | start | fail | configure | noConfig | boot | noBoot
  | replace | store =>
    simp only [reportsOf, switchesOf, hpc]
    exact .quiet rfl

/-- **One step of the machine.** -/
theorem Tabled.record (h : Tabled s) {a : Action} (hs : s.step arti a = some s') :
    RecordStep s.manager s.telemetry (reportsOf s a) (switchesOf s a) s'.telemetry := by
  cases a with
  | call line | tick nanos =>
    obtain rfl := Option.some.inj hs
    exact .quiet rfl
  | run e => exact (runStep_of_stepRun hs).record h
  | add i e =>
    obtain ⟨pc, pc', s₁, hpc, hadd, rfl⟩ := addStep_of_step hs
    have hrecord := hadd.record h hpc
    exact hrecord

end Steps

/-! ## Reading the record off the log -/

/-- What a row of the table says of its candidate's last check. -/
def verdict (r : Option Report) : Option Bool × Option UInt64 × Option ℕ :=
  (r.map (·.result.success), r.map (·.result.latencyMs), r.map (·.time))

def rowVerdict (row : CandidateStatus) : Option Bool × Option UInt64 × Option ℕ :=
  (row.lastSuccess, row.lastLatencyMs, row.lastCheckedAt)

/-- The record is the one of the log; `initial` is the bridge the coordinator began with. -/
structure Digest (initial : Option ℕ) (m : BridgeManager β) (t : HealthStatus) (g : CheckLog) :
    Prop where
  history : t.history = latest historyCapacity (g.periodic.map Report.sample)
  lastCheck : t.lastCheckAt = g.periodic.getLast?.map (·.time)
  lastSwitch : t.lastSwitchAt = g.switches.getLast?.map (·.time)
  switches : t.totalSwitches = UInt64.ofNat g.switches.length
  active : t.activeBridgeIndex = g.active initial
  direct : t.activeBridgeIndex = none → t.activeBridgeLine = none
  rows : ∀ row ∈ t.candidates, rowVerdict row = verdict (g.last row.index)
  reported : ∀ r ∈ g.reports,
    m.candidateLine r.index = some r.result.candidateLine ∧ HasRow t r.index

namespace CheckLog

variable {g : CheckLog} {r : Report} {idx : ℕ}

theorem last_concat (g : CheckLog) (r : Report) (switches : List Switch) (idx : ℕ) :
    (⟨g.reports ++ [r], switches⟩ : CheckLog).last idx =
      if r.index = idx then some r else g.last idx := by
  by_cases h : r.index = idx <;> simp [last, List.filter_append, h]

theorem periodic_concat (g : CheckLog) (r : Report) (switches : List Switch) :
    (⟨g.reports ++ [r], switches⟩ : CheckLog).periodic =
      if r.periodic then g.periodic ++ [r] else g.periodic := by
  by_cases h : r.periodic = true <;> simp [periodic, List.filter_append, h]

end CheckLog

section Rows

variable {t : HealthStatus} {r : Report}

/-- A check changes its candidate's row, or adds one, and no other. -/
theorem mem_candidates_enter (hsorted : t.table.Pairwise (·.1 < ·.1)) {row : CandidateStatus}
    (h : row ∈ (r.enter t).candidates) :
    row.index ≠ r.index ∧ row ∈ t.candidates ∨
      row.index = r.index ∧ rowVerdict row = verdict (some r) := by
  rw [HealthStatus.table, List.pairwise_map] at hsorted
  unfold Report.enter HealthStatus.recordCandidateResult at h
  split at h
  · rename_i i hi
    obtain ⟨hlt, hindex, -⟩ := List.findIdx?_eq_some_iff_getElem.mp hi
    obtain ⟨j, hj, hrow⟩ := List.getElem_of_mem h
    have hj' : j < t.candidates.length := by simpa using hj
    rw [List.getElem_modify] at hrow
    split at hrow
    · rename_i hij
      subst hij
      rw [← hrow]
      exact .inr ⟨of_decide_eq_true hindex, rfl⟩
    · rename_i hij
      subst hrow
      refine .inl ⟨?_, List.getElem_mem hj'⟩
      -- no other row has this index
      intro heq
      have hsame : t.candidates[i].index = t.candidates[j].index :=
        (of_decide_eq_true hindex).trans heq.symm
      rcases Nat.lt_or_gt_of_ne hij with hlt' | hgt
      · exact absurd hsame (List.pairwise_iff_getElem.mp hsorted i j hlt hj' hlt').ne
      · exact absurd hsame (List.pairwise_iff_getElem.mp hsorted j i hj' hlt hgt).ne'
  · rename_i hnone
    rw [List.mem_insertionSort] at h
    rcases List.mem_append.mp h with h | h
    · have hne := List.findIdx?_eq_none_iff.mp hnone row h
      exact .inl ⟨of_decide_eq_false hne, h⟩
    · obtain rfl := List.mem_singleton.mp h
      exact .inr ⟨rfl, rfl⟩

/-- The rows after a check are those of the log with the check. -/
theorem rows_enter {g : CheckLog} (hsorted : t.table.Pairwise (·.1 < ·.1))
    (h : ∀ row ∈ t.candidates, rowVerdict row = verdict (g.last row.index))
    (switches : List Switch) : ∀ row ∈ (r.enter t).candidates,
      rowVerdict row = verdict ((⟨g.reports ++ [r], switches⟩ : CheckLog).last row.index) := by
  intro row hrow
  rw [CheckLog.last_concat]
  rcases mem_candidates_enter hsorted hrow with ⟨hne, hmem⟩ | ⟨heq, hverdict⟩
  · rw [if_neg hne.symm]
    exact h row hmem
  · rw [if_pos heq.symm]
    exact hverdict

/-- What a periodic check does besides. -/
theorem panelData_pushSample (t : HealthStatus) (time : ℕ) (sample : HealthSample) :
    panelData (({ t with lastCheckAt := some time }).pushSample sample) =
      { panelData t with
        lastCheckAt := some time
        history := latest historyCapacity (t.history ++ [sample]) } := by
  simp only [panelData, HealthStatus.pushSample, pushBounded, latest]

theorem panelData_enter : panelData (r.enter t) =
    { panelData t with candidates := (r.enter t).candidates } := by
  unfold Report.enter HealthStatus.recordCandidateResult
  split <;> rfl

end Rows

section Digest

variable {initial : Option ℕ} {m m' : BridgeManager β} {t t' : HealthStatus} {g : CheckLog}
  {rs : List Report} {ws : List Switch}

theorem hasRow_congr (h : t'.candidates = t.candidates) {idx : ℕ} (hrow : HasRow t idx) :
    HasRow t' idx := by
  rw [HasRow, HealthStatus.table, h]
  exact hrow

/-- **The step lemma.** -/
theorem Digest.step (h : Digest initial m t g) (hsorted : t.table.Pairwise (·.1 < ·.1))
    (hm : m.Extends m') (hs : RecordStep m t rs ws t') :
    Digest initial m' t' ⟨g.reports ++ rs, g.switches ++ ws⟩ := by
  have hreported : ∀ {t' : HealthStatus}, (∀ idx, HasRow t idx → HasRow t' idx) →
      ∀ r ∈ g.reports, m'.candidateLine r.index = some r.result.candidateLine ∧
        HasRow t' r.index := by
    intro t' hrows r hr
    obtain ⟨hline, hrow⟩ := h.reported r hr
    exact ⟨hm.candidateLine hline, hrows _ hrow⟩
  -- with the check that has been entered
  have hentered : ∀ {r : Report} {t₁ : HealthStatus},
      m.candidateLine r.index = some r.result.candidateLine → t₁.candidates = t.candidates →
      ∀ r' ∈ g.reports ++ [r], m'.candidateLine r'.index = some r'.result.candidateLine ∧
        HasRow (r.enter t₁) r'.index := by
    intro r t₁ hline hrows r' hr'
    rcases List.mem_append.mp hr' with hr' | hr'
    · exact hreported (fun _ hrow => hasRow_recordCandidateResult.mpr
        (.inr (hasRow_congr hrows hrow))) r' hr'
    · obtain rfl := List.mem_singleton.mp hr'
      exact ⟨hm.candidateLine hline, hasRow_recordCandidateResult.mpr (.inl rfl)⟩
  cases hs with
  | quiet hdata =>
    rw [List.append_nil, List.append_nil]
    obtain ⟨hhistory, hcheck, hswitch, htotal, hactive, hactiveLine, hrows⟩ :=
      PanelData.mk.inj hdata
    exact ⟨hhistory.trans h.history, hcheck.trans h.lastCheck, hswitch.trans h.lastSwitch,
      htotal.trans h.switches, hactive.trans h.active, hactive ▸ hactiveLine ▸ h.direct,
      hrows ▸ h.rows, hreported fun _ => hasRow_congr hrows⟩
  | @check r hline hr =>
    rw [List.append_nil]
    obtain ⟨hhistory, hcheck, hswitch, htotal, hactive, hactiveLine, -⟩ :=
      PanelData.mk.inj (panelData_enter (r := r) (t := t))
    have hperiodic := CheckLog.periodic_concat g r g.switches
    rw [hr, if_neg Bool.false_ne_true] at hperiodic
    refine ⟨?_, ?_, hswitch.trans h.lastSwitch, htotal.trans h.switches,
      hactive.trans h.active, hactive ▸ hactiveLine ▸ h.direct, rows_enter hsorted h.rows _,
      hentered hline rfl⟩
    · rw [hperiodic]
      exact hhistory.trans h.history
    · rw [hperiodic]
      exact hcheck.trans h.lastCheck
  | @periodic r hline hr =>
    rw [List.append_nil]
    have hdata := panelData_enter (r := r)
      (t := ({ t with lastCheckAt := some r.time }).pushSample r.sample)
    rw [panelData_pushSample] at hdata
    obtain ⟨hhistory, hcheck, hswitch, htotal, hactive, hactiveLine, -⟩ := PanelData.mk.inj hdata
    have hperiodic := CheckLog.periodic_concat g r g.switches
    rw [if_pos hr] at hperiodic
    have hrows := rows_enter (r := r)
      (t := ({ t with lastCheckAt := some r.time }).pushSample r.sample) hsorted h.rows g.switches
    refine ⟨?_, ?_, hswitch.trans h.lastSwitch, htotal.trans h.switches,
      hactive.trans h.active, hactive ▸ hactiveLine ▸ h.direct, hrows, hentered hline rfl⟩
    · rw [hperiodic, List.map_append, ← latest_append, ← h.history]
      exact hhistory
    · rw [hperiodic, List.getLast?_concat]
      exact hcheck
  | @switch w _ hdata =>
    rw [List.append_nil]
    obtain ⟨hhistory, hcheck, hswitch, htotal, hactive, -, hrows⟩ := PanelData.mk.inj hdata
    refine ⟨hhistory.trans h.history, hcheck.trans h.lastCheck, ?_, ?_, ?_, ?_, hrows ▸ h.rows,
      hreported fun _ => hasRow_congr hrows⟩
    · rw [List.getLast?_concat]
      exact hswitch
    · rw [List.length_append, List.length_singleton, UInt64.ofNat_add, ← h.switches]
      exact htotal
    · rw [CheckLog.active, List.getLast?_concat]
      exact hactive
    · intro hnone
      cases hactive.symm.trans hnone

end Digest

/-! ## From the start -/

section Startup

variable {arti : Arti β γ} {m : BridgeManager β} {answer : ℕ → ℕ × CheckOutcome}

/-- The checks of the startup's scan. -/
def startupReports (arti : Arti β γ) (answer : ℕ → ℕ × CheckOutcome) (m : BridgeManager β) :
    List Report :=
  (Search.findHealthyConfigReporting arti (fun _ => m) (fun i => (answer i).2) m).reports.map
    fun (idx, result) => ⟨(answer idx).1, idx, result, false⟩

/-- They are reported under their candidates' lines. -/
theorem candidateLine_startupReports {r : Report} (h : r ∈ startupReports arti answer m) :
    r.periodic = false ∧ m.candidateLine r.index = some r.result.candidateLine := by
  obtain ⟨⟨idx, result⟩, hmem, rfl⟩ := List.mem_map.mp h
  refine ⟨rfl, ?_⟩
  unfold Search.findHealthyConfigReporting at hmem
  split at hmem
  · cases hmem
  · rename_i hsome
    obtain ⟨n, hn⟩ := Nat.exists_eq_succ_of_ne_zero hsome
    obtain ⟨k, -, hk, -, -, hsearch⟩ := Search.exists_last arti (fun _ => m)
      (fun i => (answer i).2) m.candidateCount n 0
    rw [hn] at hmem hsearch
    rw [hsearch] at hmem
    obtain ⟨i, hi, hpair⟩ := List.mem_map.mp hmem
    obtain ⟨rfl, rfl⟩ := Prod.mk.inj hpair
    have hlt : i < m.candidates.length := by
      have hcount : m.candidates.length = n + 1 := hn
      have hle := (List.mem_range'_1.mp hi).2
      omega
    dsimp only
    rw [Search.checkResult, PendingCheck.candidateLine_finish]
    exact candidateLine_startCheck arti hlt

/-- Several checks in a row. -/
theorem digest_foldl {initial : Option ℕ} {t : HealthStatus} {g : CheckLog} {rs : List Report}
    (h : Digest initial m t g) (hshows : Shows m t)
    (hrs : ∀ r ∈ rs, r.periodic = false ∧ m.candidateLine r.index = some r.result.candidateLine) :
    Digest initial m (rs.foldl (fun t r => r.enter t) t) ⟨g.reports ++ rs, g.switches⟩ := by
  induction rs generalizing t g with
  | nil =>
    rw [List.append_nil]
    exact h
  | cons r rs ih =>
    obtain ⟨hr, hline⟩ := hrs r List.mem_cons_self
    have hone := h.step hshows.sorted .rfl (.check hline hr)
    have hrest := ih hone (hshows.record hline _ _ _) fun r' hr' => hrs r' (.tail _ hr')
    rw [List.append_nil, List.append_assoc] at hrest
    exact hrest

theorem digest_seedCandidates (m : BridgeManager β) :
    Digest none m (({} : HealthStatus).seedCandidates m.allCandidates) ⟨[], []⟩ where
  history := rfl
  lastCheck := rfl
  lastSwitch := rfl
  switches := rfl
  active := rfl
  direct _ := rfl
  rows := by
    intro row hrow
    obtain ⟨_, -, rfl⟩ := List.mem_map.mp hrow
    rfl
  reported r hr := by cases hr

theorem telemetry_chooseClient (direct : γ) (t : HealthStatus) :
    (m.chooseClient arti direct answer t).1 =
      (startupReports arti answer m).foldl (fun t r => r.enter t) t := by
  have hscan : (m.findHealthyConfigReporting arti answer t).1 =
      (startupReports arti answer m).foldl (fun t r => r.enter t) t := by
    rw [Search.startup_search, startupReports, List.foldl_map]
    rfl
  unfold BridgeManager.chooseClient
  split
  · rename_i hnone
    rw [BridgeManager.findHealthyConfigReporting, if_pos hnone] at hscan
    exact hscan
  · split <;> rename_i hfound <;> rw [hfound] at hscan <;> exact hscan

/-- The coordinator reports the bridge it begins with. -/
theorem Digest.new {core : γ} {t : HealthStatus} {g : CheckLog} (h : Digest none m t g)
    (hg : g.switches = []) (active : Option ℕ) (failureThreshold : UInt32) (now : ℕ) :
    Digest active m (Coordinator.new m core t active failureThreshold now).telemetry g := by
  have hactive : g.active active = active := by rw [CheckLog.active, hg]; rfl
  have hnone : t.activeBridgeIndex = none := by
    rw [h.active, CheckLog.active, hg]
    rfl
  cases active with
  | none => exact ⟨h.history, h.lastCheck, h.lastSwitch, h.switches, hnone.trans hactive.symm,
      h.direct, h.rows, h.reported⟩
  | some idx => exact ⟨h.history, h.lastCheck, h.lastSwitch, h.switches, hactive.symm,
      (fun hidx => by cases hidx), h.rows, h.reported⟩

theorem digest_startup {direct : γ} {transports : List TransportBinary}
    {lines : List (FileSystem × String)} {bootstraps : Bool} {failureThreshold : UInt32} {now : ℕ}
    {s : Coordinator β γ}
    (h : startup arti direct transports lines answer bootstraps failureThreshold now = .ok s) :
    Digest s.activeIdx s.manager s.telemetry ⟨startupReports arti answer s.manager, []⟩ := by
  unfold startup at h
  split at h
  · cases h
  · rename_i m _
    dsimp only at h
    split at h
    · obtain rfl := Except.ok.inj h
      refine Digest.new ?_ rfl _ _ _
      rw [telemetry_chooseClient]
      exact digest_foldl (digest_seedCandidates m) (shows_seedCandidates m)
        fun r hr => candidateLine_startupReports hr
    · cases h

/-- **The record is the digest of everything checked since the start.** -/
theorem digest_of_reach {direct : γ} {transports : List TransportBinary}
    {lines : List (FileSystem × String)} {bootstraps : Bool} {failureThreshold : UInt32} {now : ℕ}
    {s₀ s : Coordinator β γ} {g : CheckLog}
    (hstart : startup arti direct transports lines answer bootstraps failureThreshold now = .ok s₀)
    (h : ((coordinating arti).watch noteReports).Reach Machine.anyStep
      (s₀, ⟨startupReports arti answer s₀.manager, []⟩) (s, g)) :
    Tabled s ∧ Digest s₀.activeIdx s.manager s.telemetry g := by
  refine h.invariant (I := fun p => Tabled p.1 ∧ Digest s₀.activeIdx p.1.manager p.1.telemetry p.2)
    ⟨tabled_startup hstart, digest_startup hstart⟩ ?_
  rintro ⟨s, g⟩ a ⟨s', g'⟩ ⟨htabled, hdigest⟩ - hs
  obtain ⟨hs, hg⟩ := Machine.watch_step.mp hs
  dsimp only at hs hg htabled hdigest ⊢
  rw [hg]
  exact ⟨htabled.step hs,
    hdigest.step htabled.shown.sorted (step_stage hs).1 (htabled.record hs)⟩

end Startup

end Anonet.Bridges
