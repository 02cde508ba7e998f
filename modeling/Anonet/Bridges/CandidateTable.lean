import Anonet.Bridges.Activation
import Anonet.Bridges.Startup

/-!
# The candidates table

The dashboard's table of bridges is filled from three sides: the startup seeds it,
and afterwards the loop and every `try_add_bridge` call report the candidates they
have checked, in whatever order the checks end.

* `Shows` — the table's rows, and the active bridge, name candidates of the manager.
* `Tabled` — the invariant: every task reports candidates under their own lines, and
  a candidate without a row is one that its call is still checking.
* `table_of_reach` — **the table is in order and right at any time, and complete
  whenever no call is in progress.**
-/

namespace Anonet.Bridges

open Anonet.Core Telemetry

variable {β γ : Type}

/-! ## Candidates and their lines -/

section Manager

variable {arti : Arti β γ} {m m' : BridgeManager β} {idx : ℕ} {line : String}

/-- A check reads the line of the candidate it checks. -/
theorem candidateLine_startCheck (arti : Arti β γ) (h : idx < m.candidates.length) :
    m.candidateLine idx = some (m.startCheck arti idx).line := by
  rw [BridgeManager.startCheck, candidateLine_of_lt h]
  rfl

theorem mem_allCandidates {row : ℕ × String} :
    row ∈ m.allCandidates ↔ m.candidateLine row.1 = some row.2 := by
  obtain ⟨idx, line⟩ := row
  simp only [BridgeManager.allCandidates, BridgeManager.candidateLine, List.mem_map,
    Option.map_eq_some_iff]
  constructor
  · rintro ⟨⟨c, i⟩, hc, hrow⟩
    cases hrow
    exact ⟨c, List.mem_zipIdx_iff_getElem?.mp hc, rfl⟩
  · rintro ⟨c, hc, rfl⟩
    exact ⟨(c, idx), List.mem_zipIdx_iff_getElem?.mpr hc, rfl⟩

theorem pairwise_allCandidates (m : BridgeManager β) :
    m.allCandidates.Pairwise (·.1 < ·.1) := by
  have hindex : m.allCandidates.map Prod.fst = List.range' 0 m.candidates.length := by
    rw [BridgeManager.allCandidates, List.map_map]
    exact List.zipIdx_map_snd 0 m.candidates
  refine List.pairwise_map.mp ?_
  rw [hindex]
  exact List.pairwise_lt_range'

end Manager

/-! ## What the record shows -/

/-- The rows and the active bridge are candidates of the manager. -/
structure Shows (m : BridgeManager β) (t : HealthStatus) : Prop where
  sorted : t.table.Pairwise (·.1 < ·.1)
  lines : ∀ row ∈ t.table, m.candidateLine row.1 = some row.2
  active : ∀ idx, t.activeBridgeIndex = some idx →
    idx < m.candidates.length ∧ t.activeBridgeLine = m.candidateLine idx

/-- The candidate has a row. -/
def HasRow (t : HealthStatus) (idx : ℕ) : Prop := ∃ row ∈ t.table, row.1 = idx

section Shows

variable {m m' : BridgeManager β} {t t' : HealthStatus} {idx : ℕ} {line : String}

theorem Shows.mono (h : Shows m t) (hm : m.Extends m') : Shows m' t where
  sorted := h.sorted
  lines row hrow := hm.candidateLine (h.lines row hrow)
  active idx hidx := by
    obtain ⟨hlt, hline⟩ := h.active idx hidx
    refine ⟨hlt.trans_le hm.length_le, ?_⟩
    rw [hline, candidateLine_of_lt hlt, hm.candidateLine (candidateLine_of_lt hlt)]

/-- Only the rows and the active bridge matter. -/
theorem Shows.congr (h : Shows m t) (htable : t'.table = t.table)
    (hidx : t'.activeBridgeIndex = t.activeBridgeIndex)
    (hline : t'.activeBridgeLine = t.activeBridgeLine) : Shows m t' where
  sorted := htable ▸ h.sorted
  lines := htable ▸ h.lines
  active := by
    rw [hidx, hline]
    exact h.active

theorem hasRow_recordCandidateResult {now : ℕ} {success : Bool} {latencyMs : UInt64} {i : ℕ} :
    HasRow (t.recordCandidateResult now idx line success latencyMs) i ↔ i = idx ∨ HasRow t i := by
  rw [HasRow, HealthStatus.table_recordCandidateResult]
  by_cases hrow : ∃ row ∈ t.table, row.1 = idx
  · rw [if_pos hrow]
    refine (or_iff_right_of_imp ?_).symm
    rintro rfl
    exact hrow
  · rw [if_neg hrow]
    simp only [List.mem_insertionSort, List.mem_append, List.mem_singleton, HasRow]
    constructor
    · rintro ⟨row, hmem | rfl, rfl⟩
      · exact .inr ⟨row, hmem, rfl⟩
      · exact .inl rfl
    · rintro (rfl | ⟨row, hmem, rfl⟩)
      · exact ⟨_, .inr rfl, rfl⟩
      · exact ⟨row, .inl hmem, rfl⟩

/-- A result reported under the candidate's own line keeps the table right. -/
theorem Shows.record (h : Shows m t) (hline : m.candidateLine idx = some line) (now : ℕ)
    (success : Bool) (latencyMs : UInt64) :
    Shows m (t.recordCandidateResult now idx line success latencyMs) := by
  have hactive : (t.recordCandidateResult now idx line success latencyMs).activeBridgeLine =
      t.activeBridgeLine := by
    unfold HealthStatus.recordCandidateResult
    split <;> rfl
  have htable := t.table_recordCandidateResult now idx line success latencyMs
  by_cases hrow : ∃ row ∈ t.table, row.1 = idx
  · rw [if_pos hrow] at htable
    exact h.congr htable (by simp) hactive
  · rw [if_neg hrow] at htable
    refine ⟨?_, ?_, ?_⟩
    · -- sorted, and no index occurs twice
      rw [htable]
      have hperm : ((t.table ++ [(idx, line)]).insertionSort (fun a b => a.1 ≤ b.1)).Perm
          (t.table ++ [(idx, line)]) := List.perm_insertionSort _ _
      have hle : ((t.table ++ [(idx, line)]).insertionSort
          (fun a b => a.1 ≤ b.1)).Pairwise (·.1 ≤ ·.1) := List.pairwise_insertionSort _ _
      have hne : (t.table ++ [(idx, line)]).Pairwise (·.1 ≠ ·.1) := by
        refine List.pairwise_append.mpr ⟨h.sorted.imp fun hlt => hlt.ne,
          List.pairwise_singleton _ _, ?_⟩
        intro row hmem row' hmem' heq
        rw [List.mem_singleton.mp hmem'] at heq
        exact hrow ⟨row, hmem, heq⟩
      have hne' := hperm.symm.pairwise hne fun {_ _} hne => hne.symm
      exact hle.imp₂ (fun _ _ hle hne => lt_of_le_of_ne hle hne) hne'
    · intro row hmem
      rw [htable, List.mem_insertionSort] at hmem
      rcases List.mem_append.mp hmem with hmem | hmem
      · exact h.lines row hmem
      · rw [List.mem_singleton.mp hmem]
        exact hline
    · rw [hactive, HealthStatus.activeBridgeIndex_recordCandidateResult]
      exact h.active

end Shows

/-! ## The invariant -/

/-- The candidates the loop has to do with exist, and what it is about to report is
their own line. -/
def RunPc.Valid (m : BridgeManager β) : RunPc γ → Prop
  | .starting idx => idx < m.candidates.length
  | .checking idx check => m.candidateLine idx = some check.line
  | .scanning _ scan =>
    scan.count ≤ m.candidates.length ∧ m.candidateLine scan.idx = some scan.check.line
  | .found _ newIdx => newIdx < m.candidates.length
  | .bootstrapping _ newIdx _ => newIdx < m.candidates.length
  | .replacing _ newIdx _ => newIdx < m.candidates.length
  | .storing _ newIdx => newIdx < m.candidates.length
  | .reporting newIdx => newIdx < m.candidates.length
  | _ => True

def AddPc.Valid (m : BridgeManager β) : AddPc β γ → Prop
  | .starting idx => idx < m.candidates.length
  | .checking idx check => m.candidateLine idx = some check.line
  | .configuring idx => idx < m.candidates.length
  | .bootstrapping idx _ => idx < m.candidates.length
  | .replacing idx _ => idx < m.candidates.length
  | .storing idx => idx < m.candidates.length
  | .reporting idx => idx < m.candidates.length
  | _ => True

/-- The candidate a call has added and not yet reported. -/
def AddPc.unreported : AddPc β γ → Option ℕ
  | .starting idx => some idx
  | .checking idx _ => some idx
  | _ => none

structure Tabled (s : Coordinator β γ) : Prop where
  shown : Shows s.manager s.telemetry
  active : ∀ idx, s.activeIdx = some idx → idx < s.manager.candidates.length
  run : s.run.Valid s.manager
  adds : ∀ (i : ℕ) (pc : AddPc β γ), s.adds[i]? = some pc → pc.Valid s.manager
  complete : ∀ idx, idx < s.manager.candidates.length →
    HasRow s.telemetry idx ∨
      ∃ (i : ℕ) (pc : AddPc β γ), s.adds[i]? = some pc ∧ pc.unreported = some idx

section Tabled

variable {arti : Arti β γ} {s s' : Coordinator β γ} {m m' : BridgeManager β}

theorem RunPc.Valid.mono {pc : RunPc γ} (h : pc.Valid m) (hm : m.Extends m') : pc.Valid m' := by
  cases pc with
  | starting | found | bootstrapping | replacing | storing | reporting =>
    exact h.trans_le hm.length_le
  | checking => exact hm.candidateLine h
  | scanning => exact ⟨h.1.trans hm.length_le, hm.candidateLine h.2⟩
  | _ => trivial

theorem AddPc.Valid.mono {pc : AddPc β γ} (h : pc.Valid m) (hm : m.Extends m') : pc.Valid m' := by
  cases pc with
  | starting | configuring | bootstrapping | replacing | storing | reporting =>
    exact h.trans_le hm.length_le
  | checking => exact hm.candidateLine h
  | _ => trivial

/-- A scan goes on to the next candidate. -/
theorem Scan.step_eq_next {scan scan' : Scan γ} {result : HealthResult}
    (h : scan.step arti m result = .next scan') :
    scan.idx + 1 < scan.count ∧
      scan' = { scan with idx := scan.idx + 1, check := m.startCheck arti (scan.idx + 1) } := by
  unfold Scan.step at h
  split at h
  · cases h
  · split at h
    · rename_i hlt
      cases h
      exact ⟨hlt, rfl⟩
    · cases h

theorem valid_of_startScan {trigger : ℕ} {scan : Scan γ} (h : m.startScan arti = .ok scan) :
    (RunPc.scanning trigger scan).Valid m := by
  unfold BridgeManager.startScan at h
  split at h
  · cases h
  · rename_i hne
    cases h
    exact ⟨le_rfl, candidateLine_startCheck arti (Nat.pos_of_ne_zero hne)⟩

/-- A step of the loop: it reports candidates the manager has. -/
theorem Tabled.of_run (h : Tabled s) (hm : s'.manager = s.manager) (hadds : s'.adds = s.adds)
    (shown : Shows s.manager s'.telemetry)
    (active : ∀ idx, s'.activeIdx = some idx → idx < s.manager.candidates.length)
    (run : s'.run.Valid s.manager)
    (rows : ∀ idx, HasRow s.telemetry idx → HasRow s'.telemetry idx) : Tabled s' where
  shown := hm ▸ shown
  active := hm ▸ active
  run := hm ▸ run
  adds := by
    rw [hm, hadds]
    exact h.adds
  complete := by
    intro idx hidx
    rw [hm] at hidx
    rw [hadds]
    exact (h.complete idx hidx).imp_left (rows idx)

/-- A check reports under the line it has read. -/
theorem Shows.recordResult (h : Shows s.manager s.telemetry) {idx : ℕ} {check : PendingCheck γ}
    (hcheck : s.manager.candidateLine idx = some check.line) (o : CheckOutcome) :
    Shows s.manager (s.recordResult idx (check.finish o)).telemetry := by
  refine h.record ?_ _ _ _
  rw [PendingCheck.candidateLine_finish]
  exact hcheck

theorem Shows.recordPeriodic (h : Shows s.manager s.telemetry) {idx : ℕ}
    {check : PendingCheck γ} (hcheck : s.manager.candidateLine idx = some check.line)
    (o : CheckOutcome) : Shows s.manager (s.recordPeriodic idx (check.finish o)).telemetry := by
  have hpushed : Shows s.manager (({ s.telemetry with lastCheckAt := some s.now }).pushSample
      ⟨s.now, (check.finish o).success, (check.finish o).latencyMs⟩) := h.congr rfl rfl rfl
  refine hpushed.record ?_ _ _ _
  rw [PendingCheck.candidateLine_finish]
  exact hcheck

/-- Making a bridge the active one. -/
theorem Shows.reportActive (h : Shows s.manager s.telemetry) {idx : ℕ}
    (hidx : idx < s.manager.candidates.length) :
    Shows s.manager (s.reportActive idx).telemetry where
  sorted := h.sorted
  lines := h.lines
  active := by
    rintro _ ⟨⟩
    exact ⟨hidx, rfl⟩

theorem Tabled.runStep {e : Event} (h : Tabled s) (hs : RunStep arti s e s') : Tabled s' := by
  have hrun := h.run
  cases hs with
  | wake _ hact => exact h.of_run rfl rfl h.shown h.active (h.active _ hact) fun _ => id
  | idle => exact h
  | @start idx hpc =>
    rw [hpc] at hrun
    exact h.of_run rfl rfl h.shown h.active (candidateLine_startCheck arti hrun) fun _ => id
  | pass hpc | miss hpc =>
    rw [hpc] at hrun
    exact h.of_run rfl rfl (h.shown.recordPeriodic hrun _) h.active trivial fun _ hrow =>
      hasRow_recordCandidateResult.mpr (.inr hrow)
  | recover | below | reach | settle =>
    exact h.of_run rfl rfl (h.shown.congr rfl rfl rfl) h.active trivial fun _ => id
  | scan _ hscan =>
    exact h.of_run rfl rfl h.shown h.active (valid_of_startScan hscan) fun _ => id
  | noScan | noConfig | same | noBoot =>
    exact h.of_run rfl rfl h.shown h.active trivial fun _ => id
  | @next trigger scan scan' o hpc hresult hstep =>
    rw [hpc] at hrun
    obtain ⟨hlt, rfl⟩ := Scan.step_eq_next hstep
    exact h.of_run rfl rfl (h.shown.recordResult hrun.2 o) h.active
      ⟨hrun.1, candidateLine_startCheck arti (hlt.trans_le hrun.1)⟩
      fun _ hrow => hasRow_recordCandidateResult.mpr (.inr hrow)
  | hit hpc =>
    rw [hpc] at hrun
    exact h.of_run rfl rfl (h.shown.recordResult hrun.2 _) h.active (lt_of_candidateLine hrun.2)
      fun _ hrow => hasRow_recordCandidateResult.mpr (.inr hrow)
  | exhaust hpc =>
    rw [hpc] at hrun
    exact h.of_run rfl rfl (h.shown.recordResult hrun.2 _) h.active trivial
      fun _ hrow => hasRow_recordCandidateResult.mpr (.inr hrow)
  | other hpc | boot hpc | replace hpc =>
    rw [hpc] at hrun
    exact h.of_run rfl rfl h.shown h.active hrun fun _ => id
  | store hpc =>
    rw [hpc] at hrun
    refine h.of_run rfl rfl h.shown ?_ hrun fun _ => id
    rintro _ ⟨⟩
    exact hrun
  | report hpc =>
    rw [hpc] at hrun
    exact h.of_run rfl rfl (h.shown.reportActive hrun) h.active trivial fun _ => id

/-- A step of call `i`: what it adds or has added and not reported, it goes on to
report. -/
theorem Tabled.of_add {i : ℕ} {pc pc' : AddPc β γ} (h : Tabled s) (hpc : s.adds[i]? = some pc)
    (hm : s.manager.Extends s'.manager) (hadds : s'.adds = s.adds) (hrun : s'.run = s.run)
    (shown : Shows s'.manager s'.telemetry)
    (active : ∀ idx, s'.activeIdx = some idx → idx < s'.manager.candidates.length)
    (valid : pc'.Valid s'.manager)
    (rows : ∀ idx, HasRow s.telemetry idx → HasRow s'.telemetry idx)
    (added : ∀ idx, s.manager.candidates.length ≤ idx → idx < s'.manager.candidates.length →
      pc'.unreported = some idx)
    (kept : ∀ idx, pc.unreported = some idx →
      HasRow s'.telemetry idx ∨ pc'.unreported = some idx) :
    Tabled { s' with adds := s'.adds.set i pc' } where
  shown := shown
  active := active
  run := by
    show s'.run.Valid s'.manager
    rw [hrun]
    exact h.run.mono hm
  adds := by
    intro j d hd
    rcases Machine.getElem?_set_cases hd with ⟨-, hd⟩ | ⟨rfl, rfl⟩
    · rw [hadds] at hd
      exact (h.adds j d hd).mono hm
    · exact valid
  complete := by
    intro idx hidx
    have hself : (s'.adds.set i pc')[i]? = some pc' := by
      refine Machine.getElem?_set_self_of_some (b := pc) ?_
      rw [hadds, hpc]
    rcases Nat.lt_or_ge idx s.manager.candidates.length with hlt | hge
    · rcases h.complete idx hlt with hrow | ⟨j, d, hd, hunreported⟩
      · exact .inl (rows idx hrow)
      · by_cases hij : i = j
        · subst hij
          obtain rfl := Option.some.inj (hpc.symm.trans hd)
          exact (kept idx hunreported).imp_right fun hpc' => ⟨i, pc', hself, hpc'⟩
        · refine .inr ⟨j, d, ?_, hunreported⟩
          rw [List.getElem?_set_ne hij, hadds, hd]
    · exact .inr ⟨i, pc', hself, added idx hge hidx⟩

theorem Tabled.addStep {i : ℕ} {pc pc' : AddPc β γ} {e : Event} (h : Tabled s)
    (hpc : s.adds[i]? = some pc) (hs : AddStep arti s pc e pc' s') :
    Tabled { s' with adds := s'.adds.set i pc' } := by
  have hvalid := h.adds i pc hpc
  -- the candidates there were are all there are, except behind a push
  have hnone : ∀ {n : ℕ} {P : ℕ → Prop}, ∀ idx, n ≤ idx → idx < n → P idx :=
    fun idx hle hlt => absurd hlt hle.not_gt
  cases hs with
  | enter =>
    exact h.of_add hpc .rfl rfl rfl (h.shown.congr rfl rfl rfl) h.active trivial (fun _ => id)
      hnone fun _ hpc' => by cases hpc'
  | @prepare line fs _ manager hprep | @reject line fs _ manager hprep =>
    have hm := extends_prepareBridgeLine arti s.manager fs line
    have hcandidates := candidates_prepareBridgeLine arti s.manager fs line
    rw [hprep] at hm hcandidates
    refine h.of_add hpc hm rfl rfl (h.shown.mono hm) ?_ trivial (fun _ => id) ?_
      fun _ hpc' => by cases hpc'
    · intro idx hidx
      exact (h.active idx hidx).trans_le hm.length_le
    · intro idx hle hlt
      rw [hcandidates] at hlt
      exact absurd hlt hle.not_gt
  | @push line builder =>
    have hm := extends_pushCandidate (m := s.manager) line builder
    have hlength : (s.manager.pushCandidate line builder).2.candidates.length =
        s.manager.candidates.length + 1 := by
      simp [BridgeManager.pushCandidate]
    refine h.of_add hpc hm rfl rfl (h.shown.mono hm) ?_ ?_ (fun _ => id) ?_
      fun _ hpc' => by cases hpc'
    · intro idx hidx
      exact (h.active idx hidx).trans_le hm.length_le
    · show s.manager.candidates.length <
        (s.manager.pushCandidate line builder).2.candidates.length
      omega
    · intro idx hle hlt
      have hidx : s.manager.candidates.length = idx := by
        have hlt' : idx < (s.manager.pushCandidate line builder).2.candidates.length := hlt
        omega
      exact congrArg some hidx
  | start =>
    exact h.of_add hpc .rfl rfl rfl h.shown h.active (candidateLine_startCheck arti hvalid)
      (fun _ => id) hnone fun _ => .inr
  | @pass idx check o =>
    refine h.of_add hpc .rfl rfl rfl (h.shown.recordResult hvalid o) h.active
      (lt_of_candidateLine hvalid) (fun _ hrow => hasRow_recordCandidateResult.mpr (.inr hrow))
      hnone ?_
    rintro _ ⟨⟩
    exact .inl (hasRow_recordCandidateResult.mpr (.inl rfl))
  | @miss idx check o =>
    refine h.of_add hpc .rfl rfl rfl (h.shown.recordResult hvalid o) h.active trivial
      (fun _ hrow => hasRow_recordCandidateResult.mpr (.inr hrow)) hnone ?_
    rintro _ ⟨⟩
    exact .inl (hasRow_recordCandidateResult.mpr (.inl rfl))
  | fail =>
    exact h.of_add hpc .rfl rfl rfl (h.shown.congr rfl rfl rfl) h.active trivial (fun _ => id)
      hnone fun _ hpc' => by cases hpc'
  | configure | boot | replace =>
    exact h.of_add hpc .rfl rfl rfl h.shown h.active hvalid (fun _ => id) hnone
      fun _ hpc' => by cases hpc'
  | noConfig | noBoot =>
    exact h.of_add hpc .rfl rfl rfl h.shown h.active trivial (fun _ => id) hnone
      fun _ hpc' => by cases hpc'
  | store =>
    refine h.of_add hpc .rfl rfl rfl h.shown ?_ hvalid (fun _ => id) hnone
      fun _ hpc' => by cases hpc'
    rintro _ ⟨⟩
    exact hvalid
  | report =>
    exact h.of_add hpc .rfl rfl rfl (h.shown.reportActive hvalid) h.active trivial (fun _ => id)
      hnone fun _ hpc' => by cases hpc'

/-- **The step lemma.** -/
theorem Tabled.step (h : Tabled s) {a : Action} (hs : s.step arti a = some s') : Tabled s' := by
  cases a with
  | call line =>
    obtain rfl := Option.some.inj hs
    refine ⟨h.shown, h.active, h.run, ?_, ?_⟩
    · intro i pc hpc
      rcases Machine.getElem?_concat_cases hpc with hpc | ⟨-, rfl⟩
      · exact h.adds i pc hpc
      · trivial
    · intro idx hidx
      refine (h.complete idx hidx).imp_right ?_
      rintro ⟨i, pc, hpc, hunreported⟩
      refine ⟨i, pc, ?_, hunreported⟩
      show (s.adds ++ [.entered line])[i]? = some pc
      rw [List.getElem?_append_left (List.getElem?_eq_some_iff.mp hpc).1]
      exact hpc
  | run e => exact h.runStep (runStep_of_stepRun hs)
  | add i e =>
    obtain ⟨pc, pc', s₁, hpc, hadd, rfl⟩ := addStep_of_step hs
    exact h.addStep hpc hadd
  | tick nanos =>
    obtain rfl := Option.some.inj hs
    exact ⟨h.shown, h.active, h.run, h.adds, h.complete⟩

end Tabled

/-! ## From the start -/

section Startup

variable {m : BridgeManager β} {t : HealthStatus}

theorem shows_seedCandidates (m : BridgeManager β) :
    Shows m (({} : HealthStatus).seedCandidates m.allCandidates) where
  sorted := by
    rw [HealthStatus.table_seedCandidates]
    exact pairwise_allCandidates m
  lines row hrow := by
    rw [HealthStatus.table_seedCandidates] at hrow
    exact mem_allCandidates.mp hrow
  active idx hidx := by cases hidx

/-- The startup scan reports candidates the manager has, and finds one of them. -/
theorem shows_findHealthyConfigFrom (arti : Arti β γ) (answer : ℕ → ℕ × CheckOutcome)
    (remaining : ℕ) :
    ∀ (idx : ℕ) (t : HealthStatus), idx + remaining ≤ m.candidates.length → Shows m t →
      Shows m (m.findHealthyConfigFrom arti answer remaining idx t).1 ∧
      (∀ i, HasRow t i → HasRow (m.findHealthyConfigFrom arti answer remaining idx t).1 i) ∧
      ∀ found config, (m.findHealthyConfigFrom arti answer remaining idx t).2 = .ok (found, config) →
        found < m.candidates.length := by
  induction remaining with
  | zero =>
    intro idx t _ h
    exact ⟨h, fun _ => id, fun _ _ hfound => by cases hfound⟩
  | succ remaining ih =>
    intro idx t hle h
    have hlt : idx < m.candidates.length := by omega
    have hline : m.candidateLine idx =
        some ((m.startCheck arti idx).finish (answer idx).2).candidateLine := by
      rw [PendingCheck.candidateLine_finish]
      exact candidateLine_startCheck arti hlt
    have hshown := h.record hline (answer idx).1
      ((m.startCheck arti idx).finish (answer idx).2).success
      ((m.startCheck arti idx).finish (answer idx).2).latencyMs
    rw [BridgeManager.findHealthyConfigFrom]
    dsimp only
    split
    · refine ⟨hshown, fun _ hrow => hasRow_recordCandidateResult.mpr (.inr hrow), ?_⟩
      intro found config hfound
      cases hconfig : m.productionConfig arti idx with
      | error e =>
        rw [hconfig] at hfound
        cases hfound
      | ok config' =>
        rw [hconfig] at hfound
        cases hfound
        exact hlt
    · obtain ⟨hshown', hrows, hfound⟩ := ih (idx + 1) _ (by omega) hshown
      exact ⟨hshown', fun i hrow => hrows i (hasRow_recordCandidateResult.mpr (.inr hrow)), hfound⟩

/-- The coordinator, made for a record that shows all candidates. -/
theorem tabled_new {core : γ} {active : Option ℕ} {failureThreshold : UInt32} {now : ℕ}
    (h : Shows m t) (hactive : ∀ idx, active = some idx → idx < m.candidates.length)
    (hrows : ∀ idx, idx < m.candidates.length → HasRow t idx) :
    Tabled (.new m core t active failureThreshold now) := by
  refine ⟨?_, hactive, trivial, fun i pc hpc => by simp [Coordinator.new] at hpc, ?_⟩
  · cases active with
    | none => exact h
    | some idx =>
      refine ⟨h.sorted, h.lines, ?_⟩
      rintro _ ⟨⟩
      exact ⟨hactive idx rfl, rfl⟩
  · intro idx hidx
    refine .inl ?_
    cases active with
    | none => exact hrows idx hidx
    | some idx => exact hrows _ hidx

theorem shows_chooseClient (arti : Arti β γ) (direct : γ) (answer : ℕ → ℕ × CheckOutcome)
    (h : Shows m t) :
    Shows m (m.chooseClient arti direct answer t).1 ∧
      (∀ i, HasRow t i → HasRow (m.chooseClient arti direct answer t).1 i) ∧
      ∀ idx, (m.chooseClient arti direct answer t).2.1 = some idx →
        idx < m.candidates.length := by
  unfold BridgeManager.chooseClient BridgeManager.findHealthyConfigReporting
  split
  · exact ⟨h, fun _ => id, fun _ hidx => by cases hidx⟩
  · have hscan := shows_findHealthyConfigFrom arti answer m.candidates.length 0 t
      (Nat.zero_add _).le h
    simp only [BridgeManager.candidateCount]
    split <;> rename_i heq <;> rw [heq] at hscan
    · refine ⟨hscan.1, hscan.2.1, ?_⟩
      rintro _ ⟨⟩
      exact hscan.2.2 _ _ rfl
    · exact ⟨hscan.1, hscan.2.1, fun _ hidx => by cases hidx⟩

theorem tabled_startup {arti : Arti β γ} {direct : γ} {transports : List TransportBinary}
    {lines : List (FileSystem × String)} {answer : ℕ → ℕ × CheckOutcome} {bootstraps : Bool}
    {failureThreshold : UInt32} {now : ℕ} {s : Coordinator β γ}
    (h : startup arti direct transports lines answer bootstraps failureThreshold now = .ok s) :
    Tabled s := by
  unfold startup at h
  split at h
  · cases h
  · rename_i m _
    dsimp only at h
    split at h
    · obtain rfl := Except.ok.inj h
      obtain ⟨hshown, hrows, hactive⟩ := shows_chooseClient arti direct answer
        (shows_seedCandidates m)
      refine tabled_new hshown hactive ?_
      intro idx hidx
      refine hrows idx ⟨(idx, (m.candidates[idx]).line), ?_, rfl⟩
      rw [HealthStatus.table_seedCandidates]
      exact mem_allCandidates.mpr (candidateLine_of_lt hidx)
    · cases h

end Startup

/-- The table is complete when no call has a candidate to report. -/
theorem Tabled.table_eq {s : Coordinator β γ} (h : Tabled s)
    (hreturned : ∀ pc ∈ s.adds, ∃ result, pc = .returned result) :
    s.telemetry.table = s.manager.allCandidates := by
  have hirrefl : Std.Irrefl fun a b : ℕ × String => a.1 < b.1 := ⟨fun a => lt_irrefl a.1⟩
  have hantisymm : Std.Antisymm fun a b : ℕ × String => a.1 < b.1 :=
    ⟨fun _ _ hab hba => absurd hba hab.asymm⟩
  refine h.shown.sorted.eq_of_mem_iff (pairwise_allCandidates s.manager) ?_
  intro row
  rw [mem_allCandidates]
  refine ⟨h.shown.lines row, ?_⟩
  intro hline
  rcases h.complete row.1 (lt_of_candidateLine hline) with ⟨row', hmem, hindex⟩ | hunreported
  · have hline' := h.shown.lines row' hmem
    rw [hindex, hline] at hline'
    have hrow : row' = row := Prod.ext hindex (Option.some.inj hline').symm
    exact hrow ▸ hmem
  · obtain ⟨i, pc, hpc, hunreported⟩ := hunreported
    obtain ⟨result, rfl⟩ := hreturned pc (List.mem_of_getElem? hpc)
    cases hunreported

/-- **The candidates table is right.**  After a startup as in `main`, in every run of
the loop and of any number of `try_add_bridge` calls: the table's indices increase
strictly, every row has its candidate's line, the active bridge's line is that of its
index, and whenever no call is in progress the table lists exactly the manager's
candidates. -/
theorem table_of_reach (arti : Arti β γ) (direct : γ) (transports : List TransportBinary)
    (lines : List (FileSystem × String)) (answer : ℕ → ℕ × CheckOutcome) (bootstraps : Bool)
    (failureThreshold : UInt32) (now : ℕ) (s₀ s : Coordinator β γ)
    (hstart : startup arti direct transports lines answer bootstraps failureThreshold now = .ok s₀)
    (h : (coordinating arti).Reach Machine.anyStep s₀ s) :
    s.telemetry.candidates.Pairwise (·.index < ·.index) ∧
    (∀ row ∈ s.telemetry.candidates, s.manager.candidateLine row.index = some row.line) ∧
    (∀ idx, s.telemetry.activeBridgeIndex = some idx →
      s.telemetry.activeBridgeLine = s.manager.candidateLine idx) ∧
    ((∀ pc ∈ s.adds, ∃ result, pc = .returned result) →
      s.telemetry.candidates.map (fun row => (row.index, row.line)) =
        s.manager.allCandidates) := by
  have hinv : Tabled s :=
    h.invariant (I := Tabled) (tabled_startup hstart) fun _ _ _ hi _ hs => hi.step hs
  have hsorted := hinv.shown.sorted
  rw [HealthStatus.table, List.pairwise_map] at hsorted
  refine ⟨hsorted, ?_, ?_, hinv.table_eq⟩
  · intro row hrow
    exact hinv.shown.lines (row.index, row.line) (List.mem_map_of_mem hrow)
  · intro idx hidx
    exact (hinv.shown.active idx hidx).2

/-- A call that is over. -/
def AddPc.isReturned : AddPc β γ → Bool
  | .returned _ => true
  | _ => false

/-- A configured bridge that is down, and one added live. -/
theorem table_addOne :
    ∃ s : Coordinator String String, s.manager.candidates.length = 2 ∧
      s.telemetry.candidates.map (fun row => (row.index, row.line)) = s.manager.allCandidates := by
  obtain ⟨s, hreach, hlen, hreturned⟩ := Machine.exists_reach_of_exec
    (m := coordinating Arti.plain) (G := Machine.anyStep)
    (s := Coordinator.new ⟨[], [⟨firstLine, firstLine⟩]⟩ "direct"
      { candidates := [⟨0, firstLine, some false, some 0, some 7⟩] } none 3 9)
    (P := fun s => s.manager.candidates.length = 2 ∧ s.adds.all AddPc.isReturned = true)
    (.call addedLine :: addUpToBootstrap 0 ++ addActivate 0) (by decide)
  have hstart : startup Arti.plain "direct" [] [(.empty, firstLine)]
      (fun _ => (7, .connectTimedOut 0)) true 3 9 = .ok (Coordinator.new
        ⟨[], [⟨firstLine, firstLine⟩]⟩ "direct"
        { candidates := [⟨0, firstLine, some false, some 0, some 7⟩] } none 3 9) := rfl
  refine ⟨s, hlen, (table_of_reach Arti.plain "direct" [] [(.empty, firstLine)]
    (fun _ => (7, .connectTimedOut 0)) true 3 9 _ s hstart hreach).2.2.2 ?_⟩
  intro pc hpc
  have hpc' := List.all_eq_true.mp hreturned pc hpc
  cases pc with
  | returned result => exact ⟨result, rfl⟩
  | _ => exact absurd hpc' Bool.false_ne_true

end Anonet.Bridges
