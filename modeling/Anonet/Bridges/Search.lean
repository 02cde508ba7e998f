import Anonet.Bridges.Startup

/-!
# Searching a healthy bridge

`find_healthy_config_reporting` from start to end, while others add candidates: its
loop sees the manager anew at every check, and the number of candidates only once.

* `findHealthyConfigReporting` — the calls of `on_result` and what is returned;
  `searchFrom_eq_step` and `startup_search` connect it with the loop of the
  coordinator and with the startup.
* `search_exact` — **the candidates are tried and reported in order, each once, up to
  the first healthy one, and that one is the answer.**
-/

namespace Anonet.Bridges.Search

open Telemetry

variable {β γ : Type}

/-- The calls of `on_result`, in order, and what is returned. -/
structure Outcome (γ : Type) where
  reports : List (ℕ × HealthResult)
  result : Except String (ℕ × γ)

section Search

variable (arti : Arti β γ) (managers : ℕ → BridgeManager β) (outcomes : ℕ → CheckOutcome)

/-- What `health_check` of candidate `idx` returns. -/
def checkResult (idx : ℕ) : HealthResult :=
  ((managers idx).startCheck arti idx).finish (outcomes idx)

/-- The loop from candidate `idx` on, with `remaining` of `count` to go.  The manager is
`managers idx` when the check of `idx` starts, which is also when that of `idx - 1` has
ended; `outcomes idx` is how the check turns out. -/
def searchFrom (count : ℕ) : ℕ → ℕ → Outcome γ
  | 0, _ => ⟨[], .error s!"all {count} configured bridges failed their health check"⟩
  | remaining + 1, idx =>
    let result := checkResult arti managers outcomes idx
    if result.success then
      ⟨[(idx, result)],
        ((managers (idx + 1)).productionConfig arti idx).map fun config => (idx, config)⟩
    else
      let rest := searchFrom count remaining (idx + 1)
      ⟨(idx, result) :: rest.reports, rest.result⟩

/-- `find_healthy_config_reporting`, called when the manager is `start`. -/
def findHealthyConfigReporting (start : BridgeManager β) : Outcome γ :=
  if start.candidateCount = 0 then ⟨[], .error "no bridge candidates configured"⟩
  else searchFrom arti managers outcomes start.candidateCount start.candidateCount 0

/-- `find_healthy_config`. -/
def findHealthyConfig (start : BridgeManager β) : Except String (ℕ × γ) :=
  (findHealthyConfigReporting arti managers outcomes start).result

/-! ## The loop and its other models -/

variable {arti managers outcomes}

/-- One turn of the loop is one step of a scan of the coordinator. -/
theorem searchFrom_eq_step {scan : Scan γ} {remaining : ℕ}
    (hcount : scan.idx + (remaining + 1) = scan.count)
    (hcheck : scan.check = (managers scan.idx).startCheck arti scan.idx) :
    searchFrom arti managers outcomes scan.count (remaining + 1) scan.idx =
      let result := scan.check.finish (outcomes scan.idx)
      match scan.step arti (managers (scan.idx + 1)) result with
      | .next scan' =>
        let rest := searchFrom arti managers outcomes scan'.count remaining scan'.idx
        ⟨(scan.idx, result) :: rest.reports, rest.result⟩
      | .found idx =>
        ⟨[(scan.idx, result)],
          ((managers (scan.idx + 1)).productionConfig arti idx).map fun config => (idx, config)⟩
      | .failed msg => ⟨[(scan.idx, result)], .error msg⟩ := by
  rw [searchFrom, checkResult, ← hcheck]
  dsimp only
  unfold Scan.step
  by_cases hsuccess : (scan.check.finish (outcomes scan.idx)).success = true
  · simp only [if_pos hsuccess]
  · simp only [if_neg hsuccess]
    cases remaining with
    | zero =>
      rw [if_neg (by omega)]
      rfl
    | succ remaining => rw [if_pos (by omega)]

/-- The startup's loop is the search with nobody beside it, its reports going into the
telemetry record. -/
theorem startup_searchFrom (arti : Arti β γ) (m : BridgeManager β) (answer : ℕ → ℕ × CheckOutcome)
    (remaining idx : ℕ) (telemetry : HealthStatus) :
    m.findHealthyConfigFrom arti answer remaining idx telemetry =
      let found := searchFrom arti (fun _ => m) (fun i => (answer i).2) m.candidateCount remaining idx
      (found.reports.foldl (fun t report => t.recordCandidateResult (answer report.1).1 report.1
        report.2.candidateLine report.2.success report.2.latencyMs) telemetry, found.result) := by
  induction remaining generalizing idx telemetry with
  | zero => rfl
  | succ remaining ih =>
    rw [BridgeManager.findHealthyConfigFrom, searchFrom, checkResult]
    dsimp only
    split
    · rfl
    · rw [ih]
      rfl

theorem startup_search (arti : Arti β γ) (m : BridgeManager β) (answer : ℕ → ℕ × CheckOutcome)
    (telemetry : HealthStatus) :
    m.findHealthyConfigReporting arti answer telemetry =
      let found := findHealthyConfigReporting arti (fun _ => m) (fun i => (answer i).2) m
      (found.reports.foldl (fun t report => t.recordCandidateResult (answer report.1).1 report.1
        report.2.candidateLine report.2.success report.2.latencyMs) telemetry, found.result) := by
  rw [BridgeManager.findHealthyConfigReporting, findHealthyConfigReporting]
  split
  · rfl
  · exact startup_searchFrom arti m answer _ 0 telemetry

/-! ## What a search comes to -/

/-- Where the loop ends, what it has reported until then and what it returns. -/
theorem exists_last (arti : Arti β γ) (managers : ℕ → BridgeManager β)
    (outcomes : ℕ → CheckOutcome) (count remaining idx : ℕ) :
    ∃ k, idx ≤ k ∧ k ≤ idx + remaining ∧
      (∀ i, idx ≤ i → i < k → (checkResult arti managers outcomes i).success = false) ∧
      ((checkResult arti managers outcomes k).success = true ∨ k = idx + remaining) ∧
      searchFrom arti managers outcomes count (remaining + 1) idx =
        ⟨(List.range' idx (k + 1 - idx)).map fun i => (i, checkResult arti managers outcomes i),
          if (checkResult arti managers outcomes k).success then
            ((managers (k + 1)).productionConfig arti k).map fun config => (k, config)
          else .error s!"all {count} configured bridges failed their health check"⟩ := by
  induction remaining generalizing idx with
  | zero =>
    refine ⟨idx, le_rfl, le_rfl, fun i hle hlt => absurd hle hlt.not_ge, .inr rfl, ?_⟩
    rw [searchFrom, Nat.add_sub_cancel_left]
    dsimp only
    split <;> rfl
  | succ remaining ih =>
    by_cases hsuccess : (checkResult arti managers outcomes idx).success = true
    · refine ⟨idx, le_rfl, Nat.le_add_right _ _, fun i hle hlt => absurd hle hlt.not_ge,
        .inl hsuccess, ?_⟩
      rw [searchFrom, Nat.add_sub_cancel_left]
      dsimp only
      rw [if_pos hsuccess, if_pos hsuccess]
      rfl
    · obtain ⟨k, hle, hlt, hfailed, hlast, hrest⟩ := ih (idx + 1)
      refine ⟨k, by omega, by omega, ?_, ?_, ?_⟩
      · intro i hi hik
        rcases Nat.eq_or_lt_of_le hi with rfl | hi
        · exact Bool.eq_false_iff.mpr hsuccess
        · exact hfailed i hi hik
      · exact hlast.imp_right fun hk => by omega
      · have hrange : List.range' idx (k + 1 - idx) =
            idx :: List.range' (idx + 1) (k + 1 - (idx + 1)) := by
          have hlen : k + 1 - idx = k + 1 - (idx + 1) + 1 := by omega
          rw [hlen, List.range'_succ]
        rw [searchFrom, hrest, hrange]
        dsimp only
        rw [if_neg hsuccess]
        rfl

end Search

/-- **The first healthy candidate, and every one in front of it.**  Whatever the
candidates are, however their checks turn out and whatever is added meanwhile: without
candidates nothing is reported and there is no answer; with them `on_result` is called
once for each of `0`, …, `k`, in this order, where `k` is the first whose check succeeds
or, if none does, the last of those present at the start; and the answer is candidate `k`
if and only if its check succeeded and its production configuration builds. -/
theorem search_exact (arti : Arti β γ) (start : BridgeManager β) (managers : ℕ → BridgeManager β)
    (outcomes : ℕ → CheckOutcome) :
    let found := findHealthyConfigReporting arti managers outcomes start
    let succeeds i := (checkResult arti managers outcomes i).success = true
    (start.candidateCount = 0 → found.reports = [] ∧ ∃ msg, found.result = .error msg) ∧
    (start.candidateCount ≠ 0 → ∃ k < start.candidateCount,
      (∀ i < k, ¬ succeeds i) ∧ (succeeds k ∨ k + 1 = start.candidateCount) ∧
      found.reports = (List.range (k + 1)).map
        (fun i => (i, checkResult arti managers outcomes i)) ∧
      ∀ idx config, found.result = .ok (idx, config) ↔
        idx = k ∧ succeeds k ∧ (managers (k + 1)).productionConfig arti k = .ok config) := by
  intro found succeeds
  refine ⟨?_, ?_⟩
  · intro hnone
    have hfound : found = ⟨[], .error "no bridge candidates configured"⟩ := if_pos hnone
    rw [hfound]
    exact ⟨rfl, _, rfl⟩
  · intro hsome
    obtain ⟨n, hn⟩ := Nat.exists_eq_succ_of_ne_zero hsome
    obtain ⟨k, -, hk, hfailed, hlast, hsearch⟩ :=
      exists_last arti managers outcomes start.candidateCount n 0
    have hfound : found = searchFrom arti managers outcomes start.candidateCount (n + 1) 0 := by
      show findHealthyConfigReporting arti managers outcomes start = _
      rw [findHealthyConfigReporting, if_neg hsome]
      exact congrArg (searchFrom arti managers outcomes start.candidateCount · 0) hn
    rw [hfound, hsearch]
    refine ⟨k, by omega, fun i hik => ?_, hlast.imp_right fun h => by omega, ?_, ?_⟩
    · exact Bool.eq_false_iff.mp (hfailed i (Nat.zero_le i) hik)
    · rw [Nat.sub_zero, List.range_eq_range']
    · intro idx config
      by_cases hsuccess : succeeds k
      · rw [if_pos hsuccess]
        cases hconfig : (managers (k + 1)).productionConfig arti k with
        | error msg => simp [Except.map]
        | ok config' =>
          simp only [Except.map, Except.ok.injEq, Prod.mk.injEq]
          exact ⟨fun ⟨hidx, hc⟩ => ⟨hidx.symm, hsuccess, hc⟩, fun ⟨hidx, _, hc⟩ => ⟨hidx.symm, hc⟩⟩
      · rw [if_neg hsuccess]
        exact ⟨nofun, fun ⟨_, hs, _⟩ => absurd hs hsuccess⟩

end Anonet.Bridges.Search
