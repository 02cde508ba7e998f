import Anonet.Bridges.CheckRecord

/-!
# The bridge panels

`tui/src/lib.rs::draw_bridge_panel` and `draw_candidates_panel`: the texts the dashboard
makes of the telemetry record.

* `drawBridgePanel`, `drawCandidatesPanel` — the texts and the numbers; where they go on
  the screen is left out.
* `bridgePanels_of_reach` — **the panels show every run's checks**: for each candidate its
  latest, for the bridge in use the latest periodic ones.
-/

namespace Anonet.Tui

open Anonet.Bridges Anonet.Core Telemetry

/-! ## What is drawn -/

/-- `format_system_time`; a time that is still to come has no `elapsed`. -/
def formatSystemTime (now : ℕ) : Option ℕ → String
  | none => "never"
  | some t =>
    let secs := (now - t) / 1000000000
    if t ≤ now then s!"{secs}s ago" else "just now"

structure BridgePanel where
  lines : List String
  /-- In milliseconds; 0 is a failed check. -/
  sparkline : List UInt64
  deriving DecidableEq

/-- A bar of the sparkline. -/
def bar (sample : HealthSample) : UInt64 := if sample.success then sample.latencyMs else 0

def drawBridgePanel (h : HealthStatus) (now : ℕ) : BridgePanel :=
  let bridge := h.activeBridgeLine.getD "(direct, no bridge)"
  let check := formatSystemTime now h.lastCheckAt
  let switch := formatSystemTime now h.lastSwitchAt
  ⟨[s!"active bridge:       {bridge}",
    s!"consecutive failures: {h.consecutiveFailures}",
    s!"total failovers:      {h.totalSwitches}",
    s!"last check:           {check}",
    s!"last switch:          {switch}"],
    h.history.map bar⟩

/-- The cells of one row. -/
def candidateCells (active : Bool) (index : ℕ) (line : String) (lastSuccess : Option Bool)
    (lastLatencyMs : Option UInt64) : List String :=
  let status :=
    match lastSuccess with
    | some true => "ok"
    | some false => "FAIL"
    | none => "-"
  let latency := (lastLatencyMs.map fun ms => s!"{ms}ms").getD "-"
  let marker := if active then "*" else " "
  [s!"{marker}{index}", line, status, latency]

structure CandidatesPanel where
  title : String
  rows : List (List String)
  deriving DecidableEq

def drawCandidatesPanel (h : HealthStatus) : CandidatesPanel :=
  ⟨s!"Bridge candidates ({h.candidates.length}, * = active)",
    h.candidates.map fun c =>
      candidateCells (h.activeBridgeIndex = some c.index) c.index c.line c.lastSuccess
        c.lastLatencyMs⟩

/-! ## What it says -/

/-- The panel, when each row has the outcome of its candidate's last check. -/
theorem drawCandidatesPanel_eq {h : HealthStatus} {active : Option ℕ} {last : ℕ → Option Report}
    (hactive : h.activeBridgeIndex = active)
    (hrows : ∀ c ∈ h.candidates, c.lastSuccess = (last c.index).map (·.result.success) ∧
      c.lastLatencyMs = (last c.index).map (·.result.latencyMs)) :
    drawCandidatesPanel h =
      ⟨s!"Bridge candidates ({h.table.length}, * = active)",
        h.table.map fun (idx, line) =>
          candidateCells (active = some idx) idx line
            ((last idx).map (·.result.success)) ((last idx).map (·.result.latencyMs))⟩ := by
  subst hactive
  have hlength : h.table.length = h.candidates.length := List.length_map _
  have hcells : (h.table.map fun (idx, line) =>
      candidateCells (h.activeBridgeIndex = some idx) idx line
        ((last idx).map (·.result.success)) ((last idx).map (·.result.latencyMs))) =
      h.candidates.map fun c => candidateCells (h.activeBridgeIndex = some c.index) c.index c.line
        c.lastSuccess c.lastLatencyMs := by
    rw [HealthStatus.table, List.map_map]
    refine List.map_congr_left ?_
    intro c hc
    obtain ⟨hsuccess, hlatency⟩ := hrows c hc
    simp only [Function.comp_apply, hsuccess, hlatency]
  rw [hlength, hcells]
  rfl

variable {β γ : Type}

/-- **The bridge panels are true.**  After a startup as in `main`, in every run of the loop
and of any number of `try_add_bridge` calls, `g` being all the checks and switches there
have been: the candidates panel has a row for each candidate of the table, in order, with
the outcome and the latency of the latest check of that candidate, the startup's scan
included, and a star exactly at the bridge last switched to or, before the first switch,
the one the startup chose; once no call is in progress these are all the candidates; the
sparkline has the latest 120 of the loop's own checks; and the panel names the bridge in
use, how often it changed, and how long ago that and the last periodic check were. -/
theorem bridgePanels_of_reach (arti : Arti β γ) (direct : γ) (transports : List TransportBinary)
    (lines : List (FileSystem × String)) (answer : ℕ → ℕ × CheckOutcome) (bootstraps : Bool)
    (failureThreshold : UInt32) (start : ℕ) (s₀ s : Coordinator β γ) (g : CheckLog)
    (hstart : startup arti direct transports lines answer bootstraps failureThreshold start =
      .ok s₀)
    (h : ((coordinating arti).watch noteReports).Reach Machine.anyStep
      (s₀, ⟨startupReports arti answer s₀.manager, []⟩) (s, g)) (now : ℕ) :
    drawCandidatesPanel s.telemetry =
      ⟨s!"Bridge candidates ({s.telemetry.table.length}, * = active)",
        s.telemetry.table.map fun (idx, line) =>
          candidateCells (g.active s₀.activeIdx = some idx) idx line
            ((g.last idx).map (·.result.success)) ((g.last idx).map (·.result.latencyMs))⟩ ∧
    ((∀ pc ∈ s.adds, ∃ result, pc = .returned result) →
      s.telemetry.table = s.manager.allCandidates) ∧
    (∀ r ∈ g.reports, (r.index, r.result.candidateLine) ∈ s.telemetry.table) ∧
    (drawBridgePanel s.telemetry now).sparkline =
      latest historyCapacity (g.periodic.map fun r => bar r.sample) ∧
    (drawBridgePanel s.telemetry now).lines =
      let bridge := ((g.active s₀.activeIdx).bind s.manager.candidateLine).getD
        "(direct, no bridge)"
      let check := formatSystemTime now (g.periodic.getLast?.map (·.time))
      let switch := formatSystemTime now (g.switches.getLast?.map (·.time))
      [s!"active bridge:       {bridge}",
        s!"consecutive failures: {s.telemetry.consecutiveFailures}",
        s!"total failovers:      {UInt64.ofNat g.switches.length}",
        s!"last check:           {check}",
        s!"last switch:          {switch}"] := by
  obtain ⟨htabled, hdigest⟩ := digest_of_reach hstart h
  refine ⟨?_, htabled.table_eq, ?_, ?_, ?_⟩
  · refine drawCandidatesPanel_eq hdigest.active ?_
    intro c hc
    obtain ⟨hsuccess, hrest⟩ := Prod.mk.inj (hdigest.rows c hc)
    exact ⟨hsuccess, (Prod.mk.inj hrest).1⟩
  · intro r hr
    obtain ⟨hline, row, hrow, hindex⟩ := hdigest.reported r hr
    have hrowLine := htabled.shown.lines row hrow
    rw [hindex, hline] at hrowLine
    have heq : row = (r.index, r.result.candidateLine) :=
      Prod.ext hindex (Option.some.inj hrowLine).symm
    exact heq ▸ hrow
  · simp only [drawBridgePanel, hdigest.history, map_latest, List.map_map, Function.comp_def]
  · have hbridge : s.telemetry.activeBridgeLine =
        (g.active s₀.activeIdx).bind s.manager.candidateLine := by
      rw [← hdigest.active]
      cases hactive : s.telemetry.activeBridgeIndex with
      | none => exact hdigest.direct hactive
      | some idx => exact (htabled.shown.active idx hactive).2
    rw [drawBridgePanel, hdigest.lastCheck, hdigest.lastSwitch, hdigest.switches, hbridge]

/-- A configured bridge that is down, and one added live. -/
theorem bridgePanels_addOne :
    ∃ s : Coordinator String String, (drawCandidatesPanel s.telemetry).rows =
      [[" 0", firstLine, "FAIL", "0ms"], ["*1", addedLine, "ok", "0ms"]] := by
  have hstart : startup Arti.plain "direct" [] [(.empty, firstLine)]
      (fun _ => (7, .connectTimedOut 0)) true 3 9 = .ok (Coordinator.new
        ⟨[], [⟨firstLine, firstLine⟩]⟩ "direct"
        { candidates := [⟨0, firstLine, some false, some 0, some 7⟩] } none 3 9) := rfl
  obtain ⟨⟨s, g⟩, hreach, hrows⟩ := Machine.exists_reach_of_exec
    (m := (coordinating Arti.plain).watch noteReports) (G := Machine.anyStep)
    (s := (Coordinator.new ⟨[], [⟨firstLine, firstLine⟩]⟩ "direct"
      { candidates := [⟨0, firstLine, some false, some 0, some 7⟩] } none 3 9,
      ⟨startupReports Arti.plain (fun _ => (7, .connectTimedOut 0))
        ⟨[], [⟨firstLine, firstLine⟩]⟩, []⟩))
    (P := fun p => (p.1.telemetry.table.map fun (idx, line) =>
      candidateCells (p.2.active none = some idx) idx line
        ((p.2.last idx).map (·.result.success)) ((p.2.last idx).map (·.result.latencyMs))) =
      [[" 0", firstLine, "FAIL", "0ms"], ["*1", addedLine, "ok", "0ms"]])
    (.call addedLine :: addUpToBootstrap 0 ++ addActivate 0) (by decide)
  have hpanel := (bridgePanels_of_reach Arti.plain "direct" [] [(.empty, firstLine)]
    (fun _ => (7, .connectTimedOut 0)) true 3 9 _ s g hstart hreach 9).1
  refine ⟨s, ?_⟩
  rw [hpanel]
  exact hrows

end Anonet.Tui
