import Anonet.Leakguard.DnsShimController
import Anonet.Tui.Switches

/-!
# The dashboard

`tui/src/lib.rs`: the modal key handler and the event loop around it.  The loop
awaits some `nft` commands in line and hands everything else to detached tasks.

* `handleKey` — what a key does to the view, and what it sets going; `perform`
  sets it going.
* `dashboard` — the machine: the loop, one await at a time, interleaved with the
  tasks it spawned; `LoopStep` says what a step can do.
* `step_switches` — **a step of the dashboard is one step of its firewall tasks or
  none**, so that every session is a run of `switching`.
-/

namespace Anonet.Tui

open Leakguard Net Nft Telemetry Transparent

/-! ## Keys -/

inductive KeyCode
  | char (c : Char)
  | enter
  | esc
  | backspace
  /-- Any other key. -/
  | other
  deriving DecidableEq

inductive Mode
  | normal
  | confirmDisable
  | addBridge (buffer : List Char)
  | killSwitchMenu
  | enterScopedUid (buffer : List Char)
  | confirmRadicalEnable
  | enterDnsAddr (buffer : List Char)
  | confirmTransparentEnable
  deriving DecidableEq

/-- What the last `nft list table` said of each switch, if it could tell. -/
structure KillSwitchView where
  scopedSwitch : Option Bool := none
  radicalSwitch : Option Bool := none
  deriving DecidableEq

/-- The part of the view that keys read or change. -/
structure AppState where
  killswitches : KillSwitchView
  dnsShimAddr : Option SocketAddr
  transparentRunning : Bool
  statusLine : String
  mode : Mode
  deriving DecidableEq

/-- What a key sets going. -/
inductive Effect
  | nothing
  | quit
  | checkNow
  | tryAddBridge (line : String)
  | disableScoped
  | disableRadical
  | enableScoped (uid : UInt32)
  | enableRadical
  | enableFullAnon
  | disableFullAnon
  | startDns (addr : SocketAddr)
  | stopDns
  deriving DecidableEq

namespace AppState

def enter (s : AppState) (mode : Mode) : AppState := { s with mode := mode }

/-- Back to `Normal` with a message. -/
def report (s : AppState) (message : String) : AppState :=
  { s with mode := .normal, statusLine := message }

def cancel (s : AppState) : AppState := s.report "cancelled"

end AppState

/-- `handle_key` up to what it sets going. -/
def handleKey (code : KeyCode) (s : AppState) : AppState × Effect :=
  match s.mode with
  | .confirmDisable =>
    match code with
    | .char 's' => (s.enter .normal, .disableScoped)
    | .char 'r' => (s.enter .normal, .disableRadical)
    | .esc => (s.cancel, .nothing)
    | _ => (s, .nothing)
  | .addBridge buffer =>
    match code with
    | .enter =>
      if Text.trim buffer = [] then (s.report "cancelled (empty bridge line)", .nothing)
      else (s.report "checking new bridge... (watch the candidates table)",
        .tryAddBridge (String.ofList buffer))
    | .esc => (s.cancel, .nothing)
    | .backspace => (s.enter (.addBridge buffer.dropLast), .nothing)
    | .char c => (s.enter (.addBridge (buffer ++ [c])), .nothing)
    | _ => (s, .nothing)
  | .killSwitchMenu =>
    match code with
    | .char 's' => (s.enter (.enterScopedUid []), .nothing)
    | .char 'r' => (s.enter .confirmRadicalEnable, .nothing)
    | .esc => (s.cancel, .nothing)
    | _ => (s, .nothing)
  | .enterScopedUid buffer =>
    match code with
    | .enter =>
      match Text.parseU32 (Text.trim buffer) with
      | some uid => (s.enter .normal, .enableScoped uid)
      | none =>
        let typed := String.ofList buffer
        (s.report s!"'{typed}' is not a valid UID, cancelled", .nothing)
    | .esc => (s.cancel, .nothing)
    | .backspace => (s.enter (.enterScopedUid buffer.dropLast), .nothing)
    | .char c =>
      if Text.isAsciiDigit c then (s.enter (.enterScopedUid (buffer ++ [c])), .nothing)
      else (s, .nothing)
    | _ => (s, .nothing)
  | .confirmRadicalEnable =>
    match code with
    | .char 'y' => (s.report "enabling radical kill switch...", .enableRadical)
    | .esc => (s.cancel, .nothing)
    | _ => (s, .nothing)
  | .enterDnsAddr buffer =>
    match code with
    | .enter =>
      match SocketAddr.parse (Text.trim buffer) with
      | some addr => (s.enter .normal, .startDns addr)
      | none =>
        let typed := String.ofList buffer
        (s.report s!"'{typed}' is not a valid address (expected host:port)", .nothing)
    | .esc => (s.cancel, .nothing)
    | .backspace => (s.enter (.enterDnsAddr buffer.dropLast), .nothing)
    | .char c => (s.enter (.enterDnsAddr (buffer ++ [c])), .nothing)
    | _ => (s, .nothing)
  | .confirmTransparentEnable =>
    match code with
    | .char 'y' =>
      (s.report "starting full anonymization (tor bootstrap can take up to a minute)...",
        .enableFullAnon)
    | .esc => (s.cancel, .nothing)
    | _ => (s, .nothing)
  | .normal =>
    match code with
    | .char 'q' | .esc => (s, .quit)
    | .char 'c' => (s.report "requested an immediate bridge health check", .checkNow)
    | .char 'a' => (s.enter (.addBridge []), .nothing)
    | .char 'n' =>
      if s.dnsShimAddr.isSome then (s.report "DNS shim stopped", .stopDns)
      else (s.enter (.enterDnsAddr "127.0.0.1:9535".toList), .nothing)
    | .char 'k' => (s.enter .killSwitchMenu, .nothing)
    | .char 'd' => (s.enter .confirmDisable, .nothing)
    | .char 't' =>
      if s.transparentRunning then
        ({ s.report "stopping full anonymization..." with transparentRunning := false },
          .disableFullAnon)
      else (s.enter .confirmTransparentEnable, .nothing)
    | _ => (s, .nothing)

/-! ## The event loop -/

/-- An `nft` command a key awaits in line. -/
inductive Inline
  | disableScoped
  /-- Radical disable `i`. -/
  | disableRadical (i : ℕ)
  | enableScoped (uid : UInt32)
  deriving DecidableEq

/-- Where the loop is.  `tick` tells a refresh tick from a refresh after a key. -/
inductive LoopPc
  /-- Before the first frame, waiting for `is_running`. -/
  | starting
  /-- In `select!`. -/
  | selecting
  | applying (op : Inline)
  | listingScoped (tick : Bool)
  | listingRadical (tick : Bool)
  /-- In a refresh tick, waiting for `is_running`. -/
  | polling
  | exited
  deriving DecidableEq

structure Dashboard where
  switches : Switches
  app : AppState
  dns : DnsShimController
  /-- A stored `check_now` permit. -/
  checkNow : Bool
  /-- The lines handed to `try_add_bridge`. -/
  bridgeLines : List String
  loop : LoopPc
  /-- The dropped tasks whose `nft` has ended since the session did. -/
  reaped : List Owner

inductive DashboardAction
  | key (code : KeyCode)
  | inputError (err : String)
  | endOfInput
  | drawFails
  | refreshTick
  | nft (o : NftOutcome)
  | isRunning
  /-- A step of a spawned task, or of the clock; after the end of the session, of the
  `nft` that a task was waiting for. -/
  | background (a : SwitchAction)
  deriving DecidableEq

/-- Actions taken by spawned tasks and by the clock. -/
def SwitchAction.isBackground : SwitchAction → Bool
  | .fullAnon (.step _ _) | .fullAnon (.tick _) | .radical _ _ => true
  | _ => false

/-- `nft` ends for a spawned task. -/
def SwitchAction.isNft : SwitchAction → Bool
  | .fullAnon (.step _ (.nft _)) | .radical _ (.nft _) => true
  | _ => false

namespace Inline

def action (op : Inline) (o : NftOutcome) : SwitchAction :=
  match op with
  | .disableScoped => .scopedDisable o
  | .disableRadical i => .removal i o
  | .enableScoped uid => .scopedEnable uid o

/-- The status line afterwards. -/
def message (op : Inline) (o : NftOutcome) (rs : Ruleset) : String :=
  match op with
  | .disableScoped =>
    match ((KillSwitch.Scoped 0).disable o rs).1 with
    | .ok _ => "scoped kill switch disabled"
    | .error err => s!"failed to disable scoped kill switch: {err}"
  | .disableRadical _ =>
    match ((KillSwitch.Radical 0).disable o rs).1 with
    | .ok _ => "radical kill switch disabled"
    | .error err => s!"failed to disable radical kill switch: {err}"
  | .enableScoped uid =>
    match ((KillSwitch.Scoped uid).enable o rs).1 with
    | .ok _ => s!"scoped kill switch enabled, confining uid {uid} to loopback"
    | .error err => s!"failed to enable scoped kill switch: {err}"

end Inline

namespace Dashboard

/-- `run` up to its first await, in a process that has just started. -/
def new (dataDir : Option String) (telemetry : HealthStatus) (ruleset : Ruleset) (now : ℕ)
    (dns : DnsShimController) : Dashboard where
  switches := .new dataDir telemetry ruleset now
  app := ⟨{}, dns.boundAddr, false, "", .normal⟩
  dns := dns
  checkNow := false
  bridgeLines := []
  loop := .starting
  reaped := []

def ruleset (d : Dashboard) : Ruleset := d.switches.ruleset

/-- Set going what a key asked for. -/
def perform (d : Dashboard) : Effect → Dashboard
  | .nothing => d
  | .quit => { d with loop := .exited }
  | .checkNow => { d with checkNow := true }
  | .tryAddBridge line => { d with bridgeLines := d.bridgeLines ++ [line] }
  | .disableScoped => { d with loop := .applying .disableScoped }
  | .disableRadical =>
    { d with
      switches := d.switches.radicalDisable
      loop := .applying (.disableRadical d.switches.removals.length) }
  | .enableScoped uid => { d with loop := .applying (.enableScoped uid) }
  | .enableRadical => { d with switches := d.switches.radicalEnable }
  | .enableFullAnon => { d with switches := d.switches.callEnable }
  | .disableFullAnon => { d with switches := d.switches.callDisable }
  | .startDns addr =>
    let (result, dns) := d.dns.start addr
    let message := match result with
      | .ok _ => s!"DNS shim started on {addr}"
      | .error err => s!"failed to start DNS shim: {err}"
    { d with dns := dns, app := { d.app with statusLine := message, dnsShimAddr := dns.boundAddr } }
  | .stopDns => { d with dns := d.dns.stop.2, app := { d.app with dnsShimAddr := none } }

/-- The command a key awaits in line ends. -/
def apply (d : Dashboard) (op : Inline) (o : NftOutcome) : Option Dashboard :=
  (d.switches.step (op.action o)).map fun switches =>
    { d with
      switches := switches
      app := { d.app with statusLine := op.message o d.ruleset }
      loop := .listingScoped false }

def setKillswitches (d : Dashboard) (view : KillSwitchView) : Dashboard :=
  { d with app := { d.app with killswitches := view } }

def setRunning (d : Dashboard) (running : Bool) : Dashboard :=
  { d with app := { d.app with transparentRunning := running } }

def step (d : Dashboard) (a : DashboardAction) : Option Dashboard :=
  match d.loop, a with
  | .exited, .background a =>
    -- nobody kills the `nft` of a task that is dropped, and it ends once
    if a.isNft ∧ a.owner ∉ d.reaped then
      (d.switches.step a).map fun switches =>
        { d with switches := switches, reaped := a.owner :: d.reaped }
    else none
  | .exited, _ => none
  | _, .background a =>
    if a.isBackground then
      (d.switches.step a).map fun switches => { d with switches := switches }
    else none
  | .starting, .isRunning =>
    d.switches.fullAnon.isRunning.map fun running =>
      { d.setRunning running with loop := .listingScoped false }
  | .selecting, .key code =>
    let (app, effect) := handleKey code d.app
    some (perform { d with app := app } effect)
  | .selecting, .inputError err =>
    some { d with app := { d.app with statusLine := s!"input error: {err}" } }
  | .selecting, .endOfInput => some { d with loop := .exited }
  | .selecting, .drawFails => some { d with loop := .exited }
  | .selecting, .refreshTick => some { d with loop := .listingScoped true }
  | .applying op, .nft o => d.apply op o
  | .listingScoped tick, .nft o =>
    let enabled := ((KillSwitch.Scoped 0).isEnabled o d.ruleset).toOption
    some { d.setKillswitches { d.app.killswitches with scopedSwitch := enabled } with
      loop := .listingRadical tick }
  | .listingRadical tick, .nft o =>
    let enabled := ((KillSwitch.Radical 0).isEnabled o d.ruleset).toOption
    let d := d.setKillswitches { d.app.killswitches with radicalSwitch := enabled }
    if tick then
      some { d with app := { d.app with dnsShimAddr := d.dns.boundAddr }, loop := .polling }
    else some { d with loop := .selecting }
  | .polling, .isRunning =>
    d.switches.fullAnon.isRunning.map fun running =>
      { d.setRunning running with loop := .selecting }
  | _, _ => none

end Dashboard

/-- A dashboard session: the loop and the tasks it has spawned, until it ends; tasks still
there then are dropped, and an `nft` that is still running runs on. -/
def dashboard : Machine Dashboard DashboardAction where
  step := Dashboard.step

/-! ## What one step does -/

inductive LoopStep (d : Dashboard) : DashboardAction → Dashboard → Prop
  | background {b : SwitchAction} {switches : Switches} (hb : b.isBackground = true)
      (hs : d.switches.step b = some switches) :
      LoopStep d (.background b) { d with switches := switches }
  | orphan {b : SwitchAction} {switches : Switches} (hloop : d.loop = .exited)
      (hnft : b.isNft = true) (hleft : b.owner ∉ d.reaped)
      (hs : d.switches.step b = some switches) :
      LoopStep d (.background b) { d with switches := switches, reaped := b.owner :: d.reaped }
  | begin {running : Bool} (hloop : d.loop = .starting)
      (hrun : d.switches.fullAnon.isRunning = some running) :
      LoopStep d .isRunning { d.setRunning running with loop := .listingScoped false }
  | key {code : KeyCode} (hloop : d.loop = .selecting) :
      LoopStep d (.key code)
        (Dashboard.perform { d with app := (handleKey code d.app).1 } (handleKey code d.app).2)
  | inputError {err : String} (hloop : d.loop = .selecting) :
      LoopStep d (.inputError err)
        { d with app := { d.app with statusLine := s!"input error: {err}" } }
  | endOfInput (hloop : d.loop = .selecting) : LoopStep d .endOfInput { d with loop := .exited }
  | drawFails (hloop : d.loop = .selecting) : LoopStep d .drawFails { d with loop := .exited }
  | tick (hloop : d.loop = .selecting) :
      LoopStep d .refreshTick { d with loop := .listingScoped true }
  | apply {op : Inline} {o : NftOutcome} {switches : Switches} (hloop : d.loop = .applying op)
      (hs : d.switches.step (op.action o) = some switches) :
      LoopStep d (.nft o) { d with
        switches := switches
        app := { d.app with statusLine := op.message o d.ruleset }
        loop := .listingScoped false }
  | listed {tick : Bool} {o : NftOutcome} {view : KillSwitchView}
      (hloop : d.loop = .listingScoped tick) :
      LoopStep d (.nft o) { d.setKillswitches view with loop := .listingRadical tick }
  | poll {o : NftOutcome} {view : KillSwitchView} (hloop : d.loop = .listingRadical true) :
      LoopStep d (.nft o) { d with
        app := { d.app with killswitches := view, dnsShimAddr := d.dns.boundAddr }
        loop := .polling }
  | refreshed {o : NftOutcome} {view : KillSwitchView} (hloop : d.loop = .listingRadical false) :
      LoopStep d (.nft o) { d.setKillswitches view with loop := .selecting }
  | polled {running : Bool} (hloop : d.loop = .polling)
      (hrun : d.switches.fullAnon.isRunning = some running) :
      LoopStep d .isRunning { d.setRunning running with loop := .selecting }

theorem loopStep_of_step {d d' : Dashboard} {a : DashboardAction} (h : d.step a = some d') :
    LoopStep d a d' := by
  unfold Dashboard.step at h
  split at h
  · rename_i hloop
    split at h
    · rename_i hb
      obtain ⟨switches, hs, rfl⟩ := Option.map_eq_some_iff.mp h
      exact .orphan hloop hb.1 hb.2 hs
    · cases h
  · cases h
  · split at h
    · rename_i hb
      obtain ⟨switches, hs, rfl⟩ := Option.map_eq_some_iff.mp h
      exact .background hb hs
    · cases h
  · rename_i hloop
    obtain ⟨running, hrun, rfl⟩ := Option.map_eq_some_iff.mp h
    exact .begin hloop hrun
  · rename_i hloop
    cases h
    exact .key hloop
  · rename_i hloop
    cases h
    exact .inputError hloop
  · rename_i hloop
    cases h
    exact .endOfInput hloop
  · rename_i hloop
    cases h
    exact .drawFails hloop
  · rename_i hloop
    cases h
    exact .tick hloop
  · rename_i hloop
    obtain ⟨switches, hs, rfl⟩ := Option.map_eq_some_iff.mp h
    exact .apply hloop hs
  · rename_i hloop
    cases h
    exact .listed hloop
  · rename_i tick _ hloop
    dsimp only at h
    cases tick with
    | true =>
      cases h
      exact .poll hloop
    | false =>
      cases h
      exact .refreshed hloop
  · rename_i hloop
    obtain ⟨running, hrun, rfl⟩ := Option.map_eq_some_iff.mp h
    exact .polled hloop hrun
  · cases h

/-- The background goes on until the dashboard is left. -/
theorem step_background {d : Dashboard} {b : SwitchAction} {switches : Switches}
    (hloop : d.loop ≠ .exited) (hb : b.isBackground = true)
    (hs : d.switches.step b = some switches) :
    d.step (.background b) = some { d with switches := switches } := by
  cases hl : d.loop with
  | exited => exact absurd hl hloop
  | _ => simp [Dashboard.step, hl, hb, hs]

/-- Once it is left, all that goes on is the `nft` of dropped tasks. -/
theorem orphan_iff {d d' : Dashboard} {a : DashboardAction} (hloop : d.loop = .exited) :
    d.step a = some d' ↔ ∃ b switches, a = .background b ∧ b.isNft = true ∧
      b.owner ∉ d.reaped ∧ d.switches.step b = some switches ∧
      d' = { d with switches := switches, reaped := b.owner :: d.reaped } := by
  constructor
  · intro h
    cases a with
    | background b =>
      simp only [Dashboard.step, hloop] at h
      split at h
      · rename_i hb
        obtain ⟨switches, hs, hd'⟩ := Option.map_eq_some_iff.mp h
        exact ⟨b, switches, rfl, hb.1, hb.2, hs, by rw [← hd', hloop]⟩
      · cases h
    | _ => simp [Dashboard.step, hloop] at h
  · rintro ⟨b, switches, rfl, hnft, hleft, hs, rfl⟩
    simp [Dashboard.step, hloop, hnft, hleft, hs]

/-! ## The firewall tasks of a session -/

def Effect.switchAction : Effect → Option SwitchAction
  | .disableRadical => some .radicalDisable
  | .enableRadical => some .radicalEnable
  | .enableFullAnon => some (.fullAnon .callEnable)
  | .disableFullAnon => some (.fullAnon .callDisable)
  | _ => none

/-- What an action of the dashboard is to its firewall tasks. -/
def Dashboard.switchAction (d : Dashboard) (a : DashboardAction) : Option SwitchAction :=
  match a with
  | .key code => (handleKey code d.app).2.switchAction
  | .nft o =>
    match d.loop with
    | .applying op => some (op.action o)
    | _ => none
  | .background a => some a
  | _ => none

theorem perform_switches (d : Dashboard) (effect : Effect) :
    match effect.switchAction with
    | none => (d.perform effect).switches = d.switches
    | some a => d.switches.step a = some (d.perform effect).switches := by
  cases effect <;> rfl

/-- **A step of the dashboard is one step of its firewall tasks, or none.** -/
theorem step_switches {d d' : Dashboard} {a : DashboardAction} (h : d.step a = some d') :
    match d.switchAction a with
    | none => d'.switches = d.switches
    | some b => d.switches.step b = some d'.switches := by
  cases loopStep_of_step h with
  | background hb hs => exact hs
  | orphan hloop hnft hleft hs => exact hs
  | @key code hloop => exact perform_switches { d with app := (handleKey code d.app).1 } _
  | apply hloop hs =>
    simp only [Dashboard.switchAction, hloop]
    exact hs
  | listed hloop | poll hloop | refreshed hloop =>
    simp [Dashboard.switchAction, hloop, Dashboard.setKillswitches]
  | begin | inputError | endOfInput | drawFails | tick | polled => rfl

end Anonet.Tui
