import Anonet.Leakguard.TransparentRedirect
import Anonet.Library.Machine
import Anonet.Telemetry.HealthStatus
import Anonet.Transparent.Supervisor

/-!
# Full anonymization

`transparent/src/full_anon.rs` as a machine: any number of `enable` and
`disable` calls on one controller, which interleave at every await.  The
supervisor's mutex is held across tor's bootstrap and across a kill, and is free
while the two nftables tables are loaded or deleted.

* `EnablePc`, `DisablePc` — where a call is.
* `stepEnable`, `stepDisable` — one step of a call.
* `toggling` — the machine of all interleavings.
* `CallStep` — the same steps as a relation, one case for each way to go.
-/

namespace Anonet.Transparent

open Leakguard Net Nft Telemetry

/-- Where an `enable` call is. -/
inductive EnablePc
  | entered
  | identifying
  /-- Waiting for the supervisor's mutex, to start tor. -/
  | locking (uid : UInt32)
  /-- Reading tor's output with the mutex held. -/
  | bootstrapping (uid : UInt32) (child : TorChild) (deadline : ℕ)
  /-- Killing a tor that did not bootstrap, with the mutex held. -/
  | killing (err : String)
  | redirecting (uid : UInt32)
  | switching (uid : UInt32)
  | flagging
  /-- Taking the redirect back because the kill switch could not be applied. -/
  | unredirecting (uid : UInt32) (err : String)
  /-- Waiting for the mutex, to stop tor again. -/
  | stopping (err : String)
  | releasing (err : String)
  /-- About to record the error. -/
  | failing (err : String)
  | returned (result : Except String Unit)

/-- Where a `disable` call is. -/
inductive DisablePc
  | entered
  | unredirecting (uid : UInt32)
  | unswitching (uid : UInt32)
  | stopping
  | releasing
  | flagging
  | returned

inductive Call
  | enable (pc : EnablePc)
  | disable (pc : DisablePc)

/-- The controller, the calls on it, and the state of the machine they change. -/
structure FullAnonController where
  supervisor : TorSupervisor
  /-- The call that holds the supervisor's mutex. -/
  holder : Option ℕ
  ports : TorPorts
  telemetry : HealthStatus
  ruleset : Ruleset
  calls : List Call
  now : ℕ

/-- What a call learns from outside in one step. -/
inductive Event
  /-- Nothing; the step only touches the program's own state. -/
  | go
  | identified (o : IdOutcome)
  | spawned (o : SpawnOutcome)
  | tor (e : BootstrapEvent)
  | nft (o : NftOutcome)
  deriving DecidableEq

inductive Action
  | callEnable
  | callDisable
  | step (i : ℕ) (e : Event)
  | tick (nanos : ℕ)
  deriving DecidableEq

namespace FullAnonController

/-- `FullAnonController::new` on a host with the given tables. -/
def new (dataDir : Option String) (telemetry : HealthStatus) (ruleset : Ruleset) (now : ℕ) :
    FullAnonController where
  supervisor := .new {} dataDir
  holder := none
  ports := {}
  telemetry := telemetry
  ruleset := ruleset
  calls := []
  now := now

def update (s : FullAnonController) (f : HealthStatus → HealthStatus) : FullAnonController :=
  { s with telemetry := f s.telemetry }

/-- Both `enable_inner` and `disable` build it. -/
def redirect (s : FullAnonController) (uid : UInt32) : TransparentRedirect :=
  ⟨uid, s.ports.transPort, s.ports.dnsPort⟩

/-- Call `i` takes the mutex. -/
def lock (s : FullAnonController) (i : ℕ) : FullAnonController := { s with holder := some i }

def unlock (s : FullAnonController) : FullAnonController := { s with holder := none }

/-- `self.child.take()`; the kill that follows is awaited with the mutex held. -/
def takeChild (s : FullAnonController) : FullAnonController :=
  { s with supervisor := { s.supervisor with child := none } }

def storeChild (s : FullAnonController) (child : TorChild) : FullAnonController :=
  { s with supervisor := { s.supervisor with child := some child } }

def setRuleset (s : FullAnonController) (rs : Ruleset) : FullAnonController :=
  { s with ruleset := rs }

def setEnabled (s : FullAnonController) (b : Bool) : FullAnonController :=
  s.update fun t => { t with transparentEnabled := b }

/-- One step of `enable`, with `enable_inner`, `crate::start` and
`TorSupervisor::start` in line. -/
def stepEnable (s : FullAnonController) (i : ℕ) (pc : EnablePc) (e : Event) :
    Option (EnablePc × FullAnonController) :=
  match pc, e with
  | .entered, .go => some (.identifying, s.update (·.clearError))
  | .identifying, .identified o =>
    match currentUid o with
    | .ok uid => some (.locking uid, s)
    | .error err => some (.failing err, s)
  | .locking uid, .spawned o =>
    if s.holder.isSome then none
    else
      match s.supervisor.launch o with
      | .ok child => some (.bootstrapping uid child (s.now + bootstrapTimeout), s.lock i)
      | .error err => some (.failing err, s)
  | .bootstrapping uid child deadline, .tor e =>
    if e = .elapsed ∧ s.now < deadline then none
    else
      match TorSupervisor.onBootstrap e with
      | .waiting => some (.bootstrapping uid child deadline, s)
      | .done => some (.redirecting uid, (s.storeChild child).unlock)
      | .failed err => some (.killing err, s)
  | .killing err, .go => some (.failing err, s.unlock)
  | .redirecting uid, .nft o =>
    match (s.redirect uid).enable o s.ruleset with
    | (.ok _, rs) => some (.switching uid, s.setRuleset rs)
    | (.error err, rs) => some (.stopping err, s.setRuleset rs)
  | .switching uid, .nft o =>
    match (KillSwitch.Radical uid).enable o s.ruleset with
    | (.ok _, rs) => some (.flagging, s.setRuleset rs)
    | (.error err, rs) => some (.unredirecting uid err, s.setRuleset rs)
  | .flagging, .go => some (.returned (.ok ()), s.setEnabled true)
  | .unredirecting uid err, .nft o =>
    some (.stopping err, s.setRuleset ((s.redirect uid).disable o s.ruleset).2)
  | .stopping err, .go =>
    if s.holder.isSome then none else some (.releasing err, s.takeChild.lock i)
  | .releasing err, .go => some (.failing err, s.unlock)
  | .failing err, .go =>
    some (.returned (.error err),
      s.update (·.recordError s.now s!"full anonymization: {err}"))
  | _, _ => none

/-- One step of `disable`. -/
def stepDisable (s : FullAnonController) (i : ℕ) (pc : DisablePc) (e : Event) :
    Option (DisablePc × FullAnonController) :=
  match pc, e with
  | .entered, .identified o => some (.unredirecting ((currentUid o).toOption.getD 0), s)
  | .unredirecting uid, .nft o =>
    some (.unswitching uid, s.setRuleset ((s.redirect uid).disable o s.ruleset).2)
  | .unswitching uid, .nft o =>
    some (.stopping, s.setRuleset ((KillSwitch.Radical uid).disable o s.ruleset).2)
  | .stopping, .go => if s.holder.isSome then none else some (.releasing, s.takeChild.lock i)
  | .releasing, .go => some (.flagging, s.unlock)
  | .flagging, .go => some (.returned, s.setEnabled false)
  | _, _ => none

def stepCall (s : FullAnonController) (i : ℕ) (c : Call) (e : Event) :
    Option (Call × FullAnonController) :=
  match c with
  | .enable pc => (s.stepEnable i pc e).map fun (pc, s) => (.enable pc, s)
  | .disable pc => (s.stepDisable i pc e).map fun (pc, s) => (.disable pc, s)

/-- A new call, which has not run yet. -/
def spawn (s : FullAnonController) (c : Call) : FullAnonController :=
  { s with calls := s.calls ++ [c] }

def step (s : FullAnonController) : Action → Option FullAnonController
  | .callEnable => some (s.spawn (.enable .entered))
  | .callDisable => some (s.spawn (.disable .entered))
  | .step i e => do
    let c ← s.calls[i]?
    let (c, s) ← s.stepCall i c e
    some { s with calls := s.calls.set i c }
  | .tick nanos => some { s with now := s.now + nanos }

/-- `FullAnonController::is_running`, which waits while a call holds the mutex. -/
def isRunning (s : FullAnonController) : Option Bool :=
  if s.holder.isSome then none else some s.supervisor.isRunning

end FullAnonController

/-- All interleavings of `enable` and `disable` calls. -/
def toggling : Machine FullAnonController Action where
  step := FullAnonController.step

/-! ## What one step does -/

/-- A step of call `i`, which is at a given place: where it is then, and the
controller. -/
inductive CallStep (s : FullAnonController) (i : ℕ) :
    Call → Event → Call → FullAnonController → Prop
  | enter : CallStep s i (.enable .entered) .go (.enable .identifying) (s.update (·.clearError))
  | identify {o : IdOutcome} {uid : UInt32} (huid : currentUid o = .ok uid) :
      CallStep s i (.enable .identifying) (.identified o) (.enable (.locking uid)) s
  | noUid {o : IdOutcome} {err : String} (huid : currentUid o = .error err) :
      CallStep s i (.enable .identifying) (.identified o) (.enable (.failing err)) s
  | launch {uid : UInt32} {o : SpawnOutcome} {child : TorChild} (hfree : s.holder = none)
      (hlaunch : s.supervisor.launch o = .ok child) :
      CallStep s i (.enable (.locking uid)) (.spawned o)
        (.enable (.bootstrapping uid child (s.now + bootstrapTimeout))) (s.lock i)
  | noLaunch {uid : UInt32} {o : SpawnOutcome} {err : String} (hfree : s.holder = none)
      (hlaunch : s.supervisor.launch o = .error err) :
      CallStep s i (.enable (.locking uid)) (.spawned o) (.enable (.failing err)) s
  | read {uid : UInt32} {child : TorChild} {deadline : ℕ} {e : BootstrapEvent}
      (he : TorSupervisor.onBootstrap e = .waiting) :
      CallStep s i (.enable (.bootstrapping uid child deadline)) (.tor e)
        (.enable (.bootstrapping uid child deadline)) s
  | started {uid : UInt32} {child : TorChild} {deadline : ℕ} {e : BootstrapEvent}
      (he : TorSupervisor.onBootstrap e = .done) :
      CallStep s i (.enable (.bootstrapping uid child deadline)) (.tor e)
        (.enable (.redirecting uid)) (s.storeChild child).unlock
  | noBootstrap {uid : UInt32} {child : TorChild} {deadline : ℕ} {e : BootstrapEvent}
      {err : String} (he : TorSupervisor.onBootstrap e = .failed err)
      (htime : e = .elapsed → deadline ≤ s.now) :
      CallStep s i (.enable (.bootstrapping uid child deadline)) (.tor e)
        (.enable (.killing err)) s
  | killed {err : String} :
      CallStep s i (.enable (.killing err)) .go (.enable (.failing err)) s.unlock
  | redirect {uid : UInt32} {o : NftOutcome} {rs : Ruleset}
      (hnft : (s.redirect uid).enable o s.ruleset = (.ok (), rs)) :
      CallStep s i (.enable (.redirecting uid)) (.nft o) (.enable (.switching uid))
        (s.setRuleset rs)
  | noRedirect {uid : UInt32} {o : NftOutcome} {rs : Ruleset} {err : String}
      (hnft : (s.redirect uid).enable o s.ruleset = (.error err, rs)) :
      CallStep s i (.enable (.redirecting uid)) (.nft o) (.enable (.stopping err))
        (s.setRuleset rs)
  | switch {uid : UInt32} {o : NftOutcome} {rs : Ruleset}
      (hnft : (KillSwitch.Radical uid).enable o s.ruleset = (.ok (), rs)) :
      CallStep s i (.enable (.switching uid)) (.nft o) (.enable .flagging) (s.setRuleset rs)
  | noSwitch {uid : UInt32} {o : NftOutcome} {rs : Ruleset} {err : String}
      (hnft : (KillSwitch.Radical uid).enable o s.ruleset = (.error err, rs)) :
      CallStep s i (.enable (.switching uid)) (.nft o) (.enable (.unredirecting uid err))
        (s.setRuleset rs)
  | flag : CallStep s i (.enable .flagging) .go (.enable (.returned (.ok ()))) (s.setEnabled true)
  | rollback {uid : UInt32} {err : String} {o : NftOutcome} :
      CallStep s i (.enable (.unredirecting uid err)) (.nft o) (.enable (.stopping err))
        (s.setRuleset ((s.redirect uid).disable o s.ruleset).2)
  | rollbackStop {err : String} (hfree : s.holder = none) :
      CallStep s i (.enable (.stopping err)) .go (.enable (.releasing err)) (s.takeChild.lock i)
  | rollbackRelease {err : String} :
      CallStep s i (.enable (.releasing err)) .go (.enable (.failing err)) s.unlock
  | fail {err : String} :
      CallStep s i (.enable (.failing err)) .go (.enable (.returned (.error err)))
        (s.update (·.recordError s.now s!"full anonymization: {err}"))
  | leave {o : IdOutcome} :
      CallStep s i (.disable .entered) (.identified o)
        (.disable (.unredirecting ((currentUid o).toOption.getD 0))) s
  | unredirect {uid : UInt32} {o : NftOutcome} :
      CallStep s i (.disable (.unredirecting uid)) (.nft o) (.disable (.unswitching uid))
        (s.setRuleset ((s.redirect uid).disable o s.ruleset).2)
  | unswitch {uid : UInt32} {o : NftOutcome} :
      CallStep s i (.disable (.unswitching uid)) (.nft o) (.disable .stopping)
        (s.setRuleset ((KillSwitch.Radical uid).disable o s.ruleset).2)
  | stop (hfree : s.holder = none) :
      CallStep s i (.disable .stopping) .go (.disable .releasing) (s.takeChild.lock i)
  | release : CallStep s i (.disable .releasing) .go (.disable .flagging) s.unlock
  | unflag : CallStep s i (.disable .flagging) .go (.disable .returned) (s.setEnabled false)

section Inversion

variable {s s' : FullAnonController} {i : ℕ} {e : Event}

theorem callStep_of_stepEnable {pc pc' : EnablePc} (h : s.stepEnable i pc e = some (pc', s')) :
    CallStep s i (.enable pc) e (.enable pc') s' := by
  unfold FullAnonController.stepEnable at h
  split at h
  · cases h
    exact .enter
  · split at h <;> rename_i huid <;> cases h
    · exact .identify huid
    · exact .noUid huid
  · split at h
    · cases h
    · rename_i hfree
      have hnone : s.holder = none := Option.not_isSome_iff_eq_none.mp hfree
      split at h <;> rename_i hlaunch <;> cases h
      · exact .launch hnone hlaunch
      · exact .noLaunch hnone hlaunch
  · split at h
    · cases h
    · rename_i htime
      split at h <;> rename_i he <;> cases h
      · exact .read he
      · exact .started he
      · exact .noBootstrap he fun hel => not_lt.mp fun hlt => htime ⟨hel, hlt⟩
  · cases h
    exact .killed
  · split at h <;> rename_i hnft <;> cases h
    · exact .redirect hnft
    · exact .noRedirect hnft
  · split at h <;> rename_i hnft <;> cases h
    · exact .switch hnft
    · exact .noSwitch hnft
  · cases h
    exact .flag
  · cases h
    exact .rollback
  · split at h
    · cases h
    · rename_i hfree
      cases h
      exact .rollbackStop (Option.not_isSome_iff_eq_none.mp hfree)
  · cases h
    exact .rollbackRelease
  · cases h
    exact .fail
  · cases h

theorem callStep_of_stepDisable {pc pc' : DisablePc} (h : s.stepDisable i pc e = some (pc', s')) :
    CallStep s i (.disable pc) e (.disable pc') s' := by
  unfold FullAnonController.stepDisable at h
  split at h
  · cases h
    exact .leave
  · cases h
    exact .unredirect
  · cases h
    exact .unswitch
  · split at h
    · cases h
    · rename_i hfree
      cases h
      exact .stop (Option.not_isSome_iff_eq_none.mp hfree)
  · cases h
    exact .release
  · cases h
    exact .unflag
  · cases h

/-- A step of call `i`. -/
theorem callStep_of_step (h : s.step (.step i e) = some s') :
    ∃ c c' s₁, s.calls[i]? = some c ∧ CallStep s i c e c' s₁ ∧
      s' = { s₁ with calls := s₁.calls.set i c' } := by
  simp only [FullAnonController.step, Option.bind_eq_bind, Option.bind_eq_some_iff] at h
  obtain ⟨c, hc, ⟨c', s₁⟩, hs₁, h⟩ := h
  refine ⟨c, c', s₁, hc, ?_, (Option.some.inj h).symm⟩
  cases c with
  | enable pc =>
    obtain ⟨⟨pc', s₂⟩, hpc, hmap⟩ := Option.map_eq_some_iff.mp hs₁
    cases hmap
    exact callStep_of_stepEnable hpc
  | disable pc =>
    obtain ⟨⟨pc', s₂⟩, hpc, hmap⟩ := Option.map_eq_some_iff.mp hs₁
    cases hmap
    exact callStep_of_stepDisable hpc

end Inversion

/-! ### Kinds of calls -/

inductive Kind
  | enable
  | disable
  deriving DecidableEq

def Call.kind : Call → Kind
  | .enable _ => .enable
  | .disable _ => .disable

/-! ### `last_error` -/

/-- What the next step of a call does to `last_error`. -/
def Call.errorOp (now : ℕ) : Call → ErrorOp
  | .enable .entered => .clear
  | .enable (.failing err) => .record now s!"full anonymization: {err}"
  | _ => .keep

/-- An `enable` clears it at its start and records an error at one place. -/
theorem CallStep.lastError {s s' : FullAnonController} {i : ℕ} {c c' : Call} {e : Event}
    (h : CallStep s i c e c' s') :
    s'.telemetry.lastError = (c.errorOp s.now).apply s.telemetry.lastError := by
  cases h with
  | enter => rfl
  | fail => rfl
  | _ => rfl

/-! ### Tables -/

/-- The table the next step of a call loads or deletes. -/
def Call.tableOp : Call → Option TableOp
  | .enable (.redirecting _) => some (.load transparentTable)
  | .enable (.switching _) => some (.load systemTable)
  | .enable (.unredirecting _ _) => some (.delete transparentTable)
  | .disable (.unredirecting _) => some (.delete transparentTable)
  | .disable (.unswitching _) => some (.delete systemTable)
  | _ => none

/-- If the step runs `nft`, then `nft` does what it is asked. -/
def Event.NftSucceeds (op : Option TableOp) (rs : Ruleset) : Event → Prop
  | .nft o => o.Succeeds op rs
  | _ => True

instance (op : Option TableOp) (rs : Ruleset) (e : Event) : Decidable (e.NftSucceeds op rs) := by
  unfold Event.NftSucceeds
  split <;> infer_instance

namespace CallStep

variable {s s' : FullAnonController} {i : ℕ} {c c' : Call} {e : Event}

/-- A call moves only itself; the list of calls is the machine's. -/
theorem calls_eq (h : CallStep s i c e c' s') : s'.calls = s.calls := by
  cases h <;> rfl

theorem now_eq (h : CallStep s i c e c' s') : s'.now = s.now := by
  cases h <;> rfl

/-- What a call does to the tables. -/
theorem has (h : CallStep s i c e c' s') (hnft : e.NftSucceeds c.tableOp s.ruleset)
    (table : String) :
    s'.ruleset.has table ↔ TableOp.After c.tableOp table (s.ruleset.has table) := by
  cases h with
  | @redirect uid o rs hrun =>
    have henable := (s.redirect uid).has_enable table hnft
    rw [hrun] at henable
    exact henable.2
  | @switch uid o rs hrun =>
    have henable := (KillSwitch.Radical uid).has_enable table hnft
    rw [hrun] at henable
    exact henable.2
  | @noRedirect uid o rs err hrun =>
    have henable := (s.redirect uid).has_enable table hnft
    rw [hrun] at henable
    cases henable.1
  | @noSwitch uid o rs err hrun =>
    have henable := (KillSwitch.Radical uid).has_enable table hnft
    rw [hrun] at henable
    cases henable.1
  | rollback | unredirect => exact (s.redirect _).has_disable table hnft
  | unswitch => exact (KillSwitch.Radical _).has_disable table hnft
  | _ => exact Iff.rfl

end CallStep

/-- A call takes a step of its own, or stays where it is. -/
theorem calls_step {s s' : FullAnonController} {a : Action} (h : s.step a = some s')
    {i : ℕ} {c : Call} (hc : s.calls[i]? = some c) :
    s'.calls[i]? = some c ∨
      ∃ e c' s₁, a = .step i e ∧ CallStep s i c e c' s₁ ∧ s'.calls[i]? = some c' := by
  cases a with
  | callEnable | callDisable =>
    obtain rfl := Option.some.inj h
    refine .inl ?_
    show (s.calls ++ [_])[i]? = some c
    rw [List.getElem?_append_left (List.getElem?_eq_some_iff.mp hc).1]
    exact hc
  | tick nanos =>
    obtain rfl := Option.some.inj h
    exact .inl hc
  | step j e =>
    obtain ⟨d, d', s₁, hd, hstep, rfl⟩ := callStep_of_step h
    by_cases hij : j = i
    · subst hij
      obtain rfl := Option.some.inj (hc.symm.trans hd)
      refine .inr ⟨e, d', s₁, rfl, hstep, ?_⟩
      show (s₁.calls.set j d')[j]? = some d'
      rw [hstep.calls_eq]
      exact Machine.getElem?_set_self_of_some hd
    · refine .inl ?_
      show (s₁.calls.set j d')[i]? = some c
      rw [List.getElem?_set_ne hij, hstep.calls_eq]
      exact hc

end Anonet.Transparent
