import Anonet.Transparent.FullAnon

/-!
# The firewall switches of the dashboard

Everything the dashboard can set going that touches the firewall, as one machine:
the calls on the full-anonymization controller, the tasks `k r y` spawns (enable,
sleep 300 s, disable), the radical disables of `d r`, and the scoped switch.
They share three table names and nothing else.

* `Switches`, `switching` — the state and the machine of all interleavings.
* `Switches.tableOp` — the table a step loads or deletes; `step_has` says that
  nothing else happens to the tables.
-/

namespace Anonet.Tui

open Leakguard Nft Telemetry Transparent

/-! ## The machine -/

/-- Where a task spawned by `k r y` is. -/
inductive RadicalPc
  | identifying
  | enabling (uid : UInt32)
  | sleeping (uid : UInt32) (deadline : ℕ)
  | reverting (uid : UInt32)
  | finished
  deriving DecidableEq

/-- Where a radical disable of `d r` is. -/
inductive RemovalPc
  | started
  | finished (result : Except String Unit)

structure Switches where
  fullAnon : FullAnonController
  radicals : List RadicalPc
  removals : List RemovalPc

inductive SwitchAction
  /-- A step of the full-anonymization controller, or of the clock. -/
  | fullAnon (a : Transparent.Action)
  | radicalEnable
  | radical (i : ℕ) (e : Event)
  | radicalDisable
  | removal (i : ℕ) (o : NftOutcome)
  | scopedEnable (uid : UInt32) (o : NftOutcome)
  | scopedDisable (o : NftOutcome)
  deriving DecidableEq

/-- After this long a radical switch enabled by `k r y` is disabled again; in
nanoseconds. -/
def radicalDuration : ℕ := 300 * 10 ^ 9

namespace Switches

def new (dataDir : Option String) (telemetry : HealthStatus) (ruleset : Ruleset) (now : ℕ) :
    Switches where
  fullAnon := .new dataDir telemetry ruleset now
  radicals := []
  removals := []

def ruleset (s : Switches) : Ruleset := s.fullAnon.ruleset

def now (s : Switches) : ℕ := s.fullAnon.now

def setRuleset (s : Switches) (rs : Ruleset) : Switches :=
  { s with fullAnon := s.fullAnon.setRuleset rs }

def callEnable (s : Switches) : Switches :=
  { s with fullAnon := s.fullAnon.spawn (.enable .entered) }

def callDisable (s : Switches) : Switches :=
  { s with fullAnon := s.fullAnon.spawn (.disable .entered) }

/-- Spawn the task of `k r y`. -/
def radicalEnable (s : Switches) : Switches := { s with radicals := s.radicals ++ [.identifying] }

def radicalDisable (s : Switches) : Switches := { s with removals := s.removals ++ [.started] }

/-- One step of a task spawned by `k r y`. -/
def stepRadical (s : Switches) (pc : RadicalPc) (e : Event) : Option (RadicalPc × Switches) :=
  match pc, e with
  | .identifying, .identified o =>
    match currentUid o with
    | .ok uid => some (.enabling uid, s)
    | .error _ => some (.finished, s)
  | .enabling uid, .nft o =>
    match (KillSwitch.Radical uid).enable o s.ruleset with
    | (.ok _, rs) => some (.sleeping uid (s.now + radicalDuration), s.setRuleset rs)
    | (.error _, rs) => some (.finished, s.setRuleset rs)
  | .sleeping uid deadline, .go => if s.now < deadline then none else some (.reverting uid, s)
  | .reverting uid, .nft o =>
    some (.finished, s.setRuleset ((KillSwitch.Radical uid).disable o s.ruleset).2)
  | _, _ => none

/-- The one step of a radical disable. -/
def stepRemoval (s : Switches) (pc : RemovalPc) (o : NftOutcome) : Option (RemovalPc × Switches) :=
  match pc with
  | .started =>
    let (result, rs) := (KillSwitch.Radical 0).disable o s.ruleset
    some (.finished result, s.setRuleset rs)
  | .finished _ => none

def step (s : Switches) : SwitchAction → Option Switches
  | .fullAnon a => (s.fullAnon.step a).map fun fullAnon => { s with fullAnon := fullAnon }
  | .radicalEnable => some s.radicalEnable
  | .radical i e => do
    let pc ← s.radicals[i]?
    let (pc, s) ← s.stepRadical pc e
    some { s with radicals := s.radicals.set i pc }
  | .radicalDisable => some s.radicalDisable
  | .removal i o => do
    let pc ← s.removals[i]?
    let (pc, s) ← s.stepRemoval pc o
    some { s with removals := s.removals.set i pc }
  | .scopedEnable uid o => some (s.setRuleset ((KillSwitch.Scoped uid).enable o s.ruleset).2)
  | .scopedDisable o => some (s.setRuleset ((KillSwitch.Scoped 0).disable o s.ruleset).2)

end Switches

/-- All interleavings of the dashboard's firewall tasks. -/
def switching : Machine Switches SwitchAction where
  step := Switches.step

/-! ## What one step does to the tables -/

def RadicalPc.tableOp : RadicalPc → Option TableOp
  | .enabling _ => some (.load systemTable)
  | .reverting _ => some (.delete systemTable)
  | _ => none

def RemovalPc.tableOp : RemovalPc → Option TableOp
  | .started => some (.delete systemTable)
  | .finished _ => none

/-- Who runs an `nft` command. -/
inductive Owner
  | call (i : ℕ)
  | radical (i : ℕ)
  /-- The event loop itself. -/
  | key
  deriving DecidableEq

def SwitchAction.owner : SwitchAction → Owner
  | .fullAnon (.step i _) => .call i
  | .radical i _ => .radical i
  | _ => .key

/-- What the `nft` that a spawned task awaits is to do. -/
def Switches.inFlight (s : Switches) : Owner → Option TableOp
  | .call i => s.fullAnon.calls[i]?.bind Call.tableOp
  | .radical i => s.radicals[i]?.bind RadicalPc.tableOp
  | .key => none

/-- The table an action loads or deletes. -/
def Switches.tableOp (s : Switches) : SwitchAction → Option TableOp
  | .fullAnon (.step i _) => s.fullAnon.calls[i]?.bind Call.tableOp
  | .radical i _ => s.radicals[i]?.bind RadicalPc.tableOp
  | .removal i _ => s.removals[i]?.bind RemovalPc.tableOp
  | .scopedEnable _ _ => some (.load scopedTable)
  | .scopedDisable _ => some (.delete scopedTable)
  | _ => none

/-- If the action runs `nft`, then `nft` does what it is asked. -/
def NftSucceeds (s : Switches) (a : SwitchAction) : Prop :=
  match a with
  | .fullAnon (.step _ e) => e.NftSucceeds (s.tableOp a) s.ruleset
  | .radical _ e => e.NftSucceeds (s.tableOp a) s.ruleset
  | .removal _ o => o.Succeeds (s.tableOp a) s.ruleset
  | .scopedEnable _ o => o.Succeeds (s.tableOp a) s.ruleset
  | .scopedDisable o => o.Succeeds (s.tableOp a) s.ruleset
  | _ => True

instance (s : Switches) (a : SwitchAction) : Decidable (NftSucceeds s a) := by
  unfold NftSucceeds
  split <;> infer_instance

/-- A step of a `k r y` task that is at a given place. -/
inductive RadicalStep (s : Switches) : RadicalPc → Event → RadicalPc → Switches → Prop
  | identify {o : IdOutcome} {uid : UInt32} (huid : currentUid o = .ok uid) :
      RadicalStep s .identifying (.identified o) (.enabling uid) s
  | noUid {o : IdOutcome} {err : String} (huid : currentUid o = .error err) :
      RadicalStep s .identifying (.identified o) .finished s
  | enable {uid : UInt32} {o : NftOutcome} {rs : Ruleset}
      (hnft : (KillSwitch.Radical uid).enable o s.ruleset = (.ok (), rs)) :
      RadicalStep s (.enabling uid) (.nft o) (.sleeping uid (s.now + radicalDuration))
        (s.setRuleset rs)
  | noEnable {uid : UInt32} {o : NftOutcome} {rs : Ruleset} {err : String}
      (hnft : (KillSwitch.Radical uid).enable o s.ruleset = (.error err, rs)) :
      RadicalStep s (.enabling uid) (.nft o) .finished (s.setRuleset rs)
  | expire {uid : UInt32} {deadline : ℕ} (htime : deadline ≤ s.now) :
      RadicalStep s (.sleeping uid deadline) .go (.reverting uid) s
  | revert {uid : UInt32} {o : NftOutcome} :
      RadicalStep s (.reverting uid) (.nft o) .finished
        (s.setRuleset ((KillSwitch.Radical uid).disable o s.ruleset).2)

section Steps

variable {s s' : Switches}

theorem radicalStep_of_stepRadical {pc pc' : RadicalPc} {e : Event}
    (h : s.stepRadical pc e = some (pc', s')) : RadicalStep s pc e pc' s' := by
  unfold Switches.stepRadical at h
  split at h
  · split at h <;> rename_i huid <;> cases h
    · exact .identify huid
    · exact .noUid huid
  · split at h <;> rename_i hnft <;> cases h
    · exact .enable hnft
    · exact .noEnable hnft
  · split at h
    · cases h
    · rename_i htime
      cases h
      exact .expire (not_lt.mp htime)
  · cases h
    exact .revert
  · cases h

/-- A step of `k r y` task `i`. -/
theorem radicalStep_of_step {i : ℕ} {e : Event} (h : s.step (.radical i e) = some s') :
    ∃ pc pc' s₁, s.radicals[i]? = some pc ∧ RadicalStep s pc e pc' s₁ ∧
      s' = { s₁ with radicals := s₁.radicals.set i pc' } := by
  simp only [Switches.step, Option.bind_eq_bind, Option.bind_eq_some_iff] at h
  obtain ⟨pc, hpc, ⟨pc', s₁⟩, hs₁, h⟩ := h
  exact ⟨pc, pc', s₁, hpc, radicalStep_of_stepRadical hs₁, (Option.some.inj h).symm⟩

/-- The step of radical disable `i`. -/
theorem removal_of_step {i : ℕ} {o : NftOutcome} (h : s.step (.removal i o) = some s') :
    s.removals[i]? = some .started ∧
      s' = { s.setRuleset ((KillSwitch.Radical 0).disable o s.ruleset).2 with
        removals := s.removals.set i
          (.finished ((KillSwitch.Radical 0).disable o s.ruleset).1) } := by
  simp only [Switches.step, Option.bind_eq_bind, Option.bind_eq_some_iff] at h
  obtain ⟨pc, hpc, ⟨pc', s₁⟩, hs₁, h⟩ := h
  cases pc with
  | started =>
    cases hs₁
    exact ⟨hpc, (Option.some.inj h).symm⟩
  | finished result => cases hs₁

theorem RadicalStep.frame {pc pc' : RadicalPc} {e : Event} (h : RadicalStep s pc e pc' s') :
    s'.radicals = s.radicals ∧ ∃ rs, s'.fullAnon = s.fullAnon.setRuleset rs := by
  cases h with
  | identify | noUid | expire => exact ⟨rfl, s.ruleset, rfl⟩
  | enable | noEnable | revert => exact ⟨rfl, _, rfl⟩

/-- The controller takes a step of its own, or sees at most its tables change. -/
theorem fullAnon_step {a : SwitchAction} (h : s.step a = some s') :
    (∃ b, a = .fullAnon b ∧ s.fullAnon.step b = some s'.fullAnon) ∨
      (∀ b, a ≠ .fullAnon b) ∧ ∃ rs, s'.fullAnon = s.fullAnon.setRuleset rs := by
  cases a with
  | fullAnon b =>
    obtain ⟨f', hf, rfl⟩ := Option.map_eq_some_iff.mp h
    exact .inl ⟨b, rfl, hf⟩
  | radical i e =>
    obtain ⟨pc, pc', s₁, -, hstep, rfl⟩ := radicalStep_of_step h
    exact .inr ⟨by simp, hstep.frame.2⟩
  | removal i o =>
    obtain ⟨-, rfl⟩ := removal_of_step h
    exact .inr ⟨by simp, _, rfl⟩
  | radicalEnable | radicalDisable =>
    obtain rfl := Option.some.inj h
    exact .inr ⟨by simp, s.ruleset, rfl⟩
  | scopedEnable | scopedDisable =>
    obtain rfl := Option.some.inj h
    exact .inr ⟨by simp, _, rfl⟩

/-- A `k r y` task takes a step of its own, or stays where it is. -/
theorem radicals_step {a : SwitchAction} (h : s.step a = some s') {i : ℕ} {pc : RadicalPc}
    (hpc : s.radicals[i]? = some pc) :
    s'.radicals[i]? = some pc ∨
      ∃ e pc' s₁, a = .radical i e ∧ RadicalStep s pc e pc' s₁ ∧ s'.radicals[i]? = some pc' := by
  cases a with
  | fullAnon b =>
    obtain ⟨f', -, rfl⟩ := Option.map_eq_some_iff.mp h
    exact .inl hpc
  | radicalEnable =>
    obtain rfl := Option.some.inj h
    refine .inl ?_
    show (s.radicals ++ [.identifying])[i]? = some pc
    rw [List.getElem?_append_left (List.getElem?_eq_some_iff.mp hpc).1]
    exact hpc
  | radical j e =>
    obtain ⟨d, d', s₁, hd, hstep, rfl⟩ := radicalStep_of_step h
    by_cases hij : j = i
    · subst hij
      obtain rfl := Option.some.inj (hpc.symm.trans hd)
      refine .inr ⟨e, d', s₁, rfl, hstep, ?_⟩
      show (s₁.radicals.set j d')[j]? = some d'
      rw [hstep.frame.1]
      exact Machine.getElem?_set_self_of_some hd
    · refine .inl ?_
      show (s₁.radicals.set j d')[i]? = some pc
      rw [List.getElem?_set_ne hij, hstep.frame.1]
      exact hpc
  | removal j o =>
    obtain ⟨-, rfl⟩ := removal_of_step h
    exact .inl hpc
  | radicalDisable | scopedEnable | scopedDisable =>
    obtain rfl := Option.some.inj h
    exact .inl hpc

theorem RadicalStep.has {pc pc' : RadicalPc} {e : Event} (h : RadicalStep s pc e pc' s')
    (hnft : e.NftSucceeds pc.tableOp s.ruleset) (table : String) :
    s'.ruleset.has table ↔ TableOp.After pc.tableOp table (s.ruleset.has table) := by
  cases h with
  | @enable uid o rs hrun =>
    have henable := (KillSwitch.Radical uid).has_enable table hnft
    rw [hrun] at henable
    exact henable.2
  | @noEnable uid o rs err hrun =>
    have henable := (KillSwitch.Radical uid).has_enable table hnft
    rw [hrun] at henable
    cases henable.1
  | revert => exact (KillSwitch.Radical _).has_disable table hnft
  | _ => exact Iff.rfl

/-- **What one step does to the tables**, when `nft` does what it is asked. -/
theorem step_has {a : SwitchAction} (h : s.step a = some s') (hnft : NftSucceeds s a)
    (table : String) :
    s'.ruleset.has table ↔ TableOp.After (s.tableOp a) table (s.ruleset.has table) := by
  cases a with
  | fullAnon a =>
    obtain ⟨f, hf, rfl⟩ := Option.map_eq_some_iff.mp h
    cases a with
    | step i e =>
      obtain ⟨c, c', f₁, hc, hstep, rfl⟩ := callStep_of_step hf
      have hop : s.tableOp (.fullAnon (.step i e)) = c.tableOp := by
        simp [Switches.tableOp, hc]
      rw [NftSucceeds, hop] at hnft
      rw [hop]
      exact hstep.has hnft table
    | callEnable | callDisable | tick =>
      obtain rfl := Option.some.inj hf
      exact Iff.rfl
  | radical i e =>
    obtain ⟨pc, pc', s₁, hpc, hstep, rfl⟩ := radicalStep_of_step h
    have hop : s.tableOp (.radical i e) = pc.tableOp := by
      simp [Switches.tableOp, hpc]
    rw [NftSucceeds, hop] at hnft
    rw [hop]
    exact hstep.has hnft table
  | removal i o =>
    obtain ⟨hpc, rfl⟩ := removal_of_step h
    have hop : s.tableOp (.removal i o) = some (.delete systemTable) := by
      simp [Switches.tableOp, hpc, RemovalPc.tableOp]
    rw [NftSucceeds, hop] at hnft
    rw [hop]
    exact (KillSwitch.Radical 0).has_disable table hnft
  | scopedEnable uid o =>
    obtain rfl := Option.some.inj h
    exact ((KillSwitch.Scoped uid).has_enable table hnft).2
  | scopedDisable o =>
    obtain rfl := Option.some.inj h
    exact (KillSwitch.Scoped 0).has_disable table hnft
  | radicalEnable | radicalDisable =>
    obtain rfl := Option.some.inj h
    exact Iff.rfl

end Steps

end Anonet.Tui
