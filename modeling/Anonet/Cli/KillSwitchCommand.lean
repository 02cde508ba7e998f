import Anonet.Leakguard.Stacking
import Anonet.Library.Machine

/-!
# `anonet killswitch`

`cli/src/main.rs::killswitch`: any number of these commands, on one machine with other
programs, a clock, and signals that can arrive at any time.  `enable` has the switch on for
its TTL and takes it back; a process that dies in between takes nothing back.

* `KsProcess.step` — one process; `nft` may outlive it.
* `KsProcess.Answerable` — what explains that the machine is cut off.
* `Timely` — what is asked of `nft`, of other programs and of the clock.
* `answerable_of_reach` — **whenever the radical table is there, some `enable` is still on
  time to take it back, or was killed, or said that it failed to.**
-/

namespace Anonet.Cli

open Leakguard Nft

/-! ## The command -/

inductive KsMode
  | Scoped
  | Radical
  deriving DecidableEq

def modeLabel : KsMode → String
  | .Scoped => "scoped"
  | .Radical => "radical"

inductive KillswitchAction
  | Enable (mode : KsMode) (protectUid : Option UInt32) (ttlSecs : Option UInt64)
  | Disable (mode : KsMode)
  | Status
  deriving DecidableEq

/-- The TTL that `enable` goes by. -/
def KsMode.ttlSecs (mode : KsMode) (ttlSecs : Option UInt64) : Option UInt64 :=
  ttlSecs.or (match mode with
    | .Radical => some 300
    | .Scoped => none)

/-- Where a process is. -/
inductive KillswitchPc
  /-- In `current_uid`. -/
  | identifying
  | enabling (ks : KillSwitch)
  /-- In the `select!`. -/
  | waiting (ks : KillSwitch)
  | disabling (ks : KillSwitch)
  /-- In `is_enabled`, of the radical switch when the answer for the scoped one is there. -/
  | listing (first : Option Bool)
  | exited (result : Except String Unit)
  /-- Killed; the `nft` it had started, if any, still runs. -/
  | killed (nft : Option SwitchOp)
  deriving DecidableEq

structure KsProcess where
  action : KillswitchAction
  pc : KillswitchPc
  /-- When its table was loaded. -/
  enabledAt : Option ℕ
  stdout : List String
  deriving DecidableEq

inductive KsEvent
  /-- `id -u` ends. -/
  | id (o : IdOutcome)
  /-- `nft` ends. -/
  | nft (o : NftOutcome)
  /-- The sleep is over. -/
  | elapsed
  /-- SIGINT. -/
  | ctrlC
  | kill
  deriving DecidableEq

def nanosPerSec : ℕ := 1000000000

/-- Up to the first command that is run. -/
def KillswitchAction.start : KillswitchAction → KillswitchPc
  | .Enable .Scoped none _ => .exited (.error "--mode scoped requires --protect-uid <uid>")
  | .Enable .Scoped (some uid) _ => .enabling (.Scoped uid)
  | .Enable .Radical _ _ => .identifying
  | .Disable .Scoped => .disabling (.Scoped 0)
  | .Disable .Radical => .disabling (.Radical 0)
  | .Status => .listing none

/-- The `nft` that is running. -/
def KillswitchPc.nft : KillswitchPc → Option SwitchOp
  | .enabling ks => some (.enable ks)
  | .disabling ks => some (.disable ks)
  | .killed nft => nft
  | _ => none

namespace KsProcess

def new (action : KillswitchAction) : KsProcess where
  action := action
  pc := action.start
  enabledAt := none
  stdout := []

/-- When the sleep of the `select!` is over. -/
def deadline (p : KsProcess) : Option ℕ :=
  match p.action, p.enabledAt with
  | .Enable mode _ ttlSecs, some t =>
    (mode.ttlSecs ttlSecs).map fun secs => t + secs.toNat * nanosPerSec
  | _, _ => none

/-- Past `ks.enable().await?`. -/
def afterEnable (p : KsProcess) (ks : KillSwitch) (now : ℕ) : Except String Unit → KsProcess
  | .error e => { p with pc := .exited (.error e) }
  | .ok () =>
    match p.action with
    | .Enable mode _ ttlSecs =>
      match mode.ttlSecs ttlSecs with
      | none =>
        { p with
          pc := .exited (.ok ())
          enabledAt := some now
          stdout := p.stdout ++ [s!"Kill switch enabled with no TTL. Run `anonet killswitch disable --mode {modeLabel mode}` to remove it."] }
      | some secs =>
        { p with
          pc := .waiting ks
          enabledAt := some now
          stdout := p.stdout ++
            [s!"Kill switch enabled for up to {secs}s (Ctrl+C disables it immediately)."] }
    | _ => p

/-- Past `ks.disable().await?`. -/
def afterDisable (p : KsProcess) : Except String Unit → KsProcess
  | .error e => { p with pc := .exited (.error e) }
  | .ok () =>
    { p with
      pc := .exited (.ok ())
      stdout := p.stdout ++ [match p.action with
        | .Disable mode => s!"Kill switch ({modeLabel mode}) disabled."
        | _ => "Kill switch disabled."] }

/-- Past one `is_enabled().await?`. -/
def afterList (p : KsProcess) (first : Option Bool) : Except String Bool → KsProcess
  | .error e => { p with pc := .exited (.error e) }
  | .ok enabled =>
    match first with
    | none => { p with pc := .listing (some enabled) }
    | some first =>
      { p with
        pc := .exited (.ok ())
        stdout := p.stdout ++
          ["scoped:  " ++ (if first then "ENABLED" else "disabled"),
            "radical: " ++ (if enabled then "ENABLED" else "disabled")] }

/-- One step, which may change the tables. -/
def step (p : KsProcess) (now : ℕ) (rs : Ruleset) : KsEvent → Option (KsProcess × Ruleset)
  | .id o =>
    match p.pc with
    | .identifying =>
      match currentUid o with
      | .error e => some ({ p with pc := .exited (.error e) }, rs)
      | .ok uid => some ({ p with pc := .enabling (.Radical uid) }, rs)
    | _ => none
  | .nft o =>
    match p.pc with
    | .enabling ks => some (p.afterEnable ks now (ks.enable o rs).1, (ks.enable o rs).2)
    | .disabling ks => some (p.afterDisable (ks.disable o rs).1, (ks.disable o rs).2)
    | .listing none => some (p.afterList none ((KillSwitch.Scoped 0).isEnabled o rs), rs)
    | .listing (some first) =>
      some (p.afterList (some first) ((KillSwitch.Radical 0).isEnabled o rs), rs)
    | .killed (some (.enable ks)) =>
      let enabledAt := match (ks.enable o rs).1 with
        | .ok () => some now
        | .error _ => p.enabledAt
      some ({ p with pc := .killed none, enabledAt := enabledAt }, (ks.enable o rs).2)
    | .killed (some (.disable ks)) => some ({ p with pc := .killed none }, (ks.disable o rs).2)
    | _ => none
  | .elapsed =>
    match p.pc, p.deadline with
    | .waiting ks, some deadline =>
      if deadline ≤ now then some ({ p with pc := .disabling ks }, rs) else none
    | _, _ => none
  | .ctrlC =>
    match p.pc, p.action with
    | .exited _, _ | .killed _, _ => none
    | .waiting ks, _ => some ({ p with pc := .disabling ks }, rs)
    -- tokio's handler, once there, is not removed
    | .disabling _, .Enable _ _ _ => some (p, rs)
    | pc, _ => some ({ p with pc := .killed pc.nft }, rs)
  | .kill =>
    match p.pc with
    | .exited _ | .killed _ => none
    | pc => some ({ p with pc := .killed pc.nft }, rs)

end KsProcess

/-! ## The machine -/

structure KsHost where
  now : ℕ
  ruleset : Ruleset
  processes : List KsProcess
  deriving DecidableEq

inductive HostEvent
  | launch (action : KillswitchAction)
  | process (i : ℕ) (e : KsEvent)
  /-- Another program changes the tables. -/
  | elsewhere (ruleset : Ruleset)
  | tick (nanos : ℕ)
  deriving DecidableEq

namespace KsHost

def start (ruleset : Ruleset) : KsHost := ⟨0, ruleset, []⟩

def step (s : KsHost) : HostEvent → Option KsHost
  | .launch action => some { s with processes := s.processes ++ [.new action] }
  | .process i e =>
    match s.processes[i]? with
    | none => none
    | some p => (p.step s.now s.ruleset e).map fun r =>
      { s with ruleset := r.2, processes := s.processes.set i r.1 }
  | .elsewhere ruleset => some { s with ruleset := ruleset }
  | .tick nanos => some { s with now := s.now + nanos }

end KsHost

/-- All interleavings of the commands with the rest of the machine. -/
def killswitches : Machine KsHost HostEvent where
  step := KsHost.step

/-! ## Who answers for the radical table -/

/-- The table that a command is about. -/
def KillswitchAction.table : KillswitchAction → Option String
  | .Enable .Scoped _ _ | .Disable .Scoped => some scopedTable
  | .Enable .Radical _ _ | .Disable .Radical => some systemTable
  | .Status => none

def KillswitchAction.isEnable : KillswitchAction → Bool
  | .Enable _ _ _ => true
  | _ => false

theorem eq_enable_of_isEnable {action : KillswitchAction} (h : action.isEnable = true)
    (ht : action.table = some systemTable) :
    ∃ protectUid ttlSecs, action = .Enable .Radical protectUid ttlSecs := by
  cases action with
  | Enable mode protectUid ttlSecs =>
    cases mode with
    | Scoped => exact absurd (Option.some.inj ht) scopedTable_ne_systemTable
    | Radical => exact ⟨protectUid, ttlSecs, rfl⟩
  | Disable mode => cases h
  | Status => cases h

/-- A command gets there: it handles no table but its own, and only `enable` loads it. -/
def KillswitchAction.Admits (action : KillswitchAction) : KillswitchPc → Prop
  | .identifying => action.isEnable = true ∧ action.table = some systemTable
  | .enabling ks | .waiting ks | .killed (some (.enable ks)) =>
    action.isEnable = true ∧ action.table = some ks.table
  | .disabling ks | .killed (some (.disable ks)) => action.table = some ks.table
  | .listing _ | .exited _ | .killed none => True

theorem KillswitchAction.admits_start (action : KillswitchAction) : action.Admits action.start := by
  cases action with
  | Enable mode protectUid ttlSecs =>
    cases mode with
    | Scoped =>
      cases protectUid with
      | none => trivial
      | some uid => exact ⟨rfl, rfl⟩
    | Radical => exact ⟨rfl, rfl⟩
  | Disable mode => cases mode <;> rfl
  | Status => trivial

theorem KillswitchAction.Admits.killed {action : KillswitchAction} {pc : KillswitchPc}
    (h : action.Admits pc) : action.Admits (.killed pc.nft) := by
  cases pc with
  | enabling ks => exact h
  | disabling ks => exact h
  | killed nft => exact h
  | _ => trivial

namespace KsProcess

/-- An `enable` of the radical switch that has had its table loaded and is on time to take
it back, or was killed, or has told that it could not. -/
def Answerable (p : KsProcess) (slack now : ℕ) : Prop :=
  ∃ protectUid ttlSecs t, p.action = .Enable .Radical protectUid ttlSecs ∧
    p.enabledAt = some t ∧
    match p.pc with
    | .waiting _ | .disabling _ => now ≤ t + (ttlSecs.getD 300).toNat * nanosPerSec + slack
    | .killed _ => True
    | .exited result =>
      result = .error "failed to disable kill switch (table anonet_ks_system)"
    | .identifying | .enabling _ | .listing _ => False

/-- The table that is being deleted. -/
def deletes (p : KsProcess) : Option String :=
  match p.pc.nft with
  | some (.disable ks) => some ks.table
  | _ => none

/-- What nft says about a table it does not find is true. -/
def Truthful (p : KsProcess) (rs : Ruleset) : NftOutcome → Prop
  | .notRun | .ok => True
  | .err message => ∀ table ∈ p.deletes, contains message noSuchFile = true → ¬ rs.has table

instance (p : KsProcess) (rs : Ruleset) : (o : NftOutcome) → Decidable (p.Truthful rs o)
  | .notRun | .ok => inferInstanceAs (Decidable True)
  | .err _ => inferInstanceAs (Decidable (∀ _ ∈ _, _))

section Step

variable {p p' : KsProcess} {now slack : ℕ} {rs rs' : Ruleset} {e : KsEvent}

theorem deadline_radical {protectUid : Option UInt32} {ttlSecs : Option UInt64} {t : ℕ}
    (ha : p.action = .Enable .Radical protectUid ttlSecs) (ht : p.enabledAt = some t) :
    p.deadline = some (t + (ttlSecs.getD 300).toNat * nanosPerSec) := by
  unfold deadline
  rw [ha, ht]
  cases ttlSecs <;> rfl

/-- Once `enable` of the radical switch is through, it answers for the table. -/
theorem answerable_afterEnable {ks : KillSwitch} (hen : p.action.isEnable = true)
    (ht : p.action.table = some systemTable) :
    (p.afterEnable ks now (.ok ())).Answerable slack now := by
  obtain ⟨protectUid, ttlSecs, ha⟩ := eq_enable_of_isEnable hen ht
  refine ⟨protectUid, ttlSecs, now, ?_⟩
  unfold afterEnable
  cases ttlSecs <;> simp only [ha, KsMode.ttlSecs, Option.or] <;>
    exact ⟨trivial, trivial, Nat.le_add_right_of_le (Nat.le_add_right _ _)⟩

/-- **What a step can do**: the process stays one of its command, and if the radical table
is there afterwards, the process answers for it, or it was there before and the process did
not answer for it. -/
def Accounts (p p' : KsProcess) (slack now : ℕ) (rs rs' : Ruleset) : Prop :=
  p'.action = p.action ∧ p.action.Admits p'.pc ∧
    (rs'.has systemTable → p'.Answerable slack now ∨
      rs.has systemTable ∧ ¬ p.Answerable slack now)

/-- A step that leaves the tables alone. -/
theorem accounts_of_same (ha : p'.action = p.action) (hadmits : p.action.Admits p'.pc)
    (h : p.Answerable slack now → p'.Answerable slack now) : p.Accounts p' slack now rs rs := by
  refine ⟨ha, hadmits, fun hhas => ?_⟩
  by_cases hp : p.Answerable slack now
  · exact .inl (h hp)
  · exact .inr ⟨hhas, hp⟩

theorem not_answerable_of_pc (h : match p.pc with
    | .identifying | .enabling _ | .listing _ => True
    | _ => False) : ¬ p.Answerable slack now := by
  rintro ⟨_, _, _, -, -, hpc⟩
  split at h
  · rename_i heq; rw [heq] at hpc; exact hpc
  · rename_i heq; rw [heq] at hpc; exact hpc
  · rename_i heq; rw [heq] at hpc; exact hpc
  · exact h

/-- A radical `enable` in `disable` is about the radical table. -/
theorem table_of_answerable {table : String} (h : p.Answerable slack now)
    (ht : p.action.table = some table) : table = systemTable := by
  obtain ⟨_, _, _, ha, -⟩ := h
  rw [ha] at ht
  exact (Option.some.inj ht).symm

theorem action_afterEnable {ks : KillSwitch} {r : Except String Unit} :
    (p.afterEnable ks now r).action = p.action := by
  unfold afterEnable
  split
  · rfl
  · split
    · split <;> rfl
    · rfl

theorem admits_afterEnable {ks : KillSwitch} {r : Except String Unit}
    (h : p.action.Admits (.enabling ks)) (hpc : p.pc = .enabling ks) :
    p.action.Admits (p.afterEnable ks now r).pc := by
  unfold afterEnable
  split
  · trivial
  · split
    · split
      · trivial
      · exact h
    · rw [hpc]
      exact h

/-- `nft` for a process that is in `enable`. -/
theorem accounts_enabling {ks : KillSwitch} (o : NftOutcome) (hpc : p.pc = .enabling ks)
    (hadmits : p.action.Admits p.pc) :
    p.Accounts (p.afterEnable ks now (ks.enable o rs).1) slack now rs (ks.enable o rs).2 := by
  have hnot : ¬ p.Answerable slack now := not_answerable_of_pc (by rw [hpc]; trivial)
  rw [hpc] at hadmits
  refine ⟨action_afterEnable, admits_afterEnable hadmits hpc, fun hhas => ?_⟩
  cases o with
  | ok =>
    by_cases ht : ks.table = systemTable
    · exact .inl (answerable_afterEnable hadmits.1 (ht ▸ hadmits.2))
    · exact .inr ⟨(Ruleset.has_load.mp hhas).resolve_left (Ne.symm ht), hnot⟩
  | notRun | err => exact .inr ⟨hhas, hnot⟩

/-- `nft` for a process that is in `disable`: the table is gone, or its user is told. -/
theorem accounts_disabling {ks : KillSwitch} {o : NftOutcome} (hpc : p.pc = .disabling ks)
    (hadmits : p.action.Admits p.pc) (ho : p.Truthful rs o) :
    p.Accounts (p.afterDisable (ks.disable o rs).1) slack now rs (ks.disable o rs).2 := by
  rw [hpc] at hadmits
  have hdeletes : ks.table ∈ p.deletes := by rw [deletes, hpc]; rfl
  have hown : p.Answerable slack now → ks.table = systemTable :=
    fun h => table_of_answerable h hadmits
  have htold : p.Accounts (p.afterDisable
      (.error s!"failed to disable kill switch (table {ks.table})")) slack now rs rs := by
    refine accounts_of_same rfl trivial fun h => ?_
    have ht := hown h
    obtain ⟨protectUid, ttlSecs, t, ha, henabled, -⟩ := h
    refine ⟨protectUid, ttlSecs, t, ha, henabled, ?_⟩
    show Except.error _ = _
    rw [ht]
    rfl
  cases o with
  | notRun => exact htold
  | ok =>
    refine ⟨rfl, trivial, fun hhas => ?_⟩
    have hhas := Ruleset.has_delete.mp hhas
    exact .inr ⟨hhas.2, fun h => hhas.1 (hown h).symm⟩
  | err message =>
    by_cases hno : contains message noSuchFile = true
    · have hr : ks.disable (.err message) rs = (.ok (), rs) := by
        simp only [KillSwitch.disable, deleteTable, if_pos hno]
      rw [hr]
      refine ⟨rfl, trivial, fun hhas => .inr ⟨hhas, fun h => ?_⟩⟩
      exact ho ks.table hdeletes hno (hown h ▸ hhas)
    · have hr : ks.disable (.err message) rs =
          (.error s!"failed to disable kill switch (table {ks.table})", rs) := by
        simp only [KillSwitch.disable, deleteTable, if_neg hno]
      rw [hr]
      exact htold

/-- What `nft` does after its process was killed. -/
theorem accounts_orphan {op : SwitchOp} {o : NftOutcome} (hpc : p.pc = .killed (some op))
    (hadmits : p.action.Admits p.pc) (hs : p.step now rs (.nft o) = some (p', rs')) :
    p.Accounts p' slack now rs rs' := by
  have hkilled : ∀ q : KsProcess, q.action = p.action → q.enabledAt = p.enabledAt →
      q.pc = .killed none → p.Answerable slack now → q.Answerable slack now := by
    rintro q ha hq hqpc ⟨protectUid, ttlSecs, t, hpa, henabled, -⟩
    exact ⟨protectUid, ttlSecs, t, ha.trans hpa, hq.trans henabled, by rw [hqpc]; trivial⟩
  rw [hpc] at hadmits
  cases op with
  | enable ks =>
    cases o with
    | ok =>
      have hs : some (({ p with pc := .killed none, enabledAt := some now } : KsProcess),
          rs.load ks.rules) = some (p', rs') := by
        simpa only [step, hpc, KillSwitch.enable, loadTable] using hs
      obtain ⟨rfl, rfl⟩ := Prod.mk.inj (Option.some.inj hs)
      refine ⟨rfl, trivial, fun hhas => ?_⟩
      by_cases ht : ks.table = systemTable
      · obtain ⟨protectUid, ttlSecs, ha⟩ := eq_enable_of_isEnable hadmits.1 (ht ▸ hadmits.2)
        exact .inl ⟨protectUid, ttlSecs, now, ha, rfl, trivial⟩
      · refine .inr ⟨(Ruleset.has_load.mp hhas).resolve_left (Ne.symm ht), fun h => ?_⟩
        exact ht (table_of_answerable h hadmits.2)
    | notRun | err =>
      have hs : some (({ p with pc := .killed none } : KsProcess), rs) = some (p', rs') := by
        simpa only [step, hpc, KillSwitch.enable, loadTable] using hs
      obtain ⟨rfl, rfl⟩ := Prod.mk.inj (Option.some.inj hs)
      exact accounts_of_same rfl trivial (hkilled _ rfl rfl rfl)
  | disable ks =>
    have hs : some (({ p with pc := .killed none } : KsProcess), (ks.disable o rs).2) =
        some (p', rs') := by simpa only [step, hpc] using hs
    obtain ⟨rfl, rfl⟩ := Prod.mk.inj (Option.some.inj hs)
    refine ⟨rfl, trivial, fun hhas => ?_⟩
    have hbefore : rs.has systemTable := by
      cases o with
      | ok => exact (Ruleset.has_delete.mp hhas).2
      | notRun | err => exact hhas
    by_cases hp : p.Answerable slack now
    · exact .inl (hkilled _ rfl rfl rfl hp)
    · exact .inr ⟨hbefore, hp⟩

theorem accounts_kill (rs : Ruleset) (hadmits : p.action.Admits p.pc) :
    p.Accounts { p with pc := .killed p.pc.nft } slack now rs rs := by
  refine accounts_of_same rfl hadmits.killed ?_
  rintro ⟨protectUid, ttlSecs, t, ha, ht, -⟩
  exact ⟨protectUid, ttlSecs, t, ha, ht, trivial⟩

/-- The `select!` is over. -/
theorem accounts_selected {ks : KillSwitch} (rs : Ruleset) (hpc : p.pc = .waiting ks)
    (hadmits : p.action.Admits p.pc) :
    p.Accounts { p with pc := .disabling ks } slack now rs rs := by
  rw [hpc] at hadmits
  refine accounts_of_same rfl hadmits.2 ?_
  rintro ⟨protectUid, ttlSecs, t, ha, ht, hnow⟩
  rw [hpc] at hnow
  exact ⟨protectUid, ttlSecs, t, ha, ht, hnow⟩

/-- A process that has not come to `enable` or has nothing to enable. -/
theorem accounts_of_not (ha : p'.action = p.action) (hadmits : p.action.Admits p'.pc)
    (hpc : match p.pc with
      | .identifying | .enabling _ | .listing _ => True
      | _ => False) : p.Accounts p' slack now rs rs :=
  accounts_of_same ha hadmits fun h => absurd h (not_answerable_of_pc hpc)

theorem accounts_listing {first : Option Bool} (rs : Ruleset) (r : Except String Bool)
    (hpc : p.pc = .listing first) :
    p.Accounts (p.afterList first r) slack now rs rs := by
  refine accounts_of_not ?_ ?_ (by rw [hpc]; trivial)
  · unfold afterList
    split
    · rfl
    · split <;> rfl
  · unfold afterList
    split
    · trivial
    · split <;> trivial

/-- **One step of a process.** -/
theorem accounts_of_step (hadmits : p.action.Admits p.pc)
    (ho : ∀ o, e = .nft o → p.Truthful rs o) (hs : p.step now rs e = some (p', rs')) :
    p.Accounts p' slack now rs rs' := by
  cases e with
  | id o =>
    cases hpc : p.pc with
    | identifying =>
      rw [hpc] at hadmits
      simp only [step, hpc] at hs
      split at hs
      · obtain ⟨rfl, rfl⟩ := Prod.mk.inj (Option.some.inj hs)
        exact accounts_of_not rfl trivial (by rw [hpc]; trivial)
      · obtain ⟨rfl, rfl⟩ := Prod.mk.inj (Option.some.inj hs)
        exact accounts_of_not rfl hadmits (by rw [hpc]; trivial)
    | _ => simp [step, hpc] at hs
  | nft o =>
    cases hpc : p.pc with
    | enabling ks =>
      have hs : some (p.afterEnable ks now (ks.enable o rs).1, (ks.enable o rs).2) =
          some (p', rs') := by simpa only [step, hpc] using hs
      obtain ⟨rfl, rfl⟩ := Prod.mk.inj (Option.some.inj hs)
      exact accounts_enabling o hpc hadmits
    | disabling ks =>
      have hs : some (p.afterDisable (ks.disable o rs).1, (ks.disable o rs).2) =
          some (p', rs') := by simpa only [step, hpc] using hs
      obtain ⟨rfl, rfl⟩ := Prod.mk.inj (Option.some.inj hs)
      exact accounts_disabling hpc hadmits (ho o rfl)
    | listing first =>
      cases first <;> simp only [step, hpc] at hs <;>
        obtain ⟨rfl, rfl⟩ := Prod.mk.inj (Option.some.inj hs) <;>
        exact accounts_listing rs _ hpc
    | killed op =>
      cases op with
      | none => simp [step, hpc] at hs
      | some op => exact accounts_orphan hpc hadmits hs
    | _ => simp [step, hpc] at hs
  | elapsed =>
    cases hpc : p.pc with
    | waiting ks =>
      cases hd : p.deadline with
      | none => simp [step, hpc, hd] at hs
      | some deadline =>
        simp only [step, hpc, hd, Option.ite_none_right_eq_some] at hs
        obtain ⟨rfl, rfl⟩ := Prod.mk.inj (Option.some.inj hs.2)
        exact accounts_selected rs hpc hadmits
    | _ => simp [step, hpc] at hs
  | ctrlC =>
    have hkill : p.Accounts { p with pc := .killed p.pc.nft } slack now rs rs :=
      accounts_kill rs hadmits
    cases hpc : p.pc with
    | waiting ks =>
      simp only [step, hpc] at hs
      obtain ⟨rfl, rfl⟩ := Prod.mk.inj (Option.some.inj hs)
      exact accounts_selected rs hpc hadmits
    | disabling ks =>
      cases ha : p.action with
      | Enable mode protectUid ttlSecs =>
        simp only [step, hpc, ha] at hs
        obtain ⟨rfl, rfl⟩ := Prod.mk.inj (Option.some.inj hs)
        exact accounts_of_same rfl hadmits id
      | _ =>
        simp only [step, hpc, ha] at hs
        obtain ⟨rfl, rfl⟩ := Prod.mk.inj (Option.some.inj hs)
        rw [hpc, ha] at hkill
        exact hkill
    | exited result => simp [step, hpc] at hs
    | killed op => simp [step, hpc] at hs
    | _ =>
      simp only [step, hpc] at hs
      obtain ⟨rfl, rfl⟩ := Prod.mk.inj (Option.some.inj hs)
      rw [hpc] at hkill
      exact hkill
  | kill =>
    have hkill : p.Accounts { p with pc := .killed p.pc.nft } slack now rs rs :=
      accounts_kill rs hadmits
    cases hpc : p.pc with
    | exited result => simp [step, hpc] at hs
    | killed op => simp [step, hpc] at hs
    | _ =>
      simp only [step, hpc] at hs
      obtain ⟨rfl, rfl⟩ := Prod.mk.inj (Option.some.inj hs)
      rw [hpc] at hkill
      exact hkill

end Step

/-- When a process that has its table loaded is to take it back. -/
def due (p : KsProcess) : Option ℕ :=
  match p.pc with
  | .waiting _ | .disabling _ => p.deadline
  | _ => none

end KsProcess

/-- The select wakes up and nft deletes within `slack` of the deadline, nft's messages are
true, and no other program loads the radical table. -/
def Timely (slack : ℕ) (s : KsHost) : HostEvent → Prop
  | .process i (.nft o) => ∀ p ∈ s.processes[i]?, p.Truthful s.ruleset o
  | .elsewhere ruleset => ruleset.has systemTable → s.ruleset.has systemTable
  | .tick nanos => ∀ p ∈ s.processes, ∀ d ∈ p.due, s.now + nanos ≤ d + slack
  | _ => True

instance (slack : ℕ) (s : KsHost) : ∀ e, Decidable (Timely slack s e)
  | .process _ (.nft _) => inferInstanceAs (Decidable (∀ _ ∈ _, _))
  | .elsewhere _ => inferInstanceAs (Decidable (_ → _))
  | .tick _ => inferInstanceAs (Decidable (∀ _ ∈ _, ∀ _ ∈ _, _))
  | .launch _ | .process _ (.id _) | .process _ .elapsed | .process _ .ctrlC
  | .process _ .kill => inferInstanceAs (Decidable True)

/-- Every process is one of its command, and somebody answers for the radical table. -/
structure Accounted (slack : ℕ) (s : KsHost) : Prop where
  admits : ∀ (i : ℕ) (p : KsProcess), s.processes[i]? = some p → p.action.Admits p.pc
  answers : s.ruleset.has systemTable →
    ∃ (i : ℕ) (p : KsProcess), s.processes[i]? = some p ∧ p.Answerable slack s.now

section Run

variable {slack : ℕ} {s s' : KsHost} {e : HostEvent}

theorem Accounted.process {p p' : KsProcess} {i : ℕ} {rs : Ruleset} (h : Accounted slack s)
    (hp : s.processes[i]? = some p) (hstep : p.Accounts p' slack s.now s.ruleset rs) :
    Accounted slack { s with ruleset := rs, processes := s.processes.set i p' } where
  admits j q hq := by
    rcases Machine.getElem?_set_cases hq with ⟨-, hq⟩ | ⟨rfl, rfl⟩
    · exact h.admits j q hq
    · exact hstep.1 ▸ hstep.2.1
  answers hhas := by
    rcases hstep.2.2 hhas with hp' | ⟨hbefore, hnot⟩
    · exact ⟨i, p', Machine.getElem?_set_self_of_some hp, hp'⟩
    · obtain ⟨j, q, hq, hanswers⟩ := h.answers hbefore
      have hij : i ≠ j := by
        rintro rfl
        cases hp.symm.trans hq
        exact hnot hanswers
      exact ⟨j, q, (List.getElem?_set_ne hij).trans hq, hanswers⟩

/-- Time passes, but not beyond what is due. -/
theorem KsProcess.Answerable.tick {p : KsProcess} {now now' : ℕ} (h : p.Answerable slack now)
    (hdue : ∀ d ∈ p.due, now' ≤ d + slack) : p.Answerable slack now' := by
  obtain ⟨protectUid, ttlSecs, t, ha, ht, hpc⟩ := h
  refine ⟨protectUid, ttlSecs, t, ha, ht, ?_⟩
  have hdeadline := deadline_radical ha ht
  cases hp : p.pc with
  | waiting ks => exact hdue _ (by rw [due, hp]; exact hdeadline)
  | disabling ks => exact hdue _ (by rw [due, hp]; exact hdeadline)
  | _ =>
    rw [hp] at hpc
    exact hpc

/-- **The step lemma.** -/
theorem Accounted.step (h : Accounted slack s) (htimely : Timely slack s e)
    (hs : s.step e = some s') : Accounted slack s' := by
  cases e with
  | launch action =>
    obtain rfl := Option.some.inj hs
    refine ⟨fun i p hp => ?_, fun hhas => ?_⟩
    · rcases Machine.getElem?_concat_cases hp with hp | ⟨-, rfl⟩
      · exact h.admits i p hp
      · exact action.admits_start
    · obtain ⟨i, p, hp, hanswers⟩ := h.answers hhas
      have hlt := (List.getElem?_eq_some_iff.mp hp).1
      exact ⟨i, p, (List.getElem?_append_left hlt).trans hp, hanswers⟩
  | process i e =>
    cases hp : s.processes[i]? with
    | none => simp [KsHost.step, hp] at hs
    | some p =>
      simp only [KsHost.step, hp, Option.map_eq_some_iff] at hs
      obtain ⟨⟨p', rs⟩, hstep, rfl⟩ := hs
      refine h.process hp (p.accounts_of_step (h.admits i p hp) ?_ hstep)
      rintro o rfl
      exact htimely p hp
  | elsewhere ruleset =>
    obtain rfl := Option.some.inj hs
    exact ⟨h.admits, fun hhas => h.answers (htimely hhas)⟩
  | tick nanos =>
    obtain rfl := Option.some.inj hs
    refine ⟨h.admits, fun hhas => ?_⟩
    obtain ⟨i, p, hp, hanswers⟩ := h.answers hhas
    exact ⟨i, p, hp, hanswers.tick (htimely p (List.mem_of_getElem? hp))⟩

end Run

/-- **Nobody is locked out without an explanation.**  Where the radical table is not there at
the start and no other program loads it, where `nft` says that a table is not there only if
it is not, and where a process is woken up and has `nft` delete its table within `slack` of
its deadline: in every interleaving of any number of `anonet killswitch` commands, with
signals at any time and any other failure of `nft` and `id`, while the radical table is
there, some `enable --mode radical` had it loaded, and that process has not yet overrun its
TTL, 300 seconds unless it was given one, by more than `slack`; or it was killed; or it has
exited with the message that the table could not be deleted. -/
theorem answerable_of_reach (slack : ℕ) (ruleset : Ruleset) (hoff : ¬ ruleset.has systemTable)
    (s : KsHost) (h : killswitches.Reach (Timely slack) (.start ruleset) s)
    (hon : s.ruleset.has systemTable) : ∃ p ∈ s.processes, p.Answerable slack s.now := by
  have haccounted : Accounted slack s := by
    refine h.invariant (I := Accounted slack) ⟨fun i p hp => ?_, fun hhas => absurd hhas hoff⟩
      fun s e s' hi htimely hs => hi.step htimely hs
    cases hp
  obtain ⟨i, p, hp, hanswers⟩ := haccounted.answers hon
  exact ⟨p, List.mem_of_getElem? hp, hanswers⟩

/-- The first of two `enable`s is interrupted and takes away the table of both; a third one
loads it again. -/
def overlapping : List HostEvent :=
  [.launch (.Enable .Radical none none), .launch (.Enable .Radical none (some 3600)),
    .process 0 (.id (.printed "0")), .process 0 (.nft .ok), .tick nanosPerSec,
    .process 1 (.id (.printed "0")), .process 1 (.nft .ok), .process 0 .ctrlC,
    .process 0 (.nft .ok), .launch (.Enable .Radical none (some 60)),
    .process 2 (.id (.printed "0")), .process 2 (.nft .ok), .tick nanosPerSec]

/-- Somebody answers for the table. -/
theorem answerable_overlapping : ∃ s : KsHost, s.ruleset.has systemTable ∧
    ∃ p ∈ s.processes, p.Answerable 0 s.now := by
  obtain ⟨s, hreach, hon⟩ := Machine.exists_reach_of_exec (m := killswitches)
    (G := Timely 0) (s := .start []) (P := fun s => s.ruleset.has systemTable) overlapping
    (by decide)
  exact ⟨s, hon, answerable_of_reach 0 [] (by decide) s hreach hon⟩

end Anonet.Cli
