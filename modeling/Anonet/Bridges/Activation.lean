import Anonet.Bridges.Coordinator
import Anonet.Library.WriteLog

/-!
# Activations and torn updates

Activating a bridge takes three writes: the core handle, `active_idx` and the
telemetry record.  Each is atomic, but nothing holds them together, and both the
loop and every `try_add_bridge` call activate.

* `Stage` — how far a task is with an activation; `step_stage` says once what a
  step of the machine can do to it.
* `Agree` — the three registers name one bridge.
* `agree_of_inOrder` — **they agree whenever no activation is in progress, as
  long as activations of different bridges do not overtake one another.**
-/

namespace Anonet.Bridges

open Anonet.Core Telemetry

variable {β γ : Type}

/-! ## Stages -/

inductive Task
  | run
  | add (i : ℕ)
  deriving DecidableEq

/-- How far a task is with activating a bridge. -/
inductive Stage (γ : Type)
  | idle
  | bootstrapping (idx : ℕ) (config : γ)
  | replacing (idx : ℕ) (newCore : γ)
  | storing (idx : ℕ)
  | reporting (idx : ℕ)

def RunPc.stage : RunPc γ → Stage γ
  | .bootstrapping _ newIdx config => .bootstrapping newIdx config
  | .replacing _ newIdx newCore => .replacing newIdx newCore
  | .storing _ newIdx => .storing newIdx
  | .reporting newIdx => .reporting newIdx
  | _ => .idle

def AddPc.stage : AddPc β γ → Stage γ
  | .bootstrapping idx config => .bootstrapping idx config
  | .replacing idx newCore => .replacing idx newCore
  | .storing idx => .storing idx
  | .reporting idx => .reporting idx
  | _ => .idle

def Coordinator.stage (s : Coordinator β γ) : Task → Stage γ
  | .run => s.run.stage
  | .add i => (s.adds[i]?).elim .idle AddPc.stage

/-- The task is between its first and its last write. -/
def Stage.Midway : Stage γ → Prop
  | .storing _ => True
  | .reporting _ => True
  | _ => False

/-- The configuration a task is about to bootstrap or install is a production
configuration of its candidate. -/
def Stage.Sound (arti : Arti β γ) (m : BridgeManager β) : Stage γ → Prop
  | .bootstrapping idx config => IsProductionConfig arti m idx config
  | .replacing idx newCore => IsProductionConfig arti m idx newCore
  | _ => True

theorem Stage.Sound.mono {arti : Arti β γ} {m m' : BridgeManager β} {stage : Stage γ}
    (h : stage.Sound arti m) (hm : m.Extends m') : stage.Sound arti m' := by
  cases stage with
  | bootstrapping idx config => exact IsProductionConfig.mono h hm
  | replacing idx newCore => exact IsProductionConfig.mono h hm
  | _ => trivial

/-- The registers an activation writes. -/
inductive Register
  | core
  | activeIdx
  | telemetry
  deriving DecidableEq

/-- The registers as they stand. -/
def Coordinator.SameRegisters (s s' : Coordinator β γ) : Prop :=
  s'.coreHandle = s.coreHandle ∧ s'.activeIdx = s.activeIdx ∧
    s'.telemetry.activeBridgeIndex = s.telemetry.activeBridgeIndex

/-- What one step does to the task that takes it, and to the registers. -/
inductive StageStep (arti : Arti β γ) (s s' : Coordinator β γ) :
    Stage γ → Stage γ → Option (Register × ℕ) → Prop
  | quiet {st st' : Stage γ} (before : ¬ st.Midway) (after : ¬ st'.Midway)
      (sound : st.Sound arti s.manager → st'.Sound arti s'.manager)
      (same : s.SameRegisters s') : StageStep arti s s' st st' none
  | replace {idx : ℕ} {newCore : γ} (core : s'.coreHandle.current = newCore)
      (idx_eq : s'.activeIdx = s.activeIdx)
      (tel_eq : s'.telemetry.activeBridgeIndex = s.telemetry.activeBridgeIndex) :
      StageStep arti s s' (.replacing idx newCore) (.storing idx) (some (.core, idx))
  | store {idx : ℕ} (core_eq : s'.coreHandle = s.coreHandle) (idx_eq : s'.activeIdx = some idx)
      (tel_eq : s'.telemetry.activeBridgeIndex = s.telemetry.activeBridgeIndex) :
      StageStep arti s s' (.storing idx) (.reporting idx) (some (.activeIdx, idx))
  | report {idx : ℕ} (core_eq : s'.coreHandle = s.coreHandle)
      (idx_eq : s'.activeIdx = s.activeIdx)
      (tel_eq : s'.telemetry.activeBridgeIndex = some idx) :
      StageStep arti s s' (.reporting idx) .idle (some (.telemetry, idx))

/-- Which task takes the action. -/
def Action.task : Action → Option Task
  | .run _ => some .run
  | .add i _ => some (.add i)
  | _ => none

/-- The register the next `go` of a task in this stage writes, and for which
candidate. -/
def Stage.write : Stage γ → Option (Register × ℕ)
  | .replacing idx _ => some (.core, idx)
  | .storing idx => some (.activeIdx, idx)
  | .reporting idx => some (.telemetry, idx)
  | _ => none

section Steps

variable {arti : Arti β γ} {s s' : Coordinator β γ}

/-- A step between two places where nothing is being activated. -/
theorem StageStep.idle {st st' : Stage γ} (hst : st = .idle) (hst' : st' = .idle)
    (same : s.SameRegisters s') : StageStep arti s s' st st' st.write := by
  subst hst hst'
  exact .quiet id id (fun _ => trivial) same

/-- The list of calls is not one of the registers. -/
theorem StageStep.setAdds {st st' : Stage γ} {w : Option (Register × ℕ)}
    (h : StageStep arti s s' st st' w) (adds : List (AddPc β γ)) :
    StageStep arti s { s' with adds := adds } st st' w := by
  cases h with
  | quiet before after sound same => exact .quiet before after sound same
  | replace core idx_eq tel_eq => exact .replace core idx_eq tel_eq
  | store core_eq idx_eq tel_eq => exact .store core_eq idx_eq tel_eq
  | report core_eq idx_eq tel_eq => exact .report core_eq idx_eq tel_eq

/-- One step of the loop. -/
theorem RunStep.stage {e : Event} (h : RunStep arti s e s') :
    s'.adds = s.adds ∧ s'.manager = s.manager ∧
      StageStep arti s s' s.run.stage s'.run.stage s.run.stage.write := by
  cases h with
  | idle hrun => exact ⟨rfl, rfl, .idle (hrun ▸ rfl) (hrun ▸ rfl) ⟨rfl, rfl, rfl⟩⟩
  | pass hrun | miss hrun =>
    exact ⟨rfl, rfl, .idle (hrun ▸ rfl) rfl ⟨rfl, rfl, s.activeBridgeIndex_recordPeriodic⟩⟩
  | next hrun | hit hrun | exhaust hrun =>
    exact ⟨rfl, rfl, .idle (hrun ▸ rfl) rfl ⟨rfl, rfl, s.activeBridgeIndex_recordResult⟩⟩
  | other hrun hconfig =>
    rw [hrun]
    exact ⟨rfl, rfl, .quiet id id (fun _ => isProductionConfig_of_eq hconfig) ⟨rfl, rfl, rfl⟩⟩
  | boot hrun =>
    rw [hrun]
    exact ⟨rfl, rfl, .quiet id id id ⟨rfl, rfl, rfl⟩⟩
  | noBoot hrun =>
    rw [hrun]
    exact ⟨rfl, rfl, .quiet id id (fun _ => trivial) ⟨rfl, rfl, rfl⟩⟩
  | replace hrun =>
    rw [hrun]
    exact ⟨rfl, rfl, .replace rfl rfl rfl⟩
  | store hrun =>
    rw [hrun]
    exact ⟨rfl, rfl, .store rfl rfl rfl⟩
  | report hrun =>
    rw [hrun]
    exact ⟨rfl, rfl, .report rfl rfl rfl⟩
  | wake hrun | start hrun | recover hrun | below hrun | reach hrun | scan hrun | noScan hrun
  | noConfig hrun | same hrun | settle hrun =>
    exact ⟨rfl, rfl, .idle (hrun ▸ rfl) rfl ⟨rfl, rfl, rfl⟩⟩

/-- One step of a `try_add_bridge` call. -/
theorem AddStep.stage {pc pc' : AddPc β γ} {e : Event} (h : AddStep arti s pc e pc' s') :
    s'.adds = s.adds ∧ s'.run = s.run ∧ s.manager.Extends s'.manager ∧
      StageStep arti s s' pc.stage pc'.stage pc.stage.write := by
  cases h with
  | @prepare line fs _ manager hprep | @reject line fs _ manager hprep =>
    have hm := extends_prepareBridgeLine arti s.manager fs line
    rw [hprep] at hm
    exact ⟨rfl, rfl, hm, .idle rfl rfl ⟨rfl, rfl, rfl⟩⟩
  | push => exact ⟨rfl, rfl, extends_pushCandidate _ _, .idle rfl rfl ⟨rfl, rfl, rfl⟩⟩
  | pass | miss =>
    exact ⟨rfl, rfl, .rfl, .idle rfl rfl ⟨rfl, rfl, s.activeBridgeIndex_recordResult⟩⟩
  | configure hconfig =>
    exact ⟨rfl, rfl, .rfl,
      .quiet id id (fun _ => isProductionConfig_of_eq hconfig) ⟨rfl, rfl, rfl⟩⟩
  | boot => exact ⟨rfl, rfl, .rfl, .quiet id id id ⟨rfl, rfl, rfl⟩⟩
  | noBoot => exact ⟨rfl, rfl, .rfl, .quiet id id (fun _ => trivial) ⟨rfl, rfl, rfl⟩⟩
  | replace => exact ⟨rfl, rfl, .rfl, .replace rfl rfl rfl⟩
  | store => exact ⟨rfl, rfl, .rfl, .store rfl rfl rfl⟩
  | report => exact ⟨rfl, rfl, .rfl, .report rfl rfl rfl⟩
  | enter | start | fail | noConfig =>
    exact ⟨rfl, rfl, .rfl, .idle rfl rfl ⟨rfl, rfl, rfl⟩⟩

/-- **What one step does**: it moves at most one task, which writes at most one
register; the manager only grows. -/
theorem step_stage {a : Action} (h : s.step arti a = some s') :
    s.manager.Extends s'.manager ∧
      match a.task with
      | none => (∀ t, s'.stage t = s.stage t) ∧ s.SameRegisters s'
      | some t => (∀ t', t' ≠ t → s'.stage t' = s.stage t') ∧
          StageStep arti s s' (s.stage t) (s'.stage t) (s.stage t).write := by
  cases a with
  | call line =>
    obtain rfl := Option.some.inj h
    refine ⟨.rfl, ?_, rfl, rfl, rfl⟩
    intro t
    cases t with
    | run => rfl
    | add i =>
      rcases Nat.lt_trichotomy i s.adds.length with hi | hi | hi
      · simp [Coordinator.stage, List.getElem?_append_left hi]
      · simp [Coordinator.stage, hi, AddPc.stage]
      · simp [Coordinator.stage, List.getElem?_append_right hi.le,
          List.getElem?_eq_none hi.le, Nat.sub_ne_zero_of_lt hi]
  | run e =>
    obtain ⟨hadds, hm, hstep⟩ := (runStep_of_stepRun h).stage
    refine ⟨hm ▸ .rfl, ?_, hstep⟩
    intro t' ht'
    cases t' with
    | run => exact absurd rfl ht'
    | add i => simp [Coordinator.stage, hadds]
  | add i e =>
    obtain ⟨pc, pc', s₁, hpc, hadd, rfl⟩ := addStep_of_step h
    obtain ⟨hadds, hrun, hm, hstep⟩ := hadd.stage
    have hst : s.stage (.add i) = pc.stage := by simp [Coordinator.stage, hpc]
    have hi : i < s₁.adds.length := by
      rw [hadds]
      exact (List.getElem?_eq_some_iff.mp hpc).1
    have hst' : Coordinator.stage { s₁ with adds := s₁.adds.set i pc' } (.add i) = pc'.stage := by
      simp [Coordinator.stage, hi]
    refine ⟨hm, ?_, ?_⟩
    · intro t' ht'
      cases t' with
      | run => simp [Coordinator.stage, hrun]
      | add j =>
        have hij : i ≠ j := fun e => ht' (e ▸ rfl)
        simp [Coordinator.stage, List.getElem?_set_ne hij, hadds]
    · show StageStep arti s _ (s.stage (.add i)) (Coordinator.stage _ (.add i)) _
      rw [hst, hst']
      exact hstep.setAdds _
  | tick nanos =>
    obtain rfl := Option.some.inj h
    exact ⟨.rfl, fun _ => rfl, rfl, rfl, rfl⟩

end Steps

/-! ## The history of activations -/

/-- One activation: the task, how many it had finished before, and the candidate. -/
structure Activation where
  task : Task
  serial : ℕ
  candidate : ℕ
  deriving DecidableEq

/-- The writes so far, and how many activations each task has finished. -/
structure History where
  log : WriteLog Activation Register
  finished : Task → ℕ

def History.start : History := ⟨[], fun _ => 0⟩

/-- What a step adds to the history. -/
def record (s : Coordinator β γ) (a : Action) (_ : Coordinator β γ) (g : History) : History :=
  match a.task with
  | none => g
  | some t =>
    match (s.stage t).write with
    | none => g
    | some (r, idx) =>
      { log := ⟨⟨t, g.finished t, idx⟩, r⟩ :: g.log
        finished :=
          if r = .telemetry then Function.update g.finished t (g.finished t + 1) else g.finished }

/-- The registers a task in this stage still has to write for the candidate. -/
def Stage.todo (candidate : ℕ) : Stage γ → List Register
  | .storing idx => if idx = candidate then [.activeIdx, .telemetry] else []
  | .reporting idx => if idx = candidate then [.telemetry] else []
  | _ => []

/-- The registers an activation that has begun to write still has to write. -/
def todo (s : Coordinator β γ) (g : History) (x : Activation) : List Register :=
  if x.serial = g.finished x.task then (s.stage x.task).todo x.candidate else []

/-- The history explains the registers. -/
structure Recorded (arti : Arti β γ) (s₀ s : Coordinator β γ) (g : History) : Prop where
  grown : s₀.manager.Extends s.manager
  sound : ∀ t, (s.stage t).Sound arti s.manager
  progress : g.log.Progress (todo s g)
  core : g.log.Shows .core (· = s₀.coreHandle)
    (fun x c => IsProductionConfig arti s.manager x.candidate c.current) s.coreHandle
  activeIdx : g.log.Shows .activeIdx (· = s₀.activeIdx) (fun x v => v = some x.candidate)
    s.activeIdx
  telemetry : g.log.Shows .telemetry (· = s₀.telemetry.activeBridgeIndex)
    (fun x v => v = some x.candidate) s.telemetry.activeBridgeIndex

section Recorded

variable {arti : Arti β γ} {s₀ s s' : Coordinator β γ} {g g' : History} {t : Task} {idx : ℕ}

theorem Stage.todo_of_not_midway {st : Stage γ} (h : ¬ st.Midway) (candidate : ℕ) :
    st.todo candidate = [] := by
  cases st with
  | storing idx | reporting idx => exact absurd trivial h
  | _ => rfl

/-- A task that is not midway has nothing left to write. -/
theorem todo_of_not_midway {x : Activation} (h : ¬ (s.stage x.task).Midway) : todo s g x = [] := by
  rw [todo, Stage.todo_of_not_midway h, ite_self]

/-- A task whose stage and count are as before has to write what it had to. -/
theorem todo_of_eq {x : Activation} (hst : s'.stage x.task = s.stage x.task)
    (hf : g'.finished x.task = g.finished x.task) : todo s' g' x = todo s g x := by
  rw [todo, todo, hst, hf]

/-- What a task has left to write, it has left to write for its current activation. -/
theorem todo_of_ne (hst : ∀ c, c ≠ idx → (s.stage t).todo c = []) {x : Activation}
    (hx : x.task = t) (hne : x ≠ ⟨t, g.finished t, idx⟩) : todo s g x = [] := by
  obtain ⟨task, serial, candidate⟩ := x
  obtain rfl : task = t := hx
  rw [todo]
  split
  · rename_i hserial
    refine hst candidate fun hc => hne ?_
    rw [Activation.mk.injEq]
    exact ⟨rfl, hserial, hc⟩
  · rfl

/-- The registers that did not change keep their explanation. -/
theorem Recorded.of_quiet (h : Recorded arti s₀ s g) (hm : s.manager.Extends s'.manager)
    (hsound : ∀ t, (s'.stage t).Sound arti s'.manager) (htodo : ∀ x, todo s' g x = todo s g x)
    (same : s.SameRegisters s') : Recorded arti s₀ s' g where
  grown := h.grown.trans hm
  sound := hsound
  progress := h.progress.quiet fun x => .inl (htodo x)
  core := by
    rw [same.1]
    exact h.core.mono id fun x hx => hx.mono hm
  activeIdx := by
    rw [same.2.1]
    exact h.activeIdx
  telemetry := by
    rw [same.2.2]
    exact h.telemetry

/-- The other tasks' stages stay sound while one task moves. -/
theorem Recorded.sound_of_move (h : Recorded arti s₀ s g)
    (hm : s.manager.Extends s'.manager) (hst : ∀ t', t' ≠ t → s'.stage t' = s.stage t')
    (hself : (s'.stage t).Sound arti s'.manager) :
    ∀ t', (s'.stage t').Sound arti s'.manager := by
  intro t'
  by_cases ht : t' = t
  · exact ht ▸ hself
  · rw [hst t' ht]
    exact (h.sound t').mono hm

section Move

variable (h : Recorded arti s₀ s g) (hm : s.manager.Extends s'.manager)
  (hst : ∀ t', t' ≠ t → s'.stage t' = s.stage t')

include h hst

/-- The account of what is left to write, after a write of the task's current
activation. -/
theorem Recorded.progress_write {r : Register}
    (hlog : g'.log = ⟨⟨t, g.finished t, idx⟩, r⟩ :: g.log)
    (hfin : ∀ t', t' ≠ t → g'.finished t' = g.finished t')
    (hx : todo s g ⟨t, g.finished t, idx⟩ = r :: todo s' g' ⟨t, g.finished t, idx⟩ ∨
      ∀ r', r' = r ∨ r' ∈ todo s' g' ⟨t, g.finished t, idx⟩)
    (hold : ∀ c, c ≠ idx → (s.stage t).todo c = [])
    (hnew : ∀ x : Activation, x.task = t → x ≠ ⟨t, g.finished t, idx⟩ → todo s' g' x = []) :
    g'.log.Progress (todo s' g') := by
  rw [hlog]
  refine h.progress.write hx ?_
  intro x hne
  by_cases ht : x.task = t
  · rw [hnew x ht hne, todo_of_ne hold ht hne]
  · exact todo_of_eq (hst _ ht) (hfin _ ht)

include hm

/-- The first write of an activation. -/
theorem Recorded.replace {newCore : γ} (hfrom : s.stage t = .replacing idx newCore)
    (hto : s'.stage t = .storing idx) (hcore : s'.coreHandle.current = newCore)
    (hidx : s'.activeIdx = s.activeIdx)
    (htel : s'.telemetry.activeBridgeIndex = s.telemetry.activeBridgeIndex) :
    Recorded arti s₀ s' ⟨⟨⟨t, g.finished t, idx⟩, .core⟩ :: g.log, g.finished⟩ := by
  refine ⟨h.grown.trans hm, h.sound_of_move hm hst (by rw [hto]; trivial),
    h.progress_write hst rfl (fun _ _ => rfl) (.inr ?_) ?_
      (fun x ht hne => todo_of_ne ?_ ht hne), ?_, ?_, ?_⟩
  · intro r'
    cases r' <;> simp [todo, hto, Stage.todo]
  · intro c _
    rw [hfrom]
    rfl
  · intro c hc
    simp [hto, Stage.todo, hc.symm]
  · refine .cons_self (IsProductionConfig.mono ?_ hm)
    rw [hcore]
    have hsound := h.sound t
    rwa [hfrom] at hsound
  · rw [hidx]
    exact h.activeIdx.cons_of_ne (by decide)
  · rw [htel]
    exact h.telemetry.cons_of_ne (by decide)

/-- The second write. -/
theorem Recorded.store (hfrom : s.stage t = .storing idx) (hto : s'.stage t = .reporting idx)
    (hcore : s'.coreHandle = s.coreHandle) (hidx : s'.activeIdx = some idx)
    (htel : s'.telemetry.activeBridgeIndex = s.telemetry.activeBridgeIndex) :
    Recorded arti s₀ s' ⟨⟨⟨t, g.finished t, idx⟩, .activeIdx⟩ :: g.log, g.finished⟩ := by
  refine ⟨h.grown.trans hm, h.sound_of_move hm hst (by rw [hto]; trivial),
    h.progress_write hst rfl (fun _ _ => rfl) (.inl ?_) ?_
      (fun x ht hne => todo_of_ne ?_ ht hne), ?_, ?_, ?_⟩
  · simp [todo, hfrom, hto, Stage.todo]
  · intro c hc
    simp [hfrom, Stage.todo, hc.symm]
  · intro c hc
    simp [hto, Stage.todo, hc.symm]
  · rw [hcore]
    exact (h.core.cons_of_ne (by decide)).mono id fun x hx => hx.mono hm
  · exact .cons_self hidx
  · rw [htel]
    exact h.telemetry.cons_of_ne (by decide)

/-- The last write. -/
theorem Recorded.report (hfrom : s.stage t = .reporting idx) (hto : s'.stage t = .idle)
    (hcore : s'.coreHandle = s.coreHandle) (hidx : s'.activeIdx = s.activeIdx)
    (htel : s'.telemetry.activeBridgeIndex = some idx) :
    Recorded arti s₀ s' ⟨⟨⟨t, g.finished t, idx⟩, .telemetry⟩ :: g.log,
      Function.update g.finished t (g.finished t + 1)⟩ := by
  have hnothing : ∀ (g' : History) (x : Activation), x.task = t → todo s' g' x = [] :=
    fun g' x hx => todo_of_not_midway (by rw [hx, hto]; exact id)
  refine ⟨h.grown.trans hm, h.sound_of_move hm hst (by rw [hto]; trivial),
    h.progress_write hst rfl (fun t' ht' => Function.update_of_ne ht' _ _) (.inl ?_)
      ?_ (fun x ht _ => hnothing _ x ht), ?_, ?_, ?_⟩
  · rw [hnothing _ _ rfl]
    simp [todo, hfrom, Stage.todo]
  · intro c hc
    simp [hfrom, Stage.todo, hc.symm]
  · rw [hcore]
    exact (h.core.cons_of_ne (by decide)).mono id fun x hx => hx.mono hm
  · rw [hidx]
    exact h.activeIdx.cons_of_ne (by decide)
  · exact .cons_self htel

end Move

/-- **The step lemma**: every step keeps the registers explained. -/
theorem Recorded.step (h : Recorded arti s₀ s g) {a : Action} (hs : s.step arti a = some s') :
    Recorded arti s₀ s' (record s a s' g) := by
  obtain ⟨hm, hstep⟩ := step_stage hs
  unfold record
  cases ht : a.task with
  | none =>
    rw [ht] at hstep
    obtain ⟨hst, same⟩ := hstep
    refine h.of_quiet hm ?_ (fun x => todo_of_eq (hst _) rfl) same
    intro t
    rw [hst]
    exact (h.sound t).mono hm
  | some t =>
    rw [ht] at hstep
    obtain ⟨hst, hstep⟩ := hstep
    dsimp only
    generalize hw : (s.stage t).write = w at hstep
    generalize hfrom : s.stage t = st at hstep
    generalize hto : s'.stage t = st' at hstep
    cases hstep with
    | quiet before after sound same =>
      refine h.of_quiet hm (h.sound_of_move hm hst ?_) ?_ same
      · rw [hto]
        exact sound (hfrom ▸ h.sound t)
      · intro x
        by_cases hx : x.task = t
        · rw [todo_of_not_midway (by rw [hx, hto]; exact after),
            todo_of_not_midway (by rw [hx, hfrom]; exact before)]
        · exact todo_of_eq (hst _ hx) rfl
    | replace hcore hidx htel => exact h.replace hm hst hfrom hto hcore hidx htel
    | store hcore hidx htel => exact h.store hm hst hfrom hto hcore hidx htel
    | report hcore hidx htel => exact h.report hm hst hfrom hto hcore hidx htel

end Recorded

/-! ## Agreement -/

/-- Some activation has begun to write and has not finished. -/
def InProgress (s : Coordinator β γ) : Prop :=
  s.run.stage.Midway ∨ ∃ pc ∈ s.adds, pc.stage.Midway

instance (st : Stage γ) : Decidable st.Midway := by
  cases st <;> unfold Stage.Midway <;> infer_instance

instance (s : Coordinator β γ) : Decidable (InProgress s) :=
  inferInstanceAs (Decidable (_ ∨ _))

theorem not_midway_of_not_inProgress {s : Coordinator β γ} (h : ¬ InProgress s) (t : Task) :
    ¬ (s.stage t).Midway := by
  intro ht
  cases t with
  | run => exact h (.inl ht)
  | add i =>
    cases hi : s.adds[i]? with
    | none => simp [Coordinator.stage, hi, Stage.Midway] at ht
    | some pc =>
      simp only [Coordinator.stage, hi, Option.elim_some] at ht
      exact h (.inr ⟨pc, List.mem_of_getElem? hi, ht⟩)

/-- The core was bootstrapped for the bridge the index names; `none` names the
direct core of the start. -/
def BootstrappedFor (arti : Arti β γ) (direct : γ) (m : BridgeManager β) (core : γ) :
    Option ℕ → Prop
  | none => core = direct
  | some idx => IsProductionConfig arti m idx core

/-- **The registers name one bridge.** -/
def Agree (arti : Arti β γ) (direct : γ) (s : Coordinator β γ) : Prop :=
  BootstrappedFor arti direct s.manager s.coreHandle.current s.activeIdx ∧
    s.telemetry.activeBridgeIndex = s.activeIdx

/-- What `new` is given: a core bootstrapped for the initial index, and a
telemetry record that names no bridge yet. -/
def StartsFor (arti : Arti β γ) (direct : γ) (m : BridgeManager β) (core : γ)
    (telemetry : HealthStatus) (initialActiveIdx : Option ℕ) : Prop :=
  BootstrappedFor arti direct m core initialActiveIdx ∧ telemetry.activeBridgeIndex = none

/-- After the step, activations of different bridges have still written the
registers they share in one order: none overtakes another. -/
def InOrderStep (p : Coordinator β γ × History) (a : Action) : Prop :=
  ∀ x y : Activation, x.candidate ≠ y.candidate →
    (record p.1 a p.1 p.2).log.InOrder x y

section Agree

variable {arti : Arti β γ} {direct core : γ} {manager : BridgeManager β} {telemetry : HealthStatus}
  {initialActiveIdx : Option ℕ} {failureThreshold : UInt32} {now : ℕ}

theorem agree_new (h : StartsFor arti direct manager core telemetry initialActiveIdx) :
    Agree arti direct (.new manager core telemetry initialActiveIdx failureThreshold now) := by
  refine ⟨h.1, ?_⟩
  cases initialActiveIdx with
  | none => exact h.2
  | some idx => rfl

theorem recorded_new (arti : Arti β γ) :
    Recorded arti (.new manager core telemetry initialActiveIdx failureThreshold now)
      (.new manager core telemetry initialActiveIdx failureThreshold now) History.start := by
  have hidle : ∀ t, (Coordinator.new manager core telemetry initialActiveIdx failureThreshold
      now : Coordinator β γ).stage t = .idle := by
    intro t
    cases t <;> rfl
  refine ⟨.rfl, ?_, WriteLog.progress_nil ?_, rfl, rfl, rfl⟩
  · intro t
    rw [hidle]
    trivial
  · intro x
    exact todo_of_not_midway (by rw [hidle]; exact id)

/-- The registers of a state without activations in progress, whose history is
in order, name one bridge if those of the start did. -/
theorem Recorded.agree {s₀ s : Coordinator β γ} {g : History} (h : Recorded arti s₀ s g)
    (h₀ : Agree arti direct s₀) (hq : ¬ InProgress s)
    (hord : ∀ x y : Activation, x.candidate ≠ y.candidate → g.log.InOrder x y) :
    Agree arti direct s := by
  have hc : WriteLog.Complete g.log :=
    h.progress.complete fun x => todo_of_not_midway (not_midway_of_not_inProgress hq x.task)
  rcases WriteLog.exists_kind Activation.candidate hc hord with hnone | ⟨idx, hidx⟩
  · -- nothing was activated: the start's registers are still there
    have hact : s.activeIdx = s₀.activeIdx := h.activeIdx.of_none (hnone _)
    have htel : s.telemetry.activeBridgeIndex = s₀.telemetry.activeBridgeIndex :=
      h.telemetry.of_none (hnone _)
    have hcore : s.coreHandle = s₀.coreHandle := h.core.of_none (hnone _)
    rw [Agree, hact, htel, hcore]
    refine ⟨?_, h₀.2⟩
    have hboot := h₀.1
    cases hi : s₀.activeIdx with
    | none =>
      rw [hi] at hboot
      exact hboot
    | some idx =>
      rw [hi] at hboot
      exact IsProductionConfig.mono hboot h.grown
  · obtain ⟨x, hx, rfl⟩ := hidx .activeIdx
    obtain ⟨y, hy, hyx⟩ := hidx .core
    obtain ⟨z, hz, hzx⟩ := hidx .telemetry
    have hact : s.activeIdx = some x.candidate := h.activeIdx.of_some hx
    have htel : s.telemetry.activeBridgeIndex = some z.candidate := h.telemetry.of_some hz
    have hcore : IsProductionConfig arti s.manager y.candidate s.coreHandle.current :=
      h.core.of_some hy
    rw [Agree, hact, htel, hzx]
    exact ⟨hyx ▸ hcore, rfl⟩

end Agree

/-- **No torn activation.**  In every run of the loop and of any number of
`try_add_bridge` calls in which activations of different bridges do not overtake
one another, the core handle, `active_idx` and the telemetry name one bridge
whenever no activation is in progress. -/
theorem agree_of_inOrder (arti : Arti β γ) (direct core : γ) (manager : BridgeManager β)
    (telemetry : HealthStatus) (initialActiveIdx : Option ℕ) (failureThreshold : UInt32) (now : ℕ)
    (hstart : StartsFor arti direct manager core telemetry initialActiveIdx)
    (s : Coordinator β γ) (g : History)
    (h : ((coordinating arti).watch record).Reach InOrderStep
      (.new manager core telemetry initialActiveIdx failureThreshold now, History.start) (s, g))
    (hq : ¬ InProgress s) : Agree arti direct s := by
  have hinv : Recorded arti
        (.new manager core telemetry initialActiveIdx failureThreshold now) s g ∧
      ∀ x y : Activation, x.candidate ≠ y.candidate → g.log.InOrder x y := by
    refine h.invariant (I := fun p => Recorded arti (.new manager core telemetry initialActiveIdx
      failureThreshold now) p.1 p.2 ∧ ∀ x y : Activation, x.candidate ≠ y.candidate →
        p.2.log.InOrder x y) ⟨recorded_new arti, ?_⟩ ?_
    · intro x y _ r r' hb
      exact absurd hb (by simp [WriteLog.Before, History.start])
    · intro p a q hi hg hs
      obtain ⟨hstep, hnote⟩ := Machine.watch_step.mp hs
      rw [hnote]
      exact ⟨hi.1.step hstep, hg⟩
  exact hinv.1.agree (agree_new hstart) hq hinv.2

/-! ## Runs on concrete bridges -/

/-- The loop fails over from bridge 0 to bridge 1 and the user adds bridge 2; the call
follows the loop from one register to the next. -/
def following : List Action :=
  failoverUpToBootstrap ++ .call addedLine :: addUpToBootstrap 0 ++
    [.run .go, .add 0 .go, .run .go, .add 0 .go, .run .go, .add 0 .go]

theorem agree_following :
    ∃ s : Coordinator String String, s.activeIdx = some 2 ∧ ¬ InProgress s ∧
      Agree Arti.plain "direct" s := by
  obtain ⟨⟨s, g⟩, hreach, hidx, hq⟩ := Machine.exists_reach_of_exec
    (m := (coordinating Arti.plain).watch record)
    (G := fun p a => ∀ w ∈ (record p.1 a p.1 p.2).log, ∀ v ∈ (record p.1 a p.1 p.2).log,
      w.op.candidate ≠ v.op.candidate →
      (record p.1 a p.1 p.2).log.Before w.reg w.op v.op →
      ¬ (record p.1 a p.1 p.2).log.Before v.reg v.op w.op)
    (s := (Coordinator.new bridgeAndSpare firstLine {} (some 0) 1 0, History.start))
    (P := fun p => p.1.activeIdx = some 2 ∧ ¬ InProgress p.1) following (by decide)
  exact ⟨s, hidx, hq, agree_of_inOrder Arti.plain "direct" firstLine bridgeAndSpare {} (some 0) 1 0
    ⟨isProductionConfig_of_eq rfl, rfl⟩ s g
    (hreach.mono fun _ _ hz _ _ hxy => WriteLog.inOrder_of_writes hz hxy) hq⟩

/-- The loop fails over from bridge 0 to bridge 1; while it bootstraps, the user
adds bridge 2, and the two activations overtake one another. -/
def overtaking : List Action :=
  failoverUpToBootstrap ++ .call addedLine :: addUpToBootstrap 0 ++
    [.add 0 .go, .run .go, .run .go, .add 0 .go, .add 0 .go, .run .go]

/-- Overlapping activations leave the registers naming different bridges. -/
theorem not_agree_overtaking :
    StartsFor Arti.plain "direct" bridgeAndSpare firstLine {} (some 0) ∧
    ∃ s, (coordinating Arti.plain).Reach Machine.anyStep
        (.new bridgeAndSpare firstLine {} (some 0) 1 0) s ∧
      ¬ InProgress s ∧ ¬ Agree Arti.plain "direct" s := by
  refine ⟨⟨isProductionConfig_of_eq rfl, rfl⟩, ?_⟩
  obtain ⟨s, hreach, hq, hidx, hcore, htel⟩ := Machine.exists_reach_of_exec
    (m := coordinating Arti.plain) (G := Machine.anyStep)
    (s := Coordinator.new bridgeAndSpare firstLine {} (some 0) 1 0)
    (P := fun s => ¬ InProgress s ∧ s.activeIdx = some 2 ∧ s.coreHandle.current = spareLine ∧
      s.telemetry.activeBridgeIndex = some 1) overtaking (by decide)
  refine ⟨s, hreach, hq, ?_⟩
  intro h
  exact absurd (htel.symm.trans (h.2.trans hidx)) (by decide)

end Anonet.Bridges
