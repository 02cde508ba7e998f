import Anonet.Bridges.ErrorReports
import Anonet.Transparent.FullAnon

/-!
# The error banner

The dashboard shows `last_error` until it is cleared.  The slot is one for all
background actions: `enable` and `try_add_bridge` clear it when they begin and record
their failures in it, whoever's error it holds.

* `Background`, `backgrounding` — both controllers on one telemetry record, and whoever
  else reports to it.
* `step_lastError` — all that is ever done to `last_error`.
* `noteError` — a history variable: the error that is to be shown, and whose it is.
* `shown_of_relevant` — **an error stays as long as only its own action clears it.**
-/

namespace Anonet.Tui

open Bridges Telemetry Transparent

variable {β γ : Type}

/-! ## The background of a session -/

/-- The bridge coordinator and the full-anonymization controller, which report to the
same record. -/
structure Background (β γ : Type) where
  coordinator : Coordinator β γ
  fullAnon : FullAnonController
  shared : fullAnon.telemetry = coordinator.telemetry

/-- What the SOCKS server and the ControlPort watcher report. -/
inductive Traffic
  | connectionOpened
  | connectionClosed
  | stream (event : StreamEvent)

def Traffic.report : Traffic → HealthStatus → HealthStatus
  | .connectionOpened, t => t.connectionOpened
  | .connectionClosed, t => t.connectionClosed
  | .stream event, t => t.pushStreamEvent event

inductive BackgroundAction
  | bridges (a : Bridges.Action)
  | fullAnon (a : Transparent.Action)
  | traffic (report : Traffic)
  | tick (nanos : ℕ)

namespace Background

def telemetry (s : Background β γ) : HealthStatus := s.coordinator.telemetry

/-- The controllers as they are after a step, on the record one of them has left. -/
def join (coordinator : Coordinator β γ) (fullAnon : FullAnonController) (t : HealthStatus) :
    Background β γ :=
  ⟨{ coordinator with telemetry := t }, { fullAnon with telemetry := t }, rfl⟩

def new (manager : BridgeManager β) (core : γ) (telemetry : HealthStatus)
    (initialActiveIdx : Option ℕ) (failureThreshold : UInt32) (dataDir : Option String)
    (ruleset : Nft.Ruleset) (now : ℕ) : Background β γ :=
  let coordinator : Coordinator β γ :=
    .new manager core telemetry initialActiveIdx failureThreshold now
  ⟨coordinator, .new dataDir coordinator.telemetry ruleset now, rfl⟩

/-- One step of one of them, or of the clock, which they share. -/
def step (arti : Arti β γ) (s : Background β γ) : BackgroundAction → Option (Background β γ)
  | .bridges (.tick _) | .fullAnon (.tick _) => none
  | .bridges a => (s.coordinator.step arti a).map fun c => join c s.fullAnon c.telemetry
  | .fullAnon a => (s.fullAnon.step a).map fun f => join s.coordinator f f.telemetry
  | .traffic report => some (join s.coordinator s.fullAnon (report.report s.telemetry))
  | .tick nanos =>
    some ⟨{ s.coordinator with now := s.coordinator.now + nanos },
      { s.fullAnon with now := s.fullAnon.now + nanos }, s.shared⟩

end Background

/-- All interleavings of the background actions. -/
def backgrounding (arti : Arti β γ) : Machine (Background β γ) BackgroundAction where
  step := Background.step arti

/-! ## What is done to `last_error` -/

/-- A background action, by what the user or the program attempts with it. -/
inductive Attempt
  | fullAnon (kind : Kind)
  | addBridge
  | monitor
  deriving DecidableEq

/-- Whose step it is and what it does to `last_error`. -/
def Background.errorOp (s : Background β γ) : BackgroundAction → Option (Attempt × ErrorOp)
  | .bridges (.run _) => some (.monitor, .keep)
  | .bridges (.add i _) =>
    s.coordinator.adds[i]?.map fun pc => (.addBridge, pc.errorOp s.coordinator.now)
  | .fullAnon (.step i _) =>
    s.fullAnon.calls[i]?.map fun c => (.fullAnon c.kind, c.errorOp s.fullAnon.now)
  | _ => none

/-- `last_error` after the step. -/
def leaves (op : Option (Attempt × ErrorOp)) (lastError : Option (ℕ × String)) :
    Option (ℕ × String) :=
  (op.elim .keep Prod.snd).apply lastError

section Steps

variable {arti : Arti β γ} {s s' : Background β γ} {a : BackgroundAction}

theorem lastError_report (report : Traffic) (t : HealthStatus) :
    (report.report t).lastError = t.lastError := by
  cases report with
  | connectionOpened | connectionClosed => rfl
  | stream event => simp only [Traffic.report, HealthStatus.pushStreamEvent]

/-- **All that is ever done to `last_error`.** -/
theorem step_lastError (h : s.step arti a = some s') :
    s'.telemetry.lastError = leaves (s.errorOp a) s.telemetry.lastError := by
  cases a with
  | bridges a =>
    cases a with
    | tick nanos => cases h
    | call line =>
      cases h
      rfl
    | run e =>
      simp only [Background.step, Option.map_eq_some_iff] at h
      obtain ⟨c, hc, rfl⟩ := h
      exact (runStep_of_stepRun hc).lastError
    | add i e =>
      simp only [Background.step, Option.map_eq_some_iff] at h
      obtain ⟨c, hc, rfl⟩ := h
      obtain ⟨pc, pc', c₁, hpc, hadd, rfl⟩ := addStep_of_step hc
      rw [Background.errorOp, hpc]
      exact hadd.lastError
  | fullAnon a =>
    cases a with
    | tick nanos => cases h
    | callEnable | callDisable =>
      cases h
      exact congrArg HealthStatus.lastError s.shared
    | step i e =>
      simp only [Background.step, Option.map_eq_some_iff] at h
      obtain ⟨f, hf, rfl⟩ := h
      obtain ⟨c, c', f₁, hc, hstep, rfl⟩ := callStep_of_step hf
      rw [Background.errorOp, hc]
      exact hstep.lastError.trans
        (congrArg (fun t => (c.errorOp s.fullAnon.now).apply t.lastError) s.shared)
  | traffic report =>
    cases h
    exact lastError_report report s.telemetry
  | tick nanos =>
    cases h
    rfl

end Steps

/-! ## The error that is to be shown -/

/-- The error that is to be shown, and whose it is: the last one recorded, unless the
same action has been attempted since. -/
def noteError (s : Background β γ) (a : BackgroundAction) (_s' : Background β γ)
    (g : Option (Attempt × ℕ × String)) : Option (Attempt × ℕ × String) :=
  match s.errorOp a with
  | some (attempt, .record time message) => some (attempt, time, message)
  | some (attempt, .clear) => if g.any (·.1 = attempt) then none else g
  | _ => g

/-- An error that is to be shown is there. -/
def Shown (s : Background β γ) (g : Option (Attempt × ℕ × String)) : Prop :=
  ∀ attempt err, g = some (attempt, err) → s.telemetry.lastError = some err

/-- The attempt begins by clearing `last_error`. -/
def Background.clears (s : Background β γ) (a : BackgroundAction) : Option Attempt :=
  (s.errorOp a).bind fun op => if op.2 = .clear then some op.1 else none

/-- An attempt that clears `last_error` begins only when the error to be shown is its
own, or there is none. -/
def Relevant (s : Background β γ) (g : Option (Attempt × ℕ × String)) (a : BackgroundAction) :
    Prop :=
  ∀ attempt ∈ s.clears a, ∀ owned ∈ g, owned.1 = attempt

instance (s : Background β γ) (g : Option (Attempt × ℕ × String)) (a : BackgroundAction) :
    Decidable (Relevant s g a) :=
  inferInstanceAs (Decidable (∀ attempt ∈ s.clears a, ∀ owned ∈ g, owned.1 = attempt))

section Shown

variable {arti : Arti β γ} {s s' : Background β γ} {a : BackgroundAction}
  {g : Option (Attempt × ℕ × String)}

theorem shown_none : Shown s none := by
  intro attempt err hnone
  cases hnone

/-- **The step lemma**: an error that is shown is shown after the step if and only if the
step is no attempt of another action. -/
theorem Shown.step_iff (h : Shown s g) (hs : s.step arti a = some s') :
    Shown s' (noteError s a s' g) ↔ Relevant s g a := by
  have hlast := step_lastError hs
  unfold Shown Relevant Background.clears noteError
  rw [hlast]
  cases hop : s.errorOp a with
  | none => exact iff_of_true h nofun
  | some op =>
    obtain ⟨attempt, op⟩ := op
    cases op with
    | keep => exact iff_of_true h nofun
    | record time message =>
      refine iff_of_true ?_ nofun
      rintro attempt' err ⟨⟩
      rfl
    | clear =>
      cases g with
      | none =>
        refine iff_of_true ?_ fun _ _ => nofun
        rintro attempt' err hnone
        simp at hnone
      | some owned =>
        obtain ⟨owner, err⟩ := owned
        by_cases howner : owner = attempt
        · subst howner
          refine iff_of_true ?_ ?_
          · simp
          · rintro attempt' ⟨⟩ owned ⟨⟩
            rfl
        · refine iff_of_false ?_ ?_
          · intro hshown
            have hkept : (if (some (owner, err)).any (·.1 = attempt) then none
                else some (owner, err)) = some (owner, err) := by simp [howner]
            have hno : (none : Option (ℕ × String)) = some err := hshown owner err hkept
            cases hno
          · intro hrelevant
            exact howner (hrelevant attempt rfl (owner, err) rfl)

end Shown

/-- **An error stays as long as only its own action clears it.**  In every interleaving of
`enable` and `disable` calls, `try_add_bridge` calls, the monitor loop and the traffic
reports in which an attempt that clears `last_error` begins only when the error to be
shown is its own or there is none: every error that was recorded is there until a newer
one is recorded or its own action is attempted again.  And where any other attempt
begins, the error is gone. -/
theorem shown_of_relevant (arti : Arti β γ) (s₀ s : Background β γ)
    (g : Option (Attempt × ℕ × String))
    (h : ((backgrounding arti).watch noteError).Reach (fun p a => Relevant p.1 p.2 a) (s₀, none)
      (s, g)) :
    Shown s g ∧ ∀ a s', s.step arti a = some s' → ¬ Relevant s g a →
      ¬ Shown s' (noteError s a s' g) := by
  have hshown : Shown s g := by
    refine h.invariant (I := fun p => Shown p.1 p.2) shown_none ?_
    intro p a q hi hg hs
    obtain ⟨hstep, hnote⟩ := Machine.watch_step.mp hs
    rw [hnote]
    exact (hi.step_iff hstep).mpr hg
  exact ⟨hshown, fun a s' hs hnot => (hshown.step_iff hs).not.mpr hnot⟩

/-- A session without root: `enable` cannot apply its rules. -/
def unprivileged : Background String String :=
  .new (.new []) "direct" {} none 3 none [] 0

/-- `enable` up to the error it records. -/
def failedEnable : List BackgroundAction :=
  [.fullAnon .callEnable, .fullAnon (.step 0 .go), .fullAnon (.step 0 (.identified .notRun)),
    .fullAnon (.step 0 .go)]

/-- The error of an `enable`, after a turn of the loop and a `disable`. -/
theorem shown_failedEnable :
    ∃ (s : Background String String) (g : Option (Attempt × ℕ × String)),
      g = some (.fullAnon .enable, 0, "full anonymization: failed to run `id -u`") ∧
      Shown s g := by
  obtain ⟨⟨s, g⟩, hreach, hg⟩ := Machine.exists_reach_of_exec
    (m := (backgrounding Arti.plain).watch noteError) (G := fun p a => Relevant p.1 p.2 a)
    (s := (unprivileged, none))
    (P := fun p => p.2 = some (.fullAnon .enable, 0, "full anonymization: failed to run `id -u`"))
    (failedEnable ++ [.bridges (.run .go), .fullAnon .callDisable,
      .fullAnon (.step 1 (.identified .notRun))]) (by decide)
  exact ⟨s, g, hg, (shown_of_relevant Arti.plain unprivileged s g hreach).1⟩

/-- The error of an `enable`, wiped out by adding a bridge. -/
theorem not_shown_addBridge :
    ∃ (s : Background String String) (g : Option (Attempt × ℕ × String)),
      ((backgrounding Arti.plain).watch noteError).Reach Machine.anyStep (unprivileged, none)
        (s, g) ∧
      g = some (.fullAnon .enable, 0, "full anonymization: failed to run `id -u`") ∧
      s.telemetry.lastError = none ∧ ¬ Shown s g := by
  obtain ⟨⟨s, g⟩, hreach, hg, hnone⟩ := Machine.exists_reach_of_exec
    (m := (backgrounding Arti.plain).watch noteError) (G := Machine.anyStep)
    (s := (unprivileged, none))
    (P := fun p => p.2 = some (.fullAnon .enable, 0, "full anonymization: failed to run `id -u`") ∧
      p.1.telemetry.lastError = none)
    (failedEnable ++ [.bridges (.call addedLine), .bridges (.add 0 .go)]) (by decide)
  refine ⟨s, g, hreach, hg, hnone, ?_⟩
  intro hshown
  cases hnone.symm.trans (hshown _ _ hg)

end Anonet.Tui
