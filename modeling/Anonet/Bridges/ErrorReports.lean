import Anonet.Bridges.Coordinator

/-!
# Which failures of a new bridge are shown

The dashboard throws away what `try_add_bridge` returns; the user learns why a bridge
was not activated from `last_error`, if the call puts it there.

* `RunStep.lastError`, `AddStep.lastError` — all that the coordinator does to
  `last_error`.
* `Explained` — `last_error` is what the call has recorded of the error it returned.
* `explained_iff` — **a failed call explains itself unless its bridge was healthy but
  could not be used.**
-/

namespace Anonet.Bridges

open Telemetry

variable {β γ : Type}

/-! ## `last_error` -/

section LastError

variable {arti : Arti β γ} {s s' : Coordinator β γ} {e : Event}

/-- The loop never touches it. -/
theorem RunStep.lastError (h : RunStep arti s e s') :
    s'.telemetry.lastError = s.telemetry.lastError := by
  cases h with
  | pass | miss | next | hit | exhaust =>
    exact HealthStatus.lastError_recordCandidateResult _ _ _ _ _ _
  | _ => rfl

/-- What a step of a call that is at this place does to it. -/
def AddPc.errorOp (now : ℕ) : AddPc β γ → ErrorOp
  | .entered _ => .clear
  | .failing msg => .record now msg
  | _ => .keep

/-- A call clears it at its start and records an error at one place. -/
theorem AddStep.lastError {pc pc' : AddPc β γ} (h : AddStep arti s pc e pc' s') :
    s'.telemetry.lastError = (pc.errorOp s.now).apply s.telemetry.lastError := by
  cases h with
  | pass | miss => exact HealthStatus.lastError_recordCandidateResult _ _ _ _ _ _
  | _ => rfl

end LastError

/-! ## One call -/

/-- The error the call has returned. -/
def AddPc.error? : AddPc β γ → Option String
  | .returned (.error msg) => some msg
  | _ => none

theorem AddPc.eq_of_error? {pc : AddPc β γ} {msg : String} (h : pc.error? = some msg) :
    pc = .returned (.error msg) := by
  unfold AddPc.error? at h
  split at h <;> cases h
  rfl

/-- What is remembered of a call: the error it recorded, as long as it has not touched
`last_error` since, and whether its bridge passed its check in vain. -/
structure CallReport where
  recorded : Option (ℕ × String)
  unusable : Bool

def CallReport.start : CallReport := ⟨none, false⟩

/-- A call at this place learns that its bridge, though healthy, cannot be used: there is
no configuration for it, or the client does not come up. -/
def AddPc.findsUnusable (arti : Arti β γ) (manager : BridgeManager β) : AddPc β γ → Event → Bool
  | .configuring idx, .go => !(manager.productionConfig arti idx).isOk
  | .bootstrapping _ _, .bootstrapped ok => !ok
  | _, _ => false

section Call

variable (arti : Arti β γ) (i : ℕ)

/-- What a step adds to the report of call `i`. -/
def noteReport (s : Coordinator β γ) (a : Action) (s' : Coordinator β γ) (g : CallReport) :
    CallReport :=
  match a with
  | .add j e =>
    if j = i then
      ⟨if s'.telemetry.lastError = s.telemetry.lastError then g.recorded
        else s'.telemetry.lastError,
        g.unusable || s.adds[i]?.any (·.findsUnusable arti s.manager e)⟩
    else g
  | _ => g

/-- The action is a step of call `i`. -/
def Action.isOf (a : Action) : Bool :=
  match a with
  | .add j _ => j = i
  | _ => false

/-- Nobody but call `i` writes the telemetry record. -/
def Undisturbed (s : Coordinator β γ) (a : Action) : Prop :=
  a.isOf i = true ∨ ∀ s' ∈ s.step arti a, s'.telemetry = s.telemetry

instance (s : Coordinator β γ) (a : Action) : Decidable (Undisturbed arti i s a) :=
  inferInstanceAs (Decidable (_ ∨ _))

end Call

/-- `last_error` is the error `msg`, and the call has recorded it. -/
def Explained (s : Coordinator β γ) (g : CallReport) (msg : String) : Prop :=
  ∃ time, g.recorded = some (time, msg) ∧ s.telemetry.lastError = some (time, msg)

/-! ## The call step by step -/

/-- What is known of `last_error` and of the report when the call is at `pc`. -/
def AddPc.Reported (pc : AddPc β γ) (lastError : Option (ℕ × String)) (g : CallReport) : Prop :=
  match pc with
  | .entered _ => g = .start
  | .returned (.error msg) =>
    g.unusable = false ∧ (∃ time, g.recorded = some (time, msg) ∧ lastError = some (time, msg)) ∨
      g.unusable = true ∧ lastError = none
  | .returned (.ok _) => True
  | _ => g = .start ∧ lastError = none

section Reported

variable {arti : Arti β γ} {s s' : Coordinator β γ} {i : ℕ} {a : Action} {e : Event}
  {pc pc' : AddPc β γ} {g : CallReport}

/-- The report after a step of the call. -/
theorem noteReport_add (hpc : s.adds[i]? = some pc) (adds : List (AddPc β γ)) :
    noteReport arti i s (.add i e) { s' with adds := adds } g =
      ⟨if s'.telemetry.lastError = s.telemetry.lastError then g.recorded
        else s'.telemetry.lastError, g.unusable || pc.findsUnusable arti s.manager e⟩ := by
  rw [noteReport, if_pos rfl, hpc, Option.any_some]

/-- **The step lemma of the call itself.** -/
theorem AddPc.Reported.step (hr : pc.Reported s.telemetry.lastError g)
    (hpc : s.adds[i]? = some pc) (h : AddStep arti s pc e pc' s') (adds : List (AddPc β γ)) :
    pc'.Reported s'.telemetry.lastError
      (noteReport arti i s (.add i e) { s' with adds := adds } g) := by
  have hlast := h.lastError
  rw [noteReport_add hpc]
  -- a step that leaves the record alone and finds nothing leaves the report alone
  have hquiet : s'.telemetry.lastError = s.telemetry.lastError →
      pc.findsUnusable arti s.manager e = false →
      (⟨if s'.telemetry.lastError = s.telemetry.lastError then g.recorded
        else s'.telemetry.lastError, g.unusable || pc.findsUnusable arti s.manager e⟩ :
          CallReport) = g := by
    intro hsame hfinds
    rw [if_pos hsame, hfinds, Bool.or_false]
  cases h with
  | enter =>
    cases hr
    refine ⟨?_, hlast⟩
    rw [hlast]
    exact congrArg (CallReport.mk · false) (ite_self none)
  | prepare | reject | push | start | pass | miss | replace | store =>
    rw [hquiet hlast rfl, hlast]
    exact hr
  | configure hconfig =>
    rw [hquiet hlast (by simp [AddPc.findsUnusable, hconfig, Except.isOk, Except.toBool]), hlast]
    exact hr
  | boot =>
    rw [hquiet hlast rfl, hlast]
    exact hr
  | fail =>
    obtain ⟨rfl, hnone⟩ := hr
    refine .inl ⟨rfl, s.now, ?_, hlast⟩
    rw [hlast, hnone]
    rfl
  | noConfig hconfig =>
    obtain ⟨rfl, hnone⟩ := hr
    refine .inr ⟨?_, hlast.trans hnone⟩
    simp [AddPc.findsUnusable, hconfig, Except.isOk, Except.toBool]
  | noBoot =>
    obtain ⟨rfl, hnone⟩ := hr
    exact .inr ⟨rfl, hlast.trans hnone⟩
  | report => trivial

/-- **The step lemma.** -/
theorem reported_step (hr : ∃ pc, s.adds[i]? = some pc ∧ pc.Reported s.telemetry.lastError g)
    (hg : Undisturbed arti i s a) (h : s.step arti a = some s') :
    ∃ pc, s'.adds[i]? = some pc ∧
      pc.Reported s'.telemetry.lastError (noteReport arti i s a s' g) := by
  obtain ⟨pc, hpc, hr⟩ := hr
  rcases adds_step h hpc with ⟨hother, hpc'⟩ | ⟨e, pc', s₁, rfl, hadd, rfl, hpc'⟩
  · have hnot : a.isOf i = false := by
      cases a with
      | add j e =>
        refine decide_eq_false ?_
        rintro rfl
        exact hother e rfl
      | _ => rfl
    have htel : s'.telemetry = s.telemetry := by
      rcases hg with hof | hsame
      · rw [hnot] at hof
        cases hof
      · exact hsame s' h
    have hnote : noteReport arti i s a s' g = g := by
      cases a with
      | add j e => exact if_neg (of_decide_eq_false hnot)
      | _ => rfl
    rw [hnote, htel]
    exact ⟨pc, hpc', hr⟩
  · exact ⟨pc', hpc', hr.step hpc hadd _⟩

end Reported

/-- **A failed call explains itself unless its bridge was healthy but could not be
used.**  Whatever the line, its parsing, the search for its transport, its check, its
configuration and its bootstrap, as long as nobody else writes the telemetry record: when
the call has returned an error, `last_error` is that error, recorded by the call, if and
only if it did not come from the configuration or the bootstrap. -/
theorem explained_iff (arti : Arti β γ) (i : ℕ) (line msg : String) (s₀ s : Coordinator β γ)
    (g : CallReport) (hentered : s₀.adds[i]? = some (.entered line))
    (h : ((coordinating arti).watch (noteReport arti i)).Reach (fun p a => Undisturbed arti i p.1 a)
      (s₀, .start) (s, g))
    (hreturned : s.adds[i]? = some (.returned (.error msg))) :
    Explained s g msg ↔ g.unusable = false := by
  have hinv : ∃ pc, s.adds[i]? = some pc ∧ pc.Reported s.telemetry.lastError g := by
    refine h.invariant
      (I := fun p => ∃ pc, p.1.adds[i]? = some pc ∧ pc.Reported p.1.telemetry.lastError p.2) ?_ ?_
    · exact ⟨_, hentered, rfl⟩
    · intro p a q hr hg hs
      obtain ⟨hstep, hnote⟩ := Machine.watch_step.mp hs
      rw [hnote]
      exact reported_step hr hg hstep
  obtain ⟨pc, hpc, hr⟩ := hinv
  cases hreturned.symm.trans hpc
  rcases hr with ⟨husable, hexplained⟩ | ⟨hunusable, hnone⟩
  · exact iff_of_true hexplained husable
  · refine iff_of_false ?_ (by simp [hunusable])
    rintro ⟨time, -, hlast⟩
    rw [hnone] at hlast
    cases hlast

/-- A coordinator on which `try_add_bridge` has just been called. -/
def calledOnce (line : String) : Coordinator String String :=
  { (.new (.new []) "direct" {} none 3 0 : Coordinator String String) with adds := [.entered line] }

/-- A bridge that fails its check, while the loop is idle. -/
theorem explained_unhealthy :
    ∃ (s : Coordinator String String) (g : CallReport) (msg : String),
      s.adds[0]?.bind AddPc.error? = some msg ∧ Explained s g msg := by
  obtain ⟨⟨s, g⟩, hreach, hreturned, husable⟩ := Machine.exists_reach_of_exec
    (m := (coordinating Arti.plain).watch (noteReport Arti.plain 0))
    (G := fun p a => Undisturbed Arti.plain 0 p.1 a) (s := (calledOnce addedLine, .start))
    (P := fun p => (p.1.adds[0]?.bind AddPc.error?).isSome = true ∧ p.2.unusable = false)
    [.add 0 .go, .add 0 (.searched .empty), .run .go, .add 0 .go, .add 0 .go,
      .add 0 (.checked (.connectTimedOut 0)), .add 0 .go] (by decide)
  obtain ⟨msg, hmsg⟩ := Option.isSome_iff_exists.mp hreturned
  obtain ⟨pc, hpc, herror⟩ := Option.bind_eq_some_iff.mp hmsg
  refine ⟨s, g, msg, hmsg, ?_⟩
  exact (explained_iff Arti.plain 0 addedLine msg _ s g rfl hreach
    (AddPc.eq_of_error? herror ▸ hpc)).mpr husable

/-- A healthy bridge whose client does not come up: the call fails and `last_error` is
empty. -/
theorem not_explained_noBootstrap :
    ∃ (s : Coordinator String String) (g : CallReport),
      ((coordinating Arti.plain).watch (noteReport Arti.plain 0)).Reach
        (fun p a => Undisturbed Arti.plain 0 p.1 a) (calledOnce addedLine, .start) (s, g) ∧
      s.adds[0]?.bind AddPc.error? = some "failed to bootstrap Tor client" ∧
      s.telemetry.lastError = none ∧ ∀ msg, ¬ Explained s g msg := by
  obtain ⟨⟨s, g⟩, hreach, hreturned, hnone⟩ := Machine.exists_reach_of_exec
    (m := (coordinating Arti.plain).watch (noteReport Arti.plain 0))
    (G := fun p a => Undisturbed Arti.plain 0 p.1 a) (s := (calledOnce addedLine, .start))
    (P := fun p => p.1.adds[0]?.bind AddPc.error? = some "failed to bootstrap Tor client" ∧
      p.1.telemetry.lastError = none)
    [.add 0 .go, .add 0 (.searched .empty), .add 0 .go, .add 0 .go,
      .add 0 (.checked (.connected 0)), .add 0 .go, .add 0 (.bootstrapped false)] (by decide)
  refine ⟨s, g, hreach, hreturned, hnone, ?_⟩
  rintro msg ⟨time, -, hlast⟩
  cases hnone.symm.trans hlast

end Anonet.Bridges
