import Anonet.Transparent.Toggle

/-!
# A failed call leaves nothing behind

Calls of `enable` and `disable` one after the other, any of whose commands may
fail; only a delete does what it is asked.  `enable` takes back what it did by
name, one branch for each place it can fail at, so it has to know that none of it
was there before.

* `Setup` — what a caller can tell apart: tor, the tables and the flag.
* `Phase` — what is known of the setup while a call is under way, in terms of the
  one it found; `CallStep.phase` is the step lemma, one case for each way to go.
* `enable_restores` — **a failed `enable` leaves the setup it found, and at no
  moment is there a redirect without tor.**
-/

namespace Anonet.Transparent

open Leakguard Nft Telemetry

/-! ## The setup -/

/-- Whether tor is running, the tables, and the flag the dashboard shows. -/
structure Setup where
  running : Bool
  ruleset : Ruleset
  enabled : Bool
  deriving DecidableEq

def FullAnonController.setup (s : FullAnonController) : Setup :=
  ⟨s.supervisor.isRunning, s.ruleset, s.telemetry.transparentEnabled⟩

/-- The redirect is installed only while tor is running. -/
def Setup.Covered (u : Setup) : Prop := u.ruleset.has transparentTable → u.running = true

instance (u : Setup) : Decidable u.Covered :=
  inferInstanceAs (Decidable (_ → _))

section Setup

variable {s : FullAnonController}

@[simp] theorem setup_unlock : s.unlock.setup = s.setup := rfl

@[simp] theorem setup_takeChild : s.takeChild.setup = { s.setup with running := false } := rfl

@[simp] theorem setup_storeChild {child : TorChild} :
    (s.storeChild child).setup = { s.setup with running := true } := rfl

@[simp] theorem setup_setRuleset {rs : Ruleset} :
    (s.setRuleset rs).setup = { s.setup with ruleset := rs } := rfl

/-- tor is spawned only where none is running. -/
theorem not_running_of_launch {o : SpawnOutcome} {child : TorChild}
    (h : s.supervisor.launch o = .ok child) : s.setup.running = false := by
  show s.supervisor.child.isSome = false
  rw [TorSupervisor.child_of_launch h]
  rfl

end Setup

/-! ## One call at a time -/

/-- If the step deletes a table, then `nft` does what it is asked. -/
def Event.DeleteSucceeds (op : Option TableOp) (rs : Ruleset) (e : Event) : Prop :=
  match op with
  | some (.delete _) => e.NftSucceeds op rs
  | _ => True

instance (op : Option TableOp) (rs : Ruleset) (e : Event) : Decidable (e.DeleteSucceeds op rs) :=
  match op with
  | some (.delete t) => inferInstanceAs (Decidable (e.NftSucceeds (some (.delete t)) rs))
  | some (.load _) | none => inferInstanceAs (Decidable True)

/-- Every delete the action runs succeeds. -/
def DeleteSucceeds (s : FullAnonController) (a : Action) : Prop :=
  match a with
  | .step i e => ∀ c ∈ s.calls[i]?, e.DeleteSucceeds c.tableOp s.ruleset
  | _ => True

instance (s : FullAnonController) (a : Action) : Decidable (DeleteSucceeds s a) :=
  match a with
  | .step i e => inferInstanceAs (Decidable (∀ c ∈ s.calls[i]?, e.DeleteSucceeds c.tableOp s.ruleset))
  | .callEnable | .callDisable | .tick _ => inferInstanceAs (Decidable True)

/-- The action begins a call. -/
def Action.Begins (a : Action) : Prop := a = .callEnable ∨ a = .callDisable

instance (a : Action) : Decidable a.Begins := inferInstanceAs (Decidable (_ ∨ _))

/-- Calls do not overlap: each begins when no other is in progress. -/
def OneByOne (s : FullAnonController) (a : Action) : Prop :=
  DeleteSucceeds s a ∧ (a.Begins → Idle s)

instance (s : FullAnonController) (a : Action) : Decidable (OneByOne s a) :=
  inferInstanceAs (Decidable (_ ∧ (_ → _)))

/-- Nothing but what has begun goes on. -/
def GoesOn (s : FullAnonController) (a : Action) : Prop := DeleteSucceeds s a ∧ ¬ a.Begins

instance (s : FullAnonController) (a : Action) : Decidable (GoesOn s a) :=
  inferInstanceAs (Decidable (_ ∧ ¬ _))

/-! ## While a call is under way -/

/-- What is known of the state `s` of a call that began in `s₀`, place by place. -/
def Phase (s₀ s : FullAnonController) : Call → Prop
  | .enable .entered | .enable .identifying | .enable (.locking _) | .enable (.releasing _)
  | .enable (.failing _) => s.setup = s₀.setup
  | .enable (.bootstrapping _ _ _) | .enable (.killing _) =>
    s.setup = s₀.setup ∧ s₀.setup.running = false
  | .enable (.redirecting _) | .enable (.stopping _) =>
    s.setup = { s₀.setup with running := true } ∧ s₀.setup.running = false
  | .enable (.switching _) | .enable (.unredirecting _ _) =>
    { s.setup with ruleset := s.ruleset.delete transparentTable } =
        { s₀.setup with running := true } ∧
      s₀.setup.running = false
  | .enable .flagging | .enable (.returned (.ok _)) => s.setup.running = true
  | .enable (.returned (.error err)) =>
    s.setup = s₀.setup ∧
      ∃ t, s.telemetry.lastError = some (t, s!"full anonymization: {err}")
  | .disable .entered | .disable (.unredirecting _) => s.setup = s₀.setup
  | .disable _ => ¬ s.ruleset.has transparentTable

section Phase

variable {s₀ s s' : FullAnonController} {i : ℕ} {c c' : Call} {e : Event}

/-- A setup without tor has no redirect. -/
theorem Setup.Covered.not_has {u : Setup} (h : u.Covered) (hrunning : u.running = false) :
    ¬ u.ruleset.has transparentTable := by
  intro hhas
  rw [h hhas] at hrunning
  cases hrunning

/-- Wherever a call is, it has not left a redirect without tor. -/
theorem Phase.covered (h₀ : s₀.setup.Covered) (hp : Phase s₀ s c) : s.setup.Covered := by
  have hsame : s.setup = s₀.setup → s.setup.Covered := fun h => h ▸ h₀
  cases c with
  | enable pc =>
    cases pc with
    | entered | identifying | locking | releasing | failing => exact hsame hp
    | bootstrapping | killing => exact hsame hp.1
    | redirecting | stopping => exact fun _ => congrArg Setup.running hp.1
    | switching | unredirecting => exact fun _ => congrArg Setup.running hp.1
    | flagging => exact fun _ => hp
    | returned result =>
      cases result with
      | ok => exact fun _ => hp
      | error err => exact hsame hp.1
  | disable pc =>
    cases pc with
    | entered | unredirecting => exact hsame hp
    | _ => exact fun hhas => absurd hhas hp

/-- **The step lemma**, one case for each way a call can go. -/
theorem CallStep.phase (h : CallStep s i c e c' s')
    (hok : e.DeleteSucceeds c.tableOp s.ruleset) (h₀ : s₀.setup.Covered)
    (hp : Phase s₀ s c) : Phase s₀ s' c' := by
  cases h with
  | enter | identify | noUid | noLaunch | leave => exact hp
  | launch hfree hlaunch => exact ⟨hp, hp ▸ not_running_of_launch hlaunch⟩
  | read he => exact hp
  | started he =>
    obtain ⟨hsetup, hrunning⟩ := hp
    refine ⟨?_, hrunning⟩
    rw [setup_unlock, setup_storeChild, hsetup]
  | noBootstrap he htime => exact hp
  | killed => exact hp.1
  | @redirect uid o rs hnft =>
    obtain ⟨hsetup, hrunning⟩ := hp
    have hrs : s.ruleset = s₀.ruleset := congrArg Setup.ruleset hsetup
    cases o with
    | notRun | err => cases hnft
    | ok =>
      cases hnft
      refine ⟨?_, hrunning⟩
      -- there was no redirect before, so deleting this one gives the old tables back
      have habsent : ¬ s.ruleset.has transparentTable := hrs ▸ h₀.not_has hrunning
      have hback : (s.ruleset.load (s.redirect uid).rules).delete transparentTable =
          s₀.ruleset :=
        (Ruleset.delete_load (t := (s.redirect uid).rules) habsent).trans hrs
      rw [← hsetup]
      show Setup.mk _ ((s.ruleset.load (s.redirect uid).rules).delete transparentTable) _ = _
      rw [hback, ← hrs]
      rfl
  | @noRedirect uid o rs err hnft =>
    obtain rfl : rs = s.ruleset := eq_of_loadTable_error hnft
    exact hp
  | switch hnft => exact congrArg Setup.running hp.1
  | @noSwitch uid o rs err hnft =>
    obtain rfl : rs = s.ruleset := eq_of_loadTable_error hnft
    exact hp
  | flag => exact hp
  | @rollback uid err o =>
    have hrs : ((s.redirect uid).disable o s.ruleset).2 = s.ruleset.delete transparentTable :=
      deleteTable_snd hok
    refine ⟨?_, hp.2⟩
    rw [setup_setRuleset, hrs]
    exact hp.1
  | rollbackStop hfree =>
    obtain ⟨hsetup, hrunning⟩ := hp
    show s.takeChild.setup = s₀.setup
    rw [setup_takeChild, hsetup, ← hrunning]
  | rollbackRelease => exact hp
  | fail => exact ⟨hp, s.now, rfl⟩
  | @unredirect uid o =>
    have hrs : ((s.redirect uid).disable o s.ruleset).2 = s.ruleset.delete transparentTable :=
      deleteTable_snd hok
    show ¬ Ruleset.has transparentTable ((s.redirect uid).disable o s.ruleset).2
    rw [hrs, Ruleset.has_delete]
    exact fun h => h.1 rfl
  | @unswitch uid o =>
    have hrs : ((KillSwitch.Radical uid).disable o s.ruleset).2 = s.ruleset.delete systemTable :=
      deleteTable_snd hok
    show ¬ Ruleset.has transparentTable ((KillSwitch.Radical uid).disable o s.ruleset).2
    rw [hrs, Ruleset.has_delete]
    exact fun h => hp h.2
  | stop | release | unflag => exact hp

end Phase

/-! ## Runs -/

/-- One call, which began in `s₀`, is under way or has returned; the others had
returned before. -/
def UnderWay (s₀ s : FullAnonController) : Prop :=
  Idle s₀ ∧ s₀.setup.Covered ∧ ∃ c, s.calls = s₀.calls ++ [c] ∧ Phase s₀ s c

section Runs

variable {s₀ s s' : FullAnonController} {a : Action}

/-- A call that has returned does nothing more. -/
theorem CallStep.not_returned {i : ℕ} {c c' : Call} {e : Event} (h : CallStep s i c e c' s') :
    ¬ c.Returned := by
  intro hc
  cases h <;> exact hc

/-- While nobody calls, only the clock moves. -/
theorem Idle.step (hidle : Idle s) (ha : ¬ a.Begins) (hs : s.step a = some s') :
    Idle s' ∧ s'.setup = s.setup := by
  cases a with
  | callEnable => exact absurd (.inl rfl) ha
  | callDisable => exact absurd (.inr rfl) ha
  | tick nanos =>
    obtain rfl := Option.some.inj hs
    exact ⟨hidle, rfl⟩
  | step i e =>
    obtain ⟨c, c', s₁, hi, hstep, -⟩ := callStep_of_step hs
    exact absurd (hidle c (List.mem_of_getElem? hi)) hstep.not_returned

/-- A new call begins where the others left. -/
theorem UnderWay.spawn {c : Call} (hidle : Idle s) (hcov : s.setup.Covered)
    (hc : c = .enable .entered ∨ c = .disable .entered) : UnderWay s (s.spawn c) := by
  refine ⟨hidle, hcov, c, rfl, ?_⟩
  rcases hc with rfl | rfl <;> rfl

/-- What goes on is the one call that is under way. -/
theorem UnderWay.step (h : UnderWay s₀ s) (ha : GoesOn s a) (hs : s.step a = some s') :
    UnderWay s₀ s' := by
  obtain ⟨hidle, hcov, c, hcalls, hp⟩ := h
  cases a with
  | callEnable => exact absurd (.inl rfl) ha.2
  | callDisable => exact absurd (.inr rfl) ha.2
  | tick nanos =>
    obtain rfl := Option.some.inj hs
    exact ⟨hidle, hcov, c, hcalls, hp⟩
  | step i e =>
    obtain ⟨d, d', s₁, hi, hstep, rfl⟩ := callStep_of_step hs
    have hd := hi
    rw [hcalls] at hd
    rcases Machine.getElem?_concat_cases hd with hold | ⟨rfl, rfl⟩
    · exact absurd (hidle d (List.mem_of_getElem? hold)) hstep.not_returned
    · refine ⟨hidle, hcov, d', ?_, ?_⟩
      · show s₁.calls.set s₀.calls.length d' = _
        rw [hstep.calls_eq, hcalls, List.set_append_right _ _ le_rfl, Nat.sub_self]
        rfl
      · exact hstep.phase (ha.1 d hi) hcov hp

/-- The run of one call. -/
theorem UnderWay.reach (h : UnderWay s₀ s) (hr : toggling.Reach GoesOn s s') : UnderWay s₀ s' :=
  hr.invariant (I := UnderWay s₀) h fun _ _ _ hi hg hs => hi.step hg hs

/-- There is no redirect without tor at any moment of calls that do not overlap. -/
theorem covered_of_oneByOne (hidle : Idle s₀) (hcov : s₀.setup.Covered)
    (h : toggling.Reach OneByOne s₀ s) : s.setup.Covered := by
  -- nobody has called yet, or the last call is under way or over
  have hinv : (Idle s ∧ s.setup.Covered) ∨ ∃ t, UnderWay t s := by
    refine h.invariant (I := fun s => (Idle s ∧ s.setup.Covered) ∨ ∃ t, UnderWay t s)
      (.inl ⟨hidle, hcov⟩) ?_
    intro s a s' hi hg hs
    have hscov : s.setup.Covered := by
      rcases hi with hi | ⟨t, -, htcov, c, -, hp⟩
      · exact hi.2
      · exact hp.covered htcov
    by_cases ha : a.Begins
    · refine .inr ⟨s, ?_⟩
      rcases ha with rfl | rfl
      · obtain rfl := Option.some.inj hs
        exact .spawn (hg.2 (.inl rfl)) hscov (.inl rfl)
      · obtain rfl := Option.some.inj hs
        exact .spawn (hg.2 (.inr rfl)) hscov (.inr rfl)
    · rcases hi with hi | ⟨t, ht⟩
      · obtain ⟨hidle', hsetup⟩ := hi.1.step ha hs
        exact .inl ⟨hidle', hsetup ▸ hi.2⟩
      · exact .inr ⟨t, ht.step ⟨hg.1, ha⟩ hs⟩
  rcases hinv with hinv | ⟨t, -, htcov, c, -, hp⟩
  · exact hinv.2
  · exact hp.covered htcov

end Runs

/-- **A failed `enable` takes back exactly what it did.**  In every run of
`enable` and `disable` calls that do not overlap, whose commands may fail but for
the deletes, from a controller without tor on a host without the redirect: the
redirect is there only while tor is running, and an `enable` that returns an error
leaves tor, all tables and the flag as they were when it was called, and says why
it failed. -/
theorem enable_restores (dataDir : Option String) (telemetry : HealthStatus) (ruleset : Ruleset)
    (now : ℕ) (hredirect : ¬ ruleset.has transparentTable) (s₁ : FullAnonController)
    (h₁ : toggling.Reach OneByOne (.new dataDir telemetry ruleset now) s₁) :
    s₁.setup.Covered ∧ (Idle s₁ → ∀ s₂ err,
      toggling.Reach GoesOn (s₁.spawn (.enable .entered)) s₂ →
      s₂.calls[s₁.calls.length]? = some (.enable (.returned (.error err))) →
      s₂.setup = s₁.setup ∧
        ∃ t, s₂.telemetry.lastError = some (t, s!"full anonymization: {err}")) := by
  have hcov : s₁.setup.Covered := by
    refine covered_of_oneByOne ?_ ?_ h₁
    · intro c hc
      exact absurd hc (by simp [FullAnonController.new])
    · exact fun hhas => absurd hhas hredirect
  refine ⟨hcov, ?_⟩
  intro hidle s₂ err h₂ herr
  obtain ⟨-, -, c, hcalls, hp⟩ := (UnderWay.spawn hidle hcov (.inl rfl)).reach h₂
  rw [hcalls, List.getElem?_concat_length] at herr
  obtain rfl := Option.some.inj herr
  exact hp

/-- The error a call has returned. -/
def Call.error : Call → Option String
  | .enable (.returned (.error err)) => some err
  | _ => none

theorem Call.eq_of_error {c : Call} {err : String} (h : c.error = some err) :
    c = .enable (.returned (.error err)) := by
  cases c with
  | disable pc => cases h
  | enable pc =>
    cases pc with
    | returned result =>
      cases result with
      | ok => cases h
      | error message =>
        cases h
        rfl
    | _ => cases h

/-- Call `i`, an `enable` on a controller whose tor is running. -/
def enableTwice (i : ℕ) : List Action :=
  [.step i .go, .step i (.identified (.printed "0\n")), .step i (.spawned .noTor), .step i .go]

/-- On a host with a radical kill switch of its own: an `enable` from beginning to
end, then another, which finds tor running. -/
theorem enable_restores_running :
    ∃ s₁ s₂ : FullAnonController, s₁.setup.running = true ∧ s₁.setup.enabled = true ∧
      s₂.setup = s₁.setup ∧
      ∃ t, s₂.telemetry.lastError = some (t, "full anonymization: tor is already running") := by
  obtain ⟨s₁, h₁, hidle, hrunning, henabled, hfails⟩ := Machine.exists_reach_of_exec
    (m := toggling) (G := OneByOne)
    (s := FullAnonController.new none {} [(KillSwitch.Radical 1000).rules] 0)
    (P := fun s => Idle s ∧ s.setup.running = true ∧ s.setup.enabled = true ∧
      (toggling.guardedExec GoesOn (s.spawn (.enable .entered)) (enableTwice 1)).any
        (fun t => decide (t.calls[s.calls.length]?.bind Call.error =
          some "tor is already running")) = true)
    (.callEnable :: enableAll 0) (by decide)
  obtain ⟨s₂, h₂, hreturned⟩ := Machine.exists_reach_of_exec (m := toggling) (G := GoesOn) _ hfails
  obtain ⟨c, hc, herror⟩ := Option.bind_eq_some_iff.mp hreturned
  obtain ⟨-, hrestores⟩ := enable_restores none {} [(KillSwitch.Radical 1000).rules] 0 (by decide)
    s₁ h₁
  obtain ⟨hsetup, hlast⟩ := hrestores hidle s₂ _ h₂ (Call.eq_of_error herror ▸ hc)
  exact ⟨s₁, s₂, hrunning, henabled, hsetup, hlast⟩

end Anonet.Transparent
