import Anonet.Transparent.FullAnon

/-!
# Who holds the supervisor's mutex

The controller locks the supervisor to start tor, to stop it and to ask whether it is
running; only the first is long, since `enable` keeps the mutex until tor has
bootstrapped.

* `Call.holdsMutex` — the places at which a call holds it.
* `MutexOwned` — the invariant: the recorded holder is the one call at such a place.
* `HeldForBootstrap` — an `enable` holds it while it reads tor's output;
  `heldForBootstrap_of_step` and `HeldForBootstrap.step` say how that begins and that
  only tor, or the time limit, ends it.
-/

namespace Anonet.Transparent

/-- The places at which a call holds the mutex. -/
def Call.holdsMutex : Call → Bool
  | .enable (.bootstrapping _ _ _) | .enable (.killing _) | .enable (.releasing _)
  | .disable .releasing => true
  | _ => false

/-- The call reads tor's output. -/
def Call.bootstraps : Call → Bool
  | .enable (.bootstrapping _ _ _) => true
  | _ => false

/-- The step spawns tor. -/
def Call.launches (supervisor : TorSupervisor) : Call → Event → Bool
  | .enable (.locking _), .spawned o => (supervisor.launch o).isOk
  | _, _ => false

/-- The holder of the mutex is the one call at such a place. -/
def MutexOwned (s : FullAnonController) : Prop :=
  ∀ i, s.holder = some i ↔ ∃ c, s.calls[i]? = some c ∧ c.holdsMutex = true

/-- An `enable` holds the mutex across tor's bootstrap. -/
def HeldForBootstrap (s : FullAnonController) : Prop :=
  ∃ i ∈ s.holder, ∃ c ∈ s.calls[i]?, c.bootstraps = true

instance (s : FullAnonController) : Decidable (HeldForBootstrap s) :=
  inferInstanceAs (Decidable (∃ i ∈ s.holder, ∃ c ∈ s.calls[i]?, c.bootstraps = true))

/-- The event tells of tor, or of the end of its time. -/
def Event.isTor : Event → Bool
  | .tor _ => true
  | _ => false

theorem Call.holdsMutex_of_bootstraps {c : Call} (h : c.bootstraps = true) :
    c.holdsMutex = true := by
  unfold Call.bootstraps at h
  split at h
  · rfl
  · cases h

section Steps

variable {s s' : FullAnonController} {a : Action} {i : ℕ} {c c' : Call} {e : Event}

/-- **What a step of call `i` does to the mutex**: it takes it when it is free, leaves it
as it is, or gives it back. -/
theorem CallStep.mutex (h : CallStep s i c e c' s') :
    (c.holdsMutex = false ∧ c'.holdsMutex = true ∧ s.holder = none ∧ s'.holder = some i) ∨
    (c'.holdsMutex = c.holdsMutex ∧ s'.holder = s.holder) ∨
    (c.holdsMutex = true ∧ c'.holdsMutex = false ∧ s'.holder = none) := by
  cases h with
  | launch hfree | rollbackStop hfree | stop hfree => exact .inl ⟨rfl, rfl, hfree, rfl⟩
  | started | killed | rollbackRelease | release => exact .inr (.inr ⟨rfl, rfl, rfl⟩)
  | _ => exact .inr (.inl ⟨rfl, rfl⟩)

theorem mutexOwned_nil (h : s.holder = none) (hcalls : s.calls = []) : MutexOwned s := by
  intro i
  simp [h, hcalls]

/-- Call `i` has moved from `c` to `c'`. -/
theorem MutexOwned.call (h : MutexOwned s) (hc : s.calls[i]? = some c)
    (hstep : CallStep s i c e c' s') :
    MutexOwned { s' with calls := s.calls.set i c' } := by
  intro j
  show s'.holder = some j ↔ ∃ d, (s.calls.set i c')[j]? = some d ∧ d.holdsMutex = true
  have hself : (s.calls.set i c')[i]? = some c' := Machine.getElem?_set_self_of_some hc
  have hown : s.holder = some i ↔ c.holdsMutex = true := by
    rw [h i, hc]
    simp
  have hafter : (∃ d, (s.calls.set i c')[i]? = some d ∧ d.holdsMutex = true) ↔
      c'.holdsMutex = true := by
    rw [hself]
    simp
  by_cases hij : i = j
  · subst hij
    rw [hafter]
    rcases hstep.mutex with ⟨-, hc', -, hs'⟩ | ⟨hsame, hs'⟩ | ⟨-, hc', hs'⟩
    · exact iff_of_true hs' hc'
    · rw [hs', hown, hsame]
    · exact iff_of_false (by simp [hs']) (by simp [hc'])
  · rw [List.getElem?_set_ne hij, ← h j]
    rcases hstep.mutex with ⟨-, -, hs, hs'⟩ | ⟨-, hs'⟩ | ⟨hc₁, -, hs'⟩
    · exact iff_of_false (by simp [hs', hij]) (by simp [hs])
    · rw [hs']
    · -- it was call `i` that held the mutex
      exact iff_of_false (by simp [hs']) (by simp [hown.mpr hc₁, hij])

/-- **The step lemma.** -/
theorem MutexOwned.step (h : MutexOwned s) (hs : s.step a = some s') : MutexOwned s' := by
  have hspawn : ∀ c : Call, c.holdsMutex = false → MutexOwned (s.spawn c) := by
    intro c hc i
    refine (h i).trans ⟨?_, ?_⟩
    · rintro ⟨d, hd, hholds⟩
      exact ⟨d, (List.getElem?_append_left (List.getElem?_eq_some_iff.mp hd).1).trans hd, hholds⟩
    · rintro ⟨d, hd, hholds⟩
      rcases Machine.getElem?_concat_cases hd with hd | ⟨-, rfl⟩
      · exact ⟨d, hd, hholds⟩
      · rw [hc] at hholds
        cases hholds
  cases a with
  | callEnable | callDisable =>
    cases hs
    exact hspawn _ rfl
  | step i e =>
    obtain ⟨c, c', s₁, hc, hstep, rfl⟩ := callStep_of_step hs
    rw [hstep.calls_eq]
    exact h.call hc hstep
  | tick nanos =>
    cases hs
    exact h

/-- **How it begins**: a call spawns tor. -/
theorem heldForBootstrap_of_step (hs : s.step a = some s') (h : HeldForBootstrap s')
    (hown : MutexOwned s) :
    HeldForBootstrap s ∨ ∃ i e c, a = .step i e ∧ s.calls[i]? = some c ∧
      c.launches s.supervisor e = true := by
  obtain ⟨j, hj, d, hd, hboots⟩ := h
  cases a with
  | callEnable | callDisable =>
    cases hs
    rcases Machine.getElem?_concat_cases hd with hd | ⟨-, rfl⟩
    · exact .inl ⟨j, hj, d, hd, hboots⟩
    · cases hboots
  | step i e =>
    obtain ⟨c, c', s₁, hc, hstep, rfl⟩ := callStep_of_step hs
    replace hd : (s.calls.set i c')[j]? = some d := hstep.calls_eq ▸ hd
    rcases Machine.getElem?_set_cases hd with ⟨hji, hd⟩ | ⟨rfl, rfl⟩
    · -- another call reads tor's output, so the mutex was its already
      have hheld : s.holder = some j :=
        (hown j).mpr ⟨d, hd, Call.holdsMutex_of_bootstraps hboots⟩
      exact .inl ⟨j, hheld, d, hd, hboots⟩
    · cases hstep with
      | launch hfree hlaunch =>
        refine .inr ⟨j, _, _, rfl, hc, ?_⟩
        simp [Call.launches, hlaunch, Except.isOk, Except.toBool]
      | read he => exact .inl ⟨j, hj, _, hc, rfl⟩
      | _ => cases hboots
  | tick nanos =>
    cases hs
    exact .inl ⟨j, hj, d, hd, hboots⟩

/-- A call that spawns tor keeps the mutex. -/
theorem heldForBootstrap_of_launches (hs : s.step (.step i e) = some s')
    (hc : s.calls[i]? = some c) (h : c.launches s.supervisor e = true) : HeldForBootstrap s' := by
  obtain ⟨d, d', s₁, hd, hstep, rfl⟩ := callStep_of_step hs
  cases hc.symm.trans hd
  cases hstep with
  | launch hfree hlaunch =>
    exact ⟨i, rfl, _, Machine.getElem?_set_self_of_some hc, rfl⟩
  | noLaunch hfree hlaunch =>
    simp [Call.launches, hlaunch, Except.isOk, Except.toBool] at h
  | _ => cases h

/-- **Only tor, or the time limit, ends it.** -/
theorem HeldForBootstrap.step (h : HeldForBootstrap s) (hown : MutexOwned s)
    (hs : s.step a = some s') (htor : ∀ i e, a = .step i e → e.isTor = false) :
    HeldForBootstrap s' := by
  obtain ⟨j, hj, d, hd, hboots⟩ := h
  cases a with
  | callEnable | callDisable =>
    cases hs
    exact ⟨j, hj, d, (List.getElem?_append_left (List.getElem?_eq_some_iff.mp hd).1).trans hd,
      hboots⟩
  | step i e =>
    obtain ⟨c, c', s₁, hc, hstep, rfl⟩ := callStep_of_step hs
    have hnot : e.isTor = false := htor i e rfl
    by_cases hij : i = j
    · subst hij
      cases hc.symm.trans hd
      cases hstep with
      | read | started | noBootstrap => cases hnot
      | _ => cases hboots
    · have hmutex : s₁.holder = some j := by
        rcases hstep.mutex with ⟨-, -, hfree, -⟩ | ⟨-, hsame⟩ | ⟨hholds, -, -⟩
        · cases hfree.symm.trans hj
        · rw [hsame]
          exact hj
        · have hi : s.holder = some i := (hown i).mpr ⟨c, hc, hholds⟩
          exact absurd (Option.some.inj (hi.symm.trans hj)) hij
      refine ⟨j, hmutex, d, ?_, hboots⟩
      show (s₁.calls.set i c')[j]? = some d
      rw [List.getElem?_set_ne hij, hstep.calls_eq]
      exact hd
  | tick nanos =>
    cases hs
    exact ⟨j, hj, d, hd, hboots⟩

/-- A holder that does not wait for tor gives the mutex back by itself. -/
theorem exists_release (hown : MutexOwned s) (hheld : s.holder = some i)
    (hnot : ¬ HeldForBootstrap s) : ∃ s', s.step (.step i .go) = some s' ∧ s'.holder = none := by
  obtain ⟨c, hc, hholds⟩ := (hown i).mp hheld
  have hboots : c.bootstraps = false := by
    refine Bool.eq_false_iff.mpr ?_
    intro hboots
    exact hnot ⟨i, hheld, c, hc, hboots⟩
  cases c with
  | enable pc =>
    cases pc with
    | bootstrapping => cases hboots
    | killing err | releasing err =>
      refine ⟨{ s.unlock with calls := s.calls.set i (.enable (.failing err)) }, ?_, rfl⟩
      rw [FullAnonController.step, hc]
      rfl
    | _ => cases hholds
  | disable pc =>
    cases pc with
    | releasing =>
      refine ⟨{ s.unlock with calls := s.calls.set i (.disable .flagging) }, ?_, rfl⟩
      rw [FullAnonController.step, hc]
      rfl
    | _ => cases hholds

end Steps

end Anonet.Transparent
