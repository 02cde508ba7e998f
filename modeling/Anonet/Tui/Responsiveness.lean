import Anonet.Transparent.SupervisorMutex
import Anonet.Tui.Dashboard

/-!
# When the dashboard hangs

Every refresh tick of the loop asks `is_running`, which locks the supervisor; `enable`
keeps it locked until tor has bootstrapped.  Keys are read by the same loop.

* `Waits` — the loop is blocked by an `enable` that waits for tor.
* `Responsive` — without any news from tor, the loop can still come to read a key, or
  has been quit.
* `responsive_iff` — it can unless it is in a tick while the mutex is held for tor.
* `responsive_of_apart` — **the loop stays responsive as long as ticks and bootstraps
  do not meet.**
-/

namespace Anonet.Tui

open Leakguard Net Nft Telemetry Transparent

/-! ## Waiting for the mutex -/

/-- The loop asks `is_running` now. -/
def LoopPc.asks : LoopPc → Bool
  | .starting | .polling => true
  | _ => false

/-- The loop asks `is_running` before it next reads a key. -/
def LoopPc.willAsk : LoopPc → Bool
  | .starting | .listingScoped true | .listingRadical true | .polling => true
  | _ => false

namespace Dashboard

def fullAnon (d : Dashboard) : FullAnonController := d.switches.fullAnon

/-- The loop waits for the mutex while an `enable` holds it across tor's bootstrap. -/
def Waits (d : Dashboard) : Prop := d.loop.asks = true ∧ HeldForBootstrap d.fullAnon

instance (d : Dashboard) : Decidable d.Waits := inferInstanceAs (Decidable (_ ∧ _))

/-- The session has been quit, or the loop reads the next key, whichever it is. -/
def TakesKeys (d : Dashboard) : Prop := d.loop = .exited ∨ ∀ code, (d.step (.key code)).isSome

end Dashboard

/-- No user, no clock of the loop, and no news from tor: the loop goes on, and what the
other tasks can do by themselves. -/
def DashboardAction.withoutTor : DashboardAction → Bool
  | .nft _ | .isRunning => true
  | .background (.fullAnon (.step _ e)) => !e.isTor
  | .background _ => true
  | _ => false

def Quietly (_d : Dashboard) (a : DashboardAction) : Prop := a.withoutTor = true

/-- Without any news from tor the loop can come to read the next key. -/
def Responsive (d : Dashboard) : Prop := ∃ d', dashboard.Reach Quietly d d' ∧ d'.TakesKeys

/-- A tick begins only while the mutex is not held for tor, and tor is spawned only
outside of ticks. -/
def Apart (d : Dashboard) (a : DashboardAction) : Prop :=
  match a with
  | .refreshTick => ¬ HeldForBootstrap d.fullAnon
  | .background (.fullAnon (.step i e)) => d.loop.willAsk = true →
      ∀ c ∈ d.fullAnon.calls[i]?, c.launches d.fullAnon.supervisor e = false
  | _ => True

instance (d : Dashboard) (a : DashboardAction) : Decidable (Apart d a) :=
  match a with
  | .refreshTick => inferInstanceAs (Decidable (¬ HeldForBootstrap d.fullAnon))
  | .background (.fullAnon (.step i e)) =>
    inferInstanceAs (Decidable (d.loop.willAsk = true →
      ∀ c ∈ d.fullAnon.calls[i]?, c.launches d.fullAnon.supervisor e = false))
  | .background (.fullAnon .callEnable) | .background (.fullAnon .callDisable)
  | .background (.fullAnon (.tick _)) | .background .radicalEnable | .background (.radical _ _)
  | .background .radicalDisable | .background (.removal _ _) | .background (.scopedEnable _ _)
  | .background (.scopedDisable _) | .key _ | .inputError _ | .endOfInput | .drawFails | .nft _
  | .isRunning => inferInstanceAs (Decidable True)

/-! ## Ticks and bootstraps -/

/-- What holds of the mutex and of the command a key awaits. -/
structure Sound (d : Dashboard) : Prop where
  owned : MutexOwned d.fullAnon
  removal : ∀ i, d.loop = .applying (.disableRadical i) →
    d.switches.removals[i]? = some .started

/-- The loop is in a tick while the mutex is held for tor. -/
def Meets (d : Dashboard) : Prop := d.loop.willAsk = true ∧ HeldForBootstrap d.fullAnon

section Sound

variable {d d' : Dashboard} {a : DashboardAction}

theorem willAsk_of_asks {pc : LoopPc} (h : pc.asks = true) : pc.willAsk = true := by
  unfold LoopPc.asks at h
  split at h
  · rfl
  · rfl
  · cases h

theorem MutexOwned.switches {s s' : Switches} {b : SwitchAction} (h : MutexOwned s.fullAnon)
    (hs : s.step b = some s') : MutexOwned s'.fullAnon := by
  rcases fullAnon_step hs with ⟨c, -, hc⟩ | ⟨-, rs, hrs⟩
  · exact h.step hc
  · rw [hrs]
    exact h

theorem removals_of_background {s s' : Switches} {b : SwitchAction} (hb : b.isBackground = true)
    (hs : s.step b = some s') : s'.removals = s.removals := by
  cases b with
  | fullAnon c =>
    obtain ⟨f, -, rfl⟩ := Option.map_eq_some_iff.mp hs
    rfl
  | radical i e =>
    obtain ⟨pc, pc', s₁, -, hstep, rfl⟩ := radicalStep_of_step hs
    cases hstep <;> rfl
  | radicalEnable | radicalDisable | removal | scopedEnable | scopedDisable => cases hb

/-- What a key sets going keeps the loop reading, ends it, or is a command it awaits. -/
theorem loop_perform (d : Dashboard) (effect : Effect) :
    (d.perform effect).loop = d.loop ∨ (d.perform effect).loop = .exited ∨
      ∃ op, (d.perform effect).loop = .applying op ∧
        ∀ i, op = .disableRadical i → (d.perform effect).switches.removals[i]? = some .started := by
  cases effect with
  | quit => exact .inr (.inl rfl)
  | disableScoped => exact .inr (.inr ⟨_, rfl, nofun⟩)
  | enableScoped uid => exact .inr (.inr ⟨_, rfl, nofun⟩)
  | disableRadical =>
    refine .inr (.inr ⟨_, rfl, ?_⟩)
    rintro i ⟨⟩
    exact List.getElem?_concat_length
  | _ => exact .inl rfl

theorem MutexOwned.perform (h : MutexOwned d.fullAnon) (effect : Effect) :
    MutexOwned (d.perform effect).fullAnon := by
  have hswitches := perform_switches d effect
  cases hb : effect.switchAction with
  | none =>
    rw [hb] at hswitches
    rw [Dashboard.fullAnon, hswitches]
    exact h
  | some b =>
    rw [hb] at hswitches
    exact MutexOwned.switches h hswitches

theorem sound_new (dataDir : Option String) (telemetry : HealthStatus) (ruleset : Ruleset) (now : ℕ)
    (dns : DnsShimController) : Sound (.new dataDir telemetry ruleset now dns) where
  owned := mutexOwned_nil rfl rfl
  removal := nofun

/-- **The step lemma.** -/
theorem Sound.step (h : Sound d) (hs : LoopStep d a d') : Sound d' := by
  cases hs with
  | background hb hs =>
    refine ⟨MutexOwned.switches h.owned hs, ?_⟩
    intro i hloop
    rw [removals_of_background hb hs]
    exact h.removal i hloop
  | orphan hloop hnft hleft hs =>
    refine ⟨MutexOwned.switches h.owned hs, ?_⟩
    intro i hi
    cases hloop.symm.trans hi
  | @key code hloop =>
    refine ⟨MutexOwned.perform (d := { d with app := (handleKey code d.app).1 }) h.owned _, ?_⟩
    intro i hi
    rcases loop_perform { d with app := (handleKey code d.app).1 } (handleKey code d.app).2 with
      hsame | hexit | ⟨op, hop, hremoval⟩
    · cases (hsame.symm.trans hi).symm.trans hloop
    · cases hexit.symm.trans hi
    · cases hop.symm.trans hi
      exact hremoval i rfl
  | apply hloop hs => exact ⟨MutexOwned.switches h.owned hs, nofun⟩
  | inputError hloop =>
    refine ⟨h.owned, ?_⟩
    intro i hi
    cases hloop.symm.trans hi
  | begin | endOfInput | drawFails | tick | listed | poll | refreshed | polled =>
    exact ⟨h.owned, nofun⟩

/-- Ticks and bootstraps that are kept apart do not meet. -/
theorem not_meets_step (h : Sound d) (hg : Apart d a) (hnot : ¬ Meets d) (hs : LoopStep d a d') :
    ¬ Meets d' := by
  rintro ⟨hask, hheld⟩
  cases hs with
  | orphan hloop =>
    rw [show Dashboard.loop { d with switches := _, reaped := _ } = d.loop from rfl, hloop] at hask
    cases hask
  | @background b switches hb hs =>
    rcases fullAnon_step hs with ⟨c, rfl, hc⟩ | ⟨-, rs, hrs⟩
    · rcases heldForBootstrap_of_step hc hheld h.owned with hheld | ⟨i, e, call, rfl, hcall, hlaunch⟩
      · exact hnot ⟨hask, hheld⟩
      · exact Bool.eq_false_iff.mp (hg hask call hcall) hlaunch
    · refine hnot ⟨hask, ?_⟩
      rw [Dashboard.fullAnon, hrs] at hheld
      exact hheld
  | @key code hloop =>
    rcases loop_perform { d with app := (handleKey code d.app).1 } (handleKey code d.app).2 with
      hsame | hexit | ⟨op, hop, -⟩
    · rw [hsame, show Dashboard.loop { d with app := _ } = d.loop from rfl, hloop] at hask
      cases hask
    · rw [hexit] at hask
      cases hask
    · rw [hop] at hask
      cases hask
  | tick hloop => exact hg hheld
  | @listed tick o view hloop =>
    cases tick with
    | true => exact hnot ⟨by rw [hloop]; rfl, hheld⟩
    | false => cases hask
  | poll hloop => exact hnot ⟨by rw [hloop]; rfl, hheld⟩
  | inputError hloop =>
    rw [show Dashboard.loop { d with app := _ } = d.loop from rfl, hloop] at hask
    cases hask
  | begin | endOfInput | drawFails | apply | refreshed | polled => cases hask

/-- Where they meet, nothing but tor changes that. -/
theorem meets_step (h : Sound d) (hmeets : Meets d) (ha : a.withoutTor = true)
    (hs : LoopStep d a d') : Meets d' := by
  obtain ⟨hask, hheld⟩ := hmeets
  have hnone : ∀ running, d.fullAnon.isRunning ≠ some running := by
    obtain ⟨i, hi, -⟩ := hheld
    intro running hrun
    rw [FullAnonController.isRunning, if_pos (Option.isSome_of_mem hi)] at hrun
    cases hrun
  cases hs with
  | @background b switches hb hs =>
    refine ⟨hask, ?_⟩
    rcases fullAnon_step hs with ⟨c, rfl, hc⟩ | ⟨-, rs, hrs⟩
    · refine hheld.step h.owned hc ?_
      rintro i e rfl
      exact Bool.not_eq_eq_eq_not.mp ha
    · rw [Dashboard.fullAnon, hrs]
      exact hheld
  | begin hloop hrun | polled hloop hrun => exact absurd hrun (hnone _)
  | @listed tick o view hloop =>
    rw [hloop] at hask
    cases tick with
    | true => exact ⟨rfl, hheld⟩
    | false => cases hask
  | poll hloop => exact ⟨rfl, hheld⟩
  | refreshed hloop | apply hloop | orphan hloop =>
    rw [hloop] at hask
    cases hask
  | key | inputError | endOfInput | drawFails | tick => cases ha

/-! ## The way to the next key -/

theorem takesKeys_of_selecting (h : d.loop = .selecting) : d.TakesKeys := by
  refine .inr ?_
  intro code
  simp [Dashboard.step, h]

theorem Meets.not_takesKeys (h : Meets d) : ¬ d.TakesKeys := by
  rintro (hexit | hkeys)
  · rw [Meets, hexit] at h
    cases h.1
  · obtain ⟨d', hd'⟩ := Option.isSome_iff_exists.mp (hkeys .esc)
    cases loopStep_of_step hd' with
    | key hloop =>
      rw [Meets, hloop] at h
      cases h.1

theorem Responsive.of_step (h : Responsive d') (ha : a.withoutTor = true)
    (hs : d.step a = some d') : Responsive d := by
  obtain ⟨t, hreach, hkeys⟩ := h
  have hone : dashboard.Reach Quietly d d' := .step .init ha hs
  exact ⟨t, hone.trans hreach, hkeys⟩

theorem responsive_of_selecting (h : d.loop = .selecting) : Responsive d :=
  ⟨d, .init, takesKeys_of_selecting h⟩

/-- A refresh after a key. -/
theorem responsive_of_listing (h : d.loop = .listingScoped false ∨ d.loop = .listingRadical false) :
    Responsive d := by
  have hradical : ∀ d : Dashboard, d.loop = .listingRadical false → Responsive d := by
    intro d hloop
    refine Responsive.of_step (a := .nft .ok) (responsive_of_selecting (d := { d.setKillswitches
      { d.app.killswitches with radicalSwitch :=
          ((KillSwitch.Radical 0).isEnabled .ok d.ruleset).toOption } with
      loop := .selecting }) rfl) rfl ?_
    simp [Dashboard.step, hloop]
  rcases h with hloop | hloop
  · refine Responsive.of_step (a := .nft .ok) (hradical { d.setKillswitches
      { d.app.killswitches with scopedSwitch :=
          ((KillSwitch.Scoped 0).isEnabled .ok d.ruleset).toOption } with
      loop := .listingRadical false } rfl) rfl ?_
    simp [Dashboard.step, hloop]
  · exact hradical d hloop

/-- The command a key awaits can be run. -/
theorem exists_apply (h : Sound d) {op : Inline} (hloop : d.loop = .applying op) :
    ∃ switches, d.switches.step (op.action .ok) = some switches := by
  cases op with
  | disableScoped => exact ⟨_, rfl⟩
  | enableScoped uid => exact ⟨_, rfl⟩
  | disableRadical i =>
    refine Option.isSome_iff_exists.mp ?_
    simp [Inline.action, Switches.step, h.removal i hloop, Switches.stepRemoval]

/-- Whoever holds the mutex gives it back, unless it is held for tor. -/
theorem exists_free (h : Sound d) (hloop : d.loop ≠ .exited) (hnot : ¬ HeldForBootstrap d.fullAnon) :
    ∃ d', dashboard.Reach Quietly d d' ∧ d'.loop = d.loop ∧ d'.fullAnon.holder = none := by
  cases hholder : d.fullAnon.holder with
  | none => exact ⟨d, .init, rfl, hholder⟩
  | some i =>
    obtain ⟨f, hf, hfree⟩ := exists_release h.owned hholder hnot
    have hs : d.switches.step (.fullAnon (.step i .go)) =
        some { d.switches with fullAnon := f } := Option.map_eq_some_iff.mpr ⟨f, hf, rfl⟩
    have hone : dashboard.Reach Quietly d { d with
        switches := { d.switches with fullAnon := f } } :=
      .step (a := .background (.fullAnon (.step i .go))) .init rfl (step_background hloop rfl hs)
    exact ⟨_, hone, rfl, hfree⟩

/-- Asking for `is_running`, when the mutex is not held for tor. -/
theorem responsive_of_asks (h : Sound d) (hasks : d.loop.asks = true)
    (hnot : ¬ HeldForBootstrap d.fullAnon) : Responsive d := by
  have hloop : d.loop ≠ .exited := by
    intro hexit
    rw [hexit] at hasks
    cases hasks
  obtain ⟨d₁, hreach, hsame, hfree⟩ := exists_free h hloop hnot
  have hrun : d₁.switches.fullAnon.isRunning = some d₁.switches.fullAnon.supervisor.isRunning := by
    rw [FullAnonController.isRunning, if_neg]
    exact Option.not_isSome_iff_eq_none.mpr hfree
  have hresponsive : Responsive d₁ := by
    rw [← hsame] at hasks
    unfold LoopPc.asks at hasks
    split at hasks
    · rename_i hstarting
      have hs : d₁.step .isRunning = some { d₁.setRunning
          d₁.switches.fullAnon.supervisor.isRunning with loop := .listingScoped false } := by
        simp only [Dashboard.step, hstarting, hrun, Option.map_some]
      exact Responsive.of_step (responsive_of_listing (.inl rfl)) rfl hs
    · rename_i hpolling
      have hs : d₁.step .isRunning = some { d₁.setRunning
          d₁.switches.fullAnon.supervisor.isRunning with loop := .selecting } := by
        simp only [Dashboard.step, hpolling, hrun, Option.map_some]
      exact Responsive.of_step (responsive_of_selecting rfl) rfl hs
    · cases hasks
  obtain ⟨t, hreach', hkeys⟩ := hresponsive
  exact ⟨t, hreach.trans hreach', hkeys⟩

/-- A refresh tick, when the mutex is not held for tor. -/
theorem responsive_of_tick (h : Sound d)
    (hloop : d.loop = .listingScoped true ∨ d.loop = .listingRadical true)
    (hnot : ¬ HeldForBootstrap d.fullAnon) : Responsive d := by
  have hradical : ∀ d : Dashboard, Sound d → d.loop = .listingRadical true →
      ¬ HeldForBootstrap d.fullAnon → Responsive d := by
    intro d h hloop hnot
    have hs : d.step (.nft .ok) = some { d with
        app := { d.app with
          killswitches := { d.app.killswitches with
            radicalSwitch := ((KillSwitch.Radical 0).isEnabled .ok d.ruleset).toOption }
          dnsShimAddr := d.dns.boundAddr }
        loop := .polling } := by
      simp [Dashboard.step, hloop, Dashboard.setKillswitches]
    exact Responsive.of_step (responsive_of_asks (h.step (loopStep_of_step hs)) rfl hnot) rfl hs
  rcases hloop with hloop | hloop
  · have hs : d.step (.nft .ok) = some { d.setKillswitches { d.app.killswitches with
        scopedSwitch := ((KillSwitch.Scoped 0).isEnabled .ok d.ruleset).toOption } with
        loop := .listingRadical true } := by
      simp [Dashboard.step, hloop]
    exact Responsive.of_step (hradical _ (h.step (loopStep_of_step hs)) rfl hnot) rfl hs
  · exact hradical d h hloop hnot

/-- **The loop is responsive unless it is in a tick while the mutex is held for tor.** -/
theorem responsive_iff (h : Sound d) : Responsive d ↔ ¬ Meets d := by
  constructor
  · rintro ⟨d', hreach, hkeys⟩ hmeets
    have hinv : Sound d' ∧ Meets d' := by
      refine hreach.invariant (I := fun d => Sound d ∧ Meets d) ⟨h, hmeets⟩ ?_
      intro d a d' hi ha hs
      have hstep := loopStep_of_step hs
      exact ⟨hi.1.step hstep, meets_step hi.1 hi.2 ha hstep⟩
    exact hinv.2.not_takesKeys hkeys
  · intro hnot
    -- in a tick the mutex is not held for tor
    have hfree : d.loop.willAsk = true → ¬ HeldForBootstrap d.fullAnon :=
      fun hask hheld => hnot ⟨hask, hheld⟩
    cases hloop : d.loop with
    | exited => exact ⟨d, .init, .inl hloop⟩
    | selecting => exact responsive_of_selecting hloop
    | starting | polling =>
      exact responsive_of_asks h (by rw [hloop]; rfl) (hfree (by rw [hloop]; rfl))
    | applying op =>
      obtain ⟨switches, hs⟩ := exists_apply h hloop
      have happly : d.step (.nft .ok) = some { d with
          switches := switches
          app := { d.app with statusLine := op.message .ok d.ruleset }
          loop := .listingScoped false } := by
        simp [Dashboard.step, hloop, Dashboard.apply, hs]
      exact Responsive.of_step (responsive_of_listing (.inl rfl)) rfl happly
    | listingScoped tick =>
      cases tick with
      | false => exact responsive_of_listing (.inl hloop)
      | true => exact responsive_of_tick h (.inl hloop) (hfree (by rw [hloop]; rfl))
    | listingRadical tick =>
      cases tick with
      | false => exact responsive_of_listing (.inr hloop)
      | true => exact responsive_of_tick h (.inr hloop) (hfree (by rw [hloop]; rfl))

/-- A tick that begins while the mutex is held for tor, or tor spawned within one. -/
theorem meets_of_not_apart (hs : d.step a = some d') (hnot : ¬ Apart d a) : Meets d' := by
  unfold Apart at hnot
  split at hnot
  · rename_i hloop
    cases loopStep_of_step hs with
    | tick => exact ⟨rfl, not_not.mp hnot⟩
  · push Not at hnot
    obtain ⟨hask, c, hc, hlaunch⟩ := hnot
    cases loopStep_of_step hs with
    | background hb hswitches =>
      obtain ⟨f, hf, rfl⟩ := Option.map_eq_some_iff.mp hswitches
      exact ⟨hask, heldForBootstrap_of_launches hf hc (eq_true_of_ne_false hlaunch)⟩
    | orphan hloop =>
      rw [hloop] at hask
      cases hask
  · exact absurd trivial hnot

end Sound

/-- **The loop stays responsive as long as ticks and bootstraps do not meet.**  In every
interleaving of the loop with the `enable`s it has spawned, whatever tor does, in which a
tick begins only while no `enable` holds the mutex across tor's bootstrap and none spawns
tor within a tick: the loop never waits for such an `enable`, and it can always come to
read its next key, or has been quit.  Any other step leaves it unable to before tor, or
the time limit, lets it. -/
theorem responsive_of_apart (dataDir : Option String) (telemetry : HealthStatus)
    (ruleset : Ruleset) (now : ℕ) (dns : DnsShimController) (d : Dashboard)
    (h : dashboard.Reach Apart (.new dataDir telemetry ruleset now dns) d) :
    (¬ d.Waits ∧ Responsive d) ∧
      ∀ a d', d.step a = some d' → ¬ Apart d a → ¬ Responsive d' := by
  have hinv : Sound d ∧ ¬ Meets d := by
    refine h.invariant (I := fun d => Sound d ∧ ¬ Meets d) ⟨sound_new .., ?_⟩ ?_
    · rintro ⟨-, i, hi, -⟩
      cases hi
    · intro d a d' hi hg hs
      have hstep := loopStep_of_step hs
      exact ⟨hi.1.step hstep, not_meets_step hi.1 hg hi.2 hstep⟩
  refine ⟨⟨?_, (responsive_iff hinv.1).mpr hinv.2⟩, ?_⟩
  · rintro ⟨hasks, hheld⟩
    exact hinv.2 ⟨willAsk_of_asks hasks, hheld⟩
  · intro a d' hs hnot
    exact (responsive_iff (hinv.1.step (loopStep_of_step hs))).not.mpr
      (not_not.mpr (meets_of_not_apart hs hnot))

/-- A session of root, up to the `enable` that reads tor's output. -/
def untilBootstrap : List DashboardAction :=
  [.isRunning, .nft .ok, .nft .ok, .key (.char 't'), .key (.char 'y'),
    .background (.fullAnon (.step 0 .go)),
    .background (.fullAnon (.step 0 (.identified (.printed "0")))),
    .background (.fullAnon (.step 0 (.spawned (.spawned 7))))]

/-- Keys are read while tor bootstraps, when no tick comes. -/
theorem responsive_untilBootstrap :
    ∃ d, HeldForBootstrap d.fullAnon ∧ d.app.mode = .killSwitchMenu ∧ Responsive d := by
  obtain ⟨d, hreach, hheld, hmode⟩ := Machine.exists_reach_of_exec (m := dashboard) (G := Apart)
    (s := .new none {} [] 0 .new)
    (P := fun d => HeldForBootstrap d.fullAnon ∧ d.app.mode = .killSwitchMenu)
    (untilBootstrap ++ [.key (.char 'k')]) (by decide)
  exact ⟨d, hheld, hmode, (responsive_of_apart none {} [] 0 .new d hreach).1.2⟩

/-- A tick while tor bootstraps: the loop waits for the `enable`, and no key is read. -/
theorem not_responsive_tick :
    ∃ d, dashboard.Reach Machine.anyStep (.new none {} [] 0 .new) d ∧ d.Waits ∧
      ¬ Responsive d ∧ ∀ code, d.step (.key code) = none := by
  obtain ⟨d, hreach, hwaits, hloop⟩ := Machine.exists_reach_of_exec (m := dashboard)
    (G := Machine.anyStep) (s := .new none {} [] 0 .new)
    (P := fun d => d.Waits ∧ d.loop = .polling)
    (untilBootstrap ++ [.refreshTick, .nft .ok, .nft .ok]) (by decide)
  have hsound : Sound d := by
    refine hreach.invariant (I := Sound) (sound_new ..) ?_
    intro d a d' hi _ hs
    exact hi.step (loopStep_of_step hs)
  refine ⟨d, hreach, hwaits, ?_, ?_⟩
  · rw [responsive_iff hsound, not_not]
    exact ⟨willAsk_of_asks hwaits.1, hwaits.2⟩
  · intro code
    simp [Dashboard.step, hloop]

end Anonet.Tui
