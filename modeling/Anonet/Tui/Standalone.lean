import Anonet.Tui.FailSafe

/-!
# The standalone radical switch

`k r y` installs the radical table for 300 s.  The table is the one full
anonymization uses, the timers of earlier `k r y` know nothing of later ones, and
whoever deletes the table deletes it for everybody.

* `deadlines` — until when the switches enabled by `k r y` should stay, those
  disabled by `d r` since left out; a history variable.
* `InForce` — some standalone switch still has time left.
* `stays_of_spares` — **a standalone switch stays for its 300 s as long as no timer
  expires and no full anonymization is turned off meanwhile.**
-/

namespace Anonet.Tui

open Leakguard Nft Telemetry Transparent

/-! ## Switches in force -/

/-- The deadlines of the standalone switches enabled since the last `d r`. -/
def deadlines (s : Switches) (a : SwitchAction) (s' : Switches) (before : List ℕ) : List ℕ :=
  match a with
  | .radical i _ =>
    match s.radicals[i]?, s'.radicals[i]? with
    | some (.enabling _), some (.sleeping _ deadline) => deadline :: before
    | _, _ => before
  | .removal _ _ => []
  | _ => before

/-- Some standalone switch has been enabled less than 300 s ago, and not disabled by
`d r` since. -/
def InForce (p : Switches × List ℕ) : Prop := ∃ deadline ∈ p.2, p.1.now < deadline

instance (p : Switches × List ℕ) : Decidable (InForce p) := inferInstanceAs (Decidable (∃ _ ∈ _, _))

/-- While a standalone switch is in force, no timer of another `k r y` deletes the
radical table, and neither does a `disable` of full anonymization. -/
def Spares (p : Switches × List ℕ) (a : SwitchAction) : Prop :=
  match a with
  | .radical i _ => p.1.radicals[i]?.bind RadicalPc.tableOp = some (.delete systemTable) → ¬ InForce p
  | .fullAnon (.step i _) =>
    p.1.fullAnon.calls[i]?.bind Call.tableOp = some (.delete systemTable) → ¬ InForce p
  | _ => True

instance (p : Switches × List ℕ) : ∀ a, Decidable (Spares p a)
  | .radical _ _ | .fullAnon (.step _ _) => inferInstanceAs (Decidable (_ → _))
  | .fullAnon .callEnable | .fullAnon .callDisable | .fullAnon (.tick _) | .removal _ _
  | .radicalEnable | .radicalDisable | .scopedEnable _ _ | .scopedDisable _ =>
    inferInstanceAs (Decidable True)

/-- The radical table is installed as long as a standalone switch is in force. -/
def Stays (p : Switches × List ℕ) : Prop := InForce p → p.1.ruleset.has systemTable

instance (p : Switches × List ℕ) : Decidable (Stays p) := inferInstanceAs (Decidable (_ → _))

/-! ## One step -/

section Steps

variable {s s' : Switches} {a : SwitchAction} {ds : List ℕ}

/-- Time does not run backwards. -/
theorem now_le_step (h : s.step a = some s') : s.now ≤ s'.now := by
  rcases fullAnon_step h with ⟨b, rfl, hb⟩ | ⟨-, rs, hf⟩
  · cases b with
    | tick nanos =>
      have hnow : s'.now = s.now + nanos := by
        rw [Switches.now, ← Option.some.inj hb]
        rfl
      omega
    | step i e =>
      obtain ⟨c, c', f₁, -, hstep, hf⟩ := callStep_of_step hb
      have hnow : s'.now = s.now := by
        rw [Switches.now, hf]
        exact hstep.now_eq
      exact hnow.ge
    | callEnable | callDisable =>
      have hnow : s'.now = s.now := by
        rw [Switches.now, ← Option.some.inj hb]
        rfl
      exact hnow.ge
  · have hnow : s'.now = s.now := by
      rw [Switches.now, hf]
      rfl
    exact hnow.ge

/-- A standalone switch is in force because one was before, and this is no `d r`, or
because a `k r y` has just loaded the table. -/
theorem inForce_of_step (h : s.step a = some s') (hforce : InForce (s', deadlines s a s' ds)) :
    InForce (s, ds) ∧ (∀ i o, a ≠ .removal i o) ∨ s.tableOp a = some (.load systemTable) := by
  obtain ⟨deadline, hmem, hlt⟩ := hforce
  have hbefore : deadline ∈ ds → InForce (s, ds) := by
    intro hds
    exact ⟨deadline, hds, lt_of_le_of_lt (now_le_step h) hlt⟩
  cases a with
  | radical i e =>
    simp only [deadlines] at hmem
    split at hmem
    · rename_i uid uid' deadline' hpc _
      refine .inr ?_
      simp [Switches.tableOp, hpc, RadicalPc.tableOp]
    · exact .inl ⟨hbefore hmem, by simp⟩
  | removal i o => exact absurd hmem List.not_mem_nil
  | _ => exact .inl ⟨hbefore hmem, by simp⟩

/-- Who deletes the radical table: a `d r`, or one of those that `Spares` is about. -/
theorem not_inForce_of_delete (hspares : Spares (s, ds) a) (hremoval : ∀ i o, a ≠ .removal i o)
    (hop : s.tableOp a = some (.delete systemTable)) : ¬ InForce (s, ds) := by
  cases a with
  | fullAnon b =>
    cases b with
    | step i e => exact hspares hop
    | callEnable | callDisable | tick => cases hop
  | radical i e => exact hspares hop
  | removal i o => exact absurd rfl (hremoval i o)
  | scopedDisable o =>
    have htable : scopedTable = systemTable := TableOp.delete.inj (Option.some.inj hop)
    exact absurd htable scopedTable_ne_systemTable
  | radicalEnable | radicalDisable | scopedEnable => cases hop

/-- **The step lemma.** -/
theorem stays_step (h : s.step a = some s') (hnft : NftSucceeds s a)
    (hspares : Spares (s, ds) a) (hinv : Stays (s, ds)) :
    Stays (s', deadlines s a s' ds) := by
  intro hforce
  show s'.ruleset.has systemTable
  rw [step_has h hnft]
  rcases inForce_of_step h hforce with ⟨hbefore, hremoval⟩ | hop
  · have hhas : s.ruleset.has systemTable := hinv hbefore
    cases hop : s.tableOp a with
    | none => exact hhas
    | some op =>
      cases op with
      | load t => exact .inr hhas
      | delete t =>
        refine ⟨?_, hhas⟩
        rintro rfl
        exact not_inForce_of_delete hspares hremoval hop hbefore
  · rw [hop]
    exact .inl rfl

/-- Conversely, a step that does not spare the switch removes it at once. -/
theorem not_stays_step (h : s.step a = some s') (hnft : NftSucceeds s a)
    (hspares : ¬ Spares (s, ds) a) : ¬ Stays (s', deadlines s a s' ds) := by
  have hdeleted : s.tableOp a = some (.delete systemTable) → ¬ s'.ruleset.has systemTable := by
    intro hop
    rw [step_has h hnft, hop]
    exact fun hafter => hafter.1 rfl
  cases a with
  | fullAnon b =>
    cases b with
    | step i e =>
      obtain ⟨hop, hforce⟩ := Classical.not_imp.mp hspares
      obtain ⟨deadline, hmem, hlt⟩ := not_not.mp hforce
      obtain ⟨f', hf, rfl⟩ := Option.map_eq_some_iff.mp h
      obtain ⟨c, c', f₁, -, hstep, rfl⟩ := callStep_of_step hf
      intro hstays
      refine hdeleted hop (hstays ⟨deadline, hmem, ?_⟩)
      show f₁.now < deadline
      rw [hstep.now_eq]
      exact hlt
    | callEnable | callDisable | tick => exact absurd trivial hspares
  | radical i e =>
    obtain ⟨hop, hforce⟩ := Classical.not_imp.mp hspares
    obtain ⟨deadline, hmem, hlt⟩ := not_not.mp hforce
    obtain ⟨pc, pc', s₁, hpc, hstep, rfl⟩ := radicalStep_of_step h
    intro hstays
    refine hdeleted hop (hstays ⟨deadline, ?_, ?_⟩)
    · simp only [deadlines]
      split
      · exact List.mem_cons_of_mem _ hmem
      · exact hmem
    · obtain ⟨rs, hf⟩ := hstep.frame.2
      show s₁.fullAnon.now < deadline
      rw [hf]
      exact hlt
  | removal | scopedDisable | radicalEnable | radicalDisable | scopedEnable =>
    exact absurd trivial hspares

end Steps

/-! ## Every run -/

/-- **A standalone switch stays for its 300 s.**  In every run of radical enables with
their timers, radical disables and full-anonymization calls, with every `nft` command
succeeding, in which no other timer and no `disable` deletes the radical table while a
standalone switch is in force: the table is installed as long as one is. -/
theorem stays_of_spares (dataDir : Option String) (telemetry : HealthStatus)
    (ruleset : Ruleset) (now : ℕ) (p : Switches × List ℕ)
    (h : (switching.watch deadlines).Reach (fun p a => NftSucceeds p.1 a ∧ Spares p a)
      (.new dataDir telemetry ruleset now, []) p) : Stays p := by
  refine h.invariant (I := Stays) ?_ ?_
  · rintro ⟨deadline, hmem, -⟩
    exact absurd hmem List.not_mem_nil
  · rintro ⟨s, ds⟩ a ⟨s', ds'⟩ hinv ⟨hnft, hspares⟩ hs
    obtain ⟨hstep, hnote⟩ := Machine.watch_step.mp hs
    obtain rfl : ds' = deadlines s a s' ds := hnote
    exact stays_step hstep hnft hspares hinv

/-! ## Runs -/

/-- `d r`. -/
def radicalDisabled : List SwitchAction := [.radicalDisable, .removal 0 .ok]

/-- `k r y` once more, up to where its task sleeps. -/
def radicalEnabledAgain (i : ℕ) : List SwitchAction :=
  [.radicalEnable, .radical i (.identified (.printed "0\n")), .radical i (.nft .ok)]

/-- `t y` once more: the second call turns full anonymization off. -/
def fullAnonDisabled : List SwitchAction :=
  [.fullAnon .callDisable, .fullAnon (.step 1 (.identified (.printed "0\n"))),
    .fullAnon (.step 1 (.nft .ok)), .fullAnon (.step 1 (.nft .ok))]

/-- A switch enabled a minute ago, behind one whose timer has expired and one that `d r`
disabled and whose timer still runs. -/
theorem stays_thirdTime : ∃ p : Switches × List ℕ, InForce p ∧ Stays p := by
  obtain ⟨p, hreach, hforce⟩ := Machine.exists_reach_of_exec (m := switching.watch deadlines)
    (G := fun p a => NftSucceeds p.1 a ∧ Spares p a) (s := (Switches.new none {} [] 0, []))
    (P := InForce) (radicalEnabled ++ radicalExpires ++ radicalEnabledAgain 1 ++
      radicalDisabled ++ radicalEnabledAgain 2 ++ [.fullAnon (.tick (60 * 10 ^ 9))]) (by decide)
  exact ⟨p, hforce, stays_of_spares none {} [] 0 p hreach⟩

/-- The timer of a switch disabled after 10 s removes the one enabled at 20 s, before
any call on full anonymization; and turning full anonymization off removes a switch
enabled before, with no time gone by. -/
theorem not_stays_leftover :
    (∃ p : Switches × List ℕ, (switching.watch deadlines).Reach (fun p a => NftSucceeds p.1 a)
        (.new none {} [] 0, []) p ∧ p.1.fullAnon.calls.length = 0 ∧ ¬ Stays p) ∧
    ∃ p : Switches × List ℕ, (switching.watch deadlines).Reach (fun p a => NftSucceeds p.1 a)
        (.new none {} [] 0, []) p ∧ p.1.now = 0 ∧ ¬ Stays p := by
  constructor
  · exact Machine.exists_reach_of_exec (m := switching.watch deadlines)
      (G := fun p a => NftSucceeds p.1 a) (s := (Switches.new none {} [] 0, []))
      (P := fun p => p.1.fullAnon.calls.length = 0 ∧ ¬ Stays p)
      (radicalEnabled ++ [.fullAnon (.tick (10 * 10 ^ 9))] ++ radicalDisabled ++
        [.fullAnon (.tick (10 * 10 ^ 9))] ++ radicalEnabledAgain 1 ++
        [.fullAnon (.tick (280 * 10 ^ 9)), .radical 0 .go, .radical 0 (.nft .ok)]) (by decide)
  · exact Machine.exists_reach_of_exec (m := switching.watch deadlines)
      (G := fun p a => NftSucceeds p.1 a) (s := (Switches.new none {} [] 0, []))
      (P := fun p => p.1.now = 0 ∧ ¬ Stays p)
      (radicalEnabled ++ fullAnonEnabled ++ fullAnonDisabled) (by decide)

end Anonet.Tui
