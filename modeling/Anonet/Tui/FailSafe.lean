import Anonet.Tui.Switches

/-!
# The fail-safe behind full anonymization

Full anonymization relies on two tables, and one of them is the table of the
standalone radical switch.  Whoever deletes that table does not ask who else
relies on it.

* `armed` — an `enable` has returned `Ok` and nobody has started to disable
  anything since; a history variable.
* `Held` — a table that an `enable` under way has loaded, or that full
  anonymization, once on, relies on.
* `KeepsHeld` — the steps that must not be taken while a table is held.
* `covered_of_keepsHeld` — **both tables are installed while full anonymization is
  on, as long as no timer, `disable` or `d r` deletes a table that is held.**
-/

namespace Anonet.Tui

open Leakguard Nft Telemetry Transparent

/-! ## Who relies on a table -/

/-- Whether full anonymization has been switched on, and neither a `disable` nor
a radical disable has begun to run since. -/
def armed (s : Switches) (a : SwitchAction) (_s' : Switches) (before : Bool) : Bool :=
  match a with
  | .fullAnon (.step i _) =>
    match s.fullAnon.calls[i]? with
    | some (.enable .flagging) => true
    | some (.disable .entered) => false
    | _ => before
  | .radicalDisable => false
  | _ => before

/-- The tables an `enable` call has loaded and, should it succeed, relies on. -/
def loaded : Call → List String
  | .enable (.switching _) => [transparentTable]
  | .enable .flagging => [transparentTable, systemTable]
  | _ => []

/-- Full anonymization is on, and nobody has begun to turn it off. -/
def On (p : Switches × Bool) : Prop :=
  p.2 = true ∧ p.1.fullAnon.telemetry.transparentEnabled = true

/-- Someone relies on the table. -/
def Held (p : Switches × Bool) (table : String) : Prop :=
  (table = transparentTable ∨ table = systemTable) ∧ On p ∨
    ∃ c ∈ p.1.fullAnon.calls, table ∈ loaded c

instance (p : Switches × Bool) : Decidable (On p) := inferInstanceAs (Decidable (_ ∧ _))

instance (p : Switches × Bool) (table : String) : Decidable (Held p table) :=
  inferInstanceAs (Decidable (_ ∨ _))

/-- The table that a `disable` is about to take away. -/
def takenBack : Call → Option String
  | .disable (.unredirecting _) => some transparentTable
  | .disable (.unswitching _) => some systemTable
  | _ => none

/-- The 300 s of a `k r y` are over, and it is about to take its switch back. -/
def RadicalPc.reverts : RadicalPc → Bool
  | .reverting _ => true
  | _ => false

/-- While someone relies on a table, no `disable` runs the `nft` command that deletes it, no
task of a `k r y` its revert, and no `d r` its removal. -/
def KeepsHeld (p : Switches × Bool) : SwitchAction → Prop
  | .fullAnon (.step i _) => ∀ table ∈ p.1.fullAnon.calls[i]?.bind takenBack, ¬ Held p table
  | .radical i _ => p.1.radicals[i]?.any RadicalPc.reverts = true → ¬ Held p systemTable
  | .removal _ _ => ¬ Held p systemTable
  | _ => True

instance (p : Switches × Bool) : ∀ a, Decidable (KeepsHeld p a)
  | .fullAnon (.step i _) =>
    inferInstanceAs (Decidable (∀ table ∈ p.1.fullAnon.calls[i]?.bind takenBack, ¬ Held p table))
  | .radical _ _ => inferInstanceAs (Decidable (_ → _))
  | .removal _ _ => inferInstanceAs (Decidable (¬ _))
  | .fullAnon .callEnable | .fullAnon .callDisable | .fullAnon (.tick _) | .radicalEnable
  | .radicalDisable | .scopedEnable _ _ | .scopedDisable _ => inferInstanceAs (Decidable True)

/-- While full anonymization is on, the redirect and the fail-safe are installed. -/
def Covered (p : Switches × Bool) : Prop :=
  On p → p.1.ruleset.has transparentTable ∧ p.1.ruleset.has systemTable

instance (p : Switches × Bool) : Decidable (Covered p) := inferInstanceAs (Decidable (_ → _))

/-! ## How a table comes to be held -/

section Steps

variable {s s' : Switches} {f f' : FullAnonController} {i : ℕ} {c c' : Call} {e : Event}

/-- An `enable` relies on what it relied on before and on what it has just loaded. -/
theorem loaded_of_callStep (h : CallStep f i c e c' f') {table : String} (ht : table ∈ loaded c') :
    table ∈ loaded c ∨ c.tableOp = some (.load table) := by
  cases h with
  | redirect =>
    obtain rfl := List.mem_singleton.mp ht
    exact .inr rfl
  | switch =>
    rcases List.mem_cons.mp ht with rfl | ht
    · exact .inl List.mem_cons_self
    · obtain rfl := List.mem_singleton.mp ht
      exact .inr rfl
  | _ => exact absurd ht List.not_mem_nil

/-- Only the last step of an `enable` sets the flag. -/
theorem flag_of_callStep (h : CallStep f i c e c' f')
    (hflag : f'.telemetry.transparentEnabled = true) :
    f.telemetry.transparentEnabled = true ∨ c = .enable .flagging := by
  cases h with
  | flag => exact .inr rfl
  | unflag => exact absurd hflag Bool.false_ne_true
  | _ => exact .inl hflag

/-- Full anonymization comes on by the last step of an `enable`, which has loaded
both tables. -/
theorem held_of_on {a : SwitchAction} {b : Bool} (h : s.step a = some s')
    (hon : On (s', armed s a s' b)) :
    On (s, b) ∨ ∃ c ∈ s.fullAnon.calls, c = .enable .flagging := by
  obtain ⟨harmed, hflag⟩ := hon
  rcases fullAnon_step h with ⟨act, rfl, hf⟩ | ⟨hother, rs, hf⟩
  · cases act with
    | step i e =>
      obtain ⟨c, c', f₁, hc, hstep, hf'⟩ := callStep_of_step hf
      simp only [hf'] at hflag
      rcases flag_of_callStep hstep hflag with hflag | rfl
      · by_cases hcf : c = .enable .flagging
        · exact .inr ⟨c, List.mem_of_getElem? hc, hcf⟩
        · refine .inl ⟨?_, hflag⟩
          simp only [armed, hc] at harmed
          split at harmed
          · rename_i heq
            exact absurd (Option.some.inj heq) hcf
          · exact absurd harmed Bool.false_ne_true
          · exact harmed
      · exact .inr ⟨_, List.mem_of_getElem? hc, rfl⟩
    | callEnable | callDisable | tick =>
      rw [← Option.some.inj hf] at hflag
      exact .inl ⟨harmed, hflag⟩
  · simp only [hf] at hflag
    refine .inl ⟨?_, hflag⟩
    cases a with
    | radicalDisable => exact absurd harmed Bool.false_ne_true
    | fullAnon act => exact absurd rfl (hother act)
    | _ => exact harmed

/-- The calls of the controller after a step: those before, a new one, or one
that has moved. -/
theorem mem_calls_of_step {a : SwitchAction} (h : s.step a = some s') {d : Call}
    (hd : d ∈ s'.fullAnon.calls) :
    d ∈ s.fullAnon.calls ∨ (d = .enable .entered ∨ d = .disable .entered) ∨
      ∃ i e c f, a = .fullAnon (.step i e) ∧ s.fullAnon.calls[i]? = some c ∧
        CallStep s.fullAnon i c e d f := by
  rcases fullAnon_step h with ⟨act, rfl, hf⟩ | ⟨-, rs, hf⟩
  · cases act with
    | step i e =>
      obtain ⟨c, c', f, hc, hstep, hf'⟩ := callStep_of_step hf
      rw [hf'] at hd
      obtain ⟨j, hj⟩ := List.mem_iff_getElem?.mp hd
      rcases Machine.getElem?_set_cases hj with ⟨-, hj⟩ | ⟨-, rfl⟩
      · rw [hstep.calls_eq] at hj
        exact .inl (List.mem_of_getElem? hj)
      · exact .inr (.inr ⟨i, e, c, f, rfl, hc, hstep⟩)
    | callEnable =>
      rw [← Option.some.inj hf] at hd
      exact (List.mem_append.mp hd).imp_right fun hd => .inl (.inl (List.mem_singleton.mp hd))
    | callDisable =>
      rw [← Option.some.inj hf] at hd
      exact (List.mem_append.mp hd).imp_right fun hd => .inl (.inr (List.mem_singleton.mp hd))
    | tick =>
      rw [← Option.some.inj hf] at hd
      exact .inl hd
  · rw [hf] at hd
    exact .inl hd

theorem loaded_of_step {a : SwitchAction} (h : s.step a = some s') {table : String}
    (hc' : ∃ c' ∈ s'.fullAnon.calls, table ∈ loaded c') :
    (∃ c ∈ s.fullAnon.calls, table ∈ loaded c) ∨ s.tableOp a = some (.load table) := by
  obtain ⟨d, hd, ht⟩ := hc'
  rcases mem_calls_of_step h hd with hd | (rfl | rfl) | ⟨i, e, c, f, rfl, hc, hstep⟩
  · exact .inl ⟨d, hd, ht⟩
  · exact absurd ht List.not_mem_nil
  · exact absurd ht List.not_mem_nil
  · rcases loaded_of_callStep hstep ht with ht | hop
    · exact .inl ⟨c, List.mem_of_getElem? hc, ht⟩
    · exact .inr (by simp [Switches.tableOp, hc, hop])

/-- **A table is held because it was held before or has just been loaded.** -/
theorem held_of_step {a : SwitchAction} {b : Bool} (h : s.step a = some s') {table : String}
    (hheld : Held (s', armed s a s' b) table) :
    Held (s, b) table ∨ s.tableOp a = some (.load table) := by
  rcases hheld with ⟨htable, hon⟩ | hc
  · rcases held_of_on h hon with hon | ⟨c, hc, rfl⟩
    · exact .inl (.inl ⟨htable, hon⟩)
    · refine .inl (.inr ⟨_, hc, ?_⟩)
      rcases htable with rfl | rfl <;> simp [loaded]
  · exact (loaded_of_step h hc).imp_left .inr

/-- No `enable` takes its redirect back, since no `nft` command fails. -/
def NoRollback (s : Switches) : Prop :=
  ∀ c ∈ s.fullAnon.calls, ∀ uid err, c ≠ .enable (.unredirecting uid err)

theorem noRollback_of_callStep (h : CallStep f i c e c' f')
    (hnft : e.NftSucceeds c.tableOp f.ruleset) (uid : UInt32) (err : String) :
    c' ≠ .enable (.unredirecting uid err) := by
  cases h with
  | @noSwitch uid o rs err hrun =>
    have henable := (KillSwitch.Radical uid).has_enable systemTable hnft
    rw [hrun] at henable
    cases henable.1
  | _ => simp

theorem NoRollback.step {a : SwitchAction} (hno : NoRollback s) (h : s.step a = some s')
    (hnft : NftSucceeds s a) : NoRollback s' := by
  intro d hd
  rcases mem_calls_of_step h hd with hd | (rfl | rfl) | ⟨i, e, c, f, rfl, hc, hstep⟩
  · exact hno d hd
  · simp
  · simp
  · have hop : s.tableOp (.fullAnon (.step i e)) = c.tableOp := by
      simp [Switches.tableOp, hc]
    rw [NftSucceeds, hop] at hnft
    exact noRollback_of_callStep hstep hnft

/-- Nobody relies on the table of the scoped switch. -/
theorem not_held_scopedTable (p : Switches × Bool) : ¬ Held p scopedTable := by
  rintro (⟨htable | htable, -⟩ | ⟨c, -, ht⟩)
  · exact absurd htable (by decide)
  · exact scopedTable_ne_systemTable htable
  · unfold loaded at ht
    split at ht
    · exact absurd (List.mem_singleton.mp ht) (by decide)
    · exact absurd ht (by decide)
    · exact absurd ht List.not_mem_nil

/-- Who deletes a table: those that `KeepsHeld` is about, and the scoped switch its own. -/
theorem not_held_of_delete {a : SwitchAction} {b : Bool} {table : String} (hno : NoRollback s)
    (hkeep : KeepsHeld (s, b) a) (hop : s.tableOp a = some (.delete table)) :
    ¬ Held (s, b) table := by
  cases a with
  | fullAnon act =>
    cases act with
    | step i e =>
      obtain ⟨c, hc, hop⟩ := Option.bind_eq_some_iff.mp hop
      refine hkeep table (Option.bind_eq_some_iff.mpr ⟨c, hc, ?_⟩)
      unfold Call.tableOp at hop
      split at hop
      · cases hop
      · cases hop
      · exact absurd rfl (hno _ (List.mem_of_getElem? hc) _ _)
      · cases hop
        rfl
      · cases hop
        rfl
      · cases hop
    | callEnable | callDisable | tick => cases hop
  | radical i e =>
    obtain ⟨pc, hpc, hop⟩ := Option.bind_eq_some_iff.mp hop
    unfold RadicalPc.tableOp at hop
    split at hop
    · cases hop
    · cases hop
      exact hkeep (by rw [hpc]; rfl)
    · cases hop
  | removal i o =>
    obtain ⟨pc, -, hop⟩ := Option.bind_eq_some_iff.mp hop
    unfold RemovalPc.tableOp at hop
    split at hop <;> cases hop
    exact hkeep
  | scopedDisable o =>
    obtain rfl := TableOp.delete.inj (Option.some.inj hop)
    exact not_held_scopedTable (s, b)
  | radicalEnable | radicalDisable | scopedEnable => cases hop

/-- **The step lemma**: if every held table is installed, and the step deletes no
held table, then every held table is installed afterwards. -/
theorem installed_step {a : SwitchAction} {b : Bool} (h : s.step a = some s')
    (hnft : NftSucceeds s a) (hkeep : KeepsHeld (s, b) a) (hno : NoRollback s)
    (hinv : ∀ table, Held (s, b) table → s.ruleset.has table) :
    ∀ table, Held (s', armed s a s' b) table → s'.ruleset.has table := by
  intro table hheld
  rw [step_has h hnft]
  rcases held_of_step h hheld with hheld | hop
  · have hhas : s.ruleset.has table := hinv table hheld
    cases hop : s.tableOp a with
    | none => exact hhas
    | some op =>
      cases op with
      | load t => exact .inr hhas
      | delete t =>
        refine ⟨?_, hhas⟩
        rintro rfl
        exact not_held_of_delete hno hkeep hop hheld
  · rw [hop]
    exact .inl rfl

end Steps

/-! ## Every run -/

/-- **The fail-safe stays.**  In every run of `enable` and `disable` calls, radical
enables with their timers and radical disables, with every `nft` command
succeeding, in which no timer, `disable` or `d r` deletes a table while it is held:
whenever an `enable` has returned `Ok` and nobody has started to disable anything
since, the redirect and the radical table are installed. -/
theorem covered_of_keepsHeld (dataDir : Option String) (telemetry : HealthStatus)
    (ruleset : Ruleset) (now : ℕ) (p : Switches × Bool)
    (h : (switching.watch armed).Reach (fun p a => NftSucceeds p.1 a ∧ KeepsHeld p a)
      (.new dataDir telemetry ruleset now, false) p) : Covered p := by
  have hinv : NoRollback p.1 ∧ ∀ table, Held p table → p.1.ruleset.has table := by
    refine h.invariant
      (I := fun p => NoRollback p.1 ∧ ∀ table, Held p table → p.1.ruleset.has table) ⟨?_, ?_⟩ ?_
    · intro c hc
      exact absurd hc List.not_mem_nil
    · rintro table (⟨-, harmed, -⟩ | ⟨c, hc, -⟩)
      · exact absurd harmed Bool.false_ne_true
      · exact absurd hc List.not_mem_nil
    · rintro ⟨s, b⟩ a ⟨s', b'⟩ ⟨hno, hinv⟩ ⟨hnft, hkeep⟩ hs
      obtain ⟨hstep, hnote⟩ := Machine.watch_step.mp hs
      obtain rfl : b' = armed s a s' b := hnote
      exact ⟨hno.step hstep hnft, installed_step hstep hnft hkeep hno hinv⟩
  intro hon
  exact ⟨hinv.2 _ (.inl ⟨.inl rfl, hon⟩), hinv.2 _ (.inl ⟨.inr rfl, hon⟩)⟩

/-! ## Runs -/

/-- `k r y`, up to where the first task sleeps. -/
def radicalEnabled : List SwitchAction :=
  [.radicalEnable, .radical 0 (.identified (.printed "0\n")), .radical 0 (.nft .ok)]

/-- The 300 s pass and the first task disables the switch. -/
def radicalExpires : List SwitchAction :=
  [.fullAnon (.tick radicalDuration), .radical 0 .go, .radical 0 (.nft .ok)]

/-- `t y`: the first call enables full anonymization. -/
def fullAnonEnabled : List SwitchAction :=
  [.fullAnon .callEnable, .fullAnon (.step 0 .go),
    .fullAnon (.step 0 (.identified (.printed "0\n"))),
    .fullAnon (.step 0 (.spawned (.spawned 100))),
    .fullAnon (.step 0 (.tor (.line "Bootstrapped 100% (done): Done"))),
    .fullAnon (.step 0 (.nft .ok)), .fullAnon (.step 0 (.nft .ok)), .fullAnon (.step 0 .go)]

/-- A radical switch that has expired before full anonymization is switched on
does no harm. -/
theorem covered_expired_first : ∃ p : Switches × Bool, On p ∧ Covered p := by
  obtain ⟨p, hreach, hon⟩ := Machine.exists_reach_of_exec (m := switching.watch armed)
    (G := fun p a => NftSucceeds p.1 a ∧ KeepsHeld p a) (s := (Switches.new none {} [] 0, false))
    (P := On) (radicalEnabled ++ radicalExpires ++ fullAnonEnabled) (by decide)
  exact ⟨p, hon, covered_of_keepsHeld none {} [] 0 p hreach⟩

/-- The timer of an earlier `k r y` deletes the fail-safe of full anonymization. -/
theorem not_covered_expired_later :
    ∃ p : Switches × Bool, (switching.watch armed).Reach (fun p a => NftSucceeds p.1 a)
        (.new none {} [] 0, false) p ∧ ¬ Covered p :=
  Machine.exists_reach_of_exec (m := switching.watch armed) (G := fun p a => NftSucceeds p.1 a)
    (s := (Switches.new none {} [] 0, false)) (P := fun p => ¬ Covered p)
    (radicalEnabled ++ fullAnonEnabled ++ radicalExpires) (by decide)

end Anonet.Tui
