import Anonet.Tui.Dashboard

/-!
# What a session leaves behind

The tables a session loads outlive the process; what would remove them are its
own detached tasks and keys, and these end with it.  An `nft` that a task was
waiting for does not: it runs on and does what it was asked.

* `Loads` — who loaded and who deleted which table so far, and which tables have
  been there since before the session; `Live` — a loader whose table has not been
  deleted since.
* `Accounted` — the invariant: a table that is installed has a live loader or is
  old, and a live loader is past its load and not past its own deletion.
* `exists_ended`, `Stable.step` — what the `nft`s in flight at the end can still do,
  and what they cannot.
* `leavesNothing_iff` — **a session leaves no table of its own behind if and only
  if at its end no `nft` in flight loads one, and each task and call that has loaded
  one, and has not come to delete it itself, has had it deleted by somebody else.**
-/

namespace Anonet.Tui

open Leakguard Net Nft Telemetry Transparent

/-! ## Loads and deletions -/

structure Loads where
  /-- The loads and deletions, newest first. -/
  log : List (TableOp × Owner)
  /-- The tables that have been installed without interruption since before. -/
  old : List String

def Loads.start (rs : Ruleset) : Loads := ⟨[], rs.map (·.name)⟩

/-- Note what a step did to the tables. -/
def Loads.note (s : Switches) (a : SwitchAction) (s' : Switches) (g : Loads) : Loads where
  log :=
    match s.tableOp a with
    | some op => (op, a.owner) :: g.log
    | none => g.log
  old := g.old.filter fun table => decide (s'.ruleset.has table)

/-- `x` has loaded the table, and nobody has deleted it since. -/
def Live (table : String) (x : Owner) : List (TableOp × Owner) → Prop
  | [] => False
  | (.load t, y) :: l => t = table ∧ y = x ∨ Live table x l
  | (.delete t, _) :: l => t ≠ table ∧ Live table x l

section Live

variable {table t : String} {x y : Owner} {l : List (TableOp × Owner)}

theorem live_load : Live table x ((.load t, y) :: l) ↔ t = table ∧ y = x ∨ Live table x l := Iff.rfl

theorem live_delete : Live table x ((.delete t, y) :: l) ↔ t ≠ table ∧ Live table x l := Iff.rfl

/-- A table has a live loader after a command as it is installed after it. -/
theorem exists_live_cons {op : TableOp} :
    (∃ x, Live table x ((op, y) :: l)) ↔ TableOp.After (some op) table (∃ x, Live table x l) := by
  cases op with
  | load t =>
    simp only [live_load, TableOp.After]
    constructor
    · rintro ⟨x, ⟨ht, -⟩ | hx⟩
      · exact .inl ht.symm
      · exact .inr ⟨x, hx⟩
    · rintro (ht | ⟨x, hx⟩)
      · exact ⟨y, .inl ⟨ht.symm, rfl⟩⟩
      · exact ⟨x, .inr hx⟩
  | delete t =>
    simp only [live_delete, TableOp.After]
    constructor
    · rintro ⟨x, ht, hx⟩
      exact ⟨Ne.symm ht, x, hx⟩
    · rintro ⟨ht, x, hx⟩
      exact ⟨x, Ne.symm ht, hx⟩

/-- A loader was live before the command or has just loaded. -/
theorem live_of_cons {op : TableOp} (h : Live table x ((op, y) :: l)) :
    Live table x l ∨ op = .load table ∧ y = x := by
  cases op with
  | load t =>
    rcases live_load.mp h with ⟨rfl, hy⟩ | h
    · exact .inr ⟨rfl, hy⟩
    · exact .inl h
  | delete t => exact .inl (live_delete.mp h).2

end Live

/-! ## Who holds an installed table -/

/-- A `k r y` task between its load and its own deletion. -/
def RadicalPc.Pending : RadicalPc → Prop
  | .sleeping _ _ | .reverting _ => True
  | _ => False

/-- The tables an `enable` has loaded.  It deletes the one only if it cannot load the
other. -/
def loadedBy : Call → List String
  | .enable (.switching _) => [transparentTable]
  | .enable .flagging | .enable (.returned (.ok _)) => [transparentTable, systemTable]
  | _ => []

/-- The task or call is past its load of the table, and not past its own deletion. -/
def Holds (s : Switches) (table : String) : Owner → Prop
  | .call i => ∃ c, s.fullAnon.calls[i]? = some c ∧ table ∈ loadedBy c
  | .radical i => table = systemTable ∧ ∃ pc, s.radicals[i]? = some pc ∧ pc.Pending
  | .key => table = scopedTable

/-- The installed tables explained by the loads so far. -/
structure Accounted (s : Switches) (g : Loads) : Prop where
  present : ∀ table, s.ruleset.has table ↔ (∃ x, Live table x g.log) ∨ table ∈ g.old
  holds : ∀ table x, Live table x g.log → Holds s table x

section Steps

variable {s s' : Switches} {g : Loads} {a : SwitchAction}

theorem mem_old_note {table : String} :
    table ∈ (Loads.note s a s' g).old ↔ table ∈ g.old ∧ s'.ruleset.has table := by
  simp [Loads.note]

/-- Every step keeps the installed tables explained. -/
theorem Accounted.present_step (h : Accounted s g) (hs : s.step a = some s')
    (hnft : NftSucceeds s a) (table : String) :
    s'.ruleset.has table ↔
      (∃ x, Live table x (Loads.note s a s' g).log) ∨ table ∈ (Loads.note s a s' g).old := by
  have hhas := step_has hs hnft table
  have hpres := h.present table
  have hlive : (∃ x, Live table x (Loads.note s a s' g).log) ↔
      TableOp.After (s.tableOp a) table (∃ x, Live table x g.log) := by
    rw [Loads.note]
    cases s.tableOp a with
    | none => exact Iff.rfl
    | some op => exact exists_live_cons
  rw [hlive, mem_old_note, hhas, hpres]
  exact TableOp.after_or

/-- What an `enable` has loaded stays so while `nft` does what it is asked. -/
theorem loadedBy_step {f f' : FullAnonController} {i : ℕ} {c c' : Call} {e : Event}
    {table : String} (h : CallStep f i c e c' f') (hnft : e.NftSucceeds c.tableOp f.ruleset)
    (ht : table ∈ loadedBy c ∨ c.tableOp = some (.load table)) : table ∈ loadedBy c' := by
  cases h with
  | redirect =>
    rcases ht with ht | ⟨⟨⟩⟩
    · cases ht
    · exact List.mem_singleton_self _
  | switch =>
    rcases ht with ht | ⟨⟨⟩⟩
    · cases List.mem_singleton.mp ht
      exact List.mem_cons_self
    · exact List.mem_cons_of_mem _ (List.mem_singleton_self _)
  | @noRedirect uid o rs err hrun =>
    have henable := (f.redirect uid).has_enable table hnft
    rw [hrun] at henable
    cases henable.1
  | @noSwitch uid o rs err hrun =>
    have henable := (KillSwitch.Radical uid).has_enable table hnft
    rw [hrun] at henable
    cases henable.1
  | flag => exact ht.resolve_right nofun
  | _ => rcases ht with ht | ht <;> cases ht

/-- Who loads a table holds it afterwards. -/
theorem holds_of_load {table : String} (hs : s.step a = some s') (hnft : NftSucceeds s a)
    (hop : s.tableOp a = some (.load table)) : Holds s' table a.owner := by
  cases a with
  | fullAnon a =>
    obtain ⟨f', hf, rfl⟩ := Option.map_eq_some_iff.mp hs
    cases a with
    | step i e =>
      obtain ⟨c, c', f₁, hc, hstep, rfl⟩ := callStep_of_step hf
      simp only [Switches.tableOp, NftSucceeds, hc, Option.bind_some] at hop hnft
      refine ⟨c', ?_, loadedBy_step hstep hnft (.inr hop)⟩
      show (f₁.calls.set i c')[i]? = some c'
      rw [hstep.calls_eq]
      exact Machine.getElem?_set_self_of_some hc
    | _ => cases hop
  | radical i e =>
    obtain ⟨pc, pc', s₁, hpc, hstep, rfl⟩ := radicalStep_of_step hs
    simp only [Switches.tableOp, NftSucceeds, hpc, Option.bind_some] at hop hnft
    cases hstep with
    | enable hrun =>
      cases hop
      exact ⟨rfl, _, Machine.getElem?_set_self_of_some hpc, trivial⟩
    | @noEnable uid o rs err hrun =>
      have henable := (KillSwitch.Radical uid).has_enable table hnft
      rw [hrun] at henable
      cases henable.1
    | _ => cases hop
  | removal i o =>
    obtain ⟨hpc, rfl⟩ := removal_of_step hs
    simp only [Switches.tableOp, hpc, Option.bind_some] at hop
    cases hop
  | scopedEnable uid o =>
    cases hop
    rfl
  | _ => cases hop

/-- Who holds a table holds it until the table is deleted. -/
theorem holds_step {table : String} {x : Owner} (h : Holds s table x) (hs : s.step a = some s')
    (hnft : NftSucceeds s a) (hkeep : s.tableOp a ≠ some (.delete table)) : Holds s' table x := by
  cases x with
  | key => exact h
  | call i =>
    obtain ⟨c, hc, ht⟩ := h
    rcases fullAnon_step hs with ⟨b, rfl, hf⟩ | ⟨-, rs, hf⟩
    · rcases calls_step hf hc with hsame | ⟨e, c', f', rfl, hstep, hc'⟩
      · exact ⟨c, hsame, ht⟩
      · simp only [NftSucceeds, Switches.tableOp, hc, Option.bind_some] at hnft
        exact ⟨c', hc', loadedBy_step hstep hnft (.inl ht)⟩
    · exact ⟨c, by rw [hf]; exact hc, ht⟩
  | radical i =>
    obtain ⟨rfl, pc, hpc, hpending⟩ := h
    refine ⟨rfl, ?_⟩
    rcases radicals_step hs hpc with hpc' | ⟨e, pc', s₁, rfl, hstep, hpc'⟩
    · exact ⟨pc, hpc', hpending⟩
    · cases hstep with
      | expire => exact ⟨_, hpc', trivial⟩
      | revert => exact absurd (by simp [Switches.tableOp, hpc, RadicalPc.tableOp]) hkeep
      | _ => exact absurd hpending id

/-- **The step lemma**: every step keeps the installed tables accounted for. -/
theorem Accounted.step (h : Accounted s g) (hs : s.step a = some s') (hnft : NftSucceeds s a) :
    Accounted s' (g.note s a s') := by
  refine ⟨h.present_step hs hnft, ?_⟩
  intro table x hlive
  simp only [Loads.note] at hlive
  cases hop : s.tableOp a with
  | none =>
    rw [hop] at hlive
    exact holds_step (h.holds table x hlive) hs hnft (by rw [hop]; simp)
  | some op =>
    rw [hop] at hlive
    by_cases hdel : op = .delete table
    · subst hdel
      exact absurd rfl (live_delete.mp hlive).1
    · rcases live_of_cons hlive with hlive | ⟨rfl, rfl⟩
      · exact holds_step (h.holds table x hlive) hs hnft (by rw [hop]; simpa using hdel)
      · exact holds_of_load hs hnft hop

end Steps

theorem accounted_start (dataDir : Option String) (telemetry : HealthStatus) (ruleset : Ruleset)
    (now : ℕ) : Accounted (.new dataDir telemetry ruleset now) (.start ruleset) := by
  refine ⟨?_, fun table x hlive => absurd hlive id⟩
  intro table
  show ruleset.has table ↔ _
  simp [Loads.start, Live, Ruleset.has]

/-! ## The end of a session -/

/-- A step of the session, in the history of its loads. -/
def noteSession (d : Dashboard) (a : DashboardAction) (d' : Dashboard) (g : Loads) : Loads :=
  match d.switchAction a with
  | none => g
  | some b => g.note d.switches b d'.switches

/-- If the action runs `nft` on a table, then `nft` does what it is asked. -/
def SessionSucceeds (p : Dashboard × Loads) (a : DashboardAction) : Prop :=
  ∀ b ∈ p.1.switchAction a, NftSucceeds p.1.switches b

instance (p : Dashboard × Loads) (a : DashboardAction) : Decidable (SessionSucceeds p a) :=
  inferInstanceAs (Decidable (∀ _ ∈ _, _))

/-- The tables the session installs and promises to remove. -/
def sessionTables : List String := [systemTable, transparentTable]

/-- Of these tables, those still installed were there before the session. -/
def LeavesNothing (p : Dashboard × Loads) : Prop :=
  ∀ table ∈ sessionTables, p.1.ruleset.has table → table ∈ p.2.old

instance (p : Dashboard × Loads) : Decidable (LeavesNothing p) :=
  inferInstanceAs (Decidable (∀ _ ∈ _, _ → _))

/-- No `nft` in flight loads the table (onto one from before the session that none
deletes, it may), and each task and call that is past its load of the table, and not past
its own deletion, has had it deleted by somebody else. -/
def Undone (p : Dashboard × Loads) (table : String) : Prop :=
  (∀ x, p.1.switches.inFlight x = some (.load table) →
    table ∈ p.2.old ∧ ∀ y, p.1.switches.inFlight y ≠ some (.delete table)) ∧
  (table ∉ p.2.old → ∀ x, Holds p.1.switches table x → ¬ Live table x p.2.log)

/-- The firewall tasks of a session, with their history, run as they do without a
dashboard. -/
theorem reach_switching {d₀ d : Dashboard} {g₀ g : Loads}
    (h : (dashboard.watch noteSession).Reach SessionSucceeds (d₀, g₀) (d, g)) :
    (switching.watch Loads.note).Reach (fun p a => NftSucceeds p.1 a)
      (d₀.switches, g₀) (d.switches, g) := by
  refine h.project (fun p : Dashboard × Loads => (p.1.switches, p.2))
    (fun p a => p.1.switchAction a) ?_ fun p a b hg hb => hg b hb
  rintro ⟨d, g⟩ a ⟨d', g'⟩ hs
  obtain ⟨hstep, hnote⟩ := Machine.watch_step.mp hs
  have hone := step_switches hstep
  dsimp only [noteSession] at hnote
  dsimp only
  cases hb : d.switchAction a with
  | none =>
    rw [hb] at hone hnote
    exact Prod.ext hone hnote
  | some b =>
    rw [hb] at hone hnote
    exact Machine.watch_step.mpr ⟨hone, hnote⟩

theorem accounted_of_switching {dataDir : Option String} {telemetry : HealthStatus}
    {ruleset : Ruleset} {now : ℕ} {s : Switches} {g : Loads}
    (h : (switching.watch Loads.note).Reach (fun p a => NftSucceeds p.1 a)
      (.new dataDir telemetry ruleset now, .start ruleset) (s, g)) : Accounted s g := by
  refine h.invariant (I := fun p => Accounted p.1 p.2)
    (accounted_start dataDir telemetry ruleset now) ?_
  intro p a q hi hnft hs
  obtain ⟨hstep, hnote⟩ := Machine.watch_step.mp hs
  rw [hnote]
  exact hi.step hstep hnft

/-! ### The `nft` of dropped tasks -/

section Orphans

variable {s s' : Switches} {b : SwitchAction} {op : TableOp} {x : Owner}

/-- An `nft` in flight can end, having done what it was asked. -/
theorem exists_nft (h : s.inFlight x = some op) : ∃ b s', b.isNft = true ∧ b.owner = x ∧
    s.tableOp b = some op ∧ NftSucceeds s b ∧ s.step b = some s' := by
  cases x with
  | call i =>
    refine ⟨.fullAnon (.step i (.nft .ok)), ?_⟩
    obtain ⟨c, hc, hop⟩ := Option.bind_eq_some_iff.mp h
    have hstep : ∃ s', s.step (.fullAnon (.step i (.nft .ok))) = some s' := by
      refine Option.isSome_iff_exists.mp ?_
      cases c with
      | enable pc =>
        cases pc with
        | redirecting | switching | unredirecting =>
          simp [Switches.step, FullAnonController.step, hc, FullAnonController.stepCall,
            FullAnonController.stepEnable, TransparentRedirect.enable, KillSwitch.enable]
        | _ => cases hop
      | disable pc =>
        cases pc with
        | unredirecting | unswitching =>
          simp [Switches.step, FullAnonController.step, hc, FullAnonController.stepCall,
            FullAnonController.stepDisable]
        | _ => cases hop
    obtain ⟨s', hs'⟩ := hstep
    refine ⟨s', rfl, rfl, h, ?_, hs'⟩
    simp only [NftSucceeds, Switches.tableOp, hc, Option.bind_some, hop]
    cases op <;> trivial
  | radical i =>
    refine ⟨.radical i (.nft .ok), ?_⟩
    obtain ⟨pc, hpc, hop⟩ := Option.bind_eq_some_iff.mp h
    have hstep : ∃ s', s.step (.radical i (.nft .ok)) = some s' := by
      refine Option.isSome_iff_exists.mp ?_
      cases pc with
      | enabling | reverting => simp [Switches.step, hpc, Switches.stepRadical, KillSwitch.enable]
      | _ => cases hop
    obtain ⟨s', hs'⟩ := hstep
    refine ⟨s', rfl, rfl, h, ?_, hs'⟩
    simp only [NftSucceeds, Switches.tableOp, hpc, Option.bind_some, hop]
    cases op <;> trivial
  | key => cases h

/-- It is in flight for one task, and its end is no other task's. -/
theorem inFlight_orphan (hnft : b.isNft = true) (hs : s.step b = some s') :
    s.tableOp b = s.inFlight b.owner ∧ ∀ x, x ≠ b.owner → s'.inFlight x = s.inFlight x := by
  cases b with
  | fullAnon a =>
    obtain ⟨f', hf, rfl⟩ := Option.map_eq_some_iff.mp hs
    cases a with
    | step i e =>
      obtain ⟨c, c', f₁, hc, hstep, rfl⟩ := callStep_of_step hf
      refine ⟨rfl, ?_⟩
      intro x hx
      cases x with
      | call j =>
        have hij : i ≠ j := fun h => hx (h ▸ rfl)
        simp only [Switches.inFlight, List.getElem?_set_ne hij, hstep.calls_eq]
      | _ => rfl
    | _ => cases hnft
  | radical i e =>
    obtain ⟨pc, pc', s₁, hpc, hstep, rfl⟩ := radicalStep_of_step hs
    refine ⟨rfl, ?_⟩
    intro x hx
    obtain ⟨hradicals, rs, hf⟩ := hstep.frame
    cases x with
    | call j =>
      simp only [Switches.inFlight, hf]
      rfl
    | radical j =>
      have hij : i ≠ j := fun h => hx (h ▸ rfl)
      simp only [Switches.inFlight, List.getElem?_set_ne hij, hradicals]
    | key => rfl
  | _ => cases hnft

end Orphans

section Ended

variable {p q : Dashboard × Loads} {table : String} {op : TableOp} {x : Owner}

/-- Behind the end of a session, an `nft` that is in flight ends. -/
theorem exists_ended (hend : p.1.loop = .exited) (hleft : x ∉ p.1.reaped)
    (h : p.1.switches.inFlight x = some op) :
    ∃ q, (dashboard.watch noteSession).Reach SessionSucceeds p q ∧ q.1.loop = .exited ∧
      q.1.reaped = x :: p.1.reaped ∧
      (∀ table, q.1.ruleset.has table ↔ TableOp.After (some op) table (p.1.ruleset.has table)) ∧
      (∀ table, table ∈ q.2.old ↔ table ∈ p.2.old ∧ q.1.ruleset.has table) ∧
      ∀ y, y ≠ x → q.1.switches.inFlight y = p.1.switches.inFlight y := by
  obtain ⟨b, s', hnft, rfl, hop, hok, hs⟩ := exists_nft h
  have hstep := (orphan_iff hend).mpr ⟨b, s', rfl, hnft, hleft, hs, rfl⟩
  refine ⟨(_, noteSession p.1 (.background b) _ p.2),
    .step (a := .background b) .init ?_ (Machine.watch_step.mpr ⟨hstep, rfl⟩), hend, rfl, ?_, ?_,
    (inFlight_orphan hnft hs).2⟩
  · rintro _ ⟨⟩
    exact hok
  · intro table
    have hhas := step_has hs hok table
    rw [hop] at hhas
    exact hhas
  · intro table
    exact mem_old_note

/-- Nothing that is still in flight can leave the table behind. -/
def Stable (p : Dashboard × Loads) (table : String) : Prop :=
  p.1.loop = .exited ∧ ((p.1.ruleset.has table → table ∈ p.2.old) ∧
    (∀ x, x ∉ p.1.reaped → p.1.switches.inFlight x ≠ some (.load table)) ∨
    table ∈ p.2.old ∧ p.1.ruleset.has table ∧
      ∀ x, x ∉ p.1.reaped → p.1.switches.inFlight x ≠ some (.delete table))

theorem Stable.step {a : DashboardAction} (h : Stable p table) (hok : SessionSucceeds p a)
    (hs : (dashboard.watch noteSession).step p a = some q) : Stable q table := by
  obtain ⟨hend, hcases⟩ := h
  obtain ⟨hstep, hnote⟩ := Machine.watch_step.mp hs
  obtain ⟨b, s', rfl, hnft, hleft, hb, hd⟩ := (orphan_iff hend).mp hstep
  have hhas : q.1.ruleset.has table ↔
      TableOp.After (p.1.switches.tableOp b) table (p.1.ruleset.has table) := by
    rw [hd]
    exact step_has hb (hok b rfl) table
  have hold : table ∈ q.2.old ↔ table ∈ p.2.old ∧ q.1.ruleset.has table := by
    rw [hnote]
    exact mem_old_note
  obtain ⟨hop, hframe⟩ := inFlight_orphan hnft hb
  have hquiet : ∀ op, (∀ x, x ∉ p.1.reaped → p.1.switches.inFlight x ≠ some op) →
      ∀ x, x ∉ q.1.reaped → q.1.switches.inFlight x ≠ some op := by
    intro op hnone x hx
    rw [hd] at hx ⊢
    obtain ⟨hne, hx⟩ := not_or.mp (List.mem_cons.not.mp hx)
    rw [hframe x hne]
    exact hnone x hx
  refine ⟨by rw [hd]; exact hend, ?_⟩
  rcases hcases with ⟨hfrom, hnone⟩ | ⟨hmem, hthere, hnone⟩
  · refine .inl ⟨fun hq => hold.mpr ⟨hfrom ?_, hq⟩, hquiet _ hnone⟩
    have hload := hnone b.owner hleft
    rw [hhas, hop] at hq
    cases hb' : p.1.switches.inFlight b.owner with
    | none =>
      rw [hb'] at hq
      exact hq
    | some op =>
      rw [hb'] at hq hload
      cases op with
      | load t => exact hq.resolve_left fun ht => hload (by rw [ht])
      | delete t => exact hq.2
  · have hq : q.1.ruleset.has table := by
      have hdelete := hnone b.owner hleft
      rw [hhas, hop]
      cases hb' : p.1.switches.inFlight b.owner with
      | none => exact hthere
      | some op =>
        rw [hb'] at hdelete
        cases op with
        | load t => exact .inr hthere
        | delete t => exact ⟨fun ht => hdelete (by rw [ht]), hthere⟩
    exact .inr ⟨hold.mpr ⟨hmem, hq⟩, hq, hquiet _ hnone⟩

theorem Stable.old (h : Stable p table) (hhas : p.1.ruleset.has table) : table ∈ p.2.old := by
  rcases h.2 with ⟨hfrom, -⟩ | ⟨hmem, -⟩
  · exact hfrom hhas
  · exact hmem

end Ended

/-- **What a session leaves behind.**  At the end of every session whose `nft` commands
succeed: however the `nft`s still in flight end, no radical or redirect table of its own
is left if and only if, for each of the two tables, none of them loads it, and each
`k r y` task that has yet to revert and each `enable` that has loaded it has had it
deleted by somebody else. -/
theorem leavesNothing_iff (dataDir : Option String) (telemetry : HealthStatus)
    (ruleset : Ruleset) (now : ℕ) (dns : DnsShimController) (d : Dashboard) (g : Loads)
    (h : (dashboard.watch noteSession).Reach SessionSucceeds
      (.new dataDir telemetry ruleset now dns, .start ruleset) (d, g))
    (hend : d.loop = .exited) (hnone : d.reaped = []) :
    (∀ p, (dashboard.watch noteSession).Reach SessionSucceeds (d, g) p → LeavesNothing p) ↔
      ∀ table ∈ sessionTables, Undone (d, g) table := by
  have hacc : Accounted d.switches g := accounted_of_switching (reach_switching h)
  have hleft : ∀ x, x ∉ d.reaped := by
    intro x
    rw [hnone]
    exact List.not_mem_nil
  constructor
  · intro hleaves table htable
    refine ⟨?_, ?_⟩
    · intro x hload
      -- the load ends, alone or behind a deletion
      obtain ⟨p, hp, -, -, hhas, hold, -⟩ := exists_ended (p := (d, g)) hend (hleft x) hload
      have hthere := (hhas table).mpr (.inl rfl)
      refine ⟨((hold table).mp (hleaves p hp table htable hthere)).1, ?_⟩
      intro y hdelete
      have hxy : x ≠ y := by
        rintro rfl
        cases hload.symm.trans hdelete
      obtain ⟨q, hq, hqend, hreaped, hqhas, hqold, hframe⟩ :=
        exists_ended (p := (d, g)) hend (hleft y) hdelete
      have hx : x ∉ q.1.reaped := by
        rw [hreaped, hnone]
        simpa using hxy
      obtain ⟨r, hr, -, -, hrhas, hrold, -⟩ :=
        exists_ended hqend hx ((hframe x hxy).trans hload)
      have hmem := hleaves r (hq.trans hr) table htable ((hrhas table).mpr (.inl rfl))
      exact ((hqhas table).mp ((hqold table).mp ((hrold table).mp hmem).1).2).1 rfl
    · intro hnot x _ hlive
      exact hnot (hleaves (d, g) .init table htable ((hacc.present table).mpr (.inl ⟨x, hlive⟩)))
  · intro hundone p hp table htable hhas
    obtain ⟨hflight, hholders⟩ := hundone table htable
    have hstart : Stable (d, g) table := by
      refine ⟨hend, ?_⟩
      by_cases hload : ∃ x, d.switches.inFlight x = some (.load table)
      · obtain ⟨x, hx⟩ := hload
        obtain ⟨hold, hdelete⟩ := hflight x hx
        exact .inr ⟨hold, (hacc.present table).mpr (.inr hold), fun y _ => hdelete y⟩
      · refine .inl ⟨?_, fun x _ hx => hload ⟨x, hx⟩⟩
        intro hthere
        by_contra hnot
        rcases (hacc.present table).mp hthere with ⟨x, hlive⟩ | hold
        · exact hholders hnot x (hacc.holds table x hlive) hlive
        · exact hnot hold
    have hstable : Stable p table :=
      hp.invariant (I := fun p => Stable p table) hstart fun _ _ _ hi hg hs => hi.step hg hs
    exact hstable.old hhas

/-! ## Sessions -/

/-- The dashboard comes up. -/
def opened : List DashboardAction :=
  [.isRunning, .nft (.err noSuchFile), .nft (.err noSuchFile)]

/-- `k r y`, up to where the task sleeps. -/
def confirmRadical : List DashboardAction :=
  [.key (.char 'k'), .key (.char 'r'), .key (.char 'y'),
    .background (.radical 0 (.identified (.printed "0\n"))), .background (.radical 0 (.nft .ok))]

/-- `d r`, and the refresh after it. -/
def disableRadicalNow : List DashboardAction :=
  [.key (.char 'd'), .key (.char 'r'), .nft .ok, .nft (.err noSuchFile), .nft (.err noSuchFile)]

/-- The 300 s of the first `k r y` are over. -/
def radicalTimeOut : List DashboardAction :=
  [.background (.fullAnon (.tick radicalDuration)), .background (.radical 0 .go)]

/-- The radical switch is disabled by hand, and the user quits while its timer disables it
once more. -/
theorem undone_disabled : ∃ p : Dashboard × Loads, p.1.loop = .exited ∧
    p.1.switches.inFlight (.radical 0) = some (.delete systemTable) ∧
    ∀ q, (dashboard.watch noteSession).Reach SessionSucceeds p q → LeavesNothing q := by
  obtain ⟨⟨d, g⟩, hreach, hend, hreaped, hcalls, hradicals, hlive⟩ := Machine.exists_reach_of_exec
    (m := dashboard.watch noteSession) (G := SessionSucceeds)
    (s := (Dashboard.new none {} [] 0 .new, Loads.start []))
    (P := fun p => p.1.loop = .exited ∧ p.1.reaped = [] ∧ p.1.switches.fullAnon.calls.length = 0 ∧
      p.1.switches.radicals = [.reverting 0] ∧
      p.2.log = [(.delete systemTable, .key), (.load systemTable, .radical 0)])
    (opened ++ confirmRadical ++ disableRadicalNow ++ radicalTimeOut ++ [.key (.char 'q')])
    (by decide)
  dsimp only at hend hreaped hcalls hradicals hlive
  have hcall : ∀ i : ℕ, d.switches.fullAnon.calls[i]? = none := by
    intro i
    rw [List.length_eq_zero_iff.mp hcalls]
    rfl
  have hundone : ∀ table, Undone (d, g) table := by
    intro table
    refine ⟨?_, ?_⟩
    · intro x hx
      cases x with
      | call i => simp [Switches.inFlight, hcall] at hx
      | radical i => cases i <;> simp [Switches.inFlight, hradicals, RadicalPc.tableOp] at hx
      | key => cases hx
    · intro _ x _ hx
      rw [hlive] at hx
      obtain ⟨hne, ⟨heq, -⟩ | hx⟩ := hx
      · exact hne heq
      · exact hx
  refine ⟨(d, g), hend, ?_, ?_⟩
  · simp [Switches.inFlight, hradicals, RadicalPc.tableOp]
  · exact (leavesNothing_iff none {} [] 0 .new d g hreach hend hreaped).mpr
      fun table _ => hundone table

/-- The user quits while the task of `k r y` sleeps; or while its `nft` runs, which loads
the table behind the end of the session. -/
theorem not_leavesNothing_quit :
    (∃ p, (dashboard.watch noteSession).Reach SessionSucceeds
        (.new none {} [] 0 .new, .start []) p ∧
      p.1.loop = .exited ∧ p.1.reaped = [] ∧ ¬ LeavesNothing p) ∧
    ∃ p q, (dashboard.watch noteSession).Reach SessionSucceeds
        (.new none {} [] 0 .new, .start []) p ∧
      (p.1.loop = .exited ∧ p.1.reaped = [] ∧ LeavesNothing p) ∧
      (dashboard.watch noteSession).Reach SessionSucceeds p q ∧ ¬ LeavesNothing q := by
  constructor
  · exact Machine.exists_reach_of_exec (m := dashboard.watch noteSession) (G := SessionSucceeds)
      (s := (Dashboard.new none {} [] 0 .new, Loads.start []))
      (P := fun p => p.1.loop = .exited ∧ p.1.reaped = [] ∧ ¬ LeavesNothing p)
      (opened ++ confirmRadical ++ [.key (.char 'q')]) (by decide)
  · obtain ⟨p, hp, hend, hleaves⟩ := Machine.exists_reach_of_exec
      (m := dashboard.watch noteSession) (G := SessionSucceeds)
      (s := (Dashboard.new none {} [] 0 .new, Loads.start []))
      (P := fun p => p.1.loop = .exited ∧ p.1.reaped = [] ∧ LeavesNothing p ∧
        (((dashboard.watch noteSession).guardedExec SessionSucceeds p
          [.background (.radical 0 (.nft .ok))]).any fun q => decide (¬ LeavesNothing q)) = true)
      (opened ++ confirmRadical.take 4 ++ [.key (.char 'q')]) (by decide)
    obtain ⟨q, hq, hnot⟩ := Machine.exists_reach_of_exec [_] hleaves.2.2
    exact ⟨p, q, hp, ⟨hend, hleaves.1, hleaves.2.1⟩, hq, hnot⟩

end Anonet.Tui
