import Anonet.Leakguard.PacketFate

/-!
# Switches enabled more than once

Loading a table that exists appends its rules to the chain already there, so what
a switch does depends on every enable since its table was last deleted.

* `stack` — these enables; `only_after` says that the installed chain is the
  concatenation of their rules.
* `verdicts_iff` — **a radical switch exempts its own uid if and only if the first
  enable of the stack did; a scoped switch confines its own uid alone if and only
  if no enable of the stack confines another.**
-/

namespace Anonet.Leakguard

open Net Nft KillSwitch

/-! ## Histories -/

/-- One successful call on a switch. -/
inductive SwitchOp
  | enable (ks : KillSwitch)
  | disable (ks : KillSwitch)
  deriving DecidableEq

def SwitchOp.run (op : SwitchOp) (rs : Ruleset) : Ruleset :=
  match op with
  | .enable ks => (ks.enable .ok rs).2
  | .disable ks => (ks.disable .ok rs).2

/-- The tables after a history of successful calls, starting from none. -/
def after (ops : List SwitchOp) : Ruleset := ops.foldl (fun rs op => op.run rs) []

/-- What one more call makes of a table's stack. -/
def stackOp (table : String) (stack : List KillSwitch) : SwitchOp → List KillSwitch
  | .enable ks => if ks.table = table then stack ++ [ks] else stack
  | .disable ks => if ks.table = table then [] else stack

/-- The enables of a table since it was last deleted, oldest first. -/
def stack (table : String) (ops : List SwitchOp) : List KillSwitch :=
  ops.foldl (stackOp table) []

/-- The chain these enables have built up in the table. -/
def stackedChain (kss : List KillSwitch) : Chain where
  name := "output"
  type := .filter
  hook := .output
  priority := 0
  policy := .accept
  rules := kss.flatMap outputRules

def stackedTables (table : String) : List KillSwitch → Ruleset
  | [] => []
  | ks :: kss => [⟨table, [stackedChain (ks :: kss)]⟩]

theorem stackedTables_load {table : String} (kss : List KillSwitch) {ks : KillSwitch}
    (h : ks.table = table) :
    (stackedTables table kss).load ks.rules = stackedTables table (kss ++ [ks]) := by
  subst h
  cases kss with
  | nil => simp [stackedTables, Ruleset.load, stackedChain, KillSwitch.rules, outputChain]
  | cons ks' kss =>
    simp [stackedTables, Ruleset.load, Table.append, addChain, stackedChain, KillSwitch.rules,
      outputChain]

/-- One call keeps the installed chain and the stack together. -/
theorem only_run (op : SwitchOp) {table : String} {rs : Ruleset} {kss : List KillSwitch}
    (h : rs.only table = stackedTables table kss) :
    (op.run rs).only table = stackedTables table (stackOp table kss op) := by
  cases op with
  | enable ks =>
    show (rs.load ks.rules).only table = _
    by_cases ht : ks.table = table
    · have hself : (rs.load ks.rules).only table = (rs.only table).load ks.rules := by
        rw [← ht]
        exact Ruleset.only_load_self (t := ks.rules)
      rw [hself, h, stackedTables_load kss ht, stackOp, if_pos ht]
    · rw [Ruleset.only_load_of_ne ht, h, stackOp, if_neg ht]
  | disable ks =>
    show (rs.delete ks.table).only table = _
    by_cases ht : ks.table = table
    · rw [← ht, Ruleset.only_delete_self, stackOp, if_pos rfl]
      rfl
    · rw [Ruleset.only_delete_of_ne ht, h, stackOp, if_neg ht]

/-- **The installed chain is the concatenation of the stack's rules.** -/
theorem only_after (table : String) (ops : List SwitchOp) :
    (after ops).only table = stackedTables table (stack table ops) := by
  have hfold : ∀ (ops : List SwitchOp) (rs : Ruleset) (kss : List KillSwitch),
      rs.only table = stackedTables table kss →
      (ops.foldl (fun rs op => op.run rs) rs).only table =
        stackedTables table (ops.foldl (stackOp table) kss) := by
    intro ops
    induction ops with
    | nil => exact fun _ _ h => h
    | cons op ops ih =>
      intro rs kss h
      exact ih (op.run rs) (stackOp table kss op) (only_run op h)
  exact hfold ops [] [] rfl

theorem stack_concat (table : String) (ops : List SwitchOp) (op : SwitchOp) :
    stack table (ops ++ [op]) = stackOp table (stack table ops) op := by
  rw [stack, List.foldl_append]
  rfl

/-- Only switches of the table are in its stack. -/
theorem table_of_mem_stack {table : String} {ops : List SwitchOp} {ks : KillSwitch}
    (h : ks ∈ stack table ops) : ks.table = table := by
  induction ops using List.reverseRecOn with
  | nil => exact absurd h List.not_mem_nil
  | append_singleton ops op ih =>
    rw [stack_concat] at h
    cases op with
    | enable ks' =>
      rw [stackOp] at h
      split at h
      · rename_i ht
        rcases List.mem_append.mp h with h | h
        · exact ih h
        · rw [List.mem_singleton.mp h, ht]
      · exact ih h
    | disable ks' =>
      rw [stackOp] at h
      split at h
      · exact absurd h List.not_mem_nil
      · exact ih h

/-! ## What a stack does -/

/-- The packet stays on the machine. -/
def LoopbackBound (p : Packet) : Prop :=
  p.oif = .lo ∨ p.daddr = .v4 .localhost ∨ p.daddr = .v6 .localhost

instance (p : Packet) : Decidable (LoopbackBound p) := inferInstanceAs (Decidable (_ ∨ _))

attribute [local simp] verdictOf_cons List.findSome?_cons Statement.verdict Match.holds

/-- The rules of a radical switch decide on every packet. -/
theorem verdictOf_radical (uid : UInt32) (p : Packet) :
    verdictOf (outputRules (.Radical uid)) p =
      some (if p.oif = .lo ∨ p.skuid = uid then .accept else .drop) := by
  by_cases hlo : p.oif = .lo
  · simp [outputRules, hlo]
  · by_cases hu : p.skuid = uid <;> simp [outputRules, hlo, hu]

theorem verdictOf_scoped (uid : UInt32) (p : Packet) :
    verdictOf (outputRules (.Scoped uid)) p =
      if p.skuid = uid then some (if LoopbackBound p then .accept else .drop) else none := by
  by_cases hu : p.skuid = uid
  · by_cases hlo : p.oif = .lo
    · simp [outputRules, LoopbackBound, hlo, hu]
    · by_cases h4 : p.daddr = .v4 .localhost
      · simp [outputRules, LoopbackBound, hlo, hu, h4]
      · by_cases h6 : p.daddr = .v6 .localhost <;>
          simp [outputRules, LoopbackBound, hlo, hu, h4, h6]
  · simp [outputRules, hu]

/-- In a stack of radical switches the first decides. -/
theorem run_stacked_radical (uid : UInt32) (kss : List KillSwitch) (p : Packet) :
    (stackedChain (.Radical uid :: kss)).run p =
      if p.oif = .lo ∨ p.skuid = uid then some p else none := by
  simp only [Chain.run, stackedChain, List.flatMap_cons, verdictOf_append, verdictOf_radical,
    Option.some_or]
  by_cases hpass : p.oif = .lo ∨ p.skuid = uid
  · rw [if_pos hpass, if_pos hpass]
  · rw [if_neg hpass, if_neg hpass]

/-- A stack of scoped switches confines every uid in it. -/
theorem run_stacked_scoped {kss : List KillSwitch} (h : ∀ ks ∈ kss, ks.table = scopedTable)
    (p : Packet) :
    (stackedChain kss).run p =
      if .Scoped p.skuid ∈ kss ∧ ¬ LoopbackBound p then none else some p := by
  have hverdict : verdictOf (kss.flatMap outputRules) p =
      if .Scoped p.skuid ∈ kss then some (if LoopbackBound p then .accept else .drop)
      else none := by
    induction kss with
    | nil => rfl
    | cons ks kss ih =>
      rw [List.flatMap_cons, verdictOf_append, ih fun ks hks => h ks (List.mem_cons_of_mem _ hks)]
      cases ks with
      | Scoped uid =>
        rw [verdictOf_scoped]
        by_cases hu : p.skuid = uid
        · simp [hu]
        · simp [hu]
      | Radical uid =>
        exact absurd (h _ List.mem_cons_self).symm scopedTable_ne_systemTable
  simp only [Chain.run, stackedChain, hverdict]
  by_cases hmem : KillSwitch.Scoped p.skuid ∈ kss
  · by_cases hlo : LoopbackBound p <;> simp [hmem, hlo]
  · simp [hmem, Policy.apply]

theorem run_stacked_scoped_eq_none {kss : List KillSwitch}
    (h : ∀ ks ∈ kss, ks.table = scopedTable) (p : Packet) :
    (stackedChain kss).run p = none ↔ .Scoped p.skuid ∈ kss ∧ ¬ LoopbackBound p := by
  rw [run_stacked_scoped h]
  split
  · rename_i hdrop
    exact iff_of_true rfl hdrop
  · rename_i hpass
    exact iff_of_false (Option.some_ne_none p) hpass

/-! ## What enabling a switch promises -/

/-- The radical table lets a packet pass exactly when it goes out through loopback
or belongs to `uid`. -/
def Exempts (rs : Ruleset) (uid : UInt32) : Prop :=
  ∀ p, ((rs.only systemTable).output p).isSome ↔ p.oif = .lo ∨ p.skuid = uid

/-- The scoped table drops exactly the packets of `uid` that leave the machine. -/
def Confines (rs : Ruleset) (uid : UInt32) : Prop :=
  ∀ p, (rs.only scopedTable).output p = none ↔ p.skuid = uid ∧ ¬ LoopbackBound p

theorem output_stackedTables (table : String) (kss : List KillSwitch) (p : Packet) :
    (stackedTables table kss).output p =
      match kss with
      | [] => some p
      | ks :: kss => (stackedChain (ks :: kss)).run p := by
  cases kss with
  | nil => rfl
  | cons ks kss => exact traverse_singleton (stackedChain (ks :: kss)) p

/-- A packet of `uid` on its way out of the machine. -/
def outbound (uid : UInt32) : Packet := ⟨uid, .v4 (.ofOctets [1, 1, 1, 1]), .tcp 443, .dev "eth0"⟩

theorem not_loopbackBound_outbound (uid : UInt32) : ¬ LoopbackBound (outbound uid) := by
  show ¬ LoopbackBound (outbound 0)
  decide

/-- Right after `Radical uid` is enabled. -/
theorem exempts_iff (ops : List SwitchOp) (uid : UInt32) :
    Exempts (after (ops ++ [.enable (.Radical uid)])) uid ↔
      ∀ ks, (stack systemTable ops).head? = some ks → ks = .Radical uid := by
  have hstack : stack systemTable (ops ++ [.enable (.Radical uid)]) =
      stack systemTable ops ++ [.Radical uid] := stack_concat _ _ _
  rw [Exempts, only_after, hstack]
  cases hs : stack systemTable ops with
  | nil =>
    simp only [List.nil_append, output_stackedTables, run_stacked_radical]
    refine iff_of_true ?_ (by simp)
    intro p
    split <;> simp_all
  | cons ks kss =>
    have ht : ks.table = systemTable := table_of_mem_stack (hs ▸ List.mem_cons_self)
    cases ks with
    | Scoped v => exact absurd ht scopedTable_ne_systemTable
    | Radical v =>
      simp only [List.cons_append, output_stackedTables, run_stacked_radical, List.head?_cons,
        Option.some.injEq, forall_eq']
      constructor
      · intro h
        -- the exempt uid of the first enable still passes, so it has to be `uid`
        have hpass := (h (outbound v)).mp (by simp [outbound])
        rcases hpass with hlo | hv
        · exact absurd hlo (by simp [outbound])
        · exact congrArg KillSwitch.Radical hv
      · rintro ⟨⟩ p
        split <;> simp_all

/-- Right after `Scoped uid` is enabled. -/
theorem confines_iff (ops : List SwitchOp) (uid : UInt32) :
    Confines (after (ops ++ [.enable (.Scoped uid)])) uid ↔
      ∀ ks ∈ stack scopedTable ops, ks = .Scoped uid := by
  have hstack : stack scopedTable (ops ++ [.enable (.Scoped uid)]) =
      stack scopedTable ops ++ [.Scoped uid] := stack_concat _ _ _
  have htable : ∀ ks ∈ stack scopedTable ops ++ [.Scoped uid], ks.table = scopedTable :=
    fun ks hks => table_of_mem_stack (hstack ▸ hks)
  have hrun : ∀ p, (stackedTables scopedTable (stack scopedTable ops ++ [.Scoped uid])).output p =
      (stackedChain (stack scopedTable ops ++ [.Scoped uid])).run p := by
    intro p
    rw [output_stackedTables]
    cases stack scopedTable ops <;> rfl
  simp only [Confines, only_after, hstack, hrun, run_stacked_scoped_eq_none htable]
  constructor
  · intro h ks hks
    have ht : ks.table = scopedTable := table_of_mem_stack hks
    cases ks with
    | Radical v => exact absurd ht.symm scopedTable_ne_systemTable
    | Scoped v =>
      -- an outbound packet of `v` is dropped, so `v` has to be `uid`
      have hdrop := (h (outbound v)).mp
        ⟨List.mem_append_left _ hks, not_loopbackBound_outbound v⟩
      exact congrArg KillSwitch.Scoped hdrop.1
  · intro h p
    refine and_congr_left' ?_
    rw [List.mem_append, List.mem_singleton, KillSwitch.Scoped.injEq]
    refine or_iff_right_of_imp ?_
    intro hp
    exact KillSwitch.Scoped.inj (h _ hp)

/-- **The exact condition.**  Right after a successful enable, the radical table
exempts the uid it was enabled for if and only if the first enable since the table
was last deleted was for that uid; the scoped table confines just the uid it was
enabled for if and only if every enable since then was for that uid. -/
theorem verdicts_iff (ops : List SwitchOp) (uid : UInt32) :
    (Exempts (after (ops ++ [.enable (.Radical uid)])) uid ↔
      ∀ ks, (stack systemTable ops).head? = some ks → ks = .Radical uid) ∧
    (Confines (after (ops ++ [.enable (.Scoped uid)])) uid ↔
      ∀ ks ∈ stack scopedTable ops, ks = .Scoped uid) :=
  ⟨exempts_iff ops uid, confines_iff ops uid⟩

/-- A second enable for another uid exempts, or confines, the first one still. -/
theorem not_verdicts_twoUids :
    ¬ Exempts (after [.enable (.Radical 1000), .enable (.Radical 0)]) 0 ∧
      ¬ Confines (after [.enable (.Scoped 1000), .enable (.Scoped 1001)]) 1001 := by
  constructor
  · intro h
    exact absurd (h (outbound 0)) (by decide)
  · intro h
    exact absurd (h (outbound 1000)) (by decide)

end Anonet.Leakguard
