import Anonet.Library.Nft
import Anonet.Library.Text
import Mathlib.Data.List.Infix

/-!
# The nftables kill switches

`leakguard/src/killswitch.rs`: two independent rule sets, each in its own
table.  `KillSwitch.ruleset` is the text the program pipes into `nft -f -`;
`KillSwitch.rules` is what that text declares, and `render_rules` says the two
are the same.
-/

namespace Anonet.Leakguard

open Net Nft

/-! ## Talking to nft -/

/-- How one run of the `nft` binary ends: it is not there to be run, it does what it is
asked, or it fails with a message. -/
inductive NftOutcome
  | notRun
  | ok
  | err (message : String)
  deriving DecidableEq

/-- What nft's error message says when a table does not exist. -/
def noSuchFile : String := "No such file or directory"

/-- `str::contains`. -/
def contains (s sub : String) : Bool := decide (sub.toList <:+: s.toList)

/-- Pipe a table declaration into `nft`; on failure nothing changes and the
error carries `context`. -/
def loadTable (t : Table) (context : String) (o : NftOutcome) (rs : Ruleset) :
    Except String Unit × Ruleset :=
  match o with
  | .ok => (.ok (), rs.load t)
  | .notRun | .err _ => (.error context, rs)

/-- Pipe `delete table inet <table>` into `nft`.  A table that does not exist
makes `nft` fail with `noSuchFile`, which is not an error here. -/
def deleteTable (table context : String) (o : NftOutcome) (rs : Ruleset) :
    Except String Unit × Ruleset :=
  match o with
  | .notRun => (.error context, rs)
  | .ok => (.ok (), rs.delete table)
  | .err message => (if contains message noSuchFile then .ok () else .error context, rs)

/-- `nft list table inet <table>`. -/
def listTable (table : String) (o : NftOutcome) (rs : Ruleset) : Except String Bool :=
  match o with
  | .notRun => .error "failed to run `nft list table`"
  | .ok => .ok (decide (rs.has table))
  | .err message =>
    if contains message noSuchFile then .ok false
    else .error s!"nft could not report table status: {message}"

@[simp] theorem loadTable_ok (t : Table) (context : String) (rs : Ruleset) :
    loadTable t context .ok rs = (.ok (), rs.load t) := rfl

@[simp] theorem deleteTable_ok (table context : String) (rs : Ruleset) :
    deleteTable table context .ok rs = (.ok (), rs.delete table) := rfl

/-- A failed `nft` run leaves the rule set unchanged. -/
theorem eq_of_loadTable_error {t : Table} {context : String} {o : NftOutcome} {rs rs' : Ruleset}
    {e : String} (h : loadTable t context o rs = (.error e, rs')) : rs' = rs := by
  cases o with
  | ok => cases h
  | notRun | err => exact (congrArg Prod.snd h).symm

/-! ### Successful runs -/

/-- What one run of `nft` is asked to do with a table. -/
inductive TableOp
  | load (table : String)
  | delete (table : String)
  deriving DecidableEq

/-- Whether a table is installed after a successful run, in terms of whether it
was before. -/
def TableOp.After (op : Option TableOp) (table : String) (before : Prop) : Prop :=
  match op with
  | none => before
  | some (.load t) => table = t ∨ before
  | some (.delete t) => table ≠ t ∧ before

theorem TableOp.After.mono {op : Option TableOp} {table : String} {p q : Prop} (hpq : p → q)
    (h : TableOp.After op table p) : TableOp.After op table q := by
  cases op with
  | none => exact hpq h
  | some op =>
    cases op with
    | load t => exact h.imp_right hpq
    | delete t => exact ⟨h.1, hpq h.2⟩

/-- What is there for one of two reasons is so afterwards for the first, or still
for the second. -/
theorem TableOp.after_or {op : Option TableOp} {table : String} {p q : Prop} :
    TableOp.After op table (p ∨ q) ↔
      TableOp.After op table p ∨ q ∧ TableOp.After op table (p ∨ q) := by
  constructor
  · intro h
    by_cases hq : q
    · exact .inr ⟨hq, h⟩
    · exact .inl (h.mono fun hpq => hpq.resolve_right hq)
  · rintro (h | ⟨-, h⟩)
    · exact h.mono .inl
    · exact h

/-- The run does what it is asked.  Deleting a table that is not there counts:
nft then says so and the callers do not mind. -/
def NftOutcome.Succeeds (op : Option TableOp) (rs : Ruleset) (o : NftOutcome) : Prop :=
  match op, o with
  | some _, .notRun => False
  | some (.load _), .err _ => False
  | some (.delete t), .err message => ¬ rs.has t ∧ contains message noSuchFile = true
  | _, _ => True

instance (op : Option TableOp) (rs : Ruleset) (o : NftOutcome) : Decidable (o.Succeeds op rs) := by
  unfold NftOutcome.Succeeds
  split <;> infer_instance

theorem has_loadTable {t : Table} {context table : String} {o : NftOutcome} {rs : Ruleset}
    (h : o.Succeeds (some (.load t.name)) rs) :
    (loadTable t context o rs).1 = .ok () ∧
      ((loadTable t context o rs).2.has table ↔
        TableOp.After (some (.load t.name)) table (rs.has table)) := by
  cases o with
  | ok => exact ⟨rfl, Ruleset.has_load⟩
  | notRun | err => exact absurd h id

/-- A successful delete leaves the tables without the one it names. -/
theorem deleteTable_snd {t context : String} {o : NftOutcome} {rs : Ruleset}
    (h : o.Succeeds (some (.delete t)) rs) : (deleteTable t context o rs).2 = rs.delete t := by
  cases o with
  | notRun => exact absurd h id
  | ok => rfl
  | err message => exact (Ruleset.delete_of_not_has h.1).symm

theorem has_deleteTable {t context table : String} {o : NftOutcome} {rs : Ruleset}
    (h : o.Succeeds (some (.delete t)) rs) :
    (deleteTable t context o rs).2.has table ↔
      TableOp.After (some (.delete t)) table (rs.has table) := by
  rw [deleteTable_snd h]
  exact Ruleset.has_delete

/-! ## The two switches -/

def scopedTable : String := "anonet_ks_scoped"

def systemTable : String := "anonet_ks_system"

inductive KillSwitch
  /-- Confine `protectUid` to loopback only. -/
  | Scoped (protectUid : UInt32)
  /-- Drop all non-loopback egress except `anonetUid`. -/
  | Radical (anonetUid : UInt32)
  deriving DecidableEq

namespace KillSwitch

def table : KillSwitch → String
  | .Scoped _ => scopedTable
  | .Radical _ => systemTable

/-- The text of the scoped rule set, as the source writes it. -/
def scopedRuleset (protectUid : UInt32) : String :=
  "table inet " ++ scopedTable ++ " \x7b\n" ++
  "\tchain output \x7b\n" ++
  "\t\ttype filter hook output priority 0; policy accept;\n" ++
  "\t\tmeta skuid " ++ toString protectUid ++ " oif lo accept\n" ++
  "\t\tmeta skuid " ++ toString protectUid ++ " ip daddr 127.0.0.1 accept\n" ++
  "\t\tmeta skuid " ++ toString protectUid ++ " ip6 daddr ::1 accept\n" ++
  "\t\tmeta skuid " ++ toString protectUid ++ " counter drop\n" ++
  "\t\x7d\n" ++
  "\x7d\n"

/-- The text of the radical rule set. -/
def radicalRuleset (anonetUid : UInt32) : String :=
  "table inet " ++ systemTable ++ " \x7b\n" ++
  "\tchain output \x7b\n" ++
  "\t\ttype filter hook output priority 0; policy accept;\n" ++
  "\t\toif lo accept\n" ++
  "\t\tmeta skuid " ++ toString anonetUid ++ " accept\n" ++
  "\t\tcounter drop\n" ++
  "\t\x7d\n" ++
  "\x7d\n"

def ruleset : KillSwitch → String
  | .Scoped protectUid => scopedRuleset protectUid
  | .Radical anonetUid => radicalRuleset anonetUid

/-- The rules of the switch's one chain. -/
def outputRules : KillSwitch → List Rule
  | .Scoped protectUid =>
    [⟨[.metaSkuid protectUid, .oif .lo], [.accept]⟩,
     ⟨[.metaSkuid protectUid, .ipDaddr .localhost], [.accept]⟩,
     ⟨[.metaSkuid protectUid, .ip6Daddr .localhost], [.accept]⟩,
     ⟨[.metaSkuid protectUid], [.counter, .drop]⟩]
  | .Radical anonetUid =>
    [⟨[.oif .lo], [.accept]⟩,
     ⟨[.metaSkuid anonetUid], [.accept]⟩,
     ⟨[], [.counter, .drop]⟩]

def outputChain (ks : KillSwitch) : Chain where
  name := "output"
  type := .filter
  hook := .output
  priority := 0
  policy := .accept
  rules := ks.outputRules

/-- What the text of `ruleset` declares. -/
def rules (ks : KillSwitch) : Table := ⟨ks.table, [ks.outputChain]⟩

@[simp] theorem rules_name (ks : KillSwitch) : ks.rules.name = ks.table := rfl

theorem header_outputChain (rs : List Rule) :
    Chain.header ⟨"output", .filter, .output, 0, .accept, rs⟩ =
      "\tchain output \x7b\n" ++ "\t\ttype filter hook output priority 0; policy accept;\n" :=
  (by decide : Chain.header ⟨"output", .filter, .output, 0, .accept, []⟩ = _)

theorem render_rules_scoped (protectUid : UInt32) :
    (Scoped protectUid).rules.render = scopedRuleset protectUid := by
  have hlo : " " ++ Rule.render ⟨[.oif .lo], [.accept]⟩ ++ "\n" = " oif lo accept\n" := by decide
  have hv4 : " " ++ Rule.render ⟨[.ipDaddr .localhost], [.accept]⟩ ++ "\n" =
      " ip daddr 127.0.0.1 accept\n" := by decide
  have hv6 : " " ++ Rule.render ⟨[.ip6Daddr .localhost], [.accept]⟩ ++ "\n" =
      " ip6 daddr ::1 accept\n" := by decide
  have hdrop : " " ++ Rule.render ⟨[], [.counter, .drop]⟩ ++ "\n" = " counter drop\n" := by decide
  delta scopedRuleset
  simp only [Table.render, Chain.render, rules, table, header_outputChain,
    outputChain, outputRules, List.map_cons, List.map_nil, line_metaSkuid, hlo, hv4, hv6, hdrop,
    String.join_cons, String.join_nil, String.append_assoc, String.append_empty]

theorem render_rules_radical (anonetUid : UInt32) :
    (Radical anonetUid).rules.render = radicalRuleset anonetUid := by
  have hlo : Rule.line ⟨[.oif .lo], [.accept]⟩ = "\t\toif lo accept\n" := by decide
  have hacc : " " ++ Rule.render ⟨[], [.accept]⟩ ++ "\n" = " accept\n" := by decide
  have hdrop : Rule.line ⟨[], [.counter, .drop]⟩ = "\t\tcounter drop\n" := by decide
  delta radicalRuleset
  simp only [Table.render, Chain.render, rules, table, header_outputChain,
    outputChain, outputRules, List.map_cons, List.map_nil, line_metaSkuid, hlo, hacc, hdrop,
    String.join_cons, String.join_nil, String.append_assoc, String.append_empty]

/-- The declared table, written out, is the text the program produces. -/
theorem render_rules : ∀ ks : KillSwitch, ks.rules.render = ks.ruleset
  | .Scoped protectUid => render_rules_scoped protectUid
  | .Radical anonetUid => render_rules_radical anonetUid

def enable (ks : KillSwitch) (o : NftOutcome) (rs : Ruleset) : Except String Unit × Ruleset :=
  loadTable ks.rules s!"failed to enable kill switch (table {ks.table})" o rs

def disable (ks : KillSwitch) (o : NftOutcome) (rs : Ruleset) : Except String Unit × Ruleset :=
  deleteTable ks.table s!"failed to disable kill switch (table {ks.table})" o rs

def isEnabled (ks : KillSwitch) (o : NftOutcome) (rs : Ruleset) : Except String Bool :=
  listTable ks.table o rs

section Succeeds

variable (ks : KillSwitch) (table : String) {o : NftOutcome} {rs : Ruleset}

theorem has_enable (h : o.Succeeds (some (.load ks.table)) rs) :
    (ks.enable o rs).1 = .ok () ∧
      ((ks.enable o rs).2.has table ↔ TableOp.After (some (.load ks.table)) table (rs.has table)) :=
  has_loadTable (t := ks.rules) h

theorem has_disable (h : o.Succeeds (some (.delete ks.table)) rs) :
    (ks.disable o rs).2.has table ↔ TableOp.After (some (.delete ks.table)) table (rs.has table) :=
  has_deleteTable h

end Succeeds

end KillSwitch

/-! ## The process's own uid -/

/-- How one run of `id -u` ends. -/
inductive IdOutcome
  | notRun
  | exited (status : String)
  | printed (stdout : String)
  deriving DecidableEq

def currentUid : IdOutcome → Except String UInt32
  | .notRun => .error "failed to run `id -u`"
  | .exited status => .error s!"`id -u` exited with {status}"
  | .printed stdout =>
    match Text.parseU32 (Text.trim stdout.toList) with
    | some uid => .ok uid
    | none => .error "`id -u` did not print a plain integer"

example : currentUid (.printed "1000\n") = .ok 1000 := by decide

/-- The two switches live in different tables. -/
theorem scopedTable_ne_systemTable : scopedTable ≠ systemTable := by decide

end Anonet.Leakguard
