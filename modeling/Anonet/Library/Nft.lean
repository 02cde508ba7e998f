import Anonet.Library.IpAddr
import Mathlib.Data.List.Sort
import Mathlib.Tactic.Common

/-!
# nftables rule sets

The part of nftables that a host firewall on locally generated traffic uses:
`inet` tables of base chains, rules with matches and statements, hooks and
priorities.

* `Packet` — what the matches can see of a packet.
* `Chain.run` — first-match evaluation: the rules are tried in order, `counter`
  falls through, `return` in a base chain applies the chain's policy.
* `traverse`, `Ruleset.output` — every base chain on the hook sees the packet,
  in priority order, and one drop is final; `Ruleset.output_eq` is what that comes
  to when all chains but the first only filter.
* `Ruleset.load` / `Ruleset.delete` — loading a table that exists appends its
  rules to the chains already there; deleting removes the table whole.
* `Ruleset.only` — one table without the others.
* `Table.render` — the concrete syntax `nft -f` reads.
-/

namespace Nft

open Net

/-! ## Packets -/

/-- A network interface; `lo` is the loopback device. -/
inductive Iface
  | lo
  | dev (name : String)
  deriving DecidableEq

/-- The transport protocol, with the destination port where there is one. -/
inductive L4
  | tcp (dport : UInt16)
  | udp (dport : UInt16)
  | other (proto : {p : UInt8 // p ≠ 6 ∧ p ≠ 17})
  deriving DecidableEq

/-- A locally generated packet, as the output hook sees it. -/
structure Packet where
  skuid : UInt32
  daddr : IpAddr
  l4 : L4
  oif : Iface
  deriving DecidableEq

/-- The loopback address of the same family. -/
def loopbackOf : IpAddr → IpAddr
  | .v4 _ => .v4 .localhost
  | .v6 _ => .v6 .localhost

def L4.withDport (port : UInt16) : L4 → L4
  | .tcp _ => .tcp port
  | .udp _ => .udp port
  | .other p => .other p

/-- What `redirect to :port` does to a locally generated packet: its
destination becomes the loopback address, so it goes out through `lo`. -/
def Packet.redirect (p : Packet) (port : UInt16) : Packet :=
  { p with daddr := loopbackOf p.daddr, l4 := p.l4.withDport port, oif := .lo }

@[simp] theorem Packet.redirect_oif (p : Packet) (port : UInt16) :
    (p.redirect port).oif = .lo := rfl

@[simp] theorem Packet.redirect_skuid (p : Packet) (port : UInt16) :
    (p.redirect port).skuid = p.skuid := rfl

/-! ## Rules -/

inductive Match
  | metaSkuid (uid : UInt32)
  | oif (iface : Iface)
  | ipDaddr (addr : Ipv4Addr)
  | ipDaddrIn (ranges : List (Prefix 32))
  | ip6Daddr (addr : Ipv6Addr)
  | ip6DaddrIn (ranges : List (Prefix 128))
  | tcpDport (port : UInt16)
  | udpDport (port : UInt16)
  | metaL4protoTcp
  deriving DecidableEq

inductive Statement
  | counter
  | accept
  | drop
  | ret
  | redirect (port : UInt16)
  deriving DecidableEq

/-- A rule: when all its matches hold, its statements run from the left. -/
structure Rule where
  matches_ : List Match
  statements : List Statement
  deriving DecidableEq

/-- Whether a match holds.  `ip` and `tcp` matches hold only of packets of
their own family and protocol. -/
def Match.holds (p : Packet) : Match → Bool
  | .metaSkuid uid => p.skuid = uid
  | .oif i => p.oif = i
  | .ipDaddr a => p.daddr = .v4 a
  | .ipDaddrIn ranges =>
    match p.daddr with
    | .v4 a => ranges.any (·.contains a.bits)
    | .v6 _ => false
  | .ip6Daddr a => p.daddr = .v6 a
  | .ip6DaddrIn ranges =>
    match p.daddr with
    | .v4 _ => false
    | .v6 a => ranges.any (·.contains a.bits)
  | .tcpDport port => p.l4 = .tcp port
  | .udpDport port => p.l4 = .udp port
  | .metaL4protoTcp =>
    match p.l4 with
    | .tcp _ => true
    | _ => false

/-- What ends the evaluation of a chain. -/
inductive Verdict
  | accept
  | drop
  | ret
  | redirect (port : UInt16)
  deriving DecidableEq

def Statement.verdict : Statement → Option Verdict
  | .counter => none
  | .accept => some .accept
  | .drop => some .drop
  | .ret => some .ret
  | .redirect port => some (.redirect port)

def Rule.verdict (p : Packet) (r : Rule) : Option Verdict :=
  if r.matches_.all (·.holds p) then r.statements.findSome? Statement.verdict else none

/-! ## Chains and hooks -/

inductive ChainType
  | nat
  | filter
  deriving DecidableEq

inductive Hook
  | prerouting
  | output
  deriving DecidableEq

inductive Policy
  | accept
  | drop
  deriving DecidableEq

/-- A base chain. -/
structure Chain where
  name : String
  type : ChainType
  hook : Hook
  priority : ℤ
  policy : Policy
  rules : List Rule
  deriving DecidableEq

/-- The first rule with a verdict decides. -/
def verdictOf (rules : List Rule) (p : Packet) : Option Verdict :=
  rules.findSome? (·.verdict p)

@[simp] theorem verdictOf_nil (p : Packet) : verdictOf [] p = none := rfl

/-- Evaluation of a rule list, one rule at a time. -/
theorem verdictOf_cons (r : Rule) (rs : List Rule) (p : Packet) :
    verdictOf (r :: rs) p =
      if r.matches_.all (·.holds p) = true then
        (r.statements.findSome? Statement.verdict).or (verdictOf rs p)
      else verdictOf rs p := by
  rw [verdictOf, List.findSome?_cons, Rule.verdict]
  by_cases h : r.matches_.all (·.holds p) = true
  · rw [if_pos h, if_pos h]
    cases r.statements.findSome? Statement.verdict <;> rfl
  · rw [if_neg h, if_neg h]
    rfl

theorem verdictOf_append (rs rs' : List Rule) (p : Packet) :
    verdictOf (rs ++ rs') p = (verdictOf rs p).or (verdictOf rs' p) := List.findSome?_append

def Policy.apply (p : Packet) : Policy → Option Packet
  | .accept => some p
  | .drop => none

/-- One base chain: the packet it lets through, possibly rewritten, or `none`
when it drops the packet. -/
def Chain.run (c : Chain) (p : Packet) : Option Packet :=
  match verdictOf c.rules p with
  | none | some .ret => c.policy.apply p
  | some .accept => some p
  | some .drop => none
  | some (.redirect port) => some (p.redirect port)

/-- An `inet` table. -/
structure Table where
  name : String
  chains : List Chain
  deriving DecidableEq

abbrev Ruleset := List Table

/-- A packet passes every chain of the list in turn, or is dropped. -/
def traverse (chains : List Chain) (p : Packet) : Option Packet :=
  chains.foldlM (fun p c => c.run p) p

/-- The base chains on a hook, lowest priority number first; chains of equal
priority in the order they were registered. -/
def Ruleset.chainsOn (rs : Ruleset) (h : Hook) : List Chain :=
  ((rs.flatMap (·.chains)).filter (·.hook = h)).insertionSort (·.priority ≤ ·.priority)

/-- The fate of a locally generated packet: what leaves, or `none` if dropped. -/
def Ruleset.output (rs : Ruleset) (p : Packet) : Option Packet :=
  traverse (rs.chainsOn .output) p

/-! ### Chains that only filter -/

/-- The chain lets a packet through as it is, or drops it. -/
def Chain.Filters (c : Chain) : Prop := ∀ p, c.run p = some p ∨ c.run p = none

theorem traverse_cons (c : Chain) (cs : List Chain) (p : Packet) :
    traverse (c :: cs) p = (c.run p).bind (traverse cs) := rfl

theorem traverse_singleton (c : Chain) (p : Packet) : traverse [c] p = c.run p := by
  rw [traverse_cons]
  cases c.run p <;> rfl

theorem traverse_append (cs ds : List Chain) (p : Packet) :
    traverse (cs ++ ds) p = (traverse cs p).bind (traverse ds) := List.foldlM_append

/-- Filters let through what each of them lets through, in whatever order they
stand. -/
theorem traverse_filters {cs : List Chain} (h : ∀ c ∈ cs, c.Filters) (p : Packet) :
    traverse cs p = if ∀ c ∈ cs, c.run p = some p then some p else none := by
  induction cs with
  | nil => rfl
  | cons c cs ih =>
    rw [traverse_cons]
    rcases h c List.mem_cons_self p with hc | hc
    · rw [hc, Option.bind_some, ih fun d hd => h d (List.mem_cons_of_mem c hd)]
      simp [hc]
    · simp [hc]

/-- **The fate of a packet behind at most one chain that comes first**, followed by
chains that only filter: loading order does not matter. -/
theorem Ruleset.output_eq {rs : Ruleset} {first : Option Chain} {filters : List Chain}
    (hperm : ((rs.flatMap (·.chains)).filter (·.hook = .output)).Perm (first.toList ++ filters))
    (hprio : ∀ c ∈ first, ∀ d ∈ filters, c.priority < d.priority)
    (hfilters : ∀ d ∈ filters, d.Filters) (p : Packet) :
    rs.output p = (traverse first.toList p).bind fun q =>
      if ∀ d ∈ filters, d.run q = some q then some q else none := by
  obtain ⟨rest, hsort, hrest⟩ : ∃ rest,
      rs.chainsOn .output = first.toList ++ rest ∧ rest.Perm filters := by
    have hp : (rs.chainsOn .output).Perm (first.toList ++ filters) :=
      (List.perm_insertionSort _ _).trans hperm
    have hsorted : (rs.chainsOn .output).Pairwise (·.priority ≤ ·.priority) :=
      List.pairwise_insertionSort _ _
    cases first with
    | none => exact ⟨_, rfl, hp⟩
    | some c =>
      -- the head of the sorted list cannot be a filter, which would have to come behind `c`
      cases hl : rs.chainsOn .output with
      | nil =>
        rw [hl] at hp
        exact absurd hp.length_eq (by simp)
      | cons d ds =>
        rw [hl] at hp hsorted
        have hmem : c ∈ d :: ds := hp.mem_iff.mpr List.mem_cons_self
        have hd : d = c := by
          rcases List.mem_cons.mp (hp.mem_iff.mp List.mem_cons_self) with hd | hd
          · exact hd
          · rcases List.mem_cons.mp hmem with hc | hc
            · exact hc.symm
            · have hle : d.priority ≤ c.priority := List.rel_of_pairwise_cons hsorted hc
              exact absurd (hprio c rfl d hd) (not_lt.mpr hle)
        subst hd
        exact ⟨ds, rfl, hp.cons_inv⟩
  rw [Ruleset.output, hsort, traverse_append]
  refine congrArg _ (funext fun q => ?_)
  rw [traverse_filters fun d hd => hfilters d (hrest.mem_iff.mp hd)]
  simp only [hrest.mem_iff]

/-! ## Loading and deleting tables -/

/-- Add a chain's rules to the chain of that name, or the chain itself if there
is none. -/
def addChain (c : Chain) : List Chain → List Chain
  | [] => [c]
  | d :: cs => if d.name = c.name then { d with rules := d.rules ++ c.rules } :: cs
      else d :: addChain c cs

/-- The chains of one table declaration added to those of another. -/
def Table.append (u t : Table) : Table :=
  { u with chains := t.chains.foldl (fun cs c => addChain c cs) u.chains }

/-- `nft -f` on a table declaration. -/
def Ruleset.load (t : Table) : Ruleset → Ruleset
  | [] => [t]
  | u :: rs => if u.name = t.name then u.append t :: rs else u :: Ruleset.load t rs

/-- `delete table inet name`. -/
def Ruleset.delete (name : String) (rs : Ruleset) : Ruleset := rs.filter (·.name ≠ name)

/-- The table is installed. -/
def Ruleset.has (name : String) (rs : Ruleset) : Prop := name ∈ rs.map (·.name)

instance (name : String) (rs : Ruleset) : Decidable (rs.has name) :=
  inferInstanceAs (Decidable (_ ∈ _))

@[simp] theorem Ruleset.has_nil (name : String) : ¬ Ruleset.has name [] := by
  simp [Ruleset.has]

theorem Ruleset.has_cons {name : String} {t : Table} {rs : Ruleset} :
    Ruleset.has name (t :: rs) ↔ name = t.name ∨ rs.has name := by
  simp [Ruleset.has]

@[simp] theorem Ruleset.has_load {name : String} {t : Table} {rs : Ruleset} :
    (rs.load t).has name ↔ name = t.name ∨ rs.has name := by
  induction rs with
  | nil => simp [Ruleset.load, Ruleset.has]
  | cons u rs ih =>
    rw [Ruleset.load]
    split
    · rename_i h
      simp only [Ruleset.has_cons, Table.append, h]
      tauto
    · simp only [Ruleset.has_cons, ih]
      tauto

@[simp] theorem Ruleset.has_delete {name other : String} {rs : Ruleset} :
    (rs.delete other).has name ↔ name ≠ other ∧ rs.has name := by
  simp only [Ruleset.has, Ruleset.delete, List.mem_map, List.mem_filter, decide_eq_true_eq]
  constructor
  · rintro ⟨t, ⟨ht, hne⟩, rfl⟩
    exact ⟨hne, t, ht, rfl⟩
  · rintro ⟨hne, t, ht, rfl⟩
    exact ⟨t, ⟨ht, hne⟩, rfl⟩

/-- Deleting a table that is not there. -/
theorem Ruleset.delete_of_not_has {name : String} {rs : Ruleset} (h : ¬ rs.has name) :
    rs.delete name = rs := by
  refine List.filter_eq_self.mpr ?_
  intro t ht
  refine decide_eq_true ?_
  rintro rfl
  exact h (List.mem_map_of_mem ht)

/-- Deleting a table takes back that it was loaded, if it was not there before. -/
theorem Ruleset.delete_load {t : Table} {rs : Ruleset} (h : ¬ rs.has t.name) :
    (rs.load t).delete t.name = rs := by
  induction rs with
  | nil => simp [Ruleset.load, Ruleset.delete]
  | cons u rs ih =>
    rw [Ruleset.has_cons, not_or] at h
    have hu : u.name ≠ t.name := fun heq => h.1 heq.symm
    have hrest := ih h.2
    simp only [Ruleset.delete] at hrest ⊢
    rw [Ruleset.load, if_neg hu, List.filter_cons_of_pos (by simpa using hu), hrest]

/-! ### One table alone -/

/-- The tables of one name. -/
def Ruleset.only (name : String) (rs : Ruleset) : Ruleset := rs.filter (·.name = name)

section Only

variable {name : String} {t : Table} {rs : Ruleset}

theorem Ruleset.only_load_self : (rs.load t).only t.name = (rs.only t.name).load t := by
  induction rs with
  | nil => simp [Ruleset.only, Ruleset.load]
  | cons u rs ih =>
    by_cases hu : u.name = t.name
    · simp [Ruleset.only, Ruleset.load, Table.append, hu]
    · rw [Ruleset.load, if_neg hu]
      simp only [Ruleset.only] at ih ⊢
      rw [List.filter_cons_of_neg (by simp [hu]), List.filter_cons_of_neg (by simp [hu]), ih]

theorem Ruleset.only_load_of_ne (h : t.name ≠ name) : (rs.load t).only name = rs.only name := by
  induction rs with
  | nil => simp [Ruleset.only, Ruleset.load, h]
  | cons u rs ih =>
    by_cases hu : u.name = t.name
    · simp [Ruleset.only, Ruleset.load, Table.append, hu, h]
    · rw [Ruleset.load, if_neg hu]
      simp only [Ruleset.only] at ih ⊢
      rw [List.filter_cons, List.filter_cons, ih]

theorem Ruleset.only_delete_self : (rs.delete name).only name = [] := by
  simp [Ruleset.only, Ruleset.delete]

theorem Ruleset.only_delete_of_ne {other : String} (h : other ≠ name) :
    (rs.delete other).only name = rs.only name := by
  rw [Ruleset.only, Ruleset.delete, List.filter_filter]
  refine List.filter_congr ?_
  intro u _
  by_cases hu : u.name = name
  · simp [hu, h.symm]
  · simp [hu]

end Only

/-! ## Concrete syntax -/

def Iface.render : Iface → String
  | .lo => "lo"
  | .dev name => name

def renderV4 (p : Prefix 32) : String :=
  Ipv4Addr.display ⟨p.base⟩ ++ "/" ++ toString p.length

def renderV6 (p : Prefix 128) : String :=
  Ipv6Addr.display ⟨p.base⟩ ++ "/" ++ toString p.length

/-- An anonymous set. -/
def renderSet (items : List String) : String :=
  "\x7b " ++ ", ".intercalate items ++ " \x7d"

def Match.render : Match → String
  | .metaSkuid uid => "meta skuid " ++ toString uid
  | .oif i => "oif " ++ i.render
  | .ipDaddr a => "ip daddr " ++ a.display
  | .ipDaddrIn ranges => "ip daddr " ++ renderSet (ranges.map renderV4)
  | .ip6Daddr a => "ip6 daddr " ++ a.display
  | .ip6DaddrIn ranges => "ip6 daddr " ++ renderSet (ranges.map renderV6)
  | .tcpDport port => "tcp dport " ++ toString port
  | .udpDport port => "udp dport " ++ toString port
  | .metaL4protoTcp => "meta l4proto tcp"

def Statement.render : Statement → String
  | .counter => "counter"
  | .accept => "accept"
  | .drop => "drop"
  | .ret => "return"
  | .redirect port => "redirect to :" ++ toString port

def Rule.render (r : Rule) : String :=
  " ".intercalate (r.matches_.map Match.render ++ r.statements.map Statement.render)

/-- A rule on a line of its own. -/
def Rule.line (r : Rule) : String := "\t\t" ++ r.render ++ "\n"

def ChainType.render : ChainType → String
  | .nat => "nat"
  | .filter => "filter"

def Hook.render : Hook → String
  | .prerouting => "prerouting"
  | .output => "output"

def Policy.render : Policy → String
  | .accept => "accept"
  | .drop => "drop"

def Chain.header (c : Chain) : String :=
  "\tchain " ++ c.name ++ " \x7b\n" ++ "\t\ttype " ++ c.type.render ++ " hook " ++ c.hook.render ++
    " priority " ++ toString c.priority ++ "; policy " ++ c.policy.render ++ ";\n"

def Chain.render (c : Chain) : String :=
  c.header ++ String.join (c.rules.map Rule.line) ++ "\t\x7d\n"

def Table.render (t : Table) : String :=
  "table inet " ++ t.name ++ " \x7b\n" ++ String.join (t.chains.map Chain.render) ++ "\x7d\n"

/-- A line that begins with a uid match. -/
theorem line_metaSkuid (uid : UInt32) (ms : List Match) (st : Statement) (sts : List Statement) :
    Rule.line ⟨.metaSkuid uid :: ms, st :: sts⟩ =
      "\t\tmeta skuid " ++ toString uid ++ (" " ++ Rule.render ⟨ms, st :: sts⟩ ++ "\n") := by
  have htab : "\t\tmeta skuid " = "\t\t" ++ "meta skuid " := by decide
  obtain ⟨x, xs, hx⟩ : ∃ x xs,
      ms.map Match.render ++ (st :: sts).map Statement.render = x :: xs := by
    cases ms with
    | nil => exact ⟨_, _, rfl⟩
    | cons m ms => exact ⟨_, _, rfl⟩
  simp only [Rule.line, Rule.render, List.map_cons, List.cons_append] at hx ⊢
  rw [hx, String.intercalate_cons_cons, htab]
  simp only [Match.render, String.append_assoc]

/-- A line that ends in a redirect. -/
theorem line_redirect (m : Match) (port : UInt16) :
    Rule.line ⟨[m], [.redirect port]⟩ =
      ("\t\t" ++ m.render ++ " redirect to :") ++ toString port ++ "\n" := by
  have hsp : " redirect to :" = " " ++ "redirect to :" := by decide
  simp only [Rule.line, Rule.render, List.map_cons, List.map_nil, List.cons_append,
    List.nil_append, String.intercalate_cons_cons, String.intercalate_singleton, Statement.render,
    hsp, String.append_assoc]

end Nft
