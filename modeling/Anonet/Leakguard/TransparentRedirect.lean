import Anonet.Leakguard.KillSwitch

/-!
# The transparent redirect

`leakguard/src/transparent_redirect.rs`: nat rules that send TCP and UDP port 53
of every uid but anonet's own to the supervised `tor` process, except towards
loopback and private destinations and for port 22.
-/

namespace Anonet.Leakguard

open Net Nft

def transparentTable : String := "anonet_transparent"

structure TransparentRedirect where
  anonetUid : UInt32
  transPort : UInt16
  dnsPort : UInt16
  deriving DecidableEq

namespace TransparentRedirect

/-- The rule set as the source writes it. -/
def ruleset (self : TransparentRedirect) : String :=
  let skipRules :=
    "\t\tmeta skuid " ++ toString self.anonetUid ++ " return\n" ++
    "\t\tip daddr \x7b 127.0.0.0/8, 10.0.0.0/8, 172.16.0.0/12, 192.168.0.0/16 \x7d return\n" ++
    "\t\tip6 daddr \x7b ::1/128, fc00::/7, fe80::/10 \x7d return\n" ++
    "\t\ttcp dport 22 return\n"
  "table inet " ++ transparentTable ++ " \x7b\n" ++
  "\tchain prerouting \x7b\n" ++
  "\t\ttype nat hook prerouting priority -100; policy accept;\n" ++
  skipRules ++
  "\t\tudp dport 53 redirect to :" ++ toString self.dnsPort ++ "\n" ++
  "\t\tmeta l4proto tcp redirect to :" ++ toString self.transPort ++ "\n" ++
  "\t\x7d\n" ++
  "\tchain output \x7b\n" ++
  "\t\ttype nat hook output priority -100; policy accept;\n" ++
  skipRules ++
  "\t\tudp dport 53 redirect to :" ++ toString self.dnsPort ++ "\n" ++
  "\t\tmeta l4proto tcp redirect to :" ++ toString self.transPort ++ "\n" ++
  "\t\x7d\n" ++
  "\x7d\n"

/-- `127.0.0.0/8, 10.0.0.0/8, 172.16.0.0/12, 192.168.0.0/16`. -/
def excludedV4 : List (Prefix 32) :=
  [⟨0x7f000000, 8⟩, ⟨0x0a000000, 8⟩, ⟨0xac100000, 12⟩, ⟨0xc0a80000, 16⟩]

/-- `::1/128, fc00::/7, fe80::/10`. -/
def excludedV6 : List (Prefix 128) :=
  [⟨1, 128⟩, ⟨0xfc000000000000000000000000000000, 7⟩,
    ⟨0xfe800000000000000000000000000000, 10⟩]

def skipRules (self : TransparentRedirect) : List Rule :=
  [⟨[.metaSkuid self.anonetUid], [.ret]⟩,
   ⟨[.ipDaddrIn excludedV4], [.ret]⟩,
   ⟨[.ip6DaddrIn excludedV6], [.ret]⟩,
   ⟨[.tcpDport 22], [.ret]⟩]

def chainRules (self : TransparentRedirect) : List Rule :=
  self.skipRules ++
    [⟨[.udpDport 53], [.redirect self.dnsPort]⟩,
     ⟨[.metaL4protoTcp], [.redirect self.transPort]⟩]

/-- One of the two nat chains; the hook names it. -/
def chain (self : TransparentRedirect) (hook : Hook) : Chain where
  name := hook.render
  type := .nat
  hook := hook
  priority := -100
  policy := .accept
  rules := self.chainRules

/-- What the text of `ruleset` declares. -/
def rules (self : TransparentRedirect) : Table :=
  ⟨transparentTable, [self.chain .prerouting, self.chain .output]⟩

@[simp] theorem rules_name (self : TransparentRedirect) :
    self.rules.name = transparentTable := rfl

/-- The declared table, written out, is the text the program produces. -/
theorem render_rules (self : TransparentRedirect) : self.rules.render = self.ruleset := by
  have hpre : ∀ rs, Chain.header ⟨Hook.prerouting.render, .nat, .prerouting, -100, .accept, rs⟩ =
      "\tchain prerouting \x7b\n" ++
        "\t\ttype nat hook prerouting priority -100; policy accept;\n" :=
    fun _ => (by decide :
      Chain.header ⟨Hook.prerouting.render, .nat, .prerouting, -100, .accept, []⟩ = _)
  have hout : ∀ rs, Chain.header ⟨Hook.output.render, .nat, .output, -100, .accept, rs⟩ =
      "\tchain output \x7b\n" ++ "\t\ttype nat hook output priority -100; policy accept;\n" :=
    fun _ => (by decide : Chain.header ⟨Hook.output.render, .nat, .output, -100, .accept, []⟩ = _)
  have hret : " " ++ Rule.render ⟨[], [.ret]⟩ ++ "\n" = " return\n" := by decide
  have hv4 : Rule.line ⟨[.ipDaddrIn excludedV4], [.ret]⟩ =
      "\t\tip daddr \x7b 127.0.0.0/8, 10.0.0.0/8, 172.16.0.0/12, 192.168.0.0/16 \x7d return\n" := by
    decide
  have hv6 : Rule.line ⟨[.ip6DaddrIn excludedV6], [.ret]⟩ =
      "\t\tip6 daddr \x7b ::1/128, fc00::/7, fe80::/10 \x7d return\n" := by decide
  have hssh : Rule.line ⟨[.tcpDport 22], [.ret]⟩ = "\t\ttcp dport 22 return\n" := by decide
  have hudp : "\t\t" ++ (Match.udpDport 53).render ++ " redirect to :" =
      "\t\tudp dport 53 redirect to :" := by decide
  have htcp : "\t\t" ++ Match.metaL4protoTcp.render ++ " redirect to :" =
      "\t\tmeta l4proto tcp redirect to :" := by decide
  delta ruleset
  simp only [Table.render, Chain.render, rules, hpre, hout, chain, chainRules, skipRules,
    List.map_cons, List.map_nil, List.cons_append, List.nil_append, line_metaSkuid, line_redirect,
    hret, hv4, hv6, hssh, hudp, htcp, String.join_cons, String.join_nil, String.append_assoc,
    String.append_empty]

def enable (self : TransparentRedirect) (o : NftOutcome) (rs : Ruleset) :
    Except String Unit × Ruleset :=
  loadTable self.rules "failed to enable transparent redirect" o rs

def disable (_self : TransparentRedirect) (o : NftOutcome) (rs : Ruleset) :
    Except String Unit × Ruleset :=
  deleteTable transparentTable "failed to disable transparent redirect" o rs

def isEnabled (_self : TransparentRedirect) (o : NftOutcome) (rs : Ruleset) :
    Except String Bool :=
  listTable transparentTable o rs

section Succeeds

variable (self : TransparentRedirect) (table : String) {o : NftOutcome} {rs : Ruleset}

theorem has_enable (h : o.Succeeds (some (.load transparentTable)) rs) :
    (self.enable o rs).1 = .ok () ∧ ((self.enable o rs).2.has table ↔
      TableOp.After (some (.load transparentTable)) table (rs.has table)) :=
  has_loadTable (t := self.rules) h

theorem has_disable (h : o.Succeeds (some (.delete transparentTable)) rs) :
    (self.disable o rs).2.has table ↔
      TableOp.After (some (.delete transparentTable)) table (rs.has table) :=
  has_deleteTable h

end Succeeds

end TransparentRedirect

theorem transparentTable_ne_systemTable : transparentTable ≠ systemTable := by decide

end Anonet.Leakguard
