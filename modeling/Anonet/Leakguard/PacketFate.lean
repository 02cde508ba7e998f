import Anonet.Leakguard.TransparentRedirect

/-!
# What happens to a packet

The verdicts of the three rule sets, each as one equation over all packets
(`run_radical`, `run_scoped`, `run_redirect`), and what the redirect and the
radical switch do together once full anonymization has loaded both:
`output_fullAnonymization` for every packet, `keepsWorking_iff` for those the
redirect leaves alone so that they keep working.
-/

namespace Anonet.Leakguard

open Net Nft

/-! ## The excluded destinations -/

/-- The destinations the redirect leaves alone, as intervals: `127/8`, `10/8`,
`172.16/12` and `192.168/16`; `::1`, `fc00::/7` and `fe80::/10`. -/
def Excluded : IpAddr → Prop
  | .v4 a =>
    let n := a.bits.toNat
    (0x7f000000 ≤ n ∧ n < 0x80000000) ∨ (0x0a000000 ≤ n ∧ n < 0x0b000000) ∨
      (0xac100000 ≤ n ∧ n < 0xac200000) ∨ (0xc0a80000 ≤ n ∧ n < 0xc0a90000)
  | .v6 a =>
    let n := a.bits.toNat
    n = 1 ∨ (0xfc000000000000000000000000000000 ≤ n ∧ n < 0xfe000000000000000000000000000000) ∨
      (0xfe800000000000000000000000000000 ≤ n ∧ n < 0xfec00000000000000000000000000000)

instance (a : IpAddr) : Decidable (Excluded a) := by
  cases a <;> unfold Excluded <;> infer_instance

theorem excludedV4_iff (a : Ipv4Addr) :
    (TransparentRedirect.excludedV4.any fun r => r.contains a.bits) = true ↔ Excluded (.v4 a) := by
  have h1 := Prefix.contains_iff (p := (⟨0x7f000000, 8⟩ : Prefix 32)) (by decide) a.bits
  have h2 := Prefix.contains_iff (p := (⟨0x0a000000, 8⟩ : Prefix 32)) (by decide) a.bits
  have h3 := Prefix.contains_iff (p := (⟨0xac100000, 12⟩ : Prefix 32)) (by decide) a.bits
  have h4 := Prefix.contains_iff (p := (⟨0xc0a80000, 16⟩ : Prefix 32)) (by decide) a.bits
  simp only [TransparentRedirect.excludedV4, List.any_cons, List.any_nil, Bool.or_false,
    Bool.or_eq_true, Excluded]
  exact or_congr h1 (or_congr h2 (or_congr h3 h4))

theorem excludedV6_iff (a : Ipv6Addr) :
    (TransparentRedirect.excludedV6.any fun r => r.contains a.bits) = true ↔ Excluded (.v6 a) := by
  have h1 : (⟨1, 128⟩ : Prefix 128).contains a.bits = true ↔ a.bits.toNat = 1 := by
    have h := Prefix.contains_iff (p := (⟨1, 128⟩ : Prefix 128)) (by decide) a.bits
    rw [h]
    show 1 ≤ a.bits.toNat ∧ a.bits.toNat < 1 + 1 ↔ a.bits.toNat = 1
    omega
  have h2 := Prefix.contains_iff (p := (⟨0xfc000000000000000000000000000000, 7⟩ : Prefix 128))
    (by decide) a.bits
  have h3 := Prefix.contains_iff (p := (⟨0xfe800000000000000000000000000000, 10⟩ : Prefix 128))
    (by decide) a.bits
  simp only [TransparentRedirect.excludedV6, List.any_cons, List.any_nil, Bool.or_false,
    Bool.or_eq_true, Excluded]
  exact or_congr h1 (or_congr h2 h3)

/-! ## One rule set at a time -/

attribute [local simp] verdictOf_cons List.findSome?_cons Statement.verdict Match.holds Policy.apply

/-- The radical switch passes a packet unchanged exactly when it leaves through
loopback or belongs to the exempt uid. -/
theorem run_radical (uid : UInt32) (p : Packet) :
    (KillSwitch.Radical uid).outputChain.run p =
      if p.oif = .lo ∨ p.skuid = uid then some p else none := by
  simp only [Chain.run, KillSwitch.outputChain, KillSwitch.outputRules]
  by_cases hlo : p.oif = .lo
  · simp [hlo]
  · by_cases hu : p.skuid = uid <;> simp [hlo, hu]

/-- The scoped switch drops exactly the confined uid's packets that are not
bound for loopback. -/
theorem run_scoped (uid : UInt32) (p : Packet) :
    (KillSwitch.Scoped uid).outputChain.run p =
      if p.skuid = uid ∧ p.oif ≠ .lo ∧ p.daddr ≠ .v4 .localhost ∧ p.daddr ≠ .v6 .localhost
      then none else some p := by
  simp only [Chain.run, KillSwitch.outputChain, KillSwitch.outputRules]
  by_cases hu : p.skuid = uid
  · by_cases hlo : p.oif = .lo
    · simp [hlo, hu]
    · by_cases h4 : p.daddr = .v4 .localhost
      · simp [hlo, hu, h4]
      · by_cases h6 : p.daddr = .v6 .localhost <;> simp [hlo, hu, h4, h6]
  · simp [hu]

/-- The packets the redirect returns to the policy untouched. -/
def Skipped (uid : UInt32) (p : Packet) : Prop :=
  p.skuid = uid ∨ Excluded p.daddr ∨ p.l4 = .tcp 22

instance (uid : UInt32) (p : Packet) : Decidable (Skipped uid p) :=
  inferInstanceAs (Decidable (_ ∨ _))

/-- Some skip rule returns the packet to the policy exactly when it is skipped. -/
theorem verdictOf_skipRules (r : TransparentRedirect) (rs : List Rule) (p : Packet) :
    verdictOf (r.skipRules ++ rs) p =
      if Skipped r.anonetUid p then some .ret else verdictOf rs p := by
  obtain ⟨u, a, l, i⟩ := p
  simp only [TransparentRedirect.skipRules, List.cons_append, List.nil_append, Skipped]
  by_cases hu : u = r.anonetUid
  · simp [hu]
  · by_cases hl : l = .tcp 22
    · cases a <;> simp [hl]
    · cases a with
      | v4 a =>
        have ha := excludedV4_iff a
        by_cases hx : Excluded (.v4 a)
        · simp [hu, hx, ha.mpr hx]
        · have hf := mt ha.mp hx
          simp [hu, hl, hx, hf]
      | v6 a =>
        have ha := excludedV6_iff a
        by_cases hx : Excluded (.v6 a)
        · simp [hu, hx, ha.mpr hx]
        · have hf := mt ha.mp hx
          simp [hu, hl, hx, hf]

/-- The redirect sends UDP port 53 and TCP to its two ports, and leaves the
skipped packets and every other protocol alone. -/
theorem run_redirect (r : TransparentRedirect) (hook : Hook) (p : Packet) :
    (r.chain hook).run p =
      if Skipped r.anonetUid p then some p
      else match p.l4 with
        | .tcp _ => some (p.redirect r.transPort)
        | .udp port => if port = 53 then some (p.redirect r.dnsPort) else some p
        | .other _ => some p := by
  simp only [Chain.run, TransparentRedirect.chain, TransparentRedirect.chainRules]
  rw [verdictOf_skipRules]
  by_cases hs : Skipped r.anonetUid p
  · simp [hs]
  · rw [if_neg hs, if_neg hs]
    cases hl : p.l4 with
    | tcp port => simp [hl]
    | udp port => by_cases hp : port = 53 <;> simp [hl, hp]
    | other proto => simp [hl]

/-! ## Both together -/

/-- The rule set once the redirect and the radical switch for the same uid have
each been loaded once, in either order. -/
def BothLoaded (r : TransparentRedirect) (rs : Ruleset) : Prop :=
  rs = Ruleset.load (KillSwitch.Radical r.anonetUid).rules (Ruleset.load r.rules []) ∨
    rs = Ruleset.load r.rules (Ruleset.load (KillSwitch.Radical r.anonetUid).rules [])

/-- The nat chain sees the packet first, whatever the loading order. -/
theorem chainsOn_bothLoaded {r : TransparentRedirect} {rs : Ruleset} (h : BothLoaded r rs) :
    rs.chainsOn .output = [r.chain .output, (KillSwitch.Radical r.anonetUid).outputChain] := by
  rcases h with rfl | rfl <;> rfl

theorem output_bothLoaded {r : TransparentRedirect} {rs : Ruleset} (h : BothLoaded r rs)
    (p : Packet) :
    rs.output p =
      ((r.chain .output).run p).bind (KillSwitch.Radical r.anonetUid).outputChain.run := by
  rw [Ruleset.output, chainsOn_bothLoaded h]
  simp [Nft.traverse]

/-- A redirected packet is on loopback, so the radical switch lets it through. -/
theorem run_radical_redirect (uid : UInt32) (p : Packet) (port : UInt16) :
    (KillSwitch.Radical uid).outputChain.run (p.redirect port) = some (p.redirect port) := by
  rw [run_radical, if_pos (Or.inl (p.redirect_oif port))]

/-- The packets full anonymization takes over: outside the excluded ranges, TCP
to any port but 22, or UDP to port 53. -/
def Captured (p : Packet) : Prop :=
  ¬ Excluded p.daddr ∧ ((∃ port, p.l4 = .tcp port ∧ port ≠ 22) ∨ p.l4 = .udp 53)

/-- A packet of another uid that is not captured passes the redirect unchanged. -/
theorem run_redirect_of_not_captured {r : TransparentRedirect} {hook : Hook} {p : Packet}
    (hc : ¬ Captured p) : (r.chain hook).run p = some p := by
  rw [run_redirect]
  by_cases hs : Skipped r.anonetUid p
  · rw [if_pos hs]
  · rw [if_neg hs]
    simp only [Skipped, not_or] at hs
    obtain ⟨-, hx, hssh⟩ := hs
    have hno : ¬ ((∃ port, p.l4 = .tcp port ∧ port ≠ 22) ∨ p.l4 = .udp 53) := fun hp => hc ⟨hx, hp⟩
    cases hl : p.l4 with
    | tcp port =>
      refine absurd (Or.inl ⟨port, hl, ?_⟩) hno
      rintro rfl
      exact hssh hl
    | udp port =>
      have hport : port ≠ 53 := by
        rintro rfl
        exact hno (Or.inr hl)
      simp [hport]
    | other proto => rfl

section Fate

variable {r : TransparentRedirect} {rs : Ruleset} {p : Packet}

theorem output_own (h : BothLoaded r rs) (hu : p.skuid = r.anonetUid) : rs.output p = some p := by
  have hs : Skipped r.anonetUid p := Or.inl hu
  rw [output_bothLoaded h, run_redirect, if_pos hs, Option.bind_some, run_radical,
    if_pos (Or.inr hu)]

theorem not_skipped (hu : p.skuid ≠ r.anonetUid) (hx : ¬ Excluded p.daddr)
    (hssh : p.l4 ≠ .tcp 22) : ¬ Skipped r.anonetUid p := by
  rintro (h | h | h)
  · exact hu h
  · exact hx h
  · exact hssh h

theorem output_tcp (h : BothLoaded r rs) (hu : p.skuid ≠ r.anonetUid) (hx : ¬ Excluded p.daddr)
    {port : UInt16} (hl : p.l4 = .tcp port) (hport : port ≠ 22) :
    rs.output p = some (p.redirect r.transPort) := by
  have hs : ¬ Skipped r.anonetUid p := not_skipped hu hx (by simpa [hl] using hport)
  rw [output_bothLoaded h, run_redirect, if_neg hs, hl]
  exact run_radical_redirect r.anonetUid p r.transPort

theorem output_dns (h : BothLoaded r rs) (hu : p.skuid ≠ r.anonetUid) (hx : ¬ Excluded p.daddr)
    (hl : p.l4 = .udp 53) : rs.output p = some (p.redirect r.dnsPort) := by
  have hs : ¬ Skipped r.anonetUid p := not_skipped hu hx (by simp [hl])
  rw [output_bothLoaded h, run_redirect, if_neg hs, hl]
  exact run_radical_redirect r.anonetUid p r.dnsPort

theorem output_of_not_captured (h : BothLoaded r rs) (hu : p.skuid ≠ r.anonetUid)
    (hc : ¬ Captured p) : rs.output p = if p.oif = .lo then some p else none := by
  rw [output_bothLoaded h, run_redirect_of_not_captured hc, Option.bind_some, run_radical]
  simp [hu]

/-- No packet of another uid gets out through a real interface. -/
theorem oif_of_output (h : BothLoaded r rs) (hu : p.skuid ≠ r.anonetUid) {q : Packet}
    (hq : rs.output p = some q) : q.oif = .lo := by
  by_cases hc : Captured p
  · obtain ⟨hx, ⟨port, hl, hport⟩ | hl⟩ := hc
    · rw [output_tcp h hu hx hl hport, Option.some.injEq] at hq
      exact hq ▸ p.redirect_oif r.transPort
    · rw [output_dns h hu hx hl, Option.some.injEq] at hq
      exact hq ▸ p.redirect_oif r.dnsPort
  · rw [output_of_not_captured h hu hc] at hq
    split at hq
    · rename_i hlo
      rw [Option.some.injEq] at hq
      exact hq ▸ hlo
    · exact absurd hq (by simp)

end Fate

/-- **The fate of every locally generated packet under full anonymization.**
Anonet's own packets leave as they are; captured TCP goes to the transparent
port and captured DNS to the DNS port, both on loopback; anything else leaves
only through loopback, so no other uid's packet reaches another interface. -/
theorem output_fullAnonymization {r : TransparentRedirect} {rs : Ruleset} (h : BothLoaded r rs)
    (p : Packet) :
    (p.skuid = r.anonetUid → rs.output p = some p) ∧
    (p.skuid ≠ r.anonetUid → ¬ Excluded p.daddr → ∀ port, p.l4 = .tcp port → port ≠ 22 →
      rs.output p =
        some { p with daddr := loopbackOf p.daddr, l4 := .tcp r.transPort, oif := .lo }) ∧
    (p.skuid ≠ r.anonetUid → ¬ Excluded p.daddr → p.l4 = .udp 53 →
      rs.output p =
        some { p with daddr := loopbackOf p.daddr, l4 := .udp r.dnsPort, oif := .lo }) ∧
    (p.skuid ≠ r.anonetUid → ¬ Captured p →
      rs.output p = if p.oif = .lo then some p else none) ∧
    (p.skuid ≠ r.anonetUid → ∀ q, rs.output p = some q → q.oif = .lo) := by
  refine ⟨output_own h, ?tcp, ?dns, output_of_not_captured h, fun hu q => oif_of_output h hu⟩
  case tcp =>
    intro hu hx port hl hport
    rw [output_tcp h hu hx hl hport, Packet.redirect, hl, L4.withDport]
  case dns =>
    intro hu hx hl
    rw [output_dns h hu hx hl, Packet.redirect, hl, L4.withDport]

/-- A browser's HTTPS packet to a public address, with anonet running as root. -/
theorem output_fullAnonymization_https :
    Ruleset.output
        (Ruleset.load (KillSwitch.Radical 0).rules (Ruleset.load (⟨0, 9040, 5300⟩ :
          TransparentRedirect).rules []))
        ⟨1000, .v4 (.ofOctets [93, 184, 216, 34]), .tcp 443, .dev "eth0"⟩ =
      some ⟨1000, .v4 .localhost, .tcp 9040, .lo⟩ :=
  (output_fullAnonymization (r := ⟨0, 9040, 5300⟩) (Or.inl rfl)
    ⟨1000, .v4 (.ofOctets [93, 184, 216, 34]), .tcp 443, .dev "eth0"⟩).2.1
    (by decide) (by decide) 443 rfl (by decide)

/-! ## What should go on working

The redirect leaves the local network and SSH alone, so that they keep working;
the radical switch does not know of these exceptions. -/

/-- `10/8`, `172.16/12`, `192.168/16`, `fc00::/7` and `fe80::/10`. -/
def LocalNetwork : IpAddr → Prop
  | .v4 a =>
    let n := a.bits.toNat
    (0x0a000000 ≤ n ∧ n < 0x0b000000) ∨ (0xac100000 ≤ n ∧ n < 0xac200000) ∨
      (0xc0a80000 ≤ n ∧ n < 0xc0a90000)
  | .v6 a =>
    let n := a.bits.toNat
    (0xfc000000000000000000000000000000 ≤ n ∧ n < 0xfe000000000000000000000000000000) ∨
      (0xfe800000000000000000000000000000 ≤ n ∧ n < 0xfec00000000000000000000000000000)

instance (a : IpAddr) : Decidable (LocalNetwork a) := by
  cases a <;> unfold LocalNetwork <;> infer_instance

/-- LAN traffic and SSH sessions. -/
def KeepsWorking (p : Packet) : Prop := LocalNetwork p.daddr ∨ p.l4 = .tcp 22

instance (p : Packet) : Decidable (KeepsWorking p) := inferInstanceAs (Decidable (_ ∨ _))

theorem LocalNetwork.excluded {a : IpAddr} (h : LocalNetwork a) : Excluded a := by
  cases a with
  | v4 a => exact .inr h
  | v6 a => exact .inr h

/-- The redirect does not take these packets over. -/
theorem KeepsWorking.not_captured {p : Packet} (h : KeepsWorking p) : ¬ Captured p := by
  rintro ⟨hx, ⟨port, hl, hport⟩ | hl⟩
  · rcases h with h | h
    · exact hx h.excluded
    · rw [hl, L4.tcp.injEq] at h
      exact hport h
  · rcases h with h | h
    · exact hx h.excluded
    · rw [hl] at h
      exact absurd h (by simp)

/-- What a successful `enable_inner` loads into an empty rule set. -/
theorem bothLoaded_enable (r : TransparentRedirect) :
    BothLoaded r ((KillSwitch.Radical r.anonetUid).enable .ok (r.enable .ok []).2).2 := Or.inl rfl

/-- **The exact condition.**  With full anonymization on, a packet that should keep
working leaves unmodified if and only if it leaves through loopback. -/
theorem keepsWorking_iff {r : TransparentRedirect} {rs : Ruleset} (h : BothLoaded r rs)
    {p : Packet} (hu : p.skuid ≠ r.anonetUid) (hk : KeepsWorking p) :
    rs.output p = some p ↔ p.oif = .lo := by
  rw [output_of_not_captured h hu hk.not_captured]
  split
  · rename_i hlo
    exact iff_of_true rfl hlo
  · rename_i hlo
    exact iff_of_false (by simp) hlo

/-- A packet to the machine's own LAN address. -/
theorem keepsWorking_ownAddress :
    Ruleset.output
        (Ruleset.load (KillSwitch.Radical 0).rules (Ruleset.load (⟨0, 9040, 5300⟩ :
          TransparentRedirect).rules []))
        ⟨1000, .v4 (.ofOctets [192, 168, 1, 2]), .tcp 8080, .lo⟩ =
      some ⟨1000, .v4 (.ofOctets [192, 168, 1, 2]), .tcp 8080, .lo⟩ :=
  (keepsWorking_iff (r := ⟨0, 9040, 5300⟩) (Or.inl rfl)
    (p := ⟨1000, .v4 (.ofOctets [192, 168, 1, 2]), .tcp 8080, .lo⟩) (by decide) (by decide)).mpr rfl

/-- A packet to a printer on the LAN, and one to an SSH server, are dropped. -/
theorem not_keepsWorking_printer :
    ∃ rs, BothLoaded ⟨0, 9040, 5300⟩ rs ∧
      (∃ p : Packet, p.skuid ≠ 0 ∧ LocalNetwork p.daddr ∧ rs.output p ≠ some p) ∧
      ∃ p : Packet, p.skuid ≠ 0 ∧ p.l4 = .tcp 22 ∧ rs.output p ≠ some p :=
  ⟨_, Or.inl rfl,
    ⟨⟨1000, .v4 (.ofOctets [192, 168, 1, 10]), .tcp 631, .dev "eth0"⟩, by decide, by decide,
      by decide⟩,
    ⟨1000, .v4 (.ofOctets [93, 184, 216, 34]), .tcp 22, .dev "eth0"⟩, by decide, by decide,
    by decide⟩

end Anonet.Leakguard
