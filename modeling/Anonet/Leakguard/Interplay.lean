import Anonet.Leakguard.PacketFate

/-!
# Three tables at once

The scoped switch, the radical switch and the redirect are written independently
of one another, and any of the eight combinations can be installed.

* `Installed` — which of the three tables are there, each loaded once.
* `output_of_loaded` — the fate of a packet, whatever the loading order.
* `changes_only_affected` — **a switch touches no packet but those it is for, and
  lets nothing through that was dropped without it.**
-/

namespace Anonet.Leakguard

open Net Nft

/-- What the redirect makes of a packet. -/
def TransparentRedirect.apply (r : TransparentRedirect) (p : Packet) : Packet :=
  if Skipped r.anonetUid p then p
  else match p.l4 with
    | .tcp _ => p.redirect r.transPort
    | .udp port => if port = 53 then p.redirect r.dnsPort else p
    | .other _ => p

/-! ## What is installed -/

/-- Which of the three tables are installed, and for what uids and ports. -/
structure Installed where
  redirect : Option TransparentRedirect
  switches : List KillSwitch
  /-- Each switch is installed at most once. -/
  nodup : (switches.map KillSwitch.table).Nodup

namespace Installed

def tables (i : Installed) : List Table :=
  (i.redirect.map TransparentRedirect.rules).toList ++ i.switches.map KillSwitch.rules

/-- The rule set after each of these tables was loaded once, in some order. -/
def Loaded (i : Installed) (rs : Ruleset) : Prop :=
  ∃ ts : List Table, ts.Perm i.tables ∧ rs = ts.foldl (fun rs t => Ruleset.load t rs) []

/-- The packet behind the redirect, if there is one. -/
def redirected (i : Installed) (p : Packet) : Packet :=
  match i.redirect with
  | none => p
  | some r => r.apply p

end Installed

/-- The packets a switch is for: those of the confined uid that leave the machine,
and those of every other uid that leave through a real interface. -/
def KillSwitch.Affects (q : Packet) : KillSwitch → Prop
  | .Scoped protectUid =>
    q.skuid = protectUid ∧ q.oif ≠ .lo ∧ q.daddr ≠ .v4 .localhost ∧ q.daddr ≠ .v6 .localhost
  | .Radical anonetUid => q.skuid ≠ anonetUid ∧ q.oif ≠ .lo

instance (q : Packet) : (ks : KillSwitch) → Decidable (ks.Affects q)
  | .Scoped _ => inferInstanceAs (Decidable (_ ∧ _))
  | .Radical _ => inferInstanceAs (Decidable (_ ∧ _))

/-- A switch drops the packets it is for and passes the others as they are. -/
theorem KillSwitch.run_outputChain (ks : KillSwitch) (q : Packet) :
    ks.outputChain.run q = if ks.Affects q then none else some q := by
  cases ks with
  | Scoped uid => exact run_scoped uid q
  | Radical uid =>
    rw [run_radical, ← ite_not]
    simp only [Affects, not_or]
    congr 1
    exact propext and_comm

theorem KillSwitch.filters_outputChain (ks : KillSwitch) : ks.outputChain.Filters := by
  intro q
  rw [ks.run_outputChain]
  by_cases h : ks.Affects q
  · exact .inr (if_pos h)
  · exact .inl (if_neg h)

/-! ## The fate of a packet -/

theorem KillSwitch.table_ne_transparentTable : ∀ ks : KillSwitch, ks.table ≠ transparentTable
  | .Scoped _ => by show scopedTable ≠ transparentTable; decide
  | .Radical _ => transparentTable_ne_systemTable.symm

/-- No two of the tables have one name. -/
theorem Installed.nodup_names (i : Installed) : (i.tables.map (·.name)).Nodup := by
  have hswitches : (i.switches.map KillSwitch.rules).map (·.name) =
      i.switches.map KillSwitch.table := by
    rw [List.map_map]
    rfl
  rw [tables, List.map_append, hswitches]
  cases i.redirect with
  | none => exact i.nodup
  | some r =>
    refine List.nodup_cons.mpr ⟨?_, i.nodup⟩
    intro hmem
    obtain ⟨ks, -, hks⟩ := List.mem_map.mp hmem
    exact ks.table_ne_transparentTable hks

/-- Tables of different names are installed one behind another. -/
theorem foldl_load {ts : List Table} {rs : Ruleset}
    (h : ((rs ++ ts).map (·.name)).Nodup) : ts.foldl (fun rs t => rs.load t) rs = rs ++ ts := by
  have hload : ∀ (t : Table) (rs : Ruleset), t.name ∉ rs.map (·.name) → rs.load t = rs ++ [t] := by
    intro t rs
    induction rs with
    | nil => exact fun _ => rfl
    | cons u rs ih =>
      intro ht
      simp only [List.map_cons, List.mem_cons, not_or] at ht
      rw [Ruleset.load, if_neg (Ne.symm ht.1), ih ht.2]
      rfl
  induction ts generalizing rs with
  | nil => simp
  | cons t ts ih =>
    have ht : t.name ∉ rs.map (·.name) := by
      intro hmem
      rw [List.map_append, List.map_cons] at h
      exact (List.disjoint_of_nodup_append h) hmem List.mem_cons_self
    rw [List.foldl_cons, hload t rs ht, ih (by simpa using h)]
    simp

namespace Installed

variable {i : Installed} {rs : Ruleset}

theorem Loaded.perm (h : i.Loaded rs) : rs.Perm i.tables := by
  obtain ⟨ts, hperm, rfl⟩ := h
  have hnodup : (ts.map (·.name)).Nodup := (hperm.map _).nodup_iff.mpr i.nodup_names
  have hload : ts.foldl (fun rs t => Ruleset.load t rs) [] = ts := foldl_load hnodup
  rw [hload]
  exact hperm

theorem loaded_of_perm (h : rs.Perm i.tables) : i.Loaded rs := by
  have hnodup : (rs.map (·.name)).Nodup := (h.map _).nodup_iff.mpr i.nodup_names
  have hload : rs.foldl (fun rs t => Ruleset.load t rs) [] = rs := foldl_load hnodup
  exact ⟨rs, h, hload.symm⟩

/-- **The fate of a packet**: redirected or not, it is dropped if it is one that
some installed switch is for. -/
theorem output_of_loaded (h : i.Loaded rs) (p : Packet) :
    rs.output p =
      if ∃ ks ∈ i.switches, ks.Affects (i.redirected p) then none
      else some (i.redirected p) := by
  have hswitches : ∀ kss : List KillSwitch,
      ((kss.map KillSwitch.rules).flatMap (·.chains)).filter (·.hook = .output) =
        kss.map KillSwitch.outputChain := by
    intro kss
    induction kss with
    | nil => rfl
    | cons ks kss ih =>
      rw [List.map_cons, List.flatMap_cons, List.filter_append, ih]
      rfl
  have hchains : (i.tables.flatMap (·.chains)).filter (·.hook = .output) =
      (i.redirect.map fun r => r.chain .output).toList ++
        i.switches.map KillSwitch.outputChain := by
    rw [tables, List.flatMap_append, List.filter_append, hswitches]
    cases i.redirect <;> rfl
  have hperm : ((rs.flatMap (·.chains)).filter (·.hook = .output)).Perm
      ((i.redirect.map fun r => r.chain .output).toList ++
        i.switches.map KillSwitch.outputChain) := by
    rw [← hchains]
    exact (h.perm.flatMap_right _).filter _
  have hprio : ∀ c ∈ i.redirect.map fun r => r.chain .output,
      ∀ d ∈ i.switches.map KillSwitch.outputChain, c.priority < d.priority := by
    intro c hc d hd
    obtain ⟨r, -, rfl⟩ := Option.map_eq_some_iff.mp hc
    obtain ⟨ks, -, rfl⟩ := List.mem_map.mp hd
    show (-100 : ℤ) < 0
    decide
  have hfilters : ∀ d ∈ i.switches.map KillSwitch.outputChain, d.Filters := by
    intro d hd
    obtain ⟨ks, -, rfl⟩ := List.mem_map.mp hd
    exact ks.filters_outputChain
  have hfirst : traverse (i.redirect.map fun r => r.chain .output).toList p =
      some (i.redirected p) := by
    obtain ⟨redirect, switches, nodup⟩ := i
    cases redirect with
    | none => rfl
    | some r =>
      show traverse [r.chain .output] p = some (r.apply p)
      rw [traverse_singleton, run_redirect, TransparentRedirect.apply]
      by_cases hskip : Skipped r.anonetUid p
      · rw [if_pos hskip, if_pos hskip]
      · rw [if_neg hskip, if_neg hskip]
        cases p.l4 with
        | tcp port => rfl
        | udp port => by_cases hport : port = 53 <;> simp [hport]
        | other proto => rfl
  rw [Ruleset.output_eq hperm hprio hfilters, hfirst, Option.bind_some]
  have hpass : (∀ d ∈ i.switches.map KillSwitch.outputChain,
      d.run (i.redirected p) = some (i.redirected p)) ↔
        ¬ ∃ ks ∈ i.switches, ks.Affects (i.redirected p) := by
    simp only [List.mem_map, forall_exists_index, and_imp, forall_apply_eq_imp_iff₂,
      KillSwitch.run_outputChain, not_exists, not_and]
    refine forall₂_congr ?_
    intro ks _
    by_cases hks : ks.Affects (i.redirected p) <;> simp [hks]
  simp only [hpass, ite_not]

/-! ## One switch more, one switch less -/

/-- With a switch whose table is not there yet. -/
def add (i : Installed) (ks : KillSwitch) (h : ks.table ∉ i.switches.map KillSwitch.table) :
    Installed where
  redirect := i.redirect
  switches := ks :: i.switches
  nodup := List.nodup_cons.mpr ⟨h, i.nodup⟩

/-- Without the switch of a table. -/
def remove (i : Installed) (table : String) : Installed where
  redirect := i.redirect
  switches := i.switches.filter (·.table ≠ table)
  nodup := (List.filter_sublist.map _).nodup i.nodup

theorem Loaded.load (h : i.Loaded rs) {ks : KillSwitch}
    (hks : ks.table ∉ i.switches.map KillSwitch.table) :
    (i.add ks hks).Loaded (rs.load ks.rules) := by
  have hperm : (rs ++ [ks.rules]).Perm (i.add ks hks).tables := by
    have hcons : (i.tables ++ [ks.rules]).Perm (i.add ks hks).tables := by
      rw [tables, List.append_assoc]
      exact List.perm_append_comm.append_left _
    exact (h.perm.append_right _).trans hcons
  have hnodup : ((rs ++ [ks.rules]).map (·.name)).Nodup :=
    (hperm.map _).nodup_iff.mpr (i.add ks hks).nodup_names
  have hload : rs.load ks.rules = rs ++ [ks.rules] := foldl_load hnodup
  rw [hload]
  exact loaded_of_perm hperm

theorem Loaded.delete (h : i.Loaded rs) (ks : KillSwitch) :
    (i.remove ks.table).Loaded (rs.delete ks.table) := by
  have htables : i.tables.filter (·.name ≠ ks.table) = (i.remove ks.table).tables := by
    have hswitches : (i.switches.map KillSwitch.rules).filter (·.name ≠ ks.table) =
        (i.switches.filter (·.table ≠ ks.table)).map KillSwitch.rules := by
      rw [List.filter_map]
      rfl
    rw [tables, List.filter_append, hswitches]
    obtain ⟨redirect, switches, nodup⟩ := i
    cases redirect with
    | none => rfl
    | some r =>
      have hname : r.rules.name ≠ ks.table := ks.table_ne_transparentTable.symm
      have hkeep : [r.rules].filter (·.name ≠ ks.table) = [r.rules] :=
        List.filter_cons_of_pos (decide_eq_true hname)
      show [r.rules].filter (·.name ≠ ks.table) ++ _ = [r.rules] ++ _
      rw [hkeep]
      rfl
  refine loaded_of_perm ?_
  rw [← htables]
  exact h.perm.filter _

/-- Enabling a switch drops the packets it is for, and no others. -/
theorem output_load (h : i.Loaded rs) {ks : KillSwitch}
    (hks : ks.table ∉ i.switches.map KillSwitch.table) (p : Packet) :
    Ruleset.output (rs.load ks.rules) p =
      if ks.Affects (i.redirected p) then none else rs.output p := by
  have hadd : (∃ ks' ∈ (i.add ks hks).switches, ks'.Affects (i.redirected p)) ↔
      ks.Affects (i.redirected p) ∨ ∃ ks' ∈ i.switches, ks'.Affects (i.redirected p) :=
    List.exists_mem_cons_iff _ _ _
  rw [output_of_loaded (h.load hks), output_of_loaded h]
  show (if ∃ ks' ∈ (i.add ks hks).switches, ks'.Affects (i.redirected p) then none
    else some (i.redirected p)) = _
  simp only [hadd]
  by_cases haff : ks.Affects (i.redirected p)
  · rw [if_pos (.inl haff), if_pos haff]
  · simp only [haff, false_or, if_false]

/-- Disabling a switch leaves alone every packet it is not for. -/
theorem output_delete (h : i.Loaded rs) {ks : KillSwitch} {p : Packet}
    (hks : ∀ ks' ∈ i.switches, ks'.table = ks.table → ¬ ks'.Affects (i.redirected p)) :
    (rs.delete ks.table).output p = rs.output p := by
  have hremove : (∃ ks' ∈ (i.remove ks.table).switches, ks'.Affects (i.redirected p)) ↔
      ∃ ks' ∈ i.switches, ks'.Affects (i.redirected p) := by
    constructor
    · rintro ⟨ks', hmem, haff⟩
      exact ⟨ks', List.mem_of_mem_filter hmem, haff⟩
    · rintro ⟨ks', hmem, haff⟩
      refine ⟨ks', List.mem_filter.mpr ⟨hmem, ?_⟩, haff⟩
      exact decide_eq_true fun ht => hks ks' hmem ht haff
  rw [output_of_loaded (h.delete ks), output_of_loaded h]
  show (if ∃ ks' ∈ (i.remove ks.table).switches, ks'.Affects (i.redirected p) then none
    else some (i.redirected p)) = _
  simp only [hremove]

end Installed

/-- **A switch touches no packet but those it is for.**  Whichever of the three
tables are installed, enabling a switch that is not changes the fate of a packet only
if, behind the redirect, the packet is one the switch is for, and lets nothing
through that was dropped; disabling one changes the fate of such packets only. -/
theorem changes_only_affected {i : Installed} {rs : Ruleset} (h : i.Loaded rs)
    (ks : KillSwitch) (o : NftOutcome) (p : Packet) :
    (ks.table ∉ i.switches.map KillSwitch.table →
      ((ks.enable o rs).2.output p ≠ rs.output p → ks.Affects (i.redirected p)) ∧
      (rs.output p = none → (ks.enable o rs).2.output p = none)) ∧
    ((ks.disable o rs).2.output p ≠ rs.output p →
      ∃ ks' ∈ i.switches, ks'.table = ks.table ∧ ks'.Affects (i.redirected p)) := by
  cases o with
  | notRun | err => exact ⟨fun _ => ⟨fun hne => absurd rfl hne, id⟩, fun hne => absurd rfl hne⟩
  | ok =>
    refine ⟨?_, ?_⟩
    · intro hks
      show (Ruleset.output (rs.load ks.rules) p ≠ _ → _) ∧
        (_ → Ruleset.output (rs.load ks.rules) p = none)
      rw [Installed.output_load h hks]
      constructor
      · intro hne
        by_contra haff
        exact hne (if_neg haff)
      · intro hdropped
        rw [hdropped, ite_self]
    · intro hne
      by_contra hnone
      refine hne (Installed.output_delete h ?_)
      intro ks' hmem ht haff
      exact hnone ⟨ks', hmem, ht, haff⟩

/-- Behind the redirect and the scoped switch, the radical switch drops an SSH packet
of another uid. -/
theorem changes_only_affected_ssh :
    KillSwitch.Affects ⟨1000, .v4 (.ofOctets [93, 184, 216, 34]), .tcp 22, .dev "eth0"⟩
      (.Radical 0) := by
  have hloaded : Installed.Loaded ⟨some ⟨0, 9040, 5300⟩, [.Scoped 1001], by decide⟩
      (Ruleset.load (KillSwitch.Scoped 1001).rules
        (Ruleset.load (⟨0, 9040, 5300⟩ : TransparentRedirect).rules [])) :=
    ⟨[(⟨0, 9040, 5300⟩ : TransparentRedirect).rules, (KillSwitch.Scoped 1001).rules],
      List.Perm.refl _, rfl⟩
  exact ((changes_only_affected hloaded (.Radical 0) .ok
    ⟨1000, .v4 (.ofOctets [93, 184, 216, 34]), .tcp 22, .dev "eth0"⟩).1 (by decide)).1 (by decide)

end Anonet.Leakguard
