import Anonet.Bridges.Coordinator

/-!
# When the loop fails over

What the loop may assume when it starts a failover scan and when it swaps a core
in, while `try_add_bridge` calls change the active bridge under it.

* `own_of_reach` — **a scan starts only after the active bridge failed as many
  checks in a row as the threshold asks**, as long as no other task activates a
  bridge while failures are being counted.
* `swaps_of_reach` — **a failover replaces the bridge whose failed checks
  triggered it, and never one the user activated meanwhile**, as long as no call's
  activation overlaps the iteration of the loop.
-/

namespace Anonet.Bridges

open Anonet.Core Telemetry

variable {β γ : Type}

/-- The index the loop read in this iteration, until its own activation replaces it. -/
def RunPc.trigger : RunPc γ → Option ℕ
  | .starting trigger => some trigger
  | .checking trigger _ => some trigger
  | .failed trigger => some trigger
  | .thresholdReached trigger => some trigger
  | .scanning trigger _ => some trigger
  | .found trigger _ => some trigger
  | .bootstrapping trigger _ _ => some trigger
  | .replacing trigger _ _ => some trigger
  | .storing trigger _ => some trigger
  | _ => none

/-- A call of `try_add_bridge` leaves the loop alone, and writes `active_idx` only
where it stores the new index. -/
theorem AddStep.frame {arti : Arti β γ} {s s' : Coordinator β γ} {pc pc' : AddPc β γ} {e : Event}
    (h : AddStep arti s pc e pc' s') :
    s'.run = s.run ∧ s'.consecutiveFailures = s.consecutiveFailures ∧
      s'.failureThreshold = s.failureThreshold ∧
      ((∀ idx, pc ≠ .storing idx) → s'.activeIdx = s.activeIdx) := by
  cases h with
  | @store idx => exact ⟨rfl, rfl, rfl, fun hne => absurd rfl (hne idx)⟩
  | _ => exact ⟨rfl, rfl, rfl, fun _ => rfl⟩

/-! ## Failed checks in a row -/

/-- What is remembered of the checks: how many periodic checks in a row the
active bridge has failed since it became active, without succeeding in one;
whether the loop's counter mixes in failures that are not among them; and the
first number at the start of each failover scan. -/
structure CheckHistory where
  own : ℕ
  mixed : Bool
  scans : List ℕ

def CheckHistory.start : CheckHistory := ⟨0, false, []⟩

/-- What a step of the loop adds to the history. -/
def noteRun (arti : Arti β γ) (s : Coordinator β γ) (e : Event) (g : CheckHistory) :
    CheckHistory :=
  match s.run, e with
  | .checking idx check, .checked o =>
    if (check.finish o).success then
      { g with own := if s.activeIdx = some idx then 0 else g.own, mixed := false }
    else { g with own := if s.activeIdx = some idx then g.own + 1 else g.own }
  | .thresholdReached _, .go => { g with scans := g.own :: g.scans }
  | .scanning _ scan, .checked o =>
    if (scan.check.finish o).success ∧ s.activeIdx = some scan.idx then { g with own := 0 } else g
  | .found _ newIdx, .go =>
    -- the active bridge was just found healthy, and the counter will not be reset
    if s.activeIdx = some newIdx ∧ (s.manager.productionConfig arti newIdx).toOption = none then
      { g with mixed := true }
    else g
  | .foundSame, .go => { g with mixed := false }
  | .storing _ _, .go => { g with own := 0 }
  | .reporting _, .go => { g with mixed := false }
  | _, _ => g

def noteChecks (arti : Arti β γ) (s : Coordinator β γ) (a : Action) (_ : Coordinator β γ)
    (g : CheckHistory) : CheckHistory :=
  match a with
  | .run e => noteRun arti s e g
  | .add i .go =>
    match s.adds[i]? with
    | some (.storing _) =>
      -- another bridge becomes active while failures of the old one are counted
      { g with
        own := 0
        mixed := g.mixed || s.run.trigger.isSome || decide (s.consecutiveFailures ≠ 0) }
    | _ => g
  | _ => g

/-- The loop does not start a scan on mixed failures. -/
def Unmixed (p : Coordinator β γ × CheckHistory) (a : Action) : Prop :=
  match p.1.run, a with
  | .thresholdReached _, .run .go => p.2.mixed = false
  | _, _ => True

instance (p : Coordinator β γ × CheckHistory) (a : Action) : Decidable (Unmixed p a) := by
  unfold Unmixed
  split <;> infer_instance

/-- The counter is about to be reset. -/
def RunPc.Settling : RunPc γ → Prop
  | .found trigger newIdx => newIdx = trigger
  | .foundSame => True
  | .reporting _ => True
  | _ => False

/-- The counter counts failures of the active bridge. -/
structure Counted (s : Coordinator β γ) (g : CheckHistory) : Prop where
  scans : ∀ own ∈ g.scans, s.failureThreshold.toNat ≤ own
  counted : g.mixed = false → ¬ s.run.Settling → s.consecutiveFailures.toNat ≤ g.own
  active : g.mixed = false → ∀ trigger, s.run.trigger = some trigger →
    s.activeIdx = some trigger
  reached : ∀ trigger, s.run = .thresholdReached trigger →
    s.failureThreshold ≤ s.consecutiveFailures

section Counted

variable {arti : Arti β γ} {s s' : Coordinator β γ} {g : CheckHistory}

/-- A step that neither counts, resets nor activates. -/
theorem Counted.of_quiet (h : Counted s g) (hthr : s'.failureThreshold = s.failureThreshold)
    (hcnt : s'.consecutiveFailures = s.consecutiveFailures) (hact : s'.activeIdx = s.activeIdx)
    (htrig : s'.run.trigger = s.run.trigger ∨ s'.run.trigger = none)
    (hset : s.run.Settling → s'.run.Settling)
    (hreach : ∀ trigger, s'.run = .thresholdReached trigger →
      s.failureThreshold ≤ s.consecutiveFailures) : Counted s' g where
  scans own hown := hthr ▸ h.scans own hown
  counted hm hs := by
    rw [hcnt]
    exact h.counted hm fun hs' => hs (hset hs')
  active hm trigger ht := by
    rw [hact]
    rcases htrig with htrig | htrig
    · exact h.active hm trigger (htrig ▸ ht)
    · rw [htrig] at ht
      exact absurd ht (by simp)
  reached trigger ht := by
    rw [hthr, hcnt]
    exact hreach trigger ht

/-- A step after which the counter is zero and the loop is between iterations. -/
theorem Counted.of_reset {g' : CheckHistory} (h : Counted s g)
    (hthr : s'.failureThreshold = s.failureThreshold) (hcnt : s'.consecutiveFailures = 0)
    (htrig : s'.run.trigger = none) (hscans : g'.scans = g.scans)
    (hreach : ∀ trigger, s'.run ≠ .thresholdReached trigger) : Counted s' g' where
  scans own hown := hthr ▸ h.scans own (hscans ▸ hown)
  counted _ _ := by
    rw [hcnt]
    exact Nat.zero_le _
  active _ trigger ht := by
    rw [htrig] at ht
    exact absurd ht (by simp)
  reached trigger ht := absurd ht (hreach trigger)

/-- A scan that starts on unmixed failures is justified. -/
theorem Counted.scanned {trigger : ℕ} (h : Counted s g) (hrun : s.run = .thresholdReached trigger)
    (hg : Unmixed (s, g) (.run .go)) : Counted s { g with scans := g.own :: g.scans } := by
  have hm : g.mixed = false := by simpa only [Unmixed, hrun] using hg
  have hscan : s.failureThreshold.toNat ≤ g.own :=
    (UInt32.le_iff_toNat_le.mp (h.reached trigger hrun)).trans
      (h.counted hm (by rw [hrun]; exact id))
  refine ⟨?_, h.counted, h.active, h.reached⟩
  intro own hown
  rcases List.mem_cons.mp hown with rfl | hown
  · exact hscan
  · exact h.scans own hown

/-- A step of the loop keeps the count, if a scan is not started on mixed failures. -/
theorem Counted.run {e : Event} (h : Counted s g) (hg : Unmixed (s, g) (.run e))
    (hs : RunStep arti s e s') : Counted s' (noteRun arti s e g) := by
  cases hs with
  | @wake idx hrun hact =>
    simp only [noteRun, hrun]
    exact ⟨h.scans, fun hm _ => h.counted hm (by rw [hrun]; exact id),
      fun _ t ht => hact.trans ht, fun t ht => absurd ht (by simp)⟩
  | idle hrun =>
    simp only [noteRun, hrun]
    exact h
  | pass hrun hresult =>
    simp only [noteRun, hrun, hresult, if_true]
    exact h.of_reset rfl rfl rfl rfl (fun t ht => absurd ht (by simp))
  | @miss idx _ _ hrun hresult =>
    simp only [noteRun, hrun, hresult, Bool.false_eq_true, if_false]
    refine ⟨h.scans, ?_, ?_, fun t ht => absurd ht (by simp)⟩
    · -- the failed check was the active bridge's own
      intro hm _
      have hact : s.activeIdx = some idx := h.active hm idx (by rw [hrun]; rfl)
      have hcnt := h.counted hm (by rw [hrun]; exact id)
      rw [if_pos hact, UInt32.toNat_add]
      exact (Nat.mod_le _ _).trans (Nat.succ_le_succ hcnt)
    · intro hm t ht
      exact h.active hm t (by rw [hrun]; exact ht)
  | start hrun | boot hrun | replace hrun =>
    simp only [noteRun, hrun]
    exact h.of_quiet rfl rfl rfl (.inl (by rw [hrun]; rfl)) (by rw [hrun]; exact id)
      (fun t ht => absurd ht (by simp))
  | next hrun hresult =>
    simp only [noteRun, hrun, hresult, Bool.false_eq_true, false_and, if_false]
    exact h.of_quiet rfl rfl rfl (.inl (by rw [hrun]; rfl)) (by rw [hrun]; exact id)
      (fun t ht => absurd ht (by simp))
  | recover hrun | below hrun | noBoot hrun =>
    simp only [noteRun, hrun]
    exact h.of_quiet rfl rfl rfl (.inr rfl) (by rw [hrun]; exact False.elim)
      (fun t ht => absurd ht (by simp))
  | exhaust hrun hresult =>
    simp only [noteRun, hrun, hresult, Bool.false_eq_true, false_and, if_false]
    exact h.of_quiet rfl rfl rfl (.inr rfl) (by rw [hrun]; exact False.elim)
      (fun t ht => absurd ht (by simp))
  | reach hrun hle =>
    simp only [noteRun, hrun]
    exact h.of_quiet rfl rfl rfl (.inl (by rw [hrun]; rfl)) (by rw [hrun]; exact id)
      (fun _ _ => hle)
  | scan hrun =>
    simp only [noteRun, hrun]
    exact (h.scanned hrun hg).of_quiet rfl rfl rfl (.inl (by rw [hrun]; rfl))
      (by rw [hrun]; exact id) (fun t ht => absurd ht (by simp))
  | noScan hrun =>
    simp only [noteRun, hrun]
    exact (h.scanned hrun hg).of_quiet rfl rfl rfl (.inr rfl) (by rw [hrun]; exact id)
      (fun t ht => absurd ht (by simp))
  | @hit trigger scan _ hrun hresult =>
    simp only [noteRun, hrun, hresult, true_and]
    split
    · -- the active bridge is healthy again; it is the one that triggered
      rename_i hact
      refine ⟨h.scans, ?_, ?_, fun t ht => absurd ht (by simp)⟩
      · intro hm hset
        have htrig : s.activeIdx = some trigger := h.active hm trigger (by rw [hrun]; rfl)
        exact absurd (Option.some.inj (hact.symm.trans htrig)) hset
      · intro hm t ht
        exact h.active hm t (by rw [hrun]; exact ht)
    · exact h.of_quiet rfl rfl rfl (.inl (by rw [hrun]; rfl)) (by rw [hrun]; exact False.elim)
        (fun t ht => absurd ht (by simp))
  | @noConfig trigger newIdx _ hrun hconfig =>
    simp only [noteRun, hrun]
    split
    · exact ⟨h.scans, fun hm => absurd hm (by simp), fun hm => absurd hm (by simp),
        fun t ht => absurd ht (by simp)⟩
    · rename_i hact
      refine ⟨h.scans, fun hm _ => h.counted hm ?_,
        fun _ t ht => absurd ht (by simp [RunPc.trigger]), fun t ht => absurd ht (by simp)⟩
      intro hset
      rw [hrun] at hset
      obtain rfl : newIdx = trigger := hset
      exact hact ⟨h.active hm newIdx (by rw [hrun]; rfl), by rw [hconfig]; rfl⟩
  | same hrun hconfig =>
    simp only [noteRun, hrun, hconfig, Except.toOption, reduceCtorEq, and_false, if_false]
    exact h.of_quiet rfl rfl rfl (.inr rfl) (fun _ => trivial) (fun t ht => absurd ht (by simp))
  | other hrun hconfig hne =>
    simp only [noteRun, hrun, hconfig, Except.toOption, reduceCtorEq, and_false, if_false]
    exact h.of_quiet rfl rfl rfl (.inl (by rw [hrun]; rfl))
      (by rw [hrun]; exact fun hset => absurd hset hne) (fun t ht => absurd ht (by simp))
  | settle hrun | report hrun =>
    simp only [noteRun, hrun]
    exact h.of_reset rfl rfl rfl rfl (fun t ht => absurd ht (by simp))
  | store hrun =>
    simp only [noteRun, hrun]
    exact ⟨h.scans, fun _ hset => absurd trivial hset,
      fun _ t ht => absurd ht (by simp [RunPc.trigger]), fun t ht => absurd ht (by simp)⟩

/-- A call of `try_add_bridge` keeps the count: where it activates a bridge, the
failures counted so far become mixed. -/
theorem Counted.add {i : ℕ} {e : Event} (h : Counted s g)
    (hs : s.step arti (.add i e) = some s') : Counted s' (noteChecks arti s (.add i e) s' g) := by
  obtain ⟨pc, pc', s₁, hpc, hadd, rfl⟩ := addStep_of_step hs
  obtain ⟨hrun, hcnt, hthr, hact⟩ := hadd.frame
  by_cases hstore : ∃ idx, pc = .storing idx ∧ e = .go
  · obtain ⟨idx, rfl, rfl⟩ := hstore
    simp only [noteChecks, hpc]
    refine ⟨?_, ?_, ?_, ?_⟩
    · intro own hown
      rw [hthr]
      exact h.scans own hown
    · intro hm _
      simp only [Bool.or_eq_false_iff, decide_eq_false_iff_not, not_not] at hm
      show s₁.consecutiveFailures.toNat ≤ 0
      rw [hcnt, hm.2]
      rfl
    · intro hm t ht
      simp only [Bool.or_eq_false_iff, Option.isSome_eq_false_iff, Option.isNone_iff_eq_none] at hm
      rw [hrun] at ht
      exact absurd (hm.1.2.symm.trans ht) (by simp)
    · intro t ht
      rw [hthr, hcnt]
      exact h.reached t (hrun ▸ ht)
  · have hnote : noteChecks arti s (.add i e) { s₁ with adds := s₁.adds.set i pc' } g = g := by
      unfold noteChecks
      split
      · rename_i heq
        cases heq
      · rename_i heq
        cases heq
        rw [hpc]
        split
        · rename_i idx' heq
          exact absurd ⟨idx', Option.some.inj heq, rfl⟩ hstore
        · rfl
      · rfl
    rw [hnote]
    refine h.of_quiet hthr hcnt (hact ?_) (.inl (by rw [hrun]))
      (by rw [hrun]; exact id) (fun t ht => h.reached t (hrun ▸ ht))
    intro idx hidx
    subst hidx
    cases hadd
    exact hstore ⟨idx, rfl, rfl⟩

/-- **The step lemma.** -/
theorem Counted.step {a : Action} (h : Counted s g) (hg : Unmixed (s, g) a)
    (hs : s.step arti a = some s') : Counted s' (noteChecks arti s a s' g) := by
  cases a with
  | call line =>
    obtain rfl := Option.some.inj hs
    exact ⟨h.scans, h.counted, h.active, h.reached⟩
  | run e => exact h.run hg (runStep_of_stepRun hs)
  | add i e => exact h.add hs
  | tick nanos =>
    obtain rfl := Option.some.inj hs
    exact ⟨h.scans, h.counted, h.active, h.reached⟩

end Counted

/-- The threshold is fixed. -/
theorem failureThreshold_step {arti : Arti β γ} {s s' : Coordinator β γ} {a : Action}
    (hs : s.step arti a = some s') : s'.failureThreshold = s.failureThreshold := by
  cases a with
  | call line =>
    obtain rfl := Option.some.inj hs
    rfl
  | run e =>
    cases runStep_of_stepRun hs <;> rfl
  | add i e =>
    obtain ⟨pc, pc', s₁, hpc, hadd, rfl⟩ := addStep_of_step hs
    exact hadd.frame.2.2.1
  | tick nanos =>
    obtain rfl := Option.some.inj hs
    rfl

/-- **Scans are justified.**  In every run in which no scan starts on mixed
failures, whenever the loop starts a failover scan the active bridge has failed
at least the threshold of periodic checks in a row. -/
theorem own_of_reach (arti : Arti β γ) (manager : BridgeManager β) (core : γ)
    (telemetry : HealthStatus) (initialActiveIdx : Option ℕ) (failureThreshold : UInt32) (now : ℕ)
    (s : Coordinator β γ) (g : CheckHistory)
    (h : ((coordinating arti).watch (noteChecks arti)).Reach Unmixed
      (.new manager core telemetry initialActiveIdx failureThreshold now, .start) (s, g)) :
    ∀ own ∈ g.scans, failureThreshold.toNat ≤ own := by
  have hinv : s.failureThreshold = failureThreshold ∧ Counted s g := by
    refine h.invariant (I := fun p => p.1.failureThreshold = failureThreshold ∧ Counted p.1 p.2)
      ⟨rfl, ?_⟩ ?_
    · exact ⟨fun own hown => absurd hown List.not_mem_nil, fun _ _ => Nat.zero_le _,
        fun _ t ht => absurd ht (by simp [Coordinator.new, RunPc.trigger]),
        fun t ht => absurd ht (by simp [Coordinator.new])⟩
    · intro p a q hi hg hs
      obtain ⟨hstep, hnote⟩ := Machine.watch_step.mp hs
      rw [hnote]
      exact ⟨(failureThreshold_step hstep).trans hi.1, hi.2.step hg hstep⟩
  exact fun own hown => hinv.1 ▸ hinv.2.scans own hown

theorem own_failedChecks :
    ∃ g : CheckHistory, g.scans = [2] ∧ ∀ own ∈ g.scans, 2 ≤ own := by
  obtain ⟨⟨s, g⟩, hreach, hscans⟩ := Machine.exists_reach_of_exec
    (m := (coordinating Arti.plain).watch (noteChecks Arti.plain)) (G := Unmixed)
    (s := (Coordinator.new bridgeAndSpare firstLine {} (some 0) 2 0, CheckHistory.start))
    (P := fun p => p.2.scans = [2]) (failedCheck ++ failedCheck ++ [.run .go]) (by decide)
  exact ⟨g, hscans,
    own_of_reach Arti.plain bridgeAndSpare firstLine {} (some 0) 2 0 s g hreach⟩

/-- A bridge added between two failed checks inherits the first of them: with a
threshold of two, its own first failure starts a scan. -/
theorem scan_after_one_failure :
    ∃ (s : Coordinator String String) (g : CheckHistory),
      ((coordinating Arti.plain).watch (noteChecks Arti.plain)).Reach Machine.anyStep
        (.new bridgeAndSpare firstLine {} (some 0) 2 0, .start) (s, g) ∧
      ∃ own ∈ g.scans, own < 2 := by
  obtain ⟨⟨s, g⟩, hreach, hscans⟩ := Machine.exists_reach_of_exec
    (m := (coordinating Arti.plain).watch (noteChecks Arti.plain)) (G := Machine.anyStep)
    (s := (Coordinator.new bridgeAndSpare firstLine {} (some 0) 2 0, CheckHistory.start))
    (P := fun p => ∃ own ∈ p.2.scans, own < 2)
    (failedCheck ++ .call addedLine :: addUpToBootstrap 0 ++ addActivate 0 ++ failedCheck ++
      [.run .go])
    (by decide)
  exact ⟨s, g, hreach, hscans⟩

/-! ## What a failover replaces -/

/-- A swap by the loop: the active index at that moment, the index whose failed
checks triggered the scan, and the index that becomes active; the call that put the
core swapped out in, if one did; and the calls that had stored their index when the
loop read `active_idx`. -/
structure Swap where
  active : Option ℕ
  trigger : ℕ
  newIdx : ℕ
  out : Option ℕ
  settled : List ℕ
  deriving DecidableEq

/-- What is remembered of activations: the call whose core is in the handle, if it is
a call's; the calls that have stored their index, and those of them that had when the
loop last read `active_idx`; whether a call's activation overlaps the loop's iteration;
and the loop's swaps so far. -/
structure SwapHistory where
  core : Option ℕ
  stored : List ℕ
  settled : List ℕ
  overlapped : Bool
  swaps : List Swap

def SwapHistory.start : SwapHistory := ⟨none, [], [], false, []⟩

/-- A call has replaced the core and not stored its index yet. -/
def AddPc.isStoring : AddPc β γ → Bool
  | .storing _ => true
  | _ => false

def noteSwaps (s : Coordinator β γ) (a : Action) (_ : Coordinator β γ) (g : SwapHistory) :
    SwapHistory :=
  match a with
  | .run .go =>
    match s.run with
    | .waiting =>
      { g with
        settled := g.stored
        overlapped := (g.core.bind (s.adds[·]?)).any AddPc.isStoring }
    | .replacing trigger newIdx _ =>
      { g with
        core := none
        swaps := ⟨s.activeIdx, trigger, newIdx, g.core, g.settled⟩ :: g.swaps }
    | _ => g
  | .add i .go =>
    match s.adds[i]? with
    | some (.replacing _ _) => { g with core := some i, overlapped := true }
    | some (.storing _) => { g with stored := i :: g.stored, overlapped := true }
    | _ => g
  | _ => g

/-- The loop does not swap a core in when, since it read `active_idx`, a call replaced
the core or stored its index, or when the core it then saw was that of a call which had
yet to store its index. -/
def NotOverlapped (p : Coordinator β γ × SwapHistory) (a : Action) : Prop :=
  match p.1.run, a with
  | .replacing _ _ _, .run .go => p.2.overlapped = false
  | _, _ => True

instance (p : Coordinator β γ × SwapHistory) (a : Action) : Decidable (NotOverlapped p a) := by
  unfold NotOverlapped
  split <;> infer_instance

/-- The swap replaces the bridge that triggered it by another one, and not the core of
a bridge that was activated after the loop read `active_idx`. -/
structure Swap.Justified (w : Swap) : Prop where
  active : w.active = some w.trigger
  differs : w.newIdx ≠ w.trigger
  out : ∀ i, w.out = some i → i ∈ w.settled

/-- The candidate the loop is about to activate is not the one that triggered. -/
def RunPc.Differs : RunPc γ → Prop
  | .bootstrapping trigger newIdx _ => newIdx ≠ trigger
  | .replacing trigger newIdx _ => newIdx ≠ trigger
  | _ => True

structure Followed (s : Coordinator β γ) (g : SwapHistory) : Prop where
  swaps : ∀ w ∈ g.swaps, w.Justified
  active : g.overlapped = false → ∀ trigger, s.run.trigger = some trigger →
    s.activeIdx = some trigger
  differs : s.run.Differs
  /-- A call whose core is in the handle is about to store its index, or has. -/
  core : ∀ i, g.core = some i → (∃ idx, s.adds[i]? = some (.storing idx)) ∨ i ∈ g.stored
  settled : g.overlapped = false → ∀ i, g.core = some i → i ∈ g.settled

section Followed

variable {arti : Arti β γ} {s s' : Coordinator β γ} {g : SwapHistory}

/-- A step of the loop that neither reads `active_idx` nor swaps. -/
theorem Followed.of_quiet (h : Followed s g) (hact : s'.activeIdx = s.activeIdx)
    (hadds : s'.adds = s.adds)
    (htrig : s'.run.trigger = s.run.trigger ∨ s'.run.trigger = none)
    (hdiff : s'.run.Differs) : Followed s' g where
  swaps := h.swaps
  active ho trigger ht := by
    rw [hact]
    rcases htrig with htrig | htrig
    · exact h.active ho trigger (htrig ▸ ht)
    · rw [htrig] at ht
      exact absurd ht (by simp)
  differs := hdiff
  core i hi := hadds.symm ▸ h.core i hi
  settled := h.settled

/-- What the loop sees when it reads `active_idx`: unless a call is about to store its
index, the core is nobody's or that of a call that has stored. -/
theorem Followed.settled_of_read (h : Followed s g)
    (ho : (g.core.bind (s.adds[·]?)).any AddPc.isStoring = false) {i : ℕ}
    (hi : g.core = some i) : i ∈ g.stored := by
  rcases h.core i hi with ⟨idx, hpc⟩ | hstored
  · rw [hi, Option.bind_some, hpc] at ho
    exact absurd ho (by simp [AddPc.isStoring])
  · exact hstored

/-- A step of the loop keeps it justified, if it does not swap while overlapped. -/
theorem Followed.run {e : Event} (h : Followed s g) (hg : NotOverlapped (s, g) (.run e))
    (hs : RunStep arti s e s') : Followed s' (noteSwaps s (.run e) s' g) := by
  cases hs with
  | wake hrun hact =>
    simp only [noteSwaps, hrun]
    exact ⟨h.swaps, fun _ t ht => hact.trans ht, trivial, h.core,
      fun ho _ hi => h.settled_of_read ho hi⟩
  | idle hrun =>
    simp only [noteSwaps, hrun]
    exact ⟨h.swaps, fun _ t ht => absurd ht (by simp [hrun, RunPc.trigger]), h.differs, h.core,
      fun ho _ hi => h.settled_of_read ho hi⟩
  | other hrun _ hne =>
    simp only [noteSwaps, hrun]
    exact h.of_quiet rfl rfl (.inl (by rw [hrun]; rfl)) hne
  | boot hrun =>
    have hne := h.differs
    rw [hrun] at hne
    exact h.of_quiet rfl rfl (.inl (by rw [hrun]; rfl)) hne
  | @replace trigger newIdx newCore hrun =>
    have hover : g.overlapped = false := by simpa only [NotOverlapped, hrun] using hg
    have hact : s.activeIdx = some trigger := h.active hover trigger (by rw [hrun]; rfl)
    have hne := h.differs
    rw [hrun] at hne
    simp only [noteSwaps, hrun]
    refine ⟨?_, ?_, trivial, nofun, nofun⟩
    · intro w hw
      rcases List.mem_cons.mp hw with rfl | hw
      · exact ⟨hact, hne, h.settled hover⟩
      · exact h.swaps w hw
    · intro ho t ht
      exact h.active ho t (by rw [hrun]; exact ht)
  | store hrun =>
    simp only [noteSwaps, hrun]
    exact ⟨h.swaps, fun _ t ht => absurd ht (by simp [RunPc.trigger]), trivial, h.core, h.settled⟩
  | start hrun | reach hrun | scan hrun =>
    simp only [noteSwaps, hrun]
    exact h.of_quiet rfl rfl (.inl (by rw [hrun]; rfl)) trivial
  | miss hrun | next hrun | hit hrun =>
    exact h.of_quiet rfl rfl (.inl (by rw [hrun]; rfl)) trivial
  | recover hrun | below hrun | noScan hrun | noConfig hrun | same hrun | settle hrun
  | report hrun =>
    simp only [noteSwaps, hrun]
    exact h.of_quiet rfl rfl (.inr rfl) trivial
  | pass | exhaust | noBoot => exact h.of_quiet rfl rfl (.inr rfl) trivial

/-- The places in a call where it writes the core handle or `active_idx`. -/
def AddPc.Activates : AddPc β γ → Event → Prop
  | .replacing _ _, .go => True
  | .storing _, .go => True
  | _, _ => False

/-- Elsewhere a call goes on to a place that it is not at while its core is the last. -/
theorem Followed.add_quiet {i : ℕ} {pc pc' : AddPc β γ} {e : Event} {s₁ : Coordinator β γ}
    (h : Followed s g) (hpc : s.adds[i]? = some pc) (hadd : AddStep arti s pc e pc' s₁)
    (hnot : ¬ pc.Activates e) :
    Followed { s₁ with adds := s₁.adds.set i pc' } (noteSwaps s (.add i e)
      { s₁ with adds := s₁.adds.set i pc' } g) := by
  have hnote : noteSwaps s (.add i e) { s₁ with adds := s₁.adds.set i pc' } g = g := by
    cases e with
    | go =>
      simp only [noteSwaps, hpc]
      cases pc with
      | replacing | storing => exact absurd trivial hnot
      | _ => rfl
    | _ => rfl
  have hne : ∀ idx, pc ≠ .storing idx := by
    rintro idx rfl
    cases hadd
    exact hnot trivial
  obtain ⟨hrun, -, -, hact⟩ := hadd.frame
  rw [hnote]
  refine ⟨h.swaps, ?_, hrun ▸ h.differs, ?_, h.settled⟩
  · intro ho t ht
    exact (hact hne).trans (h.active ho t (hrun ▸ ht))
  · intro j hj
    rcases h.core j hj with ⟨idx, hstoring⟩ | hstored
    · have hij : i ≠ j := by
        rintro rfl
        exact hne idx (Option.some.inj (hpc.symm.trans hstoring))
      refine .inl ⟨idx, ?_⟩
      show (s₁.adds.set i pc')[j]? = some (.storing idx)
      rw [List.getElem?_set_ne hij, hadd.adds_eq]
      exact hstoring
    · exact .inr hstored

/-- Where a call replaces the core or stores its index, it overlaps. -/
theorem Followed.add {i : ℕ} {e : Event} (h : Followed s g)
    (hs : s.step arti (.add i e) = some s') : Followed s' (noteSwaps s (.add i e) s' g) := by
  obtain ⟨pc, pc', s₁, hpc, hadd, rfl⟩ := addStep_of_step hs
  by_cases hpcs : pc.Activates e
  · obtain ⟨hrun, -, -, -⟩ := hadd.frame
    have hdiff : s₁.run.Differs := hrun ▸ h.differs
    cases hadd with
    | replace =>
      simp only [noteSwaps, hpc]
      refine ⟨h.swaps, nofun, hdiff, ?_, nofun⟩
      rintro j ⟨⟩
      exact .inl ⟨_, Machine.getElem?_set_self_of_some hpc⟩
    | @store idx =>
      simp only [noteSwaps, hpc]
      refine ⟨h.swaps, nofun, hdiff, ?_, nofun⟩
      intro j hj
      by_cases hij : i = j
      · subst hij
        exact .inr List.mem_cons_self
      · rcases h.core j hj with ⟨idx', hstoring⟩ | hstored
        · exact .inl ⟨idx', (List.getElem?_set_ne hij).trans hstoring⟩
        · exact .inr (List.mem_cons_of_mem _ hstored)
    | _ => exact hpcs.elim
  · exact h.add_quiet hpc hadd hpcs

/-- **The step lemma.** -/
theorem Followed.step {a : Action} (h : Followed s g) (hg : NotOverlapped (s, g) a)
    (hs : s.step arti a = some s') : Followed s' (noteSwaps s a s' g) := by
  cases a with
  | call line =>
    obtain rfl := Option.some.inj hs
    refine ⟨h.swaps, h.active, h.differs, ?_, h.settled⟩
    intro i hi
    rcases h.core i hi with ⟨idx, hpc⟩ | hstored
    · exact .inl ⟨idx,
        (List.getElem?_append_left (List.getElem?_eq_some_iff.mp hpc).1).trans hpc⟩
    · exact .inr hstored
  | run e => exact h.run hg (runStep_of_stepRun hs)
  | add i e => exact h.add hs
  | tick nanos =>
    obtain rfl := Option.some.inj hs
    exact ⟨h.swaps, h.active, h.differs, h.core, h.settled⟩

end Followed

/-- **Failovers replace what failed.**  In every run in which no activation by a call
overlaps an iteration of the loop that ends in a swap — no call replaces the core or
stores its index between the loop's read of `active_idx` and its swap, nor has one only
half done so at the read — each swap finds the index that triggered the scan still
active, activates a different one, and swaps out no core of a call that had not stored
its index when the loop read the trigger: no bridge the user activated meanwhile. -/
theorem swaps_of_reach (arti : Arti β γ) (manager : BridgeManager β) (core : γ)
    (telemetry : HealthStatus) (initialActiveIdx : Option ℕ) (failureThreshold : UInt32) (now : ℕ)
    (s : Coordinator β γ) (g : SwapHistory)
    (h : ((coordinating arti).watch noteSwaps).Reach NotOverlapped
      (.new manager core telemetry initialActiveIdx failureThreshold now, .start) (s, g)) :
    ∀ w ∈ g.swaps, w.active = some w.trigger ∧ w.newIdx ≠ w.trigger ∧
      ∀ i, w.out = some i → i ∈ w.settled := by
  have hinv : Followed s g := by
    refine h.invariant (I := fun p => Followed p.1 p.2) ?_ ?_
    · exact ⟨fun w hw => absurd hw List.not_mem_nil,
        fun _ t ht => absurd ht (by simp [Coordinator.new, RunPc.trigger]), trivial, nofun, nofun⟩
    · intro p a q hi hg hs
      obtain ⟨hstep, hnote⟩ := Machine.watch_step.mp hs
      rw [hnote]
      exact hi.step hg hstep
  intro w hw
  have hjust := hinv.swaps w hw
  exact ⟨hjust.active, hjust.differs, hjust.out⟩

/-- The user adds a bridge; it fails, and while the loop fails over the user has another
one checked, which is activated only behind the swap. -/
theorem swaps_failover :
    ∃ g : SwapHistory, g.swaps = [⟨some 2, 2, 1, some 0, [0]⟩] ∧ g.core = some 1 ∧
      ∀ w ∈ g.swaps, w.active = some w.trigger ∧ w.newIdx ≠ w.trigger ∧
        ∀ i, w.out = some i → i ∈ w.settled := by
  obtain ⟨⟨s, g⟩, hreach, hswaps, hcore⟩ := Machine.exists_reach_of_exec
    (m := (coordinating Arti.plain).watch noteSwaps) (G := NotOverlapped)
    (s := (Coordinator.new bridgeAndSpare firstLine {} (some 0) 1 0, SwapHistory.start))
    (P := fun p => p.2.swaps = [⟨some 2, 2, 1, some 0, [0]⟩] ∧ p.2.core = some 1)
    (.call addedLine :: addUpToBootstrap 0 ++ addActivate 0 ++ failedCheck ++
      .call laterLine :: addUpToBootstrap 1 ++
      [.run .go, .run (.checked (.connectTimedOut 0)), .run (.checked (.connected 0)), .run .go,
        .run (.bootstrapped true), .run .go] ++ addActivate 1) (by decide)
  exact ⟨g, hswaps, hcore,
    swaps_of_reach Arti.plain bridgeAndSpare firstLine {} (some 0) 1 0 s g hreach⟩

/-- A bridge the user activates while the loop bootstraps for another one is swapped out
again; so is one whose index is not stored yet, though `active_idx` is still the trigger. -/
theorem swap_discards_added_bridge :
    (∃ (s : Coordinator String String) (g : SwapHistory),
      ((coordinating Arti.plain).watch noteSwaps).Reach Machine.anyStep
        (.new bridgeAndSpare firstLine {} (some 0) 1 0, .start) (s, g) ∧
      ∃ w ∈ g.swaps, w.active = some 2 ∧ w.trigger = 0 ∧ w.out = some 0 ∧ ¬ w.Justified) ∧
    ∃ (s : Coordinator String String) (g : SwapHistory),
      ((coordinating Arti.plain).watch noteSwaps).Reach Machine.anyStep
        (.new bridgeAndSpare firstLine {} (some 0) 1 0, .start) (s, g) ∧
      ∃ w ∈ g.swaps, w.active = some w.trigger ∧ w.out = some 0 ∧ ¬ w.Justified := by
  constructor
  · obtain ⟨⟨s, g⟩, hreach, hswaps⟩ := Machine.exists_reach_of_exec
      (m := (coordinating Arti.plain).watch noteSwaps) (G := Machine.anyStep)
      (s := (Coordinator.new bridgeAndSpare firstLine {} (some 0) 1 0, SwapHistory.start))
      (P := fun p => (⟨some 2, 0, 1, some 0, []⟩ : Swap) ∈ p.2.swaps)
      (failoverUpToBootstrap ++ .call addedLine :: addUpToBootstrap 0 ++ addActivate 0 ++
        [.run .go]) (by decide)
    exact ⟨s, g, hreach, _, hswaps, rfl, rfl, rfl, fun h => absurd h.active (by decide)⟩
  · obtain ⟨⟨s, g⟩, hreach, hswaps⟩ := Machine.exists_reach_of_exec
      (m := (coordinating Arti.plain).watch noteSwaps) (G := Machine.anyStep)
      (s := (Coordinator.new bridgeAndSpare firstLine {} (some 0) 1 0, SwapHistory.start))
      (P := fun p => (⟨some 0, 0, 1, some 0, []⟩ : Swap) ∈ p.2.swaps)
      (failoverUpToBootstrap ++ .call addedLine :: addUpToBootstrap 0 ++
        [.add 0 .go, .run .go, .add 0 .go, .add 0 .go, .run .go, .run .go]) (by decide)
    exact ⟨s, g, hreach, _, hswaps, rfl, rfl, fun h => absurd (h.out 0 rfl) List.not_mem_nil⟩

end Anonet.Bridges
