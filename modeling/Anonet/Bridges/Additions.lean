import Anonet.Bridges.Manager
import Anonet.Library.Machine

/-!
# Adding bridges

Any number of `add_bridge_line` calls on one manager, from the command line and from
the dashboard.  A call holds the transports lock while it looks for a binary and the
candidates lock while it appends, and neither in between.

* `Addition` — one call; `Additions`, `adding` — the machine of all interleavings.
* `Filed` — the invariant: the calls that succeeded were given the indices of the
  candidates, each its own, and every candidate has its transport.
* `additions_of_reach` — **an index is given once and means the same line for ever.**
-/

namespace Anonet.Bridges

variable {β γ : Type}

/-! ## Calls -/

/-- Where a call is. -/
inductive AdditionPc (β : Type)
  | entered
  /-- The line is parsed and its transport is registered. -/
  | pushing (builder : β)
  | returned (result : Except String ℕ)

/-- A call of `add_bridge_line`. -/
structure Addition (β : Type) where
  line : String
  pc : AdditionPc β

/-- The index the call was given. -/
def Addition.index? (c : Addition β) : Option ℕ :=
  match c.pc with
  | .returned (.ok idx) => some idx
  | _ => none

structure Additions (β : Type) where
  manager : BridgeManager β
  calls : List (Addition β)

inductive AdditionAction
  | call (line : String)
  /-- Call `i` up to the candidates lock, on the given file system. -/
  | prepare (i : ℕ) (fs : FileSystem)
  | push (i : ℕ)

namespace Additions

def new (transports : List TransportBinary) : Additions β := ⟨.new transports, []⟩

/-- Call `i`, which is `c`, goes on to `pc`. -/
def move (s : Additions β) (i : ℕ) (c : Addition β) (pc : AdditionPc β) (manager : BridgeManager β) :
    Additions β :=
  ⟨manager, s.calls.set i { c with pc := pc }⟩

def step (arti : Arti β γ) (s : Additions β) : AdditionAction → Option (Additions β)
  | .call line => some { s with calls := s.calls ++ [⟨line, .entered⟩] }
  | .prepare i fs => do
    let c ← s.calls[i]?
    match c.pc with
    | .entered =>
      match s.manager.prepareBridgeLine arti fs c.line with
      | (.ok builder, manager) => some (s.move i c (.pushing builder) manager)
      | (.error msg, manager) => some (s.move i c (.returned (.error msg)) manager)
    | _ => none
  | .push i => do
    let c ← s.calls[i]?
    match c.pc with
    | .pushing builder =>
      let (idx, manager) := s.manager.pushCandidate c.line builder
      some (s.move i c (.returned (.ok idx)) manager)
    | _ => none

end Additions

/-- All interleavings of `add_bridge_line` calls. -/
def adding (arti : Arti β γ) : Machine (Additions β) AdditionAction where
  step := Additions.step arti

/-! ## What one step does -/

inductive AdditionStep (arti : Arti β γ) (s : Additions β) : AdditionAction → Additions β → Prop
  | call {line : String} :
      AdditionStep arti s (.call line) { s with calls := s.calls ++ [⟨line, .entered⟩] }
  | prepare {i : ℕ} {fs : FileSystem} {line : String} {builder : β} {manager : BridgeManager β}
      (hc : s.calls[i]? = some ⟨line, .entered⟩)
      (hprep : s.manager.prepareBridgeLine arti fs line = (.ok builder, manager)) :
      AdditionStep arti s (.prepare i fs) (s.move i ⟨line, .entered⟩ (.pushing builder) manager)
  | reject {i : ℕ} {fs : FileSystem} {line msg : String} {manager : BridgeManager β}
      (hc : s.calls[i]? = some ⟨line, .entered⟩)
      (hprep : s.manager.prepareBridgeLine arti fs line = (.error msg, manager)) :
      AdditionStep arti s (.prepare i fs)
        (s.move i ⟨line, .entered⟩ (.returned (.error msg)) manager)
  | push {i : ℕ} {line : String} {builder : β} (hc : s.calls[i]? = some ⟨line, .pushing builder⟩) :
      AdditionStep arti s (.push i)
        (s.move i ⟨line, .pushing builder⟩ (.returned (.ok s.manager.candidateCount))
          (s.manager.pushCandidate line builder).2)

section Steps

variable {arti : Arti β γ} {s s' t : Additions β} {a : AdditionAction}

theorem additionStep_of_step (h : s.step arti a = some s') : AdditionStep arti s a s' := by
  cases a with
  | call line =>
    cases h
    exact .call
  | prepare i fs =>
    obtain ⟨⟨line, pc⟩, hc, h⟩ := Option.bind_eq_some_iff.mp h
    cases pc with
    | entered =>
      dsimp only at h
      split at h <;> rename_i hprep <;> cases h
      · exact .prepare hc hprep
      · exact .reject hc hprep
    | pushing | returned => cases h
  | push i =>
    obtain ⟨⟨line, pc⟩, hc, h⟩ := Option.bind_eq_some_iff.mp h
    cases pc with
    | pushing builder =>
      cases h
      exact .push hc
    | entered | returned => cases h

theorem AdditionStep.extends (h : AdditionStep arti s a s') : s.manager.Extends s'.manager := by
  cases h with
  | call => exact .rfl
  | @prepare i fs line builder manager hc hprep =>
    have hm := extends_prepareBridgeLine arti s.manager fs line
    rw [hprep] at hm
    exact hm
  | @reject i fs line msg manager hc hprep =>
    have hm := extends_prepareBridgeLine arti s.manager fs line
    rw [hprep] at hm
    exact hm
  | push hc => exact extends_pushCandidate _ _

/-- Candidates and transports are only ever appended. -/
theorem extends_of_reach (h : (adding arti).Reach Machine.anyStep s t) :
    s.manager.Extends t.manager := by
  induction h with
  | init => exact .rfl
  | step _ _ hs ih => exact ih.trans (additionStep_of_step hs).extends

/-- A call that has returned stays as it is. -/
theorem AdditionStep.returned (h : AdditionStep arti s a s') {i : ℕ} {line : String}
    {result : Except String ℕ} (hc : s.calls[i]? = some ⟨line, .returned result⟩) :
    s'.calls[i]? = some ⟨line, .returned result⟩ := by
  have hmove : ∀ {j : ℕ} {c : Addition β} {pc : AdditionPc β} {manager : BridgeManager β},
      s.calls[j]? = some c → (∀ r, c.pc ≠ .returned r) →
        (s.move j c pc manager).calls[i]? = some ⟨line, .returned result⟩ := by
    intro j c pc manager hj hpc
    have hij : j ≠ i := by
      rintro rfl
      cases hj.symm.trans hc
      exact hpc result rfl
    exact (List.getElem?_set_ne hij).trans hc
  cases h with
  | call => exact (List.getElem?_append_left (List.getElem?_eq_some_iff.mp hc).1).trans hc
  | prepare hj hprep => exact hmove hj nofun
  | reject hj hprep => exact hmove hj nofun
  | push hj => exact hmove hj nofun

theorem returned_of_reach (h : (adding arti).Reach Machine.anyStep s t) {i : ℕ} {line : String}
    {result : Except String ℕ} (hc : s.calls[i]? = some ⟨line, .returned result⟩) :
    t.calls[i]? = some ⟨line, .returned result⟩ := by
  induction h with
  | init => exact hc
  | step _ _ hs ih => exact (additionStep_of_step hs).returned ih

end Steps

/-! ## Calls and candidates -/

/-- What the calls and the candidates have to do with one another. -/
structure Filed (s : Additions β) : Prop where
  /-- Each candidate was added by one call. -/
  indices : (s.calls.filterMap Addition.index?).Perm (List.range s.manager.candidateCount)
  lines : ∀ c ∈ s.calls, ∀ idx ∈ c.index?, s.manager.candidateLine idx = some c.line
  transports : ∀ idx line protocol, s.manager.candidateLine idx = some line →
    extractTransportProtocol line = some protocol → s.manager.Registered protocol
  /-- A call at the candidates lock has had its transport registered. -/
  ready : ∀ line builder protocol, ⟨line, .pushing builder⟩ ∈ s.calls →
    extractTransportProtocol line = some protocol → s.manager.Registered protocol

section Filed

variable {arti : Arti β γ} {s s' t : Additions β} {a : AdditionAction}

theorem filed_new (transports : List TransportBinary) : Filed (.new transports : Additions β) where
  indices := .refl _
  lines := nofun
  transports := nofun
  ready := nofun

/-- A call goes on without adding a candidate. -/
theorem Filed.move (h : Filed s) {i : ℕ} {c : Addition β} {pc : AdditionPc β}
    {manager : BridgeManager β} (hc : s.calls[i]? = some c) (hidx : c.index? = none)
    (hidx' : ({ c with pc := pc } : Addition β).index? = none)
    (hm : s.manager.Extends manager) (hsame : manager.candidates = s.manager.candidates)
    (hready : ∀ builder protocol, pc = .pushing builder →
      extractTransportProtocol c.line = some protocol → manager.Registered protocol) :
    Filed (s.move i c pc manager) := by
  have hline : ∀ idx, manager.candidateLine idx = s.manager.candidateLine idx := by
    intro idx
    rw [BridgeManager.candidateLine, hsame]
    rfl
  refine ⟨?_, ?_, ?_, ?_⟩
  · have hperm := Machine.filterMap_set_perm (f := Addition.index?) (a := { c with pc := pc }) hc hidx
    rw [hidx'] at hperm
    have hcount : manager.candidateCount = s.manager.candidateCount := congrArg List.length hsame
    show (List.filterMap _ (s.calls.set i _)).Perm (List.range manager.candidateCount)
    rw [hcount]
    exact hperm.trans h.indices
  · intro c' hc' idx hidx''
    obtain ⟨j, hj⟩ := List.getElem?_of_mem hc'
    show manager.candidateLine idx = _
    rw [hline]
    rcases Machine.getElem?_set_cases hj with ⟨-, hj⟩ | ⟨-, rfl⟩
    · exact h.lines c' (List.mem_of_getElem? hj) idx hidx''
    · rw [hidx'] at hidx''
      cases hidx''
  · intro idx line protocol hidx'' hprotocol
    have hidx'' : s.manager.candidateLine idx = some line := hline idx ▸ hidx''
    exact hm.registered (h.transports idx line protocol hidx'' hprotocol)
  · intro line builder protocol hmem hprotocol
    obtain ⟨j, hj⟩ := List.getElem?_of_mem hmem
    rcases Machine.getElem?_set_cases hj with ⟨-, hj⟩ | ⟨-, heq⟩
    · exact hm.registered (h.ready line builder protocol (List.mem_of_getElem? hj) hprotocol)
    · cases heq
      exact hready builder protocol rfl hprotocol

/-- **The step lemma.** -/
theorem Filed.step (h : Filed s) (hs : AdditionStep arti s a s') : Filed s' := by
  cases hs with
  | @call line =>
    refine ⟨?_, ?_, h.transports, ?_⟩
    · show (List.filterMap Addition.index? (s.calls ++ [⟨line, .entered⟩])).Perm _
      rw [List.filterMap_append]
      exact (List.append_nil (s.calls.filterMap Addition.index?)).symm ▸ h.indices
    · intro c hc idx hidx
      rcases List.mem_append.mp hc with hc | hc
      · exact h.lines c hc idx hidx
      · cases List.mem_singleton.mp hc
        cases hidx
    · intro line' builder protocol hmem hprotocol
      rcases List.mem_append.mp hmem with hmem | hmem
      · exact h.ready line' builder protocol hmem hprotocol
      · cases List.mem_singleton.mp hmem
  | @prepare i fs line builder manager hc hprep =>
    have hm := extends_prepareBridgeLine arti s.manager fs line
    have hsame := candidates_prepareBridgeLine arti s.manager fs line
    rw [hprep] at hm hsame
    refine h.move hc rfl rfl hm hsame ?_
    rintro - protocol - hprotocol
    rcases prepareBridgeLine_cases arti s.manager fs line with
      ⟨msg, herror⟩ | ⟨builder', transports, -, hok, -, -, hreg⟩
    · cases hprep.symm.trans herror
    · cases hprep.symm.trans hok
      exact hreg protocol hprotocol
  | @reject i fs line msg manager hc hprep =>
    have hm := extends_prepareBridgeLine arti s.manager fs line
    have hsame := candidates_prepareBridgeLine arti s.manager fs line
    rw [hprep] at hm hsame
    exact h.move hc rfl rfl hm hsame nofun
  | @push i line builder hc =>
    have hm := extends_pushCandidate (m := s.manager) line builder
    have hnew := candidateLine_pushCandidate (m := s.manager) line builder
    have hcount := candidateCount_pushCandidate (m := s.manager) line builder
    refine ⟨?_, ?_, ?_, ?_⟩
    · have hperm := Machine.filterMap_set_perm (f := Addition.index?)
        (a := ⟨line, .returned (.ok s.manager.candidateCount)⟩) hc rfl
      have hrange : (s.manager.candidateCount :: s.calls.filterMap Addition.index?).Perm
          (List.range (s.manager.candidateCount + 1)) := by
        rw [List.range_succ]
        exact (h.indices.cons _).trans (List.perm_append_singleton _ _).symm
      show (List.filterMap _ (s.calls.set i _)).Perm
        (List.range (s.manager.pushCandidate line builder).2.candidateCount)
      rw [hcount]
      exact hperm.trans hrange
    · intro c hmem idx hidx
      obtain ⟨j, hj⟩ := List.getElem?_of_mem hmem
      rcases Machine.getElem?_set_cases hj with ⟨-, hj⟩ | ⟨-, rfl⟩
      · exact hm.candidateLine (h.lines c (List.mem_of_getElem? hj) idx hidx)
      · cases hidx
        exact hnew
    · intro idx line' protocol hidx hprotocol
      have hlt : idx < s.manager.candidateCount + 1 := hcount ▸ lt_of_candidateLine hidx
      rcases Nat.lt_succ_iff_lt_or_eq.mp hlt with hlt | rfl
      · have hold := candidateLine_of_lt (m := s.manager) hlt
        cases (hm.candidateLine hold).symm.trans hidx
        exact hm.registered (h.transports idx _ protocol hold hprotocol)
      · cases hnew.symm.trans hidx
        exact hm.registered (h.ready line builder protocol (List.mem_of_getElem? hc) hprotocol)
    · intro line' builder' protocol hmem hprotocol
      obtain ⟨j, hj⟩ := List.getElem?_of_mem hmem
      rcases Machine.getElem?_set_cases hj with ⟨-, hj⟩ | ⟨-, heq⟩
      · exact hm.registered (h.ready line' builder' protocol (List.mem_of_getElem? hj) hprotocol)
      · cases heq

/-- A step that changes the candidates is the last one of a call that succeeds. -/
theorem AdditionStep.candidates (hs : AdditionStep arti s a s') :
    s'.manager.candidates = s.manager.candidates ∨
      ∃ i line idx, a = .push i ∧ s'.calls[i]? = some ⟨line, .returned (.ok idx)⟩ := by
  cases hs with
  | call => exact .inl rfl
  | @prepare i fs line builder manager hc hprep =>
    have hsame := candidates_prepareBridgeLine arti s.manager fs line
    rw [hprep] at hsame
    exact .inl hsame
  | @reject i fs line msg manager hc hprep =>
    have hsame := candidates_prepareBridgeLine arti s.manager fs line
    rw [hprep] at hsame
    exact .inl hsame
  | @push i line builder hc =>
    exact .inr ⟨i, line, _, rfl, Machine.getElem?_set_self_of_some hc⟩

/-- A step registers at most one transport, of a protocol that had none. -/
theorem AdditionStep.transports (hs : AdditionStep arti s a s') :
    s'.manager.transports = s.manager.transports ∨
      ∃ t, s'.manager.transports = s.manager.transports ++ [t] ∧
        ¬ s.manager.Registered t.protocol := by
  have hprepare : ∀ fs line, (s.manager.prepareBridgeLine arti fs line).2.transports =
      s.manager.transports ∨ ∃ t, (s.manager.prepareBridgeLine arti fs line).2.transports =
        s.manager.transports ++ [t] ∧ ¬ s.manager.Registered t.protocol := by
    intro fs line
    rcases prepareBridgeLine_cases arti s.manager fs line with
      ⟨msg, h⟩ | ⟨builder, transports, -, h, hlen, hnew, -⟩
    · rw [h]
      exact .inl rfl
    · rw [h]
      rcases Nat.le_one_iff_eq_zero_or_eq_one.mp hlen with hlen | hlen
      · rw [List.eq_nil_of_length_eq_zero hlen, List.append_nil]
        exact .inl rfl
      · obtain ⟨t, rfl⟩ := List.length_eq_one_iff.mp hlen
        exact .inr ⟨t, rfl, hnew t (List.mem_singleton_self t)⟩
  cases hs with
  | call | push hc => exact .inl rfl
  | @prepare i fs line builder manager hc hprep =>
    have h := hprepare fs line
    rw [hprep] at h
    exact h
  | @reject i fs line msg manager hc hprep =>
    have h := hprepare fs line
    rw [hprep] at h
    exact h

end Filed

/-- **An index is given once and means the same line for ever.**  In every interleaving
of `add_bridge_line` calls on a new manager: a step changes the candidates only if it is
the last one of a call that succeeds; the indices of the calls that succeeded are those
of the candidates, each once, and each stands for its call's line from then on; every
candidate whose line names a transport has it registered from then on; and a protocol
that is registered is not registered again. -/
theorem additions_of_reach (arti : Arti β γ) (transports : List TransportBinary) (s : Additions β)
    (h : (adding arti).Reach Machine.anyStep (.new transports) s) :
    (∀ a s', s.step arti a = some s' → s'.manager.candidates ≠ s.manager.candidates →
      ∃ i line idx, a = .push i ∧ ∀ t, (adding arti).Reach Machine.anyStep s' t →
        t.calls[i]? = some ⟨line, .returned (.ok idx)⟩) ∧
    (s.calls.filterMap Addition.index?).Perm (List.range s.manager.candidateCount) ∧
    (∀ c ∈ s.calls, ∀ idx ∈ c.index?, ∀ t, (adding arti).Reach Machine.anyStep s t →
      t.manager.candidateLine idx = some c.line) ∧
    (∀ idx line protocol, s.manager.candidateLine idx = some line →
      extractTransportProtocol line = some protocol →
        ∀ t, (adding arti).Reach Machine.anyStep s t → t.manager.Registered protocol) ∧
    (∀ a s', s.step arti a = some s' → s'.manager.transports = s.manager.transports ∨
      ∃ t, s'.manager.transports = s.manager.transports ++ [t] ∧
        ¬ s.manager.Registered t.protocol) := by
  have hfiled : Filed s := by
    refine h.invariant (filed_new transports) ?_
    intro s a s' hi _ hs
    exact hi.step (additionStep_of_step hs)
  refine ⟨?_, hfiled.indices, ?_, ?_, fun a s' hs => (additionStep_of_step hs).transports⟩
  · intro a s' hs hchange
    rcases (additionStep_of_step hs).candidates with hsame | ⟨i, line, idx, rfl, hc⟩
    · exact absurd hsame hchange
    · exact ⟨i, line, idx, rfl, fun t ht => returned_of_reach ht hc⟩
  · intro c hc idx hidx t ht
    exact (extends_of_reach ht).candidateLine (hfiled.lines c hc idx hidx)
  · intro idx line protocol hline hprotocol t ht
    exact (extends_of_reach ht).registered (hfiled.transports idx line protocol hline hprotocol)

/-- Two calls for a registered transport, the later one first at the candidates lock, and
one for a transport without a binary. -/
theorem additions_overtaking :
    ∃ s : Additions String, s.calls.map Addition.index? = [some 1, some 0, none] ∧
      (s.calls.filterMap Addition.index?).Perm (List.range s.manager.candidateCount) := by
  obtain ⟨s, hreach, hidx⟩ := Machine.exists_reach_of_exec (m := adding Arti.plain)
    (G := Machine.anyStep) (s := Additions.new [⟨"obfs4", "/opt/obfs4proxy"⟩])
    (P := fun s => s.calls.map Addition.index? = [some 1, some 0, none])
    [.call s!"obfs4 {firstLine}", .call s!"Bridge obfs4 {spareLine}", .call s!"meek {addedLine}",
      .prepare 0 .empty, .prepare 1 .empty, .prepare 2 .empty, .push 1, .push 0] (by decide)
  exact ⟨s, hidx, (additions_of_reach Arti.plain _ s hreach).2.1⟩

end Anonet.Bridges
