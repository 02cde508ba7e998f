import Anonet.Library.WriteLog
import Anonet.Transparent.FullAnon

/-!
# All four pieces or none

"Full system anonymization" is four pieces: the supervised tor, the redirect,
the kill switch, and the flag the dashboard shows.  A call changes them one by
one, in an order of its own, and releases the supervisor's mutex in between.

* `Call.todo`, `Call.writes` — the pieces a call still has to change, and the one
  its next step changes; `CallStep.piece` says once what a step does to them.
* `Together` — all four pieces are there, or none is.
* `together_of_inOrder` — **they are together whenever no call is in progress, as
  long as no `enable` and `disable` overtake one another.**
-/

namespace Anonet.Transparent

open Leakguard Nft Telemetry

/-! ## The pieces -/

inductive Piece
  | tor
  | redirect
  | killSwitch
  | flag
  deriving DecidableEq

/-- The piece is in place. -/
def FullAnonController.Has (s : FullAnonController) : Piece → Prop
  | .tor => s.supervisor.isRunning = true
  | .redirect => s.ruleset.has transparentTable
  | .killSwitch => s.ruleset.has systemTable
  | .flag => s.telemetry.transparentEnabled = true

instance (s : FullAnonController) (p : Piece) : Decidable (s.Has p) := by
  cases p <;> unfold FullAnonController.Has <;> infer_instance

/-- The table a piece consists of. -/
def Piece.table : Piece → Option String
  | .redirect => some transparentTable
  | .killSwitch => some systemTable
  | _ => none

theorem has_of_table {s : FullAnonController} {p : Piece} {table : String}
    (h : p.table = some table) : s.Has p ↔ s.ruleset.has table := by
  cases p with
  | redirect | killSwitch =>
    cases h
    exact Iff.rfl
  | _ => cases h

theorem has_setRuleset {s : FullAnonController} {p : Piece} {rs : Ruleset}
    (h : p.table = none) : (s.setRuleset rs).Has p ↔ s.Has p := by
  cases p with
  | tor | flag => exact Iff.rfl
  | _ => cases h

theorem Piece.table_inj {p q : Piece} {table : String} (hp : p.table = some table)
    (hq : q.table = some table) : q = p := by
  cases p with
  | redirect =>
    cases q with
    | redirect => rfl
    | killSwitch =>
      exact absurd (Option.some.inj (hp.trans hq.symm)) transparentTable_ne_systemTable
    | _ => cases hq
  | killSwitch =>
    cases q with
    | killSwitch => rfl
    | redirect =>
      exact absurd (Option.some.inj (hq.trans hp.symm)) transparentTable_ne_systemTable
    | _ => cases hq
  | _ => cases hp

/-- All four pieces are in place, or none is. -/
def Together (s : FullAnonController) : Prop := (∀ p, s.Has p) ∨ ∀ p, ¬ s.Has p

/-- The pieces a call still has to change, in its order, unless it fails. -/
def Call.todo : Call → List Piece
  | .enable (.bootstrapping _ _ _) => [.tor, .redirect, .killSwitch, .flag]
  | .enable (.redirecting _) => [.redirect, .killSwitch, .flag]
  | .enable (.switching _) => [.killSwitch, .flag]
  | .enable .flagging => [.flag]
  | .enable _ => []
  | .disable .entered | .disable (.unredirecting _) => [.redirect, .killSwitch, .tor, .flag]
  | .disable (.unswitching _) => [.killSwitch, .tor, .flag]
  | .disable .stopping => [.tor, .flag]
  | .disable .releasing | .disable .flagging => [.flag]
  | .disable .returned => []

/-- The piece a step of a call changes, when the call succeeds. -/
def Call.writes : Call → Event → Option Piece
  | .enable (.bootstrapping _ _ _), .tor e =>
    if TorSupervisor.onBootstrap e = .done then some .tor else none
  | .enable (.redirecting _), .nft _ => some .redirect
  | .enable (.switching _), .nft _ => some .killSwitch
  | .enable .flagging, .go => some .flag
  | .disable (.unredirecting _), .nft _ => some .redirect
  | .disable (.unswitching _), .nft _ => some .killSwitch
  | .disable .stopping, .go => some .tor
  | .disable .flagging, .go => some .flag
  | _, _ => none

/-- The call undoes what it did because a command failed. -/
def Call.RollingBack : Call → Prop
  | .enable (.unredirecting _ _) | .enable (.stopping _) | .enable (.releasing _) => True
  | _ => False

def Call.Returned : Call → Prop
  | .enable (.returned _) | .disable .returned => True
  | _ => False

instance (c : Call) : Decidable c.Returned := by
  unfold Call.Returned
  split <;> infer_instance

theorem Call.todo_of_returned {c : Call} (h : c.Returned) : c.todo = [] := by
  cases c with
  | enable pc =>
    cases pc with
    | returned result => rfl
    | _ => exact absurd h id
  | disable pc =>
    cases pc with
    | returned => rfl
    | _ => exact absurd h id

/-- Every external command a step runs succeeds. -/
def Event.Succeeds (op : Option TableOp) (rs : Ruleset) : Event → Prop
  | .go => True
  | .identified o => (currentUid o).isOk = true
  | .spawned (.spawned _) => True
  | .spawned _ => False
  | .tor (.line _) => True
  | .tor _ => False
  | .nft o => o.Succeeds op rs

instance (op : Option TableOp) (rs : Ruleset) (e : Event) : Decidable (e.Succeeds op rs) :=
  match e with
  | .go | .spawned (.spawned _) | .tor (.line _) => inferInstanceAs (Decidable True)
  | .spawned .noDataDir | .spawned .noTorrc | .spawned .noTor | .tor .readError | .tor .eof
  | .tor .elapsed => inferInstanceAs (Decidable False)
  | .identified o => inferInstanceAs (Decidable ((currentUid o).isOk = true))
  | .nft o => inferInstanceAs (Decidable (o.Succeeds op rs))

theorem Event.Succeeds.nft {op : Option TableOp} {rs : Ruleset} {e : Event}
    (h : e.Succeeds op rs) : e.NftSucceeds op rs := by
  cases e with
  | nft o => exact h
  | _ => trivial

/-- What one step of a call does to its pieces: it changes the first of those it
still has to change, or none. -/
inductive PieceStep (s s' : FullAnonController) (c c' : Call) : Option Piece → Prop
  | quiet (todo : c'.todo = c.todo ∨ c.todo = [] ∧ ∀ p, p ∈ c'.todo)
      (same : ∀ p, s'.Has p ↔ s.Has p) : PieceStep s s' c c' none
  | write {p : Piece} (todo : c.todo = p :: c'.todo) (wrote : s'.Has p ↔ c.kind = .enable)
      (same : ∀ q, q ≠ p → (s'.Has q ↔ s.Has q)) : PieceStep s s' c c' (some p)

section Steps

variable {s s' : FullAnonController} {i : ℕ} {c c' : Call} {e : Event}

/-- A step that changes neither the tables, nor the supervisor, nor the flag. -/
theorem PieceStep.of_same (todo : c'.todo = c.todo ∨ c.todo = [] ∧ ∀ p, p ∈ c'.todo)
    (hsup : s'.supervisor.child = s.supervisor.child) (hrs : s'.ruleset = s.ruleset)
    (hflag : s'.telemetry.transparentEnabled = s.telemetry.transparentEnabled) :
    PieceStep s s' c c' none := by
  refine .quiet todo ?_
  intro p
  cases p <;>
    simp only [FullAnonController.Has, TorSupervisor.isRunning, hsup, hrs, hflag]

/-- A step that runs `nft`, successfully, for one of the two tables. -/
theorem PieceStep.of_nft {p : Piece} {rs : Ruleset} {table : String}
    (htable : p.table = some table) (todo : c.todo = p :: c'.todo)
    (hop : c.tableOp = some (if c.kind = .enable then .load table else .delete table))
    (hhas : ∀ t, rs.has t ↔ TableOp.After c.tableOp t (s.ruleset.has t)) :
    PieceStep s (s.setRuleset rs) c c' (some p) := by
  refine .write todo ?_ ?_
  · rw [has_of_table htable]
    show rs.has table ↔ _
    rw [hhas, hop]
    split <;> rename_i hkind <;> simp [TableOp.After, hkind]
  · intro q hq
    cases hqt : q.table with
    | none => exact has_setRuleset hqt
    | some t =>
      have ht : t ≠ table := fun heq => hq (Piece.table_inj htable (heq ▸ hqt))
      rw [has_of_table hqt, has_of_table hqt]
      show rs.has t ↔ _
      rw [hhas, hop]
      split <;> simp [TableOp.After, ht]

/-- **What one step of a call does to the pieces**, when its command succeeds. -/
theorem CallStep.piece (h : CallStep s i c e c' s') (hok : e.Succeeds c.tableOp s.ruleset)
    (hc : ¬ c.RollingBack) :
    ¬ c'.RollingBack ∧ c'.kind = c.kind ∧ PieceStep s s' c c' (c.writes e) := by
  have hhas := h.has hok.nft
  cases h with
  | enter => exact ⟨id, rfl, .of_same (.inl rfl) rfl rfl rfl⟩
  | identify | noUid | noLaunch => exact ⟨id, rfl, .of_same (.inl rfl) rfl rfl rfl⟩
  | launch =>
    refine ⟨id, rfl, .of_same (.inr ⟨rfl, ?_⟩) rfl rfl rfl⟩
    intro p
    cases p <;> simp [Call.todo]
  | read he =>
    refine ⟨id, rfl, ?_⟩
    rw [Call.writes, if_neg (by simp [he])]
    exact .of_same (.inl rfl) rfl rfl rfl
  | started he =>
    refine ⟨id, rfl, ?_⟩
    rw [Call.writes, if_pos he]
    refine .write rfl (iff_of_true rfl rfl) ?_
    intro q hq
    cases q with
    | tor => exact absurd rfl hq
    | _ => exact Iff.rfl
  | @noBootstrap uid child deadline e err he htime =>
    cases e with
    | line text =>
      simp only [TorSupervisor.onBootstrap] at he
      split at he <;> cases he
    | _ => exact absurd hok id
  | killed | fail => exact ⟨id, rfl, .of_same (.inl rfl) rfl rfl rfl⟩
  | redirect => exact ⟨id, rfl, .of_nft rfl rfl rfl hhas⟩
  | switch => exact ⟨id, rfl, .of_nft rfl rfl rfl hhas⟩
  | @noRedirect uid o rs err hrun =>
    have henable := (s.redirect uid).has_enable transparentTable hok
    rw [hrun] at henable
    cases henable.1
  | @noSwitch uid o rs err hrun =>
    have henable := (KillSwitch.Radical uid).has_enable systemTable hok
    rw [hrun] at henable
    cases henable.1
  | flag =>
    refine ⟨id, rfl, .write rfl (iff_of_true rfl rfl) ?_⟩
    intro q hq
    cases q with
    | flag => exact absurd rfl hq
    | _ => exact Iff.rfl
  | rollback | rollbackStop | rollbackRelease => exact absurd trivial hc
  | leave => exact ⟨id, rfl, .of_same (.inl rfl) rfl rfl rfl⟩
  | unredirect => exact ⟨id, rfl, .of_nft rfl rfl rfl hhas⟩
  | unswitch => exact ⟨id, rfl, .of_nft rfl rfl rfl hhas⟩
  | stop =>
    refine ⟨id, rfl, .write rfl (iff_of_false (by simp [FullAnonController.Has,
      TorSupervisor.isRunning, FullAnonController.lock, FullAnonController.takeChild])
      (by simp [Call.kind])) ?_⟩
    intro q hq
    cases q with
    | tor => exact absurd rfl hq
    | _ => exact Iff.rfl
  | release => exact ⟨id, rfl, .of_same (.inl rfl) rfl rfl rfl⟩
  | unflag =>
    refine ⟨id, rfl, .write rfl (iff_of_false (by simp [FullAnonController.Has,
      FullAnonController.setEnabled, FullAnonController.update]) (by simp [Call.kind])) ?_⟩
    intro q hq
    cases q with
    | flag => exact absurd rfl hq
    | _ => exact Iff.rfl

end Steps

/-! ## The history of changes -/

/-- One call, by its place in the list of calls. -/
structure Operation where
  call : ℕ
  kind : Kind
  deriving DecidableEq

/-- The changes so far. -/
abbrev History := WriteLog Operation Piece

/-- A step's change, if it makes one. -/
def record (s : FullAnonController) (a : Action) (_s' : FullAnonController) (g : History) :
    History :=
  match a with
  | .step i e =>
    match s.calls[i]? with
    | some c =>
      match c.writes e with
      | some p => ⟨⟨i, c.kind⟩, p⟩ :: g
      | none => g
    | none => g
  | _ => g

/-- The pieces an operation still has to change. -/
def todo (s : FullAnonController) (x : Operation) : List Piece :=
  match s.calls[x.call]? with
  | some c => if c.kind = x.kind then c.todo else []
  | none => []

/-- The pieces of the state explained by its history. -/
structure Recorded (s₀ s : FullAnonController) (g : History) : Prop where
  forward : ∀ (i : ℕ) (c : Call), s.calls[i]? = some c → ¬ c.RollingBack
  progress : g.Progress (todo s)
  shows : ∀ p, g.Shows p (· ↔ s₀.Has p) (fun x v => v ↔ x.kind = .enable) (s.Has p)

section Recorded

variable {s₀ s s' s₁ : FullAnonController} {g : History} {i : ℕ} {c c' : Call}

/-- What is left to do for a call that is where it was. -/
theorem todo_of_eq {x : Operation} (h : s'.calls[x.call]? = s.calls[x.call]?) :
    todo s' x = todo s x := by
  rw [todo, h]
  rfl

theorem todo_of_call {k : Kind} (h : s.calls[i]? = some c) :
    todo s ⟨i, k⟩ = if c.kind = k then c.todo else [] := by
  simp only [todo, h]

/-- A new call has changed nothing yet. -/
theorem Recorded.call (h : Recorded s₀ s g) (hc : ¬ c.RollingBack)
    (hnew : c.todo = [] ∨ ∀ p, p ∈ c.todo) : Recorded s₀ (s.spawn c) g := by
  refine ⟨?_, h.progress.quiet ?_, h.shows⟩
  · intro i d hd
    rcases Machine.getElem?_concat_cases hd with hd | ⟨-, rfl⟩
    · exact h.forward i d hd
    · exact hc
  · intro x
    by_cases hx : x.call = s.calls.length
    · have hnone : s.calls[x.call]? = none := List.getElem?_eq_none hx.ge
      have hsome : (s.spawn c).calls[x.call]? = some c := by
        rw [FullAnonController.spawn, hx]
        exact List.getElem?_concat_length
      have hold : todo s x = [] := by simp only [todo, hnone]
      rw [hold, show todo (s.spawn c) x = _ from todo_of_call hsome]
      split
      · exact hnew
      · exact .inl rfl
    · refine .inl (todo_of_eq ?_)
      show (s.calls ++ [c])[x.call]? = s.calls[x.call]?
      rcases lt_or_gt_of_ne hx with hlt | hgt
      · exact List.getElem?_append_left hlt
      · rw [List.getElem?_eq_none hgt.le, List.getElem?_eq_none]
        rw [List.length_append]
        exact hgt

section Move

variable (h : Recorded s₀ s g) (hi : s.calls[i]? = some c) (hcalls : s₁.calls = s.calls)
  (hforward : ¬ c'.RollingBack) (hkind : c'.kind = c.kind)

include hi hcalls

theorem getElem?_moved_self :
    ({ s₁ with calls := s₁.calls.set i c' } : FullAnonController).calls[i]? = some c' := by
  show (s₁.calls.set i c')[i]? = _
  rw [hcalls]
  exact Machine.getElem?_set_self_of_some hi

include hkind

/-- What is left to do for every other operation when a call moves. -/
theorem todo_moved {x : Operation} (hx : x ≠ ⟨i, c.kind⟩) :
    todo { s₁ with calls := s₁.calls.set i c' } x = todo s x := by
  by_cases hxi : x.call = i
  · obtain ⟨j, k⟩ := x
    obtain rfl : j = i := hxi
    have hk : c.kind ≠ k := fun hk => hx (hk ▸ rfl)
    rw [todo_of_call hi, todo_of_call (getElem?_moved_self hi hcalls), hkind, if_neg hk, if_neg hk]
  · refine todo_of_eq ?_
    show (s₁.calls.set i c')[x.call]? = _
    rw [List.getElem?_set_ne (Ne.symm hxi), hcalls]

include h hforward

/-- A call moves without changing a piece. -/
theorem Recorded.quiet (htodo : c'.todo = c.todo ∨ c.todo = [] ∧ ∀ p, p ∈ c'.todo)
    (hsame : ∀ p, s₁.Has p ↔ s.Has p) :
    Recorded s₀ { s₁ with calls := s₁.calls.set i c' } g := by
  refine ⟨?_, h.progress.quiet ?_, ?_⟩
  · intro j d hd
    rcases Machine.getElem?_set_cases hd with ⟨-, hd⟩ | ⟨-, rfl⟩
    · exact h.forward j d (hcalls ▸ hd)
    · exact hforward
  · intro x
    by_cases hx : x = ⟨i, c.kind⟩
    · subst hx
      rw [todo_of_call hi, todo_of_call (getElem?_moved_self hi hcalls), if_pos rfl, if_pos hkind]
      exact htodo.imp_right And.right
    · exact .inl (todo_moved hi hcalls hkind hx)
  · intro p
    have hp : s₁.Has p = s.Has p := propext (hsame p)
    show g.Shows p _ _ (s₁.Has p)
    rw [hp]
    exact h.shows p

/-- A call changes the first of the pieces it still has to change. -/
theorem Recorded.write {p : Piece} (htodo : c.todo = p :: c'.todo)
    (hwrote : s₁.Has p ↔ c.kind = .enable) (hsame : ∀ q, q ≠ p → (s₁.Has q ↔ s.Has q)) :
    Recorded s₀ { s₁ with calls := s₁.calls.set i c' } (⟨⟨i, c.kind⟩, p⟩ :: g) := by
  refine ⟨?_, h.progress.write (.inl ?_) fun x hx => todo_moved hi hcalls hkind hx, ?_⟩
  · intro j d hd
    rcases Machine.getElem?_set_cases hd with ⟨-, hd⟩ | ⟨-, rfl⟩
    · exact h.forward j d (hcalls ▸ hd)
    · exact hforward
  · rw [todo_of_call hi, todo_of_call (getElem?_moved_self hi hcalls), if_pos rfl, if_pos hkind]
    exact htodo
  · intro q
    by_cases hq : q = p
    · subst hq
      exact .cons_self hwrote
    · have heq : s₁.Has q = s.Has q := propext (hsame q hq)
      show WriteLog.Shows _ q _ _ (s₁.Has q)
      rw [heq]
      exact (h.shows q).cons_of_ne (Ne.symm hq)

end Move

/-- **The step lemma**: every step whose command succeeds keeps the pieces
explained. -/
theorem Recorded.step (h : Recorded s₀ s g) {a : Action} (hs : s.step a = some s')
    (hok : ∀ i e c, a = .step i e → s.calls[i]? = some c → e.Succeeds c.tableOp s.ruleset) :
    Recorded s₀ s' (record s a s' g) := by
  cases a with
  | callEnable =>
    obtain rfl := Option.some.inj hs
    exact h.call id (.inl rfl)
  | callDisable =>
    obtain rfl := Option.some.inj hs
    refine h.call id (.inr ?_)
    intro p
    cases p <;> simp [Call.todo]
  | tick nanos =>
    obtain rfl := Option.some.inj hs
    exact ⟨h.forward, h.progress, h.shows⟩
  | step i e =>
    obtain ⟨c, c', s₁, hi, hstep, rfl⟩ := callStep_of_step hs
    obtain ⟨hforward, hkind, hpiece⟩ := hstep.piece (hok i e c rfl hi) (h.forward i c hi)
    have hrec : record s (.step i e) { s₁ with calls := s₁.calls.set i c' } g =
        match c.writes e with
        | some p => ⟨⟨i, c.kind⟩, p⟩ :: g
        | none => g := by
      simp only [record, hi]
    rw [hrec]
    generalize c.writes e = w at hpiece
    cases hpiece with
    | quiet todo same => exact h.quiet hi hstep.calls_eq hforward hkind todo same
    | write todo wrote same => exact h.write hi hstep.calls_eq hforward hkind todo wrote same

end Recorded

/-! ## Together -/

/-- No call is in progress. -/
def Idle (s : FullAnonController) : Prop := ∀ c ∈ s.calls, c.Returned

instance (s : FullAnonController) : Decidable (Idle s) :=
  inferInstanceAs (Decidable (∀ _ ∈ _, _))

instance (s : FullAnonController) : Decidable (∀ p, s.Has p) :=
  decidable_of_iff (s.Has .tor ∧ s.Has .redirect ∧ s.Has .killSwitch ∧ s.Has .flag)
    ⟨fun ⟨ht, hr, hk, hf⟩ p => by cases p <;> assumption, fun h => ⟨h _, h _, h _, h _⟩⟩

instance (s : FullAnonController) : Decidable (∀ p, ¬ s.Has p) :=
  decidable_of_iff (¬ s.Has .tor ∧ ¬ s.Has .redirect ∧ ¬ s.Has .killSwitch ∧ ¬ s.Has .flag)
    ⟨fun ⟨ht, hr, hk, hf⟩ p => by cases p <;> assumption, fun h => ⟨h _, h _, h _, h _⟩⟩

instance (s : FullAnonController) : Decidable (Together s) :=
  inferInstanceAs (Decidable (_ ∨ _))

/-- Every external command the action runs succeeds. -/
def CommandSucceeds (s : FullAnonController) (a : Action) : Prop :=
  match a with
  | .step i e => ∀ c ∈ s.calls[i]?, e.Succeeds c.tableOp s.ruleset
  | _ => True

instance (s : FullAnonController) (a : Action) : Decidable (CommandSucceeds s a) := by
  unfold CommandSucceeds
  split <;> infer_instance

/-- After the step, `enable` and `disable` calls have still changed the pieces in
one order: none overtakes another. -/
def InOrderStep (p : FullAnonController × History) (a : Action) : Prop :=
  ∀ x y : Operation, x.kind ≠ y.kind → (record p.1 a p.1 p.2).InOrder x y

/-- Nothing is running and neither table is installed. -/
def Off (telemetry : HealthStatus) (ruleset : Ruleset) : Prop :=
  telemetry.transparentEnabled = false ∧ ¬ ruleset.has transparentTable ∧
    ¬ ruleset.has systemTable

section Together

variable {dataDir : Option String} {telemetry : HealthStatus} {ruleset : Ruleset} {now : ℕ}

theorem not_has_new (h : Off telemetry ruleset) (p : Piece) :
    ¬ (FullAnonController.new dataDir telemetry ruleset now).Has p := by
  obtain ⟨hflag, hredirect, hswitch⟩ := h
  cases p with
  | tor => exact Bool.false_ne_true
  | redirect => exact hredirect
  | killSwitch => exact hswitch
  | flag => exact fun h => absurd (hflag.symm.trans h) (by simp)

theorem recorded_new : Recorded (.new dataDir telemetry ruleset now)
    (.new dataDir telemetry ruleset now) [] := by
  refine ⟨?_, WriteLog.progress_nil fun x => rfl, fun p => Iff.rfl⟩
  intro i c hi
  exact absurd hi (by simp [FullAnonController.new])

/-- The pieces of an idle state whose history is in order are together if those
of the start were not in place. -/
theorem Recorded.together {s₀ s : FullAnonController} {g : History} (h : Recorded s₀ s g)
    (h₀ : ∀ p, ¬ s₀.Has p) (hidle : Idle s)
    (hord : ∀ x y : Operation, x.kind ≠ y.kind → g.InOrder x y) : Together s := by
  have hc : g.Complete := by
    refine h.progress.complete ?_
    intro x
    unfold todo
    split
    · rename_i c hc
      rw [Call.todo_of_returned (hidle c (List.mem_of_getElem? hc)), ite_self]
    · rfl
  rcases WriteLog.exists_kind Operation.kind hc hord with hnone | ⟨k, hk⟩
  · -- no call changed anything
    exact .inr fun p hp => h₀ p (((h.shows p).of_none (hnone p)).mp hp)
  · have hval : ∀ p, s.Has p ↔ k = .enable := by
      intro p
      obtain ⟨x, hx, hxk⟩ := hk p
      have := (h.shows p).of_some hx
      rwa [hxk] at this
    cases k with
    | enable => exact .inl fun p => (hval p).mpr rfl
    | disable => exact .inr fun p hp => absurd ((hval p).mp hp) (by simp)

end Together

/-- **All or nothing.**  In every run of any number of `enable` and `disable`
calls whose commands succeed and in which no `enable` and `disable` overtake one
another, tor, the two tables and the flag are all in place or all absent
whenever no call is in progress. -/
theorem together_of_inOrder (dataDir : Option String) (telemetry : HealthStatus)
    (ruleset : Ruleset) (now : ℕ) (hoff : Off telemetry ruleset) (s : FullAnonController)
    (g : History)
    (h : (toggling.watch record).Reach (fun p a => CommandSucceeds p.1 a ∧ InOrderStep p a)
      (.new dataDir telemetry ruleset now, []) (s, g))
    (hidle : Idle s) : Together s := by
  have hinv : Recorded (.new dataDir telemetry ruleset now) s g ∧
      ∀ x y : Operation, x.kind ≠ y.kind → g.InOrder x y := by
    refine h.invariant (I := fun p => Recorded (.new dataDir telemetry ruleset now) p.1 p.2 ∧
      ∀ x y : Operation, x.kind ≠ y.kind → p.2.InOrder x y) ⟨recorded_new, ?_⟩ ?_
    · intro x y _ r r' hb
      exact absurd hb (by simp [WriteLog.Before])
    · intro p a q hi hg hs
      obtain ⟨hstep, hnote⟩ := Machine.watch_step.mp hs
      rw [hnote]
      refine ⟨hi.1.step hstep ?_, hg.2⟩
      intro i e c ha hc
      subst ha
      exact hg.1 c hc
  exact hinv.1.together (not_has_new hoff) hidle hinv.2

/-! ## Runs -/

/-- Call `i`, an `enable`, from beginning to end. -/
def enableAll (i : ℕ) : List Action :=
  [.step i .go, .step i (.identified (.printed "0\n")), .step i (.spawned (.spawned 100)),
    .step i (.tor (.line "Bootstrapped 100% (done): Done")), .step i (.nft .ok), .step i (.nft .ok),
    .step i .go]

/-- Call `i`, a `disable`, up to where it has stopped tor and released the mutex. -/
def disableUpToFlag (i : ℕ) : List Action :=
  [.step i (.identified (.printed "0\n")), .step i (.nft .ok), .step i (.nft .ok), .step i .go,
    .step i .go]

/-- A `disable` that follows an `enable` from one piece to the next, and another `enable`. -/
theorem together_following :
    ∃ s : FullAnonController, s.Has .tor ∧ Idle s ∧ Together s := by
  obtain ⟨⟨s, g⟩, hreach, htor, hidle⟩ := Machine.exists_reach_of_exec
    (m := toggling.watch record)
    (G := fun p a => CommandSucceeds p.1 a ∧ ∀ w ∈ record p.1 a p.1 p.2,
      ∀ v ∈ record p.1 a p.1 p.2, w.op.kind ≠ v.op.kind →
      (record p.1 a p.1 p.2).Before w.reg w.op v.op →
      ¬ (record p.1 a p.1 p.2).Before v.reg v.op w.op)
    (s := (FullAnonController.new none {} [] 0, []))
    (P := fun p => p.1.Has .tor ∧ Idle p.1)
    (.callEnable :: (enableAll 0).take 5 ++ .callDisable :: (disableUpToFlag 1).take 2 ++
      [.step 0 (.nft .ok), .step 1 (.nft .ok), .step 1 .go, .step 1 .go, .step 0 .go,
        .step 1 .go] ++ .callEnable :: enableAll 2) (by decide)
  exact ⟨s, htor, hidle, together_of_inOrder none {} [] 0 ⟨rfl, by decide, by decide⟩ s g
    (hreach.mono fun _ _ hz => ⟨hz.1, fun _ _ hxy => WriteLog.inOrder_of_writes hz.2 hxy⟩) hidle⟩

/-- An `enable` runs from beginning to end between the moment `disable` has
stopped tor and the moment it clears the flag. -/
theorem not_together_overtaking :
    Off {} [] ∧ ∃ s, toggling.Reach CommandSucceeds (.new none {} [] 0) s ∧ Idle s ∧
      ¬ Together s := by
  refine ⟨⟨rfl, by decide, by decide⟩, ?_⟩
  exact Machine.exists_reach_of_exec (m := toggling) (G := CommandSucceeds)
    (s := FullAnonController.new none {} [] 0) (P := fun s => Idle s ∧ ¬ Together s)
    (.callEnable :: enableAll 0 ++ .callDisable :: disableUpToFlag 1 ++
      .callEnable :: enableAll 2 ++ [.step 1 .go]) (by decide)

end Anonet.Transparent
