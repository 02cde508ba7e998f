import Mathlib.Data.List.Basic
import Mathlib.Tactic.Common

/-!
# Logs of register writes

Several operations each write the same set of registers, one register at a
time, and their writes interleave.  A log keeps the writes, newest first.

* `lastWriter` — the operation whose value a register holds.
* `Before` — on one register, one operation wrote earlier than another.
* `InOrder` — two operations meet on all registers in one order: neither
  overtakes the other.
* `exists_kind` — **if every operation has finished and operations of different
  kinds are pairwise in order, all registers were last written by one kind.**
  This is what "no torn update" means once nothing is in progress.
* `Progress` — in the middle of a run: each operation that has begun has written
  every register or is still going to.
* `Shows` — a register's value is what its last writer left there.
-/

/-- One write: which operation wrote which register. -/
structure Write (ω ρ : Type*) where
  op : ω
  reg : ρ
  deriving DecidableEq

/-- The writes of a run, newest first. -/
abbrev WriteLog (ω ρ : Type*) := List (Write ω ρ)

namespace WriteLog

variable {ω ρ κ : Type*}

/-- The operation that wrote register `r` last. -/
def lastWriter [DecidableEq ρ] (r : ρ) : WriteLog ω ρ → Option ω
  | [] => none
  | w :: l => if w.reg = r then some w.op else lastWriter r l

/-- Operation `x` wrote register `r`, and operation `y` wrote it afterwards. -/
def Before (l : WriteLog ω ρ) (r : ρ) (x y : ω) : Prop :=
  List.Sublist [⟨y, r⟩, ⟨x, r⟩] l

/-- The two operations write the registers they share in one order: `y` never
wrote one register after `x` while `x` wrote another after `y`. -/
def InOrder (l : WriteLog ω ρ) (x y : ω) : Prop :=
  ∀ r r', Before l r x y → ¬ Before l r' y x

/-- Every operation of the log has written every register. -/
def Complete (l : WriteLog ω ρ) : Prop :=
  ∀ w ∈ l, ∀ r, (⟨w.op, r⟩ : Write ω ρ) ∈ l

instance [DecidableEq ω] [DecidableEq ρ] (l : WriteLog ω ρ) (r : ρ) (x y : ω) :
    Decidable (Before l r x y) := inferInstanceAs (Decidable (List.Sublist _ _))

section LastWriter

variable {l : WriteLog ω ρ} {r r' : ρ} {x y : ω}

theorem Before.mem (h : Before l r x y) :
    (⟨x, r⟩ : Write ω ρ) ∈ l ∧ (⟨y, r⟩ : Write ω ρ) ∈ l :=
  ⟨h.subset (by simp), h.subset (by simp)⟩

/-- Whether operations of different kinds are in order shows in the writes of the log. -/
theorem inOrder_of_writes {kind : ω → κ} (h : ∀ w ∈ l, ∀ v ∈ l, kind w.op ≠ kind v.op →
    Before l w.reg w.op v.op → ¬ Before l v.reg v.op w.op) (hxy : kind x ≠ kind y) :
    InOrder l x y := by
  intro r r' hb hb'
  exact h ⟨x, r⟩ hb.mem.1 ⟨y, r'⟩ hb'.mem.1 hxy hb hb'

variable [DecidableEq ρ]

@[simp] theorem lastWriter_nil : lastWriter r ([] : WriteLog ω ρ) = none := rfl

@[simp] theorem lastWriter_cons_self : lastWriter r (⟨x, r⟩ :: l) = some x := by
  simp [lastWriter]

theorem lastWriter_cons_of_ne (h : r' ≠ r) : lastWriter r (⟨x, r'⟩ :: l) = lastWriter r l := by
  simp [lastWriter, h]

theorem mem_of_lastWriter (h : lastWriter r l = some x) : (⟨x, r⟩ : Write ω ρ) ∈ l := by
  induction l with
  | nil => exact absurd h (by simp)
  | cons w l ih =>
    rw [lastWriter] at h
    split at h
    · rename_i hr
      rw [Option.some.injEq] at h
      subst hr h
      exact List.mem_cons_self
    · exact List.mem_cons_of_mem _ (ih h)

theorem exists_lastWriter (h : (⟨x, r⟩ : Write ω ρ) ∈ l) : ∃ y, lastWriter r l = some y := by
  induction l with
  | nil => exact absurd h List.not_mem_nil
  | cons w l ih =>
    rw [lastWriter]
    split
    · exact ⟨w.op, rfl⟩
    · rename_i hr
      rcases List.mem_cons.mp h with rfl | h
      · exact absurd rfl hr
      · exact ih h

/-- Every other operation that wrote a register wrote it before the last writer. -/
theorem before_lastWriter (h : lastWriter r l = some x) (hy : (⟨y, r⟩ : Write ω ρ) ∈ l)
    (hne : y ≠ x) : Before l r y x := by
  induction l with
  | nil => exact absurd h (by simp)
  | cons w l ih =>
    rw [lastWriter] at h
    split at h
    · rename_i hr
      rw [Option.some.injEq] at h
      subst hr h
      rcases List.mem_cons.mp hy with hw | hy
      · exact absurd (congrArg Write.op hw) hne
      · exact List.Sublist.cons_cons _ (List.singleton_sublist.mpr hy)
    · rename_i hr
      rcases List.mem_cons.mp hy with rfl | hy
      · exact absurd rfl hr
      · exact (ih h hy).cons _

/-- When every operation has finished and any two of
different kinds are in order, any two registers were last written by operations
of one kind. -/
theorem lastWriter_agree {kind : ω → κ} (hc : Complete l)
    (hord : ∀ x y, kind x ≠ kind y → InOrder l x y)
    (hx : lastWriter r l = some x) (hy : lastWriter r' l = some y) : kind x = kind y := by
  by_contra hne
  have hxy : y ≠ x := fun h => hne (h ▸ rfl)
  have hyr : (⟨y, r⟩ : Write ω ρ) ∈ l := hc _ (mem_of_lastWriter hy) r
  have hxr' : (⟨x, r'⟩ : Write ω ρ) ∈ l := hc _ (mem_of_lastWriter hx) r'
  exact hord y x (Ne.symm hne) r r' (before_lastWriter hx hyr hxy)
    (before_lastWriter hy hxr' hxy.symm)

/-- **One kind everywhere.**  When every operation has finished and different
kinds are in order, either nothing was ever written or one kind of operation was
the last to write each register. -/
theorem exists_kind (kind : ω → κ) (hc : Complete l)
    (hord : ∀ x y, kind x ≠ kind y → InOrder l x y) :
    (∀ r, lastWriter r l = none) ∨ ∃ k, ∀ r, ∃ x, lastWriter r l = some x ∧ kind x = k := by
  by_cases hnone : ∀ r, lastWriter r l = none
  · exact .inl hnone
  · obtain ⟨r, hr⟩ := not_forall.mp hnone
    obtain ⟨x, hx⟩ := Option.ne_none_iff_exists'.mp hr
    refine .inr ⟨kind x, ?_⟩
    intro r'
    obtain ⟨y, hy⟩ := exists_lastWriter (hc _ (mem_of_lastWriter hx) r')
    exact ⟨y, hy, lastWriter_agree hc hord hy hx⟩

end LastWriter

/-! ## Operations in progress

`todo x` lists the registers operation `x` is still going to write. -/

/-- Each operation that has begun to write has written every register or is still
going to. -/
def Progress (l : WriteLog ω ρ) (todo : ω → List ρ) : Prop :=
  ∀ x, todo x ≠ [] ∨ (∃ r, (⟨x, r⟩ : Write ω ρ) ∈ l) →
    ∀ r, (⟨x, r⟩ : Write ω ρ) ∈ l ∨ r ∈ todo x

section Progress

variable {l : WriteLog ω ρ} {todo todo' : ω → List ρ} {x : ω} {r : ρ}

theorem progress_nil (h : ∀ y, todo y = []) : Progress ([] : WriteLog ω ρ) todo := by
  rintro y (hy | ⟨_, hr⟩)
  · exact absurd (h y) hy
  · exact absurd hr List.not_mem_nil

/-- Nothing is written; at most, some operations now intend to write everything. -/
theorem Progress.quiet (h : Progress l todo)
    (hq : ∀ y, todo' y = todo y ∨ ∀ r', r' ∈ todo' y) : Progress l todo' := by
  intro y hy r'
  rcases hq y with heq | hall
  · rw [heq] at hy ⊢
    exact h y hy r'
  · exact .inr (hall r')

/-- An operation writes the next of its registers, or its first. -/
theorem Progress.write (h : Progress l todo)
    (hx : todo x = r :: todo' x ∨ ∀ r', r' = r ∨ r' ∈ todo' x)
    (hother : ∀ y, y ≠ x → todo' y = todo y) : Progress (⟨x, r⟩ :: l) todo' := by
  intro y hy r'
  by_cases hyx : y = x
  · subst hyx
    by_cases hr : r' = r
    · exact .inl (hr ▸ List.mem_cons_self)
    · rcases hx with hnext | hfirst
      · rcases h y (.inl (by simp [hnext])) r' with hmem | hmem
        · exact .inl (List.mem_cons_of_mem _ hmem)
        · rw [hnext] at hmem
          exact .inr ((List.mem_cons.mp hmem).resolve_left hr)
      · exact .inr ((hfirst r').resolve_left hr)
  · rw [hother y hyx] at hy ⊢
    have hbegun : todo y ≠ [] ∨ ∃ r, (⟨y, r⟩ : Write ω ρ) ∈ l := by
      refine hy.imp_right fun ⟨r₀, hr₀⟩ => ⟨r₀, ?_⟩
      rcases List.mem_cons.mp hr₀ with heq | hr₀
      · exact absurd (congrArg Write.op heq) hyx
      · exact hr₀
    exact (h y hbegun r').imp_left (List.mem_cons_of_mem _)

/-- Once nothing is left to do, every operation has finished. -/
theorem Progress.complete (h : Progress l todo) (hnone : ∀ y, todo y = []) : Complete l := by
  intro w hw r'
  refine (h w.op (.inr ⟨w.reg, hw⟩) r').resolve_right ?_
  intro hmem
  rw [hnone] at hmem
  exact List.not_mem_nil hmem

end Progress

/-! ## Values -/

/-- The register's value is what its last writer left there, or still has the
property it had at the start. -/
def Shows [DecidableEq ρ] {V : Type*} (l : WriteLog ω ρ) (r : ρ) (init : V → Prop)
    (wrote : ω → V → Prop) (v : V) : Prop :=
  match lastWriter r l with
  | some x => wrote x v
  | none => init v

section Shows

variable [DecidableEq ρ] {V : Type*} {l : WriteLog ω ρ} {r r' : ρ} {x : ω} {init init' : V → Prop}
  {wrote wrote' : ω → V → Prop} {v : V}

theorem Shows.cons_self (h : wrote x v) : Shows (⟨x, r⟩ :: l) r init wrote v := by
  rw [Shows, lastWriter_cons_self]
  exact h

theorem Shows.cons_of_ne (h : Shows l r init wrote v) (hr : r' ≠ r) :
    Shows (⟨x, r'⟩ :: l) r init wrote v := by
  rw [Shows, lastWriter_cons_of_ne hr]
  exact h

theorem Shows.of_none (h : Shows l r init wrote v) (hl : lastWriter r l = none) : init v := by
  rw [Shows, hl] at h
  exact h

theorem Shows.of_some (h : Shows l r init wrote v) (hl : lastWriter r l = some x) : wrote x v := by
  rw [Shows, hl] at h
  exact h

theorem Shows.mono (h : Shows l r init wrote v) (hinit : init v → init' v)
    (hwrote : ∀ x, wrote x v → wrote' x v) : Shows l r init' wrote' v := by
  unfold Shows at h ⊢
  split at h
  · exact hwrote _ h
  · exact hinit h

end Shows

end WriteLog
