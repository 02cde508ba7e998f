import Mathlib.Logic.Basic
import Mathlib.Data.Option.Basic
import Mathlib.Tactic.Common

/-!
# Labelled machines, guarded runs and history variables

A concurrent program is modelled as one machine whose actions are the atomic
steps of its tasks; an interleaving is then a sequence of actions.

* `Machine` — a partial step function on states and actions.
* `Machine.Reach` — the states reached by runs all of whose steps meet a guard;
  `Reach.invariant` is the induction every safety theorem goes through and
  `Reach.mono` compares guards.
* `Machine.guardedExec` — running a given list of actions, so that a concrete
  schedule can be evaluated; `exists_reach_of_exec` turns such an evaluation
  into a reachable state.
* `Machine.watch` — the same machine with a history variable beside it, and
  `Reach.watch`: every run can be watched.
* `Reach.project`, `Reach.simulate` — a machine that runs inside another one, step by
  step or with several steps for one.
* `getElem?_set_cases`, `getElem?_concat_cases` — the tasks of a machine that
  keeps them in a list, after one of them moved or a new one was spawned.
-/

/-- A labelled machine: `step s a` is the state after action `a`, and `none`
when `a` cannot be taken in `s`. -/
structure Machine (σ α : Type*) where
  step : σ → α → Option σ

namespace Machine

variable {σ α γ : Type*} (m : Machine σ α)

/-- A guard that lets every step through: `Reach m anyStep` is plain reachability. -/
def anyStep : σ → α → Prop := fun _ _ => True

instance (s : σ) (a : α) : Decidable (anyStep s a) := inferInstanceAs (Decidable True)

/-- `m.Reach G s₀ s`: some run from `s₀` ends in `s`, and each of its steps is
taken in a state and by an action that meet `G`. -/
inductive Reach (G : σ → α → Prop) (s₀ : σ) : σ → Prop
  | init : Reach G s₀ s₀
  | step {s s' : σ} {a : α} : Reach G s₀ s → G s a → m.step s a = some s' → Reach G s₀ s'

variable {m}

namespace Reach

variable {G H : σ → α → Prop} {s₀ s t : σ}

/-- **The invariant rule.**  What holds at the start and is kept by every step
that meets the guard holds in every state reached. -/
theorem invariant {I : σ → Prop} (h₀ : I s₀)
    (hstep : ∀ s a s', I s → G s a → m.step s a = some s' → I s')
    (h : m.Reach G s₀ s) : I s := by
  induction h with
  | init => exact h₀
  | step _ hg hs ih => exact hstep _ _ _ ih hg hs

/-- A run that meets a guard meets every weaker one. -/
theorem mono (hGH : ∀ s a, G s a → H s a) (h : m.Reach G s₀ s) : m.Reach H s₀ s := by
  induction h with
  | init => exact .init
  | step _ hg hs ih => exact .step ih (hGH _ _ hg) hs

theorem trans (h : m.Reach G s₀ s) (h' : m.Reach G s t) : m.Reach G s₀ t := by
  induction h' with
  | init => exact h
  | step _ hg hs ih => exact .step ih hg hs

end Reach

/-! ## Running a given schedule -/

/-- Take the listed actions in order; `none` as soon as one is not enabled or
does not meet the guard. -/
def guardedExec (m : Machine σ α) (G : σ → α → Prop) [∀ s a, Decidable (G s a)] :
    σ → List α → Option σ
  | s, [] => some s
  | s, a :: as => if G s a then (m.step s a).bind fun s' => guardedExec m G s' as else none

theorem reach_of_exec {G : σ → α → Prop} [∀ s a, Decidable (G s a)] {s t : σ} {as : List α}
    (h : m.guardedExec G s as = some t) : m.Reach G s t := by
  induction as generalizing s with
  | nil =>
    rw [guardedExec, Option.some.injEq] at h
    exact h ▸ .init
  | cons a as ih =>
    rw [guardedExec] at h
    split at h
    · rename_i hg
      obtain ⟨s', hs, ht⟩ := Option.bind_eq_some_iff.mp h
      exact Reach.trans (.step .init hg hs) (ih ht)
    · exact absurd h (by simp)

/-- A schedule that can be evaluated to a state with property `P` witnesses a
reachable state with property `P`. -/
theorem exists_reach_of_exec {G : σ → α → Prop} [∀ s a, Decidable (G s a)] {P : σ → Prop}
    [DecidablePred P] {s : σ} (as : List α)
    (h : (m.guardedExec G s as).any (fun t => decide (P t)) = true) :
    ∃ t, m.Reach G s t ∧ P t := by
  cases ht : m.guardedExec G s as with
  | none =>
    rw [ht] at h
    exact absurd h (by simp)
  | some t =>
    rw [ht] at h
    exact ⟨t, reach_of_exec ht, by simpa using h⟩

/-! ## History variables -/

/-- The machine `m` with a history variable of type `γ` beside its state, which
`note` updates at every step and no step reads. -/
def watch (m : Machine σ α) (note : σ → α → σ → γ → γ) : Machine (σ × γ) α where
  step p a := (m.step p.1 a).map fun s' => (s', note p.1 a s' p.2)

theorem watch_step {note : σ → α → σ → γ → γ} {p q : σ × γ} {a : α} :
    (m.watch note).step p a = some q ↔
      m.step p.1 a = some q.1 ∧ q.2 = note p.1 a q.1 p.2 := by
  obtain ⟨s', g'⟩ := q
  simp only [watch, Option.map_eq_some_iff, Prod.mk.injEq]
  constructor
  · rintro ⟨_, hs, rfl, rfl⟩
    exact ⟨hs, rfl⟩
  · rintro ⟨hs, rfl⟩
    exact ⟨s', hs, rfl, rfl⟩

/-- Every run can be watched: a reachable state is reached with some history. -/
theorem Reach.watch {G : σ → α → Prop} {s₀ s : σ} (note : σ → α → σ → γ → γ) (g₀ : γ)
    (h : m.Reach G s₀ s) : ∃ g, (m.watch note).Reach (fun p a => G p.1 a) (s₀, g₀) (s, g) := by
  induction h with
  | init => exact ⟨g₀, .init⟩
  | @step s s' a _ hg hs ih =>
    obtain ⟨g, hr⟩ := ih
    exact ⟨note s a s' g, .step hr hg (watch_step.mpr ⟨hs, rfl⟩)⟩

/-! ## One machine as part of another -/

/-- **The projection rule.**  If every step of `m`, seen through `f`, is one step
of `n` or none, then every run of `m`, seen through `f`, is a run of `n`. -/
theorem Reach.project {τ β : Type*} {n : Machine τ β} {G : σ → α → Prop} {H : τ → β → Prop}
    {s₀ s : σ} (f : σ → τ) (act : σ → α → Option β)
    (hstep : ∀ s a s', m.step s a = some s' →
      match act s a with
      | none => f s' = f s
      | some b => n.step (f s) b = some (f s'))
    (hG : ∀ s a b, G s a → act s a = some b → H (f s) b) (h : m.Reach G s₀ s) :
    n.Reach H (f s₀) (f s) := by
  induction h with
  | init => exact .init
  | @step s s' a _ hg hs ih =>
    have hone := hstep s a s' hs
    cases ha : act s a with
    | none =>
      rw [ha] at hone
      rw [hone]
      exact ih
    | some b =>
      rw [ha] at hone
      exact .step ih (hG s a b hg ha) hone

/-- **The simulation rule.**  If every step of `m` from a state that meets an invariant,
seen through `f`, is a run of `n`, however long, then every run of `m` is. -/
theorem Reach.simulate {τ β : Type*} {n : Machine τ β} {G : σ → α → Prop} {H : τ → β → Prop}
    {s₀ s : σ} (f : σ → τ) {I : σ → Prop} (h₀ : I s₀)
    (hstep : ∀ s a s', I s → G s a → m.step s a = some s' → I s' ∧ n.Reach H (f s) (f s'))
    (h : m.Reach G s₀ s) : I s ∧ n.Reach H (f s₀) (f s) := by
  induction h with
  | init => exact ⟨h₀, .init⟩
  | step _ hg hs ih =>
    obtain ⟨hi, hrun⟩ := hstep _ _ _ ih.1 hg hs
    exact ⟨hi, ih.2.trans hrun⟩

/-! ## Tasks in a list -/

section Tasks

variable {τ : Type*} {l : List τ} {i j : ℕ} {a b : τ}

/-- After task `i` moved to `a`. -/
theorem getElem?_set_cases (h : (l.set i a)[j]? = some b) :
    j ≠ i ∧ l[j]? = some b ∨ j = i ∧ b = a := by
  by_cases hij : i = j
  · subst hij
    rw [List.getElem?_set] at h
    simp only [if_true] at h
    split at h
    · exact .inr ⟨rfl, (Option.some.inj h).symm⟩
    · exact absurd h (by simp)
  · rw [List.getElem?_set_ne hij] at h
    exact .inl ⟨Ne.symm hij, h⟩

/-- After a task was spawned at `a`. -/
theorem getElem?_concat_cases (h : (l ++ [a])[j]? = some b) :
    l[j]? = some b ∨ j = l.length ∧ b = a := by
  rcases Nat.lt_or_ge j l.length with hj | hj
  · rw [List.getElem?_append_left hj] at h
    exact .inl h
  · rw [List.getElem?_append_right hj] at h
    obtain ⟨hlt, hb⟩ := List.getElem?_eq_some_iff.mp h
    have hj0 : j - l.length = 0 := by simpa using hlt
    refine .inr ⟨by omega, ?_⟩
    rw [← hb]
    simp

/-- A task keeps its place when another moves. -/
theorem getElem?_set_self_of_some (h : l[i]? = some b) : (l.set i a)[i]? = some a := by
  obtain ⟨hlt, -⟩ := List.getElem?_eq_some_iff.mp h
  exact List.getElem?_set_self hlt

/-- What a move does not change. -/
theorem map_set_of_eq {γ : Type*} {f : τ → γ} (h : l[i]? = some b) (hf : f a = f b) :
    (l.set i a).map f = l.map f := by
  obtain ⟨hlt, hb⟩ := List.getElem?_eq_some_iff.mp h
  have hlt' : i < (l.map f).length := by rwa [List.length_map]
  have hget : (l.map f)[i] = f a := by rw [List.getElem_map, hb, hf]
  rw [List.map_set, ← hget, List.set_getElem_self]

/-- The tasks at places of one kind, after one of them moved. -/
theorem countP_set_add {p : τ → Bool} (h : l[i]? = some b) :
    (l.set i a).countP p + (p b).toNat = l.countP p + (p a).toNat := by
  obtain ⟨hlt, hb⟩ := List.getElem?_eq_some_iff.mp h
  have hset := List.countP_set (p := p) (a := a) hlt
  rw [hb] at hset
  cases hpa : p a <;> cases hpb : p b
  · simpa [hpa, hpb] using hset
  · have hpos : 0 < l.countP p := List.countP_pos_iff.mpr ⟨b, List.mem_of_getElem? h, hpb⟩
    simp [hpa, hpb] at hset ⊢
    omega
  · simpa [hpa, hpb] using hset
  · have hpos : 0 < l.countP p := List.countP_pos_iff.mpr ⟨b, List.mem_of_getElem? h, hpb⟩
    simp [hpa, hpb] at hset ⊢
    omega

/-- What the tasks have to show, after one of them moved that had nothing. -/
theorem filterMap_set_perm {γ : Type*} {f : τ → Option γ} (h : l[i]? = some b) (hb : f b = none) :
    ((l.set i a).filterMap f).Perm ((f a).toList ++ l.filterMap f) := by
  induction l generalizing i with
  | nil => cases h
  | cons x xs ih =>
    cases i with
    | zero =>
      cases h
      rw [List.set_cons_zero, List.filterMap_cons_none hb]
      cases hfa : f a with
      | none => rw [List.filterMap_cons_none hfa, Option.toList_none, List.nil_append]
      | some y => rw [List.filterMap_cons_some hfa, Option.toList_some, List.singleton_append]
    | succ i =>
      have hxs := ih h
      rw [List.set_cons_succ]
      cases hfx : f x with
      | none =>
        rw [List.filterMap_cons_none hfx, List.filterMap_cons_none hfx]
        exact hxs
      | some y =>
        rw [List.filterMap_cons_some hfx, List.filterMap_cons_some hfx]
        exact (hxs.cons y).trans List.perm_middle.symm

end Tasks

end Machine
