import Mathlib.Data.List.AList
import Mathlib.Tactic.Common

/-!
# Process tables

Processes as the operating system keeps them: each has a process ID, belongs to a
process group, and stays in the table after it has ended until it is waited for.

* `ProcessTable` — the table; a group keeps its leader's ID for itself.
* `start`, `become`, `stop`, `reap` — a process starts, moves on, ends, is waited for.
* `hasEntry` — whether there is a `/proc/<pid>`.
* `signalled` — whom `kill -SIG -g` reaches.
-/

/-- A process: its group, and what it is doing, which is `none` once it has ended. -/
structure Process (α : Type*) where
  pgid : UInt32
  running : Option α
  deriving DecidableEq

/-- The processes by their IDs.  There is no process 0, and a process whose ID names a
group with a member in the table leads that group. -/
structure ProcessTable (α : Type*) where
  procs : AList (fun _ : UInt32 => Process α)
  pid_ne_zero : ∀ pid p, procs.lookup pid = some p → pid ≠ 0
  leads : ∀ pid p other q, procs.lookup pid = some p → procs.lookup other = some q →
    q.pgid = pid → p.pgid = pid

namespace ProcessTable

variable {α : Type*} (t : ProcessTable α) {pid pgid other : UInt32} {p q : Process α}

def get (pid : UInt32) : Option (Process α) := t.procs.lookup pid

/-- The processes in the table, with their IDs. -/
def entries : List (Σ _ : UInt32, Process α) := t.procs.entries

/-- There is a `/proc/<pid>`; there is one for a process that has not been waited for. -/
def hasEntry (pid : UInt32) : Bool := (t.get pid).isSome

/-- There is such a process and it has not ended. -/
def isRunning (pid : UInt32) : Bool := (t.get pid).any (·.running.isSome)

/-- The members of a group that can receive a signal. -/
def group (g : UInt32) : List (Σ _ : UInt32, Process α) :=
  t.entries.filter fun e => e.2.running.isSome ∧ e.2.pgid = g

/-- Those that `kill -SIG -g` reaches: with 1 for `g` everything but process 1, with 0
the group `own` of who sends the signal. -/
def signalled (own g : UInt32) : List (Σ _ : UInt32, Process α) :=
  if g = 0 then t.group own
  else if g = 1 then t.entries.filter fun e => e.2.running.isSome ∧ e.1 ≠ 1
  else t.group g

theorem mem_entries {e : Σ _ : UInt32, Process α} : e ∈ t.entries ↔ t.get e.1 = some e.2 :=
  (AList.mem_lookup_iff (a := e.1) (b := e.2) (s := t.procs)).symm

variable {t}

theorem mem_group {g : UInt32} {e : Σ _ : UInt32, Process α} :
    e ∈ t.group g ↔ t.get e.1 = some e.2 ∧ e.2.running.isSome ∧ e.2.pgid = g := by
  simp [group, mem_entries]

theorem signalled_of_ne {own g : UInt32} (h₀ : g ≠ 0) (h₁ : g ≠ 1) :
    t.signalled own g = t.group g := by
  rw [signalled, if_neg h₀, if_neg h₁]

/-- No process at all. -/
def empty : ProcessTable α where
  procs := ∅
  pid_ne_zero := by simp
  leads := by simp

/-! ## Start -/

/-- The operating system may give `pid` to a new process in group `pgid`: nobody has it
as a process or group ID, and the group is a new one or that of a running process. -/
def CanStart (t : ProcessTable α) (pid pgid : UInt32) : Prop :=
  pid ≠ 0 ∧ (∀ e ∈ t.entries, e.1 ≠ pid ∧ e.2.pgid ≠ pid) ∧
    (pgid = pid ∨ ∃ e ∈ t.entries, e.2.running.isSome ∧ e.2.pgid = pgid)

instance : Decidable (t.CanStart pid pgid) := inferInstanceAs (Decidable (_ ∧ _))

theorem CanStart.get_eq_none (h : t.CanStart pid pgid) : t.get pid = none := by
  cases hp : t.get pid with
  | none => rfl
  | some p => exact absurd rfl (h.2.1 ⟨pid, p⟩ (t.mem_entries.mpr hp)).1

theorem CanStart.pgid_ne (h : t.CanStart pid pgid) (hq : t.get other = some q) : q.pgid ≠ pid :=
  (h.2.1 ⟨other, q⟩ (t.mem_entries.mpr hq)).2

theorem lookup_insert_cases {s : AList (fun _ : UInt32 => Process α)}
    (h : (s.insert pid p).lookup other = some q) :
    other = pid ∧ q = p ∨ other ≠ pid ∧ s.lookup other = some q := by
  by_cases ho : other = pid
  · subst ho
    rw [AList.lookup_insert] at h
    exact .inl ⟨rfl, (Option.some.inj h).symm⟩
  · rw [AList.lookup_insert_ne ho] at h
    exact .inr ⟨ho, h⟩

/-- A new process. -/
def start (t : ProcessTable α) (pid pgid : UInt32) (a : α) (h : t.CanStart pid pgid) :
    ProcessTable α where
  procs := t.procs.insert pid ⟨pgid, some a⟩
  pid_ne_zero := by
    intro other q hq
    rcases lookup_insert_cases hq with ⟨rfl, -⟩ | ⟨-, hq⟩
    · exact h.1
    · exact t.pid_ne_zero other q hq
  leads := by
    intro x p y q hp hq hleads
    rcases lookup_insert_cases hp with ⟨rfl, rfl⟩ | ⟨hx, hp'⟩
    · rcases lookup_insert_cases hq with ⟨-, rfl⟩ | ⟨-, hq'⟩
      · exact hleads
      · exact absurd hleads (h.pgid_ne hq')
    · rcases lookup_insert_cases hq with ⟨rfl, rfl⟩ | ⟨-, hq'⟩
      · rcases h.2.2 with hnew | ⟨e, he, -, hpgid⟩
        · exact absurd (hleads.symm.trans hnew) hx
        · exact t.leads x p e.1 e.2 hp' (t.mem_entries.mp he) (hpgid.trans hleads)
      · exact t.leads x p y q hp' hq' hleads

theorem get_start {a : α} (h : t.CanStart pid pgid) :
    (t.start pid pgid a h).get other = some q ↔
      other = pid ∧ q = ⟨pgid, some a⟩ ∨ t.get other = some q := by
  constructor
  · intro hq
    rcases lookup_insert_cases hq with ⟨rfl, rfl⟩ | ⟨-, hq⟩
    · exact .inl ⟨rfl, rfl⟩
    · exact .inr hq
  · rintro (⟨rfl, rfl⟩ | hq)
    · exact AList.lookup_insert t.procs
    · have hne : other ≠ pid := by
        rintro rfl
        rw [h.get_eq_none] at hq
        cases hq
      exact (AList.lookup_insert_ne hne).trans hq

/-! ## Moving on, ending, being waited for -/

/-- What process `pid` is doing changes, its group does not. -/
def become (t : ProcessTable α) (pid : UInt32) (r : Option α) : ProcessTable α :=
  match h : t.get pid with
  | none => t
  | some p =>
    { procs := t.procs.insert pid { p with running := r }
      pid_ne_zero := by
        intro other q hq
        rcases lookup_insert_cases hq with ⟨rfl, -⟩ | ⟨-, hq⟩
        · exact t.pid_ne_zero other p h
        · exact t.pid_ne_zero other q hq
      leads := by
        intro x p' y q hp hq hleads
        rcases lookup_insert_cases hp with ⟨rfl, rfl⟩ | ⟨-, hp'⟩
        · rcases lookup_insert_cases hq with ⟨rfl, rfl⟩ | ⟨-, hq'⟩
          · exact hleads
          · exact t.leads x p y q h hq' hleads
        · rcases lookup_insert_cases hq with ⟨rfl, rfl⟩ | ⟨-, hq'⟩
          · exact t.leads x p' y p hp' h hleads
          · exact t.leads x p' y q hp' hq' hleads }

/-- Process `pid` ends. -/
def stop (t : ProcessTable α) (pid : UInt32) : ProcessTable α := t.become pid none

/-- Process `pid` has been waited for. -/
def reap (t : ProcessTable α) (pid : UInt32) : ProcessTable α where
  procs := t.procs.erase pid
  pid_ne_zero := by
    intro other q hq
    have hne : other ≠ pid := by
      rintro rfl
      rw [AList.lookup_erase] at hq
      cases hq
    exact t.pid_ne_zero other q ((AList.lookup_erase_ne hne).symm.trans hq)
  leads := by
    have hkept : ∀ {x p}, (t.procs.erase pid).lookup x = some p → t.procs.lookup x = some p := by
      intro x p hp
      have hne : x ≠ pid := by
        rintro rfl
        rw [AList.lookup_erase] at hp
        cases hp
      exact (AList.lookup_erase_ne hne).symm.trans hp
    intro x p y q hp hq hleads
    exact t.leads x p y q (hkept hp) (hkept hq) hleads

theorem get_become_self (r : Option α) (h : t.get pid = some p) :
    (t.become pid r).get pid = some { p with running := r } := by
  unfold become
  split
  · rename_i hnone
    rw [hnone] at h
    cases h
  · rename_i p' hp'
    obtain rfl : p' = p := Option.some.inj (hp'.symm.trans h)
    exact AList.lookup_insert t.procs

theorem get_become_of_ne (r : Option α) (h : other ≠ pid) :
    (t.become pid r).get other = t.get other := by
  unfold become
  split
  · rfl
  · exact AList.lookup_insert_ne h

/-- The table after process `pid` has moved on. -/
theorem get_become {r : Option α} (h : t.get pid = some p) :
    (t.become pid r).get other = some q ↔
      other = pid ∧ q = { p with running := r } ∨ other ≠ pid ∧ t.get other = some q := by
  by_cases ho : other = pid
  · subst ho
    rw [get_become_self r h]
    simp [eq_comm]
  · rw [get_become_of_ne r ho]
    simp [ho]

theorem get_reap : (t.reap pid).get other = some q ↔ other ≠ pid ∧ t.get other = some q := by
  by_cases ho : other = pid
  · subst ho
    have hnone : (t.reap other).get other = none := AList.lookup_erase other t.procs
    simp [hnone]
  · have hsame : (t.reap pid).get other = t.get other := AList.lookup_erase_ne ho
    simp [hsame, ho]

end ProcessTable
