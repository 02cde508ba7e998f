import Anonet.Library.Machine
import Anonet.Transparent.Supervisor

/-!
# The tor processes a supervisor leaves behind

`start` and `stop` borrow the supervisor, so at most one of them is under way.  The
future of either can be dropped at an await, and the supervisor when none is; a `Child`
that is dropped keeps running.

* `Supervised` — the supervisor, the call under way, and the tors that run.
* `supervising` — the machine: the calls, what tor does, and what is dropped.
* `Accounted` — the invariant: the only tor that may run is the one whose `Child` a
  call or the supervisor has.
* `contained_of_keepsRunning` — **no tor is left behind, and no second one runs, as
  long as the `Child` of a running tor is not dropped.**
-/

namespace Anonet.Transparent

/-- The await at which a call is suspended. -/
inductive Suspended
  /-- `start`, reading the child's output. -/
  | bootstrapping (child : TorChild)
  /-- `start`, in the `kill` after a failed bootstrap. -/
  | killing (err : String)
  /-- `stop`, in `kill`. -/
  | stopping
  deriving DecidableEq

structure Supervised where
  /-- `none` once it has been dropped. -/
  supervisor : Option TorSupervisor
  call : Option Suspended
  /-- The process IDs of the tors that have been spawned and run. -/
  running : List ℕ
  deriving DecidableEq

inductive SupervisorAction
  /-- `start` is called. -/
  | start (o : SpawnOutcome)
  /-- `start` sees this next. -/
  | tor (e : BootstrapEvent)
  /-- The process `kill` waits for has been reaped. -/
  | reaped
  /-- `stop` is called. -/
  | stop
  /-- The future of the call is dropped. -/
  | dropCall
  | dropSupervisor
  /-- A tor exits by itself. -/
  | exits (pid : ℕ)
  deriving DecidableEq

namespace Supervised

/-- A new supervisor. -/
def new (ports : TorPorts) (dataDir : Option String) : Supervised where
  supervisor := some (.new ports dataDir)
  call := none
  running := []

/-- `child.kill()` up to its await: the signal has been sent. -/
def kill (s : Supervised) (child : TorChild) : Supervised :=
  { s with running := s.running.erase child.pid }

/-- `self.child = child` -/
def setChild (s : Supervised) (self : TorSupervisor) (child : Option TorChild) : Supervised :=
  { s with supervisor := some { self with child := child } }

/-- `start` up to its first await. -/
def start (s : Supervised) (self : TorSupervisor) (o : SpawnOutcome) : Option Supervised :=
  match self.launch o with
  | .error _ => some s
  | .ok child =>
    -- the operating system gives the ID of a running process to no other
    if child.pid ∈ s.running then none
    else some { s with call := some (.bootstrapping child), running := s.running ++ [child.pid] }

/-- `start` reads on, stores the child, or kills it. -/
def onTor (s : Supervised) (self : TorSupervisor) (child : TorChild) (e : BootstrapEvent) :
    Supervised :=
  match TorSupervisor.onBootstrap e with
  | .waiting => s
  | .done => { s.setChild self (some child) with call := none }
  | .failed err => { s.kill child with call := some (.killing err) }

/-- `stop` up to its await. -/
def stop (s : Supervised) (self : TorSupervisor) : Supervised :=
  match self.child with
  | none => s
  | some child => { (s.setChild self none).kill child with call := some .stopping }

def step (s : Supervised) (a : SupervisorAction) : Option Supervised :=
  match s.supervisor, s.call, a with
  | some self, none, .start o => s.start self o
  | some self, some (.bootstrapping child), .tor e => some (s.onTor self child e)
  | some _, some (.killing _), .reaped => some { s with call := none }
  | some _, some .stopping, .reaped => some { s with call := none }
  | some self, none, .stop => some (s.stop self)
  | some _, some _, .dropCall => some { s with call := none }
  | some _, none, .dropSupervisor => some { s with supervisor := none }
  | _, _, .exits pid =>
    if pid ∈ s.running then some { s with running := s.running.erase pid } else none
  | _, _, _ => none

end Supervised

/-- Every sequence of `start` and `stop` calls on one supervisor, until it is dropped
and beyond. -/
def supervising : Machine Supervised SupervisorAction where
  step := Supervised.step

/-! ## What one step does -/

inductive SupervisorStep (s : Supervised) : SupervisorAction → Supervised → Prop
  | refused {self : TorSupervisor} {o : SpawnOutcome} (hself : s.supervisor = some self) :
      SupervisorStep s (.start o) s
  | spawn {self : TorSupervisor} {o : SpawnOutcome} {child : TorChild}
      (hself : s.supervisor = some self) (hcall : s.call = none)
      (hlaunch : self.launch o = .ok child) :
      SupervisorStep s (.start o)
        { s with call := some (.bootstrapping child), running := s.running ++ [child.pid] }
  | read {e : BootstrapEvent} : SupervisorStep s (.tor e) s
  | started {self : TorSupervisor} {child : TorChild} {e : BootstrapEvent}
      (hself : s.supervisor = some self) (hcall : s.call = some (.bootstrapping child)) :
      SupervisorStep s (.tor e) { s.setChild self (some child) with call := none }
  | failed {self : TorSupervisor} {child : TorChild} {e : BootstrapEvent} {err : String}
      (hself : s.supervisor = some self) (hcall : s.call = some (.bootstrapping child)) :
      SupervisorStep s (.tor e) { s.kill child with call := some (.killing err) }
  | stopNothing : SupervisorStep s .stop s
  | stop {self : TorSupervisor} {child : TorChild} (hself : s.supervisor = some self)
      (hcall : s.call = none) (hchild : self.child = some child) :
      SupervisorStep s .stop { (s.setChild self none).kill child with call := some .stopping }
  | reaped {call : Suspended} (hcall : s.call = some call)
      (hkill : ∀ child, call ≠ .bootstrapping child) :
      SupervisorStep s .reaped { s with call := none }
  | dropCall {self : TorSupervisor} {call : Suspended} (hself : s.supervisor = some self)
      (hcall : s.call = some call) :
      SupervisorStep s .dropCall { s with call := none }
  | dropSupervisor {self : TorSupervisor} (hself : s.supervisor = some self)
      (hcall : s.call = none) :
      SupervisorStep s .dropSupervisor { s with supervisor := none }
  | exits {pid : ℕ} (hpid : pid ∈ s.running) :
      SupervisorStep s (.exits pid) { s with running := s.running.erase pid }

theorem supervisorStep_of_step {s s' : Supervised} {a : SupervisorAction}
    (h : s.step a = some s') : SupervisorStep s a s' := by
  unfold Supervised.step at h
  split at h
  · rename_i self o hself hcall
    unfold Supervised.start at h
    split at h
    · cases h
      exact .refused hself
    · rename_i child hlaunch
      split at h
      · cases h
      · cases h
        exact .spawn hself hcall hlaunch
  · rename_i self child e hself hcall
    unfold Supervised.onTor at h
    split at h <;> cases h
    · exact .read
    · exact .started hself hcall
    · exact .failed hself hcall
  · rename_i hcall
    cases h
    exact .reaped hcall nofun
  · rename_i hcall
    cases h
    exact .reaped hcall nofun
  · rename_i self hself hcall
    unfold Supervised.stop at h
    split at h <;> cases h
    · exact .stopNothing
    · rename_i child hchild
      exact .stop hself hcall hchild
  · rename_i hself hcall
    cases h
    exact .dropCall hself hcall
  · rename_i hself hcall
    cases h
    exact .dropSupervisor hself hcall
  · split at h
    · rename_i hpid
      cases h
      exact .exits hpid
    · cases h
  · cases h

/-! ## Who has the child -/

namespace Supervised

/-- The local variable of `start`. -/
def localChild (s : Supervised) : Option TorChild :=
  match s.call with
  | some (.bootstrapping child) => some child
  | _ => none

def storedChild (s : Supervised) : Option TorChild := s.supervisor.bind (·.child)

/-- The `Child` that is dropped with a future or with the supervisor. -/
def dropped (s : Supervised) : SupervisorAction → Option TorChild
  | .dropCall => s.localChild
  | .dropSupervisor => s.storedChild
  | _ => none

end Supervised

/-- At most one tor runs, and none once the supervisor is gone. -/
def Contained (s : Supervised) : Prop :=
  s.running.length ≤ 1 ∧ (s.supervisor = none → s.running = [])

/-- The step does not drop the `Child` of a tor that runs. -/
def KeepsRunning (s : Supervised) (a : SupervisorAction) : Prop :=
  ∀ child ∈ s.dropped a, child.pid ∉ s.running

instance (s : Supervised) (a : SupervisorAction) : Decidable (KeepsRunning s a) :=
  inferInstanceAs (Decidable (∀ child ∈ s.dropped a, child.pid ∉ s.running))

/-- The one tor that may run is accounted for, and none is stored while a call is under
way. -/
structure Accounted (s : Supervised) : Prop where
  running : s.running = [] ∨
    ∃ child, (s.localChild = some child ∨ s.storedChild = some child) ∧ s.running = [child.pid]
  busy : s.call.isSome → s.supervisor.isSome ∧ s.storedChild = none

section Accounted

variable {s s' : Supervised} {a : SupervisorAction}

theorem localChild_eq_none (h : ∀ child, s.call ≠ some (.bootstrapping child)) :
    s.localChild = none := by
  unfold Supervised.localChild
  split
  · rename_i child hcall
    exact absurd hcall (h child)
  · rfl

theorem localChild_of_call {child : TorChild} (h : s.call = some (.bootstrapping child)) :
    s.localChild = some child := by
  simp [Supervised.localChild, h]

theorem storedChild_of_supervisor {self : TorSupervisor} (h : s.supervisor = some self) :
    s.storedChild = self.child := by
  simp [Supervised.storedChild, h]

/-- Nothing runs that nobody has the `Child` of. -/
theorem Accounted.running_eq_nil (h : Accounted s) (hlocal : ∀ child ∈ s.localChild,
    child.pid ∉ s.running) (hstored : ∀ child ∈ s.storedChild, child.pid ∉ s.running) :
    s.running = [] := by
  rcases h.running with hnil | ⟨child, hchild | hchild, hrunning⟩
  · exact hnil
  · exact absurd (by simp [hrunning]) (hlocal child hchild)
  · exact absurd (by simp [hrunning]) (hstored child hchild)

/-- A tor that exits or is killed was the only one. -/
theorem Accounted.erase_eq_nil (h : Accounted s) {pid : ℕ} (hpid : pid ∈ s.running ∨
    ∀ child, s.localChild = some child ∨ s.storedChild = some child → child.pid = pid) :
    s.running.erase pid = [] := by
  rcases h.running with hnil | ⟨child, hchild, hrunning⟩
  · simp [hnil]
  · have heq : child.pid = pid := by
      rcases hpid with hmem | hall
      · simpa [hrunning, eq_comm] using hmem
      · exact hall child hchild
    simp [hrunning, heq]

theorem accounted_new (ports : TorPorts) (dataDir : Option String) :
    Accounted (.new ports dataDir) := ⟨.inl rfl, nofun⟩

/-- **The step lemma.** -/
theorem Accounted.step (h : Accounted s) (hg : KeepsRunning s a) (hs : SupervisorStep s a s') :
    Accounted s' := by
  cases hs with
  | refused | read | stopNothing => exact h
  | @spawn self o child hself hcall hlaunch =>
    have hstored : s.storedChild = none :=
      (storedChild_of_supervisor hself).trans (TorSupervisor.child_of_launch hlaunch)
    have hlocal : s.localChild = none := localChild_eq_none (by simp [hcall])
    have hnil : s.running = [] := h.running_eq_nil (by simp [hlocal]) (by simp [hstored])
    exact ⟨.inr ⟨child, .inl rfl, by simp [hnil]⟩, fun _ => ⟨by simp [hself], hstored⟩⟩
  | @started self child e hself hcall =>
    have hlocal : s.localChild = some child := localChild_of_call hcall
    have hstored : s.storedChild = none := (h.busy (by simp [hcall])).2
    refine ⟨h.running.imp_right ?_, nofun⟩
    rintro ⟨other, hother, hrunning⟩
    have heq : other = child := by simpa [hlocal, hstored, eq_comm] using hother
    exact ⟨child, .inr rfl, heq ▸ hrunning⟩
  | @failed self child e err hself hcall =>
    obtain ⟨hsome, hstored⟩ := h.busy (by simp [hcall])
    refine ⟨.inl (h.erase_eq_nil (.inr ?_)), fun _ => ⟨hsome, hstored⟩⟩
    simp [localChild_of_call hcall, hstored]
  | @stop self child hself hcall hchild =>
    have hlocal : s.localChild = none := localChild_eq_none (by simp [hcall])
    refine ⟨.inl (h.erase_eq_nil (.inr ?_)), fun _ => ⟨rfl, rfl⟩⟩
    simp [hlocal, storedChild_of_supervisor hself, hchild]
  | @reaped call hcall hkill =>
    have hstored : s.storedChild = none := (h.busy (by simp [hcall])).2
    have hlocal : s.localChild = none := by
      refine localChild_eq_none ?_
      intro child hboot
      exact hkill child (Option.some.inj (hcall.symm.trans hboot))
    exact ⟨.inl (h.running_eq_nil (by simp [hlocal]) (by simp [hstored])), nofun⟩
  | dropCall hself hcall =>
    have hstored : s.storedChild = none := (h.busy (by simp [hcall])).2
    exact ⟨.inl (h.running_eq_nil hg (by simp [hstored])), nofun⟩
  | dropSupervisor hself hcall =>
    have hlocal : s.localChild = none := localChild_eq_none (by simp [hcall])
    refine ⟨.inl (h.running_eq_nil (by simp [hlocal]) hg), ?_⟩
    simp [hcall]
  | @exits pid hpid => exact ⟨.inl (h.erase_eq_nil (.inl hpid)), h.busy⟩

theorem Accounted.contained (h : Accounted s) : Contained s := by
  refine ⟨?_, ?_⟩
  · rcases h.running with hnil | ⟨child, -, hrunning⟩
    · simp [hnil]
    · simp [hrunning]
  · intro hgone
    have hidle : s.call = none := by
      refine Option.not_isSome_iff_eq_none.mp ?_
      intro hbusy
      simpa [hgone] using (h.busy hbusy).1
    have hlocal : s.localChild = none := localChild_eq_none (by simp [hidle])
    have hstored : s.storedChild = none := by simp [Supervised.storedChild, hgone]
    exact h.running_eq_nil (by simp [hlocal]) (by simp [hstored])

/-- A running tor whose `Child` is dropped is left behind, now or when the supervisor is
dropped too. -/
theorem exists_left_behind (h : Accounted s) (hs : s.step a = some s')
    (hnot : ¬ KeepsRunning s a) :
    ∃ t, supervising.Reach KeepsRunning s' t ∧ ¬ Contained t := by
  unfold KeepsRunning at hnot
  push Not at hnot
  obtain ⟨child, hdropped, hmem⟩ := hnot
  have hne : s.running ≠ [] := List.ne_nil_of_mem hmem
  cases supervisorStep_of_step hs with
  | @dropCall self call hself hcall =>
    have hstored : s.storedChild = none := (h.busy (by simp [hcall])).2
    refine ⟨{ s with supervisor := none, call := none }, ?_, fun hgone => hne (hgone.2 rfl)⟩
    refine .step (a := .dropSupervisor) .init ?_ (by simp [supervising, Supervised.step, hself])
    show ∀ child ∈ s.storedChild, _
    simp [hstored]
  | dropSupervisor => exact ⟨_, .init, fun hgone => hne (hgone.2 rfl)⟩
  | _ => cases hdropped

end Accounted

/-- **Nothing is left behind as long as no running tor's `Child` is dropped.**  For every
sequence of `start` and `stop` calls, whatever tor does and wherever a future is dropped:
if no drop takes the `Child` of a running tor with it, at most one tor runs at any time,
and none once the supervisor is gone.  And after any other drop there can be one that
does. -/
theorem contained_of_keepsRunning (ports : TorPorts) (dataDir : Option String) (s : Supervised)
    (h : supervising.Reach KeepsRunning (.new ports dataDir) s) :
    Contained s ∧ ∀ a s', s.step a = some s' → ¬ KeepsRunning s a →
      ∃ t, supervising.Reach KeepsRunning s' t ∧ ¬ Contained t := by
  have haccounted : Accounted s := by
    refine h.invariant (I := Accounted) (accounted_new ports dataDir) ?_
    intro s a s' hi hg hs
    exact hi.step hg (supervisorStep_of_step hs)
  exact ⟨haccounted.contained, fun a s' hs hnot => exists_left_behind haccounted hs hnot⟩

/-- A tor that was stopped, one whose bootstrap failed with its `kill` cut short, and
then the supervisor is dropped. -/
theorem contained_stopped :
    ∃ s : Supervised, s.supervisor = none ∧ Contained s := by
  obtain ⟨s, hreach, hgone⟩ := Machine.exists_reach_of_exec (m := supervising)
    (G := KeepsRunning) (s := .new {} none) (P := fun s => s.supervisor = none)
    [.start (.spawned 7), .tor (.line "Bootstrapped 100% (done): Done"), .stop, .reaped,
      .start (.spawned 8), .tor .elapsed, .dropCall, .dropSupervisor] (by decide)
  exact ⟨s, hgone, (contained_of_keepsRunning {} none s hreach).1⟩

/-- The supervisor dropped while it has a tor; `start` dropped before tor is up, and
called again. -/
theorem not_contained_dropped :
    (∃ s, supervising.Reach Machine.anyStep (.new {} none) s ∧
      s.supervisor = none ∧ s.running = [7] ∧ ¬ Contained s) ∧
    ∃ s, supervising.Reach Machine.anyStep (.new {} none) s ∧
      s.running = [7, 8] ∧ ¬ Contained s := by
  constructor
  · obtain ⟨s, hreach, hgone, hrunning⟩ := Machine.exists_reach_of_exec (m := supervising)
      (G := Machine.anyStep) (s := .new {} none)
      (P := fun s => s.supervisor = none ∧ s.running = [7])
      [.start (.spawned 7), .tor (.line "Bootstrapped 100% (done): Done"), .dropSupervisor]
      (by decide)
    refine ⟨s, hreach, hgone, hrunning, ?_⟩
    intro hcontained
    cases hrunning.symm.trans (hcontained.2 hgone)
  · obtain ⟨s, hreach, hrunning⟩ := Machine.exists_reach_of_exec (m := supervising)
      (G := Machine.anyStep) (s := .new {} none) (P := fun s => s.running = [7, 8])
      [.start (.spawned 7), .dropCall, .start (.spawned 8)] (by decide)
    refine ⟨s, hreach, hrunning, ?_⟩
    intro hcontained
    have hle : s.running.length ≤ 1 := hcontained.1
    simp [hrunning] at hle

end Anonet.Transparent
