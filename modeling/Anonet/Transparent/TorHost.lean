import Anonet.Transparent.SupervisorMutex
import Anonet.Transparent.TorChildren

/-!
# The tors of a controller

Any number of `enable` and `disable` calls share one supervisor.  Its mutex makes of
their `start` and `stop` calls what the supervisor assumes: one call at a time, none of
which is dropped.

* `TorHost`, `hosting` — the controller's calls, with the tors that run.
* `TorHost.supervised` — what the supervisor sees of it.
* `supervising_of_step` — one step of a call is a run of the supervisor, `MutexOwned`
  being the reason why no other call is in its way.
* `one_tor_of_reach` — **every interleaving is a run of the supervisor, so at most one tor
  runs.**
-/

namespace Anonet.Transparent

open Leakguard Nft Telemetry

/-- The controller and the process IDs of the tors that have been spawned and run. -/
structure TorHost where
  controller : FullAnonController
  running : List ℕ

inductive HostAction
  | controller (a : Action)
  /-- A tor exits by itself. -/
  | exits (pid : ℕ)

namespace TorHost

def new (dataDir : Option String) (telemetry : HealthStatus) (ruleset : Ruleset) (now : ℕ) :
    TorHost where
  controller := .new dataDir telemetry ruleset now
  running := []

/-- The tors that run after call `c` has taken a step: it may spawn one, which gets the ID
of no process that runs, or kill one. -/
def runningAfter (s : TorHost) (c : Call) (e : Event) : Option (List ℕ) :=
  match c, e with
  | .enable (.locking _), .spawned o =>
    match s.controller.supervisor.launch o with
    | .ok child => if child.pid ∈ s.running then none else some (s.running ++ [child.pid])
    | .error _ => some s.running
  | .enable (.bootstrapping _ child _), .tor e =>
    match TorSupervisor.onBootstrap e with
    | .failed _ => some (s.running.erase child.pid)
    | _ => some s.running
  | .enable (.stopping _), _ | .disable .stopping, _ =>
    match s.controller.supervisor.child with
    | some child => some (s.running.erase child.pid)
    | none => some s.running
  | _, _ => some s.running

def step (s : TorHost) : HostAction → Option TorHost
  | .controller (.step i e) => do
    let c ← s.controller.calls[i]?
    let running ← s.runningAfter c e
    let controller ← s.controller.step (.step i e)
    some ⟨controller, running⟩
  | .controller a => do
    let controller ← s.controller.step a
    some { s with controller := controller }
  | .exits pid =>
    if pid ∈ s.running then some { s with running := s.running.erase pid } else none

end TorHost

/-- All interleavings of calls, on a machine where tors run. -/
def hosting : Machine TorHost HostAction where
  step := TorHost.step

/-! ## What the supervisor sees -/

/-- What a call that holds the mutex does with the supervisor.  The `kill` of `stop` is
over as soon as the child is taken. -/
def Call.suspended : Call → Option Suspended
  | .enable (.bootstrapping _ child _) => some (.bootstrapping child)
  | .enable (.killing err) => some (.killing err)
  | _ => none

namespace TorHost

/-- The call on the supervisor, that of the mutex's holder. -/
def suspended (s : FullAnonController) : Option Suspended :=
  s.holder.bind fun i => s.calls[i]?.bind Call.suspended

def supervised (s : TorHost) : Supervised where
  supervisor := some s.controller.supervisor
  call := suspended s.controller
  running := s.running

end TorHost

section Suspended

variable {s s' : FullAnonController} {i : ℕ} {c c' : Call} {e : Event}

theorem suspended_of_free (h : s.holder = none) : TorHost.suspended s = none := by
  rw [TorHost.suspended, h]
  rfl

theorem suspended_of_holder (h : s.holder = some i) (hc : s.calls[i]? = some c) :
    TorHost.suspended s = c.suspended := by
  rw [TorHost.suspended, h, Option.bind_some, hc, Option.bind_some]

variable (c') in
/-- The calls of others do not matter to the holder. -/
theorem suspended_set (hown : MutexOwned s) (hc : s.calls[i]? = some c)
    (hnot : c.holdsMutex = false) :
    TorHost.suspended { s with calls := s.calls.set i c' } = TorHost.suspended s := by
  unfold TorHost.suspended
  cases hholder : s.holder with
  | none => rfl
  | some j =>
    obtain ⟨d, hd, hholds⟩ := (hown j).mp hholder
    have hij : i ≠ j := by
      rintro rfl
      cases hc.symm.trans hd
      cases hnot.symm.trans hholds
    simp only [Option.bind_some]
    rw [List.getElem?_set_ne hij]

/-- A new call does not matter to it either. -/
theorem suspended_spawn (hown : MutexOwned s) :
    TorHost.suspended (s.spawn c) = TorHost.suspended s := by
  unfold TorHost.suspended
  show s.holder.bind (fun i => (s.calls ++ [c])[i]?.bind Call.suspended) = _
  cases hholder : s.holder with
  | none => rfl
  | some j =>
    obtain ⟨d, hd, -⟩ := (hown j).mp hholder
    simp only [Option.bind_some]
    rw [List.getElem?_append_left (List.getElem?_eq_some_iff.mp hd).1]

end Suspended

/-! ## A step of a call is a run of the supervisor -/

section Simulation

variable {s : TorHost} {s₁ : FullAnonController} {i : ℕ} {c c' : Call} {e : Event}
  {running : List ℕ}

theorem keepsRunning_of_dropped {t : Supervised} {a : SupervisorAction} (h : t.dropped a = none) :
    KeepsRunning t a := by
  intro child hchild
  rw [h] at hchild
  cases hchild

/-- The supervisor does not see a step that leaves it, the mutex and the tors alone. -/
theorem supervised_quiet (hown : MutexOwned s.controller) (hc : s.controller.calls[i]? = some c)
    (hnot : c.holdsMutex = false) (hcalls : s₁.calls = s.controller.calls)
    (hholder : s₁.holder = s.controller.holder) (hsup : s₁.supervisor = s.controller.supervisor)
    (hrun : running = s.running) :
    TorHost.supervised ⟨{ s₁ with calls := s₁.calls.set i c' }, running⟩ = s.supervised := by
  have hsuspended : TorHost.suspended { s₁ with calls := s₁.calls.set i c' } =
      TorHost.suspended s.controller := by
    rw [← suspended_set c' hown hc hnot]
    simp only [TorHost.suspended, hcalls, hholder]
  show Supervised.mk (some s₁.supervisor)
    (TorHost.suspended { s₁ with calls := s₁.calls.set i c' }) running = s.supervised
  rw [hsuspended, hsup, hrun]
  rfl

/-- Nor a new call. -/
theorem supervised_spawn (hown : MutexOwned s.controller) :
    TorHost.supervised ⟨s.controller.spawn c, s.running⟩ = s.supervised :=
  congrArg (Supervised.mk _ · _) (suspended_spawn hown)

/-- Seen by the supervisor, taking the child is a `stop`. -/
theorem supervising_stop (self : TorSupervisor) (running : List ℕ) :
    supervising.Reach KeepsRunning ⟨some self, none, running⟩
      ⟨some { self with child := none }, none, match self.child with
        | some child => running.erase child.pid
        | none => running⟩ := by
  cases hchild : self.child with
  | none =>
    have hsame : { self with child := none } = self := by rw [← hchild]
    rw [hsame]
    exact .init
  | some child =>
    have hstop : supervising.Reach KeepsRunning ⟨some self, none, running⟩
        ⟨some { self with child := none }, some .stopping, running.erase child.pid⟩ := by
      refine .step (a := .stop) .init (keepsRunning_of_dropped rfl) ?_
      simp only [supervising, Supervised.step, Supervised.stop, hchild]
      rfl
    exact hstop.step (a := .reaped) (keepsRunning_of_dropped rfl) rfl

/-- **The step lemma.** -/
theorem supervising_of_callStep (hown : MutexOwned s.controller)
    (hc : s.controller.calls[i]? = some c) (hs : CallStep s.controller i c e c' s₁)
    (hrun : s.runningAfter c e = some running) :
    supervising.Reach KeepsRunning s.supervised
      (TorHost.supervised ⟨{ s₁ with calls := s₁.calls.set i c' }, running⟩) := by
  -- the supervisor's call before and after, when this call has the mutex and when it is free
  have hbefore : c.holdsMutex = true →
      s.supervised = ⟨some s.controller.supervisor, c.suspended, s.running⟩ := by
    intro hholds
    rw [← suspended_of_holder ((hown i).mpr ⟨c, hc, hholds⟩) hc]
    rfl
  have hfreeBefore : s.controller.holder = none →
      s.supervised = ⟨some s.controller.supervisor, none, s.running⟩ := by
    intro hfree
    rw [← suspended_of_free hfree]
    rfl
  have hafter : s₁.holder = some i →
      TorHost.supervised ⟨{ s₁ with calls := s₁.calls.set i c' }, running⟩ =
        ⟨some s₁.supervisor, c'.suspended, running⟩ := by
    intro hholder
    have hself : (s₁.calls.set i c')[i]? = some c' := by
      rw [hs.calls_eq]
      exact Machine.getElem?_set_self_of_some hc
    rw [← suspended_of_holder (s := { s₁ with calls := s₁.calls.set i c' }) hholder hself]
    rfl
  have hfreeAfter : s₁.holder = none →
      TorHost.supervised ⟨{ s₁ with calls := s₁.calls.set i c' }, running⟩ =
        ⟨some s₁.supervisor, none, running⟩ := by
    intro hfree
    rw [← suspended_of_free (s := { s₁ with calls := s₁.calls.set i c' }) hfree]
    rfl
  cases hs with
  | @launch uid o child hfree hlaunch =>
    simp only [TorHost.runningAfter, hlaunch] at hrun
    split at hrun
    · cases hrun
    · rename_i hpid
      cases hrun
      rw [hfreeBefore hfree, hafter rfl]
      refine .step (a := .start o) .init (keepsRunning_of_dropped rfl) ?_
      simp only [supervising, Supervised.step, Supervised.start, hlaunch, if_neg hpid]
      rfl
  | @started uid child deadline e he =>
    simp only [TorHost.runningAfter, he, Option.some.injEq] at hrun
    subst hrun
    rw [hbefore rfl, hfreeAfter rfl]
    refine .step (a := .tor e) .init (keepsRunning_of_dropped rfl) ?_
    simp only [supervising, Call.suspended, Supervised.step, Supervised.onTor, he]
    rfl
  | @noBootstrap uid child deadline e err he htime =>
    simp only [TorHost.runningAfter, he, Option.some.injEq] at hrun
    subst hrun
    rw [hbefore rfl, hafter ((hown i).mpr ⟨_, hc, rfl⟩)]
    refine .step (a := .tor e) .init (keepsRunning_of_dropped rfl) ?_
    simp only [supervising, Call.suspended, Supervised.step, Supervised.onTor, he]
    rfl
  | @killed err =>
    simp only [TorHost.runningAfter, Option.some.injEq] at hrun
    subst hrun
    rw [hbefore rfl, hfreeAfter rfl]
    exact .step (a := .reaped) .init (keepsRunning_of_dropped rfl) rfl
  | @read uid child deadline e he =>
    simp only [TorHost.runningAfter, he, Option.some.injEq] at hrun
    subst hrun
    rw [hbefore rfl, hafter ((hown i).mpr ⟨_, hc, rfl⟩)]
    exact .init
  | rollbackStop hfree | stop hfree =>
    rw [hfreeBefore hfree, hafter rfl]
    have hstop := supervising_stop s.controller.supervisor s.running
    cases hchild : s.controller.supervisor.child <;>
      simp only [TorHost.runningAfter, hchild, Option.some.injEq] at hrun hstop <;>
      exact hrun ▸ hstop
  | rollbackRelease | release =>
    simp only [TorHost.runningAfter, Option.some.injEq] at hrun
    subst hrun
    rw [hbefore rfl, hfreeAfter rfl]
    exact .init
  | noLaunch hfree hlaunch =>
    simp only [TorHost.runningAfter, hlaunch, Option.some.injEq] at hrun
    rw [hfreeBefore hfree, hfreeAfter hfree, hrun]
    exact .init
  | _ =>
    simp only [TorHost.runningAfter, Option.some.injEq] at hrun
    exact supervised_quiet hown hc rfl rfl rfl rfl hrun.symm ▸ .init

end Simulation

/-! ## Runs -/

/-- A step of the host is a run of the supervisor. -/
theorem supervising_of_step {s s' : TorHost} {a : HostAction} (hown : MutexOwned s.controller)
    (h : s.step a = some s') :
    MutexOwned s'.controller ∧ supervising.Reach KeepsRunning s.supervised s'.supervised := by
  cases a with
  | controller a =>
    cases a with
    | step i e =>
      simp only [TorHost.step, Option.bind_eq_bind, Option.bind_eq_some_iff] at h
      obtain ⟨c, hc, running, hrun, controller, hstep, h⟩ := h
      obtain rfl := Option.some.inj h
      refine ⟨hown.step hstep, ?_⟩
      obtain ⟨d, c', s₁, hd, hcall, rfl⟩ := callStep_of_step hstep
      cases hc.symm.trans hd
      exact supervising_of_callStep hown hc hcall hrun
    | callEnable =>
      cases h
      exact ⟨hown.step (a := .callEnable) rfl, supervised_spawn hown ▸ .init⟩
    | callDisable =>
      cases h
      exact ⟨hown.step (a := .callDisable) rfl, supervised_spawn hown ▸ .init⟩
    | tick nanos =>
      cases h
      exact ⟨hown, .init⟩
  | exits pid =>
    simp only [TorHost.step] at h
    split at h
    · rename_i hpid
      cases h
      have hexits : ∀ call, Supervised.step ⟨some s.controller.supervisor, call, s.running⟩
          (.exits pid) = some ⟨some s.controller.supervisor, call, s.running.erase pid⟩ := by
        intro call
        cases call with
        | none => exact if_pos hpid
        | some call => cases call <;> exact if_pos hpid
      exact ⟨hown, .step (a := .exits pid) .init (keepsRunning_of_dropped rfl) (hexits _)⟩
    · cases h

/-- **Every interleaving is a run of the supervisor.**  For all interleavings of `enable`
and `disable` calls with any outcomes, and whenever a tor exits: what the supervisor sees is
one call after the other and no drop; at most one tor runs; and while no call holds the
mutex, none does but the one the supervisor has the child of. -/
theorem one_tor_of_reach (dataDir : Option String) (telemetry : HealthStatus) (ruleset : Ruleset)
    (now : ℕ) (s : TorHost)
    (h : hosting.Reach Machine.anyStep (.new dataDir telemetry ruleset now) s) :
    supervising.Reach KeepsRunning (.new {} dataDir) s.supervised ∧ s.running.length ≤ 1 ∧
    (s.controller.holder = none →
      s.running = [] ∨ ∃ child ∈ s.controller.supervisor.child, s.running = [child.pid]) := by
  obtain ⟨-, hrun⟩ := h.simulate TorHost.supervised (n := supervising) (H := KeepsRunning)
    (I := fun s => MutexOwned s.controller) (mutexOwned_nil rfl rfl)
    fun s a s' hown _ hs => supervising_of_step hown hs
  have haccounted : Accounted s.supervised := by
    refine hrun.invariant (I := Accounted) (accounted_new {} dataDir) ?_
    intro s a s' hi hg hs
    exact hi.step hg (supervisorStep_of_step hs)
  refine ⟨hrun, haccounted.contained.1, ?_⟩
  intro hfree
  refine haccounted.running.imp_right ?_
  rintro ⟨child, hlocal | hstored, hrunning⟩
  · have hidle : s.supervised.call = none := suspended_of_free hfree
    rw [Supervised.localChild, hidle] at hlocal
    cases hlocal
  · exact ⟨child, hstored, hrunning⟩

/-- Two calls at once: the second finds the tor of the first. -/
theorem one_tor_two_calls : ∃ s : TorHost, s.running = [7] ∧
    s.controller.supervisor.child.isSome = true := by
  obtain ⟨s, hreach, hrunning, hfree⟩ := Machine.exists_reach_of_exec (m := hosting)
    (G := Machine.anyStep) (s := .new none {} [] 0)
    (P := fun s => s.running = [7] ∧ s.controller.holder = none)
    [.controller .callEnable, .controller .callEnable,
      .controller (.step 0 .go), .controller (.step 0 (.identified (.printed "1000\n"))),
      .controller (.step 1 .go), .controller (.step 1 (.identified (.printed "1000\n"))),
      .controller (.step 0 (.spawned (.spawned 7))),
      .controller (.step 0 (.tor (.line "Bootstrapped 100% (done): Done"))),
      .controller (.step 1 (.spawned (.spawned 8)))] (by decide)
  refine ⟨s, hrunning, ?_⟩
  obtain hnil | ⟨child, hchild, -⟩ := (one_tor_of_reach none {} [] 0 s hreach).2.2 hfree
  · cases hrunning.symm.trans hnil
  · rw [Option.mem_def.mp hchild]
    rfl

end Anonet.Transparent
