import Anonet.Transparent.TorHost

/-!
# The watchers of a controller's tors

`transparent/src/lib.rs`: `start` spawns a control port client for each tor that has
bootstrapped.  Nothing stops it but the end of its connection or an error of its own, and
it connects to whatever tor listens by the time it gets to it.

* `Reporting`, `reporting` — the controller's calls, the tors, the watchers, and the stream
  events on their way into telemetry.
* `noteBoots` — the tors that have bootstrapped; a history variable.
* `Prompt` — a watcher connects while the tor it was spawned for is the one that listens,
  or no tor does.
* `Paired` — the invariant: the watchers are those of the tors that have bootstrapped, each
  connected to its own.
* `Delivered` — no event is on its way twice, or on its way again.
* `apart_of_prompt` — **each tor that bootstraps has one watcher, nobody else stops it, and
  no stream event is pushed twice as long as watchers connect promptly.**
-/

namespace Anonet.Transparent

open Leakguard Nft Telemetry

/-- How far a watcher is; tors are numbered in the order they are spawned. -/
inductive WatcherPlace
  | starting
  | connected (tor : ℕ)
  | ended
  deriving DecidableEq

structure Watcher where
  /-- The tor it was spawned for. -/
  tor : ℕ
  place : WatcherPlace
  deriving DecidableEq

structure Reporting where
  host : TorHost
  /-- How many tors have been spawned. -/
  spawned : ℕ
  watchers : List Watcher
  /-- How many stream events there have been; they are numbered. -/
  emitted : ℕ
  /-- The events on the connections of the watchers, each with its watcher. -/
  unread : List (ℕ × ℕ)
  /-- The events pushed into telemetry. -/
  pushed : List ℕ

inductive ReportAction
  | host (a : HostAction)
  /-- Watcher `j` connects to the control port. -/
  | connect (j : ℕ)
  /-- It sees the connection close. -/
  | closed (j : ℕ)
  /-- It ends because of an error of its own. -/
  | fails (j : ℕ)
  /-- It pushes the next event on its connection into telemetry. -/
  | push (j : ℕ)
  /-- The tor at the control port reports a stream event to whoever is connected. -/
  | event

/-- The watcher that takes the step. -/
def ReportAction.watcher? : ReportAction → Option ℕ
  | .connect j | .closed j | .fails j | .push j => some j
  | .host _ | .event => none

/-- The call that takes a step, and what it learns. -/
def TorHost.call (s : TorHost) : HostAction → Option (Call × Event)
  | .controller (.step i e) => s.controller.calls[i]?.map fun c => (c, e)
  | _ => none

/-- The step lets `start` return: tor has bootstrapped. -/
def Call.finishes : Call → Event → Bool
  | .enable (.bootstrapping _ _ _), .tor e => TorSupervisor.onBootstrap e = .done
  | _, _ => false

namespace Reporting

def new (dataDir : Option String) (telemetry : HealthStatus) (ruleset : Ruleset) (now : ℕ) :
    Reporting where
  host := .new dataDir telemetry ruleset now
  spawned := 0
  watchers := []
  emitted := 0
  unread := []
  pushed := []

/-- The tor at the control port: the last one spawned, as long as it runs. -/
def listening (s : Reporting) : Option ℕ := if s.host.running = [] then none else some s.spawned

/-- Watcher `j` moves. -/
def move (s : Reporting) (j : ℕ) (w : Watcher) (place : WatcherPlace) : Reporting :=
  { s with watchers := s.watchers.set j { w with place := place } }

/-- The watchers connected to a tor. -/
def connected (s : Reporting) (tor : ℕ) : List ℕ :=
  (s.watchers.zipIdx.filter (·.1.place = .connected tor)).map Prod.snd

def step (s : Reporting) : ReportAction → Option Reporting
  | .host a => do
    let host ← s.host.step a
    match s.host.call a with
    | some (c, e) =>
      some { s with
        host := host
        spawned := if c.launches s.host.controller.supervisor e then s.spawned + 1 else s.spawned
        watchers :=
          if c.finishes e then s.watchers ++ [⟨s.spawned, .starting⟩] else s.watchers }
    | none => some { s with host := host }
  | .connect j => do
    let w ← s.watchers[j]?
    if w.place = .starting then
      match s.listening with
      | some tor => some (s.move j w (.connected tor))
      | none => some (s.move j w .ended)
    else none
  | .closed j => do
    let w ← s.watchers[j]?
    match w.place with
    | .connected tor => if s.listening = some tor then none else some (s.move j w .ended)
    | _ => none
  | .fails j => do
    let w ← s.watchers[j]?
    if w.place = .ended then none else some (s.move j w .ended)
  | .push j => do
    let w ← s.watchers[j]?
    match w.place, s.unread.find? (·.1 = j) with
    | .connected _, some (_, event) =>
      some { s with unread := s.unread.erase (j, event), pushed := s.pushed ++ [event] }
    | _, _ => none
  | .event => do
    let tor ← s.listening
    some { s with
      emitted := s.emitted + 1
      unread := s.unread ++ (s.connected tor).map (·, s.emitted) }

end Reporting

def reporting : Machine Reporting ReportAction where
  step := Reporting.step

/-- Note the tor that `start` has just returned `Ok` for. -/
def noteBoots (s : Reporting) (a : ReportAction) (s' : Reporting) (g : List ℕ) : List ℕ :=
  match a with
  | .host (.controller (.step i _)) =>
    match s.host.controller.calls[i]?, s'.host.controller.calls[i]? with
    | some (.enable (.bootstrapping _ _ _)), some (.enable (.redirecting _)) => g ++ [s.spawned]
    | _, _ => g
  | _ => g

/-- A watcher connects to its own tor, or finds none. -/
def Prompt (s : Reporting) : ReportAction → Prop
  | .connect j => ∀ w ∈ s.watchers[j]?, ∀ tor ∈ s.listening, tor = w.tor
  | _ => True

instance (s : Reporting) (a : ReportAction) : Decidable (Prompt s a) :=
  match a with
  | .connect j =>
    inferInstanceAs (Decidable (∀ w ∈ s.watchers[j]?, ∀ tor ∈ s.listening, tor = w.tor))
  | .host _ | .closed _ | .fails _ | .push _ | .event => inferInstanceAs (Decidable True)

/-- Watchers are spawned for the tors that bootstrap, one after the other and none for a tor
that still does, and each is connected to its own, if at all. -/
structure Paired (s : Reporting) (g : List ℕ) : Prop where
  mutex : MutexOwned s.host.controller
  booted : s.watchers.map (·.tor) = g
  increasing : g.Pairwise (· < ·)
  spawned : ∀ tor ∈ g, tor ≤ s.spawned
  fresh : HeldForBootstrap s.host.controller → ∀ tor ∈ g, tor < s.spawned
  own : ∀ w ∈ s.watchers, ∀ tor, w.place = .connected tor → tor = w.tor

section Paired

variable {s s' : Reporting} {g : List ℕ} {i j : ℕ} {w : Watcher} {place : WatcherPlace}
  {e : Event} {c : Call} {controller : FullAnonController}

/-- A watcher moves, to its own tor if to any. -/
theorem Paired.move (h : Paired s g) (hw : s.watchers[j]? = some w)
    (hplace : ∀ tor, place = .connected tor → tor = w.tor) : Paired (s.move j w place) g := by
  have htors : (s.move j w place).watchers.map (·.tor) = s.watchers.map (·.tor) :=
    Machine.map_set_of_eq hw rfl
  refine ⟨h.mutex, htors.trans h.booted, h.increasing, h.spawned, h.fresh, ?_⟩
  intro v hv tor hconn
  obtain ⟨k, hk⟩ := List.mem_iff_getElem?.mp hv
  rcases Machine.getElem?_set_cases hk with ⟨-, hk⟩ | ⟨-, rfl⟩
  · exact h.own v (List.mem_of_getElem? hk) tor hconn
  · exact hplace tor hconn

/-- The `start` of a call returns `Ok` just when its tor has bootstrapped. -/
theorem noteBoots_call (hc : s.host.controller.calls[i]? = some c)
    (hstep : s.host.controller.step (.step i e) = some controller)
    (hs' : s'.host.controller = controller) :
    noteBoots s (.host (.controller (.step i e))) s' g =
      if c.finishes e then g ++ [s.spawned] else g := by
  obtain ⟨d, d', f₁, hd, hcall, hf⟩ := callStep_of_step hstep
  obtain rfl := Option.some.inj (hc.symm.trans hd)
  have hd' : s'.host.controller.calls[i]? = some d' := by
    rw [hs', hf]
    show (f₁.calls.set i d')[i]? = some d'
    rw [hcall.calls_eq]
    exact Machine.getElem?_set_self_of_some hd
  simp only [noteBoots, hc, hd']
  cases hcall with
  | started he | read he | noBootstrap he => simp [Call.finishes, he]
  | _ => rfl

/-- A step of a call. -/
theorem Paired.call (h : Paired s g) {running : List ℕ}
    (hc : s.host.controller.calls[i]? = some c)
    (hstep : s.host.controller.step (.step i e) = some controller) :
    Paired { s with
        host := ⟨controller, running⟩
        spawned := if c.launches s.host.controller.supervisor e then s.spawned + 1 else s.spawned
        watchers := if c.finishes e then s.watchers ++ [⟨s.spawned, .starting⟩] else s.watchers }
      (if c.finishes e then g ++ [s.spawned] else g) := by
  have hmutex := h.mutex.step hstep
  by_cases hfinishes : c.finishes e = true
  · -- tor has bootstrapped: the mutex was held for that, so this is the first watcher of it
    have hboots : c.bootstraps = true ∧ c.launches s.host.controller.supervisor e = false := by
      unfold Call.finishes at hfinishes
      split at hfinishes
      · exact ⟨rfl, rfl⟩
      · cases hfinishes
    have hheld : HeldForBootstrap s.host.controller :=
      ⟨i, (h.mutex i).mpr ⟨c, hc, Call.holdsMutex_of_bootstraps hboots.1⟩, c, hc, hboots.1⟩
    have hfree : controller.holder = none := by
      obtain ⟨d, d', s₁, hd, hcall, rfl⟩ := callStep_of_step hstep
      cases hc.symm.trans hd
      cases hcall with
      | started => rfl
      | read he | noBootstrap he =>
        simp only [Call.finishes, he, decide_eq_true_eq] at hfinishes
        cases hfinishes
      | _ => cases hboots.1
    rw [if_pos hfinishes, if_pos hfinishes, hboots.2]
    refine ⟨hmutex, ?_, ?_, ?_, ?_, ?_⟩
    · rw [List.map_append, h.booted]
      rfl
    · refine List.pairwise_append.mpr ⟨h.increasing, List.pairwise_singleton _ _, ?_⟩
      intro tor htor tor' htor'
      rw [List.mem_singleton.mp htor']
      exact h.fresh hheld tor htor
    · intro tor htor
      rcases List.mem_append.mp htor with htor | htor
      · exact h.spawned tor htor
      · rw [List.mem_singleton.mp htor]
        exact le_rfl
    · rintro ⟨k, hk, -⟩
      cases hfree.symm.trans hk
    · intro v hv tor hconn
      rcases List.mem_append.mp hv with hv | hv
      · exact h.own v hv tor hconn
      · rw [List.mem_singleton.mp hv] at hconn
        cases hconn
  · rw [if_neg hfinishes, if_neg hfinishes]
    by_cases hlaunches : c.launches s.host.controller.supervisor e = true
    · -- a new tor, which nobody watches yet
      rw [if_pos hlaunches]
      exact ⟨hmutex, h.booted, h.increasing, fun tor htor => Nat.le_succ_of_le (h.spawned tor htor),
        fun _ tor htor => Nat.lt_succ_of_le (h.spawned tor htor), h.own⟩
    · rw [if_neg hlaunches]
      refine ⟨hmutex, h.booted, h.increasing, h.spawned, ?_, h.own⟩
      intro hheld
      rcases heldForBootstrap_of_step hstep hheld h.mutex with hheld | ⟨i', e', d, ha, hd, hlaunch⟩
      · exact h.fresh hheld
      · cases ha
        cases hc.symm.trans hd
        exact absurd hlaunch hlaunches

/-- A step of the host that is none of a call. -/
theorem Paired.host (h : Paired s g) {host : TorHost} {a : HostAction}
    (hstep : s.host.step a = some host) (hcall : s.host.call a = none) :
    Paired { s with host := host } (noteBoots s (.host a) { s with host := host } g) := by
  have hmutex := (supervising_of_step h.mutex hstep).1
  cases a with
  | controller a =>
    cases a with
    | step i e =>
      simp only [TorHost.step, Option.bind_eq_bind, Option.bind_eq_some_iff] at hstep
      obtain ⟨c, hc, -⟩ := hstep
      simp [TorHost.call, hc] at hcall
    | callEnable | callDisable | tick =>
      refine ⟨hmutex, h.booted, h.increasing, h.spawned, fun hheld => h.fresh ?_, h.own⟩
      simp only [TorHost.step, Option.bind_eq_bind, Option.bind_eq_some_iff] at hstep
      obtain ⟨controller, hcontroller, hhost⟩ := hstep
      obtain rfl := Option.some.inj hhost
      rcases heldForBootstrap_of_step hcontroller hheld h.mutex with hheld | ⟨i, e, c, ha, -, -⟩
      · exact hheld
      · cases ha
  | exits pid =>
    refine ⟨hmutex, h.booted, h.increasing, h.spawned, fun hheld => h.fresh ?_, h.own⟩
    simp only [TorHost.step] at hstep
    split at hstep <;> cases hstep
    exact hheld

/-- What a step of the host is to the watchers. -/
theorem host_of_step {a : HostAction} (hs : s.step (.host a) = some s') :
    ∃ host, s.host.step a = some host ∧
      (s.host.call a = none ∧ s' = { s with host := host } ∨
        ∃ i e c controller running, a = .controller (.step i e) ∧
          s.host.controller.calls[i]? = some c ∧
          s.host.controller.step (.step i e) = some controller ∧ host = ⟨controller, running⟩ ∧
          s' = { s with
            host := ⟨controller, running⟩
            spawned :=
              if c.launches s.host.controller.supervisor e then s.spawned + 1 else s.spawned
            watchers :=
              if c.finishes e then s.watchers ++ [⟨s.spawned, .starting⟩] else s.watchers }) := by
  simp only [Reporting.step, Option.bind_eq_bind, Option.bind_eq_some_iff] at hs
  obtain ⟨host, hstep, hs⟩ := hs
  refine ⟨host, hstep, ?_⟩
  split at hs
  · rename_i c e hcall
    obtain rfl := Option.some.inj hs
    refine .inr ?_
    cases a with
    | controller a =>
      cases a with
      | step i e' =>
        simp only [TorHost.step, Option.bind_eq_bind, Option.bind_eq_some_iff] at hstep
        obtain ⟨d, hd, running, hrun, controller, hstep, heq⟩ := hstep
        obtain rfl := Option.some.inj heq
        simp only [TorHost.call, hd, Option.map_some, Option.some.injEq, Prod.mk.injEq] at hcall
        obtain ⟨rfl, rfl⟩ := hcall
        exact ⟨i, e', d, controller, running, rfl, hd, hstep, rfl, rfl⟩
      | _ => cases hcall
    | exits pid => cases hcall
  · rename_i hcall
    exact .inl ⟨hcall, (Option.some.inj hs).symm⟩

/-- A step that a watcher takes: it moves, or pushes an event on its connection. -/
theorem watcher_of_step {a : ReportAction} (ha : a.watcher? = some j) (hs : s.step a = some s') :
    ∃ w, s.watchers[j]? = some w ∧
      ((∃ place, s' = s.move j w place ∧ ∀ tor, place = .connected tor → a = .connect j ∧
          s.listening = some tor) ∨
        ∃ event, (j, event) ∈ s.unread ∧
          s' = { s with
            unread := s.unread.erase (j, event)
            pushed := s.pushed ++ [event] }) := by
  cases a with
  | host | event => cases ha
  | connect =>
    cases ha
    simp only [Reporting.step, Option.bind_eq_bind, Option.bind_eq_some_iff] at hs
    obtain ⟨w, hw, hs⟩ := hs
    refine ⟨w, hw, .inl ?_⟩
    split at hs
    · split at hs
      · rename_i tor hlistening
        refine ⟨_, (Option.some.inj hs).symm, ?_⟩
        rintro _ ⟨⟩
        exact ⟨rfl, hlistening⟩
      · exact ⟨_, (Option.some.inj hs).symm, nofun⟩
    · cases hs
  | closed =>
    cases ha
    simp only [Reporting.step, Option.bind_eq_bind, Option.bind_eq_some_iff] at hs
    obtain ⟨w, hw, hs⟩ := hs
    refine ⟨w, hw, .inl ?_⟩
    split at hs
    · split at hs
      · cases hs
      · exact ⟨_, (Option.some.inj hs).symm, nofun⟩
    · cases hs
  | fails =>
    cases ha
    simp only [Reporting.step, Option.bind_eq_bind, Option.bind_eq_some_iff] at hs
    obtain ⟨w, hw, hs⟩ := hs
    refine ⟨w, hw, .inl ?_⟩
    split at hs
    · cases hs
    · exact ⟨_, (Option.some.inj hs).symm, nofun⟩
  | push =>
    cases ha
    simp only [Reporting.step, Option.bind_eq_bind, Option.bind_eq_some_iff] at hs
    obtain ⟨w, hw, hs⟩ := hs
    refine ⟨w, hw, .inr ?_⟩
    split at hs
    · rename_i k event _ hfind
      have hk : k = j := by simpa using List.find?_some hfind
      subst hk
      exact ⟨event, List.mem_of_find?_eq_some hfind, (Option.some.inj hs).symm⟩
    · cases hs

/-- **The step lemma.** -/
theorem Paired.step (h : Paired s g) {a : ReportAction} (hg : Prompt s a)
    (hs : s.step a = some s') : Paired s' (noteBoots s a s' g) := by
  cases ha : a.watcher? with
  | some j =>
    have hnote : noteBoots s a s' g = g := by
      cases a with
      | host => cases ha
      | _ => rfl
    rw [hnote]
    obtain ⟨w, hw, ⟨place, rfl, hplace⟩ | ⟨event, -, rfl⟩⟩ := watcher_of_step ha hs
    · refine h.move hw ?_
      intro tor htor
      obtain ⟨rfl, hlistening⟩ := hplace tor htor
      exact hg w hw tor hlistening
    · exact ⟨h.mutex, h.booted, h.increasing, h.spawned, h.fresh, h.own⟩
  | none =>
    cases a with
    | host a =>
      obtain ⟨host, hstep, ⟨hcall, rfl⟩ | ⟨i, e, c, controller, running, rfl, hc, hone, -, rfl⟩⟩ :=
        host_of_step hs
      · exact h.host hstep hcall
      · rw [noteBoots_call hc hone rfl]
        exact h.call hc hone
    | event =>
      simp only [Reporting.step, Option.bind_eq_bind, Option.bind_eq_some_iff] at hs
      obtain ⟨tor, -, hs⟩ := hs
      obtain rfl := Option.some.inj hs
      exact ⟨h.mutex, h.booted, h.increasing, h.spawned, h.fresh, h.own⟩
    | connect | closed | fails | push => cases ha

/-- At most one watcher is connected to a tor. -/
theorem Paired.countP_le_one (h : Paired s g) (tor : ℕ) :
    s.watchers.countP (·.place = .connected tor) ≤ 1 := by
  have hown : ∀ w ∈ s.watchers.filter (·.place = .connected tor), w.tor = tor := by
    intro w hw
    obtain ⟨hmem, hplace⟩ := List.mem_filter.mp hw
    exact (h.own w hmem tor (of_decide_eq_true hplace)).symm
  have hwatchers : s.watchers.Pairwise (·.tor < ·.tor) := by
    have hincreasing := h.increasing
    rw [← h.booted] at hincreasing
    exact List.pairwise_map.mp hincreasing
  have hincreasing := hwatchers.filter (·.place = .connected tor)
  rw [List.countP_eq_length_filter]
  cases hfilter : s.watchers.filter (·.place = .connected tor) with
  | nil => simp
  | cons w ws =>
    cases ws with
    | nil => simp
    | cons w' ws =>
      rw [hfilter] at hown hincreasing
      have hlt : w.tor < w'.tor := List.rel_of_pairwise_cons hincreasing List.mem_cons_self
      rw [hown w List.mem_cons_self, hown w' (List.mem_cons_of_mem w List.mem_cons_self)] at hlt
      exact absurd hlt (Nat.lt_irrefl tor)

/-- Nobody but a watcher itself moves it: not a call that stops its tor, and not another
watcher. -/
theorem getElem?_watchers_step {a : ReportAction} (hs : s.step a = some s')
    (hw : s.watchers[j]? = some w) (ha : a.watcher? ≠ some j) : s'.watchers[j]? = some w := by
  cases ha' : a.watcher? with
  | some k =>
    have hkj : k ≠ j := fun h => ha (h ▸ ha')
    obtain ⟨v, -, ⟨place, rfl, -⟩ | ⟨event, -, rfl⟩⟩ := watcher_of_step ha' hs
    · exact (List.getElem?_set_ne hkj).trans hw
    · exact hw
  | none =>
    cases a with
    | host a =>
      obtain ⟨host, -, ⟨-, rfl⟩ | ⟨i, e, c, controller, running, rfl, -, -, -, rfl⟩⟩ :=
        host_of_step hs
      · exact hw
      · dsimp only
        split
        · exact (List.getElem?_append_left (List.getElem?_eq_some_iff.mp hw).1).trans hw
        · exact hw
    | event =>
      simp only [Reporting.step, Option.bind_eq_bind, Option.bind_eq_some_iff] at hs
      obtain ⟨tor, -, hs⟩ := hs
      obtain rfl := Option.some.inj hs
      exact hw
    | connect | closed | fails | push => cases ha'

end Paired

/-! ## Events on their way -/

/-- No event is on its way twice, or on its way again. -/
structure Delivered (s : Reporting) : Prop where
  once : (s.pushed ++ s.unread.map Prod.snd).Nodup
  emitted : ∀ event ∈ s.pushed ++ s.unread.map Prod.snd, event < s.emitted

section Delivered

variable {s s' : Reporting} {g : List ℕ}

theorem length_connected (tor : ℕ) :
    (s.connected tor).length = s.watchers.countP (·.place = .connected tor) := by
  have hzip : s.watchers.zipIdx.map Prod.fst = s.watchers := List.zipIdx_map_fst ..
  rw [Reporting.connected, List.length_map, ← List.countP_eq_length_filter]
  conv_rhs => rw [← hzip, List.countP_map]
  rfl

/-- **The step lemma.**  An event goes to one watcher at most. -/
theorem Delivered.step (h : Delivered s) (hp : Paired s g) {a : ReportAction}
    (hs : s.step a = some s') : Delivered s' := by
  cases ha : a.watcher? with
  | some j =>
    obtain ⟨w, hw, ⟨place, rfl, -⟩ | ⟨event, hevent, rfl⟩⟩ := watcher_of_step ha hs
    · exact ⟨h.once, h.emitted⟩
    · have hperm : ((s.pushed ++ [event]) ++ (s.unread.erase (j, event)).map Prod.snd).Perm
          (s.pushed ++ s.unread.map Prod.snd) := by
        rw [List.append_assoc]
        exact ((List.perm_cons_erase hevent).map Prod.snd).symm.append_left s.pushed
      exact ⟨hperm.nodup_iff.mpr h.once, fun e he => h.emitted e (hperm.mem_iff.mp he)⟩
  | none =>
    cases a with
    | host a =>
      obtain ⟨host, -, ⟨-, rfl⟩ | ⟨i, e, c, controller, running, rfl, -, -, -, rfl⟩⟩ :=
        host_of_step hs <;> exact ⟨h.once, h.emitted⟩
    | event =>
      simp only [Reporting.step, Option.bind_eq_bind, Option.bind_eq_some_iff] at hs
      obtain ⟨tor, -, hs⟩ := hs
      obtain rfl := Option.some.inj hs
      have hnew : (s.unread ++ (s.connected tor).map (·, s.emitted)).map Prod.snd =
          s.unread.map Prod.snd ++ List.replicate (s.connected tor).length s.emitted := by
        rw [List.map_append, List.map_map]
        exact congrArg (_ ++ ·) (List.map_const' ..)
      have hcount : (s.connected tor).length ≤ 1 := by
        rw [length_connected]
        exact hp.countP_le_one tor
      refine ⟨?_, ?_⟩
      · dsimp only
        rw [hnew, ← List.append_assoc]
        refine List.nodup_append.mpr ⟨h.once, List.nodup_replicate.mpr hcount, ?_⟩
        intro e he e' he' heq
        rw [List.eq_of_mem_replicate he'] at heq
        exact absurd (h.emitted e he) (heq ▸ Nat.lt_irrefl _)
      · intro e he
        dsimp only at he ⊢
        rw [hnew, ← List.append_assoc] at he
        rcases List.mem_append.mp he with he | he
        · exact Nat.lt_succ_of_lt (h.emitted e he)
        · rw [List.eq_of_mem_replicate he]
          exact Nat.lt_succ_self _
    | connect | closed | fails | push => cases ha

end Delivered

/-- **One watcher for each tor, and one push for each event, as long as watchers connect
promptly.**  In every interleaving of `enable` and `disable` calls, watchers and tors that
exit, in which each watcher that finds a tor at the control port finds the one it was
spawned for: the watchers are those of the tors that have bootstrapped, one for each; no
step but its own moves a watcher; at most one is connected to a tor; and no stream event
has been pushed into telemetry twice. -/
theorem apart_of_prompt (dataDir : Option String) (telemetry : HealthStatus) (ruleset : Ruleset)
    (now : ℕ) (s : Reporting) (g : List ℕ)
    (h : (reporting.watch noteBoots).Reach (fun p a => Prompt p.1 a)
      (.new dataDir telemetry ruleset now, []) (s, g)) :
    (s.watchers.map (·.tor) = g ∧ g.Pairwise (· < ·)) ∧
    (∀ a s', s.step a = some s' → ∀ j w, s.watchers[j]? = some w → a.watcher? ≠ some j →
      s'.watchers[j]? = some w) ∧
    (∀ tor, s.watchers.countP (·.place = .connected tor) ≤ 1) ∧ s.pushed.Nodup := by
  have hinv : Paired s g ∧ Delivered s := by
    refine h.invariant (I := fun p => Paired p.1 p.2 ∧ Delivered p.1) ⟨?_, ?_⟩ ?_
    · exact ⟨mutexOwned_nil rfl rfl, rfl, .nil, nofun, nofun, nofun⟩
    · exact ⟨.nil, nofun⟩
    · rintro ⟨s, g⟩ a ⟨s', g'⟩ ⟨hp, hd⟩ hg hs
      obtain ⟨hstep, hnote⟩ := Machine.watch_step.mp hs
      rw [hnote]
      exact ⟨hp.step hg hstep, hd.step hp hstep⟩
  refine ⟨⟨hinv.1.booted, hinv.1.increasing⟩, ?_, hinv.1.countP_le_one, ?_⟩
  · intro a s' hs j w hw ha
    exact getElem?_watchers_step hs hw ha
  · exact (List.nodup_append.mp hinv.2.once).1

/-- Call `i` starts tor `pid`. -/
def startTor (i pid : ℕ) : List ReportAction :=
  [.host (.controller .callEnable), .host (.controller (.step i .go)),
    .host (.controller (.step i (.identified (.printed "0\n")))),
    .host (.controller (.step i (.spawned (.spawned pid)))),
    .host (.controller (.step i (.tor (.line "Bootstrapped 100% (done): Done"))))]

/-- Call `i` disables, as far as the kill of tor. -/
def stopTor (i : ℕ) : List ReportAction :=
  [.host (.controller .callDisable),
    .host (.controller (.step i (.identified (.printed "0\n")))),
    .host (.controller (.step i (.nft .ok))), .host (.controller (.step i (.nft .ok))),
    .host (.controller (.step i .go)), .host (.controller (.step i .go))]

/-- Two tors, one after the other, each with its watcher, and an event of each. -/
theorem apart_restarted : ∃ (s : Reporting) (g : List ℕ), g = [1, 2] ∧ s.pushed = [0, 1] ∧
    s.watchers.map (·.tor) = g ∧ s.pushed.Nodup := by
  obtain ⟨⟨s, g⟩, hreach, hg, hpushed⟩ := Machine.exists_reach_of_exec
    (m := reporting.watch noteBoots) (G := fun p a => Prompt p.1 a)
    (s := (.new none {} [] 0, [])) (P := fun p => p.2 = [1, 2] ∧ p.1.pushed = [0, 1])
    (startTor 0 7 ++ [.connect 0, .event, .push 0] ++ stopTor 1 ++ .closed 0 :: startTor 2 8 ++
      [.connect 1, .event, .push 1]) (by decide)
  have hapart := apart_of_prompt none {} [] 0 s g hreach
  exact ⟨s, g, hg, hpushed, hapart.1.1, hapart.2.2.2⟩

/-- The first watcher is late: it finds the second tor, and so does the second; both push
its event. -/
theorem not_apart_late : ∃ s, reporting.Reach Machine.anyStep (.new none {} [] 0) s ∧
    s.watchers.countP (·.place = .connected 2) = 2 ∧ s.pushed = [0, 0] :=
  Machine.exists_reach_of_exec (m := reporting) (G := Machine.anyStep) (s := .new none {} [] 0)
    (P := fun s => s.watchers.countP (·.place = .connected 2) = 2 ∧ s.pushed = [0, 0])
    (startTor 0 7 ++ stopTor 1 ++ startTor 2 8 ++
      [.connect 0, .connect 1, .event, .push 0, .push 1]) (by decide)

end Anonet.Transparent
