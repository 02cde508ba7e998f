import Anonet.Leakguard.DnsResponses
import Anonet.Leakguard.DnsShimController
import Anonet.Library.Machine

/-!
# The DNS shim's tasks

`DnsShim::run` and the tasks it spawns, under `DnsShimController`: a listener binds
its socket and spawns a task for each datagram, and every such task keeps a
reference to the socket until it returns.  `stop` asks the runtime to cancel the
listener; it reaches none of the others.

* `Listener`, `ShimQuery` — the two kinds of tasks.
* `ShimState.Held` — some task keeps a socket on an address open.
* `shimming` — the machine of all interleavings of calls, tasks and datagrams.
* `ShimStep` — its steps as a relation; `shimStep_of_step` is the inversion lemma.
* `Numbered` — what the controller's record and count have to do with the listeners.
-/

namespace Anonet.Leakguard

open Net

/-! ## Tasks -/

/-- How a listener task ended. -/
inductive Ending
  | bindError
  | receiveError
  | cancelled
  deriving DecidableEq

/-- Where a listener task is. -/
inductive ListenerPc
  /-- It has no socket yet. -/
  | binding
  /-- In `recv_from`, or on the way back to it. -/
  | receiving
  | ended (how : Ending)
  deriving DecidableEq

/-- The task spawned by `start`. -/
structure Listener where
  addr : SocketAddr
  pc : ListenerPc
  /-- `stop` has called `abort`, which takes effect when the runtime next looks. -/
  aborted : Bool
  deriving DecidableEq

/-- Still binding or serving. -/
def Listener.Alive (l : Listener) : Prop := l.pc = .binding ∨ l.pc = .receiving

instance (l : Listener) : Decidable l.Alive := inferInstanceAs (Decidable (_ ∨ _))

/-- The task spawned for one datagram. -/
structure ShimQuery where
  /-- Whose socket it keeps a reference to. -/
  listener : ℕ
  request : List UInt8
  peer : SocketAddr
  returned : Bool
  deriving DecidableEq

/-- A response, by the listener whose socket it was sent from. -/
structure Sent where
  listener : ℕ
  peer : SocketAddr
  response : List UInt8
  deriving DecidableEq

/-- Listener tasks are named by their place in `listeners`, as the controller counts
them; `sent` has the latest response first. -/
structure ShimState where
  controller : DnsShimController
  listeners : List Listener
  queries : List ShimQuery
  sent : List Sent

inductive ShimAction
  | start (addr : SocketAddr)
  | stop
  /-- Listener `i` binds; `granted` unless someone outside the program objects. -/
  | bind (i : ℕ) (granted : Bool)
  | receive (i : ℕ) (peer : SocketAddr) (datagram : List UInt8)
  | receiveError (i : ℕ)
  /-- The runtime drops the aborted listener `i`. -/
  | cancel (i : ℕ)
  /-- Query `q` runs to its end; `resolved` is what Tor answers, if asked. -/
  | answer (q : ℕ) (resolved : Except String (List IpAddr)) (sendOk : Bool)

namespace ShimState

def new : ShimState := ⟨.new, [], [], []⟩

/-- Some task keeps a socket on `addr` open: the listener that bound it, or a query
that has not returned. -/
def Held (s : ShimState) (addr : SocketAddr) : Prop :=
  (∃ l ∈ s.listeners, l.addr = addr ∧ l.pc = .receiving) ∨
    ∃ q ∈ s.queries, q.returned = false ∧ ∃ l ∈ s.listeners[q.listener]?, l.addr = addr

instance (s : ShimState) (addr : SocketAddr) : Decidable (s.Held addr) :=
  inferInstanceAs (Decidable (_ ∨ _))

/-- Listener `i`, which is `l`, goes on to `pc`. -/
def move (s : ShimState) (i : ℕ) (l : Listener) (pc : ListenerPc) : ShimState :=
  { s with listeners := s.listeners.set i { l with pc := pc } }

/-- `handle.abort()`. -/
def abort (s : ShimState) (i : ℕ) : ShimState :=
  match s.listeners[i]? with
  | some l => { s with listeners := s.listeners.set i { l with aborted := true } }
  | none => s

def start (s : ShimState) (addr : SocketAddr) : ShimState :=
  match s.controller.start addr with
  | (.ok _, controller) =>
    { s with controller := controller, listeners := s.listeners ++ [⟨addr, .binding, false⟩] }
  | (.error _, controller) => { s with controller := controller }

def stop (s : ShimState) : ShimState :=
  match s.controller.running with
  | some (_, i) => { s.abort i with controller := s.controller.stop.2 }
  | none => { s with controller := s.controller.stop.2 }

/-- Listener `i` spawns a task for a datagram. -/
def spawnQuery (s : ShimState) (i : ℕ) (peer : SocketAddr) (datagram : List UInt8) : ShimState :=
  { s with queries := s.queries ++ [⟨i, received datagram, peer, false⟩] }

/-- Query `i`, which is `q`, has handled its request. -/
def finish (s : ShimState) (i : ℕ) (q : ShimQuery) (response : Option (List UInt8)) : ShimState :=
  { s with
    queries := s.queries.set i { q with returned := true }
    sent := (response.map fun response => ⟨q.listener, q.peer, response⟩).toList ++ s.sent }

def step (s : ShimState) : ShimAction → Option ShimState
  | .start addr => some (s.start addr)
  | .stop => some s.stop
  | .bind i granted => do
    let l ← s.listeners[i]?
    if l.pc = .binding then
      if granted = true ∧ ¬ s.Held l.addr then some (s.move i l .receiving)
      else some (s.move i l (.ended .bindError))
    else none
  | .receive i peer datagram => do
    let l ← s.listeners[i]?
    if l.pc = .receiving then some (s.spawnQuery i peer datagram) else none
  | .receiveError i => do
    let l ← s.listeners[i]?
    if l.pc = .receiving then some (s.move i l (.ended .receiveError)) else none
  | .cancel i => do
    let l ← s.listeners[i]?
    if l.aborted = true ∧ l.Alive then some (s.move i l (.ended .cancelled)) else none
  | .answer i resolved sendOk => do
    let q ← s.queries[i]?
    if q.returned then none
    else
      let response := handleQuery (fun _ => resolved) q.request
      some (s.finish i q (if sendOk then response else none))

end ShimState

/-- All interleavings of `start` and `stop` with the tasks. -/
def shimming : Machine ShimState ShimAction where
  step := ShimState.step

/-- `127.0.0.1:5353`. -/
def shimAddr : SocketAddr := .v4 .localhost 5353

/-! ## What one step does -/

inductive ShimStep (s : ShimState) : ShimAction → ShimState → Prop
  | start {addr : SocketAddr} (hnone : s.controller.running = none) :
      ShimStep s (.start addr) { s with
        controller := ⟨some (addr, s.controller.spawned), s.controller.spawned + 1⟩
        listeners := s.listeners ++ [⟨addr, .binding, false⟩] }
  | refused {addr : SocketAddr} {r : SocketAddr × ℕ} (hsome : s.controller.running = some r) :
      ShimStep s (.start addr) s
  | stop {addr : SocketAddr} {i : ℕ} {l : Listener} (hrun : s.controller.running = some (addr, i))
      (hl : s.listeners[i]? = some l) :
      ShimStep s .stop { s with
        controller := ⟨none, s.controller.spawned⟩
        listeners := s.listeners.set i { l with aborted := true } }
  | noStop (hrun : ∀ addr i l, s.controller.running = some (addr, i) → s.listeners[i]? ≠ some l) :
      ShimStep s .stop { s with controller := ⟨none, s.controller.spawned⟩ }
  | bound {i : ℕ} {l : Listener} (hl : s.listeners[i]? = some l) (hpc : l.pc = .binding)
      (hfree : ¬ s.Held l.addr) : ShimStep s (.bind i true) (s.move i l .receiving)
  | notBound {i : ℕ} {l : Listener} {granted : Bool} (hl : s.listeners[i]? = some l)
      (hpc : l.pc = .binding) (hheld : granted = true → s.Held l.addr) :
      ShimStep s (.bind i granted) (s.move i l (.ended .bindError))
  | receive {i : ℕ} {l : Listener} {peer : SocketAddr} {datagram : List UInt8}
      (hl : s.listeners[i]? = some l) (hpc : l.pc = .receiving) :
      ShimStep s (.receive i peer datagram) (s.spawnQuery i peer datagram)
  | receiveError {i : ℕ} {l : Listener} (hl : s.listeners[i]? = some l) (hpc : l.pc = .receiving) :
      ShimStep s (.receiveError i) (s.move i l (.ended .receiveError))
  | cancel {i : ℕ} {l : Listener} (hl : s.listeners[i]? = some l) (haborted : l.aborted = true)
      (halive : l.Alive) : ShimStep s (.cancel i) (s.move i l (.ended .cancelled))
  | answer {i : ℕ} {q : ShimQuery} {resolved : Except String (List IpAddr)} {sendOk : Bool}
      (hq : s.queries[i]? = some q) (hrun : q.returned = false) :
      ShimStep s (.answer i resolved sendOk)
        (s.finish i q (if sendOk then handleQuery (fun _ => resolved) q.request else none))

section Inversion

variable {s s' : ShimState} {a : ShimAction}

theorem shimStep_of_step (h : s.step a = some s') : ShimStep s a s' := by
  cases a with
  | start addr =>
    obtain rfl := Option.some.inj h
    unfold ShimState.start DnsShimController.start
    cases hrun : s.controller.running with
    | none => exact .start hrun
    | some r => exact .refused hrun
  | stop =>
    obtain rfl := Option.some.inj h
    unfold ShimState.stop ShimState.abort DnsShimController.stop
    cases hrun : s.controller.running with
    | none => exact .noStop (by simp [hrun])
    | some r =>
      obtain ⟨addr, i⟩ := r
      cases hl : s.listeners[i]? with
      | none =>
        simp only [hl]
        refine .noStop ?_
        intro addr' i' l hrun'
        cases hrun.symm.trans hrun'
        rw [hl]
        exact Option.some_ne_none l |>.symm
      | some l =>
        simp only [hl]
        exact .stop hrun hl
  | bind i granted =>
    simp only [ShimState.step, Option.bind_eq_bind, Option.bind_eq_some_iff] at h
    obtain ⟨l, hl, h⟩ := h
    split at h
    · rename_i hpc
      split at h <;> obtain rfl := Option.some.inj h
      · rename_i hfree
        obtain ⟨rfl, hfree⟩ := hfree
        exact .bound hl hpc hfree
      · rename_i hnot
        exact .notBound hl hpc fun hgranted => not_not.mp fun hfree => hnot ⟨hgranted, hfree⟩
    · cases h
  | receive i peer datagram =>
    simp only [ShimState.step, Option.bind_eq_bind, Option.bind_eq_some_iff] at h
    obtain ⟨l, hl, h⟩ := h
    split at h
    · rename_i hpc
      obtain rfl := Option.some.inj h
      exact .receive hl hpc
    · cases h
  | receiveError i =>
    simp only [ShimState.step, Option.bind_eq_bind, Option.bind_eq_some_iff] at h
    obtain ⟨l, hl, h⟩ := h
    split at h
    · rename_i hpc
      obtain rfl := Option.some.inj h
      exact .receiveError hl hpc
    · cases h
  | cancel i =>
    simp only [ShimState.step, Option.bind_eq_bind, Option.bind_eq_some_iff] at h
    obtain ⟨l, hl, h⟩ := h
    split at h
    · rename_i hcancel
      obtain rfl := Option.some.inj h
      exact .cancel hl hcancel.1 hcancel.2
    · cases h
  | answer i resolved sendOk =>
    simp only [ShimState.step, Option.bind_eq_bind, Option.bind_eq_some_iff] at h
    obtain ⟨q, hq, h⟩ := h
    split at h
    · cases h
    · rename_i hrun
      obtain rfl := Option.some.inj h
      exact .answer hq (Bool.not_eq_true _ ▸ hrun)

end Inversion

/-! ## The record -/

/-- The controller counts the listeners; the one it has recorded was spawned last, and
has not been stopped. -/
structure Numbered (s : ShimState) : Prop where
  spawned : s.controller.spawned = s.listeners.length
  recorded : ∀ addr i, s.controller.running = some (addr, i) → i + 1 = s.listeners.length ∧
    ∃ l, s.listeners[i]? = some l ∧ l.addr = addr ∧ l.aborted = false

section Numbered

variable {s s' : ShimState} {a : ShimAction} {i : ℕ} {l : Listener}

theorem numbered_new : Numbered .new := ⟨rfl, nofun⟩

/-- A listener that goes on keeps its number. -/
theorem Numbered.move (h : Numbered s) (hl : s.listeners[i]? = some l) (pc : ListenerPc) :
    Numbered (s.move i l pc) := by
  have hlength : (s.listeners.set i { l with pc := pc }).length = s.listeners.length :=
    List.length_set
  refine ⟨h.spawned.trans hlength.symm, ?_⟩
  intro addr j hrun
  obtain ⟨hj, l', hl', haddr, haborted⟩ := h.recorded addr j hrun
  refine ⟨hj.trans hlength.symm, ?_⟩
  by_cases hij : i = j
  · subst hij
    obtain rfl := Option.some.inj (hl.symm.trans hl')
    exact ⟨_, Machine.getElem?_set_self_of_some hl, haddr, haborted⟩
  · exact ⟨l', (List.getElem?_set_ne hij).trans hl', haddr, haborted⟩

/-- **The step lemma.** -/
theorem Numbered.step (h : Numbered s) (hs : s.step a = some s') : Numbered s' := by
  cases shimStep_of_step hs with
  | @start addr hnone =>
    have hlength : (s.listeners ++ [(⟨addr, .binding, false⟩ : Listener)]).length =
        s.listeners.length + 1 := List.length_append
    refine ⟨(congrArg (· + 1) h.spawned).trans hlength.symm, ?_⟩
    intro addr' i hrun
    cases hrun
    refine ⟨(congrArg (· + 1) h.spawned).trans hlength.symm, ⟨addr, .binding, false⟩, ?_, rfl, rfl⟩
    show (s.listeners ++ [_])[s.controller.spawned]? = _
    rw [h.spawned]
    exact List.getElem?_concat_length
  | refused hsome => exact h
  | stop hrun hl => exact ⟨h.spawned.trans List.length_set.symm, nofun⟩
  | noStop hrun => exact ⟨h.spawned, nofun⟩
  | bound hl hpc hfree => exact h.move hl _
  | notBound hl hpc hheld => exact h.move hl _
  | receive hl hpc => exact ⟨h.spawned, h.recorded⟩
  | receiveError hl hpc => exact h.move hl _
  | cancel hl haborted halive => exact h.move hl _
  | answer hq hrun => exact ⟨h.spawned, h.recorded⟩

end Numbered

end Anonet.Leakguard
