import Anonet.Leakguard.DnsShimTask

/-!
# When the DNS shim lets go of its socket

`stop` drops the listener's reference to the socket.  Each query in flight has one of
its own, so the socket closes, and the address is free again, only when the last of
them has returned.

* `Quiet` — `stop` is called when no query is in flight, and the listener takes no
  further datagram until it is gone.
* `Silent` — no response is sent from the socket of a stopped listener.
* `Rebinds` — a new listener gets its address, once those that were stopped are gone.
* `released_iff` — **in a quiet run both hold in every state**, and a `stop` that is
  not quiet may break them.
-/

namespace Anonet.Leakguard

open Net

/-- The listener is called off only when none of its queries is in flight, and takes
no datagram afterwards. -/
def Quiet (s : ShimState) (a : ShimAction) : Prop :=
  match a with
  | .stop => ∀ r ∈ s.controller.running, ∀ q ∈ s.queries, q.listener = r.2 → q.returned = true
  | .receive i _ _ => ∀ l ∈ s.listeners[i]?, l.aborted = false
  | _ => True

instance (s : ShimState) (a : ShimAction) : Decidable (Quiet s a) :=
  match a with
  | .stop => inferInstanceAs (Decidable
      (∀ r ∈ s.controller.running, ∀ q ∈ s.queries, q.listener = r.2 → q.returned = true))
  | .receive i _ _ => inferInstanceAs (Decidable (∀ l ∈ s.listeners[i]?, l.aborted = false))
  | .start _ | .bind _ _ | .receiveError _ | .cancel _ | .answer _ _ _ =>
    inferInstanceAs (Decidable True)

/-- What the next step sends, it does not send from the socket of a listener that has
been stopped. -/
def Silent (s : ShimState) : Prop :=
  ∀ a s', s.step a = some s' →
    s'.sent = s.sent ∨
      ∃ d, s'.sent = d :: s.sent ∧ ∃ l ∈ s.listeners[d.listener]?, l.aborted = false

/-- If every listener that was stopped is gone and nobody outside the program objects,
then a listener that binds next gets its socket. -/
def Rebinds (s : ShimState) : Prop :=
  ∀ i l s', s.listeners[i]? = some l → l.aborted = false →
    (∀ l' ∈ s.listeners, l'.aborted = true → ¬ l'.Alive) →
    s.step (.bind i true) = some s' → ∃ l' ∈ s'.listeners[i]?, l'.pc = .receiving

/-! ## Quiet runs -/

/-- All listeners but the recorded one have been stopped, and only a listener that has
not been stopped has queries in flight. -/
structure LetsGo (s : ShimState) : Prop where
  stopped : ∀ i l, s.listeners[i]? = some l →
    (∀ addr, s.controller.running ≠ some (addr, i)) → l.aborted = true
  inFlight : ∀ q ∈ s.queries, q.returned = false →
    ∃ l, s.listeners[q.listener]? = some l ∧ l.aborted = false ∧ l.pc ≠ .binding

section LetsGo

variable {s s' : ShimState} {a : ShimAction} {i : ℕ} {l : Listener} {pc : ListenerPc}

/-- A listener goes on, and not back. -/
theorem LetsGo.move (h : LetsGo s) (hl : s.listeners[i]? = some l) (hpc : pc ≠ .binding) :
    LetsGo (s.move i l pc) := by
  refine ⟨?_, ?_⟩
  · intro j l' hl' hother
    rcases Machine.getElem?_set_cases hl' with ⟨-, hl'⟩ | ⟨rfl, rfl⟩
    · exact h.stopped j l' hl' hother
    · exact h.stopped j l hl hother
  · intro q hq hrun
    obtain ⟨l', hl', haborted, hbound⟩ := h.inFlight q hq hrun
    by_cases hij : i = q.listener
    · subst hij
      obtain rfl := Option.some.inj (hl.symm.trans hl')
      exact ⟨_, Machine.getElem?_set_self_of_some hl, haborted, hpc⟩
    · exact ⟨l', (List.getElem?_set_ne hij).trans hl', haborted, hbound⟩

/-- **The step lemma.** -/
theorem LetsGo.step (h : LetsGo s) (hn : Numbered s) (ha : Quiet s a)
    (hs : s.step a = some s') : LetsGo s' := by
  cases shimStep_of_step hs with
  | @start addr hnone =>
    have hstopped : ∀ (j : ℕ) (l : Listener), s.listeners[j]? = some l → l.aborted = true :=
      fun j l hl => h.stopped j l hl (by simp [hnone])
    refine ⟨?_, ?_⟩
    · intro j l hl hother
      rcases Machine.getElem?_concat_cases hl with hl | ⟨rfl, rfl⟩
      · exact hstopped j l hl
      · exact absurd (congrArg (fun n => some (addr, n)) hn.spawned) (hother addr)
    · intro q hq hrun
      obtain ⟨l, hl, haborted, -⟩ := h.inFlight q hq hrun
      rw [hstopped _ l hl] at haborted
      cases haborted
  | refused hsome => exact h
  | @stop addr i l hrun hl =>
    refine ⟨?_, ?_⟩
    · intro j l' hl' _
      rcases Machine.getElem?_set_cases hl' with ⟨hji, hl'⟩ | ⟨-, rfl⟩
      · refine h.stopped j l' hl' ?_
        intro addr' hrun'
        cases hrun.symm.trans hrun'
        exact hji rfl
      · rfl
    · intro q hq hinFlight
      obtain ⟨l', hl', haborted, hbound⟩ := h.inFlight q hq hinFlight
      have hij : i ≠ q.listener := by
        intro hij
        rw [ha (addr, i) hrun q hq hij.symm] at hinFlight
        cases hinFlight
      exact ⟨l', (List.getElem?_set_ne hij).trans hl', haborted, hbound⟩
  | noStop hrun =>
    have hnone : ∀ addr j, s.controller.running ≠ some (addr, j) := by
      intro addr j hsome
      obtain ⟨-, l, hl, -⟩ := hn.recorded addr j hsome
      exact hrun addr j l hsome hl
    exact ⟨fun j l hl _ => h.stopped j l hl fun addr => hnone addr j, h.inFlight⟩
  | bound hl hpc hfree => exact h.move hl ListenerPc.noConfusion
  | notBound hl hpc hheld => exact h.move hl ListenerPc.noConfusion
  | @receive i l peer datagram hl hpc =>
    refine ⟨h.stopped, ?_⟩
    intro q hq hrun
    rcases List.mem_append.mp hq with hq | hq
    · exact h.inFlight q hq hrun
    · obtain rfl := List.mem_singleton.mp hq
      refine ⟨l, hl, ha l hl, ?_⟩
      rw [hpc]
      exact ListenerPc.noConfusion
  | receiveError hl hpc => exact h.move hl ListenerPc.noConfusion
  | cancel hl haborted halive => exact h.move hl ListenerPc.noConfusion
  | @answer i q resolved sendOk hq hrun =>
    refine ⟨h.stopped, ?_⟩
    intro q' hq' hrun'
    rcases List.mem_or_eq_of_mem_set hq' with hq' | rfl
    · exact h.inFlight q' hq' hrun'
    · cases hrun'

/-- Only queries send. -/
theorem LetsGo.silent (h : LetsGo s) : Silent s := by
  intro a s' hs
  cases shimStep_of_step hs with
  | @answer i q resolved sendOk hq hrun =>
    generalize (if sendOk then handleQuery (fun _ => resolved) q.request else none) = response
    cases response with
    | none => exact .inl rfl
    | some response =>
      obtain ⟨l, hl, haborted, -⟩ := h.inFlight q (List.mem_of_getElem? hq) hrun
      exact .inr ⟨⟨q.listener, q.peer, response⟩, rfl, l, hl, haborted⟩
  | _ => exact .inl rfl

/-- There is one listener that has not been stopped, at most. -/
theorem LetsGo.eq_of_not_aborted (h : LetsGo s) {j : ℕ} {l' : Listener}
    (hl : s.listeners[i]? = some l) (haborted : l.aborted = false)
    (hl' : s.listeners[j]? = some l') (haborted' : l'.aborted = false) : i = j := by
  have hrun : ∀ (k : ℕ) (m : Listener), s.listeners[k]? = some m → m.aborted = false →
      ∃ addr, s.controller.running = some (addr, k) := by
    intro k m hm hkept
    by_contra hnot
    rw [h.stopped k m hm fun addr hsome => hnot ⟨addr, hsome⟩] at hkept
    cases hkept
  obtain ⟨addr, hi⟩ := hrun i l hl haborted
  obtain ⟨addr', hj⟩ := hrun j l' hl' haborted'
  exact congrArg Prod.snd (Option.some.inj (hi.symm.trans hj))

/-- The one that is about to bind finds no socket open. -/
theorem LetsGo.not_held (h : LetsGo s) (hl : s.listeners[i]? = some l) (haborted : l.aborted = false)
    (hpc : l.pc = .binding) (hgone : ∀ l' ∈ s.listeners, l'.aborted = true → ¬ l'.Alive)
    (addr : SocketAddr) : ¬ s.Held addr := by
  rintro (⟨l', hl', -, hpc'⟩ | ⟨q, hq, hrun, -⟩)
  · cases haborted' : l'.aborted with
    | true => exact hgone l' hl' haborted' (.inr hpc')
    | false =>
      obtain ⟨j, hj⟩ := List.mem_iff_getElem?.mp hl'
      obtain rfl := h.eq_of_not_aborted hl haborted hj haborted'
      cases hl.symm.trans hj
      rw [hpc] at hpc'
      cases hpc'
  · obtain ⟨l', hl', haborted', hbound⟩ := h.inFlight q hq hrun
    obtain rfl := h.eq_of_not_aborted hl haborted hl' haborted'
    cases hl.symm.trans hl'
    exact hbound hpc

theorem LetsGo.rebinds (h : LetsGo s) : Rebinds s := by
  intro i l s' hl haborted hgone hs
  cases shimStep_of_step hs with
  | bound hl' hpc hfree => exact ⟨_, Machine.getElem?_set_self_of_some hl', rfl⟩
  | notBound hl' hpc hheld =>
    cases hl.symm.trans hl'
    exact absurd (hheld rfl) (h.not_held hl haborted hpc hgone l.addr)

end LetsGo

/-! ## Queries in flight -/

section InFlight

variable {s : ShimState} {i : ℕ} {q : ShimQuery} {l : Listener}

/-- A query in flight keeps its listener's address from any other. -/
theorem not_rebinds_of_inFlight (hq : q ∈ s.queries) (hrun : q.returned = false)
    (hl : s.listeners[q.listener]? = some l) {l' : Listener} (hl' : s.listeners[i]? = some l')
    (hpc : l'.pc = .binding) (haddr : l'.addr = l.addr) (haborted : l'.aborted = false)
    (hgone : ∀ m ∈ s.listeners, m.aborted = true → ¬ m.Alive) : ¬ Rebinds s := by
  intro hrebinds
  have hheld : s.Held l'.addr := .inr ⟨q, hq, hrun, l, hl, haddr.symm⟩
  have hstep : s.step (.bind i true) = some (s.move i l' (.ended .bindError)) := by
    simp [ShimState.step, hl', hpc, hheld]
  obtain ⟨m, hm, hreceiving⟩ := hrebinds i l' _ hl' haborted hgone hstep
  have hended : (s.move i l' (.ended .bindError)).listeners[i]? = some { l' with
      pc := .ended .bindError } := Machine.getElem?_set_self_of_some hl'
  cases hended.symm.trans hm
  cases hreceiving

/-- A query in flight answers from the socket of a listener that was stopped. -/
theorem not_silent_of_inFlight (hq : s.queries[i]? = some q) (hrun : q.returned = false)
    (hl : s.listeners[q.listener]? = some l) (haborted : l.aborted = true)
    {resolved : Except String (List IpAddr)} {response : List UInt8}
    (hresponse : handleQuery (fun _ => resolved) q.request = some response) : ¬ Silent s := by
  intro hsilent
  have hstep : s.step (.answer i resolved true) = some (s.finish i q (some response)) := by
    simp [ShimState.step, hq, hrun, hresponse]
  have hsent : (s.finish i q (some response)).sent = ⟨q.listener, q.peer, response⟩ :: s.sent := rfl
  rcases hsilent _ _ hstep with heq | ⟨d, hd, m, hm, hkept⟩
  · exact absurd (congrArg List.length (hsent.symm.trans heq)) (by simp)
  · obtain rfl := (List.cons.inj (hsent.symm.trans hd)).1
    cases hl.symm.trans hm
    rw [haborted] at hkept
    cases hkept

end InFlight

/-! ## Runs -/

section Runs

variable {s : ShimState}

/-- In every quiet run. -/
theorem letsGo_of_quiet (h : shimming.Reach Quiet .new s) : LetsGo s := by
  have hinv : Numbered s ∧ LetsGo s := by
    refine h.invariant (I := fun s => Numbered s ∧ LetsGo s) ⟨numbered_new, ?_, ?_⟩ ?_
    · intro i l hl
      exact absurd hl (by simp [ShimState.new])
    · intro q hq
      exact absurd hq (by simp [ShimState.new])
    · intro s a s' hi ha hs
      exact ⟨hi.1.step hs, hi.2.step hi.1 ha hs⟩
  exact hinv.2

/-- Stopped, and not gone yet. -/
def Listener.pending (l : Listener) : Bool := l.aborted && decide l.Alive

/-- The runtime may drop every listener that was stopped before anything else happens. -/
theorem exists_gone (s : ShimState) : ∃ s', shimming.Reach Quiet s s' ∧
    s'.controller = s.controller ∧ s'.queries = s.queries ∧
    s'.listeners.map (·.addr) = s.listeners.map (·.addr) ∧
    ∀ l ∈ s'.listeners, l.aborted = true → ¬ l.Alive := by
  induction hn : s.listeners.countP Listener.pending generalizing s with
  | zero =>
    refine ⟨s, .init, rfl, rfl, rfl, ?_⟩
    intro l hl haborted halive
    have hnone := List.countP_eq_zero.mp hn l hl
    simp [Listener.pending, haborted, halive] at hnone
  | succ n ih =>
    obtain ⟨l, hl, hpending⟩ := List.countP_pos_iff.mp (Nat.lt_of_lt_of_eq n.succ_pos hn.symm)
    obtain ⟨i, hi⟩ := List.mem_iff_getElem?.mp hl
    have hcancel : l.aborted = true ∧ l.Alive := by simpa [Listener.pending] using hpending
    have hquiet : Quiet s (.cancel i) := trivial
    have hstep : shimming.step s (.cancel i) = some (s.move i l (.ended .cancelled)) := by
      simp [shimming, ShimState.step, hi, hcancel]
    have hcount : (s.move i l (.ended .cancelled)).listeners.countP Listener.pending = n := by
      have hset := Machine.countP_set_add (p := Listener.pending)
        (a := { l with pc := .ended .cancelled }) hi
      have hgone : Listener.pending { l with pc := .ended .cancelled } = false := by
        simp [Listener.pending, Listener.Alive]
      rw [hpending, hgone, hn] at hset
      exact Nat.succ.inj hset
    obtain ⟨s', hreach, hcontroller, hqueries, haddrs, hgone⟩ := ih _ hcount
    refine ⟨s', .trans (.step .init hquiet hstep) hreach, hcontroller, hqueries, ?_, hgone⟩
    rw [haddrs]
    show (s.listeners.set i _).map _ = _
    obtain ⟨hlt, hget⟩ := List.getElem?_eq_some_iff.mp hi
    rw [List.map_set]
    refine (congrArg _ ?_).trans (List.set_getElem_self (by rwa [List.length_map]))
    rw [List.getElem_map, hget]

/-- Where a query was in flight, the address may turn out to be taken. -/
theorem exists_not_rebinds {l : Listener} {q : ShimQuery}
    (hrun : s.controller.running = none) (hq : q ∈ s.queries) (hinFlight : q.returned = false)
    (hl : s.listeners[q.listener]? = some l) :
    ∃ s', shimming.Reach Quiet s s' ∧ ¬ Rebinds s' := by
  obtain ⟨t, hreach, hcontroller, hqueries, haddrs, hgone⟩ := exists_gone s
  have haddr : (t.listeners.map (·.addr))[q.listener]? = some l.addr := by
    rw [haddrs, List.getElem?_map, hl]
    rfl
  rw [List.getElem?_map] at haddr
  obtain ⟨l', hl', haddr'⟩ := Option.map_eq_some_iff.mp haddr
  have hnone : t.controller.running = none := hcontroller ▸ hrun
  have hquiet : Quiet t (.start l.addr) := trivial
  refine ⟨t.start l.addr, .step hreach hquiet rfl, ?_⟩
  have hstart : (t.start l.addr).listeners = t.listeners ++ [⟨l.addr, .binding, false⟩] ∧
      (t.start l.addr).queries = t.queries := by
    simp [ShimState.start, DnsShimController.start, hnone]
  have hold : (t.start l.addr).listeners[q.listener]? = some l' := by
    rw [hstart.1, List.getElem?_append_left (List.getElem?_eq_some_iff.mp hl').1]
    exact hl'
  have hnew : (t.start l.addr).listeners[t.listeners.length]? = some ⟨l.addr, .binding, false⟩ := by
    rw [hstart.1]
    exact List.getElem?_concat_length
  refine not_rebinds_of_inFlight (by rw [hstart.2, hqueries]; exact hq) hinFlight hold hnew rfl
    haddr'.symm rfl ?_
  intro m hm haborted
  rw [hstart.1] at hm
  rcases List.mem_append.mp hm with hm | hm
  · exact hgone m hm haborted
  · obtain rfl := List.mem_singleton.mp hm
    cases haborted

end Runs

/-- **A quiet `stop` releases the socket, and no other does.**  In every run of calls,
tasks and datagrams in which `stop` finds no query of the listener in flight and the
listener takes no datagram between `stop` and its end: no response is sent from the
socket of a listener that was stopped, and a listener that binds once those are gone
gets its address, whatever it is, unless someone outside the program objects.  And
this stays so after one more `stop` only if that finds no query in flight. -/
theorem released_iff (s : ShimState) (h : shimming.Reach Quiet .new s) :
    (Silent s ∧ Rebinds s) ∧ ∀ addr i, s.controller.running = some (addr, i) →
      ((∀ s', shimming.Reach Quiet s.stop s' → Silent s' ∧ Rebinds s') ↔
        ∀ q ∈ s.queries, q.listener = i → q.returned = true) := by
  have hlets := letsGo_of_quiet h
  refine ⟨⟨hlets.silent, hlets.rebinds⟩, ?_⟩
  intro addr i hrun
  constructor
  · intro hall q hq hqi
    by_contra hreturned
    have hinFlight : q.returned = false := Bool.not_eq_true _ ▸ hreturned
    obtain ⟨l, hl, -⟩ := hlets.inFlight q hq hinFlight
    have hstop : s.stop = { s with
        controller := ⟨none, s.controller.spawned⟩
        listeners := s.listeners.set i { l with aborted := true } } := by
      subst hqi
      simp [ShimState.stop, ShimState.abort, DnsShimController.stop, hrun, hl]
    have hl' : s.stop.listeners[q.listener]? = some { l with aborted := true } := by
      rw [hstop, hqi]
      exact Machine.getElem?_set_self_of_some (hqi ▸ hl)
    obtain ⟨s', hreach, hnot⟩ := exists_not_rebinds (s := s.stop) (by rw [hstop])
      (by rw [hstop]; exact hq) hinFlight hl'
    exact hnot (hall s' hreach).2
  · intro hnone s' hreach
    have hquiet : Quiet s .stop := by
      intro r hr q hq hqr
      cases hrun.symm.trans hr
      exact hnone q hq hqr
    have hs' := letsGo_of_quiet (.trans (.step h hquiet rfl) hreach)
    exact ⟨hs'.silent, hs'.rebinds⟩

def clientAddr : SocketAddr := .v4 .localhost 40000

/-- What a client asks. -/
def question : List UInt8 := (ofA QTYPE_A).request

/-- The query is answered before the shim is stopped and started again. -/
theorem released_answered :
    ∃ s, s.sent.length = 1 ∧ s.listeners.length = 2 ∧ Silent s ∧ Rebinds s := by
  obtain ⟨s, hreach, hsent, hlisteners⟩ := Machine.exists_reach_of_exec
    (m := shimming) (G := Quiet) (s := ShimState.new)
    (P := fun s => s.sent.length = 1 ∧ s.listeners.length = 2)
    [.start shimAddr, .bind 0 true, .receive 0 clientAddr question, .answer 0 (.ok []) true, .stop,
      .cancel 0, .start shimAddr] (by decide +kernel)
  exact ⟨s, hsent, hlisteners, (released_iff s hreach).1⟩

/-- The shim is stopped and started again while a query is in flight. -/
theorem not_released_inFlight :
    ∃ s, shimming.Reach Machine.anyStep .new s ∧
      s.listeners = [⟨shimAddr, .ended .cancelled, true⟩, ⟨shimAddr, .binding, false⟩] ∧
      ¬ Silent s ∧ ¬ Rebinds s := by
  obtain ⟨s, hreach, hlisteners, hqueries⟩ := Machine.exists_reach_of_exec
    (m := shimming) (G := Machine.anyStep) (s := ShimState.new)
    (P := fun s =>
      s.listeners = [⟨shimAddr, .ended .cancelled, true⟩, ⟨shimAddr, .binding, false⟩] ∧
      s.queries = [⟨0, question, clientAddr, false⟩])
    [.start shimAddr, .bind 0 true, .receive 0 clientAddr question, .stop, .cancel 0,
      .start shimAddr] (by decide)
  have hq : s.queries[0]? = some ⟨0, question, clientAddr, false⟩ := by rw [hqueries]; rfl
  have hl : s.listeners[0]? = some ⟨shimAddr, .ended .cancelled, true⟩ := by rw [hlisteners]; rfl
  have hl' : s.listeners[1]? = some ⟨shimAddr, .binding, false⟩ := by rw [hlisteners]; rfl
  refine ⟨s, hreach, hlisteners, ?_, ?_⟩
  · exact not_silent_of_inFlight hq rfl hl rfl
      ((ofA QTYPE_A).asks_request.handleQuery fun _ => .ok [])
  · refine not_rebinds_of_inFlight (List.mem_of_getElem? hq) rfl hl hl' rfl rfl rfl ?_
    rw [hlisteners]
    decide

end Anonet.Leakguard
