import Anonet.Leakguard.DnsShimTask
import Anonet.Telemetry.HealthStatus

/-!
# The status snapshot

`cli/src/status_server.rs`: the text `anonet status` prints.  Its line about the DNS
shim is what `DnsShimController` has recorded, and the record is written by the
callers of `start` and `stop`, not by the task it is about.

* `formatStatus` — the text.
* `Truthful` — the record, and with it the text, is right about the task.
* `noteFailure` — a history variable: has the recorded task's `bind` or `recv_from`
  failed since the last `stop`?
* `truthful_iff` — **the record is right exactly while it has not.**
-/

namespace Anonet.Cli

open Leakguard Net Telemetry

/-! ## The text -/

def formatStatus (socksAddr : SocketAddr) (health : HealthStatus)
    (dnsAddr : Option SocketAddr) : String :=
  let dnsShim := (dnsAddr.map toString).getD "stopped"
  let activeBridge := health.activeBridgeLine.getD "none (direct connection)"
  let lastError := (health.lastError.map (·.2)).getD "none"
  let fullAnon := if health.transparentEnabled then "running" else "stopped"
  "socks_listening: " ++ toString socksAddr ++ "\n" ++
  "socks_connections_active: " ++ toString health.socksConnectionsActive ++ "\n" ++
  "socks_connections_total: " ++ toString health.socksConnectionsTotal ++ "\n" ++
  "dns_shim: " ++ dnsShim ++ "\n" ++
  "active_bridge: " ++ activeBridge ++ "\n" ++
  "bridge_candidates: " ++ toString health.candidates.length ++ "\n" ++
  "consecutive_failures: " ++ toString health.consecutiveFailures ++ "\n" ++
  "total_bridge_switches: " ++ toString health.totalSwitches ++ "\n" ++
  "full_anonymization: " ++ fullAnon ++ "\n" ++
  "last_error: " ++ lastError ++ "\n"

/-! ## Record and truth -/

/-- The record names an address only while the task it was made for is binding or
serving there; once the task that was spawned last has ended, nothing is recorded
and `start` is accepted; and the status text is that of a stopped shim unless a task
is binding or serving. -/
structure Truthful (s : ShimState) : Prop where
  alive : ∀ addr i, s.controller.running = some (addr, i) →
    ∃ l ∈ s.listeners[i]?, l.addr = addr ∧ l.Alive
  startable : ∀ l ∈ s.listeners.getLast?, ¬ l.Alive →
    s.controller.boundAddr = none ∧ ∀ addr, (s.controller.start addr).1 = .ok ()
  shown : ∀ socksAddr health, formatStatus socksAddr health s.controller.boundAddr ≠
    formatStatus socksAddr health none → ∃ l ∈ s.listeners, l.Alive

/-- The action makes listener `i` fail: it is refused its address, or the system
reports an error on its socket. -/
def Fails (s : ShimState) (i : ℕ) : ShimAction → Prop
  | .bind j granted => j = i ∧ (granted = true → ∃ l ∈ s.listeners[i]?, s.Held l.addr)
  | .receiveError j => j = i
  | _ => False

instance (s : ShimState) (i : ℕ) (a : ShimAction) : Decidable (Fails s i a) :=
  match a with
  | .bind j granted =>
    inferInstanceAs (Decidable (j = i ∧ (granted = true → ∃ l ∈ s.listeners[i]?, s.Held l.addr)))
  | .receiveError j => inferInstanceAs (Decidable (j = i))
  | .start _ | .stop | .receive _ _ _ | .cancel _ | .answer _ _ _ =>
    inferInstanceAs (Decidable False)

/-- Whether the recorded listener has failed since the last `stop`. -/
def noteFailure (s : ShimState) (a : ShimAction) (_s' : ShimState) (failed : Bool) : Bool :=
  match a with
  | .stop => false
  | _ => failed || s.controller.running.any fun r => decide (Fails s r.2 a)

/-- The recorded listener is alive until it fails. -/
structure Records (s : ShimState) (failed : Bool) : Prop where
  alive : ∀ addr i l, s.controller.running = some (addr, i) → s.listeners[i]? = some l →
    (l.Alive ↔ failed = false)
  idle : s.controller.running = none → failed = false

section Records

variable {s s' : ShimState} {a : ShimAction} {i : ℕ} {l : Listener} {failed failed' : Bool}
  {pc : ListenerPc}

theorem noteFailure_of_none (hrun : s.controller.running = none) (hidle : failed = false) :
    noteFailure s a s' failed = false := by
  cases a <;> simp [noteFailure, hrun, hidle]

/-- Nothing that makes the recorded listener fail. -/
theorem noteFailure_of_not_fails (hstop : a ≠ .stop)
    (hnot : ∀ addr j, s.controller.running = some (addr, j) → ¬ Fails s j a) :
    noteFailure s a s' failed = failed := by
  have hany : s.controller.running.any (fun r => decide (Fails s r.2 a)) = false := by
    cases hrun : s.controller.running with
    | none => rfl
    | some r => exact decide_eq_false (hnot r.1 r.2 hrun)
  cases a with
  | stop => exact absurd rfl hstop
  | _ => simp only [noteFailure, hany, Bool.or_false]

/-- Listener `i` goes on: what is known afterwards, if it is the recorded one and if
not. -/
theorem Records.move (h : Records s failed) (hl : s.listeners[i]? = some l)
    (hself : ∀ addr, s.controller.running = some (addr, i) →
      (({ l with pc := pc } : Listener).Alive ↔ failed' = false))
    (hother : (∀ addr, s.controller.running ≠ some (addr, i)) → failed' = failed) :
    Records (s.move i l pc) failed' := by
  refine ⟨?_, ?_⟩
  · intro addr j l' hrun hl'
    rcases Machine.getElem?_set_cases hl' with ⟨hji, hl'⟩ | ⟨rfl, rfl⟩
    · have hfailed : failed' = failed := by
        refine hother ?_
        intro addr' hrun'
        cases hrun.symm.trans hrun'
        exact hji rfl
      exact hfailed ▸ h.alive addr j l' hrun hl'
    · exact hself addr hrun
  · intro hrun
    have hfailed : failed' = failed := hother fun addr hsome => by cases hrun.symm.trans hsome
    rw [hfailed]
    exact h.idle hrun

/-- **The step lemma.** -/
theorem Records.step (h : Records s failed) (hn : Numbered s) (hs : s.step a = some s') :
    Records s' (noteFailure s a s' failed) := by
  cases shimStep_of_step hs with
  | @start addr hnone =>
    rw [noteFailure_of_none hnone (h.idle hnone)]
    refine ⟨?_, fun _ => rfl⟩
    intro addr' i l hrun hl
    cases hrun
    have hnew : (s.listeners ++ [(⟨addr, .binding, false⟩ : Listener)])[s.controller.spawned]? =
        some ⟨addr, .binding, false⟩ := by
      rw [hn.spawned]
      exact List.getElem?_concat_length
    cases hnew.symm.trans hl
    exact iff_of_true (.inl rfl) rfl
  | refused hsome =>
    rw [noteFailure_of_not_fails ShimAction.noConfusion fun _ _ _ => id]
    exact h
  | stop hrun hl => exact ⟨nofun, fun _ => rfl⟩
  | noStop hrun => exact ⟨nofun, fun _ => rfl⟩
  | @bound i l hl hpc hfree =>
    have hnot : ∀ addr j, s.controller.running = some (addr, j) → ¬ Fails s j (.bind i true) := by
      rintro addr j - ⟨rfl, hheld⟩
      obtain ⟨l', hl', hheld⟩ := hheld rfl
      cases hl.symm.trans hl'
      exact hfree hheld
    rw [noteFailure_of_not_fails ShimAction.noConfusion hnot]
    refine h.move hl ?_ fun _ => rfl
    intro addr hrun
    exact iff_of_true (.inr rfl) ((h.alive addr i l hrun hl).mp (.inl hpc))
  | @notBound i l granted hl hpc hheld =>
    refine h.move hl ?_ ?_
    · intro addr hrun
      have hfails : Fails s i (.bind i granted) := ⟨rfl, fun hgranted => ⟨l, hl, hheld hgranted⟩⟩
      simp [noteFailure, hrun, hfails, Listener.Alive]
    · intro hother
      refine noteFailure_of_not_fails ShimAction.noConfusion ?_
      rintro addr j hrun ⟨rfl, -⟩
      exact hother addr hrun
  | receive hl hpc =>
    rw [noteFailure_of_not_fails ShimAction.noConfusion fun _ _ _ => id]
    exact ⟨h.alive, h.idle⟩
  | @receiveError i l hl hpc =>
    refine h.move hl ?_ ?_
    · intro addr hrun
      have hfails : Fails s i (.receiveError i) := rfl
      simp [noteFailure, hrun, hfails, Listener.Alive]
    · intro hother
      refine noteFailure_of_not_fails ShimAction.noConfusion ?_
      rintro addr j hrun rfl
      exact hother addr hrun
  | @cancel i l hl haborted halive =>
    rw [noteFailure_of_not_fails ShimAction.noConfusion fun _ _ _ => id]
    refine h.move hl ?_ fun _ => rfl
    intro addr hrun
    -- the recorded listener has not been stopped
    obtain ⟨-, l', hl', -, hkept⟩ := hn.recorded addr i hrun
    cases hl.symm.trans hl'
    rw [haborted] at hkept
    cases hkept
  | answer hq hrun =>
    rw [noteFailure_of_not_fails ShimAction.noConfusion fun _ _ _ => id]
    exact ⟨h.alive, h.idle⟩

/-- The record is right as long as the recorded listener has not failed. -/
theorem Records.truthful (h : Records s failed) (hn : Numbered s) :
    Truthful s ↔ failed = false := by
  constructor
  · intro ht
    cases hrun : s.controller.running with
    | none => exact h.idle hrun
    | some r =>
      obtain ⟨l, hl, -, halive⟩ := ht.alive r.1 r.2 hrun
      exact (h.alive r.1 r.2 l hrun hl).mp halive
  · intro hfailed
    have halive : ∀ addr i, s.controller.running = some (addr, i) →
        i + 1 = s.listeners.length ∧ ∃ l, s.listeners[i]? = some l ∧ l.addr = addr ∧ l.Alive := by
      intro addr i hrun
      obtain ⟨hi, l, hl, haddr, -⟩ := hn.recorded addr i hrun
      exact ⟨hi, l, hl, haddr, (h.alive addr i l hrun hl).mpr hfailed⟩
    refine ⟨?_, ?_, ?_⟩
    · intro addr i hrun
      obtain ⟨-, l, hl, haddr, hl'⟩ := halive addr i hrun
      exact ⟨l, hl, haddr, hl'⟩
    · intro l hl hended
      cases hrun : s.controller.running with
      | none => simp [DnsShimController.boundAddr, DnsShimController.start, hrun]
      | some r =>
        obtain ⟨hi, l', hl', -, hlive⟩ := halive r.1 r.2 hrun
        have hlast : s.listeners.getLast? = some l' := by
          rw [List.getLast?_eq_getElem?, ← hi]
          exact hl'
        cases hl.symm.trans hlast
        exact absurd hlive hended
    · intro socksAddr health hshown
      cases hrun : s.controller.running with
      | none =>
        rw [DnsShimController.boundAddr, hrun] at hshown
        exact absurd rfl hshown
      | some r =>
        obtain ⟨-, l, hl, -, hlive⟩ := halive r.1 r.2 hrun
        exact ⟨l, List.mem_of_getElem? hl, hlive⟩

end Records

/-- **The record is right exactly while the recorded listener has not failed.**  In
every run of `start` and `stop` calls, tasks and datagrams: `bound_addr`, the next
`start` and the status text tell the truth about the listener task if and only if
neither its `bind` nor its `recv_from` has failed since the last `stop`. -/
theorem truthful_iff (s : ShimState) (failed : Bool)
    (h : (shimming.watch noteFailure).Reach Machine.anyStep (.new, false) (s, failed)) :
    Truthful s ↔ failed = false := by
  have hinv : Numbered s ∧ Records s failed := by
    refine h.invariant (I := fun p => Numbered p.1 ∧ Records p.1 p.2) ?_ ?_
    · exact ⟨numbered_new, nofun, fun _ => rfl⟩
    · intro p a q hi _ hs
      obtain ⟨hstep, hnote⟩ := Machine.watch_step.mp hs
      rw [hnote]
      exact ⟨hi.1.step hstep, hi.2.step hi.1 hstep⟩
  exact hinv.2.truthful hinv.1

/-- After a `bind` that failed and a `stop`, another listener. -/
theorem truthful_restarted :
    ∃ s : ShimState, s.controller.boundAddr = some shimAddr ∧ Truthful s := by
  obtain ⟨⟨s, failed⟩, hreach, haddr, hfailed⟩ := Machine.exists_reach_of_exec
    (m := shimming.watch noteFailure) (G := Machine.anyStep) (s := (ShimState.new, false))
    (P := fun p => p.1.controller.boundAddr = some shimAddr ∧ p.2 = false)
    [.start shimAddr, .bind 0 false, .stop, .start shimAddr, .bind 1 true] (by decide)
  exact ⟨s, haddr, (truthful_iff s failed hreach).mpr hfailed⟩

/-- Someone else has the port: the task is over, the address is still reported and
`start` is refused. -/
theorem not_truthful_portTaken :
    ∃ s, shimming.Reach Machine.anyStep .new s ∧
      s.listeners = [⟨shimAddr, .ended .bindError, false⟩] ∧
      s.controller.boundAddr = some shimAddr ∧
      (s.controller.start shimAddr).1 = .error "DNS shim is already running" ∧ ¬ Truthful s := by
  obtain ⟨s, hreach, hlisteners, hrun⟩ := Machine.exists_reach_of_exec
    (m := shimming) (G := Machine.anyStep) (s := ShimState.new)
    (P := fun s => s.listeners = [⟨shimAddr, .ended .bindError, false⟩] ∧
      s.controller.running = some (shimAddr, 0))
    [.start shimAddr, .bind 0 false] (by decide)
  refine ⟨s, hreach, hlisteners, ?_, ?_, ?_⟩
  · rw [DnsShimController.boundAddr, hrun]
    rfl
  · rw [DnsShimController.start, hrun]
    rfl
  · intro ht
    obtain ⟨l, hl, -, halive⟩ := ht.alive shimAddr 0 hrun
    rw [hlisteners] at hl
    cases hl
    exact absurd halive (by decide)

end Anonet.Cli
