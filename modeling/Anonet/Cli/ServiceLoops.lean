import Anonet.Cli.StatusServer
import Anonet.Socks.Server
import Mathlib.Data.List.Induction

/-!
# The three service loops

The SOCKS5 server, the DNS shim and the status server each take one result of `accept`
or `recv_from` after the other and hand what it delivers to a handler.  The first two
return with the first error, the last one logs it.

* `serviceLoop` — the loop, and what it does with an error.
* `SocksServer.serve`, `DnsShim.run`, `StatusServer.serve` — the three of them, once
  their sockets are bound.
* `servesAll_iff` — **the first two serve whatever is delivered exactly if no result is
  an error, the status server always.**
* `shimming_of_run` — `DnsShim.run` is what a listener task does.
-/

namespace Anonet.Cli

open Leakguard Net Socks Telemetry

/-! ## The loops -/

/-- What a loop has done with the results it was given. -/
structure Service (τ : Type) where
  handled : List τ
  /-- The error it returned with. -/
  ended : Option String

inductive OnError
  /-- `?` -/
  | propagate
  /-- `continue` -/
  | skip
  deriving DecidableEq

section Loop

variable {σ τ : Type} (onError : OnError) (handle : σ → τ)

/-- One turn, with the next result; a loop that has returned takes none. -/
def Service.next (s : Service τ) (result : Except String σ) : Service τ :=
  if s.ended.isSome then s
  else
    match result with
    | .ok x => { s with handled := s.handled ++ [handle x] }
    | .error err =>
      match onError with
      | .propagate => { s with ended := some err }
      | .skip => s

def serviceLoop (results : List (Except String σ)) : Service τ :=
  results.foldl (Service.next onError handle) ⟨[], none⟩

end Loop

/-- The session spawned for a connection; how it goes depends on Tor. -/
def SocksServer.session (policy : LeakPolicy) (client : Conn) (upstream : Upstream) :
    Except SessionError Unit × Conn :=
  (handleConn policy upstream).run client

/-- `SocksServer::serve`. -/
def SocksServer.serve (policy : LeakPolicy) (accepted : List (Except String Conn)) :
    Service (Upstream → Except SessionError Unit × Conn) :=
  serviceLoop .propagate (SocksServer.session policy) accepted

/-- The task that listener `i` spawns for a datagram. -/
def DnsShim.query (i : ℕ) (datagram : List UInt8 × SocketAddr) : ShimQuery :=
  ⟨i, received datagram.1, datagram.2, false⟩

/-- `DnsShim::run` as listener `i`. -/
def DnsShim.run (i : ℕ) (datagrams : List (Except String (List UInt8 × SocketAddr))) :
    Service ShimQuery :=
  serviceLoop .propagate (DnsShim.query i) datagrams

/-- What a client reads, given the state and the address of the shim at that time. -/
def StatusServer.snapshot (socksAddr : SocketAddr) (now : HealthStatus × Option SocketAddr) :
    String :=
  formatStatus socksAddr now.1 now.2

/-- `status_server::serve`. -/
def StatusServer.serve (socksAddr : SocketAddr)
    (accepted : List (Except String (HealthStatus × Option SocketAddr))) : Service String :=
  serviceLoop .skip (StatusServer.snapshot socksAddr) accepted

/-! ## What is served -/

section Served

variable {σ τ : Type} {onError : OnError} {handle : σ → τ}

/-- The handlers due: one for each delivery. -/
def due (handle : σ → τ) (results : List (Except String σ)) : List τ :=
  results.filterMap fun result => result.toOption.map handle

/-- Every delivery has got its handler, and the loop goes on. -/
def ServesAll (handle : σ → τ) (results : List (Except String σ)) (s : Service τ) : Prop :=
  s.handled = due handle results ∧ s.ended = none

theorem next_of_ended {s : Service τ} (h : s.ended.isSome = true) (result : Except String σ) :
    s.next onError handle result = s := if_pos h

theorem next_ok {s : Service τ} (h : s.ended = none) (x : σ) :
    s.next onError handle (.ok x) = { s with handled := s.handled ++ [handle x] } :=
  if_neg (by simp [h])

theorem next_error {s : Service τ} (h : s.ended = none) (err : String) :
    s.next .propagate handle (.error err) = { s with ended := some err } :=
  if_neg (by simp [h])

/-- A loop that has returned stays as it is. -/
theorem foldl_next_of_ended {s : Service τ} (h : s.ended.isSome = true)
    (results : List (Except String σ)) : results.foldl (Service.next onError handle) s = s := by
  induction results with
  | nil => rfl
  | cons result results ih =>
    rw [List.foldl_cons, next_of_ended h]
    exact ih

/-- Errors are passed over. -/
theorem foldl_next_skip (hs : List τ) (results : List (Except String σ)) :
    results.foldl (Service.next .skip handle) ⟨hs, none⟩ = ⟨hs ++ due handle results, none⟩ := by
  induction results generalizing hs with
  | nil => simp [due]
  | cons result results ih =>
    cases result with
    | ok x => simpa [Service.next, due, Except.toOption] using ih (hs ++ [handle x])
    | error err => simpa [Service.next, due, Except.toOption] using ih hs

theorem servesAll_skip (results : List (Except String σ)) :
    ServesAll handle results (serviceLoop .skip handle results) := by
  rw [serviceLoop, foldl_next_skip]
  exact ⟨rfl, rfl⟩

/-- An error ends the loop, whatever comes after it. -/
theorem foldl_next_propagate (handle : σ → τ) (hs : List τ) (results : List (Except String σ)) :
    (results.foldl (Service.next .propagate handle) ⟨hs, none⟩ =
      ⟨hs ++ due handle results, none⟩ ∧ ∀ result ∈ results, result.isOk = true) ∨
    ((results.foldl (Service.next .propagate handle) ⟨hs, none⟩).ended.isSome = true ∧
      ∃ result ∈ results, result.isOk = false) := by
  induction results generalizing hs with
  | nil => exact .inl ⟨by simp [due], nofun⟩
  | cons result results ih =>
    cases result with
    | ok x =>
      rcases ih (hs ++ [handle x]) with ⟨hrest, hok⟩ | ⟨hended, err, herr, hnot⟩
      · refine .inl ⟨?_, ?_⟩
        · simpa [Service.next, due, Except.toOption] using hrest
        · intro result hresult
          rcases List.mem_cons.mp hresult with rfl | hresult
          · rfl
          · exact hok result hresult
      · exact .inr ⟨by simpa [Service.next] using hended, err, by simp [herr], hnot⟩
    | error err =>
      refine .inr ⟨?_, .error err, by simp, rfl⟩
      rw [List.foldl_cons, next_error rfl, foldl_next_of_ended rfl]
      rfl

theorem servesAll_propagate (results : List (Except String σ)) :
    ServesAll handle results (serviceLoop .propagate handle results) ↔
      ∀ result ∈ results, result.isOk = true := by
  rcases foldl_next_propagate handle [] results with
    ⟨hrun, hok⟩ | ⟨hended, result, hresult, hnot⟩
  · refine iff_of_true ?_ hok
    rw [serviceLoop, hrun]
    exact ⟨rfl, rfl⟩
  · refine iff_of_false ?_ ?_
    · rintro ⟨-, hnone⟩
      rw [serviceLoop] at hnone
      rw [hnone] at hended
      cases hended
    · intro hok
      rw [hok result hresult] at hnot
      cases hnot

end Served

/-- **Who survives an error.**  For all sequences of results: the SOCKS5 server and the
DNS shim hand every delivery to a handler, and are there for the next one, if and only
if no result is an error; the status server is in any case. -/
theorem servesAll_iff (policy : LeakPolicy) (accepted : List (Except String Conn)) (i : ℕ)
    (datagrams : List (Except String (List UInt8 × SocketAddr))) (socksAddr : SocketAddr)
    (clients : List (Except String (HealthStatus × Option SocketAddr))) :
    (ServesAll (SocksServer.session policy) accepted (SocksServer.serve policy accepted) ↔
      ∀ result ∈ accepted, result.isOk = true) ∧
    (ServesAll (DnsShim.query i) datagrams (DnsShim.run i datagrams) ↔
      ∀ result ∈ datagrams, result.isOk = true) ∧
    ServesAll (StatusServer.snapshot socksAddr) clients (StatusServer.serve socksAddr clients) :=
  ⟨servesAll_propagate accepted, servesAll_propagate datagrams, servesAll_skip clients⟩

/-- Out of descriptors once: the connection and the datagram that come next are left
alone, and the status client is served. -/
theorem not_servesAll_descriptors :
    (∀ policy client, ¬ ServesAll (SocksServer.session policy)
      [.error "Too many open files (os error 24)", .ok client]
      (SocksServer.serve policy [.error "Too many open files (os error 24)", .ok client])) ∧
    (DnsShim.run 0 [.error "Cannot allocate memory (os error 12)", .ok ([], shimAddr)]).handled =
      [] ∧
    (StatusServer.serve shimAddr
      [.error "Too many open files (os error 24)", .ok ({}, none)]).handled =
      [formatStatus shimAddr {} none] := by
  refine ⟨?_, rfl, rfl⟩
  rintro policy client ⟨-, hended⟩
  cases hended

/-! ## The listener task -/

/-- **A listener does what `run` does.**  From where it is receiving there is a run in
which it spawns the same queries and ends if and only if `run` returns. -/
theorem shimming_of_run {s : ShimState} {i : ℕ} {l : Listener} (hl : s.listeners[i]? = some l)
    (hpc : l.pc = .receiving) (datagrams : List (Except String (List UInt8 × SocketAddr))) :
    ∃ s' l', shimming.Reach Machine.anyStep s s' ∧
      s'.queries = s.queries ++ (DnsShim.run i datagrams).handled ∧
      s'.listeners[i]? = some l' ∧
      l'.pc = if (DnsShim.run i datagrams).ended.isSome then .ended .receiveError
        else .receiving := by
  induction datagrams using List.reverseRecOn with
  | nil => exact ⟨s, l, .init, by simp [DnsShim.run, serviceLoop], hl, hpc⟩
  | append_singleton datagrams result ih =>
    obtain ⟨s', l', hreach, hqueries, hl', hpc'⟩ := ih
    have hnext : DnsShim.run i (datagrams ++ [result]) =
        (DnsShim.run i datagrams).next .propagate (DnsShim.query i) result := by
      simp [DnsShim.run, serviceLoop]
    by_cases hended : (DnsShim.run i datagrams).ended.isSome = true
    · rw [hnext, next_of_ended hended]
      exact ⟨s', l', hreach, hqueries, hl', hpc'⟩
    · rw [if_neg hended] at hpc'
      have hnone : (DnsShim.run i datagrams).ended = none := Option.not_isSome_iff_eq_none.mp hended
      cases result with
      | ok datagram =>
        rw [hnext, next_ok hnone]
        refine ⟨s'.spawnQuery i datagram.2 datagram.1, l', ?_, ?_, hl', ?_⟩
        · refine .step (a := .receive i datagram.2 datagram.1) hreach trivial ?_
          simp [shimming, ShimState.step, hl', hpc']
        · simp [ShimState.spawnQuery, hqueries, DnsShim.query]
        · simp [hpc', hnone]
      | error err =>
        rw [hnext, next_error hnone]
        refine ⟨s'.move i l' (.ended .receiveError), { l' with pc := .ended .receiveError }, ?_,
          hqueries, Machine.getElem?_set_self_of_some hl', by simp⟩
        refine .step (a := .receiveError i) hreach trivial ?_
        simp [shimming, ShimState.step, hl', hpc']

end Anonet.Cli
