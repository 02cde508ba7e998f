import Anonet.Socks.Splice
import Anonet.Telemetry.HealthStatus

/-!
# The server and its sessions

`socks/src/server.rs::serve`: one task for each connection, which counts it in
telemetry, runs `handle_conn` to the splice and through it, and counts it out.  Any
number of such tasks run in any order.

* `serving` — the machine of all sessions.
* `Handled` — what a session that got to its splice has read and answered.
* `relayed_of_reach` — **Tor gets a front of what follows the request, the client its
  answers and a front of what Tor sends**, and all of it when `handle_conn` returns `Ok`.
* `counted_of_reach` — **the connections in flight are counted**, in every interleaving.
-/

namespace Anonet.Socks

open Net Leakguard Session Bytes Telemetry

/-- How far the task of a connection is. -/
inductive SessionPlace
  | spawned
  /-- `connection_opened` has been called. -/
  | handling
  | splicing
  /-- `handle_conn` has returned. -/
  | returned
  /-- `connection_closed` has been called. -/
  | closed
  deriving DecidableEq

structure SocksSession (C : Copier UInt8) where
  /-- All the client will send. -/
  stream : List UInt8
  /-- How many writes of the handshake the client accepts. -/
  hangup : Option ℕ
  /-- All that will come back over the Tor stream. -/
  answer : List UInt8
  /-- The connection as the handshake left it. -/
  conn : Conn
  splice : Option (Splice C)
  place : SessionPlace

structure SocksServer (C : Copier UInt8) where
  telemetry : HealthStatus
  sessions : List (SocksSession C)

inductive ServerAction (C : Copier UInt8)
  /-- `accept` yields a connection, and its task is spawned. -/
  | accept (stream : List UInt8) (hangup : Option ℕ) (answer : List UInt8)
  | opened (i : ℕ)
  /-- `handle_conn` up to the splice; `connect_isolated` yields `outcome`. -/
  | handshake (i : ℕ) (outcome : Except String Unit)
  | splice (i : ℕ) (a : SpliceAction C)
  | closed (i : ℕ)
  /-- Another task updates telemetry; none touches the connection counters. -/
  | update (telemetry : HealthStatus)

variable {C : Copier UInt8}

namespace SocksSession

/-- `telemetry.connection_opened()`. -/
def opened (self : SocksSession C) : Option (SocksSession C) :=
  match self.place with
  | .spawned => some { self with place := .handling }
  | _ => none

def handshake (policy : LeakPolicy) (outcome : Except String Unit) (self : SocksSession C) :
    Option (SocksSession C) :=
  match self.place with
  | .handling =>
    match (handleConn policy fun _ _ _ => outcome).run (.accepted self.stream self.hangup) with
    | (.ok (), conn) =>
      some { self with
        conn := conn
        splice := some (.new conn.unread self.answer)
        place := .splicing }
    | (.error _, conn) => some { self with conn := conn, place := .returned }
  | _ => none

def stepSplice (a : SpliceAction C) (self : SocksSession C) : Option (SocksSession C) :=
  match self.place, self.splice with
  | .splicing, some splice => do
    let splice ← splice.step a
    some { self with
      splice := some splice
      place := if splice.result = none then .splicing else .returned }
  | _, _ => none

/-- `telemetry.connection_closed()`. -/
def closed (self : SocksSession C) : Option (SocksSession C) :=
  match self.place with
  | .returned => some { self with place := .closed }
  | _ => none

/-- What the client has been sent, all told. -/
def received (self : SocksSession C) : List UInt8 :=
  (written self.conn.events).flatten ++
    match self.splice with
    | some splice => splice.torToClient.delivered
    | none => []

/-- The task has been counted in, and not yet out. -/
def isOpen (self : SocksSession C) : Bool :=
  match self.place with
  | .spawned | .closed => false
  | .handling | .splicing | .returned => true

/-- The task has been counted in. -/
def isCounted (self : SocksSession C) : Bool :=
  match self.place with
  | .spawned => false
  | _ => true

end SocksSession

namespace SocksServer

def new (telemetry : HealthStatus) : SocksServer C := ⟨telemetry, []⟩

/-- A task that takes a step of its own. -/
def stepSession (s : SocksServer C) (i : ℕ) (step : SocksSession C → Option (SocksSession C))
    (telemetry : HealthStatus) : Option (SocksServer C) := do
  let a ← s.sessions[i]?
  let a ← step a
  some { telemetry := telemetry, sessions := s.sessions.set i a }

def step (policy : LeakPolicy) (s : SocksServer C) : ServerAction C → Option (SocksServer C)
  | .accept stream hangup answer =>
    some { s with sessions := s.sessions ++
      [⟨stream, hangup, answer, .accepted stream hangup, none, .spawned⟩] }
  | .opened i => s.stepSession i SocksSession.opened s.telemetry.connectionOpened
  | .handshake i outcome => s.stepSession i (SocksSession.handshake policy outcome) s.telemetry
  | .splice i a => s.stepSession i (SocksSession.stepSplice a) s.telemetry
  | .closed i => s.stepSession i SocksSession.closed s.telemetry.connectionClosed
  | .update telemetry =>
    if telemetry.socksConnectionsActive = s.telemetry.socksConnectionsActive ∧
        telemetry.socksConnectionsTotal = s.telemetry.socksConnectionsTotal then
      some { s with telemetry := telemetry }
    else none

end SocksServer

/-- All interleavings of the sessions of a server. -/
def serving (C : Copier UInt8) (policy : LeakPolicy) :
    Machine (SocksServer C) (ServerAction C) where
  step := SocksServer.step policy

/-! ## Sessions whose writes succeed -/

/-- Where the computation succeeds, it does not matter when the client would have hung up. -/
def Steady {α : Type} (x : Session α) : Prop :=
  ∀ c a c', x.run c = (.ok a, c') →
    x.run { c with hangup := none } = (.ok a, { c' with hangup := none })

section Steady

variable {α β : Type}

theorem steady_pure (a : α) : Steady (pure a) := by
  intro c b c' h
  cases h
  rfl

theorem steady_fail (e : SessionError) : Steady (fail e : Session α) := by
  intro c b c' h
  cases h

theorem steady_emit (e : Event) : Steady (emit e) := by
  intro c b c' h
  cases h
  rfl

theorem steady_orFail (e : SessionError) (o : Option α) : Steady (orFail e o) := by
  cases o with
  | none => exact steady_fail e
  | some a => exact steady_pure a

theorem steady_readExact (n : ℕ) : Steady (readExact n) := by
  intro c bs c' h
  obtain ⟨hunread, hlength, hc⟩ := run_readExact_eq_ok.mp h
  rw [hc]
  exact run_readExact_eq_ok.mpr ⟨hunread, hlength, rfl⟩

theorem steady_writeAll (bytes : List UInt8) : Steady (writeAll bytes) := by
  intro c u c' h
  rw [run_writeAll] at h
  rw [run_writeAll]
  split at h <;> cases h <;> rfl

theorem Steady.bind {x : Session α} {f : α → Session β} (hx : Steady x) (hf : ∀ a, Steady (f a)) :
    Steady (x >>= f) := by
  intro c b c' h
  obtain ⟨a, c₁, hrun, h⟩ := run_bind_eq_ok.mp h
  rw [run_bind_of_ok (hx c a c₁ hrun)]
  exact hf a c₁ b c' h

/-- What fails after a reply nobody looks at, fails. -/
theorem steady_ok_fail (x : Session α) (e : SessionError) :
    Steady (x.ok >>= fun _ => (fail e : Session β)) := by
  intro c b c' h
  obtain ⟨_, c₁, -, h⟩ := run_bind_eq_ok.mp h
  cases h

theorem Steady.ite {p : Prop} [Decidable p] {x y : Session α} (hx : Steady x) (hy : Steady y) :
    Steady (if p then x else y) := by
  split
  · exact hx
  · exact hy

theorem steady_readByte : Steady readByte := (steady_readExact 1).bind fun _ => steady_pure _

theorem steady_readBytes2 : Steady readBytes2 := (steady_readExact 2).bind fun _ => steady_pure _

theorem steady_readBytes4 : Steady readBytes4 := (steady_readExact 4).bind fun _ => steady_pure _

theorem steady_ensure (p : Prop) [Decidable p] (e : SessionError) : Steady (ensure p e) :=
  (steady_pure ()).ite (steady_fail e)

theorem steady_readUserpassIdentity : Steady readUserpassIdentity :=
  steady_readByte.bind fun _ => (steady_ensure _ _).bind fun _ =>
    steady_readByte.bind fun _ => (steady_readExact _).bind fun _ =>
      steady_readByte.bind fun _ => (steady_readExact _).bind fun _ =>
        (steady_writeAll _).bind fun _ => (steady_orFail _ _).bind fun _ => steady_pure _

theorem steady_negotiateMethod : Steady negotiateMethod :=
  steady_readBytes2.bind fun _ => (steady_ensure _ _).bind fun _ =>
    (steady_readExact _).bind fun _ =>
      ((steady_writeAll _).bind fun _ => steady_readUserpassIdentity).ite
        (((steady_writeAll _).bind fun _ => steady_pure _).ite
          ((steady_writeAll _).bind fun _ => steady_fail _))

theorem steady_readAddress (atyp : UInt8) : Steady (readAddress atyp) :=
  ((steady_readExact _).bind fun _ => steady_pure _).ite
    (((steady_readExact _).bind fun _ => steady_pure _).ite
      ((steady_readByte.bind fun _ => (steady_readExact _).bind fun _ =>
        (steady_orFail _ _).bind fun _ => steady_pure _).ite (steady_ok_fail _ _)))

theorem steady_readConnectRequest : Steady readConnectRequest :=
  steady_readBytes4.bind fun _ => (steady_ensure _ _).bind fun _ =>
    ((steady_readAddress _).bind fun _ => steady_readBytes2.bind fun _ => steady_pure _).ite
      (steady_ok_fail _ _)

theorem steady_forward (policy : LeakPolicy) (upstream : Upstream) (identity : String)
    (dest : Destination) (port : UInt16) : Steady (forward policy upstream identity dest port) := by
  unfold forward
  split
  · exact steady_ok_fail _ _
  · refine (steady_emit _).bind fun _ => ?_
    split
    · exact steady_ok_fail _ _
    · exact (steady_writeAll _).bind fun _ => steady_emit _

theorem steady_handleConn (policy : LeakPolicy) (upstream : Upstream) :
    Steady (handleConn policy upstream) :=
  steady_negotiateMethod.bind fun _ => steady_readConnectRequest.bind fun _ =>
    steady_forward policy upstream _ _ _

end Steady

/-! ## What a session that splices has done -/

/-- The client sent `n`, then `r`, which the policy let through, and has been answered. -/
structure Handled (policy : LeakPolicy) (stream : List UInt8) (conn : Conn) (n : Negotiation)
    (r : ConnectRequest) : Prop where
  stream_eq : stream = n.encode ++ (r.encode ++ conn.unread)
  allowed : policy.check r.address.destination = .ok ()
  answered : written conn.events = n.answers ++ [replyBytes repSuccess]

section Handled

variable {policy : LeakPolicy} {upstream : Upstream}

/-- A request that gets to the splice passed the policy and the upstream. -/
theorem forward_eq_ok {identity : String} {dest : Destination} {port : UInt16} {c c' : Conn}
    (hc : c.hangup = none) (h : (forward policy upstream identity dest port).run c = (.ok (), c')) :
    policy.check dest = .ok () ∧ c'.unread = c.unread ∧
      written c'.events = written c.events ++ [replyBytes repSuccess] := by
  obtain ⟨unread, hangup, events⟩ := c
  obtain rfl : hangup = none := hc
  unfold forward at h
  split at h
  · obtain ⟨_, c₁, -, h⟩ := run_bind_eq_ok.mp h
    cases h
  · rename_i hcheck
    rw [run_bind_of_ok (run_emit _ _)] at h
    split at h
    · obtain ⟨_, c₁, -, h⟩ := run_bind_eq_ok.mp h
      cases h
    · rw [sendReply, run_bind_of_ok (run_writeAll_none _ _ _)] at h
      cases h
      exact ⟨hcheck, rfl, by simp⟩

/-- **The handshake of every spliced session**, whatever became of other writes. -/
theorem exists_handled {stream : List UInt8} {hangup : Option ℕ} {c : Conn}
    (h : (handleConn policy upstream).run (.accepted stream hangup) = (.ok (), c)) :
    ∃ n r, Handled policy stream c n r := by
  have hsteady := steady_handleConn policy upstream _ _ _ h
  rw [handleConn] at hsteady
  obtain ⟨identity, c₁, hneg, hsteady⟩ := run_bind_eq_ok.mp hsteady
  obtain ⟨n, hn, -, hc₁⟩ := exists_answered hneg
  obtain ⟨⟨dest, port⟩, c₂, hreq, hforward⟩ := run_bind_eq_ok.mp hsteady
  obtain ⟨r, hr, rfl, rfl⟩ := exists_connectRequest hreq
  have hc₂ : c₂ = ⟨c₂.unread, none, n.answers.map .wrote⟩ := by
    have hrun := readConnectRequest_encode r c₂.unread (n.answers.map .wrote)
    rw [← hr, ← hc₁, hreq, Prod.mk.injEq] at hrun
    exact hrun.2
  obtain ⟨hallowed, hunread, hwritten⟩ := forward_eq_ok (congrArg Conn.hangup hc₂) hforward
  refine ⟨n, r, ?_, hallowed, ?_⟩
  · calc stream = n.encode ++ c₁.unread := hn
      _ = n.encode ++ (r.encode ++ c₂.unread) := by rw [hr]
      _ = n.encode ++ (r.encode ++ c.unread) := by rw [← hunread]
  · rw [hc₂] at hwritten
    refine hwritten.trans (congrArg (· ++ _) ?_)
    rw [written, List.filterMap_map]
    exact List.filterMap_some

end Handled

/-! ## Every session keeps to itself -/

/-- A session has no splice before its handshake; one that has a splice has handled its
own request, and relays what follows it. -/
structure Relaying (policy : LeakPolicy) (a : SocksSession C) : Prop where
  unspliced : a.place = .spawned ∨ a.place = .handling → a.splice = none
  spliced : ∀ splice, a.splice = some splice →
    (∃ n r, Handled policy a.stream a.conn n r) ∧ Relays a.conn.unread a.answer splice

section Session

variable {policy : LeakPolicy} {a a' : SocksSession C}

theorem relaying_new (stream : List UInt8) (hangup : Option ℕ) (answer : List UInt8) :
    Relaying policy
      (⟨stream, hangup, answer, .accepted stream hangup, none, .spawned⟩ : SocksSession C) where
  unspliced _ := rfl
  spliced splice h := by cases h

theorem Relaying.opened (h : Relaying policy a) (hs : a.opened = some a') :
    Relaying policy a' := by
  unfold SocksSession.opened at hs
  split at hs
  · rename_i hplace
    cases hs
    exact ⟨fun _ => h.unspliced (.inl hplace), h.spliced⟩
  · cases hs

/-- The splice starts behind a request that was handled. -/
theorem Relaying.handshake {outcome : Except String Unit} (h : Relaying policy a)
    (hs : a.handshake policy outcome = some a') : Relaying policy a' := by
  unfold SocksSession.handshake at hs
  split at hs
  · rename_i hplace
    split at hs
    · rename_i conn hrun
      cases hs
      refine ⟨by simp, ?_⟩
      rintro splice ⟨⟩
      exact ⟨exists_handled hrun, relays_new _ _⟩
    · cases hs
      refine ⟨by simp, ?_⟩
      intro splice hsplice
      cases (h.unspliced (.inr hplace)).symm.trans hsplice
  · cases hs

theorem Relaying.stepSplice {e : SpliceAction C} (h : Relaying policy a)
    (hs : a.stepSplice e = some a') : Relaying policy a' := by
  unfold SocksSession.stepSplice at hs
  split at hs
  · rename_i splice _ hsplice
    obtain ⟨splice', hstep, hs⟩ := Option.bind_eq_some_iff.mp hs
    cases hs
    obtain ⟨hhandled, hrelays⟩ := h.spliced splice hsplice
    refine ⟨?_, ?_⟩
    · dsimp only
      split <;> simp
    · rintro _ ⟨⟩
      exact ⟨hhandled, hrelays.step hstep⟩
  · cases hs

theorem Relaying.closed (h : Relaying policy a) (hs : a.closed = some a') :
    Relaying policy a' := by
  unfold SocksSession.closed at hs
  split at hs
  · cases hs
    exact ⟨by simp, h.spliced⟩
  · cases hs

end Session

section Server

variable {policy : LeakPolicy} {s s' : SocksServer C} {e : ServerAction C}

/-- What a step does to the sessions: one is new, or one takes a step of its own. -/
inductive SessionsStep (policy : LeakPolicy) (s s' : SocksServer C) : Prop
  | accept (stream : List UInt8) (hangup : Option ℕ) (answer : List UInt8)
      (h : s' = { s with sessions := s.sessions ++
        [⟨stream, hangup, answer, .accepted stream hangup, none, .spawned⟩] })
  | opened {i : ℕ} {a a' : SocksSession C} (ha : s.sessions[i]? = some a)
      (hs : a.opened = some a') (h : s' = ⟨s.telemetry.connectionOpened, s.sessions.set i a'⟩)
  | handshake {i : ℕ} {a a' : SocksSession C} {outcome : Except String Unit}
      (ha : s.sessions[i]? = some a) (hs : a.handshake policy outcome = some a')
      (h : s' = ⟨s.telemetry, s.sessions.set i a'⟩)
  | splice {i : ℕ} {a a' : SocksSession C} {e : SpliceAction C}
      (ha : s.sessions[i]? = some a) (hs : a.stepSplice e = some a')
      (h : s' = ⟨s.telemetry, s.sessions.set i a'⟩)
  | closed {i : ℕ} {a a' : SocksSession C} (ha : s.sessions[i]? = some a)
      (hs : a.closed = some a') (h : s' = ⟨s.telemetry.connectionClosed, s.sessions.set i a'⟩)
  | update {telemetry : HealthStatus}
      (hactive : telemetry.socksConnectionsActive = s.telemetry.socksConnectionsActive)
      (htotal : telemetry.socksConnectionsTotal = s.telemetry.socksConnectionsTotal)
      (h : s' = { s with telemetry := telemetry })

theorem stepSession_eq_some {i : ℕ} {step : SocksSession C → Option (SocksSession C)}
    {telemetry : HealthStatus} (h : s.stepSession i step telemetry = some s') :
    ∃ a a', s.sessions[i]? = some a ∧ step a = some a' ∧
      s' = ⟨telemetry, s.sessions.set i a'⟩ := by
  obtain ⟨a, ha, h⟩ := Option.bind_eq_some_iff.mp h
  obtain ⟨a', ha', h⟩ := Option.bind_eq_some_iff.mp h
  exact ⟨a, a', ha, ha', (Option.some.inj h).symm⟩

theorem sessionsStep_of_step (h : s.step policy e = some s') : SessionsStep policy s s' := by
  cases e with
  | accept stream hangup answer => exact .accept stream hangup answer (Option.some.inj h).symm
  | opened i =>
    obtain ⟨a, a', ha, hs, h⟩ := stepSession_eq_some h
    exact .opened ha hs h
  | handshake i outcome =>
    obtain ⟨a, a', ha, hs, h⟩ := stepSession_eq_some h
    exact .handshake ha hs h
  | splice i e =>
    obtain ⟨a, a', ha, hs, h⟩ := stepSession_eq_some h
    exact .splice ha hs h
  | closed i =>
    obtain ⟨a, a', ha, hs, h⟩ := stepSession_eq_some h
    exact .closed ha hs h
  | update telemetry =>
    rw [SocksServer.step, Option.ite_none_right_eq_some] at h
    obtain ⟨⟨hactive, htotal⟩, h⟩ := h
    exact .update hactive htotal (Option.some.inj h).symm

theorem relaying_of_step (h : ∀ a ∈ s.sessions, Relaying policy a)
    (hs : s.step policy e = some s') : ∀ a ∈ s'.sessions, Relaying policy a := by
  have hset : ∀ {i : ℕ} {a : SocksSession C}, Relaying policy a →
      ∀ b ∈ s.sessions.set i a, Relaying policy b := by
    intro i a ha b hb
    rcases List.mem_or_eq_of_mem_set hb with hb | rfl
    · exact h b hb
    · exact ha
  cases sessionsStep_of_step hs with
  | accept stream hangup answer h' =>
    rw [h']
    intro a ha
    rcases List.mem_append.mp ha with ha | ha
    · exact h a ha
    · rw [List.mem_singleton.mp ha]
      exact relaying_new stream hangup answer
  | opened ha hs h' =>
    rw [h']
    exact hset ((h _ (List.mem_of_getElem? ha)).opened hs)
  | handshake ha hs h' =>
    rw [h']
    exact hset ((h _ (List.mem_of_getElem? ha)).handshake hs)
  | splice ha hs h' =>
    rw [h']
    exact hset ((h _ (List.mem_of_getElem? ha)).stepSplice hs)
  | closed ha hs h' =>
    rw [h']
    exact hset ((h _ (List.mem_of_getElem? ha)).closed hs)
  | update _ _ h' =>
    rw [h']
    exact h

/-! ## The counters -/

/-- The counters are those of the tasks, as long as these can be counted. -/
def Counted (s : SocksServer C) : Prop :=
  s.sessions.length < 2 ^ 64 →
    s.telemetry.socksConnectionsActive.toNat = s.sessions.countP SocksSession.isOpen ∧
    s.telemetry.socksConnectionsTotal.toNat = s.sessions.countP SocksSession.isCounted

/-- The counts after a task has moved, in terms of the counters before. -/
theorem Counted.of_set (h : Counted s) {i : ℕ} {a a' : SocksSession C}
    (ha : s.sessions[i]? = some a) (hlt : (s.sessions.set i a').length < 2 ^ 64) :
    (s.sessions.set i a').countP SocksSession.isOpen + a.isOpen.toNat =
        s.telemetry.socksConnectionsActive.toNat + a'.isOpen.toNat ∧
      (s.sessions.set i a').countP SocksSession.isCounted + a.isCounted.toNat =
        s.telemetry.socksConnectionsTotal.toNat + a'.isCounted.toNat := by
  rw [List.length_set] at hlt
  obtain ⟨hactive, htotal⟩ := h hlt
  rw [hactive, htotal]
  exact ⟨Machine.countP_set_add ha, Machine.countP_set_add ha⟩

/-- A step that is not counted. -/
theorem Counted.keep (h : Counted s) {i : ℕ} {a a' : SocksSession C}
    (ha : s.sessions[i]? = some a) (hopen : a'.isOpen = a.isOpen)
    (hcounted : a'.isCounted = a.isCounted) :
    Counted ⟨s.telemetry, s.sessions.set i a'⟩ := by
  intro hlt
  obtain ⟨hactive, htotal⟩ := h.of_set ha hlt
  rw [hopen] at hactive
  rw [hcounted] at htotal
  exact ⟨(Nat.add_right_cancel hactive).symm, (Nat.add_right_cancel htotal).symm⟩

theorem toNat_add_one {x : UInt64} {n : ℕ} (hx : n = x.toNat + 1) (hn : n < 2 ^ 64) :
    (x + 1).toNat = n := by
  rw [UInt64.toNat_add, hx]
  exact Nat.mod_eq_of_lt (hx ▸ hn)

/-- The task that counts itself in was not counted before. -/
theorem Counted.opened (h : Counted s) {i : ℕ} {a a' : SocksSession C}
    (ha : s.sessions[i]? = some a) (hs : a.opened = some a') :
    Counted ⟨s.telemetry.connectionOpened, s.sessions.set i a'⟩ := by
  intro hlt
  obtain ⟨hactive, htotal⟩ := h.of_set ha hlt
  have hcount : ∀ p : SocksSession C → Bool, (s.sessions.set i a').countP p < 2 ^ 64 := by
    intro p
    exact Nat.lt_of_le_of_lt List.countP_le_length hlt
  unfold SocksSession.opened at hs
  split at hs
  · rename_i hplace
    cases hs
    simp only [SocksSession.isOpen, SocksSession.isCounted, hplace, Bool.toNat_false,
      Bool.toNat_true, Nat.add_zero] at hactive htotal
    exact ⟨toNat_add_one hactive (hcount _), toNat_add_one htotal (hcount _)⟩
  · cases hs

/-- The task that counts itself out was counted: the subtraction does not saturate. -/
theorem Counted.closed (h : Counted s) {i : ℕ} {a a' : SocksSession C}
    (ha : s.sessions[i]? = some a) (hs : a.closed = some a') :
    Counted ⟨s.telemetry.connectionClosed, s.sessions.set i a'⟩ := by
  intro hlt
  obtain ⟨hactive, htotal⟩ := h.of_set ha hlt
  unfold SocksSession.closed at hs
  split at hs
  · rename_i hplace
    cases hs
    simp only [SocksSession.isOpen, SocksSession.isCounted, hplace, Bool.toNat_false,
      Bool.toNat_true, Nat.add_zero] at hactive htotal
    refine ⟨?_, (Nat.add_right_cancel htotal).symm⟩
    have hne : s.telemetry.socksConnectionsActive ≠ 0 := by
      intro hzero
      rw [hzero] at hactive
      have : (0 : UInt64).toNat = 0 := rfl
      omega
    have hone : (1 : UInt64) ≤ s.telemetry.socksConnectionsActive := by
      rw [UInt64.le_iff_toNat_le]
      have : (1 : UInt64).toNat = 1 := rfl
      omega
    show (if s.telemetry.socksConnectionsActive = 0 then 0
      else s.telemetry.socksConnectionsActive - 1).toNat = _
    rw [if_neg hne, UInt64.toNat_sub_of_le _ _ hone, ← hactive]
    rfl
  · cases hs

theorem SocksSession.place_of_handshake {a a' : SocksSession C} {outcome : Except String Unit}
    (hs : a.handshake policy outcome = some a') :
    a.place = .handling ∧ (a'.place = .splicing ∨ a'.place = .returned) := by
  unfold SocksSession.handshake at hs
  split at hs
  · rename_i hplace
    split at hs
    · cases hs
      exact ⟨hplace, .inl rfl⟩
    · cases hs
      exact ⟨hplace, .inr rfl⟩
  · cases hs

theorem SocksSession.place_of_stepSplice {a a' : SocksSession C} {e : SpliceAction C}
    (hs : a.stepSplice e = some a') :
    a.place = .splicing ∧ (a'.place = .splicing ∨ a'.place = .returned) := by
  unfold SocksSession.stepSplice at hs
  split at hs
  · rename_i splice hplace _
    obtain ⟨splice', -, hs⟩ := Option.bind_eq_some_iff.mp hs
    cases hs
    refine ⟨hplace, ?_⟩
    dsimp only
    split
    · exact .inl rfl
    · exact .inr rfl
  · cases hs

/-- **The step lemma.** -/
theorem Counted.step (h : Counted s) (hs : s.step policy e = some s') : Counted s' := by
  cases sessionsStep_of_step hs with
  | accept stream hangup answer h' =>
    rw [h']
    intro hlt
    rw [List.length_append] at hlt
    obtain ⟨hactive, htotal⟩ := h (Nat.lt_of_le_of_lt (Nat.le_add_right _ _) hlt)
    rw [List.countP_append, List.countP_append]
    exact ⟨hactive, htotal⟩
  | opened ha hs h' =>
    rw [h']
    exact h.opened ha hs
  | handshake ha hs h' =>
    rw [h']
    obtain ⟨hplace, hplace' | hplace'⟩ := SocksSession.place_of_handshake hs
    all_goals
      exact h.keep ha (by simp [SocksSession.isOpen, hplace, hplace'])
        (by simp [SocksSession.isCounted, hplace, hplace'])
  | splice ha hs h' =>
    rw [h']
    obtain ⟨hplace, hplace' | hplace'⟩ := SocksSession.place_of_stepSplice hs
    all_goals
      exact h.keep ha (by simp [SocksSession.isOpen, hplace, hplace'])
        (by simp [SocksSession.isCounted, hplace, hplace'])
  | closed ha hs h' =>
    rw [h']
    exact h.closed ha hs
  | update hactive htotal h' =>
    rw [h']
    intro hlt
    rw [hactive, htotal]
    exact h hlt

end Server

/-! ## In every run -/

section Results

variable (C : Copier UInt8) (policy : LeakPolicy) (s : SocksServer C)
  (h : (serving C policy).Reach Machine.anyStep (.new {}) s)

include h

/-- **Each session relays what is its own, whole and in order.**  With a copy that does what
it is documented to, in every interleaving of any number of sessions, with any bytes, cut
into reads and writes of any size, and errors at any point: a session that has a Tor stream sent a well-formed negotiation and a request the
policy allows; Tor has got a front of the bytes behind the request, and the client its
answers, the success reply and a front of what came back; a side that was shut down has got
all of it, and when `splice` returned `Ok` both have; and never more than 8 KiB wait in
between. -/
theorem relayed_of_reach (hC : C.Documented copyBufferSize) (a : SocksSession C)
    (ha : a ∈ s.sessions) (splice : Splice C) (hsplice : a.splice = some splice) :
    ∃ (n : Negotiation) (r : ConnectRequest) (payload : List UInt8),
      a.stream = n.encode ++ (r.encode ++ payload) ∧
      policy.check r.address.destination = .ok () ∧
      splice.clientToTor.delivered <+: payload ∧
      a.received <+: n.answers.flatten ++ (replyBytes repSuccess ++ a.answer) ∧
      (splice.clientToTor.place ≠ .copying → splice.clientToTor.delivered = payload) ∧
      (splice.torToClient.place ≠ .copying →
        a.received = n.answers.flatten ++ (replyBytes repSuccess ++ a.answer)) ∧
      (splice.result = some (.ok ()) →
        splice.clientToTor.place = .closed ∧ splice.torToClient.place = .closed) ∧
      splice.clientToTor.held.length ≤ copyBufferSize ∧
      splice.torToClient.held.length ≤ copyBufferSize := by
  have hrelaying : ∀ a ∈ s.sessions, Relaying policy a := by
    refine h.invariant (I := fun s => ∀ a ∈ s.sessions, Relaying policy a) ?_ ?_
    · intro a ha
      cases ha
    · intro s e s' hi _ hs
      exact relaying_of_step hi hs
  obtain ⟨⟨n, r, hhandled⟩, hrelays⟩ := (hrelaying a ha).spliced splice hsplice
  have hreceived : a.received =
      n.answers.flatten ++ (replyBytes repSuccess ++ splice.torToClient.delivered) := by
    unfold SocksSession.received
    rw [hhandled.answered, hsplice, List.flatten_append, List.flatten_singleton,
      List.append_assoc]
  refine ⟨n, r, a.conn.unread, hhandled.stream_eq, hhandled.allowed,
    hC.delivered_prefix hrelays.clientToTor.reaches, ?_, hrelays.clientToTor.delivered_eq hC, ?_,
    hrelays.ok_iff.mp, ?_, ?_⟩
  · rw [hreceived, List.prefix_append_right_inj, List.prefix_append_right_inj]
    exact hC.delivered_prefix hrelays.torToClient.reaches
  · intro hplace
    rw [hreceived, hrelays.torToClient.delivered_eq hC hplace]
  · exact hC.bounded _ _ hrelays.clientToTor.reaches
  · exact hC.bounded _ _ hrelays.torToClient.reaches

/-- **Connections are counted exactly.**  In every interleaving of any number of sessions and
other tasks that update telemetry, with any outcome of every session: the active count is
the number of tasks counted in and not yet out, the total that of all tasks ever counted in;
so the active count is zero again when every task is done, and its subtraction never
saturates. -/
theorem counted_of_reach (hlt : s.sessions.length < 2 ^ 64) :
    s.telemetry.socksConnectionsActive.toNat = s.sessions.countP SocksSession.isOpen ∧
    s.telemetry.socksConnectionsTotal.toNat = s.sessions.countP SocksSession.isCounted ∧
    s.telemetry.socksConnectionsActive ≤ s.telemetry.socksConnectionsTotal := by
  have hcounted : Counted s := by
    refine h.invariant (I := Counted) ?_ ?_
    · intro _
      exact ⟨rfl, rfl⟩
    · intro s e s' hi _ hs
      exact hi.step hs
  obtain ⟨hactive, htotal⟩ := hcounted hlt
  refine ⟨hactive, htotal, ?_⟩
  rw [UInt64.le_iff_toNat_le, hactive, htotal]
  refine List.countP_mono_left ?_
  intro a _ hopen
  unfold SocksSession.isOpen at hopen
  unfold SocksSession.isCounted
  split at hopen
  · cases hopen
  · cases hopen
  all_goals simp_all

end Results

/-- A copy through one buffer of the size of `tokio::io::copy`'s. -/
def tokioCopy : Copier UInt8 := BufferCopy.copier UInt8 copyBufferSize

/-- A client without authentication that asks for port 80 of `a` and sends two bytes. -/
def visit : List UInt8 := [5, 1, 0, 5, 1, 0, 3, 1, 97, 0, 80, 1, 2]

/-- The two bytes go one way, the second one late, and one byte comes back. -/
def exchange : List (SpliceAction tokioCopy) :=
  [.step .clientToTor (.copy (.read 2)), .step .clientToTor (.copy (.write 1)),
    .step .torToClient (.copy (.read 1)), .step .torToClient (.copy (.write 1)),
    .step .torToClient (.copy (.read 0)), .step .torToClient (.copy .flush),
    .step .torToClient .copied, .step .torToClient .shutdown,
    .step .clientToTor (.copy (.write 1)), .step .clientToTor (.copy (.read 0)),
    .step .clientToTor (.copy .flush), .step .clientToTor .copied, .step .clientToTor .shutdown]

/-- Its connection, from `accept` to the end. -/
def visitActions : List (ServerAction tokioCopy) :=
  [.accept visit none [3], .opened 0, .handshake 0 (.ok ())] ++ exchange.map (.splice 0) ++
    [.closed 0]

theorem relayed_visit : ∃ (a : SocksSession tokioCopy) (splice : Splice tokioCopy),
    a.stream = visit ∧ a.splice = some splice ∧ splice.result = some (.ok ()) ∧
    ∃ (n : Negotiation) (r : ConnectRequest) (payload : List UInt8),
      visit = n.encode ++ (r.encode ++ payload) ∧ splice.clientToTor.delivered <+: payload := by
  obtain ⟨s, hreach, hs⟩ := Machine.exists_reach_of_exec (m := serving tokioCopy .strict)
    (G := Machine.anyStep) (s := .new {})
    (P := fun s => (s.sessions.any fun a =>
      a.stream = visit ∧ a.splice.map Splice.result = some (some (.ok ()))) = true)
    visitActions (by decide +kernel)
  obtain ⟨a, ha, hvisit⟩ := List.any_eq_true.mp hs
  obtain ⟨hstream, hresult⟩ := of_decide_eq_true hvisit
  obtain ⟨splice, hsplice, hresult⟩ := Option.map_eq_some_iff.mp hresult
  obtain ⟨n, r, payload, hpayload, -, hprefix, -⟩ :=
    relayed_of_reach tokioCopy .strict s hreach (BufferCopy.documented_copier _ _) a ha splice
      hsplice
  exact ⟨a, splice, hstream, hsplice, hresult, n, r, payload, hstream ▸ hpayload, hprefix⟩

theorem counted_visit : ∃ s : SocksServer tokioCopy, s.sessions.length = 1 ∧
    s.telemetry.socksConnectionsActive.toNat = 0 ∧
    s.telemetry.socksConnectionsTotal.toNat = 1 := by
  obtain ⟨s, hreach, hlength, hopen, hcounted⟩ := Machine.exists_reach_of_exec
    (m := serving tokioCopy .strict) (G := Machine.anyStep) (s := .new {})
    (P := fun s => s.sessions.length = 1 ∧ s.sessions.countP SocksSession.isOpen = 0 ∧
      s.sessions.countP SocksSession.isCounted = 1)
    visitActions (by decide +kernel)
  obtain ⟨hactive, htotal, -⟩ :=
    counted_of_reach tokioCopy .strict s hreach (by rw [hlength]; decide)
  exact ⟨s, hlength, hactive.trans hopen, htotal.trans hcounted⟩

end Anonet.Socks
