import Anonet.Library.Bytes
import Anonet.Leakguard.Policy

/-!
# One client connection

The effects a SOCKS5 session has on its socket and on the Tor client, as a state
monad over what the client still has to send.

* `Conn` — the client's unread bytes, when it hangs up, and what was done so far.
* `Session` — a computation on a connection that may fail.
* `Session.Quiet` — a computation that does nothing but write to the client;
  the combinators keep it.
-/

namespace Anonet.Socks

open Leakguard

inductive IoError
  /-- `read_exact` met the end of the stream. -/
  | unexpectedEof
  /-- The client no longer accepts bytes. -/
  | brokenPipe
  deriving DecidableEq

/-- Why a session ended early; one constructor for each place that fails. -/
inductive SessionError
  | io (e : IoError)
  | unsupportedVersion (ver : UInt8)
  | noAcceptableMethod
  | unsupportedSubnegotiation (ver : UInt8)
  | usernameNotUtf8
  | unsupportedRequestVersion (ver : UInt8)
  | unsupportedCommand (cmd : UInt8)
  | domainNotUtf8
  | unsupportedAddressType (other : UInt8)
  | policy (violation : LeakViolation)
  | connect (message : String)
  deriving DecidableEq

def SessionError.display : SessionError → String
  | .io .unexpectedEof => "early eof"
  | .io .brokenPipe => "Broken pipe (os error 32)"
  | .unsupportedVersion ver => s!"unsupported SOCKS version {ver}"
  | .noAcceptableMethod => "client offered no acceptable auth method"
  | .unsupportedSubnegotiation ver =>
    s!"unsupported username/password subnegotiation version {ver}"
  | .usernameNotUtf8 => "SOCKS5 username was not valid UTF-8"
  | .unsupportedRequestVersion ver => s!"unsupported SOCKS version {ver} in request"
  | .unsupportedCommand cmd => s!"only CONNECT is supported (got cmd {cmd})"
  | .domainNotUtf8 => "domain name was not valid UTF-8"
  | .unsupportedAddressType other => s!"unsupported address type {other}"
  | .policy violation => violation.display
  | .connect message => message

/-- What a session does, in order. -/
inductive Event
  /-- One `write_all` to the client. -/
  | wrote (bytes : List UInt8)
  /-- A call of `connect_isolated`. -/
  | connect (host : String) (port : UInt16) (identity : String)
  /-- Bytes are copied both ways from here on. -/
  | splice
  deriving DecidableEq

structure Conn where
  /-- All the client will send before it closes its side. -/
  unread : List UInt8
  /-- How many more writes the client accepts; `none` when it accepts all. -/
  hangup : Option ℕ
  events : List Event
  deriving DecidableEq

/-- A connection just accepted from a client that will send `stream`. -/
def Conn.accepted (stream : List UInt8) (hangup : Option ℕ) : Conn := ⟨stream, hangup, []⟩

/-- A computation on a connection: its result, and the connection after it. -/
structure Session (α : Type) where
  run : Conn → Except SessionError α × Conn

namespace Session

variable {α β : Type}

instance : Monad Session where
  pure a := ⟨fun c => (.ok a, c)⟩
  bind x f := ⟨fun c =>
    match x.run c with
    | (.ok a, c) => (f a).run c
    | (.error e, c) => (.error e, c)⟩

/-- `bail!` and the error branch of `?`. -/
def fail (e : SessionError) : Session α := ⟨fun c => (.error e, c)⟩

/-- `Result::ok` on an awaited call: carry on whatever came of it. -/
def ok (x : Session α) : Session (Option α) := ⟨fun c =>
  match x.run c with
  | (.ok a, c) => (.ok (some a), c)
  | (.error _, c) => (.ok none, c)⟩

/-- `Option::context(..)?`. -/
def orFail (e : SessionError) : Option α → Session α
  | some a => pure a
  | none => fail e

/-- `AsyncReadExt::read_exact` into a buffer of `n` bytes. -/
def readExact (n : ℕ) : Session (List UInt8) := ⟨fun c =>
  if n ≤ c.unread.length then
    (.ok (c.unread.take n), { c with unread := c.unread.drop n })
  else (.error (.io .unexpectedEof), { c with unread := [] })⟩

/-- `read_exact` into `[u8; 1]`, `[u8; 2]` and `[u8; 4]`. -/
def readByte : Session UInt8 := do
  let buf ← readExact 1
  pure (buf.getD 0 0)

def readBytes2 : Session (UInt8 × UInt8) := do
  let buf ← readExact 2
  pure (buf.getD 0 0, buf.getD 1 0)

def readBytes4 : Session (UInt8 × UInt8 × UInt8 × UInt8) := do
  let buf ← readExact 4
  pure (buf.getD 0 0, buf.getD 1 0, buf.getD 2 0, buf.getD 3 0)

/-- `if !p { bail!(e) }`. -/
def ensure (p : Prop) [Decidable p] (e : SessionError) : Session Unit :=
  if p then pure () else fail e

/-- `AsyncWriteExt::write_all`. -/
def writeAll (bytes : List UInt8) : Session Unit := ⟨fun c =>
  match c.hangup with
  | some 0 => (.error (.io .brokenPipe), c)
  | some (n + 1) => (.ok (), { c with hangup := some n, events := c.events ++ [.wrote bytes] })
  | none => (.ok (), { c with events := c.events ++ [.wrote bytes] })⟩

/-- Record that the session did `e`. -/
def emit (e : Event) : Session Unit := ⟨fun c => (.ok (), { c with events := c.events ++ [e] })⟩

/-! ## Running -/

/-- Two computations that run alike are the same. -/
theorem ext_run {x y : Session α} (h : ∀ c, x.run c = y.run c) : x = y := by
  cases x
  cases y
  exact congrArg Session.mk (funext h)

@[simp] theorem run_pure (a : α) (c : Conn) : (pure a : Session α).run c = (.ok a, c) := rfl

@[simp] theorem run_fail (e : SessionError) (c : Conn) :
    (fail e : Session α).run c = (.error e, c) := rfl

@[simp] theorem run_emit (e : Event) (c : Conn) :
    (emit e).run c = (.ok (), { c with events := c.events ++ [e] }) := rfl

theorem run_bind (x : Session α) (f : α → Session β) (c : Conn) :
    (x >>= f).run c = match x.run c with
      | (.ok a, c) => (f a).run c
      | (.error e, c) => (.error e, c) := rfl

theorem run_bind_of_ok {x : Session α} {f : α → Session β} {c c' : Conn} {a : α}
    (h : x.run c = (.ok a, c')) : (x >>= f).run c = (f a).run c' := by
  rw [run_bind, h]

theorem run_bind_of_error {x : Session α} {f : α → Session β} {c c' : Conn} {e : SessionError}
    (h : x.run c = (.error e, c')) : (x >>= f).run c = (.error e, c') := by
  rw [run_bind, h]

/-- A sequence succeeds exactly when both of its parts do. -/
theorem run_bind_eq_ok {x : Session α} {f : α → Session β} {c c' : Conn} {b : β} :
    (x >>= f).run c = (.ok b, c') ↔
      ∃ a c₁, x.run c = (.ok a, c₁) ∧ (f a).run c₁ = (.ok b, c') := by
  rw [run_bind]
  rcases hx : x.run c with ⟨_ | a, c₁⟩
  · simp
  · simp

theorem run_orFail_eq_ok {e : SessionError} {o : Option α} {c c' : Conn} {a : α} :
    (orFail e o).run c = (.ok a, c') ↔ o = some a ∧ c' = c := by
  cases o with
  | none => simp [orFail]
  | some b => simp [orFail, eq_comm]

theorem run_readExact (n : ℕ) (c : Conn) :
    (readExact n).run c =
      if n ≤ c.unread.length then
        (.ok (c.unread.take n), { c with unread := c.unread.drop n })
      else (.error (.io .unexpectedEof), { c with unread := [] }) := rfl

theorem run_writeAll (bytes : List UInt8) (c : Conn) :
    (writeAll bytes).run c = match c.hangup with
      | some 0 => (.error (.io .brokenPipe), c)
      | some (n + 1) =>
        (.ok (), { c with hangup := some n, events := c.events ++ [.wrote bytes] })
      | none => (.ok (), { c with events := c.events ++ [.wrote bytes] }) := rfl

/-- Reading succeeds exactly when that many bytes are there, and takes just those. -/
theorem run_readExact_eq_ok {n : ℕ} {c c' : Conn} {bs : List UInt8} :
    (readExact n).run c = (.ok bs, c') ↔
      c.unread = bs ++ c'.unread ∧ bs.length = n ∧ c' = { c with unread := c'.unread } := by
  rw [run_readExact]
  constructor
  · intro h
    split at h
    · rename_i hn
      rw [Prod.mk.injEq, Except.ok.injEq] at h
      obtain ⟨rfl, rfl⟩ := h
      exact ⟨(List.take_append_drop n _).symm, List.length_take_of_le hn, rfl⟩
    · exact absurd h (by simp)
  · rintro ⟨hu, rfl, hc⟩
    have hlen : bs.length ≤ c.unread.length := by
      rw [hu, List.length_append]
      omega
    rw [if_pos hlen, hc]
    simp [hu]

theorem run_readExact_append {bs rest : List UInt8} {n : ℕ} (h : bs.length = n)
    (hangup : Option ℕ) (events : List Event) :
    (readExact n).run ⟨bs ++ rest, hangup, events⟩ = (.ok bs, ⟨rest, hangup, events⟩) :=
  run_readExact_eq_ok.mpr ⟨rfl, h, rfl⟩

theorem run_readByte_eq_ok {c c' : Conn} {b : UInt8} :
    readByte.run c = (.ok b, c') ↔
      c.unread = b :: c'.unread ∧ c' = { c with unread := c'.unread } := by
  rw [readByte, run_bind_eq_ok]
  constructor
  · rintro ⟨buf, c₁, hr, hp⟩
    obtain ⟨hu, hl, hc⟩ := run_readExact_eq_ok.mp hr
    obtain ⟨x, rfl⟩ := List.length_eq_one_iff.mp hl
    rw [run_pure, Prod.mk.injEq, Except.ok.injEq] at hp
    obtain ⟨rfl, rfl⟩ := hp
    exact ⟨hu, hc⟩
  · rintro ⟨hu, hc⟩
    exact ⟨[b], c', run_readExact_eq_ok.mpr ⟨hu, rfl, hc⟩, rfl⟩

theorem run_readBytes2_eq_ok {c c' : Conn} {a b : UInt8} :
    readBytes2.run c = (.ok (a, b), c') ↔
      c.unread = a :: b :: c'.unread ∧ c' = { c with unread := c'.unread } := by
  rw [readBytes2, run_bind_eq_ok]
  constructor
  · rintro ⟨buf, c₁, hr, hp⟩
    obtain ⟨hu, hl, hc⟩ := run_readExact_eq_ok.mp hr
    obtain ⟨x, y, rfl⟩ := List.length_eq_two.mp hl
    rw [run_pure, Prod.mk.injEq, Except.ok.injEq, Prod.mk.injEq] at hp
    obtain ⟨⟨rfl, rfl⟩, rfl⟩ := hp
    exact ⟨hu, hc⟩
  · rintro ⟨hu, hc⟩
    exact ⟨[a, b], c', run_readExact_eq_ok.mpr ⟨hu, rfl, hc⟩, rfl⟩

theorem run_readBytes4_eq_ok {c c' : Conn} {x₀ x₁ x₂ x₃ : UInt8} :
    readBytes4.run c = (.ok (x₀, x₁, x₂, x₃), c') ↔
      c.unread = x₀ :: x₁ :: x₂ :: x₃ :: c'.unread ∧ c' = { c with unread := c'.unread } := by
  rw [readBytes4, run_bind_eq_ok]
  constructor
  · rintro ⟨buf, c₁, hr, hp⟩
    obtain ⟨hu, hl, hc⟩ := run_readExact_eq_ok.mp hr
    rw [run_pure, Prod.mk.injEq, Except.ok.injEq] at hp
    obtain ⟨hb, rfl⟩ := hp
    match buf, hl with
    | [_, _, _, _], _ =>
      simp only [List.getD_cons_zero, List.getD_cons_succ, Prod.mk.injEq] at hb
      obtain ⟨rfl, rfl, rfl, rfl⟩ := hb
      exact ⟨hu, hc⟩
  · rintro ⟨hu, hc⟩
    exact ⟨[x₀, x₁, x₂, x₃], c', run_readExact_eq_ok.mpr ⟨hu, rfl, hc⟩, rfl⟩

theorem run_ensure_eq_ok {p : Prop} [Decidable p] {e : SessionError} {c c' : Conn} {u : Unit} :
    (ensure p e).run c = (.ok u, c') ↔ p ∧ c' = c := by
  rw [ensure]
  split
  · rename_i hp
    simp [hp, eq_comm]
  · rename_i hp
    simp [hp]

theorem run_ensure {p : Prop} [Decidable p] (h : p) {e : SessionError} {c : Conn} :
    (ensure p e).run c = (.ok (), c) := run_ensure_eq_ok.mpr ⟨h, rfl⟩

@[simp] theorem run_writeAll_none (bytes unread : List UInt8) (events : List Event) :
    (writeAll bytes).run ⟨unread, none, events⟩ =
      (.ok (), ⟨unread, none, events ++ [.wrote bytes]⟩) := rfl

/-- A write that succeeded left the input alone. -/
theorem unread_of_writeAll {bytes : List UInt8} {c c' : Conn} {u : Unit}
    (h : (writeAll bytes).run c = (.ok u, c')) : c'.unread = c.unread := by
  rw [run_writeAll] at h
  split at h
  · exact absurd h (by simp)
  · rw [Prod.mk.injEq] at h
    rw [← h.2]
  · rw [Prod.mk.injEq] at h
    rw [← h.2]

theorem run_ok (x : Session α) (c : Conn) :
    x.ok.run c = match x.run c with
      | (.ok a, c) => (.ok (some a), c)
      | (.error _, c) => (.ok none, c) := rfl

theorem run_ok_of_ok {x : Session α} {c c' : Conn} {a : α} (h : x.run c = (.ok a, c')) :
    x.ok.run c = (.ok (some a), c') := by
  rw [run_ok, h]

/-! ## Computations that only write -/

/-- Whatever comes of it, the computation only adds writes to the events. -/
def Quiet (x : Session α) : Prop :=
  ∀ c, ∃ ws : List (List UInt8), (x.run c).2.events = c.events ++ ws.map .wrote

theorem quiet_pure (a : α) : Quiet (pure a) := fun _ => ⟨[], by simp⟩

theorem quiet_fail (e : SessionError) : Quiet (fail e : Session α) := fun _ => ⟨[], by simp⟩

theorem quiet_orFail (e : SessionError) (o : Option α) : Quiet (orFail e o) := by
  cases o with
  | none => exact quiet_fail e
  | some a => exact quiet_pure a

theorem Quiet.bind {x : Session α} {f : α → Session β} (hx : Quiet x) (hf : ∀ a, Quiet (f a)) :
    Quiet (x >>= f) := by
  intro c
  obtain ⟨ws, hws⟩ := hx c
  rcases h : x.run c with ⟨e | a, c₁⟩
  · rw [h] at hws
    rw [run_bind_of_error h]
    exact ⟨ws, hws⟩
  · rw [h] at hws
    rw [run_bind_of_ok h]
    obtain ⟨vs, hvs⟩ := hf a c₁
    exact ⟨ws ++ vs, by rw [hvs, hws, List.map_append, List.append_assoc]⟩

theorem Quiet.ok {x : Session α} (hx : Quiet x) : Quiet x.ok := by
  intro c
  obtain ⟨ws, hws⟩ := hx c
  refine ⟨ws, ?_⟩
  rcases h : x.run c with ⟨e | a, c₁⟩
  · rw [h] at hws
    rw [run_ok, h]
    exact hws
  · rw [h] at hws
    rw [run_ok, h]
    exact hws

theorem Quiet.ite {p : Prop} [Decidable p] {x y : Session α} (hx : Quiet x) (hy : Quiet y) :
    Quiet (if p then x else y) := by
  split
  · exact hx
  · exact hy

theorem quiet_readExact (n : ℕ) : Quiet (readExact n) := by
  intro c
  refine ⟨[], ?_⟩
  rw [run_readExact]
  split <;> simp

theorem quiet_readByte : Quiet readByte :=
  (quiet_readExact 1).bind fun _ => quiet_pure _

theorem quiet_readBytes2 : Quiet readBytes2 :=
  (quiet_readExact 2).bind fun _ => quiet_pure _

theorem quiet_readBytes4 : Quiet readBytes4 :=
  (quiet_readExact 4).bind fun _ => quiet_pure _

theorem quiet_ensure (p : Prop) [Decidable p] (e : SessionError) : Quiet (ensure p e) :=
  (quiet_pure ()).ite (quiet_fail e)

theorem quiet_writeAll (bytes : List UInt8) : Quiet (writeAll bytes) := by
  intro c
  rw [run_writeAll]
  split
  · exact ⟨[], by simp⟩
  · exact ⟨[bytes], by simp⟩
  · exact ⟨[bytes], by simp⟩

/-- No call of `connect_isolated` comes out of a quiet computation. -/
theorem Quiet.connect_mem {x : Session α} (hx : Quiet x) {c : Conn} {host identity : String}
    {port : UInt16} (h : Event.connect host port identity ∈ (x.run c).2.events) :
    Event.connect host port identity ∈ c.events := by
  obtain ⟨ws, hws⟩ := hx c
  rw [hws, List.mem_append] at h
  rcases h with h | h
  · exact h
  · obtain ⟨_, _, hw⟩ := List.mem_map.mp h
    cases hw

end Session

end Anonet.Socks
