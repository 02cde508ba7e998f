import Anonet.Library.Copy
import Anonet.Socks.Replies

/-!
# The splice

`socks/src/server.rs::splice`: two copies, from the client to Tor and back, each
with a shutdown behind it, joined by `try_join!`.  `tokio::io::copy` is a parameter.

* `CopyHalf` — one of the two `async` blocks.
* `Splice` — both blocks and what `try_join!` has returned; it returns when both
  have shut down, or with the first error, which drops the other block where it is.
* `Carries`, `Relays` — the invariant: both copies are copies of their source, a writer is
  shut down behind the end of its copy only, and `Ok` is returned exactly when both are.
-/

namespace Anonet.Socks

open Net Leakguard Session Bytes

/-- The size of the buffer of `tokio::io::copy`. -/
def copyBufferSize : ℕ := 8 * 1024

/-- How far an `async` block of `splice` is. -/
inductive HalfPlace
  | copying
  /-- The copy has returned `Ok`, and the writer is being shut down. -/
  | closing
  | closed
  deriving DecidableEq

structure CopyHalf (C : Copier UInt8) where
  copy : C.State
  place : HalfPlace

inductive HalfAction (C : Copier UInt8)
  | copy (a : C.Action)
  | copied
  | shutdown

/-- The two halves of `try_join!`. -/
inductive Side
  | clientToTor
  | torToClient
  deriving DecidableEq

structure Splice (C : Copier UInt8) where
  clientToTor : CopyHalf C
  torToClient : CopyHalf C
  /-- What `try_join!` has returned. -/
  result : Option (Except String Unit)

inductive SpliceAction (C : Copier UInt8)
  /-- One half takes a step. -/
  | step (side : Side) (a : HalfAction C)
  /-- A copy or a shutdown fails. -/
  | fails (side : Side) (message : String)

variable {C : Copier UInt8}

namespace CopyHalf

def new (source : List UInt8) : CopyHalf C := ⟨C.new source, .copying⟩

/-- What the writer of the half has got. -/
def delivered (b : CopyHalf C) : List UInt8 := C.delivered b.copy

/-- What the half has read and not written yet. -/
def held (b : CopyHalf C) : List UInt8 := C.held b.copy

def step (b : CopyHalf C) : HalfAction C → Option (CopyHalf C)
  | .copy a =>
    if b.place = .copying then (C.step b.copy a).map fun copy => { b with copy := copy } else none
  | .copied =>
    if b.place = .copying ∧ C.done b.copy = true then some { b with place := .closing } else none
  | .shutdown => if b.place = .closing then some { b with place := .closed } else none

end CopyHalf

namespace Splice

/-- A splice between a client that sends `fromClient` and a stream that yields `fromTor`. -/
def new (fromClient fromTor : List UInt8) : Splice C := ⟨.new fromClient, .new fromTor, none⟩

def half (s : Splice C) : Side → CopyHalf C
  | .clientToTor => s.clientToTor
  | .torToClient => s.torToClient

def setHalf (s : Splice C) (side : Side) (b : CopyHalf C) : Splice C :=
  match side with
  | .clientToTor => { s with clientToTor := b }
  | .torToClient => { s with torToClient := b }

/-- `try_join!` returns `Ok` once both halves have. -/
def join (s : Splice C) : Splice C :=
  if s.clientToTor.place = .closed ∧ s.torToClient.place = .closed then
    { s with result := some (.ok ()) }
  else s

def step (s : Splice C) : SpliceAction C → Option (Splice C)
  | .step side a =>
    if s.result = none then ((s.half side).step a).map fun b => (s.setHalf side b).join else none
  | .fails side message =>
    if s.result = none ∧ (s.half side).place ≠ .closed then
      some { s with result := some (.error message) }
    else none

end Splice

/-! ## The invariant -/

/-- A half copies its source, and shuts its writer down when the copy has returned. -/
structure Carries (source : List UInt8) (b : CopyHalf C) : Prop where
  reaches : C.Reaches source b.copy
  copied : b.place ≠ .copying → C.done b.copy = true

/-- Both halves carry their source, and `Ok` means that both are through. -/
structure Relays (fromClient fromTor : List UInt8) (s : Splice C) : Prop where
  clientToTor : Carries fromClient s.clientToTor
  torToClient : Carries fromTor s.torToClient
  ok_iff : s.result = some (.ok ()) ↔
    s.clientToTor.place = .closed ∧ s.torToClient.place = .closed

section Step

variable {source fromClient fromTor : List UInt8} {b b' : CopyHalf C} {s s' : Splice C}

theorem carries_new (source : List UInt8) : Carries source (CopyHalf.new source : CopyHalf C) where
  reaches := C.reaches_new source
  copied h := absurd rfl h

theorem Carries.step {a : HalfAction C} (h : Carries source b) (hs : b.step a = some b') :
    Carries source b' := by
  cases a with
  | copy a =>
    rw [CopyHalf.step, Option.ite_none_right_eq_some] at hs
    obtain ⟨hplace, hs⟩ := hs
    obtain ⟨copy, hcopy, rfl⟩ := Option.map_eq_some_iff.mp hs
    exact ⟨h.reaches.step hcopy, fun hne => absurd hplace hne⟩
  | copied =>
    rw [CopyHalf.step, Option.ite_none_right_eq_some] at hs
    obtain ⟨⟨-, hdone⟩, ⟨⟩⟩ := hs
    exact ⟨h.reaches, fun _ => hdone⟩
  | shutdown =>
    rw [CopyHalf.step, Option.ite_none_right_eq_some] at hs
    obtain ⟨hplace, ⟨⟩⟩ := hs
    refine ⟨h.reaches, fun _ => h.copied ?_⟩
    rw [hplace]
    decide

/-- **A writer is shut down behind the last byte only.** -/
theorem Carries.delivered_eq {capacity : ℕ} (hC : C.Documented capacity) (h : Carries source b)
    (hplace : b.place ≠ .copying) : b.delivered = source :=
  hC.complete source b.copy h.reaches (h.copied hplace)

@[simp] theorem Splice.clientToTor_join (s : Splice C) : s.join.clientToTor = s.clientToTor := by
  unfold Splice.join
  split <;> rfl

@[simp] theorem Splice.torToClient_join (s : Splice C) : s.join.torToClient = s.torToClient := by
  unfold Splice.join
  split <;> rfl

theorem Splice.result_join (h : s.result = none) : s.join.result = some (.ok ()) ↔
    s.clientToTor.place = .closed ∧ s.torToClient.place = .closed := by
  unfold Splice.join
  split
  · rename_i hboth
    exact iff_of_true rfl hboth
  · rename_i hnot
    rw [h]
    exact iff_of_false (by simp) hnot

theorem relays_new (fromClient fromTor : List UInt8) :
    Relays fromClient fromTor (.new fromClient fromTor : Splice C) where
  clientToTor := carries_new fromClient
  torToClient := carries_new fromTor
  ok_iff := iff_of_false (by simp [Splice.new]) (by simp [Splice.new, CopyHalf.new])

/-- Setting one half leaves the other and the result alone. -/
theorem Relays.setHalf (h : Relays fromClient fromTor s) (hresult : s.result = none) {side : Side}
    {a : HalfAction C} (hb : (s.half side).step a = some b) :
    Relays fromClient fromTor (s.setHalf side b).join := by
  cases side with
  | clientToTor =>
    have hcarries : Carries fromClient b := h.clientToTor.step hb
    refine ⟨?_, ?_, ?_⟩
    · rwa [Splice.clientToTor_join]
    · rw [Splice.torToClient_join]
      exact h.torToClient
    · rw [Splice.clientToTor_join, Splice.torToClient_join]
      exact Splice.result_join (s := s.setHalf .clientToTor b) hresult
  | torToClient =>
    have hcarries : Carries fromTor b := h.torToClient.step hb
    refine ⟨?_, ?_, ?_⟩
    · rw [Splice.clientToTor_join]
      exact h.clientToTor
    · rwa [Splice.torToClient_join]
    · rw [Splice.clientToTor_join, Splice.torToClient_join]
      exact Splice.result_join (s := s.setHalf .torToClient b) hresult

/-- **The step lemma.** -/
theorem Relays.step {a : SpliceAction C} (h : Relays fromClient fromTor s)
    (hs : s.step a = some s') : Relays fromClient fromTor s' := by
  cases a with
  | step side a =>
    rw [Splice.step, Option.ite_none_right_eq_some] at hs
    obtain ⟨hresult, hs⟩ := hs
    obtain ⟨b, hb, rfl⟩ := Option.map_eq_some_iff.mp hs
    exact h.setHalf hresult hb
  | fails side message =>
    rw [Splice.step, Option.ite_none_right_eq_some] at hs
    obtain ⟨⟨hresult, hplace⟩, ⟨⟩⟩ := hs
    refine ⟨h.clientToTor, h.torToClient, iff_of_false (by simp) ?_⟩
    -- the half that failed has not been through
    rintro ⟨hclient, htor⟩
    cases side with
    | clientToTor => exact hplace hclient
    | torToClient => exact hplace htor

end Step

end Anonet.Socks
