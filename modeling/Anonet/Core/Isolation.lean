import Mathlib.Algebra.Group.Nat.Defs
import Mathlib.Data.List.AList
import Mathlib.Logic.Function.Basic
import Mathlib.Tactic.Common

/-!
# Stream isolation

The isolation half of `core/src/lib.rs`: each app identity has one token, which
is replaced once it is too old or used too often.

* `IsolationPolicy.tokenFor` — the one operation, under the map's mutex.
* `tokenFor_of_live` / `tokenFor_of_needs` — **the two things a call can do**:
  hand out the identity's token again, or a new one.
* `lookup_tokenFor_of_ne` — no other identity's entry changes.

Durations and instants count nanoseconds.
-/

namespace Anonet.Core

/-- `IsolationToken::new`: the token of the `n`-th call in this process.  No
call returns what an earlier one returned. -/
structure TokenSupply (τ : Type) where
  new : ℕ → τ
  fresh : Function.Injective new

/-- When to hand an identity a new token; whichever bound is hit first. -/
structure RotationPolicy where
  maxAge : Option ℕ
  maxUses : Option UInt32
  deriving DecidableEq

def RotationPolicy.default : RotationPolicy := ⟨some (600 * 10 ^ 9), some 200⟩

structure IsolationEntry (τ : Type) where
  token : τ
  createdAt : ℕ
  uses : UInt32
  deriving DecidableEq

structure IsolationPolicy (τ : Type) where
  tokens : AList fun _ : String => IsolationEntry τ
  rotation : RotationPolicy

namespace IsolationPolicy

variable {τ : Type}

def new (rotation : RotationPolicy) : IsolationPolicy τ := ⟨∅, rotation⟩

@[simp] theorem lookup_new (rotation : RotationPolicy) (identity : String) :
    (new rotation : IsolationPolicy τ).tokens.lookup identity = none :=
  AList.lookup_empty identity

/-- The entry has hit one of the bounds.  `duration_since` is zero for an
instant in the future. -/
def stale (self : IsolationPolicy τ) (now : ℕ) (e : IsolationEntry τ) : Bool :=
  self.rotation.maxAge.any (fun max => max ≤ now - e.createdAt) ||
    self.rotation.maxUses.any (fun max => max ≤ e.uses)

/-- The token for `identity` at instant `now`, when `drawn` tokens have been made
so far: the token, the map after the call, and the number of tokens then. -/
def tokenFor (supply : TokenSupply τ) (self : IsolationPolicy τ) (now : ℕ) (identity : String)
    (drawn : ℕ) : τ × IsolationPolicy τ × ℕ :=
  let tokens :=
    if (self.tokens.lookup identity).any (self.stale now) then self.tokens.erase identity
    else self.tokens
  let (entry, drawn) :=
    match tokens.lookup identity with
    | some entry => (entry, drawn)
    | none => (⟨supply.new drawn, now, 0⟩, drawn + 1)
  let entry := { entry with uses := entry.uses + 1 }
  (entry.token, { self with tokens := tokens.insert identity entry }, drawn)

/-- The identity has no token that may still be handed out. -/
def Needs (self : IsolationPolicy τ) (now : ℕ) (identity : String) : Prop :=
  ∀ e, self.tokens.lookup identity = some e → self.stale now e = true

section TokenFor

variable (supply : TokenSupply τ) {self : IsolationPolicy τ} {now drawn : ℕ} {identity : String}
  {e : IsolationEntry τ}

/-- A token that is not stale is handed out again, and one more use is counted. -/
theorem tokenFor_of_live (h : self.tokens.lookup identity = some e)
    (hlive : self.stale now e = false) :
    self.tokenFor supply now identity drawn =
      (e.token,
        { self with tokens := self.tokens.insert identity { e with uses := e.uses + 1 } },
        drawn) := by
  simp [tokenFor, h, hlive]

/-- Otherwise the identity gets a token of its own, made for this call. -/
theorem tokenFor_of_needs (drawn : ℕ) (h : self.Needs now identity) :
    (self.tokenFor supply now identity drawn).1 = supply.new drawn ∧
      (self.tokenFor supply now identity drawn).2.2 = drawn + 1 ∧
      (self.tokenFor supply now identity drawn).2.1.tokens.lookup identity =
        some ⟨supply.new drawn, now, 1⟩ := by
  cases hl : self.tokens.lookup identity with
  | none => simp [tokenFor, hl]
  | some e => simp [tokenFor, hl, h e hl]

theorem lookup_tokenFor_of_ne {other : String} (h : other ≠ identity) :
    (self.tokenFor supply now identity drawn).2.1.tokens.lookup other =
      self.tokens.lookup other := by
  unfold tokenFor
  by_cases hs : (self.tokens.lookup identity).any (self.stale now) = true
  · simp only [hs, if_true]
    rw [AList.lookup_insert_ne h, AList.lookup_erase_ne h]
  · simp only [hs, Bool.false_eq_true, if_false]
    rw [AList.lookup_insert_ne h]

/-- Either the identity's token is live, or the identity needs one. -/
theorem live_or_needs (self : IsolationPolicy τ) (now : ℕ) (identity : String) :
    (∃ e, self.tokens.lookup identity = some e ∧ self.stale now e = false) ∨
      self.Needs now identity := by
  cases hl : self.tokens.lookup identity with
  | none => exact .inr fun e he => absurd (hl.symm.trans he) (by simp)
  | some e =>
    cases hs : self.stale now e with
    | false => exact .inl ⟨e, rfl, hs⟩
    | true =>
      refine .inr ?_
      intro e' he
      rw [hl, Option.some.injEq] at he
      rw [← he, hs]

end TokenFor

end IsolationPolicy

end Anonet.Core
