import Anonet.Core.Isolation
import Anonet.Library.Machine

/-!
# Sessions over a hot-swappable core

`core/src/lib.rs`: `AnonCore`, `CoreHandle`, and the sessions that draw tokens
from the core they took while the handle may be swapped under them.

* `serving` — the machine: sessions are accepted, take the current core, connect
  on the core they took; cores are replaced and time passes, in any order.
* `HeldBy` — which core and identity a token belongs to, live or handed out.
* `Owned` — the invariant: a token belongs to one core and one identity, and
  comes from the supply.
* `same_token_of_reach` — **two sessions share a token only if they share
  identity and core.**
-/

namespace Anonet.Core

/-- A Tor client together with its isolation policy. -/
structure AnonCore (κ τ : Type) where
  /-- The configuration the client was bootstrapped with. -/
  client : κ
  isolation : IsolationPolicy τ

/-- The handle every connection reads the client through. -/
structure CoreHandle (α : Type) where
  inner : α
  deriving DecidableEq

def CoreHandle.current {α : Type} (self : CoreHandle α) : α := self.inner

def CoreHandle.replace {α : Type} (_self : CoreHandle α) (newCore : α) : CoreHandle α := ⟨newCore⟩

@[simp] theorem CoreHandle.current_replace {α : Type} (h : CoreHandle α) (newCore : α) :
    (h.replace newCore).current = newCore := rfl

/-! ## The machine -/

/-- How far a session is: it has not taken a core yet, it holds one, or it has
connected on it, isolated by a token. -/
inductive Phase (τ : Type)
  | waiting
  | took (core : ℕ)
  | connected (core : ℕ) (token : τ)
  deriving DecidableEq

/-- One connection: who it is for and its isolation identity. -/
structure SessionState (ω τ : Type) where
  client : ω
  identity : String
  phase : Phase τ
  deriving DecidableEq

/-- The process.  Cores are named by their place in `cores`, which keeps every
core a session may still hold an `Arc` of. -/
structure Serving (ω κ τ : Type) where
  cores : List (AnonCore κ τ)
  handle : CoreHandle ℕ
  sessions : List (SessionState ω τ)
  drawn : ℕ
  now : ℕ

inductive Action (ω κ : Type)
  /-- A connection for `client` has settled on its identity. -/
  | accept (client : ω) (identity : String)
  /-- Session `i` calls `CoreHandle::current`. -/
  | current (i : ℕ)
  /-- Session `i` calls `token_for` on the core it took. -/
  | connectIsolated (i : ℕ)
  | replace (config : κ) (rotation : RotationPolicy)
  /-- A token is made elsewhere in the process. -/
  | newToken
  | tick (nanos : ℕ)

variable {ω κ τ : Type}

namespace Serving

def start (config : κ) (rotation : RotationPolicy) : Serving ω κ τ where
  cores := [⟨config, .new rotation⟩]
  handle := ⟨0⟩
  sessions := []
  drawn := 0
  now := 0

def step (supply : TokenSupply τ) (s : Serving ω κ τ) : Action ω κ → Option (Serving ω κ τ)
  | .accept client identity =>
    some { s with sessions := s.sessions ++ [⟨client, identity, .waiting⟩] }
  | .current i => do
    let a ← s.sessions[i]?
    match a.phase with
    | .waiting =>
      some { s with sessions := s.sessions.set i { a with phase := .took s.handle.current } }
    | _ => none
  | .connectIsolated i => do
    let a ← s.sessions[i]?
    match a.phase with
    | .took c => do
      let core ← s.cores[c]?
      let (token, isolation, drawn) := core.isolation.tokenFor supply s.now a.identity s.drawn
      some { s with
        cores := s.cores.set c { core with isolation := isolation }
        sessions := s.sessions.set i { a with phase := .connected c token }
        drawn := drawn }
    | _ => none
  | .replace config rotation =>
    some { s with
      cores := s.cores ++ [⟨config, .new rotation⟩]
      handle := s.handle.replace s.cores.length }
  | .newToken => some { s with drawn := s.drawn + 1 }
  | .tick nanos => some { s with now := s.now + nanos }

end Serving

/-- All interleavings of sessions, swaps and the passage of time. -/
def serving (ω κ : Type) (supply : TokenSupply τ) : Machine (Serving ω κ τ) (Action ω κ) where
  step := Serving.step supply

/-! ## Who a token belongs to -/

/-- The token is `identity`'s entry on core `c`, or was handed to a session of
that identity which took that core. -/
def HeldBy (s : Serving ω κ τ) (t : τ) (c : ℕ) (identity : String) : Prop :=
  (∃ core e, s.cores[c]? = some core ∧ core.isolation.tokens.lookup identity = some e ∧
    e.token = t) ∨
  ∃ (i : ℕ) (a : SessionState ω τ), s.sessions[i]? = some a ∧ a.identity = identity ∧
    a.phase = .connected c t

/-- Every token belongs to one core and one identity, and is one of those drawn. -/
structure Owned (supply : TokenSupply τ) (s : Serving ω κ τ) : Prop where
  drawn : ∀ t c identity, HeldBy s t c identity → ∃ k < s.drawn, supply.new k = t
  unique : ∀ t c identity c' identity', HeldBy s t c identity → HeldBy s t c' identity' →
    c = c' ∧ identity = identity'

section Owned

variable {supply : TokenSupply τ} {s s' : Serving ω κ τ}

/-- A step that hands nothing new to anyone keeps the invariant. -/
theorem Owned.of_subset (h : Owned supply s) (hd : s.drawn ≤ s'.drawn)
    (hsub : ∀ t c identity, HeldBy s' t c identity → HeldBy s t c identity) : Owned supply s' where
  drawn t c identity ht := by
    obtain ⟨k, hk, rfl⟩ := h.drawn t c identity (hsub _ _ _ ht)
    exact ⟨k, by omega, rfl⟩
  unique t c identity c' identity' ht ht' := h.unique _ _ _ _ _ (hsub _ _ _ ht) (hsub _ _ _ ht')

/-- So does a step that hands the next token of the supply to one identity of
one core: nobody can hold that token yet. -/
theorem Owned.of_draw (h : Owned supply s) (c₀ : ℕ) (identity₀ : String)
    (hd : s'.drawn = s.drawn + 1)
    (hsub : ∀ t c identity, HeldBy s' t c identity →
      HeldBy s t c identity ∨ t = supply.new s.drawn ∧ c = c₀ ∧ identity = identity₀) :
    Owned supply s' where
  drawn t c identity ht := by
    rcases hsub _ _ _ ht with ht | ⟨rfl, -, -⟩
    · obtain ⟨k, hk, rfl⟩ := h.drawn _ _ _ ht
      exact ⟨k, by omega, rfl⟩
    · exact ⟨s.drawn, by omega, rfl⟩
  unique t c identity c' identity' ht ht' := by
    have hnew : ∀ c identity, ¬ HeldBy s (supply.new s.drawn) c identity := by
      intro c identity hn
      obtain ⟨k, hk, he⟩ := h.drawn _ _ _ hn
      exact absurd (supply.fresh he) (by omega)
    rcases hsub _ _ _ ht with ht | ⟨rfl, rfl, rfl⟩
    · rcases hsub _ _ _ ht' with ht' | ⟨rfl, -, -⟩
      · exact h.unique _ _ _ _ _ ht ht'
      · exact absurd ht (hnew _ _)
    · rcases hsub _ _ _ ht' with ht' | ⟨-, rfl, rfl⟩
      · exact absurd ht' (hnew _ _)
      · exact ⟨rfl, rfl⟩

end Owned

/-! ## Every step keeps tokens apart -/

section Step

variable {supply : TokenSupply τ} {s s' : Serving ω κ τ}

/-- What a `connect_isolated` step does. -/
theorem step_connectIsolated {i : ℕ} (h : s.step supply (.connectIsolated i) = some s') :
    ∃ a c core, s.sessions[i]? = some a ∧ a.phase = .took c ∧ s.cores[c]? = some core ∧
      s' = { s with
        cores := s.cores.set c { core with
          isolation := (core.isolation.tokenFor supply s.now a.identity s.drawn).2.1 }
        sessions := s.sessions.set i { a with
          phase := .connected c (core.isolation.tokenFor supply s.now a.identity s.drawn).1 }
        drawn := (core.isolation.tokenFor supply s.now a.identity s.drawn).2.2 } := by
  simp only [Serving.step, Option.bind_eq_bind, Option.bind_eq_some_iff] at h
  obtain ⟨a, ha, h⟩ := h
  split at h
  · rename_i c hc
    obtain ⟨core, hcore, h⟩ := Option.bind_eq_some_iff.mp h
    exact ⟨a, c, core, ha, hc, hcore, (Option.some.inj h).symm⟩
  · exact absurd h (by simp)

/-- What a `current` step does. -/
theorem step_current {i : ℕ} (h : s.step supply (.current i) = some s') :
    ∃ a, s.sessions[i]? = some a ∧ a.phase = .waiting ∧
      s' = { s with sessions := s.sessions.set i { a with phase := .took s.handle.current } } := by
  simp only [Serving.step, Option.bind_eq_bind, Option.bind_eq_some_iff] at h
  obtain ⟨a, ha, h⟩ := h
  split at h
  · rename_i hw
    exact ⟨a, ha, hw, (Option.some.inj h).symm⟩
  · exact absurd h (by simp)

/-- After a `connect_isolated` step, whatever is held was held before, or is held
by the identity and the core of the call, as the token it returned. -/
theorem heldBy_connectIsolated {i c c' : ℕ} {a : SessionState ω τ} {core : AnonCore κ τ}
    (hcore : s.cores[c]? = some core) {policy : IsolationPolicy τ} {token t : τ} {drawn : ℕ}
    {identity : String}
    (hentry : ∀ e, policy.tokens.lookup a.identity = some e → e.token = token)
    (hother : ∀ other, other ≠ a.identity →
      policy.tokens.lookup other = core.isolation.tokens.lookup other)
    (ht : HeldBy { s with
        cores := s.cores.set c { core with isolation := policy }
        sessions := s.sessions.set i { a with phase := .connected c token }
        drawn := drawn } t c' identity) :
    HeldBy s t c' identity ∨ t = token ∧ c' = c ∧ identity = a.identity := by
  rcases ht with ⟨core', e, hget, hlook, rfl⟩ | ⟨j, b, hget, hid, hphase⟩
  · rcases Machine.getElem?_set_cases hget with ⟨-, hget⟩ | ⟨rfl, rfl⟩
    · exact .inl (.inl ⟨core', e, hget, hlook, rfl⟩)
    · by_cases hid : identity = a.identity
      · subst hid
        exact .inr ⟨hentry e hlook, rfl, rfl⟩
      · rw [hother _ hid] at hlook
        exact .inl (.inl ⟨core, e, hcore, hlook, rfl⟩)
  · rcases Machine.getElem?_set_cases hget with ⟨-, hget⟩ | ⟨rfl, rfl⟩
    · exact .inl (.inr ⟨j, b, hget, hid, hphase⟩)
    · obtain ⟨rfl, rfl⟩ := Phase.connected.inj hphase
      exact .inr ⟨rfl, rfl, hid.symm⟩

/-- A call of `token_for` keeps tokens apart: it hands out the identity's own
token of that core, or the next one of the supply. -/
theorem Owned.connectIsolated {i : ℕ} (h : Owned supply s)
    (hs : s.step supply (.connectIsolated i) = some s') : Owned supply s' := by
  obtain ⟨a, c, core, ha, hc, hcore, rfl⟩ := step_connectIsolated hs
  have hother : ∀ other, other ≠ a.identity →
      (core.isolation.tokenFor supply s.now a.identity s.drawn).2.1.tokens.lookup other =
        core.isolation.tokens.lookup other :=
    fun other hne => IsolationPolicy.lookup_tokenFor_of_ne supply hne
  rcases core.isolation.live_or_needs s.now a.identity with ⟨e, hl, hlive⟩ | hneeds
  · rw [IsolationPolicy.tokenFor_of_live supply hl hlive] at hother ⊢
    have hheld : HeldBy s e.token c a.identity := .inl ⟨core, e, hcore, hl, rfl⟩
    refine h.of_subset le_rfl ?_
    intro t c' id ht
    have hentry : ∀ e', (core.isolation.tokens.insert a.identity
        { e with uses := e.uses + 1 }).lookup a.identity = some e' → e'.token = e.token := by
      intro e' he'
      rw [AList.lookup_insert, Option.some.injEq] at he'
      rw [← he']
    rcases heldBy_connectIsolated hcore hentry hother ht with ht | ⟨rfl, rfl, rfl⟩
    · exact ht
    · exact hheld
  · obtain ⟨htoken, hdrawn, hentry⟩ :=
      IsolationPolicy.tokenFor_of_needs supply s.drawn hneeds
    refine h.of_draw c a.identity hdrawn ?_
    intro t c' id ht
    have := heldBy_connectIsolated hcore (fun e he => ?_) hother ht
    · rwa [htoken] at this
    · rw [hentry, Option.some.injEq] at he
      rw [← he, htoken]

/-- **The step lemma**: no step makes two owners share a token. -/
theorem Owned.step {action : Action ω κ} (h : Owned supply s)
    (hs : s.step supply action = some s') : Owned supply s' := by
  cases action with
  | accept client identity =>
    obtain rfl := Option.some.inj hs
    refine h.of_subset le_rfl ?_
    intro t c id ht
    rcases ht with ht | ⟨j, b, hget, hid, hphase⟩
    · exact .inl ht
    · rcases Machine.getElem?_concat_cases hget with hget | ⟨-, rfl⟩
      · exact .inr ⟨j, b, hget, hid, hphase⟩
      · exact absurd hphase (by simp)
  | current i =>
    obtain ⟨a, -, -, rfl⟩ := step_current hs
    refine h.of_subset le_rfl ?_
    intro t c id ht
    rcases ht with ht | ⟨j, b, hget, hid, hphase⟩
    · exact .inl ht
    · rcases Machine.getElem?_set_cases hget with ⟨-, hget⟩ | ⟨-, rfl⟩
      · exact .inr ⟨j, b, hget, hid, hphase⟩
      · exact absurd hphase (by simp)
  | connectIsolated i => exact h.connectIsolated hs
  | replace config rotation =>
    obtain rfl := Option.some.inj hs
    refine h.of_subset le_rfl ?_
    intro t c id ht
    rcases ht with ⟨core, e, hget, hlook, rfl⟩ | ht
    · rcases Machine.getElem?_concat_cases hget with hget | ⟨-, rfl⟩
      · exact .inl ⟨core, e, hget, hlook, rfl⟩
      · exact absurd hlook (by simp)
    · exact .inr ht
  | newToken =>
    obtain rfl := Option.some.inj hs
    exact h.of_subset (Nat.le_succ _) fun _ _ _ ht => ht
  | tick nanos =>
    obtain rfl := Option.some.inj hs
    exact h.of_subset le_rfl fun _ _ _ ht => ht

/-- A session keeps the client and the identity it was accepted with. -/
theorem session_of_step {action : Action ω κ} (hs : s.step supply action = some s') {i : ℕ}
    {a' : SessionState ω τ} (ha' : s'.sessions[i]? = some a') :
    (∃ a, s.sessions[i]? = some a ∧ a.client = a'.client ∧ a.identity = a'.identity) ∨
      action = .accept a'.client a'.identity := by
  cases action with
  | accept client identity =>
    obtain rfl := Option.some.inj hs
    rcases Machine.getElem?_concat_cases ha' with ha' | ⟨-, rfl⟩
    · exact .inl ⟨a', ha', rfl, rfl⟩
    · exact .inr rfl
  | current i =>
    obtain ⟨a, ha, -, rfl⟩ := step_current hs
    rcases Machine.getElem?_set_cases ha' with ⟨-, ha'⟩ | ⟨rfl, rfl⟩
    · exact .inl ⟨a', ha', rfl, rfl⟩
    · exact .inl ⟨a, ha, rfl, rfl⟩
  | connectIsolated i =>
    obtain ⟨a, c, core, ha, -, -, rfl⟩ := step_connectIsolated hs
    rcases Machine.getElem?_set_cases ha' with ⟨-, ha'⟩ | ⟨rfl, rfl⟩
    · exact .inl ⟨a', ha', rfl, rfl⟩
    · exact .inl ⟨a, ha, rfl, rfl⟩
  | replace config rotation =>
    obtain rfl := Option.some.inj hs
    exact .inl ⟨a', ha', rfl, rfl⟩
  | newToken =>
    obtain rfl := Option.some.inj hs
    exact .inl ⟨a', ha', rfl, rfl⟩
  | tick nanos =>
    obtain rfl := Option.some.inj hs
    exact .inl ⟨a', ha', rfl, rfl⟩

end Step

section Run

variable {supply : TokenSupply τ} {config : κ} {rotation : RotationPolicy} {s : Serving ω κ τ}
  {guard : Serving ω κ τ → Action ω κ → Prop}

theorem owned_start : Owned supply (.start config rotation : Serving ω κ τ) := by
  have hnone : ∀ t c id, ¬ HeldBy (.start config rotation : Serving ω κ τ) t c id := by
    rintro t c id (⟨core, e, hget, hlook, -⟩ | ⟨i, a, hget, -⟩)
    · have hcore : core ∈ [⟨config, .new rotation⟩] := List.mem_of_getElem? hget
      rw [List.mem_singleton.mp hcore] at hlook
      exact absurd hlook (by simp)
    · exact absurd hget (by simp [Serving.start])
  exact ⟨fun t c id h => absurd h (hnone t c id), fun t c id _ _ h => absurd h (hnone t c id)⟩

/-- The run lemma: tokens are kept apart in every state reached. -/
theorem owned_of_reach (h : (serving ω κ supply).Reach guard (.start config rotation) s) :
    Owned supply s :=
  h.invariant owned_start fun _ _ _ hi _ hs => Owned.step hi hs

/-- Two sessions connected under one token belong to one owner. -/
theorem Owned.connected_eq (h : Owned supply s) {i j c c' : ℕ} {a b : SessionState ω τ} {t : τ}
    (ha : s.sessions[i]? = some a) (hb : s.sessions[j]? = some b)
    (hac : a.phase = .connected c t) (hbc : b.phase = .connected c' t) :
    c = c' ∧ a.identity = b.identity :=
  h.unique t c a.identity c' b.identity (.inr ⟨i, a, ha, rfl, hac⟩) (.inr ⟨j, b, hb, rfl, hbc⟩)

end Run

/-- **Isolation across hot swaps.**  In every interleaving of sessions and core
replacements, two sessions receive the same token only if their identities are
equal and they took the same core. -/
theorem same_token_of_reach (supply : TokenSupply τ) (config : κ) (rotation : RotationPolicy)
    (s : Serving ω κ τ)
    (h : (serving ω κ supply).Reach Machine.anyStep (.start config rotation) s)
    (i j c c' : ℕ) (a b : SessionState ω τ) (t : τ)
    (ha : s.sessions[i]? = some a) (hb : s.sessions[j]? = some b)
    (hac : a.phase = .connected c t) (hbc : b.phase = .connected c' t) :
    a.identity = b.identity ∧ c = c' := by
  obtain ⟨hcore, hid⟩ := (owned_of_reach h).connected_eq ha hb hac hbc
  exact ⟨hid, hcore⟩

/-- Tokens numbered in the order they are made. -/
def numbered : TokenSupply ℕ := ⟨id, Function.injective_id⟩

/-- Two visits of one user, with a swap between taking the core and connecting. -/
def twoVisits : List (Action Unit Unit) :=
  [.accept () "alice", .accept () "alice", .current 0, .current 1, .connectIsolated 0,
    .replace () .default, .connectIsolated 1]

theorem same_token_twoVisits :
    ∃ (s : Serving Unit Unit ℕ) (a b : SessionState Unit ℕ), s.sessions = [a, b] ∧
      a.phase = .connected 0 0 ∧ b.phase = .connected 0 0 ∧ a.identity = b.identity ∧ 0 = 0 := by
  obtain ⟨s, hreach, hs⟩ := Machine.exists_reach_of_exec (m := serving Unit Unit numbered)
    (G := Machine.anyStep) (s := .start () .default)
    (P := fun s => s.sessions = [⟨(), "alice", .connected 0 0⟩, ⟨(), "alice", .connected 0 0⟩])
    twoVisits (by decide)
  exact ⟨s, _, _, hs, rfl, rfl, same_token_of_reach numbered () .default s hreach 0 1 0 0 _ _ 0
    (by rw [hs]; rfl) (by rw [hs]; rfl) rfl rfl⟩

end Anonet.Core
