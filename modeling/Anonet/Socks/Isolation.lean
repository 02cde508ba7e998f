import Anonet.Core.Sessions
import Anonet.Socks.Grammar

/-!
# Isolation by SOCKS5 username

`negotiate_method` followed by `token_for`: which pairs of usernames are kept on
different tokens.  Clients without a username share one bucket, and that bucket
is named in band, by the identity `"default"`.

* `neverShare_iff` — **two clients that should be apart are apart, unless one
  authenticates as `default` and the other without a username.**
-/

namespace Anonet.Socks

open Anonet.Core Session

variable {κ τ : Type}

/-- Sessions are accepted with the identity their negotiation returns. -/
def Negotiated (_ : Serving Conn κ τ) : Action Conn κ → Prop
  | .accept client identity => (negotiateMethod.run client).1 = .ok identity
  | _ => True

/-- The client sends a whole negotiation that presents this username. -/
def Presents (client : Conn) (username : Option String) : Prop :=
  ∃ (n : Negotiation) (rest : List UInt8), client.unread = n.encode ++ rest ∧
    n.presented = username

/-- The username a client is to be told apart by: none, when it presents none or
an empty one. -/
def distinguishing (username : Option String) : Option String := username.filter (· ≠ "")

/-- In every run of the server, no two sessions that present these usernames on
one core are isolated by one token. -/
def NeverShare (supply : TokenSupply τ) (config : κ) (u v : Option String) : Prop :=
  ∀ (rotation : RotationPolicy) (s : Serving Conn κ τ),
    (serving Conn κ supply).Reach Negotiated (.start config rotation) s →
      ∀ (i j c : ℕ) (a b : SessionState Conn τ) (t t' : τ), i ≠ j →
        s.sessions[i]? = some a → s.sessions[j]? = some b →
        a.phase = .connected c t → b.phase = .connected c t' →
        Presents a.client u → Presents b.client v → t ≠ t'

/-- The identity is the username, or the shared bucket's name. -/
theorem identityOf_eq (u : Option String) :
    identityOf u = (distinguishing u).getD defaultIsolation := by
  cases u with
  | none => rfl
  | some name =>
    by_cases h : name = ""
    · subst h
      rfl
    · simp [identityOf, distinguishing, Option.filter, h]

/-! ## Identities in a run -/

theorem negotiated_identity {supply : TokenSupply τ} {config : κ} {rotation : RotationPolicy}
    {s : Serving Conn κ τ}
    (h : (serving Conn κ supply).Reach Negotiated (.start config rotation) s) :
    ∀ (i : ℕ) (a : SessionState Conn τ), s.sessions[i]? = some a →
      (negotiateMethod.run a.client).1 = .ok a.identity := by
  refine h.invariant (I := fun s => ∀ (i : ℕ) (a : SessionState Conn τ), s.sessions[i]? = some a →
    (negotiateMethod.run a.client).1 = .ok a.identity) ?_ ?_
  · intro i a ha
    exact absurd ha (by simp [Serving.start])
  · intro s action s' hi hg hs i a' ha'
    rcases session_of_step hs ha' with ⟨a, ha, hc, hid⟩ | rfl
    · rw [← hc, ← hid]
      exact hi i a ha
    · exact hg

/-- What a client presents decides its identity. -/
theorem identity_of_presents {client : Conn} {identity : String} {u : Option String}
    (h : (negotiateMethod.run client).1 = .ok identity) (hu : Presents client u) :
    identity = identityOf u := by
  obtain ⟨n, rest, hs, rfl⟩ := hu
  have hrun : negotiateMethod.run client = (.ok identity, (negotiateMethod.run client).2) :=
    Prod.ext h rfl
  obtain ⟨n', hs', rfl⟩ := exists_negotiation hrun
  exact (Negotiation.identity_eq (hs'.symm.trans hs)).1

/-! ## Which usernames are kept apart -/

/-- Different identities are always kept apart. -/
theorem neverShare_of_identity_ne (supply : TokenSupply τ) (config : κ) {u v : Option String}
    (h : identityOf u ≠ identityOf v) : NeverShare supply config u v := by
  intro rotation s hreach i j c a b t t' _ ha hb hac hbc hu hv htt
  subst htt
  obtain ⟨-, hid⟩ := (owned_of_reach hreach).connected_eq ha hb hac hbc
  rw [identity_of_presents (negotiated_identity hreach i a ha) hu,
    identity_of_presents (negotiated_identity hreach j b hb) hv] at hid
  exact h hid

/-- The core after `identity` has connected once. -/
def usedOnce (supply : TokenSupply τ) (config : κ) (identity : String) : AnonCore κ τ :=
  ⟨config, ⟨AList.insert identity ⟨supply.new 0, 0, 1⟩ ∅, .default⟩⟩

/-- Two sessions of one identity do share a token: one right after the other, on
a core as it is bootstrapped. -/
theorem exists_shared (supply : TokenSupply τ) (config : κ) {client client' : Conn}
    {identity : String} (h : (negotiateMethod.run client).1 = .ok identity)
    (h' : (negotiateMethod.run client').1 = .ok identity) :
    ∃ s : Serving Conn κ τ,
      (serving Conn κ supply).Reach Negotiated (.start config .default) s ∧
      s.sessions = [⟨client, identity, .connected 0 (supply.new 0)⟩,
        ⟨client', identity, .connected 0 (supply.new 0)⟩] := by
  have h₁ : (serving Conn κ supply).Reach Negotiated (.start config .default)
      ⟨[usedOnce supply config identity], ⟨0⟩,
        [⟨client, identity, .connected 0 (supply.new 0)⟩, ⟨client', identity, .took 0⟩], 1, 0⟩ :=
    .step (a := .connectIsolated 0) (.step (a := .current 1) (.step (a := .current 0)
      (.step (a := .accept client' identity) (.step (a := .accept client identity) .init h rfl)
        h' rfl) trivial rfl) trivial rfl) trivial rfl
  have htoken : ((usedOnce supply config identity).isolation.tokenFor supply 0 identity 1).1 =
      supply.new 0 := by
    rw [IsolationPolicy.tokenFor_of_live supply (AList.lookup_insert _) rfl]
  refine ⟨_, h₁.step (a := .connectIsolated 1) trivial rfl, ?_⟩
  show [_, (⟨client', identity, .connected 0
    ((usedOnce supply config identity).isolation.tokenFor supply 0 identity 1).1⟩ :
      SessionState Conn τ)] = _
  rw [htoken]

/-- A client that presents the username, if any. -/
def presenting : Option ShortText → Negotiation
  | some username => .userpass ⟨[methodUserpass], by decide⟩ (by decide) username ⟨[], by decide⟩
  | none => .noAuth ⟨[methodNoAuth], by decide⟩ (by decide) (by decide)

theorem presented_presenting (username : Option ShortText) :
    (presenting username).presented = username.map ShortText.text := by
  cases username <;> rfl

/-- Usernames of one identity are not kept apart. -/
theorem not_neverShare (supply : TokenSupply τ) (config : κ) (u v : Option ShortText)
    (h : identityOf (u.map ShortText.text) = identityOf (v.map ShortText.text)) :
    ¬ NeverShare supply config (u.map ShortText.text) (v.map ShortText.text) := by
  intro hnever
  have hneg : ∀ w : Option ShortText,
      (negotiateMethod.run (.accepted (presenting w).encode none)).1 =
        .ok (identityOf (w.map ShortText.text)) := by
    intro w
    have hrun := negotiateMethod_encode (presenting w) [] []
    rw [List.append_nil] at hrun
    rw [Conn.accepted, hrun, Negotiation.identity, presented_presenting]
  have hpres : ∀ w : Option ShortText, Presents (.accepted (presenting w).encode none)
      (w.map ShortText.text) :=
    fun w => ⟨presenting w, [], (List.append_nil _).symm, presented_presenting w⟩
  obtain ⟨s, hreach, hs⟩ := exists_shared supply config (hneg u) (by rw [hneg v, h])
  exact hnever .default s hreach 0 1 0 _ _ _ _ (by decide) (by rw [hs]; rfl) (by rw [hs]; rfl)
    rfl rfl (hpres u) (hpres v) rfl

/-- One client authenticates as `default` and the other presents no username. -/
def DefaultCollision (u v : Option String) : Prop :=
  distinguishing u = some defaultIsolation ∧ distinguishing v = none ∨
    distinguishing u = none ∧ distinguishing v = some defaultIsolation

/-- The shared bucket's name is the only way two usernames collide. -/
theorem identityOf_eq_iff {u v : Option String} (h : distinguishing u ≠ distinguishing v) :
    identityOf u = identityOf v ↔ DefaultCollision u v := by
  rw [identityOf_eq, identityOf_eq, DefaultCollision]
  cases hu : distinguishing u with
  | none =>
    cases hv : distinguishing v with
    | none => exact absurd (hu.trans hv.symm) h
    | some b => simp [eq_comm]
  | some a =>
    cases hv : distinguishing v with
    | none => simp
    | some b =>
      have hab : a ≠ b := fun e => h (by rw [hu, hv, e])
      simp [hab]

/-- A username without distinguishing part is absent or empty, and can be sent. -/
theorem exists_shortText_of_distinguishing {u : Option String}
    (h : distinguishing u = none ∨ distinguishing u = some defaultIsolation) :
    ∃ w : Option ShortText, w.map ShortText.text = u := by
  cases u with
  | none => exact ⟨none, rfl⟩
  | some name =>
    by_cases hname : name = ""
    · exact ⟨some ⟨name, by subst hname; decide⟩, rfl⟩
    · have hd : distinguishing (some name) = some name := by
        simp [distinguishing, Option.filter, hname]
      rw [hd] at h
      rcases h with h | h
      · exact absurd h (by simp)
      · obtain rfl := Option.some.inj h
        exact ⟨some ⟨defaultIsolation, by decide⟩, rfl⟩

/-- **The exact condition.**  Two usernames that should be told apart never share
a token if and only if they are not `default` on one side and no username on the
other. -/
theorem neverShare_iff (supply : TokenSupply τ) (config : κ) (u v : Option String)
    (h : distinguishing u ≠ distinguishing v) :
    NeverShare supply config u v ↔ ¬ DefaultCollision u v := by
  constructor
  · intro hnever hcol
    have hid := (identityOf_eq_iff h).mpr hcol
    obtain ⟨u, rfl⟩ := exists_shortText_of_distinguishing (u := u)
      (hcol.elim (fun h => .inr h.1) fun h => .inl h.1)
    obtain ⟨v, rfl⟩ := exists_shortText_of_distinguishing (u := v)
      (hcol.elim (fun h => .inl h.2) fun h => .inr h.2)
    exact not_neverShare supply config u v hid hnever
  · intro hcol
    exact neverShare_of_identity_ne supply config fun hid => hcol ((identityOf_eq_iff h).mp hid)

theorem neverShare_alice_bob :
    NeverShare numbered () (some "alice") (some "bob") ↔
      ¬ DefaultCollision (some "alice") (some "bob") :=
  neverShare_iff numbered () (some "alice") (some "bob") (by decide)

/-- A client that authenticates as `default` shares its token with a client that
does not authenticate. -/
theorem not_neverShare_default : ¬ NeverShare numbered () (some "default") none :=
  not_neverShare numbered () (some ⟨"default", by decide⟩) none (by decide)

end Anonet.Socks
