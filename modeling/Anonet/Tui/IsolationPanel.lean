import Anonet.Core.Rotation
import Anonet.Core.Sessions
import Mathlib.Data.String.Basic

/-!
# The isolation panel

`core/src/lib.rs::IsolationPolicy::snapshot` and `tui/src/lib.rs::refresh_snapshot`: the
rows the dashboard shows of the core that is current, sorted, since the map of entries
is walked in an order of its own.

* `Serving.note` — the calls of `token_for` on each core, beside the run.
* `Recorded` — the invariant: the entries of each core follow the calls on that core.
* `panel_of_reach` — **the panel is a function of the connections made on the current
  core**: whom it lists, in which order, how often and how long.
-/

namespace Anonet.Tui

open Anonet.Core Greedy

/-- One isolation bucket: its identity, its uses and its age. -/
structure IsolationRow where
  identity : String
  uses : UInt32
  age : ℕ
  deriving DecidableEq

section Panel

variable {ω κ τ : Type}

/-- `IsolationPolicy::snapshot`; `entries` is the map as its iterator yields it. -/
def snapshot (entries : List (Sigma fun _ : String => IsolationEntry τ)) (now : ℕ) :
    List IsolationRow :=
  entries.map fun e => ⟨e.1, e.2.uses, now - e.2.createdAt⟩

/-- `refresh_snapshot`, as far as the isolation panel goes. -/
def refreshSnapshot (entries : List (Sigma fun _ : String => IsolationEntry τ)) (now : ℕ) :
    List IsolationRow :=
  (snapshot entries now).mergeSort fun a b => decide (a.identity ≤ b.identity)

/-- The handouts of each core so far, latest first. -/
def note (s : Serving ω κ τ) (action : Core.Action ω κ) (s' : Serving ω κ τ)
    (handouts : ℕ → List (Handout τ)) : ℕ → List (Handout τ) :=
  match action with
  | .connectIsolated i =>
    match s'.sessions[i]? with
    | some ⟨_, identity, .connected c token⟩ =>
      Function.update handouts c (⟨⟨s.now, identity⟩, token⟩ :: handouts c)
    | _ => handouts
  | _ => handouts

/-- A session of `identity` has connected on core `c`. -/
def ConnectedOn (s : Serving ω κ τ) (c : ℕ) (identity : String) : Prop :=
  ∃ (i : ℕ) (a : SessionState ω τ) (token : τ), s.sessions[i]? = some a ∧
    a.identity = identity ∧ a.phase = .connected c token

/-! ## The entries of every core follow its calls -/

section Recorded

variable [DecidableEq τ] {supply : TokenSupply τ}

theorem tracks_mono {rotation : RotationPolicy} {policy : IsolationPolicy τ} {drawn drawn' : ℕ}
    {handouts : List (Handout τ)} (h : Tracks supply rotation ⟨policy, drawn, handouts⟩)
    (hle : drawn ≤ drawn') : Tracks supply rotation ⟨policy, drawn', handouts⟩ where
  rotation_eq := h.rotation_eq
  entry := h.entry
  drawn x hx := by
    obtain ⟨n, hn, hnew⟩ := h.drawn x hx
    exact ⟨n, lt_of_lt_of_le hn hle, hnew⟩
  granted := h.granted

omit [DecidableEq τ] in
theorem ownCalls_ne_nil {handouts : List (Handout τ)} {identity : String} :
    ownCalls handouts identity ≠ [] ↔ ∃ h ∈ handouts, h.call.identity = identity := by
  rw [ownCalls, Ne, List.map_eq_nil_iff, List.filter_eq_nil_iff]
  simp

theorem ne_nil_of_describes {rotation : RotationPolicy} {own : List (ℕ × τ)} {e : IsolationEntry τ}
    (h : Describes rotation own (some e)) : own ≠ [] := by
  rintro rfl
  cases h.1

/-- The entries of a core follow the calls that were made on it, none of them in the future. -/
def Follows (supply : TokenSupply τ) (drawn now : ℕ) (core : AnonCore κ τ)
    (handouts : List (Handout τ)) : Prop :=
  Tracks supply core.isolation.rotation ⟨core.isolation, drawn, handouts⟩ ∧
    ∀ h ∈ handouts, h.call.now ≤ now

theorem Follows.mono {drawn drawn' now now' : ℕ} {core : AnonCore κ τ}
    {handouts : List (Handout τ)} (h : Follows supply drawn now core handouts)
    (hdrawn : drawn ≤ drawn') (hnow : now ≤ now') : Follows supply drawn' now' core handouts :=
  ⟨tracks_mono h.1 hdrawn, fun x hx => le_trans (h.2 x hx) hnow⟩

theorem follows_new (drawn now : ℕ) (config : κ) (rotation : RotationPolicy) :
    Follows supply drawn now ⟨config, .new rotation⟩ [] :=
  ⟨tracks_start supply rotation drawn, by simp⟩

/-- One more call on the core. -/
theorem Follows.tokenFor {drawn now : ℕ} {core : AnonCore κ τ} {handouts : List (Handout τ)}
    (h : Follows supply drawn now core handouts) (identity : String) :
    Follows supply (core.isolation.tokenFor supply now identity drawn).2.2 now
      { core with isolation := (core.isolation.tokenFor supply now identity drawn).2.1 }
      (⟨⟨now, identity⟩, (core.isolation.tokenFor supply now identity drawn).1⟩ :: handouts) := by
  obtain ⟨htracks, hnow⟩ := h
  have hcall := htracks.call (c := ⟨now, identity⟩) hnow
  refine ⟨?_, ?_⟩
  · have hrot : (core.isolation.tokenFor supply now identity drawn).2.1.rotation =
        core.isolation.rotation := rfl
    rw [hrot]
    exact hcall
  · intro x hx
    rcases List.mem_cons.mp hx with rfl | hx
    · exact le_rfl
    · exact hnow x hx

omit [DecidableEq τ] in
/-- No call makes the supply go back. -/
theorem drawn_le_tokenFor (self : IsolationPolicy τ) (now : ℕ) (identity : String) (drawn : ℕ) :
    drawn ≤ (self.tokenFor supply now identity drawn).2.2 := by
  rcases self.live_or_needs now identity with ⟨e, hl, hlive⟩ | hneeds
  · rw [IsolationPolicy.tokenFor_of_live supply hl hlive]
  · rw [(IsolationPolicy.tokenFor_of_needs supply drawn hneeds).2.1]
    exact Nat.le_succ drawn

/-- The entries of every core follow the handouts noted for it, no others are noted, and
those noted are for the sessions that connected. -/
structure Recorded (supply : TokenSupply τ) (s : Serving ω κ τ)
    (handouts : ℕ → List (Handout τ)) : Prop where
  follows : ∀ c core, s.cores[c]? = some core → Follows supply s.drawn s.now core (handouts c)
  none : ∀ c, s.cores.length ≤ c → handouts c = []
  connected : ∀ c identity, (∃ h ∈ handouts c, h.call.identity = identity) ↔
    ConnectedOn s c identity

variable {s s' : Serving ω κ τ} {handouts : ℕ → List (Handout τ)} {i c : ℕ}
  {a a' : SessionState ω τ}

omit [DecidableEq τ] in
/-- A session that has not connected makes no difference. -/
theorem connectedOn_set (ha : s.sessions[i]? = some a)
    (hnot : ∀ c token, a.phase ≠ .connected c token) (c' : ℕ) (identity : String) :
    ConnectedOn { s with sessions := s.sessions.set i a' } c' identity ↔
      ConnectedOn s c' identity ∨ a'.identity = identity ∧ ∃ token,
        a'.phase = .connected c' token := by
  constructor
  · rintro ⟨j, b, token, hb, hidentity, hphase⟩
    rcases Machine.getElem?_set_cases hb with ⟨-, hb⟩ | ⟨rfl, rfl⟩
    · exact .inl ⟨j, b, token, hb, hidentity, hphase⟩
    · exact .inr ⟨hidentity, token, hphase⟩
  · rintro (⟨j, b, token, hb, hidentity, hphase⟩ | ⟨hidentity, token, hphase⟩)
    · have hij : i ≠ j := by
        rintro rfl
        cases ha.symm.trans hb
        exact hnot c' token hphase
      exact ⟨j, b, token, (List.getElem?_set_ne hij).trans hb, hidentity, hphase⟩
    · exact ⟨i, a', token, Machine.getElem?_set_self_of_some ha, hidentity, hphase⟩

omit [DecidableEq τ] in
theorem connectedOn_accept {client : ω} {identity other : String} :
    ConnectedOn { s with sessions := s.sessions ++ [⟨client, identity, .waiting⟩] } c other ↔
      ConnectedOn s c other := by
  constructor
  · rintro ⟨j, b, token, hb, hidentity, hphase⟩
    rcases Machine.getElem?_concat_cases hb with hb | ⟨-, rfl⟩
    · exact ⟨j, b, token, hb, hidentity, hphase⟩
    · cases hphase
  · rintro ⟨j, b, token, hb, hidentity, hphase⟩
    have hlt := (List.getElem?_eq_some_iff.mp hb).1
    exact ⟨j, b, token, (List.getElem?_append_left hlt).trans hb, hidentity, hphase⟩

theorem Recorded.mono (h : Recorded supply s handouts) (hcores : s'.cores = s.cores)
    (hdrawn : s.drawn ≤ s'.drawn) (hnow : s.now ≤ s'.now)
    (hconnected : ∀ c identity, ConnectedOn s' c identity ↔ ConnectedOn s c identity) :
    Recorded supply s' handouts where
  follows c core hc := (h.follows c core (hcores ▸ hc)).mono hdrawn hnow
  none c hc := h.none c (hcores ▸ hc)
  connected c identity := (h.connected c identity).trans (hconnected c identity).symm

theorem recorded_start (config : κ) (rotation : RotationPolicy) :
    Recorded supply (.start config rotation : Serving ω κ τ) fun _ => [] where
  follows c core hc := by
    obtain rfl := List.mem_singleton.mp (List.mem_of_getElem? hc)
    exact follows_new _ _ config rotation
  none _ _ := rfl
  connected c identity := by
    refine iff_of_false (by simp) ?_
    rintro ⟨i, a, token, ha, -⟩
    cases ha

/-- **The step lemma.** -/
theorem Recorded.step {action : Core.Action ω κ} (h : Recorded supply s handouts)
    (hs : s.step supply action = some s') : Recorded supply s' (note s action s' handouts) := by
  cases action with
  | accept client identity =>
    obtain rfl := Option.some.inj hs
    exact h.mono rfl le_rfl le_rfl fun _ _ => connectedOn_accept
  | current i =>
    obtain ⟨a, ha, hphase, rfl⟩ := step_current hs
    refine h.mono rfl le_rfl le_rfl fun c identity => ?_
    rw [connectedOn_set ha (by simp [hphase]) c identity]
    simp
  | connectIsolated i =>
    obtain ⟨a, c, core, ha, hphase, hcore, rfl⟩ := step_connectIsolated hs
    have hlt : c < s.cores.length := (List.getElem?_eq_some_iff.mp hcore).1
    have hnote : note s (.connectIsolated i : Core.Action ω κ) { s with
        cores := s.cores.set c { core with
          isolation := (core.isolation.tokenFor supply s.now a.identity s.drawn).2.1 }
        sessions := s.sessions.set i { a with
          phase := .connected c (core.isolation.tokenFor supply s.now a.identity s.drawn).1 }
        drawn := (core.isolation.tokenFor supply s.now a.identity s.drawn).2.2 } handouts =
        Function.update handouts c (⟨⟨s.now, a.identity⟩,
          (core.isolation.tokenFor supply s.now a.identity s.drawn).1⟩ :: handouts c) := by
      unfold note
      simp only [Machine.getElem?_set_self_of_some ha]
    rw [hnote]
    refine ⟨?_, ?_, ?_⟩
    · intro c' core' hc'
      rcases Machine.getElem?_set_cases hc' with ⟨hne, hc'⟩ | ⟨rfl, rfl⟩
      · rw [Function.update_of_ne hne]
        exact (h.follows c' core' hc').mono (drawn_le_tokenFor _ _ _ _) le_rfl
      · rw [Function.update_self]
        exact (h.follows c' core hcore).tokenFor a.identity
    · intro c' hc'
      have hlen : s.cores.length ≤ c' := by simpa using hc'
      have hne : c' ≠ c := by omega
      rw [Function.update_of_ne hne]
      exact h.none c' hlen
    · intro c' identity
      have hset : ConnectedOn { s with sessions := s.sessions.set i { a with
          phase := .connected c (core.isolation.tokenFor supply s.now a.identity s.drawn).1 } }
          c' identity ↔ _ := connectedOn_set ha (by simp [hphase]) c' identity
      refine Iff.trans ?_ hset.symm
      rw [← h.connected c' identity]
      by_cases hc : c' = c
      · subst hc
        rw [Function.update_self]
        simp [or_comm]
      · rw [Function.update_of_ne hc]
        simp [Ne.symm hc]
  | replace config rotation =>
    obtain rfl := Option.some.inj hs
    refine ⟨?_, ?_, h.connected⟩
    · intro c core hc
      rcases Machine.getElem?_concat_cases hc with hc | ⟨rfl, rfl⟩
      · exact h.follows c core hc
      · show Follows supply s.drawn s.now _ (handouts s.cores.length)
        rw [h.none _ le_rfl]
        exact follows_new _ _ config rotation
    · intro c hc
      have hlen : s.cores.length + 1 ≤ c := by simpa using hc
      exact h.none c (Nat.le_of_succ_le hlen)
  | newToken =>
    obtain rfl := Option.some.inj hs
    exact h.mono rfl (Nat.le_succ _) le_rfl fun _ _ => Iff.rfl
  | tick nanos =>
    obtain rfl := Option.some.inj hs
    exact h.mono rfl le_rfl (Nat.le_add_right _ _) fun _ _ => Iff.rfl

end Recorded

/-! ## The rows -/

section Rows

variable {entries : List (Sigma fun _ : String => IsolationEntry τ)} {now : ℕ}

theorem mem_refreshSnapshot {row : IsolationRow} : row ∈ refreshSnapshot entries now ↔
    ∃ identity e, ⟨identity, e⟩ ∈ entries ∧ row = ⟨identity, e.uses, now - e.createdAt⟩ := by
  rw [refreshSnapshot, List.mem_mergeSort, snapshot, List.mem_map]
  constructor
  · rintro ⟨⟨identity, e⟩, he, rfl⟩
    exact ⟨identity, e, he, rfl⟩
  · rintro ⟨identity, e, he, rfl⟩
    exact ⟨⟨identity, e⟩, he, rfl⟩

/-- Whatever the order of the map, the rows are sorted, and no identity has two. -/
theorem pairwise_refreshSnapshot (hkeys : entries.NodupKeys) :
    ((refreshSnapshot entries now).map (·.identity)).Pairwise (· < ·) := by
  have hsorted : ((refreshSnapshot entries now).map (·.identity)).Pairwise (· ≤ ·) := by
    rw [List.pairwise_map]
    refine (List.pairwise_mergeSort ?_ ?_ _).imp of_decide_eq_true
    · intro a b c hab hbc
      exact decide_eq_true (le_trans (of_decide_eq_true hab) (of_decide_eq_true hbc))
    · intro a b
      rw [Bool.or_eq_true, decide_eq_true_iff, decide_eq_true_iff]
      exact le_total a.identity b.identity
  have hnodup : ((refreshSnapshot entries now).map (·.identity)).Nodup := by
    have hperm := (List.mergeSort_perm (snapshot entries now)
      fun a b => decide (a.identity ≤ b.identity)).map (·.identity)
    refine hperm.nodup_iff.mpr ?_
    rw [snapshot, List.map_map]
    exact hkeys
  exact (hsorted.and hnodup).imp fun h => lt_of_le_of_ne h.1 h.2

end Rows

/-! ## In every run -/

/-- **The panel tells of the current core's connections, and of nothing else.**  In every
interleaving of sessions, swaps and the passage of time, and in whatever order the map is
walked: the rows are sorted and no identity has two; an identity has a row exactly when one
of its sessions has connected on the core that is current now; a row's age is the time since
the identity's current token was first handed out; and where uses are limited, its uses are
the number of times that token was. -/
theorem panel_of_reach [DecidableEq τ] (supply : TokenSupply τ) (config : κ)
    (rotation : RotationPolicy) (s : Serving ω κ τ) (handouts : ℕ → List (Handout τ))
    (h : ((serving ω κ supply).watch note).Reach Machine.anyStep
      (.start config rotation, fun _ => []) (s, handouts))
    (core : AnonCore κ τ) (hcore : s.cores[s.handle.current]? = some core)
    (entries : List (Sigma fun _ : String => IsolationEntry τ))
    (hentries : entries.Perm core.isolation.tokens.entries) :
    ((refreshSnapshot entries s.now).map (·.identity)).Pairwise (· < ·) ∧
    (∀ identity, identity ∈ (refreshSnapshot entries s.now).map (·.identity) ↔
      ConnectedOn s s.handle.current identity) ∧
    ∀ row ∈ refreshSnapshot entries s.now,
      (∃ first ∈ (current (ownCalls (handouts s.handle.current) row.identity)).getLast?,
        first + row.age = s.now) ∧
      ∀ limit ∈ core.isolation.rotation.maxUses, row.uses.toNat =
        (current (ownCalls (handouts s.handle.current) row.identity)).length := by
  have hrecorded : Recorded supply s handouts := by
    refine h.invariant (I := fun p => Recorded supply p.1 p.2) (recorded_start config rotation) ?_
    rintro ⟨s, g⟩ a ⟨s', g'⟩ hi _ hs
    obtain ⟨hs, hg⟩ := Machine.watch_step.mp hs
    rw [hg]
    exact hi.step hs
  obtain ⟨htracks, hnow⟩ := hrecorded.follows _ _ hcore
  have hlookup : ∀ identity e, ⟨identity, e⟩ ∈ entries ↔
      core.isolation.tokens.lookup identity = some e := by
    intro identity e
    rw [hentries.mem_iff]
    exact AList.mem_lookup_iff.symm
  refine ⟨pairwise_refreshSnapshot
    ((List.perm_nodupKeys hentries).mpr core.isolation.tokens.nodupKeys), ?_, ?_⟩
  · intro identity
    rw [← hrecorded.connected, ← ownCalls_ne_nil, List.mem_map]
    have hentry := htracks.entry identity
    constructor
    · rintro ⟨row, hrow, rfl⟩
      obtain ⟨identity, e, he, rfl⟩ := mem_refreshSnapshot.mp hrow
      rw [(hlookup _ _).mp he] at hentry
      exact ne_nil_of_describes hentry
    · intro hne
      cases hl : core.isolation.tokens.lookup identity with
      | none =>
        rw [hl] at hentry
        exact absurd hentry hne
      | some e =>
        exact ⟨_, mem_refreshSnapshot.mpr ⟨identity, e, (hlookup _ _).mpr hl, rfl⟩, rfl⟩
  · intro row hrow
    obtain ⟨identity, e, he, rfl⟩ := mem_refreshSnapshot.mp hrow
    have hentry := htracks.entry identity
    rw [(hlookup _ _).mp he] at hentry
    obtain ⟨-, hfirst, huses⟩ := hentry
    refine ⟨⟨e.createdAt, hfirst, ?_⟩, fun limit hlimit => (huses limit hlimit).1⟩
    obtain ⟨x, hx, hxe⟩ := exists_of_mem_current (List.mem_of_getLast? hfirst)
    obtain ⟨handout, hhandout, hcall, -⟩ := mem_of_mem_ownCalls hx
    have hle : e.createdAt ≤ s.now := by
      rw [← hxe, ← hcall]
      exact hnow handout hhandout
    exact Nat.add_sub_of_le hle

end Panel

/-- Two visits, a swap, and one visit on the new core. -/
def swapped : List (Core.Action Unit Unit) :=
  [.accept () "bob", .accept () "alice", .accept () "alice", .current 0, .current 1,
    .connectIsolated 0, .replace () .default, .current 2, .connectIsolated 1, .tick 7,
    .connectIsolated 2, .tick 5]

/-- Only the visit on the new core is listed. -/
theorem panel_swapped : ∃ (s : Serving Unit Unit ℕ) (core : AnonCore Unit ℕ),
    s.cores[s.handle.current]? = some core ∧
    "alice" ∈ (refreshSnapshot core.isolation.tokens.entries s.now).map (·.identity) ∧
    "bob" ∉ (refreshSnapshot core.isolation.tokens.entries s.now).map (·.identity) := by
  obtain ⟨s, hreach, hcurrent, hsessions, hcores⟩ := Machine.exists_reach_of_exec
    (m := serving Unit Unit numbered) (G := Machine.anyStep) (s := .start () .default)
    (P := fun s => s.handle.current = 1 ∧ s.sessions = [⟨(), "bob", .connected 0 0⟩,
      ⟨(), "alice", .connected 0 1⟩, ⟨(), "alice", .connected 1 2⟩] ∧ s.cores.length = 2)
    swapped (by decide)
  obtain ⟨g, hwatch⟩ := hreach.watch note fun _ => []
  have hlt : s.handle.current < s.cores.length := by omega
  obtain ⟨-, hlisted, -⟩ := panel_of_reach numbered () .default s g (hwatch.mono fun _ _ _ => trivial)
    s.cores[s.handle.current] (List.getElem?_eq_getElem hlt) _ (.refl _)
  refine ⟨s, _, List.getElem?_eq_getElem hlt, (hlisted "alice").mpr ?_, ?_⟩
  · exact ⟨2, _, 2, by rw [hsessions]; rfl, rfl, by rw [hcurrent]⟩
  · rw [hlisted "bob", hcurrent]
    rintro ⟨i, a, token, ha, hidentity, hphase⟩
    have hmem := List.mem_of_getElem? ha
    rw [hsessions] at hmem
    simp only [List.mem_cons, List.not_mem_nil, or_false] at hmem
    rcases hmem with rfl | rfl | rfl
    · cases hphase
    · cases hphase
    · exact absurd hidentity (by decide)

end Anonet.Tui
