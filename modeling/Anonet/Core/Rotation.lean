import Anonet.Core.Isolation
import Anonet.Library.Greedy
import Mathlib.Data.List.Induction

/-!
# Token rotation over whole runs

`token_for` keeps one entry for each identity and throws it away when it is used
up.  Over a run of calls this amounts to cutting the calls of each identity into
groups, greedily, with a token for each group, whatever other identities call in
between.

* `Run.call`, `Run.of` — a run of calls, and what it handed out.
* `RotationPolicy.Closed` — when a group takes no further call.
* `Describes` — what an identity's entry says about its calls so far;
  `Tracks.call` is the step lemma.
* `tokens_greedy` — **the tokens of an identity are the greedy partition of its own
  calls, and the counter of uses counts the current group.**
-/

namespace Anonet.Core

open Greedy

/-! ## Runs -/

/-- A call of `token_for`, and when. -/
structure TokenCall where
  now : ℕ
  identity : String
  deriving DecidableEq

/-- A call and the token it returned. -/
structure Handout (τ : Type) where
  call : TokenCall
  token : τ

/-- The policy after some calls, the number of tokens made by then, and the calls
with their tokens, latest first. -/
structure Run (τ : Type) where
  policy : IsolationPolicy τ
  drawn : ℕ
  handouts : List (Handout τ)

section Runs

variable {τ : Type}

def Run.call (supply : TokenSupply τ) (r : Run τ) (c : TokenCall) : Run τ :=
  let (token, policy, drawn) := r.policy.tokenFor supply c.now c.identity r.drawn
  ⟨policy, drawn, ⟨c, token⟩ :: r.handouts⟩

/-- All calls in turn, on a policy that has handed out nothing yet. -/
def Run.of (supply : TokenSupply τ) (rotation : RotationPolicy) (drawn : ℕ)
    (calls : List TokenCall) : Run τ :=
  calls.foldl (Run.call supply) ⟨.new rotation, drawn, []⟩

/-- The instants and tokens of one identity's calls. -/
def ownCalls (handouts : List (Handout τ)) (identity : String) : List (ℕ × τ) :=
  (handouts.filter (·.call.identity = identity)).map fun h => (h.call.now, h.token)

/-- The instants of one identity's calls, latest first. -/
def ownTimes (calls : List TokenCall) (identity : String) : List ℕ :=
  ((calls.filter (·.identity = identity)).map (·.now)).reverse

variable {earlier : List (Handout τ)} {h : Handout τ} {identity : String}

theorem ownCalls_cons_self (h : Handout τ) (earlier : List (Handout τ)) :
    ownCalls (h :: earlier) h.call.identity =
      (h.call.now, h.token) :: ownCalls earlier h.call.identity := by
  simp [ownCalls]

theorem ownCalls_cons_of_ne (hne : h.call.identity ≠ identity) :
    ownCalls (h :: earlier) identity = ownCalls earlier identity := by
  simp [ownCalls, hne]

theorem mem_of_mem_ownCalls {x : ℕ × τ} (hx : x ∈ ownCalls earlier identity) :
    ∃ h ∈ earlier, h.call.now = x.1 ∧ h.token = x.2 := by
  obtain ⟨h, hh, rfl⟩ := List.mem_map.mp hx
  exact ⟨h, (List.mem_filter.mp hh).1, rfl, rfl⟩

theorem mem_token_of_ownCalls {token : τ} (ht : token ∈ (ownCalls earlier identity).map Prod.snd) :
    token ∈ earlier.map (·.token) := by
  obtain ⟨x, hx, rfl⟩ := List.mem_map.mp ht
  obtain ⟨h, hh, -, htoken⟩ := mem_of_mem_ownCalls hx
  exact List.mem_map.mpr ⟨h, hh, htoken⟩

/-- The history keeps every call. -/
theorem calls_of (supply : TokenSupply τ) (rotation : RotationPolicy) (drawn : ℕ)
    (calls : List TokenCall) :
    (Run.of supply rotation drawn calls).handouts.map (·.call) = calls.reverse := by
  induction calls using List.reverseRecOn with
  | nil => rfl
  | append_singleton calls c ih =>
    rw [Run.of, List.foldl_append, List.reverse_append, ← ih]
    rfl

theorem ownTimes_of (supply : TokenSupply τ) (rotation : RotationPolicy) (drawn : ℕ)
    (calls : List TokenCall) (identity : String) :
    (ownCalls (Run.of supply rotation drawn calls).handouts identity).map Prod.fst =
      ownTimes calls identity := by
  rw [ownCalls, ownTimes, List.map_map, ← List.map_reverse, ← List.filter_reverse,
    ← calls_of supply rotation drawn, List.filter_map, List.map_map]
  rfl

end Runs

/-- A token that was handed out at the instants of `group`, latest first, is not
handed out again: it has been often enough, or its first time is too long ago. -/
def RotationPolicy.Closed (rotation : RotationPolicy) (group : List ℕ) (now : ℕ) : Prop :=
  (∃ max ∈ rotation.maxUses, max.toNat ≤ group.length) ∨
    ∃ max ∈ rotation.maxAge, ∃ first ∈ group.getLast?, first + max ≤ now

instance (rotation : RotationPolicy) (group : List ℕ) (now : ℕ) :
    Decidable (rotation.Closed group now) :=
  inferInstanceAs (Decidable ((∃ max ∈ rotation.maxUses, _) ∨ ∃ max ∈ rotation.maxAge, _))

/-! ## What an entry says -/

section Describes

variable {τ : Type} [DecidableEq τ]

/-- An identity's entry tells the current group of its calls: its token, its first
instant and, where uses are limited, its size. -/
def Describes (rotation : RotationPolicy) (own : List (ℕ × τ)) :
    Option (IsolationEntry τ) → Prop
  | none => own = []
  | some e =>
    own.head?.map Prod.snd = some e.token ∧ (current own).getLast? = some e.createdAt ∧
      ∀ limit ∈ rotation.maxUses,
        e.uses.toNat = (current own).length ∧ e.uses.toNat ≤ max limit.toNat 1

variable {rotation : RotationPolicy} {own : List (ℕ × τ)} {e : IsolationEntry τ}
  {self : IsolationPolicy τ} {now : ℕ}

/-- The code's test of an entry is the test of its group. -/
theorem stale_iff_closed (hrot : self.rotation = rotation) (h : Describes rotation own (some e))
    (hnow : ∀ x ∈ own, x.1 ≤ now) :
    self.stale now e = true ↔ rotation.Closed (current own) now := by
  obtain ⟨-, hfirst, huses⟩ := h
  have hle : e.createdAt ≤ now := by
    have hmem : e.createdAt ∈ current own := List.mem_of_getLast? hfirst
    obtain ⟨x, hx, hxe⟩ := exists_of_mem_current hmem
    exact hxe ▸ hnow x hx
  rw [IsolationPolicy.stale, hrot, Bool.or_eq_true, RotationPolicy.Closed, or_comm]
  refine or_congr ?_ ?_
  · cases hmax : rotation.maxUses with
    | none => simp
    | some max =>
      rw [← (huses max hmax).1]
      simp [UInt32.le_iff_toNat_le]
  · cases hmax : rotation.maxAge with
    | none => simp
    | some max =>
      simp [hfirst]
      omega

/-- One more use of the current token. -/
theorem Describes.again (hrot : self.rotation = rotation) (h : Describes rotation own (some e))
    (hlive : self.stale now e = false) :
    Describes rotation ((now, e.token) :: own) (some { e with uses := e.uses + 1 }) := by
  obtain ⟨htoken, hfirst, huses⟩ := h
  refine ⟨rfl, ?_, ?_⟩
  · rw [current_cons_of_head htoken]
    cases hgroup : current own with
    | nil =>
      rw [hgroup] at hfirst
      cases hfirst
    | cons a as =>
      rw [List.getLast?_cons_cons, ← hgroup]
      exact hfirst
  · intro limit hlimit
    obtain ⟨hlength, -⟩ := huses limit hlimit
    -- the limit is not reached, so the counter has room for one more
    have hlt : e.uses.toNat < limit.toNat := by
      rw [IsolationPolicy.stale, hrot, Bool.or_eq_false_iff] at hlive
      have hlimitlive := hlive.2
      rw [show rotation.maxUses = some limit from hlimit] at hlimitlive
      simpa [UInt32.le_iff_toNat_le] using hlimitlive
    have hadd : (e.uses + 1).toNat = e.uses.toNat + 1 := by
      have hlimitlt := limit.toNat_lt
      rw [UInt32.toNat_add]
      exact Nat.mod_eq_of_lt (by simp; omega)
    show (e.uses + 1).toNat = _ ∧ (e.uses + 1).toNat ≤ _
    rw [current_cons_of_head htoken, hadd]
    exact ⟨congrArg (· + 1) hlength, le_trans hlt (Nat.le_max_left _ _)⟩

/-- The first use of a fresh token. -/
theorem Describes.fresh {token : τ} (hfresh : token ∉ own.map Prod.snd) :
    Describes rotation ((now, token) :: own) (some ⟨token, now, 1⟩) := by
  refine ⟨rfl, ?_, ?_⟩
  · rw [current_cons_of_fresh hfresh]
    rfl
  · intro limit _
    rw [current_cons_of_fresh hfresh]
    exact ⟨rfl, Nat.le_max_right _ _⟩

end Describes

/-! ## What a call hands out -/

section Granted

variable {τ : Type} [DecidableEq τ]

/-- A call gets a token nobody has had before if it is due one, and only then;
otherwise it gets the identity's current token again. -/
def Granted (rotation : RotationPolicy) (earlier : List (Handout τ)) (h : Handout τ) : Prop :=
  (h.token ∉ earlier.map (·.token) ↔
    Due rotation.Closed (ownCalls earlier h.call.identity) h.call.now) ∧
  (h.token ∈ earlier.map (·.token) →
    (ownCalls earlier h.call.identity).head?.map Prod.snd = some h.token)

variable {rotation : RotationPolicy}

/-- Seen by one identity, a run follows the rule. -/
theorem greedily_ownCalls {handouts : List (Handout τ)}
    (hgranted : ∀ h earlier, h :: earlier <:+ handouts → Granted rotation earlier h)
    (identity : String) : Greedily rotation.Closed (ownCalls handouts identity) := by
  induction handouts with
  | nil => exact trivial
  | cons h earlier ih =>
    have hrest := ih fun h' earlier' hs =>
      hgranted h' earlier' (hs.trans (List.suffix_cons h earlier))
    by_cases hid : h.call.identity = identity
    · subst hid
      obtain ⟨hnew, hold⟩ := hgranted h earlier List.suffix_rfl
      rw [ownCalls_cons_self]
      refine ⟨hrest, fun hdue hmem => hnew.mpr hdue (mem_token_of_ownCalls hmem), ?_⟩
      exact fun hdue => hold (not_not.mp fun hmem => hdue (hnew.mp hmem))
    · rw [ownCalls_cons_of_ne hid]
      exact hrest

end Granted

/-! ## The invariant -/

section Tracks

variable {τ : Type} [DecidableEq τ] {supply : TokenSupply τ} {rotation : RotationPolicy}
  {r : Run τ} {c : TokenCall}

/-- The map of entries follows the calls so far. -/
structure Tracks (supply : TokenSupply τ) (rotation : RotationPolicy) (r : Run τ) : Prop where
  rotation_eq : r.policy.rotation = rotation
  entry : ∀ identity, Describes rotation (ownCalls r.handouts identity)
    (r.policy.tokens.lookup identity)
  drawn : ∀ h ∈ r.handouts, ∃ n < r.drawn, supply.new n = h.token
  granted : ∀ h earlier, h :: earlier <:+ r.handouts → Granted rotation earlier h

/-- The next token of the supply is nobody's yet. -/
theorem Tracks.new_not_mem (ht : Tracks supply rotation r) :
    supply.new r.drawn ∉ r.handouts.map (·.token) := by
  intro hmem
  obtain ⟨h, hh, htoken⟩ := List.mem_map.mp hmem
  obtain ⟨n, hn, hnew⟩ := ht.drawn h hh
  have heq : n = r.drawn := supply.fresh (hnew.trans htoken)
  omega

/-- An identity needs a token when its next call is due one. -/
theorem Tracks.needs_iff (ht : Tracks supply rotation r)
    (hnow : ∀ h ∈ r.handouts, h.call.now ≤ c.now) :
    r.policy.Needs c.now c.identity ↔
      Due rotation.Closed (ownCalls r.handouts c.identity) c.now := by
  have hown : ∀ x ∈ ownCalls r.handouts c.identity, x.1 ≤ c.now := by
    intro x hx
    obtain ⟨h, hh, hx1, -⟩ := mem_of_mem_ownCalls hx
    exact hx1 ▸ hnow h hh
  have hentry := ht.entry c.identity
  unfold IsolationPolicy.Needs Due
  cases hl : r.policy.tokens.lookup c.identity with
  | none =>
    rw [hl] at hentry
    exact iff_of_true (fun e he => absurd he (by simp)) (.inl hentry)
  | some e =>
    rw [hl] at hentry
    have hne : ownCalls r.handouts c.identity ≠ [] := by
      intro hnil
      have htoken := hentry.1
      rw [hnil] at htoken
      cases htoken
    rw [← stale_iff_closed ht.rotation_eq hentry hown, or_iff_right hne]
    exact ⟨fun h => h e rfl, fun h e' he => Option.some.inj he ▸ h⟩

/-- What makes a run with one more call follow: the call's own entry does, and no
other changed. -/
theorem Tracks.extend {r' : Run τ} {token : τ} {entry : IsolationEntry τ}
    (ht : Tracks supply rotation r) (hhandouts : r'.handouts = ⟨c, token⟩ :: r.handouts)
    (hrot : r'.policy.rotation = r.policy.rotation) (hdrawn : r.drawn ≤ r'.drawn)
    (hself : r'.policy.tokens.lookup c.identity = some entry)
    (hothers : ∀ identity, identity ≠ c.identity →
      r'.policy.tokens.lookup identity = r.policy.tokens.lookup identity)
    (hentry : Describes rotation ((c.now, token) :: ownCalls r.handouts c.identity) (some entry))
    (hsupply : ∃ n < r'.drawn, supply.new n = token)
    (hgranted : Granted rotation r.handouts ⟨c, token⟩) : Tracks supply rotation r' := by
  refine ⟨hrot.trans ht.rotation_eq, ?_, ?_, ?_⟩
  · intro identity
    rw [hhandouts]
    by_cases hid : c.identity = identity
    · subst hid
      rw [hself, ownCalls_cons_self]
      exact hentry
    · rw [ownCalls_cons_of_ne hid, hothers identity (Ne.symm hid)]
      exact ht.entry identity
  · rw [hhandouts]
    intro h hh
    rcases List.mem_cons.mp hh with rfl | hh
    · exact hsupply
    · obtain ⟨n, hn, hnew⟩ := ht.drawn h hh
      exact ⟨n, lt_of_lt_of_le hn hdrawn, hnew⟩
  · rw [hhandouts]
    intro h earlier hs
    rcases List.suffix_cons_iff.mp hs with heq | hs
    · cases heq
      exact hgranted
    · exact ht.granted h earlier hs

/-- **The step lemma.** -/
theorem Tracks.call (ht : Tracks supply rotation r)
    (hnow : ∀ h ∈ r.handouts, h.call.now ≤ c.now) : Tracks supply rotation (r.call supply c) := by
  have hneeds := ht.needs_iff hnow
  have hothers : ∀ identity, identity ≠ c.identity →
      (r.call supply c).policy.tokens.lookup identity = r.policy.tokens.lookup identity :=
    fun _ hid => IsolationPolicy.lookup_tokenFor_of_ne supply hid
  rcases r.policy.live_or_needs c.now c.identity with ⟨e, hl, hlive⟩ | hn
  · -- the current token once more
    have hentry := ht.entry c.identity
    rw [hl] at hentry
    have hmem : e.token ∈ r.handouts.map (·.token) := by
      obtain ⟨x, hx, hxe⟩ := Option.map_eq_some_iff.mp hentry.1
      exact mem_token_of_ownCalls (List.mem_map.mpr ⟨x, List.mem_of_mem_head? hx, hxe⟩)
    have hdue : ¬ Due rotation.Closed (ownCalls r.handouts c.identity) c.now := by
      intro hdue
      have hstale := hneeds.mpr hdue e hl
      rw [hlive] at hstale
      cases hstale
    have hcall : r.call supply c = ⟨{ r.policy with
        tokens := r.policy.tokens.insert c.identity { e with uses := e.uses + 1 } }, r.drawn,
        ⟨c, e.token⟩ :: r.handouts⟩ := by
      rw [Run.call, IsolationPolicy.tokenFor_of_live supply hl hlive]
    rw [hcall] at hothers ⊢
    refine ht.extend rfl rfl le_rfl (AList.lookup_insert _) hothers
      (hentry.again ht.rotation_eq hlive) ?_ ⟨iff_of_false (fun hno => hno hmem) hdue, ?_⟩
    · obtain ⟨h, hh, htoken⟩ := List.mem_map.mp hmem
      exact htoken ▸ ht.drawn h hh
    · exact fun _ => hentry.1
  · -- a token nobody has had
    obtain ⟨htoken, hdrawn, hlookup⟩ := IsolationPolicy.tokenFor_of_needs supply r.drawn hn
    have hfresh := ht.new_not_mem
    have hhandouts : (r.call supply c).handouts = ⟨c, supply.new r.drawn⟩ :: r.handouts := by
      rw [← htoken]
      rfl
    have hdrawn' : (r.call supply c).drawn = r.drawn + 1 := hdrawn
    refine ht.extend hhandouts rfl (by omega) hlookup hothers ?_ ⟨r.drawn, by omega, rfl⟩ ?_
    · exact .fresh fun hmem => hfresh (mem_token_of_ownCalls hmem)
    · exact ⟨iff_of_true hfresh (hneeds.mp hn), fun hmem => absurd hmem hfresh⟩

theorem tracks_start (supply : TokenSupply τ) (rotation : RotationPolicy) (drawn : ℕ) :
    Tracks supply rotation ⟨.new rotation, drawn, []⟩ := by
  refine ⟨rfl, ?_, by simp, ?_⟩
  · intro identity
    rw [IsolationPolicy.lookup_new]
    rfl
  · intro h earlier hs
    exact absurd (List.suffix_nil.mp hs) (List.cons_ne_nil h earlier)

/-- The run of all calls. -/
theorem tracks_of (supply : TokenSupply τ) (rotation : RotationPolicy) (drawn : ℕ)
    {calls : List TokenCall} (hsorted : calls.Pairwise (·.now ≤ ·.now)) :
    Tracks supply rotation (Run.of supply rotation drawn calls) := by
  induction calls using List.reverseRecOn with
  | nil => exact tracks_start supply rotation drawn
  | append_singleton calls c ih =>
    obtain ⟨hcalls, -, hlast⟩ := List.pairwise_append.mp hsorted
    rw [Run.of, List.foldl_append]
    refine (ih hcalls).call ?_
    intro h hh
    have hmem : h.call ∈ calls.reverse :=
      calls_of supply rotation drawn calls ▸ List.mem_map_of_mem hh
    exact hlast h.call (List.mem_reverse.mp hmem) c List.mem_cons_self

end Tracks

/-- **Rotation is greedy.**  In every run of calls at instants that never go back,
under every rotation policy: a call gets a token nobody has had before exactly when
it is its identity's first, or the identity's current token has been handed out
`max_uses` times, or `max_age` has passed since it first was, and otherwise it gets
the current token; so the calls of an identity are the greedy partition of its own
instants, each group under a token of its own; and a limited counter of uses is the
size of the current group, which never exceeds the limit, or one. -/
theorem tokens_greedy {τ : Type} [DecidableEq τ] (supply : TokenSupply τ)
    (rotation : RotationPolicy) (drawn : ℕ) (calls : List TokenCall)
    (hsorted : calls.Pairwise (·.now ≤ ·.now)) :
    (∀ h earlier, h :: earlier <:+ (Run.of supply rotation drawn calls).handouts →
      Granted rotation earlier h) ∧
    (∀ identity, ∃ tokens : List τ, tokens.Nodup ∧
      ownCalls (Run.of supply rotation drawn calls).handouts identity =
        label (greedy rotation.Closed (ownTimes calls identity)) tokens) ∧
    ∀ limit ∈ rotation.maxUses, ∀ identity e,
      (Run.of supply rotation drawn calls).policy.tokens.lookup identity = some e →
      e.uses.toNat =
        (current (ownCalls (Run.of supply rotation drawn calls).handouts identity)).length ∧
      e.uses.toNat ≤ max limit.toNat 1 := by
  have ht := tracks_of supply rotation drawn hsorted
  refine ⟨ht.granted, ?_, ?_⟩
  · intro identity
    have hlabel := exists_label (greedily_ownCalls ht.granted identity)
    rw [ownTimes_of] at hlabel
    exact hlabel
  · intro limit hlimit identity e he
    have hentry := ht.entry identity
    rw [he] at hentry
    exact hentry.2.2 limit hlimit

/-- Each token serves twice. -/
def twoUses : RotationPolicy := ⟨none, some 2⟩

def visits : List TokenCall := [⟨0, "alice"⟩, ⟨1, "bob"⟩, ⟨2, "alice"⟩, ⟨3, "alice"⟩]

/-- The third call of one identity gets a new token; another's does not count. -/
theorem tokens_greedy_twoUses :
    ∃ tokens : List ℕ, tokens.Nodup ∧
      ownCalls (Run.of ⟨id, Function.injective_id⟩ twoUses 0 visits).handouts "alice" =
        label [[3], [2, 0]] tokens := by
  have hgroups : greedy twoUses.Closed (ownTimes visits "alice") = [[3], [2, 0]] := by decide
  rw [← hgroups]
  exact (tokens_greedy ⟨id, Function.injective_id⟩ twoUses 0 visits (by decide)).2.1 "alice"

end Anonet.Core
