import Anonet.Leakguard.DnsShimTask
import Mathlib.Data.List.Perm.Subperm
import Mathlib.Data.List.Range

/-!
# The DNS shim and its clients

The tasks of `DnsShim::run` with what they resolve through: a query that needs Tor first
takes the core there is, and `CoreHandle::replace` may come in between.

* `asksTor` — whether `handle_query` comes to `AnonCore::resolve`.
* `dnsServing` — the machine: the shim's tasks, queries that take a core, and hot swaps;
  `shimming_of_serving`: it is the machine of the tasks, with cores.
* `DnsHistory` — which core there was when a datagram arrived, and which datagram each
  response was for; a history variable.
* `Attributed` — the invariant, `Attributed.step` its step lemma.
* `answered_of_reach` — **every response answers one datagram of the client it is sent
  to**, no datagram is answered twice, and no name is resolved through a core that was
  replaced before it was asked for.
-/

namespace Anonet.Leakguard

open Bytes Net

/-! ## The machine -/

/-- `handle_query` resolves a name for this request. -/
def asksTor (request : List UInt8) : Bool :=
  match parseQuery request with
  | .ok query => query.qtype = QTYPE_A ∨ query.qtype = QTYPE_AAAA
  | .error _ => false

/-- Cores are named by how many there were before them. -/
structure DnsServing where
  shim : ShimState
  /-- The core the handle holds. -/
  core : ℕ
  /-- The core that each query has taken. -/
  taken : ℕ → Option ℕ

inductive ServingAction
  /-- A step of the controller, a listener or a query. -/
  | shim (a : ShimAction)
  /-- `CoreHandle::replace`. -/
  | replace
  /-- Query `i` calls `CoreHandle::current`. -/
  | current (i : ℕ)

namespace DnsServing

def new : DnsServing := ⟨.new, 0, fun _ => none⟩

/-- A query is through only if it has taken a core when it needs one. -/
def Ready (s : DnsServing) : ShimAction → Prop
  | .answer i _ _ => ∀ q ∈ s.shim.queries[i]?, asksTor q.request = true → (s.taken i).isSome = true
  | _ => True

instance (s : DnsServing) : ∀ a, Decidable (s.Ready a)
  | .answer i _ _ => inferInstanceAs (Decidable (∀ q ∈ s.shim.queries[i]?,
      asksTor q.request = true → (s.taken i).isSome = true))
  | .start _ | .stop | .bind _ _ | .receive _ _ _ | .receiveError _ | .cancel _ =>
    inferInstanceAs (Decidable True)

def step (s : DnsServing) : ServingAction → Option DnsServing
  | .shim a => if s.Ready a then (s.shim.step a).map fun shim => { s with shim := shim } else none
  | .replace => some { s with core := s.core + 1 }
  | .current i => do
    let q ← s.shim.queries[i]?
    if q.returned = false ∧ asksTor q.request = true ∧ s.taken i = none then
      some { s with taken := Function.update s.taken i (some s.core) }
    else none

end DnsServing

/-- All interleavings of the shim's tasks with hot swaps of the core. -/
def dnsServing : Machine DnsServing ServingAction where
  step := DnsServing.step

/-- **The cores change nothing about the tasks.**  Every run is one of the machine without
cores. -/
theorem shimming_of_serving {s : DnsServing} (h : dnsServing.Reach Machine.anyStep .new s) :
    shimming.Reach Machine.anyStep .new s.shim := by
  let act : DnsServing → ServingAction → Option ShimAction
    | _, .shim a => some a
    | _, .replace | _, .current _ => none
  refine h.project (n := shimming) (H := Machine.anyStep) (·.shim) act ?_ fun _ _ _ _ _ => trivial
  intro s a s' hs
  cases a with
  | shim a =>
    obtain ⟨-, hs⟩ := Option.ite_none_right_eq_some.mp hs
    obtain ⟨shim, hshim, rfl⟩ := Option.map_eq_some_iff.mp hs
    exact hshim
  | replace =>
    obtain rfl := Option.some.inj hs
    rfl
  | current i =>
    obtain ⟨q, -, hs⟩ := Option.bind_eq_some_iff.mp hs
    obtain ⟨-, hs⟩ := Option.ite_none_right_eq_some.mp hs
    obtain rfl := Option.some.inj hs
    rfl

/-! ## The history -/

/-- A response, with the query it was sent by and what Tor had answered. -/
structure DnsAnswer where
  query : ℕ
  resolved : Except String (List IpAddr)
  sent : Sent

structure DnsHistory where
  /-- The core there was when each datagram arrived. -/
  arrived : List ℕ
  /-- Latest first. -/
  answers : List DnsAnswer

/-- What the query sends. -/
def responseOf (q : ShimQuery) (resolved : Except String (List IpAddr)) (sendOk : Bool) :
    Option (List UInt8) :=
  if sendOk then handleQuery (fun _ => resolved) q.request else none

/-- The response of query `i`, which is `q`, if it sends one. -/
def answerOf (i : ℕ) (q : ShimQuery) (resolved : Except String (List IpAddr)) (sendOk : Bool) :
    Option DnsAnswer :=
  (responseOf q resolved sendOk).map fun response =>
    ⟨i, resolved, ⟨q.listener, q.peer, response⟩⟩

def noteAnswers (s : DnsServing) (a : ServingAction) (_ : DnsServing) (g : DnsHistory) :
    DnsHistory :=
  match a with
  | .shim (.receive _ _ _) => { g with arrived := g.arrived ++ [s.core] }
  | .shim (.answer i resolved sendOk) =>
    match s.shim.queries[i]? with
    | some q => { g with answers := (answerOf i q resolved sendOk).toList ++ g.answers }
    | none => g
  | _ => g

/-- The response is the one to the datagram `q`. -/
structure DnsAnswer.IsFor (a : DnsAnswer) (q : ShimQuery) : Prop where
  listener : a.sent.listener = q.listener
  peer : a.sent.peer = q.peer
  response : handleQuery (fun _ => a.resolved) q.request = some a.sent.response

/-- Every response belongs to a query of its own that has returned, and a query takes a
core that is not older than its datagram. -/
structure Attributed (s : DnsServing) (g : DnsHistory) : Prop where
  sent : s.shim.sent = g.answers.map (·.sent)
  once : (g.answers.map (·.query)).Nodup
  answered : ∀ a ∈ g.answers, ∃ q, s.shim.queries[a.query]? = some q ∧ q.returned = true ∧
    a.IsFor q ∧ (asksTor q.request = true → (s.taken a.query).isSome = true)
  arrivals : g.arrived.length = s.shim.queries.length
  past : ∀ core ∈ g.arrived, core ≤ s.core
  fresh : ∀ i c, s.taken i = some c → ∃ core, g.arrived[i]? = some core ∧ core ≤ c ∧ c ≤ s.core

section Attributed

variable {s s' : DnsServing} {g : DnsHistory} {a : ServingAction}

theorem attributed_new : Attributed .new ⟨[], []⟩ where
  sent := rfl
  once := List.nodup_nil
  answered a ha := by cases ha
  arrivals := rfl
  past core h := by cases h
  fresh i c h := by cases h

/-- Listeners and the controller do not matter. -/
theorem Attributed.of_same (h : Attributed s g) {shim : ShimState}
    (hqueries : shim.queries = s.shim.queries) (hsent : shim.sent = s.shim.sent) :
    Attributed { s with shim := shim } g where
  sent := hsent.trans h.sent
  once := h.once
  answered a ha := by
    obtain ⟨q, hq, hreturned, hfor, htaken⟩ := h.answered a ha
    exact ⟨q, (congrArg (·[a.query]?) hqueries).trans hq, hreturned, hfor, htaken⟩
  arrivals := h.arrivals.trans (congrArg List.length hqueries.symm)
  past := h.past
  fresh := h.fresh

/-- A datagram arrives. -/
theorem Attributed.receive (h : Attributed s g) (i : ℕ) (peer : SocketAddr)
    (datagram : List UInt8) :
    Attributed { s with shim := s.shim.spawnQuery i peer datagram }
      { g with arrived := g.arrived ++ [s.core] } where
  sent := h.sent
  once := h.once
  answered a ha := by
    obtain ⟨q, hq, hrest⟩ := h.answered a ha
    refine ⟨q, ?_, hrest⟩
    exact (List.getElem?_append_left (List.getElem?_eq_some_iff.mp hq).1).trans hq
  arrivals := by
    simp only [ShimState.spawnQuery, List.length_append, List.length_singleton, h.arrivals]
  past core hcore := by
    rcases List.mem_append.mp hcore with hcore | hcore
    · exact h.past core hcore
    · exact (List.mem_singleton.mp hcore).le
  fresh j c hj := by
    obtain ⟨core, hcore, hle⟩ := h.fresh j c hj
    refine ⟨core, ?_, hle⟩
    exact (List.getElem?_append_left (List.getElem?_eq_some_iff.mp hcore).1).trans hcore

/-- A query that is still in flight has not been answered. -/
theorem Attributed.unanswered (h : Attributed s g) {i : ℕ} {q : ShimQuery}
    (hq : s.shim.queries[i]? = some q) (hrun : q.returned = false) :
    ∀ a ∈ g.answers, a.query ≠ i := by
  rintro a ha rfl
  obtain ⟨q', hq', hreturned, -⟩ := h.answered a ha
  obtain rfl := Option.some.inj (hq.symm.trans hq')
  exact absurd hreturned (by rw [hrun]; exact Bool.false_ne_true)

/-- A query runs to its end. -/
theorem Attributed.answer (h : Attributed s g) {i : ℕ} {q : ShimQuery}
    (hq : s.shim.queries[i]? = some q) (hrun : q.returned = false)
    (hready : asksTor q.request = true → (s.taken i).isSome = true)
    (resolved : Except String (List IpAddr)) (sendOk : Bool) :
    Attributed
      { s with shim := s.shim.finish i q (responseOf q resolved sendOk) }
      { g with answers := (answerOf i q resolved sendOk).toList ++ g.answers } := by
  have hfree := h.unanswered hq hrun
  have hset := Machine.getElem?_set_self_of_some (a := { q with returned := true }) hq
  -- the answers there were stay as they are
  have hold : ∀ a ∈ g.answers, ∃ q', (s.shim.queries.set i { q with returned := true })[a.query]? =
      some q' ∧ q'.returned = true ∧ a.IsFor q' ∧
        (asksTor q'.request = true → (s.taken a.query).isSome = true) := by
    intro a ha
    obtain ⟨q', hq', hrest⟩ := h.answered a ha
    exact ⟨q', (List.getElem?_set_ne (hfree a ha).symm).trans hq', hrest⟩
  have harrivals : g.arrived.length =
      (s.shim.queries.set i { q with returned := true }).length := by
    rw [List.length_set]
    exact h.arrivals
  unfold answerOf
  cases hresponse : responseOf q resolved sendOk with
  | none => exact ⟨h.sent, h.once, hold, harrivals, h.past, h.fresh⟩
  | some response =>
    have hhandle : handleQuery (fun _ => resolved) q.request = some response :=
      (Option.ite_none_right_eq_some.mp hresponse).2
    refine ⟨congrArg (_ :: ·) h.sent, ?_, ?_, harrivals, h.past, h.fresh⟩
    · refine List.nodup_cons.mpr ⟨?_, h.once⟩
      intro hmem
      obtain ⟨a, ha, heq⟩ := List.mem_map.mp hmem
      exact hfree a ha heq
    · intro a ha
      rcases List.mem_cons.mp ha with rfl | ha
      · exact ⟨_, hset, rfl, ⟨rfl, rfl, hhandle⟩, hready⟩
      · exact hold a ha

/-- **The step lemma.** -/
theorem Attributed.step (h : Attributed s g) (hs : s.step a = some s') :
    Attributed s' (noteAnswers s a s' g) := by
  cases a with
  | shim a =>
    obtain ⟨hready, hs⟩ := Option.ite_none_right_eq_some.mp hs
    obtain ⟨shim, hshim, rfl⟩ := Option.map_eq_some_iff.mp hs
    cases shimStep_of_step hshim with
    | start | refused | stop | noStop | bound | notBound | receiveError | cancel =>
      exact h.of_same rfl rfl
    | receive hl hpc => exact h.receive _ _ _
    | answer hq hrun =>
      simp only [noteAnswers, hq]
      exact h.answer hq hrun (hready _ hq) _ _
  | replace =>
    obtain rfl := Option.some.inj hs
    refine ⟨h.sent, h.once, h.answered, h.arrivals, ?_, ?_⟩
    · intro core hcore
      exact Nat.le_succ_of_le (h.past core hcore)
    · intro i c hc
      obtain ⟨core, hcore, hle, hlt⟩ := h.fresh i c hc
      exact ⟨core, hcore, hle, Nat.le_succ_of_le hlt⟩
  | current i =>
    obtain ⟨q, hq, hs⟩ := Option.bind_eq_some_iff.mp hs
    obtain ⟨⟨hrun, -, hnone⟩, hs⟩ := Option.ite_none_right_eq_some.mp hs
    obtain rfl := Option.some.inj hs
    have hfree := h.unanswered hq hrun
    refine ⟨h.sent, h.once, ?_, h.arrivals, h.past, ?_⟩
    · intro a ha
      obtain ⟨q', hq', hreturned, hfor, htaken⟩ := h.answered a ha
      refine ⟨q', hq', hreturned, hfor, ?_⟩
      dsimp only
      rw [Function.update_of_ne (hfree a ha)]
      exact htaken
    · intro j c hc
      dsimp only at hc ⊢
      by_cases hij : j = i
      · subst hij
        rw [Function.update_self] at hc
        obtain rfl := Option.some.inj hc
        have hlt : j < g.arrived.length := h.arrivals ▸ (List.getElem?_eq_some_iff.mp hq).1
        exact ⟨_, List.getElem?_eq_getElem hlt, h.past _ (List.getElem_mem hlt), le_rfl⟩
      · rw [Function.update_of_ne hij] at hc
        exact h.fresh j c hc

end Attributed

/-! ## What a client sees -/

/-- The datagram asks `q` under the transaction ID `id`. -/
def AsksUnder (request : List UInt8) (id : UInt16) (q : PlainQuestion) : Prop :=
  Asks request q ∧ u16FromBe (request.getD 0 0) (request.getD 1 0) = id

/-- A stub resolver takes the datagram for the answer to `q`: it has the transaction ID,
and echoes the question behind its header. -/
def TakenFor (response : List UInt8) (id : UInt16) (q : PlainQuestion) : Prop :=
  u16FromBe (response.getD 0 0) (response.getD 1 0) = id ∧
    q.encode <+: response.drop 12

instance (response : List UInt8) (id : UInt16) (q : PlainQuestion) :
    Decidable (TakenFor response id q) := inferInstanceAs (Decidable (_ ∧ _))

/-- A response is taken for the answer to what its datagram asks, and to nothing else. -/
theorem takenFor_iff {resolve : Resolver} {request response : List UInt8}
    (h : handleQuery resolve request = some response) {id : UInt16} {q : PlainQuestion} :
    TakenFor response id q ↔ AsksUnder request id q := by
  obtain ⟨q', rcode, hasks, rfl⟩ := handleQuery_eq_some h
  have hid : u16FromBe (request.getD 0 0) (request.getD 1 0) = (q'.parsed request).id := rfl
  have hdrop : (buildResponse (q'.parsed request).id q'.encode q'.qtype rcode
      (resolved resolve (q'.parsed request))).drop 12 =
        q'.encode ++ (resolved resolve (q'.parsed request)).flatMap (answer q'.qtype) := by
    rw [buildResponse_eq]
    exact List.drop_left' (Dns.Header.length_bytes _)
  rw [TakenFor, AsksUnder, hid, hdrop]
  simp only [buildResponse, u16ToBe, List.cons_append, List.nil_append, List.getD_cons_zero,
    List.getD_cons_succ, u16FromBe_u16ToBe]
  constructor
  · rintro ⟨hid, rest, hquestion⟩
    exact ⟨PlainQuestion.encode_inj hquestion ▸ hasks, hid⟩
  · rintro ⟨hasks', hid⟩
    obtain rfl := hasks.unique hasks'
    exact ⟨hid, List.prefix_append _ _⟩

/-- Tasks that are told apart by their places are no more than there are. -/
theorem length_le_countP {τ : Type} {p : τ → Bool} {tasks : List τ} {places : List ℕ}
    (hnodup : places.Nodup) (h : ∀ k ∈ places, ∃ t, tasks[k]? = some t ∧ p t = true) :
    places.length ≤ tasks.countP p := by
  have hall : ∀ tasks : List τ,
      ((List.range tasks.length).filter fun k => (tasks[k]?).any p).length = tasks.countP p := by
    intro tasks
    induction tasks using List.reverseRecOn with
    | nil => rfl
    | append_singleton tasks t ih =>
      have hkeep : (List.range tasks.length).filter (fun k => ((tasks ++ [t])[k]?).any p) =
          (List.range tasks.length).filter fun k => (tasks[k]?).any p := by
        refine List.filter_congr ?_
        intro k hk
        rw [List.getElem?_append_left (List.mem_range.mp hk)]
      rw [List.length_append, List.length_singleton, List.range_succ, List.filter_append, hkeep,
        List.length_append, ih, List.countP_append]
      cases hp : p t <;> simp [hp]
  rw [← hall]
  refine (List.subperm_of_subset hnodup ?_).length_le
  intro k hk
  obtain ⟨t, ht, hp⟩ := h k hk
  refine List.mem_filter.mpr ⟨List.mem_range.mpr (List.getElem?_eq_some_iff.mp ht).1, ?_⟩
  rw [ht]
  exact hp

/-- The queries that sent the responses of a kind: as many as there are of these, and no two
of them the same. -/
theorem Attributed.queries_of {s : DnsServing} {g : DnsHistory} (h : Attributed s g)
    (p : Sent → Bool) : ∃ places : List ℕ, places.Nodup ∧ places.length = s.shim.sent.countP p ∧
      ∀ k ∈ places, ∃ a ∈ g.answers, ∃ q, p a.sent = true ∧ s.shim.queries[k]? = some q ∧
        a.IsFor q := by
  refine ⟨(g.answers.filter fun a => p a.sent).map (·.query), ?_, ?_, ?_⟩
  · exact (List.filter_sublist.map _).nodup h.once
  · rw [h.sent, List.countP_map, List.length_map, List.countP_eq_length_filter]
    rfl
  · intro k hk
    obtain ⟨a, ha, rfl⟩ := List.mem_map.mp hk
    obtain ⟨ha, hp⟩ := List.mem_filter.mp ha
    obtain ⟨q, hq, -, hfor, -⟩ := h.answered a ha
    exact ⟨a, ha, q, hp, hq, hfor⟩

/-- **Who is answered what.**  In every run of the controller, the listeners, the queries
and any hot swaps, `g` being its history: each response sent is that of one query, which
sends no other; it goes from the socket the query's datagram came in on to the peer that
sent it, and is what `handle_query` makes of that datagram and of what Tor answered; if
a name was resolved for it, through a core that was there when the datagram arrived or
later.  So no peer is sent more responses than it has sent datagrams; and as long as a
peer does not ask one question twice under one transaction ID, it is sent at most one
response that it can take for the answer. -/
theorem answered_of_reach (s : DnsServing) (g : DnsHistory)
    (h : (dnsServing.watch noteAnswers).Reach Machine.anyStep (.new, ⟨[], []⟩) (s, g)) :
    s.shim.sent = g.answers.map (·.sent) ∧ (g.answers.map (·.query)).Nodup ∧
    (∀ a ∈ g.answers, ∃ q, s.shim.queries[a.query]? = some q ∧ a.IsFor q ∧
      (asksTor q.request = true → ∃ core c, g.arrived[a.query]? = some core ∧
        s.taken a.query = some c ∧ core ≤ c ∧ c ≤ s.core)) ∧
    (∀ (i : ℕ) (peer : SocketAddr),
      s.shim.sent.countP (fun r => r.listener = i ∧ r.peer = peer) ≤
        s.shim.queries.countP fun q => q.listener = i ∧ q.peer = peer) ∧
    ∀ (i : ℕ) (peer : SocketAddr) (id : UInt16) (question : PlainQuestion),
      (∀ (k k' : ℕ) (q q' : ShimQuery), s.shim.queries[k]? = some q →
        s.shim.queries[k']? = some q' → q.listener = i → q'.listener = i → q.peer = peer →
        q'.peer = peer → AsksUnder q.request id question → AsksUnder q'.request id question →
        k = k') →
      s.shim.sent.countP (fun r => r.listener = i ∧ r.peer = peer ∧
        TakenFor r.response id question) ≤ 1 := by
  have hinv : Attributed s g := by
    refine h.invariant (I := fun p => Attributed p.1 p.2) attributed_new ?_
    rintro ⟨s, g⟩ a ⟨s', g'⟩ hi - hs
    obtain ⟨hs, hg⟩ := Machine.watch_step.mp hs
    dsimp only at hs hg hi ⊢
    rw [hg]
    exact hi.step hs
  refine ⟨hinv.sent, hinv.once, ?_, ?_, ?_⟩
  · intro a ha
    obtain ⟨q, hq, -, hfor, htaken⟩ := hinv.answered a ha
    refine ⟨q, hq, hfor, fun hasks => ?_⟩
    obtain ⟨c, hc⟩ := Option.isSome_iff_exists.mp (htaken hasks)
    obtain ⟨core, hcore, hle, hlt⟩ := hinv.fresh _ c hc
    exact ⟨core, c, hcore, hc, hle, hlt⟩
  · intro i peer
    obtain ⟨places, hnodup, hlength, hplaces⟩ :=
      hinv.queries_of fun r => r.listener = i ∧ r.peer = peer
    rw [← hlength]
    refine length_le_countP hnodup ?_
    intro k hk
    obtain ⟨a, -, q, hp, hq, hfor⟩ := hplaces k hk
    have hp := of_decide_eq_true hp
    exact ⟨q, hq, decide_eq_true ⟨hfor.listener ▸ hp.1, hfor.peer ▸ hp.2⟩⟩
  · intro i peer id question hunique
    obtain ⟨places, hnodup, hlength, hplaces⟩ := hinv.queries_of fun r =>
      r.listener = i ∧ r.peer = peer ∧ TakenFor r.response id question
    rw [← hlength]
    have hasked : ∀ k ∈ places, ∃ q, s.shim.queries[k]? = some q ∧ q.listener = i ∧
        q.peer = peer ∧ AsksUnder q.request id question := by
      intro k hk
      obtain ⟨a, -, q, hp, hq, hfor⟩ := hplaces k hk
      obtain ⟨hlistener, hpeer, htaken⟩ := of_decide_eq_true hp
      exact ⟨q, hq, hfor.listener ▸ hlistener, hfor.peer ▸ hpeer,
        (takenFor_iff hfor.response).mp htaken⟩
    match places with
    | [] => exact Nat.zero_le 1
    | [_] => exact le_rfl
    | k :: k' :: _ =>
      obtain ⟨q, hq, hlistener, hpeer, hasks⟩ := hasked k List.mem_cons_self
      obtain ⟨q', hq', hlistener', hpeer', hasks'⟩ :=
        hasked k' (List.mem_cons_of_mem _ List.mem_cons_self)
      have hsame := hunique k k' q q' hq hq' hlistener hlistener' hpeer hpeer' hasks hasks'
      exact absurd (hsame ▸ List.mem_cons_self) (List.nodup_cons.mp hnodup).1

/-- Two clients, and a hot swap between their lookups; the second is answered first. -/
theorem answered_twoClients :
    ∃ (s : DnsServing) (g : DnsHistory), s.shim.sent.length = 2 ∧
      s.shim.sent = g.answers.map (·.sent) ∧ (g.answers.map (·.query)).Nodup := by
  obtain ⟨⟨s, g⟩, hreach, hsent⟩ := Machine.exists_reach_of_exec
    (m := dnsServing.watch noteAnswers) (G := Machine.anyStep) (s := (.new, ⟨[], []⟩))
    (P := fun p => p.1.shim.sent.length = 2)
    [.shim (.start shimAddr), .shim (.bind 0 true),
      .shim (.receive 0 (.v4 .localhost 40000) (ofA QTYPE_A).request), .current 0, .replace,
      .shim (.receive 0 (.v4 .localhost 40001) (ofA QTYPE_A).request), .current 1,
      .shim (.answer 1 (.ok []) true), .shim (.answer 0 (.ok [.v4 .localhost]) true)]
    (by decide +kernel)
  obtain ⟨hanswers, honce, -⟩ := answered_of_reach s g hreach
  exact ⟨s, g, hsent, hanswers, honce⟩

end Anonet.Leakguard
