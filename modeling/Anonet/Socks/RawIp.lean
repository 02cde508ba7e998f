import Anonet.Socks.Grammar

/-!
# Raw addresses and the strict policy

What reaches the Tor client when the policy is strict.  The policy looks at the
tag the ATYP byte chose, not at the text behind it, so the refusal of raw
addresses holds for a stream exactly when no address is written as a name:
`refusesRawIp_iff`.
-/

namespace Anonet.Socks

open Net Leakguard Session

/-- The client sends a whole negotiation and then a whole request for `dest`. -/
def Requests (stream : List UInt8) (dest : Destination) : Prop :=
  ∃ (n : Negotiation) (r : ConnectRequest) (rest : List UInt8),
    stream = n.encode ++ (r.encode ++ rest) ∧ r.address.destination = dest

/-- The destination is an IP address, in whichever address type it is written. -/
def NamesIp : Destination → Prop
  | .Ip _ => True
  | .Host name => IpAddr.IsText name

/-- What a session under the strict policy does for this stream. -/
def eventsOf (upstream : Upstream) (stream : List UInt8) (hangup : Option ℕ) : List Event :=
  ((handleConn .strict upstream).run (.accepted stream hangup)).2.events

/-- **No raw address gets through**: the Tor client is never handed the text of
an IP address, and a request for one is refused without connecting. -/
def RefusesRawIp (stream : List UInt8) : Prop :=
  (∀ upstream hangup host port identity,
    Event.connect host port identity ∈ eventsOf upstream stream hangup → ¬ IpAddr.IsText host) ∧
  ∀ dest, Requests stream dest → NamesIp dest → ∀ upstream hangup,
    (∀ host port identity, Event.connect host port identity ∉ eventsOf upstream stream hangup) ∧
    (hangup = none →
      (eventsOf upstream stream hangup).getLast? = some (.wrote (replyBytes repConnNotAllowed)))

/-! ## From the stream to the connect call -/

/-- A connect call comes from a whole request that passed the policy. -/
theorem requests_of_connect {policy : LeakPolicy} {upstream : Upstream} {stream : List UInt8}
    {hangup : Option ℕ} {host identity : String} {port : UInt16}
    (h : Event.connect host port identity ∈
      ((handleConn policy upstream).run (.accepted stream hangup)).2.events) :
    ∃ dest, Requests stream dest ∧ policy.check dest = .ok () ∧ host = hostForConnect dest := by
  rw [handleConn, run_bind] at h
  rcases hneg : negotiateMethod.run (.accepted stream hangup) with ⟨e | who, c₁⟩
  · rw [hneg] at h
    exact absurd (quiet_negotiateMethod.connect_mem (by rw [hneg]; exact h)) List.not_mem_nil
  · rw [hneg] at h
    dsimp only at h
    obtain ⟨n, hn, -⟩ := exists_negotiation hneg
    have hc₁ : Event.connect host port identity ∉ c₁.events := fun hm =>
      List.not_mem_nil (quiet_negotiateMethod.connect_mem (by rw [hneg]; exact hm))
    rw [run_bind] at h
    rcases hreq : readConnectRequest.run c₁ with ⟨e | ⟨dest, p⟩, c₂⟩
    · rw [hreq] at h
      exact absurd (quiet_readConnectRequest.connect_mem (by rw [hreq]; exact h)) hc₁
    · rw [hreq] at h
      dsimp only at h
      obtain ⟨r, hr, hdest, -⟩ := exists_connectRequest hreq
      have hc₂ : Event.connect host port identity ∉ c₂.events := fun hm =>
        hc₁ (quiet_readConnectRequest.connect_mem (by rw [hreq]; exact hm))
      obtain ⟨hcheck, hhost, -, -⟩ := connect_mem_forward h hc₂
      exact ⟨dest, ⟨n, r, c₂.unread, by rw [← hr, ← hn]; rfl, hdest⟩, hcheck, hhost⟩

/-- A stream asks for one destination only. -/
theorem Requests.unique {stream : List UInt8} {dest dest' : Destination}
    (h : Requests stream dest) (h' : Requests stream dest') : dest = dest' := by
  obtain ⟨n, r, rest, hs, rfl⟩ := h
  obtain ⟨n', r', rest', hs', rfl⟩ := h'
  obtain ⟨-, hrest⟩ := Negotiation.identity_eq (hs.symm.trans hs')
  have hreq := readConnectRequest_encode r rest []
  have hreq' := readConnectRequest_encode r' rest' []
  rw [← hrest, hreq, Prod.mk.injEq, Except.ok.injEq, Prod.mk.injEq] at hreq'
  exact hreq'.1.1

/-- A request refused by the policy is answered so. -/
theorem getLast_of_violation {policy : LeakPolicy} {stream : List UInt8} {dest : Destination}
    {violation : LeakViolation} (h : Requests stream dest)
    (hv : policy.check dest = .error violation) (upstream : Upstream) :
    ((handleConn policy upstream).run (.accepted stream none)).2.events.getLast? =
      some (.wrote (replyBytes repConnNotAllowed)) := by
  obtain ⟨n, r, rest, rfl, rfl⟩ := h
  rw [run_handleConn_encode, forward_of_violation hv, run_bind_of_ok (run_sendReply_ok _ _ _),
    run_fail, List.getLast?_concat]

/-! ## When raw addresses are refused -/

/-- **The exact condition.**  Raw addresses are refused on a stream if and only
if it does not ask for one under ATYP 3, written as a name. -/
theorem refusesRawIp_iff (stream : List UInt8) :
    RefusesRawIp stream ↔ ¬ ∃ name, Requests stream (.Host name) ∧ IpAddr.IsText name := by
  constructor
  · rintro ⟨hconn, -⟩ ⟨name, ⟨n, r, rest, rfl, hdest⟩, htext⟩
    refine hconn (fun _ _ _ => .ok ()) none name r.port n.identity ?_ htext
    rw [eventsOf, run_handleConn_encode, hdest]
    simp [forward, run_bind, hostForConnect, sendReply, run_writeAll]
  · intro hnone
    -- under the strict policy only names are connected to
    have hhost : ∀ upstream hangup host port identity,
        Event.connect host port identity ∈ eventsOf upstream stream hangup →
          Requests stream (.Host host) := by
      intro upstream hangup host port identity h
      obtain ⟨dest, hreq, hcheck, rfl⟩ := requests_of_connect h
      obtain ⟨name, rfl⟩ := LeakPolicy.check_strict_eq_ok.mp hcheck
      exact hreq
    refine ⟨?_, ?_⟩
    · intro upstream hangup host port identity h htext
      exact hnone ⟨host, hhost _ _ _ _ _ h, htext⟩
    · intro dest hreq hip upstream hangup
      cases dest with
      | Host name => exact absurd ⟨name, hreq, hip⟩ hnone
      | Ip ip =>
        refine ⟨?_, ?_⟩
        · intro host port identity h
          exact absurd (hreq.unique (hhost _ _ _ _ _ h)) (by simp)
        · rintro rfl
          exact getLast_of_violation hreq rfl upstream

/-- A greeting without authentication, then a request for `1.2.3.4:80` under
ATYP 3. -/
def ipAsName : List UInt8 :=
  [5, 1, 0, 5, 1, 0, 3, 7, 0x31, 0x2e, 0x32, 0x2e, 0x33, 0x2e, 0x34, 0, 80]

/-- The text of an address written as a name reaches the Tor client. -/
theorem not_refusesRawIp_ipAsName : ¬ RefusesRawIp ipAsName := by
  intro h
  refine h.1 (fun _ _ _ => .ok ()) none "1.2.3.4" 80 "default" ?_ (by decide)
  decide

end Anonet.Socks
