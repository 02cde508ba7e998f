import Anonet.Library.IpText
import Anonet.Socks.Grammar

/-!
# The address that Tor is asked for

An address that a client sends in four or sixteen bytes reaches the Tor client as text, as
does one that is sent as a name.  Whoever reads that text gets the address that was sent:
`asksFor_iff`.
-/

namespace Anonet.Socks

open Net Leakguard Session

theorem quiet_readHandshake : Quiet readHandshake :=
  quiet_negotiateMethod.bind fun _ => quiet_readConnectRequest.bind fun _ => quiet_pure _

/-- A connect call comes from a whole negotiation and a whole request. -/
theorem exists_request_of_connect {policy : LeakPolicy} {upstream : Upstream}
    {stream : List UInt8} {hangup : Option ℕ} {host identity : String} {port : UInt16}
    (h : Event.connect host port identity ∈
      ((handleConn policy upstream).run (.accepted stream hangup)).2.events) :
    ∃ (n : Negotiation) (r : ConnectRequest) (rest : List UInt8),
      stream = n.encode ++ (r.encode ++ rest) ∧ n.identity = identity ∧ r.port = port ∧
        policy.check r.address.destination = .ok () ∧
        hostForConnect r.address.destination = host := by
  rw [handleConn_eq, run_bind] at h
  rcases hread : readHandshake.run (.accepted stream hangup) with ⟨e | ⟨who, dest, p⟩, c⟩
  · rw [hread] at h
    exact absurd (quiet_readHandshake.connect_mem (by rw [hread]; exact h)) List.not_mem_nil
  · rw [hread] at h
    have hnone : Event.connect host port identity ∉ c.events := fun hm =>
      List.not_mem_nil (quiet_readHandshake.connect_mem (by rw [hread]; exact hm))
    obtain ⟨n, r, hstream, rfl, rfl, rfl⟩ := exists_handshake hread
    obtain ⟨hcheck, rfl, rfl, rfl⟩ := connect_mem_forward h hnone
    exact ⟨n, r, c.unread, hstream, rfl, rfl, hcheck, rfl⟩

/-- A request that the policy lets through leads to a connect call. -/
theorem connect_mem_of_check {policy : LeakPolicy} (upstream : Upstream) (n : Negotiation)
    {r : ConnectRequest} (rest : List UInt8) (h : policy.check r.address.destination = .ok ()) :
    Event.connect (hostForConnect r.address.destination) r.port n.identity ∈
      ((handleConn policy upstream).run
        (.accepted (n.encode ++ (r.encode ++ rest)) none)).2.events := by
  rw [run_handleConn_encode, forward, h]
  dsimp only
  rw [run_bind_of_ok (run_emit _ _)]
  cases upstream (hostForConnect r.address.destination) r.port n.identity with
  | error message =>
    dsimp only
    rw [run_bind_of_ok (run_sendReply_ok _ _ _), run_fail]
    simp
  | ok => simp [run_bind, sendReply, run_writeAll]

/-- The Tor client is handed a host that reads as `ip`. -/
def AsksFor (policy : LeakPolicy) (upstream : Upstream) (stream : List UInt8) (ip : IpAddr)
    (port : UInt16) (identity : String) : Prop :=
  ∃ host, IpAddr.parse host = some ip ∧ Event.connect host port identity ∈
    ((handleConn policy upstream).run (.accepted stream none)).2.events

/-- **Tor is asked for an address exactly when the client asked for it**, in its octets where
the policy allows that, or in any of its spellings as a name. -/
theorem asksFor_iff (policy : LeakPolicy) (upstream : Upstream) (stream : List UInt8)
    (ip : IpAddr) (port : UInt16) (identity : String) :
    AsksFor policy upstream stream ip port identity ↔
      ∃ (n : Negotiation) (r : ConnectRequest) (rest : List UInt8),
        stream = n.encode ++ (r.encode ++ rest) ∧ n.identity = identity ∧ r.port = port ∧
        (policy.allowRawIp = true ∧ r.address.destination = .Ip ip ∨
          ∃ name, r.address.destination = .Host name ∧ IpAddr.parse name = some ip) := by
  constructor
  · rintro ⟨host, hhost, hconnect⟩
    obtain ⟨n, r, rest, hstream, hidentity, hport, hcheck, rfl⟩ :=
      exists_request_of_connect hconnect
    refine ⟨n, r, rest, hstream, hidentity, hport, ?_⟩
    cases hdest : r.address.destination with
    | Host name =>
      rw [hdest] at hhost
      exact .inr ⟨name, rfl, hhost⟩
    | Ip ip' =>
      rw [hdest] at hhost hcheck
      have hip : some ip' = some ip := (IpAddr.parse_display ip').symm.trans hhost
      refine .inl ⟨?_, by rw [Option.some.inj hip]⟩
      cases hallow : policy.allowRawIp with
      | true => rfl
      | false => simp [LeakPolicy.check, hallow] at hcheck
  · rintro ⟨n, r, rest, rfl, rfl, rfl, hdest⟩
    rcases hdest with ⟨hallow, hdest⟩ | ⟨name, hdest, hname⟩
    · have hcheck : policy.check r.address.destination = .ok () := by
        simp [hdest, LeakPolicy.check, hallow]
      refine ⟨_, ?_, connect_mem_of_check upstream n rest hcheck⟩
      rw [hdest]
      exact IpAddr.parse_display ip
    · have hcheck : policy.check r.address.destination = .ok () := by simp [hdest]
      refine ⟨_, ?_, connect_mem_of_check upstream n rest hcheck⟩
      rw [hdest]
      exact hname

end Anonet.Socks
