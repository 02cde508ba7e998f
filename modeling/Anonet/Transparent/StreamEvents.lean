import Anonet.Transparent.Control

/-!
# What the control port client says and shows

The client of `control.rs` over whole runs, whatever tor replies and however the bytes
are cut.

* `Heard` — history: what has arrived, and the lines made of it.
* `Handshake` — the order of commands and replies.
* `Follows` — the invariant; `Follows.step` is the step lemma.
* `TorLine` — the lines of stream events and of others, `wire` — lines on the wire.
* `handshake_of_reach` — **the cookie goes out first, the subscription only behind an
  accepted reply, and no event counts before two.**
* `feed_of_reach` — **no event is lost, repeated or reordered.**
-/

namespace Anonet.Transparent

open Bytes Telemetry Text

/-! ## The handshake -/

/-- The file's bytes, the bytes of the connection, and the lines made of them. -/
structure Heard where
  cookie : List UInt8
  received : List UInt8
  taken : List String

namespace Heard

def nothing : Heard := ⟨[], [], []⟩

def note (s : StreamWatcher) (a : WatchAction) (_s' : StreamWatcher) (h : Heard) : Heard :=
  match a with
  | .cookie (.ok cookie) => { h with cookie := cookie }
  | .receive chunk => { h with received := h.received ++ chunk }
  | .nextLine utf8Error =>
    match s.next utf8Error with
    | some (.ok (some line), _) => { h with taken := h.taken ++ [line] }
    | _ => h
  | _ => h

end Heard

/-- A reply that `expect_ok` lets pass. -/
def Accepted (reply : String) : Prop := "250".toList <+: reply.toList

/-- What a hexadecimal reader makes of a digit. -/
def hexValue (c : Char) : ℕ := if c.toNat < 65 then c.toNat - 48 else c.toNat - 55

/-- The bytes that pairs of digits stand for. -/
def fromHex : List Char → List UInt8
  | hi :: lo :: rest => UInt8.ofNat (hexValue hi * 16 + hexValue lo) :: fromHex rest
  | _ => []

/-- **The order of commands and replies**: the cookie first, the subscription only after
an accepted reply, and a third line only after two. -/
structure Handshake (cookie : List UInt8) (sent taken : List String) : Prop where
  commands : sent <+: [authenticate (cookieHex cookie), setEvents]
  spoken : taken ≠ [] → sent ≠ []
  subscribed : (sent.length = 2 ∨ 1 < taken.length) → sent.length = 2 ∧
    ∃ reply rest, taken = reply :: rest ∧ Accepted reply
  events : 2 < taken.length → ∀ reply ∈ taken.take 2, Accepted reply

/-- What has been said and heard at each place. -/
def WatchPc.Fits (cookie : List UInt8) (sent taken : List String) : WatchPc → Prop
  | .reading => sent = [] ∧ taken = []
  | .connecting hex | .authenticating hex => hex = cookieHex cookie ∧ sent = [] ∧ taken = []
  | .authenticated => sent = [authenticate (cookieHex cookie)] ∧ taken = []
  | .subscribing => sent = [authenticate (cookieHex cookie)] ∧
    ∃ reply, taken = [reply] ∧ Accepted reply
  | .subscribed => sent = [authenticate (cookieHex cookie), setEvents] ∧
    ∃ reply, taken = [reply] ∧ Accepted reply
  | .watching => sent = [authenticate (cookieHex cookie), setEvents] ∧
    ∃ reply reply' lines, taken = reply :: reply' :: lines ∧ Accepted reply ∧ Accepted reply'
  | .ended _ => Handshake cookie sent taken

section Handshake

variable {cookie : List UInt8} {sent taken : List String} {pc : WatchPc} {reply : String}

theorem hexValue_hexDigit : ∀ n < 16, hexValue (hexDigit n) = n := by decide

/-- **The command carries the file.** -/
theorem fromHex_cookieHex (cookie : List UInt8) : fromHex (cookieHex cookie).toList = cookie := by
  rw [cookieHex, String.toList_ofList]
  induction cookie with
  | nil => rfl
  | cons b cookie ih =>
    have hlt : b.toNat < 256 := b.toNat_lt
    rw [List.flatMap_cons]
    show UInt8.ofNat (hexValue (hexDigit (b.toNat / 16)) * 16 +
      hexValue (hexDigit (b.toNat % 16))) :: fromHex (cookie.flatMap hexByte) = b :: cookie
    rw [hexValue_hexDigit _ (by omega), hexValue_hexDigit _ (by omega), ih,
      show b.toNat / 16 * 16 + b.toNat % 16 = b.toNat by omega, UInt8.ofNat_toNat]

/-- A first reply that is not accepted. -/
theorem handshake_refused (reply : String) :
    Handshake cookie [authenticate (cookieHex cookie)] [reply] :=
  ⟨⟨_, rfl⟩, by simp, by simp, by simp⟩

/-- A second reply, accepted or not, behind an accepted one. -/
theorem handshake_subscribed (reply' : String) (h : Accepted reply) :
    Handshake cookie [authenticate (cookieHex cookie), setEvents] [reply, reply'] :=
  ⟨List.prefix_rfl, by simp, fun _ => ⟨rfl, reply, [reply'], rfl, h⟩, by simp⟩

theorem WatchPc.Fits.handshake (h : pc.Fits cookie sent taken) : Handshake cookie sent taken := by
  cases pc with
  | reading =>
    obtain ⟨rfl, rfl⟩ := h
    exact ⟨List.nil_prefix, by simp, by simp, by simp⟩
  | connecting hex | authenticating hex =>
    obtain ⟨-, rfl, rfl⟩ := h
    exact ⟨List.nil_prefix, by simp, by simp, by simp⟩
  | authenticated =>
    obtain ⟨rfl, rfl⟩ := h
    exact ⟨⟨_, rfl⟩, by simp, by simp, by simp⟩
  | subscribing =>
    obtain ⟨rfl, reply, rfl, -⟩ := h
    exact handshake_refused reply
  | subscribed =>
    obtain ⟨rfl, reply, rfl, hok⟩ := h
    exact ⟨List.prefix_rfl, by simp, fun _ => ⟨rfl, reply, [], rfl, hok⟩, by simp⟩
  | watching =>
    obtain ⟨rfl, reply, reply', lines, rfl, hok, hok'⟩ := h
    refine ⟨List.prefix_rfl, by simp, fun _ => ⟨rfl, reply, _, rfl, hok⟩, ?_⟩
    intro _ r hr
    rcases List.mem_cons.mp hr with rfl | hr
    · exact hok
    · rw [List.mem_singleton.mp hr]
      exact hok'
  | ended err => exact h

end Handshake

/-! ## The invariant -/

/-- What telemetry shows of an event. -/
def shown (event : StreamEvent) : String × String := (event.status, event.target)

/-- What the task makes of a line. -/
def eventOf (line : String) : Option (String × String) := (parseStreamEvent 0 line).map shown

/-- The task follows what has arrived since it was spawned, when telemetry had `before`. -/
structure Follows (before : List StreamEvent) (s : StreamWatcher) (h : Heard) : Prop where
  place : s.pc.Fits h.cookie s.sent h.taken
  silent : s.pc.connected = false → (∀ err, s.pc ≠ .ended err) →
    h.received = [] ∧ s.buffer = [] ∧ s.closed = false
  opened : s.pc.connected = true → s.closed = false →
    Lines.Taken lineFeed carriageReturn (h.taken.map toUtf8) h.received s.buffer
  closed : s.pc.connected = true → s.closed = true →
    Lines.read lineFeed carriageReturn h.received =
      h.taken.map toUtf8 ++ Lines.read lineFeed carriageReturn s.buffer
  ended : ∀ err, s.pc = .ended err →
    h.taken.map toUtf8 <+: Lines.read lineFeed carriageReturn h.received
  streams : s.telemetry.recentStreams.map shown =
    latest streamEventsCapacity (before.map shown ++ (h.taken.drop 2).filterMap eventOf)

section Follows

variable {s s' : StreamWatcher} {a : WatchAction} {utf8Error line : String} {rest : List UInt8}
  {before : List StreamEvent} {h : Heard}

theorem parseStreamEvent_shown (now : ℕ) (line : String) :
    (parseStreamEvent now line).map shown = eventOf line := by
  unfold eventOf parseStreamEvent
  cases line.toList.dropPrefix? "650 STREAM ".toList with
  | none => rfl
  | some rest =>
    simp only [Option.bind_eq_bind, Option.bind_some]
    split <;> rfl

theorem decode_eq_ok {raw : List UInt8}
    (hraw : StreamWatcher.decode utf8Error raw = .ok (some line)) :
    raw = toUtf8 line := by
  unfold StreamWatcher.decode at hraw
  split at hraw
  · rename_i text htext
    cases hraw
    exact (toUtf8_of_fromUtf8 htext).symm
  · cases hraw

/-- A line comes out of the buffer at a line feed, or at the end. -/
theorem next_cases (hnext : s.next utf8Error = some (.ok (some line), rest)) :
    (∃ raw, Lines.cut lineFeed s.buffer = some (raw, rest) ∧
      Lines.chomp carriageReturn raw = toUtf8 line) ∨
    Lines.cut lineFeed s.buffer = none ∧ s.closed = true ∧ s.buffer ≠ [] ∧ rest = [] ∧
      s.buffer = toUtf8 line := by
  unfold StreamWatcher.next at hnext
  split at hnext
  · rename_i raw rest' hcut
    simp only [Option.some.injEq, Prod.mk.injEq] at hnext
    obtain ⟨hline, rfl⟩ := hnext
    exact .inl ⟨raw, hcut, decode_eq_ok hline⟩
  · rename_i hcut
    split at hnext
    · rename_i hclosed
      split at hnext
      · cases hnext
      · rename_i hne
        simp only [Option.some.injEq, Prod.mk.injEq] at hnext
        obtain ⟨hline, rfl⟩ := hnext
        exact .inr ⟨hcut, hclosed, hne, rfl, decode_eq_ok hline⟩
    · cases hnext

/-- Before its end, every line taken is one of the stream's. -/
theorem Follows.taken_prefix (hf : Follows before s h) :
    h.taken.map toUtf8 <+: Lines.read lineFeed carriageReturn h.received := by
  by_cases hended : ∃ err, s.pc = .ended err
  · obtain ⟨err, herr⟩ := hended
    exact hf.ended err herr
  · push Not at hended
    cases hconn : s.pc.connected with
    | false =>
      obtain ⟨hreceived, -, -⟩ := hf.silent hconn hended
      have htaken : h.taken = [] := by
        have hplace := hf.place
        cases hpc : s.pc with
        | reading => exact (hpc ▸ hplace).2
        | connecting hex => exact (hpc ▸ hplace).2.2
        | ended err => exact absurd hpc (hended err)
        | _ =>
          rw [hpc] at hconn
          cases hconn
      rw [htaken]
      exact List.nil_prefix
    | true =>
      cases hclosed : s.closed with
      | false => exact ⟨_, (hf.opened hconn hclosed).read_eq.symm⟩
      | true => exact ⟨_, (hf.closed hconn hclosed).symm⟩

/-- A step that leaves alone what has arrived. -/
theorem Follows.keep (hf : Follows before s h) {h' : Heard}
    (hheard : h'.received = h.received ∧ h'.taken = h.taken)
    (hbuffer : s'.buffer = s.buffer ∧ s'.closed = s.closed)
    (hplace : s'.pc.Fits h'.cookie s'.sent h'.taken)
    (hpc : s'.pc.connected = s.pc.connected ∧ (∀ err, s.pc = .ended err ↔ s'.pc = .ended err))
    (hstreams : s'.telemetry.recentStreams = s.telemetry.recentStreams) :
    Follows before s' h' := by
  obtain ⟨hconn, hended⟩ := hpc
  refine ⟨hplace, ?_, ?_, ?_, ?_, ?_⟩
  · rw [hconn, hheard.1, hbuffer.1, hbuffer.2]
    exact fun hidle hnot => hf.silent hidle fun err herr => hnot err ((hended err).mp herr)
  · rw [hconn, hheard.1, hheard.2, hbuffer.1, hbuffer.2]
    exact hf.opened
  · rw [hconn, hheard.1, hheard.2, hbuffer.1, hbuffer.2]
    exact hf.closed
  · rw [hheard.1, hheard.2]
    exact fun err herr => hf.ended err ((hended err).mpr herr)
  · rw [hstreams, hheard.2]
    exact hf.streams

/-- A step that takes a line. -/
theorem Follows.take (hf : Follows before s h) (hnext : s.next utf8Error = some (.ok (some line), rest))
    (hconn : s.pc.connected = true) (hbuffer : s'.buffer = rest) (hclosed : s'.closed = s.closed)
    (hplace : s'.pc.Fits h.cookie s'.sent (h.taken ++ [line]))
    (hpc : s'.pc.connected = true ∨ ∃ err, s'.pc = .ended err)
    (hstreams : s'.telemetry.recentStreams.map shown = latest streamEventsCapacity
      (before.map shown ++ ((h.taken ++ [line]).drop 2).filterMap eventOf)) :
    Follows before s' { h with taken := h.taken ++ [line] } := by
  have hopened : s.closed = false → Lines.Taken lineFeed carriageReturn
      ((h.taken ++ [line]).map toUtf8) h.received rest := by
    intro hopen
    rcases next_cases hnext with ⟨raw, hcut, hraw⟩ | ⟨-, hclosed', -⟩
    · have htaken := (hf.opened hconn hopen).cut hcut
      rw [hraw] at htaken
      rw [List.map_append]
      exact htaken
    · cases hopen.symm.trans hclosed'
  have hread : s.closed = true → Lines.read lineFeed carriageReturn h.received =
      (h.taken ++ [line]).map toUtf8 ++ Lines.read lineFeed carriageReturn rest := by
    intro hclosed'
    rw [hf.closed hconn hclosed', List.map_append, List.append_assoc]
    rcases next_cases hnext with ⟨raw, hcut, hraw⟩ | ⟨hcut, -, hne, rfl, hlast⟩
    · rw [Lines.read_of_cut hcut, hraw]
      rfl
    · rw [Lines.read_of_cut_eq_none hcut hne, hlast]
      rfl
  refine ⟨hplace, ?_, ?_, ?_, ?_, hstreams⟩
  · intro hidle hnot
    rcases hpc with hconn' | ⟨err, herr⟩
    · cases hidle.symm.trans hconn'
    · exact absurd herr (hnot err)
  · intro _ hopen
    rw [hbuffer]
    exact hopened (hclosed ▸ hopen)
  · intro _ hclosed'
    rw [hbuffer]
    exact hread (hclosed ▸ hclosed')
  · intro _ _
    cases hc : s.closed with
    | false => exact ⟨_, (hopened hc).read_eq.symm⟩
    | true => exact ⟨_, (hread hc).symm⟩

theorem note_of_next (hnext : s.next utf8Error = some (.ok (some line), rest)) :
    Heard.note s (.nextLine utf8Error) s' h = { h with taken := h.taken ++ [line] } := by
  rw [Heard.note, hnext]

/-- Where no line is read and nothing arrives, nothing is noted. -/
theorem note_of_fail (hother : ∀ bytes, a ≠ .receive bytes ∧ a ≠ .cookie (.ok bytes))
    (hline : ∀ utf8Error, a = .nextLine utf8Error →
      ∀ line rest, s.next utf8Error ≠ some (.ok (some line), rest)) :
    Heard.note s a s' h = h := by
  unfold Heard.note
  split
  · rename_i cookie
    exact absurd rfl (hother cookie).2
  · rename_i chunk
    exact absurd rfl (hother chunk).1
  · split
    · rename_i line rest hnext
      exact absurd hnext (hline _ rfl line rest)
    · rfl
  · rfl

/-- **The step lemma.** -/
theorem Follows.step (hf : Follows before s h) (hs : WatchStep s a s') :
    Follows before s' (Heard.note s a s' h) := by
  have hplace := hf.place
  cases hs with
  | cookie hpc =>
    rw [hpc] at hplace
    refine hf.keep ⟨rfl, rfl⟩ ⟨rfl, rfl⟩ ⟨rfl, hplace⟩ ?_ rfl
    simp [StreamWatcher.goto, hpc, WatchPc.connected]
  | connect hpc =>
    obtain ⟨hreceived, hbuffer, hopen⟩ := hf.silent (by simp [hpc, WatchPc.connected]) (by simp [hpc])
    rw [hpc] at hplace
    refine ⟨hplace, by simp [StreamWatcher.goto, WatchPc.connected], ?_, ?_, by simp
      [StreamWatcher.goto], hf.streams⟩
    · intro _ _
      show Lines.Taken _ _ (h.taken.map toUtf8) h.received s.buffer
      rw [hplace.2.2, hreceived, hbuffer]
      exact Lines.taken_nil []
    · intro _ hclosed
      cases hopen.symm.trans hclosed
  | authenticate hpc =>
    rw [hpc] at hplace
    obtain ⟨rfl, hsent, htaken⟩ := hplace
    refine hf.keep ⟨rfl, rfl⟩ ⟨rfl, rfl⟩ ⟨?_, htaken⟩ ?_ rfl
    · show s.sent ++ _ = _
      rw [hsent]
      rfl
    · simp [StreamWatcher.wrote, hpc, WatchPc.connected]
  | subscribe hpc =>
    rw [hpc] at hplace
    obtain ⟨hsent, hreply⟩ := hplace
    refine hf.keep ⟨rfl, rfl⟩ ⟨rfl, rfl⟩ ⟨?_, hreply⟩ ?_ rfl
    · show s.sent ++ _ = _
      rw [hsent]
      rfl
    · simp [StreamWatcher.wrote, hpc, WatchPc.connected]
  | fail hother hline =>
    rw [note_of_fail hother hline]
    exact ⟨hplace.handshake, fun _ hnot => absurd rfl (hnot _), nofun, nofun,
      fun _ _ => hf.taken_prefix, hf.streams⟩
  | @receive chunk hpc hopen =>
    refine ⟨hplace, ?_, ?_, ?_, ?_, hf.streams⟩
    · intro hidle
      cases hidle.symm.trans hpc
    · exact fun _ _ => (hf.opened hpc hopen).append chunk
    · intro _ hclosed
      cases hopen.symm.trans hclosed
    · intro err herr
      rw [show s.pc = .ended err from herr] at hpc
      cases hpc
  | close hpc =>
    refine ⟨hplace, ?_, nofun, ?_, fun _ herr => hf.ended _ herr, hf.streams⟩
    · intro hidle
      cases hidle.symm.trans hpc
    · intro _ _
      cases hc : s.closed with
      | false => exact (hf.opened hpc hc).read_eq
      | true => exact hf.closed hpc hc
  | @reply _ line rest pc hnext hpc hok =>
    rw [note_of_next hnext]
    rcases hpc with ⟨hpc, rfl⟩ | ⟨hpc, rfl⟩
    · rw [hpc] at hplace
      obtain ⟨hsent, htaken⟩ := hplace
      refine hf.take hnext (by simp [hpc, WatchPc.connected]) rfl rfl ?_ (.inl rfl) ?_
      · exact ⟨hsent, line, by rw [htaken]; rfl, hok⟩
      · have hstreams := hf.streams
        rw [htaken] at hstreams ⊢
        exact hstreams
    · rw [hpc] at hplace
      obtain ⟨hsent, reply, htaken, hreply⟩ := hplace
      refine hf.take hnext (by simp [hpc, WatchPc.connected]) rfl rfl ?_ (.inl rfl) ?_
      · exact ⟨hsent, reply, line, [], by rw [htaken]; rfl, hreply, hok⟩
      · have hstreams := hf.streams
        rw [htaken] at hstreams ⊢
        exact hstreams
  | @refused _ line rest err hnext hpc =>
    rw [note_of_next hnext]
    rcases hpc with hpc | hpc
    · rw [hpc] at hplace
      obtain ⟨hsent, htaken⟩ := hplace
      refine hf.take hnext (by simp [hpc, WatchPc.connected]) rfl rfl ?_ (.inr ⟨err, rfl⟩) ?_
      · show Handshake h.cookie s.sent (h.taken ++ [line])
        rw [hsent, htaken]
        exact handshake_refused line
      · have hstreams := hf.streams
        rw [htaken] at hstreams ⊢
        exact hstreams
    · rw [hpc] at hplace
      obtain ⟨hsent, reply, htaken, hreply⟩ := hplace
      refine hf.take hnext (by simp [hpc, WatchPc.connected]) rfl rfl ?_ (.inr ⟨err, rfl⟩) ?_
      · show Handshake h.cookie s.sent (h.taken ++ [line])
        rw [hsent, htaken]
        exact handshake_subscribed line hreply
      · have hstreams := hf.streams
        rw [htaken] at hstreams ⊢
        exact hstreams
  | @event _ line rest event hnext hpc hevent =>
    rw [note_of_next hnext]
    have hconn : s.pc.connected = true := by simp [hpc, WatchPc.connected]
    rw [hpc] at hplace
    obtain ⟨hsent, reply, reply', lines, htaken, hreply⟩ := hplace
    refine hf.take hnext hconn rfl rfl ?_ (.inl hconn) ?_
    · show s.pc.Fits _ _ _
      rw [hpc]
      exact ⟨hsent, reply, reply', lines ++ [line], by rw [htaken]; rfl, hreply⟩
    · have hshown : eventOf line = some (shown event) := by
        rw [← parseStreamEvent_shown s.now, hevent, Option.map_some]
      have hstreams := hf.streams
      rw [htaken] at hstreams ⊢
      simp only [List.cons_append, List.drop_succ_cons, List.drop_zero] at hstreams ⊢
      rw [HealthStatus.recentStreams_pushStreamEvent, map_latest, List.map_append, hstreams,
        latest_append, List.filterMap_append, List.append_assoc]
      simp [hshown]
  | @other _ line rest hnext hpc hevent =>
    rw [note_of_next hnext]
    have hconn : s.pc.connected = true := by simp [hpc, WatchPc.connected]
    rw [hpc] at hplace
    obtain ⟨hsent, reply, reply', lines, htaken, hreply⟩ := hplace
    refine hf.take hnext hconn rfl rfl ?_ (.inl hconn) ?_
    · show s.pc.Fits _ _ _
      rw [hpc]
      exact ⟨hsent, reply, reply', lines ++ [line], by rw [htaken]; rfl, hreply⟩
    · have hshown : eventOf line = none := by
        rw [← parseStreamEvent_shown s.now, hevent, Option.map_none]
      have hstreams := hf.streams
      rw [htaken] at hstreams ⊢
      simp only [List.cons_append, List.drop_succ_cons, List.drop_zero] at hstreams ⊢
      rw [List.filterMap_append, show [line].filterMap eventOf = [] by simp [hshown],
        List.append_nil]
      exact hstreams
  | update hstreams =>
    exact hf.keep ⟨rfl, rfl⟩ ⟨rfl, rfl⟩ hplace ⟨rfl, fun _ => Iff.rfl⟩ hstreams
  | tick => exact hf.keep ⟨rfl, rfl⟩ ⟨rfl, rfl⟩ hplace ⟨rfl, fun _ => Iff.rfl⟩ rfl

end Follows

theorem follows_spawned (cookiePath : String) (telemetry : HealthStatus) (now : ℕ)
    (hcap : telemetry.recentStreams.length ≤ streamEventsCapacity) :
    Follows telemetry.recentStreams (.spawned cookiePath telemetry now) .nothing := by
  refine ⟨⟨rfl, rfl⟩, fun _ _ => ⟨rfl, rfl, rfl⟩, nofun, nofun, nofun, ?_⟩
  show telemetry.recentStreams.map shown = latest _ (_ ++ [])
  rw [List.append_nil, latest_of_length_le (by rwa [List.length_map])]

/-- The run lemma. -/
theorem follows_of_reach {cookiePath : String} {telemetry : HealthStatus} {now : ℕ}
    (hcap : telemetry.recentStreams.length ≤ streamEventsCapacity) {s : StreamWatcher} {h : Heard}
    (hreach : (watchStreams.watch Heard.note).Reach Machine.anyStep
      (.spawned cookiePath telemetry now, .nothing) (s, h)) :
    Follows telemetry.recentStreams s h := by
  refine hreach.invariant (I := fun p => Follows telemetry.recentStreams p.1 p.2)
    (follows_spawned cookiePath telemetry now hcap) ?_
  rintro p a q hf - hstep
  obtain ⟨hs, hnote⟩ := Machine.watch_step.mp hstep
  rw [hnote]
  exact hf.step (watchStep_of_step hs)

/-! ## What tor sends -/

structure Word where
  chars : List Char
  ne_nil : chars ≠ []
  noSpace : ∀ c ∈ chars, isWhiteSpace c = false

/-- A line of an event, behind the replies: of a stream event with its further fields,
or of anything else. -/
inductive TorLine
  | stream (id status circuit target : Word) (more : List Char)
      (hmore : more = [] ∨ ∃ fields, more = ' ' :: fields) (hline : '\n' ∉ more)
  | other (text : String) (hline : '\n' ∉ text.toList)
      (hother : ¬ "650 STREAM ".toList <+: text.toList)

namespace TorLine

def text : TorLine → String
  | .stream id status circuit target more _ _ =>
    String.ofList ("650 STREAM ".toList ++ (id.chars ++ ' ' :: (status.chars ++ ' ' ::
      (circuit.chars ++ ' ' :: (target.chars ++ more)))))
  | .other text _ _ => text

/-- The status and the target of a stream event. -/
def event : TorLine → Option (String × String)
  | .stream _ status _ target _ _ _ =>
    some (String.ofList status.chars, String.ofList target.chars)
  | .other _ _ _ => none

end TorLine

/-- Lines on the wire. -/
def wire (lines : List String) : List UInt8 :=
  lines.flatMap fun line => toUtf8 line ++ [carriageReturn, lineFeed]

theorem Word.newline_notMem (w : Word) : '\n' ∉ w.chars := by
  intro h
  have hspace := w.noSpace _ h
  rw [show isWhiteSpace '\n' = true by decide] at hspace
  cases hspace

namespace TorLine

theorem toList_text_stream {id status circuit target : Word} {more : List Char}
    {hmore : more = [] ∨ ∃ fields, more = ' ' :: fields} {hline : '\n' ∉ more} :
    (text (.stream id status circuit target more hmore hline)).toList =
      "650 STREAM ".toList ++ (id.chars ++ ' ' :: (status.chars ++ ' ' ::
        (circuit.chars ++ ' ' :: (target.chars ++ more)))) := String.toList_ofList

/-- A line is one line. -/
theorem newline_notMem_text (l : TorLine) : '\n' ∉ l.text.toList := by
  cases l with
  | stream id status circuit target more hmore hline =>
    have hkey : '\n' ∉ "650 STREAM ".toList := by decide
    rw [toList_text_stream]
    simp only [List.mem_append, List.mem_cons, not_or]
    exact ⟨hkey, id.newline_notMem, by decide, status.newline_notMem, by decide,
      circuit.newline_notMem, by decide, target.newline_notMem, hline⟩
  | other text hline hother => exact hline

/-- **The parser finds the fields of every stream event**, and nothing else. -/
theorem eventOf_text (l : TorLine) : eventOf l.text = l.event := by
  cases l with
  | stream id status circuit target more hmore hline =>
    have hsp : isWhiteSpace ' ' = true := by decide
    have hdrop : (text (.stream id status circuit target more hmore hline)).toList.dropPrefix?
        "650 STREAM ".toList = some (id.chars ++ ' ' :: (status.chars ++ ' ' ::
          (circuit.chars ++ ' ' :: (target.chars ++ more)))) := by
      rw [toList_text_stream]
      exact List.dropPrefix?_append_of_beq _ (by simp)
    have htarget : ∃ others, splitWhitespace (String.ofList (target.chars ++ more)) =
        target.chars :: others := by
      rcases hmore with rfl | ⟨fields, rfl⟩
      · rw [List.append_nil]
        exact ⟨[], splitWhitespace_word target.ne_nil target.noSpace⟩
      · exact ⟨_, splitWhitespace_word_append target.ne_nil target.noSpace hsp⟩
    obtain ⟨others, hothers⟩ := htarget
    unfold eventOf parseStreamEvent
    rw [hdrop]
    simp only [Option.bind_eq_bind, Option.bind_some,
      splitWhitespace_word_append id.ne_nil id.noSpace hsp,
      splitWhitespace_word_append status.ne_nil status.noSpace hsp,
      splitWhitespace_word_append circuit.ne_nil circuit.noSpace hsp, hothers]
    rfl
  | other text hline hother =>
    have hdrop : text.toList.dropPrefix? "650 STREAM ".toList = none := by
      refine Option.eq_none_iff_forall_ne_some.mpr ?_
      intro rest hrest
      obtain ⟨key, heq, hkey⟩ := List.dropPrefix?_eq_some_iff.mp hrest
      rw [beq_iff_eq] at hkey
      exact hother ⟨rest, by rw [heq, hkey]⟩
    unfold eventOf parseStreamEvent
    rw [show (TorLine.other text hline hother).text = text from rfl, hdrop]
    rfl

end TorLine

theorem lineFeed_notMem_toUtf8 {line : String} (h : '\n' ∉ line.toList) :
    lineFeed ∉ toUtf8 line := fun hmem => h (mem_of_mem_toUtf8 hmem (by decide))

/-- What is on the wire is read back. -/
theorem read_wire {lines : List String} (h : ∀ line ∈ lines, '\n' ∉ line.toList) :
    Lines.read lineFeed carriageReturn (wire lines) = lines.map toUtf8 := by
  have hwire : wire lines = (lines.map toUtf8).flatMap (· ++ [carriageReturn, lineFeed]) := by
    rw [wire, List.flatMap_map]
  rw [hwire]
  refine Lines.read_flatMap ?_ (by decide)
  intro l hl
  obtain ⟨line, hline, rfl⟩ := List.mem_map.mp hl
  exact lineFeed_notMem_toUtf8 (h line hline)

/-- Everything that has arrived has been read. -/
theorem Follows.taken_eq {before : List StreamEvent} {s : StreamWatcher} {h : Heard}
    (hf : Follows before s h) (hconn : s.pc.connected = true) (hbuffer : s.buffer = [])
    {lines : List String} (hlines : ∀ line ∈ lines, '\n' ∉ line.toList)
    (hreceived : h.received = wire lines) : h.taken = lines := by
  have hread : Lines.read lineFeed carriageReturn h.received = h.taken.map toUtf8 := by
    cases hclosed : s.closed with
    | false =>
      rw [(hf.opened hconn hclosed).read_eq, hbuffer, Lines.read_nil, List.append_nil]
    | true => rw [hf.closed hconn hclosed, hbuffer, Lines.read_nil, List.append_nil]
  rw [hreceived, read_wire hlines] at hread
  exact (List.map_injective_iff.mpr toUtf8_injective hread).symm

/-! ## Runs -/

section Runs

variable {s : StreamWatcher} {h : Heard} {utf8Error line : String} {lines : List String}

/-- The next line on the wire. -/
theorem next_of_wire (hline : '\n' ∉ line.toList) (hbuffer : s.buffer = wire (line :: lines)) :
    s.next utf8Error = some (.ok (some line), wire lines) := by
  have hraw : lineFeed ∉ toUtf8 line ++ [carriageReturn] := by
    rw [List.mem_append, not_or]
    exact ⟨lineFeed_notMem_toUtf8 hline, by decide⟩
  have hwire : wire (line :: lines) =
      (toUtf8 line ++ [carriageReturn]) ++ lineFeed :: wire lines := by simp [wire]
  unfold StreamWatcher.next
  rw [hbuffer, hwire, Lines.cut_line_append hraw]
  simp [Lines.chomp_concat, StreamWatcher.decode]

theorem step_nextLine {r : Except String (Option String)} {rest : List UInt8}
    (hnext : s.next utf8Error = some (r, rest)) :
    s.step (.nextLine utf8Error) = ({ s with buffer := rest }).onNext r := by
  cases hpc : s.pc <;> simp only [StreamWatcher.step, hpc, hnext]

theorem watch_nextLine {s' : StreamWatcher} {rest : List UInt8}
    (hnext : s.next utf8Error = some (.ok (some line), rest)) (hs : s.step (.nextLine utf8Error) = some s') :
    (watchStreams.watch Heard.note).step (s, h) (.nextLine utf8Error) =
      some (s', { h with taken := h.taken ++ [line] }) :=
  Machine.watch_step.mpr ⟨hs, (note_of_next hnext).symm⟩

/-- The task reads a line. -/
theorem exists_read (hpc : s.pc = .watching) (hline : '\n' ∉ line.toList)
    (hbuffer : s.buffer = wire (line :: lines)) :
    ∃ s', s.step (.nextLine utf8Error) = some s' ∧ s'.pc = .watching ∧ s'.buffer = wire lines := by
  rw [step_nextLine (next_of_wire hline hbuffer)]
  unfold StreamWatcher.onNext
  simp only [hpc]
  cases parseStreamEvent s.now line with
  | none => exact ⟨_, rfl, rfl, rfl⟩
  | some event => exact ⟨_, rfl, rfl, rfl⟩

/-- An accepted reply leads on. -/
theorem onNext_of_accepted (hok : Accepted line) :
    (s.pc = .authenticated → s.onNext (.ok (some line)) = some (s.goto .subscribing)) ∧
      (s.pc = .subscribed → s.onNext (.ok (some line)) = some (s.goto .watching)) := by
  have hexpect : expectOk (.ok (some line)) = .ok () := if_pos hok
  constructor <;> intro hpc <;> simp only [StreamWatcher.onNext, hpc, hexpect]

/-- It reads all of them. -/
theorem exists_drained (hlines : ∀ line ∈ lines, '\n' ∉ line.toList) (hpc : s.pc = .watching)
    (hbuffer : s.buffer = wire lines) :
    ∃ s' h', (watchStreams.watch Heard.note).Reach Machine.anyStep (s, h) (s', h') ∧
      h'.received = h.received ∧ s'.pc = .watching ∧ s'.buffer = [] := by
  induction lines generalizing s h with
  | nil => exact ⟨s, h, .init, rfl, hpc, hbuffer⟩
  | cons line lines ih =>
    have hline := hlines line List.mem_cons_self
    obtain ⟨s₁, hs, hpc₁, hbuffer₁⟩ := exists_read hpc hline hbuffer
    obtain ⟨s', h', hreach, hreceived, hdone⟩ :=
      ih (h := { h with taken := h.taken ++ [line] })
        (fun l hl => hlines l (List.mem_cons_of_mem line hl)) hpc₁ hbuffer₁
    refine ⟨s', h', ?_, hreceived, hdone⟩
    exact Machine.Reach.trans (.step (a := .nextLine "") .init trivial
      (watch_nextLine (next_of_wire hline hbuffer) hs)) hreach

/-- **The handshake goes through**, and every script is read. -/
theorem exists_watched (cookiePath : String) (telemetry : HealthStatus) (now : ℕ)
    (cookie : List UInt8) (reply reply' : String) (lines : List String)
    (hlines : ∀ line ∈ reply :: reply' :: lines, '\n' ∉ line.toList) (hok : Accepted reply)
    (hok' : Accepted reply') :
    ∃ s h, (watchStreams.watch Heard.note).Reach Machine.anyStep
        (.spawned cookiePath telemetry now, .nothing) (s, h) ∧
      h.received = wire (reply :: reply' :: lines) ∧ s.pc = .watching ∧ s.buffer = [] := by
  have hreply := hlines reply List.mem_cons_self
  have hreply' := hlines reply' (List.mem_cons_of_mem _ List.mem_cons_self)
  -- everything arrives before the first reply is read
  let s₁ : StreamWatcher :=
    { StreamWatcher.spawned cookiePath telemetry now with
      pc := .authenticated
      sent := [authenticate (cookieHex cookie)]
      buffer := wire (reply :: reply' :: lines) }
  have hreach₁ : (watchStreams.watch Heard.note).Reach Machine.anyStep
      (.spawned cookiePath telemetry now, .nothing)
      (s₁, ⟨cookie, wire (reply :: reply' :: lines), []⟩) := by
    have hcookie : (watchStreams.watch Heard.note).Reach Machine.anyStep
        (.spawned cookiePath telemetry now, .nothing)
        ((StreamWatcher.spawned cookiePath telemetry now).goto (.connecting (cookieHex cookie)),
          ⟨cookie, [], []⟩) := .step (a := .cookie (.ok cookie)) .init trivial rfl
    have hconnect := hcookie.step (a := .connect (.ok ())) trivial rfl
    have hwrite := hconnect.step (a := .write (.ok ())) trivial rfl
    exact hwrite.step (a := .receive (wire (reply :: reply' :: lines))) trivial rfl
  have hs₂ : s₁.step (.nextLine "") = some
      { s₁ with buffer := wire (reply' :: lines), pc := .subscribing } :=
    (step_nextLine (next_of_wire hreply rfl)).trans ((onNext_of_accepted hok).1 rfl)
  let s₃ : StreamWatcher :=
    { s₁ with
      buffer := wire (reply' :: lines)
      pc := .subscribed
      sent := [authenticate (cookieHex cookie), setEvents] }
  have hreach₃ : (watchStreams.watch Heard.note).Reach Machine.anyStep
      (.spawned cookiePath telemetry now, .nothing)
      (s₃, ⟨cookie, wire (reply :: reply' :: lines), [reply]⟩) := by
    have hreach₂ := hreach₁.step (a := .nextLine "") trivial
      (watch_nextLine (next_of_wire hreply rfl) hs₂)
    exact hreach₂.step (a := .write (.ok ())) trivial rfl
  -- the second reply, and then every line
  have hs₄ : s₃.step (.nextLine "") = some { s₃ with buffer := wire lines, pc := .watching } :=
    (step_nextLine (next_of_wire hreply' rfl)).trans ((onNext_of_accepted hok').2 rfl)
  obtain ⟨s, h, hreach, hreceived, hdone⟩ := exists_drained
    (s := { s₃ with buffer := wire lines, pc := .watching })
    (h := ⟨cookie, wire (reply :: reply' :: lines), [reply, reply']⟩)
    (fun line hline => hlines line (List.mem_cons_of_mem _ (List.mem_cons_of_mem _ hline))) rfl rfl
  have hreach₄ := hreach₃.step (a := .nextLine "") trivial
    (watch_nextLine (next_of_wire hreply' rfl) hs₄)
  exact ⟨s, h, hreach₄.trans hreach, hreceived, hdone⟩

end Runs

/-! ## The results -/

section Results

variable (cookiePath : String) (telemetry : HealthStatus) (now : ℕ)
  (hcap : telemetry.recentStreams.length ≤ streamEventsCapacity) (s : StreamWatcher) (h : Heard)
  (hreach : (watchStreams.watch Heard.note).Reach Machine.anyStep
    (.spawned cookiePath telemetry now, .nothing) (s, h))

include hcap hreach

/-- **The cookie goes out first, the subscription only behind an accepted reply, and no
event counts before two.**  Whatever arrives and however it is cut, the commands written
are a prefix of the two; the argument of the first reads back as the bytes of the cookie
file; and the streams in telemetry are the old ones until a third line, which follows two
accepted replies. -/
theorem handshake_of_reach :
    Handshake h.cookie s.sent h.taken ∧ fromHex (cookieHex h.cookie).toList = h.cookie ∧
    (s.telemetry.recentStreams.map shown ≠ telemetry.recentStreams.map shown →
      2 < h.taken.length) := by
  have hf := follows_of_reach hcap hreach
  refine ⟨hf.place.handshake, fromHex_cookieHex h.cookie, ?_⟩
  intro hne
  refine Nat.lt_of_not_le ?_
  intro hle
  refine hne ?_
  rw [hf.streams, List.drop_eq_nil_of_le hle, List.filterMap_nil, List.append_nil]
  exact latest_of_length_le (by rwa [List.length_map])

/-- **No event is lost, repeated or reordered.**  For every pair of replies and every
sequence of lines behind them, in whatever chunks it arrives: once the task watches and has
read what has arrived, telemetry holds the latest 200 of the events before and those of
the stream events sent, with their status and target, and nothing else. -/
theorem feed_of_reach (reply reply' : String) (script : List TorLine)
    (hreplies : '\n' ∉ reply.toList ∧ '\n' ∉ reply'.toList)
    (hreceived : h.received = wire (reply :: reply' :: script.map TorLine.text))
    (hpc : s.pc = .watching) (hbuffer : s.buffer = []) :
    s.telemetry.recentStreams.map shown = latest streamEventsCapacity
      (telemetry.recentStreams.map shown ++ script.filterMap TorLine.event) := by
  have hf := follows_of_reach hcap hreach
  have hlines : ∀ line ∈ reply :: reply' :: script.map TorLine.text, '\n' ∉ line.toList := by
    intro line hline
    rcases List.mem_cons.mp hline with rfl | hline
    · exact hreplies.1
    · rcases List.mem_cons.mp hline with rfl | hline
      · exact hreplies.2
      · obtain ⟨l, -, rfl⟩ := List.mem_map.mp hline
        exact l.newline_notMem_text
  have htaken := hf.taken_eq (by simp [hpc, WatchPc.connected]) hbuffer hlines hreceived
  rw [hf.streams, htaken, List.drop_succ_cons, List.drop_succ_cons, List.drop_zero,
    List.filterMap_map]
  congr 2
  exact List.filterMap_congr fun l _ => l.eventOf_text

end Results

/-- A text without white space, as a word. -/
def Word.ofText (text : String) (ne_nil : text.toList ≠ [])
    (noSpace : text.toList.all (!isWhiteSpace ·) = true) : Word where
  chars := text.toList
  ne_nil := ne_nil
  noSpace c hc := by simpa using List.all_eq_true.mp noSpace c hc

/-- `650 STREAM 7 SUCCEEDED 4 example.com:443` -/
def succeeded : TorLine :=
  .stream (.ofText "7" (by decide) (by decide)) (.ofText "SUCCEEDED" (by decide) (by decide))
    (.ofText "4" (by decide) (by decide)) (.ofText "example.com:443" (by decide) (by decide)) []
    (.inl rfl) (by decide)

def circuitBuilt : TorLine := .other "650 CIRC 4 BUILT" (by decide) (by decide)

theorem handshake_goes_through : ∃ (s : StreamWatcher) (h : Heard), s.pc = .watching ∧
    Handshake h.cookie s.sent h.taken := by
  obtain ⟨s, h, hreach, -, hpc, -⟩ := exists_watched "control_auth_cookie" {} 0 [0xAB]
    "250 OK" "250 OK" [] (by decide) (by decide : "250".toList <+: _)
    (by decide : "250".toList <+: _)
  exact ⟨s, h, hpc, (handshake_of_reach "control_auth_cookie" {} 0 (by decide) s h hreach).1⟩

theorem feed_succeeded : ∃ s : StreamWatcher,
    s.telemetry.recentStreams.map shown = [("SUCCEEDED", "example.com:443")] := by
  obtain ⟨s, h, hreach, hreceived, hpc, hbuffer⟩ := exists_watched "control_auth_cookie" {} 0
    [0xAB] "250 OK" "250 OK" ([succeeded, circuitBuilt].map TorLine.text) (by decide)
    (by decide : "250".toList <+: _) (by decide : "250".toList <+: _)
  refine ⟨s, ?_⟩
  rw [feed_of_reach "control_auth_cookie" {} 0 (by decide) s h hreach "250 OK" "250 OK"
    [succeeded, circuitBuilt] ⟨by decide, by decide⟩ hreceived hpc hbuffer]
  decide

end Anonet.Transparent
