import Anonet.Library.Bytes
import Anonet.Library.Lines
import Anonet.Library.Machine
import Anonet.Library.Text
import Anonet.Telemetry.HealthStatus

/-!
# The control port client

`transparent/src/control.rs`: a task that authenticates to the supervised tor with the
cookie file, subscribes to stream events, and puts each one into telemetry until the
connection drops.  What tor sends arrives in chunks, which the task reads line by line
while other tasks update telemetry.

* `expectOk`, `parseStreamEvent` — what it makes of a line.
* `StreamWatcher`, `watchStreams` — the task as a machine.
* `WatchStep` — the same steps as a relation, one case for each way to go.
-/

namespace Anonet.Transparent

open Bytes Telemetry Text

/-! ## Commands and replies -/

def lineFeed : UInt8 := 0x0A

def carriageReturn : UInt8 := 0x0D

/-- A digit of `X` formatting. -/
def hexDigit (n : ℕ) : Char := Char.ofNat (if n < 10 then 48 + n else 55 + n)

/-- `{b:02X}` -/
def hexByte (b : UInt8) : List Char := [hexDigit (b.toNat / 16), hexDigit (b.toNat % 16)]

def cookieHex (cookie : List UInt8) : String := String.ofList (cookie.flatMap hexByte)

def authenticate (cookieHex : String) : String := "AUTHENTICATE " ++ cookieHex ++ "\r\n"

def setEvents : String := "SETEVENTS STREAM\r\n"

/-- `expect_ok`, on what `next_line` returned. -/
def expectOk : Except String (Option String) → Except String Unit
  | .ok (some line) =>
    if "250".toList <+: line.toList then .ok ()
    else .error s!"unexpected ControlPort reply: {line}"
  | .ok none => .error "ControlPort closed before replying"
  | .error err => .error err

/-- `650 STREAM StreamID Status CircID Target ...`, and nothing else. -/
def parseStreamEvent (now : ℕ) (line : String) : Option StreamEvent := do
  let rest ← line.toList.dropPrefix? "650 STREAM ".toList
  match splitWhitespace (String.ofList rest) with
  | _streamId :: status :: _circId :: target :: _ =>
    some ⟨now, String.ofList status, String.ofList target⟩
  | _ => none

/-! ## The task -/

/-- Where `watch_streams` is. -/
inductive WatchPc
  /-- Reading the cookie file. -/
  | reading
  | connecting (cookieHex : String)
  /-- Writing the first command. -/
  | authenticating (cookieHex : String)
  | authenticated
  /-- Writing the second. -/
  | subscribing
  | subscribed
  | watching
  | ended (err : String)
  deriving DecidableEq

structure StreamWatcher where
  cookiePath : String
  pc : WatchPc
  /-- The commands that have been written. -/
  sent : List String
  /-- What has arrived and is not part of a line yet. -/
  buffer : List UInt8
  /-- Tor has closed its side. -/
  closed : Bool
  telemetry : HealthStatus
  now : ℕ

inductive WatchAction
  | cookie (o : Except String (List UInt8))
  | connect (o : Except String Unit)
  | write (o : Except String Unit)
  | receive (chunk : List UInt8)
  | close
  /-- `next_line` returns; of a line that is not UTF-8 it says `utf8Error`. -/
  | nextLine (utf8Error : String)
  | readError (err : String)
  /-- Another task updates telemetry. -/
  | update (telemetry : HealthStatus)
  | tick (nanos : ℕ)

/-- The task has a connection. -/
def WatchPc.connected : WatchPc → Bool
  | .authenticating _ | .authenticated | .subscribing | .subscribed | .watching => true
  | .reading | .connecting _ | .ended _ => false

namespace StreamWatcher

/-- Spawned by `start` once tor has bootstrapped. -/
def spawned (cookiePath : String) (telemetry : HealthStatus) (now : ℕ) : StreamWatcher where
  cookiePath := cookiePath
  pc := .reading
  sent := []
  buffer := []
  closed := false
  telemetry := telemetry
  now := now

def goto (s : StreamWatcher) (pc : WatchPc) : StreamWatcher := { s with pc := pc }

/-- A command has been written. -/
def wrote (s : StreamWatcher) (command : String) (pc : WatchPc) : StreamWatcher :=
  { s with sent := s.sent ++ [command], pc := pc }

/-- A line as text. -/
def decode (utf8Error : String) (raw : List UInt8) : Except String (Option String) :=
  match fromUtf8 raw with
  | some line => .ok (some line)
  | none => .error utf8Error

/-- What `next_line` returns, and the buffer then; `none` while it waits. -/
def next (s : StreamWatcher) (utf8Error : String) :
    Option (Except String (Option String) × List UInt8) :=
  match Lines.cut lineFeed s.buffer with
  | some (raw, rest) => some (decode utf8Error (Lines.chomp carriageReturn raw), rest)
  | none =>
    if s.closed then
      if s.buffer = [] then some (.ok none, []) else some (decode utf8Error s.buffer, [])
    else none

/-- The task goes on with what `next_line` returned. -/
def onNext (s : StreamWatcher) (r : Except String (Option String)) : Option StreamWatcher :=
  match s.pc with
  | .authenticated =>
    match expectOk r with
    | .ok _ => some (s.goto .subscribing)
    | .error _ => some (s.goto (.ended "ControlPort AUTHENTICATE failed"))
  | .subscribed =>
    match expectOk r with
    | .ok _ => some (s.goto .watching)
    | .error _ => some (s.goto (.ended "ControlPort SETEVENTS failed"))
  | .watching =>
    match r with
    | .ok (some line) =>
      match parseStreamEvent s.now line with
      | some event => some { s with telemetry := s.telemetry.pushStreamEvent event }
      | none => some s
    | .ok none => some (s.goto (.ended "ControlPort connection closed"))
    | .error err => some (s.goto (.ended err))
  | _ => none

/-- One step of the task, or of what it talks to. -/
def step (s : StreamWatcher) (a : WatchAction) : Option StreamWatcher :=
  match s.pc, a with
  | .reading, .cookie (.ok cookie) => some (s.goto (.connecting (cookieHex cookie)))
  | .reading, .cookie (.error _) =>
    some (s.goto (.ended s!"failed to read control auth cookie at {s.cookiePath}"))
  | .connecting hex, .connect (.ok _) => some (s.goto (.authenticating hex))
  | .connecting _, .connect (.error _) =>
    some (s.goto (.ended "failed to connect to tor ControlPort"))
  | .authenticating hex, .write (.ok _) => some (s.wrote (authenticate hex) .authenticated)
  | .authenticating _, .write (.error err) => some (s.goto (.ended err))
  | .subscribing, .write (.ok _) => some (s.wrote setEvents .subscribed)
  | .subscribing, .write (.error err) => some (s.goto (.ended err))
  | _, .receive chunk =>
    if s.pc.connected && !s.closed then some { s with buffer := s.buffer ++ chunk } else none
  | _, .close => if s.pc.connected then some { s with closed := true } else none
  | _, .nextLine utf8Error =>
    match s.next utf8Error with
    | some (r, rest) => ({ s with buffer := rest }).onNext r
    | none => none
  | _, .readError err => s.onNext (.error err)
  | _, .update telemetry =>
    -- nobody else writes `recent_streams`
    if telemetry.recentStreams = s.telemetry.recentStreams then
      some { s with telemetry := telemetry }
    else none
  | _, .tick nanos => some { s with now := s.now + nanos }
  | _, _ => none

end StreamWatcher

/-- The watcher, tor at the other end of its connection, and other tasks. -/
def watchStreams : Machine StreamWatcher WatchAction where
  step := StreamWatcher.step

/-! ## What one step does -/

/-- One case for each way to go. -/
inductive WatchStep (s : StreamWatcher) : WatchAction → StreamWatcher → Prop
  | cookie {cookie : List UInt8} (hpc : s.pc = .reading) :
      WatchStep s (.cookie (.ok cookie)) (s.goto (.connecting (cookieHex cookie)))
  | connect {hex : String} (hpc : s.pc = .connecting hex) :
      WatchStep s (.connect (.ok ())) (s.goto (.authenticating hex))
  | authenticate {hex : String} (hpc : s.pc = .authenticating hex) :
      WatchStep s (.write (.ok ())) (s.wrote (Transparent.authenticate hex) .authenticated)
  | subscribe (hpc : s.pc = .subscribing) :
      WatchStep s (.write (.ok ())) (s.wrote setEvents .subscribed)
  /-- Something went wrong, or `next_line` returned no line. -/
  | fail {a : WatchAction} {rest : List UInt8} {err : String}
      (hother : ∀ bytes, a ≠ .receive bytes ∧ a ≠ .cookie (.ok bytes))
      (hline : ∀ utf8Error, a = .nextLine utf8Error →
        ∀ line rest, s.next utf8Error ≠ some (.ok (some line), rest)) :
      WatchStep s a { s with buffer := rest, pc := .ended err }
  | receive {chunk : List UInt8} (hpc : s.pc.connected = true) (hopen : s.closed = false) :
      WatchStep s (.receive chunk) { s with buffer := s.buffer ++ chunk }
  | close (hpc : s.pc.connected = true) : WatchStep s .close { s with closed := true }
  | reply {utf8Error line : String} {rest : List UInt8} {pc : WatchPc}
      (hnext : s.next utf8Error = some (.ok (some line), rest))
      (hpc : s.pc = .authenticated ∧ pc = .subscribing ∨ s.pc = .subscribed ∧ pc = .watching)
      (hok : "250".toList <+: line.toList) :
      WatchStep s (.nextLine utf8Error) { s with buffer := rest, pc := pc }
  | refused {utf8Error line : String} {rest : List UInt8} {err : String}
      (hnext : s.next utf8Error = some (.ok (some line), rest))
      (hpc : s.pc = .authenticated ∨ s.pc = .subscribed) :
      WatchStep s (.nextLine utf8Error) { s with buffer := rest, pc := .ended err }
  | event {utf8Error line : String} {rest : List UInt8} {event : StreamEvent}
      (hnext : s.next utf8Error = some (.ok (some line), rest)) (hpc : s.pc = .watching)
      (hevent : parseStreamEvent s.now line = some event) :
      WatchStep s (.nextLine utf8Error)
        { s with buffer := rest, telemetry := s.telemetry.pushStreamEvent event }
  | other {utf8Error line : String} {rest : List UInt8}
      (hnext : s.next utf8Error = some (.ok (some line), rest)) (hpc : s.pc = .watching)
      (hevent : parseStreamEvent s.now line = none) :
      WatchStep s (.nextLine utf8Error) { s with buffer := rest }
  | update {telemetry : HealthStatus}
      (hstreams : telemetry.recentStreams = s.telemetry.recentStreams) :
      WatchStep s (.update telemetry) { s with telemetry := telemetry }
  | tick {nanos : ℕ} : WatchStep s (.tick nanos) { s with now := s.now + nanos }

theorem watchStep_of_onNext {s s' : StreamWatcher} {utf8Error : String}
    {r : Except String (Option String)} {rest : List UInt8}
    (hnext : s.next utf8Error = some (r, rest))
    (h : ({ s with buffer := rest }).onNext r = some s') : WatchStep s (.nextLine utf8Error) s' := by
  have hfail : (∀ line, r ≠ .ok (some line)) → ∀ err,
      WatchStep s (.nextLine utf8Error) { s with buffer := rest, pc := .ended err } := by
    intro hno err
    refine .fail (fun bytes => by simp) ?_
    rintro _ ⟨⟩ line rest' hline
    rw [hnext] at hline
    cases hline
    exact hno line rfl
  rcases r with err | _ | line
  · unfold StreamWatcher.onNext at h
    split at h <;> cases h <;> exact hfail (by simp) _
  · unfold StreamWatcher.onNext at h
    split at h <;> cases h <;> exact hfail (by simp) _
  · unfold StreamWatcher.onNext expectOk at h
    by_cases hok : "250".toList <+: line.toList
    · simp only [if_pos hok] at h
      split at h
      · rename_i hpc
        cases h
        exact .reply hnext (.inl ⟨hpc, rfl⟩) hok
      · rename_i hpc
        cases h
        exact .reply hnext (.inr ⟨hpc, rfl⟩) hok
      · rename_i hpc
        split at h <;> rename_i hevent <;> cases h
        · exact .event hnext hpc hevent
        · exact .other hnext hpc hevent
      · cases h
    · simp only [if_neg hok] at h
      split at h
      · rename_i hpc
        cases h
        exact .refused hnext (.inl hpc)
      · rename_i hpc
        cases h
        exact .refused hnext (.inr hpc)
      · rename_i hpc
        split at h <;> rename_i hevent <;> cases h
        · exact .event hnext hpc hevent
        · exact .other hnext hpc hevent
      · cases h

theorem watchStep_of_step {s s' : StreamWatcher} {a : WatchAction} (h : s.step a = some s') :
    WatchStep s a s' := by
  have hfail : ∀ err, (∀ bytes, a ≠ .receive bytes ∧ a ≠ .cookie (.ok bytes)) →
      (∀ utf8Error, a ≠ .nextLine utf8Error) → WatchStep s a (s.goto (.ended err)) :=
    fun err hother hline => .fail hother fun utf8Error heq => absurd heq (hline utf8Error)
  unfold StreamWatcher.step at h
  split at h
  · rename_i hpc
    cases h
    exact .cookie hpc
  · cases h
    exact hfail _ (by simp) (by simp)
  · rename_i hpc
    cases h
    exact .connect hpc
  · cases h
    exact hfail _ (by simp) (by simp)
  · rename_i hpc
    cases h
    exact .authenticate hpc
  · cases h
    exact hfail _ (by simp) (by simp)
  · rename_i hpc
    cases h
    exact .subscribe hpc
  · cases h
    exact hfail _ (by simp) (by simp)
  · split at h
    · rename_i hopen
      cases h
      rw [Bool.and_eq_true, Bool.not_eq_true'] at hopen
      exact .receive hopen.1 hopen.2
    · cases h
  · split at h
    · rename_i hpc
      cases h
      exact .close hpc
    · cases h
  · split at h
    · rename_i r rest hnext
      exact watchStep_of_onNext hnext h
    · cases h
  · unfold StreamWatcher.onNext expectOk at h
    split at h <;> cases h <;> exact hfail _ (by simp) (by simp)
  · split at h
    · rename_i hstreams
      cases h
      exact .update hstreams
    · cases h
  · cases h
    exact .tick
  · cases h

end Anonet.Transparent
