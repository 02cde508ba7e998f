import Anonet.Cli.StatusServer

/-!
# Reading the status report

A script cuts the report at the line breaks and takes what follows each key.  Two of the
values are free text, and they are written as they are.

* `entries` — the ten keys and their values.
* `reads_iff` — a script reads just these if neither of the two texts has a line break.
* `readsBack_iff` — **and it can tell two states apart just if, besides, neither text is
  the one that the other state's report has for none at all.**
-/

namespace Anonet.Cli

open Leakguard Net Telemetry

/-! ## What the report is about -/

/-- What the report has for no bridge and for no error. -/
def noBridge : String := "none (direct connection)"

def noError : String := "none"

/-- The message of the last error. -/
def errorMessage (health : HealthStatus) : Option String := health.lastError.map (·.2)

/-- The keys, each with the colon and the blank behind it, and the values. -/
def entries (socksAddr : SocketAddr) (health : HealthStatus) (dnsAddr : Option SocketAddr) :
    List (String × String) :=
  [("socks_listening: ", toString socksAddr),
    ("socks_connections_active: ", toString health.socksConnectionsActive),
    ("socks_connections_total: ", toString health.socksConnectionsTotal),
    ("dns_shim: ", (dnsAddr.map toString).getD "stopped"),
    ("active_bridge: ", health.activeBridgeLine.getD noBridge),
    ("bridge_candidates: ", toString health.candidates.length),
    ("consecutive_failures: ", toString health.consecutiveFailures),
    ("total_bridge_switches: ", toString health.totalSwitches),
    ("full_anonymization: ", if health.transparentEnabled then "running" else "stopped"),
    ("last_error: ", (errorMessage health).getD noError)]

def entryLine (entry : String × String) : List Char := (entry.1 ++ entry.2).toList

/-- `text.split('\n')`. -/
def lines (text : String) : List (List Char) := text.toList.splitOn '\n'

/-- The text is the ten lines, each ended by a line break. -/
def Reads (socksAddr : SocketAddr) (health : HealthStatus) (dnsAddr : Option SocketAddr) : Prop :=
  lines (formatStatus socksAddr health dnsAddr) =
    (entries socksAddr health dnsAddr).map entryLine ++ [[]]

/-- A reported field of the state. -/
inductive Field
  | socksConnectionsActive
  | socksConnectionsTotal
  | activeBridge
  | bridgeCandidates
  | consecutiveFailures
  | totalBridgeSwitches
  | fullAnonymization
  | lastError

inductive Value
  | count (n : ℕ)
  | flag (on : Bool)
  /-- A text, or what is written if there is none. -/
  | text (absent : String) (s : Option String)

def Value.shown : Value → String
  | count n => toString n
  | flag on => if on then "running" else "stopped"
  | text absent s => s.getD absent

namespace Field

def key : Field → String
  | socksConnectionsActive => "socks_connections_active: "
  | socksConnectionsTotal => "socks_connections_total: "
  | activeBridge => "active_bridge: "
  | bridgeCandidates => "bridge_candidates: "
  | consecutiveFailures => "consecutive_failures: "
  | totalBridgeSwitches => "total_bridge_switches: "
  | fullAnonymization => "full_anonymization: "
  | lastError => "last_error: "

def value (health : HealthStatus) : Field → Value
  | socksConnectionsActive => .count health.socksConnectionsActive.toNat
  | socksConnectionsTotal => .count health.socksConnectionsTotal.toNat
  | activeBridge => .text noBridge health.activeBridgeLine
  | bridgeCandidates => .count health.candidates.length
  | consecutiveFailures => .count health.consecutiveFailures.toNat
  | totalBridgeSwitches => .count health.totalSwitches.toNat
  | fullAnonymization => .flag health.transparentEnabled
  | lastError => .text noError (errorMessage health)

/-- The place of its line in the report. -/
def line : Field → ℕ
  | socksConnectionsActive => 1
  | socksConnectionsTotal => 2
  | activeBridge => 4
  | bridgeCandidates => 5
  | consecutiveFailures => 6
  | totalBridgeSwitches => 7
  | fullAnonymization => 8
  | lastError => 9

end Field

/-- Reported fields that differ have lines that differ. -/
def TellsApart (health health' : HealthStatus) (text text' : String) : Prop :=
  ∀ f : Field, f.value health ≠ f.value health' → (lines text)[f.line]? ≠ (lines text')[f.line]?

/-- Neither the bridge line nor the message of the error has a line break. -/
def OneLine (health : HealthStatus) : Prop :=
  (∀ s ∈ health.activeBridgeLine, '\n' ∉ s.toList) ∧ ∀ s ∈ errorMessage health, '\n' ∉ s.toList

/-- One is nothing, and the other is the text that stands for nothing. -/
def Mistakable (absent : String) (s s' : Option String) : Prop :=
  (s = none ∧ s' = some absent) ∨ (s = some absent ∧ s' = none)

/-! ## The lines -/

section Lines

variable {socksAddr : SocketAddr} {health : HealthStatus} {dnsAddr : Option SocketAddr}

theorem intercalate_entryLine (es : List (String × String)) :
    ['\n'].intercalate (es.map entryLine ++ [[]]) =
      es.flatMap fun e => entryLine e ++ "\n".toList := by
  induction es with
  | nil => rfl
  | cons e es ih =>
    rw [List.map_cons, List.cons_append, List.intercalate_cons_of_ne_nil (by simp), ih,
      List.flatMap_cons]
    rfl

theorem toList_formatStatus : (formatStatus socksAddr health dnsAddr).toList =
    ['\n'].intercalate ((entries socksAddr health dnsAddr).map entryLine ++ [[]]) := by
  rw [intercalate_entryLine]
  unfold formatStatus
  simp only [entries, entryLine, errorMessage, noBridge, noError, List.flatMap_cons,
    List.flatMap_nil, String.toList_append, List.append_assoc, List.append_nil]

theorem newline_notMem_getD {absent : String} (h : '\n' ∉ absent.toList) (s : Option String) :
    '\n' ∉ (s.getD absent).toList ↔ ∀ t ∈ s, '\n' ∉ t.toList := by
  cases s <;> simp [h]

theorem newline_notMem_entryLine {key : String} (h : '\n' ∉ key.toList) (value : String) :
    '\n' ∉ entryLine (key, value) ↔ '\n' ∉ value.toList := by
  simp [entryLine, h]

/-- Only the two texts can bring line breaks of their own. -/
theorem newline_notMem_entries :
    (∀ l ∈ (entries socksAddr health dnsAddr).map entryLine ++ [[]], '\n' ∉ l) ↔
      OneLine health := by
  have hsocks : '\n' ∉ (toString socksAddr).toList := socksAddr.newline_notMem_display
  have hdns : '\n' ∉ ((dnsAddr.map toString).getD "stopped").toList := by
    rw [newline_notMem_getD (by decide)]
    intro t ht
    obtain ⟨a, -, rfl⟩ := Option.map_eq_some_iff.mp ht
    exact a.newline_notMem_display
  have hactive : '\n' ∉ (toString health.socksConnectionsActive).toList :=
    newline_notMem_toString _
  have htotal : '\n' ∉ (toString health.socksConnectionsTotal).toList := newline_notMem_toString _
  have hfailures : '\n' ∉ (toString health.consecutiveFailures).toList := newline_notMem_toString _
  have hswitches : '\n' ∉ (toString health.totalSwitches).toList := newline_notMem_toString _
  have hcandidates := newline_notMem_toString health.candidates.length
  have hfull : '\n' ∉ (if health.transparentEnabled then "running" else "stopped").toList := by
    split <;> decide
  simp only [entries, List.map_cons, List.map_nil, List.cons_append, List.nil_append,
    List.forall_mem_cons]
  rw [newline_notMem_entryLine (by decide), newline_notMem_entryLine (by decide),
    newline_notMem_entryLine (by decide), newline_notMem_entryLine (by decide),
    newline_notMem_entryLine (by decide), newline_notMem_entryLine (by decide),
    newline_notMem_entryLine (by decide), newline_notMem_entryLine (by decide),
    newline_notMem_entryLine (by decide), newline_notMem_entryLine (by decide),
    newline_notMem_getD (by decide) health.activeBridgeLine,
    newline_notMem_getD (by decide) (errorMessage health)]
  constructor
  · rintro ⟨-, -, -, -, hbridge, -, -, -, -, herror, -⟩
    exact ⟨hbridge, herror⟩
  · rintro ⟨hbridge, herror⟩
    exact ⟨hsocks, hactive, htotal, hdns, hbridge, hcandidates, hfailures, hswitches, hfull, herror,
      by simp⟩

/-- **A script reads the ten values just if the two texts have no line breaks.** -/
theorem reads_iff : Reads socksAddr health dnsAddr ↔ OneLine health := by
  rw [Reads, lines, toList_formatStatus, Text.splitOn_intercalate_iff (by simp),
    newline_notMem_entries]

/-- The line of a field. -/
theorem Reads.line (h : Reads socksAddr health dnsAddr) (f : Field) :
    (lines (formatStatus socksAddr health dnsAddr))[f.line]? =
      some (entryLine (f.key, (f.value health).shown)) := by
  rw [h]
  cases f <;> rfl

end Lines

/-! ## Telling states apart -/

section Apart

variable {health health' : HealthStatus}

theorem toString_injective {n m : ℕ} (h : (toString n : String) = toString m) : n = m := by
  refine Text.digits_injective ?_
  have hlist := congrArg String.toList h
  simpa [Text.digits] using hlist

theorem getD_eq_iff {absent : String} {s s' : Option String} :
    s.getD absent = s'.getD absent ↔ s = s' ∨ Mistakable absent s s' := by
  cases s <;> cases s' <;> simp [Mistakable, eq_comm]

theorem Mistakable.ne {absent : String} {s s' : Option String} (h : Mistakable absent s s') :
    s ≠ s' := by
  rcases h with ⟨rfl, rfl⟩ | ⟨rfl, rfl⟩ <;> simp

/-- What is written is what is reported, but for the two texts that stand for nothing. -/
theorem shown_eq_cases {f : Field} (h : (f.value health).shown = (f.value health').shown) :
    f.value health = f.value health' ∨
      Mistakable noBridge health.activeBridgeLine health'.activeBridgeLine ∨
      Mistakable noError (errorMessage health) (errorMessage health') := by
  cases f with
  | activeBridge =>
    rcases getD_eq_iff.mp h with heq | hmistakable
    · exact .inl (congrArg (Value.text noBridge) heq)
    · exact .inr (.inl hmistakable)
  | lastError =>
    rcases getD_eq_iff.mp h with heq | hmistakable
    · exact .inl (congrArg (Value.text noError) heq)
    · exact .inr (.inr hmistakable)
  | fullAnonymization =>
    refine .inl (congrArg Value.flag ?_)
    cases hon : health.transparentEnabled <;> cases hon' : health'.transparentEnabled <;>
      simp [Field.value, Value.shown, hon, hon'] at h ⊢
  | _ => exact .inl (congrArg Value.count (toString_injective h))

theorem tellsApart_iff {socksAddr socksAddr' : SocketAddr} {dnsAddr dnsAddr' : Option SocketAddr}
    (h : Reads socksAddr health dnsAddr) (h' : Reads socksAddr' health' dnsAddr') :
    TellsApart health health' (formatStatus socksAddr health dnsAddr)
        (formatStatus socksAddr' health' dnsAddr') ↔
      ¬ Mistakable noBridge health.activeBridgeLine health'.activeBridgeLine ∧
        ¬ Mistakable noError (errorMessage health) (errorMessage health') := by
  constructor
  · intro hapart
    constructor
    · intro hmistakable
      refine hapart .activeBridge ?_ ?_
      · intro heq
        exact hmistakable.ne (Value.text.inj heq).2
      · rw [h.line, h'.line]
        exact congrArg (fun v => some (entryLine (_, v))) (getD_eq_iff.mpr (.inr hmistakable))
    · intro hmistakable
      refine hapart .lastError ?_ ?_
      · intro heq
        exact hmistakable.ne (Value.text.inj heq).2
      · rw [h.line, h'.line]
        exact congrArg (fun v => some (entryLine (_, v))) (getD_eq_iff.mpr (.inr hmistakable))
  · rintro ⟨hbridge, herror⟩ f hdiffer hline
    rw [h.line, h'.line, Option.some.injEq, entryLine, entryLine, String.toList_inj] at hline
    have hshown : (f.value health).shown = (f.value health').shown := by
      simpa using hline
    rcases shown_eq_cases hshown with heq | hmistakable | hmistakable
    · exact hdiffer heq
    · exact hbridge hmistakable
    · exact herror hmistakable

end Apart

/-- **When a script can read reports back.**  For all states and addresses: the reports of
two states are the ten documented lines with the values of each, and show every reported
difference in its own line, if and only if neither state has a line break in its bridge
line or in the message of its error, and in neither of these one state has nothing where
the other has the text that is reported for nothing. -/
theorem readsBack_iff (socksAddr socksAddr' : SocketAddr) (health health' : HealthStatus)
    (dnsAddr dnsAddr' : Option SocketAddr) :
    (Reads socksAddr health dnsAddr ∧ Reads socksAddr' health' dnsAddr' ∧
      TellsApart health health' (formatStatus socksAddr health dnsAddr)
        (formatStatus socksAddr' health' dnsAddr')) ↔
    OneLine health ∧ OneLine health' ∧
      ¬ Mistakable noBridge health.activeBridgeLine health'.activeBridgeLine ∧
      ¬ Mistakable noError (errorMessage health) (errorMessage health') := by
  constructor
  · rintro ⟨h, h', hapart⟩
    exact ⟨reads_iff.mp h, reads_iff.mp h', (tellsApart_iff h h').mp hapart⟩
  · rintro ⟨h, h', hnot⟩
    have hreads : Reads socksAddr health dnsAddr := reads_iff.mpr h
    have hreads' : Reads socksAddr' health' dnsAddr' := reads_iff.mpr h'
    exact ⟨hreads, hreads', (tellsApart_iff hreads hreads').mpr hnot⟩

/-- An error whose message is a whole line of the report, and a bridge that is called
like none. -/
theorem not_readsBack_texts :
    ¬ Reads shimAddr { lastError := some (0, "exited\nlast_error: none") } none ∧
    ¬ TellsApart {} { activeBridgeLine := some "none (direct connection)" }
      (formatStatus shimAddr {} none)
      (formatStatus shimAddr { activeBridgeLine := some "none (direct connection)" } none) := by
  constructor
  · rw [reads_iff]
    rintro ⟨-, herror⟩
    exact herror _ rfl (by decide)
  · intro hapart
    refine hapart .activeBridge ?_ rfl
    intro heq
    cases heq

end Anonet.Cli
