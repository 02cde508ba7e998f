import Anonet.Library.IpText
import Anonet.Tui.Keys

/-!
# What is typed

Two of the dashboard's entries take any text: a bridge line, and an address for the DNS
shim, which begins with one to be edited.

* `typed` — what the keys make of the text that was there.
* `Typing` — the invariant: the buffer is what the keys have made of it.
* `entered_iff_typed` — **Enter hands on what was typed**; an address can be entered as
  the dashboard writes it.
-/

namespace Anonet.Tui

open Net

/-! ## Editing -/

/-- What a key does to a text. -/
def typeKey (text : List Char) (code : KeyCode) : List Char :=
  match code with
  | .char c => text ++ [c]
  | .backspace => text.dropLast
  | .enter | .esc | .other => text

/-- What the keys make of a text. -/
def typed (text : List Char) (keys : List KeyCode) : List Char := keys.foldl typeKey text

theorem typed_concat (text : List Char) (keys : List KeyCode) (code : KeyCode) :
    typed text (keys ++ [code]) = typeKey (typed text keys) code := by
  simp [typed]

theorem typed_append (text : List Char) (keys keys' : List KeyCode) :
    typed text (keys ++ keys') = typed (typed text keys) keys' := List.foldl_append

/-- Enough backspaces. -/
theorem typed_backspaces {text : List Char} {n : ℕ} (h : text.length ≤ n) :
    typed text (List.replicate n .backspace) = [] := by
  induction n generalizing text with
  | zero => exact List.length_eq_zero_iff.mp (Nat.le_zero.mp h)
  | succ n ih => exact ih (by simpa [typeKey] using h)

theorem typed_chars (text cs : List Char) : typed text (cs.map .char) = text ++ cs := by
  induction cs generalizing text with
  | nil => simp [typed]
  | cons c cs ih =>
    have hcs := ih (text ++ [c])
    simpa [typed, typeKey] using hcs

/-- What the address entry begins with. -/
def offeredAddr : List Char := "127.0.0.1:9535".toList

/-- The buffer of a text entry, in terms of the keys since the mode was last `Normal`. -/
def Typing (g : Pressed) : Mode → Prop
  | .normal => g.keys = []
  | .addBridge buffer => ∃ b, g.keys = .char 'a' :: b ∧ Avoid entryCodes b ∧ buffer = typed [] b
  | .enterDnsAddr buffer => ∃ b, g.keys = .char 'n' :: b ∧ Avoid entryCodes b ∧
      buffer = typed offeredAddr b
  | _ => True

/-! ## One key -/

section Keys

variable {s : AppState} {g : Pressed} {code : KeyCode} {buffer : List Char}

theorem mode_handleKey_bridge_entry (h : s.mode = .addBridge buffer) :
    (handleKey code s).1.mode =
      if code ∈ entryCodes then .normal else .addBridge (typeKey buffer code) := by
  unfold handleKey
  rw [h]
  dsimp only
  split
  · split <;> simp [entryCodes, AppState.report]
  · simp [entryCodes, AppState.cancel, AppState.report]
  · simp [entryCodes, AppState.enter, typeKey]
  · simp [entryCodes, AppState.enter, typeKey]
  · cases code <;> simp_all [entryCodes, typeKey]

theorem mode_handleKey_addr_entry (h : s.mode = .enterDnsAddr buffer) :
    (handleKey code s).1.mode =
      if code ∈ entryCodes then .normal else .enterDnsAddr (typeKey buffer code) := by
  unfold handleKey
  rw [h]
  dsimp only
  split
  · split <;> simp [entryCodes, AppState.enter, AppState.report]
  · simp [entryCodes, AppState.cancel, AppState.report]
  · simp [entryCodes, AppState.enter, typeKey]
  · simp [entryCodes, AppState.enter, typeKey]
  · cases code <;> simp_all [entryCodes, typeKey]

/-- An entry begins with a key of its own. -/
theorem typing_first (h : s.mode = .normal) (hne : (handleKey code s).1.mode ≠ .normal) :
    Typing ⟨s.transparentRunning, [code]⟩ (handleKey code s).1.mode := by
  revert hne
  unfold handleKey
  rw [h]
  dsimp only
  split
  · exact fun hne => absurd h hne
  · exact fun hne => absurd h hne
  · exact fun hne => absurd rfl hne
  · exact fun _ => ⟨[], rfl, nofun, rfl⟩
  · split
    · exact fun hne => absurd rfl hne
    · exact fun _ => ⟨[], rfl, nofun, rfl⟩
  · exact fun _ => trivial
  · exact fun _ => trivial
  · split
    · exact fun hne => absurd rfl hne
    · exact fun _ => trivial
  · exact fun hne => absurd h hne

/-- In the other modes no entry begins. -/
theorem typing_other (h : match s.mode with
    | .normal | .addBridge _ | .enterDnsAddr _ => False
    | _ => True) (hne : (handleKey code s).1.mode ≠ .normal) (g : Pressed) :
    Typing g (handleKey code s).1.mode := by
  cases hmode : s.mode with
  | normal => simp [hmode] at h
  | addBridge buffer => simp [hmode] at h
  | enterDnsAddr buffer => simp [hmode] at h
  | confirmDisable =>
    rw [(mode_handleKey_confirmDisable hmode).resolve_left hne]
    trivial
  | killSwitchMenu =>
    rw [mode_handleKey_menu hmode] at hne ⊢
    split
    · trivial
    · split
      · trivial
      · split
        · rename_i hesc
          simp [hesc] at hne
        · trivial
  | enterScopedUid buffer =>
    rw [mode_handleKey_scopedUid hmode] at hne ⊢
    rw [if_neg (notMem_of_ite_ne hne)]
    trivial
  | confirmRadicalEnable =>
    rw [mode_handleKey_confirmRadical hmode] at hne ⊢
    rw [if_neg (notMem_of_ite_ne hne)]
    trivial
  | confirmTransparentEnable =>
    rw [mode_handleKey_confirmTransparent hmode] at hne ⊢
    rw [if_neg (notMem_of_ite_ne hne)]
    trivial

/-- One more key of an entry. -/
theorem typing_entry {first : KeyCode} {text : List Char}
    (h : ∃ b, g.keys = first :: b ∧ Avoid entryCodes b ∧ buffer = typed text b)
    (hcode : code ∉ entryCodes) : ∃ b, (g.press code s).keys = first :: b ∧
      Avoid entryCodes b ∧ typeKey buffer code = typed text b := by
  obtain ⟨b, hkeys, hb, rfl⟩ := h
  exact ⟨b ++ [code], by simp [Pressed.press, hkeys], hb.concat hcode,
    (typed_concat text b code).symm⟩

/-- **One more key**, which does not lead back to `Normal`. -/
theorem Typing.press (h : Typing g s.mode) (hne : (handleKey code s).1.mode ≠ .normal) :
    Typing (g.press code s) (handleKey code s).1.mode := by
  cases hmode : s.mode with
  | normal =>
    rw [hmode] at h
    have hpress : g.press code s = ⟨s.transparentRunning, [code]⟩ := by
      simp only [Pressed.press, show g.keys = [] from h, if_true, List.nil_append]
    rw [hpress]
    exact typing_first hmode hne
  | addBridge buffer =>
    rw [hmode] at h
    rw [mode_handleKey_bridge_entry hmode] at hne ⊢
    rw [if_neg (notMem_of_ite_ne hne)]
    exact typing_entry h (notMem_of_ite_ne hne)
  | enterDnsAddr buffer =>
    rw [hmode] at h
    rw [mode_handleKey_addr_entry hmode] at hne ⊢
    rw [if_neg (notMem_of_ite_ne hne)]
    exact typing_entry h (notMem_of_ite_ne hne)
  | _ => exact typing_other (by rw [hmode]; trivial) hne _

theorem Typing.step (h : Typing g s.mode) :
    Typing (notePress s.mode (code, s) (handleKey code s).1.mode g) (handleKey code s).1.mode := by
  by_cases hmode : (handleKey code s).1.mode = .normal
  · rw [notePress, if_pos hmode, hmode]
    rfl
  · rw [notePress, if_neg hmode]
    exact h.press hmode

/-- The buffer holds what was typed, in every run. -/
theorem typing_of_reach {mode : Mode} (h : (keying.watch notePress).Reach Machine.anyStep
    (.normal, .nothing) (mode, g)) : Typing g mode := by
  have h₀ : Typing .nothing .normal := rfl
  refine h.invariant (I := fun p => Typing p.2 p.1) h₀ ?_
  rintro ⟨mode, g⟩ ⟨code, s⟩ ⟨mode', g'⟩ hi _ hs
  obtain ⟨hstep, hnote⟩ := Machine.watch_step.mp hs
  simp only [keying, Option.ite_none_right_eq_some, Option.some.injEq] at hstep
  obtain ⟨rfl, rfl⟩ := hstep
  rw [show g' = _ from hnote]
  exact Typing.step hi

/-! ## What Enter hands on -/

theorem handleKey_startDns {addr : SocketAddr} :
    (handleKey code s).2 = .startDns addr ↔
      ∃ buffer, s.mode = .enterDnsAddr buffer ∧ code = .enter ∧
        SocketAddr.parse (Text.trim buffer) = some addr := by
  constructor
  · intro h
    unfold handleKey at h
    repeat' split at h
    all_goals first | exact ⟨_, ‹_›, rfl, by simp_all⟩ | cases h
  · rintro ⟨buffer, hmode, rfl, hparse⟩
    unfold handleKey
    rw [hmode]
    dsimp only
    rw [hparse]

theorem handleKey_tryAddBridge {line : String} :
    (handleKey code s).2 = .tryAddBridge line ↔
      ∃ buffer, s.mode = .addBridge buffer ∧ code = .enter ∧ Text.trim buffer ≠ [] ∧
        line = String.ofList buffer := by
  constructor
  · intro h
    unfold handleKey at h
    repeat' split at h
    all_goals first | exact ⟨_, ‹_›, rfl, ‹_›, by simp_all⟩ | cases h
  · rintro ⟨buffer, hmode, rfl, hne, rfl⟩
    unfold handleKey
    rw [hmode]
    dsimp only
    rw [if_neg hne]

theorem Spells.mode_of_bridge {mode : Mode} (h : Spells g mode) {b : List KeyCode}
    (hkeys : g.keys = .char 'a' :: b) : ∃ buffer, mode = .addBridge buffer := by
  cases mode with
  | addBridge buffer => exact ⟨buffer, rfl⟩
  | _ => simp [Spells, hkeys] at h

theorem Spells.mode_of_addr {mode : Mode} (h : Spells g mode) {b : List KeyCode}
    (hkeys : g.keys = .char 'n' :: b) : ∃ buffer, mode = .enterDnsAddr buffer := by
  cases mode with
  | enterDnsAddr buffer => exact ⟨buffer, rfl⟩
  | _ => simp [Spells, hkeys] at h

/-- The keys of a whole entry. -/
def EntryKeys (first : KeyCode) (keys b : List KeyCode) : Prop :=
  keys = first :: (b ++ [.enter]) ∧ Avoid entryCodes b

theorem entryKeys_press {first : KeyCode} {b : List KeyCode} :
    EntryKeys first (g.press code s).keys b ↔
      g.keys = first :: b ∧ Avoid entryCodes b ∧ code = .enter := by
  rw [EntryKeys, ← List.cons_append, press_keys_eq]
  tauto

/-- Enter in the address entry. -/
theorem startDns_iff (h : Typing g s.mode) (hspells : Spells g s.mode) {addr : SocketAddr} :
    (handleKey code s).2 = .startDns addr ↔
      ∃ b, EntryKeys (.char 'n') (g.press code s).keys b ∧
        SocketAddr.parse (Text.trim (typed offeredAddr b)) = some addr := by
  rw [handleKey_startDns]
  constructor
  · rintro ⟨buffer, hmode, hcode, hparse⟩
    rw [hmode] at h
    obtain ⟨b, hkeys, hb, rfl⟩ := h
    exact ⟨b, entryKeys_press.mpr ⟨hkeys, hb, hcode⟩, hparse⟩
  · rintro ⟨b, hentry, hparse⟩
    obtain ⟨hkeys, -, hcode⟩ := entryKeys_press.mp hentry
    obtain ⟨buffer, hmode⟩ := hspells.mode_of_addr hkeys
    rw [hmode] at h
    obtain ⟨b', hkeys', -, rfl⟩ := h
    obtain rfl := (List.cons.inj (hkeys.symm.trans hkeys')).2
    exact ⟨_, hmode, hcode, hparse⟩

/-- Enter in the bridge entry. -/
theorem tryAddBridge_iff (h : Typing g s.mode) (hspells : Spells g s.mode) {line : String} :
    (handleKey code s).2 = .tryAddBridge line ↔
      ∃ b, EntryKeys (.char 'a') (g.press code s).keys b ∧ Text.trim (typed [] b) ≠ [] ∧
        line = String.ofList (typed [] b) := by
  rw [handleKey_tryAddBridge]
  constructor
  · rintro ⟨buffer, hmode, hcode, hline⟩
    rw [hmode] at h
    obtain ⟨b, hkeys, hb, rfl⟩ := h
    exact ⟨b, entryKeys_press.mpr ⟨hkeys, hb, hcode⟩, hline⟩
  · rintro ⟨b, hentry, hline⟩
    obtain ⟨hkeys, -, hcode⟩ := entryKeys_press.mp hentry
    obtain ⟨buffer, hmode⟩ := hspells.mode_of_bridge hkeys
    rw [hmode] at h
    obtain ⟨b', hkeys', -, rfl⟩ := h
    obtain rfl := (List.cons.inj (hkeys.symm.trans hkeys')).2
    exact ⟨_, hmode, hcode, hline⟩

end Keys

/-! ## Any address can be typed -/

/-- The offered address is deleted and another one typed. -/
def replacing (text : List Char) : List KeyCode :=
  List.replicate offeredAddr.length .backspace ++ text.map .char

theorem avoid_replacing (text : List Char) : Avoid entryCodes (replacing text) := by
  intro code hcode
  rcases List.mem_append.mp hcode with hcode | hcode
  · rw [List.eq_of_mem_replicate hcode]
    decide
  · obtain ⟨c, -, rfl⟩ := List.mem_map.mp hcode
    simp [entryCodes]

theorem typed_replacing (text : List Char) : typed offeredAddr (replacing text) = text := by
  rw [replacing, typed_append, typed_backspaces le_rfl, typed_chars, List.nil_append]

/-- **Enter hands on what was typed.**  For every run of keys from `Normal`, whatever else of
the view changes between them, and every next key, with the keys since the mode was last
`Normal`: the DNS shim is started on an address if and only if they are `n`, keys other than
Enter and Esc that make of the offered text one that reads as that address, and Enter; a
bridge line is tried if and only if they are `a`, such keys that spell it, and Enter, and it
is not blank.  And every address can be typed as the dashboard writes it. -/
theorem entered_iff_typed (mode : Mode) (g : Pressed)
    (h : (keying.watch notePress).Reach Machine.anyStep (.normal, .nothing) (mode, g))
    (s : AppState) (hs : s.mode = mode) (code : KeyCode) :
    (∀ addr, (handleKey code s).2 = .startDns addr ↔
      ∃ b, EntryKeys (.char 'n') (g.press code s).keys b ∧
        SocketAddr.parse (Text.trim (typed offeredAddr b)) = some addr) ∧
    (∀ line, (handleKey code s).2 = .tryAddBridge line ↔
      ∃ b, EntryKeys (.char 'a') (g.press code s).keys b ∧ Text.trim (typed [] b) ≠ [] ∧
        line = String.ofList (typed [] b)) ∧
    ∀ addr : SocketAddr,
      (g.press code s).keys = .char 'n' :: (replacing addr.display.toList ++ [.enter]) →
      (handleKey code s).2 = .startDns addr := by
  have htyping : Typing g s.mode := hs ▸ typing_of_reach h
  have hspells : Spells g s.mode := hs ▸ spells_of_reach h
  refine ⟨fun addr => startDns_iff htyping hspells,
    fun line => tryAddBridge_iff htyping hspells, fun addr hkeys => ?_⟩
  refine (startDns_iff htyping hspells).mpr ⟨_, ⟨hkeys, avoid_replacing _⟩, ?_⟩
  rw [typed_replacing, SocketAddr.trim_display]
  exact SocketAddr.parse_display addr

/-- `n`, another last digit and Enter. -/
theorem startDns_typed :
    (handleKey .enter (idleView (.enterDnsAddr "127.0.0.1:9536".toList))).2 =
      .startDns (.v4 .localhost 9536) := by
  have hrun : ((keying.watch notePress).guardedExec Machine.anyStep (.normal, .nothing)
      [(.char 'n', idleView .normal), (.backspace, idleView (.enterDnsAddr offeredAddr)),
        (.char '6', idleView (.enterDnsAddr "127.0.0.1:953".toList))]) =
      some (.enterDnsAddr "127.0.0.1:9536".toList,
        ⟨false, [.char 'n', .backspace, .char '6']⟩) := by decide
  refine ((entered_iff_typed _ _ (Machine.reach_of_exec hrun) (idleView _) rfl .enter).1
    _).mpr ⟨[.backspace, .char '6'], ⟨rfl, ?_⟩, ?_⟩ <;> decide

end Anonet.Tui
