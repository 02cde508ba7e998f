import Anonet.Tui.Dashboard

/-!
# What the keys have to say

`handle_key` acts on the mode that earlier keys have left, and on nothing else they have
left: the rest of the view can change between any two of them.

* `keying` — the machine: keys pressed in views of the mode reached so far.
* `Pressed` — the keys since the mode was last `Normal`.
* `Spells` — the invariant: what these keys are in each of the modes.
* `effect_iff_pressed` — **each of the disruptive actions is set going by its own
  sequence of keys, and by no other.**
* `keying_of_dashboard` — the keys of a session are such a run.
-/

namespace Anonet.Tui

/-! ## Keys and modes -/

/-- Keys pressed one after the other, each in some view of the mode reached. -/
def keying : Machine Mode (KeyCode × AppState) where
  step mode press :=
    if press.2.mode = mode then some (handleKey press.1 press.2).1.mode else none

/-- The keys since the mode was last `Normal`. -/
structure Pressed where
  /-- `transparent_running` when the first of them was pressed. -/
  running : Bool
  keys : List KeyCode
  deriving DecidableEq

namespace Pressed

def nothing : Pressed := ⟨false, []⟩

/-- One more key, in view `s`. -/
def press (g : Pressed) (code : KeyCode) (s : AppState) : Pressed where
  running := if g.keys = [] then s.transparentRunning else g.running
  keys := g.keys ++ [code]

end Pressed

def notePress (_ : Mode) (press : KeyCode × AppState) (mode : Mode) (g : Pressed) : Pressed :=
  if mode = .normal then .nothing else g.press press.1 press.2

/-- None of the keys is one of `codes`. -/
def Avoid (codes keys : List KeyCode) : Prop := ∀ code ∈ keys, code ∉ codes

instance (codes keys : List KeyCode) : Decidable (Avoid codes keys) :=
  inferInstanceAs (Decidable (∀ code ∈ keys, code ∉ codes))

/-- What leaves the kill switch menu. -/
def menuCodes : List KeyCode := [.char 's', .char 'r', .esc]

/-- What leaves a confirmation. -/
def confirmCodes : List KeyCode := [.char 'y', .esc]

/-- What leaves a text entry. -/
def entryCodes : List KeyCode := [.enter, .esc]

/-- What a key does to the digits typed so far. -/
def typeDigit (digits : List Char) (code : KeyCode) : List Char :=
  match code with
  | .char c => if Text.isAsciiDigit c then digits ++ [c] else digits
  | .backspace => digits.dropLast
  | .enter | .esc | .other => digits

/-- The digits that remain of the keys. -/
def typedDigits (keys : List KeyCode) : List Char := keys.foldl typeDigit []

/-- What the keys since the mode was last `Normal` are. -/
def Spells (g : Pressed) : Mode → Prop
  | .normal => g.keys = []
  | .confirmDisable => g.keys.head? = some (.char 'd')
  | .addBridge _ => g.keys.head? = some (.char 'a')
  | .enterDnsAddr _ => g.keys.head? = some (.char 'n')
  | .killSwitchMenu => ∃ a, g.keys = .char 'k' :: a ∧ Avoid menuCodes a
  | .enterScopedUid buffer => ∃ a b, g.keys = .char 'k' :: (a ++ .char 's' :: b) ∧
      Avoid menuCodes a ∧ Avoid entryCodes b ∧ buffer = typedDigits b
  | .confirmRadicalEnable => ∃ a b, g.keys = .char 'k' :: (a ++ .char 'r' :: b) ∧
      Avoid menuCodes a ∧ Avoid confirmCodes b
  | .confirmTransparentEnable => g.running = false ∧ ∃ b, g.keys = .char 't' :: b ∧
      Avoid confirmCodes b

/-! ## What one key does to the mode -/

section Modes

variable {s : AppState} {code : KeyCode}

theorem mode_handleKey_menu (h : s.mode = .killSwitchMenu) :
    (handleKey code s).1.mode =
      if code = .char 's' then .enterScopedUid []
      else if code = .char 'r' then .confirmRadicalEnable
      else if code = .esc then .normal
      else .killSwitchMenu := by
  unfold handleKey
  rw [h]
  dsimp only
  split <;> simp_all [AppState.enter, AppState.cancel, AppState.report]

theorem mode_handleKey_confirmRadical (h : s.mode = .confirmRadicalEnable) :
    (handleKey code s).1.mode =
      if code ∈ confirmCodes then .normal else .confirmRadicalEnable := by
  unfold handleKey
  rw [h]
  dsimp only
  split <;> simp_all [confirmCodes, AppState.cancel, AppState.report]

theorem mode_handleKey_confirmTransparent (h : s.mode = .confirmTransparentEnable) :
    (handleKey code s).1.mode =
      if code ∈ confirmCodes then .normal else .confirmTransparentEnable := by
  unfold handleKey
  rw [h]
  dsimp only
  split <;> simp_all [confirmCodes, AppState.cancel, AppState.report]

theorem mode_handleKey_scopedUid {buffer : List Char} (h : s.mode = .enterScopedUid buffer) :
    (handleKey code s).1.mode =
      if code ∈ entryCodes then .normal else .enterScopedUid (typeDigit buffer code) := by
  unfold handleKey
  rw [h]
  dsimp only
  split
  · split <;> simp [entryCodes, AppState.enter, AppState.report]
  · simp [entryCodes, AppState.cancel, AppState.report]
  · simp [entryCodes, AppState.enter, typeDigit]
  · split <;> simp_all [entryCodes, AppState.enter, typeDigit]
  · cases code <;> simp_all [entryCodes, typeDigit]

theorem mode_handleKey_confirmDisable (h : s.mode = .confirmDisable) :
    (handleKey code s).1.mode = .normal ∨ (handleKey code s).1.mode = .confirmDisable := by
  unfold handleKey
  rw [h]
  dsimp only
  split <;> simp [h, AppState.enter, AppState.cancel, AppState.report]

theorem mode_handleKey_addBridge {buffer : List Char} (h : s.mode = .addBridge buffer) :
    (handleKey code s).1.mode = .normal ∨
      ∃ buffer, (handleKey code s).1.mode = .addBridge buffer := by
  unfold handleKey
  rw [h]
  dsimp only
  split
  · split <;> simp [AppState.report]
  all_goals simp [h, AppState.enter, AppState.cancel, AppState.report]

theorem mode_handleKey_dnsAddr {buffer : List Char} (h : s.mode = .enterDnsAddr buffer) :
    (handleKey code s).1.mode = .normal ∨
      ∃ buffer, (handleKey code s).1.mode = .enterDnsAddr buffer := by
  unfold handleKey
  rw [h]
  dsimp only
  split
  · split <;> simp [AppState.enter, AppState.report]
  all_goals simp [h, AppState.enter, AppState.cancel, AppState.report]

/-- The first key. -/
theorem mode_handleKey_normal (h : s.mode = .normal) :
    (handleKey code s).1.mode = .normal ∨ Spells ⟨s.transparentRunning, [code]⟩
      (handleKey code s).1.mode := by
  unfold handleKey
  rw [h]
  dsimp only
  split
  · exact .inl h
  · exact .inl h
  · exact .inl rfl
  · exact .inr rfl
  · split
    · exact .inl rfl
    · exact .inr rfl
  · exact .inr ⟨[], rfl, nofun⟩
  · exact .inr rfl
  · split
    · exact .inl rfl
    · rename_i hnot
      exact .inr ⟨Bool.not_eq_true _ ▸ hnot, [], rfl, nofun⟩
  · exact .inl h

end Modes

/-! ## What the keys are -/

section Spells

variable {s : AppState} {g : Pressed} {code : KeyCode} {mode : Mode}

theorem Avoid.concat {codes keys : List KeyCode} (h : Avoid codes keys) (hcode : code ∉ codes) :
    Avoid codes (keys ++ [code]) := by
  intro c hc
  rcases List.mem_append.mp hc with hc | hc
  · exact h c hc
  · rw [List.mem_singleton.mp hc]
    exact hcode

theorem typedDigits_concat (keys : List KeyCode) :
    typedDigits (keys ++ [code]) = typeDigit (typedDigits keys) code := by
  simp [typedDigits]

/-- A key that does not lead back to `Normal` is none of those that would. -/
theorem notMem_of_ite_ne {codes : List KeyCode} {mode : Mode}
    (h : (if code ∈ codes then .normal else mode) ≠ Mode.normal) : code ∉ codes :=
  fun hmem => h (if_pos hmem)

/-- `running` is that of the first key. -/
theorem press_running (h : g.keys ≠ []) : (g.press code s).running = g.running := if_neg h

theorem head_press {c : KeyCode} (h : g.keys.head? = some c) :
    (g.press code s).keys.head? = some c := by
  simp [Pressed.press, List.head?_append, h]

/-- **One more key**, which does not lead back to `Normal`. -/
theorem Spells.press (h : Spells g s.mode) (hne : (handleKey code s).1.mode ≠ .normal) :
    Spells (g.press code s) (handleKey code s).1.mode := by
  cases hmode : s.mode with
  | normal =>
    rw [hmode] at h
    have hpress : g.press code s = ⟨s.transparentRunning, [code]⟩ := by
      simp only [Pressed.press, show g.keys = [] from h, if_true, List.nil_append]
    rw [hpress]
    exact (mode_handleKey_normal hmode).resolve_left hne
  | confirmDisable =>
    rw [hmode] at h
    rw [(mode_handleKey_confirmDisable hmode).resolve_left hne]
    exact head_press h
  | addBridge buffer =>
    rw [hmode] at h
    obtain ⟨buffer', hbuffer⟩ := (mode_handleKey_addBridge hmode).resolve_left hne
    rw [hbuffer]
    exact head_press h
  | enterDnsAddr buffer =>
    rw [hmode] at h
    obtain ⟨buffer', hbuffer⟩ := (mode_handleKey_dnsAddr hmode).resolve_left hne
    rw [hbuffer]
    exact head_press h
  | killSwitchMenu =>
    rw [hmode] at h
    obtain ⟨a, hkeys, ha⟩ := h
    have hpress : (g.press code s).keys = .char 'k' :: (a ++ [code]) := by
      simp [Pressed.press, hkeys]
    rw [mode_handleKey_menu hmode] at hne ⊢
    split
    · rename_i hs
      exact ⟨a, [], hs ▸ hpress, ha, nofun, rfl⟩
    · split
      · rename_i hr
        exact ⟨a, [], hr ▸ hpress, ha, nofun⟩
      · split
        · rename_i hs hr hesc
          simp [hesc] at hne
        · rename_i hs hr hesc
          exact ⟨a ++ [code], hpress, ha.concat (by simp [menuCodes, hs, hr, hesc])⟩
  | enterScopedUid buffer =>
    rw [hmode] at h
    obtain ⟨a, b, hkeys, ha, hb, hbuffer⟩ := h
    rw [mode_handleKey_scopedUid hmode] at hne ⊢
    have hcode : code ∉ entryCodes := notMem_of_ite_ne hne
    rw [if_neg hcode]
    refine ⟨a, b ++ [code], ?_, ha, hb.concat hcode, ?_⟩
    · simp [Pressed.press, hkeys]
    · rw [typedDigits_concat, hbuffer]
  | confirmRadicalEnable =>
    rw [hmode] at h
    obtain ⟨a, b, hkeys, ha, hb⟩ := h
    rw [mode_handleKey_confirmRadical hmode] at hne ⊢
    have hcode : code ∉ confirmCodes := notMem_of_ite_ne hne
    rw [if_neg hcode]
    refine ⟨a, b ++ [code], ?_, ha, hb.concat hcode⟩
    simp [Pressed.press, hkeys]
  | confirmTransparentEnable =>
    rw [hmode] at h
    obtain ⟨hrunning, b, hkeys, hb⟩ := h
    rw [mode_handleKey_confirmTransparent hmode] at hne ⊢
    have hcode : code ∉ confirmCodes := notMem_of_ite_ne hne
    rw [if_neg hcode]
    refine ⟨?_, b ++ [code], ?_, hb.concat hcode⟩
    · rw [press_running (by simp [hkeys])]
      exact hrunning
    · simp [Pressed.press, hkeys]

/-- **The step lemma.** -/
theorem Spells.step (h : Spells g s.mode) :
    Spells (notePress s.mode (code, s) (handleKey code s).1.mode g) (handleKey code s).1.mode := by
  by_cases hmode : (handleKey code s).1.mode = .normal
  · rw [notePress, if_pos hmode, hmode]
    rfl
  · rw [notePress, if_neg hmode]
    exact h.press hmode

/-- The keys are those of the mode, in every run. -/
theorem spells_of_reach (h : (keying.watch notePress).Reach Machine.anyStep (.normal, .nothing)
    (mode, g)) : Spells g mode := by
  have h₀ : Spells .nothing .normal := rfl
  refine h.invariant (I := fun p => Spells p.2 p.1) h₀ ?_
  rintro ⟨mode, g⟩ ⟨code, s⟩ ⟨mode', g'⟩ hi _ hs
  obtain ⟨hstep, hnote⟩ := Machine.watch_step.mp hs
  simp only [keying, Option.ite_none_right_eq_some, Option.some.injEq] at hstep
  obtain ⟨rfl, rfl⟩ := hstep
  rw [show g' = _ from hnote]
  exact Spells.step hi

/-! ## The keys tell the mode -/

/-- The first of some keys is at one place only. -/
theorem Avoid.eq_of_append_cons {codes a a' b b' : List KeyCode} {c c' : KeyCode}
    (ha : Avoid codes a) (ha' : Avoid codes a') (hc : c ∈ codes) (hc' : c' ∈ codes)
    (h : a ++ c :: b = a' ++ c' :: b') : a = a' ∧ c = c' ∧ b = b' := by
  induction a generalizing a' with
  | nil =>
    cases a' with
    | nil => simpa using h
    | cons x a' =>
      obtain ⟨rfl, -⟩ := List.cons.inj h
      exact absurd hc (ha' c (by simp))
  | cons x a ih =>
    cases a' with
    | nil =>
      obtain ⟨rfl, -⟩ := List.cons.inj h
      exact absurd hc' (ha x (by simp))
    | cons x' a' =>
      obtain ⟨rfl, htail⟩ := List.cons.inj h
      obtain ⟨rfl, hrest⟩ := ih (fun y hy => ha y (by simp [hy])) (fun y hy => ha' y (by simp [hy]))
        htail
      exact ⟨rfl, hrest⟩

/-- What the first key that left the kill switch menu tells. -/
theorem Spells.mode_of_menu (h : Spells g mode) {a b : List KeyCode} {c : KeyCode}
    (hkeys : g.keys = .char 'k' :: (a ++ c :: b)) (ha : Avoid menuCodes a) (hc : c ∈ menuCodes) :
    (c = .char 's' ∧ mode = .enterScopedUid (typedDigits b)) ∨
      (c = .char 'r' ∧ mode = .confirmRadicalEnable) := by
  cases mode with
  | killSwitchMenu =>
    obtain ⟨a', hkeys', ha'⟩ := h
    obtain rfl := (List.cons.inj (hkeys.symm.trans hkeys')).2
    exact absurd hc (ha' c (by simp))
  | enterScopedUid buffer =>
    obtain ⟨a', b', hkeys', ha', -, hbuffer⟩ := h
    have htail := (List.cons.inj (hkeys.symm.trans hkeys')).2
    obtain ⟨-, rfl, rfl⟩ := ha.eq_of_append_cons ha' hc (by simp [menuCodes]) htail
    exact .inl ⟨rfl, by rw [hbuffer]⟩
  | confirmRadicalEnable =>
    obtain ⟨a', b', hkeys', ha', -⟩ := h
    have htail := (List.cons.inj (hkeys.symm.trans hkeys')).2
    obtain ⟨-, rfl, -⟩ := ha.eq_of_append_cons ha' hc (by simp [menuCodes]) htail
    exact .inr ⟨rfl, rfl⟩
  | _ => simp [Spells, hkeys] at h

theorem Spells.mode_of_transparent (h : Spells g mode) {b : List KeyCode}
    (hkeys : g.keys = .char 't' :: b) : mode = .confirmTransparentEnable := by
  cases mode with
  | confirmTransparentEnable => rfl
  | _ => simp [Spells, hkeys] at h

end Spells

/-! ## What sets an action going -/

def Mode.isTextEntry : Mode → Bool
  | .addBridge _ | .enterScopedUid _ | .enterDnsAddr _ => true
  | _ => false

section Effects

variable {s : AppState} {code : KeyCode}

theorem handleKey_enableRadical :
    (handleKey code s).2 = .enableRadical ↔
      s.mode = .confirmRadicalEnable ∧ code = .char 'y' := by
  constructor
  · intro h
    unfold handleKey at h
    repeat' split at h
    all_goals first | exact ⟨‹_›, rfl⟩ | cases h
  · rintro ⟨hmode, rfl⟩
    unfold handleKey
    rw [hmode]
    rfl

theorem handleKey_enableFullAnon :
    (handleKey code s).2 = .enableFullAnon ↔
      s.mode = .confirmTransparentEnable ∧ code = .char 'y' := by
  constructor
  · intro h
    unfold handleKey at h
    repeat' split at h
    all_goals first | exact ⟨‹_›, rfl⟩ | cases h
  · rintro ⟨hmode, rfl⟩
    unfold handleKey
    rw [hmode]
    rfl

/-- `Enter` after the digits of a user ID. -/
theorem handleKey_enter {buffer : List Char} (h : s.mode = .enterScopedUid buffer) :
    (handleKey .enter s).2 =
      match Text.parseU32 (Text.trim buffer) with
      | some uid => .enableScoped uid
      | none => .nothing := by
  unfold handleKey
  rw [h]
  dsimp only
  cases Text.parseU32 (Text.trim buffer) <;> rfl

theorem mode_of_enableScoped {uid : UInt32} (h : (handleKey code s).2 = .enableScoped uid) :
    ∃ buffer, s.mode = .enterScopedUid buffer ∧ code = .enter := by
  unfold handleKey at h
  repeat' split at h
  all_goals first | exact ⟨_, ‹_›, rfl⟩ | cases h

/-- A character in a text entry is text. -/
theorem handleKey_char {c : Char} (h : s.mode.isTextEntry = true) :
    (handleKey (.char c) s).2 = .nothing := by
  cases hmode : s.mode with
  | addBridge | enterDnsAddr =>
    unfold handleKey
    rw [hmode]
  | enterScopedUid =>
    unfold handleKey
    rw [hmode]
    dsimp only
    split <;> rfl
  | _ => simp [hmode, Mode.isTextEntry] at h

end Effects

/-! ## The sequences -/

/-- `k`, then `r`, then `y`, and no key in between that leads elsewhere. -/
def RadicalKeys (keys : List KeyCode) : Prop :=
  ∃ a b, keys = .char 'k' :: (a ++ .char 'r' :: (b ++ [.char 'y'])) ∧
    Avoid menuCodes a ∧ Avoid confirmCodes b

/-- `t`, then `y`. -/
def FullAnonKeys (keys : List KeyCode) : Prop :=
  ∃ b, keys = .char 't' :: (b ++ [.char 'y']) ∧ Avoid confirmCodes b

/-- `k`, then `s`, then `b` and Enter. -/
def ScopedKeys (keys b : List KeyCode) : Prop :=
  ∃ a, keys = .char 'k' :: (a ++ .char 's' :: (b ++ [.enter])) ∧
    Avoid menuCodes a ∧ Avoid entryCodes b

section Sequences

variable {s : AppState} {g : Pressed} {code : KeyCode}

theorem isAsciiDigit_typedDigits (keys : List KeyCode) :
    ∀ c ∈ typedDigits keys, Text.isAsciiDigit c := by
  induction keys using List.reverseRecOn with
  | nil => nofun
  | append_singleton keys code ih =>
    intro c hc
    rw [typedDigits_concat] at hc
    unfold typeDigit at hc
    split at hc
    · split at hc
      · rename_i d hd
        rcases List.mem_append.mp hc with hc | hc
        · exact ih c hc
        · rw [List.mem_singleton.mp hc]
          exact hd
      · exact ih c hc
    · exact ih c (List.mem_of_mem_dropLast hc)
    all_goals exact ih c hc

theorem press_keys_eq {keys : List KeyCode} {c : KeyCode} :
    (g.press code s).keys = keys ++ [c] ↔ g.keys = keys ∧ code = c := by
  simp [Pressed.press]

theorem radicalKeys_press (h : Spells g s.mode) :
    RadicalKeys (g.press code s).keys ↔ s.mode = .confirmRadicalEnable ∧ code = .char 'y' := by
  constructor
  · rintro ⟨a, b, hkeys, ha, -⟩
    have hsplit : (g.press code s).keys =
        (.char 'k' :: (a ++ .char 'r' :: b)) ++ [.char 'y'] := by simpa using hkeys
    obtain ⟨hkeys, hcode⟩ := press_keys_eq.mp hsplit
    rcases h.mode_of_menu hkeys ha (by simp [menuCodes]) with ⟨hs, -⟩ | ⟨-, hmode⟩
    · cases hs
    · exact ⟨hmode, hcode⟩
  · rintro ⟨hmode, rfl⟩
    rw [hmode] at h
    obtain ⟨a, b, hkeys, ha, hb⟩ := h
    exact ⟨a, b, by simp [Pressed.press, hkeys], ha, hb⟩

theorem fullAnonKeys_press (h : Spells g s.mode) :
    (g.press code s).running = false ∧ FullAnonKeys (g.press code s).keys ↔
      s.mode = .confirmTransparentEnable ∧ code = .char 'y' := by
  constructor
  · rintro ⟨-, b, hkeys, -⟩
    obtain ⟨hkeys, hcode⟩ := press_keys_eq.mp
      (show (g.press code s).keys = (.char 't' :: b) ++ [.char 'y'] from hkeys)
    exact ⟨h.mode_of_transparent hkeys, hcode⟩
  · rintro ⟨hmode, rfl⟩
    rw [hmode] at h
    obtain ⟨hrunning, b, hkeys, hb⟩ := h
    refine ⟨?_, b, by simp [Pressed.press, hkeys], hb⟩
    rw [press_running (by simp [hkeys])]
    exact hrunning

theorem scopedKeys_press (h : Spells g s.mode) {b : List KeyCode}
    (hkeys : ScopedKeys (g.press code s).keys b) :
    s.mode = .enterScopedUid (typedDigits b) ∧ code = .enter := by
  obtain ⟨a, hkeys, ha, -⟩ := hkeys
  have hsplit : (g.press code s).keys =
      (.char 'k' :: (a ++ .char 's' :: b)) ++ [.enter] := by simpa using hkeys
  obtain ⟨hkeys, hcode⟩ := press_keys_eq.mp hsplit
  rcases h.mode_of_menu hkeys ha (by simp [menuCodes]) with ⟨-, hmode⟩ | ⟨hr, -⟩
  · exact ⟨hmode, hcode⟩
  · cases hr

theorem exists_scopedKeys (h : Spells g s.mode) {buffer : List Char}
    (hmode : s.mode = .enterScopedUid buffer) :
    ∃ b, ScopedKeys (g.press .enter s).keys b ∧ buffer = typedDigits b := by
  rw [hmode] at h
  obtain ⟨a, b, hkeys, ha, hb, hbuffer⟩ := h
  exact ⟨b, ⟨a, by simp [Pressed.press, hkeys], ha, hb⟩, hbuffer⟩

theorem enableScoped_iff (h : Spells g s.mode) {uid : UInt32} :
    (handleKey code s).2 = .enableScoped uid ↔
      ∃ b, ScopedKeys (g.press code s).keys b ∧
        typedDigits b ≠ [] ∧ Text.decimal (typedDigits b) = uid.toNat := by
  have hread : ∀ b, s.mode = .enterScopedUid (typedDigits b) →
      ((handleKey .enter s).2 = .enableScoped uid ↔
        typedDigits b ≠ [] ∧ Text.decimal (typedDigits b) = uid.toNat) := by
    intro b hmode
    rw [handleKey_enter hmode, ← Text.parseU32_trim_eq_some (isAsciiDigit_typedDigits b)]
    cases Text.parseU32 (Text.trim (typedDigits b)) <;> simp
  constructor
  · intro heffect
    obtain ⟨buffer, hmode, rfl⟩ := mode_of_enableScoped heffect
    obtain ⟨b, hkeys, rfl⟩ := exists_scopedKeys h hmode
    exact ⟨b, hkeys, (hread b hmode).mp heffect⟩
  · rintro ⟨b, hkeys, hvalue⟩
    obtain ⟨hmode, rfl⟩ := scopedKeys_press h hkeys
    exact (hread b hmode).mpr hvalue

theorem handleKey_of_scopedKeys (h : Spells g s.mode) {b : List KeyCode}
    (hkeys : ScopedKeys (g.press code s).keys b)
    (hno : typedDigits b = [] ∨ UInt32.size ≤ Text.decimal (typedDigits b)) :
    (handleKey code s).2 = .nothing := by
  obtain ⟨hmode, rfl⟩ := scopedKeys_press h hkeys
  rw [handleKey_enter hmode]
  split
  · rename_i uid hread
    have hvalue := (Text.parseU32_trim_eq_some (isAsciiDigit_typedDigits b)).mp hread
    rcases hno with hnil | hbig
    · exact absurd hnil hvalue.1
    · exact absurd (hvalue.2 ▸ hbig) (not_le.mpr uid.toNat_lt_size)
  · rfl

end Sequences

/-- **Every action has its own sequence of keys.**  For every run of keys from `Normal`,
whatever else of the view changes between them, and every next key, with the keys since
the mode was last `Normal`: the radical switch is enabled if and only if they are `k`,
`r` and `y` in this order, full anonymization if and only if they are `t`, which found it
not running, and `y`, and the scoped switch for a user if and only if they are `k`, `s`
and Enter with the digits of the user's ID in between as the backspaces have left them;
keys that lead elsewhere are missing from the gaps.  No digits, or more than an ID has
room for, set nothing going, and neither does a character in a text entry. -/
theorem effect_iff_pressed (mode : Mode) (g : Pressed)
    (h : (keying.watch notePress).Reach Machine.anyStep (.normal, .nothing) (mode, g))
    (s : AppState) (hs : s.mode = mode) (code : KeyCode) :
    ((handleKey code s).2 = .enableRadical ↔ RadicalKeys (g.press code s).keys) ∧
    ((handleKey code s).2 = .enableFullAnon ↔
      (g.press code s).running = false ∧ FullAnonKeys (g.press code s).keys) ∧
    (∀ uid, (handleKey code s).2 = .enableScoped uid ↔
      ∃ b, ScopedKeys (g.press code s).keys b ∧
        typedDigits b ≠ [] ∧ Text.decimal (typedDigits b) = uid.toNat) ∧
    (∀ b, ScopedKeys (g.press code s).keys b →
      typedDigits b = [] ∨ UInt32.size ≤ Text.decimal (typedDigits b) →
      (handleKey code s).2 = .nothing) ∧
    (mode.isTextEntry = true → ∀ c, code = .char c → (handleKey code s).2 = .nothing) := by
  have hspells : Spells g s.mode := hs ▸ spells_of_reach h
  refine ⟨?_, ?_, fun uid => enableScoped_iff hspells, fun b => handleKey_of_scopedKeys hspells, ?_⟩
  · rw [handleKey_enableRadical, radicalKeys_press hspells]
  · rw [handleKey_enableFullAnon, fullAnonKeys_press hspells]
  · rintro hentry c rfl
    exact handleKey_char (hs ▸ hentry)

/-- A view in which nothing is running. -/
def idleView (mode : Mode) : AppState := ⟨{}, none, false, "", mode⟩

/-- `k`, `s`, a slip of the finger, `42` and Enter. -/
theorem enableScoped_typed :
    (handleKey .enter (idleView (.enterScopedUid ['4', '2']))).2 = .enableScoped 42 := by
  have hrun : ((keying.watch notePress).guardedExec Machine.anyStep (.normal, .nothing)
      [(.char 'k', idleView .normal), (.char 's', idleView .killSwitchMenu),
        (.char '7', idleView (.enterScopedUid [])), (.backspace, idleView (.enterScopedUid ['7'])),
        (.char '4', idleView (.enterScopedUid [])),
        (.char '2', idleView (.enterScopedUid ['4']))]) =
      some (.enterScopedUid ['4', '2'], ⟨false, [.char 'k', .char 's', .char '7', .backspace,
        .char '4', .char '2']⟩) := by decide
  refine ((effect_iff_pressed _ _ (Machine.reach_of_exec hrun) (idleView _) rfl .enter).2.2.1
    42).mpr ⟨[.char '7', .backspace, .char '4', .char '2'], ⟨[], ?_⟩, ?_⟩ <;> decide

/-! ## The keys of a session -/

theorem perform_mode (d : Dashboard) (effect : Effect) :
    (d.perform effect).app.mode = d.app.mode := by
  cases effect <;> rfl

/-- Only keys change the mode. -/
theorem mode_of_step {d d' : Dashboard} {a : DashboardAction} (h : LoopStep d a d') :
    d'.app.mode =
      match a with
      | .key code => (handleKey code d.app).1.mode
      | _ => d.app.mode := by
  cases h with
  | @key code hloop => exact perform_mode { d with app := (handleKey code d.app).1 } _
  | _ => rfl

def noteKey (d : Dashboard) (a : DashboardAction) (d' : Dashboard) (g : Pressed) : Pressed :=
  match a with
  | .key code => notePress d.app.mode (code, d.app) d'.app.mode g
  | _ => g

/-- The keys of a session are pressed one after the other. -/
theorem keying_of_dashboard {G : Dashboard × Pressed → DashboardAction → Prop} {d₀ d : Dashboard}
    {g₀ g : Pressed} (h : (dashboard.watch noteKey).Reach G (d₀, g₀) (d, g)) :
    (keying.watch notePress).Reach Machine.anyStep (d₀.app.mode, g₀) (d.app.mode, g) := by
  refine h.project (H := Machine.anyStep) (fun p => (p.1.app.mode, p.2)) (fun p a =>
    match a with
    | .key code => some (code, p.1.app)
    | _ => none) ?_ (fun _ _ _ _ _ => trivial)
  rintro ⟨d, g⟩ a ⟨d', g'⟩ hs
  obtain ⟨hstep, hnote⟩ := Machine.watch_step.mp hs
  have hmode := mode_of_step (loopStep_of_step hstep)
  cases a with
  | key code =>
    refine Machine.watch_step.mpr ⟨?_, hnote⟩
    simp [keying, show d'.app.mode = _ from hmode]
  | _ => exact Prod.ext hmode hnote

end Anonet.Tui
