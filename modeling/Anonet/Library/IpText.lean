import Anonet.Library.IpAddr
import Mathlib.Data.List.Basic
import Mathlib.Order.Basic
import Mathlib.Data.Nat.Basic

/-!
# Addresses read back

What `IpAddr.display` writes, `IpAddr.parse` reads as the same address.

* `readNumber_toDigits` — a number in front of something that is no digit.
* `readIpv4Addr_display` — a dotted quad; `readIpv4Addr_eq_none` is the reason why no
  group of an IPv6 address is taken for one.
* `readGroups_groups` — groups between colons, up to a `::` or the end.
* `longestZeroRun_spec` — the run that `::` stands for is one of zeros.
* `IpAddr.parse_display`, `SocketAddr.parse_display` — **the round trip**, and
  `SocketAddr.trim_display`: there is nothing to trim.
-/

namespace Net

/-! ## Numbers -/

/-- The digits of a number, the most significant one first. -/
theorem toDigits_spec {b : ℕ} (hb : 1 < b) (n : ℕ) :
    ∃ ds : List ℕ, Nat.toDigits b n = ds.map Nat.digitChar ∧ (∀ d ∈ ds, d < b) ∧
      ds.foldl (fun n d => n * b + d) 0 = n ∧ (ds.head? = some 0 → n = 0) := by
  induction n using Nat.strongRecOn with
  | ind n ih =>
    rw [Nat.toDigits_eq_if hb]
    split
    · rename_i hlt
      exact ⟨[n], rfl, by simpa using hlt, by simp, by simp⟩
    · rename_i hle
      have hpos : 0 < n / b := Nat.div_pos (by omega) (by omega)
      obtain ⟨ds, hds, hlt, hvalue, hhead⟩ := ih (n / b) (Nat.div_lt_self (by omega) hb)
      refine ⟨ds ++ [n % b], by simp [hds], ?_, ?_, ?_⟩
      · intro d hd
        rcases List.mem_append.mp hd with hd | hd
        · exact hlt d hd
        · rw [List.mem_singleton.mp hd]
          exact Nat.mod_lt n (by omega)
      · rw [List.foldl_append, hvalue, List.foldl_cons, List.foldl_nil, Nat.mul_comm]
        exact Nat.div_add_mod n b
      · intro hzero
        cases ds with
        | nil =>
          simp at hvalue
          omega
        | cons d ds =>
          have hquot := hhead (by simpa using hzero)
          omega

/-- The characters behind a number: none, or a first one that is no digit. -/
def Stops (radix : ℕ) (rest : List Char) : Prop := ∀ c ∈ rest.head?, digit? radix c = none

theorem readDigits_of_stops {radix : ℕ} {rest : List Char} (h : Stops radix rest) :
    readDigits radix rest = ([], rest) := by
  cases rest with
  | nil => rfl
  | cons c rest => rw [readDigits, h c rfl]

theorem readDigits_map_digitChar {radix : ℕ} (hdigit : ∀ d < radix, digit? radix d.digitChar = some d)
    {ds : List ℕ} (hds : ∀ d ∈ ds, d < radix) {rest : List Char} (h : Stops radix rest) :
    readDigits radix (ds.map Nat.digitChar ++ rest) = (ds, rest) := by
  induction ds with
  | nil => exact readDigits_of_stops h
  | cons d ds ih =>
    rw [List.map_cons, List.cons_append, readDigits, hdigit d (hds d List.mem_cons_self),
      ih fun d hd => hds d (List.mem_cons_of_mem _ hd)]

/-- **A number is read back.** -/
theorem readNumber_toDigits {radix bound n : ℕ} {maxDigits : Option ℕ} (hradix : 1 < radix)
    (hdigit : ∀ d < radix, digit? radix d.digitChar = some d)
    (hlength : ∀ m ∈ maxDigits, 0 < m ∧ n < radix ^ m) (hbound : n < bound)
    (allowZeroPrefix : Bool) {rest : List Char} (h : Stops radix rest) :
    readNumber radix maxDigits allowZeroPrefix bound (Nat.toDigits radix n ++ rest) =
      some (n, rest) := by
  obtain ⟨ds, hds, hlt, hvalue, hhead⟩ := toDigits_spec hradix n
  have hlen : ds.length = (Nat.toDigits radix n).length := by rw [hds, List.length_map]
  have hfits : maxDigits.any (· < ds.length) = false := by
    cases maxDigits with
    | none => rfl
    | some m =>
      obtain ⟨hpos, hlt⟩ := hlength m rfl
      have hle : ds.length ≤ m := by
        rw [hlen]
        exact (Nat.length_toDigits_le_iff hradix hpos).mpr hlt
      simpa using hle
  have hne : ds ≠ [] := by
    rintro rfl
    exact Nat.toDigits_ne_nil hds
  have hleading : ds.head? = some 0 → ds.length ≤ 1 := by
    intro hzero
    rw [hlen, hhead hzero, Nat.toDigits_zero, List.length_singleton]
  unfold readNumber
  rw [hds, readDigits_map_digitChar hdigit hlt h]
  dsimp only
  have hzeros : ¬ (allowZeroPrefix = false ∧ ds.head? = some 0 ∧ 1 < ds.length) := by
    rintro ⟨-, hzero, hlong⟩
    exact absurd (hleading hzero) (Nat.not_le.mpr hlong)
  rw [hvalue, if_neg (by simp [hne, hfits]), if_neg hzeros, if_pos hbound]

theorem digit?_ten : ∀ d < 10, digit? 10 d.digitChar = some d := by decide

theorem digit?_sixteen : ∀ d < 16, digit? 16 d.digitChar = some d := by decide

/-! ## Dotted quads -/

theorem readOctet {o : ℕ} (ho : o < 256) {rest : List Char} (h : Stops 10 rest) :
    readNumber 10 (some 3) false 256 (Nat.toDigits 10 o ++ rest) = some (o, rest) :=
  readNumber_toDigits (by decide) digit?_ten (by rintro m ⟨⟩; omega) ho false h

/-- The octets behind the first, as text. -/
def dots (os : List ℕ) : List Char := os.flatMap fun o => '.' :: Nat.toDigits 10 o

theorem dots_cons (o : ℕ) (os : List ℕ) : dots (o :: os) = '.' :: (Nat.toDigits 10 o ++ dots os) :=
  rfl

theorem stops_dots (os : List ℕ) {rest : List Char} (h : Stops 10 rest) :
    Stops 10 (dots os ++ rest) := by
  cases os with
  | nil => exact h
  | cons o os =>
    rintro c ⟨⟩
    decide

theorem Ipv4Addr.octets_lt (a : Ipv4Addr) : ∀ o ∈ a.octets, o < 256 := by
  have hlt := a.bits.isLt
  intro o ho
  simp only [octets, List.mem_cons, List.not_mem_nil, or_false] at ho
  rcases ho with rfl | rfl | rfl | rfl <;> omega

theorem Ipv4Addr.ofOctets_map_octets (a : Ipv4Addr) :
    Ipv4Addr.ofOctets (a.octets.map UInt8.ofNat) = a := by
  have hoctets := a.octets_lt
  have hvalue : Bytes.beNat (a.octets.map UInt8.ofNat) = a.bits.toNat := by
    have hbyte : ∀ o ∈ a.octets, (UInt8.ofNat o).toNat = o :=
      fun o ho => UInt8.toNat_ofNat_of_lt' (hoctets o ho)
    simp only [octets, List.mem_cons, List.not_mem_nil, or_false, forall_eq_or_imp,
      forall_eq] at hbyte
    obtain ⟨h₁, h₂, h₃, h₄⟩ := hbyte
    simp only [Bytes.beNat, octets, List.map_cons, List.map_nil, List.foldl_cons, List.foldl_nil,
      h₁, h₂, h₃, h₄]
    omega
  rw [ofOctets, hvalue, BitVec.ofNat_toNat, BitVec.setWidth_eq]

/-- The octets behind the first. -/
theorem readOctets_dots {os : List ℕ} (hos : ∀ o ∈ os, o < 256) {rest : List Char}
    (h : Stops 10 rest) :
    readOctets os.length false (dots os ++ rest) = some (os.map UInt8.ofNat, rest) := by
  induction os with
  | nil => rfl
  | cons o os ih =>
    have hread := readOctet (hos o List.mem_cons_self) (stops_dots os h)
    have hrest := ih fun o ho => hos o (List.mem_cons_of_mem _ ho)
    simp only [dots_cons, List.append_assoc, List.length_cons, List.cons_append, readOctets, readSeparator,
      readGivenChar, if_true, Bool.false_eq_true, if_false, Option.bind_eq_bind, Option.bind_some,
      hread, hrest]
    rfl

theorem intercalate_cons {α : Type} (c : α) (p : List α) (ps : List (List α)) :
    [c].intercalate (p :: ps) = p ++ ps.flatMap (c :: ·) := by
  induction ps generalizing p with
  | nil => simp [List.intercalate]
  | cons q ps ih =>
    have hq := ih q
    simp only [List.intercalate, List.intersperse_cons_cons, List.flatten_cons] at hq ⊢
    rw [hq]
    simp

theorem Ipv4Addr.toList_display (a : Ipv4Addr) : ∃ o os, a.octets = o :: os ∧ os.length = 3 ∧
    a.display.toList = Nat.toDigits 10 o ++ dots os := by
  refine ⟨_, _, rfl, rfl, ?_⟩
  have hsep : ".".toList = ['.'] := rfl
  rw [display, String.toList_intercalate, octets, hsep, List.map_cons, List.map_cons,
    intercalate_cons, List.map_map, List.flatMap_map]
  simp [dots]

/-- **A dotted quad is read back.** -/
theorem readIpv4Addr_display (a : Ipv4Addr) {rest : List Char} (h : Stops 10 rest) :
    readIpv4Addr (a.display.toList ++ rest) = some (a, rest) := by
  obtain ⟨o, os, ha, hlen, htext⟩ := a.toList_display
  have hlt := a.octets_lt
  rw [ha] at hlt
  have hrest := readOctets_dots (fun o ho => hlt o (List.mem_cons_of_mem _ ho)) h
  have hread := readOctet (hlt o List.mem_cons_self) (stops_dots os h)
  rw [hlen] at hrest
  have hback := a.ofOctets_map_octets
  rw [ha, List.map_cons] at hback
  have hall : readOctets 4 true (Nat.toDigits 10 o ++ (dots os ++ rest)) =
      some (UInt8.ofNat o :: os.map UInt8.ofNat, rest) := by
    rw [readOctets]
    simp only [readSeparator, if_true, Option.bind_eq_bind, Option.bind_some, hread, hrest]
    rfl
  rw [htext, List.append_assoc, readIpv4Addr, hall]
  exact congrArg (fun a => some (a, rest)) hback

/-- What is not a decimal number and a dot is no dotted quad. -/
theorem readIpv4Addr_eq_none {cs : List Char} (h : (readDigits 10 cs).2.head? ≠ some '.') :
    readIpv4Addr cs = none := by
  have hnumber : ∀ r, readNumber 10 (some 3) false 256 cs = some r → r.2 = (readDigits 10 cs).2 := by
    intro r hr
    unfold readNumber at hr
    dsimp only at hr
    split at hr
    · cases hr
    · split at hr
      · cases hr
      · split at hr
        · rw [← Option.some.inj hr]
        · cases hr
  unfold readIpv4Addr
  cases hr : readNumber 10 (some 3) false 256 cs with
  | none => simp [readOctets, readSeparator, hr]
  | some r =>
    have hrest := hnumber r hr
    have hdot : readGivenChar '.' r.2 = none := by
      rw [hrest]
      cases hcs : (readDigits 10 cs).2 with
      | nil => rfl
      | cons c cs' =>
        rw [hcs] at h
        have hc : c ≠ '.' := by simpa using h
        rw [readGivenChar, if_neg hc]
    simp [readOctets, readSeparator, hr, hdot]

/-! ## Groups -/

theorem readGroup {g : ℕ} (hg : g < 65536) {rest : List Char} (h : Stops 16 rest) :
    readNumber 16 (some 4) true 65536 (Nat.toDigits 16 g ++ rest) = some (g, rest) :=
  readNumber_toDigits (by decide) digit?_sixteen (by rintro m ⟨⟩; omega) hg true h

/-- The groups behind the first. -/
def colons (gs : List ℕ) : List Char := gs.flatMap fun g => ':' :: Nat.toDigits 16 g

/-- A group is over: behind it comes nothing, a colon, or what ends an address in brackets. -/
def Breaks (rest : List Char) : Prop := ∀ c ∈ rest.head?, c = ':' ∨ c = ']' ∨ c = '%'

theorem breaks_colon (cs : List Char) : Breaks (':' :: cs) := by
  rintro c ⟨⟩
  exact .inl rfl

theorem Breaks.stops {rest : List Char} (h : Breaks rest) : Stops 16 rest := by
  intro c hc
  rcases h c hc with rfl | rfl | rfl <;> decide

theorem breaks_colons (gs : List ℕ) {rest : List Char} (h : Breaks rest) :
    Breaks (colons gs ++ rest) := by
  cases gs with
  | nil => exact h
  | cons g gs => exact breaks_colon _

theorem dot_notMem_toDigits (g : ℕ) : '.' ∉ Nat.toDigits 16 g := by
  obtain ⟨ds, hds, -, -, -⟩ := toDigits_spec (b := 16) (by decide) g
  rw [hds, List.mem_map]
  rintro ⟨d, -, hd⟩
  have hdigit : d.digitChar ≠ '.' := by
    simp only [Nat.digitChar, apply_ite (fun c => c ≠ '.')]
    simp
  exact hdigit hd

/-- A group is not the first octet of a dotted quad. -/
theorem readIpv4Addr_group {cs rest : List Char} (hcs : '.' ∉ cs) (h : Breaks rest) :
    readIpv4Addr (cs ++ rest) = none := by
  refine readIpv4Addr_eq_none ?_
  induction cs with
  | nil =>
    cases rest with
    | nil => simp [readDigits]
    | cons c rest =>
      have hno : digit? 10 c = none ∧ c ≠ '.' := by
        rcases h c rfl with rfl | rfl | rfl <;> decide
      simp [readDigits, hno]
  | cons c cs ih =>
    rw [List.mem_cons, not_or] at hcs
    rw [List.cons_append, readDigits]
    cases digit? 10 c with
    | some d => exact ih hcs.2
    | none => simpa using Ne.symm hcs.1

/-- One more group. -/
theorem readGroups_cons {room g : ℕ} {first : Bool} {cs rest : List Char} (hg : g < 65536)
    (h : Breaks rest) (hsep : readSeparator ':' first cs = some (Nat.toDigits 16 g ++ rest)) :
    readGroups (room + 1) first cs =
      (g :: (readGroups room false rest).1, (readGroups room false rest).2) := by
  have hquad : (if 1 ≤ room then (readSeparator ':' first cs).bind readIpv4Addr else none) =
      none := by
    rw [hsep, Option.bind_some, readIpv4Addr_group (dot_notMem_toDigits g) h, ite_self]
  rw [readGroups]
  dsimp only
  rw [hquad, hsep, Option.bind_some, readGroup hg h.stops]

/-- Nothing more is read at the end, or in front of a `::`. -/
theorem readGroups_stop (room : ℕ) {first : Bool} {cs : List Char}
    (hsep : ∀ cs' ∈ readSeparator ':' first cs, Breaks cs') :
    readGroups room first cs = ([], false, cs) := by
  cases room with
  | zero => rfl
  | succ room =>
    have hnone : ∀ cs' ∈ readSeparator ':' first cs, readIpv4Addr cs' = none ∧
        readNumber 16 (some 4) true 65536 cs' = none := by
      intro cs' hcs'
      refine ⟨readIpv4Addr_group List.not_mem_nil (hsep cs' hcs'), ?_⟩
      rw [readNumber, readDigits_of_stops (hsep cs' hcs').stops]
      rfl
    rw [readGroups]
    cases hs : readSeparator ':' first cs with
    | none => simp
    | some cs' =>
      obtain ⟨hquad, hgroup⟩ := hnone cs' hs
      simp [hquad, hgroup]

/-- The address is over. -/
def Closes (rest : List Char) : Prop := ∀ c ∈ rest.head?, c = ']' ∨ c = '%'

theorem closes_nil : Closes [] := by
  rintro c ⟨⟩

/-- The end, or a `::`. -/
def Ends (rest : List Char) : Prop := Closes rest ∨ ∃ t, rest = ':' :: ':' :: t

theorem Closes.breaks {rest : List Char} (h : Closes rest) : Breaks rest :=
  fun c hc => .inr (h c hc)

theorem Ends.breaks {rest : List Char} (h : Ends rest) : Breaks rest := by
  rcases h with h | ⟨t, rfl⟩
  · exact h.breaks
  · exact breaks_colon _

/-- There is no further group. -/
theorem Ends.readSeparator {rest : List Char} (h : Ends rest) :
    ∀ cs ∈ readSeparator ':' false rest, Breaks cs := by
  intro cs hcs
  rcases h with h | ⟨t, rfl⟩
  · cases rest with
    | nil => cases hcs
    | cons c rest =>
      have hc : c ≠ ':' := by
        rcases h c rfl with rfl | rfl <;> decide
      simp [Net.readSeparator, readGivenChar, hc] at hcs
  · obtain rfl := Option.some.inj hcs
    exact breaks_colon t

theorem readGroups_colons {gs : List ℕ} {room : ℕ} (hgs : ∀ g ∈ gs, g < 65536)
    (hroom : gs.length ≤ room) {rest : List Char} (h : Ends rest) :
    readGroups room false (colons gs ++ rest) = (gs, false, rest) := by
  induction gs generalizing room with
  | nil => exact readGroups_stop room h.readSeparator
  | cons g gs ih =>
    have hpos : room ≠ 0 := (Nat.lt_of_lt_of_le (Nat.zero_lt_succ gs.length) hroom).ne'
    obtain ⟨room, rfl⟩ := Nat.exists_eq_add_one_of_ne_zero hpos
    have hrest : readGroups room false (colons gs ++ rest) = (gs, false, rest) :=
      ih (fun g hg => hgs g (List.mem_cons_of_mem _ hg)) (by simpa using hroom)
    have hsep : readSeparator ':' false (colons (g :: gs) ++ rest) =
        some (Nat.toDigits 16 g ++ (colons gs ++ rest)) := by
      simp [colons, readSeparator, readGivenChar]
    rw [readGroups_cons (hgs g List.mem_cons_self) (breaks_colons gs h.breaks) hsep, hrest]

/-- **Groups between colons are read back**, up to a `::` or the end. -/
theorem readGroups_groups {gs : List ℕ} {room : ℕ} (hgs : ∀ g ∈ gs, g < 65536)
    (hroom : gs.length ≤ room) {rest : List Char} (h : Ends rest) :
    readGroups room true ((displaySegments gs).toList ++ rest) = (gs, false, rest) := by
  have htext : (displaySegments gs).toList = [':'].intercalate (gs.map (Nat.toDigits 16)) := by
    have hsep : ":".toList = [':'] := rfl
    have hhex : String.toList ∘ hex = Nat.toDigits 16 := by
      funext g
      simp [hex]
    rw [displaySegments, String.toList_intercalate, List.map_map, hhex, hsep]
  rw [htext]
  cases gs with
  | nil =>
    refine readGroups_stop room fun cs' hcs' => ?_
    obtain rfl := Option.some.inj hcs'
    exact h.breaks
  | cons g gs =>
    have hpos : room ≠ 0 := (Nat.lt_of_lt_of_le (Nat.zero_lt_succ gs.length) hroom).ne'
    obtain ⟨room, rfl⟩ := Nat.exists_eq_add_one_of_ne_zero hpos
    have hrest : readGroups room false (colons gs ++ rest) = (gs, false, rest) :=
      readGroups_colons (fun g hg => hgs g (List.mem_cons_of_mem _ hg)) (by simpa using hroom) h
    have hfirst : [':'].intercalate ((g :: gs).map (Nat.toDigits 16)) ++ rest =
        Nat.toDigits 16 g ++ (colons gs ++ rest) := by
      rw [List.map_cons, intercalate_cons, List.flatMap_map, List.append_assoc]
      rfl
    rw [hfirst, readGroups_cons (hgs g List.mem_cons_self) (breaks_colons gs h.breaks) rfl, hrest]

/-! ## The run of zeros -/

/-- A run of zeros in a list: where it starts and how long it is. -/
def ZeroRun (gs : List ℕ) (run : ℕ × ℕ) : Prop :=
  ∃ as bs, gs = as ++ List.replicate run.2 0 ++ bs ∧ (0 < run.2 → as.length = run.1)

/-- A run that the list ends with. -/
def TrailingRun (gs : List ℕ) (run : ℕ × ℕ) : Prop :=
  ∃ as, gs = as ++ List.replicate run.2 0 ∧ (0 < run.2 → as.length = run.1)

theorem TrailingRun.zeroRun {gs : List ℕ} {run : ℕ × ℕ} (h : TrailingRun gs run) :
    ZeroRun gs run := by
  obtain ⟨as, rfl, hlen⟩ := h
  exact ⟨as, [], by simp, hlen⟩

theorem ZeroRun.append {gs : List ℕ} {run : ℕ × ℕ} (h : ZeroRun gs run) (l : List ℕ) :
    ZeroRun (gs ++ l) run := by
  obtain ⟨as, bs, rfl, hlen⟩ := h
  exact ⟨as, bs ++ l, by simp, hlen⟩

/-- One more zero. -/
theorem TrailingRun.zero {gs : List ℕ} {run : ℕ × ℕ} (h : TrailingRun gs run) :
    TrailingRun (gs ++ [0]) (if run.2 = 0 then (gs.length, 1) else (run.1, run.2 + 1)) := by
  obtain ⟨as, rfl, hlen⟩ := h
  by_cases hrun : run.2 = 0
  · rw [if_pos hrun]
    exact ⟨as, by simp [hrun], fun _ => by simp [hrun]⟩
  · rw [if_neg hrun]
    refine ⟨as, ?_, fun _ => hlen (Nat.pos_of_ne_zero hrun)⟩
    rw [List.append_assoc, ← List.replicate_succ']

theorem longestZeroRun_spec {gs pre : List ℕ} {current longest : ℕ × ℕ}
    (hcurrent : TrailingRun pre current) (hlongest : ZeroRun pre longest) :
    ZeroRun (pre ++ gs) (longestZeroRun gs pre.length current longest) := by
  induction gs generalizing pre current longest with
  | nil => simpa [longestZeroRun] using hlongest
  | cons g gs ih =>
    have hlength : pre.length + 1 = (pre ++ [g]).length := by simp
    have hsplit : pre ++ g :: gs = pre ++ [g] ++ gs := by simp
    rw [longestZeroRun, hlength, hsplit]
    split
    · rename_i hg
      subst hg
      have hzero := hcurrent.zero
      refine ih hzero ?_
      generalize (if current.2 = 0 then (pre.length, 1) else (current.1, current.2 + 1)) = run at hzero
      split
      · exact hzero.zeroRun
      · exact hlongest.append [0]
    · exact ih ⟨pre ++ [g], by simp, by simp⟩ (hlongest.append [g])

/-! ## IPv6 -/

theorem Ipv6Addr.segments_lt (a : Ipv6Addr) : ∀ g ∈ a.segments, g < 65536 := by
  intro g hg
  obtain ⟨i, -, rfl⟩ := List.mem_map.mp hg
  exact Nat.mod_lt _ (by decide)

/-- The value of a list of segments. -/
theorem Ipv6Addr.foldl_segments (a : Ipv6Addr) :
    a.segments.foldl (fun n g => n * 65536 + g) 0 = a.bits.toNat := by
  have hlt := a.bits.isLt
  have hstep : ∀ k, a.bits.toNat / 2 ^ (16 * k) =
      a.bits.toNat / 2 ^ (16 * (k + 1)) * 65536 + a.bits.toNat / 2 ^ (16 * k) % 65536 := by
    intro k
    have hpow : 2 ^ (16 * (k + 1)) = 2 ^ (16 * k) * 65536 := by
      rw [Nat.mul_add, Nat.pow_add]
    rw [hpow, ← Nat.div_div_eq_div_mul, Nat.mul_comm _ 65536]
    exact (Nat.div_add_mod _ 65536).symm
  have htop : a.bits.toNat / 2 ^ (16 * 8) = 0 := Nat.div_eq_of_lt hlt
  have h₀ := hstep 0
  have h₁ := hstep 1
  have h₂ := hstep 2
  have h₃ := hstep 3
  have h₄ := hstep 4
  have h₅ := hstep 5
  have h₆ := hstep 6
  have h₇ := hstep 7
  rw [htop, Nat.zero_mul, Nat.zero_add] at h₇
  rw [Nat.mul_zero, Nat.pow_zero, Nat.div_one] at h₀
  have hsegments : a.segments = [a.bits.toNat / 2 ^ (16 * 7) % 65536,
      a.bits.toNat / 2 ^ (16 * 6) % 65536, a.bits.toNat / 2 ^ (16 * 5) % 65536,
      a.bits.toNat / 2 ^ (16 * 4) % 65536, a.bits.toNat / 2 ^ (16 * 3) % 65536,
      a.bits.toNat / 2 ^ (16 * 2) % 65536, a.bits.toNat / 2 ^ (16 * 1) % 65536,
      a.bits.toNat % 65536] := by
    simp [segments, List.range_succ]
  rw [hsegments]
  simp only [List.foldl_cons, List.foldl_nil, Nat.zero_mul, Nat.zero_add]
  rw [← h₇, ← h₆, ← h₅, ← h₄, ← h₃, ← h₂, ← h₁, ← h₀]

theorem Ipv6Addr.ofSegments_segments (a : Ipv6Addr) : Ipv6Addr.ofSegments a.segments = a := by
  rw [ofSegments, foldl_segments, BitVec.ofNat_toNat, BitVec.setWidth_eq]

/-- The last two segments are those of the dotted quad. -/
theorem Ipv6Addr.segments_drop (a : Ipv6Addr) :
    a.segments.drop 6 = [(a.bits.truncate 32).toNat / 65536, (a.bits.truncate 32).toNat % 65536] := by
  have hlow : (a.bits.truncate 32).toNat = a.bits.toNat % 2 ^ 32 := by simp
  have hsegments : a.segments.drop 6 = [a.bits.toNat / 2 ^ 16 % 65536, a.bits.toNat % 65536] := by
    simp [segments, List.range_succ]
  rw [hsegments, hlow]
  congr 1
  · omega
  · congr 1
    omega

theorem ends_doubleColon (t : List Char) : Ends (':' :: ':' :: t) := .inr ⟨t, rfl⟩

/-- What follows a `::`. -/
theorem readIpv6Addr_doubleColon {head tail : List ℕ} {v4 : Bool} {text rest : List Char}
    (hhead : ∀ g ∈ head, g < 65536) (hlength : head.length < 8)
    (htail : readGroups (8 - (head.length + 1)) true text = (tail, v4, rest)) :
    readIpv6Addr ((displaySegments head).toList ++ ':' :: ':' :: text) =
      some (.ofSegments (head ++ List.replicate (8 - head.length - tail.length) 0 ++ tail),
        rest) := by
  rw [readIpv6Addr, readGroups_groups hhead (by omega) (ends_doubleColon text)]
  dsimp only
  rw [if_neg (by omega)]
  simp only [readGivenChar, if_true, Option.bind_eq_bind, Option.bind_some, htail]
  rfl

/-- `ffff` and a dotted quad. -/
theorem readGroups_mapped (a : Ipv4Addr) {rest : List Char} (h : Stops 10 rest) :
    readGroups 7 true ("ffff:".toList ++ (a.display.toList ++ rest)) =
      ([0xffff, a.bits.toNat / 65536, a.bits.toNat % 65536], true, rest) := by
  have hffff : "ffff:".toList ++ (a.display.toList ++ rest) =
      Nat.toDigits 16 0xffff ++ ':' :: (a.display.toList ++ rest) := rfl
  have hquad : readGroups 6 false (':' :: (a.display.toList ++ rest)) =
      ([a.bits.toNat / 65536, a.bits.toNat % 65536], true, rest) := by
    rw [readGroups]
    simp [readSeparator, readGivenChar, readIpv4Addr_display a h]
  rw [readGroups_cons (g := 0xffff) (by decide) (breaks_colon _) (by rw [hffff]; rfl), hquad]

theorem Closes.stops {rest : List Char} (h : Closes rest) : Stops 10 rest := by
  intro c hc
  rcases h c hc with rfl | rfl <;> decide

/-- **An IPv6 address is read back.** -/
theorem readIpv6Addr_display (a : Ipv6Addr) {rest : List Char} (h : Closes rest) :
    readIpv6Addr (a.display.toList ++ rest) = some (a, rest) := by
  have hlt := a.segments_lt
  have hlength : a.segments.length = 8 := by simp [Ipv6Addr.segments]
  rw [Ipv6Addr.display]
  dsimp only
  split
  · rename_i hmapped
    have hread := readIpv6Addr_doubleColon (List.forall_mem_nil _) (by decide)
      (readGroups_mapped ⟨a.bits.truncate 32⟩ h.stops)
    have htext : ("::ffff:" ++ Ipv4Addr.display ⟨a.bits.truncate 32⟩).toList ++ rest =
        (displaySegments []).toList ++ ':' :: ':' ::
          ("ffff:".toList ++ ((Ipv4Addr.display ⟨a.bits.truncate 32⟩).toList ++ rest)) := by
      rw [String.toList_append, List.append_assoc]
      rfl
    have hsegments : a.segments = [] ++ List.replicate 5 0 ++
        [0xffff, (a.bits.truncate 32).toNat / 65536, (a.bits.truncate 32).toNat % 65536] := by
      rw [← List.take_append_drop 6 a.segments, hmapped, a.segments_drop]
      rfl
    rw [htext, hread]
    exact congrArg (fun a => some (a, rest))
      ((congrArg Ipv6Addr.ofSegments hsegments.symm).trans a.ofSegments_segments)
  · obtain ⟨as, bs, hsegments, hstart⟩ :
        ZeroRun a.segments (longestZeroRun a.segments 0 (0, 0) (0, 0)) :=
      longestZeroRun_spec (show TrailingRun [] (0, 0) from ⟨[], rfl, by simp⟩) ⟨[], [], rfl, by simp⟩
    generalize longestZeroRun a.segments 0 (0, 0) (0, 0) = run at hsegments hstart
    obtain ⟨start, len⟩ := run
    dsimp only at hsegments hstart ⊢
    split
    · rename_i hlen
      have hstart := hstart (by omega)
      have htake : a.segments.take start = as := by
        rw [hsegments, List.append_assoc, ← hstart, List.take_left]
      have hdrop : a.segments.drop (start + len) = bs := by
        rw [hsegments, ← hstart]
        exact List.drop_left' (by simp)
      have htotal : as.length + len + bs.length = 8 := by
        rw [← hlength, hsegments]
        simp [Nat.add_assoc]
      have has : ∀ g ∈ as, g < 65536 := fun g hg => hlt g (by simp [hsegments, hg])
      have hbs : ∀ g ∈ bs, g < 65536 := fun g hg => hlt g (by simp [hsegments, hg])
      have hroom : bs.length ≤ 8 - (as.length + 1) := by omega
      have htail := readGroups_groups hbs hroom (.inl h)
      have hread := readIpv6Addr_doubleColon has (by omega) htail
      have hzeros : 8 - as.length - bs.length = len := by omega
      have htext : (displaySegments as ++ "::" ++ displaySegments bs).toList ++ rest =
          (displaySegments as).toList ++ ':' :: ':' ::
            ((displaySegments bs).toList ++ rest) := by
        rw [String.toList_append, String.toList_append, List.append_assoc, List.append_assoc]
        rfl
      rw [htake, hdrop, htext, hread, hzeros, ← hsegments, a.ofSegments_segments]
    · have hread := readGroups_groups hlt hlength.le (.inl h)
      rw [readIpv6Addr, hread]
      dsimp only
      rw [if_pos hlength, a.ofSegments_segments]

theorem dot_notMem_displaySegments (gs : List ℕ) : '.' ∉ (displaySegments gs).toList :=
  notMem_displaySegments (by decide) dot_notMem_toDigits gs

/-- The text of an IPv6 address does not begin with a dotted quad. -/
theorem readIpv4Addr_display_v6 (a : Ipv6Addr) : readIpv4Addr a.display.toList = none := by
  have hplain : ∀ cs : List Char, '.' ∉ cs → readIpv4Addr cs = none := by
    intro cs hcs
    have hnone := readIpv4Addr_group hcs closes_nil.breaks
    rwa [List.append_nil] at hnone
  rw [Ipv6Addr.display]
  dsimp only
  split
  · rw [String.toList_append]
    have hnone : ∀ cs, readIpv4Addr ([] ++ ':' :: cs) = none :=
      fun cs => readIpv4Addr_group List.not_mem_nil (breaks_colon cs)
    exact hnone _
  · split
    · exact hplain _ (by simp [dot_notMem_displaySegments])
    · exact hplain _ (dot_notMem_displaySegments _)

/-- **The round trip**: the text of an address is that of no other. -/
theorem IpAddr.parse_display (a : IpAddr) : IpAddr.parse a.display = some a := by
  rw [IpAddr.parse, readIpAddr]
  cases a with
  | v4 a =>
    have hread := readIpv4Addr_display a closes_nil.stops
    rw [List.append_nil] at hread
    simp only [IpAddr.display, hread]
  | v6 a =>
    have hread := readIpv6Addr_display a closes_nil
    rw [List.append_nil] at hread
    simp only [IpAddr.display, readIpv4Addr_display_v6, hread, Option.map_some]

/-! ## Socket addresses -/

theorem stops_nil (radix : ℕ) : Stops radix [] := by
  rintro c ⟨⟩

theorem readPort_toString (port : UInt16) :
    readPort (':' :: (toString port).toList) = some (port, []) := by
  have hdigits : (toString port).toList = Nat.toDigits 10 port.toNat ++ [] := by
    rw [List.append_nil]
    exact Nat.toList_repr
  have hread : readNumber 10 none true 65536 (Nat.toDigits 10 port.toNat ++ []) =
      some (port.toNat, []) :=
    readNumber_toDigits (by decide) digit?_ten (by rintro m ⟨⟩) port.toNat_lt_size true
      (stops_nil 10)
  rw [readPort, hdigits]
  simp only [readGivenChar, if_true, Option.bind_eq_bind, Option.bind_some, hread]
  simp

theorem readScopeId_toString (scopeId : UInt32) (rest : List Char) :
    readScopeId ('%' :: ((toString scopeId).toList ++ ']' :: rest)) =
      some (scopeId, ']' :: rest) := by
  have hdigits : (toString scopeId).toList = Nat.toDigits 10 scopeId.toNat := Nat.toList_repr
  have hstops : Stops 10 (']' :: rest) := by
    rintro c ⟨⟩
    decide
  have hread : readNumber 10 none true 4294967296
      (Nat.toDigits 10 scopeId.toNat ++ ']' :: rest) = some (scopeId.toNat, ']' :: rest) :=
    readNumber_toDigits (by decide) digit?_ten (by rintro m ⟨⟩) scopeId.toNat_lt_size true hstops
  rw [readScopeId, hdigits]
  simp only [readGivenChar, if_true, Option.bind_eq_bind, Option.bind_some, hread]
  simp

/-- What is behind the address, between the brackets. -/
theorem readScopeId_zone (scopeId : UInt32) (rest : List Char) :
    (readScopeId ((if scopeId = 0 then "" else "%" ++ toString scopeId).toList ++ ']' :: rest)).getD
      (0, (if scopeId = 0 then "" else "%" ++ toString scopeId).toList ++ ']' :: rest) =
      (scopeId, ']' :: rest) := by
  by_cases hzero : scopeId = 0
  · rw [if_pos hzero, hzero]
    rfl
  · rw [if_neg hzero, String.toList_append, List.append_assoc]
    have hread := readScopeId_toString scopeId rest
    rw [show "%".toList = ['%'] from rfl, List.singleton_append, hread, Option.getD_some]

/-- **The round trip**, with a port. -/
theorem SocketAddr.parse_display (a : SocketAddr) : SocketAddr.parse a.display.toList = some a := by
  cases a with
  | v4 ip port =>
    have hstops : Stops 10 (':' :: (toString port).toList) := by
      rintro c ⟨⟩
      decide
    have hread : readSocketAddrV4 (ip.display.toList ++ ':' :: (toString port).toList) =
        some (.v4 ip port, []) := by
      simp [readSocketAddrV4, readIpv4Addr_display ip hstops, readPort_toString]
    have htext : (SocketAddr.v4 ip port).display.toList =
        ip.display.toList ++ ':' :: (toString port).toList := by
      rw [display, String.toList_append, String.toList_append, List.append_assoc]
      rfl
    rw [SocketAddr.parse, htext, hread]
    rfl
  | v6 ip scopeId port =>
    have hcloses : Closes ((if scopeId = 0 then "" else "%" ++ toString scopeId).toList ++
        ']' :: ':' :: (toString port).toList) := by
      by_cases hzero : scopeId = 0
      · rw [if_pos hzero]
        rintro c ⟨⟩
        exact .inl rfl
      · rw [if_neg hzero, String.toList_append]
        rintro c ⟨⟩
        exact .inr rfl
    have htext : (SocketAddr.v6 ip scopeId port).display.toList =
        '[' :: (ip.display.toList ++
          ((if scopeId = 0 then "" else "%" ++ toString scopeId).toList ++
            ']' :: ':' :: (toString port).toList)) := by
      rw [display]
      simp only [String.toList_append, List.append_assoc]
      rfl
    have hno : readIpv4Addr ('[' :: (ip.display.toList ++
        ((if scopeId = 0 then "" else "%" ++ toString scopeId).toList ++
          ']' :: ':' :: (toString port).toList))) = none := by
      refine readIpv4Addr_eq_none ?_
      have hbracket : digit? 10 '[' = none := by decide
      simp [readDigits, hbracket]
    have hzone := readScopeId_zone scopeId (':' :: (toString port).toList)
    have hread : readSocketAddrV6 (SocketAddr.v6 ip scopeId port).display.toList =
        some (.v6 ip scopeId port, []) := by
      rw [htext, readSocketAddrV6]
      simp only [readGivenChar, if_true, Option.bind_eq_bind, Option.bind_some,
        readIpv6Addr_display ip hcloses, hzone, readPort_toString]
      rfl
    have hv4 : readSocketAddrV4 (SocketAddr.v6 ip scopeId port).display.toList = none := by
      rw [htext, readSocketAddrV4, hno]
      rfl
    rw [SocketAddr.parse, hv4, hread]
    rfl

/-! ### Nothing to trim -/

theorem trim_of_ends {cs : List Char} (hfirst : ∀ c ∈ cs.head?, Text.isWhiteSpace c = false)
    (hlast : ∀ c ∈ cs.getLast?, Text.isWhiteSpace c = false) : Text.trim cs = cs := by
  have hdrop : ∀ cs : List Char, (∀ c ∈ cs.head?, Text.isWhiteSpace c = false) →
      cs.dropWhile Text.isWhiteSpace = cs := by
    intro cs hcs
    cases cs with
    | nil => rfl
    | cons c cs => rw [List.dropWhile_cons_of_neg (by simp [hcs c rfl])]
  rw [Text.trim, hdrop cs hfirst, hdrop, List.reverse_reverse]
  rwa [List.head?_reverse]

theorem isWhiteSpace_toDigits {n : ℕ} {c : Char} (h : c ∈ Nat.toDigits 10 n) :
    Text.isWhiteSpace c = false :=
  Text.isWhiteSpace_of_isAsciiDigit (Text.isAsciiDigit_digits h)

/-- There is no white space around a socket address. -/
theorem SocketAddr.trim_display (a : SocketAddr) :
    Text.trim a.display.toList = a.display.toList := by
  have hport : ∀ (cs : List Char) (port : UInt16),
      ∀ c ∈ (cs ++ (toString port).toList).getLast?, Text.isWhiteSpace c = false := by
    intro cs port c hc
    have hdigits : (toString port).toList = Nat.toDigits 10 port.toNat := Nat.toList_repr
    rw [hdigits, List.getLast?_append_of_ne_nil _ Nat.toDigits_ne_nil] at hc
    exact isWhiteSpace_toDigits (List.mem_of_getLast? hc)
  cases a with
  | v4 ip port =>
    obtain ⟨o, os, -, -, htext⟩ := ip.toList_display
    have hdisplay : (SocketAddr.v4 ip port).display.toList =
        (Nat.toDigits 10 o ++ dots os ++ [':']) ++ (toString port).toList := by
      rw [display, String.toList_append, String.toList_append, htext]
      rfl
    rw [hdisplay]
    refine trim_of_ends ?_ (hport _ port)
    intro c hc
    rw [List.append_assoc, List.append_assoc, List.head?_append_of_ne_nil _ Nat.toDigits_ne_nil]
      at hc
    exact isWhiteSpace_toDigits (List.mem_of_head? hc)
  | v6 ip scopeId port =>
    have hdisplay : ∃ cs, (SocketAddr.v6 ip scopeId port).display.toList =
        ('[' :: cs) ++ (toString port).toList := by
      refine ⟨ip.display.toList ++ (if scopeId = 0 then "" else "%" ++ toString scopeId).toList ++
        [']', ':'], ?_⟩
      have hopen : "[".toList = ['['] := rfl
      have hclose : "]:".toList = [']', ':'] := rfl
      rw [display]
      simp only [String.toList_append, List.append_assoc, List.cons_append, List.nil_append,
        hopen, hclose]
    obtain ⟨cs, hdisplay⟩ := hdisplay
    rw [hdisplay]
    refine trim_of_ends ?_ (hport _ port)
    rintro c ⟨⟩
    decide

end Net
