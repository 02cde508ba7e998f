import Anonet.Library.Bytes
import Anonet.Library.Text
import Mathlib.Tactic.Common
import Mathlib.Data.List.Basic
import Mathlib.Algebra.Group.Nat.Defs
import Mathlib.Data.Nat.Notation

/-!
# Internet addresses

IPv4 and IPv6 addresses, their textual forms, and address prefixes.

* `IpAddr.parse` — the standard library's `FromStr`: four decimal octets
  without leading zeros, or hexadecimal groups with at most one `::` and an
  optional trailing dotted quad.
* `IpAddr.display` — the standard library's `Display`.
* `SocketAddr.parse`, `SocketAddr.display` — the same with a port, on one line.
* `Prefix.contains` — membership in an address range written as
  `address/length`; `Prefix.contains_iff` says which interval that is.
-/

namespace Net

/-- An IPv4 address. -/
structure Ipv4Addr where
  bits : BitVec 32
  deriving DecidableEq

/-- An IPv6 address. -/
structure Ipv6Addr where
  bits : BitVec 128
  deriving DecidableEq

inductive IpAddr
  | v4 (addr : Ipv4Addr)
  | v6 (addr : Ipv6Addr)
  deriving DecidableEq

/-- The address whose octets, in network order, are `bs`. -/
def Ipv4Addr.ofOctets (bs : List UInt8) : Ipv4Addr := ⟨BitVec.ofNat 32 (Bytes.beNat bs)⟩

/-- The address whose sixteen octets, in network order, are `bs`. -/
def Ipv6Addr.ofOctets (bs : List UInt8) : Ipv6Addr := ⟨BitVec.ofNat 128 (Bytes.beNat bs)⟩

/-- The address whose eight 16-bit segments are `gs`. -/
def Ipv6Addr.ofSegments (gs : List ℕ) : Ipv6Addr :=
  ⟨BitVec.ofNat 128 (gs.foldl (fun n g => n * 65536 + g) 0)⟩

def Ipv4Addr.octets (a : Ipv4Addr) : List ℕ :=
  [a.bits.toNat / 2 ^ 24, a.bits.toNat / 2 ^ 16 % 256, a.bits.toNat / 2 ^ 8 % 256,
    a.bits.toNat % 256]

def Ipv6Addr.segments (a : Ipv6Addr) : List ℕ :=
  (List.range 8).map fun i => a.bits.toNat / 2 ^ (16 * (7 - i)) % 65536

/-- The octets of an address, in network order. -/
def IpAddr.octets : IpAddr → List UInt8
  | .v4 a => Bytes.beBytes 4 a.bits.toNat
  | .v6 a => Bytes.beBytes 16 a.bits.toNat

def IpAddr.isIpv6 : IpAddr → Bool
  | .v4 _ => false
  | .v6 _ => true

/-- `127.0.0.1` and `::1`. -/
def Ipv4Addr.localhost : Ipv4Addr := .ofOctets [127, 0, 0, 1]

def Ipv6Addr.localhost : Ipv6Addr := .ofSegments [0, 0, 0, 0, 0, 0, 0, 1]

/-! ## Reading the textual form

A reader takes characters off the front and returns what is left, or fails
without consuming anything. -/

/-- `char::to_digit`. -/
def digit? (radix : ℕ) (c : Char) : Option ℕ :=
  let d :=
    if '0' ≤ c ∧ c ≤ '9' then some (c.toNat - '0'.toNat)
    else if 'a' ≤ c ∧ c ≤ 'z' then some (c.toNat - 'a'.toNat + 10)
    else if 'A' ≤ c ∧ c ≤ 'Z' then some (c.toNat - 'A'.toNat + 10)
    else none
  d.filter (· < radix)

/-- The longest run of digits at the front. -/
def readDigits (radix : ℕ) : List Char → List ℕ × List Char
  | [] => ([], [])
  | c :: cs =>
    match digit? radix c with
    | some d => let (ds, rest) := readDigits radix cs; (d :: ds, rest)
    | none => ([], c :: cs)

/-- A number below `bound`, of at most `maxDigits` digits when that is given,
and without a leading zero (other than `0` itself) unless `allowZeroPrefix`. -/
def readNumber (radix : ℕ) (maxDigits : Option ℕ) (allowZeroPrefix : Bool) (bound : ℕ)
    (cs : List Char) : Option (ℕ × List Char) :=
  let (ds, rest) := readDigits radix cs
  let value := ds.foldl (fun n d => n * radix + d) 0
  if ds = [] ∨ maxDigits.any (· < ds.length) then none
  else if allowZeroPrefix = false ∧ ds.head? = some 0 ∧ 1 < ds.length then none
  else if value < bound then some (value, rest)
  else none

def readGivenChar (c : Char) : List Char → Option (List Char)
  | d :: rest => if d = c then some rest else none
  | [] => none

/-- The separator in front of every item but the first. -/
def readSeparator (sep : Char) (first : Bool) (cs : List Char) : Option (List Char) :=
  if first then some cs else readGivenChar sep cs

/-- `n` dotted decimal octets. -/
def readOctets : ℕ → Bool → List Char → Option (List UInt8 × List Char)
  | 0, _, cs => some ([], cs)
  | n + 1, first, cs => do
    let cs ← readSeparator '.' first cs
    let (o, cs) ← readNumber 10 (some 3) false 256 cs
    let (os, cs) ← readOctets n false cs
    return (UInt8.ofNat o :: os, cs)

def readIpv4Addr (cs : List Char) : Option (Ipv4Addr × List Char) := do
  let (os, cs) ← readOctets 4 true cs
  return (.ofOctets os, cs)

/-- Up to `room` colon-separated groups: the groups read, whether they end in a
dotted quad, and what is left. -/
def readGroups : ℕ → Bool → List Char → List ℕ × Bool × List Char
  | 0, _, cs => ([], false, cs)
  | room + 1, first, cs =>
    let quad := if 1 ≤ room then (readSeparator ':' first cs).bind readIpv4Addr else none
    match quad with
    | some (a, rest) => ([a.bits.toNat / 65536, a.bits.toNat % 65536], true, rest)
    | none =>
      match (readSeparator ':' first cs).bind (readNumber 16 (some 4) true 65536) with
      | some (g, rest) =>
        let (gs, v4, rest) := readGroups room false rest
        (g :: gs, v4, rest)
      | none => ([], false, cs)

def readIpv6Addr (cs : List Char) : Option (Ipv6Addr × List Char) :=
  let (head, headV4, cs) := readGroups 8 true cs
  if head.length = 8 then some (.ofSegments head, cs)
  else if headV4 then none
  else do
    let cs ← readGivenChar ':' cs
    let cs ← readGivenChar ':' cs
    let (tail, _, cs) := readGroups (8 - (head.length + 1)) true cs
    let zeros := List.replicate (8 - head.length - tail.length) 0
    return (.ofSegments (head ++ zeros ++ tail), cs)

def readIpAddr (cs : List Char) : Option (IpAddr × List Char) :=
  match readIpv4Addr cs with
  | some (a, rest) => some (.v4 a, rest)
  | none => (readIpv6Addr cs).map fun (a, rest) => (.v6 a, rest)

/-- `s.parse::<IpAddr>().ok()`: the whole string is one address. -/
def IpAddr.parse (s : String) : Option IpAddr :=
  match readIpAddr s.toList with
  | some (a, []) => some a
  | _ => none

/-- The text is that of an IPv4 or IPv6 address. -/
def IpAddr.IsText (s : String) : Prop := (IpAddr.parse s).isSome

instance (s : String) : Decidable (IpAddr.IsText s) := inferInstanceAs (Decidable (_ = true))

example : IpAddr.parse "1.2.3.4" = some (.v4 (.ofOctets [1, 2, 3, 4])) := by decide

example : IpAddr.parse "fe80::1.2.3.4" =
    some (.v6 (.ofSegments [0xfe80, 0, 0, 0, 0, 0, 0x102, 0x304])) := by decide

example : IpAddr.parse "01.2.3.4" = none ∧ IpAddr.parse "1.2.3.4.5" = none ∧
    IpAddr.parse "1:2:3:4:5:6:7" = none := by decide

/-! ## Printing -/

def Ipv4Addr.display (a : Ipv4Addr) : String :=
  ".".intercalate (a.octets.map toString)

/-- The first longest run of zero segments: where it starts and how long it is.
`current` is the run that ends just before segment `i`. -/
def longestZeroRun : List ℕ → ℕ → ℕ × ℕ → ℕ × ℕ → ℕ × ℕ
  | [], _, _, longest => longest
  | g :: gs, i, current, longest =>
    if g = 0 then
      let current := if current.2 = 0 then (i, 1) else (current.1, current.2 + 1)
      longestZeroRun gs (i + 1) current (if longest.2 < current.2 then current else longest)
    else longestZeroRun gs (i + 1) (0, 0) longest

/-- Lower-case hexadecimal, without leading zeros. -/
def hex (n : ℕ) : String := String.ofList (Nat.toDigits 16 n)

def displaySegments (gs : List ℕ) : String := ":".intercalate (gs.map hex)

def Ipv6Addr.display (a : Ipv6Addr) : String :=
  let gs := a.segments
  if gs.take 6 = [0, 0, 0, 0, 0, 0xffff] then
    "::ffff:" ++ Ipv4Addr.display ⟨a.bits.truncate 32⟩
  else
    let (start, len) := longestZeroRun gs 0 (0, 0) (0, 0)
    if 1 < len then
      displaySegments (gs.take start) ++ "::" ++ displaySegments (gs.drop (start + len))
    else displaySegments gs

def IpAddr.display : IpAddr → String
  | .v4 a => a.display
  | .v6 a => a.display

instance : ToString IpAddr := ⟨IpAddr.display⟩

/-! ## Socket addresses -/

/-- An address and a port; an IPv6 address may carry a scope. -/
inductive SocketAddr
  | v4 (ip : Ipv4Addr) (port : UInt16)
  | v6 (ip : Ipv6Addr) (scopeId : UInt32) (port : UInt16)
  deriving DecidableEq

def readPort (cs : List Char) : Option (UInt16 × List Char) := do
  let cs ← readGivenChar ':' cs
  let (port, cs) ← readNumber 10 none true UInt16.size cs
  return (UInt16.ofNat port, cs)

def readScopeId (cs : List Char) : Option (UInt32 × List Char) := do
  let cs ← readGivenChar '%' cs
  let (scope, cs) ← readNumber 10 none true UInt32.size cs
  return (UInt32.ofNat scope, cs)

def readSocketAddrV4 (cs : List Char) : Option (SocketAddr × List Char) := do
  let (ip, cs) ← readIpv4Addr cs
  let (port, cs) ← readPort cs
  return (.v4 ip port, cs)

def readSocketAddrV6 (cs : List Char) : Option (SocketAddr × List Char) := do
  let cs ← readGivenChar '[' cs
  let (ip, cs) ← readIpv6Addr cs
  let (scopeId, cs) := (readScopeId cs).getD (0, cs)
  let cs ← readGivenChar ']' cs
  let (port, cs) ← readPort cs
  return (.v6 ip scopeId port, cs)

/-- `s.parse::<SocketAddr>().ok()`. -/
def SocketAddr.parse (cs : List Char) : Option SocketAddr :=
  match (readSocketAddrV4 cs).or (readSocketAddrV6 cs) with
  | some (a, []) => some a
  | _ => none

def SocketAddr.display : SocketAddr → String
  | .v4 ip port => ip.display ++ ":" ++ toString port
  | .v6 ip scopeId port =>
    let zone := if scopeId = 0 then "" else "%" ++ toString scopeId
    "[" ++ ip.display ++ zone ++ "]:" ++ toString port

instance : ToString SocketAddr := ⟨SocketAddr.display⟩

example : SocketAddr.parse "127.0.0.1:9535".toList = some (.v4 .localhost 9535) ∧
    SocketAddr.parse "[::1]:53".toList = some (.v6 .localhost 0 53) ∧
    SocketAddr.parse "127.0.0.1".toList = none := by decide

/-! ## One line -/

theorem newline_notMem_toString (n : ℕ) : '\n' ∉ (toString n).toList := by
  simp [Text.newline_notMem_toDigits]

/-- Hexadecimal groups have no characters but their digits and the colons. -/
theorem notMem_displaySegments {c : Char} (hcolon : c ≠ ':')
    (hdigits : ∀ g, c ∉ Nat.toDigits 16 g) (gs : List ℕ) : c ∉ (displaySegments gs).toList := by
  rw [displaySegments, String.toList_intercalate]
  refine Text.notMem_intercalate (by simpa using hcolon) ?_
  intro p hp
  simp only [List.map_map, List.mem_map, Function.comp_apply] at hp
  obtain ⟨g, -, rfl⟩ := hp
  simpa only [Function.comp_apply, hex, String.toList_ofList] using hdigits g

theorem newline_notMem_displaySegments (gs : List ℕ) : '\n' ∉ (displaySegments gs).toList :=
  notMem_displaySegments (by decide) (Text.newline_notMem_toDigits (by decide)) gs

theorem Ipv4Addr.newline_notMem_display (a : Ipv4Addr) : '\n' ∉ a.display.toList := by
  rw [display, String.toList_intercalate]
  refine Text.notMem_intercalate (by decide) ?_
  intro p hp
  simp only [List.map_map, List.mem_map, Function.comp_apply] at hp
  obtain ⟨o, -, rfl⟩ := hp
  exact newline_notMem_toString o

theorem Ipv6Addr.newline_notMem_display (a : Ipv6Addr) : '\n' ∉ a.display.toList := by
  unfold display
  dsimp only
  split
  · simp [Ipv4Addr.newline_notMem_display]
  · split
    · simp [newline_notMem_displaySegments]
    · exact newline_notMem_displaySegments _

/-- A socket address is written on one line. -/
theorem SocketAddr.newline_notMem_display (a : SocketAddr) : '\n' ∉ a.display.toList := by
  cases a with
  | v4 ip port =>
    have hport : '\n' ∉ (toString port).toList := newline_notMem_toString port.toNat
    simp [display, ip.newline_notMem_display, hport]
  | v6 ip scopeId port =>
    have hport : '\n' ∉ (toString port).toList := newline_notMem_toString port.toNat
    have hscope : '\n' ∉ (toString scopeId).toList := newline_notMem_toString scopeId.toNat
    unfold display
    dsimp only
    split <;> simp [ip.newline_notMem_display, hport, hscope]

/-! ## Prefixes -/

/-- An address range of a given width, written `base/length`. -/
structure Prefix (w : ℕ) where
  base : BitVec w
  length : ℕ
  deriving DecidableEq

/-- The addresses that agree with `base` on the first `length` bits. -/
def Prefix.contains {w : ℕ} (p : Prefix w) (a : BitVec w) : Bool :=
  a.toNat / 2 ^ (w - p.length) = p.base.toNat / 2 ^ (w - p.length)

/-- **The interval a prefix stands for**, when its base has no host bits set. -/
theorem Prefix.contains_iff {w : ℕ} {p : Prefix w} (h : 2 ^ (w - p.length) ∣ p.base.toNat)
    (a : BitVec w) :
    p.contains a = true ↔
      p.base.toNat ≤ a.toNat ∧ a.toNat < p.base.toNat + 2 ^ (w - p.length) := by
  obtain ⟨k, hk⟩ := h
  have hpos : 0 < 2 ^ (w - p.length) := Nat.two_pow_pos _
  rw [Prefix.contains, decide_eq_true_iff, hk, Nat.mul_div_cancel_left k hpos,
    Nat.div_eq_iff hpos, Nat.mul_comm k]
  omega

end Net
