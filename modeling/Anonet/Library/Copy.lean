import Anonet.Library.Machine

/-!
# Copying a stream

A task that reads a stream to its end and writes what it has read.  The copy itself belongs
to an I/O library, so it is a parameter: a machine its caller can look at, of which no more
is known than its documentation says.

* `Copier` — a copy as its caller sees it, and `Copier.machine`.
* `Copier.Documented` — what it promises about every state it gets to.
* `BufferCopy` — a copy through one buffer, which reads and writes pieces of any size.
* `BufferCopy.Carries` — its invariant: delivered, buffered and unread items are the source,
  in order, and the buffer is bounded.
* `documented_copier` — **a copy through one buffer keeps the promise**.
-/

namespace Anonet

/-- A copy of a stream of `β`, as its caller sees it. -/
structure Copier (β : Type) where
  State : Type
  Action : Type
  /-- Before the first step of a copy of `source`. -/
  new (source : List β) : State
  step : State → Action → Option State
  /-- What the writer has got. -/
  delivered : State → List β
  /-- What has been read and not written yet. -/
  held : State → List β
  /-- The copy has returned without an error. -/
  done : State → Bool

namespace Copier

variable {β : Type}

def machine (C : Copier β) : Machine C.State C.Action where
  step := C.step

/-- A state of a copy of `source`. -/
def Reaches (C : Copier β) (source : List β) (c : C.State) : Prop :=
  C.machine.Reach Machine.anyStep (C.new source) c

/-- What the documentation of a copy promises. -/
structure Documented (C : Copier β) (capacity : ℕ) : Prop where
  /-- It writes what it reads, in the order in which it reads it. -/
  ordered : ∀ source c, C.Reaches source c → C.delivered c ++ C.held c <+: source
  /-- It returns when everything up to the end of the reader has been written. -/
  complete : ∀ source c, C.Reaches source c → C.done c = true → C.delivered c = source
  /-- It reads ahead as far as its buffer goes. -/
  bounded : ∀ source c, C.Reaches source c → (C.held c).length ≤ capacity

section Documented

variable {C : Copier β} {capacity : ℕ} {source : List β} {c c' : C.State} {a : C.Action}

theorem reaches_new (C : Copier β) (source : List β) : C.Reaches source (C.new source) := .init

theorem Reaches.step (h : C.Reaches source c) (hs : C.step c a = some c') :
    C.Reaches source c' :=
  Machine.Reach.step h trivial hs

/-- What is delivered is the front of the source. -/
theorem Documented.delivered_prefix (hC : C.Documented capacity) (h : C.Reaches source c) :
    C.delivered c <+: source :=
  (List.prefix_append _ _).trans (hC.ordered source c h)

end Documented

end Copier

/-! ## A copy through one buffer -/

structure BufferCopy (β : Type) where
  unread : List β
  buffer : List β
  /-- The space behind what was read; it is had back once the buffer is written out. -/
  room : ℕ
  readDone : Bool
  delivered : List β
  done : Bool

inductive BufferAction
  /-- The reader yields `n` items, `0` at its end. -/
  | read (n : ℕ)
  /-- The writer takes `n` items. -/
  | write (n : ℕ)
  | flush

namespace BufferCopy

variable {β : Type}

/-- Nothing of `source` is read yet. -/
def new (capacity : ℕ) (source : List β) : BufferCopy β := ⟨source, [], capacity, false, [], false⟩

def step (capacity : ℕ) (c : BufferCopy β) : BufferAction → Option (BufferCopy β)
  | .read n =>
    if c.readDone = false ∧ 0 < c.room ∧ n ≤ c.room ∧ n ≤ c.unread.length ∧
        (n = 0 ↔ c.unread.length = 0) then
      some { c with
        unread := c.unread.drop n
        buffer := c.buffer ++ c.unread.take n
        room := c.room - n
        readDone := n = 0 }
    else none
  | .write n =>
    if 0 < n ∧ n ≤ c.buffer.length then
      some { c with
        buffer := c.buffer.drop n
        room := if n = c.buffer.length then capacity else c.room
        delivered := c.delivered ++ c.buffer.take n }
    else none
  | .flush =>
    if c.readDone = true ∧ c.buffer.length = 0 then some { c with done := true } else none

def copier (β : Type) (capacity : ℕ) : Copier β where
  State := BufferCopy β
  Action := BufferAction
  new := new capacity
  step := step capacity
  delivered := delivered
  held := buffer
  done := done

/-- The items of `source` are delivered, buffered or unread, in this order. -/
structure Carries (capacity : ℕ) (source : List β) (c : BufferCopy β) : Prop where
  whole : c.delivered ++ (c.buffer ++ c.unread) = source
  bounded : c.buffer.length + c.room ≤ capacity
  atEnd : c.readDone = true → c.unread = []
  flushed : c.done = true → c.readDone = true ∧ c.buffer = []

section Step

variable {capacity : ℕ} {source : List β} {c c' : BufferCopy β} {a : BufferAction}

theorem carries_new (capacity : ℕ) (source : List β) :
    (new capacity source).Carries capacity source where
  whole := rfl
  bounded := Nat.le_of_eq (Nat.zero_add capacity)
  atEnd h := by cases h
  flushed h := by cases h

/-- **The step lemma**: no item is lost, added or moved. -/
theorem Carries.step (h : c.Carries capacity source) (hs : c.step capacity a = some c') :
    c'.Carries capacity source := by
  have hbounded := h.bounded
  cases a with
  | read n =>
    rw [BufferCopy.step, Option.ite_none_right_eq_some] at hs
    obtain ⟨⟨hdone, -, hroom, hlen, hend⟩, ⟨⟩⟩ := hs
    refine ⟨?_, ?_, ?_, ?_⟩
    · rw [← h.whole, List.append_assoc, List.take_append_drop]
    · simp only [List.length_append, List.length_take]
      omega
    · intro hn
      have hnone : c.unread.length = 0 := hend.mp (of_decide_eq_true hn)
      rw [List.length_eq_zero_iff.mp hnone, List.drop_nil]
    · intro hflushed
      cases hdone.symm.trans (h.flushed hflushed).1
  | write n =>
    rw [BufferCopy.step, Option.ite_none_right_eq_some] at hs
    obtain ⟨⟨hpos, hlen⟩, ⟨⟩⟩ := hs
    refine ⟨?_, ?_, h.atEnd, ?_⟩
    · rw [← h.whole, List.append_assoc, ← List.append_assoc (c.buffer.take n),
        List.take_append_drop]
    · simp only [List.length_drop]
      split <;> omega
    · intro hflushed
      rw [(h.flushed hflushed).2, List.length_nil] at hlen
      exact absurd hpos (Nat.not_lt_of_le hlen)
  | flush =>
    rw [BufferCopy.step, Option.ite_none_right_eq_some] at hs
    obtain ⟨⟨hdone, hempty⟩, ⟨⟩⟩ := hs
    exact ⟨h.whole, h.bounded, h.atEnd, fun _ => ⟨hdone, List.length_eq_zero_iff.mp hempty⟩⟩

theorem carries_of_reaches (h : (copier β capacity).Reaches source c) :
    Carries capacity source c :=
  Machine.Reach.invariant (carries_new capacity source) (fun _ _ _ hc _ hs => hc.step hs) h

end Step

/-- **A copy through one buffer keeps the promise.** -/
theorem documented_copier (β : Type) (capacity : ℕ) :
    (copier β capacity).Documented capacity where
  ordered source c h := by
    refine ⟨c.unread, ?_⟩
    rw [← (carries_of_reaches h).whole]
    exact List.append_assoc _ _ _
  complete source c h hdone := by
    have hc := carries_of_reaches h
    obtain ⟨hread, hbuffer⟩ := hc.flushed hdone
    have hwhole := hc.whole
    rw [hbuffer, hc.atEnd hread, List.append_nil, List.append_nil] at hwhole
    exact hwhole
  bounded source c h :=
    Nat.le_trans (Nat.le_add_right _ _) (carries_of_reaches h).bounded

end BufferCopy

end Anonet
