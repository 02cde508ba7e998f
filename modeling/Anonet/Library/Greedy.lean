import Mathlib.Data.List.Nodup
import Mathlib.Tactic.Common

/-!
# Greedy partitions of a history

A history grows by one item at a time and is cut into groups as it grows: an item
joins the latest group, unless that group is closed to it.  Histories and groups
are kept latest first.

* `greedy` — the groups; `flatten_greedy` says that nothing is lost.
* `label` — the items of each group under the group's own label.
* `Greedily` — the same rule told item by item, for a history whose items carry
  labels already: a label is fresh where the current group is closed, and the
  current one elsewhere.
* `exists_label` — **a history labelled by that rule is its greedy partition, each
  group under a label of its own.**
-/

namespace Greedy

variable {α β : Type*}

/-! ## Groups -/

section Groups

variable (closed : List α → α → Prop) [∀ g a, Decidable (closed g a)]

/-- One more item. -/
def place (a : α) : List (List α) → List (List α)
  | [] => [[a]]
  | g :: gs => if closed g a then [a] :: g :: gs else (a :: g) :: gs

/-- The groups of a history. -/
def greedy (l : List α) : List (List α) := l.foldr (place closed) []

@[simp] theorem greedy_nil : greedy closed [] = [] := rfl

@[simp] theorem greedy_cons (a : α) (l : List α) :
    greedy closed (a :: l) = place closed a (greedy closed l) := rfl

theorem flatten_place (a : α) (gs : List (List α)) :
    (place closed a gs).flatten = a :: gs.flatten := by
  cases gs with
  | nil => rfl
  | cons g gs =>
    rw [place]
    split <;> simp

theorem flatten_greedy (l : List α) : (greedy closed l).flatten = l := by
  induction l with
  | nil => rfl
  | cons a l ih => rw [greedy_cons, flatten_place, ih]

theorem eq_nil_of_greedy {closed : List α → α → Prop} [∀ g a, Decidable (closed g a)]
    {h : List (α × β)} (hnil : greedy closed (h.map Prod.fst) = []) : h = [] := by
  have hflat := flatten_greedy closed (h.map Prod.fst)
  rw [hnil] at hflat
  exact List.map_eq_nil_iff.mp hflat.symm

end Groups

/-! ## Labels -/

/-- The items of each group, with the group's label. -/
def label : List (List α) → List β → List (α × β)
  | g :: gs, b :: bs => g.map (·, b) ++ label gs bs
  | _, _ => []

@[simp] theorem label_cons (g : List α) (gs : List (List α)) (b : β) (bs : List β) :
    label (g :: gs) (b :: bs) = g.map (·, b) ++ label gs bs := rfl

/-- The labels of the groups, latest first. -/
structure Labels (closed : List α → α → Prop) [∀ g a, Decidable (closed g a)]
    (h : List (α × β)) (labels : List β) : Prop where
  nodup : labels.Nodup
  mem : ∀ b ∈ labels, b ∈ h.map Prod.snd
  head : labels.head? = h.head?.map Prod.snd
  eq : h = label (greedy closed (h.map Prod.fst)) labels

section Labels

variable {closed : List α → α → Prop} [∀ g a, Decidable (closed g a)] {a : α} {b : β}
  {h : List (α × β)} {labels : List β} {g : List α} {gs : List (List α)}

/-- An item that opens a group, under a fresh label. -/
theorem Labels.fresh (hl : Labels closed h labels) (hgs : greedy closed (h.map Prod.fst) = g :: gs)
    (hclosed : closed g a) (hb : b ∉ h.map Prod.snd) : Labels closed ((a, b) :: h) (b :: labels) := by
  refine ⟨List.nodup_cons.mpr ⟨fun hmem => hb (hl.mem b hmem), hl.nodup⟩, ?_, rfl, ?_⟩
  · intro c hc
    exact List.mem_cons.mpr ((List.mem_cons.mp hc).imp_right (hl.mem c))
  · have heq := hl.eq
    rw [hgs] at heq
    rw [List.map_cons, greedy_cons, hgs, place, if_pos hclosed, label_cons, ← heq]
    rfl

/-- One more item of the latest group, under its label. -/
theorem Labels.again (hl : Labels closed h labels) (hgs : greedy closed (h.map Prod.fst) = g :: gs)
    (hclosed : ¬ closed g a) (hb : h.head?.map Prod.snd = some b) :
    Labels closed ((a, b) :: h) labels := by
  have hhead : labels.head? = some b := hl.head.trans hb
  refine ⟨hl.nodup, fun c hc => List.mem_cons_of_mem b (hl.mem c hc), hhead, ?_⟩
  cases labels with
  | nil => cases hhead
  | cons c labels =>
    obtain rfl : c = b := Option.some.inj hhead
    have heq := hl.eq
    rw [hgs, label_cons] at heq
    rw [List.map_cons, greedy_cons, hgs, place, if_neg hclosed, label_cons, List.map_cons,
      List.cons_append, ← heq]

end Labels

section Current

variable [DecidableEq β]

/-- The items under the latest label. -/
def current : List (α × β) → List α
  | [] => []
  | (a, b) :: h => a :: (h.filter (·.2 = b)).map Prod.fst

variable {a : α} {b : β} {h : List (α × β)}

/-- One more item under the current label. -/
theorem current_cons_of_head (hb : h.head?.map Prod.snd = some b) :
    current ((a, b) :: h) = a :: current h := by
  cases h with
  | nil => cases hb
  | cons x h =>
    obtain rfl : x.2 = b := Option.some.inj hb
    simp [current]

/-- The first item under a fresh label. -/
theorem current_cons_of_fresh (hb : b ∉ h.map Prod.snd) : current ((a, b) :: h) = [a] := by
  have hnone : h.filter (·.2 = b) = [] := by
    refine List.filter_eq_nil_iff.mpr ?_
    intro x hx hxb
    exact hb (List.mem_map.mpr ⟨x, hx, of_decide_eq_true hxb⟩)
  rw [current, hnone, List.map_nil]

theorem exists_of_mem_current (hmem : a ∈ current h) : ∃ x ∈ h, x.1 = a := by
  cases h with
  | nil => cases hmem
  | cons x h =>
    rcases List.mem_cons.mp hmem with rfl | hmem
    · exact ⟨x, List.mem_cons_self, rfl⟩
    · obtain ⟨y, hy, rfl⟩ := List.mem_map.mp hmem
      exact ⟨y, List.mem_cons_of_mem x (List.mem_filter.mp hy).1, rfl⟩

end Current

/-! ## The rule, item by item -/

section Rule

variable [DecidableEq β] (closed : List α → α → Prop)

/-- An item needs a label of its own: it is the first, or the current group is
closed to it. -/
def Due (h : List (α × β)) (a : α) : Prop := h = [] ∨ closed (current h) a

/-- A history each of whose items has a fresh label if it is due one and the
current label if not. -/
def Greedily : List (α × β) → Prop
  | [] => True
  | (a, b) :: h =>
    Greedily h ∧ (Due closed h a → b ∉ h.map Prod.snd) ∧
      (¬ Due closed h a → h.head?.map Prod.snd = some b)

variable {closed} [∀ g a, Decidable (closed g a)]

/-- The latest group is what carries the current label. -/
theorem head_greedy {h : List (α × β)} (hg : Greedily closed h) :
    (greedy closed (h.map Prod.fst)).head?.getD [] = current h := by
  induction h with
  | nil => rfl
  | cons x h ih =>
    obtain ⟨a, b⟩ := x
    obtain ⟨hg, hfresh, hcurrent⟩ := hg
    have hgroup := ih hg
    cases hgs : greedy closed (h.map Prod.fst) with
    | nil =>
      obtain rfl : h = [] := eq_nil_of_greedy hgs
      rfl
    | cons g gs =>
      rw [hgs] at hgroup
      obtain rfl : g = current h := hgroup
      have hne : h ≠ [] := by
        rintro rfl
        cases hgs
      rw [List.map_cons, greedy_cons, hgs, place]
      split
      · rename_i hclosed
        rw [current_cons_of_fresh (hfresh (.inr hclosed))]
        rfl
      · rename_i hclosed
        rw [current_cons_of_head (hcurrent fun hdue => hdue.elim hne hclosed)]
        rfl

/-- **What the rule comes to**: the history is its own greedy partition, each group
under a label of its own. -/
theorem exists_label {h : List (α × β)} (hg : Greedily closed h) :
    ∃ labels : List β, labels.Nodup ∧
      h = label (greedy closed (h.map Prod.fst)) labels := by
  have hlabels : ∃ labels : List β, Labels closed h labels := by
    induction h with
    | nil => exact ⟨[], .nil, by simp, rfl, rfl⟩
    | cons x h ih =>
      obtain ⟨a, b⟩ := x
      obtain ⟨hg, hfresh, hcurrent⟩ := hg
      obtain ⟨labels, hl⟩ := ih hg
      have hgroup := head_greedy hg
      cases hgs : greedy closed (h.map Prod.fst) with
      | nil =>
        obtain rfl : h = [] := eq_nil_of_greedy hgs
        exact ⟨[b], List.nodup_singleton b, by simp, rfl, rfl⟩
      | cons g gs =>
        rw [hgs] at hgroup
        obtain rfl : g = current h := hgroup
        by_cases hdue : Due closed h a
        · have hclosed : closed (current h) a := by
            refine hdue.resolve_left ?_
            rintro rfl
            cases hgs
          exact ⟨b :: labels, hl.fresh hgs hclosed (hfresh hdue)⟩
        · exact ⟨labels, hl.again hgs (fun hclosed => hdue (.inr hclosed)) (hcurrent hdue)⟩
  obtain ⟨labels, hl⟩ := hlabels
  exact ⟨labels, hl.nodup, hl.eq⟩

end Rule

end Greedy
