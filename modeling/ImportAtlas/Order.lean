/-!
# Sorted lists

Sets are kept as sorted lists without repetitions, and lists that are shown are sorted. Both are
built by insertion. A list is in order if each element is less than all that follow, and inserting
keeps a list in order.

Main definitions:

* `ImportAtlas.Order.insertSorted`, `ImportAtlas.Order.sort` — sorting that keeps what is repeated;
* `ImportAtlas.Order.insertNew`, `ImportAtlas.Order.sortedSet` — the sorted set of some elements;
* `ImportAtlas.Order.dropRepeats` — a list without elements that repeat the one before;
* `ImportAtlas.Order.InOrder` — each element is less than all that follow;
* `ImportAtlas.SortedSet` — a list in order, as a type of its own.

Main results:

* `ImportAtlas.Order.mem_sort`, `ImportAtlas.Order.mem_sortedSet` — nothing is lost or made up;
* `ImportAtlas.Order.InOrder.union`, `ImportAtlas.Order.inOrder_sortedSet` — the sets that are built
  are in order.
-/

set_option autoImplicit false

namespace ImportAtlas

namespace Order

variable {α : Type}

/-- Puts an element before the first one that is not less than it. -/
def insertSorted [Ord α] (a : α) : List α → List α
  | [] => [a]
  | b :: l => if compare a b = .gt then b :: insertSorted a l else a :: b :: l

/-- The elements of a list in order. -/
def sort [Ord α] (l : List α) : List α := l.foldr insertSorted []

/-- Puts an element in its place, unless it is there already. -/
def insertNew [Ord α] (a : α) : List α → List α
  | [] => [a]
  | b :: l =>
      match compare a b with
      | .lt => a :: b :: l
      | .eq => b :: l
      | .gt => b :: insertNew a l

/-- The elements of a list in order and without repetitions. -/
def sortedSet [Ord α] (l : List α) : List α := l.foldr insertNew []

/-- The elements of a list behind `a`, without those that repeat the one before. -/
def dropRepeatsAfter [Ord α] (a : α) : List α → List α
  | [] => []
  | b :: l => if compare a b = .eq then dropRepeatsAfter a l else b :: dropRepeatsAfter b l

/-- A list without elements that repeat the one before. -/
def dropRepeats [Ord α] : List α → List α
  | [] => []
  | a :: l => a :: dropRepeatsAfter a l

/-- The elements of both of two sets. -/
def union [Ord α] (l m : List α) : List α := l.foldr insertNew m

/-- The elements of a set that are not in another. -/
def difference [DecidableEq α] (l m : List α) : List α := l.filter (· ∉ m)

theorem mem_insertSorted [Ord α] {x a : α} {l : List α} :
    x ∈ insertSorted a l ↔ x = a ∨ x ∈ l := by
  induction l with
  | nil => simp [insertSorted]
  | cons b l ih =>
      unfold insertSorted
      split
      · simp only [List.mem_cons, ih]
        grind
      · simp

theorem mem_sort [Ord α] {x : α} {l : List α} : x ∈ sort l ↔ x ∈ l := by
  unfold sort
  induction l with
  | nil => simp
  | cons a l ih => simp [mem_insertSorted, ih]

theorem mem_insertNew [Ord α] [Std.LawfulEqOrd α] {x a : α} {l : List α} :
    x ∈ insertNew a l ↔ x = a ∨ x ∈ l := by
  induction l with
  | nil => simp [insertNew]
  | cons b l ih =>
      unfold insertNew
      split
      · simp
      · next h =>
          have := Std.LawfulEqOrd.eq_of_compare h
          simp only [List.mem_cons]
          grind
      · simp only [List.mem_cons, ih]
        grind

theorem mem_union [Ord α] [Std.LawfulEqOrd α] {x : α} {l m : List α} :
    x ∈ union l m ↔ x ∈ l ∨ x ∈ m := by
  unfold union
  induction l with
  | nil => simp
  | cons a l ih => simp [mem_insertNew, ih, or_assoc]

theorem mem_difference [DecidableEq α] {x : α} {l m : List α} :
    x ∈ difference l m ↔ x ∈ l ∧ x ∉ m := by
  simp [difference]

theorem mem_sortedSet [Ord α] [Std.LawfulEqOrd α] {x : α} {l : List α} :
    x ∈ sortedSet l ↔ x ∈ l := by
  rw [sortedSet, ← union, mem_union]
  simp

/-! ### Order -/

/-- Each element is less than all that follow. -/
def InOrder [Ord α] (l : List α) : Prop := l.Pairwise fun a b => compare a b = .lt

instance [Ord α] (l : List α) : Decidable (InOrder l) := inferInstanceAs (Decidable (l.Pairwise _))

theorem inOrder_nil [Ord α] : InOrder ([] : List α) := List.Pairwise.nil

theorem InOrder.insertNew [Ord α] [Std.TransOrd α] [Std.LawfulEqOrd α] {l : List α} (hl : InOrder l)
    (a : α) : InOrder (insertNew a l) := by
  induction l with
  | nil => exact List.pairwise_singleton _ a
  | cons b l ih =>
      obtain ⟨hb, hl'⟩ := List.pairwise_cons.1 hl
      rw [Order.insertNew]
      split
      · next h =>
          refine List.pairwise_cons.2 ⟨?_, hl⟩
          intro c hc
          rcases List.mem_cons.1 hc with rfl | hc
          · exact h
          · exact Std.TransCmp.lt_trans h (hb c hc)
      · exact hl
      · next h =>
          refine List.pairwise_cons.2 ⟨?_, ih hl'⟩
          intro c hc
          rcases mem_insertNew.1 hc with rfl | hc
          · exact Std.OrientedCmp.lt_of_gt h
          · exact hb c hc

theorem InOrder.union [Ord α] [Std.TransOrd α] [Std.LawfulEqOrd α] {m : List α} (hm : InOrder m)
    (l : List α) : InOrder (union l m) := by
  induction l with
  | nil => exact hm
  | cons a l ih => exact ih.insertNew a

theorem inOrder_sortedSet [Ord α] [Std.TransOrd α] [Std.LawfulEqOrd α] (l : List α) :
    InOrder (sortedSet l) := inOrder_nil.union l

end Order

/-! ### Sets -/

/-- A set: its elements in order. -/
structure SortedSet (α : Type) [Ord α] where
  toList : List α
  inOrder : Order.InOrder toList
deriving DecidableEq, Repr

namespace SortedSet

variable {α : Type} [Ord α]

instance : EmptyCollection (SortedSet α) := ⟨⟨[], Order.inOrder_nil⟩⟩

instance : Membership α (SortedSet α) := ⟨fun s a => a ∈ s.toList⟩

@[simp] theorem mem_toList {a : α} {s : SortedSet α} : a ∈ s.toList ↔ a ∈ s := Iff.rfl

@[simp] theorem not_mem_empty (a : α) : a ∉ (∅ : SortedSet α) := List.not_mem_nil

variable [Std.TransOrd α] [Std.LawfulEqOrd α]

/-- The set of some elements. -/
def ofList (l : List α) : SortedSet α := ⟨Order.sortedSet l, Order.inOrder_sortedSet l⟩

/-- The set with more elements. -/
def insertAll (l : List α) (s : SortedSet α) : SortedSet α :=
  ⟨Order.union l s.toList, s.inOrder.union l⟩

theorem mem_ofList {a : α} {l : List α} : a ∈ ofList l ↔ a ∈ l := Order.mem_sortedSet

theorem mem_insertAll {a : α} {l : List α} {s : SortedSet α} :
    a ∈ s.insertAll l ↔ a ∈ l ∨ a ∈ s := Order.mem_union

end SortedSet

end ImportAtlas
