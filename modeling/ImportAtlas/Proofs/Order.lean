import ImportAtlas.FileRef
import Mathlib.Data.List.Nodup

/-!
# Sets as sorted lists

The sets of the library are in order, so they hold nothing twice, and they are told from their elements
alone.

Main results:

* `ImportAtlas.Order.InOrder.nodup` — a list in order holds nothing twice;
* `ImportAtlas.Order.InOrder.ext`, `ImportAtlas.SortedSet.ext` — sets with the same elements are equal;
* `ImportAtlas.Order.perm_sort` — sorting changes nothing but the order;
* `ImportAtlas.Order.filter_sort`, `ImportAtlas.Order.filter_sortedSet` — sorting and leaving out can be
  exchanged;
* `ImportAtlas.Order.dropRepeats_sort` — the set of some elements is what is left of the sorted list
  without repetitions.
-/

set_option autoImplicit false

namespace ImportAtlas.Order

variable {α : Type} [Ord α]

theorem InOrder.difference [DecidableEq α] {l : List α} (hl : InOrder l) (m : List α) :
    InOrder (difference l m) := hl.filter _

/-- Nothing is less than itself. -/
theorem compare_self_ne_lt [Std.LawfulEqOrd α] (a : α) : compare a a ≠ .lt := by
  have hself : compare a a = .eq := Std.ReflCmp.compare_self
  rw [hself]
  decide

theorem InOrder.nodup [Std.LawfulEqOrd α] {l : List α} (hl : InOrder l) : l.Nodup := by
  refine List.Pairwise.imp ?_ hl
  rintro a b h rfl
  exact compare_self_ne_lt a h

/-- Lists in order with the same elements are equal. -/
theorem InOrder.ext [Std.TransOrd α] [Std.LawfulEqOrd α] {l m : List α} (hl : InOrder l)
    (hm : InOrder m) (h : ∀ x, x ∈ l ↔ x ∈ m) : l = m := by
  refine List.Perm.eq_of_pairwise ?_ hl hm ((List.perm_ext_iff_of_nodup hl.nodup hm.nodup).2 h)
  -- of two elements, only one can be less than the other
  intro a b _ _ hab hba
  exact absurd (Std.TransCmp.lt_trans hab hba) (compare_self_ne_lt a)

/-! ### Sorting and dropping repetitions -/

theorem perm_insertSorted (a : α) (l : List α) : (insertSorted a l).Perm (a :: l) := by
  induction l with
  | nil => exact List.Perm.refl _
  | cons b l ih =>
      rw [insertSorted]
      split
      · exact (ih.cons b).trans (List.Perm.swap a b l)
      · exact List.Perm.refl _

/-- Sorting changes nothing but the order. -/
theorem perm_sort (l : List α) : (sort l).Perm l := by
  induction l with
  | nil => exact List.Perm.refl _
  | cons a l ih => exact (perm_insertSorted a (sort l)).trans (ih.cons a)

theorem pairwise_insertSorted [Std.TransOrd α] {l : List α}
    (hl : l.Pairwise fun a b => (compare a b).isLE = true) (a : α) :
    (insertSorted a l).Pairwise fun a b => (compare a b).isLE = true := by
  induction l with
  | nil => exact List.pairwise_singleton _ _
  | cons b l ih =>
      obtain ⟨hb, hl'⟩ := List.pairwise_cons.1 hl
      rw [insertSorted]
      split
      · next hgt =>
          refine List.pairwise_cons.2 ⟨?_, ih hl'⟩
          intro c hc
          rcases mem_insertSorted.1 hc with rfl | hc
          · rw [Std.OrientedCmp.lt_of_gt hgt]
            rfl
          · exact hb c hc
      · next hle =>
          have hab : (compare a b).isLE = true := by
            cases h : compare a b <;> simp_all
          refine List.pairwise_cons.2 ⟨?_, hl⟩
          intro c hc
          rcases List.mem_cons.1 hc with rfl | hc
          · exact hab
          · exact Std.TransCmp.isLE_trans hab (hb c hc)

/-- In a sorted list no element is greater than one that follows. -/
theorem pairwise_sort [Std.TransOrd α] (l : List α) :
    (sort l).Pairwise fun a b => (compare a b).isLE = true := by
  induction l with
  | nil => exact List.Pairwise.nil
  | cons a l ih => exact pairwise_insertSorted ih a

theorem dropRepeatsAfter_sublist (a : α) (l : List α) : (dropRepeatsAfter a l).Sublist l := by
  induction l generalizing a with
  | nil => exact List.Sublist.refl _
  | cons b l ih =>
      rw [dropRepeatsAfter]
      split
      · exact (ih a).cons b
      · exact (ih b).cons_cons b

theorem dropRepeats_sublist (l : List α) : (dropRepeats l).Sublist l := by
  cases l with
  | nil => exact List.Sublist.refl _
  | cons a l => exact (dropRepeatsAfter_sublist a l).cons_cons a

section

variable [Std.LawfulEqOrd α]

theorem mem_cons_dropRepeatsAfter {x a : α} {l : List α} :
    x ∈ a :: dropRepeatsAfter a l ↔ x ∈ a :: l := by
  induction l generalizing a with
  | nil => rfl
  | cons b l ih =>
      rw [dropRepeatsAfter]
      split
      · next h =>
          obtain rfl := Std.LawfulEqOrd.eq_of_compare h
          rw [ih]
          simp
      · rw [List.mem_cons, ih, List.mem_cons (b := a)]

theorem mem_dropRepeats {x : α} {l : List α} : x ∈ dropRepeats l ↔ x ∈ l := by
  cases l with
  | nil => rfl
  | cons a l => exact mem_cons_dropRepeatsAfter

theorem inOrder_dropRepeatsAfter [Std.TransOrd α] {a : α} {l : List α}
    (h : (a :: l).Pairwise fun a b => (compare a b).isLE = true) :
    InOrder (a :: dropRepeatsAfter a l) := by
  induction l generalizing a with
  | nil => exact List.pairwise_singleton _ _
  | cons b l ih =>
      obtain ⟨ha, hl⟩ := List.pairwise_cons.1 h
      rw [dropRepeatsAfter]
      split
      · next heq =>
          obtain rfl := Std.LawfulEqOrd.eq_of_compare heq
          exact ih hl
      · next hne =>
          have hlt : compare a b = .lt := by
            have hle := ha b (by simp)
            cases hcompare : compare a b <;> simp_all
          refine List.pairwise_cons.2 ⟨?_, ih hl⟩
          -- what follows `b` is greater than `b`, which is greater than `a`
          intro c hc
          rcases List.mem_cons.1 hc with rfl | hc
          · exact hlt
          · exact Std.TransCmp.lt_trans hlt ((List.pairwise_cons.1 (ih hl)).1 c hc)

/-- The set of some elements is what is left of the sorted list without repetitions. -/
theorem dropRepeats_sort [Std.TransOrd α] (l : List α) : dropRepeats (sort l) = sortedSet l := by
  have horder : InOrder (dropRepeats (sort l)) := by
    have hsorted := pairwise_sort l
    cases hsort : sort l with
    | nil => exact inOrder_nil
    | cons a rest =>
        rw [hsort] at hsorted
        exact inOrder_dropRepeatsAfter hsorted
  refine horder.ext (inOrder_sortedSet l) fun x => ?_
  rw [mem_dropRepeats, mem_sort, mem_sortedSet]

/-- Sorting what is left of a list leaves the same of the sorted list. -/
theorem filter_sort [Std.TransOrd α] (q : α → Bool) (l : List α) :
    (sort l).filter q = sort (l.filter q) := by
  refine List.Perm.eq_of_pairwise ?_ ((pairwise_sort l).filter q) (pairwise_sort (l.filter q))
    (((perm_sort l).filter q).trans (perm_sort (l.filter q)).symm)
  -- two elements of which neither is greater than the other are equal
  intro a b _ _ hab hba
  exact Std.LawfulEqOrd.eq_of_compare (Std.OrientedCmp.isLE_antisymm hab hba)

/-- What is left of a set is the set of what is left. -/
theorem filter_sortedSet [Std.TransOrd α] (q : α → Bool) (l : List α) :
    (sortedSet l).filter q = sortedSet (l.filter q) := by
  have horder : InOrder ((sortedSet l).filter q) := (inOrder_sortedSet l).filter q
  refine horder.ext (inOrder_sortedSet _) fun x => ?_
  simp only [List.mem_filter, mem_sortedSet]

/-- The same elements make the same set. -/
theorem sortedSet_congr [Std.TransOrd α] {l m : List α} (h : ∀ x, x ∈ l ↔ x ∈ m) :
    sortedSet l = sortedSet m := by
  refine (inOrder_sortedSet l).ext (inOrder_sortedSet m) fun x => ?_
  rw [mem_sortedSet, mem_sortedSet, h]

end

/-! ### Sorting by a key -/

section

variable {β : Type} [Ord β] {key : α → β} (hkey : ∀ a b, compare (key a) (key b) = compare a b)

include hkey

theorem map_insertSorted (a : α) (l : List α) :
    (insertSorted a l).map key = insertSorted (key a) (l.map key) := by
  induction l with
  | nil => rfl
  | cons b l ih =>
      rw [List.map_cons, insertSorted, insertSorted, hkey]
      split
      · rw [List.map_cons, ih]
      · rfl

theorem map_sort (l : List α) : (sort l).map key = sort (l.map key) := by
  induction l with
  | nil => rfl
  | cons a l ih =>
      calc (insertSorted a (sort l)).map key
          = insertSorted (key a) ((sort l).map key) := map_insertSorted hkey a (sort l)
        _ = sort ((a :: l).map key) := by rw [ih]; rfl

theorem map_dropRepeatsAfter (a : α) (l : List α) :
    (dropRepeatsAfter a l).map key = dropRepeatsAfter (key a) (l.map key) := by
  induction l generalizing a with
  | nil => rfl
  | cons b l ih =>
      rw [List.map_cons, dropRepeatsAfter, dropRepeatsAfter, hkey]
      split
      · exact ih a
      · rw [List.map_cons, ih]

theorem map_dropRepeats (l : List α) : (dropRepeats l).map key = dropRepeats (l.map key) := by
  cases l with
  | nil => rfl
  | cons a l => exact congrArg (key a :: ·) (map_dropRepeatsAfter hkey a l)

end

end ImportAtlas.Order

namespace ImportAtlas.SortedSet

/-- Sets with the same elements are equal. -/
theorem ext {α : Type} [Ord α] [Std.TransOrd α] [Std.LawfulEqOrd α] {s t : SortedSet α}
    (h : ∀ a, a ∈ s ↔ a ∈ t) : s = t := by
  obtain ⟨l, hl⟩ := s
  obtain ⟨m, hm⟩ := t
  obtain rfl : l = m := hl.ext hm h
  rfl

end ImportAtlas.SortedSet
