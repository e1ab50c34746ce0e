import ImportAtlas.Proofs.Python.Visits
import ImportAtlas.Python.Check
import Mathlib.Data.List.Basic

/-!
# Import nodes of a tree

The import statements of a tree are those of its import nodes, which are not searched for others. A tree
all of whose nodes are of harmless kinds is accepted.

Main definitions:

* `ImportAtlas.Python.Tree.importNodes` — the import nodes of a tree in the order of the source;
* `ImportAtlas.Python.Kind.isHarmless` — the kinds of nodes that are accepted everywhere;
* `ImportAtlas.Python.Tree.IsPart` — a tree that is part of an import statement.

Main results:

* `ImportAtlas.Python.Tree.imports_eq` — the imports of a tree are those of its import nodes;
* `ImportAtlas.Python.Tree.check_eq_ok` — a harmless tree is accepted.
-/

set_option autoImplicit false

namespace ImportAtlas.Python

namespace Tree

/-! ### Import nodes -/

/-- The import nodes of a tree in the order of the source. Nodes below an import node do not count. -/
def importNodes : Tree → List Tree
  | node kind role start text children =>
      let t := node kind role start text children
      if t.isImport then [t] else go children
where
  /-- The import nodes of some trees, one tree after the other. -/
  go : List Tree → List Tree
    | [] => []
    | t :: ts => importNodes t ++ go ts

theorem importNodes_eq (t : Tree) :
    t.importNodes = if t.isImport then [t] else t.children.flatMap importNodes := by
  have hgo : ∀ ts : List Tree, importNodes.go ts = ts.flatMap importNodes := by
    intro ts
    induction ts with
    | nil => rfl
    | cons t ts ih => rw [importNodes.go, ih, List.flatMap_cons]
  cases t with
  | node kind role start text children =>
      rw [importNodes, hgo]
      rfl

theorem importNodes_of_isImport {t : Tree} (h : t.isImport = true) : t.importNodes = [t] := by
  rw [importNodes_eq, if_pos h]

/-- The import statements of a tree are those of its import nodes. -/
theorem imports_eq (t : Tree) : t.imports = t.importNodes.filterMap statement? := by
  rw [imports_eq_importsBelow]
  induction t using induction with
  | h t ih =>
      rw [importsBelow_eq, importNodes_eq]
      split
      · cases hs : t.statement? <;> simp [hs]
      · rw [List.filterMap_flatMap]
        exact List.flatMap_congr ih

/-! ### Harmless trees -/

end Tree

/-- The kinds of nodes that are accepted everywhere. -/
def Kind.isHarmless : Kind → Bool
  | .error | .missing | .printStatement | .execStatement | .stringStart | .namedExpression => false
  | _ => true

namespace Tree

theorem isLegacy_eq_false {t : Tree} (h : t.kind.isHarmless = true) (parent : Option Kind) :
    t.isLegacy parent = false := by
  unfold isLegacy
  cases hk : t.kind <;> simp_all [Kind.isHarmless]

theorem searchLegacy_eq_none {fuel : Nat} {todo : List (Option Kind × Tree)}
    (h : ∀ p ∈ todo, ∀ n ∈ p.2.preorder, n.kind.isHarmless = true) : searchLegacy fuel todo = none := by
  induction fuel generalizing todo with
  | zero => rfl
  | succ fuel ih =>
      cases todo with
      | nil => rfl
      | cons p todo =>
          obtain ⟨parent, t⟩ := p
          obtain ⟨ht, htodo⟩ := List.forall_mem_cons.1 h
          rw [preorder_eq] at ht
          obtain ⟨hroot, hbelow⟩ := List.forall_mem_cons.1 ht
          rw [searchLegacy, isLegacy_eq_false hroot, if_neg Bool.false_ne_true]
          refine ih fun q hq => ?_
          rcases List.mem_append.1 hq with hq | hq
          · obtain ⟨child, hchild, rfl⟩ := List.mem_map.1 hq
            exact fun n hn => hbelow n (List.mem_flatMap.2 ⟨child, hchild, hn⟩)
          · exact htodo q hq

/-- A tree is accepted if all of its nodes are of harmless kinds. -/
theorem check_eq_ok {t : Tree} (h : ∀ n ∈ t.preorder, n.kind.isHarmless = true) :
    t.check = .ok () := by
  have hfault : t.hasFault = false := by
    rw [hasFault, List.any_eq_false]
    intro n hn hfault
    have hkind := h n hn
    rw [isFault, Bool.or_eq_true, decide_eq_true_eq, decide_eq_true_eq] at hfault
    rcases hfault with hk | hk <;> simp [hk, Kind.isHarmless] at hkind
  have hlegacy : t.firstLegacy? = none := searchLegacy_eq_none (by simpa using h)
  simp [check, hfault, hlegacy]

end Tree

/-! ### Parts of import statements -/

/-- The kinds of the parts of import statements. -/
def Kind.isPart : Kind → Bool
  | .dottedName | .aliasedImport | .relativeImport | .importDots | .wildcardImport => true
  | _ => false

theorem Kind.isHarmless_of_isPart {k : Kind} (h : k.isPart = true) : k.isHarmless = true := by
  cases k <;> simp_all [isPart, isHarmless]

namespace Tree

/-- A tree all of whose nodes are parts of import statements. -/
def IsPart (t : Tree) : Prop := ∀ n ∈ t.preorder, n.kind.isPart = true

theorem isPart_iff {t : Tree} : t.IsPart ↔ t.kind.isPart = true ∧ ∀ c ∈ t.children, c.IsPart := by
  rw [IsPart, preorder_eq, List.forall_mem_cons, List.forall_mem_flatMap]
  rfl

theorem isPart_leaf {k : Kind} (h : k.isPart = true) (pos : Position) (text : String) :
    (leaf k pos text).IsPart := isPart_iff.2 ⟨h, by simp [leaf, children]⟩

theorem isPart_inner {k : Kind} (h : k.isPart = true) (pos : Position) {parts : List Tree}
    (hparts : ∀ t ∈ parts, t.IsPart) : (inner k pos parts).IsPart := isPart_iff.2 ⟨h, hparts⟩

theorem IsPart.withRole {t : Tree} (h : t.IsPart) (role : Role) : (t.withRole role).IsPart := by
  rw [isPart_iff] at h ⊢
  cases t
  exact h

end Tree

end ImportAtlas.Python
