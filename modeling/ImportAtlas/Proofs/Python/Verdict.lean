import ImportAtlas.Proofs.Python.Nodes
import Mathlib.Data.List.Basic

/-!
# Where a tree is refused

Two searches decide about a tree. The one for errors goes down from each node that has one at it or
below it, and passes over all others. The one for constructs that are no longer Python keeps a list of
the trees that are still to be visited. Both find the first node of their sort in the order of the
source. Errors are searched for first, so a tree with an error is refused there, also if a construct
that is no longer Python stands before it.

Main definitions:

* `ImportAtlas.Python.Tree.Fault`, `ImportAtlas.Python.Tree.Legacy` — the nodes at which a tree is
  refused;
* `ImportAtlas.Python.Tree.outline` — the nodes in the order of the source, each with the kind of its
  parent;
* `ImportAtlas.Python.First` — the first element of a list with a property.

Main results:

* `ImportAtlas.Python.Tree.firstError?_eq_find?` — **going down finds the first fault**;
* `ImportAtlas.Python.Tree.firstLegacy?_eq_find?` — **the list of visits finds the first legacy
  construct**;
* `ImportAtlas.Python.Tree.check_eq_verdict` — **a tree is refused at its first fault, else at its first
  legacy construct**.
-/

set_option autoImplicit false

namespace ImportAtlas.Python

/-! ### First elements -/

/-- An element of a list has a property, and none before it has. -/
def First {α : Type} (P : α → Prop) (l : List α) (a : α) : Prop :=
  ∃ before later, l = before ++ a :: later ∧ P a ∧ ∀ b ∈ before, ¬P b

theorem find?_eq_some_iff_first {α : Type} {P : α → Prop} {test : α → Bool}
    (h : ∀ a, test a = true ↔ P a) {l : List α} {a : α} : l.find? test = some a ↔ First P l a := by
  rw [List.find?_eq_some_iff_append, h]
  constructor
  · rintro ⟨ha, before, later, hl, hbefore⟩
    refine ⟨before, later, hl, ha, fun b hb hP => ?_⟩
    have hfalse := hbefore b hb
    rw [(h b).2 hP] at hfalse
    cases hfalse
  · rintro ⟨before, later, hl, ha, hbefore⟩
    refine ⟨ha, before, later, hl, fun b hb => ?_⟩
    rw [Bool.not_eq_true', ← Bool.not_eq_true, h]
    exact hbefore b hb

theorem find?_eq_none_iff_forall {α : Type} {P : α → Prop} {test : α → Bool}
    (h : ∀ a, test a = true ↔ P a) {l : List α} : l.find? test = none ↔ ∀ a ∈ l, ¬P a := by
  simp only [List.find?_eq_none, h]

namespace Tree

/-! ### Faults -/

/-- The node is an error or missing. -/
def Fault (t : Tree) : Prop := t.kind = .error ∨ t.kind = .missing

theorem isFault_iff (t : Tree) : t.isFault = true ↔ t.Fault := by
  rw [isFault, Bool.or_eq_true, decide_eq_true_eq, decide_eq_true_eq, Fault]

theorem hasFault_iff {t : Tree} : t.hasFault = true ↔ ∃ n ∈ t.preorder, n.Fault := by
  simp only [hasFault, List.any_eq_true, isFault_iff]

theorem firstError?_go_eq (ts : List Tree) : firstError?.go ts = ts.findSome? firstError? := by
  induction ts with
  | nil => rfl
  | cons t ts ih =>
      rw [firstError?.go, ih, List.findSome?_cons]
      cases t.firstError? <;> rfl

theorem firstError?_eq (t : Tree) :
    t.firstError? = if t.isFault then some t
      else if t.hasFault then t.children.findSome? firstError? else none := by
  cases t with
  | node kind role start text children =>
      rw [firstError?, firstError?_go_eq]
      rfl

theorem findSome?_firstError? {ts : List Tree}
    (h : ∀ t ∈ ts, t.firstError? = t.preorder.find? isFault) :
    ts.findSome? firstError? = (ts.flatMap preorder).find? isFault := by
  induction ts with
  | nil => rfl
  | cons t ts ih =>
      obtain ⟨ht, hts⟩ := List.forall_mem_cons.1 h
      rw [List.findSome?_cons, List.flatMap_cons, List.find?_append, ht, ih hts]
      cases t.preorder.find? isFault <;> rfl

/-- Going down finds the first fault in the order of the source. -/
theorem firstError?_eq_find? (t : Tree) : t.firstError? = t.preorder.find? isFault := by
  induction t using induction with
  | h t ih =>
      rw [firstError?_eq, preorder_eq]
      by_cases hroot : t.isFault = true
      · rw [if_pos hroot, List.find?_cons_of_pos hroot]
      · rw [if_neg hroot, List.find?_cons_of_neg hroot, findSome?_firstError? ih]
        split
        · rfl
        · next hnone =>
            -- nothing is missed where the search does not go down
            rw [hasFault, preorder_eq, List.any_cons, Bool.or_eq_true, not_or] at hnone
            symm
            rw [List.find?_eq_none]
            intro n hn hfault
            exact hnone.2 (List.any_eq_true.2 ⟨n, hn, hfault⟩)

/-- Whatever has a fault, at it or below it, has a first one. -/
theorem exists_firstError? {t : Tree} (h : t.hasFault = true) : ∃ n, t.firstError? = some n := by
  obtain ⟨n, hn, hfault⟩ := hasFault_iff.1 h
  rw [← Option.isSome_iff_exists, firstError?_eq_find?, List.find?_isSome]
  exact ⟨n, hn, (isFault_iff n).2 hfault⟩

/-! ### Legacy constructs -/

/-- The nodes of a tree in the order of the source, each with the kind of its parent. -/
def outline : Option Kind → Tree → List (Option Kind × Tree)
  | parent, node kind role start text children =>
      (parent, node kind role start text children) :: below kind children
where
  /-- The nodes of some trees under a parent, one tree after the other. -/
  below (kind : Kind) : List Tree → List (Option Kind × Tree)
    | [] => []
    | t :: ts => outline (some kind) t ++ below kind ts

theorem outline_eq (parent : Option Kind) (t : Tree) :
    t.outline parent = (parent, t) :: t.children.flatMap (outline (some t.kind)) := by
  have hbelow : ∀ (kind : Kind) (ts : List Tree),
      outline.below kind ts = ts.flatMap (outline (some kind)) := by
    intro kind ts
    induction ts with
    | nil => rfl
    | cons t ts ih => rw [outline.below, ih, List.flatMap_cons]
  cases t with
  | node kind role start text children =>
      rw [outline, hbelow]
      rfl

/-- The outline has the nodes of the tree, in the same order. -/
theorem map_snd_outline (parent : Option Kind) (t : Tree) :
    (t.outline parent).map Prod.snd = t.preorder := by
  induction t using induction generalizing parent with
  | h t ih =>
      rw [outline_eq, preorder_eq, List.map_cons, List.map_flatMap]
      exact congrArg (t :: ·) (List.flatMap_congr fun c hc => ih c hc (some t.kind))

/-- Under a parent of the given kind, the node is no longer Python: a `print` statement without a
target, an `exec` statement, the opening of a string in backticks, or a named expression that is a
statement or is assigned. -/
inductive Legacy : Option Kind → Tree → Prop
  | print {parent : Option Kind} {t : Tree} (kind : t.kind = .printStatement)
      (plain : ∀ c ∈ t.children, c.kind ≠ .chevron) : Legacy parent t
  | exec {parent : Option Kind} {t : Tree} (kind : t.kind = .execStatement) : Legacy parent t
  | backtick {parent : Option Kind} {t : Tree} {front : List Char} (kind : t.kind = .stringStart)
      (text : t.text.toList = front ++ ['\x60']) : Legacy parent t
  | named {parent : Kind} {t : Tree} (kind : t.kind = .namedExpression)
      (bare : parent = .expressionStatement ∨ parent = .assignment ∨ parent = .augmentedAssignment) :
      Legacy (some parent) t

theorem isLegacy_iff (parent : Option Kind) (t : Tree) :
    t.isLegacy parent = true ↔ Legacy parent t := by
  constructor
  · intro h
    unfold isLegacy at h
    split at h
    · next hk => exact .print hk (by simpa using h)
    · next hk => exact .exec hk
    · next hk =>
        obtain ⟨front, hfront⟩ := List.getLast?_eq_some_iff.1 (of_decide_eq_true h)
        exact .backtick hk hfront
    · next hk =>
        split at h
        · exact .named hk (by simpa [or_assoc] using h)
        · cases h
    · cases h
  · intro h
    unfold isLegacy
    cases h with
    | print hk hplain => simpa [hk] using hplain
    | exec hk => simp [hk]
    | backtick hk htext => simp [hk, htext]
    | named hk hbare => simpa [hk, or_assoc] using hbare

/-- The visits find the first legacy construct of the trees on the list, if there is fuel for all of
their nodes. -/
theorem searchLegacy_eq_find? {fuel : Nat} {todo : List (Option Kind × Tree)}
    (h : (todo.flatMap fun v => v.2.preorder).length < fuel) :
    searchLegacy fuel todo =
      ((todo.flatMap fun v => v.2.outline v.1).find? fun v => v.2.isLegacy v.1).map Prod.snd := by
  induction fuel generalizing todo with
  | zero => omega
  | succ fuel ih =>
      cases todo with
      | nil => rfl
      | cons v todo =>
          obtain ⟨parent, t⟩ := v
          rw [searchLegacy, List.flatMap_cons, outline_eq, List.cons_append]
          by_cases hlegacy : t.isLegacy parent = true
          · rw [if_pos hlegacy, List.find?_cons_of_pos (by exact hlegacy)]
            rfl
          · -- the children are put before what is left, and one visit is used up
            have hchildren : ((t.children.map (some t.kind, ·)).flatMap fun v => v.2.preorder) =
                t.children.flatMap preorder := by rw [List.flatMap_map]
            have hfuel : ((t.children.map (some t.kind, ·) ++ todo).flatMap
                fun v => v.2.preorder).length < fuel := by
              rw [List.flatMap_append, hchildren]
              rw [List.flatMap_cons, preorder_eq, List.cons_append, List.length_cons] at h
              exact Nat.lt_of_succ_lt_succ h
            rw [if_neg hlegacy, List.find?_cons_of_neg (by exact hlegacy), ih hfuel,
              List.flatMap_append, List.flatMap_map]

/-- The list of visits finds the first legacy construct in the order of the source. -/
theorem firstLegacy?_eq_find? (t : Tree) :
    t.firstLegacy? = ((t.outline none).find? fun v => v.2.isLegacy v.1).map Prod.snd := by
  rw [firstLegacy?, searchLegacy_eq_find? (by simp [size]), List.flatMap_singleton]

theorem firstLegacy?_eq_some_iff {t n : Tree} :
    t.firstLegacy? = some n ↔
      ∃ parent, First (fun v => Legacy v.1 v.2) (t.outline none) (parent, n) := by
  have hfirst : ∀ v : Option Kind × Tree,
      (t.outline none).find? (fun v => v.2.isLegacy v.1) = some v ↔
        First (fun v => Legacy v.1 v.2) (t.outline none) v := by
    intro v
    exact find?_eq_some_iff_first fun v : Option Kind × Tree => isLegacy_iff v.1 v.2
  rw [firstLegacy?_eq_find?, Option.map_eq_some_iff]
  constructor
  · rintro ⟨⟨parent, n⟩, hfind, rfl⟩
    exact ⟨parent, (hfirst _).1 hfind⟩
  · rintro ⟨parent, hn⟩
    exact ⟨(parent, n), (hfirst _).2 hn, rfl⟩

theorem firstLegacy?_eq_none_iff {t : Tree} :
    t.firstLegacy? = none ↔ ∀ v ∈ t.outline none, ¬Legacy v.1 v.2 := by
  rw [firstLegacy?_eq_find?, Option.map_eq_none_iff]
  exact find?_eq_none_iff_forall fun v : Option Kind × Tree => isLegacy_iff v.1 v.2

/-! ### The verdict -/

/-- The node at which a tree is refused, if there is one. -/
def refusedAt? (t : Tree) : Option Tree := if t.hasFault then t.firstError? else t.firstLegacy?

/-- A tree is refused at that node; that it has a fault and no first one does not happen. -/
theorem check_eq (t : Tree) :
    t.check = t.refusedAt?.elim (.ok ()) fun n => .error (.ofNode n) := by
  rw [check, refusedAt?]
  by_cases hfault : t.hasFault = true
  · obtain ⟨n, hn⟩ := exists_firstError? hfault
    rw [if_pos hfault, if_pos hfault, hn]
    rfl
  · rw [if_neg hfault, if_neg hfault]
    cases t.firstLegacy? <;> rfl

theorem refusedAt?_eq_some_iff {t n : Tree} :
    t.refusedAt? = some n ↔
      First Fault t.preorder n ∨ (∀ m ∈ t.preorder, ¬m.Fault) ∧
        ∃ parent, First (fun v => Legacy v.1 v.2) (t.outline none) (parent, n) := by
  rw [refusedAt?]
  by_cases hfault : t.hasFault = true
  · have hnot : ¬∀ m ∈ t.preorder, ¬m.Fault := by
      obtain ⟨m, hm, hfault⟩ := hasFault_iff.1 hfault
      exact fun h => h m hm hfault
    rw [if_pos hfault, firstError?_eq_find?, find?_eq_some_iff_first isFault_iff]
    simp only [hnot, false_and, or_false]
  · have hall : ∀ m ∈ t.preorder, ¬m.Fault := by
      intro m hm h
      exact hfault (hasFault_iff.2 ⟨m, hm, h⟩)
    have hnone : ¬First Fault t.preorder n := by
      rintro ⟨before, later, hpre, hn, -⟩
      exact hall n (by simp [hpre]) hn
    rw [if_neg hfault, firstLegacy?_eq_some_iff]
    simp only [hnone, false_or, and_iff_right hall]

theorem refusedAt?_eq_none_iff {t : Tree} :
    t.refusedAt? = none ↔
      (∀ n ∈ t.preorder, ¬n.Fault) ∧ ∀ v ∈ t.outline none, ¬Legacy v.1 v.2 := by
  rw [refusedAt?, ← firstLegacy?_eq_none_iff, ← find?_eq_none_iff_forall isFault_iff,
    ← firstError?_eq_find?]
  by_cases hfault : t.hasFault = true
  · obtain ⟨n, hn⟩ := exists_firstError? hfault
    simp [hfault, hn]
  · have hnone : t.firstError? = none := by
      rw [firstError?_eq_find?, find?_eq_none_iff_forall isFault_iff]
      intro n hn h
      exact hfault (hasFault_iff.2 ⟨n, hn, h⟩)
    simp [hfault, hnone]

/-- **A tree is refused at its first fault, else at its first legacy construct.** It is accepted if and
only if it has neither. It is refused with the line and the column, both counted from one, at which the
first node starts, in the order of the source, that is an error or missing; only if there is none, with
those of the first legacy construct. A tree that has a fault has a first one, so an error is never
reported at the root for want of another node. A source is accepted, with its tree, or refused as the
tree is. The outline, in which legacy constructs are looked for, has the nodes in the order of the
source. -/
theorem check_eq_verdict (t : Tree) :
    (t.check = .ok () ↔
        (∀ n ∈ t.preorder, ¬n.Fault) ∧ ∀ v ∈ t.outline none, ¬Legacy v.1 v.2) ∧
      (∀ error, t.check = .error error ↔
        ∃ n, error = ⟨n.start.row + 1, n.start.column + 1⟩ ∧
          (First Fault t.preorder n ∨ (∀ m ∈ t.preorder, ¬m.Fault) ∧
            ∃ parent, First (fun v => Legacy v.1 v.2) (t.outline none) (parent, n))) ∧
      (t.hasFault = true → ∃ n, t.firstError? = some n ∧ First Fault t.preorder n) ∧
      (∀ source, parse source =
        (ofSource source.toList).check.map fun _ => ofSource source.toList) ∧
      (t.outline none).map Prod.snd = t.preorder := by
  refine ⟨?_, ?_, ?_, ?_, map_snd_outline none t⟩
  · rw [check_eq, ← refusedAt?_eq_none_iff]
    cases t.refusedAt? <;> simp
  · intro error
    simp only [← refusedAt?_eq_some_iff, check_eq]
    cases t.refusedAt? with
    | none => simp
    | some n => simp [SyntaxError.ofNode, eq_comm]
  · intro hfault
    obtain ⟨n, hn⟩ := exists_firstError? hfault
    refine ⟨n, hn, ?_⟩
    rwa [firstError?_eq_find?, find?_eq_some_iff_first isFault_iff] at hn
  · intro source
    rw [parse]
    cases (ofSource source.toList).check <;> rfl

/-- An assignment of a named expression, and an `exec` statement behind it. -/
def legacyTree : Tree :=
  inner .plain ⟨0, 0⟩
    [inner .expressionStatement ⟨0, 0⟩
      [inner .assignment ⟨0, 0⟩ [leaf .plain ⟨0, 0⟩ "x", leaf .namedExpression ⟨0, 4⟩ "y := 1"]],
      leaf .execStatement ⟨1, 0⟩ "exec z"]

/-- The same, with a missing token behind it that is below another node. -/
def faultyTree : Tree :=
  inner .plain ⟨0, 0⟩ [legacyTree, inner .plain ⟨2, 0⟩ [leaf .missing ⟨2, 7⟩ ""]]

theorem check_eq_verdict_faultyTree :
    legacyTree.check = .error ⟨1, 5⟩ ∧ faultyTree.check = .error ⟨3, 8⟩ ∧ faultyTree.hasFault = true ∧
      ∃ n, faultyTree.firstError? = some n ∧ First Fault faultyTree.preorder n := by
  have hfault : faultyTree.hasFault = true := rfl
  obtain ⟨-, -, hfirst, -⟩ := check_eq_verdict faultyTree
  exact ⟨rfl, rfl, hfault, hfirst hfault⟩

end Tree

end ImportAtlas.Python
