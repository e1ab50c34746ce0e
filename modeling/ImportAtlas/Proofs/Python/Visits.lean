import ImportAtlas.Python.Import

/-!
# Visiting a tree

The import statements of a tree are collected with a stack of the trees that are still to be visited. The
statements that were found, followed by those below the trees on the stack, are the same at all stages,
and every visit leaves fewer nodes to visit. So the visits come to an end, after at most one for each node
of the tree, and they find what the recursion on the tree gives.

What that is can be said without any traversal: every statement has an address in the tree, on the way to
which there is no other import statement, and the statements come in the order of their addresses.

Main definitions:

* `ImportAtlas.Python.Visits.outcome` — what was found, and what is going to be found;
* `ImportAtlas.Python.Visits.left` — how many nodes are left to visit;
* `ImportAtlas.Python.Tree.Yields` — the statement of an import node;
* `ImportAtlas.Python.Tree.Exposes` — a node at an address, with no import node above it;
* `ImportAtlas.Python.Tree.finds` — the statements of a tree with their addresses.

Main results:

* `ImportAtlas.Python.Visits.outcome_next?`, `ImportAtlas.Python.Visits.left_next?` — what a visit keeps,
  and what it takes away;
* `ImportAtlas.Python.Visits.run_start` — **the visits end with what the recursion gives**;
* `ImportAtlas.Python.Tree.mem_finds_iff`, `ImportAtlas.Python.Tree.pairwise_finds` — every statement of
  the tree, once and in the order of the source;
* `ImportAtlas.Python.Tree.visits_find_all_in_order` — **nothing is dropped, repeated or moved**.
-/

set_option autoImplicit false

namespace ImportAtlas.Python

/-! ### Recursion on trees -/

namespace Tree

/-- What holds of a tree if it holds of all its children holds of all trees. -/
theorem induction {P : Tree → Prop} (h : ∀ t : Tree, (∀ c ∈ t.children, P c) → P t) (t : Tree) :
    P t := by
  cases t with
  | node kind role start text children =>
      refine h _ fun c hc => ?_
      have hlt : sizeOf c < sizeOf children := List.sizeOf_lt_of_mem hc
      exact induction h c
termination_by sizeOf t
decreasing_by
  rw [node.sizeOf_spec]
  omega

theorem importsBelow_eq (t : Tree) :
    t.importsBelow =
      if t.isImport then t.statement?.toList else t.children.flatMap importsBelow := by
  have hgo : ∀ ts : List Tree, importsBelow.go ts = ts.flatMap importsBelow := by
    intro ts
    induction ts with
    | nil => rfl
    | cons t ts ih => rw [importsBelow.go, ih, List.flatMap_cons]
  cases t with
  | node kind role start text children =>
      rw [importsBelow, hgo]
      rfl

end Tree

/-! ### From one stage to the next -/

namespace Visits

/-- The statements that were found, followed by those below the trees on the stack. -/
def outcome (v : Visits) : List ImportStatement := v.found.toList ++ v.todo.flatMap Tree.importsBelow

/-- The number of the nodes of the trees on the stack. -/
def left (v : Visits) : Nat := (v.todo.flatMap Tree.preorder).length

/-- Whatever is on top is taken off. If it is an import node, its statement is found; else its children
are on top in their order. -/
theorem next?_eq_some {v w : Visits} (h : v.next? = some w) :
    ∃ t todo, v.todo = t :: todo ∧
      (t.isImport = true ∧ w = ⟨todo, v.found ++ t.statement?.toList⟩ ∨
        t.isImport = false ∧ w = ⟨t.children ++ todo, v.found⟩) := by
  obtain ⟨todo, found⟩ := v
  cases todo with
  | nil => cases h
  | cons t todo =>
      refine ⟨t, todo, rfl, ?_⟩
      rw [next?] at h
      cases himport : t.isImport with
      | true =>
          rw [himport, if_pos rfl] at h
          exact .inl ⟨rfl, (Option.some.inj h).symm⟩
      | false =>
          -- pushing turns the children round, and they are pushed from the last one to the first
          rw [himport, if_neg Bool.false_ne_true, List.foldl_flip_cons_eq_append',
            List.reverse_reverse] at h
          exact .inr ⟨rfl, (Option.some.inj h).symm⟩

theorem todo_eq_nil_of_next? {v : Visits} (h : v.next? = none) : v.todo = [] := by
  obtain ⟨todo, found⟩ := v
  cases todo with
  | nil => rfl
  | cons t todo =>
      rw [next?] at h
      split at h <;> cases h

/-- A visit changes nothing about what will have been found in the end. -/
theorem outcome_next? {v w : Visits} (h : v.next? = some w) : w.outcome = v.outcome := by
  obtain ⟨t, todo, htodo, hstep⟩ := next?_eq_some h
  rw [outcome, outcome, htodo, List.flatMap_cons, Tree.importsBelow_eq]
  rcases hstep with ⟨himport, rfl⟩ | ⟨himport, rfl⟩
  · rw [if_pos himport, Array.toList_appendList, List.append_assoc]
  · rw [himport, if_neg Bool.false_ne_true, List.flatMap_append]

/-- A visit leaves fewer nodes to visit. -/
theorem left_next? {v w : Visits} (h : v.next? = some w) : w.left < v.left := by
  obtain ⟨t, todo, htodo, hstep⟩ := next?_eq_some h
  rw [left, left, htodo, List.flatMap_cons, Tree.preorder_eq, List.length_append, List.length_cons]
  rcases hstep with ⟨-, rfl⟩ | ⟨-, rfl⟩
  · dsimp only
    omega
  · rw [List.flatMap_append, List.length_append]
    omega

theorem todo_eq_nil_of_left {v : Visits} (h : v.left = 0) : v.todo = [] := by
  cases htodo : v.todo with
  | nil => rfl
  | cons t todo =>
      rw [left, htodo, List.flatMap_cons, Tree.preorder_eq, List.cons_append] at h
      cases h

/-- When nothing is left to visit, all that will be found was found. -/
theorem eq_of_todo_eq_nil {v : Visits} (h : v.todo = []) : v = ⟨[], v.outcome.toArray⟩ := by
  obtain ⟨todo, found⟩ := v
  obtain rfl : todo = [] := h
  rw [outcome, List.flatMap_nil, List.append_nil, Array.toArray_toList]

/-- There are no more visits than nodes, and they end with nothing left to visit. -/
theorem run_eq {n : Nat} {v : Visits} (h : v.left ≤ n) : v.run n = ⟨[], v.outcome.toArray⟩ := by
  induction n generalizing v with
  | zero => exact eq_of_todo_eq_nil (todo_eq_nil_of_left (Nat.le_zero.1 h))
  | succ n ih =>
      rw [run]
      cases hnext : v.next? with
      | none => exact eq_of_todo_eq_nil (todo_eq_nil_of_next? hnext)
      | some w =>
          have hleft := left_next? hnext
          rw [← outcome_next? hnext]
          exact ih (by omega)

/-- The visits of a tree end with what the recursion on it gives. -/
theorem run_start {t : Tree} {n : Nat} (h : t.size ≤ n) :
    (start t).run n = ⟨[], t.importsBelow.toArray⟩ := by
  have hleft : (start t).left = t.size := by rw [left, start, List.flatMap_singleton, Tree.size]
  have houtcome : (start t).outcome = t.importsBelow := by
    rw [outcome, start, List.flatMap_singleton, List.nil_append]
  rw [run_eq (hleft ▸ h), houtcome]

end Visits

namespace Tree

theorem imports_eq_importsBelow (t : Tree) : t.imports = t.importsBelow := by
  rw [imports, Visits.run_start (Nat.le_refl _)]

/-! ### Addresses

The address of a node is the way down to it: which child to take, which child of that one, and so on. -/

/-- The statement of an import node. One of the sort `import a` has it if it has a name. -/
inductive Yields (n : Tree) : ImportStatement → Prop
  | modules (kind : n.kind = .importStatement) (named : n.importedNames ≠ []) :
      Yields n (.modules n.importedNames)
  | members {s : ImportStatement} (kind : n.kind = .importFrom) (given : n.members? = some s) :
      Yields n s

theorem statement?_eq_some_iff {n : Tree} {s : ImportStatement} :
    n.statement? = some s ↔ n.Yields s := by
  constructor
  · intro h
    unfold statement? at h
    split at h
    · next hk =>
        unfold modules? at h
        split at h
        · cases h
        · next hnames =>
            obtain rfl := Option.some.inj h
            exact .modules hk hnames
    · next hk => exact .members hk h
    · cases h
  · intro h
    unfold statement?
    cases h with
    | modules hk hnames =>
        rw [hk]
        dsimp only
        unfold modules?
        split
        · next hnil => exact absurd hnil hnames
        · rfl
    | members hk hgiven =>
        rw [hk]
        exact hgiven

theorem Yields.isImport {n : Tree} {s : ImportStatement} (h : n.Yields s) : n.isImport = true := by
  rw [Tree.isImport, Bool.or_eq_true, decide_eq_true_eq, decide_eq_true_eq]
  cases h with
  | modules hk _ => exact .inl hk
  | members hk _ => exact .inr hk

/-- The tree has the node at the address, and no node above it is an import node. -/
inductive Exposes : Tree → List Nat → Tree → Prop
  | here (t : Tree) : Exposes t [] t
  | descend {t c n : Tree} {i : Nat} {p : List Nat} (searched : t.isImport = false)
      (child : t.children[i]? = some c) (rest : Exposes c p n) : Exposes t (i :: p) n

/-- The statements of a tree in the order of the source, with their addresses. -/
def finds : Tree → List (List Nat × ImportStatement)
  | node kind role start text children =>
      let t := node kind role start text children
      if t.isImport then t.statement?.toList.map fun s => ([], s) else go 0 children
where
  /-- The statements of the children from a number on. -/
  go : Nat → List Tree → List (List Nat × ImportStatement)
    | _, [] => []
    | i, c :: cs => c.finds.map (fun f => (i :: f.1, f.2)) ++ go (i + 1) cs

theorem finds_eq (t : Tree) :
    t.finds =
      if t.isImport then t.statement?.toList.map fun s => ([], s) else finds.go 0 t.children := by
  cases t
  rw [finds]
  rfl

theorem mem_go_iff {i : Nat} {cs : List Tree} {p : List Nat} {s : ImportStatement} :
    (p, s) ∈ finds.go i cs ↔ ∃ j c q, cs[j]? = some c ∧ p = (i + j) :: q ∧ (q, s) ∈ c.finds := by
  induction cs generalizing i with
  | nil => simp [finds.go]
  | cons c cs ih =>
      rw [finds.go, List.mem_append, ih]
      constructor
      · rintro (h | ⟨j, d, q, hd, rfl, hq⟩)
        · obtain ⟨⟨q, s⟩, hq, heq⟩ := List.mem_map.1 h
          cases heq
          exact ⟨0, c, q, rfl, rfl, hq⟩
        · exact ⟨j + 1, d, q, hd, by rw [Nat.add_assoc, Nat.add_comm 1], hq⟩
      · rintro ⟨j, d, q, hd, rfl, hq⟩
        cases j with
        | zero =>
            obtain rfl : c = d := Option.some.inj hd
            exact .inl (List.mem_map.2 ⟨(q, s), hq, rfl⟩)
        | succ j => exact .inr ⟨j, d, q, hd, by rw [Nat.add_assoc, Nat.add_comm 1], hq⟩

/-- The statements that are found are those of the nodes that are exposed. -/
theorem mem_finds_iff {t : Tree} {p : List Nat} {s : ImportStatement} :
    (p, s) ∈ t.finds ↔ ∃ n, t.Exposes p n ∧ n.Yields s := by
  induction t using induction generalizing p with
  | h t ih =>
      rw [finds_eq]
      cases himport : t.isImport with
      | true =>
          -- an import node is exposed itself, and nothing below it is
          rw [if_pos rfl]
          constructor
          · intro h
            obtain ⟨s, hs, heq⟩ := List.mem_map.1 h
            cases heq
            exact ⟨t, .here t, statement?_eq_some_iff.1 (Option.mem_toList.1 hs)⟩
          · rintro ⟨n, hn, hs⟩
            cases hn with
            | here =>
                exact List.mem_map.2 ⟨s, Option.mem_toList.2 (statement?_eq_some_iff.2 hs), rfl⟩
            | descend hsearched _ _ => cases hsearched.symm.trans himport
      | false =>
          rw [if_neg Bool.false_ne_true, mem_go_iff]
          constructor
          · rintro ⟨j, c, q, hc, rfl, hq⟩
            obtain ⟨n, hn, hs⟩ := (ih c (List.mem_of_getElem? hc)).1 hq
            rw [Nat.zero_add]
            exact ⟨n, .descend himport hc hn, hs⟩
          · rintro ⟨n, hn, hs⟩
            cases hn with
            | here => cases hs.isImport.symm.trans himport
            | descend _ hc hrest =>
                refine ⟨_, _, _, hc, by rw [Nat.zero_add], ?_⟩
                exact (ih _ (List.mem_of_getElem? hc)).2 ⟨n, hrest, hs⟩

theorem pairwise_go {i : Nat} {cs : List Tree}
    (h : ∀ c ∈ cs, c.finds.Pairwise fun a b => List.Lex (· < ·) a.1 b.1) :
    (finds.go i cs).Pairwise fun a b => List.Lex (· < ·) a.1 b.1 := by
  induction cs generalizing i with
  | nil => exact .nil
  | cons c cs ih =>
      obtain ⟨hc, hcs⟩ := List.forall_mem_cons.1 h
      rw [finds.go, List.pairwise_append]
      refine ⟨List.pairwise_map.2 (hc.imp fun hlt => .cons hlt), ih hcs, ?_⟩
      -- what is below the first child has its number first, and all others have greater ones
      intro a ha b hb
      obtain ⟨a, -, rfl⟩ := List.mem_map.1 ha
      obtain ⟨j, -, q, -, hq, -⟩ := mem_go_iff.1 hb
      rw [hq]
      exact .rel (by omega)

/-- The addresses are in order, so none occurs twice. -/
theorem pairwise_finds (t : Tree) :
    t.finds.Pairwise fun a b => List.Lex (· < ·) a.1 b.1 := by
  induction t using induction with
  | h t ih =>
      rw [finds_eq]
      split
      · cases t.statement? with
        | none => exact .nil
        | some s => exact List.pairwise_singleton _ _
      · exact pairwise_go ih

theorem map_snd_go {i : Nat} {cs : List Tree}
    (h : ∀ c ∈ cs, c.finds.map Prod.snd = c.importsBelow) :
    (finds.go i cs).map Prod.snd = cs.flatMap importsBelow := by
  induction cs generalizing i with
  | nil => rfl
  | cons c cs ih =>
      obtain ⟨hc, hcs⟩ := List.forall_mem_cons.1 h
      rw [finds.go, List.map_append, List.map_map, List.flatMap_cons, ih hcs, ← hc]
      rfl

/-- Without their addresses, they are what the recursion gives. -/
theorem map_snd_finds (t : Tree) : t.finds.map Prod.snd = t.importsBelow := by
  induction t using induction with
  | h t ih =>
      rw [finds_eq, importsBelow_eq]
      split
      · rw [List.map_map]
        exact List.map_id _
      · exact map_snd_go ih

/-- **The visits end, and nothing is dropped, repeated or moved.** After as many visits as the tree has
nodes, or any number above that, the stack is empty, and what was found is what the recursion on the tree
gives. These are the statements of the import nodes that yield one and have no import node above them,
however deep they are: each of them once, and in the order of the source, in which a node comes before
all nodes below it and those below one child before those below a later one. -/
theorem visits_find_all_in_order (t : Tree) :
    (∀ n, t.size ≤ n → (Visits.start t).run n = ⟨[], t.importsBelow.toArray⟩) ∧
      t.imports = t.importsBelow ∧
      t.imports = t.finds.map Prod.snd ∧
      (t.finds.Pairwise fun a b => List.Lex (· < ·) a.1 b.1) ∧
      ∀ p s, (p, s) ∈ t.finds ↔ ∃ n, t.Exposes p n ∧ n.Yields s := by
  refine ⟨?_, imports_eq_importsBelow t, ?_, pairwise_finds t, ?_⟩
  · intro n hn
    exact Visits.run_start hn
  · rw [imports_eq_importsBelow, map_snd_finds]
  · intro p s
    exact mem_finds_iff

/-- A function with an import and a conditional import in it, then an import statement without a name,
and one with two names. -/
def nestedTree : Tree :=
  let name (pos : Position) (text : String) : Tree := (leaf .dottedName pos text).withRole .name
  inner .plain ⟨0, 0⟩
    [inner .plain ⟨0, 0⟩
      [inner .importStatement ⟨1, 2⟩ [name ⟨1, 9⟩ "a"],
        inner .plain ⟨2, 2⟩
          [inner .importFrom ⟨3, 4⟩
            [(inner .relativeImport ⟨3, 9⟩ [leaf .importDots ⟨3, 9⟩ "."]).withRole .source,
              name ⟨3, 18⟩ "b"]]],
      inner .importStatement ⟨4, 0⟩ [],
      inner .importStatement ⟨5, 0⟩ [name ⟨5, 7⟩ "c", name ⟨5, 10⟩ "d . e"]]

theorem visits_find_all_in_order_nestedTree :
    nestedTree.size ≤ 13 ∧
      (Visits.start nestedTree).run 13 =
        ⟨[], #[.modules ["a"], .members 1 none ["b"], .modules ["c", "d.e"]]⟩ ∧
      nestedTree.finds.map Prod.fst = [[0, 0], [0, 1, 0], [2]] := by
  obtain ⟨hrun, -⟩ := visits_find_all_in_order nestedTree
  have hsize : nestedTree.size ≤ 13 := by decide
  refine ⟨hsize, ?_, by decide⟩
  rw [hrun 13 hsize]
  rfl

end Tree

end ImportAtlas.Python
