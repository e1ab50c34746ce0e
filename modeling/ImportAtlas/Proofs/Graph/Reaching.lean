import ImportAtlas.Proofs.Graph.Answers
import Mathlib.Logic.Relation

/-!
# Chains of imports

A search backwards from an element sees those elements from which a chain of one or more steps leads to
it, and no others. It ends, since each step but the first looks at an element that was noted before, and
none is noted twice. So the files that depend on a file through others are those from which a chain of
edges leads to its vertex.

Main definitions:

* `ImportAtlas.Search.From` — what every step of a search keeps;
* `ImportAtlas.Graph.Table.Chain` — a chain of one or more edges of a table.

Main results:

* `ImportAtlas.Search.From.step` — one step of a search;
* `ImportAtlas.Search.todo_run_eq_nil` — **a search ends**;
* `ImportAtlas.Search.mem_seen_run_iff` — **a search sees what leads to its start**;
* `ImportAtlas.Graph.Table.Reached.transitiveDependents_eq_chains` — **a file depends on another through
  others if and only if a chain of edges leads from it to the other one**.
-/

set_option autoImplicit false

namespace ImportAtlas

open Relation (TransGen)

namespace Search

variable {α : Type} [DecidableEq α] {before : α → List α} {x : Search α} {a b : α}

/-! ### Taking note -/

theorem mem_seen_note : b ∈ (x.note a).seen ↔ b ∈ x.seen ∨ b = a := by
  rw [note]
  split
  · next ha => grind
  · simp [or_comm]

theorem mem_todo_note : b ∈ (x.note a).todo ↔ b ∈ x.todo ∨ (b = a ∧ b ∉ x.seen) := by
  rw [note]
  split <;> grind

theorem mem_seen_foldl_note {l : List α} : b ∈ (l.foldl note x).seen ↔ b ∈ x.seen ∨ b ∈ l := by
  induction l generalizing x with
  | nil => simp
  | cons a l ih => rw [List.foldl_cons, ih, mem_seen_note, List.mem_cons, or_assoc]

theorem mem_todo_foldl_note {l : List α} :
    b ∈ (l.foldl note x).todo ↔ b ∈ x.todo ∨ (b ∈ l ∧ b ∉ x.seen) := by
  induction l generalizing x with
  | nil => simp
  | cons a l ih =>
      rw [List.foldl_cons, ih, mem_todo_note, mem_seen_note, List.mem_cons]
      grind

theorem nodup_seen_foldl_note {l : List α} (h : x.seen.Nodup) : (l.foldl note x).seen.Nodup := by
  induction l generalizing x with
  | nil => exact h
  | cons a l ih =>
      refine ih ?_
      rw [note]
      split
      · exact h
      · next ha => exact List.nodup_cons.2 ⟨ha, h⟩

/-- What is noted is both seen and still to be looked at. -/
theorem length_foldl_note (l : List α) (x : Search α) :
    (l.foldl note x).todo.length + x.seen.length = x.todo.length + (l.foldl note x).seen.length := by
  induction l generalizing x with
  | nil => rfl
  | cons a l ih =>
      have hl := ih (x.note a)
      have ha : (x.note a).todo.length + x.seen.length = x.todo.length + (x.note a).seen.length := by
        rw [note]
        split
        · rfl
        · simp only [List.length_cons]
          omega
      rw [List.foldl_cons]
      omega

/-! ### What a search keeps -/

/-- A search that started from `a`: what it has seen leads to `a`, and what is before an element that
it has looked at was seen. -/
structure From (before : α → List α) (a : α) (x : Search α) : Prop where
  leads : ∀ b ∈ x.seen, TransGen (fun b c => b ∈ before c) b a
  noted : ∀ b ∈ x.todo, b = a ∨ b ∈ x.seen
  closed : ∀ b, b = a ∨ b ∈ x.seen → b ∉ x.todo → ∀ c ∈ before b, c ∈ x.seen
  nodup : x.seen.Nodup

omit [DecidableEq α] in
theorem from_start (before : α → List α) (a : α) : From before a ⟨[a], []⟩ := by
  refine ⟨by simp, by simp, ?_, List.nodup_nil⟩
  rintro b (rfl | hb) hnot
  · exact absurd List.mem_cons_self hnot
  · cases hb

/-- One step keeps what a search keeps. -/
theorem From.step (h : From before a x) : From before a (x.step before) := by
  rw [Search.step]
  split
  · exact h
  · next b todo htodo =>
      have hb : b = a ∨ b ∈ x.seen := h.noted b (by simp [htodo])
      constructor
      · intro c hc
        rcases mem_seen_foldl_note.1 hc with hc | hc
        · exact h.leads c hc
        · -- `c` is right before `b`, which is the start or leads there
          rcases hb with rfl | hb
          · exact .single hc
          · exact .head hc (h.leads b hb)
      · intro c hc
        rcases mem_todo_foldl_note.1 hc with hc | ⟨hc, -⟩
        · exact (h.noted c (by simp [htodo, hc])).imp_right fun hc =>
            mem_seen_foldl_note.2 (.inl hc)
        · exact .inr (mem_seen_foldl_note.2 (.inr hc))
      · intro c hc hnot d hd
        rw [mem_seen_foldl_note] at hc ⊢
        rw [mem_todo_foldl_note, not_or, not_and, not_not] at hnot
        by_cases hcb : c = b
        · exact .inr (hcb ▸ hd)
        · -- `c` was looked at before, since it is not noted now
          have hold : c = a ∨ c ∈ x.seen := by
            rcases hc with hc | hc | hc
            · exact .inl hc
            · exact .inr hc
            · exact .inr (hnot.2 hc)
          exact .inl (h.closed c hold (by simp [htodo, hcb, hnot.1]) d hd)
      · exact nodup_seen_foldl_note h.nodup

theorem From.run (h : From before a x) (n : Nat) : From before a (x.run before n) := by
  induction n generalizing x with
  | zero => exact h
  | succ n ih => exact ih h.step

/-! ### The end of a search -/

theorem run_eq_self (h : x.todo = []) (n : Nat) : x.run before n = x := by
  induction n with
  | zero => rfl
  | succ n ih =>
      have hstep : x.step before = x := by rw [Search.step, h]
      rw [Search.run, hstep, ih]

/-- As long as a search goes on, each step looks at one element that was noted. -/
theorem length_todo_run (before : α → List α) (n : Nat) (x : Search α) :
    (x.run before n).todo = [] ∨
      (x.run before n).todo.length + n + x.seen.length =
        x.todo.length + (x.run before n).seen.length := by
  induction n generalizing x with
  | zero => exact .inr rfl
  | succ n ih =>
      cases htodo : x.todo with
      | nil => exact .inl (by rw [run_eq_self htodo, htodo])
      | cons b todo =>
          refine (ih (x.step before)).imp id fun hlength => ?_
          have hstep : x.step before = (before b).foldl note ⟨todo, x.seen⟩ := by
            rw [Search.step, htodo]
          have hnoted := length_foldl_note (before b) ⟨todo, x.seen⟩
          rw [← hstep] at hnoted
          rw [Search.run, List.length_cons]
          dsimp only at hnoted
          omega

/-- **A search ends**: all that it can see is in a list, and it looks at no more than that and its
start. -/
theorem todo_run_eq_nil {all : List α} (hall : ∀ b, ∀ c ∈ before b, c ∈ all) (a : α) :
    (run before (all.length + 1) ⟨[a], []⟩).todo = [] := by
  have hfrom := (from_start before a).run (all.length + 1)
  have hsub : (run before (all.length + 1) ⟨[a], []⟩).seen ⊆ all := by
    intro b hb
    obtain ⟨c, hc, -⟩ := TransGen.head'_iff.1 (hfrom.leads b hb)
    exact hall c b hc
  rcases length_todo_run before (all.length + 1) ⟨[a], []⟩ with hnil | hlength
  · exact hnil
  · have hle := hfrom.nodup.length_le_of_subset hsub
    refine List.eq_nil_of_length_eq_zero ?_
    simp only [List.length_cons, List.length_nil] at hlength
    omega

/-- **A search sees what leads to its start**, and nothing else. -/
theorem mem_seen_run_iff {all : List α} (hall : ∀ b, ∀ c ∈ before b, c ∈ all) :
    b ∈ (run before (all.length + 1) ⟨[a], []⟩).seen ↔
      TransGen (fun b c => b ∈ before c) b a := by
  have hfrom := (from_start before a).run (all.length + 1)
  have hend := todo_run_eq_nil hall a
  refine ⟨hfrom.leads b, fun hchain => ?_⟩
  -- nothing is left to be looked at, so what is before a seen element was seen
  have hclosed : ∀ c, c = a ∨ c ∈ (run before (all.length + 1) ⟨[a], []⟩).seen →
      ∀ d ∈ before c, d ∈ (run before (all.length + 1) ⟨[a], []⟩).seen :=
    fun c hc => hfrom.closed c hc (by simp [hend])
  induction hchain using TransGen.head_induction_on with
  | single hb => exact hclosed a (.inl rfl) _ hb
  | head hb _ ih => exact hclosed _ (.inr ih) _ hb

end Search

/-- If each step between related elements goes with one on the other side, so does each chain. -/
theorem exists_transGen {α β : Type} {R : α → β → Prop} {r : α → α → Prop} {s : β → β → Prop}
    (hstep : ∀ a a' b, r a' a → R a b → ∃ b', R a' b' ∧ s b' b) {a a' : α} {b : β} (hab : R a b)
    (hchain : TransGen r a' a) : ∃ b', R a' b' ∧ TransGen s b' b := by
  induction hchain using TransGen.head_induction_on with
  | single hr =>
      obtain ⟨b', hb', hs⟩ := hstep _ _ b hr hab
      exact ⟨b', hb', .single hs⟩
  | head hr _ ih =>
      obtain ⟨b', hb', hchain⟩ := ih
      obtain ⟨b'', hb'', hs⟩ := hstep _ _ b' hr hb'
      exact ⟨b'', hb'', .head hs hchain⟩

namespace Graph

/-! ### Chains in a graph -/

theorem mem_sourcesOf {g : Graph} {p q : RealPath} : q ∈ g.sourcesOf p ↔ (q, p) ∈ g.edges := by
  simp [sourcesOf]

section

variable {g : Graph} (hg : g.Consistent)

include hg

theorem Consistent.mem_places_of_mem_sourcesOf (p q : RealPath) (hq : q ∈ g.sourcesOf p) :
    q ∈ g.places := by
  obtain ⟨⟨f, hf, hfq, -⟩, -⟩ := hg.due_of_mem _ (mem_sourcesOf.1 hq)
  exact mem_places.2 ⟨f, hf, hfq⟩

theorem Consistent.todo_searchFrom (p : RealPath) : (g.searchFrom p).todo = [] := by
  have hend := Search.todo_run_eq_nil hg.mem_places_of_mem_sourcesOf p
  rwa [places, List.length_map] at hend

/-- The files that depend on a file through others are those from which a chain of edges leads to its
place. -/
theorem Consistent.mem_transitiveDependents_iff {p : RealPath} {r : FileRef} :
    r ∈ g.transitiveDependents p ↔ ∃ q f, g.find? q = some f ∧ f.path = r ∧
      TransGen (fun q p => (q, p) ∈ g.edges) q p := by
  have hseen : ∀ q, q ∈ (g.searchFrom p).seen ↔ TransGen (fun q p => (q, p) ∈ g.edges) q p := by
    intro q
    have hiff := Search.mem_seen_run_iff (b := q) (a := p) hg.mem_places_of_mem_sourcesOf
    simp only [mem_sourcesOf] at hiff
    rwa [places, List.length_map] at hiff
  rw [transitiveDependents, Order.mem_sortedSet, List.mem_filterMap]
  simp only [hseen, Option.map_eq_some_iff]
  constructor
  · rintro ⟨q, hchain, f, hf, hr⟩
    exact ⟨q, f, hf, hr, hchain⟩
  · rintro ⟨q, f, hf, hr, hchain⟩
    exact ⟨q, hchain, f, hf, hr⟩

end

namespace Table

variable {t : Table} {g : Graph}

/-- A chain of one or more edges from one position to another. -/
def Chain (t : Table) : Nat → Nat → Prop := TransGen fun i j => (i, j) ∈ t.edges

theorem mem_sourcesOf {i j : Nat} : j ∈ t.sourcesOf i ↔ (j, i) ∈ t.edges := by
  simp [sourcesOf]

/-- A vertex that imports another one has an edge to its position. -/
theorem exists_edge_of_mem_dependents {q : RealPath} {f : SourceFile} (hf : f ∈ t.dependents q) :
    ∃ i j, t.position? q = some i ∧ t.vertex? j = some f ∧ (j, i) ∈ t.edges := by
  rw [dependents, neighbors] at hf
  split at hf
  · cases hf
  · next i hi =>
      have hsorted := Order.mem_sort.1 ((Order.dropRepeats_sublist _).mem hf)
      obtain ⟨⟨j, i'⟩, he, hj⟩ := List.mem_filterMap.1 hsorted
      obtain ⟨hedge, hii⟩ := List.mem_filter.1 he
      obtain rfl : i' = i := by simpa using hii
      exact ⟨i', j, hi, hj, hedge⟩

theorem inOrder_transitiveDependents (t : Table) (p : RealPath) :
    Order.InOrder (t.transitiveDependents p) := by
  rw [transitiveDependents]
  split
  · exact Order.inOrder_nil
  · exact Order.inOrder_sortedSet _

namespace StandsFor

section

variable (h : t.StandsFor g) (hg : g.Consistent)

include h hg

theorem mem_positions_of_mem_sourcesOf (i j : Nat) (hj : j ∈ t.sourcesOf i) :
    j ∈ t.vertices.map Prod.fst := by
  obtain ⟨f, -, hf, -⟩ := h.imports_of_mem_edges hg (mem_sourcesOf.1 hj)
  exact List.mem_map.2 ⟨(j, f), h.vertex?_eq_some_iff.1 hf, rfl⟩

theorem todo_searchFrom (i : Nat) : (t.searchFrom i).todo = [] := by
  have hend := Search.todo_run_eq_nil (h.mem_positions_of_mem_sourcesOf hg) i
  rwa [List.length_map] at hend

theorem mem_seen_searchFrom {i j : Nat} : j ∈ (t.searchFrom i).seen ↔ t.Chain j i := by
  have hiff := Search.mem_seen_run_iff (b := j) (a := i) (h.mem_positions_of_mem_sourcesOf hg)
  simp only [mem_sourcesOf] at hiff
  rwa [List.length_map] at hiff

theorem mem_transitiveDependents_iff {p : RealPath} {r : FileRef} :
    r ∈ t.transitiveDependents p ↔ ∃ i j f, t.position? p = some i ∧ t.vertex? j = some f ∧
      f.path = r ∧ t.Chain j i := by
  rw [transitiveDependents]
  cases hp : t.position? p with
  | none => simp
  | some i =>
      simp only [Order.mem_sortedSet, List.mem_filterMap, h.mem_seen_searchFrom hg,
        Option.map_eq_some_iff, Option.some.injEq]
      constructor
      · rintro ⟨j, hchain, f, hf, hr⟩
        exact ⟨i, j, f, rfl, hf, hr, hchain⟩
      · rintro ⟨_, j, f, rfl, hf, hr, hchain⟩
        exact ⟨j, hchain, f, hf, hr⟩

/-- A chain that ends at the position of a place starts at a position whose place leads there. -/
theorem exists_chain_of_table {i j : Nat} {p : RealPath} (hip : t.HoldsAt i p) (hchain : t.Chain j i) :
    ∃ q, t.HoldsAt j q ∧ TransGen (fun q p => (q, p) ∈ g.edges) q p := by
  refine exists_transGen ?_ hip hchain
  intro i k p hedge hip
  obtain ⟨⟨q, p'⟩, hd, hq, hp'⟩ := exists_of_mem_left h.joins hedge
  obtain rfl : p' = p := (h.position_eq_iff hg hip hp').1 rfl
  exact ⟨q, hq, hd⟩

theorem exists_chain_of_graph {i : Nat} {p q : RealPath} (hip : t.HoldsAt i p)
    (hchain : TransGen (fun q p => (q, p) ∈ g.edges) q p) : ∃ j, t.HoldsAt j q ∧ t.Chain j i := by
  refine exists_transGen (R := fun p i => t.HoldsAt i p) ?_ hip hchain
  intro p q i hd hip
  obtain ⟨⟨k, i'⟩, hedge, hk, hi'⟩ := exists_of_mem_right h.joins hd
  obtain rfl : i' = i := (h.position_eq_iff hg hip hi').2 rfl
  exact ⟨k, hk, hedge⟩

/-- A table finds by positions what the graph finds by places. -/
theorem transitiveDependents_eq (p : RealPath) :
    t.transitiveDependents p = g.transitiveDependents p := by
  refine (inOrder_transitiveDependents t p).ext (Order.inOrder_sortedSet _) fun r => ?_
  rw [h.mem_transitiveDependents_iff hg, hg.mem_transitiveDependents_iff]
  constructor
  · rintro ⟨i, j, f, hi, hf, hr, hchain⟩
    obtain ⟨q, hq, hpath⟩ := h.exists_chain_of_table hg (h.position?_eq_some_iff.1 hi) hchain
    exact ⟨q, f, by rw [← h.vertex?_eq_find? hg hq, hf], hr, hpath⟩
  · rintro ⟨q, f, hf, hr, hpath⟩
    -- the place that the chain leads to has a vertex, and so has a position
    obtain ⟨o, -, hlast⟩ := TransGen.tail'_iff.1 hpath
    obtain ⟨i, hip⟩ := h.mem_places_iff.1 (hg.due_of_mem _ hlast).2
    obtain ⟨j, hjq, hchain⟩ := h.exists_chain_of_graph hg hip hpath
    exact ⟨i, j, f, h.position?_eq_some_iff.2 hip, by rw [h.vertex?_eq_find? hg hjq, hf], hr, hchain⟩

/-- A vertex is among the files that depend on it if and only if it is on a cycle. -/
theorem self_mem_transitiveDependents_iff {p : RealPath} {i : Nat} {f : SourceFile}
    (hi : t.position? p = some i) (hf : t.vertex? i = some f) :
    f.path ∈ t.transitiveDependents p ↔ t.Chain i i := by
  rw [h.mem_transitiveDependents_iff hg]
  constructor
  · rintro ⟨i', j, k, hi', hk, hpath, hchain⟩
    obtain rfl : i = i' := Option.some.inj (hi.symm.trans hi')
    -- vertices with one place have one position
    have hji : j = i := (h.position_eq_iff hg ⟨f, h.vertex?_eq_some_iff.1 hf, rfl⟩
      ⟨k, h.vertex?_eq_some_iff.1 hk, rfl⟩).2 (by rw [hpath])
    exact hji ▸ hchain
  · intro hchain
    exact ⟨i, i, f, hi, hf, rfl, hchain⟩

/-- What imports a file, or one of the files that depend on it, depends on it. -/
theorem mem_transitiveDependents_of_mem_dependents {p q : RealPath} {f : SourceFile}
    (hq : q = p ∨ ∃ r ∈ t.transitiveDependents p, r.abs = q) (hf : f ∈ t.dependents q) :
    f.path ∈ t.transitiveDependents p := by
  obtain ⟨i, j, hi, hj, hedge⟩ := exists_edge_of_mem_dependents hf
  rw [h.mem_transitiveDependents_iff hg]
  rcases hq with rfl | ⟨r, hr, rfl⟩
  · exact ⟨i, j, f, hi, hj, rfl, .single hedge⟩
  · obtain ⟨start, k, m, hstart, hm, rfl, hchain⟩ := (h.mem_transitiveDependents_iff hg).1 hr
    have hki : k = i := (h.position_eq_iff hg (h.position?_eq_some_iff.1 hi)
      ⟨m, h.vertex?_eq_some_iff.1 hm, rfl⟩).2 rfl
    exact ⟨start, j, f, hstart, hj, rfl, .head (hki ▸ hedge) hchain⟩

end

end StandsFor

/-- **A file depends on another through others if and only if a chain of edges leads from it to the
other one.** In every table that changes lead to, the search for such files ends, and so it does in the
graph after the same changes. It finds, in order and each once, the files of the vertices from which a
chain of one or more edges leads to the vertex for a place, and none if there is no such vertex. The
file at the place is among them if and only if it is on a cycle. What imports it or one of the files
that are found is found too. The graph gives the same answer. -/
theorem Reached.transitiveDependents_eq_chains {changes : List Change} (h : Reached changes t)
    (p : RealPath) :
    (∀ i, (t.searchFrom i).todo = []) ∧ ((ofChanges changes).searchFrom p).todo = [] ∧
      (∀ r, r ∈ t.transitiveDependents p ↔ ∃ i j f, t.position? p = some i ∧
        t.vertex? j = some f ∧ f.path = r ∧ t.Chain j i) ∧
      Order.InOrder (t.transitiveDependents p) ∧
      (t.contains p = false → t.transitiveDependents p = []) ∧
      (∀ i f, t.position? p = some i → t.vertex? i = some f →
        (f.path ∈ t.transitiveDependents p ↔ t.Chain i i)) ∧
      (∀ q, (q = p ∨ ∃ r ∈ t.transitiveDependents p, r.abs = q) →
        ∀ f ∈ t.dependents q, f.path ∈ t.transitiveDependents p) ∧
      t.transitiveDependents p = (ofChanges changes).transitiveDependents p := by
  have hg := consistent_ofChanges changes
  have hs := h.standsFor
  refine ⟨hs.todo_searchFrom hg, hg.todo_searchFrom p, fun r => hs.mem_transitiveDependents_iff hg,
    inOrder_transitiveDependents t p, ?_, fun i f => hs.self_mem_transitiveDependents_iff hg,
    fun q hq f hf => hs.mem_transitiveDependents_of_mem_dependents hg hq hf,
    hs.transitiveDependents_eq hg p⟩
  intro hp
  have hnone : t.position? p = none := by simpa [contains] using hp
  rw [transitiveDependents, hnone]

/-- Two files that import each other, one that imports the first of them, and one that imports this one
and itself. The second file is added again after a link, since it imported nothing before. -/
def cyclicChanges : List Change :=
  [.add (importing (.of ["a"]) [.of ["b"]]), .add (importing (.of ["b"]) []),
    .add (importing (.of ["c"]) [.of ["a"]]), .add (importing (.of ["d"]) [.of ["c"], .of ["d"]]), .link,
    .add (importing (.of ["b"]) [.of ["a"]]), .link]

/-- A table after these changes. -/
def cyclicTable : Table :=
  let first := (({} : Table).add 0 (importing (.of ["a"]) [.of ["b"]])).add 1 (importing (.of ["b"]) [])
  let linked := ((first.add 2 (importing (.of ["c"]) [.of ["a"]])).add 3
    (importing (.of ["d"]) [.of ["c"], .of ["d"]])).link.value.1
  (linked.add 4 (importing (.of ["b"]) [.of ["a"]])).link.value.1

theorem Reached.transitiveDependents_eq_chains_cyclicTable :
    Reached cyclicChanges cyclicTable ∧
      (cyclicTable.transitiveDependents (.of ["a"])).map FileRef.abs =
        [.of ["a"], .of ["b"], .of ["c"], .of ["d"]] ∧
      (cyclicTable.transitiveDependents (.of ["c"])).map FileRef.abs = [.of ["d"]] ∧
      cyclicTable.Chain 4 4 ∧ ¬cyclicTable.Chain 2 2 ∧
      cyclicTable.transitiveDependents (.of ["a"]) =
        (ofChanges cyclicChanges).transitiveDependents (.of ["a"]) := by
  have h : Reached cyclicChanges cyclicTable :=
    ((((((Reached.start.add (by decide)).add (by decide +kernel)).add (by decide +kernel)).add
      (by decide +kernel)).link).add (by decide +kernel)).link
  have hb := (Reached.transitiveDependents_eq_chains h (.of ["b"])).2.2.2.2.2.1 4
    (importing (.of ["b"]) [.of ["a"]]) (by decide +kernel) (by decide +kernel)
  have hc := (Reached.transitiveDependents_eq_chains h (.of ["c"])).2.2.2.2.2.1 2
    (importing (.of ["c"]) [.of ["a"]]) (by decide +kernel) (by decide +kernel)
  refine ⟨h, by decide +kernel, by decide +kernel, hb.1 (by decide +kernel), fun hcycle => ?_,
    (Reached.transitiveDependents_eq_chains h (.of ["a"])).2.2.2.2.2.2.2⟩
  exact absurd (hc.2 hcycle) (by decide +kernel)

end Table

end Graph

end ImportAtlas
