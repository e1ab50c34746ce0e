import ImportAtlas.Proofs.Graph.Linking

/-!
# Graphs and their histories

A graph is kept up to date by adding, removing and linking in any order. What it holds in the end can
be read off the changes: a file *survives* if it was added and its place was not touched afterwards.
Once linked, the graph is the one that is built from the surviving files alone.

Main definitions:

* `ImportAtlas.Graph.Change` — a change to a graph;
* `ImportAtlas.Graph.ofChanges` — the graph after some changes to the empty one;
* `ImportAtlas.Graph.Survives` — the last file that was added at its place, unless that was removed.

Main results:

* `ImportAtlas.Graph.consistent_ofChanges` — every graph that changes lead to is consistent;
* `ImportAtlas.Graph.mem_files_ofChanges` — its vertices are the files that survive;
* `ImportAtlas.Graph.ofChanges_link_eq_rebuild` — **keeping a graph up to date agrees with building it
  anew**.
-/

set_option autoImplicit false

namespace ImportAtlas.Graph

/-- A change to a graph. A file is removed by a path, which need not name a place at all. -/
inductive Change where
  | add (file : SourceFile)
  | remove (path : Path)
  | link
deriving DecidableEq, Repr

namespace Change

/-- The graph after a change. -/
def apply (g : Graph) : Change → Graph
  | .add f => g.add f
  | .remove p =>
      match p.real? with
      | some place => g.remove place
      | none => g
  | .link => g.link.value.1

/-- Whether a change replaces or removes what is at a place. -/
def Touches (p : RealPath) : Change → Prop
  | .add f => f.path.abs = p
  | .remove path => path.real? = some p
  | .link => False

/-- The vertices after a change: the file that it adds, and those whose places it does not touch. -/
theorem mem_files_apply {g : Graph} {c : Change} {f : SourceFile} :
    f ∈ (c.apply g).files ↔ c = .add f ∨ (f ∈ g.files ∧ ¬c.Touches f.path.abs) := by
  cases c with
  | add h =>
      simp only [apply, mem_files_add, Touches, Change.add.injEq]
      rw [eq_comm, ne_comm]
  | remove path =>
      simp only [apply, Touches]
      cases path.real? with
      | none => simp
      | some place => simp [eq_comm]
  | link => simp [apply, Touches]

theorem consistent_apply {g : Graph} (hg : g.Consistent) (c : Change) : (c.apply g).Consistent := by
  cases c with
  | add f => exact hg.add f
  | remove path =>
      simp only [apply]
      cases path.real? with
      | none => exact hg
      | some place => exact hg.remove place
  | link => exact hg.link

end Change

/-! ### Histories -/

/-- The graph after some changes to the empty graph. -/
def ofChanges (changes : List Change) : Graph := changes.foldl Change.apply {}

theorem ofChanges_concat (changes : List Change) (c : Change) :
    ofChanges (changes ++ [c]) = c.apply (ofChanges changes) := by
  simp [ofChanges]

/-- Every graph that changes lead to is consistent. -/
theorem consistent_ofChanges (changes : List Change) : (ofChanges changes).Consistent := by
  induction changes using List.reverseRecOn with
  | nil => exact consistent_empty
  | append_singleton changes c ih =>
      rw [ofChanges_concat]
      exact Change.consistent_apply ih c

/-- A file survives some changes if one of them adds it and no later one touches its place. -/
def Survives (changes : List Change) (f : SourceFile) : Prop :=
  ∃ before later, changes = before ++ .add f :: later ∧ ∀ c ∈ later, ¬c.Touches f.path.abs

theorem not_survives_nil (f : SourceFile) : ¬Survives [] f := by
  rintro ⟨before, later, h, -⟩
  simp at h

theorem survives_concat {changes : List Change} {c : Change} {f : SourceFile} :
    Survives (changes ++ [c]) f ↔
      c = .add f ∨ (Survives changes f ∧ ¬c.Touches f.path.abs) := by
  constructor
  · rintro ⟨before, later, h, hl⟩
    -- either the file is added last, or `c` is the last of the later changes
    rcases List.eq_nil_or_concat' later with rfl | ⟨later, d, rfl⟩
    · exact Or.inl (by simpa using (List.append_inj' h rfl).2)
    · rw [← List.cons_append, ← List.append_assoc] at h
      obtain ⟨rfl, hd⟩ := List.append_inj' h rfl
      obtain rfl : c = d := by simpa using hd
      exact Or.inr ⟨⟨before, later, rfl, fun c hc => hl c (by simp [hc])⟩, hl c (by simp)⟩
  · rintro (rfl | ⟨⟨before, later, rfl, hl⟩, hc⟩)
    · exact ⟨changes, [], rfl, by simp⟩
    · refine ⟨before, later ++ [c], by simp, ?_⟩
      intro d hd
      rcases List.mem_append.1 hd with hd | hd
      · exact hl d hd
      · rwa [List.mem_singleton.1 hd]

/-- The vertices are the files that survive. -/
theorem mem_files_ofChanges {changes : List Change} {f : SourceFile} :
    f ∈ (ofChanges changes).files ↔ Survives changes f := by
  induction changes using List.reverseRecOn with
  | nil => simpa [ofChanges] using not_survives_nil f
  | append_singleton changes c ih =>
      rw [ofChanges_concat, Change.mem_files_apply, survives_concat, ih]

/-- A graph is due the edges between surviving files. -/
theorem due_ofChanges {changes : List Change} {u v : RealPath} :
    (ofChanges changes).Due (u, v) ↔
      ∃ f h, Survives changes f ∧ Survives changes h ∧ f.path.abs = u ∧ h.path.abs = v ∧
        ∃ i ∈ f.imports, i.abs = v := by
  simp only [Due, mem_places, mem_files_ofChanges]
  constructor
  · rintro ⟨⟨f, hf, hu, hi⟩, h, hh, hv⟩
    exact ⟨f, h, hf, hh, hu, hv, hi⟩
  · rintro ⟨f, h, hf, hh, hu, hv, hi⟩
    exact ⟨⟨f, hf, hu, hi⟩, h, hh, hv⟩

/-- Adding files one after the other is adding them all. -/
theorem ofChanges_map_add (files : List SourceFile) : ofChanges (files.map .add) = addAll files := by
  simp only [ofChanges, addAll, List.foldl_map]
  rfl

/-- Two files that survive at one place are one file. -/
theorem Survives.file_eq {changes : List Change} {f h : SourceFile} (hf : Survives changes f)
    (hh : Survives changes h) (he : f.path.abs = h.path.abs) : f = h :=
  (consistent_ofChanges changes).file_eq (mem_files_ofChanges.2 hf) (mem_files_ofChanges.2 hh) he

/-- The graph of the surviving files, before it is linked, has the vertices of the graph that was kept
up to date. -/
theorem mem_files_rebuild {changes : List Change} {files : List SourceFile}
    (h : ∀ f, f ∈ files ↔ Survives changes f) (f : SourceFile) :
    f ∈ (ofChanges (files.map .add)).files ↔ f ∈ (ofChanges changes).files := by
  have hu : ∀ f ∈ files, ∀ k ∈ files, f.path.abs = k.path.abs → f = k := by
    intro f hf k hk hp
    exact ((h f).1 hf).file_eq ((h k).1 hk) hp
  rw [ofChanges_map_add, mem_files_addAll hu, h, mem_files_ofChanges]

/-- **Keeping a graph up to date agrees with building it anew.** After any changes and a link, the
vertices are the files that survive, each once, and two places are joined by an edge if and only if
surviving files are there and the first imports the second. Adding the surviving files to the empty
graph, in any order, and linking once gives the same vertices and joins the same places. A further
link makes no edge. -/
theorem ofChanges_link_eq_rebuild (changes : List Change) :
    (ofChanges (changes ++ [.link])).places.Nodup ∧
      (∀ f, f ∈ (ofChanges (changes ++ [.link])).files ↔ Survives changes f) ∧
      (∀ u v, (u, v) ∈ (ofChanges (changes ++ [.link])).edges ↔
        ∃ f h, Survives changes f ∧ Survives changes h ∧ f.path.abs = u ∧ h.path.abs = v ∧
          ∃ i ∈ f.imports, i.abs = v) ∧
      (∀ files : List SourceFile, (∀ f, f ∈ files ↔ Survives changes f) →
        (ofChanges (files.map .add ++ [.link])).files.Perm (ofChanges (changes ++ [.link])).files ∧
          ∀ e, e ∈ (ofChanges (files.map .add ++ [.link])).edges ↔
            e ∈ (ofChanges (changes ++ [.link])).edges) ∧
      (ofChanges (changes ++ [.link])).link.value = (ofChanges (changes ++ [.link]), 0) := by
  have hg := consistent_ofChanges changes
  simp only [ofChanges_concat, Change.apply]
  refine ⟨hg.link.nodup_places, ?_, ?_, ?_, link_link _⟩
  · intro f
    rw [files_link, mem_files_ofChanges]
  · intro u v
    rw [hg.mem_edges_link, due_ofChanges]
  · intro files hfiles
    have hr := consistent_ofChanges (files.map .add)
    have hmem := mem_files_rebuild hfiles
    constructor
    · rw [files_link, files_link]
      exact hr.perm_files hg hmem
    · intro e
      rw [hr.mem_edges_link, hg.mem_edges_link, due_congr hmem]

end ImportAtlas.Graph
