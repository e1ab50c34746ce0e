import ImportAtlas.Graph.Basic
import Mathlib.Data.List.Induction
import Mathlib.Data.List.Nodup

/-!
# What linking adds

An edge between two places is *due* if both have a vertex and the file at the first imports the
second. A graph is *consistent* if its vertices have different places and all its edges are due. Every
change keeps a graph consistent, and linking adds all the edges that are due and not there yet. So
linking is the only step at which edges appear, and after it they are exactly the due ones.

Main definitions:

* `ImportAtlas.Graph.Due` — an edge that the imports ask for;
* `ImportAtlas.Graph.Consistent` — vertices are told apart by their places, and edges are due.

Main results:

* `ImportAtlas.Graph.mem_files_remove`, `ImportAtlas.Graph.mem_files_add`,
  `ImportAtlas.Graph.mem_edges_link` — what each change does to vertices and edges;
* `ImportAtlas.Graph.Consistent.remove`, `ImportAtlas.Graph.Consistent.add`,
  `ImportAtlas.Graph.Consistent.link` — **every change keeps a graph consistent**;
* `ImportAtlas.Graph.Consistent.mem_edges_link` — **after linking, the edges are the due ones**;
* `ImportAtlas.Graph.mem_files_addAll` — the vertices after adding a list of files;
* `ImportAtlas.Graph.nodup_newEdges` — no edge is made twice, if no file imports a place twice.
-/

set_option autoImplicit false

namespace ImportAtlas.Graph

/-! ### Vertices -/

/-- The places of the vertices. -/
def places (g : Graph) : List RealPath := g.files.map (·.path.abs)

theorem mem_places {g : Graph} {p : RealPath} : p ∈ g.places ↔ ∃ f ∈ g.files, f.path.abs = p := by
  simp [places]

theorem contains_iff {g : Graph} {p : RealPath} : g.contains p = true ↔ p ∈ g.places := by
  simp [contains, find?, mem_places]

@[simp] theorem mem_files_remove {g : Graph} {p : RealPath} {f : SourceFile} :
    f ∈ (g.remove p).files ↔ f ∈ g.files ∧ f.path.abs ≠ p := by
  simp [remove]

@[simp] theorem mem_edges_remove {g : Graph} {p : RealPath} {e : RealPath × RealPath} :
    e ∈ (g.remove p).edges ↔ e ∈ g.edges ∧ e.1 ≠ p ∧ e.2 ≠ p := by
  simp [remove]

@[simp] theorem mem_files_add {g : Graph} {f h : SourceFile} :
    h ∈ (g.add f).files ↔ h = f ∨ (h ∈ g.files ∧ h.path.abs ≠ f.path.abs) := by
  rw [add, List.mem_append, mem_files_remove, List.mem_singleton]
  exact or_comm

@[simp] theorem edges_add (g : Graph) (f : SourceFile) :
    (g.add f).edges = (g.remove f.path.abs).edges := rfl

@[simp] theorem files_link (g : Graph) : g.link.value.1.files = g.files := rfl

@[simp] theorem edges_link (g : Graph) : g.link.value.1.edges = g.edges ++ g.newEdges := rfl

@[simp] theorem link_count (g : Graph) : g.link.value.2 = g.newEdges.length := rfl

/-! ### Due edges -/

/-- The edge asked for by the imports: the file at its first place imports its second, where there is
a vertex too. -/
def Due (g : Graph) (e : RealPath × RealPath) : Prop :=
  (∃ f ∈ g.files, f.path.abs = e.1 ∧ ∃ i ∈ f.imports, i.abs = e.2) ∧ e.2 ∈ g.places

/-- Whether an edge is due depends on the vertices alone. -/
theorem due_congr {g h : Graph} (hf : ∀ f, f ∈ g.files ↔ f ∈ h.files) (e : RealPath × RealPath) :
    g.Due e ↔ h.Due e := by
  simp only [Due, mem_places, hf]

theorem mem_missingEdges {g : Graph} {f : SourceFile} {e : RealPath × RealPath} :
    e ∈ g.missingEdges f ↔
      f.path.abs = e.1 ∧ (∃ i ∈ f.imports, i.abs = e.2) ∧ e.2 ∈ g.places ∧ e ∉ g.edges := by
  simp only [missingEdges, List.mem_filterMap, contains_iff]
  constructor
  · rintro ⟨i, hi, h⟩
    split at h
    · next hc =>
        obtain rfl := Option.some.inj h
        exact ⟨rfl, ⟨i, hi, rfl⟩, hc⟩
    · exact absurd h (by simp)
  · rintro ⟨h₁, ⟨i, hi, h₂⟩, hp, he⟩
    obtain ⟨u, v⟩ := e
    obtain rfl : f.path.abs = u := h₁
    obtain rfl : i.abs = v := h₂
    exact ⟨i, hi, if_pos ⟨hp, he⟩⟩

/-- The edges that linking makes are those that are due and not there. -/
theorem mem_newEdges {g : Graph} {e : RealPath × RealPath} :
    e ∈ g.newEdges ↔ g.Due e ∧ e ∉ g.edges := by
  simp only [newEdges, List.mem_flatMap, mem_missingEdges, Due]
  constructor
  · rintro ⟨f, hf, h₁, h₂, hp, he⟩
    exact ⟨⟨⟨f, hf, h₁, h₂⟩, hp⟩, he⟩
  · rintro ⟨⟨⟨f, hf, h₁, h₂⟩, hp⟩, he⟩
    exact ⟨f, hf, h₁, h₂, hp, he⟩

theorem mem_edges_link {g : Graph} {e : RealPath × RealPath} :
    e ∈ g.link.value.1.edges ↔ e ∈ g.edges ∨ g.Due e := by
  rw [edges_link, List.mem_append, mem_newEdges]
  by_cases he : e ∈ g.edges <;> simp [he]

/-- If all due edges are there, linking makes none. -/
theorem newEdges_eq_nil {g : Graph} (h : ∀ e, g.Due e → e ∈ g.edges) : g.newEdges = [] := by
  refine List.eq_nil_iff_forall_not_mem.2 fun e he => ?_
  obtain ⟨hd, hn⟩ := mem_newEdges.1 he
  exact hn (h e hd)

/-- **A second link does nothing.** -/
theorem link_link (g : Graph) :
    g.link.value.1.link.value = (g.link.value.1, 0) := by
  have hnil : g.link.value.1.newEdges = [] := by
    refine newEdges_eq_nil fun e he => mem_edges_link.2 (Or.inr ?_)
    exact (due_congr (fun f => by rw [files_link]) e).1 he
  have hg : g.link.value.1.link.value.1 = g.link.value.1 := by
    rw [show g.link.value.1.link.value.1 =
      { g.link.value.1 with edges := g.link.value.1.edges ++ g.link.value.1.newEdges } from rfl,
      hnil, List.append_nil]
  refine Prod.ext hg ?_
  rw [link_count, hnil]
  rfl

/-! ### Consistent graphs -/

/-- Vertices have different places, and every edge is due. -/
structure Consistent (g : Graph) : Prop where
  nodup_places : g.places.Nodup
  due_of_mem : ∀ e ∈ g.edges, g.Due e

theorem consistent_empty : Consistent {} := ⟨by simp [places], by simp⟩

/-- At one place of a consistent graph there is at most one vertex. -/
theorem Consistent.file_eq {g : Graph} (hg : g.Consistent) {f h : SourceFile} (hf : f ∈ g.files)
    (hh : h ∈ g.files) (he : f.path.abs = h.path.abs) : f = h :=
  List.inj_on_of_nodup_map hg.nodup_places hf hh he

theorem Consistent.remove {g : Graph} (hg : g.Consistent) (p : RealPath) :
    (g.remove p).Consistent := by
  constructor
  · exact hg.nodup_places.sublist (List.filter_sublist.map _)
  · intro e he
    obtain ⟨he, h₁, h₂⟩ := mem_edges_remove.1 he
    obtain ⟨⟨f, hf, hfe, hi⟩, hp⟩ := hg.due_of_mem e he
    obtain ⟨h, hh, hhe⟩ := mem_places.1 hp
    refine ⟨⟨f, mem_files_remove.2 ⟨hf, ?_⟩, hfe, hi⟩, ?_⟩
    · rwa [hfe]
    · exact mem_places.2 ⟨h, mem_files_remove.2 ⟨hh, by rwa [hhe]⟩, hhe⟩

theorem Consistent.add {g : Graph} (hg : g.Consistent) (f : SourceFile) :
    (g.add f).Consistent := by
  have hr := hg.remove f.path.abs
  have hfiles : (g.add f).files = (g.remove f.path.abs).files ++ [f] := rfl
  constructor
  · -- the place of `f` was freed before `f` was put at the end
    rw [places, hfiles, List.map_append]
    refine List.Nodup.append hr.nodup_places (by simp) ?_
    intro p hp hpf
    obtain ⟨h, hh, rfl⟩ := mem_places.1 hp
    exact (mem_files_remove.1 hh).2 (by simpa using hpf)
  · intro e he
    obtain ⟨⟨h, hh, hhe, hi⟩, hp⟩ := hr.due_of_mem e he
    obtain ⟨k, hk, hke⟩ := mem_places.1 hp
    have hmem : ∀ {h}, h ∈ (g.remove f.path.abs).files → h ∈ (g.add f).files := by
      intro h hh
      rw [hfiles]
      exact List.mem_append_left _ hh
    exact ⟨⟨h, hmem hh, hhe, hi⟩, mem_places.2 ⟨k, hmem hk, hke⟩⟩

theorem Consistent.link {g : Graph} (hg : g.Consistent) : g.link.value.1.Consistent := by
  constructor
  · exact hg.nodup_places
  · intro e he
    have hd : g.Due e := (mem_edges_link.1 he).elim (hg.due_of_mem e) id
    exact (due_congr (fun f => by rw [files_link]) e).2 hd

/-- **After linking, the edges of a consistent graph are the due ones.** -/
theorem Consistent.mem_edges_link {g : Graph} (hg : g.Consistent) {e : RealPath × RealPath} :
    e ∈ g.link.value.1.edges ↔ g.Due e := by
  rw [Graph.mem_edges_link]
  exact ⟨fun h => h.elim (hg.due_of_mem e) id, Or.inr⟩

/-- Consistent graphs with the same vertices have them the same number of times. -/
theorem Consistent.perm_files {g h : Graph} (hg : g.Consistent) (hh : h.Consistent)
    (hf : ∀ f, f ∈ g.files ↔ f ∈ h.files) : g.files.Perm h.files :=
  (List.perm_ext_iff_of_nodup hg.nodup_places.of_map hh.nodup_places.of_map).2 hf

/-! ### Adding many files -/

/-- The graph of some files before it is linked. -/
def addAll (files : List SourceFile) : Graph := files.foldl add {}

theorem addAll_concat (files : List SourceFile) (f : SourceFile) :
    addAll (files ++ [f]) = (addAll files).add f := by
  simp [addAll]

theorem consistent_addAll (files : List SourceFile) : (addAll files).Consistent := by
  induction files using List.reverseRecOn with
  | nil => exact consistent_empty
  | append_singleton files f ih =>
      rw [addAll_concat]
      exact ih.add f

theorem edges_addAll (files : List SourceFile) : (addAll files).edges = [] := by
  induction files using List.reverseRecOn with
  | nil => rfl
  | append_singleton files f ih => simp [addAll_concat, remove, ih]

/-- If files at one place are one file, then all of them are vertices in the end. -/
theorem mem_files_addAll {files : List SourceFile}
    (h : ∀ f ∈ files, ∀ k ∈ files, f.path.abs = k.path.abs → f = k) (f : SourceFile) :
    f ∈ (addAll files).files ↔ f ∈ files := by
  induction files using List.reverseRecOn with
  | nil => simp [addAll]
  | append_singleton files k ih =>
      have hih := ih fun f hf k hk => h f (by simp [hf]) k (by simp [hk])
      rw [addAll_concat, mem_files_add, hih, List.mem_append, List.mem_singleton]
      constructor
      · rintro (hf | ⟨hf, -⟩)
        · exact Or.inr hf
        · exact Or.inl hf
      · rintro (hf | hf)
        · -- adding `k` takes away what was at its place, which can only be `k` itself
          by_cases hp : f.path.abs = k.path.abs
          · exact Or.inl (h f (by simp [hf]) k (by simp) hp)
          · exact Or.inr ⟨hf, hp⟩
        · exact Or.inl hf

/-! ### Parallel edges -/

theorem missingEdges_eq (g : Graph) (f : SourceFile) :
    g.missingEdges f =
      ((f.imports.toList.map (·.abs)).filter fun p =>
        g.contains p ∧ (f.path.abs, p) ∉ g.edges).map (Prod.mk f.path.abs) := by
  rw [missingEdges]
  induction f.imports.toList with
  | nil => rfl
  | cons i imports ih =>
      rw [List.filterMap_cons, List.map_cons, List.filter_cons, ih]
      by_cases h : g.contains i.abs ∧ (f.path.abs, i.abs) ∉ g.edges <;> simp [h]

/-- A file whose imports have different places asks for no edge twice. -/
theorem nodup_missingEdges (g : Graph) {f : SourceFile} (hf : (f.imports.toList.map (·.abs)).Nodup) :
    (g.missingEdges f).Nodup := by
  rw [missingEdges_eq]
  exact (hf.filter _).map fun _ _ h => (Prod.mk.inj h).2

/-- Linking makes no edge twice, if no file imports a place twice. -/
theorem nodup_newEdges {g : Graph} (hg : g.places.Nodup)
    (h : ∀ f ∈ g.files, (f.imports.toList.map (·.abs)).Nodup) : g.newEdges.Nodup := by
  rw [newEdges, List.nodup_flatMap]
  refine ⟨fun f hf => nodup_missingEdges g (h f hf), ?_⟩
  have hne : g.files.Pairwise fun f k => f.path.abs ≠ k.path.abs := List.pairwise_map.1 hg
  refine hne.imp fun {f k} hfk e he hk => ?_
  exact hfk ((mem_missingEdges.1 he).1.trans (mem_missingEdges.1 hk).1.symm)

end ImportAtlas.Graph
