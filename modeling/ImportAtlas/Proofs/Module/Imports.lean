import ImportAtlas.Analysis
import ImportAtlas.Proofs.Order

/-!
# What resolution yields

The references in the imports of a file are made from what the finder finds, and from nothing else.
So whatever holds of each reference to a found module holds of each import. In particular the imports
of all files have one root, and two imports of a file never have the same place.

Main definitions:

* `ImportAtlas.Resolver.Finds` — a property of all references to modules that the finder finds in
  directories of some kind.

Main results:

* `ImportAtlas.Resolver.Finds.load` — **such a property holds of all imports**;
* `ImportAtlas.Resolver.root_of_mem_imports` — imports have the root of the resolver;
* `ImportAtlas.Resolver.nodup_imports` — the imports of a file have different places.
-/

set_option autoImplicit false

namespace ImportAtlas

/-- What holds at the beginning and is kept by each step holds of the value of a fold. -/
theorem Logged.foldlM_induction {α β : Type} {f : β → α → Logged β} (P : β → Prop)
    (hstep : ∀ b a, P b → P (f b a).value) (l : List α) {b : β} (hb : P b) :
    P (l.foldlM f b).value := by
  induction l generalizing b with
  | nil => exact hb
  | cons a l ih =>
      rw [List.foldlM_cons, value_bind]
      exact ih (hstep b a hb)

/-- References with one root are told apart by their places. -/
theorem FileRef.eq_of_abs {i j : FileRef} (hr : i.root = j.root) (ha : i.abs = j.abs) : i = j := by
  cases i
  cases j
  simp_all

namespace Resolver

/-- A property of all references to modules that the finder finds in directories of some kind, and to the
initializers of such directories. The directories in which modules are searched are of that kind, and so
are the packages that are found. -/
structure Finds (r : Resolver) (D : Path → Prop) (P : FileRef → Prop) : Prop where
  search : ∀ dir ∈ r.searchPath, D dir
  package : ∀ module, ∀ name ∈ segments module, ∀ dirs dir, (∀ d ∈ dirs, D d) →
    r.finder.find? name dirs = some (.package dir) → D dir ∧ P (r.ref (dir.join initializer))
  source : ∀ module, ∀ name ∈ segments module, ∀ dirs file, (∀ d ∈ dirs, D d) →
    r.finder.find? name dirs = some (.source file) → P (r.ref file)
  initializer : ∀ dir, D dir → r.finder.isPackage dir = true → P (r.ref (dir.join initializer))

/-- Relative names in a file are seen from directories of some kind. -/
def SeenFrom (D : Path → Prop) (importer : FileRef) : Prop :=
  ∀ level base, base? (RealPath.toPath importer.abs) level = some base → D base

namespace Finds

variable {r : Resolver} {D : Path → Prop} {P : FileRef → Prop}

theorem chain (h : r.Finds D P) {module : String} {names : List String}
    (hn : ∀ n ∈ names, n ∈ segments module) {dirs : List Path} (hd : ∀ d ∈ dirs, D d)
    {refs : List FileRef} (hr : r.chain module names dirs = .ok refs) : ∀ i ∈ refs, P i := by
  induction names generalizing dirs refs with
  | nil =>
      obtain rfl : [] = refs := by simpa [Resolver.chain] using hr
      simp
  | cons name rest ih =>
      obtain ⟨hname, hrest⟩ := List.forall_mem_cons.1 hn
      rw [Resolver.chain] at hr
      split at hr
      · cases hr
      · next dir hf =>
          obtain ⟨hdir, hp⟩ := h.package module name hname dirs dir hd hf
          split at hr
          · next refs' hc =>
              cases hr
              intro i hi
              rcases Order.mem_insertNew.1 hi with rfl | hi
              · exact hp
              · exact ih hrest (by simpa using hdir) hc i hi
          · cases hr
      · next file hf =>
          split at hr
          · cases hr
            intro i hi
            rw [List.mem_singleton.1 hi]
            exact h.source module name hname dirs file hd hf
          · cases hr

theorem resolveIn (h : r.Finds D P) {module : String} {dirs : List Path} (hd : ∀ d ∈ dirs, D d)
    {refs : List FileRef} (hr : r.resolveIn module dirs = .ok refs) : ∀ i ∈ refs, P i := by
  rw [Resolver.resolveIn] at hr
  split at hr
  · cases hr
  · exact h.chain (fun _ hn => hn) hd hr

theorem initializerOf (h : r.Finds D P) {dir : Path} (hd : D dir) :
    ∀ i ∈ r.initializerOf dir, P i := by
  rw [Resolver.initializerOf]
  split
  · next hp =>
      intro i hi
      rw [List.mem_singleton.1 hi]
      exact h.initializer dir hd hp
  · simp

theorem resolveRelative (h : r.Finds D P) {importer : FileRef} (himporter : SeenFrom D importer)
    {level : Nat} {module : Option String} {refs : List FileRef}
    (hr : r.resolveRelative (RealPath.toPath importer.abs) level module = .ok refs) :
    ∀ i ∈ refs, P i := by
  rw [Resolver.resolveRelative] at hr
  split at hr
  · cases hr
  · next base hbase =>
      have hd : D base := himporter level base hbase
      split at hr
      · cases hr
        exact h.initializerOf hd
      · split at hr
        · next refs' hc =>
            cases hr
            intro i hi
            rcases Order.mem_union.1 hi with hi | hi
            · exact h.initializerOf hd i hi
            · exact h.resolveIn (by simpa using hd) hc i hi
        · cases hr

theorem resolveTarget (h : r.Finds D P) {importer : FileRef} (himporter : SeenFrom D importer)
    {target : Target} {refs : List FileRef} (hr : r.resolveTarget importer target = .ok refs) :
    ∀ i ∈ refs, P i := by
  cases target with
  | absolute module => exact h.resolveIn h.search hr
  | relative level module => exact h.resolveRelative himporter hr

theorem absorb (h : r.Finds D P) {importer : FileRef} (himporter : SeenFrom D importer)
    {found : SortedSet FileRef} (hf : ∀ i ∈ found, P i) (reference : Reference) :
    ∀ i ∈ (r.absorb importer found reference).value, P i := by
  rw [Resolver.absorb]
  split
  · next refs hr =>
      intro i hi
      rcases SortedSet.mem_insertAll.1 hi with hi | hi
      · exact h.resolveTarget himporter hr i hi
      · exact hf i hi
  · split <;> exact hf

theorem resolveStatements (h : r.Finds D P) {importer : FileRef} (himporter : SeenFrom D importer)
    (statements : List Python.ImportStatement) :
    ∀ i ∈ (r.resolveStatements importer statements).value, P i := by
  refine Logged.foldlM_induction (fun found => ∀ i ∈ found, P i) ?_ _ (by simp)
  intro found reference hf
  exact h.absorb himporter hf reference

/-- **A property of all that the finder finds is one of all imports.** -/
theorem load (h : r.Finds D P) {file : FileRef} (hfile : SeenFrom D file) :
    ∀ i ∈ (r.load file).value.imports, P i := by
  rw [Resolver.load]
  split
  · exact h.resolveStatements hfile _
  · simp

end Finds

/-! ### Roots and places of imports -/

theorem finds_root (r : Resolver) :
    r.Finds (fun _ => True) fun i => i.root = r.site.canonicalize r.root :=
  ⟨fun _ _ => trivial, fun _ _ _ _ _ _ _ => ⟨trivial, rfl⟩, fun _ _ _ _ _ _ _ => rfl,
    fun _ _ _ => rfl⟩

/-- Imports have the root of the resolver. -/
theorem root_of_mem_imports (r : Resolver) {file i : FileRef}
    (hi : i ∈ (r.load file).value.imports) : i.root = r.site.canonicalize r.root :=
  r.finds_root.load (fun _ _ _ => trivial) i hi

/-- References in order with one root have different places. -/
theorem nodup_places {refs : List FileRef} {root : RealPath} (horder : Order.InOrder refs)
    (hroot : ∀ i ∈ refs, i.root = root) : (refs.map (·.abs)).Nodup := by
  refine List.Nodup.map_on ?_ horder.nodup
  intro i hi j hj ha
  refine FileRef.eq_of_abs ?_ ha
  rw [hroot i hi, hroot j hj]

/-- The imports of a file have different places. -/
theorem nodup_imports (r : Resolver) (file : FileRef) :
    ((r.load file).value.imports.toList.map (·.abs)).Nodup :=
  nodup_places (r.load file).value.imports.inOrder fun _ hi => r.root_of_mem_imports hi

end Resolver

end ImportAtlas
