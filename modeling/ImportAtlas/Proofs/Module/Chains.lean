import ImportAtlas.Module.Resolver

/-!
# Chains of packages

A dotted name is resolved along a chain of packages: its first part is searched in the given
directories, and each further part in the package that was found for the part before. What comes of
resolving a name can be read off that chain alone, whatever the finder does. If the chain takes up all
parts, or all but a last one that is a file, the result holds the initializers of its packages and
that file. Otherwise the part at which it breaks off tells why the name cannot be resolved.

Main definitions:

* `ImportAtlas.Finder.Packages` — names that are found as packages, one inside the other;
* `ImportAtlas.Resolver.Outcome` — what may come of resolving a name in some directories.

Main results:

* `ImportAtlas.Resolver.chain_append` — resolving goes on behind a chain of packages;
* `ImportAtlas.Finder.exists_packages` — how far the chain of a name goes;
* `ImportAtlas.Resolver.resolve_eq_iff_outcome` — **the chain of packages tells what comes of resolving
  a name**.
-/

set_option autoImplicit false

namespace ImportAtlas

namespace Finder

/-! ### Packages inside packages -/

/-- The directories in which the name behind some packages is searched: the last of these packages, or
the directories that the first one was searched in. -/
def searchedBehind (dirs packages : List Path) : List Path :=
  match packages.getLast? with
  | some dir => [dir]
  | none => dirs

@[simp] theorem searchedBehind_nil (dirs : List Path) : searchedBehind dirs [] = dirs := rfl

@[simp] theorem searchedBehind_cons (dirs : List Path) (dir : Path) (packages : List Path) :
    searchedBehind dirs (dir :: packages) = searchedBehind [dir] packages := by
  cases packages with
  | nil => rfl
  | cons next packages => simp [searchedBehind, List.getLast?_cons]

/-- Names that are found as packages: the first one in some directories, and each further one in the
package before. -/
inductive Packages (f : Finder) : List Path → List String → List Path → Prop
  | nil (dirs : List Path) : f.Packages dirs [] []
  | cons {dirs : List Path} {name : String} {dir : Path} {names : List String} {packages : List Path}
      (found : f.find? name dirs = some (.package dir)) (rest : f.Packages [dir] names packages) :
      f.Packages dirs (name :: names) (dir :: packages)

variable {f : Finder}

theorem Packages.length_eq {dirs packages : List Path} {names : List String}
    (h : f.Packages dirs names packages) : packages.length = names.length := by
  induction h with
  | nil => rfl
  | cons _ _ ih => simp [ih]

/-- The chain of some names goes on until there is no package for the next one. -/
theorem exists_packages (f : Finder) (names : List String) (dirs : List Path) :
    ∃ front back packages, names = front ++ back ∧ f.Packages dirs front packages ∧
      ∀ name rest, back = name :: rest →
        ∀ dir, f.find? name (searchedBehind dirs packages) ≠ some (.package dir) := by
  induction names generalizing dirs with
  | nil => exact ⟨[], [], [], rfl, .nil dirs, by simp⟩
  | cons name names ih =>
      by_cases hname : ∃ dir, f.find? name dirs = some (.package dir)
      · obtain ⟨dir, hdir⟩ := hname
        obtain ⟨front, back, packages, rfl, hpackages, hback⟩ := ih [dir]
        refine ⟨name :: front, back, dir :: packages, rfl, .cons hdir hpackages, ?_⟩
        simpa using hback
      · refine ⟨[], name :: names, [], rfl, .nil dirs, ?_⟩
        rintro name' rest h dir hdir
        obtain ⟨rfl, rfl⟩ := List.cons.inj h
        exact hname ⟨dir, hdir⟩

end Finder

namespace Resolver

open Finder (searchedBehind)

variable {r : Resolver} {module : String} {dirs : List Path}

/-- The initializers of some packages. -/
def initializers (r : Resolver) (packages : List Path) : List FileRef :=
  packages.map fun dir => r.ref (dir.join initializer)

/-! ### Resolving along a chain -/

/-- **Behind a chain of packages, resolving goes on in the last of them**, and the initializers of all
of them are added to what comes of it. -/
theorem chain_append {names : List String} {packages : List Path}
    (h : r.finder.Packages dirs names packages) (rest : List String) :
    r.chain module (names ++ rest) dirs =
      (r.chain module rest (searchedBehind dirs packages)).map
        (Order.union (r.initializers packages)) := by
  induction h with
  | nil dirs =>
      rw [List.nil_append, Finder.searchedBehind_nil]
      cases r.chain module rest dirs <;> rfl
  | cons found _ ih =>
      rw [List.cons_append, chain, found, Finder.searchedBehind_cons]
      simp only [ih]
      cases r.chain module rest _ <;> rfl

/-- What may come of resolving a name in some directories. -/
inductive Outcome (r : Resolver) (module : String) (dirs : List Path) :
    Except ResolveError (List FileRef) → Prop
  /-- A part is empty. -/
  | invalidName (empty : "" ∈ segments module) :
      r.Outcome module dirs (.error (.invalidName module))
  /-- All parts are packages. -/
  | package {packages : List Path} (valid : "" ∉ segments module)
      (chain : r.finder.Packages dirs (segments module) packages) :
      r.Outcome module dirs (.ok (Order.sortedSet (r.initializers packages)))
  /-- The last part is a file, and all parts before it are packages. -/
  | source {names : List String} {name : String} {packages : List Path} {file : Path}
      (valid : "" ∉ segments module) (parts : segments module = names ++ [name])
      (chain : r.finder.Packages dirs names packages)
      (found : r.finder.find? name (searchedBehind dirs packages) = some (.source file)) :
      r.Outcome module dirs (.ok (Order.sortedSet (r.initializers packages ++ [r.ref file])))
  /-- A part is not found, and all parts before it are packages. -/
  | notFound {names : List String} {name : String} {rest : List String} {packages : List Path}
      (valid : "" ∉ segments module) (parts : segments module = names ++ name :: rest)
      (chain : r.finder.Packages dirs names packages)
      (missing : r.finder.find? name (searchedBehind dirs packages) = none) :
      r.Outcome module dirs (.error (.notFound module name))
  /-- A part that is not the last one is a file, and all parts before it are packages. -/
  | notPackage {names : List String} {name next : String} {rest : List String}
      {packages : List Path} {file : Path} (valid : "" ∉ segments module)
      (parts : segments module = names ++ name :: next :: rest)
      (chain : r.finder.Packages dirs names packages)
      (found : r.finder.find? name (searchedBehind dirs packages) = some (.source file)) :
      r.Outcome module dirs (.error (.notPackage module file))

/-- Some outcome is always reached. -/
theorem exists_outcome (r : Resolver) (module : String) (dirs : List Path) :
    ∃ result, r.Outcome module dirs result := by
  by_cases hempty : "" ∈ segments module
  · exact ⟨_, .invalidName hempty⟩
  · obtain ⟨front, back, packages, hparts, hpackages, hback⟩ :=
      r.finder.exists_packages (segments module) dirs
    cases back with
    | nil =>
        rw [List.append_nil] at hparts
        exact ⟨_, .package hempty (hparts ▸ hpackages)⟩
    | cons name rest =>
        cases hfind : r.finder.find? name (searchedBehind dirs packages) with
        | none => exact ⟨_, .notFound hempty hparts hpackages hfind⟩
        | some location =>
            cases location with
            | package dir => exact absurd hfind (hback name rest rfl dir)
            | source file =>
                cases rest with
                | nil => exact ⟨_, .source hempty hparts hpackages hfind⟩
                | cons next rest => exact ⟨_, .notPackage hempty hparts hpackages hfind⟩

/-- An outcome is what resolving gives. -/
theorem Outcome.resolveIn_eq {result : Except ResolveError (List FileRef)}
    (h : r.Outcome module dirs result) : r.resolveIn module dirs = result := by
  cases h with
  | invalidName empty => rw [resolveIn, if_pos empty]
  | package valid hchain =>
      rw [resolveIn, if_neg valid, ← List.append_nil (segments module), chain_append hchain]
      rfl
  | source valid parts hchain found =>
      rw [resolveIn, if_neg valid, parts, chain_append hchain, Resolver.chain, found]
      simp [Except.map, Order.union, Order.sortedSet, Order.insertNew]
  | notFound valid parts hchain missing =>
      rw [resolveIn, if_neg valid, parts, chain_append hchain, Resolver.chain, missing]
      rfl
  | notPackage valid parts hchain found =>
      rw [resolveIn, if_neg valid, parts, chain_append hchain, Resolver.chain, found]
      rfl

/-- **The chain of packages tells what comes of resolving a name.** A name with an empty part is
invalid. Otherwise it is resolved if all its parts are packages, one inside the other, or all but the
last one, which is a file; the result is the set of the initializers of these packages and of that
file. If not, the first part that is no package is to blame: it is not found, or it is a file. -/
theorem resolve_eq_iff_outcome (r : Resolver) (module : String)
    (result : Except ResolveError (List FileRef)) :
    r.resolve module = result ↔ r.Outcome module r.searchPath result := by
  constructor
  · rintro rfl
    obtain ⟨result, hresult⟩ := r.exists_outcome module r.searchPath
    rw [resolve, hresult.resolveIn_eq]
    exact hresult
  · intro h
    exact h.resolveIn_eq

end Resolver

end ImportAtlas
