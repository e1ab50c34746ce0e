import ImportAtlas.Proofs.Module.Relative

/-!
# The order of the directories

Only the first part of a name is searched in the directories of the search path, and the first directory
that has a module of that name is taken for good: the further parts are searched inside what was found
there. So resolving a name in some directories and others behind them is resolving it in the former if
they have its first part, and in the latter if not. What a later directory has is never reached, even if
the name could be resolved there and cannot in the earlier one.

Main definitions:

* `ImportAtlas.Site.Offers` — a directory has a module of some name;
* `ImportAtlas.Site.resolver` — the resolver for modules on a disk;
* `ImportAtlas.Resolver.firstName` — the first part of a name.

Main results:

* `ImportAtlas.Site.findModule?_append_of_offers`, `ImportAtlas.Site.findModule?_append_of_not_offers` —
  the first directories that have a module hide the others;
* `ImportAtlas.Resolver.resolveIn_congr` — directories matter only for the first part of a name;
* `ImportAtlas.Site.resolve_append_searchPath` — **a search path is taken directory by directory, without
  a way back**.
-/

set_option autoImplicit false

namespace ImportAtlas

/-! ### Finding in the first directory -/

namespace Site

variable {s : Site} {name : String} {dir : Path} {dirs others : List Path}

/-- A directory has a module of some name: a package, or else a file. -/
def Offers (s : Site) (name : String) (dir : Path) : Prop :=
  s.isPackage (dir.join ⟨name⟩) = true ∨ s.isFile (dir.join ⟨name ++ ".py"⟩) = true

instance (s : Site) (name : String) (dir : Path) : Decidable (s.Offers name dir) :=
  inferInstanceAs (Decidable (_ ∨ _))

theorem moduleIn?_of_package (h : s.isPackage (dir.join ⟨name⟩) = true) :
    s.moduleIn? name dir = some (.package (dir.join ⟨name⟩)) := by
  rw [moduleIn?, if_pos h]

theorem moduleIn?_of_file (hpackage : s.isPackage (dir.join ⟨name⟩) = false)
    (hfile : s.isFile (dir.join ⟨name ++ ".py"⟩) = true) :
    s.moduleIn? name dir = some (.source (dir.join ⟨name ++ ".py"⟩)) := by
  rw [moduleIn?, if_neg (by simp [hpackage]), if_pos hfile]

theorem moduleIn?_eq_none_iff : s.moduleIn? name dir = none ↔ ¬ s.Offers name dir := by
  rw [moduleIn?, Offers]
  split
  · next hpackage => simp [hpackage]
  · next hpackage =>
      split
      · next hfile => simp [hfile]
      · next hfile => simp [hpackage, hfile]

theorem findModule?_eq_none_iff :
    s.findModule? name dirs = none ↔ ∀ dir ∈ dirs, ¬ s.Offers name dir := by
  simp only [findModule?, List.findSome?_eq_none_iff, moduleIn?_eq_none_iff]

/-- Directories that have a module hide those behind them. -/
theorem findModule?_append_of_offers (h : ∃ dir ∈ dirs, s.Offers name dir) (others : List Path) :
    s.findModule? name (dirs ++ others) = s.findModule? name dirs := by
  obtain ⟨dir, hdir, hoffers⟩ := h
  have hfound : s.findModule? name dirs ≠ none := fun hnone =>
    findModule?_eq_none_iff.1 hnone dir hdir hoffers
  obtain ⟨location, hlocation⟩ := Option.ne_none_iff_exists'.1 hfound
  rw [findModule?, List.findSome?_append, ← findModule?, hlocation, Option.some_or]

/-- Directories that do not have a module are passed over. -/
theorem findModule?_append_of_not_offers (h : ∀ dir ∈ dirs, ¬ s.Offers name dir)
    (others : List Path) : s.findModule? name (dirs ++ others) = s.findModule? name others := by
  rw [findModule?, List.findSome?_append, ← findModule?, findModule?_eq_none_iff.2 h, Option.none_or,
    findModule?]

/-- What the first directory that has a module gives is what is found. -/
theorem findModule?_append_cons (h : ∀ dir ∈ dirs, ¬ s.Offers name dir) {location : Location}
    (hdir : s.moduleIn? name dir = some location) (others : List Path) :
    s.findModule? name (dirs ++ dir :: others) = some location := by
  rw [findModule?_append_of_not_offers h, findModule?, List.findSome?_cons, hdir]

/-- The resolver for modules on a disk. -/
def resolver (s : Site) (root : Path) (dirs : List Path) : Resolver := ⟨s, s.finder, dirs, root⟩

end Site

/-! ### Resolving from the first part -/

namespace Resolver

variable {r : Resolver} {module : String} {dirs dirs' : List Path}

/-- The first part of a name. -/
def firstName (module : String) : String := (segments module).head (segments_ne_nil module)

theorem segments_eq_cons (module : String) :
    segments module = firstName module :: (segments module).tail :=
  (List.cons_head_tail (segments_ne_nil module)).symm

/-- **Directories matter only for the first part of a name.** -/
theorem resolveIn_congr
    (h : r.finder.find? (firstName module) dirs = r.finder.find? (firstName module) dirs') :
    r.resolveIn module dirs = r.resolveIn module dirs' := by
  rw [resolveIn, resolveIn, segments_eq_cons, chain, chain, h]

/-- The search path matters only where a name starts from it. -/
theorem chain_withSearchPath (r : Resolver) (searchPath : List Path) (module : String)
    (names : List String) (dirs : List Path) :
    { r with searchPath := searchPath }.chain module names dirs = r.chain module names dirs := by
  induction names generalizing dirs with
  | nil => rfl
  | cons name names ih =>
      rw [chain, chain]
      simp only [ih]
      rfl

theorem resolveIn_withSearchPath (r : Resolver) (searchPath : List Path) (module : String)
    (dirs : List Path) :
    { r with searchPath := searchPath }.resolveIn module dirs = r.resolveIn module dirs := by
  rw [resolveIn, resolveIn, chain_withSearchPath]

end Resolver

namespace Site

open Resolver (segments firstName)

variable {s : Site} {root : Path} {module : String}

/-- Names are resolved in the same way if their first parts are found in the same way. -/
theorem resolve_congr {dirs dirs' : List Path}
    (h : s.findModule? (firstName module) dirs = s.findModule? (firstName module) dirs') :
    (s.resolver root dirs).resolve module = (s.resolver root dirs').resolve module := by
  calc (s.resolver root dirs).resolve module
      = (s.resolver root dirs).resolveIn module dirs' := Resolver.resolveIn_congr h
    _ = (s.resolver root dirs').resolve module :=
        (Resolver.resolveIn_withSearchPath (s.resolver root dirs) dirs' module dirs').symm

/-- If the first part is found as a package, the next one is searched in it and nowhere else. -/
theorem resolve_eq_notFound {dirs : List Path} {package : Path} {next : String} {rest : List String}
    (hvalid : "" ∉ segments module) (hparts : segments module = firstName module :: next :: rest)
    (hfound : s.findModule? (firstName module) dirs = some (.package package))
    (hnext : ¬ s.Offers next package) :
    (s.resolver root dirs).resolve module = .error (.notFound module next) := by
  have hmissing : s.findModule? next [package] = none := by
    simpa [findModule?_eq_none_iff] using hnext
  have hsplit : segments module = [firstName module] ++ next :: rest := hparts
  exact (Resolver.Outcome.notFound hvalid hsplit (.cons hfound (.nil [package])) hmissing).resolveIn_eq

/-- If the first part is found as a file, there is nothing to search the next one in. -/
theorem resolve_eq_notPackage {dirs : List Path} {file : Path} {next : String} {rest : List String}
    (hvalid : "" ∉ segments module) (hparts : segments module = firstName module :: next :: rest)
    (hfound : s.findModule? (firstName module) dirs = some (.source file)) :
    (s.resolver root dirs).resolve module = .error (.notPackage module file) := by
  have hsplit : segments module = [] ++ firstName module :: next :: rest := hparts
  exact (Resolver.Outcome.notPackage hvalid hsplit (.nil dirs) hfound).resolveIn_eq

/-- A name can be resolved only if one of the directories has its first part. -/
theorem exists_offers_of_resolve {dirs : List Path} {refs : List FileRef}
    (h : (s.resolver root dirs).resolve module = .ok refs) :
    ∃ dir ∈ dirs, s.Offers (firstName module) dir := by
  by_contra hoffers
  have hmissing : s.findModule? (firstName module) dirs = none :=
    findModule?_eq_none_iff.2 (by simpa using hoffers)
  have hfails : ∃ e, (s.resolver root dirs).resolve module = .error e := by
    by_cases hvalid : "" ∈ segments module
    · exact ⟨_, (Resolver.Outcome.invalidName hvalid).resolveIn_eq⟩
    · have hsplit : segments module = [] ++ firstName module :: (segments module).tail :=
        Resolver.segments_eq_cons module
      exact ⟨_, (Resolver.Outcome.notFound hvalid hsplit (.nil dirs) hmissing).resolveIn_eq⟩
  obtain ⟨e, he⟩ := hfails
  rw [he] at h
  cases h

/-- **A search path is taken directory by directory, without a way back.** Resolving a name in some
directories and others behind them is resolving it in the former if one of them has the first part of the
name, and in the latter if not, whatever comes of it. So what is resolved in some directories stays as it
is if others are added behind them. Of the first directory that has the first part, a package is taken
before a file, and then all others are hidden: if it is a file, or a package without the next part, the
name cannot be resolved, whatever the others have. -/
theorem resolve_append_searchPath (s : Site) (root : Path) (dirs others : List Path)
    (module : String) :
    let first := firstName module
    ((s.resolver root (dirs ++ others)).resolve module =
        if ∃ dir ∈ dirs, s.Offers first dir then (s.resolver root dirs).resolve module
        else (s.resolver root others).resolve module) ∧
      (∀ refs, (s.resolver root dirs).resolve module = .ok refs →
        (s.resolver root (dirs ++ others)).resolve module = .ok refs) ∧
      ∀ dir, (∀ d ∈ dirs, ¬ s.Offers first d) →
        let package := dir.join ⟨first⟩
        let file := dir.join ⟨first ++ ".py"⟩
        let r := s.resolver root (dirs ++ dir :: others)
        (s.isPackage package = true →
            s.findModule? first (dirs ++ dir :: others) = some (.package package)) ∧
          ("" ∉ segments module →
            (segments module = [first] → s.isPackage package = true →
              r.resolve module = .ok [r.ref (package.join initializer)]) ∧
            ∀ next rest, segments module = first :: next :: rest →
              (s.isPackage package = false → s.isFile file = true →
                r.resolve module = .error (.notPackage module file)) ∧
              (s.isPackage package = true → ¬ s.Offers next package →
                r.resolve module = .error (.notFound module next))) := by
  intro first
  refine ⟨?_, ?_, ?_⟩
  · split
    · next hoffers => exact resolve_congr (findModule?_append_of_offers hoffers others)
    · next hoffers =>
        exact resolve_congr (findModule?_append_of_not_offers (by simpa using hoffers) others)
  · intro refs hrefs
    have hoffers := exists_offers_of_resolve hrefs
    rw [resolve_congr (findModule?_append_of_offers hoffers others), hrefs]
  · intro dir hdirs package file r
    have htaken : s.isPackage package = true →
        s.findModule? first (dirs ++ dir :: others) = some (.package package) := fun hpackage =>
      findModule?_append_cons hdirs (moduleIn?_of_package hpackage) others
    refine ⟨htaken, fun hvalid => ⟨?_, fun next rest hparts => ⟨?_, ?_⟩⟩⟩
    · intro hparts hpackage
      have hchain : r.finder.Packages r.searchPath (segments module) [package] := by
        rw [hparts]
        exact .cons (htaken hpackage) (.nil _)
      exact (Resolver.Outcome.package hvalid hchain).resolveIn_eq
    · intro hpackage hfile
      exact resolve_eq_notPackage hvalid hparts
        (findModule?_append_cons hdirs (moduleIn?_of_file hpackage hfile) others)
    · intro hpackage hnext
      exact resolve_eq_notFound hvalid hparts (htaken hpackage) hnext

/-- Two directories with modules of the same names. Only in the second one are both of them packages with
a module inside. -/
def hidingSite : Site where
  disk :=
    { entries :=
        [(.of ["p"], .directory), (.of ["p", "u.py"], .file []), (.of ["p", "w"], .directory),
          (.of ["p", "w", "__init__.py"], .file []), (.of ["p", "w.py"], .file []), (.of ["q"], .directory),
          (.of ["q", "u"], .directory), (.of ["q", "u", "__init__.py"], .file []),
          (.of ["q", "u", "v.py"], .file []), (.of ["q", "w"], .directory),
          (.of ["q", "w", "__init__.py"], .file []), (.of ["q", "w", "v.py"], .file [])] }
  cwd := []

theorem resolve_append_searchPath_hidingSite :
    (hidingSite.resolver ⟨"/"⟩ [⟨"/q"⟩]).resolve "u.v" =
        .ok [⟨.of ["q", "u", "__init__.py"], []⟩, ⟨.of ["q", "u", "v.py"], []⟩] ∧
      (hidingSite.resolver ⟨"/"⟩ ([⟨"/p"⟩] ++ [⟨"/q"⟩])).resolve "u.v" =
        (hidingSite.resolver ⟨"/"⟩ [⟨"/p"⟩]).resolve "u.v" ∧
      (hidingSite.resolver ⟨"/"⟩ ([] ++ ⟨"/p"⟩ :: [⟨"/q"⟩])).resolve "u.v" =
        .error (.notPackage "u.v" ⟨"/p/u.py"⟩) ∧
      (hidingSite.resolver ⟨"/"⟩ ([] ++ ⟨"/p"⟩ :: [⟨"/q"⟩])).resolve "w.v" =
        .error (.notFound "w.v" "v") := by
  obtain ⟨hu, -, -⟩ := resolve_append_searchPath hidingSite ⟨"/"⟩ [⟨"/p"⟩] [⟨"/q"⟩] "u.v"
  obtain ⟨-, -, hu'⟩ := resolve_append_searchPath hidingSite ⟨"/"⟩ [] [⟨"/q"⟩] "u.v"
  obtain ⟨-, -, hw'⟩ := resolve_append_searchPath hidingSite ⟨"/"⟩ [] [⟨"/q"⟩] "w.v"
  obtain ⟨-, hfile⟩ := hu' ⟨"/p"⟩ (by simp)
  obtain ⟨-, hpackage⟩ := hw' ⟨"/p"⟩ (by simp)
  rw [if_pos (by decide +kernel)] at hu
  refine ⟨by decide +kernel, hu, ?_, ?_⟩
  · exact ((hfile (by decide +kernel)).2 "v" [] (by decide +kernel)).1 (by decide +kernel)
      (by decide +kernel)
  · exact ((hpackage (by decide +kernel)).2 "v" [] (by decide +kernel)).2 (by decide +kernel)
      (by decide +kernel)

end Site

end ImportAtlas
