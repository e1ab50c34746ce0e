import ImportAtlas.Proofs.Module.Chains
import ImportAtlas.Proofs.Order
import ImportAtlas.Proofs.Path.Parents
import Mathlib.Data.List.Chain

/-!
# Relative and absolute names

A relative name starts from a directory above the importing file, which is found by taking parents of
a path. An absolute name starts from the search path and goes down through packages. If the importing
file lies in a package that an absolute name leads to, both ways meet: climbing from the file passes
through the packages of that name in reverse, so a name seen from one of them is resolved as the
absolute name that continues the name of that package.

Main definitions:

* `ImportAtlas.Resolver.Traverses` — a name all of whose parts are packages;
* `ImportAtlas.ResolveError.inModule` — the reason for a failure, seen from another name.

Main results:

* `ImportAtlas.Site.isChain_packages` — on a disk, each package is the parent of the next one;
* `ImportAtlas.Resolver.base?_join_eq` — **climbing from a file in a package passes through the packages
  above it**;
* `ImportAtlas.Resolver.resolve_eq_resolveRelative` — **relative and absolute names agree**.
-/

set_option autoImplicit false

namespace ImportAtlas

/-! ### Parts of a name -/

namespace Resolver

/-- The parts of a name hold no dot. -/
theorem not_mem_of_mem_segments {module name : String} (h : name ∈ segments module) :
    '.' ∉ name.toList := by
  obtain ⟨part, hpart, rfl⟩ := List.mem_map.1 h
  rw [String.toList_ofList]
  exact Path.not_mem_of_mem_splitOn hpart

/-- Without separators, the parts of a name can be given to entries. -/
theorem isName_of_mem_segments {module name : String} (h : name ∈ segments module)
    (hempty : name ≠ "") (hslash : '/' ∉ name.toList) : isName name = true := by
  have hdot := not_mem_of_mem_segments h
  refine isName_iff.2 ⟨hempty, ?_, ?_, hslash⟩
  · rintro rfl
    exact hdot (by simp)
  · rintro rfl
    exact hdot (by simp)

/-- A name that continues another one has the parts of both. -/
theorem segments_append (module rest : String) :
    segments (module ++ "." ++ rest) = segments module ++ segments rest := by
  have htext : (module ++ "." ++ rest).toList = module.toList ++ '.' :: rest.toList := by
    simp [String.toList_append]
  rw [segments, htext, List.splitOn_append_cons_self, List.map_append]
  rfl

theorem segments_ne_nil (module : String) : segments module ≠ [] := by
  simp [segments, List.splitOn_ne_nil]

/-- The first parts of a name, written as a name again. -/
theorem segments_intercalate_take (module : String) {n : Nat} (hn : n ≠ 0) :
    segments (".".intercalate ((segments module).take n)) = (segments module).take n := by
  rw [segments, String.toList_intercalate, show ".".toList = ['.'] from rfl,
    List.splitOn_intercalate]
  · simp [Function.comp_def]
  · intro part hpart
    obtain ⟨name, hname, rfl⟩ := List.mem_map.1 hpart
    exact not_mem_of_mem_segments (List.mem_of_mem_take hname)
  · simp [hn, segments_ne_nil]

end Resolver

/-! ### Packages on a disk -/

namespace Finder

variable {f : Finder} {dirs packages : List Path} {names : List String}

/-- The first of some names lead to the first of their packages. -/
theorem Packages.take (h : f.Packages dirs names packages) (n : Nat) :
    f.Packages dirs (names.take n) (packages.take n) := by
  induction h generalizing n with
  | nil dirs => simpa using .nil dirs
  | cons found _ ih =>
      cases n with
      | zero => exact .nil _
      | succ n => exact .cons found (ih n)

end Finder

namespace Site

variable {s : Site}

/-- A package that is found on a disk is one of the directories with the name joined to it. -/
theorem exists_join_of_findModule? {name : String} {dirs : List Path} {package : Path}
    (h : s.findModule? name dirs = some (.package package)) :
    s.isPackage package = true ∧ ∃ dir ∈ dirs, package = dir.join ⟨name⟩ := by
  obtain ⟨before, dir, behind, rfl, hdir, -⟩ := List.findSome?_eq_some_iff.1 h
  rw [moduleIn?] at hdir
  split at hdir
  · next hpackage =>
      obtain rfl : dir.join ⟨name⟩ = package := by simpa using hdir
      exact ⟨hpackage, dir, by simp, rfl⟩
  · split at hdir <;> simp at hdir

/-- On a disk, packages end in names, and each of them is the parent of the next one. -/
theorem isChain_packages {dirs packages : List Path} {names : List String}
    (h : s.finder.Packages dirs names packages) (hn : ∀ n ∈ names, isName n = true) :
    (∀ dir ∈ packages, s.isPackage dir = true ∧ dir.EndsInName) ∧
      packages.IsChain fun dir next => next.parent? = some dir := by
  induction h with
  | nil => simp
  | @cons dirs name package names packages found rest ih =>
      obtain ⟨hpackage, dir, -, rfl⟩ := exists_join_of_findModule? found
      obtain ⟨hrest, hchain⟩ := ih fun n hm => hn n (by simp [hm])
      have hends : (dir.join ⟨name⟩).EndsInName := Path.endsInName_join dir (hn name (by simp))
      refine ⟨List.forall_mem_cons.2 ⟨⟨hpackage, hends⟩, hrest⟩, ?_⟩
      cases rest with
      | nil => exact .singleton _
      | @cons _ name' next _ _ found' _ =>
          -- the next package was searched in this one alone
          obtain ⟨-, dir', hdir', rfl⟩ := exists_join_of_findModule? found'
          obtain rfl := List.mem_singleton.1 hdir'
          exact .cons_cons (Path.parent?_join hends (hn name' (by simp))) hchain

end Site

/-! ### Climbing -/

namespace Resolver

/-- Climbing from a path passes through its parents. -/
theorem above?_eq_getElem? {p : Path} {parents : List Path}
    (h : (p :: parents).IsChain fun q parent => q.parent? = some parent) {n : Nat}
    (hn : n ≤ parents.length) : above? n p = (p :: parents)[n]? := by
  induction n generalizing p parents with
  | zero => rfl
  | succ n ih =>
      cases parents with
      | nil => simp at hn
      | cons parent parents =>
          rw [List.isChain_cons_cons] at h
          rw [above?, h.1, List.getElem?_cons_succ]
          exact ih h.2 (by simpa using hn)

/-- **Climbing from a file in a package passes through the packages above it.** -/
theorem base?_join_eq {s : Site} {dirs packages : List Path} {names : List String}
    (h : s.finder.Packages dirs names packages) (hn : ∀ n ∈ names, isName n = true) {dir : Path}
    (hdir : packages.getLast? = some dir) {file : String} (hfile : isName file = true) {level : Nat}
    (hpos : 1 ≤ level) (hle : level ≤ packages.length) :
    base? (dir.join ⟨file⟩) level = packages[packages.length - level]? := by
  obtain ⟨hpackages, hchain⟩ := Site.isChain_packages h hn
  obtain ⟨front, rfl⟩ := List.getLast?_eq_some_iff.1 hdir
  have hparent := Path.parent?_join (hpackages dir (by simp)).2 hfile
  -- the parents of the file are the packages in reverse
  have hclimb : (dir.join ⟨file⟩ :: (front ++ [dir]).reverse).IsChain
      fun q parent => q.parent? = some parent := by
    rw [List.reverse_concat, List.isChain_cons_cons, ← List.reverse_concat, List.isChain_reverse]
    exact ⟨hparent, hchain⟩
  rw [base?, Nat.max_eq_left hpos, above?_eq_getElem? hclimb (by simpa using hle)]
  obtain ⟨n, rfl⟩ := Nat.exists_eq_add_of_le' hpos
  rw [List.getElem?_cons_succ, List.getElem?_reverse (by omega)]
  congr 1
  omega

end Resolver

/-! ### Agreement -/

/-- The reason for a failure, seen from another name; the part and the file that are to blame stay. -/
def ResolveError.inModule (module : String) : ResolveError → ResolveError
  | .invalidName _ => .invalidName module
  | .notFound _ segment => .notFound module segment
  | .notPackage _ file => .notPackage module file
  | .beyondTop importer => .beyondTop importer

namespace Resolver

variable {r : Resolver} {module : String} {names : List String} {dirs packages : List Path}

/-- All parts of an absolute name are packages, one inside the other. -/
def Traverses (r : Resolver) (module : String) (packages : List Path) : Prop :=
  "" ∉ segments module ∧ r.finder.Packages r.searchPath (segments module) packages

theorem Traverses.take (h : r.Traverses module packages) {n : Nat} (hn : n ≠ 0) :
    r.Traverses (".".intercalate ((segments module).take n)) (packages.take n) := by
  rw [Traverses, segments_intercalate_take module hn]
  exact ⟨fun hempty => h.1 (List.mem_of_mem_take hempty), h.2.take n⟩

theorem Traverses.resolve_eq (h : r.Traverses module packages) :
    r.resolve module = .ok (Order.sortedSet (r.initializers packages)) :=
  (Outcome.package h.1 h.2).resolveIn_eq

/-- Only the reason for a failure depends on the whole name. -/
theorem chain_inModule (r : Resolver) (module module' : String) (names : List String)
    (dirs : List Path) :
    r.chain module' names dirs = (r.chain module names dirs).mapError (.inModule module') := by
  induction names generalizing dirs with
  | nil => rfl
  | cons name names ih =>
      rw [chain, chain]
      cases r.finder.find? name dirs with
      | none => rfl
      | some location =>
          cases location with
          | package dir =>
              simp only [ih [dir]]
              cases r.chain module names [dir] <;> rfl
          | source file =>
              dsimp only
              split <;> rfl

/-- A name that continues a name of packages is resolved from the last of them. -/
theorem Traverses.resolve_append (h : r.Traverses module packages) {base : Path}
    (hbase : packages.getLast? = some base) (name : String) :
    r.resolve (module ++ "." ++ name) =
      match r.resolveIn name [base] with
      | .ok refs => .ok (Order.union (r.initializers packages) refs)
      | .error e => .error (e.inModule (module ++ "." ++ name)) := by
  have hinvalid : "" ∈ segments (module ++ "." ++ name) ↔ "" ∈ segments name := by
    simp [segments_append, h.1]
  rw [resolve, resolveIn, resolveIn]
  by_cases hname : "" ∈ segments name
  · rw [if_pos (hinvalid.2 hname), if_pos hname]
    rfl
  · rw [if_neg (hinvalid.not.2 hname), if_neg hname, segments_append, chain_append h.2,
      Finder.searchedBehind, hbase, r.chain_inModule name]
    cases r.chain name (segments name) [base] <;> rfl

/-! ### What is loaded -/

theorem inOrder_chain {refs : List FileRef} (h : r.chain module names dirs = .ok refs) :
    Order.InOrder refs := by
  induction names generalizing dirs refs with
  | nil =>
      obtain rfl : [] = refs := by simpa [chain] using h
      exact Order.inOrder_nil
  | cons name names ih =>
      rw [chain] at h
      split at h
      · cases h
      · split at h
        · next hchain =>
            cases h
            exact (ih hchain).insertNew _
        · cases h
      · split at h
        · cases h
          exact List.pairwise_singleton _ _
        · cases h

theorem inOrder_resolveIn {refs : List FileRef} (h : r.resolveIn module dirs = .ok refs) :
    Order.InOrder refs := by
  rw [resolveIn] at h
  split at h
  · cases h
  · exact inOrder_chain h

/-- Nothing is added by an element that is there already. -/
theorem union_sortedSet_union {l m : List FileRef} {x : FileRef} (hm : Order.InOrder m)
    (hx : x ∈ l) : Order.union (Order.sortedSet l) (Order.union [x] m) = Order.union l m := by
  refine ((hm.union [x]).union _).ext (hm.union l) fun y => ?_
  simp only [Order.mem_union, Order.mem_sortedSet, List.mem_singleton]
  constructor
  · rintro (hy | rfl | hy)
    · exact .inl hy
    · exact .inl hx
    · exact .inr hy
  · rintro (hy | hy)
    · exact .inl hy
    · exact .inr (.inr hy)

/-- **Relative and absolute names agree.** Let all parts of an absolute name be packages, let a file lie
in the last of them, and let `level` dots lead from the file to one of them, the base. A name seen from
the base through these dots is resolved as the absolute name that continues the name of the base: both
fail for the same reason, or the latter loads what the name of the base loads and what the former
loads. The dots alone load the initializer of the base. -/
theorem resolve_eq_resolveRelative (r : Resolver) (hfinder : r.finder = r.site.finder)
    (module : String) (packages : List Path) (htraverses : r.Traverses module packages)
    (hslash : ∀ n ∈ segments module, '/' ∉ n.toList) (dir : Path)
    (hdir : packages.getLast? = some dir) (file : String) (hfile : isName file = true) (level : Nat)
    (hpos : 1 ≤ level) (hle : level ≤ (segments module).length) :
    let above := ".".intercalate
      ((segments module).take ((segments module).length - level + 1))
    ∃ base loaded, packages[(segments module).length - level]? = some base ∧
      r.resolve above = .ok loaded ∧
      r.resolveRelative (dir.join ⟨file⟩) level none = .ok [r.ref (base.join initializer)] ∧
      ∀ name : String, r.resolve (above ++ "." ++ name) =
        match r.resolveRelative (dir.join ⟨file⟩) level (some name) with
        | .ok refs => .ok (Order.union loaded refs)
        | .error e => .error (e.inModule (above ++ "." ++ name)) := by
  intro above
  have hpackages := hfinder ▸ htraverses.2
  have hlength : packages.length = (segments module).length := hpackages.length_eq
  have hnames : ∀ n ∈ segments module, isName n = true := by
    intro n hn
    refine isName_of_mem_segments hn ?_ (hslash n hn)
    rintro rfl
    exact htraverses.1 hn
  obtain ⟨base, hbase⟩ : ∃ base, packages[(segments module).length - level]? = some base :=
    ⟨_, List.getElem?_eq_getElem (by omega)⟩
  -- the base is reached by climbing from the file, and by going down through the first packages
  have hclimb : base? (dir.join ⟨file⟩) level = some base := by
    rw [base?_join_eq hpackages hnames hdir hfile hpos (by omega), hlength, hbase]
  have habove : r.Traverses above _ :=
    htraverses.take ((segments module).length - level).succ_ne_zero
  have hlast : (packages.take ((segments module).length - level + 1)).getLast? = some base := by
    simp [List.getLast?_take, hbase]
  have hinit : r.initializerOf base = [r.ref (base.join initializer)] := by
    have hmem : base ∈ packages := List.mem_of_getElem? hbase
    rw [initializerOf, hfinder, if_pos]
    exact ((Site.isChain_packages hpackages hnames).1 base hmem).1
  refine ⟨base, _, hbase, habove.resolve_eq, ?_, fun name => ?_⟩
  · rw [resolveRelative, hclimb, ← hinit]
  · simp only [habove.resolve_append hlast, resolveRelative, hclimb, hinit]
    cases hresolve : r.resolveIn name [base] with
    | error e => rfl
    | ok refs =>
        dsimp only
        rw [union_sortedSet_union (inOrder_resolveIn hresolve)]
        exact List.mem_map_of_mem (List.mem_of_getLast? hlast)

/-- A package in a package, beside a file. -/
def packagedSite : Site where
  disk :=
    { entries :=
        [(.of ["p"], .directory), (.of ["p", "a"], .directory), (.of ["p", "a", "__init__.py"], .file []),
          (.of ["p", "a", "c.py"], .file []), (.of ["p", "a", "b"], .directory),
          (.of ["p", "a", "b", "__init__.py"], .file [])] }
  cwd := []

/-- The resolver for these packages. -/
def packagedResolver : Resolver := ⟨packagedSite, packagedSite.finder, [⟨"/p"⟩], ⟨"/p"⟩⟩

theorem resolve_eq_resolveRelative_packaged :
    packagedResolver.Traverses "a.b" [⟨"/p/a"⟩, ⟨"/p/a/b"⟩] ∧
      packagedResolver.resolveRelative ⟨"/p/a/b/x.py"⟩ 2 (some "c") =
        .ok [⟨.of ["p", "a", "__init__.py"], .of ["p"]⟩, ⟨.of ["p", "a", "c.py"], .of ["p"]⟩] ∧
      ∃ loaded, packagedResolver.resolve "a" = .ok loaded ∧
        packagedResolver.resolve ("a" ++ "." ++ "c") =
          match packagedResolver.resolveRelative ⟨"/p/a/b/x.py"⟩ 2 (some "c") with
          | .ok refs => .ok (Order.union loaded refs)
          | .error e => .error (e.inModule ("a" ++ "." ++ "c")) := by
  have hsegments : segments "a.b" = ["a", "b"] := by decide +kernel
  have htraverses : packagedResolver.Traverses "a.b" [⟨"/p/a"⟩, ⟨"/p/a/b"⟩] := by
    rw [Traverses, hsegments]
    exact ⟨by decide, .cons (by decide +kernel) (.cons (by decide +kernel) (.nil _))⟩
  have himporter : (⟨"/p/a/b"⟩ : Path).join ⟨"x.py"⟩ = ⟨"/p/a/b/x.py"⟩ := by decide +kernel
  have habove : ".".intercalate ((segments "a.b").take ((segments "a.b").length - 2 + 1)) = "a" := by
    decide +kernel
  obtain ⟨base, loaded, -, hloaded, -, hname⟩ :=
    resolve_eq_resolveRelative packagedResolver rfl "a.b" _ htraverses (by decide +kernel) ⟨"/p/a/b"⟩
      rfl "x.py" (by decide) 2 (by decide) (by decide +kernel)
  rw [habove] at hloaded
  have hc := hname "c"
  rw [habove, himporter] at hc
  exact ⟨htraverses, by decide +kernel, loaded, hloaded, hc⟩

end Resolver

end ImportAtlas
