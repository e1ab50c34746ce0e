import ImportAtlas.Proofs.Module.Attempts
import ImportAtlas.Proofs.Module.Relative

/-!
# Names that go on

A name that goes on behind another one is resolved only if all parts of the latter are packages, since
the next part is searched in the last of them. So whenever the longer name is resolved, the shorter one
is, to fewer files. The same holds of relative names, of which the dots alone are the shortest. It follows
that no member of a source can be resolved if the source itself cannot.

Main results:

* `ImportAtlas.Resolver.exists_packages_of_chain` — the parts that a name goes on behind are packages;
* `ImportAtlas.Resolver.exists_resolveIn_of_longer`,
  `ImportAtlas.Resolver.exists_resolveRelative_of_longer` — a name is resolved if a longer one is;
* `ImportAtlas.Resolver.resolve_monotone` — **each beginning of a name that is resolved is resolved, to
  some of the same files**.
-/

set_option autoImplicit false

namespace ImportAtlas

open Python (ImportStatement)

namespace Resolver

variable {r : Resolver} {module : String} {dirs : List Path} {refs : List FileRef}

/-! ### Absolute names -/

/-- If some parts of a name are resolved and others follow, the former are packages whose initializers
are loaded. -/
theorem exists_packages_of_chain {names rest : List String} (hrest : rest ≠ [])
    (h : r.chain module (names ++ rest) dirs = .ok refs) :
    ∃ packages, r.finder.Packages dirs names packages ∧ r.initializers packages ⊆ refs := by
  induction names generalizing dirs refs with
  | nil => exact ⟨[], .nil dirs, List.nil_subset refs⟩
  | cons name names ih =>
      rw [List.cons_append, chain] at h
      split at h
      · cases h
      · next dir hfound =>
          split at h
          · next loaded hchain =>
              cases h
              obtain ⟨packages, hpackages, hsubset⟩ := ih hchain
              refine ⟨dir :: packages, .cons hfound hpackages, ?_⟩
              intro i hi
              rw [Order.mem_insertNew]
              rcases List.mem_cons.1 hi with rfl | hi
              · exact .inl rfl
              · exact .inr (hsubset hi)
          · cases h
      · -- a file can only be the last part, and others follow
        split at h
        · next hlast => exact absurd (List.append_eq_nil_iff.1 hlast).2 hrest
        · cases h

/-- A name is resolved if a longer one is, to fewer files. -/
theorem exists_resolveIn_of_longer {rest : String}
    (h : r.resolveIn (module ++ "." ++ rest) dirs = .ok refs) :
    ∃ loaded, r.resolveIn module dirs = .ok loaded ∧ loaded ⊆ refs := by
  rw [resolveIn, segments_append] at h
  split at h
  · cases h
  · next hvalid =>
      obtain ⟨packages, hpackages, hsubset⟩ := exists_packages_of_chain (segments_ne_nil rest) h
      have hmodule : "" ∉ segments module := fun hempty =>
        hvalid (List.mem_append_left _ hempty)
      refine ⟨_, (Outcome.package hmodule hpackages).resolveIn_eq, ?_⟩
      intro i hi
      exact hsubset (Order.mem_sortedSet.1 hi)

/-! ### Relative names -/

/-- A relative name is resolved in the directory that it is seen from, whose initializer is added. -/
theorem resolveRelative_some_eq_ok_iff {importer : Path} {level : Nat} :
    r.resolveRelative importer level (some module) = .ok refs ↔
      ∃ base loaded, base? importer level = some base ∧ r.resolveIn module [base] = .ok loaded ∧
        refs = Order.union (r.initializerOf base) loaded := by
  rw [resolveRelative]
  cases base? importer level with
  | none => simp
  | some base =>
      cases hresolve : r.resolveIn module [base] with
      | error e => simp [hresolve]
      | ok loaded => simp [hresolve, eq_comm]

theorem resolveRelative_none_eq {importer base : Path} {level : Nat}
    (h : base? importer level = some base) :
    r.resolveRelative importer level none = .ok (r.initializerOf base) := by
  rw [resolveRelative, h]

/-- A relative name is resolved if a longer one is, to fewer files. -/
theorem exists_resolveRelative_of_longer {importer : Path} {level : Nat} {rest : String}
    (h : r.resolveRelative importer level (some (module ++ "." ++ rest)) = .ok refs) :
    ∃ loaded, r.resolveRelative importer level (some module) = .ok loaded ∧ loaded ⊆ refs := by
  obtain ⟨base, longer, hbase, hlonger, rfl⟩ := resolveRelative_some_eq_ok_iff.1 h
  obtain ⟨loaded, hloaded, hsubset⟩ := exists_resolveIn_of_longer hlonger
  refine ⟨_, resolveRelative_some_eq_ok_iff.2 ⟨base, loaded, hbase, hloaded, rfl⟩, ?_⟩
  intro i hi
  rw [Order.mem_union] at hi ⊢
  exact hi.imp id fun hi => hsubset hi

/-- The dots of a relative name are resolved if the name is, to fewer files. -/
theorem exists_resolveRelative_of_some {importer : Path} {level : Nat}
    (h : r.resolveRelative importer level (some module) = .ok refs) :
    ∃ loaded, r.resolveRelative importer level none = .ok loaded ∧ loaded ⊆ refs := by
  obtain ⟨base, loaded, hbase, -, rfl⟩ := resolveRelative_some_eq_ok_iff.1 h
  refine ⟨_, resolveRelative_none_eq hbase, ?_⟩
  intro i hi
  exact Order.mem_union.2 (.inl hi)

/-! ### Members of a source -/

/-- Attempts find nothing if the first one fails and the others can be resolved only if it can. -/
theorem files_eq_nil_of_first {first : Attempt} {others : List Attempt} {e : ResolveError}
    (hfirst : first.result = .error e)
    (hothers : ∀ a ∈ others, ∀ refs, a.result = .ok refs →
      ∃ loaded, first.result = .ok loaded ∧ loaded ⊆ refs) :
    ∀ a ∈ first :: others, a.files = [] := by
  intro a ha
  have hfails : ∀ refs, a.result ≠ .ok refs := by
    intro refs hrefs
    rcases List.mem_cons.1 ha with rfl | ha
    · rw [hfirst] at hrefs
      cases hrefs
    · obtain ⟨loaded, hloaded, -⟩ := hothers a ha refs hrefs
      rw [hfirst] at hloaded
      cases hloaded
  rw [Attempt.files]
  split
  · next refs hrefs => exact absurd hrefs (hfails refs)
  · rfl

variable {importer : FileRef} {names : List String} {e : ResolveError}

/-- If the source of some members cannot be resolved, nothing is found for the members either. -/
theorem files_eq_nil_of_absolute (h : r.resolve module = .error e) :
    ∀ a ∈ r.attempts importer (.members 0 (some module) names), a.files = [] := by
  rw [attempts]
  split
  · simp
  · refine files_eq_nil_of_first h ?_
    intro a ha refs hrefs
    obtain ⟨name, -, rfl⟩ := List.mem_map.1 ha
    exact exists_resolveIn_of_longer hrefs

/-- The same for a source that is seen through dots. -/
theorem files_eq_nil_of_relative {level : Nat} {source : Option String}
    (h : r.resolveRelative (RealPath.toPath importer.abs) (level + 1) source = .error e) :
    ∀ a ∈ r.attempts importer (.members (level + 1) source names), a.files = [] := by
  cases source with
  | none =>
      refine files_eq_nil_of_first h ?_
      intro a ha refs hrefs
      obtain ⟨name, -, rfl⟩ := List.mem_map.1 ha
      exact exists_resolveRelative_of_some hrefs
  | some module =>
      refine files_eq_nil_of_first h ?_
      intro a ha refs hrefs
      obtain ⟨name, -, rfl⟩ := List.mem_map.1 ha
      exact exists_resolveRelative_of_longer hrefs

/-- **Each beginning of a name that is resolved is resolved, to some of the same files**, whatever the
finder does. The shortest beginning of a relative name is its dots alone. So a statement that imports
members of a source adds nothing to what is imported if the source cannot be resolved, whatever the
members are. -/
theorem resolve_monotone (r : Resolver) :
    (∀ module rest refs, r.resolve (module ++ "." ++ rest) = .ok refs →
        ∃ loaded, r.resolve module = .ok loaded ∧ loaded ⊆ refs) ∧
      (∀ importer level module rest refs,
        r.resolveRelative importer level (some (module ++ "." ++ rest)) = .ok refs →
          ∃ loaded dots, r.resolveRelative importer level (some module) = .ok loaded ∧
            r.resolveRelative importer level none = .ok dots ∧ dots ⊆ loaded ∧ loaded ⊆ refs) ∧
      ∀ (importer : FileRef) (before behind : List ImportStatement) (names : List String)
        (e : ResolveError),
        (∀ module, r.resolve module = .error e →
          (r.resolveStatements importer (before ++ .members 0 (some module) names :: behind)).value =
            (r.resolveStatements importer (before ++ behind)).value) ∧
        ∀ level source,
          r.resolveRelative (RealPath.toPath importer.abs) (level + 1) source = .error e →
            (r.resolveStatements importer
                (before ++ .members (level + 1) source names :: behind)).value =
              (r.resolveStatements importer (before ++ behind)).value := by
  refine ⟨fun module rest refs => exists_resolveIn_of_longer, ?_, ?_⟩
  · intro importer level module rest refs h
    obtain ⟨loaded, hloaded, hsubset⟩ := exists_resolveRelative_of_longer h
    obtain ⟨dots, hdots, hsubset'⟩ := exists_resolveRelative_of_some hloaded
    exact ⟨loaded, dots, hloaded, hdots, hsubset', hsubset⟩
  · intro importer before behind names e
    constructor
    · intro module h
      exact value_resolveStatements_of_failing (files_eq_nil_of_absolute h) before behind
    · intro level source h
      exact value_resolveStatements_of_failing (files_eq_nil_of_relative h) before behind

theorem resolve_monotone_packaged :
    (∃ refs, packagedResolver.resolve ("a" ++ "." ++ "b") = .ok refs ∧
        ∃ loaded, packagedResolver.resolve "a" = .ok loaded ∧ loaded ⊆ refs) ∧
      (∃ refs, packagedResolver.resolveRelative ⟨"/p/x.py"⟩ 1 (some ("a" ++ "." ++ "c")) = .ok refs ∧
        ∃ loaded dots, packagedResolver.resolveRelative ⟨"/p/x.py"⟩ 1 (some "a") = .ok loaded ∧
          packagedResolver.resolveRelative ⟨"/p/x.py"⟩ 1 none = .ok dots ∧ dots ⊆ loaded ∧
            loaded ⊆ refs) ∧
      packagedResolver.resolve "a.c.d" = .error (.notPackage "a.c.d" ⟨"/p/a/c.py"⟩) ∧
      (packagedResolver.resolveStatements ⟨.of ["p", "x.py"], .of ["p"]⟩
          ([.modules ["a"]] ++ .members 0 (some "a.c.d") ["e"] :: [])).value =
        (packagedResolver.resolveStatements ⟨.of ["p", "x.py"], .of ["p"]⟩
          ([.modules ["a"]] ++ [])).value := by
  have habsolute : packagedResolver.resolve ("a" ++ "." ++ "b") =
      .ok [⟨.of ["p", "a", "__init__.py"], .of ["p"]⟩,
        ⟨.of ["p", "a", "b", "__init__.py"], .of ["p"]⟩] := by
    decide +kernel
  have hrelative : packagedResolver.resolveRelative ⟨"/p/x.py"⟩ 1 (some ("a" ++ "." ++ "c")) =
      .ok [⟨.of ["p", "a", "__init__.py"], .of ["p"]⟩, ⟨.of ["p", "a", "c.py"], .of ["p"]⟩] := by
    decide +kernel
  have hfails : packagedResolver.resolve "a.c.d" =
      .error (.notPackage "a.c.d" ⟨"/p/a/c.py"⟩) := by
    decide +kernel
  obtain ⟨hresolve, hresolveRelative, hmembers⟩ := resolve_monotone packagedResolver
  exact ⟨⟨_, habsolute, hresolve "a" "b" _ habsolute⟩,
    ⟨_, hrelative, hresolveRelative _ 1 "a" "c" _ hrelative⟩, hfails,
    (hmembers _ _ _ _ _).1 _ hfails⟩

end Resolver

end ImportAtlas
