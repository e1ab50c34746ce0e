import ImportAtlas.Proofs.Module.Imports

/-!
# Statements, name by name

For each import statement some names are tried, one after the other. Those that are resolved add their
files to the result, whatever comes of the others; each of the others is reported by one entry of the
log. So the result is the set of all files that are found for some name, and it depends neither on the
order of the statements nor on how the names are divided between them.

Main definitions:

* `ImportAtlas.Attempt` — a name that is tried, and what comes of it;
* `ImportAtlas.Resolver.attempts` — the names that are tried for a statement;
* `ImportAtlas.Regrouped` — statements in another order, repeated or split.

Main results:

* `ImportAtlas.Resolver.value_resolveStatements` — the result is the set of the files of all attempts;
* `ImportAtlas.Resolver.log_resolveStatements` — the log holds one entry for each attempt that fails;
* `ImportAtlas.Regrouped.mem_attempts_iff` — regrouped statements try the same names;
* `ImportAtlas.Resolver.resolveStatements_eq_union` — **statements import what their names stand for, one
  by one**.
-/

set_option autoImplicit false

namespace ImportAtlas

open Python (ImportStatement)

/-! ### What a loop writes -/

/-- If what a step writes does not depend on the state, a fold writes it step by step. -/
theorem Logged.log_foldlM {α β : Type} {f : β → α → Logged β} {entries : α → List LogEntry}
    (h : ∀ b a, (f b a).log = entries a) (l : List α) (b : β) :
    (l.foldlM f b).log = l.flatMap entries := by
  induction l generalizing b with
  | nil => rfl
  | cons a l ih => rw [List.foldlM_cons, log_bind, h, ih, List.flatMap_cons]

/-! ### Attempts -/

/-- A name that is tried in an importing file, and what comes of it. -/
structure Attempt where
  /-- The name as it is reported. -/
  name : String
  /-- Whether it names a module for sure; if not, it may be a member of one. -/
  isModule : Bool
  result : Except ResolveError (List FileRef)

namespace Attempt

/-- The files that are found, none if the name cannot be resolved. -/
def files (a : Attempt) : List FileRef :=
  match a.result with
  | .ok refs => refs
  | .error _ => []

/-- The entry that tells why the name cannot be resolved. A module that is missing is worth more notice
than a member that is no module. -/
def report? (importer : FileRef) (a : Attempt) : Option LogEntry :=
  match a.result with
  | .ok _ => none
  | .error e =>
      let name := importer.shortest ++ ":" ++ a.name
      if a.isModule then some ⟨.info, s!"Failed to resolve {name}: {e.message}"⟩
      else some ⟨.trace, s!"{name} is not a module: {e.message}"⟩

end Attempt

namespace Resolver

variable {r : Resolver} {importer : FileRef}

/-- The names that are tried for a statement in an importing file, in order. An import tries each of its
modules. An import of members tries its source and then each member as a module inside that source,
unless the source is the module of directives or there is neither a source nor a dot. -/
def attempts (r : Resolver) (importer : FileRef) : ImportStatement → List Attempt
  | .modules names => names.map fun name => ⟨name, true, r.resolve name⟩
  | .members 0 none _ => []
  | .members 0 (some module) names =>
      if module = "__future__" then []
      else
        ⟨module, true, r.resolve module⟩ ::
          names.map fun name => ⟨module ++ "." ++ name, false, r.resolve (module ++ "." ++ name)⟩
  | .members (level + 1) none names =>
      let dots := String.ofList (List.replicate (level + 1) '.')
      let seen := r.resolveRelative (RealPath.toPath importer.abs) (level + 1)
      ⟨dots, true, seen none⟩ :: names.map fun name => ⟨dots ++ name, false, seen (some name)⟩
  | .members (level + 1) (some module) names =>
      let dots := String.ofList (List.replicate (level + 1) '.')
      let seen := r.resolveRelative (RealPath.toPath importer.abs) (level + 1)
      ⟨dots ++ module, true, seen (some module)⟩ ::
        names.map fun name =>
          ⟨dots ++ (module ++ "." ++ name), false, seen (some (module ++ "." ++ name))⟩

/-- What is tried for a reference. -/
def attempt (r : Resolver) (importer : FileRef) (reference : Reference) : Attempt :=
  ⟨reference.target.text, reference.isModule, r.resolveTarget importer reference.target⟩

theorem sourceTarget?_zero (module : String) :
    sourceTarget? 0 (some module) =
      if module = "__future__" then none else some (.absolute module) := rfl

theorem sourceTarget?_succ (level : Nat) (source : Option String) :
    sourceTarget? (level + 1) source = some (.relative (level + 1) source) := by
  simp [sourceTarget?]

/-- The references of a statement stand for the names that are tried. -/
theorem map_attempt_references (statement : ImportStatement) :
    (references statement).map (r.attempt importer) = r.attempts importer statement := by
  cases statement with
  | modules names =>
      rw [references, attempts, List.map_map]
      rfl
  | members level source names =>
      cases level with
      | zero =>
          cases source with
          | none => rfl
          | some module =>
              rw [references, attempts, sourceTarget?_zero]
              by_cases hfuture : module = "__future__"
              · rw [if_pos hfuture, if_pos hfuture, List.map_nil]
              · rw [if_neg hfuture, if_neg hfuture, List.map_cons, List.map_map]
                rfl
      | succ level =>
          rw [references, sourceTarget?_succ]
          cases source with
          | none => simp [attempts, attempt, resolveTarget, Target.text, Target.member]
          | some module => simp [attempts, attempt, resolveTarget, Target.text, Target.member]

/-! ### One reference and many -/

theorem value_absorb (found : SortedSet FileRef) (reference : Reference) :
    (r.absorb importer found reference).value =
      found.insertAll (r.attempt importer reference).files := by
  rw [absorb, Attempt.files, attempt]
  cases r.resolveTarget importer reference.target with
  | ok refs => rfl
  | error e =>
      dsimp only
      split <;> rfl

theorem log_absorb (found : SortedSet FileRef) (reference : Reference) :
    (r.absorb importer found reference).log =
      ((r.attempt importer reference).report? importer).toList := by
  rw [absorb, Attempt.report?, attempt]
  cases r.resolveTarget importer reference.target with
  | ok refs => rfl
  | error e =>
      dsimp only
      split <;> rfl

/-- What is found for some references is what was found before or is found for one of them. -/
theorem mem_foldlM_absorb {refs : List Reference} {found : SortedSet FileRef} {i : FileRef} :
    i ∈ (refs.foldlM (r.absorb importer) found).value ↔
      i ∈ refs.flatMap (fun reference => (r.attempt importer reference).files) ∨ i ∈ found := by
  induction refs generalizing found with
  | nil => simp
  | cons reference refs ih =>
      rw [List.foldlM_cons, Logged.value_bind, ih, value_absorb, SortedSet.mem_insertAll,
        List.flatMap_cons, List.mem_append]
      constructor
      · rintro (hi | hi | hi)
        · exact .inl (.inr hi)
        · exact .inl (.inl hi)
        · exact .inr hi
      · rintro ((hi | hi) | hi)
        · exact .inr (.inl hi)
        · exact .inl hi
        · exact .inr (.inr hi)

/-- All references of some statements, as the names that are tried. -/
theorem map_attempt_flatMap (statements : List ImportStatement) :
    (statements.flatMap references).map (r.attempt importer) =
      statements.flatMap (r.attempts importer) := by
  rw [List.map_flatMap]
  congr 1
  funext statement
  exact map_attempt_references statement

/-- **The result is the set of the files of all attempts.** -/
theorem value_resolveStatements (r : Resolver) (importer : FileRef)
    (statements : List ImportStatement) :
    (r.resolveStatements importer statements).value =
      .ofList ((statements.flatMap (r.attempts importer)).flatMap Attempt.files) := by
  refine SortedSet.ext fun i => ?_
  rw [resolveStatements, mem_foldlM_absorb, SortedSet.mem_ofList, ← map_attempt_flatMap,
    List.flatMap_map]
  simp

/-- **The log holds one entry for each attempt that fails**, in order. -/
theorem log_resolveStatements (r : Resolver) (importer : FileRef) (statements : List ImportStatement) :
    (r.resolveStatements importer statements).log =
      (statements.flatMap (r.attempts importer)).filterMap (Attempt.report? importer) := by
  rw [resolveStatements, Logged.log_foldlM log_absorb, ← map_attempt_flatMap, List.filterMap_map,
    List.filterMap_eq_flatMap_toList]
  rfl

/-- A statement for which no file is found adds nothing to the result. -/
theorem value_resolveStatements_of_failing {statement : ImportStatement}
    (h : ∀ a ∈ r.attempts importer statement, a.files = []) (before behind : List ImportStatement) :
    (r.resolveStatements importer (before ++ statement :: behind)).value =
      (r.resolveStatements importer (before ++ behind)).value := by
  have hnone : (r.attempts importer statement).flatMap Attempt.files = [] := by
    rw [List.flatMap_eq_nil_iff]
    exact h
  rw [value_resolveStatements, value_resolveStatements, List.flatMap_append, List.flatMap_cons,
    List.flatMap_append, List.flatMap_append, List.flatMap_append, List.flatMap_append, hnone,
    List.nil_append]

end Resolver

/-! ### Regrouping -/

/-- Statements that are put in another order, repeated or split. A statement is split by dividing its
names between two of its kind. -/
inductive Regrouped : List ImportStatement → List ImportStatement → Prop
  | reorder {statements others : List ImportStatement} (h : statements.Perm others) :
      Regrouped statements others
  | again (statement : ImportStatement) (rest : List ImportStatement) :
      Regrouped (statement :: rest) (statement :: statement :: rest)
  | splitModules (names names' : List String) (rest : List ImportStatement) :
      Regrouped (.modules (names ++ names') :: rest) (.modules names :: .modules names' :: rest)
  | splitMembers (level : Nat) (source : Option String) (names names' : List String)
      (rest : List ImportStatement) :
      Regrouped (.members level source (names ++ names') :: rest)
        (.members level source names :: .members level source names' :: rest)
  | symm {statements others : List ImportStatement} (h : Regrouped statements others) :
      Regrouped others statements
  | trans {statements others further : List ImportStatement} (h : Regrouped statements others)
      (h' : Regrouped others further) : Regrouped statements further

namespace Resolver

variable {r : Resolver} {importer : FileRef}

/-- A statement that imports members tries what two statements try between which the names are
divided. -/
theorem mem_attempts_members_append {level : Nat} {source : Option String} {names names' : List String}
    {a : Attempt} :
    a ∈ r.attempts importer (.members level source (names ++ names')) ↔
      a ∈ r.attempts importer (.members level source names) ∨
        a ∈ r.attempts importer (.members level source names') := by
  have hcons : ∀ {first : Attempt} {l m : List Attempt},
      a ∈ first :: (l ++ m) ↔ a ∈ first :: l ∨ a ∈ first :: m := by
    intro first l m
    simp only [List.mem_cons, List.mem_append]
    grind
  cases level with
  | zero =>
      cases source with
      | none => simp [attempts]
      | some module =>
          simp only [attempts]
          split
          · simp
          · rw [List.map_append]
            exact hcons
  | succ level =>
      cases source with
      | none =>
          simp only [attempts, List.map_append]
          exact hcons
      | some module =>
          simp only [attempts, List.map_append]
          exact hcons

end Resolver

/-- Regrouped statements try the same names. -/
theorem Regrouped.mem_attempts_iff {statements others : List ImportStatement}
    (h : Regrouped statements others) (r : Resolver) (importer : FileRef) (a : Attempt) :
    a ∈ statements.flatMap (r.attempts importer) ↔ a ∈ others.flatMap (r.attempts importer) := by
  induction h with
  | reorder h => exact (h.flatMap_right _).mem_iff
  | again statement rest => simp only [List.flatMap_cons, List.mem_append, or_self_left]
  | splitModules names names' rest =>
      simp only [List.flatMap_cons, Resolver.attempts, List.map_append, List.append_assoc]
  | splitMembers level source names names' rest =>
      simp only [List.flatMap_cons, List.mem_append, Resolver.mem_attempts_members_append, or_assoc]
  | symm _ ih => exact ih.symm
  | trans _ _ ih ih' => exact ih.trans ih'

namespace Resolver

/-- **Statements import what their names stand for, one by one.** The result is the set of the files
that are found for the names of the statements, each tried by itself, so a name that cannot be resolved
adds nothing and changes nothing about the others. The log holds one entry for each such name and nothing
else, in the order of the names. Statements in another order, repeated or split import the same. -/
theorem resolveStatements_eq_union (r : Resolver) (importer : FileRef)
    (statements : List ImportStatement) :
    (r.resolveStatements importer statements).value =
        .ofList ((statements.flatMap (r.attempts importer)).flatMap Attempt.files) ∧
      (r.resolveStatements importer statements).log =
        (statements.flatMap (r.attempts importer)).filterMap (Attempt.report? importer) ∧
      ∀ others, Regrouped statements others →
        (r.resolveStatements importer others).value =
          (r.resolveStatements importer statements).value := by
  refine ⟨r.value_resolveStatements importer statements, r.log_resolveStatements importer statements,
    fun others hregrouped => ?_⟩
  rw [value_resolveStatements, value_resolveStatements]
  refine SortedSet.ext fun i => ?_
  simp only [SortedSet.mem_ofList, List.mem_flatMap (b := i), hregrouped.mem_attempts_iff r importer]

/-- A package with a module in it, beside another module. -/
def scatteredSite : Site where
  disk :=
    { entries :=
        [(.of ["p"], .directory), (.of ["p", "a"], .directory), (.of ["p", "a", "__init__.py"], .file []),
          (.of ["p", "a", "b.py"], .file []), (.of ["p", "c.py"], .file [])] }
  cwd := []

/-- The resolver for these modules. -/
def scatteredResolver : Resolver := ⟨scatteredSite, scatteredSite.finder, [⟨"/p"⟩], ⟨"/p"⟩⟩

/-- Two statements, each with a name that is not found. -/
def joinedStatements : List ImportStatement :=
  [.members 0 (some "a") ["b", "C"], .modules ["os", "c"]]

/-- The same with one name in each statement, in another order. -/
def scatteredStatements : List ImportStatement :=
  [.modules ["c"], .members 0 (some "a") ["C"], .modules ["os"], .members 0 (some "a") ["b"]]

theorem resolveStatements_eq_union_scattered :
    Regrouped joinedStatements scatteredStatements ∧
      (scatteredResolver.resolveStatements ⟨.of ["p", "c.py"], .of ["p"]⟩ scatteredStatements).value =
        (scatteredResolver.resolveStatements ⟨.of ["p", "c.py"], .of ["p"]⟩ joinedStatements).value ∧
      (scatteredResolver.resolveStatements ⟨.of ["p", "c.py"], .of ["p"]⟩ joinedStatements).value.toList =
        [⟨.of ["p", "a", "__init__.py"], .of ["p"]⟩, ⟨.of ["p", "a", "b.py"], .of ["p"]⟩,
          ⟨.of ["p", "c.py"], .of ["p"]⟩] ∧
      (scatteredResolver.resolveStatements ⟨.of ["p", "c.py"], .of ["p"]⟩ joinedStatements).log =
        [⟨.trace, "c.py:a.C is not a module: no module named \"C\" while resolving \"a.C\""⟩,
          ⟨.info, "Failed to resolve c.py:os: no module named \"os\" while resolving \"os\""⟩] := by
  have hmembers := Regrouped.splitMembers 0 (some "a") ["b"] ["C"] [.modules ["os", "c"]]
  have hmodules := Regrouped.splitModules ["os"] ["c"]
    [.members 0 (some "a") ["b"], .members 0 (some "a") ["C"]]
  have hregrouped : Regrouped joinedStatements scatteredStatements :=
    hmembers.trans ((Regrouped.reorder (by decide)).trans (hmodules.trans (.reorder (by decide))))
  obtain ⟨-, -, hsame⟩ :=
    resolveStatements_eq_union scatteredResolver ⟨.of ["p", "c.py"], .of ["p"]⟩ joinedStatements
  exact ⟨hregrouped, hsame _ hregrouped, by decide +kernel, by decide +kernel⟩

end Resolver

end ImportAtlas
