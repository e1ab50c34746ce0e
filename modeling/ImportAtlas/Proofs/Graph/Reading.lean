import ImportAtlas.Proofs.Disk.Questions
import ImportAtlas.Proofs.Module.Found
import ImportAtlas.Proofs.Workspace.Session
import ImportAtlas.Watch.Service

/-!
# What a build asks

To build a graph, the disk is asked many questions, and which ones depends on the answers so far: a source
file of the list is read only if it is there, a module is searched only if it is imported, and the search
ends with the first file that is found. If all these questions have the same answers on another site, then
the same graph is built there.

Main definitions:

* `ImportAtlas.Site.tries` — the paths that are tried in a search for a module;
* `ImportAtlas.Resolver.questions` — the questions that are asked when a graph is built;
* `ImportAtlas.Workspace.questions` — the same for the graph of a workspace, with those for its root and its
  search path;
* `ImportAtlas.Resolver.Asks` — a kind of paths that a search for modules keeps to;
* `ImportAtlas.Resolver.onSite` — a resolver on another site.

Main results:

* `ImportAtlas.Resolver.build_eq_of_agree` — **the graph depends only on the answers to these questions**;
* `ImportAtlas.Workspace.build_eq_of_agree` — the same for the graph of a workspace;
* `ImportAtlas.Resolver.Asks.questions` — what the questions are about;
* `ImportAtlas.Workspace.sought_of_mem_questions` — **a build asks about files with the ending of source
  files alone**.
-/

set_option autoImplicit false

namespace ImportAtlas

/-! ### Searching for a module -/

namespace Site

/-- The paths that are tried one after the other in a search for a module: in each directory the
initializer of the package and then the source file, up to the first that is there. -/
def tries (s : Site) (name : String) : List Path → List Path
  | [] => []
  | dir :: dirs =>
      let package := (dir.join ⟨name⟩).join initializer
      let file := dir.join ⟨name ++ ".py"⟩
      if s.isFile package then [package]
      else if s.isFile file then [package, file]
      else package :: file :: s.tries name dirs

theorem findModule?_cons (s : Site) (name : String) (dir : Path) (dirs : List Path) :
    s.findModule? name (dir :: dirs) =
      if s.isFile ((dir.join ⟨name⟩).join initializer) then some (.package (dir.join ⟨name⟩))
      else if s.isFile (dir.join ⟨name ++ ".py"⟩) then some (.source (dir.join ⟨name ++ ".py"⟩))
      else s.findModule? name dirs := by
  rw [findModule?, List.findSome?_cons, moduleIn?, isPackage]
  split
  · next location hlocation =>
      split at hlocation
      · next hpackage => rw [if_pos hpackage, hlocation]
      · next hpackage =>
          rw [if_neg hpackage]
          split at hlocation
          · next hfile => rw [if_pos hfile, hlocation]
          · cases hlocation
  · next hnone =>
      split at hnone
      · cases hnone
      · next hpackage =>
          rw [if_neg hpackage]
          split at hnone
          · cases hnone
          · next hfile => rw [if_neg hfile, findModule?]

/-- A module is found at the same path if the same of the paths that are tried are there. -/
theorem findModule?_eq {s s' : Site} {name : String} {dirs : List Path}
    (h : ∀ p ∈ s.tries name dirs, s.isFile p = s'.isFile p) :
    s.findModule? name dirs = s'.findModule? name dirs := by
  induction dirs with
  | nil => simp only [findModule?, List.findSome?_nil]
  | cons dir dirs ih =>
      rw [tries] at h
      rw [findModule?_cons, findModule?_cons]
      by_cases hpackage : s.isFile ((dir.join ⟨name⟩).join initializer) = true
      · rw [if_pos hpackage] at h
        rw [← h _ (by simp), if_pos hpackage, if_pos hpackage]
      · rw [if_neg hpackage] at h
        by_cases hfile : s.isFile (dir.join ⟨name ++ ".py"⟩) = true
        · rw [if_pos hfile] at h
          rw [← h _ (by simp), ← h _ (by simp), if_neg hpackage, if_neg hpackage, if_pos hfile,
            if_pos hfile]
        · rw [if_neg hfile, List.forall_mem_cons, List.forall_mem_cons] at h
          obtain ⟨hpackage', hfile', hrest⟩ := h
          rw [← hpackage', ← hfile', if_neg hpackage, if_neg hpackage, if_neg hfile, if_neg hfile,
            ih hrest]

end Site

/-! ### The questions of a build -/

namespace Resolver

/-- The question for the reference to a file that is found. -/
def refQuestion (r : Resolver) (p : Path) : Question :=
  .place (if p.isAbsolute then p else (RealPath.toPath (r.site.canonicalize r.root)).join p)

/-- The questions that are asked to resolve the parts of a name that are left. -/
def chainQuestions (r : Resolver) : List String → List Path → List Question
  | [], _ => []
  | segment :: rest, dirs =>
      (r.site.tries segment dirs).map .file ++
        match r.site.findModule? segment dirs with
        | none => []
        | some (.package dir) => r.refQuestion (dir.join initializer) :: r.chainQuestions rest [dir]
        | some (.source file) => if rest = [] then [r.refQuestion file] else []

/-- The questions that are asked to resolve a name in some directories. -/
def nameQuestions (r : Resolver) (module : String) (dirs : List Path) : List Question :=
  if "" ∈ segments module then [] else r.chainQuestions (segments module) dirs

/-- The questions that are asked for the initializer of a directory. -/
def initializerQuestions (r : Resolver) (dir : Path) : List Question :=
  .file (dir.join initializer) ::
    if r.site.isPackage dir then [r.refQuestion (dir.join initializer)] else []

/-- The questions that are asked to resolve a name in an importing file. -/
def targetQuestions (r : Resolver) (importer : FileRef) : Target → List Question
  | .absolute module => r.nameQuestions module r.searchPath
  | .relative level module =>
      match base? (RealPath.toPath importer.abs) level with
      | none => []
      | some base =>
          (match module with
            | none => []
            | some module => r.nameQuestions module [base]) ++ r.initializerQuestions base

/-- The questions that are asked to load a file: what text it holds, and those for all names that it
imports. -/
def loadQuestions (r : Resolver) (file : FileRef) : List Question :=
  .text (RealPath.toPath file.abs) ::
    match r.scan file with
    | .ok statements =>
        (statements.flatMap references).flatMap fun reference => r.targetQuestions file reference.target
    | .error _ => []

/-- The questions that are asked for the vertex of a file: none if it does not have the extension of
source files. -/
def vertexQuestions (r : Resolver) (analyze : Bool) (file : FileRef) : List Question :=
  if RealPath.kind file.abs = .source then
    .file (RealPath.toPath file.abs) ::
      if r.site.isFile (RealPath.toPath file.abs) && analyze then r.loadQuestions file else []
  else []

/-- The questions that are asked when the graph of some files is built, with the files outside that they
import. -/
def questions (r : Resolver) (files : List FileRef) : List Question :=
  .place r.root ::
    (files.flatMap (r.vertexQuestions true) ++
      (externals (r.loaded files)).flatMap (r.vertexQuestions false))

/-- A resolver on another site, on whose disk it finds modules. -/
def onSite (r : Resolver) (s : Site) : Resolver := { r with site := s, finder := s.finder }

theorem scan_eq_ok_iff {r : Resolver} {file : FileRef} {statements : List Python.ImportStatement} :
    r.scan file = .ok statements ↔
      ∃ text, r.site.readText (RealPath.toPath file.abs) = .ok text ∧
        Python.importsOf text = .ok statements := by
  rw [scan]
  cases r.site.readText (RealPath.toPath file.abs) with
  | error e => simp
  | ok text => cases h : Python.importsOf text <;> simp [h]

theorem value_load_of_scan {r : Resolver} {file : FileRef} {statements : List Python.ImportStatement}
    (h : r.scan file = .ok statements) :
    (r.load file).value = ⟨file, (r.resolveStatements file statements).value, true⟩ := by
  rw [load, h]
  rfl

theorem value_load_of_error {r : Resolver} {file : FileRef} {e : LoadError}
    (h : r.scan file = .error e) : (r.load file).value = ⟨file, ∅, true⟩ := by
  rw [load, h]
  rfl

/-- Two resolvers load the same for a file if they read the same text, and if they resolve its statements
to the same. -/
theorem load_eq {r r' : Resolver} {file : FileRef}
    (htext : (r.site.readText (RealPath.toPath file.abs)).toOption =
      (r'.site.readText (RealPath.toPath file.abs)).toOption)
    (hresolve : ∀ statements, r.scan file = .ok statements →
      (r.resolveStatements file statements).value = (r'.resolveStatements file statements).value) :
    (r.load file).value = (r'.load file).value := by
  have hscan : ∀ statements, r.scan file = .ok statements ↔ r'.scan file = .ok statements := by
    intro statements
    simp only [scan_eq_ok_iff, ← Site.toOption_readText_eq_some_iff, htext]
  cases hs : r.scan file with
  | ok statements =>
      rw [value_load_of_scan hs, value_load_of_scan ((hscan statements).1 hs), hresolve statements hs]
  | error e =>
      cases hs' : r'.scan file with
      | ok statements =>
          rw [(hscan statements).2 hs'] at hs
          cases hs
      | error e' => rw [value_load_of_error hs, value_load_of_error hs']

/-! ### The same answers -/

section Agree

variable {r : Resolver} {s : Site} (hfinder : r.finder = r.site.finder)
  (hroot : r.site.Agree s (.place r.root))

include hroot in
/-- The references to a file are the same on both sites. -/
theorem ref_eq_of_agree {p : Path} (h : r.site.Agree s (r.refQuestion p)) :
    r.ref p = (r.onSite s).ref p := by
  have hcanonical : r.site.canonicalize r.root = s.canonicalize r.root := hroot
  have habs : r.site.canonicalize
        (if p.isAbsolute then p else (RealPath.toPath (r.site.canonicalize r.root)).join p) =
      s.canonicalize
        (if p.isAbsolute then p else (RealPath.toPath (r.site.canonicalize r.root)).join p) := h
  have hself : (r.onSite s).ref p = s.ref p r.root := rfl
  rw [hself, ref, Site.ref, Site.ref, habs, hcanonical]

include hfinder hroot

theorem chain_eq_of_agree (module : String) {names : List String} {dirs : List Path}
    (h : ∀ question ∈ r.chainQuestions names dirs, r.site.Agree s question) :
    r.chain module names dirs = (r.onSite s).chain module names dirs := by
  induction names generalizing dirs with
  | nil => rw [chain, chain]
  | cons name rest ih =>
      rw [chainQuestions, List.forall_mem_append, List.forall_mem_map] at h
      obtain ⟨htries, hfound⟩ := h
      have hfind : r.finder.find? name dirs = r.site.findModule? name dirs := by rw [hfinder]; rfl
      have hfind' : (r.onSite s).finder.find? name dirs = r.site.findModule? name dirs :=
        (Site.findModule?_eq htries).symm
      rw [chain, chain, hfind, hfind']
      cases hlocation : r.site.findModule? name dirs with
      | none => rfl
      | some location =>
          rw [hlocation] at hfound
          cases location with
          | package dir =>
              obtain ⟨href, hrest⟩ := List.forall_mem_cons.1 hfound
              simp only [ref_eq_of_agree hroot href, ih hrest]
          | source file =>
              dsimp only at hfound ⊢
              split
              · next hnil =>
                  rw [if_pos hnil] at hfound
                  rw [ref_eq_of_agree hroot (hfound _ (by simp))]
              · rfl

theorem resolveIn_eq_of_agree {module : String} {dirs : List Path}
    (h : ∀ question ∈ r.nameQuestions module dirs, r.site.Agree s question) :
    r.resolveIn module dirs = (r.onSite s).resolveIn module dirs := by
  rw [resolveIn, resolveIn]
  split
  · rfl
  · next hempty =>
      rw [nameQuestions, if_neg hempty] at h
      exact chain_eq_of_agree hfinder hroot module h

theorem initializerOf_eq_of_agree {dir : Path}
    (h : ∀ question ∈ r.initializerQuestions dir, r.site.Agree s question) :
    r.initializerOf dir = (r.onSite s).initializerOf dir := by
  obtain ⟨hfile, href⟩ := List.forall_mem_cons.1 h
  have hpackage : r.finder.isPackage dir = r.site.isPackage dir := by rw [hfinder]; rfl
  have hpackage' : (r.onSite s).finder.isPackage dir = r.site.isPackage dir := hfile.symm
  rw [initializerOf, initializerOf, hpackage, hpackage']
  split
  · next hp =>
      rw [if_pos hp] at href
      rw [ref_eq_of_agree hroot (href _ (by simp))]
  · rfl

theorem resolveTarget_eq_of_agree {importer : FileRef} {target : Target}
    (h : ∀ question ∈ r.targetQuestions importer target, r.site.Agree s question) :
    r.resolveTarget importer target = (r.onSite s).resolveTarget importer target := by
  cases target with
  | absolute module => exact resolveIn_eq_of_agree hfinder hroot h
  | relative level module =>
      rw [targetQuestions] at h
      rw [resolveTarget, resolveTarget, resolveRelative, resolveRelative]
      cases hbase : base? (RealPath.toPath importer.abs) level with
      | none => rfl
      | some base =>
          rw [hbase, List.forall_mem_append] at h
          have hinit := initializerOf_eq_of_agree hfinder hroot h.2
          cases module with
          | none => simp only [hinit]
          | some module => simp only [hinit, resolveIn_eq_of_agree hfinder hroot h.1]

theorem resolveStatements_eq_of_agree {importer : FileRef} {statements : List Python.ImportStatement}
    (h : ∀ reference ∈ statements.flatMap references,
      ∀ question ∈ r.targetQuestions importer reference.target, r.site.Agree s question) :
    (r.resolveStatements importer statements).value =
      ((r.onSite s).resolveStatements importer statements).value := by
  rw [resolveStatements, resolveStatements, Logged.value_foldlM, Logged.value_foldlM]
  refine List.foldl_ext _ _ _ fun found reference hmem => ?_
  rw [absorb, absorb, resolveTarget_eq_of_agree hfinder hroot (h reference hmem)]

/-- A file imports the same on both sites. -/
theorem load_eq_of_agree {file : FileRef}
    (h : ∀ question ∈ r.loadQuestions file, r.site.Agree s question) :
    (r.load file).value = ((r.onSite s).load file).value := by
  obtain ⟨htext, hnames⟩ := List.forall_mem_cons.1 h
  refine load_eq htext fun statements hscan => ?_
  rw [hscan] at hnames
  exact resolveStatements_eq_of_agree hfinder hroot fun reference hmem question hquestion =>
    hnames question (List.mem_flatMap.2 ⟨reference, hmem, hquestion⟩)

theorem vertex?_eq_of_agree {analyze : Bool} {file : FileRef}
    (h : ∀ question ∈ r.vertexQuestions analyze file, r.site.Agree s question) :
    (r.vertex? analyze file).value = ((r.onSite s).vertex? analyze file).value := by
  ext v
  rw [vertex?_eq_some_iff, vertex?_eq_some_iff, Site.IsSource, Site.IsSource,
    ← RealPath.kind_eq_source_iff]
  by_cases hkind : RealPath.kind file.abs = .source
  · rw [vertexQuestions, if_pos hkind, List.forall_mem_cons] at h
    obtain ⟨hfile, hload⟩ := h
    have hfile' : (r.onSite s).site.isFile (RealPath.toPath file.abs) =
        r.site.isFile (RealPath.toPath file.abs) := hfile.symm
    rw [hfile']
    refine and_congr_right fun hsource => ?_
    cases analyze with
    | false => simp only [Bool.false_eq_true, if_false]
    | true =>
        rw [hsource.1, Bool.and_true, if_pos rfl] at hload
        rw [load_eq_of_agree hfinder hroot hload]
  · simp [hkind]

theorem vertices_eq_of_agree {analyze : Bool} {files : List FileRef}
    (h : ∀ question ∈ files.flatMap (r.vertexQuestions analyze), r.site.Agree s question) :
    (r.vertices analyze files).value = ((r.onSite s).vertices analyze files).value := by
  induction files with
  | nil => simp only [vertices, Logged.value_pure]
  | cons file rest ih =>
      rw [List.flatMap_cons, List.forall_mem_append] at h
      simp only [vertices, Logged.value_bind, Logged.value_pure,
        vertex?_eq_of_agree hfinder hroot h.1, ih h.2]

omit hroot in
/-- **The graph depends only on the answers to the questions that are asked.** -/
theorem build_eq_of_agree {files : List FileRef}
    (h : ∀ question ∈ r.questions files, r.site.Agree s question) :
    (r.build true files).value = ((r.onSite s).build true files).value := by
  rw [questions, List.forall_mem_cons, List.forall_mem_append] at h
  obtain ⟨hroot, hfiles, houtside⟩ := h
  have hloaded : r.loaded files = (r.onSite s).loaded files :=
    vertices_eq_of_agree hfinder hroot hfiles
  have hothers : r.outside true files = (r.onSite s).outside true files := by
    rw [outside, outside, if_pos rfl, if_pos rfl, ← hloaded]
    exact vertices_eq_of_agree hfinder hroot houtside
  rw [build_eq, build_eq, unlinked, unlinked, hloaded, hothers]

end Agree

/-! ### What the questions are about -/

/-- A search for modules keeps to directories and files of some kind: from a directory of that kind it
goes on to packages and source files of that kind, and to its initializer. -/
structure Asks (D F : Path → Prop) : Prop where
  isAbsolute : ∀ p, F p → p.isAbsolute = true
  package : ∀ dir module, ∀ name ∈ segments module, D dir → D (dir.join ⟨name⟩)
  source : ∀ dir module, ∀ name ∈ segments module, D dir → F (dir.join ⟨name ++ ".py"⟩)
  initializer : ∀ dir, D dir → F (dir.join initializer)

end Resolver

/-- A question about a file of some kind, or about the canonical place of an absolute path. -/
def Question.About (F : Path → Prop) : Question → Prop
  | .file p => F p
  | .text p => F p
  | .place p => p.isAbsolute = true

namespace Resolver.Asks

variable {D F : Path → Prop} (h : Asks D F) {r : Resolver}
include h

theorem tries {s : Site} {module name : String} (hn : name ∈ segments module) {dirs : List Path}
    (hd : ∀ dir ∈ dirs, D dir) : ∀ p ∈ s.tries name dirs, F p := by
  induction dirs with
  | nil => simp [Site.tries]
  | cons dir dirs ih =>
      obtain ⟨hdir, hdirs⟩ := List.forall_mem_cons.1 hd
      have hpackage : F ((dir.join ⟨name⟩).join ImportAtlas.initializer) :=
        h.initializer _ (h.package dir module name hn hdir)
      have hsource : F (dir.join ⟨name ++ ".py"⟩) := h.source dir module name hn hdir
      rw [Site.tries]
      split
      · simpa using hpackage
      · split
        · simpa using ⟨hpackage, hsource⟩
        · simpa using ⟨hpackage, hsource, ih hdirs⟩

theorem refQuestion {p : Path} (hp : F p) : (r.refQuestion p).About F := by
  have habs := h.isAbsolute p hp
  rw [Resolver.refQuestion, if_pos habs]
  exact habs

theorem chainQuestions {module : String} {names : List String} (hn : ∀ n ∈ names, n ∈ segments module)
    {dirs : List Path} (hd : ∀ dir ∈ dirs, D dir) :
    ∀ question ∈ r.chainQuestions names dirs, question.About F := by
  induction names generalizing dirs with
  | nil => simp [Resolver.chainQuestions]
  | cons name rest ih =>
      obtain ⟨hname, hrest⟩ := List.forall_mem_cons.1 hn
      rw [Resolver.chainQuestions, List.forall_mem_append, List.forall_mem_map]
      refine ⟨h.tries hname hd, ?_⟩
      split
      · simp
      · next dir hfound =>
          obtain ⟨-, parent, hparent, rfl⟩ := Site.exists_join_of_findModule? hfound
          have hdir := h.package parent module name hname (hd parent hparent)
          refine List.forall_mem_cons.2 ⟨h.refQuestion (h.initializer _ hdir), ?_⟩
          exact ih hrest (by simpa using hdir)
      · next file hfound =>
          obtain ⟨-, dir, hdir, rfl⟩ := Site.isFile_of_findModule? hfound
          split
          · simpa using h.refQuestion (h.source dir module name hname (hd dir hdir))
          · simp

theorem nameQuestions (module : String) {dirs : List Path} (hd : ∀ dir ∈ dirs, D dir) :
    ∀ question ∈ r.nameQuestions module dirs, question.About F := by
  rw [Resolver.nameQuestions]
  split
  · simp
  · exact h.chainQuestions (fun _ hn => hn) hd

theorem initializerQuestions {dir : Path} (hd : D dir) :
    ∀ question ∈ r.initializerQuestions dir, question.About F := by
  refine List.forall_mem_cons.2 ⟨h.initializer dir hd, ?_⟩
  split
  · simpa using h.refQuestion (h.initializer dir hd)
  · simp

section

variable (hsearch : ∀ dir ∈ r.searchPath, D dir)
include hsearch

theorem targetQuestions {importer : FileRef} (hi : SeenFrom D importer) (target : Target) :
    ∀ question ∈ r.targetQuestions importer target, question.About F := by
  cases target with
  | absolute module => exact h.nameQuestions module hsearch
  | relative level module =>
      rw [Resolver.targetQuestions]
      cases hbase : base? (RealPath.toPath importer.abs) level with
      | none => simp
      | some base =>
          have hb : D base := hi level base hbase
          refine List.forall_mem_append.2 ⟨?_, h.initializerQuestions hb⟩
          cases module with
          | none => simp
          | some module => exact h.nameQuestions module (by simpa using hb)

theorem vertexQuestions {analyze : Bool} {file : FileRef}
    (hf : RealPath.kind file.abs = .source → F (RealPath.toPath file.abs))
    (hi : analyze = true → SeenFrom D file) :
    ∀ question ∈ r.vertexQuestions analyze file, question.About F := by
  rw [Resolver.vertexQuestions]
  split
  · next hkind =>
      refine List.forall_mem_cons.2 ⟨hf hkind, ?_⟩
      split
      · next hload =>
          refine List.forall_mem_cons.2 ⟨hf hkind, ?_⟩
          split
          · intro question hquestion
            obtain ⟨reference, -, hquestion⟩ := List.mem_flatMap.1 hquestion
            exact h.targetQuestions hsearch (hi (Bool.and_eq_true_iff.1 hload).2) reference.target
              question hquestion
          · simp
      · simp
  · simp

/-- **The questions of a build are about files of some kind**, and about the canonical places of absolute
paths, if the search for modules keeps to that kind, and if the source files of the list and those that are
imported are of that kind. -/
theorem questions {files : List FileRef} (hroot : r.root.isAbsolute = true)
    (hseen : ∀ f ∈ files, SeenFrom D f)
    (hfiles : ∀ f ∈ files, RealPath.kind f.abs = .source → F (RealPath.toPath f.abs))
    (himports : ∀ f ∈ files, ∀ i ∈ (r.load f).value.imports, RealPath.kind i.abs = .source →
      F (RealPath.toPath i.abs)) :
    ∀ question ∈ r.questions files, question.About F := by
  rw [Resolver.questions, List.forall_mem_cons, List.forall_mem_append]
  refine ⟨hroot, ?_, ?_⟩ <;> intro question hquestion <;>
    obtain ⟨f, hf, hquestion⟩ := List.mem_flatMap.1 hquestion
  · exact h.vertexQuestions hsearch (hfiles f hf) (fun _ => hseen f hf) question hquestion
  · -- the files outside are imports of the loaded ones
    obtain ⟨⟨v, hv, himport⟩, -⟩ := mem_externals.1 hf
    obtain ⟨file, hfile, -, rfl⟩ := mem_loaded.1 hv
    exact h.vertexQuestions hsearch (himports file hfile f himport) (fun hfalse => by cases hfalse)
      question hquestion

end

end Resolver.Asks

/-! ### Searching through names -/

namespace Resolver

/-- A search for modules goes through names alone, and comes across nothing but files with the ending of
source files. -/
theorem asks_sought : Asks Path.Onward Path.Sought where
  isAbsolute := fun _ hp => hp.isAbsolute
  package := fun _ _ _ hname hd => hd.join_name (not_mem_of_mem_segments hname)
  source := fun _ _ _ hname hd => hd.sought (not_mem_of_mem_segments hname)
  initializer := fun _ hd => hd.sought (show '.' ∉ "__init__".toList by decide)

/-- Climbing from a place leads to places above it. -/
theorem exists_prefix_of_above? {n : Nat} {p : RealPath} {q : Path}
    (h : above? n (RealPath.toPath p) = some q) : ∃ g, g <+: p ∧ q = RealPath.toPath g := by
  induction n generalizing p with
  | zero => exact ⟨p, List.prefix_rfl, by simpa [above?, eq_comm] using h⟩
  | succ n ih =>
      obtain ⟨parent, hparent, hq⟩ := Option.bind_eq_some_iff.1 h
      have hne : p ≠ [] := by
        rintro rfl
        cases hparent
      rw [Path.parent?_toPath hne, Option.some.injEq] at hparent
      subst hparent
      obtain ⟨g, hg, rfl⟩ := ih hq
      exact ⟨g, hg.trans (List.dropLast_prefix p), rfl⟩

/-- Relative names in a file are seen from directories above it. -/
theorem seenFrom_onward (file : FileRef) : SeenFrom Path.Onward file := by
  intro level base hbase
  obtain ⟨g, -, rfl⟩ := exists_prefix_of_above? hbase
  exact Path.onward_toPath g

end Resolver

/-! ### Workspaces -/

namespace Workspace

/-- The questions that are asked when the graph of a workspace is built. -/
def questions (s : Site) (w : Workspace) : List Question :=
  w.config.rootDir.toList.map (fun root => .place (w.dirPath.join root)) ++
    (w.config.pythonPath.map (fun p => .place ((w.rootPath s).join p)) ++
      (w.resolver s).questions w.files)

variable {s s' : Site} {w : Workspace}

/-- **The graph of a workspace depends only on the answers to the questions that are asked.** -/
theorem build_eq_of_agree (h : ∀ question ∈ w.questions s, s.Agree s' question) :
    (w.build s true).value = (w.build s' true).value := by
  rw [questions, List.forall_mem_append, List.forall_mem_append, List.forall_mem_map,
    List.forall_mem_map] at h
  obtain ⟨hroot, hpython, hbuild⟩ := h
  have hrootDir : w.rootDir s = w.rootDir s' := by
    rw [rootDir, rootDir]
    cases hconfig : w.config.rootDir with
    | none => rfl
    | some root => exact hroot root (by simp [hconfig])
  have hrootPath : w.rootPath s' = w.rootPath s := by rw [rootPath, rootPath, hrootDir]
  have hpythonPath : w.pythonPath s = w.pythonPath s' := by
    rw [pythonPath, pythonPath, hrootPath]
    exact List.map_congr_left hpython
  have hresolver : w.resolver s' = (w.resolver s).onSite s' := by
    simp only [resolver, Resolver.onSite, searchPath, hrootPath, hrootDir, hpythonPath]
  rw [build, build, hresolver]
  exact Resolver.build_eq_of_agree rfl hbuild

/-- What the questions are about, if the search for modules keeps to some kind of directories and
files. -/
theorem about_of_mem_questions {D F : Path → Prop} (h : Resolver.Asks D F)
    (hsearch : ∀ dir ∈ (w.resolver s).searchPath, D dir)
    (hseen : ∀ f ∈ w.files, Resolver.SeenFrom D f)
    (hfiles : ∀ f ∈ w.files, RealPath.kind f.abs = .source → F (RealPath.toPath f.abs))
    (himports : ∀ f ∈ w.files, ∀ i ∈ ((w.resolver s).load f).value.imports,
      RealPath.kind i.abs = .source → F (RealPath.toPath i.abs)) :
    ∀ question ∈ w.questions s, question.About F := by
  rw [questions, List.forall_mem_append, List.forall_mem_append, List.forall_mem_map,
    List.forall_mem_map]
  refine ⟨fun root _ => ?_, fun p _ => ?_, ?_⟩
  · exact Site.isAbsolute_toPath_join _ _
  · exact Site.isAbsolute_toPath_join _ _
  · exact h.questions hsearch (RealPath.isAbsolute_toPath _) hseen hfiles himports

/-- All questions are about absolute paths. -/
theorem isAbsolute_of_mem_questions {question : Question} (h : question ∈ w.questions s) :
    question.path.isAbsolute = true := by
  have hasks : Resolver.Asks (·.isAbsolute = true) (·.isAbsolute = true) :=
    ⟨fun _ hp => hp, fun _ _ _ _ hd => Path.isAbsolute_join hd _,
      fun _ _ _ _ hd => Path.isAbsolute_join hd _, fun _ hd => Path.isAbsolute_join hd _⟩
  have habout := about_of_mem_questions hasks (s := s) (w := w)
    (fun dir hdir => by
      obtain ⟨place, -, rfl⟩ := List.mem_map.1 hdir
      exact RealPath.isAbsolute_toPath place)
    (fun f _ => Resolver.seenFrom_isAbsolute f) (fun f _ _ => RealPath.isAbsolute_toPath f.abs)
    (fun _ _ i _ _ => RealPath.isAbsolute_toPath i.abs) question h
  cases question <;> exact habout

/-- All questions but those for canonical places are about paths through names to files with the ending
of source files. -/
theorem sought_of_mem_questions {question : Question} (h : question ∈ w.questions s) :
    question.About Path.Sought := by
  refine about_of_mem_questions Resolver.asks_sought ?_ ?_ ?_ ?_ question h
  · intro dir hmem
    obtain ⟨place, -, rfl⟩ := List.mem_map.1 hmem
    exact Path.onward_toPath place
  · exact fun f _ => Resolver.seenFrom_onward f
  · exact fun f _ hkind => Path.sought_toPath (RealPath.kind_eq_source_iff.1 hkind)
  · exact fun f _ i _ hkind => Path.sought_toPath (RealPath.kind_eq_source_iff.1 hkind)

end Workspace

end ImportAtlas
