import ImportAtlas.Proofs.Disk.LinkFree
import ImportAtlas.Proofs.Disk.Unlimited

/-!
# The longest part of a path that leads somewhere

The canonical place of a path is found in two ways: at once, if the path leads to an entry, and else by
following its components one by one. The two agree: what a path leads to at once is also found one by
one. Following goes as far as the components lead anywhere and takes the others as they are written. So
without double dots the canonical place is where the longest part of the path leads to, and the names
behind it. It is told by the components alone, and they do not change if separators are repeated or dots
are put in.

All this holds as long as following the components comes across no limit of the system.

Main definitions:

* `ImportAtlas.Path.Respelled` — a path with more separators and dots;
* `ImportAtlas.Site.lookups` — the places that are asked for when components are followed;
* `ImportAtlas.Site.InReach` — no limit keeps the system from finding what a place leads to.

Main results:

* `ImportAtlas.Site.follow_eq_of_reaches` — **what steps lead to is found one by one**;
* `ImportAtlas.Site.follow_names_eq` — how far names lead;
* `ImportAtlas.Site.canonicalize_eq_follow` — the canonical place is found one by one;
* `ImportAtlas.Site.canonicalize_eq_longest` — **what the canonical place of a path is**.
-/

set_option autoImplicit false

namespace ImportAtlas

namespace Path

/-! ### Separators and dots -/

/-- A path with separators repeated or put at its end, and with dots put in. -/
inductive Respelled (p : Path) : Path → Prop
  | same : Respelled p p
  | separator {before behind : String} (spelled : Respelled p ⟨before ++ "/" ++ behind⟩) :
      Respelled p ⟨before ++ "//" ++ behind⟩
  | dot {before behind : String} (spelled : Respelled p ⟨before ++ "/" ++ behind⟩) :
      Respelled p ⟨before ++ "/./" ++ behind⟩
  | firstDot {q : Path} (spelled : Respelled p q) (relative : q.isAbsolute = false) :
      Respelled p ⟨"./" ++ q.text⟩
  | lastSeparator {q : Path} (spelled : Respelled p q) (nonempty : q.text ≠ "") :
      Respelled p ⟨q.text ++ "/"⟩
  | lastDot {q : Path} (spelled : Respelled p q) (nonempty : q.text ≠ "") :
      Respelled p ⟨q.text ++ "/."⟩

/-- Whether a path is absolute is told by its beginning. -/
theorem isAbsolute_append {text : String} (h : text ≠ "") (behind : String) :
    (⟨text ++ behind⟩ : Path).isAbsolute = (⟨text⟩ : Path).isAbsolute := by
  obtain ⟨c, rest, hlist⟩ : ∃ c rest, text.toList = c :: rest :=
    List.exists_cons_of_ne_nil (by simpa using h)
  simp [isAbsolute, String.toList_append, hlist]

theorem isAbsolute_append_separator (before behind : String) :
    (⟨before ++ "/" ++ behind⟩ : Path).isAbsolute = (⟨before ++ "/"⟩ : Path).isAbsolute :=
  isAbsolute_append (by simp) behind

/-- The pieces before a separator and those behind it are told apart. -/
theorem filterMap_pieces_append (before behind : String) :
    (⟨before ++ "/" ++ behind⟩ : Path).pieces.filterMap ofPiece? =
      (⟨before⟩ : Path).pieces.filterMap ofPiece? ++
        (⟨behind⟩ : Path).pieces.filterMap ofPiece? := by
  rw [pieces_append, List.filterMap_append]

/-- Separators and dots change neither where a path starts nor what its pieces mean. -/
theorem Respelled.same_pieces {p q : Path} (h : p.Respelled q) :
    q.isAbsolute = p.isAbsolute ∧ q.pieces.filterMap ofPiece? = p.pieces.filterMap ofPiece? := by
  have hempty : (⟨""⟩ : Path).pieces.filterMap ofPiece? = [] := by decide
  have hdot : (⟨"."⟩ : Path).pieces.filterMap ofPiece? = [] := by decide
  induction h with
  | same => exact ⟨rfl, rfl⟩
  | @separator before behind _ ih =>
      have htext : before ++ "//" ++ behind = before ++ "/" ++ ("" ++ "/" ++ behind) :=
        String.toList_injective (by simp [String.toList_append])
      rw [filterMap_pieces_append, isAbsolute_append_separator] at ih
      rw [htext, filterMap_pieces_append, filterMap_pieces_append, hempty, List.nil_append,
        isAbsolute_append_separator]
      exact ih
  | @dot before behind _ ih =>
      have htext : before ++ "/./" ++ behind = before ++ "/" ++ ("." ++ "/" ++ behind) :=
        String.toList_injective (by simp [String.toList_append])
      rw [filterMap_pieces_append, isAbsolute_append_separator] at ih
      rw [htext, filterMap_pieces_append, filterMap_pieces_append, hdot, List.nil_append,
        isAbsolute_append_separator]
      exact ih
  | @firstDot q _ relative ih =>
      have htext : "./" ++ q.text = "." ++ "/" ++ q.text := by simp
      rw [htext, filterMap_pieces_append, hdot, List.nil_append, isAbsolute_append_separator, ← ih.1,
        relative]
      exact ⟨by decide, ih.2⟩
  | @lastSeparator q _ nonempty ih =>
      have htext : q.text ++ "/" = q.text ++ "/" ++ "" := by simp
      rw [isAbsolute_append nonempty, htext, filterMap_pieces_append, hempty, List.append_nil]
      exact ih
  | @lastDot q _ nonempty ih =>
      have htext : q.text ++ "/." = q.text ++ "/" ++ "." :=
        String.toList_injective (by simp [String.toList_append])
      rw [isAbsolute_append nonempty, htext, filterMap_pieces_append, hdot, List.append_nil]
      exact ih

end Path

theorem Step.up_or_name_of_mem {steps : List Step} {c : Component}
    (h : c ∈ steps.filterMap Step.component?) : c = .up ∨ ∃ n, c = .name n := by
  obtain ⟨step, -, hstep⟩ := List.mem_filterMap.1 h
  cases step with
  | stay => cases hstep
  | up =>
      cases hstep
      exact .inl rfl
  | name n =>
      cases hstep
      exact .inr ⟨n, rfl⟩

namespace Site

variable {s : Site}

/-! ### Limits -/

/-- The places that are asked for when components are followed from a place. -/
def lookups (s : Site) : RealPath → List Component → List RealPath
  | _, [] => []
  | _, .top :: rest => s.lookups [] rest
  | place, .here :: rest => s.lookups place rest
  | place, .up :: rest => s.lookups place.dropLast rest
  | place, .name n :: rest =>
      (place ++ [n]) ::
        match s.realPath (RealPath.toPath (place ++ [n])) with
        | .ok real => s.lookups real rest
        | .error _ => []

/-- If a place leads to an entry, through however many links, then the system finds it: it does not
refuse the text of the place or the number of links. -/
def InReach (s : Site) (p : RealPath) : Prop :=
  ∀ place e, s.disk.Reaches [] (p.map .name) place e → s.realPath (RealPath.toPath p) = .ok place

theorem reaches_of_realPath {p place : RealPath} (h : s.realPath (RealPath.toPath p) = .ok place) :
    ∃ e, s.disk.Reaches [] (p.map .name) place e := by
  obtain ⟨-, e, he⟩ := realPath_toPath_iff.1 h
  exact ⟨e, Disk.reaches_of_resolve he⟩

/-- A place is in reach if its text is taken and the system does not meet too many links. -/
theorem inReach_of_ne {p : RealPath} (hs : Spellable p)
    (h : s.realPath (RealPath.toPath p) ≠ .error .tooManyLinks) : s.InReach p := by
  intro place e hreaches
  rcases hreaches.resolve_eq linkLimit with hfound | hmany
  · exact realPath_toPath_iff.2 ⟨hs, e, hfound⟩
  · refine absurd ?_ h
    obtain ⟨hnul, hsize⟩ := hs
    rw [realPath, find, locate_toPath, if_neg hnul, if_neg (Nat.not_lt.2 hsize), hmany]
    rfl

/-! ### Following steps one by one -/

/-- What steps lead to is found by following their components one by one. -/
theorem follow_eq_of_reaches {dir place : RealPath} {steps : List Step} {e : Entry}
    (hdir : s.disk.Reaches [] (dir.map .name) dir .directory) (h : s.disk.Reaches dir steps place e)
    (hreach : ∀ q ∈ s.lookups dir (steps.filterMap Step.component?), s.InReach q) :
    s.follow true dir (steps.filterMap Step.component?) = place := by
  induction steps generalizing dir with
  | nil =>
      rw [List.filterMap_nil, follow]
      exact (h.unique ⟨0, .stop⟩).1.symm
  | cons step rest ih =>
      cases step with
      | stay => exact ih hdir (Disk.reaches_stay_iff.1 h) hreach
      | up =>
          have hsome : Step.up.component? = some .up := rfl
          rw [List.filterMap_cons_some hsome, lookups] at hreach
          rw [List.filterMap_cons_some hsome, follow]
          exact ih hdir.dropLast (Disk.reaches_up_iff.1 h) hreach
      | name n =>
          -- a name is looked up in the directory, and what it leads to is gone on from
          have hsome : (Step.name n).component? = some (.name n) := rfl
          rw [List.filterMap_cons_some hsome, lookups] at hreach
          rw [List.filterMap_cons_some hsome]
          by_cases hrest : rest = []
          · subst hrest
            have hreal := hreach _ (by simp) place e (Disk.reaches_concat_iff.2 ⟨dir, hdir, h⟩)
            simp only [List.filterMap_nil, follow, hreal]
          · have hsplit : s.disk.Reaches dir ([.name n] ++ rest) place e := h
            obtain ⟨dir', hfirst, hothers⟩ := (Disk.reaches_append_iff hrest).1 hsplit
            have hstep := Disk.reaches_concat_iff.2 ⟨dir, hdir, hfirst⟩
            have hreal := hreach _ (by simp) dir' .directory hstep
            rw [hreal] at hreach
            rw [follow, hreal]
            exact ih hstep.self hothers fun q hq => hreach q (List.mem_cons_of_mem _ hq)

/-- How far names lead: some of them lead to a place, no more of them lead anywhere, and the others stay
as they are. -/
theorem follow_names_eq {names taken place : RealPath} {e : Entry}
    (h : s.disk.Reaches [] (taken.map .name) place e)
    (hreach : ∀ q ∈ s.lookups place (names.map .name), s.InReach q) :
    ∃ more left real e, names = more ++ left ∧ s.disk.Reaches [] ((taken ++ more).map .name) real e ∧
      s.follow true place (names.map .name) = real ++ left ∧
      ∀ n rest, left = n :: rest →
        ∀ place e, ¬s.disk.Reaches [] ((taken ++ more ++ [n]).map .name) place e := by
  induction names generalizing taken place e with
  | nil => exact ⟨[], [], place, e, rfl, by simpa using h, by simp [follow], by simp⟩
  | cons n names ih =>
      rw [List.map_cons, lookups] at hreach
      rw [List.map_cons, follow]
      cases hr : s.realPath (RealPath.toPath (place ++ [n])) with
      | ok real =>
          obtain ⟨e', hreal⟩ := reaches_of_realPath hr
          obtain ⟨dir, hself, hstep⟩ := Disk.reaches_concat_iff.1 hreal
          -- the name is looked up where the names before it lead to
          obtain ⟨rfl, rfl⟩ := h.self.unique hself
          rw [hr] at hreach
          obtain ⟨more, left, real', e'', rfl, hreaches, hfollow, hleft⟩ :=
            ih (Disk.reaches_concat_iff.2 ⟨place, h, hstep⟩) fun q hq => hreach q (List.mem_cons_of_mem _ hq)
          rw [← List.append_cons] at hreaches
          refine ⟨n :: more, left, real', e'', rfl, hreaches, hfollow, ?_⟩
          rw [List.append_cons taken]
          exact hleft
      | error error =>
          refine ⟨[], n :: names, place, e, rfl, by simpa using h, ?_, ?_⟩
          · simp only [follow_false_names]
            simp
          · intro m rest hm place' e' hreaches
            obtain ⟨rfl, rfl⟩ := List.cons.inj hm
            rw [List.append_nil] at hreaches
            obtain ⟨dir, hdir, hstep⟩ := Disk.reaches_concat_iff.1 hreaches
            obtain ⟨rfl, rfl⟩ := h.unique hdir
            -- otherwise the system would have found it
            have hreal := hreach _ (by simp) place' e' (Disk.reaches_concat_iff.2 ⟨place, h.self, hstep⟩)
            rw [hr] at hreal
            cases hreal

/-! ### Paths -/

/-- The steps of a path from the top, those of the current directory before those of a relative path. -/
def stepsFromTop (s : Site) (p : Path) : List Step :=
  (if p.isAbsolute then [] else s.cwd.map .name) ++ p.steps

/-- The components of a path that is seen from the current directory. -/
theorem components_absolute (s : Site) (p : Path) :
    (s.absolute p).components = .top :: (s.stepsFromTop p).filterMap Step.component? := by
  rw [Path.components, if_pos (s.isAbsolute_absolute p), stepsFromTop, absolute,
    List.filterMap_append, Path.filterMap_steps]
  cases hp : p.isAbsolute with
  | true => rfl
  | false =>
      have hempty : Path.ofPiece? "" = none := by decide
      rw [if_neg (by simp), if_neg (by simp), ← Path.filterMap_names _ hempty, Path.names_join _ hp,
        Path.names_toPath, List.filterMap_append, Path.filterMap_names _ hempty,
        Path.filterMap_ofPiece?, filterMap_component?_map_name]

section

variable {p : Path} (hcwd : s.find (RealPath.toPath s.cwd) = .ok (s.cwd, .directory))

include hcwd

/-- A canonical current directory leads to itself. -/
theorem reaches_cwd : s.disk.Reaches [] (s.cwd.map .name) s.cwd .directory := by
  have hleads := (locate_eq_ok_iff.1 (find_eq_ok_iff.1 hcwd)).2
  rw [if_pos (RealPath.isAbsolute_toPath s.cwd)] at hleads
  have hreaches : s.disk.Reaches [] (RealPath.toPath s.cwd).steps s.cwd .directory := ⟨_, hleads⟩
  exact hreaches.self

theorem grounded_of_find : s.Grounded :=
  (reaches_cwd hcwd).real.through_directory

/-- What a path leads to is what its steps from the top lead to. -/
theorem reaches_stepsFromTop {real : RealPath} (h : s.realPath p = .ok real) :
    ∃ e, s.disk.Reaches [] (s.stepsFromTop p) real e := by
  obtain ⟨e, he⟩ := realPath_eq_ok_iff.1 h
  have hleads := (locate_eq_ok_iff.1 (find_eq_ok_iff.1 he)).2
  refine ⟨e, ?_⟩
  rw [stepsFromTop]
  cases hp : p.isAbsolute with
  | true =>
      rw [hp, if_pos rfl] at hleads
      exact ⟨_, hleads⟩
  | false =>
      rw [hp, if_neg (by simp)] at hleads
      obtain ⟨links, hcwd⟩ := reaches_cwd hcwd
      exact ⟨_, hcwd.append hleads⟩

variable (hreach : ∀ q ∈ s.lookups [] (s.absolute p).components, s.InReach q)

include hreach

/-- What a path leads to is found by following its components one by one. -/
theorem follow_absolute_eq {real : RealPath} (h : s.realPath p = .ok real) :
    s.follow true [] (s.absolute p).components = real := by
  obtain ⟨e, hreaches⟩ := reaches_stepsFromTop hcwd h
  rw [components_absolute, lookups] at hreach
  rw [components_absolute, follow]
  exact follow_eq_of_reaches ⟨0, .stop⟩ hreaches hreach

/-- The canonical place of a path is found by following its components one by one. -/
theorem canonicalize_eq_follow :
    s.canonicalize p = s.follow true [] (s.absolute p).components := by
  rw [canonicalize]
  split
  · next real hr => exact (follow_absolute_eq hcwd hreach hr).symm
  · rfl

end

/-! ### Paths without double dots -/

/-- The components behind the first name that leads nowhere are among all components. -/
theorem mem_of_mem_beyond {c : Component} {place : RealPath} {components : List Component}
    (h : c ∈ s.beyond place components) : c ∈ components := by
  induction components generalizing place with
  | nil => exact h
  | cons first rest ih =>
      refine List.mem_cons_of_mem _ ?_
      cases first with
      | top | here | up => exact ih h
      | name n =>
          rw [beyond] at h
          split at h
          · exact ih h
          · exact h

/-- The components of a path without double dots are names, once it is seen from the current
directory. -/
theorem components_absolute_eq_names {p : Path} (hp : .up ∉ p.components) :
    ∃ names : RealPath, (s.absolute p).components = .top :: names.map .name := by
  have hpieces : .up ∉ p.pieces.filterMap Path.ofPiece? := by
    intro hup
    refine hp ?_
    rw [Path.components]
    split
    · exact List.mem_cons_of_mem _ hup
    split
    · exact List.mem_cons_of_mem _ hup
    · exact hup
  have hup : .up ∉ (s.stepsFromTop p).filterMap Step.component? := by
    rw [stepsFromTop, List.filterMap_append, Path.filterMap_steps, List.mem_append, not_or]
    refine ⟨?_, hpieces⟩
    split
    · simp
    · -- the names of the current directory are no double dots
      rw [filterMap_component?_map_name]
      simp
  obtain ⟨names, hnames⟩ := eq_map_name (fun _ => Step.up_or_name_of_mem) hup
  exact ⟨names, by rw [components_absolute, hnames]⟩

/-- **What the canonical place of a path is**, if the current directory is canonical and no limit of the
system is met when the components are followed. It is spelled out by names, without dots. What the path
leads to at once is found by following its components as well. Separators and dots that are put into the
path do not change it. If the path has no double dots, it is what the longest part of the path that
leads anywhere leads to, with the names behind that part; and it is its own canonical place. -/
theorem canonicalize_eq_longest (s : Site)
    (hcwd : s.find (RealPath.toPath s.cwd) = .ok (s.cwd, .directory)) (p : Path)
    (hreach : ∀ q ∈ s.lookups [] (s.absolute p).components, s.InReach q) :
    ((∀ n ∈ s.canonicalize p, isName n.text = true) ∧
        (RealPath.toPath (s.canonicalize p)).components = .top :: (s.canonicalize p).map .name) ∧
      (∀ real, s.realPath p = .ok real →
        s.canonicalize p = real ∧ s.follow true [] (s.absolute p).components = real) ∧
      (∀ q, p.Respelled q → s.canonicalize q = s.canonicalize p) ∧
      (.up ∉ p.components →
        (∃ taken left real e, (s.absolute p).components = .top :: (taken ++ left).map .name ∧
            s.disk.Reaches [] (taken.map .name) real e ∧
            (∀ more, more <+: left → more ≠ [] →
              ∀ place e, ¬s.disk.Reaches [] ((taken ++ more).map .name) place e) ∧
            s.canonicalize p = real ++ left) ∧
          s.canonicalize (RealPath.toPath (s.canonicalize p)) = s.canonicalize p) := by
  have hgrounded := grounded_of_find hcwd
  refine ⟨⟨fun n _ => n.isName_text, RealPath.components_toPath _⟩, ?_, ?_, ?_⟩
  · intro real hreal
    have hfollow := follow_absolute_eq hcwd hreach hreal
    exact ⟨(canonicalize_eq_follow hcwd hreach).trans hfollow, hfollow⟩
  · intro q hq
    obtain ⟨habsolute, hpieces⟩ := hq.same_pieces
    have hsame : (s.absolute q).components = (s.absolute p).components := by
      simp only [components_absolute, stepsFromTop, List.filterMap_append, Path.filterMap_steps,
        habsolute, hpieces]
    rw [canonicalize_eq_follow hcwd (hsame ▸ hreach), hsame, canonicalize_eq_follow hcwd hreach]
  · intro hup
    obtain ⟨names, hcomponents⟩ := components_absolute_eq_names (s := s) hup
    constructor
    · have htop : s.disk.Reaches [] (([] : RealPath).map .name) [] .directory := ⟨0, .stop⟩
      rw [canonicalize_eq_follow hcwd hreach]
      rw [hcomponents, lookups] at hreach
      obtain ⟨taken, left, real, e, rfl, hreaches, hfollow, hleft⟩ := follow_names_eq htop hreach
      refine ⟨taken, left, real, e, hcomponents, hreaches, ?_, by rw [hcomponents, follow, hfollow]⟩
      intro more hmore hne place e' hlonger
      obtain ⟨n, rest, rfl⟩ := List.exists_cons_of_ne_nil hne
      obtain ⟨behind, rfl⟩ := hmore
      -- a longer part would go through the first name that leads nowhere
      rw [List.append_cons, List.map_append] at hlonger
      obtain ⟨place', e'', hfirst⟩ := hlonger.exists_first
      exact hleft n (rest ++ behind) rfl place' e'' hfirst
    · refine canonicalize_toPath_eq_iff.2 (settled_canonicalize hgrounded (.inr ?_))
      intro hbeyond
      have hmem := mem_of_mem_beyond hbeyond
      rw [hcomponents] at hmem
      simp at hmem

/-- A directory, a link to it, and a link that leads to it through the first one. -/
def twiceLinkedSite : Site where
  disk := { entries := [(.of ["real"], .directory), (.of ["link"], .link ⟨"real"⟩),
    (.of ["again"], .link ⟨"/link/../link"⟩)] }
  cwd := .of ["real"]

theorem canonicalize_eq_longest_twiceLinkedSite :
    twiceLinkedSite.find (RealPath.toPath (.of ["real"])) = .ok (.of ["real"], .directory) ∧
      twiceLinkedSite.lookups [] (twiceLinkedSite.absolute ⟨"/again/missing/inner"⟩).components =
        [.of ["again"], .of ["real", "missing"]] ∧
      twiceLinkedSite.canonicalize ⟨"/again/missing/inner"⟩ = .of ["real", "missing", "inner"] ∧
      twiceLinkedSite.canonicalize ⟨"/again/missing/inner" ++ "/"⟩ =
        twiceLinkedSite.canonicalize ⟨"/again/missing/inner"⟩ := by
  have hcwd : twiceLinkedSite.find (RealPath.toPath (.of ["real"])) = .ok (.of ["real"], .directory) := by
    decide +kernel
  have hlookups :
      twiceLinkedSite.lookups [] (twiceLinkedSite.absolute ⟨"/again/missing/inner"⟩).components =
        [.of ["again"], .of ["real", "missing"]] := by
    decide +kernel
  have hreach : ∀ q ∈ twiceLinkedSite.lookups []
      (twiceLinkedSite.absolute ⟨"/again/missing/inner"⟩).components, twiceLinkedSite.InReach q := by
    rw [hlookups]
    refine List.forall_mem_cons.2 ⟨?_, List.forall_mem_singleton.2 ?_⟩
    · exact inReach_of_ne ⟨by decide, by decide⟩ (by decide +kernel)
    · exact inReach_of_ne ⟨by decide, by decide⟩ (by decide +kernel)
  obtain ⟨-, -, hspelled, -⟩ := canonicalize_eq_longest twiceLinkedSite hcwd _ hreach
  exact ⟨hcwd, hlookups, by decide +kernel, hspelled _ (.lastSeparator .same (by decide))⟩

end Site

end ImportAtlas
