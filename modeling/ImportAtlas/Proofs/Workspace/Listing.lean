import ImportAtlas.Proofs.Workspace.Session

/-!
# Links in the list of files

The walk decides by the names below the root what it lists, but it lists the canonical places of what
it finds. For an entry that is no link the two agree, as long as the root itself is settled. A link is
listed as the place that it leads to, and that place can be outside the root, hidden or excluded: then
the list has a file that the filter ignores. There are no other such files, so all listed files are
admitted if and only if each admitted link leads to an admitted place.

Main definitions:

* `ImportAtlas.Workspace.Admits` — a place is at or below the root, and no name below the root is
  hidden or excluded.

Main results:

* `ImportAtlas.PathFilter.ignores_toPath_eq_false_iff` — which places the filter does not ignore;
* `ImportAtlas.Site.Below.settled_iff` — below a settled root, only links are not listed as themselves;
* `ImportAtlas.Site.exists_link_of_ignored` — what is listed although the filter ignores it;
* `ImportAtlas.Site.forall_mem_walk_iff` — when the walk lists nothing that the filter ignores;
* `ImportAtlas.Session.Reloaded.all_admitted_iff` — **all listed files are admitted if and only if
  each admitted link leads to an admitted place**;
* `ImportAtlas.Session.not_admitted_linkingSession` — a session in which they are not.
-/

set_option autoImplicit false

namespace ImportAtlas

/-! ### Places and the filter -/

/-- The filter does not ignore the places at and below the root with no name to be passed over on the
way. -/
theorem PathFilter.ignores_toPath_eq_false_iff {root p : RealPath} {exclude : List String} :
    (⟨RealPath.toPath root, exclude⟩ : PathFilter).ignores (RealPath.toPath p) = false ↔
      root <+: p ∧ ∀ n ∈ p.drop root.length, isSkipped exclude n.text = false := by
  by_cases hstart : root <+: p
  · obtain ⟨way, rfl⟩ := hstart
    rw [ignores_toPath_append, List.drop_left]
    simp
  · have hcomponents : ¬(RealPath.toPath root).components <+: (RealPath.toPath p).components := by
      rw [RealPath.components_toPath, RealPath.components_toPath, List.prefix_cons_inj,
        List.prefix_map_iff_of_injective fun _ _ => Component.name.inj]
      exact hstart
    rw [ignores, Path.below?, if_neg fun h => hcomponents (List.isPrefixOf_iff_prefix.1 h)]
    simp [hstart]

namespace Site

variable {s : Site} {root e : RealPath}

/-! ### Entries below a root -/

/-- Below a settled root, only links that lead somewhere are not settled. -/
theorem Below.settled_iff (h : s.Below root e) (hsettled : s.Settled root) :
    s.Settled e ↔ ∀ target, s.disk.entry? e = some (.link target) →
      s.exists? (RealPath.toPath e) = false := by
  obtain ⟨dir, way, hdir, hbelow, -, rfl⟩ := h
  obtain rfl : dir = root := hsettled.realPath_eq (realPath_eq_ok_iff.2 ⟨_, hdir⟩)
  constructor
  · intro he target hlink
    exact he _ target List.prefix_rfl hlink
  · -- places above the last one are on the way to the root, or directories below it
    intro hlast q target hq hlink
    rcases List.prefix_or_prefix_of_prefix hq (List.prefix_append dir way) with hqdir | ⟨rest, rfl⟩
    · exact hsettled q target hqdir hlink
    · by_cases hrest : rest = way
      · rw [hrest] at hlink ⊢
        exact hlast target hlink
      · by_cases hnil : rest = []
        · rw [hnil, List.append_nil] at hlink ⊢
          exact hsettled dir target List.prefix_rfl hlink
        · have hthrough := hbelow.through rest ((List.prefix_append_right_inj dir).1 hq) hnil hrest
          rw [hthrough] at hlink
          cases hlink

/-- What is found below a settled root is listed as itself, or it is a link and listed as the place
that it leads to. -/
theorem Below.canonicalize_cases (h : s.Below root e) (hsettled : s.Settled root) :
    s.canonicalize (RealPath.toPath e) = e ∨
      ∃ target, s.disk.entry? e = some (.link target) ∧
        s.realPath (RealPath.toPath e) = .ok (s.canonicalize (RealPath.toPath e)) := by
  by_cases he : s.Settled e
  · exact Or.inl (canonicalize_toPath_eq_iff.2 he)
  · right
    rw [h.settled_iff hsettled] at he
    simp only [not_forall, Bool.not_eq_false] at he
    obtain ⟨target, hlink, hexists⟩ := he
    obtain ⟨place, hplace⟩ := exists?_eq_true_iff.1 hexists
    refine ⟨target, hlink, ?_⟩
    rw [canonicalize, hplace]

/-- Below a settled root, what is listed although the filter ignores it is the place that a link leads
to. -/
theorem exists_link_of_ignored {exclude : List String} {r : FileRef} (hsettled : s.Settled root)
    (hr : r ∈ (s.walk exclude root).value)
    (hignored : (⟨RealPath.toPath root, exclude⟩ : PathFilter).ignores (RealPath.toPath r.abs) = true) :
    ∃ e target, s.Below root e ∧
      (⟨RealPath.toPath root, exclude⟩ : PathFilter).ignores (RealPath.toPath e) = false ∧
      s.disk.entry? e = some (.link target) ∧ s.realPath (RealPath.toPath e) = .ok r.abs := by
  obtain ⟨e, hbelow, he, rfl⟩ := mem_walk.1 hr
  rw [abs_ref_toPath] at hignored ⊢
  rcases hbelow.canonicalize_cases hsettled with hself | ⟨target, hlink, hplace⟩
  · rw [hself, he] at hignored
    cases hignored
  · exact ⟨e, target, hbelow, he, hlink, hplace⟩

/-- The walk lists nothing that the filter ignores if and only if it lists nothing at all or the root is
settled, and each link that it finds leads to a place that the filter does not ignore. -/
theorem forall_mem_walk_iff {exclude : List String} :
    (∀ r ∈ (s.walk exclude root).value,
        (⟨RealPath.toPath root, exclude⟩ : PathFilter).ignores (RealPath.toPath r.abs) = false) ↔
      ((s.walk exclude root).value ≠ [] → s.Settled root) ∧
      ∀ e target place, s.Below root e →
        (⟨RealPath.toPath root, exclude⟩ : PathFilter).ignores (RealPath.toPath e) = false →
        s.disk.entry? e = some (.link target) → s.realPath (RealPath.toPath e) = .ok place →
        (⟨RealPath.toPath root, exclude⟩ : PathFilter).ignores (RealPath.toPath place) = false := by
  constructor
  · intro hall
    constructor
    · -- a listed place is settled, and so is the root, which is on the way to it
      intro hne
      obtain ⟨r, hr⟩ := List.exists_mem_of_ne_nil _ hne
      obtain ⟨e, hbelow, -, rfl⟩ := mem_walk.1 hr
      have hadmitted := hall _ hr
      rw [abs_ref_toPath, PathFilter.ignores_toPath_eq_false_iff] at hadmitted
      exact Settled.of_prefix (settled_canonicalize_toPath e) hadmitted.1
    · intro e target place hbelow he hlink hplace
      have hadmitted := hall _ (mem_walk.2 ⟨e, hbelow, he, rfl⟩)
      rwa [abs_ref_toPath, canonicalize, hplace] at hadmitted
  · rintro ⟨hsettled, hlinks⟩ r hr
    by_contra hignored
    obtain ⟨e, target, hbelow, he, hlink, hplace⟩ := exists_link_of_ignored
      (hsettled (List.ne_nil_of_mem hr)) hr (by simpa using hignored)
    exact hignored (hlinks e target _ hbelow he hlink hplace)

end Site

/-! ### The list of a session -/

/-- A place is at or below the root, and no name below the root is hidden or excluded. -/
def Workspace.Admits (s : Site) (w : Workspace) (p : RealPath) : Prop :=
  (⟨p, w.rootDir s⟩ : FileRef).inWorkspace = true ∧
    ∀ n ∈ p.drop (w.rootDir s).length, isHidden n.text = false ∧ n.text ∉ w.config.excludeFiles

instance (s : Site) (w : Workspace) (p : RealPath) : Decidable (w.Admits s p) :=
  inferInstanceAs (Decidable (_ ∧ _))

theorem Workspace.admits_iff_not_ignored {s : Site} {w : Workspace} {p : RealPath} :
    w.Admits s p ↔ (w.filter s).ignores (RealPath.toPath p) = false := by
  rw [filter, rootPath, PathFilter.ignores_toPath_eq_false_iff, Admits, FileRef.inWorkspace,
    List.isPrefixOf_iff_prefix]
  simp [isSkipped]

namespace Session

/-- **All listed files are admitted if and only if each admitted link leads to an admitted place.**
Whenever the files were just listed, a listed file is admitted if and only if the filter does not
ignore it. If the root is settled, each listed file that is not admitted is the place that an admitted
link leads to. So all of them are admitted if and only if the root is settled, unless there are none,
and no admitted link below the root leads to a place that is not admitted. -/
theorem Reloaded.all_admitted_iff {x : Session} (h : x.Reloaded) :
    (∀ r ∈ x.workspace.files, x.workspace.Admits x.site r.abs ↔
        (x.workspace.filter x.site).ignores (RealPath.toPath r.abs) = false) ∧
      (x.site.Settled (x.workspace.rootDir x.site) →
        ∀ r ∈ x.workspace.files, ¬x.workspace.Admits x.site r.abs →
          ∃ e target, x.site.Below (x.workspace.rootDir x.site) e ∧ x.workspace.Admits x.site e ∧
            x.site.disk.entry? e = some (.link target) ∧
            x.site.realPath (RealPath.toPath e) = .ok r.abs) ∧
      ((∀ r ∈ x.workspace.files, x.workspace.Admits x.site r.abs) ↔
        (x.workspace.files ≠ [] → x.site.Settled (x.workspace.rootDir x.site)) ∧
        ∀ e target place, x.site.Below (x.workspace.rootDir x.site) e →
          x.workspace.Admits x.site e → x.site.disk.entry? e = some (.link target) →
          x.site.realPath (RealPath.toPath e) = .ok place → x.workspace.Admits x.site place) := by
  refine ⟨fun r _ => Workspace.admits_iff_not_ignored, ?_, ?_⟩
  · intro hsettled r hr hnot
    rw [Workspace.admits_iff_not_ignored, Bool.not_eq_false] at hnot
    rw [h.files_eq] at hr
    obtain ⟨e, target, hbelow, he, hlink⟩ := Site.exists_link_of_ignored hsettled hr hnot
    exact ⟨e, target, hbelow, Workspace.admits_iff_not_ignored.2 he, hlink⟩
  · simp only [Workspace.admits_iff_not_ignored]
    rw [h.files_eq]
    exact Site.forall_mem_walk_iff

/-! ### Links to what is not admitted -/

/-- A root with a link to a hidden file, one to a file outside, and one to a file that can be
excluded. -/
def linkingSite : Site where
  disk := { entries :=
    [(.of ["p"], .directory), (.of ["p", "w"], .directory), (.of ["out.txt"], .file []),
      (.of ["p", ".env"], .file []), (.of ["p", "skip.txt"], .file []), (.of ["p", "l"], .link ⟨".env"⟩),
      (.of ["p", "m"], .link ⟨"/out.txt"⟩), (.of ["p", "n"], .link ⟨"skip.txt"⟩)] }
  cwd := []

/-- The workspace as it is opened. -/
def linkingWorkspace : Workspace :=
  ((⟨.of ["p", "w"], {}, true, [], []⟩ : Workspace).reload linkingSite).value.1

/-- The session after one of the files was excluded. -/
def linkingSession : Session :=
  (⟨linkingSite, linkingWorkspace⟩ : Session).run [.configure (.excludeFiles ["skip.txt"]), .reload]

theorem reloaded_linkingSession : linkingSession.Reloaded := by
  refine ⟨⟨linkingSite, linkingWorkspace⟩, _, ⟨⟨"/p/w"⟩, true, ?_⟩, ?_, rfl⟩
  · decide +kernel
  · simp

/-- A hidden file, an excluded one and one outside the root are listed, since links lead there. -/
theorem not_admitted_linkingSession :
    linkingSession.Reloaded ∧
      linkingSession.workspace.files.map FileRef.abs =
        [.of ["out.txt"], .of ["p", ".env"], .of ["p", "skip.txt"], .of ["p", "w"],
          .of ["p", "w", "config"]] ∧
      ∀ p ∈ [RealPath.of ["out.txt"], .of ["p", ".env"], .of ["p", "skip.txt"]],
        ¬linkingSession.workspace.Admits linkingSession.site p ∧
          (linkingSession.workspace.filter linkingSession.site).ignores (RealPath.toPath p) = true :=
  ⟨reloaded_linkingSession, by decide +kernel, by decide +kernel⟩

/-- In that session some admitted link leads to a place that is not admitted, or the root is not
settled. -/
theorem Reloaded.all_admitted_iff_linkingSession :
    linkingSession.Reloaded ∧
      ¬((linkingSession.workspace.files ≠ [] →
          linkingSession.site.Settled (linkingSession.workspace.rootDir linkingSession.site)) ∧
        ∀ e target place,
          linkingSession.site.Below (linkingSession.workspace.rootDir linkingSession.site) e →
          linkingSession.workspace.Admits linkingSession.site e →
          linkingSession.site.disk.entry? e = some (.link target) →
          linkingSession.site.realPath (RealPath.toPath e) = .ok place →
          linkingSession.workspace.Admits linkingSession.site place) := by
  refine ⟨reloaded_linkingSession, fun hlinks => ?_⟩
  have hall := (Reloaded.all_admitted_iff reloaded_linkingSession).2.2.2 hlinks
  revert hall
  decide +kernel

end Session

end ImportAtlas
