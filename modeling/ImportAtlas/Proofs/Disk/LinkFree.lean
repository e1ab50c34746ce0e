import ImportAtlas.Proofs.Disk.Questions
import ImportAtlas.Proofs.Path.Names
import ImportAtlas.Proofs.Workspace.Session

/-!
# Disks without links

Where there are no links, paths mean what they say. A place leads to itself, if it leads anywhere, and
the canonical place of an absolute path is told from its text alone. So what is found on two such disks
differs only where an entry does.

Main definitions:

* `ImportAtlas.Disk.LinkFree` — no entry is a link;
* `ImportAtlas.Disk.SameAt` — the same entry stands at a place of two disks, or none;
* `ImportAtlas.Path.spelled` — the place that the text of a path tells.

Main results:

* `ImportAtlas.Disk.LinkFree.leadsTo?_eq_some_iff` — places lead to themselves;
* `ImportAtlas.Disk.LinkFree.canonicalize` — **canonical places are told from texts alone**;
* `ImportAtlas.Disk.LinkFree.walk_eq` — the walk lists the same if nothing differs below the root.
-/

set_option autoImplicit false

namespace ImportAtlas

/-- Whether an entry is a link. -/
def Entry.isLink : Entry → Bool
  | .link _ => true
  | _ => false

namespace Disk

/-! ### Entries -/

/-- No entry is a link. -/
def LinkFree (d : Disk) : Prop := ∀ e ∈ d.entries, e.2.isLink = false

instance (d : Disk) : Decidable d.LinkFree := inferInstanceAs (Decidable (∀ e ∈ d.entries, _))

/-- The same entry stands at a place of two disks, or none. Only what is reached through directories
counts. -/
def SameAt (d d' : Disk) (p : RealPath) : Prop := ∀ e, d.Real p e ↔ d'.Real p e

variable {d : Disk}

theorem LinkFree.entry?_ne_link (hd : d.LinkFree) (p : RealPath) (target : Path) :
    d.entry? p ≠ some (.link target) := by
  intro h
  by_cases hp : p = []
  · rw [hp, entry?_nil] at h
    cases h
  · have hlink := hd _ ((entry?_eq_some_iff hp).1 h)
    cases hlink

theorem Real.through_directory {p : RealPath} (h : d.Real p .directory) : d.Through p := by
  rcases List.eq_nil_or_concat' p with rfl | ⟨front, n, rfl⟩
  · exact d.through_nil
  · have hfront : d.Through front := by simpa using h.through
    exact hfront.concat h.entry

theorem SameAt.symm {d' : Disk} {p : RealPath} (h : d.SameAt d' p) : d'.SameAt d p :=
  fun e => (h e).symm

/-- A place that is a directory on both disks is the same on both. -/
theorem Through.sameAt {d' : Disk} {p : RealPath} (h : d.Through p) (h' : d'.Through p) :
    d.SameAt d' p := by
  intro e
  constructor
  · intro hreal
    rw [Option.some.inj (hreal.entry.symm.trans h.real.entry)]
    exact h'.real
  · intro hreal
    rw [Option.some.inj (hreal.entry.symm.trans h'.real.entry)]
    exact h.real

theorem SameEntry.sameAt {d' : Disk} {p : RealPath} (h : d.SameEntry d' p) : d.SameAt d' p := by
  have hreal : ∀ d : Disk, ∀ e, d.Real p e ↔ d.Stands p e ∧ ∀ target, e ≠ .link target := fun d e =>
    ⟨fun hr => ⟨⟨hr.through, hr.entry⟩, hr.not_link⟩, fun hs => ⟨hs.1.through, hs.1.entry, hs.2⟩⟩
  intro e
  rw [hreal, hreal, h e]

/-! ### Following names -/

/-- A place leads to itself, if it leads anywhere. -/
theorem LinkFree.leadsTo?_eq_some_iff (hd : d.LinkFree) {p place : RealPath} {e : Entry} :
    d.leadsTo? (p.map .name) = some (place, e) ↔ place = p ∧ (∀ n ∈ p, n.Short) ∧ d.Real p e := by
  constructor
  · intro h
    have hreal := real_of_leadsTo? h
    have hdescend := Disk.leadsTo?_eq_some_iff.1 h
    rw [linkLimit, resolve] at hdescend
    obtain rfl : place = [] ++ p := place_of_descend (fun q _ => hd.entry?_ne_link _) hdescend
    rw [hreal.leadsTo?_eq] at h
    split at h
    · next hsize => exact ⟨rfl, hsize, hreal⟩
    · cases h
  · rintro ⟨rfl, hsize, hreal⟩
    rw [hreal.leadsTo?_eq, if_pos hsize]

/-- A place at which the same entry stands leads to the same on both disks. -/
theorem SameAt.leadsTo?_eq {d' : Disk} {p : RealPath} (h : d.SameAt d' p) (hd : d.LinkFree)
    (hd' : d'.LinkFree) : d.leadsTo? (p.map .name) = d'.leadsTo? (p.map .name) := by
  ext ⟨place, e⟩
  rw [hd.leadsTo?_eq_some_iff, hd'.leadsTo?_eq_some_iff, h e]

/-- There is a way down from a directory to each real place below it, and to no other. -/
theorem LinkFree.below_iff (hd : d.LinkFree) {dir way : RealPath} (ht : d.Through dir) :
    d.Below dir way ↔ way ≠ [] ∧ ∃ e, d.Real (dir ++ way) e := by
  constructor
  · intro h
    obtain ⟨e, he⟩ := h.entry
    refine ⟨h.ne_nil, e, ?_, he, ?_⟩
    · rw [List.dropLast_append_of_ne_nil h.ne_nil]
      intro q hq
      rcases List.prefix_or_prefix_of_prefix hq (List.prefix_append dir _) with hqdir | ⟨q, rfl⟩
      · exact ht q hqdir
      · by_cases hnil : q = []
        · rw [hnil, List.append_nil]
          exact ht dir List.prefix_rfl
        · have hlast : q <+: way.dropLast := (List.prefix_append_right_inj dir).1 hq
          refine h.through q (hlast.trans (List.dropLast_prefix way)) hnil ?_
          rintro rfl
          have hlength := hlast.length_le
          have hpos := List.length_pos_iff.2 hnil
          rw [List.length_dropLast] at hlength
          omega
    · rintro target rfl
      exact hd.entry?_ne_link _ target he
  · rintro ⟨hne, e, hreal⟩
    refine ⟨hne, ?_, e, hreal.entry⟩
    rintro q ⟨rest, rfl⟩ - hway
    have hrest : rest ≠ [] := by
      rintro rfl
      simp at hway
    rw [← List.append_assoc] at hreal
    exact hreal.entry?_of_append hrest

end Disk

/-! ### What the text of a path tells -/

/-- The place that a component leads to from a place, if there are no links. -/
def RealPath.step (p : RealPath) : Component → RealPath
  | .top => []
  | .here => p
  | .up => p.dropLast
  | .name n => p ++ [n]

/-- The place that an absolute path leads to, if there are no links. -/
def Path.spelled (p : Path) : RealPath := p.components.foldl RealPath.step []

/-- The component of a step; a dot is none. -/
def Step.component? : Step → Option Component
  | .stay => none
  | .up => some .up
  | .name n => some (.name n)

theorem filterMap_component?_map_name (p : RealPath) :
    (p.map Step.name).filterMap Step.component? = p.map .name := by
  induction p with
  | nil => rfl
  | cons n rest ih => simp [Step.component?, ih]

/-- The steps of a path are the components of its pieces, and dots. -/
theorem Path.filterMap_steps (p : Path) :
    p.steps.filterMap Step.component? = p.pieces.filterMap ofPiece? := by
  have hpiece : ∀ piece, (Step.ofPiece? piece).bind Step.component? = ofPiece? piece := by
    intro piece
    rw [Step.ofPiece?, ofPiece?]
    split
    · rfl
    split
    · rfl
    · split <;> rfl
  have hend : (if p.text.toList.getLast? = some '/' then [Step.stay] else []).filterMap
      Step.component? = [] := by
    split <;> rfl
  rw [steps, List.filterMap_append, List.filterMap_filterMap, hend, List.append_nil]
  exact congrArg (p.pieces.filterMap ·) (funext hpiece)

namespace Disk.LinkFree

variable {d : Disk} {s : Site}

/-- Steps lead to the place that they spell out. -/
theorem place_of_descend (hd : d.LinkFree)
    {jump : RealPath → List Step → Except OsError (RealPath × Option Entry)} {dir place : RealPath}
    {steps : List Step} {e : Option Entry} (h : d.descend true jump dir steps = .ok (place, e)) :
    place = (steps.filterMap Step.component?).foldl RealPath.step dir := by
  induction steps generalizing dir with
  | nil =>
      rw [descend] at h
      cases h
      rfl
  | cons step rest ih =>
      cases step with
      | stay | up => exact ih h
      | name n =>
          obtain ⟨-, ⟨-, h⟩ | ⟨target, he, -⟩ | ⟨-, rfl, hplace, -⟩⟩ := descend_name_eq_ok_iff.1 h
          · exact ih h
          · exact absurd he (hd.entry?_ne_link _ target)
          · exact hplace

theorem follow (hd : s.disk.LinkFree) (onDisk : Bool) (p : RealPath) (components : List Component) :
    s.follow onDisk p components = components.foldl RealPath.step p := by
  induction components generalizing p onDisk with
  | nil => rw [Site.follow, List.foldl_nil]
  | cons c rest ih =>
      rw [List.foldl_cons]
      cases c with
      | top | here | up =>
          rw [Site.follow]
          exact ih onDisk _
      | name m =>
          cases onDisk with
          | false =>
              rw [Site.follow]
              exact ih false _
          | true =>
              rw [Site.follow]
              split
              · next real hr =>
                  obtain rfl : real = p ++ [m] :=
                    Site.realPath_toPath_eq (fun q _ target => hd.entry?_ne_link q target) hr
                  exact ih true _
              · exact ih false _

/-- **Canonical places are told from texts alone.** -/
theorem canonicalize (hd : s.disk.LinkFree) {p : Path} (hp : p.isAbsolute = true) :
    s.canonicalize p = p.spelled := by
  rw [Site.canonicalize]
  split
  · next real hr =>
      obtain ⟨e, he⟩ := Site.realPath_eq_ok_iff.1 hr
      have hresolve := Disk.leadsTo?_eq_some_iff.1 ((Site.find_eq_ok_iff_leadsTo? hp).1 he).2
      rw [linkLimit, resolve] at hresolve
      rw [hd.place_of_descend hresolve, p.filterMap_steps, Path.spelled,
        Path.components, if_pos hp]
      rfl
  · rw [Site.absolute, if_pos hp]
    exact hd.follow true [] p.components

/-! ### Two disks without links -/

variable {s' : Site}

theorem canonicalize_eq (hd : s.disk.LinkFree) (hd' : s'.disk.LinkFree) {p : Path}
    (hp : p.isAbsolute = true) : s.canonicalize p = s'.canonicalize p := by
  rw [hd.canonicalize hp, hd'.canonicalize hp]

theorem ref_eq (hd : s.disk.LinkFree) (hd' : s'.disk.LinkFree) {p root : Path}
    (hp : p.isAbsolute = true) (hroot : root.isAbsolute = true) : s.ref p root = s'.ref p root := by
  rw [Site.ref, Site.ref, if_pos hp, if_pos hp, hd.canonicalize_eq hd' hp,
    hd.canonicalize_eq hd' hroot]

/-- The root is the same place on both. -/
theorem rootDir_eq (hd : s.disk.LinkFree) (hd' : s'.disk.LinkFree) (w : Workspace) :
    w.rootDir s = w.rootDir s' := by
  rw [Workspace.rootDir, Workspace.rootDir]
  cases w.config.rootDir with
  | none => rfl
  | some root => exact hd.canonicalize_eq hd' (Site.isAbsolute_toPath_join _ _)

/-- A root that leads to a directory is a directory itself. -/
theorem through_of_find (hd : s.disk.LinkFree) {root dir : RealPath}
    (h : s.find (RealPath.toPath root) = .ok (dir, .directory)) :
    dir = root ∧ s.disk.Through root := by
  obtain ⟨-, hleads⟩ := (Site.find_eq_ok_iff_leadsTo? (RealPath.isAbsolute_toPath root)).1 h
  rw [Disk.leadsTo?_steps_toPath, hd.leadsTo?_eq_some_iff] at hleads
  exact ⟨hleads.1, hleads.2.2.through_directory⟩

/-- What is found below a root on one disk is found on the other, if nothing differs there. -/
theorem below_of_sameAt (hd : s.disk.LinkFree) (hd' : s'.disk.LinkFree) {root e : RealPath}
    (h : ∀ p, root <+: p → s.disk.SameAt s'.disk p) (hbelow : s.Below root e) :
    s'.Below root e := by
  obtain ⟨dir, way, hdir, hway, hread, rfl⟩ := hbelow
  obtain ⟨rfl, ht⟩ := hd.through_of_find hdir
  have hsame := h dir List.prefix_rfl
  have ht' : s'.disk.Through dir := ((hsame _).1 ht.real).through_directory
  obtain ⟨hne, e, hreal⟩ := (hd.below_iff ht).1 hway
  refine ⟨dir, way, ?_, (hd'.below_iff ht').2 ⟨hne, e, ?_⟩, fun q hq hqne hqway => ?_, rfl⟩
  · exact (Site.alike_toPath (hsame.leadsTo?_eq hd hd') _).1 hdir
  · exact (h _ (List.prefix_append dir way) e).1 hreal
  · have halike := Site.alike_toPath ((h _ (List.prefix_append dir q)).leadsTo?_eq hd hd')
    obtain ⟨place, hfind⟩ := Site.isDirectory_iff.1 (hread q hq hqne hqway)
    exact Site.isDirectory_iff.2 ⟨place, (halike _).1 hfind⟩

/-- The walk lists the same if nothing differs at the root and below it. -/
theorem walk_eq (hd : s.disk.LinkFree) (hd' : s'.disk.LinkFree) {root : RealPath}
    (h : ∀ p, root <+: p → s.disk.SameAt s'.disk p) (exclude : List String) :
    (s.walk exclude root).value = (s'.walk exclude root).value := by
  refine (s.inOrder_walk exclude root).ext (s'.inOrder_walk exclude root) fun r => ?_
  have hbelow : ∀ e, s.Below root e ↔ s'.Below root e := fun e =>
    ⟨hd.below_of_sameAt hd' h, hd'.below_of_sameAt hd fun p hp => (h p hp).symm⟩
  have href : ∀ e, s.ref (RealPath.toPath e) (RealPath.toPath root) =
      s'.ref (RealPath.toPath e) (RealPath.toPath root) := fun e =>
    hd.ref_eq hd' (RealPath.isAbsolute_toPath e) (RealPath.isAbsolute_toPath root)
  simp only [Site.mem_walk, hbelow, href]

end Disk.LinkFree

end ImportAtlas
