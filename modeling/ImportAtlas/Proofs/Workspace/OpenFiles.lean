import ImportAtlas.Proofs.Disk.Contents
import ImportAtlas.Proofs.Path.Retraced
import ImportAtlas.Proofs.Workspace.Settings

/-!
# Open files that are stored

The files that are open in the editor are stored by their ways from the root, and read back as paths that
are seen from the root. What comes back are references to the same places in the same order, if these and
the root are canonical places when they are read. It does not matter where they lie, whether anything is
there, and for which root the references were made.

Storing them writes the file of the configuration. A canonical place stays one, unless that file was not
there before and a link on the way to the place leads to it. Such a link is a canonical place before the
call, and comes back as the file of the configuration after it.

Main definitions:

* `ImportAtlas.Site.Avoids` — no link on the way to a place leads to where a path leads;
* `ImportAtlas.Session.Event.setsOpenFiles` — an event stores other open files.

Main results:

* `ImportAtlas.Site.ref_rel` — a reference is got back from the way that it shows;
* `ImportAtlas.Site.Settled.of_write` — writing a file leaves places settled;
* `ImportAtlas.Workspace.openFiles_eq` — what is read back;
* `ImportAtlas.Session.settled_configure_iff` — when a place stays settled;
* `ImportAtlas.Session.open_files_survive` — **open files come back as they were stored**;
* `ImportAtlas.Session.open_link_strays` — a link that does not.
-/

set_option autoImplicit false

namespace ImportAtlas

/-! ### Writing a file -/

/-- What leads elsewhere than to a file that was written led there before. -/
theorem Disk.Leads.of_write {d d' : Disk} {file : RealPath} {bytes : List UInt8}
    (hfile : d'.entry? file = some (.file bytes)) (hsame : ∀ q, q ≠ file → d'.entry? q = d.entry? q)
    {links : Nat} {dir place : RealPath} {steps : List Step} {e : Option Entry}
    (h : d'.Leads links dir steps place e) (hne : place ≠ file) : d.Leads links dir steps place e := by
  -- on the way there are directories and links only, and a file is neither
  have hkept : ∀ {q found}, d'.entry? q = some found → found ≠ .file bytes → d.entry? q = some found := by
    intro q found hq hfound
    rw [← hsame q, hq]
    rintro rfl
    exact hfound (Option.some.inj (hq.symm.trans hfile))
  induction h with
  | stop => exact .stop
  | stay _ ih => exact .stay (ih hne)
  | up _ ih => exact .up (ih hne)
  | enter hn hentry _ ih => exact .enter hn (hkept hentry (by simp)) (ih hne)
  | follow hn hentry _ ih => exact .follow hn (hkept hentry (by simp)) (ih hne)
  | last hn hentry =>
      rw [TakesFile, hsame _ hne] at hentry
      rw [hsame _ hne]
      exact .last hn hentry

namespace Site

variable {s : Site}

/-- No link on the way to a place leads to where a path leads. -/
def Avoids (s : Site) (file : Path) (p : RealPath) : Prop :=
  ∀ q target place, q <+: p → s.disk.entry? q = some (.link target) → s.realPath file = .ok place →
    s.realPath (RealPath.toPath q) ≠ .ok place

/-- A settled place stays settled when a file is put where no link on the way to it leads. -/
theorem Settled.of_set {written p : RealPath} {bytes : List UInt8} (hnil : written ≠ [])
    (hp : s.Settled p)
    (havoids : ∀ q target, q <+: p → Disk.entry? (s.disk.set written (.file bytes)) q = some (.link target) →
      realPath { s with disk := s.disk.set written (.file bytes) } (RealPath.toPath q) ≠ .ok written) :
    Settled { s with disk := s.disk.set written (.file bytes) } p := by
  have hset := Disk.entry?_set_self (d := s.disk) hnil (.file bytes)
  have hother : ∀ q, q ≠ written → Disk.entry? (s.disk.set written (.file bytes)) q = s.disk.entry? q :=
    fun q hq => s.disk.entry?_set_of_ne _ hq
  intro q target hq hlink
  rw [← Bool.not_eq_true]
  intro hexists
  obtain ⟨place, hplace⟩ := exists?_eq_true_iff.1 hexists
  obtain ⟨hspell, found, hfound⟩ := realPath_toPath_iff.1 hplace
  have hne : place ≠ written := by
    rintro rfl
    exact havoids q target hq hlink hplace
  -- the link led there before, where it should have led nowhere
  have hbefore := (Disk.resolve_eq_ok_iff.1 hfound).of_write hset hother hne
  have hreal : s.realPath (RealPath.toPath q) = .ok place :=
    realPath_toPath_iff.2 ⟨hspell, found, Disk.resolve_eq_ok_iff.2 hbefore⟩
  have hold : s.disk.entry? q = some (.link target) := by
    rw [← hother q]
    · exact hlink
    · rintro rfl
      cases hset.symm.trans hlink
  have hnowhere := hp q target hq hold
  rw [exists?_eq_true_iff.2 ⟨place, hreal⟩] at hnowhere
  cases hnowhere

/-- A path that leads to a place where nothing stands leads to nothing. -/
theorem exists?_eq_false_of_locate {file : Path} {place : RealPath}
    (h : s.locate true file = .ok (place, none)) : s.exists? file = false := by
  rw [← Bool.not_eq_true, exists?_eq_true_iff]
  rintro ⟨real, hreal⟩
  obtain ⟨e, hfind⟩ := realPath_eq_ok_iff.1 hreal
  cases h.symm.trans (find_eq_ok_iff.1 hfind)

/-- A settled place stays settled when a file is written that was there before, or that no link on the way
to the place leads to. -/
theorem Settled.of_write {file : Path} {bytes : List UInt8} {disk : Disk} {p : RealPath}
    (h : s.writeBytes file bytes = .ok disk) (hp : s.Settled p)
    (havoids : s.exists? file = false → Avoids { s with disk := disk } file p) :
    Settled { s with disk := disk } p := by
  obtain ⟨written, e, hlocate, he, rfl⟩ := writeBytes_eq_ok_iff.1 h
  obtain ⟨htakes, rfl⟩ := (locate_eq_ok_iff.1 hlocate).2.takesFile he
  have hthere : realPath { s with disk := s.disk.set written (.file bytes) } file = .ok written :=
    realPath_eq_ok_iff.2 ⟨_, find_eq_ok_iff.2 (locate_set hlocate he bytes)⟩
  rcases htakes with hnone | ⟨old, hold⟩
  · rw [hnone] at hlocate
    refine hp.of_set (Disk.TakesFile.ne_nil (.inl hnone)) fun q target hq hlink => ?_
    exact havoids (exists?_eq_false_of_locate hlocate) q target written hq hlink hthere
  · rw [← canonicalize_toPath_eq_iff] at hp ⊢
    rwa [← (sameBut_set hold bytes).canonicalize]

/-! ### References that are read back -/

/-- A reference is got back from the way that it shows, if its place and its root are canonical. -/
theorem ref_rel {r : FileRef} (habs : s.canonicalize (RealPath.toPath r.abs) = r.abs)
    (hroot : s.canonicalize (RealPath.toPath r.root) = r.root) :
    s.ref ⟨r.rel⟩ (RealPath.toPath r.root) = r := by
  rw [ref, hroot, r.isAbsolute_rel, if_neg (by simp), FileRef.canonicalize_join_rel
    (canonicalize_toPath_eq_iff.1 habs) (canonicalize_toPath_eq_iff.1 hroot)]

end Site

/-- What is read back, at any later time at which the root and the places are still canonical. -/
theorem Workspace.openFiles_eq {s later : Site} {w w' : Workspace} {files : List FileRef}
    (hroot : s.canonicalize (w.rootPath s) = w.rootDir s)
    (hfiles : ∀ r ∈ files, s.canonicalize (RealPath.toPath r.abs) = r.abs)
    (hstored : w'.config.openFiles = (w.configWith s (.openFiles files)).openFiles)
    (hsame : w'.rootDir later = w.rootDir s)
    (hlater : ∀ p ∈ w.rootDir s :: files.map FileRef.abs, later.canonicalize (RealPath.toPath p) = p) :
    w'.openFiles later = files.map fun r => ⟨r.abs, w.rootDir s⟩ := by
  rw [openFiles, hstored, configWith, List.map_map]
  refine List.map_congr_left fun r hr => ?_
  -- the root for which the reference was made is not stored
  have hwritten : s.ref (RealPath.toPath r.abs) (w.rootPath s) = ⟨r.abs, w.rootDir s⟩ :=
    (Site.ref_eq_iff (RealPath.isAbsolute_toPath _)).2 ⟨hfiles r hr, hroot⟩
  have hmem : r.abs ∈ w.rootDir s :: files.map FileRef.abs :=
    List.mem_cons_of_mem _ (List.mem_map_of_mem hr)
  rw [Function.comp_apply, hwritten, Path.shown_eq, rootPath, hsame]
  exact Site.ref_rel (r := ⟨r.abs, w.rootDir s⟩) (hlater _ hmem) (hlater _ List.mem_cons_self)

namespace Session

/-! ### In a session -/

/-- Whether an event stores other open files. -/
def Event.setsOpenFiles : Event → Bool
  | .configure (.openFiles _) => true
  | _ => false

theorem openFiles_after (x : Session) {event : Event} (h : event.setsOpenFiles = false) :
    (x.after event).workspace.config.openFiles = x.workspace.config.openFiles := by
  cases event with
  | outside disk => rfl
  | listen listener => rfl
  | reload => rfl
  | configure setting =>
      cases setting with
      | openFiles files => cases h
      | rootDir root => rfl
      | pythonPath dirs => rfl
      | excludeFiles names => rfl
      | editorOption key value => rfl

/-- What is stored stays as it is until other open files are stored. -/
theorem openFiles_run (x : Session) {events : List Event}
    (h : ∀ event ∈ events, event.setsOpenFiles = false) :
    (x.run events).workspace.config.openFiles = x.workspace.config.openFiles := by
  induction events using List.reverseRecOn with
  | nil => rfl
  | append_singleton events event ih =>
      rw [run_concat, openFiles_after _ (h event (by simp)), ih fun e he => h e (by simp [he])]

/-- A settled place stays settled when a setting is changed, unless that makes the file of the
configuration and a link on the way to the place leads there. -/
theorem settled_configure_iff {x : Session} {setting : Setting} {p : RealPath}
    (hp : x.site.Settled p) :
    (x.after (.configure setting)).site.Settled p ↔
      (x.site.exists? (x.workspace.dirPath.join Config.fileName) = false →
        (x.after (.configure setting)).site.Avoids (x.workspace.dirPath.join Config.fileName) p) := by
  constructor
  · -- a link on the way to a settled place leads nowhere at all
    intro hsettled _ q target place hq hlink _ hreal
    have hnowhere := hsettled q target hq hlink
    rw [Site.exists?_eq_true_iff.2 ⟨place, hreal⟩] at hnowhere
    cases hnowhere
  · intro havoids
    let w : Workspace := { x.workspace with config := x.workspace.configWith x.site setting }
    have hsite : (x.after (.configure setting)).site = { x.site with disk := (w.persist x.site).value } :=
      rfl
    rw [hsite] at havoids ⊢
    rcases w.persist_cases x.site with ⟨-, -, hsave⟩ | ⟨-, hsame⟩
    · exact hp.of_write hsave havoids
    · rw [hsame]
      exact hp

/-- **Open files come back as they were stored.** Let the root be a canonical place, and let files be
stored whose places are canonical, for whatever roots the references were made. On the disk that this
leaves, the root and the places are still canonical if and only if the file of the configuration was there
before, or no link on the way to one of them leads to it. If they are, and the root is the same, then the
same places come back in the same order, as references for the root. So they do at any later time, whatever
else was done, if the root is the same, it and the places are canonical, and no other open files were
stored. -/
theorem open_files_survive (x : Session) (files : List FileRef)
    (hroot : x.site.canonicalize (x.workspace.rootPath x.site) = x.workspace.rootDir x.site)
    (hfiles : ∀ r ∈ files, x.site.canonicalize (RealPath.toPath r.abs) = r.abs) :
    let root := x.workspace.rootDir x.site
    let places := files.map FileRef.abs
    let file := x.workspace.dirPath.join Config.fileName
    let y := x.after (.configure (.openFiles files))
    ((∀ p ∈ root :: places, y.site.canonicalize (RealPath.toPath p) = p) ↔
        (x.site.exists? file = false → ∀ p ∈ root :: places, y.site.Avoids file p)) ∧
      ((x.site.exists? file = false → ∀ p ∈ root :: places, y.site.Avoids file p) →
        y.workspace.rootDir y.site = root → y.workspace.openFiles y.site = places.map (⟨·, root⟩)) ∧
      ∀ events, (∀ event ∈ events, event.setsOpenFiles = false) →
        let z := y.run events
        z.workspace.rootDir z.site = root →
          (∀ p ∈ root :: places, z.site.canonicalize (RealPath.toPath p) = p) →
          z.workspace.openFiles z.site = places.map (⟨·, root⟩) := by
  intro root places file y
  have hbefore : ∀ p ∈ root :: places, x.site.canonicalize (RealPath.toPath p) = p := by
    refine List.forall_mem_cons.2 ⟨hroot, fun p hp => ?_⟩
    obtain ⟨r, hr, rfl⟩ := List.mem_map.1 hp
    exact hfiles r hr
  have hstill : (∀ p ∈ root :: places, y.site.canonicalize (RealPath.toPath p) = p) ↔
      (x.site.exists? file = false → ∀ p ∈ root :: places, y.site.Avoids file p) := by
    have hone : ∀ p ∈ root :: places, (y.site.canonicalize (RealPath.toPath p) = p ↔
        (x.site.exists? file = false → y.site.Avoids file p)) := by
      intro p hp
      rw [Site.canonicalize_toPath_eq_iff]
      exact settled_configure_iff (Site.canonicalize_toPath_eq_iff.1 (hbefore p hp))
    exact ⟨fun hall hnew p hp => (hone p hp).1 (hall p hp) hnew,
      fun havoids p hp => (hone p hp).2 fun hnew => havoids hnew p hp⟩
  have hback : places.map (fun p => (⟨p, root⟩ : FileRef)) = files.map fun r => ⟨r.abs, root⟩ :=
    List.map_map
  rw [hback]
  refine ⟨hstill, fun havoids hsame => ?_, ?_⟩
  · exact Workspace.openFiles_eq hroot hfiles rfl hsame (hstill.2 havoids)
  · intro events hevents z hsame hlater
    exact Workspace.openFiles_eq hroot hfiles (openFiles_run y hevents) hsame hlater

/-- The root is missing below a file; other files lie beside it, behind a link that leads nowhere, and in
the directory above. -/
def strayedSite : Site where
  disk := { entries :=
    [(.of ["p"], .directory), (.of ["p", "w"], .directory), (.of ["p", "f"], .file []),
      (.of ["p", "l"], .link ⟨"/none"⟩)] }
  cwd := []

def strayedSession : Session :=
  ⟨strayedSite, { dir := .of ["p", "w"], config := { rootDir := some ⟨"../f/src"⟩ } }⟩

theorem open_files_survive_strayedSession :
    let files : List FileRef :=
      [⟨.of ["p", "l", "m.py"], []⟩, ⟨.of ["p"], .of ["p", "w"]⟩, ⟨.of ["p", "f", "src"], []⟩,
        ⟨.of ["p"], []⟩]
    let y := strayedSession.after (.configure (.openFiles files))
    y.workspace.config.openFiles = ["../../l/m.py", "../..", ".", "../.."] ∧
      y.site.disk ≠ strayedSite.disk ∧
      (y.run [.reload]).workspace.openFiles (y.run [.reload]).site =
        (files.map FileRef.abs).map (⟨·, .of ["p", "f", "src"]⟩) := by
  intro files y
  have hroot : strayedSession.workspace.rootDir strayedSession.site = .of ["p", "f", "src"] := by
    decide +kernel
  have hall := open_files_survive strayedSession files (by decide +kernel) (by decide +kernel)
  have hlater := hall.2.2 [.reload] (by decide) (by decide +kernel) (by decide +kernel)
  exact ⟨by decide +kernel, by decide +kernel, hlater.trans (by rw [hroot])⟩

/-- A workspace beside a link to the file of its configuration, which is not there yet. -/
def firstSession : Session where
  site :=
    { disk :=
        { entries :=
            [(.of ["p"], .directory), (.of ["p", "w"], .directory), (.of ["p", "l"], .link ⟨"w/config"⟩)] }
      cwd := [] }
  workspace := { dir := .of ["p", "w"], config := {} }

/-- The link is a canonical place before it is stored as an open file. Storing it makes the file that it
leads to, and it comes back as that file. And what is stored for a name that is no text is another name. -/
theorem open_link_strays :
    let root := firstSession.workspace.rootDir firstSession.site
    let y := firstSession.after (.configure (.openFiles [⟨.of ["p", "l"], root⟩]))
    firstSession.site.canonicalize (firstSession.workspace.rootPath firstSession.site) = root ∧
      firstSession.site.canonicalize (RealPath.toPath (.of ["p", "l"])) = .of ["p", "l"] ∧
      y.workspace.config.openFiles = ["l"] ∧ y.workspace.rootDir y.site = root ∧
      y.workspace.openFiles y.site = [⟨.of ["p", "w", "config"], root⟩] ∧
      Text.encode (Text.decodeLossy [0xff]) ≠ [0xff] := by
  decide +kernel

end Session

end ImportAtlas
