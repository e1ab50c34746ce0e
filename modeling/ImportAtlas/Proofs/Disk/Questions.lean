import ImportAtlas.Proofs.Disk.Alike

/-!
# Questions to a disk

A disk is asked whether a path leads to a file, what text is there, and what the canonical place of a path
is. To answer, the entries at some places are looked up one after the other, through links and from the
parts of the path. If the same entries stand at these places of another disk, the answer is the same there,
whatever is different elsewhere.

Main definitions:

* `ImportAtlas.Disk.SameEntry` — the same entry stands at a place of two disks, or none;
* `ImportAtlas.Disk.passed` — the places that are looked up when steps are followed;
* `ImportAtlas.Question` — what is asked about a path;
* `ImportAtlas.Site.Agree` — a question has the same answer on two sites;
* `ImportAtlas.Site.passed` — the places that are looked up for a question.

Main results:

* `ImportAtlas.Disk.resolve_eq_of_sameEntry` — steps lead to the same if what is looked up is the same;
* `ImportAtlas.Site.agree_of_sameEntry` — **a question has the same answer if what is looked up for it is
  the same**.
-/

set_option autoImplicit false

namespace ImportAtlas

namespace Disk

/-! ### Entries on two disks -/

/-- An entry that is reached through directories only. -/
structure Stands (d : Disk) (p : RealPath) (e : Entry) : Prop where
  through : d.Through p.dropLast
  entry : d.entry? p = some e

/-- The same entry stands at a place of two disks, or none. A link counts as itself, wherever it leads
to. -/
def SameEntry (d d' : Disk) (p : RealPath) : Prop := ∀ e, d.Stands p e ↔ d'.Stands p e

section

variable {d d' : Disk}

theorem stands_concat_iff {dir : RealPath} {n : Name} (h : d.Through dir) {e : Entry} :
    d.Stands (dir ++ [n]) e ↔ d.entry? (dir ++ [n]) = some e := by
  constructor
  · exact Stands.entry
  · intro he
    exact ⟨by rwa [List.dropLast_concat], he⟩

/-- In a directory of both disks, what stands under a name is what the tables say. -/
theorem SameEntry.entry?_eq {dir : RealPath} {n : Name} (h : d.SameEntry d' (dir ++ [n]))
    (hd : d.Through dir) (hd' : d'.Through dir) :
    d.entry? (dir ++ [n]) = d'.entry? (dir ++ [n]) := by
  ext e
  rw [← stands_concat_iff hd, ← stands_concat_iff hd', h e]

/-- Putting something else than a directory where there was none makes no difference at other places. -/
theorem sameEntry_set_of_ne {place p : RealPath} {e : Entry} (he : e ≠ .directory)
    (hplace : d.entry? place ≠ some .directory) (hp : p ≠ place) : d.SameEntry (d.set place e) p := by
  have hentry : ∀ q, d.entry? q = some .directory ↔
      Disk.entry? (d.set place e) q = some .directory := by
    intro q
    by_cases hq : q = place
    · subst hq
      have hnil : q ≠ [] := by
        rintro rfl
        exact hplace d.entry?_nil
      refine iff_of_false hplace ?_
      rw [entry?_eq_some_iff hnil]
      simp [set, keep, he.symm]
    · rw [entry?_set_of_ne _ _ hq]
  have hthrough : ∀ q, d.Through q ↔ (d.set place e).Through q := fun q =>
    forall_congr' fun r => imp_congr_right fun _ => hentry r
  intro found
  constructor
  · rintro ⟨hup, hfound⟩
    exact ⟨(hthrough _).1 hup, by rw [entry?_set_of_ne _ _ hp, hfound]⟩
  · rintro ⟨hup, hfound⟩
    exact ⟨(hthrough _).2 hup, by rw [← hfound, entry?_set_of_ne _ _ hp]⟩

theorem SameEntry.trans {d'' : Disk} {p : RealPath} (h : d.SameEntry d' p) (h' : d'.SameEntry d'' p) :
    d.SameEntry d'' p := fun e => (h e).trans (h' e)

end

/-! ### Looking up entries -/

/-- The places that are looked up when steps are followed from a directory. At a link, `onward` says what
is looked up from there. -/
def passedBy (d : Disk) (onward : RealPath → List Step → List RealPath) :
    RealPath → List Step → List RealPath
  | _, [] => []
  | dir, .stay :: rest => passedBy d onward dir rest
  | dir, .up :: rest => passedBy d onward dir.dropLast rest
  | dir, .name n :: rest =>
      if nameLimit < n.text.utf8ByteSize then []
      else
        (dir ++ [n]) ::
          match d.entry? (dir ++ [n]) with
          | some .directory => passedBy d onward (dir ++ [n]) rest
          | some (.link target) => onward (if target.isAbsolute then [] else dir) (target.steps ++ rest)
          | some (.file _) => []
          | none => []

/-- The places that are looked up when steps are followed from a directory through at most so many
links. -/
def passed (d : Disk) : Nat → RealPath → List Step → List RealPath
  | 0 => d.passedBy fun _ _ => []
  | links + 1 => d.passedBy (d.passed links)

section

variable {d d' : Disk}

/-- Steps lead to the same if what is looked up is the same, and if that holds of going on from links. -/
theorem descend_eq_of_sameEntry
    {jump jump' : RealPath → List Step → Except OsError (RealPath × Option Entry)}
    {onward : RealPath → List Step → List RealPath}
    (hjump : ∀ {dir steps}, d.Through dir → d'.Through dir →
      (∀ p ∈ onward dir steps, d.SameEntry d' p) → jump dir steps = jump' dir steps)
    {dir : RealPath} {steps : List Step} (hd : d.Through dir) (hd' : d'.Through dir)
    (h : ∀ p ∈ d.passedBy onward dir steps, d.SameEntry d' p) :
    d.descend true jump dir steps = d'.descend true jump' dir steps := by
  induction steps generalizing dir with
  | nil => rw [descend, descend]
  | cons step rest ih =>
      cases step with
      | stay => exact ih hd hd' h
      | up => exact ih hd.dropLast hd'.dropLast h
      | name n =>
          rw [descend, descend]
          by_cases hlimit : nameLimit < n.text.utf8ByteSize
          · rw [if_pos hlimit, if_pos hlimit]
          rw [passedBy, if_neg hlimit, List.forall_mem_cons] at h
          obtain ⟨hsame, hrest⟩ := h
          have hentry := hsame.entry?_eq hd hd'
          rw [if_neg hlimit, if_neg hlimit, ← hentry]
          cases he : d.entry? (dir ++ [n]) with
          | none => rfl
          | some e =>
              rw [he] at hentry hrest
              cases e with
              | file bytes => rfl
              | directory => exact ih (hd.concat he) (hd'.concat hentry.symm) hrest
              | link target =>
                  have htarget : jump (if target.isAbsolute then [] else dir) (target.steps ++ rest) =
                      jump' (if target.isAbsolute then [] else dir) (target.steps ++ rest) := by
                    refine hjump ?_ ?_ hrest <;> split
                    · exact d.through_nil
                    · exact hd
                    · exact d'.through_nil
                    · exact hd'
                  simp only [htarget]

/-- **Steps lead to the same on two disks if what is looked up is the same.** -/
theorem resolve_eq_of_sameEntry {links : Nat} {dir : RealPath} {steps : List Step}
    (hd : d.Through dir) (hd' : d'.Through dir)
    (h : ∀ p ∈ d.passed links dir steps, d.SameEntry d' p) :
    d.resolve true links dir steps = d'.resolve true links dir steps := by
  induction links generalizing dir steps with
  | zero => exact descend_eq_of_sameEntry (fun _ _ _ => rfl) hd hd' h
  | succ links ih => exact descend_eq_of_sameEntry (fun hd hd' h => ih hd hd' h) hd hd' h

end

end Disk

/-! ### Questions -/

/-- What is asked about a path. -/
inductive Question where
  /-- Whether there is a file. -/
  | file (p : Path)
  /-- What text is there. -/
  | text (p : Path)
  /-- What the canonical place is. -/
  | place (p : Path)
deriving DecidableEq, Repr

/-- The path that a question is about. -/
def Question.path : Question → Path
  | .file p => p
  | .text p => p
  | .place p => p

namespace Site

/-- A question has the same answer on two sites. Why a text cannot be read does not matter. -/
def Agree (s s' : Site) : Question → Prop
  | .file p => s.isFile p = s'.isFile p
  | .text p => (s.readText p).toOption = (s'.readText p).toOption
  | .place p => s.canonicalize p = s'.canonicalize p

instance (s s' : Site) : (question : Question) → Decidable (s.Agree s' question)
  | .file p => inferInstanceAs (Decidable (s.isFile p = s'.isFile p))
  | .text p => inferInstanceAs (Decidable ((s.readText p).toOption = (s'.readText p).toOption))
  | .place p => inferInstanceAs (Decidable (s.canonicalize p = s'.canonicalize p))

/-- The places that are looked up when a path is followed. -/
def passedTo (s : Site) (p : Path) : List RealPath :=
  s.disk.passed linkLimit (if p.isAbsolute then [] else s.cwd) p.steps

/-- The paths that are followed one after the other when components are followed from a place that
exists. -/
def followed (s : Site) : RealPath → List Component → List Path
  | _, [] => []
  | _, .top :: rest => s.followed [] rest
  | place, .here :: rest => s.followed place rest
  | place, .up :: rest => s.followed place.dropLast rest
  | place, .name n :: rest =>
      RealPath.toPath (place ++ [n]) ::
        match s.realPath (RealPath.toPath (place ++ [n])) with
        | .ok real => s.followed real rest
        | .error _ => []

/-- The paths that are followed to find the canonical place of a path: the path itself, and if it leads
nowhere, its parts. -/
def followedFor (s : Site) (p : Path) : List Path :=
  p ::
    match s.realPath p with
    | .ok _ => []
    | .error _ => s.followed [] (s.absolute p).components

/-- The places that are looked up for a question. -/
def passed (s : Site) : Question → List RealPath
  | .file p => s.passedTo p
  | .text p => s.passedTo p
  | .place p => (s.followedFor p).flatMap s.passedTo

variable {s s' : Site}

theorem find_eq_of_sameEntry {p : Path} (hp : p.isAbsolute = true)
    (h : ∀ q ∈ s.passedTo p, s.disk.SameEntry s'.disk q) : s.find p = s'.find p := by
  rw [passedTo, if_pos hp] at h
  have hresolve := Disk.resolve_eq_of_sameEntry s.disk.through_nil s'.disk.through_nil h
  rw [find, find, locate, locate, if_pos hp, if_pos hp, hresolve]

/-- What is not on the disk is followed in the same way everywhere. -/
theorem follow_false (s s' : Site) (place : RealPath) (components : List Component) :
    s.follow false place components = s'.follow false place components := by
  induction components generalizing place with
  | nil => rw [follow, follow]
  | cons c rest ih => cases c <;> rw [follow, follow, ih]

theorem isAbsolute_of_mem_followed {place : RealPath} {components : List Component} {p : Path}
    (h : p ∈ s.followed place components) : p.isAbsolute = true := by
  induction components generalizing place with
  | nil => cases h
  | cons c rest ih =>
      cases c with
      | top | here | up => exact ih h
      | name n =>
          rw [followed] at h
          rcases List.mem_cons.1 h with rfl | h
          · exact RealPath.isAbsolute_toPath _
          · split at h
            · exact ih h
            · cases h

theorem isAbsolute_of_mem_followedFor {p q : Path} (hp : p.isAbsolute = true)
    (h : q ∈ s.followedFor p) : q.isAbsolute = true := by
  rw [followedFor] at h
  rcases List.mem_cons.1 h with rfl | h
  · exact hp
  · split at h
    · cases h
    · exact isAbsolute_of_mem_followed h

/-- Components lead to the same place if the paths that are followed lead to the same. -/
theorem follow_eq {place : RealPath} {components : List Component}
    (h : ∀ p ∈ s.followed place components, s.realPath p = s'.realPath p) :
    s.follow true place components = s'.follow true place components := by
  induction components generalizing place with
  | nil => rw [follow, follow]
  | cons c rest ih =>
      cases c with
      | top | here | up =>
          rw [follow, follow]
          exact ih h
      | name n =>
          rw [followed, List.forall_mem_cons] at h
          obtain ⟨hfirst, hrest⟩ := h
          rw [follow, follow, ← hfirst]
          cases hreal : s.realPath (RealPath.toPath (place ++ [n])) with
          | error e => exact follow_false s s' _ _
          | ok real =>
              rw [hreal] at hrest
              exact ih hrest

/-- The canonical place is the same if the paths that are followed for it lead to the same. -/
theorem canonicalize_eq {p : Path} (hp : p.isAbsolute = true)
    (h : ∀ q ∈ s.followedFor p, s.realPath q = s'.realPath q) :
    s.canonicalize p = s'.canonicalize p := by
  rw [followedFor, List.forall_mem_cons] at h
  obtain ⟨hself, hparts⟩ := h
  rw [canonicalize, canonicalize, ← hself]
  cases hreal : s.realPath p with
  | ok real => rfl
  | error e =>
      rw [hreal] at hparts
      have habsolute : s'.absolute p = s.absolute p := by rw [absolute, absolute, if_pos hp, if_pos hp]
      dsimp only
      rw [habsolute]
      exact follow_eq hparts

/-- **A question has the same answer on two sites if what is looked up for it is the same.** -/
theorem agree_of_sameEntry {question : Question} (hpath : question.path.isAbsolute = true)
    (h : ∀ q ∈ s.passed question, s.disk.SameEntry s'.disk q) : s.Agree s' question := by
  cases question with
  | file p =>
      have hfind : s.find p = s'.find p := find_eq_of_sameEntry hpath h
      rw [Agree, isFile, isFile, hfind]
  | text p =>
      have hfind : s.find p = s'.find p := find_eq_of_sameEntry hpath h
      rw [Agree, readText, readText, readBytes, readBytes, hfind]
  | place p =>
      refine canonicalize_eq hpath fun q hq => ?_
      have hfind : s.find q = s'.find q :=
        find_eq_of_sameEntry (isAbsolute_of_mem_followedFor hpath hq) fun place hplace =>
          h place (List.mem_flatMap.2 ⟨q, hq, hplace⟩)
      rw [realPath, realPath, hfind]

theorem toOption_readText_eq_some_iff {p : Path} {text : String} :
    (s.readText p).toOption = some text ↔ s.readText p = .ok text := by
  cases s.readText p <;> simp [Except.toOption]

/-- A path that leads to the same entry on two sites has the same answers to whether there is a file and
what text is there. -/
theorem Alike.agree {p : Path} (h : s.Alike s' p) : s.Agree s' (.file p) ∧ s.Agree s' (.text p) := by
  refine ⟨h.isFile, ?_⟩
  rw [Agree]
  ext text
  rw [toOption_readText_eq_some_iff, toOption_readText_eq_some_iff, h.readText]

end Site

end ImportAtlas
