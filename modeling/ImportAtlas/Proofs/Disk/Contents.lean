import ImportAtlas.Proofs.Disk.Alike
import ImportAtlas.Proofs.Disk.Writing

/-!
# What one file holds

Where a path leads to depends on the entries that are met on the way, and not on what the files among
them hold. So on two sites that differ only in what one file holds, every path leads to the same place,
where there is an entry of the same kind, and every path has the same canonical place. Only a path that
leads to that one file can tell the two sites apart.

Main definitions:

* `ImportAtlas.Entry.outline` — an entry apart from what it holds;
* `ImportAtlas.Site.SameBut` — two sites that differ at most in what one file holds.

Main results:

* `ImportAtlas.Site.SameBut.realPath_eq_ok_iff`, `ImportAtlas.Site.SameBut.isFile`,
  `ImportAtlas.Site.SameBut.canonicalize` — **the places and the kinds of entries are the same**;
* `ImportAtlas.Site.SameBut.alike` — a path that does not lead to the file leads to the same entry.
-/

set_option autoImplicit false

namespace ImportAtlas

/-- An entry apart from what it holds. -/
def Entry.outline : Entry → Entry
  | .file _ => .file []
  | e => e

/-- The place that was found, and the entry there apart from what it holds. -/
def outlined (found : RealPath × Option Entry) : RealPath × Option Entry :=
  (found.1, found.2.map Entry.outline)

namespace Disk

variable {d d' : Disk}

/-- Steps lead to the same place if the entries are the same apart from what they hold and the targets of
links are followed to the same places. -/
theorem outlined_descend (h : ∀ p, (d.entry? p).map Entry.outline = (d'.entry? p).map Entry.outline)
    {jump jump' : RealPath → List Step → Except OsError (RealPath × Option Entry)}
    (hjump : ∀ dir steps, (jump dir steps).map outlined = (jump' dir steps).map outlined)
    (follow : Bool) (dir : RealPath) (steps : List Step) :
    (d.descend follow jump dir steps).map outlined =
      (d'.descend follow jump' dir steps).map outlined := by
  induction steps generalizing dir with
  | nil => rfl
  | cons step rest ih =>
      cases step with
      | stay => exact ih dir
      | up => exact ih dir.dropLast
      | name n =>
          rw [descend, descend]
          split
          · rfl
          have hentry := h (dir ++ [n])
          cases he : d.entry? (dir ++ [n]) with
          | none =>
              have he' : d'.entry? (dir ++ [n]) = none := by simpa [he] using hentry.symm
              rw [he']
          | some e =>
              obtain ⟨e', he', hout⟩ : ∃ e', d'.entry? (dir ++ [n]) = some e' ∧
                  e'.outline = e.outline := by
                rw [he] at hentry
                exact Option.map_eq_some_iff.1 hentry.symm
              rw [he']
              -- the two entries are of one kind, and links have one target
              cases e <;> cases e' <;> simp only [Entry.outline, reduceCtorEq, Entry.link.injEq] at hout
              · dsimp only
                split <;> rfl
              · exact ih (dir ++ [n])
              · subst hout
                dsimp only
                split
                · rfl
                · exact hjump _ _

/-- The same through any number of links. -/
theorem outlined_resolve (h : ∀ p, (d.entry? p).map Entry.outline = (d'.entry? p).map Entry.outline)
    (follow : Bool) (links : Nat) (dir : RealPath) (steps : List Step) :
    (d.resolve follow links dir steps).map outlined =
      (d'.resolve follow links dir steps).map outlined := by
  induction links generalizing dir steps with
  | zero => exact outlined_descend h (fun _ _ => rfl) follow dir steps
  | succ links ih => exact outlined_descend h ih follow dir steps

end Disk

namespace Site

/-- An absolute path leads to a real place, with the entry that stands there. -/
theorem real_of_find {s : Site} {p : Path} {place : RealPath} {e : Entry} (hp : p.isAbsolute = true)
    (h : s.find p = .ok (place, e)) : s.disk.Real place e :=
  Disk.real_of_leadsTo? ((find_eq_ok_iff_leadsTo? hp).1 h).2

/-- Two sites that differ at most in what the file at a place holds. -/
structure SameBut (s s' : Site) (f : RealPath) : Prop where
  cwd : s.cwd = s'.cwd
  file : ∃ bytes, s.disk.entry? f = some (.file bytes)
  file' : ∃ bytes, s'.disk.entry? f = some (.file bytes)
  entry : ∀ p, p ≠ f → s.disk.entry? p = s'.disk.entry? p

/-- Writing over a file changes what it holds and nothing else. -/
theorem sameBut_set {s : Site} {f : RealPath} {old : List UInt8}
    (h : s.disk.entry? f = some (.file old)) (bytes : List UInt8) :
    s.SameBut { s with disk := s.disk.set f (.file bytes) } f := by
  have hne : f ≠ [] := Disk.TakesFile.ne_nil (.inr ⟨old, h⟩)
  refine ⟨rfl, ⟨old, h⟩, ⟨bytes, ?_⟩, fun p hp => (s.disk.entry?_set_of_ne _ hp).symm⟩
  exact Disk.entry?_set_self hne _

namespace SameBut

variable {s s' : Site} {f : RealPath}

theorem symm (h : s.SameBut s' f) : s'.SameBut s f :=
  ⟨h.cwd.symm, h.file', h.file, fun p hp => (h.entry p hp).symm⟩

theorem outline_entry (h : s.SameBut s' f) (p : RealPath) :
    (s.disk.entry? p).map Entry.outline = (s'.disk.entry? p).map Entry.outline := by
  by_cases hp : p = f
  · obtain ⟨bytes, hb⟩ := h.file
    obtain ⟨bytes', hb'⟩ := h.file'
    rw [hp, hb, hb']
    rfl
  · rw [h.entry p hp]

theorem outlined_locate (h : s.SameBut s' f) (follow : Bool) (p : Path) :
    (s.locate follow p).map outlined = (s'.locate follow p).map outlined := by
  rw [locate, locate, h.cwd]
  split
  · rfl
  split
  · rfl
  split
  · rfl
  · exact Disk.outlined_resolve h.outline_entry _ _ _ _

/-- What a path leads to, apart from what it holds. -/
theorem exists_find (h : s.SameBut s' f) {p : Path} {place : RealPath} {e : Entry}
    (hf : s.find p = .ok (place, e)) :
    ∃ e', s'.find p = .ok (place, e') ∧ e'.outline = e.outline := by
  have hout := h.outlined_locate true p
  rw [find_eq_ok_iff.1 hf] at hout
  cases hl : s'.locate true p with
  | error error =>
      rw [hl] at hout
      cases hout
  | ok found =>
      obtain ⟨place', e'⟩ := found
      rw [hl] at hout
      simp only [Except.map, outlined, Except.ok.injEq, Prod.mk.injEq] at hout
      obtain ⟨rfl, he⟩ := hout
      obtain ⟨e'', rfl, heq⟩ := Option.map_eq_some_iff.1 he.symm
      exact ⟨e'', find_eq_ok_iff.2 hl, heq⟩

theorem realPath_eq_ok_iff (h : s.SameBut s' f) {p : Path} {place : RealPath} :
    s.realPath p = .ok place ↔ s'.realPath p = .ok place := by
  rw [Site.realPath_eq_ok_iff, Site.realPath_eq_ok_iff]
  constructor
  · rintro ⟨e, he⟩
    obtain ⟨e', he', -⟩ := h.exists_find he
    exact ⟨e', he'⟩
  · rintro ⟨e, he⟩
    obtain ⟨e', he', -⟩ := h.symm.exists_find he
    exact ⟨e', he'⟩

/-- A path leads to a file on both sites or on none. -/
theorem isFile (h : s.SameBut s' f) (p : Path) : s.isFile p = s'.isFile p := by
  have hone : ∀ {s s' : Site}, s.SameBut s' f → s.isFile p = true → s'.isFile p = true := by
    intro s s' h hfile
    obtain ⟨place, bytes, hfind⟩ := isFile_eq_true_iff.1 hfile
    obtain ⟨e', he', hout⟩ := h.exists_find hfind
    cases e' with
    | file bytes' => exact isFile_eq_true_iff.2 ⟨place, bytes', he'⟩
    | directory => cases hout
    | link target => cases hout
  exact Bool.eq_iff_iff.2 ⟨hone h, hone h.symm⟩

theorem follow (h : s.SameBut s' f) (onDisk : Bool) (place : RealPath) (components : List Component) :
    s.follow onDisk place components = s'.follow onDisk place components := by
  induction components generalizing onDisk place with
  | nil => cases onDisk <;> rfl
  | cons component rest ih =>
      cases component with
      | top => cases onDisk <;> exact ih _ _
      | here => cases onDisk <;> exact ih _ _
      | up => cases onDisk <;> exact ih _ _
      | name n =>
          cases onDisk with
          | false => exact ih _ _
          | true =>
              rw [Site.follow, Site.follow]
              cases hr : s.realPath (RealPath.toPath (place ++ [n])) with
              | ok real =>
                  rw [h.realPath_eq_ok_iff.1 hr]
                  exact ih _ _
              | error error =>
                  cases hr' : s'.realPath (RealPath.toPath (place ++ [n])) with
                  | ok real =>
                      rw [h.realPath_eq_ok_iff.2 hr'] at hr
                      cases hr
                  | error error' => exact ih _ _

/-- Every path has the same canonical place on both sites. -/
theorem canonicalize (h : s.SameBut s' f) (p : Path) : s.canonicalize p = s'.canonicalize p := by
  have habs : s.absolute p = s'.absolute p := by rw [absolute, absolute, h.cwd]
  rw [Site.canonicalize, Site.canonicalize]
  cases hr : s.realPath p with
  | ok real => rw [h.realPath_eq_ok_iff.1 hr]
  | error error =>
      cases hr' : s'.realPath p with
      | ok real =>
          rw [h.realPath_eq_ok_iff.2 hr'] at hr
          cases hr
      | error error' => rw [habs, h.follow]

theorem ref (h : s.SameBut s' f) (p root : Path) : s.ref p root = s'.ref p root := by
  simp only [Site.ref, h.canonicalize]

/-- A place that does not lead to the file leads to the same entry on both sites. -/
theorem alike (h : s.SameBut s' f) {p : RealPath} (hp : s.realPath (RealPath.toPath p) ≠ .ok f) :
    s.Alike s' (RealPath.toPath p) := by
  have hone : ∀ {s s' : Site}, s.SameBut s' f → s.realPath (RealPath.toPath p) ≠ .ok f →
      ∀ found, s.find (RealPath.toPath p) = .ok found → s'.find (RealPath.toPath p) = .ok found := by
    rintro s s' h hp ⟨place, e⟩ hfind
    have hne : place ≠ f := by
      rintro rfl
      exact hp (Site.realPath_eq_ok_iff.2 ⟨e, hfind⟩)
    obtain ⟨e', he', -⟩ := h.exists_find hfind
    -- both entries stand at the same place, which is another one than that of the file
    have hentry := (real_of_find (RealPath.isAbsolute_toPath p) hfind).entry
    have hentry' := (real_of_find (RealPath.isAbsolute_toPath p) he').entry
    rw [h.entry place hne, hentry'] at hentry
    rw [he', Option.some.inj hentry]
  intro found
  refine ⟨hone h hp found, hone h.symm ?_ found⟩
  exact fun hf => hp (h.realPath_eq_ok_iff.2 hf)

end SameBut

end Site

end ImportAtlas
