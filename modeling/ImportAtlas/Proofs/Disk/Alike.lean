import ImportAtlas.Proofs.Path.Canonical

/-!
# One path on two sites

What a path leads to is all that is asked about it: whether there is a file, what it holds, and what its
canonical place is. So if a path leads to the same entry on two sites, the answers are the same. For an
absolute path that is decided by where its steps lead to on the disks.

Main definitions:

* `ImportAtlas.Disk.leadsTo?` — the entry that steps lead to through all links, and where it is;
* `ImportAtlas.Site.Alike` — a path leads to the same entry on two sites, or nowhere on both.

Main results:

* `ImportAtlas.Disk.Real.leadsTo?_eq` — real places lead to themselves;
* `ImportAtlas.Site.find_eq_ok_iff_leadsTo?` — where an absolute path leads to;
* `ImportAtlas.Site.alike_of_leadsTo?` — when it leads to the same entry;
* `ImportAtlas.Site.Alike.isFile`, `ImportAtlas.Site.Alike.canonicalize`,
  `ImportAtlas.Site.Alike.readText` — what follows from it.
-/

set_option autoImplicit false

namespace ImportAtlas

/-! ### Where steps lead to -/

/-- The entry that steps from the top lead to through all links, and the place of that entry. -/
def Disk.leadsTo? (d : Disk) (steps : List Step) : Option (RealPath × Entry) :=
  match d.resolve true linkLimit [] steps with
  | .ok (place, some e) => some (place, e)
  | _ => none

theorem Disk.leadsTo?_eq_some_iff {d : Disk} {steps : List Step} {place : RealPath} {e : Entry} :
    d.leadsTo? steps = some (place, e) ↔ d.resolve true linkLimit [] steps = .ok (place, some e) := by
  rw [leadsTo?]
  split <;> simp_all

/-- Steps lead to real places. -/
theorem Disk.real_of_leadsTo? {d : Disk} {steps : List Step} {place : RealPath} {e : Entry}
    (h : d.leadsTo? steps = some (place, e)) : d.Real place e :=
  real_of_resolve d.through_nil (leadsTo?_eq_some_iff.1 h)

/-- A directory stands at each place above a real one. -/
theorem Disk.Real.entry?_of_append {d : Disk} {p q : RealPath} {e : Entry} (h : d.Real (p ++ q) e)
    (hq : q ≠ []) : d.entry? p = some .directory := by
  refine h.through p ?_
  rw [List.dropLast_append_of_ne_nil hq]
  exact List.prefix_append _ _

/-- The names of a real place are followed to it, if they are short enough. -/
theorem Disk.Real.descend_eq {d : Disk}
    {jump : RealPath → List Step → Except OsError (RealPath × Option Entry)} {dir names : RealPath}
    {e : Entry} (h : d.Real (dir ++ names) e) (ht : d.Through dir) :
    d.descend true jump dir (names.map .name) =
      if ∀ n ∈ names, n.Short then .ok (dir ++ names, some e) else .error .nameTooLong := by
  induction names generalizing dir with
  | nil =>
      rw [List.append_nil] at h
      rw [List.map_nil, descend, if_pos (by simp), List.append_nil,
        Option.some.inj (h.entry.symm.trans ht.real.entry)]
  | cons n rest ih =>
      rw [List.map_cons, descend]
      by_cases hsize : nameLimit < n.text.utf8ByteSize
      · rw [if_pos hsize, if_neg fun hall => Nat.not_le.2 hsize (hall n (by simp))]
      · have happ : dir ++ n :: rest = dir ++ [n] ++ rest := by simp
        have hall : (∀ m ∈ n :: rest, m.Short) ↔ ∀ m ∈ rest, m.Short := by
          simp [show n.Short from Nat.le_of_not_lt hsize]
        rw [if_neg hsize, if_congr hall rfl rfl, happ]
        rw [happ] at h
        by_cases hdir : d.entry? (dir ++ [n]) = some .directory
        · rw [hdir]
          exact ih h (ht.concat hdir)
        · -- only a directory has names below it
          obtain rfl : rest = [] := by
            by_contra hne
            exact hdir (h.entry?_of_append hne)
          have he := h.entry
          rw [List.append_nil] at he
          rw [he, if_pos (by simp), List.map_nil]
          cases e with
          | directory => exact absurd he hdir
          | file bytes => simp
          | link target => exact absurd rfl (h.not_link target)

/-- A real place leads to itself, if its names are short enough. -/
theorem Disk.Real.leadsTo?_eq {d : Disk} {p : RealPath} {e : Entry} (h : d.Real p e) :
    d.leadsTo? (p.map .name) = if ∀ n ∈ p, n.Short then some (p, e) else none := by
  have htop : d.Real ([] ++ p) e := h
  rw [leadsTo?, linkLimit, resolve, htop.descend_eq d.through_nil]
  by_cases hsize : ∀ n ∈ p, n.Short
  · rw [if_pos hsize, if_pos hsize]
    rfl
  · rw [if_neg hsize, if_neg hsize]

theorem Disk.leadsTo?_steps_toPath (d : Disk) (p : RealPath) :
    d.leadsTo? (RealPath.toPath p).steps = d.leadsTo? (p.map .name) := by
  rw [leadsTo?, leadsTo?, resolve_steps_toPath]

namespace Site

/-! ### Following absolute paths -/

/-- An absolute path leads to where its steps lead to from the top, if the system takes its text: it
holds no character that ends texts, and it is not too long. -/
theorem find_eq_ok_iff_leadsTo? {s : Site} {p : Path} {place : RealPath} {e : Entry}
    (hp : p.isAbsolute = true) :
    s.find p = .ok (place, e) ↔
      ('\x00' ∉ p.text.toList ∧ p.text.utf8ByteSize ≤ pathLimit) ∧
        s.disk.leadsTo? p.steps = some (place, e) := by
  have htext : p.text ≠ "" := by
    intro hempty
    simp [Path.isAbsolute, hempty] at hp
  rw [find_eq_ok_iff, Disk.leadsTo?_eq_some_iff, locate, if_pos hp, if_neg htext]
  split
  · next hnul => simp [hnul]
  · next hnul =>
      split
      · next hsize => simp [Nat.not_le.2 hsize]
      · next hsize => simp [hnul, Nat.le_of_not_lt hsize]

/-! ### One path on two sites -/

/-- A path leads to the same entry on two sites, or nowhere on both. -/
def Alike (s s' : Site) (p : Path) : Prop := ∀ found, s.find p = .ok found ↔ s'.find p = .ok found

/-- An absolute path leads to the same entry if its steps do. -/
theorem alike_of_leadsTo? {s s' : Site} {p : Path} (hp : p.isAbsolute = true)
    (h : s.disk.leadsTo? p.steps = s'.disk.leadsTo? p.steps) : s.Alike s' p := by
  rintro ⟨place, e⟩
  rw [find_eq_ok_iff_leadsTo? hp, find_eq_ok_iff_leadsTo? hp, h]

theorem alike_toPath {s s' : Site} {p : RealPath}
    (h : s.disk.leadsTo? (p.map .name) = s'.disk.leadsTo? (p.map .name)) :
    s.Alike s' (RealPath.toPath p) := by
  refine alike_of_leadsTo? (RealPath.isAbsolute_toPath p) ?_
  rwa [Disk.leadsTo?_steps_toPath, Disk.leadsTo?_steps_toPath]

section

variable {s s' : Site} {p : Path}

theorem isFile_eq_true_iff : s.isFile p = true ↔ ∃ place bytes, s.find p = .ok (place, .file bytes) := by
  rw [isFile]
  split <;> simp_all

theorem Alike.isFile (h : s.Alike s' p) : s.isFile p = s'.isFile p := by
  rw [Bool.eq_iff_iff, isFile_eq_true_iff, isFile_eq_true_iff]
  simp only [h _]

theorem canonicalize_of_find {found : RealPath × Entry} (h : s.find p = .ok found) :
    s.canonicalize p = found.1 := by
  rw [canonicalize, realPath_eq_ok_iff.2 ⟨found.2, h⟩]

/-- A file has the same canonical place on both sites. -/
theorem Alike.canonicalize (h : s.Alike s' p) (hfile : s.isFile p = true) :
    s.canonicalize p = s'.canonicalize p := by
  obtain ⟨place, bytes, hfind⟩ := isFile_eq_true_iff.1 hfile
  rw [canonicalize_of_find hfind, canonicalize_of_find ((h _).1 hfind)]

theorem Alike.readText (h : s.Alike s' p) (text : String) :
    s.readText p = .ok text ↔ s'.readText p = .ok text := by
  simp only [readText_eq_ok_iff, h _]

end

end Site

end ImportAtlas
