import ImportAtlas.Disk.Edit
import ImportAtlas.Proofs.Disk.Following

/-!
# Writing files

Writing through a path changes the entry at one place, the one that the path leads to, and afterwards
the same path leads to what was written. The way there is not changed: it goes through directories and
links, and a file is never written over one of those.

Main definitions:

* `ImportAtlas.Disk.Leads` — the ways from a directory to a place, step by step;
* `ImportAtlas.Disk.TakesFile` — nothing stands at a place, or a file;
* `ImportAtlas.Site.OnlyWrites` — one file was written between two sites, and nothing else.

Main results:

* `ImportAtlas.Disk.resolve_eq_ok_iff` — following steps succeeds exactly along ways;
* `ImportAtlas.Disk.Leads.short` — places that are reached have short names;
* `ImportAtlas.Disk.Leads.set` — **the way to a place is the same after a file was written there**;
* `ImportAtlas.Site.writeBytes_eq_ok_iff` — what writing does to a disk;
* `ImportAtlas.Site.find_writeBytes` — paths lead to the same directories as before;
* `ImportAtlas.Site.onlyWrites_of_writeBytes` — **writing changes one file and nothing else**;
* `ImportAtlas.Site.locate_set` — **the path through which a file was written leads to it**.
-/

set_option autoImplicit false

namespace ImportAtlas

namespace Disk

variable {d : Disk}

/-- Nothing stands at a place, or a file. -/
def TakesFile (d : Disk) (place : RealPath) : Prop :=
  d.entry? place = none ∨ ∃ bytes, d.entry? place = some (.file bytes)

theorem TakesFile.ne_nil {place : RealPath} (h : d.TakesFile place) : place ≠ [] := by
  rintro rfl
  rcases h with h | ⟨bytes, h⟩ <;> cases h

theorem entry?_set_self {place : RealPath} (hplace : place ≠ []) (e : Entry) :
    Disk.entry? (d.set place e) place = some e :=
  (entry?_eq_some_iff hplace).2 List.mem_cons_self

/-- Putting an entry where it is already makes no difference. -/
theorem set_set (d : Disk) (place : RealPath) (e : Entry) :
    Disk.set (d.set place e) place e = d.set place e := by
  simp [set, keep]

/-! ### Ways -/

/-- The ways that steps may take from a directory through at most so many links, up to a place and the
entry there. -/
inductive Leads (d : Disk) : Nat → RealPath → List Step → RealPath → Option Entry → Prop where
  | stop {links : Nat} {dir : RealPath} : Leads d links dir [] dir (some .directory)
  | stay {links : Nat} {dir place : RealPath} {rest : List Step} {e : Option Entry}
      (h : Leads d links dir rest place e) : Leads d links dir (.stay :: rest) place e
  | up {links : Nat} {dir place : RealPath} {rest : List Step} {e : Option Entry}
      (h : Leads d links dir.dropLast rest place e) : Leads d links dir (.up :: rest) place e
  | enter {links : Nat} {dir place : RealPath} {n : Name} {rest : List Step} {e : Option Entry}
      (hn : n.Short) (hentry : d.entry? (dir ++ [n]) = some .directory)
      (h : Leads d links (dir ++ [n]) rest place e) : Leads d links dir (.name n :: rest) place e
  | follow {links : Nat} {dir place : RealPath} {n : Name} {rest : List Step} {e : Option Entry}
      {target : Path} (hn : n.Short) (hentry : d.entry? (dir ++ [n]) = some (.link target))
      (h : Leads d links (if target.isAbsolute then [] else dir) (target.steps ++ rest) place e) :
      Leads d (links + 1) dir (.name n :: rest) place e
  | last {links : Nat} {dir : RealPath} {n : Name} (hn : n.Short)
      (hentry : d.TakesFile (dir ++ [n])) :
      Leads d links dir [.name n] (dir ++ [n]) (d.entry? (dir ++ [n]))

/-- Steps are followed along ways, if that holds of going on from links. -/
theorem leads_of_descend {jump : RealPath → List Step → Except OsError (RealPath × Option Entry)}
    {links : Nat} {place : RealPath} {e : Option Entry}
    (hjump : ∀ {dir n rest target}, n.Short → d.entry? (dir ++ [n]) = some (.link target) →
      jump (if target.isAbsolute then [] else dir) (target.steps ++ rest) = .ok (place, e) →
      d.Leads links dir (.name n :: rest) place e)
    {dir : RealPath} {steps : List Step} (h : d.descend true jump dir steps = .ok (place, e)) :
    d.Leads links dir steps place e := by
  induction steps generalizing dir with
  | nil =>
      cases h
      exact .stop
  | cons step rest ih =>
      cases step with
      | stay => exact .stay (ih h)
      | up => exact .up (ih h)
      | name n =>
          obtain ⟨hn, ⟨hentry, h⟩ | ⟨target, hentry, h⟩ | ⟨hentry, rfl, rfl, rfl⟩⟩ :=
            descend_name_eq_ok_iff.1 h
          · exact .enter hn hentry (ih h)
          · exact hjump hn hentry h
          · exact .last hn hentry

/-- Steps are followed exactly along ways. -/
theorem resolve_eq_ok_iff {links : Nat} {dir place : RealPath} {steps : List Step} {e : Option Entry} :
    d.resolve true links dir steps = .ok (place, e) ↔ d.Leads links dir steps place e := by
  constructor
  · intro h
    induction links generalizing dir steps with
    | zero => exact leads_of_descend (fun _ _ hjump => by cases hjump) h
    | succ links ih =>
        exact leads_of_descend (fun hn hentry hjump => .follow hn hentry (ih hjump)) h
  · intro h
    induction h with
    | @stop links dir => cases links <;> rfl
    | @stay links dir place rest e _ ih => cases links <;> exact ih
    | @up links dir place rest e _ ih => cases links <;> exact ih
    | @enter links dir place n rest e hn hentry _ ih =>
        cases links <;> exact descend_name_eq_ok_iff.2 ⟨hn, .inl ⟨hentry, ih⟩⟩
    | follow hn hentry _ ih => exact descend_name_eq_ok_iff.2 ⟨hn, .inr (.inl ⟨_, hentry, ih⟩)⟩
    | @last links dir n hn hentry =>
        cases links <;> exact descend_name_eq_ok_iff.2 ⟨hn, .inr (.inr ⟨hentry, rfl, rfl, rfl⟩)⟩

/-- A way that does not end in a directory ends where nothing stands, or a file. -/
theorem Leads.takesFile {links : Nat} {dir place : RealPath} {steps : List Step} {e : Option Entry}
    (h : d.Leads links dir steps place e) (he : e ≠ some .directory) :
    d.TakesFile place ∧ d.entry? place = e := by
  induction h with
  | stop => exact absurd rfl he
  | stay _ ih => exact ih he
  | up _ ih => exact ih he
  | enter _ _ _ ih => exact ih he
  | follow _ _ _ ih => exact ih he
  | last _ hentry => exact ⟨hentry, rfl⟩

/-- The names of a place that is reached are short if those of the directory at the beginning are. -/
theorem Leads.short {links : Nat} {dir place : RealPath} {steps : List Step} {e : Option Entry}
    (h : d.Leads links dir steps place e) (hdir : ∀ n ∈ dir, n.Short) : ∀ n ∈ place, n.Short := by
  have hconcat : ∀ {dir : RealPath} {n : Name}, n.Short → (∀ m ∈ dir, m.Short) →
      ∀ m ∈ dir ++ [n], m.Short := by
    intro dir n hn hdir m hm
    rcases List.mem_append.1 hm with hm | hm
    · exact hdir m hm
    · rw [List.mem_singleton.1 hm]
      exact hn
  induction h with
  | stop => exact hdir
  | stay _ ih => exact ih hdir
  | up _ ih => exact ih fun n hn => hdir n (List.dropLast_subset _ hn)
  | enter hn _ _ ih => exact ih (hconcat hn hdir)
  | follow _ _ _ ih =>
      refine ih ?_
      split
      · simp
      · exact hdir
  | last hn _ => exact hconcat hn hdir

/-- Writing a file changes no directory and no link. -/
theorem TakesFile.entry?_set {place : RealPath} (h : d.TakesFile place) {q : RealPath} {found : Entry}
    (hq : d.entry? q = some found) (hfound : ∀ bytes, found ≠ .file bytes) (bytes : List UInt8) :
    Disk.entry? (d.set place (.file bytes)) q = some found := by
  rw [entry?_set_of_ne, hq]
  rintro rfl
  rcases h with hnone | ⟨old, hold⟩
  · rw [hnone] at hq
    cases hq
  · rw [hold] at hq
    exact hfound old (Option.some.inj hq).symm

/-- The way to a place is the same after a file was written there. -/
theorem Leads.set {links : Nat} {dir place : RealPath} {steps : List Step} {e : Option Entry}
    (h : d.Leads links dir steps place e) (he : e ≠ some .directory) (bytes : List UInt8) :
    (d.set place (.file bytes)).Leads links dir steps place (some (.file bytes)) := by
  have hplace := (h.takesFile he).1
  have hset := entry?_set_self (d := d) hplace.ne_nil (.file bytes)
  -- on the way there are directories and links only, and those are not written over
  induction h with
  | stop => exact absurd rfl he
  | stay _ ih => exact .stay (ih he hplace hset)
  | up _ ih => exact .up (ih he hplace hset)
  | enter hn hentry _ ih =>
      exact .enter hn (hplace.entry?_set hentry (by simp) bytes) (ih he hplace hset)
  | follow hn hentry _ ih =>
      exact .follow hn (hplace.entry?_set hentry (by simp) bytes) (ih he hplace hset)
  | last hn _ =>
      rw [← hset]
      exact .last hn (.inr ⟨bytes, hset⟩)

/-- The way to a directory is the same after a file was written anywhere. -/
theorem Leads.set_of_directory {links : Nat} {dir place q : RealPath} {steps : List Step}
    (h : d.Leads links dir steps q (some .directory)) (hplace : d.TakesFile place) (bytes : List UInt8) :
    (d.set place (.file bytes)).Leads links dir steps q (some .directory) := by
  generalize he : some Entry.directory = e at h
  induction h with
  | stop =>
      rw [← he]
      exact .stop
  | stay _ ih => exact .stay (ih he)
  | up _ ih => exact .up (ih he)
  | enter hn hentry _ ih => exact .enter hn (hplace.entry?_set hentry (by simp) bytes) (ih he)
  | follow hn hentry _ ih => exact .follow hn (hplace.entry?_set hentry (by simp) bytes) (ih he)
  | last _ hentry =>
      rw [TakesFile, ← he] at hentry
      rcases hentry with hnone | ⟨old, hold⟩
      · cases hnone
      · cases hold

end Disk

namespace Site

variable {s : Site}

/-- The system takes a path: it holds no character that ends texts, it is not empty and not too long. -/
def Takes (p : Path) : Prop :=
  '\x00' ∉ p.text.toList ∧ p.text ≠ "" ∧ p.text.utf8ByteSize ≤ pathLimit

theorem locate_eq_ok_iff {p : Path} {place : RealPath} {e : Option Entry} :
    s.locate true p = .ok (place, e) ↔
      Takes p ∧ s.disk.Leads linkLimit (if p.isAbsolute then [] else s.cwd) p.steps place e := by
  rw [locate, ← Disk.resolve_eq_ok_iff, Takes]
  split
  · next h => simp [h]
  split
  · next h => simp [h]
  split
  · next h => simp [Nat.not_le.2 h]
  · next hnul hempty hlong => simp [hnul, hempty, Nat.le_of_not_lt hlong]

/-- Writing puts a file at the place that a path leads to, if no directory is there. -/
theorem writeBytes_eq_ok_iff {p : Path} {bytes : List UInt8} {disk : Disk} :
    s.writeBytes p bytes = .ok disk ↔
      ∃ place e, s.locate true p = .ok (place, e) ∧ e ≠ some .directory ∧
        disk = s.disk.set place (.file bytes) := by
  rw [writeBytes]
  split
  · next place hlocate =>
      constructor
      · intro h
        cases h
      · rintro ⟨place', e, hlocate', he, -⟩
        cases hlocate.symm.trans hlocate'
        exact absurd rfl he
  · next place e hdir hlocate =>
      constructor
      · intro h
        refine ⟨place, e, hlocate, ?_, (Except.ok.inj h).symm⟩
        exact hdir
      · rintro ⟨place', e', hlocate', -, rfl⟩
        cases hlocate.symm.trans hlocate'
        rfl
  · next error hlocate =>
      constructor
      · intro h
        cases h
      · rintro ⟨place, e, hlocate', -⟩
        cases hlocate.symm.trans hlocate'

/-- After a file was written, the same path leads to it. -/
theorem locate_set {p : Path} {place : RealPath} {e : Option Entry}
    (h : s.locate true p = .ok (place, e)) (he : e ≠ some .directory) (bytes : List UInt8) :
    ({ s with disk := s.disk.set place (.file bytes) } : Site).locate true p =
      .ok (place, some (.file bytes)) := by
  obtain ⟨htakes, hleads⟩ := locate_eq_ok_iff.1 h
  exact locate_eq_ok_iff.2 ⟨htakes, hleads.set he bytes⟩

/-- Between two sites, a file was created or replaced where a path leads, and nothing else. -/
def OnlyWrites (s : Site) (p : Path) (bytes : List UInt8) (s' : Site) : Prop :=
  s'.cwd = s.cwd ∧ ∃ place, s.locate true p = .ok (place, s.disk.entry? place) ∧ s.disk.TakesFile place ∧
    s'.disk.entry? place = some (.file bytes) ∧ ∀ q, q ≠ place → s'.disk.entry? q = s.disk.entry? q

/-- Writing changes nothing but the file that the path leads to. -/
theorem onlyWrites_of_writeBytes {p : Path} {bytes : List UInt8} {disk : Disk}
    (h : s.writeBytes p bytes = .ok disk) :
    s.OnlyWrites p bytes { s with disk := disk } := by
  obtain ⟨place, e, hlocate, he, rfl⟩ := writeBytes_eq_ok_iff.1 h
  obtain ⟨htakes, rfl⟩ := (locate_eq_ok_iff.1 hlocate).2.takesFile he
  have hset := Disk.entry?_set_self (d := s.disk) htakes.ne_nil (.file bytes)
  exact ⟨rfl, place, hlocate, htakes, hset, fun q hq => s.disk.entry?_set_of_ne _ hq⟩

/-- After a file was written, paths lead to the same directories. -/
theorem find_writeBytes {p q : Path} {place : RealPath} {bytes : List UInt8} {disk : Disk}
    (h : s.writeBytes p bytes = .ok disk) (hq : s.find q = .ok (place, .directory)) :
    ({ s with disk := disk } : Site).find q = .ok (place, .directory) := by
  obtain ⟨written, e, hlocate, he, rfl⟩ := writeBytes_eq_ok_iff.1 h
  have hwritten := ((locate_eq_ok_iff.1 hlocate).2.takesFile he).1
  obtain ⟨htakes, hleads⟩ := locate_eq_ok_iff.1 (find_eq_ok_iff.1 hq)
  exact find_eq_ok_iff.2 (locate_eq_ok_iff.2 ⟨htakes, hleads.set_of_directory hwritten bytes⟩)

end Site

end ImportAtlas
