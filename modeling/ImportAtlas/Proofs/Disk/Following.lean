import ImportAtlas.Proofs.Path.Places
import Mathlib.Data.List.Infix

/-!
# Following paths on a disk

The place that a path leads to is real: it is reached from the top through directories only, and it is
no link itself. A path that meets no link leads to the place that it spells out. If a path leads
somewhere, so does each path that it goes on from.

Main definitions:

* `ImportAtlas.Name.Short` — a name that is not too long for the system;
* `ImportAtlas.Disk.Through` — a directory that is reached through directories only;
* `ImportAtlas.Disk.Real` — a place that is no link and is reached through directories only;
* `ImportAtlas.Site.Grounded` — the current directory is reached through directories only.

Main results:

* `ImportAtlas.Disk.descend_name_eq_ok_iff` — what the step of a name can do;
* `ImportAtlas.Site.real_of_realPath` — **paths lead to real places**;
* `ImportAtlas.Site.realPath_toPath_eq` — without links, a place leads to itself;
* `ImportAtlas.Site.realPath_toPath_append` — **what is above a place that leads somewhere leads
  somewhere**.
-/

set_option autoImplicit false

namespace ImportAtlas

/-- With different keys, looking up a key gives what stands next to it. -/
theorem lookup_eq_some_iff {α β : Type} [BEq α] [LawfulBEq α] {l : List (α × β)}
    (hl : (l.map Prod.fst).Nodup) {a : α} {b : β} : l.lookup a = some b ↔ (a, b) ∈ l := by
  induction l with
  | nil => simp
  | cons c l ih =>
      obtain ⟨hc, hl'⟩ := List.nodup_cons.1 hl
      obtain ⟨a', b'⟩ := c
      rw [List.lookup_cons, List.mem_cons, Prod.mk.injEq]
      cases h : a == a' with
      | true =>
          obtain rfl : a = a' := eq_of_beq h
          have hne : (a, b) ∉ l := fun hmem => hc (List.mem_map.2 ⟨(a, b), hmem, rfl⟩)
          simp [hne, eq_comm]
      | false =>
          have hne : a ≠ a' := ne_of_beq_false h
          simp [hne, ih hl']

/-- A name that is not too long for the system. -/
def Name.Short (n : Name) : Prop := n.text.utf8ByteSize ≤ nameLimit

instance (n : Name) : Decidable n.Short :=
  inferInstanceAs (Decidable (n.text.utf8ByteSize ≤ nameLimit))

namespace Disk

/-! ### Entries -/

theorem entry?_nil (d : Disk) : d.entry? [] = some .directory := rfl

/-- The entry at a place is the one in the table. -/
theorem entry?_eq_some_iff {d : Disk} {p : RealPath} {e : Entry} (hp : p ≠ []) :
    d.entry? p = some e ↔ (p, e) ∈ d.entries := by
  unfold entry?
  rw [if_neg hp]
  exact lookup_eq_some_iff d.nodup_places

/-- Putting an entry at a place changes no other place of the table. -/
theorem entry?_set_of_ne (d : Disk) {place p : RealPath} (e : Entry) (hp : p ≠ place) :
    Disk.entry? (d.set place e) p = d.entry? p := by
  by_cases hnil : p = []
  · rw [hnil, entry?_nil, entry?_nil]
  · ext found
    rw [entry?_eq_some_iff hnil, entry?_eq_some_iff hnil]
    simp [set, keep, hp]

/-! ### Real places -/

/-- All places on the way to a place are directories, and so is the place itself. -/
def Through (d : Disk) (p : RealPath) : Prop := ∀ q, q <+: p → d.entry? q = some .directory

/-- A place that is reached through directories only, and that is no link. -/
structure Real (d : Disk) (p : RealPath) (e : Entry) : Prop where
  through : d.Through p.dropLast
  entry : d.entry? p = some e
  not_link : ∀ target, e ≠ .link target

theorem through_nil (d : Disk) : d.Through [] := by
  intro q hq
  rw [List.prefix_nil.1 hq]
  rfl

theorem Through.of_prefix {d : Disk} {p q : RealPath} (h : d.Through p) (hq : q <+: p) :
    d.Through q := fun w hw => h w (hw.trans hq)

theorem Through.dropLast {d : Disk} {p : RealPath} (h : d.Through p) : d.Through p.dropLast :=
  h.of_prefix (List.dropLast_prefix p)

theorem Through.concat {d : Disk} {p : RealPath} {n : Name} (h : d.Through p)
    (he : d.entry? (p ++ [n]) = some .directory) : d.Through (p ++ [n]) := by
  intro q hq
  rcases List.prefix_concat_iff.1 hq with rfl | hq
  · exact he
  · exact h q hq

theorem Through.real {d : Disk} {p : RealPath} (h : d.Through p) : d.Real p .directory :=
  ⟨h.dropLast, h p List.prefix_rfl, by simp⟩

/-- No place on the way to a real one is a link. -/
theorem Real.entry?_ne_link {d : Disk} {p q : RealPath} {e : Entry} (h : d.Real p e) (hq : q <+: p)
    (target : Path) : d.entry? q ≠ some (.link target) := by
  intro hl
  rcases List.eq_nil_or_concat' p with rfl | ⟨front, n, rfl⟩
  · rw [List.prefix_nil.1 hq, entry?_nil] at hl
    cases hl
  · rcases List.prefix_concat_iff.1 hq with rfl | hq
    · rw [h.entry] at hl
      exact h.not_link target (Option.some.inj hl)
    · have hd := h.through q (by simpa using hq)
      rw [hd] at hl
      cases hl

/-! ### Following steps -/

section Descend

variable {d : Disk} {jump : RealPath → List Step → Except OsError (RealPath × Option Entry)}

/-- The step of a name: a directory is entered, at a link `jump` goes on, and where a file is or nothing,
the way has to end. -/
theorem descend_name_eq_ok_iff {dir place : RealPath} {n : Name} {rest : List Step} {e : Option Entry} :
    d.descend true jump dir (.name n :: rest) = .ok (place, e) ↔
      n.Short ∧
        ((d.entry? (dir ++ [n]) = some .directory ∧
            d.descend true jump (dir ++ [n]) rest = .ok (place, e)) ∨
          (∃ target, d.entry? (dir ++ [n]) = some (.link target) ∧
            jump (if target.isAbsolute then [] else dir) (target.steps ++ rest) = .ok (place, e)) ∨
          ((d.entry? (dir ++ [n]) = none ∨ ∃ bytes, d.entry? (dir ++ [n]) = some (.file bytes)) ∧
            rest = [] ∧ place = dir ++ [n] ∧ e = d.entry? (dir ++ [n]))) := by
  rw [descend, Name.Short]
  by_cases hlimit : nameLimit < n.text.utf8ByteSize
  · simp [hlimit, Nat.not_le.2 hlimit]
  simp only [hlimit, if_false, true_and, Nat.le_of_not_lt hlimit]
  cases he : d.entry? (dir ++ [n]) with
  | none => by_cases hrest : rest = [] <;> simp [hrest, @eq_comm _ place, @eq_comm _ e]
  | some found =>
      cases found with
      | directory => simp
      | file bytes => by_cases hrest : rest = [] <;> simp [hrest, @eq_comm _ place, @eq_comm _ e]
      | link target => simp

/-- Following steps through directories leads to real places, if going on from links does. -/
theorem real_of_descend
    (hjump : ∀ {dir steps place e}, d.Through dir → jump dir steps = .ok (place, some e) →
      d.Real place e)
    {dir : RealPath} {steps : List Step} {place : RealPath} {e : Entry} (hd : d.Through dir)
    (h : d.descend true jump dir steps = .ok (place, some e)) : d.Real place e := by
  induction steps generalizing dir with
  | nil =>
      rw [descend] at h
      cases h
      exact hd.real
  | cons step rest ih =>
      cases step with
      | stay => exact ih hd h
      | up => exact ih hd.dropLast h
      | name n =>
          obtain ⟨-, ⟨he, h⟩ | ⟨target, -, h⟩ | ⟨he, -, rfl, hfound⟩⟩ := descend_name_eq_ok_iff.1 h
          · exact ih (hd.concat he) h
          · -- the target is followed from the top or from the directory of the link
            refine hjump ?_ h
            split
            · exact d.through_nil
            · exact hd
          · refine ⟨by simpa using hd, hfound.symm, ?_⟩
            rintro target rfl
            simp [← hfound] at he

/-- If no link is met, the names that are followed are the names of the place. -/
theorem place_of_descend {dir names place : RealPath} {e : Option Entry}
    (hl : ∀ q, q <+: names → ∀ target, d.entry? (dir ++ q) ≠ some (.link target))
    (h : d.descend true jump dir (names.map .name) = .ok (place, e)) : place = dir ++ names := by
  induction names generalizing dir with
  | nil =>
      cases h
      simp
  | cons n rest ih =>
      obtain ⟨-, ⟨-, h⟩ | ⟨target, he, -⟩ | ⟨-, hrest, hplace, -⟩⟩ := descend_name_eq_ok_iff.1 h
      · have hl' : ∀ q, q <+: rest → ∀ target, d.entry? (dir ++ [n] ++ q) ≠ some (.link target) := by
          intro q hq
          simpa using hl (n :: q) ((List.prefix_cons_inj n).2 hq)
        rw [ih hl' h]
        simp
      · exact absurd he (hl [n] (by simp) target)
      · rw [List.map_eq_nil_iff.1 hrest, hplace]

/-- If steps lead to an entry, so do the first of them, if that holds of going on from links. -/
theorem descend_append
    (hjump : ∀ {dir steps rest place e}, jump dir (steps ++ rest) = .ok (place, some e) →
      ∃ place e, jump dir steps = .ok (place, some e))
    {dir : RealPath} {steps rest : List Step} {place : RealPath} {e : Entry}
    (h : d.descend true jump dir (steps ++ rest) = .ok (place, some e)) :
    ∃ place e, d.descend true jump dir steps = .ok (place, some e) := by
  induction steps generalizing dir with
  | nil => exact ⟨dir, .directory, rfl⟩
  | cons step steps ih =>
      cases step with
      | stay => exact ih h
      | up => exact ih h
      | name n =>
          rw [List.cons_append] at h
          simp only [descend_name_eq_ok_iff]
          obtain ⟨hn, ⟨he, h⟩ | ⟨target, he, h⟩ | ⟨he, hrest, hplace, hfound⟩⟩ :=
            descend_name_eq_ok_iff.1 h
          · obtain ⟨place', e', h'⟩ := ih h
            exact ⟨place', e', hn, .inl ⟨he, h'⟩⟩
          · rw [← List.append_assoc] at h
            obtain ⟨place', e', h'⟩ := hjump h
            exact ⟨place', e', hn, .inr (.inl ⟨target, he, h'⟩)⟩
          · -- nothing may come after a file, so all the steps are among the first ones
            have hsteps : steps = [] := (List.append_eq_nil_iff.1 hrest).1
            exact ⟨place, e, hn, .inr (.inr ⟨he, hsteps, hplace, hfound⟩)⟩

end Descend

/-- Steps from a directory lead to real places. -/
theorem real_of_resolve {d : Disk} {links : Nat} {dir : RealPath} {steps : List Step}
    {place : RealPath} {e : Entry} (hd : d.Through dir)
    (h : d.resolve true links dir steps = .ok (place, some e)) : d.Real place e := by
  induction links generalizing dir steps place e with
  | zero => exact real_of_descend (fun _ hj => by cases hj) hd h
  | succ links ih => exact real_of_descend (fun hd hj => ih hd hj) hd h

/-- If steps lead to an entry, so do the first of them. -/
theorem resolve_append {d : Disk} {links : Nat} {dir : RealPath} {steps rest : List Step}
    {place : RealPath} {e : Entry}
    (h : d.resolve true links dir (steps ++ rest) = .ok (place, some e)) :
    ∃ place e, d.resolve true links dir steps = .ok (place, some e) := by
  induction links generalizing dir steps rest place e with
  | zero =>
      refine descend_append ?_ h
      intro dir steps rest place e hj
      cases hj
  | succ links ih =>
      refine descend_append ?_ h
      intro dir steps rest place e hj
      exact ih hj

/-- The steps of a place are its names. -/
theorem resolve_steps_toPath (d : Disk) (links : Nat) (p : RealPath) :
    d.resolve true links [] (RealPath.toPath p).steps = d.resolve true links [] (p.map .name) := by
  by_cases hnil : p = []
  · subst hnil
    cases links <;> rfl
  · rw [RealPath.steps_toPath hnil]

end Disk

namespace Site

variable {s : Site}

/-! ### Following paths -/

/-- The current directory is reached through directories only. -/
def Grounded (s : Site) : Prop := s.disk.Through s.cwd

theorem find_eq_ok_iff {p : Path} {place : RealPath} {e : Entry} :
    s.find p = .ok (place, e) ↔ s.locate true p = .ok (place, some e) := by
  rw [find]
  split <;> simp_all

theorem readText_eq_ok_iff {p : Path} {text : String} :
    s.readText p = .ok text ↔
      ∃ place bytes, s.find p = .ok (place, .file bytes) ∧ Text.decode? bytes = some text := by
  rw [readText, readBytes]
  cases s.find p with
  | error e => simp
  | ok found =>
      obtain ⟨place, e⟩ := found
      cases e with
      | file bytes => cases hd : Text.decode? bytes <;> simp [hd]
      | directory | link => simp

theorem realPath_eq_ok_iff {p : Path} {place : RealPath} :
    s.realPath p = .ok place ↔ ∃ e, s.find p = .ok (place, e) := by
  rw [realPath]
  cases s.find p with
  | error e => simp [Except.map]
  | ok found => cases found; simp [Except.map]

theorem isDirectory_iff {p : Path} :
    s.isDirectory p = true ↔ ∃ place, s.find p = .ok (place, .directory) := by
  rw [isDirectory]
  split
  · next place hfind => simp [hfind]
  · next hother =>
      simp only [Bool.false_eq_true, false_iff]
      rintro ⟨place, hfind⟩
      exact hother place hfind

/-- Paths lead to real places. -/
theorem real_of_realPath {p : Path} {place : RealPath} (hp : p.isAbsolute = true ∨ s.Grounded)
    (h : s.realPath p = .ok place) : ∃ e, s.disk.Real place e := by
  obtain ⟨e, he⟩ := realPath_eq_ok_iff.1 h
  have hl := find_eq_ok_iff.1 he
  rw [locate] at hl
  split at hl
  · cases hl
  split at hl
  · cases hl
  split at hl
  · cases hl
  refine ⟨e, Disk.real_of_resolve ?_ hl⟩
  split
  · exact s.disk.through_nil
  · next hrel => exact hp.resolve_left hrel

/-- The system takes the text of a place: it holds no character that ends texts, and it is not too
long. -/
def Spellable (p : RealPath) : Prop :=
  '\x00' ∉ (RealPath.text p).toList ∧ (RealPath.text p).utf8ByteSize ≤ pathLimit

theorem text_ne_empty (p : RealPath) : RealPath.text p ≠ "" := by
  intro h
  have hlist := RealPath.text_toList p
  rw [h] at hlist
  cases hlist

theorem locate_toPath (p : RealPath) :
    s.locate true (RealPath.toPath p) =
      if '\x00' ∈ (RealPath.text p).toList then .error .nulInPath
      else if pathLimit < (RealPath.text p).utf8ByteSize then .error .nameTooLong
      else s.disk.resolve true linkLimit [] (p.map .name) := by
  have htext : (RealPath.toPath p).text = RealPath.text p := rfl
  rw [locate, RealPath.isAbsolute_toPath, if_pos rfl, s.disk.resolve_steps_toPath linkLimit p, htext,
    if_neg (text_ne_empty p)]

theorem realPath_toPath_iff {p place : RealPath} :
    s.realPath (RealPath.toPath p) = .ok place ↔
      Spellable p ∧ ∃ e, s.disk.resolve true linkLimit [] (p.map .name) = .ok (place, some e) := by
  simp only [realPath_eq_ok_iff, find_eq_ok_iff, locate_toPath, Spellable]
  split
  · next hnul => simp [hnul]
  · next hnul =>
      split
      · next hsize => simp [hnul, Nat.not_le.2 hsize]
      · next hsize => simp [hnul, Nat.le_of_not_lt hsize]

/-- If no place on the way to a place is a link, it leads to itself or nowhere. -/
theorem realPath_toPath_eq {p place : RealPath}
    (hl : ∀ q, q <+: p → ∀ target, s.disk.entry? q ≠ some (.link target))
    (h : s.realPath (RealPath.toPath p) = .ok place) : place = p := by
  obtain ⟨-, e, he⟩ := realPath_toPath_iff.1 h
  rw [linkLimit, Disk.resolve] at he
  simpa using Disk.place_of_descend hl he

theorem Spellable.of_append {p q : RealPath} (h : Spellable (p ++ q)) : Spellable p := by
  obtain ⟨rest, hrest⟩ : ∃ rest, RealPath.text (p ++ q) = RealPath.text p ++ rest := by
    by_cases hp : p = []
    · exact ⟨"/".intercalate (RealPath.texts q), by simp [hp, RealPath.text]⟩
    · by_cases hq : q = []
      · exact ⟨"", by simp [hq]⟩
      · refine ⟨"/" ++ "/".intercalate (RealPath.texts q), ?_⟩
        rw [RealPath.text, RealPath.texts_append,
          String.intercalate_append_of_ne_nil (by simpa using hp) (by simpa using hq), RealPath.text]
        simp [String.append_assoc]
  rw [Spellable, hrest] at h
  obtain ⟨hnul, hsize⟩ := h
  rw [String.utf8ByteSize_append] at hsize
  exact ⟨fun hmem => hnul (by simp [hmem]), by omega⟩

/-- What is above a place that leads somewhere leads somewhere. -/
theorem realPath_toPath_append {p q place : RealPath}
    (h : s.realPath (RealPath.toPath (p ++ q)) = .ok place) :
    ∃ place, s.realPath (RealPath.toPath p) = .ok place := by
  obtain ⟨hs, e, he⟩ := realPath_toPath_iff.1 h
  rw [List.map_append] at he
  obtain ⟨place', e', he'⟩ := Disk.resolve_append he
  exact ⟨place', realPath_toPath_iff.2 ⟨hs.of_append, e', he'⟩⟩

end Site

end ImportAtlas
