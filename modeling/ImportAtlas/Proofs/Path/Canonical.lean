import ImportAtlas.FileRef
import ImportAtlas.Proofs.Disk.Following
import ImportAtlas.Proofs.Text.Utf8

/-!
# Canonical places

A canonical place should stay as it is when it is made canonical again. That holds of a place if and
only if it is *settled*: no place on the way to it is a link that leads somewhere. Every path that
leads somewhere has a settled place, and so has every other path in which no double dot stands behind
the first name that leads nowhere. Behind such a name a double dot can lead back to where there are
links, and these are not followed any more.

Main definitions:

* `ImportAtlas.Site.Settled` — no place on the way is a link that leads somewhere;
* `ImportAtlas.Site.Missing` — the first of some names leads nowhere;
* `ImportAtlas.Site.beyond` — the components behind the first name that leads nowhere.

Main results:

* `ImportAtlas.Site.settled_canonicalize_toPath` — a path that spells out a place has a settled one;
* `ImportAtlas.Site.canonicalize_toPath_eq_iff` — **the settled places are those that stay as they are**;
* `ImportAtlas.Site.settled_canonicalize` — when the canonical place of a path is settled;
* `ImportAtlas.Site.canonicalize_idem_iff` — when making canonical twice is the same as once, for paths
  and for references;
* `ImportAtlas.Site.canonicalize_twice_ne` — a path for which it is not.
-/

set_option autoImplicit false

namespace ImportAtlas

/-- The bytes of a path are a text, so it is shown as it is. -/
theorem Path.shown_eq (p : Path) : p.shown = p.text := by
  rw [shown, Text.decodeLossy_encode]

namespace Site

variable {s : Site}

/-! ### Settled places -/

/-- No place on the way to a place is a link that leads somewhere. -/
def Settled (s : Site) (p : RealPath) : Prop :=
  ∀ q target, q <+: p → s.disk.entry? q = some (.link target) → s.exists? (RealPath.toPath q) = false

theorem exists?_eq_true_iff {p : Path} :
    s.exists? p = true ↔ ∃ place, s.realPath p = .ok place := by
  simp only [realPath_eq_ok_iff]
  rw [exists?]
  split
  · next found hf =>
      simp only [true_iff]
      exact ⟨found.1, found.2, hf⟩
  · next e hf => simp [hf]

theorem Settled.of_prefix {p q : RealPath} (h : s.Settled p) (hq : q <+: p) : s.Settled q :=
  fun w target hw => h w target (hw.trans hq)

/-- A settled place leads to itself or nowhere. -/
theorem Settled.realPath_eq {p place : RealPath} (h : s.Settled p)
    (hr : s.realPath (RealPath.toPath p) = .ok place) : place = p := by
  refine realPath_toPath_eq ?_ hr
  -- a link on the way would lead somewhere, since the place behind it does
  intro q hq target hl
  obtain ⟨rest, rfl⟩ := hq
  have hfalse := h q target ⟨rest, rfl⟩ hl
  have htrue := exists?_eq_true_iff.2 (realPath_toPath_append hr)
  rw [hfalse] at htrue
  cases htrue

/-- From a place, the first of some names leads nowhere. -/
def Missing (s : Site) (p names : RealPath) : Prop :=
  ∀ n rest, names = n :: rest → ∀ place, s.realPath (RealPath.toPath (p ++ [n])) ≠ .ok place

theorem missing_nil (s : Site) (p : RealPath) : s.Missing p [] := by
  intro n rest h
  cases h

theorem missing_cons {p : RealPath} {n : Name} {error : OsError}
    (h : s.realPath (RealPath.toPath (p ++ [n])) = .error error) (names : RealPath) :
    s.Missing p (n :: names) := by
  intro m rest hm place hplace
  obtain ⟨rfl, rfl⟩ := List.cons.inj hm
  rw [h] at hplace
  cases hplace

/-- A real place with names below it of which the first leads nowhere is settled. -/
theorem settled_append {p names : RealPath} {e : Entry} (hp : s.disk.Real p e)
    (h : s.Missing p names) : s.Settled (p ++ names) := by
  intro q target hq hl
  rcases List.prefix_or_prefix_of_prefix hq (List.prefix_append p names) with hqp | ⟨rest, rfl⟩
  · exact absurd hl (hp.entry?_ne_link hqp target)
  · -- the way to `q` goes through the first name below the real place
    cases rest with
    | nil =>
        rw [List.append_nil] at hl
        exact absurd hl (hp.entry?_ne_link List.prefix_rfl target)
    | cons n rest =>
        obtain ⟨rest', hnames⟩ : n :: rest <+: names := (List.prefix_append_right_inj p).1 hq
        rw [← Bool.not_eq_true]
        intro htrue
        obtain ⟨place, hplace⟩ := exists?_eq_true_iff.1 htrue
        rw [show p ++ n :: rest = p ++ [n] ++ rest by simp] at hplace
        obtain ⟨place', hplace'⟩ := realPath_toPath_append hplace
        exact h n (rest ++ rest') (by rw [← hnames]; rfl) place' hplace'

theorem settled_of_real {p : RealPath} {e : Entry} (hp : s.disk.Real p e) : s.Settled p := by
  have h : s.Settled (p ++ []) := settled_append hp (s.missing_nil p)
  rwa [List.append_nil] at h

/-! ### Following names -/

theorem follow_false_names (s : Site) (p names : RealPath) :
    s.follow false p (names.map .name) = p ++ names := by
  induction names generalizing p with
  | nil => simp [follow]
  | cons n names ih => rw [List.map_cons, follow, ih]; simp

/-- A settled place is found by following its names. -/
theorem Settled.follow_eq {p names : RealPath} (h : s.Settled (p ++ names)) :
    s.follow true p (names.map .name) = p ++ names := by
  induction names generalizing p with
  | nil => simp [follow]
  | cons n names ih =>
      have happ : p ++ n :: names = p ++ [n] ++ names := by simp
      rw [happ] at h ⊢
      rw [List.map_cons, follow]
      split
      · next real hr =>
          have hreal : real = p ++ [n] := (h.of_prefix (List.prefix_append _ _)).realPath_eq hr
          rw [hreal]
          exact ih h
      · exact s.follow_false_names _ _

/-- What comes of following names from a real place: another real place, which some of the names lead
to, and the other names, of which the first leads nowhere. -/
theorem follow_names (names : RealPath) {p : RealPath} {e : Entry} (hp : s.disk.Real p e) :
    ∃ real e taken left, s.disk.Real real e ∧ names = taken ++ left ∧
      s.follow true p (names.map .name) = real ++ left ∧ s.Missing real left := by
  induction names generalizing p e with
  | nil => exact ⟨p, e, [], [], hp, rfl, by simp [follow], s.missing_nil p⟩
  | cons n names ih =>
      rw [List.map_cons, follow]
      split
      · next real hr =>
          obtain ⟨e', hreal⟩ := real_of_realPath (Or.inl (RealPath.isAbsolute_toPath _)) hr
          obtain ⟨real', e'', taken, left, hreal', hnames, hfollow, hleft⟩ := ih hreal
          exact ⟨real', e'', n :: taken, left, hreal', by rw [hnames]; rfl, hfollow, hleft⟩
      · next error hr =>
          refine ⟨p, e, [], n :: names, hp, rfl, ?_, missing_cons hr names⟩
          rw [follow_false_names]
          simp

/-! ### Places that stay as they are -/

theorem canonicalize_toPath (p : RealPath) :
    s.canonicalize (RealPath.toPath p) =
      match s.realPath (RealPath.toPath p) with
      | .ok real => real
      | .error _ => s.follow true [] (p.map .name) := by
  rw [canonicalize, absolute, if_pos (RealPath.isAbsolute_toPath p), RealPath.components_toPath]
  rfl

/-- A path that spells out a place has a settled one. -/
theorem settled_canonicalize_toPath (p : RealPath) :
    s.Settled (s.canonicalize (RealPath.toPath p)) := by
  rw [canonicalize_toPath]
  split
  · next real hr =>
      obtain ⟨e, hreal⟩ := real_of_realPath (Or.inl (RealPath.isAbsolute_toPath p)) hr
      exact settled_of_real hreal
  · obtain ⟨real, e, -, left, hreal, -, hfollow, hleft⟩ := follow_names p s.disk.through_nil.real
    rw [hfollow]
    exact settled_append hreal hleft

/-- **The settled places are those that stay as they are.** -/
theorem canonicalize_toPath_eq_iff {p : RealPath} :
    s.canonicalize (RealPath.toPath p) = p ↔ s.Settled p := by
  constructor
  · intro h
    rw [← h]
    exact settled_canonicalize_toPath p
  · intro h
    rw [canonicalize_toPath]
    split
    · next real hr => exact h.realPath_eq hr
    · simpa using Settled.follow_eq (p := []) h

/-! ### When canonical places are settled -/

/-- The components behind the first name that leads nowhere, if components are followed from a
place. -/
def beyond (s : Site) : RealPath → List Component → List Component
  | _, [] => []
  | _, .top :: rest => s.beyond [] rest
  | place, .here :: rest => s.beyond place rest
  | place, .up :: rest => s.beyond place.dropLast rest
  | place, .name n :: rest =>
      match s.realPath (RealPath.toPath (place ++ [n])) with
      | .ok real => s.beyond real rest
      | .error _ => rest

/-- Components that are names, if none is a double dot, the beginning of a path aside. -/
theorem eq_map_name {components : List Component}
    (hc : ∀ c ∈ components, c = .up ∨ ∃ n, c = .name n) (h : .up ∉ components) :
    ∃ names : RealPath, components = names.map .name := by
  induction components with
  | nil => exact ⟨[], rfl⟩
  | cons c rest ih =>
      obtain ⟨names, hnames⟩ := ih (fun c hc' => hc c (List.mem_cons_of_mem _ hc')) fun hu =>
        h (List.mem_cons_of_mem _ hu)
      rcases hc c (by simp) with rfl | ⟨n, rfl⟩
      · exact absurd List.mem_cons_self h
      · exact ⟨n :: names, by rw [hnames]; rfl⟩

/-- Following components from a real place leads to a settled one, unless a double dot stands behind a
name that leads nowhere. -/
theorem settled_follow {p : RealPath} {e : Entry} {components : List Component}
    (hp : s.disk.Real p e) (hc : ∀ c ∈ components, c = .up ∨ ∃ n, c = .name n)
    (h : .up ∉ s.beyond p components) :
    s.Settled (s.follow true p components) := by
  induction components generalizing p e with
  | nil => exact settled_of_real hp
  | cons c rest ih =>
      have hc' : ∀ c ∈ rest, c = .up ∨ ∃ n, c = .name n := fun c hc' =>
        hc c (List.mem_cons_of_mem _ hc')
      rcases hc c (by simp) with rfl | ⟨n, rfl⟩
      · rw [follow]
        exact ih hp.through.real hc' h
      · cases hr : s.realPath (RealPath.toPath (p ++ [n])) with
        | ok real =>
            simp only [beyond, hr] at h
            simp only [follow, hr]
            obtain ⟨e', hreal⟩ := real_of_realPath (Or.inl (RealPath.isAbsolute_toPath _)) hr
            exact ih hreal hc' h
        | error error =>
            simp only [beyond, hr] at h
            -- only names are left, and they are put behind the place as they are
            obtain ⟨names, rfl⟩ := eq_map_name hc' h
            simp only [follow, hr, follow_false_names, List.append_assoc]
            exact settled_append hp (missing_cons hr names)

/-- A path that is seen from a place is absolute. -/
theorem isAbsolute_toPath_join (dir : RealPath) (p : Path) :
    ((RealPath.toPath dir).join p).isAbsolute = true := by
  rw [Path.join]
  split
  · next h => exact h
  · split <;> simp [Path.isAbsolute, RealPath.toPath, RealPath.text_toList]

theorem isAbsolute_absolute (s : Site) (p : Path) : (s.absolute p).isAbsolute = true := by
  rw [absolute]
  split
  · next h => exact h
  · exact isAbsolute_toPath_join s.cwd p

/-- The canonical place of a path is settled if the path leads somewhere, or if no double dot stands
behind the first name that leads nowhere. -/
theorem settled_canonicalize (hs : s.Grounded) {p : Path}
    (h : s.exists? p = true ∨ .up ∉ s.beyond [] (s.absolute p).components) :
    s.Settled (s.canonicalize p) := by
  rw [canonicalize]
  split
  · next real hr =>
      obtain ⟨e, hreal⟩ := real_of_realPath (Or.inr hs) hr
      exact settled_of_real hreal
  · next error hr =>
      have hup : .up ∉ s.beyond [] (s.absolute p).components := by
        refine h.resolve_left fun hexists => ?_
        obtain ⟨place, hplace⟩ := exists?_eq_true_iff.1 hexists
        rw [hr] at hplace
        cases hplace
      rw [Path.components, if_pos (s.isAbsolute_absolute p)] at hup ⊢
      rw [follow]
      exact settled_follow s.disk.through_nil.real (fun _ => Path.up_or_name_of_mem) hup

/-! ### Making canonical twice -/

theorem abs_ref_toPath (s : Site) (e : RealPath) (root : Path) :
    (s.ref (RealPath.toPath e) root).abs = s.canonicalize (RealPath.toPath e) := by
  simp [ref]

theorem ref_eq_iff {p root : Path} {r : FileRef} (hp : p.isAbsolute = true) :
    s.ref p root = r ↔ s.canonicalize p = r.abs ∧ s.canonicalize root = r.root := by
  cases r
  simp [ref, hp]

/-- **Making a path canonical twice is the same as once if and only if no place on the way to its
canonical place is a link that leads somewhere**, and likewise for references, with the root besides.
Only a double dot behind a name that leads nowhere can lead to such a link. -/
theorem canonicalize_idem_iff (s : Site) (hs : s.Grounded) (p root : Path) :
    (s.canonicalize (RealPath.toPath (s.canonicalize p)) = s.canonicalize p ↔
        s.Settled (s.canonicalize p)) ∧
      (s.ref (RealPath.toPath (s.ref p root).abs) (RealPath.toPath (s.ref p root).root) =
          s.ref p root ↔
        s.Settled (s.ref p root).abs ∧ s.Settled (s.ref p root).root) ∧
      (s.exists? p = true ∨ .up ∉ s.beyond [] (s.absolute p).components →
        s.Settled (s.canonicalize p)) := by
  refine ⟨?_, ?_, settled_canonicalize hs⟩
  · exact canonicalize_toPath_eq_iff
  · rw [ref_eq_iff (RealPath.isAbsolute_toPath _), canonicalize_toPath_eq_iff,
      canonicalize_toPath_eq_iff]

/-- A directory and a link to it. -/
def linkedSite : Site where
  disk := { entries := [(.of ["link"], .link ⟨"/real"⟩), (.of ["real"], .directory)] }
  cwd := []

/-- Behind a name that leads nowhere, a double dot leads back to the link, which stays. -/
theorem canonicalize_twice_ne :
    linkedSite.canonicalize ⟨"/missing/../link"⟩ = .of ["link"] ∧
      linkedSite.canonicalize (RealPath.toPath (.of ["link"])) = .of ["real"] ∧
      linkedSite.ref (RealPath.toPath (linkedSite.ref ⟨"missing/../link"⟩ ⟨"/"⟩).abs)
          (RealPath.toPath (linkedSite.ref ⟨"missing/../link"⟩ ⟨"/"⟩).root) ≠
        linkedSite.ref ⟨"missing/../link"⟩ ⟨"/"⟩ := by
  decide +kernel

theorem canonicalize_idem_iff_linkedSite :
    linkedSite.Grounded ∧
      (linkedSite.canonicalize
            (RealPath.toPath (linkedSite.canonicalize ⟨"/link/missing/inner"⟩)) =
          linkedSite.canonicalize ⟨"/link/missing/inner"⟩ ↔
        linkedSite.Settled (linkedSite.canonicalize ⟨"/link/missing/inner"⟩)) ∧
      linkedSite.Settled (linkedSite.canonicalize ⟨"/link/missing/inner"⟩) :=
  have hs : linkedSite.Grounded := linkedSite.disk.through_nil
  have h := canonicalize_idem_iff linkedSite hs ⟨"/link/missing/inner"⟩ ⟨"/"⟩
  ⟨hs, h.1, h.2.2 (.inr (by decide +kernel))⟩

end Site

end ImportAtlas
