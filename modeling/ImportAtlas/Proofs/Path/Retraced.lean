import ImportAtlas.Proofs.Disk.Unlimited
import ImportAtlas.Proofs.Path.Routes

/-!
# Ways that are retraced on a disk

The way from a root to a place is told by their names alone, and no disk is asked. When it is joined to
the root and the canonical place of that is asked for, the disk is. Both agree if root and place are
settled, whatever is there: as long as the root leads to a directory, double dots lead up on the disk as
they do in the text, and otherwise they are not followed on the disk at all. A link on the way would have
to lead somewhere to make a difference.

Main results:

* `ImportAtlas.Site.Takes.spellable` — the system takes the names of a path that it takes;
* `ImportAtlas.Disk.Through.resolve_append` — a way that starts with directories goes on from the last one;
* `ImportAtlas.FileRef.realPath_join_rel` — what the way leads to on the disk;
* `ImportAtlas.FileRef.canonicalize_join_rel` — **the way from the root has the place as its canonical
  place**.
-/

set_option autoImplicit false

namespace ImportAtlas

/-! ### Texts of fewer pieces -/

namespace Path

theorem utf8ByteSize_intercalate_le_cons (n : String) (pieces : List String) :
    ("/".intercalate pieces).utf8ByteSize ≤ ("/".intercalate (n :: pieces)).utf8ByteSize := by
  by_cases h : pieces = []
  · simp [h]
  · rw [String.intercalate_cons_of_ne_nil h, String.utf8ByteSize_append]
    exact Nat.le_add_left _ _

/-- A text of fewer pieces is no longer. -/
theorem utf8ByteSize_intercalate_le {pieces pieces' : List String} (h : pieces.Sublist pieces') :
    ("/".intercalate pieces).utf8ByteSize ≤ ("/".intercalate pieces').utf8ByteSize := by
  induction h with
  | slnil => exact Nat.le_refl _
  | @cons pieces pieces' n _ ih => exact ih.trans (utf8ByteSize_intercalate_le_cons n pieces')
  | @cons_cons pieces pieces' n h ih =>
      by_cases hnil : pieces' = []
      · subst hnil
        rw [List.sublist_nil.1 h]
      · rw [String.intercalate_cons_of_ne_nil hnil, String.utf8ByteSize_append,
          String.utf8ByteSize_append]
        by_cases hnil' : pieces = []
        · subst hnil'
          rw [String.intercalate_singleton]
          omega
        · rw [String.intercalate_cons_of_ne_nil hnil', String.utf8ByteSize_append,
            String.utf8ByteSize_append]
          omega

/-- The characters of a text are separators and those of its pieces. -/
theorem eq_or_mem_of_mem_intercalate {pieces : List String} {c : Char}
    (h : c ∈ ("/".intercalate pieces).toList) : c = '/' ∨ ∃ n ∈ pieces, c ∈ n.toList := by
  induction pieces with
  | nil => simp at h
  | cons n pieces ih =>
      by_cases hnil : pieces = []
      · subst hnil
        exact .inr ⟨n, by simp, by simpa using h⟩
      · rw [String.intercalate_cons_of_ne_nil hnil, String.toList_append, String.toList_append] at h
        rcases List.mem_append.1 h with h | h
        · rcases List.mem_append.1 h with h | h
          · exact .inr ⟨n, by simp, h⟩
          · exact .inl (by simpa using h)
        · exact (ih h).imp_right fun ⟨m, hm, hc⟩ => ⟨m, List.mem_cons_of_mem _ hm, hc⟩

theorem empty_cons_names_sublist {p : Path} (hp : p.isAbsolute = true) :
    ("" :: p.names).Sublist p.pieces := by
  obtain ⟨tail, htail⟩ := List.head?_eq_some_iff.1 (head?_pieces_of_isAbsolute hp)
  rw [names, htail, List.filter_cons_of_neg (by simp)]
  exact List.filter_sublist.cons_cons ""

/-- What a path is joined to another one goes behind all its pieces. -/
theorem exists_pieces_join (p : Path) {q : Path} (hq : q.isAbsolute = false) :
    ∃ front, (p.join q).pieces = front ++ q.pieces := by
  rw [join, hq, if_neg (by simp)]
  split
  · next htext =>
      rcases htext with htext | htext
      · exact ⟨[], by rw [htext, String.empty_append]; rfl⟩
      · obtain ⟨before, hbefore⟩ := exists_append_of_getLast? htext
        exact ⟨(⟨before⟩ : Path).pieces, by rw [hbefore, String.append_empty, pieces_append]⟩
  · exact ⟨p.pieces, pieces_append _ _⟩

/-- A text whose last piece is not empty does not end in a separator. -/
theorem getLast?_text_ne_of_pieces {p : Path} {front : List String} {piece : String}
    (h : p.pieces = front ++ [piece]) (hne : piece ≠ "") : p.text.toList.getLast? ≠ some '/' := by
  intro hlast
  obtain ⟨before, hbefore⟩ := exists_append_of_getLast? hlast
  have hpieces : p.pieces = (⟨before⟩ : Path).pieces ++ [""] := by
    have hempty : (⟨""⟩ : Path).pieces = [""] := pieces_of_not_mem (by simp)
    rw [← hempty, ← pieces_append, ← hbefore]
  rw [hpieces] at h
  exact hne (List.singleton_injective (List.append_inj_right' h rfl)).symm

end Path

namespace Site

/-- The system takes a path of fewer pieces than one that it takes. -/
theorem Takes.of_sublist {p q : Path} (hp : Takes p) (h : q.pieces.Sublist p.pieces) (hq : q.text ≠ "") :
    Takes q := by
  obtain ⟨hnul, -, hsize⟩ := hp
  rw [← Path.intercalate_pieces p] at hnul hsize
  refine ⟨fun hmem => ?_, hq, ?_⟩
  · rw [← Path.intercalate_pieces q] at hmem
    rcases Path.eq_or_mem_of_mem_intercalate hmem with hslash | ⟨n, hn, hc⟩
    · exact absurd hslash (by decide)
    · exact hnul (Path.mem_intercalate (h.subset hn) hc)
  · rw [← Path.intercalate_pieces q]
    exact (Path.utf8ByteSize_intercalate_le h).trans hsize

/-- The system takes a place whose names a path goes through that it takes. -/
theorem Takes.spellable {p : Path} (ht : Takes p) (hp : p.isAbsolute = true) {q : RealPath}
    (h : (RealPath.texts q).Sublist p.names) : Spellable q := by
  by_cases hnil : q = []
  · subst hnil
    exact ⟨by decide, by decide⟩
  · have hsub : (RealPath.toPath q).pieces.Sublist p.pieces := by
      rw [RealPath.pieces_toPath hnil]
      exact (h.cons_cons "").trans (Path.empty_cons_names_sublist hp)
    obtain ⟨hnul, -, hsize⟩ := ht.of_sublist hsub (text_ne_empty q)
    exact ⟨hnul, hsize⟩

end Site

/-! ### Ways through directories -/

namespace Disk

variable {d : Disk}

/-- Double dots lead up through names, one for each. -/
theorem resolve_ups (d : Disk) (links : Nat) (dir names : RealPath) (rest : List Step) :
    d.resolve true links (dir ++ names) (List.replicate names.length .up ++ rest) =
      d.resolve true links dir rest := by
  induction names using List.reverseRecOn with
  | nil => simp
  | append_singleton names n ih =>
      rw [List.length_append, List.length_singleton, List.replicate_succ, List.cons_append, resolve_up,
        ← List.append_assoc, List.dropLast_concat, ih]

/-- A way that starts with directories goes on from the last one. -/
theorem Through.resolve_append {dir names : RealPath} (h : d.Through (dir ++ names))
    (hshort : ∀ n ∈ names, n.Short) (links : Nat) (rest : List Step) :
    d.resolve true links dir (names.map .name ++ rest) = d.resolve true links (dir ++ names) rest := by
  induction names generalizing dir with
  | nil => simp
  | cons n names ih =>
      have happ : dir ++ n :: names = dir ++ [n] ++ names := by simp
      rw [happ] at h
      have hentry := h _ (List.prefix_append (dir ++ [n]) names)
      rw [List.map_cons, List.cons_append, resolve_enter (hshort n (by simp)) links hentry,
        ih h fun m hm => hshort m (by simp [hm]), happ]

end Disk

/-! ### Following one by one -/

namespace Site

variable {s : Site}

/-- The names of a settled place are followed to it, whether they are looked up or not. -/
theorem Settled.exists_follow_append (p names : RealPath) (h : s.Settled (p ++ names)) (onDisk : Bool)
    (rest : List Component) :
    ∃ onDisk', s.follow onDisk p (names.map .name ++ rest) = s.follow onDisk' (p ++ names) rest := by
  induction names generalizing p onDisk with
  | nil => exact ⟨onDisk, by simp⟩
  | cons n names ih =>
      have happ : p ++ n :: names = p ++ [n] ++ names := by simp
      rw [happ] at h ⊢
      rw [List.map_cons, List.cons_append]
      cases onDisk with
      | false =>
          rw [follow]
          exact ih _ h false
      | true =>
          rw [follow]
          split
          · next real hr =>
              have hreal : real = p ++ [n] :=
                (h.of_prefix (List.prefix_append _ _)).realPath_eq hr
              rw [hreal]
              exact ih _ h true
          · exact ih _ h false

theorem follow_ups (s : Site) (onDisk : Bool) (p names : RealPath) (rest : List Component) :
    s.follow onDisk (p ++ names) (List.replicate names.length .up ++ rest) = s.follow onDisk p rest := by
  induction names using List.reverseRecOn with
  | nil => simp
  | append_singleton names n ih =>
      rw [List.length_append, List.length_singleton, List.replicate_succ, List.cons_append, follow,
        ← List.append_assoc, List.dropLast_concat, ih]

end Site

/-! ### From the root to the place -/

namespace FileRef

variable {s : Site} {r : FileRef}

/-- The names of the way are its steps, or a dot if there are none. -/
theorem names_rel (r : FileRef) : (⟨r.rel⟩ : Path).names = if r.steps = [] then ["."] else r.steps := by
  rw [← r.pieces_rel, Path.names, List.filter_eq_self]
  intro n hn
  simpa using r.ne_empty_of_mem_pieces_rel hn

theorem names_join_rel (r : FileRef) :
    ((RealPath.toPath r.root).join ⟨r.rel⟩).names =
      RealPath.texts r.root ++ (⟨r.rel⟩ : Path).names := by
  rw [Path.names_join _ r.isAbsolute_rel, Path.names_toPath]

/-- The way does not end in a separator. -/
theorem exists_pieces_rel (r : FileRef) :
    ∃ others last, (⟨r.rel⟩ : Path).pieces = others ++ [last] ∧ last ≠ "" := by
  have hne := Path.pieces_ne_nil ⟨r.rel⟩
  exact ⟨_, _, (List.dropLast_concat_getLast hne).symm,
    r.ne_empty_of_mem_pieces_rel (List.getLast_mem hne)⟩

theorem steps_rel (r : FileRef) :
    (⟨r.rel⟩ : Path).steps = (⟨r.rel⟩ : Path).names.filterMap Step.ofPiece? := by
  obtain ⟨others, last, hlast, hne⟩ := r.exists_pieces_rel
  exact Path.steps_eq_names (Path.getLast?_text_ne_of_pieces hlast hne)

theorem steps_join_rel (r : FileRef) :
    ((RealPath.toPath r.root).join ⟨r.rel⟩).steps = r.root.map .name ++ (⟨r.rel⟩ : Path).steps := by
  obtain ⟨front, hfront⟩ := Path.exists_pieces_join (RealPath.toPath r.root) r.isAbsolute_rel
  obtain ⟨others, last, hlast, hne⟩ := r.exists_pieces_rel
  rw [hlast, ← List.append_assoc] at hfront
  rw [Path.steps_eq_names (Path.getLast?_text_ne_of_pieces hfront hne), r.names_join_rel,
    List.filterMap_append, Step.filterMap_ofPiece?, r.steps_rel]

/-- A way goes up and down, or it is a dot. -/
theorem Parting.steps_rel {shared below beyond : RealPath} (h : r.Parting shared below beyond) :
    (⟨r.rel⟩ : Path).steps =
      if r.steps = [] then [.stay] else List.replicate beyond.length .up ++ below.map .name := by
  have hup : Step.ofPiece? ".." = some .up := by decide
  rw [r.steps_rel, r.names_rel]
  split
  · decide
  · rw [h.steps_eq, List.filterMap_append, List.filterMap_replicate_of_some hup,
      Step.filterMap_ofPiece?]

theorem components_join_rel {shared below beyond : RealPath} (h : r.Parting shared below beyond) :
    ((RealPath.toPath r.root).join ⟨r.rel⟩).components =
      .top :: (r.root.map .name ++ (List.replicate beyond.length .up ++ below.map .name)) := by
  have hempty : Path.ofPiece? "" = none := by decide
  rw [Path.components, if_pos (Site.isAbsolute_toPath_join _ _), ← Path.filterMap_names _ hempty,
    r.names_join_rel, List.filterMap_append, Path.filterMap_ofPiece?, Path.filterMap_names _ hempty,
    r.filterMap_pieces_rel h]

/-- From the root, the way goes on from the last directory that is shared. -/
theorem resolve_steps_rel {shared below beyond : RealPath} (h : r.Parting shared below beyond)
    (d : Disk) (links : Nat) :
    d.resolve true links r.root (⟨r.rel⟩ : Path).steps = d.resolve true links shared (below.map .name) := by
  rw [h.steps_rel]
  split
  · next hnil =>
      rw [h.steps_eq, RealPath.texts, List.append_eq_nil_iff, List.replicate_eq_nil_iff,
        List.map_eq_nil_iff, List.length_eq_zero_iff] at hnil
      rw [Disk.resolve_stay, h.root, hnil.1, hnil.2, List.append_nil, List.map_nil]
  · rw [h.root, Disk.resolve_ups]

/-- The names of the place are names that the way from the top through the root goes through. -/
theorem texts_abs_sublist_names (r : FileRef) :
    (RealPath.texts r.abs).Sublist ((RealPath.toPath r.root).join ⟨r.rel⟩).names := by
  obtain ⟨shared, below, beyond, h⟩ := r.exists_parting
  have hsteps : (RealPath.texts below).Sublist (⟨r.rel⟩ : Path).names := by
    rw [r.names_rel]
    split
    · next hnil =>
        rw [h.steps_eq] at hnil
        rw [(List.append_eq_nil_iff.1 hnil).2]
        exact List.nil_sublist _
    · rw [h.steps_eq]
      exact List.sublist_append_right _ _
  rw [r.names_join_rel, h.abs, h.root, RealPath.texts_append, RealPath.texts_append]
  exact (List.sublist_append_left _ _).append hsteps

/-- If the way from the root leads anywhere on the disk, it leads to the place. -/
theorem realPath_join_rel (habs : s.Settled r.abs) (hroot : s.Settled r.root) {real : RealPath}
    (h : s.realPath ((RealPath.toPath r.root).join ⟨r.rel⟩) = .ok real) : real = r.abs := by
  obtain ⟨shared, below, beyond, hparting⟩ := r.exists_parting
  have habsolute : ((RealPath.toPath r.root).join ⟨r.rel⟩).isAbsolute = true :=
    Site.isAbsolute_toPath_join _ _
  obtain ⟨e, he⟩ := Site.realPath_eq_ok_iff.1 h
  obtain ⟨htakes, hleads⟩ := Site.locate_eq_ok_iff.1 (Site.find_eq_ok_iff.1 he)
  rw [if_pos habsolute, r.steps_join_rel] at hleads
  have hne : (⟨r.rel⟩ : Path).steps ≠ [] := by
    rw [hparting.steps_rel]
    split
    · simp
    · next hsteps =>
        rw [hparting.steps_eq] at hsteps
        simpa using hsteps
  obtain ⟨dir, hfirst, hothers⟩ := hleads.split hne
  -- the way goes on behind the root, so the root leads to a directory: to itself, as it is settled
  have hspell : Site.Spellable r.root :=
    htakes.spellable habsolute (r.names_join_rel ▸ List.sublist_append_left _ _)
  have hdir : s.realPath (RealPath.toPath r.root) = .ok dir :=
    Site.realPath_toPath_iff.2 ⟨hspell, _, Disk.resolve_eq_ok_iff.2 hfirst⟩
  obtain rfl : dir = r.root := hroot.realPath_eq hdir
  have hreaches : s.disk.Reaches [] (r.root.map .name) r.root .directory := ⟨_, hfirst⟩
  -- from there it goes up and down as the way from the top to the place goes down
  have hthrough : s.disk.Through ([] ++ shared) :=
    hreaches.real.through_directory.of_prefix (hparting.root ▸ List.prefix_append _ _)
  have hshort : ∀ n ∈ shared, n.Short := fun n hn =>
    hreaches.short n (by rw [hparting.root]; exact List.mem_append_left _ hn)
  have hresolve : s.disk.resolve true linkLimit [] (r.abs.map .name) = .ok (real, some e) := by
    rw [hparting.abs, List.map_append, hthrough.resolve_append hshort, List.nil_append,
      ← resolve_steps_rel hparting]
    exact Disk.resolve_eq_ok_iff.2 hothers
  have hspell : Site.Spellable r.abs := htakes.spellable habsolute r.texts_abs_sublist_names
  exact habs.realPath_eq (Site.realPath_toPath_iff.2 ⟨hspell, e, hresolve⟩)

/-- **The way from the root has the place as its canonical place**, if both are settled. -/
theorem canonicalize_join_rel (habs : s.Settled r.abs) (hroot : s.Settled r.root) :
    s.canonicalize ((RealPath.toPath r.root).join ⟨r.rel⟩) = r.abs := by
  rw [Site.canonicalize]
  split
  · next real h => exact realPath_join_rel habs hroot h
  · obtain ⟨shared, below, beyond, h⟩ := r.exists_parting
    rw [Site.absolute, if_pos (Site.isAbsolute_toPath_join _ _), components_join_rel h, Site.follow]
    -- down to the root, up to the last directory that is shared, and down to the place
    obtain ⟨onDisk, hdown⟩ := Site.Settled.exists_follow_append [] r.root hroot true
      (List.replicate beyond.length .up ++ below.map .name)
    rw [hdown, List.nil_append, h.root, Site.follow_ups]
    rw [h.abs] at habs ⊢
    obtain ⟨onDisk', hplace⟩ := habs.exists_follow_append shared below onDisk []
    rw [List.append_nil] at hplace
    rw [hplace, Site.follow]

end FileRef

end ImportAtlas
