import ImportAtlas.Disk.Basic

/-!
# Places written as paths

A place is written as a path by its names with separators between them. Reading the path gives them
back: as components, and as the steps in which it is followed.

Main results:

* `ImportAtlas.RealPath.components_toPath`, `ImportAtlas.RealPath.steps_toPath` — **writing a place and
  reading it gives its names**.
-/

set_option autoImplicit false

namespace ImportAtlas

/-! ### Names -/

theorem isName_iff {n : String} :
    isName n = true ↔ n ≠ "" ∧ n ≠ "." ∧ n ≠ ".." ∧ '/' ∉ n.toList := by
  simp [isName, and_assoc]

theorem Name.not_mem_text (n : Name) : '/' ∉ n.text.toList := (isName_iff.1 n.isName_text).2.2.2

theorem Name.text_ne_empty (n : Name) : n.text ≠ "" := (isName_iff.1 n.isName_text).1

theorem Name.text_ne_dot (n : Name) : n.text ≠ "." := (isName_iff.1 n.isName_text).2.1

@[simp] theorem Path.ofPiece?_text (n : Name) : ofPiece? n.text = some (.name n) := dif_pos n.isName_text

@[simp] theorem Step.ofPiece?_text (n : Name) : ofPiece? n.text = some (.name n) := dif_pos n.isName_text

namespace RealPath

@[simp] theorem texts_nil : texts [] = [] := rfl

@[simp] theorem texts_cons (n : Name) (p : RealPath) : texts (n :: p) = n.text :: texts p := rfl

@[simp] theorem texts_append (p q : RealPath) : texts (p ++ q) = texts p ++ texts q := List.map_append

@[simp] theorem texts_eq_nil_iff {p : RealPath} : texts p = [] ↔ p = [] := List.map_eq_nil_iff

@[simp] theorem texts_of (names : List String) (h : names.all isName = true) :
    texts (of names h) = names := by
  simp [texts, of, List.map_pmap]

theorem not_mem_of_mem_texts {p : RealPath} {text : String} (h : text ∈ texts p) :
    '/' ∉ text.toList := by
  obtain ⟨n, -, rfl⟩ := List.mem_map.1 h
  exact n.not_mem_text

/-- What is read from the texts of a place, if something is read from the text of each name. -/
theorem filterMap_texts {α : Type} {f : String → Option α} {g : Name → α}
    (h : ∀ n : Name, f n.text = some (g n)) (p : RealPath) : (texts p).filterMap f = p.map g := by
  induction p with
  | nil => rfl
  | cons n p ih => rw [texts_cons, List.filterMap_cons_some (h n), ih, List.map_cons]

end RealPath

theorem Path.filterMap_ofPiece? (p : RealPath) :
    (RealPath.texts p).filterMap ofPiece? = p.map .name := RealPath.filterMap_texts ofPiece?_text p

theorem Step.filterMap_ofPiece? (p : RealPath) :
    (RealPath.texts p).filterMap ofPiece? = p.map .name := RealPath.filterMap_texts ofPiece?_text p

/-- Apart from the beginning, a component is a double dot or a name. -/
theorem Path.up_or_name_of_mem {pieces : List String} {c : Component} (h : c ∈ pieces.filterMap ofPiece?) :
    c = .up ∨ ∃ n, c = .name n := by
  obtain ⟨piece, -, hpiece⟩ := List.mem_filterMap.1 h
  rw [ofPiece?] at hpiece
  split at hpiece
  · cases hpiece
    exact .inr ⟨_, rfl⟩
  · split at hpiece <;> cases hpiece
    exact .inl rfl

/-- What stands between separators holds none. -/
theorem Path.not_mem_of_mem_splitOn {c : Char} {l piece : List Char} (h : piece ∈ l.splitOn c) :
    c ∉ piece := by
  induction l generalizing piece with
  | nil =>
      rw [List.splitOn_nil, List.mem_singleton] at h
      simp [h]
  | cons d l ih =>
      rw [List.splitOn_cons_eq_if_modifyHead] at h
      split at h
      · rcases List.mem_cons.1 h with rfl | h
        · simp
        · exact ih h
      · next hd =>
          obtain ⟨first, rest, hs⟩ := List.exists_cons_of_ne_nil (List.splitOn_ne_nil c l)
          rw [hs, List.modifyHead_cons] at h
          rcases List.mem_cons.1 h with rfl | h
          · have hfirst : c ∉ first := ih (by simp [hs])
            have hcd : c ≠ d := fun hcd => hd (by simp [hcd])
            simp [hfirst, hcd]
          · exact ih (by simp [hs, h])

/-- The pieces of a path hold no separator. -/
theorem Path.not_mem_of_mem_pieces {p : Path} {n : String} (h : n ∈ p.pieces) : '/' ∉ n.toList := by
  obtain ⟨piece, hpiece, rfl⟩ := List.mem_map.1 h
  rw [String.toList_ofList]
  exact not_mem_of_mem_splitOn hpiece

/-! ### Reading what was written -/

namespace RealPath

theorem text_toList (p : RealPath) :
    (text p).toList = '/' :: ['/'].intercalate ((texts p).map String.toList) := by
  simp [text, String.toList_append, String.toList_intercalate]

@[simp] theorem isAbsolute_toPath (p : RealPath) : (toPath p).isAbsolute = true := by
  simp [Path.isAbsolute, toPath, text_toList]

/-- Pieces with separators between them are split into these pieces. -/
theorem splitOn_intercalate_pieces {pieces : List String} (hp : pieces ≠ [])
    (h : ∀ n ∈ pieces, '/' ∉ n.toList) :
    ((['/'].intercalate (pieces.map String.toList)).splitOn '/').map String.ofList = pieces := by
  rw [List.splitOn_intercalate '/' _ (by simpa using hp)]
  · simp [Function.comp_def]
  · intro l hl
    obtain ⟨n, hmem, rfl⟩ := List.mem_map.1 hl
    exact h n hmem

theorem pieces_toPath {p : RealPath} (hp : p ≠ []) : (toPath p).pieces = "" :: texts p := by
  have hsplit := List.splitOn_append_cons_self (a := '/') []
    (['/'].intercalate ((texts p).map String.toList))
  rw [List.nil_append] at hsplit
  rw [Path.pieces, toPath, text_toList, hsplit, List.map_append,
    splitOn_intercalate_pieces (by simpa using hp) fun _ => not_mem_of_mem_texts]
  rfl

theorem components_eq (p : RealPath) :
    (toPath p).components = .top :: (toPath p).pieces.filterMap Path.ofPiece? := by
  rw [Path.components, if_pos (isAbsolute_toPath p)]

@[simp] theorem components_toPath (p : RealPath) : (toPath p).components = .top :: p.map .name := by
  by_cases hp : p = []
  · subst hp
    decide
  · rw [components_eq, pieces_toPath hp, List.filterMap_cons, Path.filterMap_ofPiece?]
    rfl

/-- A separator at the end leaves an empty piece behind it. -/
theorem getLast?_text_ne {p : RealPath} (hp : p ≠ []) : (text p).toList.getLast? ≠ some '/' := by
  intro hlast
  obtain ⟨front, hfront⟩ := List.getLast?_eq_some_iff.1 hlast
  have hpieces := pieces_toPath hp
  rw [Path.pieces, toPath, hfront, List.splitOn_append_cons_self, List.map_append] at hpieces
  have hlast : (texts p).getLast? = some "" := by
    have hget := congrArg List.getLast? hpieces
    rw [List.getLast?_append, List.getLast?_cons_of_ne_nil (by simpa using hp)] at hget
    exact hget.symm
  obtain ⟨n, -, hn⟩ := List.mem_map.1 (List.mem_of_getLast? hlast)
  exact n.text_ne_empty hn

/-- A place is followed name by name. -/
theorem steps_toPath {p : RealPath} (hp : p ≠ []) : (toPath p).steps = p.map .name := by
  have hlast : (toPath p).text.toList.getLast? ≠ some '/' := getLast?_text_ne hp
  rw [Path.steps, pieces_toPath hp, if_neg hlast, List.append_nil, List.filterMap_cons,
    Step.filterMap_ofPiece?]
  rfl

end RealPath

end ImportAtlas
