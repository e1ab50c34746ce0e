import ImportAtlas.Proofs.Path.Routes

/-!
# Texts cut in the middle

A text that is longer than a given length is cut in the middle: its beginning and its end stay, and two
dots mark the cut. The end gets two thirds of the length, or as much as the last name needs if that is to
be whole, and the beginning gets what is left. Then the text has the given length, unless the last name
alone does not leave room for the two dots.

Such a name is shown behind two dots even if nothing, or nothing but a separator, stands before it. Then
what should be cut gets longer, which happens in no other case.

Main definitions:

* `ImportAtlas.Path.lastPiece`, `ImportAtlas.Path.nameLength` — what stands behind the last separator, and
  its length if it is a name;
* `ImportAtlas.Elision` — a text with two dots in the place of its middle;
* `ImportAtlas.FileRef.abbreviate?` — cutting that fails where a text has not enough characters.

Main results:

* `ImportAtlas.FileRef.length_fileName?_shortest` — the last name of a text that is shown;
* `ImportAtlas.FileRef.abbreviate_eq` — how many characters stay at both ends;
* `ImportAtlas.FileRef.abbreviate_cuts_the_middle` — **what comes of cutting**;
* `ImportAtlas.FileRef.abbreviate_shortens_iff` — **when cutting makes a text no longer**;
* `ImportAtlas.FileRef.abbreviate_lengthens` — a text that gets longer.
-/

set_option autoImplicit false

namespace ImportAtlas

/-! ### The last piece of a path -/

namespace Path

/-- What stands behind the last separator of a path. -/
def lastPiece (p : Path) : String := p.pieces.getLast p.pieces_ne_nil

/-- The number of characters behind the last separator, if they are a name and not dots. -/
def nameLength (p : Path) : Nat :=
  if p.lastPiece = "." ∨ p.lastPiece = ".." then 0 else p.lastPiece.length

theorem lastPiece_of_pieces {p : Path} {front : List String} {piece : String}
    (h : p.pieces = front ++ [piece]) : p.lastPiece = piece := by
  simp only [lastPiece, h, List.getLast_concat]

theorem exists_pieces_eq (p : Path) : ∃ front, p.pieces = front ++ [p.lastPiece] :=
  ⟨_, (List.dropLast_concat_getLast p.pieces_ne_nil).symm⟩

/-- Before the last piece there is a separator, or nothing. -/
theorem text_eq_lastPiece (p : Path) :
    p.text = p.lastPiece ∨ ∃ before, p.text = before ++ "/" ++ p.lastPiece := by
  obtain ⟨front, hfront⟩ := p.exists_pieces_eq
  rw [← intercalate_pieces p, hfront]
  by_cases hnil : front = []
  · left
    simp [hnil]
  · right
    refine ⟨"/".intercalate front, ?_⟩
    rw [String.intercalate_append_of_ne_nil hnil (by simp), String.intercalate_singleton]

theorem lastPiece_suffix (p : Path) : p.lastPiece.toList <:+ p.text.toList := by
  rcases p.text_eq_lastPiece with h | ⟨before, h⟩
  · rw [← h]
  · rw [h, String.toList_append]
    exact List.suffix_append _ _

/-- At most one character stands before the last piece if nothing does or only a separator. -/
theorem length_text_le_iff {p : Path} :
    p.text.length ≤ p.lastPiece.length + 1 ↔ p.text = p.lastPiece ∨ p.text = "/" ++ p.lastPiece := by
  constructor
  · intro h
    rcases p.text_eq_lastPiece with htext | ⟨before, htext⟩
    · exact .inl htext
    · right
      rw [htext, String.length_append, String.length_append] at h
      have hone : "/".length = 1 := by decide
      have hempty : before = "" := String.length_eq_zero_iff.1 (by omega)
      rw [htext, hempty, String.empty_append]
  · rintro (h | h)
    · rw [h]
      exact Nat.le_add_right _ _
    · rw [h, String.length_append, Nat.add_comm]
      exact Nat.le_refl _

theorem nameLength_le (p : Path) : p.nameLength ≤ p.text.toList.length := by
  rw [nameLength]
  split
  · exact Nat.zero_le _
  · rw [← String.length_toList]
    exact p.lastPiece_suffix.length_le

/-- Dots are short, so what stands behind the last separator is no longer than its name, if at all. -/
theorem length_lastPiece_le (p : Path) : p.lastPiece.length ≤ max 2 p.nameLength := by
  rw [nameLength]
  split
  · next hdots =>
      rcases hdots with hdots | hdots
      · rw [hdots]
        decide
      · rw [hdots]
        decide
  · exact Nat.le_max_right _ _

theorem length_lastPiece (p : Path) (h : p.nameLength ≠ 0) : p.lastPiece.length = p.nameLength := by
  rw [nameLength] at h ⊢
  split at h
  · exact absurd rfl h
  · next hdots => rw [if_neg hdots]

/-- The name of a file is the last piece of its path, unless that has no meaning or goes up. -/
theorem length_fileName? {p : Path} (hempty : p.lastPiece ≠ "") (hdot : p.lastPiece ≠ ".") :
    (p.fileName?.getD "").length = p.nameLength := by
  obtain ⟨front, hfront⟩ := p.exists_pieces_eq
  have hlast : ∀ c, ofPiece? p.lastPiece = some c → p.components.getLast? = some c := by
    intro c hc
    rw [components, hfront, List.filterMap_append, List.filterMap_cons_some hc, List.filterMap_nil]
    split
    · rw [← List.cons_append, List.getLast?_concat]
    · split
      · rw [← List.cons_append, List.getLast?_concat]
      · rw [List.getLast?_concat]
  rw [fileName?, nameLength]
  by_cases hup : p.lastPiece = ".."
  · rw [hlast .up (by rw [hup]; decide), if_pos (.inr hup)]
    rfl
  · have hslash : '/' ∉ p.lastPiece.toList := not_mem_of_mem_pieces (p := p) (by simp [hfront])
    have hname : isName p.lastPiece = true := isName_iff.2 ⟨hempty, hdot, hup, hslash⟩
    rw [hlast (.name ⟨p.lastPiece, hname⟩) (dif_pos hname), if_neg (by simp [hdot, hup])]
    rfl

end Path

/-! ### Cutting -/

/-- A text whose middle is cut out: its beginning and its end stay, with two dots between them. -/
structure Elision (text short before cut behind : List Char) : Prop where
  text_eq : text = before ++ cut ++ behind
  short_eq : short = before ++ ['.', '.'] ++ behind

theorem Elision.length_add {text short before cut behind : List Char}
    (h : Elision text short before cut behind) : short.length + cut.length = text.length + 2 := by
  rw [h.text_eq, h.short_eq]
  simp only [List.length_append, List.length_cons, List.length_nil]
  omega

theorem Elision.length_short {text short before cut behind : List Char}
    (h : Elision text short before cut behind) : short.length = before.length + 2 + behind.length := by
  rw [h.short_eq]
  simp only [List.length_append, List.length_cons, List.length_nil]

/-- Characters at both ends of a text that do not overlap leave a middle. -/
theorem exists_elision {text : List Char} {beginning ending : Nat}
    (h : beginning + ending ≤ text.length) :
    ∃ before cut behind, Elision text
        (text.take beginning ++ ['.', '.'] ++ text.drop (text.length - ending)) before cut behind ∧
      before.length = beginning ∧ behind.length = ending := by
  have hbehind : text.drop (text.length - ending) =
      (text.drop beginning).drop (text.length - ending - beginning) := by
    rw [List.drop_drop]
    congr 1
    omega
  refine ⟨text.take beginning, (text.drop beginning).take (text.length - ending - beginning),
    text.drop (text.length - ending), ⟨?_, rfl⟩, List.length_take_of_le (by omega), ?_⟩
  · rw [hbehind, List.append_assoc, List.take_append_drop, List.take_append_drop]
  · rw [List.length_drop]
    omega

namespace FileRef

/-- The first characters of a text, if it has so many. -/
def first? (n : Nat) (text : List Char) : Option (List Char) :=
  if n ≤ text.length then some (text.take n) else none

/-- The last characters of a text, if it has so many. -/
def last? (n : Nat) (text : List Char) : Option (List Char) :=
  if n ≤ text.length then some (text.drop (text.length - n)) else none

/-- The shortest text cut in the middle, if it has as many characters as are to be left at each end. -/
def abbreviate? (r : FileRef) (length : Nat) (wholeName : Bool) : Option String :=
  let length := max length leastLength
  let chars := r.shortest.toList
  if chars.length ≤ length then some r.shortest
  else do
    let nameLength := ((Path.fileName? ⟨r.shortest⟩).getD "").length
    let ending := length * 2 / 3
    let ending := if wholeName then max ending nameLength else ending
    let ending := min ending chars.length
    let before ← first? (length - (ending + 2)) chars
    let behind ← last? ending chars
    return String.ofList (before ++ ['.', '.'] ++ behind)

/-- The number of characters that stay at the end of a text that is cut to a length. -/
def ending (r : FileRef) (limit : Nat) (wholeName : Bool) : Nat :=
  if wholeName then max (limit * 2 / 3) (⟨r.shortest⟩ : Path).nameLength else limit * 2 / 3

section Ending

variable {r : FileRef} {limit : Nat}

theorem le_ending (r : FileRef) (limit : Nat) (wholeName : Bool) :
    limit * 2 / 3 ≤ r.ending limit wholeName := by
  rw [ending]
  split <;> omega

theorem nameLength_le_ending (r : FileRef) (limit : Nat) :
    (⟨r.shortest⟩ : Path).nameLength ≤ r.ending limit true := by
  rw [ending, if_pos rfl]
  exact Nat.le_max_right _ _

/-- No more is left at the end than the text has. -/
theorem ending_le (wholeName : Bool) (h : limit < r.shortest.toList.length) :
    r.ending limit wholeName ≤ r.shortest.toList.length := by
  have hname : (⟨r.shortest⟩ : Path).nameLength ≤ r.shortest.toList.length := Path.nameLength_le _
  rw [ending]
  split <;> omega

/-- There is room for the two dots, unless the last name leaves none. -/
theorem ending_add_two_le {wholeName : Bool} (hlimit : 16 ≤ limit)
    (h : wholeName = true → (⟨r.shortest⟩ : Path).nameLength + 2 ≤ limit) :
    r.ending limit wholeName + 2 ≤ limit := by
  rw [ending]
  split
  · next hwhole =>
      have hname := h hwhole
      omega
  · omega

theorem ending_eq_nameLength (h : limit < (⟨r.shortest⟩ : Path).nameLength + 2) :
    r.ending limit true = (⟨r.shortest⟩ : Path).nameLength := by
  rw [ending, if_pos rfl]
  omega

end Ending

section Cut

variable (r : FileRef) {length : Nat} {wholeName : Bool}

/-- The last name of a text that is shown is what stands behind its last separator, if that is no dot. -/
theorem length_fileName?_shortest :
    ((Path.fileName? ⟨r.shortest⟩).getD "").length = (⟨r.shortest⟩ : Path).nameLength := by
  rw [shortest_eq]
  split
  · by_cases hsteps : r.steps = []
    · rw [rel_eq_dot_of_steps hsteps]
      decide
    · obtain ⟨front, hfront⟩ := Path.exists_pieces_eq ⟨r.rel⟩
      rw [pieces_rel_of_ne hsteps] at hfront
      have hmem : (⟨r.rel⟩ : Path).lastPiece ∈ r.steps := by rw [hfront]; simp
      rcases mem_steps hmem with hup | ⟨name, hname⟩
      · exact Path.length_fileName? (by rw [hup]; decide) (by rw [hup]; decide)
      · exact Path.length_fileName? (hname ▸ name.text_ne_empty) (hname ▸ name.text_ne_dot)
  · rcases List.eq_nil_or_concat' r.abs with hnil | ⟨front, name, hconcat⟩
    · rw [hnil]
      decide
    · have hpieces : (RealPath.toPath r.abs).pieces = "" :: RealPath.texts front ++ [name.text] := by
        rw [RealPath.pieces_toPath (by simp [hconcat]), hconcat, RealPath.texts_append]
        rfl
      have hlast : (⟨RealPath.text r.abs⟩ : Path).lastPiece = name.text :=
        Path.lastPiece_of_pieces hpieces
      exact Path.length_fileName? (hlast ▸ name.text_ne_empty) (hlast ▸ name.text_ne_dot)

/-- How many characters stay at both ends of a text that is cut. -/
theorem abbreviate_eq (wholeName : Bool) (h : max length 16 < r.shortest.toList.length) :
    (r.abbreviate length wholeName).toList =
      r.shortest.toList.take (max length 16 - (r.ending (max length 16) wholeName + 2)) ++ ['.', '.'] ++
        r.shortest.toList.drop (r.shortest.toList.length - r.ending (max length 16) wholeName) := by
  have hending := Nat.min_eq_left (ending_le wholeName h)
  rw [ending] at hending ⊢
  rw [abbreviate, leastLength, if_neg (Nat.not_le.2 h), String.toList_ofList,
    r.length_fileName?_shortest, hending]

/-- A text that is cut has enough characters at both ends. -/
theorem abbreviate?_eq :
    r.abbreviate? length wholeName = some (r.abbreviate length wholeName) := by
  rw [abbreviate?, leastLength]
  split
  · next h => rw [abbreviate, leastLength, if_pos h]
  · next h =>
      have hlong := Nat.lt_of_not_le h
      have hfits := ending_le wholeName hlong
      have hshort := r.abbreviate_eq wholeName hlong
      have hending := Nat.min_eq_left hfits
      rw [ending] at hending hfits hshort
      dsimp only
      rw [r.length_fileName?_shortest, hending, first?, if_pos (by omega), last?, if_pos hfits]
      refine congrArg some (String.toList_injective ?_)
      rw [String.toList_ofList, hshort]

theorem abbreviate_of_le {r : FileRef} (h : r.shortest.toList.length ≤ max length 16) :
    r.abbreviate length wholeName = r.shortest := if_pos h

/-- A text that is cut is cut in the middle. -/
theorem exists_elision_abbreviate (wholeName : Bool)
    (h : max length 16 < r.shortest.toList.length) :
    ∃ before cut behind,
      Elision r.shortest.toList (r.abbreviate length wholeName).toList before cut behind ∧
        before.length = max length 16 - (r.ending (max length 16) wholeName + 2) ∧
        behind.length = r.ending (max length 16) wholeName := by
  rw [r.abbreviate_eq wholeName h]
  have hending := ending_le wholeName h
  exact exists_elision (by omega)

/-- If there is room for the two dots, the text is cut to the limit. -/
theorem length_abbreviate_of_room (h : max length 16 < r.shortest.toList.length)
    (hroom : ¬(wholeName = true ∧ max length 16 < (⟨r.shortest⟩ : Path).nameLength + 2)) :
    (r.abbreviate length wholeName).toList.length = max length 16 := by
  obtain ⟨before, cut, behind, hcut, hbefore, hbehind⟩ := r.exists_elision_abbreviate wholeName h
  have hending : r.ending (max length 16) wholeName + 2 ≤ max length 16 :=
    ending_add_two_le (Nat.le_max_right length 16)
      fun hwhole => Nat.le_of_not_lt fun hname => hroom ⟨hwhole, hname⟩
  rw [hcut.length_short, hbefore, hbehind]
  omega

/-- If there is none, two dots and the last name are left. -/
theorem length_abbreviate_of_no_room (h : max length 16 < r.shortest.toList.length)
    (hname : max length 16 < (⟨r.shortest⟩ : Path).nameLength + 2) :
    (r.abbreviate length true).toList.length = (⟨r.shortest⟩ : Path).nameLength + 2 := by
  obtain ⟨before, cut, behind, hcut, hbefore, hbehind⟩ := r.exists_elision_abbreviate true h
  rw [hcut.length_short, hbefore, hbehind, ending_eq_nameLength hname]
  omega

end Cut

/-- **What comes of cutting.** No more characters are asked for at either end than the text has. A text
that is not longer than the limit stays as it is. Any other one is cut in the middle: at least two thirds
of the limit stay at the end, and with `wholeName` all that stands behind the last separator. It then has
as many characters as the limit says, unless the last name is to stay whole and leaves no room for the two
dots; in that case nothing stays at the beginning. -/
theorem abbreviate_cuts_the_middle (r : FileRef) (length : Nat) (wholeName : Bool) :
    let limit := max length 16
    let path : Path := ⟨r.shortest⟩
    let text := r.shortest.toList
    let short := (r.abbreviate length wholeName).toList
    r.abbreviate? length wholeName = some (r.abbreviate length wholeName) ∧
      (text.length ≤ limit → short = text) ∧
      (limit < text.length → ∃ before cut behind, Elision text short before cut behind ∧
        limit * 2 / 3 ≤ behind.length ∧ (wholeName = true → path.lastPiece.toList <:+ behind) ∧
        (¬(wholeName = true ∧ limit < path.nameLength + 2) → short.length = limit) ∧
        (wholeName = true ∧ limit < path.nameLength + 2 →
          before = [] ∧ short.length = path.nameLength + 2)) := by
  intro limit path text short
  refine ⟨r.abbreviate?_eq, fun h => congrArg String.toList (abbreviate_of_le h), fun h => ?_⟩
  obtain ⟨before, cut, behind, hcut, (hbefore : before.length = limit - (r.ending limit wholeName + 2)),
    (hbehind : behind.length = r.ending limit wholeName)⟩ :=
    r.exists_elision_abbreviate wholeName h
  have hthirds := r.le_ending limit wholeName
  refine ⟨before, cut, behind, hcut, hbehind ▸ hthirds, fun hwhole => ?_,
    r.length_abbreviate_of_room h, ?_⟩
  · subst hwhole
    refine List.suffix_of_suffix_length_le path.lastPiece_suffix ⟨before ++ cut, hcut.text_eq.symm⟩ ?_
    have hlimit : 16 ≤ limit := Nat.le_max_right _ _
    rw [hbehind, String.length_toList]
    exact path.length_lastPiece_le.trans (Nat.max_le.2 ⟨by omega, r.nameLength_le_ending limit⟩)
  · rintro ⟨rfl, hname⟩
    refine ⟨List.length_eq_zero_iff.1 ?_, r.length_abbreviate_of_no_room h hname⟩
    rw [hbefore, ending_eq_nameLength hname]
    exact Nat.sub_eq_zero_of_le (Nat.le_of_lt hname)

/-- A name that leaves no room for the two dots, one that does, and a limit that is too small. -/
theorem abbreviate_cuts_the_middle_longName :
    let r : FileRef := ⟨.of ["foo", "this_is_a_very_long_basename"], .of ["bar"]⟩
    r.abbreviate 3 true = "..this_is_a_very_long_basename" ∧
      r.abbreviate 16 false = "/foo..g_basename" ∧ r.abbreviate 31 true = "/..this_is_a_very_long_basename" ∧
      ∃ before cut behind, Elision r.shortest.toList (r.abbreviate 3 true).toList before cut behind ∧
        "this_is_a_very_long_basename".toList <:+ behind := by
  intro r
  have hlast : (⟨r.shortest⟩ : Path).lastPiece = "this_is_a_very_long_basename" := by decide +kernel
  obtain ⟨-, -, hcut⟩ := abbreviate_cuts_the_middle r 3 true
  obtain ⟨before, cut, behind, helision, -, hwhole, -⟩ := hcut (by decide +kernel)
  rw [hlast] at hwhole
  exact ⟨by decide +kernel, by decide +kernel, by decide +kernel, before, cut, behind, helision,
    hwhole rfl⟩

/-! ### Texts that get longer -/

section Longer

variable (r : FileRef)

/-- Where a text that is cut gets no longer, something was cut out. -/
theorem exists_elision_of_length_le (length : Nat) (wholeName : Bool)
    (hle : (r.abbreviate length wholeName).toList.length ≤ r.shortest.toList.length)
    (hne : r.abbreviate length wholeName ≠ r.shortest) :
    ∃ before cut behind,
      Elision r.shortest.toList (r.abbreviate length wholeName).toList before cut behind ∧ cut ≠ [] := by
  have hlong : max length 16 < r.shortest.toList.length :=
    Nat.lt_of_not_le fun h => hne (abbreviate_of_le h)
  obtain ⟨before, cut, behind, hcut, -⟩ := r.exists_elision_abbreviate wholeName hlong
  refine ⟨before, cut, behind, hcut, ?_⟩
  rintro rfl
  have hlength := hcut.length_add
  rw [List.length_nil] at hlength
  omega

/-- A text gets longer if its last name leaves no room for the two dots, and at most one character stands
before that name. -/
theorem length_abbreviate_le_iff (length : Nat) (wholeName : Bool) :
    (r.abbreviate length wholeName).toList.length ≤ r.shortest.toList.length ↔
      ¬(wholeName = true ∧ max length 16 < r.shortest.toList.length ∧
        r.shortest.toList.length ≤ (⟨r.shortest⟩ : Path).lastPiece.length + 1) := by
  by_cases hlong : max length 16 < r.shortest.toList.length
  · by_cases hroom : wholeName = true ∧ max length 16 < (⟨r.shortest⟩ : Path).nameLength + 2
    · obtain ⟨rfl, hname⟩ := hroom
      rw [r.length_abbreviate_of_no_room hlong hname, Path.length_lastPiece _ (by omega)]
      simp only [hlong, true_and]
      omega
    · rw [r.length_abbreviate_of_room hlong hroom]
      refine iff_of_true (Nat.le_of_lt hlong) ?_
      rintro ⟨hwhole, -, hbare⟩
      have hname : ¬max length 16 < (⟨r.shortest⟩ : Path).nameLength + 2 := fun h => hroom ⟨hwhole, h⟩
      have hpiece := Path.length_lastPiece_le ⟨r.shortest⟩
      omega
  · rw [abbreviate_of_le (Nat.le_of_not_lt hlong)]
    exact iff_of_true (Nat.le_refl _) fun h => hlong h.2.1

end Longer

/-- **When cutting makes a text no longer.** It has at most as many characters as the text, and the two
dots stand for at least one that was left out, if and only if it is not the case that a text longer than
the limit is nothing but its last name, with a separator before it or without, and that name is to stay
whole. -/
theorem abbreviate_shortens_iff (r : FileRef) (length : Nat) (wholeName : Bool) :
    let name := (⟨r.shortest⟩ : Path).lastPiece
    (r.abbreviate length wholeName).length ≤ r.shortest.length ∧
        (r.abbreviate length wholeName ≠ r.shortest → ∃ before cut behind,
          Elision r.shortest.toList (r.abbreviate length wholeName).toList before cut behind ∧ cut ≠ []) ↔
      ¬(wholeName = true ∧ max length 16 < r.shortest.length ∧
        (r.shortest = name ∨ r.shortest = "/" ++ name)) := by
  intro name
  have hbare : r.shortest.length ≤ name.length + 1 ↔ r.shortest = name ∨ r.shortest = "/" ++ name :=
    Path.length_text_le_iff (p := ⟨r.shortest⟩)
  have hle := r.length_abbreviate_le_iff length wholeName
  have hcut := r.exists_elision_of_length_le length wholeName
  simp only [String.length_toList] at hle hcut
  rw [← hbare, and_iff_left_of_imp hcut, hle]

theorem abbreviate_shortens_iff_nested :
    let r : FileRef := ⟨.of ["ws", "a", "this_is_a_very_long_name.py"], .of ["ws"]⟩
    r.shortest = "a/this_is_a_very_long_name.py" ∧
      r.abbreviate 16 true = "..this_is_a_very_long_name.py" ∧
      (r.abbreviate 16 true).length ≤ r.shortest.length ∧
      ∃ before cut behind,
        Elision r.shortest.toList (r.abbreviate 16 true).toList before cut behind ∧ cut ≠ [] := by
  intro r
  have hname : (⟨r.shortest⟩ : Path).lastPiece = "this_is_a_very_long_name.py" := by decide +kernel
  have hshortens := (abbreviate_shortens_iff r 16 true).2
  rw [hname] at hshortens
  obtain ⟨hle, hcut⟩ := hshortens (by decide +kernel)
  exact ⟨by decide +kernel, by decide +kernel, hle, hcut (by decide +kernel)⟩

/-- A file in the root and one in the top directory, whose names are longer than the limit. The two dots
stand before the whole name, and the text gets longer; in the first case they stand for nothing. -/
theorem abbreviate_lengthens :
    let r : FileRef := ⟨.of ["ws", "this_is_a_very_long_name.py"], .of ["ws"]⟩
    let q : FileRef := ⟨.of ["this_is_a_very_long_name.py"], .of ["ws"]⟩
    r.shortest = "this_is_a_very_long_name.py" ∧
      q.shortest = "/this_is_a_very_long_name.py" ∧
      r.abbreviate 16 true = "..this_is_a_very_long_name.py" ∧ q.abbreviate 16 true = r.abbreviate 16 true ∧
      r.shortest.length < (r.abbreviate 16 true).length ∧
      q.shortest.length < (q.abbreviate 16 true).length := by
  decide +kernel

end FileRef

end ImportAtlas
