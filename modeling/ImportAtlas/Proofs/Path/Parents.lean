import ImportAtlas.Proofs.Path.Places

/-!
# Parents of joined paths

The parent of a path is found in its text, and so is the path that a name was joined to. If that path
ends in a name itself, the two are one and the same text. Otherwise they need not be: a separator or a
dot at the end of a path is lost with the parent of what was joined to it.

Main definitions:

* `ImportAtlas.Path.EndsInName` — the last piece of a path is a name.

Main results:

* `ImportAtlas.Path.endsInName_join` — a path that a name was joined to ends in that name;
* `ImportAtlas.Path.parent?_join` — **the parent of a path that a name was joined to is that path**.
-/

set_option autoImplicit false

namespace ImportAtlas.Path

/-! ### Pieces and texts -/

theorem intercalate_pieces (p : Path) : "/".intercalate p.pieces = p.text := by
  refine String.toList_injective ?_
  simp [pieces, String.toList_intercalate, Function.comp_def, List.intercalate_splitOn]

theorem pieces_ne_nil (p : Path) : p.pieces ≠ [] := by
  simp [pieces, List.splitOn_ne_nil]

/-- A text without a separator is one piece. -/
theorem pieces_of_not_mem {text : String} (h : '/' ∉ text.toList) :
    (⟨text⟩ : Path).pieces = [text] := by
  simp [pieces, List.splitOn_eq_singleton h]

/-- A separator divides the pieces before it from those behind it. -/
theorem pieces_append (before behind : String) :
    (⟨before ++ "/" ++ behind⟩ : Path).pieces =
      (⟨before⟩ : Path).pieces ++ (⟨behind⟩ : Path).pieces := by
  have htext : (before ++ "/" ++ behind).toList = before.toList ++ '/' :: behind.toList := by
    simp [String.toList_append]
  rw [pieces, htext, List.splitOn_append_cons_self, List.map_append]
  rfl

/-- An absolute path starts with an empty piece. -/
theorem head?_pieces_of_isAbsolute {p : Path} (h : p.isAbsolute = true) :
    p.pieces.head? = some "" := by
  have hhead : p.text.toList.head? = some '/' := by simpa [isAbsolute] using h
  obtain ⟨rest, hrest⟩ := List.head?_eq_some_iff.1 hhead
  have hsplit := List.splitOn_append_cons_self (a := '/') [] rest
  rw [List.nil_append] at hsplit
  rw [pieces, hrest, hsplit]
  rfl

/-! ### Paths that end in a name -/

/-- The last piece of a path is a name. -/
def EndsInName (p : Path) : Prop := ∃ n, isName n = true ∧ p.pieces.getLast? = some n

theorem isAbsolute_of_isName {n : String} (h : isName n = true) :
    (⟨n⟩ : Path).isAbsolute = false := by
  obtain ⟨-, -, -, hslash⟩ := isName_iff.1 h
  rw [← Bool.not_eq_true]
  intro habs
  exact hslash (List.mem_of_head? (by simpa [isAbsolute] using habs))

theorem exists_append_of_getLast? {p : Path} (h : p.text.toList.getLast? = some '/') :
    ∃ before, p.text = before ++ "/" ++ "" := by
  obtain ⟨front, hfront⟩ := List.getLast?_eq_some_iff.1 h
  refine ⟨String.ofList front, String.toList_injective ?_⟩
  simpa [String.toList_append] using hfront

theorem endsInName_join (p : Path) {n : String} (hn : isName n = true) :
    (p.join ⟨n⟩).EndsInName := by
  obtain ⟨-, -, -, hslash⟩ := isName_iff.1 hn
  refine ⟨n, hn, ?_⟩
  rw [join, isAbsolute_of_isName hn, if_neg (by simp)]
  split
  · next htext =>
      rcases htext with htext | htext
      · rw [htext, String.empty_append, pieces_of_not_mem hslash]
        rfl
      · obtain ⟨before, hbefore⟩ := exists_append_of_getLast? htext
        rw [hbefore, String.append_empty, pieces_append, pieces_of_not_mem hslash]
        simp
  · rw [pieces_append, pieces_of_not_mem hslash]
    simp

section

variable {p : Path} {n : String}

/-- A path that ends in a name is not empty. -/
theorem EndsInName.text_ne_empty (hp : p.EndsInName) : p.text ≠ "" := by
  obtain ⟨m, hm, hlast⟩ := hp
  intro htext
  have hpieces : p.pieces = [""] := by rw [pieces, htext]; rfl
  rw [hpieces] at hlast
  exact (isName_iff.1 hm).1 (by simpa using hlast.symm)

/-- A path that ends in a name does not end in a separator. -/
theorem EndsInName.getLast?_text_ne (hp : p.EndsInName) : p.text.toList.getLast? ≠ some '/' := by
  obtain ⟨m, hm, hlast⟩ := hp
  intro htext
  obtain ⟨before, hbefore⟩ := exists_append_of_getLast? htext
  have hempty : (⟨""⟩ : Path).pieces = [""] := pieces_of_not_mem (by simp)
  have hpieces : p.pieces = (⟨before⟩ : Path).pieces ++ [""] := by
    rw [← hempty, ← pieces_append, ← hbefore]
  rw [hpieces] at hlast
  exact (isName_iff.1 hm).1 (by simpa using hlast.symm)

theorem EndsInName.join_eq (hp : p.EndsInName) (hn : isName n = true) :
    p.join ⟨n⟩ = ⟨p.text ++ "/" ++ n⟩ := by
  rw [join, isAbsolute_of_isName hn, if_neg (by simp),
    if_neg (not_or.2 ⟨hp.text_ne_empty, hp.getLast?_text_ne⟩)]

theorem EndsInName.pieces_join (hp : p.EndsInName) (hn : isName n = true) :
    (p.join ⟨n⟩).pieces = p.pieces ++ [n] := by
  obtain ⟨-, -, -, hslash⟩ := isName_iff.1 hn
  rw [hp.join_eq hn, pieces_append, pieces_of_not_mem hslash]

theorem EndsInName.isAbsolute_join (hp : p.EndsInName) (hn : isName n = true) :
    (p.join ⟨n⟩).isAbsolute = p.isAbsolute := by
  have hne : p.text.toList ≠ [] := by simpa using hp.text_ne_empty
  obtain ⟨c, rest, htext⟩ := List.exists_cons_of_ne_nil hne
  simp [hp.join_eq hn, isAbsolute, String.append_assoc, htext]

end

/-! ### Parents -/

/-- Behind a name there is nothing to be trimmed. -/
theorem trimPieces_concat (front : List String) {n : String} (hn : isName n = true) :
    trimPieces (front ++ [n]) = front ++ [n] := by
  obtain ⟨hempty, hdot, -⟩ := isName_iff.1 hn
  simp [trimPieces, hempty, hdot]

theorem trimPieces_eq_self {pieces : List String} {m : String} (hm : isName m = true)
    (hlast : pieces.getLast? = some m) : trimPieces pieces = pieces := by
  obtain ⟨rest, rfl⟩ := List.getLast?_eq_some_iff.1 hlast
  exact trimPieces_concat rest hm

/-- Behind a first piece that is not the last one there are others. -/
theorem exists_cons_of_ne_last {pieces : List String} {first last : String}
    (hfirst : pieces.head? = some first) (hlast : pieces.getLast? = some last)
    (hne : last ≠ first) : ∃ tail, pieces = first :: tail ∧ tail.getLast? = some last := by
  obtain ⟨tail, rfl⟩ := List.head?_eq_some_iff.1 hfirst
  refine ⟨tail, rfl, ?_⟩
  cases tail with
  | nil => exact absurd (by simpa using hlast.symm) hne
  | cons next tail => rwa [List.getLast?_cons_cons] at hlast

/-- **The parent of a path that a name was joined to is that path**, if it ends in a name itself. -/
theorem parent?_join {p : Path} (hp : p.EndsInName) {n : String} (hn : isName n = true) :
    (p.join ⟨n⟩).parent? = some p := by
  have htext := intercalate_pieces p
  rw [parent?, hp.isAbsolute_join hn, hp.pieces_join hn]
  obtain ⟨m, hm, hlast⟩ := hp
  obtain ⟨hempty, hdot, -⟩ := isName_iff.1 hm
  split
  · next habs =>
      -- the empty piece before the separator is not the last one
      obtain ⟨tail, htail, htlast⟩ :=
        exists_cons_of_ne_last (head?_pieces_of_isAbsolute habs) hlast hempty
      have hne : tail ≠ [] := List.ne_nil_of_mem (List.mem_of_getLast? htlast)
      rw [htail, String.intercalate_cons_of_ne_nil hne, String.empty_append] at htext
      rw [htail, List.cons_append, List.tail_cons, trimPieces_concat _ hn]
      split
      · next hnil => simp at hnil
      · rw [List.dropLast_concat, trimPieces_eq_self hm htlast, ofPieces, htext]
  · split
    · next hhead =>
        -- neither is a dot at the beginning
        have hfirst : p.pieces.head? = some "." := by
          obtain ⟨first, rest, hrest⟩ := List.exists_cons_of_ne_nil p.pieces_ne_nil
          simpa [hrest] using hhead
        obtain ⟨tail, htail, htlast⟩ := exists_cons_of_ne_last hfirst hlast hdot
        rw [htail, List.cons_append, List.tail_cons, trimPieces_concat _ hn]
        split
        · next hnil => simp at hnil
        · rw [List.dropLast_concat, trimPieces_eq_self hm htlast, ofPieces, ← htail, htext,
            String.empty_append]
    · rw [trimPieces_concat _ hn]
      split
      · next hnil => simp at hnil
      · rw [List.dropLast_concat, trimPieces_eq_self hm hlast, ofPieces, htext,
          String.empty_append]

end ImportAtlas.Path
