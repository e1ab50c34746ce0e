import ImportAtlas.Proofs.Path.Parents
import Mathlib.Data.List.Basic

/-!
# The names that a path goes through

The names of a path are its pieces that are not empty. If a path is joined to another one, the names of
both are gone through, one after the other. Module names hold no dots within their parts, so a search for
modules goes on through names alone, without dots and double dots, and it comes across nothing but files
whose names have the ending of source files.

Main definitions:

* `ImportAtlas.Path.names` — the pieces that are not empty;
* `ImportAtlas.RealPath.EndsInPy` — the last name has the ending of source files;
* `ImportAtlas.Path.Onward`, `ImportAtlas.Path.Sought` — paths to directories and files of a search.

Main results:

* `ImportAtlas.extensionOf?_eq_py_iff` — which names have the extension of source files;
* `ImportAtlas.Path.names_join` — a joined path goes through the names of both;
* `ImportAtlas.Path.Onward.join_name`, `ImportAtlas.Path.Onward.sought` — **a search goes on through
  names**;
* `ImportAtlas.Path.real?_eq_some_iff` — which paths spell out a place.
-/

set_option autoImplicit false

namespace ImportAtlas

/-! ### The ending of source files -/

/-- The last name of a place ends as the names of source files do. -/
def RealPath.EndsInPy (p : RealPath) : Prop :=
  ∃ (front : RealPath) (n : Name) (stem : String), p = front ++ [n] ∧ n.text = stem ++ ".py"

/-- Nothing comes behind the characters before the first dot, or the dot does. -/
theorem eq_or_exists_of_takeWhile {text before : List Char} (h : text.takeWhile (· != '.') = before) :
    text = before ∨ ∃ rest, text = before ++ '.' :: rest := by
  have hsplit := List.takeWhile_append_dropWhile (p := fun c => c != '.') (l := text)
  rw [h] at hsplit
  cases hrest : text.dropWhile (· != '.') with
  | nil =>
      rw [hrest, List.append_nil] at hsplit
      exact .inl hsplit.symm
  | cons c rest =>
      have hdot : c = '.' := by
        have hhead := List.head?_dropWhile_not (fun c => c != '.') text
        rw [hrest] at hhead
        simpa using hhead
      rw [hrest, hdot] at hsplit
      exact .inr ⟨rest, hsplit.symm⟩

/-- The names with the extension of source files are those that end in it and have something before
it. -/
theorem extensionOf?_eq_py_iff {n : String} :
    extensionOf? n = some "py" ↔ ∃ stem, stem ≠ "" ∧ n = stem ++ ".py" := by
  constructor
  · intro h
    rw [extensionOf?] at h
    split at h
    · cases h
    · next hdot =>
        rw [not_or] at hdot
        obtain ⟨hlength, hbefore⟩ := hdot
        have hafter : n.toList.reverse.takeWhile (· != '.') = ['y', 'p'] := by
          have hlist := congrArg String.toList (Option.some.inj h)
          rw [String.toList_ofList] at hlist
          simpa using congrArg List.reverse hlist
        rw [hafter] at hlength hbefore
        rcases eq_or_exists_of_takeWhile hafter with htext | ⟨rest, htext⟩
        · have hreverse := congrArg List.length htext
          rw [List.length_reverse] at hreverse
          exact absurd hreverse.symm hlength
        · have htext : n.toList = rest.reverse ++ ['.', 'p', 'y'] := by
            simpa using congrArg List.reverse htext
          refine ⟨String.ofList rest.reverse, ?_, String.toList_injective ?_⟩
          · intro hnil
            have hrest : rest = [] := by simpa using congrArg String.toList hnil
            exact hbefore (by simp [htext, hrest])
          · simp [htext, String.toList_append]
  · rintro ⟨stem, hstem, rfl⟩
    have hpos : 0 < stem.toList.length := List.length_pos_iff.2 (by simpa using hstem)
    have hafter : (stem ++ ".py").toList.reverse.takeWhile (· != '.') = ['y', 'p'] := by
      simp [String.toList_append]
    have hlength : (stem ++ ".py").toList.length = stem.toList.length + 3 := by
      rw [String.toList_append, List.length_append]
      rfl
    have hafterLength : (['y', 'p'] : List Char).reverse.length = 2 := rfl
    rw [extensionOf?, hafter, hlength, hafterLength, if_neg (by omega)]
    rfl

namespace RealPath

theorem endsInPy_of_extension? {p : RealPath} (h : extension? p = some "py") : EndsInPy p := by
  obtain ⟨n, hn, hpy⟩ := Option.bind_eq_some_iff.1 h
  obtain ⟨stem, -, htext⟩ := extensionOf?_eq_py_iff.1 hpy
  obtain ⟨front, hfront⟩ := List.getLast?_eq_some_iff.1 hn
  exact ⟨front, n, stem, hfront, htext⟩

/-- A place with the ending of source files has their extension, unless its last name is hidden. -/
theorem EndsInPy.extension? {p : RealPath} (h : EndsInPy p) :
    RealPath.extension? p = some "py" ∨
      ∃ (front : RealPath) (n : Name), p = front ++ [n] ∧ n.text = ".py" := by
  obtain ⟨front, n, stem, rfl, htext⟩ := h
  by_cases hstem : stem = ""
  · exact .inr ⟨front, n, rfl, by rw [htext, hstem, String.empty_append]⟩
  · refine .inl ?_
    rw [RealPath.extension?, List.getLast?_concat]
    exact extensionOf?_eq_py_iff.2 ⟨stem, hstem, htext⟩

end RealPath

namespace Path

/-! ### Pieces -/

theorem pieces_intercalate {pieces : List String} (hp : pieces ≠ [])
    (h : ∀ n ∈ pieces, '/' ∉ n.toList) : (⟨"/".intercalate pieces⟩ : Path).pieces = pieces := by
  rw [Path.pieces, String.toList_intercalate]
  exact RealPath.splitOn_intercalate_pieces hp h

/-- What is put behind a text is put behind its last piece. -/
theorem pieces_append_text {p : Path} {front : List String} {last ending : String}
    (hp : p.pieces = front ++ [last]) (he : '/' ∉ ending.toList) :
    (⟨p.text ++ ending⟩ : Path).pieces = front ++ [last ++ ending] := by
  have htext : p.text ++ ending = "/".intercalate (front ++ [last ++ ending]) := by
    rw [← intercalate_pieces p, hp]
    by_cases hfront : front = []
    · simp [hfront]
    · rw [String.intercalate_append_of_ne_nil hfront (by simp),
        String.intercalate_append_of_ne_nil hfront (by simp)]
      simp [String.append_assoc]
  rw [htext, pieces_intercalate (by simp)]
  have hslash : ∀ n ∈ front ++ [last], '/' ∉ n.toList := by
    intro n hn
    exact not_mem_of_mem_pieces (hp ▸ hn)
  intro n hn
  rcases List.mem_append.1 hn with hn | hn
  · exact hslash n (by simp [hn])
  · have hlast := hslash last (by simp)
    simp [List.mem_singleton.1 hn, String.toList_append, hlast, he]

theorem isAbsolute_join {p : Path} (hp : p.isAbsolute = true) (q : Path) :
    (p.join q).isAbsolute = true := by
  have hhead : p.text.toList.head? = some '/' := by simpa [isAbsolute] using hp
  obtain ⟨rest, hrest⟩ := List.head?_eq_some_iff.1 hhead
  rw [join]
  split
  · next hq => exact hq
  · split <;> simp [isAbsolute, String.toList_append, hrest]

theorem mem_intercalate {pieces : List String} {n : String} (h : n ∈ pieces) {c : Char}
    (hc : c ∈ n.toList) : c ∈ ("/".intercalate pieces).toList := by
  induction pieces with
  | nil => cases h
  | cons m rest ih =>
      by_cases hrest : rest = []
      · obtain rfl : n = m := by simpa [hrest] using h
        simpa [hrest] using hc
      · rw [String.intercalate_cons_of_ne_nil hrest, String.toList_append, String.toList_append]
        rcases List.mem_cons.1 h with rfl | h
        · simp [hc]
        · exact List.mem_append_right _ (ih h)

/-- The characters of a piece are characters of the text. -/
theorem mem_text_of_mem_pieces {p : Path} {n : String} (h : n ∈ p.pieces) {c : Char}
    (hc : c ∈ n.toList) : c ∈ p.text.toList := by
  rw [← intercalate_pieces p]
  exact mem_intercalate h hc

/-! ### Names -/

/-- The pieces of a path that are not empty. -/
def names (p : Path) : List String := p.pieces.filter (· ≠ "")

theorem mem_names {p : Path} {n : String} : n ∈ p.names ↔ n ∈ p.pieces ∧ n ≠ "" := by
  simp [names]

/-- Where an empty piece has no meaning, the names of a path mean what its pieces mean. -/
theorem filterMap_names {α : Type} (p : Path) {f : String → Option α} (hf : f "" = none) :
    p.names.filterMap f = p.pieces.filterMap f := by
  rw [names, List.filterMap_filter]
  refine List.filterMap_congr fun piece _ => ?_
  by_cases hempty : piece = "" <;> simp [hempty, hf]

theorem names_toPath (p : RealPath) : (RealPath.toPath p).names = RealPath.texts p := by
  by_cases hnil : p = []
  · subst hnil
    rfl
  · rw [names, RealPath.pieces_toPath hnil, List.filter_cons_of_neg (by simp), List.filter_eq_self]
    intro text htext
    obtain ⟨n, -, rfl⟩ := List.mem_map.1 htext
    simpa using n.text_ne_empty

/-- A path that is joined to another one goes through the names of both, unless it is absolute. -/
theorem names_join (p : Path) {q : Path} (hq : q.isAbsolute = false) :
    (p.join q).names = p.names ++ q.names := by
  rw [join, hq, if_neg (by simp)]
  split
  · next htext =>
      rcases htext with htext | htext
      · have hp : p.names = [] := by rw [names, pieces, htext]; rfl
        rw [htext, hp, String.empty_append, List.nil_append]
      · obtain ⟨before, hbefore⟩ := exists_append_of_getLast? htext
        have hp : p.pieces = (⟨before⟩ : Path).pieces ++ (⟨""⟩ : Path).pieces := by
          rw [← pieces_append, ← hbefore]
        have hempty : (⟨""⟩ : Path).pieces.filter (· ≠ "") = [] := rfl
        rw [hbefore, String.append_empty, names, names, names, hp, pieces_append, List.filter_append,
          List.filter_append, hempty, List.append_nil]
  · rw [names, names, names, pieces_append, List.filter_append]

/-- The steps of a path that does not end in a separator are those of its names. -/
theorem steps_eq_names {p : Path} (hp : p.text.toList.getLast? ≠ some '/') :
    p.steps = p.names.filterMap Step.ofPiece? := by
  rw [steps, if_neg hp, List.append_nil, filterMap_names p (by decide)]

end Path

/-! ### What a search comes across -/

namespace Path

/-- A path to a directory of a search: it is absolute, and each step of it is a name. -/
structure Onward (p : Path) : Prop where
  isAbsolute : p.isAbsolute = true
  isName : ∀ n ∈ p.names, ImportAtlas.isName n = true

/-- A path to a file that a search comes across: it is absolute, each step of it is a name, and the last
one ends as the names of source files do. -/
structure Sought (p : Path) : Prop where
  isAbsolute : p.isAbsolute = true
  spelled : ∃ way : RealPath, p.steps = way.map .name ∧ RealPath.EndsInPy way

theorem onward_toPath (p : RealPath) : (RealPath.toPath p).Onward := by
  refine ⟨RealPath.isAbsolute_toPath p, fun text htext => ?_⟩
  rw [names_toPath] at htext
  obtain ⟨n, -, rfl⟩ := List.mem_map.1 htext
  exact n.isName_text

/-- A source file is sought under the text of its place. -/
theorem sought_toPath {p : RealPath} (hext : RealPath.extension? p = some "py") :
    (RealPath.toPath p).Sought := by
  have hends := RealPath.endsInPy_of_extension? hext
  refine ⟨RealPath.isAbsolute_toPath p, p, RealPath.steps_toPath ?_, hends⟩
  rintro rfl
  obtain ⟨front, n, stem, hnil, -⟩ := hends
  simp at hnil

/-- The names of a joined path are names of its parts; an absolute part stands for itself alone. -/
theorem mem_names_join {p q : Path} {n : String} (h : n ∈ (p.join q).names) :
    n ∈ p.names ∨ n ∈ q.names := by
  cases hq : q.isAbsolute with
  | true =>
      rw [join, if_pos hq] at h
      exact .inr h
  | false => rwa [names_join p hq, List.mem_append] at h

theorem isName_of_not_mem_dot {n : String} (hn : n ≠ "") (hslash : '/' ∉ n.toList)
    (hdot : '.' ∉ n.toList) : ImportAtlas.isName n = true := by
  refine isName_iff.2 ⟨hn, ?_, ?_, hslash⟩
  · rintro rfl
    exact hdot (by decide)
  · rintro rfl
    exact hdot (by decide)

theorem isName_append_py {stem : String} (hslash : '/' ∉ (stem ++ ".py").toList) :
    ImportAtlas.isName (stem ++ ".py") = true := by
  have hlong : ∀ n : String, n.toList.length < 3 → stem ++ ".py" ≠ n := by
    rintro n hn rfl
    rw [String.toList_append, List.length_append] at hn
    exact absurd hn (Nat.not_lt.2 (Nat.le_add_left 3 _))
  exact isName_iff.2 ⟨hlong _ (by decide), hlong _ (by decide), hlong _ (by decide), hslash⟩

/-- The pieces of a part of a module name, which may hold separators but no dots, are names. -/
theorem isName_of_mem_names {name : String} (hn : '.' ∉ name.toList) {n : String}
    (h : n ∈ (⟨name⟩ : Path).names) : ImportAtlas.isName n = true := by
  obtain ⟨hpiece, hne⟩ := mem_names.1 h
  exact isName_of_not_mem_dot hne (not_mem_of_mem_pieces hpiece) fun hdot =>
    hn (mem_text_of_mem_pieces hpiece hdot)

/-- The names of the source file of a part of a module name: those of the part, the last one with the
ending. -/
theorem names_file {name : String} (hn : '.' ∉ name.toList) :
    ∃ way stem, (⟨name ++ ".py"⟩ : Path).names = way ++ [stem ++ ".py"] ∧
      ∀ n ∈ (⟨name ++ ".py"⟩ : Path).names, ImportAtlas.isName n = true := by
  obtain ⟨front, last, hlast⟩ : ∃ front last, (⟨name⟩ : Path).pieces = front ++ [last] :=
    ⟨_, _, (List.dropLast_concat_getLast (pieces_ne_nil ⟨name⟩)).symm⟩
  have hfile : (⟨name ++ ".py"⟩ : Path).pieces = front ++ [last ++ ".py"] :=
    pieces_append_text hlast (by decide)
  refine ⟨front.filter (· ≠ ""), last, ?_, fun n hmem => ?_⟩
  · rw [names, hfile, List.filter_append, List.filter_cons_of_pos (by simp), List.filter_nil]
  · obtain ⟨hpiece, hne⟩ := mem_names.1 hmem
    have hslash := not_mem_of_mem_pieces hpiece
    rw [hfile] at hpiece
    rcases List.mem_append.1 hpiece with hpiece | hpiece
    · refine isName_of_mem_names hn (mem_names.2 ⟨?_, hne⟩)
      rw [hlast]
      exact List.mem_append_left _ hpiece
    · obtain rfl := List.mem_singleton.1 hpiece
      exact isName_append_py hslash

theorem getLast?_text_join_file (p : Path) (name : String) :
    (p.join ⟨name ++ ".py"⟩).text.toList.getLast? ≠ some '/' := by
  rw [join]
  split
  · simp [String.toList_append]
  · split <;> simp [String.toList_append, List.getLast?_cons]

section

variable {p : Path}

/-- A search goes on to a directory through a part of a module name. -/
theorem Onward.join_name (hp : p.Onward) {name : String} (hn : '.' ∉ name.toList) :
    (p.join ⟨name⟩).Onward :=
  ⟨isAbsolute_join hp.isAbsolute _, fun n hmem =>
    (mem_names_join hmem).elim (hp.isName n) (isName_of_mem_names hn)⟩

/-- A search comes across the source file of a part of a module name. -/
theorem Onward.sought (hp : p.Onward) {name : String} (hn : '.' ∉ name.toList) :
    (p.join ⟨name ++ ".py"⟩).Sought := by
  obtain ⟨way, stem, hfile, hname⟩ := names_file hn
  have hnames : ∀ n ∈ (p.join ⟨name ++ ".py"⟩).names, ImportAtlas.isName n = true := fun n hmem =>
    (mem_names_join hmem).elim (hp.isName n) (hname n)
  obtain ⟨front, hfront⟩ : ∃ front, (p.join ⟨name ++ ".py"⟩).names = front ++ [stem ++ ".py"] := by
    cases hq : (⟨name ++ ".py"⟩ : Path).isAbsolute with
    | true =>
        rw [join, if_pos hq, hfile]
        exact ⟨way, rfl⟩
    | false =>
        rw [names_join p hq, hfile]
        exact ⟨p.names ++ way, (List.append_assoc _ _ _).symm⟩
  rw [hfront] at hnames
  let place := RealPath.of front (List.all_eq_true.2 fun n hmem => hnames n (by simp [hmem]))
  let last : Name := ⟨stem ++ ".py", hnames _ (by simp)⟩
  refine ⟨isAbsolute_join hp.isAbsolute _, place ++ [last], ?_, place, last, stem, rfl, rfl⟩
  have htexts : RealPath.texts (place ++ [last]) = front ++ [stem ++ ".py"] := by
    simp [place, last]
  rw [steps_eq_names (getLast?_text_join_file p name), hfront, ← htexts, Step.filterMap_ofPiece?]

end

/-! ### Above a place -/

/-- The parent of a place is the place above it. -/
theorem parent?_toPath {p : RealPath} (hne : p ≠ []) :
    (RealPath.toPath p).parent? = some (RealPath.toPath p.dropLast) := by
  have htrim : ∀ q : RealPath, trimPieces (RealPath.texts q) = RealPath.texts q := by
    intro q
    rcases List.eq_nil_or_concat q with rfl | ⟨front, n, rfl⟩
    · rfl
    · rw [List.concat_eq_append, RealPath.texts_append]
      exact trimPieces_concat (RealPath.texts front) n.isName_text
  rw [parent?, if_pos (RealPath.isAbsolute_toPath p), RealPath.pieces_toPath hne, List.tail_cons,
    htrim p]
  split
  · next hnil => exact absurd (RealPath.texts_eq_nil_iff.1 hnil) hne
  · have hdrop : (RealPath.texts p).dropLast = RealPath.texts p.dropLast := List.map_dropLast.symm
    rw [hdrop, htrim]
    rfl

/-! ### Paths that spell out places -/

theorem mapM_nameOf?_eq_some_iff {components : List Component} {names : RealPath} :
    components.mapM nameOf? = some names ↔ components = names.map .name := by
  induction components generalizing names with
  | nil => cases names <;> simp
  | cons c rest ih =>
      cases c with
      | name n =>
          cases names with
          | nil => simp [nameOf?, Option.bind_eq_some_iff]
          | cons m names => simpa [nameOf?, Option.bind_eq_some_iff, ih] using and_comm
      | top | here | up => cases names <;> simp [nameOf?]

/-- A path spells out a place if its components are the top and the names of the place. -/
theorem real?_eq_some_iff {p : Path} {place : RealPath} :
    p.real? = some place ↔ p.components = .top :: place.map .name := by
  rw [real?]
  split
  · next rest hrest => rw [hrest, mapM_nameOf?_eq_some_iff, List.cons.injEq, eq_self, true_and]
  · next hne =>
      constructor
      · intro h
        cases h
      · intro h
        exact absurd h (hne _)

section

variable {p : Path} {place : RealPath} (h : p.real? = some place)
include h

/-- A path that spells out a place has the components of the place. -/
theorem components_of_real? : p.components = (RealPath.toPath place).components := by
  rw [real?_eq_some_iff.1 h, RealPath.components_toPath]

theorem fileName?_of_real? : p.fileName? = place.getLast?.map Name.text := by
  rw [fileName?, real?_eq_some_iff.1 h]
  rcases List.eq_nil_or_concat place with rfl | ⟨front, n, rfl⟩
  · rfl
  · simp [List.getLast?_cons]

end

end Path

end ImportAtlas
