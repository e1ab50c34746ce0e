import ImportAtlas.Proofs.Python.Cleaning
import ImportAtlas.Proofs.Python.Gaps

/-!
# Import statements as they are written

An import statement is a sequence of words and marks with gaps between them. A spelling says which ones:
it has all words of the statement and all gaps, so that its text is the text in the source. Two words have
something between them, while a gap next to a mark may be empty.

What a spelling means can be said in two ways. `Spelling.statement` has the names with nothing around
their dots. `Spelling.reading` has them with all that cleaning leaves of the gaps around the dots, and
counts as dots those in the gaps between dots as well. If the gaps are white space, both are the same.

Main definitions:

* `ImportAtlas.Python.Dotted`, `ImportAtlas.Python.Items` — the spelling of a name, and of names between
  commas;
* `ImportAtlas.Python.Spelling` — the spelling of an import statement, with its `text`;
* `ImportAtlas.Python.Spelling.Proper` — a spelling that is read as it is meant;
* `ImportAtlas.Python.Spelling.statement`, `ImportAtlas.Python.Spelling.reading` — what it means.

Main results:

* `ImportAtlas.Python.Spelling.reading_eq_statement` — **white space around dots is of no account**.
-/

set_option autoImplicit false

namespace ImportAtlas.Python

open ImportAtlas.Text

/-! ### Names -/

/-- A gap between two words, which is not empty. -/
structure Break where
  gap : Gap
  ne_nil : gap ≠ []

def Break.text (b : Break) : List Char := Gap.text b.gap

/-- A further word of a dotted name, with the gaps around the dot before it. -/
structure Part where
  before : Gap
  behind : Gap
  word : Word

def Part.text (p : Part) : List Char :=
  Gap.text p.before ++ '.' :: (Gap.text p.behind ++ p.word.chars)

/-- A dotted name. -/
structure Dotted where
  first : Word
  others : List Part

namespace Dotted

def text (d : Dotted) : List Char := d.first.chars ++ d.others.flatMap Part.text

/-- The name with nothing around its dots. -/
def name (d : Dotted) : String :=
  String.ofList (['.'].intercalate (d.first.chars :: d.others.map fun p => p.word.chars))

/-- The name with what cleaning leaves around its dots. -/
def reading (d : Dotted) : String := String.ofList (dottedText d.text)

/-- The gaps around the dots. -/
def gaps (d : Dotted) : List Gap := d.others.flatMap fun p => [p.before, p.behind]

end Dotted

def asWord : Word := ⟨['a', 's'], by decide⟩

/-- A new name, with the gaps around the word before it. -/
structure NewName where
  before : Break
  behind : Break
  word : Word

def NewName.text (r : NewName) : List Char :=
  r.before.text ++ (asWord.chars ++ (r.behind.text ++ r.word.chars))

/-- A name that is imported, perhaps under a new name. -/
structure Item where
  name : Dotted
  newName? : Option NewName

def Item.text (i : Item) : List Char := i.name.text ++ (i.newName?.elim [] NewName.text)

/-- A further name that is imported, with the gaps around the comma before it. -/
structure FurtherItem where
  before : Gap
  behind : Gap
  item : Item

def FurtherItem.text (f : FurtherItem) : List Char :=
  Gap.text f.before ++ ',' :: (Gap.text f.behind ++ f.item.text)

/-- Names between commas, and the gap before a last comma, if there is one. -/
structure Items where
  first : Item
  others : List FurtherItem
  comma : Option Gap

namespace Items

def all (is : Items) : List Item := is.first :: is.others.map (·.item)

def text (is : Items) : List Char :=
  is.first.text ++ (is.others.flatMap FurtherItem.text ++
    is.comma.elim [] fun g => Gap.text g ++ [','])

end Items

/-! ### Statements -/

def importWord : Word := ⟨['i', 'm', 'p', 'o', 'r', 't'], by decide⟩

def fromWord : Word := ⟨['f', 'r', 'o', 'm'], by decide⟩

/-- The dots of a relative import, with gaps between them. -/
def dotsText (dots : List Gap) : List Char := '.' :: dots.flatMap fun g => Gap.text g ++ ['.']

/-- What names are imported from, with the gaps before and behind it. -/
inductive Source where
  /-- A module. -/
  | absolute (lead : Break) (name : Dotted) (trail : Break)
  /-- Dots alone. -/
  | relative (lead : Gap) (dots : List Gap) (trail : Gap)
  /-- Dots and a module. -/
  | inner (lead : Gap) (dots : List Gap) (behind : Gap) (name : Dotted) (trail : Break)

/-- What is imported from there, with the gap before it. -/
inductive Listing where
  /-- All names. -/
  | wildcard (lead : Gap)
  | bare (lead : Break) (items : Items)
  | bracketed (lead behind : Gap) (items : Items) (before : Gap)

/-- An import statement as it is written. -/
inductive Spelling where
  | modules (lead : Break) (items : Items)
  | members (source : Source) (listing : Listing)

def Source.text : Source → List Char
  | .absolute lead name trail => lead.text ++ (name.text ++ trail.text)
  | .relative lead dots trail => Gap.text lead ++ (dotsText dots ++ Gap.text trail)
  | .inner lead dots behind name trail =>
      Gap.text lead ++ (dotsText dots ++ (Gap.text behind ++ (name.text ++ trail.text)))

def Listing.text : Listing → List Char
  | .wildcard lead => Gap.text lead ++ ['*']
  | .bare lead items => lead.text ++ items.text
  | .bracketed lead behind items before =>
      Gap.text lead ++ '(' :: (Gap.text behind ++ (items.text ++ (Gap.text before ++ [')'])))

def Spelling.text : Spelling → List Char
  | .modules lead items => importWord.chars ++ (lead.text ++ items.text)
  | .members source listing =>
      fromWord.chars ++ (source.text ++ (importWord.chars ++ listing.text))

/-! ### Proper spellings -/

/-- Where a line can end, the gaps behind words and commas leave the line open. -/
def Dotted.Fits (d : Dotted) (w : Want) : Prop := ∀ p ∈ d.others, p.before.Fits w

def Item.Fits (i : Item) (w : Want) : Prop :=
  i.name.Fits w ∧ ∀ r ∈ i.newName?, r.before.gap.Fits w

def FurtherItem.Fits (f : FurtherItem) (w : Want) : Prop :=
  f.before.Fits w ∧ f.behind.Fits w ∧ f.item.Fits w

def Items.Fits (is : Items) (w : Want) : Prop :=
  is.first.Fits w ∧ (∀ f ∈ is.others, f.Fits w) ∧ ∀ g ∈ is.comma, g.Fits w

instance (g : Gap) (w : Want) : Decidable (g.Fits w) :=
  inferInstanceAs (Decidable (w.newline = true → ∀ f ∈ g, f.inLine = true))

instance (d : Dotted) (w : Want) : Decidable (d.Fits w) :=
  inferInstanceAs (Decidable (∀ p ∈ d.others, p.before.Fits w))

instance (i : Item) (w : Want) : Decidable (i.Fits w) :=
  inferInstanceAs (Decidable (i.name.Fits w ∧ ∀ r ∈ i.newName?, r.before.gap.Fits w))

instance (f : FurtherItem) (w : Want) : Decidable (f.Fits w) :=
  inferInstanceAs (Decidable (f.before.Fits w ∧ f.behind.Fits w ∧ f.item.Fits w))

instance (is : Items) (w : Want) : Decidable (is.Fits w) :=
  inferInstanceAs (Decidable (is.first.Fits w ∧ (∀ f ∈ is.others, f.Fits w) ∧
    ∀ g ∈ is.comma, g.Fits w))

/-- The source is neither the module of directives nor taken for the word behind it. -/
def Source.Proper : Source → Prop
  | .absolute _ name _ => name.first.text ≠ "__future__"
  | .relative _ _ _ => True
  | .inner _ _ _ name _ => name.first ≠ importWord

def Listing.Proper : Listing → Prop
  | .bare _ items => items.Fits importEnd
  | _ => True

/-- A spelling that is read as it is meant: its lines do not end too early, and words that mean something
to the statement do not stand where they would be taken for that. -/
def Spelling.Proper : Spelling → Prop
  | .modules _ items => items.Fits importEnd
  | .members source listing => source.Proper ∧ listing.Proper

instance : (source : Source) → Decidable source.Proper
  | .absolute _ name _ => inferInstanceAs (Decidable (name.first.text ≠ "__future__"))
  | .relative _ _ _ => inferInstanceAs (Decidable True)
  | .inner _ _ _ name _ => inferInstanceAs (Decidable (name.first ≠ importWord))

instance : (listing : Listing) → Decidable listing.Proper
  | .wildcard _ => inferInstanceAs (Decidable True)
  | .bare _ items => inferInstanceAs (Decidable (items.Fits importEnd))
  | .bracketed _ _ _ _ => inferInstanceAs (Decidable True)

instance : (σ : Spelling) → Decidable σ.Proper
  | .modules _ items => inferInstanceAs (Decidable (items.Fits importEnd))
  | .members source listing => inferInstanceAs (Decidable (source.Proper ∧ listing.Proper))

/-! ### What spellings mean -/

def Source.reading : Source → Nat × Option String
  | .absolute _ name _ => (0, some name.reading)
  | .relative _ dots _ => ((dotsText dots).count '.', none)
  | .inner _ dots _ name _ => ((dotsText dots).count '.', some name.reading)

def Source.meaning : Source → Nat × Option String
  | .absolute _ name _ => (0, some name.name)
  | .relative _ dots _ => (dots.length + 1, none)
  | .inner _ dots _ name _ => (dots.length + 1, some name.name)

/-- The names that are imported. -/
def Listing.items : Listing → List Item
  | .wildcard _ => []
  | .bare _ items => items.all
  | .bracketed _ _ items _ => items.all

/-- The statement that is read. -/
def Spelling.reading : Spelling → ImportStatement
  | .modules _ items => .modules (items.all.map (·.name.reading))
  | .members source listing =>
      .members source.reading.1 source.reading.2 (listing.items.map (·.name.reading))

/-- The statement that is meant. -/
def Spelling.statement : Spelling → ImportStatement
  | .modules _ items => .modules (items.all.map (·.name.name))
  | .members source listing =>
      .members source.meaning.1 source.meaning.2 (listing.items.map (·.name.name))

/-- The gaps around and between the dots of a statement. -/
def Source.dotGaps : Source → List Gap
  | .absolute _ name _ => name.gaps
  | .relative _ dots _ => dots
  | .inner _ dots _ name _ => dots ++ name.gaps

def Spelling.dotGaps : Spelling → List Gap
  | .modules _ items => items.all.flatMap (·.name.gaps)
  | .members source listing => source.dotGaps ++ listing.items.flatMap (·.name.gaps)

/-- Whether a filling is white space. -/
def Filling.isBlank : Filling → Bool
  | .filler c _ => Text.isBlank c
  | _ => false

theorem isBlank_of_mem_text {g : Gap} (h : ∀ f ∈ g, f.isBlank = true) :
    ∀ c ∈ Gap.text g, Text.isBlank c = true := by
  intro c hc
  obtain ⟨f, hf, hc⟩ := List.mem_flatMap.1 hc
  have hblank := h f hf
  cases f with
  | filler d hd =>
      rw [List.mem_singleton.1 hc]
      exact hblank
  | join carriage => cases hblank
  | comment body hbody => cases hblank

theorem Word.mem_chars {v : Word} {c : Char} (h : c ∈ v.chars) : isIdentContinue c = true := by
  obtain ⟨chars, hv⟩ := v
  cases chars with
  | nil => cases h
  | cons d cs =>
      obtain ⟨hd, hcs⟩ := Bool.and_eq_true_iff.1 hv
      rcases List.mem_cons.1 h with rfl | h
      · exact isIdentContinue_of_isIdentStart hd
      · exact List.all_eq_true.1 hcs c h

theorem Word.isBlank_eq_false {v : Word} {c : Char} (h : c ∈ v.chars) : Text.isBlank c = false := by
  rw [← Bool.not_eq_true]
  intro hblank
  have hc := isIdentContinue_of_isFiller (c := c) (by simp [Stream.isFiller, hblank])
  rw [Word.mem_chars h] at hc
  cases hc

theorem Word.dot_not_mem (v : Word) : '.' ∉ v.chars := by
  intro h
  cases Word.mem_chars h

theorem Word.dottedText_chars (v : Word) : dottedText v.chars = v.chars := by
  rw [dottedText_of_not_mem v.dot_not_mem, trim_eq_self fun c hc => Word.isBlank_eq_false hc]

theorem Word.ne_nil (v : Word) : v.chars ≠ [] := by
  obtain ⟨chars, hv⟩ := v
  rintro rfl
  cases hv

namespace Dotted

/-- The name is never empty. -/
theorem dottedText_text_ne_nil (d : Dotted) : dottedText d.text ≠ [] := by
  obtain ⟨c, cs, hc⟩ := List.exists_cons_of_ne_nil d.first.ne_nil
  have hmem : c ∈ d.first.chars := by simp [hc]
  have hdot : c ≠ '.' := by
    rintro rfl
    exact d.first.dot_not_mem hmem
  have hstay : c ∈ dottedText d.text :=
    mem_dottedText (List.mem_append_left _ hmem) hdot (Word.isBlank_eq_false hmem)
  exact List.ne_nil_of_mem hstay

/-- If the gaps around the dots are white space, nothing is left of them. -/
theorem reading_eq_name {d : Dotted} (h : ∀ g ∈ d.gaps, ∀ f ∈ g, f.isBlank = true) :
    d.reading = d.name := by
  obtain ⟨first, others⟩ := d
  rw [reading, name, text]
  congr 1
  induction others generalizing first with
  | nil => simp [first.dottedText_chars]
  | cons p others ih =>
      have hp : ∀ g ∈ [p.before, p.behind], ∀ f ∈ g, f.isBlank = true := fun g hg =>
        h g (by simp only [gaps, List.flatMap_cons]; exact List.mem_append_left _ hg)
      have hothers : ∀ g ∈ gaps ⟨p.word, others⟩, ∀ f ∈ g, f.isBlank = true := fun g hg =>
        h g (by simp only [gaps, List.flatMap_cons]; exact List.mem_append_right _ hg)
      have hbefore := isBlank_of_mem_text (hp p.before (by simp))
      have hbehind := isBlank_of_mem_text (hp p.behind (by simp))
      have htext : first.chars ++ (p :: others).flatMap Part.text =
          (first.chars ++ Gap.text p.before) ++
            '.' :: (Gap.text p.behind ++ (p.word.chars ++ others.flatMap Part.text)) := by
        simp [Part.text]
      have hname : ['.'].intercalate (first.chars :: (p :: others).map fun p => p.word.chars) =
          first.chars ++ '.' :: ['.'].intercalate (p.word.chars :: others.map fun p => p.word.chars) := by
        rw [List.map_cons, List.intercalate_cons_cons, List.append_assoc, List.singleton_append]
      dsimp only at ih ⊢
      rw [htext, hname, dottedText_append_dot, dottedText_append_blank hbefore, first.dottedText_chars,
        dottedText_blank_append hbehind, ih p.word hothers]

end Dotted

theorem dot_not_mem_text {g : Gap} (h : ∀ f ∈ g, f.isBlank = true) : '.' ∉ Gap.text g := by
  intro hdot
  cases isBlank_of_mem_text h '.' hdot

theorem count_dotsText {dots : List Gap} (h : ∀ g ∈ dots, ∀ f ∈ g, f.isBlank = true) :
    (dotsText dots).count '.' = dots.length + 1 := by
  induction dots with
  | nil => rfl
  | cons g dots ih =>
      obtain ⟨hg, hdots⟩ := List.forall_mem_cons.1 h
      have hnone : (Gap.text g).count '.' = 0 := List.count_eq_zero.2 (dot_not_mem_text hg)
      have hrest := ih hdots
      rw [dotsText, List.count_cons_self] at hrest
      rw [dotsText, List.flatMap_cons, List.count_cons_self, List.count_append, List.count_append, hnone,
        List.length_cons]
      simp only [List.count_singleton_self]
      omega

theorem map_reading_eq_map_name {items : List Item}
    (h : ∀ g ∈ items.flatMap (·.name.gaps), ∀ f ∈ g, f.isBlank = true) :
    items.map (·.name.reading) = items.map (·.name.name) := by
  refine List.map_congr_left fun i hi => Dotted.reading_eq_name fun g hg => ?_
  exact h g (List.mem_flatMap.2 ⟨i, hi, hg⟩)

theorem Source.reading_eq_meaning {source : Source}
    (h : ∀ g ∈ source.dotGaps, ∀ f ∈ g, f.isBlank = true) : source.reading = source.meaning := by
  cases source with
  | absolute lead name trail => rw [reading, meaning, Dotted.reading_eq_name h]
  | relative lead dots trail =>
      rw [dotGaps] at h
      rw [reading, meaning, count_dotsText h]
  | inner lead dots behind name trail =>
      have hdots := fun g hg => h g (List.mem_append_left _ hg)
      have hname := fun g hg => h g (List.mem_append_right _ hg)
      rw [reading, meaning, count_dotsText hdots, Dotted.reading_eq_name hname]

/-- If the gaps around and between the dots are white space, then what is read is what is meant. -/
theorem Spelling.reading_eq_statement {σ : Spelling}
    (h : ∀ g ∈ σ.dotGaps, ∀ f ∈ g, f.isBlank = true) : σ.reading = σ.statement := by
  cases σ with
  | modules lead items => rw [reading, statement, map_reading_eq_map_name h]
  | members source listing =>
      have hsource := fun g hg => h g (List.mem_append_left _ hg)
      have hlisting := fun g hg => h g (List.mem_append_right _ hg)
      rw [reading, statement, Source.reading_eq_meaning hsource, map_reading_eq_map_name hlisting]

end ImportAtlas.Python
