import Mathlib.Data.List.DropRight
import Mathlib.Data.List.Forall2
import ImportAtlas.Proofs.Python.Spelling

/-!
# Spellings with another layout

The layout of a statement is the spaces, the tabs and the joined lines between its tokens. Two spellings
with the same words and marks that differ in nothing but their layout are laid out anew from one another.

A name is cleaned by trimming the texts between its dots, so white space next to a dot is of no account,
while a joined line there stays in the name, with all that is between it and the word. What stays is the
residue of the dot. So the statements that are read from two such spellings are the same if the residues
are, and as a rule only then. An exception are comments with dots in them, as cleaning takes these for
dots of the name.

Main definitions:

* `ImportAtlas.Python.Gap.Relaid`, `ImportAtlas.Python.Spelling.Relaid` — the same with another layout;
* `ImportAtlas.Python.Part.residue`, `ImportAtlas.Python.Spelling.residues` — what cleaning leaves around
  the dots of names.

Main results:

* `ImportAtlas.Python.Gap.Relaid.countP_eq` — layout has no characters but white space and backslashes;
* `ImportAtlas.Python.Spelling.Relaid.reading_eq` — **statements with the same residues are read alike**;
* `ImportAtlas.Python.Spelling.Relaid.residues_eq` — **statements that are read alike have the same
  residues**.
-/

set_option autoImplicit false

namespace ImportAtlas.Python

open ImportAtlas.Text

/-! ### Layout -/

/-- Whether a filling is layout: a space, a tab or a joined line. -/
def Filling.isLayout : Filling → Bool
  | .filler c _ => c == ' ' || c == '\t'
  | .join _ => true
  | .comment _ _ => false

/-- Gaps that differ in nothing but their layout. -/
def Gap.Relaid (g h : Gap) : Prop :=
  g.filter (fun f => !f.isLayout) = h.filter fun f => !f.isLayout

/-- The characters that layout consists of. -/
def layoutChars : List Char := [' ', '\t', '\\', '\r', '\n']

theorem Filling.mem_layoutChars {f : Filling} (h : f.isLayout = true) : ∀ c ∈ f.text, c ∈ layoutChars := by
  cases f with
  | filler c hc =>
      intro d hd
      rw [List.mem_singleton.1 hd]
      rcases Bool.or_eq_true_iff.1 h with h | h
      · rw [beq_iff_eq.1 h]
        decide
      · rw [beq_iff_eq.1 h]
        decide
  | join carriage => cases carriage <;> simp [text, layoutChars]
  | comment body hbody => cases h

section

variable {p : Char → Bool} (hp : ∀ c ∈ layoutChars, p c = false)
include hp

theorem Gap.countP_text (g : Gap) :
    (Gap.text g).countP p = (Gap.text (g.filter fun f => !f.isLayout)).countP p := by
  induction g with
  | nil => rfl
  | cons f g ih =>
      rw [Gap.text_cons, List.countP_append, ih, List.filter_cons]
      cases hf : f.isLayout with
      | true =>
          have hnone : f.text.countP p = 0 := List.countP_eq_zero.2 fun c hc => by
            rw [hp c (Filling.mem_layoutChars hf c hc)]
            exact Bool.false_ne_true
          rw [hnone, Nat.zero_add]
          rfl
      | false =>
          rw [Bool.not_false, if_pos rfl, Gap.text_cons, List.countP_append]

/-- Layout makes no difference to characters that it does not have. -/
theorem Gap.Relaid.countP_eq {g h : Gap} (hgh : g.Relaid h) :
    (Gap.text g).countP p = (Gap.text h).countP p := by
  rw [Gap.countP_text hp g, hgh, ← Gap.countP_text hp h]

end

theorem Gap.Relaid.count_dot {g h : Gap} (hgh : g.Relaid h) :
    (Gap.text g).count '.' = (Gap.text h).count '.' := hgh.countP_eq (by simp [layoutChars])

/-! ### Relaid spellings -/

structure Part.Relaid (p q : Part) : Prop where
  before : p.before.Relaid q.before
  behind : p.behind.Relaid q.behind
  word : p.word = q.word

structure Dotted.Relaid (d e : Dotted) : Prop where
  first : d.first = e.first
  others : List.Forall₂ Part.Relaid d.others e.others

structure NewName.Relaid (r q : NewName) : Prop where
  before : r.before.gap.Relaid q.before.gap
  behind : r.behind.gap.Relaid q.behind.gap
  word : r.word = q.word

structure Item.Relaid (i j : Item) : Prop where
  name : i.name.Relaid j.name
  newName? : Option.Rel NewName.Relaid i.newName? j.newName?

structure FurtherItem.Relaid (f g : FurtherItem) : Prop where
  before : f.before.Relaid g.before
  behind : f.behind.Relaid g.behind
  item : f.item.Relaid g.item

structure Items.Relaid (is js : Items) : Prop where
  first : is.first.Relaid js.first
  others : List.Forall₂ FurtherItem.Relaid is.others js.others
  comma : Option.Rel Gap.Relaid is.comma js.comma

inductive Source.Relaid : Source → Source → Prop where
  | absolute {lead lead' : Break} {name name' : Dotted} {trail trail' : Break}
      (hlead : lead.gap.Relaid lead'.gap) (hname : name.Relaid name')
      (htrail : trail.gap.Relaid trail'.gap) :
      Relaid (.absolute lead name trail) (.absolute lead' name' trail')
  | relative {lead lead' : Gap} {dots dots' : List Gap} {trail trail' : Gap}
      (hlead : lead.Relaid lead') (hdots : List.Forall₂ Gap.Relaid dots dots')
      (htrail : trail.Relaid trail') :
      Relaid (.relative lead dots trail) (.relative lead' dots' trail')
  | inner {lead lead' : Gap} {dots dots' : List Gap} {behind behind' : Gap} {name name' : Dotted}
      {trail trail' : Break} (hlead : lead.Relaid lead')
      (hdots : List.Forall₂ Gap.Relaid dots dots') (hbehind : behind.Relaid behind')
      (hname : name.Relaid name') (htrail : trail.gap.Relaid trail'.gap) :
      Relaid (.inner lead dots behind name trail) (.inner lead' dots' behind' name' trail')

inductive Listing.Relaid : Listing → Listing → Prop where
  | wildcard {lead lead' : Gap} (hlead : lead.Relaid lead') :
      Relaid (.wildcard lead) (.wildcard lead')
  | bare {lead lead' : Break} {items items' : Items} (hlead : lead.gap.Relaid lead'.gap)
      (hitems : items.Relaid items') : Relaid (.bare lead items) (.bare lead' items')
  | bracketed {lead lead' behind behind' : Gap} {items items' : Items} {before before' : Gap}
      (hlead : lead.Relaid lead') (hbehind : behind.Relaid behind') (hitems : items.Relaid items')
      (hbefore : before.Relaid before') :
      Relaid (.bracketed lead behind items before) (.bracketed lead' behind' items' before')

/-- Spellings of the same words and marks that differ in nothing but the spaces, the tabs and the joined
lines between them. -/
inductive Spelling.Relaid : Spelling → Spelling → Prop where
  | modules {lead lead' : Break} {items items' : Items} (hlead : lead.gap.Relaid lead'.gap)
      (hitems : items.Relaid items') : Relaid (.modules lead items) (.modules lead' items')
  | members {source source' : Source} {listing listing' : Listing} (hsource : source.Relaid source')
      (hlisting : listing.Relaid listing') :
      Relaid (.members source listing) (.members source' listing')

/-! ### Residues -/

/-- What cleaning leaves of a dot and the gaps around it: white space next to the dot is trimmed. -/
def Part.residue (p : Part) : List Char :=
  (Gap.text p.before).rdropWhile isBlank ++ '.' :: (Gap.text p.behind).dropWhile isBlank

def Dotted.residues (d : Dotted) : List (List Char) := d.others.map Part.residue

/-- The text of a name without the white space next to its dots. -/
def Dotted.trimmed (d : Dotted) : List Char :=
  d.first.chars ++ d.others.flatMap fun p => p.residue ++ p.word.chars

/-- There are no other dots in the gaps around the dots. -/
def Dotted.Plain (d : Dotted) : Prop :=
  ∀ p ∈ d.others, '.' ∉ Gap.text p.before ∧ '.' ∉ Gap.text p.behind

theorem dottedText_rdropWhile (a b : List Char) :
    dottedText (a ++ b.rdropWhile isBlank) = dottedText (a ++ b) := by
  have hb : b.rdropWhile isBlank ++ b.rtakeWhile isBlank = b := List.rdropWhile_append_rtakeWhile
  have hblank : ∀ c ∈ b.rtakeWhile isBlank, isBlank c = true := fun c hc =>
    List.mem_rtakeWhile_imp hc
  conv_rhs => rw [← hb, ← List.append_assoc, dottedText_append_blank hblank]

theorem dottedText_dropWhile (a b : List Char) :
    dottedText (a.dropWhile isBlank ++ b) = dottedText (a ++ b) := by
  have ha : a.takeWhile isBlank ++ a.dropWhile isBlank = a := List.takeWhile_append_dropWhile
  have hblank : ∀ c ∈ a.takeWhile isBlank, isBlank c = true := fun c hc => List.mem_takeWhile_imp hc
  conv_rhs => rw [← ha, List.append_assoc, dottedText_blank_append hblank]

/-- A name is cleaned to the same text without the white space next to its dots. -/
theorem Dotted.dottedText_trimmed (d : Dotted) : dottedText d.trimmed = dottedText d.text := by
  obtain ⟨first, others⟩ := d
  rw [trimmed, text]
  generalize first.chars = lead
  dsimp only
  induction others generalizing lead with
  | nil => rfl
  | cons p others ih =>
      rw [List.flatMap_cons, List.flatMap_cons, Part.residue, Part.text]
      simp only [List.append_assoc, List.cons_append]
      rw [← List.append_assoc, dottedText_append_dot, dottedText_rdropWhile, dottedText_dropWhile,
        ← List.append_assoc lead, dottedText_append_dot, ← List.append_assoc, ih, List.append_assoc]

/-! ### Plain names -/

theorem dropWhile_isBlank_append {x : List Char} (hne : x ≠ []) (hx : ∀ c ∈ x, isBlank c = false)
    (a b : List Char) :
    (a.dropWhile isBlank ++ (x ++ b)).dropWhile isBlank = a.dropWhile isBlank ++ (x ++ b) := by
  rw [List.dropWhile_append, List.dropWhile_idempotent]
  split
  · next hnil =>
      obtain ⟨c, cs, rfl⟩ := List.exists_cons_of_ne_nil hne
      rw [List.isEmpty_iff.1 hnil, List.nil_append, List.cons_append,
        List.dropWhile_cons_of_neg (by simp [hx c])]
  · rfl

/-- Trimming does not go beyond a text without white space. -/
theorem trim_dropWhile_append {x : List Char} (hne : x ≠ []) (hx : ∀ c ∈ x, isBlank c = false)
    (a b : List Char) : trim (a.dropWhile isBlank ++ (x ++ b.rdropWhile isBlank)) =
      a.dropWhile isBlank ++ (x ++ b.rdropWhile isBlank) := by
  rw [trim, dropWhile_isBlank_append hne hx, List.rdropWhile]
  simp only [List.reverse_append, List.reverse_reverse, List.append_assoc]
  rw [dropWhile_isBlank_append (by simpa using hne) (by simpa using hx)]
  simp

/-- A name with no dots in the gaps is cleaned by trimming the white space next to its dots. -/
theorem Dotted.Plain.dottedText_text {d : Dotted} (h : d.Plain) : dottedText d.text = d.trimmed := by
  rw [← d.dottedText_trimmed]
  obtain ⟨first, others⟩ := d
  rw [Plain] at h
  dsimp only at h
  -- a text may stand before the first word, as the gap does that is behind a dot
  have hlead : ∀ lead : List Char, '.' ∉ lead →
      dottedText (lead.dropWhile isBlank ++ trimmed ⟨first, others⟩) =
        lead.dropWhile isBlank ++ trimmed ⟨first, others⟩ := by
    induction others generalizing first with
    | nil =>
        intro lead hdot
        have hdrop : '.' ∉ lead.dropWhile isBlank := fun hmem =>
          hdot ((List.dropWhile_sublist _).subset hmem)
        have htrim := trim_dropWhile_append first.ne_nil (fun c hc => Word.isBlank_eq_false hc) lead []
        rw [List.rdropWhile_nil] at htrim
        rw [trimmed, List.flatMap_nil, dottedText_of_not_mem (by simp [hdrop, first.dot_not_mem]), htrim]
    | cons p others ih =>
        intro lead hdot
        obtain ⟨⟨hbefore, hbehind⟩, hothers⟩ := List.forall_mem_cons.1 h
        have hdrop : '.' ∉ lead.dropWhile isBlank := fun hmem =>
          hdot ((List.dropWhile_sublist _).subset hmem)
        have hrdrop : '.' ∉ (Gap.text p.before).rdropWhile isBlank := fun hmem =>
          hbefore ((List.rdropWhile_prefix _ _).subset hmem)
        have htext : lead.dropWhile isBlank ++ trimmed ⟨first, p :: others⟩ =
            (lead.dropWhile isBlank ++ (first.chars ++ (Gap.text p.before).rdropWhile isBlank)) ++
              '.' :: ((Gap.text p.behind).dropWhile isBlank ++ trimmed ⟨p.word, others⟩) := by
          simp [trimmed, Part.residue]
        rw [htext, dottedText_append_dot, ih p.word hothers _ hbehind,
          dottedText_of_not_mem (by simp [hdrop, first.dot_not_mem, hrdrop]),
          trim_dropWhile_append first.ne_nil fun c hc => Word.isBlank_eq_false hc]
  exact hlead [] nofun

/-! ### Names with another layout -/

/-- Characters that are neither white space nor backslashes. -/
def isSolid (c : Char) : Bool := !isBlank c && c != '\\'

theorem Word.isSolid_of_mem {v : Word} {c : Char} (h : c ∈ v.chars) : isSolid c = true := by
  have hne : c ≠ '\\' := by
    rintro rfl
    cases Word.mem_chars h
  simp [isSolid, Word.isBlank_eq_false h, hne]

theorem countP_dropWhile_isBlank (text : List Char) :
    (text.dropWhile isBlank).countP isSolid = text.countP isSolid := by
  have hblank : (text.takeWhile isBlank).countP isSolid = 0 := List.countP_eq_zero.2 fun c hc => by
    simp [isSolid, List.mem_takeWhile_imp hc]
  conv_rhs => rw [← List.takeWhile_append_dropWhile (p := isBlank) (l := text), List.countP_append, hblank,
    Nat.zero_add]

theorem countP_rdropWhile_isBlank (text : List Char) :
    (text.rdropWhile isBlank).countP isSolid = text.countP isSolid := by
  rw [List.rdropWhile, List.countP_reverse, countP_dropWhile_isBlank, List.countP_reverse]

theorem Part.Relaid.countP_residue {p q : Part} (h : p.Relaid q) :
    p.residue.countP isSolid = q.residue.countP isSolid := by
  have hlayout : ∀ c ∈ layoutChars, isSolid c = false := by
    have hall : layoutChars.all (fun c => !isSolid c) = true := by decide
    simpa using hall
  rw [Part.residue, Part.residue, List.countP_append, List.countP_append, List.countP_cons, List.countP_cons,
    countP_rdropWhile_isBlank, countP_rdropWhile_isBlank, countP_dropWhile_isBlank, countP_dropWhile_isBlank,
    h.before.countP_eq hlayout, h.behind.countP_eq hlayout]

/-- Texts before a word are the same if they have as many characters that are neither white space nor
backslashes, since the word begins with one. -/
theorem eq_of_append_word_eq {v : Word} {x x' text text' : List Char}
    (hcount : x.countP isSolid = x'.countP isSolid)
    (h : x ++ (v.chars ++ text) = x' ++ (v.chars ++ text')) : x = x' ∧ text = text' := by
  obtain ⟨c, cs, hv⟩ := List.exists_cons_of_ne_nil v.ne_nil
  have hc : isSolid c = true := Word.isSolid_of_mem (v := v) (by simp [hv])
  -- of two texts one begins with the other, and goes on with the word if it is longer
  have hlonger : ∀ {y z t t' : List Char}, v.chars ++ t = z ++ (v.chars ++ t') →
      (y ++ z).countP isSolid = y.countP isSolid → z = [] := by
    intro y z t t' heq hyz
    cases z with
    | nil => rfl
    | cons d z =>
        rw [hv, List.cons_append, List.cons_append] at heq
        obtain rfl := (List.cons.inj heq).1
        rw [List.countP_append, List.countP_cons_of_pos hc] at hyz
        omega
  rcases List.append_eq_append_iff.1 h with ⟨z, rfl, heq⟩ | ⟨z, rfl, heq⟩
  · obtain rfl := hlonger heq hcount.symm
    rw [List.nil_append] at heq
    exact ⟨(List.append_nil _).symm, List.append_cancel_left heq⟩
  · obtain rfl := hlonger heq hcount
    rw [List.nil_append] at heq
    exact ⟨List.append_nil _, (List.append_cancel_left heq).symm⟩

namespace Dotted.Relaid

variable {d e : Dotted} (h : d.Relaid e)
include h

theorem plain (hd : d.Plain) : e.Plain := by
  obtain ⟨first, others⟩ := d
  obtain ⟨first', others'⟩ := e
  obtain ⟨-, hothers⟩ := h
  rw [Plain] at hd ⊢
  dsimp only at hd hothers ⊢
  induction hothers with
  | nil => exact nofun
  | cons hp _ ih =>
      obtain ⟨⟨hbefore, hbehind⟩, hrest⟩ := List.forall_mem_cons.1 hd
      refine List.forall_mem_cons.2 ⟨⟨?_, ?_⟩, ih hrest⟩
      · rwa [← List.count_eq_zero, ← hp.before.count_dot, List.count_eq_zero]
      · rwa [← List.count_eq_zero, ← hp.behind.count_dot, List.count_eq_zero]

theorem trimmed_eq (hres : d.residues = e.residues) : d.trimmed = e.trimmed := by
  obtain ⟨first, others⟩ := d
  obtain ⟨first', others'⟩ := e
  obtain ⟨hfirst, hothers⟩ := h
  rw [residues, residues] at hres
  dsimp only at hfirst hothers hres
  rw [trimmed, trimmed, hfirst]
  congr 1
  induction hothers with
  | nil => rfl
  | cons hp _ ih =>
      obtain ⟨hpq, hrest⟩ := List.cons.inj hres
      rw [List.flatMap_cons, List.flatMap_cons, hpq, hp.word, ih hrest]

/-- Names with the same residues are read alike. -/
theorem reading_eq (hres : d.residues = e.residues) : d.reading = e.reading := by
  rw [reading, reading, ← d.dottedText_trimmed, ← e.dottedText_trimmed, h.trimmed_eq hres]

/-- Names that are read alike have the same residues. -/
theorem residues_eq (hd : d.Plain) (hread : d.reading = e.reading) : d.residues = e.residues := by
  have htext : d.trimmed = e.trimmed := by
    rw [reading, reading, hd.dottedText_text, (h.plain hd).dottedText_text] at hread
    exact String.ofList_injective hread
  clear hd hread
  obtain ⟨first, others⟩ := d
  obtain ⟨first', others'⟩ := e
  obtain ⟨hfirst, hothers⟩ := h
  dsimp only at hfirst hothers
  rw [trimmed, trimmed, hfirst] at htext
  replace htext := List.append_cancel_left htext
  rw [residues, residues]
  dsimp only at htext ⊢
  induction hothers with
  | nil => rfl
  | cons hp _ ih =>
      rw [List.flatMap_cons, List.flatMap_cons, hp.word, List.append_assoc, List.append_assoc] at htext
      obtain ⟨hres, hrest⟩ := eq_of_append_word_eq hp.countP_residue htext
      rw [List.map_cons, List.map_cons, hres, ih hrest]

end Dotted.Relaid

/-! ### Statements with another layout -/

/-- The names of a statement, in their order. -/
def Source.names : Source → List Dotted
  | .absolute _ name _ => [name]
  | .relative _ _ _ => []
  | .inner _ _ _ name _ => [name]

def Spelling.names : Spelling → List Dotted
  | .modules _ items => items.all.map (·.name)
  | .members source listing => source.names ++ listing.items.map (·.name)

/-- What cleaning leaves around the dots of the names. -/
def Spelling.residues (σ : Spelling) : List (List (List Char)) := σ.names.map Dotted.residues

/-- No comment next to a dot of a name has a dot in it. -/
def Spelling.Plain (σ : Spelling) : Prop := ∀ d ∈ σ.names, d.Plain

/-- Values that agree for related elements agree for related lists. -/
theorem map_eq_map_of_forall₂ {α β γ : Type} {R : α → α → Prop} {f : α → β} {g : α → γ}
    {as as' : List α} (has : List.Forall₂ R as as')
    (h : ∀ a ∈ as, ∀ a', R a a' → f a = f a' → g a = g a') (hf : as.map f = as'.map f) :
    as.map g = as'.map g := by
  induction has with
  | nil => rfl
  | cons ha _ ih =>
      obtain ⟨hhead, htail⟩ := List.cons.inj hf
      obtain ⟨hfirst, hrest⟩ := List.forall_mem_cons.1 h
      rw [List.map_cons, List.map_cons, hfirst _ ha hhead, ih hrest htail]

theorem Items.Relaid.forall₂_all {is js : Items} (h : is.Relaid js) :
    List.Forall₂ Dotted.Relaid (is.all.map (·.name)) (js.all.map (·.name)) := by
  rw [List.forall₂_map_left_iff, List.forall₂_map_right_iff, all, all]
  refine .cons h.first.name ?_
  rw [List.forall₂_map_left_iff, List.forall₂_map_right_iff]
  exact h.others.imp fun _ _ hf => hf.item.name

theorem Listing.Relaid.forall₂_items {listing listing' : Listing} (h : listing.Relaid listing') :
    List.Forall₂ Dotted.Relaid (listing.items.map (·.name)) (listing'.items.map (·.name)) := by
  cases h with
  | wildcard hlead => exact .nil
  | bare hlead hitems => exact hitems.forall₂_all
  | bracketed hlead hbehind hitems hbefore => exact hitems.forall₂_all

theorem Source.Relaid.forall₂_names {source source' : Source} (h : source.Relaid source') :
    List.Forall₂ Dotted.Relaid source.names source'.names := by
  cases h with
  | absolute hlead hname htrail => exact .cons hname .nil
  | relative hlead hdots htrail => exact .nil
  | inner hlead hdots hbehind hname htrail => exact .cons hname .nil

theorem count_dotsText_eq {dots dots' : List Gap} (h : List.Forall₂ Gap.Relaid dots dots') :
    (dotsText dots).count '.' = (dotsText dots').count '.' := by
  rw [dotsText, dotsText, List.count_cons_self, List.count_cons_self]
  congr 1
  induction h with
  | nil => rfl
  | cons hg _ ih =>
      rw [List.flatMap_cons, List.flatMap_cons, List.count_append, List.count_append, List.count_append,
        List.count_append, hg.count_dot, ih]

/-- Layout makes no difference to the level of a source. -/
theorem Source.Relaid.reading_eq_iff {source source' : Source} (h : source.Relaid source') :
    source.reading = source'.reading ↔
      source.names.map Dotted.reading = source'.names.map Dotted.reading := by
  cases h with
  | absolute hlead hname htrail => simp [reading, names]
  | relative hlead hdots htrail => simp [reading, names, count_dotsText_eq hdots]
  | inner hlead hdots hbehind hname htrail => simp [reading, names, count_dotsText_eq hdots]

namespace Spelling.Relaid

variable {σ τ : Spelling} (h : σ.Relaid τ)
include h

theorem forall₂_names : List.Forall₂ Dotted.Relaid σ.names τ.names := by
  cases h with
  | modules hlead hitems => exact hitems.forall₂_all
  | members hsource hlisting => exact List.rel_append hsource.forall₂_names hlisting.forall₂_items

/-- Statements are read alike if their names are. -/
theorem reading_eq_iff :
    σ.reading = τ.reading ↔ σ.names.map Dotted.reading = τ.names.map Dotted.reading := by
  cases h with
  | modules hlead hitems => simp [reading, names, Function.comp_def]
  | @members source source' listing listing' hsource hlisting =>
      have hlength := hsource.forall₂_names.length_eq
      have hsplit : ∀ l l' : List String,
          source.names.map Dotted.reading ++ l = source'.names.map Dotted.reading ++ l' ↔
            source.names.map Dotted.reading = source'.names.map Dotted.reading ∧ l = l' := fun l l' =>
        ⟨fun heq => List.append_inj heq (by simp [hlength]), fun heq => by rw [heq.1, heq.2]⟩
      rw [reading, reading, names, names, List.map_append, List.map_append, hsplit,
        ← hsource.reading_eq_iff, ImportStatement.members.injEq, Prod.ext_iff, and_assoc]
      simp [Function.comp_def]

/-- Statements with the same residues are read alike. -/
theorem reading_eq (hres : σ.residues = τ.residues) : σ.reading = τ.reading :=
  h.reading_eq_iff.2 (map_eq_map_of_forall₂ h.forall₂_names (fun _ _ _ hd => hd.reading_eq) hres)

/-- Statements that are read alike have the same residues. -/
theorem residues_eq (hσ : σ.Plain) (hread : σ.reading = τ.reading) : σ.residues = τ.residues :=
  map_eq_map_of_forall₂ h.forall₂_names (fun d hd _ hde => hde.residues_eq (hσ d hd))
    (h.reading_eq_iff.1 hread)

end Spelling.Relaid

end ImportAtlas.Python
