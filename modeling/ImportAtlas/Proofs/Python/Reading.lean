import Mathlib.Data.List.Forall2
import ImportAtlas.Proofs.Python.Nodes
import ImportAtlas.Proofs.Python.Outcome

/-!
# Reading names

The readers of dotted names and of names between commas are followed along the parts of a spelling. They
read all of it, up to the text behind it, unless a block ends before that.

Main definitions:

* `ImportAtlas.Python.Item.tree` — the node of a name that is imported.

Main results:

* `ImportAtlas.Python.gives_dottedName`, `ImportAtlas.Python.gives_importNames` — **names are
  read as they are written**.
-/

set_option autoImplicit false

namespace ImportAtlas.Python

open ImportAtlas.Text Reader

variable {indents : List Nat} {w : Want} {rest : List Char} {s : Stream}

theorem Doomed.token_ne_mark (h : Doomed indents w s) (m : Mark) : s.token ≠ .mark m := by
  rw [h.token]
  nofun

theorem Doomed.token_ne_word (h : Doomed indents w s) (text : String) : s.token ≠ .word text := by
  rw [h.token]
  nofun

theorem Doomed.gives_ident (h : Doomed indents w s) {v : Want} {Q : Cursor → Stream → Prop} :
    Gives indents (ident v) s Q :=
  Reader.gives_ident (fun _ hword => absurd hword (h.token_ne_word _)) fun _ => h.indented

/-- The token behind what has been read, as a text goes on or as a block ends. -/
theorem Done.token {P : Prop} {T : Token → Prop} (h : Done indents w rest P s)
    (hthen : Then indents w rest T) (hdedent : T .dedent) : T s.token := by
  rcases h with ⟨-, c, hc, rfl⟩ | hdoomed
  · exact hthen c hc
  · rw [hdoomed.token]
    exact hdedent

/-! ### Pieces of the same form -/

section

variable {σ α β : Type} {step : σ → Reader (σ ⊕ α)} {text : β → List Char} {L : List β → σ → Prop}
  {Q : α → Stream → Prop}

/-- A loop that reads one piece in each round reads all pieces, unless a block ends before that. -/
theorem gives_pieces
    (hround : ∀ b bs x c, L (b :: bs) x → c.At indents (text b ++ (bs.flatMap text ++ rest)) →
      Gives indents (step x) (Stream.fetch w c) fun r t =>
        (∃ y, r = .inl y ∧ Done indents w (bs.flatMap text ++ rest) (L bs y) t) ∨
        ∃ a, r = .inr a ∧ Q a t)
    (hlast : ∀ x c, L [] x → c.At indents rest → Gives indents (step x) (Stream.fetch w c) fun r t =>
      ∃ a, r = .inr a ∧ Q a t)
    (hdoomed : ∀ x t, Doomed indents w t → Gives indents (step x) t fun r t => ∃ a, r = .inr a ∧ Q a t)
    {bs : List β} {x : σ} (hs : Done indents w (bs.flatMap text ++ rest) (L bs x) s)
    (hleft : ∀ c : Cursor, c.At indents (bs.flatMap text ++ rest) →
      bs.length ≤ (Stream.fetch w c).start.left + 1) :
    Gives indents (loop step x) s Q := by
  let Inv (n : Nat) (x : σ) (s : Stream) : Prop :=
    ∃ bs : List β, bs.length = n ∧ Done indents w (bs.flatMap text ++ rest) (L bs x) s
  have hstep : ∀ n x s, Inv n x s → Gives indents (step x) s fun r t =>
      (∃ m < n, ∃ y, r = .inl y ∧ Inv m y t) ∨ ∃ a, r = .inr a ∧ Q a t := by
    rintro n x s ⟨bs, rfl, ⟨hbs, c, hc, rfl⟩ | hd⟩
    · cases bs with
      | nil => exact (hlast x c hbs hc).mono fun r t hr => .inr hr
      | cons b bs =>
          rw [List.flatMap_cons, List.append_assoc] at hc
          refine (hround b bs x c hbs hc).mono fun r t hr => hr.imp_left ?_
          rintro ⟨y, rfl, hdone⟩
          exact ⟨bs.length, by simp, y, rfl, bs, rfl, hdone⟩
    · exact (hdoomed x s hd).mono fun r t hr => .inr hr
  rcases hs with ⟨hbs, c, hc, rfl⟩ | hd
  · have hlength := hleft c hc
    exact gives_loop hstep ⟨bs, rfl, .inl ⟨hbs, c, hc, rfl⟩⟩ (by omega)
  · exact gives_loop hstep ⟨[], rfl, .inr hd⟩ (by simp)

/-- There are no more pieces than characters to read, if each piece is a character behind a gap with
some text. -/
theorem length_pieces_le (hw : w.Inside) (htext : ∀ b, text b ≠ []) {bs : List β}
    (hbs : ∀ b ∈ bs, ∃ g ch more, text b = Gap.text g ++ ch :: more ∧ g.Fits w ∧
      ∀ more, Begins (ch :: more)) {c : Cursor} (hc : c.At indents (bs.flatMap text ++ rest)) :
    bs.length ≤ (Stream.fetch w c).start.left + 1 := by
  cases bs with
  | nil => simp
  | cons b bs =>
      obtain ⟨g, ch, more, hb, hg, hbegins⟩ := hbs b List.mem_cons_self
      rw [List.flatMap_cons, hb, List.append_assoc, List.append_assoc, List.cons_append] at hc
      have hlength := (Stream.passed hw hg (hbegins _) hc).length_le
      have hpieces := length_le_length_flatMap htext bs
      simp only [List.length_cons, List.length_append] at hlength ⊢
      omega

end

/-! ### Texts that go on behind a gap -/

theorem begins_cons {ch : Char} (hfiller : Stream.isFiller ch = false) (hcomment : ch ≠ '#')
    (hjoin : ch ≠ '\\') (text : List Char) : Begins (ch :: text) :=
  ⟨ch, text, rfl, hfiller, hcomment, hjoin⟩

/-- What has been read is as it should be, and the text behind a gap is next, or a block has ended. -/
theorem Done.passed {P : Prop} {g : Gap} {text : List Char}
    (h : Done indents w (Gap.text g ++ text) P s) (hw : w.Inside) (hg : g.Fits w) (ht : Begins text) :
    (P ∧ Ahead indents text s) ∨ Doomed indents w s := by
  rcases h with ⟨hP, c, hc, rfl⟩ | hdoomed
  · rcases Stream.passed hw hg ht hc with hahead | ⟨hdoomed, -⟩
    · exact .inl ⟨hP, hahead⟩
    · exact .inr hdoomed
  · exact .inr hdoomed

/-- The token behind a gap. -/
theorem then_gap {P : Token → Prop} {g : Gap} {text : List Char} (hw : w.Inside) (hg : g.Fits w)
    (ht : Begins text) (htoken : ∀ s, Ahead indents text s → P s.token) (hdedent : P .dedent) :
    Then indents w (Gap.text g ++ text) P := by
  intro c hc
  rcases Stream.passed hw hg ht hc with hahead | ⟨hdoomed, -⟩
  · exact htoken _ hahead
  · rw [hdoomed.token]
    exact hdedent

/-- A word behind a gap is read, unless a block ends before it. -/
theorem gives_ident_gap {g : Gap} {v : Word} {text : List Char} (htext : Apart text) {c : Cursor}
    (hc : c.At indents (Gap.text g ++ (v.chars ++ text))) {Q : Cursor → Stream → Prop}
    (hQ : ∀ d : Cursor, d.At indents text → Q d (Stream.fetch w d)) :
    Gives indents (ident w) (Stream.fetch {} c) Q := by
  rcases Stream.passed inside_default (fits_of_newline rfl g) (v.begins text) hc with
    hword | ⟨hdoomed, -⟩
  · obtain ⟨hword, hbehind⟩ := hword.word htext
    exact gives_ident (fun _ _ => hQ _ hbehind) fun hno => absurd hword (hno _)
  · exact hdoomed.gives_ident

/-! ### Dotted names -/

theorem apart_parts (ps : List Part) (h : Apart rest) : Apart (ps.flatMap Part.text ++ rest) := by
  cases ps with
  | nil => exact h
  | cons p ps =>
      rw [List.flatMap_cons, Part.text, List.append_assoc, List.append_assoc]
      exact (apart_cons (by decide) _).gap p.before

theorem Part.text_ne_nil (p : Part) : p.text ≠ [] := by simp [Part.text]

theorem Part.text_append (p : Part) (text : List Char) :
    p.text ++ text = Gap.text p.before ++ '.' :: (Gap.text p.behind ++ (p.word.chars ++ text)) := by
  simp [Part.text]

/-- Takes a dot with a further word, or ends a name. -/
def nextPart (w : Want) (last : Cursor) : Reader (Cursor ⊕ Cursor) := do
  if ← mark? .dot {} then return .inl (← ident w) else return .inr last

theorem gives_nextPart_end {last : Cursor} {Q : Cursor ⊕ Cursor → Stream → Prop}
    (h : s.token ≠ .mark .dot) (hQ : Q (.inr last) s) : Gives indents (nextPart w last) s Q :=
  gives_ite_mark?_neg h (gives_pure hQ)

/-- A dot with a further word is read, unless a block ends before it. -/
theorem gives_part (hw : w.Inside) {p : Part} (hp : p.before.Fits w) {text : List Char}
    (htext : Apart text) (last : Cursor) {c : Cursor} (hc : c.At indents (p.text ++ text)) :
    Gives indents (nextPart w last) (Stream.fetch w c) fun r t =>
      (∃ d, r = .inl d ∧ d.At indents text ∧ t = Stream.fetch w d) ∨
      ∃ d, r = .inr d ∧ Doomed indents w t := by
  rw [p.text_append] at hc
  rcases Stream.passed hw hp (begins_cons rfl (by decide) (by decide) _) hc with
    hahead | ⟨hdoomed, -⟩
  · obtain ⟨htoken, hnext⟩ := hahead.dot ((p.word.dotFree text).gap p.behind)
    refine gives_ite_mark?_pos htoken (Gives.bind (gives_ident_gap htext hnext fun d hd => ?_))
    exact gives_pure (.inl ⟨d, rfl, hd, rfl⟩)
  · exact gives_nextPart_end (hdoomed.token_ne_mark _) (.inr ⟨last, rfl, hdoomed⟩)

/-- The further words of a name are read up to the last one. -/
theorem gives_parts (hw : w.Inside) (hrest : Apart rest)
    (hthen : Then indents w rest fun token => token ≠ .mark .dot) {ps : List Part}
    (hps : ∀ p ∈ ps, p.before.Fits w) {c : Cursor} (hc : c.At indents (ps.flatMap Part.text ++ rest)) :
    Gives indents (loop (nextPart w) c) (Stream.fetch w c) fun last s =>
      Done indents w rest (last.left = rest.length) s := by
  let L (ps : List Part) (last : Cursor) : Prop := (∀ p ∈ ps, p.before.Fits w) ∧
    last.left = (ps.flatMap Part.text ++ rest).length
  have hpieces : ∀ p ∈ ps, ∃ g ch more, p.text = Gap.text g ++ ch :: more ∧ g.Fits w ∧
      ∀ more, Begins (ch :: more) := fun p hp =>
    ⟨p.before, '.', Gap.text p.behind ++ p.word.chars, by simp [Part.text], hps p hp,
      begins_cons rfl (by decide) (by decide)⟩
  refine gives_pieces (L := L) ?_ ?_ ?_ (.inl ⟨⟨hps, hc.left⟩, c, hc, rfl⟩)
    fun c hc => length_pieces_le hw Part.text_ne_nil hpieces hc
  · rintro p ps x c ⟨hps, -⟩ hc
    obtain ⟨hp, hps⟩ := List.forall_mem_cons.1 hps
    refine (gives_part hw hp (apart_parts ps hrest) x hc).mono fun r t hr => ?_
    rcases hr with ⟨d, rfl, hd, rfl⟩ | ⟨d, rfl, hdoomed⟩
    · exact .inl ⟨d, rfl, .inl ⟨⟨hps, hd.left⟩, d, hd, rfl⟩⟩
    · exact .inr ⟨d, rfl, .inr hdoomed⟩
  · rintro last c ⟨-, hlast⟩ hc
    exact gives_nextPart_end (hthen c hc) ⟨last, rfl, .inl ⟨hlast, c, hc, rfl⟩⟩
  · intro last t hdoomed
    exact gives_nextPart_end (hdoomed.token_ne_mark _) ⟨last, rfl, .inr hdoomed⟩

theorem Dotted.text_append (d : Dotted) (text : List Char) :
    d.text ++ text = d.first.chars ++ (d.others.flatMap Part.text ++ text) := by simp [Dotted.text]

theorem Dotted.begins (d : Dotted) (text : List Char) : Begins (d.text ++ text) := by
  rw [d.text_append]
  exact d.first.begins _

theorem Ahead.dotted {d : Dotted} (h : Ahead indents (d.text ++ rest) s) (hrest : Apart rest) :
    s.token = .word d.first.text ∧ s.next.At indents (d.others.flatMap Part.text ++ rest) := by
  rw [d.text_append] at h
  exact h.word (apart_parts d.others hrest)

/-- A dotted name is read with all that stands between its words. -/
theorem gives_dottedName (hw : w.Inside) (hrest : Apart rest)
    (hthen : Then indents w rest fun token => token ≠ .mark .dot) {d : Dotted} (hd : d.Fits w)
    (hs : Ahead indents (d.text ++ rest) s) :
    Gives indents (dottedName w) s fun t s' =>
      Done indents w rest (t = .leaf .dottedName s.start.pos (String.ofList d.text)) s' := by
  obtain ⟨hword, hnext⟩ := hs.dotted hrest
  refine Gives.bind (gives_get (Gives.bind (gives_ident (fun _ _ => ?_) fun hno =>
    absurd hword (hno _))))
  refine Gives.bind ((gives_parts hw hrest hthen hd hnext).mono fun last s' hdone => gives_pure ?_)
  exact hdone.imp_left (And.imp_left fun hlast => by rw [hs.start.textTo hlast])

/-! ### Names between commas -/

theorem apart_newName (r? : Option NewName) (h : Apart rest) :
    Apart (r?.elim [] NewName.text ++ rest) := by
  cases r? with
  | none => exact h
  | some r =>
      rw [Option.elim_some, NewName.text, List.append_assoc]
      exact r.before.apart _

/-- The node of a name that is imported. -/
def Item.tree (i : Item) (pos : Position) : Tree :=
  let name := Tree.leaf .dottedName pos (String.ofList i.name.text)
  if i.newName?.isSome then .inner .aliasedImport pos [name.withRole .name] else name

theorem NewName.text_append (r : NewName) (text : List Char) :
    r.text ++ text = Gap.text r.before.gap ++ (asWord.chars ++
      (Gap.text r.behind.gap ++ (r.word.chars ++ text))) := by
  simp [NewName.text, Break.text]

/-- A token that neither goes on with names nor with a part of a name. -/
def Token.EndsNames (token : Token) : Prop :=
  token ≠ .mark .dot ∧ token ≠ .mark .comma ∧ ∀ text, token ≠ .word text

/-- A name is read with the new name that it may have. -/
theorem gives_importName (hw : w.Inside) (hrest : Apart rest)
    (hthen : Then indents w rest fun token => token ≠ .mark .dot ∧ token ≠ .word "as") {i : Item}
    (hi : i.Fits w) (hs : Ahead indents (i.text ++ rest) s) :
    Gives indents (importName w) s fun t s' =>
      Done indents w rest (t = i.tree s.start.pos) s' := by
  obtain ⟨d, r?⟩ := i
  obtain ⟨hd, hr⟩ := hi
  rw [Item.text, List.append_assoc] at hs
  have hnames : Apart (r?.elim [] NewName.text ++ rest) := apart_newName r? hrest
  refine Gives.bind (gives_here ?_)
  cases r? with
  | none =>
      refine Gives.bind ((gives_dottedName hw hrest (fun c hc => (hthen c hc).1) hd hs).mono
        fun t s' hdone => ?_)
      have htoken := (hdone.token hthen ⟨nofun, nofun⟩).2
      exact gives_ite_keyword?_neg htoken (gives_pure hdone)
  | some r =>
      have hbefore : r.before.gap.Fits w := hr r rfl
      rw [Option.elim_some, r.text_append] at hs hnames
      have hbegins := asWord.begins (Gap.text r.behind.gap ++ (r.word.chars ++ rest))
      have hdots : Then indents w (Gap.text r.before.gap ++ (asWord.chars ++
          (Gap.text r.behind.gap ++ (r.word.chars ++ rest)))) fun token => token ≠ .mark .dot := by
        refine then_gap hw hbefore hbegins (fun s hs => ?_) nofun
        rw [(hs.word (r.behind.apart _)).1]
        nofun
      refine Gives.bind ((gives_dottedName hw hnames hdots hd hs).mono fun t s' hdone => ?_)
      rcases hdone.passed hw hbefore hbegins with ⟨rfl, hahead⟩ | hdoomed
      · obtain ⟨htoken, hnext⟩ := hahead.word (r.behind.apart _)
        refine gives_ite_keyword?_pos htoken (Gives.bind (gives_ident_gap hrest hnext fun d hd => ?_))
        exact gives_pure (.inl ⟨rfl, d, hd, rfl⟩)
      · exact gives_ite_keyword?_neg (hdoomed.token_ne_word _) (gives_pure (.inr hdoomed))

/-- Takes a comma with a further name, or ends the names. -/
def nextName (w : Want) (names : List Tree) : Reader (List Tree ⊕ List Tree) := do
  if ← mark? .comma w then
    match ← peek with
    | .word _ => return .inl (names ++ [(← importName w).withRole .name])
    | _ => return .inr names
  else
    return .inr names

theorem gives_nextName_of_ne {names : List Tree} {Q : List Tree ⊕ List Tree → Stream → Prop}
    (h : s.token ≠ .mark .comma) (hQ : Q (.inr names) s) : Gives indents (nextName w names) s Q :=
  gives_ite_mark?_neg h (gives_pure hQ)

theorem importNames_eq (w : Want) : importNames w = (do
    let first ← importName w
    loop (nextName w) [first.withRole .name]) := rfl

theorem FurtherItem.text_append (f : FurtherItem) (text : List Char) :
    f.text ++ text = Gap.text f.before ++ ',' :: (Gap.text f.behind ++ (f.item.text ++ text)) := by
  simp [FurtherItem.text]

theorem FurtherItem.text_ne_nil (f : FurtherItem) : f.text ≠ [] := by simp [FurtherItem.text]

/-- The text of a last comma. -/
def commaText (comma : Option Gap) : List Char := comma.elim [] fun g => Gap.text g ++ [',']

theorem begins_comma (text : List Char) : Begins (',' :: text) :=
  begins_cons rfl (by decide) (by decide) text

/-- Behind a name there is a comma, or the names have ended. -/
theorem comma_or_end {fs : List FurtherItem} {comma : Option Gap} (hfs : ∀ f ∈ fs, f.Fits w)
    (hcomma : ∀ g ∈ comma, g.Fits w) (rest : List Char) :
    (∃ g text, fs.flatMap FurtherItem.text ++ (commaText comma ++ rest) = Gap.text g ++ ',' :: text ∧
      g.Fits w) ∨ fs.flatMap FurtherItem.text ++ (commaText comma ++ rest) = rest := by
  cases fs with
  | nil =>
      cases comma with
      | none => exact .inr rfl
      | some g => exact .inl ⟨g, rest, by simp [commaText], hcomma g rfl⟩
  | cons f fs =>
      rw [List.flatMap_cons, List.append_assoc, f.text_append]
      exact .inl ⟨f.before, _, rfl, (hfs f (by simp)).1⟩

section

variable {fs : List FurtherItem} {comma : Option Gap} (hfs : ∀ f ∈ fs, f.Fits w)
  (hcomma : ∀ g ∈ comma, g.Fits w)
include hfs hcomma

theorem apart_furtherItems (h : Apart rest) :
    Apart (fs.flatMap FurtherItem.text ++ (commaText comma ++ rest)) := by
  rcases comma_or_end hfs hcomma rest with ⟨g, text, heq, -⟩ | heq
  · rw [heq]
    exact (apart_cons (by decide) text).gap g
  · rwa [heq]

theorem then_furtherItems (hw : w.Inside) (hthen : Then indents w rest Token.EndsNames) :
    Then indents w (fs.flatMap FurtherItem.text ++ (commaText comma ++ rest)) fun token =>
      token ≠ .mark .dot ∧ token ≠ .word "as" := by
  rcases comma_or_end hfs hcomma rest with ⟨g, text, heq, hg⟩ | heq
  · rw [heq]
    refine then_gap hw hg (begins_comma text) (fun s hs => ?_) ⟨nofun, nofun⟩
    rw [hs.comma.1]
    exact ⟨nofun, nofun⟩
  · rw [heq]
    exact fun c hc => ⟨(hthen c hc).1, (hthen c hc).2.2 _⟩

end

/-- The node of a name among others. -/
def Named (t : Tree) (i : Item) : Prop := ∃ pos, t = (i.tree pos).withRole .name

theorem Ahead.item {i : Item} (h : Ahead indents (i.text ++ rest) s) (hrest : Apart rest) :
    s.token = .word i.name.first.text := by
  rw [Item.text, List.append_assoc] at h
  exact (h.dotted (apart_newName i.newName? hrest)).1

theorem Item.begins (i : Item) (text : List Char) : Begins (i.text ++ text) := by
  rw [Item.text, List.append_assoc]
  exact i.name.begins _

/-- A comma with a further name is read, unless a block ends before it. -/
theorem gives_nextName (hw : w.Inside) {f : FurtherItem} (hf : f.Fits w) {text : List Char}
    (htext : Apart text)
    (hthen : Then indents w text fun token => token ≠ .mark .dot ∧ token ≠ .word "as")
    (names : List Tree) {c : Cursor} (hc : c.At indents (f.text ++ text)) :
    Gives indents (nextName w names) (Stream.fetch w c) fun r s =>
      (∃ t, r = .inl (names ++ [t]) ∧ Done indents w text (Named t f.item) s) ∨
      r = .inr names ∧ Doomed indents w s := by
  obtain ⟨hbefore, hbehind, hitem⟩ := hf
  rw [f.text_append] at hc
  rcases Stream.passed hw hbefore (begins_comma _) hc with hahead | ⟨hdoomed, -⟩
  · obtain ⟨htoken, hnext⟩ := hahead.comma
    refine gives_ite_mark?_pos htoken (Gives.bind (gives_peek ?_))
    rcases Stream.passed hw hbehind (f.item.begins text) hnext with hname | ⟨hdoomed, -⟩
    · rw [hname.item htext]
      refine Gives.bind ((gives_importName hw htext hthen hitem hname).mono fun t s hdone => ?_)
      exact gives_pure (.inl ⟨_, rfl, hdone.imp_left (And.imp_left fun ht => ⟨_, by rw [ht]⟩)⟩)
    · rw [hdoomed.token]
      exact gives_pure (.inr ⟨rfl, hdoomed⟩)
  · exact gives_nextName_of_ne (hdoomed.token_ne_mark _) (.inr ⟨rfl, hdoomed⟩)

/-- The names end where there is no comma, or no name behind it. -/
theorem gives_nextName_end (hw : w.Inside) {comma : Option Gap} (hcomma : ∀ g ∈ comma, g.Fits w)
    (hthen : Then indents w rest Token.EndsNames) (names : List Tree) {c : Cursor}
    (hc : c.At indents (commaText comma ++ rest)) :
    Gives indents (nextName w names) (Stream.fetch w c) fun r s =>
      r = .inr names ∧ Done indents w rest True s := by
  cases comma with
  | none => exact gives_nextName_of_ne (hthen c hc).2.1 ⟨rfl, .inl ⟨trivial, c, hc, rfl⟩⟩
  | some g =>
      rw [commaText, Option.elim_some, List.append_assoc, List.singleton_append] at hc
      rcases Stream.passed hw (hcomma g rfl) (begins_comma _) hc with hahead | ⟨hdoomed, -⟩
      · obtain ⟨htoken, hnext⟩ := hahead.comma
        refine gives_ite_mark?_pos htoken (Gives.bind (gives_peek ?_))
        split
        · next text hword => exact absurd hword ((hthen _ hnext).2.2 text)
        · exact gives_pure ⟨rfl, .inl ⟨trivial, _, hnext, rfl⟩⟩
      · exact gives_nextName_of_ne (hdoomed.token_ne_mark _) ⟨rfl, .inr hdoomed⟩

theorem Items.text_append (is : Items) (text : List Char) : is.text ++ text =
    is.first.text ++ (is.others.flatMap FurtherItem.text ++ (commaText is.comma ++ text)) := by
  simp [Items.text, commaText]

theorem Ahead.items {is : Items} (h : Ahead indents (is.text ++ rest) s) (his : is.Fits w)
    (hrest : Apart rest) : s.token = .word is.first.name.first.text := by
  rw [is.text_append] at h
  exact h.item (apart_furtherItems his.2.1 his.2.2 hrest)

/-- Names between commas are read. -/
theorem gives_importNames (hw : w.Inside) (hrest : Apart rest)
    (hthen : Then indents w rest Token.EndsNames) {is : Items} (his : is.Fits w)
    (hs : Ahead indents (is.text ++ rest) s) :
    Gives indents (importNames w) s fun names s' =>
      Done indents w rest (List.Forall₂ Named names is.all) s' := by
  rw [is.text_append] at hs
  obtain ⟨first, others, comma⟩ := is
  obtain ⟨hfirst, hothers, hcomma⟩ := his
  rw [importNames_eq]
  have hbehind := then_furtherItems hothers hcomma hw hthen
  refine Gives.bind ((gives_importName hw (apart_furtherItems hothers hcomma hrest) hbehind hfirst
    hs).mono fun t s' hdone => ?_)
  -- the names that have been read and those that are left are all names
  let L (fs : List FurtherItem) (names : List Tree) : Prop := (∀ f ∈ fs, f.Fits w) ∧
    ∃ done, List.Forall₂ Named names done ∧ done ++ fs.map (·.item) = Items.all ⟨first, others, comma⟩
  have hpieces : ∀ f ∈ others, ∃ g ch more, f.text = Gap.text g ++ ch :: more ∧ g.Fits w ∧
      ∀ more, Begins (ch :: more) := fun f hf =>
    ⟨f.before, ',', Gap.text f.behind ++ f.item.text, by simp [FurtherItem.text], (hothers f hf).1,
      begins_comma⟩
  refine gives_pieces (L := L) ?_ ?_ ?_ (hdone.imp_left (And.imp_left fun ht => ?_))
    fun c hc => length_pieces_le hw FurtherItem.text_ne_nil hpieces hc
  · rintro f fs names c ⟨hfs, done, hnames, hall⟩ hc
    obtain ⟨hf, hfs⟩ := List.forall_mem_cons.1 hfs
    refine (gives_nextName hw hf (apart_furtherItems hfs hcomma hrest)
      (then_furtherItems hfs hcomma hw hthen) names hc).mono fun r s hr => ?_
    rcases hr with ⟨t, rfl, hdone⟩ | ⟨rfl, hd⟩
    · refine .inl ⟨_, rfl, hdone.imp_left (And.imp_left fun ht => ⟨hfs, done ++ [f.item], ?_, ?_⟩)⟩
      · exact List.rel_append hnames (.cons ht .nil)
      · simpa using hall
    · exact .inr ⟨names, rfl, .inr hd⟩
  · rintro names c ⟨-, done, hnames, hall⟩ hc
    rw [List.map_nil, List.append_nil] at hall
    refine (gives_nextName_end hw hcomma hthen names hc).mono fun r s hr => ?_
    obtain ⟨rfl, hdone⟩ := hr
    exact ⟨names, rfl, hdone.imp_left (And.imp_left fun _ => hall ▸ hnames)⟩
  · intro names t hdoomed
    exact gives_nextName_of_ne (hdoomed.token_ne_mark _) ⟨names, rfl, .inr hdoomed⟩
  · exact ⟨hothers, [first], .cons ⟨_, by rw [ht]⟩ .nil, rfl⟩

end ImportAtlas.Python
