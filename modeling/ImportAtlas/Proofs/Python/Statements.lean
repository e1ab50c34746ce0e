import ImportAtlas.Proofs.Python.Reading

/-!
# Reading statements

A proper spelling of an import statement is read as one node that has the statement, up to the text
behind it.

Main definitions:

* `ImportAtlas.Python.Source.IsTree` — the node of a source;
* `ImportAtlas.Python.Spelling.IsTree` — the node of a statement.

Main results:

* `ImportAtlas.Python.gives_importDots`, `ImportAtlas.Python.gives_importSource` — sources are read;
* `ImportAtlas.Python.gives_statement` — **statements are read as they are written**.
-/

set_option autoImplicit false

namespace ImportAtlas.Python

open ImportAtlas.Text Reader

variable {indents : List Nat} {w : Want} {rest : List Char} {s : Stream}

/-! ### Dots -/

/-- Dots with a gap before each. -/
def dotPieces (dots : List Gap) : List Char := dots.flatMap fun g => Gap.text g ++ ['.']

theorem dotPieces_cons (g : Gap) (dots : List Gap) (text : List Char) :
    dotPieces (g :: dots) ++ text = Gap.text g ++ '.' :: (dotPieces dots ++ text) := by
  simp [dotPieces]

theorem length_le_length_dotPieces (dots : List Gap) : dots.length ≤ (dotPieces dots).length :=
  length_le_length_flatMap (fun _ => by simp) dots

/-- One dot is taken, or three at once if there is nothing between them. -/
theorem Ahead.dots {dots : List Gap} (h : Ahead indents ('.' :: (dotPieces dots ++ rest)) s)
    (hrest : DotFree rest) : (s.token = .mark .dot ∨ s.token = .mark .ellipsis) ∧
      ∃ dots', dots'.length ≤ dots.length ∧ s.next.At indents (dotPieces dots' ++ rest) := by
  have hbehind : ∀ g gs, g ≠ [] → DotFree (dotPieces (g :: gs) ++ rest) := by
    intro g gs hg
    rw [dotPieces_cons]
    exact dotFree_gap hg _
  rcases dots with _ | ⟨_ | ⟨f, g⟩, dots⟩
  · obtain ⟨htoken, hnext⟩ := h.dot hrest
    exact ⟨.inl htoken, [], by simp, hnext⟩
  · rw [dotPieces_cons] at h
    rcases dots with _ | ⟨_ | ⟨f, g⟩, dots⟩
    · obtain ⟨htoken, hnext⟩ := h.dot_dot hrest
      exact ⟨.inl htoken, [[]], by simp, hnext⟩
    · rw [dotPieces_cons] at h
      obtain ⟨htoken, hnext⟩ := h.ellipsis
      exact ⟨.inr htoken, dots, by simp; omega, hnext⟩
    · obtain ⟨htoken, hnext⟩ := h.dot_dot (hbehind _ dots (by simp))
      exact ⟨.inl htoken, [] :: (f :: g) :: dots, by simp, hnext⟩
  · obtain ⟨htoken, hnext⟩ := h.dot (hbehind _ dots (by simp))
    exact ⟨.inl htoken, (f :: g) :: dots, by simp, hnext⟩

/-- Takes dots, or ends them. -/
def nextDots (last : Cursor) : Reader (Cursor ⊕ Cursor) := do
  if (← atMark .dot) || (← atMark .ellipsis) then
    let t ← get
    take {}
    return .inl t.next
  else
    return .inr last

theorem importDots_eq : importDots = (do
    let s ← get
    let last ← loop nextDots s.start
    return .leaf .importDots s.start.pos (s.start.textTo last)) := rfl

/-- A token that does not go on with dots. -/
def Token.EndsDots (token : Token) : Prop := token ≠ .mark .dot ∧ token ≠ .mark .ellipsis

theorem gives_nextDots {last : Cursor} {Q : Cursor ⊕ Cursor → Stream → Prop}
    (hyes : s.token = .mark .dot ∨ s.token = .mark .ellipsis →
      Q (.inl s.next) (Stream.fetch {} s.next))
    (hno : s.token.EndsDots → Q (.inr last) s) : Gives indents (nextDots last) s Q := by
  refine Gives.bind (gives_atMark (Gives.bind (gives_atMark ?_)))
  by_cases h : s.token = .mark .dot ∨ s.token = .mark .ellipsis
  · rw [if_pos (by simpa using h)]
    exact Gives.bind (gives_get (Gives.bind (gives_take (gives_pure (hyes h)))))
  · rw [if_neg (by simpa using h)]
    exact gives_pure (hno (not_or.1 h))

/-- The dots of a relative import are read. -/
theorem gives_importDots (hrest : DotFree rest) (hthen : Then indents {} rest Token.EndsDots)
    {dots : List Gap} (hs : Ahead indents (dotsText dots ++ rest) s) :
    Gives indents importDots s fun t s' =>
      Done indents {} rest (t = .leaf .importDots s.start.pos (String.ofList (dotsText dots))) s' := by
  rw [importDots_eq]
  refine Gives.bind (gives_get (Gives.bind ?_))
  -- a dot is next with some dots behind it, or all dots have been taken
  let I (n : Nat) (last : Cursor) (s : Stream) : Prop :=
    (∃ dots, n = dots.length + 1 ∧ Ahead indents ('.' :: (dotPieces dots ++ rest)) s) ∨
    Done indents {} rest (last.left = rest.length) s
  have hloop : Gives indents (loop nextDots s.start) s fun last s' =>
      Done indents {} rest (last.left = rest.length) s' := by
    refine gives_loop (I := I) ?_ (n := dots.length + 1) (.inl ⟨dots, rfl, hs⟩) ?_
    · rintro n last s (⟨dots, rfl, hahead⟩ | hdone)
      · obtain ⟨htoken, dots', hlength, hnext⟩ := hahead.dots hrest
        refine gives_nextDots (fun _ => .inl ⟨dots'.length, by omega, _, rfl, ?_⟩)
          fun hends => absurd htoken (not_or.2 hends)
        cases dots' with
        | nil => exact .inr (.inl ⟨hnext.left, _, hnext, rfl⟩)
        | cons g dots' =>
            rw [dotPieces_cons] at hnext
            have hbegins : Begins ('.' :: (dotPieces dots' ++ rest)) :=
              begins_cons rfl (by decide) (by decide) _
            rcases Stream.passed inside_default (fits_of_newline rfl g) hbegins hnext with
              hdot | ⟨hdoomed, -⟩
            · exact .inl ⟨dots', rfl, hdot⟩
            · exact .inr (.inr hdoomed)
      · have hends := hdone.token hthen ⟨nofun, nofun⟩
        exact gives_nextDots (fun h => absurd hends (not_and_or.2 (h.imp not_not.2 not_not.2)))
          fun _ => .inr ⟨last, rfl, hdone⟩
    · have hlength := length_le_length_dotPieces dots
      have hleft : s.start.left = ('.' :: (dotPieces dots ++ rest)).length := hs.start.left
      rw [List.length_cons, List.length_append] at hleft
      omega
  refine hloop.mono fun last s' hdone => gives_pure ?_
  exact hdone.imp_left (And.imp_left fun hlast => by rw [hs.start.textTo hlast])

/-! ### Sources -/

theorem Word.eq_of_text_eq {v u : Word} (h : v.text = u.text) : v = u := by
  obtain ⟨chars, hv⟩ := v
  obtain ⟨chars', hu⟩ := u
  obtain rfl : chars = chars' := String.ofList_injective h
  rfl

/-- The node of a source. -/
def Source.IsTree : Source → Tree → Prop
  | .absolute _ name _, t => ∃ pos, t = .leaf .dottedName pos (String.ofList name.text)
  | .relative _ dots _, t => ∃ pos, t =
      .inner .relativeImport pos [.leaf .importDots pos (String.ofList (dotsText dots))]
  | .inner _ dots _ name _, t => ∃ pos pos', t =
      .inner .relativeImport pos [.leaf .importDots pos (String.ofList (dotsText dots)),
        .leaf .dottedName pos' (String.ofList name.text)]

/-- The gap before a source, what is read of it, and the gap behind it. -/
def Source.lead : Source → Gap
  | .absolute lead _ _ => lead.gap
  | .relative lead _ _ => lead
  | .inner lead _ _ _ _ => lead

def Source.core : Source → List Char
  | .absolute _ name _ => name.text
  | .relative _ dots _ => dotsText dots
  | .inner _ dots behind name _ => dotsText dots ++ (Gap.text behind ++ name.text)

def Source.trail : Source → Gap
  | .absolute _ _ trail => trail.gap
  | .relative _ _ trail => trail
  | .inner _ _ _ _ trail => trail.gap

theorem Source.text_append (source : Source) (text : List Char) : source.text ++ text =
    Gap.text source.lead ++ (source.core ++ (Gap.text source.trail ++ text)) := by
  cases source <;> simp [Source.text, lead, core, trail, Break.text]

theorem begins_dots (dots : List Gap) (text : List Char) : Begins (dotsText dots ++ text) :=
  begins_cons rfl (by decide) (by decide) _

theorem Source.begins (source : Source) (text : List Char) : Begins (source.core ++ text) := by
  cases source with
  | absolute lead name trail => exact name.begins text
  | relative lead dots trail => exact begins_dots dots text
  | inner lead dots behind name trail =>
      rw [core, List.append_assoc]
      exact begins_dots dots _

/-- A word behind a gap, where a line cannot end. -/
theorem then_word {P : Token → Prop} (g : Gap) (v : Word) (hrest : Apart rest)
    (hword : P (.word v.text)) (hdedent : P .dedent) :
    Then indents {} (Gap.text g ++ (v.chars ++ rest)) P := by
  refine then_gap inside_default (fits_of_newline rfl g) (v.begins rest) (fun s hs => ?_) hdedent
  rw [(hs.word hrest).1]
  exact hword

theorem Ahead.dotted_token {d : Dotted} (h : Ahead indents (d.text ++ rest) s) (hrest : Apart rest)
    (m : Mark) : s.token ≠ .mark m := by
  rw [(h.dotted hrest).1]
  nofun

theorem Ahead.first_dot {dots : List Gap} (h : Ahead indents (dotsText dots ++ rest) s)
    (hrest : DotFree rest) : s.token = .mark .dot ∨ s.token = .mark .ellipsis := (h.dots hrest).1

theorem gives_dottedName_of_doomed {Q : Tree → Stream → Prop} (h : Doomed indents w s) (v : Want) :
    Gives indents (dottedName v) s Q :=
  Gives.bind (gives_get (Gives.bind h.gives_ident))

/-- Reads what may stand behind the dots of a source. -/
def behindDots (pos : Position) (dots : Tree) : Reader Tree := do
  if ← atWord "import" then
    return .inner .relativeImport pos [dots]
  else
    return .inner .relativeImport pos [dots, ← dottedName {}]

theorem importSource_eq : importSource = (do
    if (← atMark .dot) || (← atMark .ellipsis) then
      let pos ← here
      let dots ← importDots
      behindDots pos dots
    else
      dottedName {}) := rfl

/-- The dots of a source are read up to the word behind them, unless a block ends before it. -/
theorem gives_sourceDots {dots : List Gap} {g : Gap} {v : Word} {text : List Char} (htext : Apart text)
    (hs : Ahead indents (dotsText dots ++ (Gap.text g ++ (v.chars ++ text))) s)
    {Q : Tree → Stream → Prop}
    (hbehind : ∀ s', Ahead indents (v.chars ++ text) s' → Gives indents (behindDots s.start.pos
      (.leaf .importDots s.start.pos (String.ofList (dotsText dots)))) s' Q) :
    Gives indents importSource s Q := by
  have hfree := (v.dotFree text).gap g
  have hends : Then indents {} (Gap.text g ++ (v.chars ++ text)) Token.EndsDots :=
    then_word g v htext ⟨nofun, nofun⟩ ⟨nofun, nofun⟩
  rw [importSource_eq]
  refine Gives.bind (gives_atMark (Gives.bind (gives_atMark ?_)))
  rw [if_pos (by simpa using hs.first_dot hfree)]
  refine Gives.bind (gives_here (Gives.bind ((gives_importDots hfree hends hs).mono
    fun t s' hdone => ?_)))
  rcases hdone.passed inside_default (fits_of_newline rfl g) (v.begins text) with
    ⟨rfl, hahead⟩ | hdoomed
  · exact hbehind s' hahead
  · refine Gives.bind (gives_atWord ?_)
    rw [if_neg (by simpa using hdoomed.token_ne_word _)]
    exact Gives.bind (gives_dottedName_of_doomed hdoomed _)

/-- The source of a statement is read up to the word behind it. -/
theorem gives_importSource {source : Source} (hsource : source.Proper) {more : List Char}
    (hmore : Apart more)
    (hs : Ahead indents (source.core ++ (Gap.text source.trail ++ (importWord.chars ++ more))) s) :
    Gives indents importSource s fun t s' =>
      (source.IsTree t ∧ Ahead indents (importWord.chars ++ more) s') ∨ Doomed indents {} s' := by
  have hbegins := importWord.begins more
  have hmark : ∀ {g}, Then indents {} (Gap.text g ++ (importWord.chars ++ more)) (· ≠ .mark .dot) :=
    fun {g} => then_word g importWord hmore nofun nofun
  cases source with
  | absolute lead name trail =>
      rw [Source.core, Source.trail] at hs
      have hapart := trail.apart (importWord.chars ++ more)
      refine Gives.bind (gives_atMark (Gives.bind (gives_atMark ?_)))
      rw [if_neg (by simp [hs.dotted_token hapart])]
      refine (gives_dottedName inside_default hapart hmark
        (fun _ _ => fits_of_newline rfl _) hs).mono fun t s' hdone => ?_
      refine (hdone.passed inside_default (fits_of_newline rfl _) hbegins).imp_left ?_
      exact And.imp_left fun ht => ⟨_, ht⟩
  | relative lead dots trail =>
      rw [Source.core, Source.trail] at hs
      refine gives_sourceDots hmore hs fun s' hahead => Gives.bind (gives_atWord ?_)
      have htoken : s'.token = .word "import" := (hahead.word hmore).1
      rw [if_pos (beq_iff_eq.2 htoken)]
      exact gives_pure (.inl ⟨⟨_, rfl⟩, hahead⟩)
  | inner lead dots behind name trail =>
      rw [Source.core, Source.trail, List.append_assoc, List.append_assoc] at hs
      have hapart := trail.apart (importWord.chars ++ more)
      rw [name.text_append] at hs
      refine gives_sourceDots (apart_parts name.others hapart) hs fun s' hahead =>
        Gives.bind (gives_atWord ?_)
      rw [← name.text_append] at hahead
      have htoken := (hahead.dotted hapart).1
      have hne : name.first.text ≠ "import" := fun h => hsource (Word.eq_of_text_eq h)
      rw [if_neg (by simpa [htoken] using hne)]
      refine Gives.bind ((gives_dottedName inside_default hapart hmark
        (fun _ _ => fits_of_newline rfl _) hahead).mono fun t s' hdone => gives_pure ?_)
      refine (hdone.passed inside_default (fits_of_newline rfl _) hbegins).imp_left ?_
      exact And.imp_left fun ht => ⟨_, _, by rw [ht]⟩

/-! ### What ends a statement -/

theorem EndsStatement.apart {after : List Char} (h : EndsStatement after) : Apart after := by
  cases after with
  | nil => rfl
  | cons ch rest =>
      refine apart_cons ?_ rest
      rw [← Bool.not_eq_true]
      intro hch
      have hbegins : Begins (ch :: rest) := by
        refine begins_cons ?_ ?_ ?_ rest
        · rw [← Bool.not_eq_true]
          intro hfiller
          rw [isIdentContinue_of_isFiller hfiller] at hch
          cases hch
        · rintro rfl
          cases hch
        · rintro rfl
          cases hch
      rw [h.eq_semicolon hbegins] at hch
      cases hch

theorem EndsStatement.endsNames {after : List Char} (h : EndsStatement after) :
    Then indents importEnd after Token.EndsNames := by
  intro c hc
  rcases h indents c hc with hnewline | hsemicolon
  · rw [hnewline]
    exact ⟨nofun, nofun, nofun⟩
  · rw [hsemicolon]
    exact ⟨nofun, nofun, nofun⟩

theorem EndsStatement.head?_ne {after : List Char} (h : EndsStatement after) {c : Char}
    (hc : c ≠ ';') (hbegins : ∀ text, Begins (c :: text)) : after.head? ≠ some c := by
  cases after with
  | nil => nofun
  | cons d rest =>
      intro heq
      obtain rfl : d = c := by simpa using heq
      exact hc (h.eq_semicolon (hbegins rest))

/-! ### Statements -/

/-- The nodes of what is imported. -/
def Listing.AreTrees : Listing → List Tree → Prop
  | .wildcard _, ts => ∃ pos, ts = [.leaf .wildcardImport pos "*"]
  | .bare _ items, ts => List.Forall₂ Named ts items.all
  | .bracketed _ _ items _, ts => List.Forall₂ Named ts items.all

/-- The node of a statement that starts at some position. -/
def Spelling.IsTree (pos : Position) : Spelling → Tree → Prop
  | .modules _ items, t => ∃ names, List.Forall₂ Named names items.all ∧
      t = .inner .importStatement pos names
  | .members source listing, t => ∃ module names, source.IsTree module ∧ listing.AreTrees names ∧
      t = .inner .importFrom pos (module.withRole .source :: names)

/-- The reader of a statement. -/
def Spelling.reader : Spelling → Reader Tree
  | .modules _ _ => importStatement
  | .members _ _ => fromStatement

theorem Items.begins (is : Items) (text : List Char) : Begins (is.text ++ text) := by
  rw [Items.text, List.append_assoc]
  exact is.first.begins _

theorem gives_importNames_of_doomed {Q : List Tree → Stream → Prop} {v : Want}
    (h : Doomed indents w s) : Gives indents (importNames v) s Q :=
  Gives.bind (Gives.bind (gives_here (Gives.bind (gives_dottedName_of_doomed h v))))

/-- An `import` statement is read. -/
theorem gives_importStatement {lead : Break} {items : Items} (hitems : items.Fits importEnd)
    {after : List Char} (hafter : EndsStatement after)
    (hs : Ahead indents ((Spelling.modules lead items).text ++ after) s) :
    Gives indents importStatement s fun t s' =>
      Done indents importEnd after ((Spelling.modules lead items).IsTree s.start.pos t) s' := by
  rw [Spelling.text, List.append_assoc, List.append_assoc] at hs
  obtain ⟨htoken, hnext⟩ := hs.word (lead.apart _)
  refine Gives.bind (gives_here (Gives.bind (gives_keyword (fun _ => ?_) fun hno => absurd htoken hno)))
  rcases Stream.passed inside_default (fits_of_newline rfl lead.gap) (items.begins after) hnext with
    hahead | ⟨hdoomed, -⟩
  · refine Gives.bind ((gives_importNames inside_importEnd hafter.apart hafter.endsNames hitems
      hahead).mono fun names s' hdone => gives_pure ?_)
    exact hdone.imp_left (And.imp_left fun hnames => ⟨names, hnames, rfl⟩)
  · exact Gives.bind (gives_importNames_of_doomed hdoomed)

/-- The gap before what is imported, and what is read of it. -/
def Listing.lead : Listing → Gap
  | .wildcard lead => lead
  | .bare lead _ => lead.gap
  | .bracketed lead _ _ _ => lead

def Listing.core : Listing → List Char
  | .wildcard _ => ['*']
  | .bare _ items => items.text
  | .bracketed _ behind items before =>
      '(' :: (Gap.text behind ++ (items.text ++ (Gap.text before ++ [')'])))

theorem Listing.text_eq (listing : Listing) : listing.text = Gap.text listing.lead ++ listing.core := by
  cases listing <;> rfl

theorem Listing.begins (listing : Listing) (text : List Char) : Begins (listing.core ++ text) := by
  cases listing with
  | wildcard lead => exact begins_cons rfl (by decide) (by decide) _
  | bare lead items => exact items.begins text
  | bracketed lead behind items before => exact begins_cons rfl (by decide) (by decide) _

/-- The names in brackets are read, with the brackets. -/
theorem gives_bracketed {behind before : Gap} {items : Items} {after : List Char}
    (hs : Ahead indents ((Listing.bracketed [] behind items before).core ++ after) s) :
    Gives indents importNamesOrBracketed s fun names s' =>
      Done indents importEnd after (List.Forall₂ Named names items.all) s' := by
  have htext : (Listing.bracketed [] behind items before).core ++ after =
      '(' :: (Gap.text behind ++ (items.text ++ (Gap.text before ++ ')' :: after))) := by
    simp [Listing.core]
  rw [htext] at hs
  obtain ⟨htoken, hnext⟩ := hs.openParen
  refine gives_ite_mark?_pos htoken ?_
  have hbegins : Begins (')' :: after) := begins_cons rfl (by decide) (by decide) _
  have hapart : Apart (Gap.text before ++ ')' :: after) := (apart_cons (by decide) after).gap before
  have hends : Then indents { close := true } (Gap.text before ++ ')' :: after) Token.EndsNames := by
    refine then_gap inside_close (fits_of_newline rfl before) hbegins (fun s hs => ?_)
      ⟨nofun, nofun, nofun⟩
    rw [hs.closeParen.1]
    exact ⟨nofun, nofun, nofun⟩
  have hfits : items.Fits { close := true } := by
    refine ⟨⟨fun _ _ => ?_, fun _ _ => ?_⟩, fun _ _ => ⟨?_, ?_, fun _ _ => ?_, fun _ _ => ?_⟩,
      fun _ _ => ?_⟩ <;> exact fits_of_newline rfl _
  rcases Stream.passed inside_default (fits_of_newline rfl behind) (items.begins _) hnext with
    hahead | ⟨hdoomed, -⟩
  · refine Gives.bind ((gives_importNames inside_close hapart hends hfits hahead).mono
      fun names s' hdone => ?_)
    rcases hdone.passed inside_close (fits_of_newline rfl before) hbegins with
      ⟨hnames, hclose⟩ | hdoomed
    · obtain ⟨htoken, hnext⟩ := hclose.closeParen
      refine Gives.bind (gives_mark (fun _ => ?_) fun hno => absurd htoken hno)
      exact gives_pure (.inl ⟨hnames, _, hnext, rfl⟩)
    · cases hdoomed.close
  · exact Gives.bind (gives_importNames_of_doomed hdoomed)

/-- Reads what is imported, and makes a node of it. -/
def readListing (make : List Tree → Tree) : Reader Tree := do
  let star ← here
  if ← mark? .star importEnd then return make [.leaf .wildcardImport star "*"]
  else return make (← importNamesOrBracketed)

/-- What is imported is read, up to the end of the statement. -/
theorem gives_listing {listing : Listing} (hlisting : listing.Proper) {after : List Char}
    (hafter : EndsStatement after) (hs : Ahead indents (listing.core ++ after) s)
    (make : List Tree → Tree) :
    Gives indents (readListing make) s fun t s' =>
      Done indents importEnd after (∃ names, listing.AreTrees names ∧ t = make names) s' := by
  refine Gives.bind (gives_here ?_)
  cases listing with
  | wildcard lead =>
      have hpower := hafter.head?_ne (c := '*') (by decide) fun text =>
        begins_cons rfl (by decide) (by decide) text
      have hassign := hafter.head?_ne (c := '=') (by decide) fun text =>
        begins_cons rfl (by decide) (by decide) text
      obtain ⟨htoken, hnext⟩ := Ahead.star hs hpower hassign
      exact gives_ite_mark?_pos htoken (gives_pure (.inl ⟨⟨_, ⟨_, rfl⟩, rfl⟩, _, hnext, rfl⟩))
  | bare lead items =>
      have htoken : ∀ m, s.token ≠ .mark m := by
        rw [Ahead.items hs hlisting hafter.apart]
        nofun
      refine gives_ite_mark?_neg (htoken _) (Gives.bind (gives_ite_mark?_neg (htoken _) ?_))
      refine (gives_importNames inside_importEnd hafter.apart hafter.endsNames hlisting hs).mono
        fun names s' hdone => gives_pure ?_
      exact hdone.imp_left (And.imp_left fun hnames => ⟨names, hnames, rfl⟩)
  | bracketed lead behind items before =>
      have htoken : s.token ≠ .mark .star := by
        rw [(Ahead.openParen hs).1]
        nofun
      refine gives_ite_mark?_neg htoken (Gives.bind ((gives_bracketed hs).mono fun names s' hdone =>
        gives_pure ?_))
      exact hdone.imp_left (And.imp_left fun hnames => ⟨names, hnames, rfl⟩)

theorem Source.apart (source : Source) (text : List Char) :
    Apart (Gap.text source.lead ++ (source.core ++ text)) := by
  cases source with
  | absolute lead name trail => exact lead.apart _
  | relative lead dots trail => exact (apart_cons (by decide) _).gap lead
  | inner lead dots behind name trail =>
      rw [core, List.append_assoc]
      exact (apart_cons (by decide) _).gap lead

theorem Listing.apart (listing : Listing) (text : List Char) :
    Apart (Gap.text listing.lead ++ (listing.core ++ text)) := by
  cases listing with
  | wildcard lead => exact (apart_cons (by decide) _).gap lead
  | bare lead items => exact lead.apart _
  | bracketed lead behind items before => exact (apart_cons (by decide) _).gap lead

/-- A proper source is not the module of directives. -/
theorem Source.token_ne {source : Source} (hsource : source.Proper) {more : List Char}
    (hs : Ahead indents (source.core ++ (Gap.text source.trail ++ (importWord.chars ++ more))) s) :
    s.token ≠ .word "__future__" := by
  cases source with
  | absolute lead name trail =>
      rw [(Ahead.dotted hs (trail.apart _)).1]
      intro h
      exact hsource (Token.word.inj h)
  | relative lead dots trail =>
      have hfree := (importWord.dotFree more).gap trail
      rcases Ahead.first_dot hs hfree with h | h <;> simp [h]
  | inner lead dots behind name trail =>
      rw [Source.core, List.append_assoc, List.append_assoc, name.text_append] at hs
      have hfree := (name.first.dotFree (name.others.flatMap Part.text ++
        (Gap.text trail.gap ++ (importWord.chars ++ more)))).gap behind
      rcases Ahead.first_dot hs hfree with h | h <;> simp [h]

theorem gives_importSource_of_doomed {Q : Tree → Stream → Prop} (h : Doomed indents w s) :
    Gives indents importSource s Q := by
  refine Gives.bind (gives_atMark (Gives.bind (gives_atMark ?_)))
  rw [if_neg (by simp [h.token_ne_mark])]
  exact gives_dottedName_of_doomed h {}

theorem gives_readListing_of_doomed {Q : Tree → Stream → Prop} (h : Doomed indents w s)
    (make : List Tree → Tree) : Gives indents (readListing make) s Q := by
  refine Gives.bind (gives_here (gives_ite_mark?_neg (h.token_ne_mark _) (Gives.bind ?_)))
  exact gives_ite_mark?_neg (h.token_ne_mark _) (gives_importNames_of_doomed h)

theorem fromStatement_eq : fromStatement = (do
    let pos ← here
    keyword "from" {}
    if ← keyword? "__future__" {} then
      keyword "import" {}
      return .inner .importFuture pos (← importNamesOrBracketed)
    else
      let source ← importSource
      keyword "import" {}
      readListing fun names => .inner .importFrom pos (source.withRole .source :: names)) := rfl

/-- A `from` statement is read. -/
theorem gives_fromStatement {source : Source} {listing : Listing} (hsource : source.Proper)
    (hlisting : listing.Proper) {after : List Char} (hafter : EndsStatement after)
    (hs : Ahead indents ((Spelling.members source listing).text ++ after) s) :
    Gives indents fromStatement s fun t s' =>
      Done indents importEnd after ((Spelling.members source listing).IsTree s.start.pos t) s' := by
  have htext : (Spelling.members source listing).text ++ after = fromWord.chars ++
      (Gap.text source.lead ++ (source.core ++ (Gap.text source.trail ++ (importWord.chars ++
        (Gap.text listing.lead ++ (listing.core ++ after)))))) := by
    rw [← source.text_append, ← List.append_assoc (Gap.text listing.lead), ← listing.text_eq]
    simp [Spelling.text]
  rw [htext] at hs
  obtain ⟨hfrom, hnext⟩ := hs.word (source.apart _)
  rw [fromStatement_eq]
  refine Gives.bind (gives_here (Gives.bind (gives_keyword (fun _ => ?_) fun hno => absurd hfrom hno)))
  rcases Stream.passed inside_default (fits_of_newline rfl source.lead) (source.begins _) hnext with
    hahead | ⟨hdoomed, -⟩
  · refine gives_ite_keyword?_neg (source.token_ne hsource hahead) ?_
    have hmore := listing.apart after
    refine Gives.bind ((gives_importSource hsource hmore hahead).mono fun module s' hr => ?_)
    rcases hr with ⟨hmodule, himport⟩ | hdoomed
    · obtain ⟨htoken, hnext⟩ := himport.word hmore
      refine Gives.bind (gives_keyword (fun _ => ?_) fun hno => absurd htoken hno)
      rcases Stream.passed inside_default (fits_of_newline rfl listing.lead) (listing.begins after)
        hnext with hlist | ⟨hdoomed, -⟩
      · refine (gives_listing hlisting hafter hlist _).mono fun t s' hdone => ?_
        refine hdone.imp_left (And.imp_left ?_)
        rintro ⟨names, hnames, rfl⟩
        exact ⟨module, names, hmodule, hnames, rfl⟩
      · exact gives_readListing_of_doomed hdoomed _
    · refine Gives.bind (gives_keyword (fun h => absurd h (hdoomed.token_ne_word _)) fun _ => ?_)
      exact hdoomed.indented
  · refine gives_ite_keyword?_neg (hdoomed.token_ne_word _) ?_
    exact Gives.bind (gives_importSource_of_doomed hdoomed)

/-- A proper spelling is read as its statement, up to the text behind it. -/
theorem gives_statement {σ : Spelling} (hσ : σ.Proper) {after : List Char}
    (hafter : EndsStatement after) (hs : Ahead indents (σ.text ++ after) s) :
    Gives indents σ.reader s fun t s' => σ.IsTree s.start.pos t ∧
      ∃ c : Cursor, c.At indents after ∧ s' = Stream.fetch importEnd c := by
  have hdone : Gives indents σ.reader s fun t s' =>
      Done indents importEnd after (σ.IsTree s.start.pos t) s' := by
    cases σ with
    | modules lead items => exact gives_importStatement hσ hafter hs
    | members source listing => exact gives_fromStatement hσ.1 hσ.2 hafter hs
  refine hdone.mono fun t s' h => ?_
  rcases h with h | hdoomed
  · exact h
  · cases hdoomed.newline

/-! ### What the nodes say -/

theorem dotted?_leaf (d : Dotted) (kind : Kind) (role : Role) (pos : Position) :
    (Tree.node kind role pos (String.ofList d.text) []).dotted? = some d.reading := by
  have htext : (Tree.node kind role pos (String.ofList d.text) []).text.toList = d.text :=
    String.toList_ofList
  unfold Tree.dotted?
  rw [htext]
  split
  · next h => exact absurd h d.dottedText_text_ne_nil
  · rfl

theorem Named.role {t : Tree} {i : Item} (h : Named t i) : t.role = .name := by
  obtain ⟨pos, rfl⟩ := h
  unfold Item.tree
  dsimp only
  split <;> rfl

theorem Named.importedName? {t : Tree} {i : Item} (h : Named t i) :
    t.importedName? = some i.name.reading := by
  obtain ⟨pos, rfl⟩ := h
  unfold Item.tree
  dsimp only
  rw [← dotted?_leaf i.name .dottedName .name pos]
  split <;> rfl

theorem Named.isPart {t : Tree} {i : Item} (h : Named t i) : t.IsPart := by
  obtain ⟨pos, rfl⟩ := h
  have hname := Tree.isPart_leaf (k := .dottedName) rfl pos (String.ofList i.name.text)
  unfold Item.tree
  dsimp only
  split
  · refine (Tree.isPart_inner rfl pos fun t ht => ?_).withRole .name
    rw [List.mem_singleton.1 ht]
    exact hname.withRole .name
  · exact hname.withRole .name

/-- The names of some nodes. -/
theorem filterMap_importedName? {names : List Tree} {items : List Item}
    (h : List.Forall₂ Named names items) :
    (names.filter fun t => t.role = .name).filterMap Tree.importedName? =
      items.map (·.name.reading) := by
  induction h with
  | nil => rfl
  | cons hnamed _ ih => simp [hnamed.role, hnamed.importedName?, ih]

theorem Listing.AreTrees.filterMap_importedName? {listing : Listing} {names : List Tree}
    (h : listing.AreTrees names) : (names.filter fun t => t.role = .name).filterMap
      Tree.importedName? = listing.items.map (·.name.reading) := by
  cases listing with
  | wildcard lead =>
      obtain ⟨pos, rfl⟩ := h
      rfl
  | bare lead items => exact Python.filterMap_importedName? h
  | bracketed lead behind items before => exact Python.filterMap_importedName? h

theorem isPart_of_named {names : List Tree} {items : List Item} (h : List.Forall₂ Named names items) :
    ∀ t ∈ names, t.IsPart := by
  induction h with
  | nil => simp
  | cons hnamed _ ih => exact List.forall_mem_cons.2 ⟨hnamed.isPart, ih⟩

theorem Listing.AreTrees.isPart {listing : Listing} {names : List Tree} (h : listing.AreTrees names) :
    ∀ t ∈ names, t.IsPart := by
  cases listing with
  | wildcard lead =>
      obtain ⟨pos, rfl⟩ := h
      exact List.forall_mem_singleton.2 (Tree.isPart_leaf rfl pos "*")
  | bare lead items => exact isPart_of_named h
  | bracketed lead behind items before => exact isPart_of_named h

theorem Source.IsTree.isPart {source : Source} {t : Tree} (h : source.IsTree t) : t.IsPart := by
  cases source with
  | absolute lead name trail =>
      obtain ⟨pos, rfl⟩ := h
      exact Tree.isPart_leaf rfl pos _
  | relative lead dots trail =>
      obtain ⟨pos, rfl⟩ := h
      exact Tree.isPart_inner rfl pos (List.forall_mem_singleton.2 (Tree.isPart_leaf rfl pos _))
  | inner lead dots behind name trail =>
      obtain ⟨pos, pos', rfl⟩ := h
      refine Tree.isPart_inner rfl pos (List.forall_mem_cons.2 ⟨Tree.isPart_leaf rfl pos _, ?_⟩)
      exact List.forall_mem_singleton.2 (Tree.isPart_leaf rfl pos' _)

/-- The level and the module of a source. -/
theorem Source.IsTree.reading_eq {source : Source} {t : Tree} (h : source.IsTree t) :
    (if (t.withRole .source).kind = .relativeImport then (t.withRole .source).relative
      else (0, (t.withRole .source).dotted?)) = source.reading := by
  have hlevel : ∀ dots,
      (String.ofList (dotsText dots)).toList.count '.' = (dotsText dots).count '.' := by
    intro dots
    rw [String.toList_ofList]
  cases source with
  | absolute lead name trail =>
      obtain ⟨pos, rfl⟩ := h
      refine (if_neg nofun).trans ?_
      exact congrArg _ (dotted?_leaf name _ _ pos)
  | relative lead dots trail =>
      obtain ⟨pos, rfl⟩ := h
      refine (if_pos rfl).trans ?_
      rw [Source.reading, ← hlevel]
      rfl
  | inner lead dots behind name trail =>
      obtain ⟨pos, pos', rfl⟩ := h
      refine (if_pos rfl).trans ?_
      rw [Source.reading, ← dotted?_leaf name .dottedName .part pos', ← hlevel]
      rfl

/-- A source has a level or a module. -/
theorem Source.reading_ne (source : Source) : ¬(source.reading.1 = 0 ∧ source.reading.2 = none) := by
  cases source with
  | absolute lead name trail => simp [reading]
  | relative lead dots trail => simp [reading, dotsText]
  | inner lead dots behind name trail => simp [reading]

namespace Spelling.IsTree

variable {σ : Spelling} {pos : Position} {t : Tree}

theorem isImport (h : σ.IsTree pos t) : t.isImport = true := by
  cases σ with
  | modules lead items =>
      obtain ⟨names, -, rfl⟩ := h
      rfl
  | members source listing =>
      obtain ⟨module, names, -, -, rfl⟩ := h
      rfl

/-- The node has the statement that is spelled. -/
theorem statement?_eq (h : σ.IsTree pos t) : t.statement? = some σ.reading := by
  cases σ with
  | modules lead items =>
      obtain ⟨names, hnames, rfl⟩ := h
      have himported : (Tree.inner .importStatement pos names).importedNames =
          items.all.map (·.name.reading) := filterMap_importedName? hnames
      change (Tree.inner .importStatement pos names).modules? = _
      rw [Tree.modules?, himported]
      rfl
  | members source listing =>
      obtain ⟨module, names, hmodule, hnames, rfl⟩ := h
      have hrole : (module.withRole .source).role = .source := by cases module; rfl
      have himported : (Tree.inner .importFrom pos (module.withRole .source :: names)).importedNames =
          listing.items.map (·.name.reading) := by
        rw [← hnames.filterMap_importedName?]
        simp [Tree.importedNames, Tree.inner, Tree.children, hrole]
      have hfind : (Tree.inner .importFrom pos (module.withRole .source :: names)).children.find?
          (fun c => c.role = .source) = some (module.withRole .source) := by
        simp [Tree.inner, Tree.children, hrole]
      change (Tree.inner .importFrom pos (module.withRole .source :: names)).members? = _
      rw [Tree.members?, hfind]
      simp only [hmodule.reading_eq, himported]
      rw [if_neg source.reading_ne]
      rfl

/-- All nodes of a statement are harmless. -/
theorem isHarmless (h : σ.IsTree pos t) : ∀ n ∈ t.preorder, n.kind.isHarmless = true := by
  have hparts : ∀ {kind : Kind} {parts : List Tree}, kind.isHarmless = true →
      (∀ t ∈ parts, t.IsPart) →
      ∀ n ∈ (Tree.inner kind pos parts).preorder, n.kind.isHarmless = true := by
    intro kind parts hkind hparts
    rw [Tree.preorder_eq]
    refine List.forall_mem_cons.2 ⟨hkind, List.forall_mem_flatMap.2 fun t ht n hn => ?_⟩
    exact Kind.isHarmless_of_isPart (hparts t ht n hn)
  cases σ with
  | modules lead items =>
      obtain ⟨names, hnames, rfl⟩ := h
      exact hparts rfl (isPart_of_named hnames)
  | members source listing =>
      obtain ⟨module, names, hmodule, hnames, rfl⟩ := h
      exact hparts rfl (List.forall_mem_cons.2 ⟨hmodule.isPart.withRole _, hnames.isPart⟩)

end Spelling.IsTree

end ImportAtlas.Python
