import ImportAtlas.Proofs.Python.Statements
import ImportAtlas.Python.Check

/-!
# Sources made of import statements

A source that has one import statement in each line is accepted, and its import statements are those of
its lines in their order.

Main definitions:

* `ImportAtlas.Python.Renders` — a line that spells a statement;
* `ImportAtlas.Python.ImportStatement.IsRegular` — the statements that can be spelled.

Main results:

* `ImportAtlas.Python.gives_line` — one line is read;
* `ImportAtlas.Python.importsOf_sourceOf_renderings` — **reading undoes rendering**.
-/

set_option autoImplicit false

namespace ImportAtlas.Python

open ImportAtlas.Text Reader

/-! ### The beginning and the end of a line -/

/-- The source is over or goes on with a word. -/
def StartsLine (text : List Char) : Prop := text.head?.all isIdentStart = true

theorem Sweep.run_startsLine (comments : Bool) {text : List Char} (h : StartsLine text) (s : Sweep) :
    ∃ s', run comments false text s = some s' ∧ s'.passed = s.passed ∧ s'.comment = s.comment ∧
      (s.lineEnd = true → s'.lineEnd = true) := by
  cases text with
  | nil => exact ⟨_, rfl, rfl, rfl, fun _ => rfl⟩
  | cons ch rest =>
      have hch : isIdentStart ch = true := h
      have hne : ∀ d, isIdentStart d = false → ch ≠ d := by
        rintro d hd rfl
        rw [hch] at hd
        cases hd
      refine ⟨s, ?_, rfl, rfl, id⟩
      unfold run
      rw [if_neg (hne _ rfl), if_neg (hne _ rfl), if_neg (not_or.2 ⟨hne _ rfl, hne _ rfl⟩),
        if_neg (hne _ rfl), if_neg fun hc => hne _ rfl hc.1, if_neg (hne _ rfl)]

theorem Sweep.run_newline (comments : Bool) (rest : List Char) (s : Sweep) :
    run comments false ('\n' :: rest) s =
      run comments false rest { s with passed := s.passed + 1, lineEnd := true, width := 0 } := by
  rw [run.eq_def]
  exact if_pos rfl

/-- Line ends before a line are passed. -/
theorem Sweep.run_lines (comments : Bool) {text : List Char} (h : StartsLine text) (n : Nat)
    (s : Sweep) : ∃ s', run comments false (List.replicate n '\n' ++ text) s = some s' ∧
      s'.passed = s.passed + n ∧ s'.comment = s.comment ∧
      (0 < n ∨ s.lineEnd = true → s'.lineEnd = true) := by
  induction n generalizing s with
  | zero =>
      obtain ⟨s', hrun, hpassed, hcomment, hline⟩ := run_startsLine comments h s
      exact ⟨s', hrun, hpassed, hcomment, fun h => hline (h.resolve_left (Nat.lt_irrefl 0))⟩
  | succ n ih =>
      obtain ⟨s', hrun, hpassed, hcomment, hline⟩ :=
        ih { s with passed := s.passed + 1, lineEnd := true, width := 0 }
      refine ⟨s', ?_, ?_, hcomment, fun _ => hline (.inr rfl)⟩
      · rw [← hrun, List.replicate_succ, List.cons_append, run_newline]
      · dsimp only at hpassed
        omega

section

variable {text : List Char} {c : Cursor} {n : Nat}

/-- At the beginning of a line outside of blocks there is no layout token. -/
theorem layout?_startsLine (h : StartsLine text) (hquote : Quote.read? text = none)
    (hc : c.At [0] (List.replicate n '\n' ++ text)) :
    Stream.layout? { string := true } c = none := by
  obtain ⟨s, hrun, hpassed, -⟩ := Sweep.run_lines false h n {}
  have hindent : c.indent = 0 := by
    rw [Cursor.indent, hc.indents]
    rfl
  have hcloses : Stream.closesBlock { string := true } s c = false := by
    simp [Stream.closesBlock, hindent]
  have hskip : (c.skip s.passed).rest = text := by
    have hbehind := hc.skip
    rw [List.length_replicate] at hbehind
    rw [hpassed, Nat.zero_add, hbehind.rest]
  have hsweep : Sweep.run ({ string := true } : Want).passesComments false c.rest {} = some s := by
    rw [hc.rest]
    exact hrun
  rw [Stream.layout?, hsweep]
  simp only [Bool.and_false, Bool.false_and, Bool.false_eq_true, if_false, hcloses, hskip, hquote]
  split <;> rfl

/-- At the beginning of a line outside of blocks its first word is next. -/
theorem ahead_startsLine (h : StartsLine text) (hquote : Quote.read? text = none)
    (hc : c.At [0] (List.replicate n '\n' ++ text)) :
    Ahead [0] text (Stream.fetch { string := true } c) := by
  have hskip : c.skipWhile Stream.isFiller = c.skip n := by
    have hstop : text.head?.all (!Stream.isFiller ·) = true := by
      cases text with
      | nil => rfl
      | cons ch rest => simpa using isFiller_of_isIdentStart h
    rw [hc.skipWhile (by simp; exact fun _ => rfl) hstop, List.length_replicate]
  have hbehind := hc.skip
  rw [List.length_replicate] at hbehind
  have hplain : Stream.fetch { string := true } c = Stream.plain (c.skip n) := by
    have hnone := layout?_startsLine h hquote hc
    cases text with
    | nil =>
        rw [Stream.fetch, Stream.fetchWith, hnone]
        simp only [hskip, hbehind.rest]
        rfl
    | cons ch rest =>
        refine Stream.fetchWith_of_begins hnone hskip ?_
        rw [hbehind.rest]
        exact begins_of_isIdentStart h rest
  rw [hplain]
  exact ⟨by rwa [Stream.start_plain], by rw [Stream.start_plain]⟩

/-- The end of a line is next, where a statement may end. -/
theorem fetch_lineEnd {indents : List Nat} (h : StartsLine text) (hc : c.At indents ('\n' :: text)) :
    Stream.fetch importEnd c = { token := .newline, start := c, next := c } := by
  obtain ⟨s, hrun, -, -, hline⟩ := Sweep.run_lines true h 1 {}
  have hsweep : Sweep.run importEnd.passesComments false c.rest {} = some s := by
    rw [hc.rest]
    exact hrun
  have hcloses : Stream.closesBlock importEnd s c = false := rfl
  have hlayout : Stream.layout? importEnd c = some { token := .newline, start := c, next := c } := by
    rw [Stream.layout?, hsweep]
    simp only [hline (.inl Nat.one_pos), hcloses]
    rfl
  rw [Stream.fetch, Stream.fetchWith, hlayout]

theorem endsStatement_line (h : StartsLine text) : EndsStatement ('\n' :: text) := by
  intro indents c hc
  rw [fetch_lineEnd h hc]
  exact .inl rfl

end

/-! ### Lines -/

/-- The word that a statement starts with. -/
def Spelling.keyword : Spelling → Word
  | .modules _ _ => importWord
  | .members _ _ => fromWord

theorem Spelling.startsLine (σ : Spelling) (text : List Char) : StartsLine (σ.text ++ text) := by
  cases σ <;> rfl

theorem Spelling.read?_quote (σ : Spelling) (text : List Char) :
    Quote.read? (σ.text ++ text) = none := by
  cases σ <;> rfl

theorem Ahead.keyword {indents : List Nat} {σ : Spelling} {text : List Char} {s : Stream}
    (h : Ahead indents (σ.text ++ text) s) : s.token = .word σ.keyword.text := by
  cases σ with
  | modules lead items =>
      rw [Spelling.text, List.append_assoc, List.append_assoc] at h
      exact (h.word (lead.apart _)).1
  | members source listing =>
      rw [Spelling.text, List.append_assoc, List.append_assoc, source.text_append] at h
      exact (h.word (source.apart _)).1

/-- The first word of a statement tells its reader. -/
theorem simpleStatement_eq {σ : Spelling} {s : Stream} (rules : Rules)
    (h : s.token = .word σ.keyword.text) : simpleStatement rules s = σ.reader s := by
  obtain ⟨token, start, next⟩ := s
  subst h
  cases σ <;> rfl

theorem statement_eq {σ : Spelling} {s : Stream} (rules : Rules) (w : Want)
    (h : s.token = .word σ.keyword.text) : statement rules w s = simpleStatements rules w s := by
  obtain ⟨token, start, next⟩ := s
  subst h
  cases σ <;> rfl

/-- A line with a statement is read. -/
theorem gives_line {σ : Spelling} (hσ : σ.Proper) {text : List Char} (htext : StartsLine text)
    {s : Stream} (rules : Rules) (hs : Ahead [0] (σ.text ++ '\n' :: text) s) :
    Gives [0] (statement rules { string := true }) s fun trees s' =>
      (∃ t, trees = [t] ∧ σ.IsTree s.start.pos t) ∧
      ∃ c : Cursor, c.At [0] ('\n' :: text) ∧ s' = Stream.fetch { string := true } c := by
  have hread := gives_statement hσ (endsStatement_line htext) hs
  refine Gives.of_eq ?_ (statement_eq rules _ hs.keyword)
  refine Gives.bind ((hread.of_eq (simpleStatement_eq rules hs.keyword)).mono fun t s' hr => ?_)
  obtain ⟨ht, c, hc, rfl⟩ := hr
  rw [fetch_lineEnd htext hc]
  -- the line ends in the first round
  let I (n : Nat) (trees : List Tree) (s : Stream) : Prop :=
    n = 0 ∧ trees = [t] ∧ s = { token := .newline, start := c, next := c }
  refine gives_loop (I := I) ?_ (n := 0) ⟨rfl, rfl, rfl⟩ (by omega)
  rintro n trees s ⟨rfl, rfl, rfl⟩
  refine gives_ite_mark?_neg nofun ?_
  refine Gives.bind (Gives.bind (gives_peek (gives_take (gives_pure (.inr ⟨_, rfl, ?_⟩)))))
  exact ⟨⟨t, rfl, ht⟩, c, hc, rfl⟩

/-- The text of some lines. -/
def linesText (σs : List Spelling) : List Char := σs.flatMap fun σ => σ.text ++ ['\n']

theorem linesText_cons (σ : Spelling) (σs : List Spelling) :
    linesText (σ :: σs) = σ.text ++ '\n' :: linesText σs := by simp [linesText]

theorem startsLine_linesText (σs : List Spelling) : StartsLine (linesText σs) := by
  cases σs with
  | nil => rfl
  | cons σ σs =>
      rw [linesText_cons]
      exact σ.startsLine _

theorem read?_linesText (σs : List Spelling) : Quote.read? (linesText σs) = none := by
  cases σs with
  | nil => rfl
  | cons σ σs =>
      rw [linesText_cons]
      exact σ.read?_quote _

/-- The nodes of some lines. -/
def AreLines (trees : List Tree) (σs : List Spelling) : Prop :=
  List.Forall₂ (fun t σ => ∃ pos, Spelling.IsTree pos σ t) trees σs

theorem AreLines.isHarmless {trees : List Tree} {σs : List Spelling} (h : AreLines trees σs) :
    ∀ t ∈ trees, ∀ n ∈ t.preorder, n.kind.isHarmless = true := by
  induction h with
  | nil => simp
  | cons hline _ ih =>
      obtain ⟨pos, ht⟩ := hline
      exact List.forall_mem_cons.2 ⟨ht.isHarmless, ih⟩

theorem AreLines.filterMap_statement? {trees : List Tree} {σs : List Spelling}
    (h : AreLines trees σs) :
    (trees.flatMap Tree.importNodes).filterMap Tree.statement? = σs.map Spelling.reading := by
  induction h with
  | nil => rfl
  | cons hline _ ih =>
      obtain ⟨pos, ht⟩ := hline
      rw [List.flatMap_cons, Tree.importNodes_of_isImport ht.isImport, List.singleton_append,
        List.filterMap_cons_some ht.statement?_eq, ih, List.map_cons]

/-- Takes a further statement, or ends the source. -/
def nextStatement (rules : Rules) (trees : List Tree) : Reader (List Tree ⊕ Piece) := do
  if (← peek) == .finish then return .inr { trees := trees }
  else return .inl (trees ++ (← statement rules { string := true }))

theorem statements_eq (rules : Rules) : statements rules true = loop (nextStatement rules) [] := rfl

/-- All lines of a source are read. -/
theorem gives_lines {σs : List Spelling} (hσs : ∀ σ ∈ σs, σ.Proper) (rules : Rules) {s : Stream}
    (hs : Ahead [0] (linesText σs) s) :
    Gives [0] (statements rules true) s fun piece _ => AreLines piece.trees σs := by
  let I (n : Nat) (trees : List Tree) (s : Stream) : Prop := ∃ done left, n = left.length ∧
    done ++ left = σs ∧ AreLines trees done ∧ Ahead [0] (linesText left) s
  rw [statements_eq]
  refine gives_loop (I := I) ?_ (n := σs.length) ⟨[], σs, rfl, rfl, .nil, hs⟩ ?_
  · rintro n trees s ⟨done, left, rfl, rfl, hdone, hs⟩
    refine Gives.bind (gives_peek ?_)
    cases left with
    | nil =>
        have hfinish : s.token = .finish := by
          rw [hs.plain, Stream.plain, hs.start.rest]
          rfl
        rw [if_pos (beq_iff_eq.2 hfinish)]
        refine gives_pure (.inr ⟨_, rfl, ?_⟩)
        rwa [List.append_nil]
    | cons σ left =>
        rw [linesText_cons] at hs
        have hgoes : s.token ≠ .finish := by
          rw [hs.keyword]
          nofun
        rw [if_neg (by simpa using hgoes)]
        have hstarts := startsLine_linesText left
        refine Gives.bind ((gives_line (hσs σ (by simp)) hstarts rules hs).mono
          fun ts s' hr => gives_pure ?_)
        obtain ⟨⟨t, rfl, ht⟩, c, hc, rfl⟩ := hr
        have hnext := ahead_startsLine (n := 1) hstarts (read?_linesText left) hc
        refine .inl ⟨left.length, by simp, _, rfl, done ++ [σ], left, rfl, by simp, ?_, hnext⟩
        exact List.rel_append hdone (.cons ⟨_, ht⟩ .nil)
  · have hlength := length_le_length_flatMap (f := fun σ : Spelling => σ.text ++ ['\n']) (by simp) σs
    rw [hs.start.left, linesText]
    omega

/-- A source of lines is accepted, and its statements are those of the lines. -/
theorem importsOf_linesText {σs : List Spelling} (hσs : ∀ σ ∈ σs, σ.Proper) :
    importsOf (String.ofList (linesText σs)) = .ok (σs.map Spelling.reading) := by
  have hstart : (Cursor.ofChars (linesText σs)).At [0] (List.replicate 0 '\n' ++ linesText σs) :=
    ⟨rfl, rfl, rfl⟩
  have hahead := ahead_startsLine (startsLine_linesText σs) (read?_linesText σs) hstart
  obtain ⟨depth, hdepth⟩ : ∃ depth, depthBound (linesText σs) = depth + 1 := ⟨_, rfl⟩
  obtain ⟨piece, s', hread, hlines⟩ := (gives_lines hσs (rulesWith depth) hahead).exists_ok rfl
  have htree : Tree.ofSource (linesText σs) = .inner .plain ⟨0, 0⟩ piece.trees := by
    have hrules : readSource (linesText σs) = .ok piece.trees := by
      rw [readSource, hdepth, rulesWith_succ, rule, hread]
      rfl
    rw [Tree.ofSource, hrules]
  have hcheck : (Tree.inner .plain ⟨0, 0⟩ piece.trees).check = .ok () := by
    refine Tree.check_eq_ok ?_
    rw [Tree.preorder_eq]
    exact List.forall_mem_cons.2 ⟨rfl, List.forall_mem_flatMap.2 hlines.isHarmless⟩
  have hparse : parse (String.ofList (linesText σs)) = .ok (.inner .plain ⟨0, 0⟩ piece.trees) := by
    rw [parse, String.toList_ofList, htree, hcheck]
    rfl
  have himports : (Tree.inner .plain ⟨0, 0⟩ piece.trees).imports = σs.map Spelling.reading := by
    rw [Tree.imports_eq, Tree.importNodes_eq, ← hlines.filterMap_statement?]
    rfl
  rw [importsOf, hparse, ← himports]
  rfl

/-! ### Rendering -/

/-- A line that spells a statement. -/
def Renders (line : List Char) (statement : ImportStatement) : Prop :=
  ∃ σ : Spelling, σ.Proper ∧ (∀ g ∈ σ.dotGaps, ∀ f ∈ g, f.isBlank = true) ∧ σ.text = line ∧
    σ.statement = statement

/-- Whether a text is words between dots. -/
def isDottedName (name : String) : Bool := (name.toList.splitOn '.').all isWord

/-- The words of a dotted name begin with another one. -/
def BeginsOtherwise (name word : String) : Prop :=
  (name.toList.splitOn '.').head? ≠ some word.toList

/-- The statements that can be spelled: there is something to import, the names are words between dots,
and the source is not taken for something else. -/
def ImportStatement.IsRegular : ImportStatement → Prop
  | .modules names => names ≠ [] ∧ ∀ name ∈ names, isDottedName name = true
  | .members level source names => (level ≠ 0 ∨ source ≠ none) ∧
      (∀ name ∈ source, isDottedName name = true ∧
        BeginsOtherwise name (if level = 0 then "__future__" else "import")) ∧
      ∀ name ∈ names, isDottedName name = true

theorem Dotted.splitOn_name (d : Dotted) :
    d.name.toList.splitOn '.' = d.first.chars :: d.others.map fun p => p.word.chars := by
  rw [name, String.toList_ofList]
  refine List.splitOn_intercalate '.' (fun l hl => ?_) (by simp)
  rcases List.mem_cons.1 hl with rfl | hl
  · exact d.first.dot_not_mem
  · obtain ⟨p, -, rfl⟩ := List.mem_map.1 hl
    exact p.word.dot_not_mem

theorem Dotted.isDottedName_name (d : Dotted) : isDottedName d.name = true := by
  rw [isDottedName, d.splitOn_name, List.all_cons, d.first.isWord, List.all_map, Bool.true_and]
  exact List.all_eq_true.2 fun p _ => p.word.isWord

theorem Dotted.beginsOtherwise_iff {d : Dotted} {word : String} :
    BeginsOtherwise d.name word ↔ d.first.text ≠ word := by
  rw [BeginsOtherwise, d.splitOn_name, List.head?_cons, Ne, Option.some_inj, Word.text]
  refine not_congr ⟨fun h => ?_, fun h => ?_⟩
  · rw [h, String.ofList_toList]
  · rw [← h, String.toList_ofList]

theorem exists_words {texts : List (List Char)} (h : ∀ text ∈ texts, isWord text = true) :
    ∃ words : List Word, words.map Word.chars = texts := by
  induction texts with
  | nil => exact ⟨[], rfl⟩
  | cons text texts ih =>
      obtain ⟨htext, htexts⟩ := List.forall_mem_cons.1 h
      obtain ⟨words, rfl⟩ := ih htexts
      exact ⟨⟨text, htext⟩ :: words, rfl⟩

/-- Words between dots are the name of a spelling. -/
theorem exists_dotted {name : String} (h : isDottedName name = true) :
    ∃ d : Dotted, d.name = name ∧ ∀ g ∈ d.gaps, g = [] := by
  obtain ⟨words, hwords⟩ := exists_words (List.all_eq_true.1 h)
  have hname : String.ofList (['.'].intercalate (words.map Word.chars)) = name := by
    rw [hwords, List.intercalate_splitOn, String.ofList_toList]
  cases words with
  | nil => exact absurd hwords.symm (List.splitOn_ne_nil _ _)
  | cons first others =>
      refine ⟨⟨first, others.map fun v => ⟨[], [], v⟩⟩, ?_, by simp [Dotted.gaps]⟩
      rw [← hname, Dotted.name, List.map_map]
      rfl

theorem Dotted.fits_of_gaps {d : Dotted} (h : ∀ g ∈ d.gaps, g = []) (w : Want) : d.Fits w := by
  intro p hp
  have hbefore : p.before = [] := h _ (List.mem_flatMap.2 ⟨p, hp, by simp⟩)
  rw [hbefore]
  exact fun _ => nofun

theorem exists_furtherItems {names : List String} (h : ∀ name ∈ names, isDottedName name = true) :
    ∃ fs : List FurtherItem, fs.map (·.item.name.name) = names ∧
      ∀ f ∈ fs, f.Fits importEnd ∧ ∀ g ∈ f.item.name.gaps, g = [] := by
  induction names with
  | nil => exact ⟨[], rfl, by simp⟩
  | cons name names ih =>
      obtain ⟨hname, hnames⟩ := List.forall_mem_cons.1 h
      obtain ⟨fs, rfl, hfs⟩ := ih hnames
      obtain ⟨d, rfl, hd⟩ := exists_dotted hname
      refine ⟨⟨[], [], d, none⟩ :: fs, rfl, List.forall_mem_cons.2 ⟨⟨?_, hd⟩, hfs⟩⟩
      exact ⟨fun _ => nofun, fun _ => nofun, Dotted.fits_of_gaps hd _, nofun⟩

/-- Names are spelled between commas. -/
theorem exists_items {names : List String} (hne : names ≠ [])
    (h : ∀ name ∈ names, isDottedName name = true) : ∃ items : Items,
      items.all.map (·.name.name) = names ∧ items.Fits importEnd ∧
        ∀ g ∈ items.all.flatMap (·.name.gaps), g = [] := by
  cases names with
  | nil => exact absurd rfl hne
  | cons name names =>
      obtain ⟨hname, hnames⟩ := List.forall_mem_cons.1 h
      obtain ⟨d, rfl, hd⟩ := exists_dotted hname
      obtain ⟨fs, rfl, hfs⟩ := exists_furtherItems hnames
      refine ⟨⟨⟨d, none⟩, fs, none⟩, by simp [Items.all], ⟨?_, fun f hf => (hfs f hf).1, nofun⟩, ?_⟩
      · exact ⟨Dotted.fits_of_gaps hd _, nofun⟩
      · rw [Items.all, List.flatMap_cons, List.forall_mem_append]
        refine ⟨hd, List.forall_mem_flatMap.2 fun i hi => ?_⟩
        obtain ⟨f, hf, rfl⟩ := List.mem_map.1 hi
        exact (hfs f hf).2

/-- A space. -/
def space : Break := ⟨[.filler ' ' rfl], nofun⟩

theorem exists_listing {names : List String} (h : ∀ name ∈ names, isDottedName name = true) :
    ∃ listing : Listing, listing.items.map (·.name.name) = names ∧ listing.Proper ∧
      ∀ g ∈ listing.items.flatMap (·.name.gaps), g = [] := by
  by_cases hne : names = []
  · exact ⟨.wildcard space.gap, hne.symm, trivial, nofun⟩
  · obtain ⟨items, hnames, hfits, hgaps⟩ := exists_items hne h
    exact ⟨.bare space items, hnames, hfits, hgaps⟩

theorem exists_source {level : Nat} {source : Option String} (hsome : level ≠ 0 ∨ source ≠ none)
    (h : ∀ name ∈ source, isDottedName name = true ∧
      BeginsOtherwise name (if level = 0 then "__future__" else "import")) :
    ∃ src : Source, src.meaning = (level, source) ∧ src.Proper ∧ ∀ g ∈ src.dotGaps, g = [] := by
  cases level with
  | zero =>
      obtain ⟨name, rfl⟩ := Option.ne_none_iff_exists'.1 (hsome.resolve_left (by simp))
      obtain ⟨hname, hother⟩ := h name rfl
      obtain ⟨d, rfl, hd⟩ := exists_dotted hname
      rw [if_pos rfl, Dotted.beginsOtherwise_iff] at hother
      exact ⟨.absolute space d space, rfl, hother, hd⟩
  | succ n =>
      cases source with
      | none =>
          refine ⟨.relative space.gap (List.replicate n []) space.gap, ?_, trivial, ?_⟩
          · simp [Source.meaning]
          · exact fun g hg => List.eq_of_mem_replicate hg
      | some name =>
          obtain ⟨hname, hother⟩ := h name rfl
          obtain ⟨d, rfl, hd⟩ := exists_dotted hname
          rw [if_neg (Nat.succ_ne_zero n), Dotted.beginsOtherwise_iff] at hother
          refine ⟨.inner space.gap (List.replicate n []) [] d space, ?_, fun hfirst => hother ?_, ?_⟩
          · simp [Source.meaning]
          · rw [hfirst]
            rfl
          · exact List.forall_mem_append.2 ⟨fun g hg => List.eq_of_mem_replicate hg, hd⟩

theorem isBlank_of_eq_nil {gaps : List Gap} (h : ∀ g ∈ gaps, g = []) :
    ∀ g ∈ gaps, ∀ f ∈ g, f.isBlank = true := by
  intro g hg f hf
  rw [h g hg] at hf
  cases hf

/-- Regular statements can be rendered. -/
theorem ImportStatement.IsRegular.exists_renders {statement : ImportStatement}
    (h : statement.IsRegular) : ∃ line, Renders line statement := by
  cases statement with
  | modules names =>
      obtain ⟨items, rfl, hfits, hgaps⟩ := exists_items h.1 h.2
      exact ⟨_, .modules space items, hfits, isBlank_of_eq_nil hgaps, rfl, rfl⟩
  | members level source names =>
      obtain ⟨hsome, hsource, hnames⟩ := h
      obtain ⟨src, hmeaning, hproper, hdots⟩ := exists_source hsome hsource
      obtain ⟨listing, rfl, hlisting, hgaps⟩ := exists_listing hnames
      refine ⟨_, .members src listing, ⟨hproper, hlisting⟩, ?_, rfl, ?_⟩
      · exact isBlank_of_eq_nil (List.forall_mem_append.2 ⟨hdots, hgaps⟩)
      · rw [Spelling.statement, hmeaning]

theorem Source.isRegular {source : Source} (h : source.Proper) :
    (source.meaning.1 ≠ 0 ∨ source.meaning.2 ≠ none) ∧
    ∀ name ∈ source.meaning.2, isDottedName name = true ∧
      BeginsOtherwise name (if source.meaning.1 = 0 then "__future__" else "import") := by
  cases source with
  | absolute lead d trail =>
      refine ⟨.inr nofun, fun name hname => ?_⟩
      obtain rfl : d.name = name := Option.some.inj hname
      exact ⟨d.isDottedName_name, Dotted.beginsOtherwise_iff.2 h⟩
  | relative lead dots trail => exact ⟨.inl (Nat.succ_ne_zero _), nofun⟩
  | inner lead dots behind d trail =>
      refine ⟨.inl (Nat.succ_ne_zero _), fun name hname => ?_⟩
      obtain rfl : d.name = name := Option.some.inj hname
      rw [Source.meaning, if_neg (Nat.succ_ne_zero _)]
      refine ⟨d.isDottedName_name, Dotted.beginsOtherwise_iff.2 fun hfirst => h ?_⟩
      exact Word.eq_of_text_eq hfirst

/-- What can be rendered is regular. -/
theorem Renders.isRegular {line : List Char} {statement : ImportStatement}
    (h : Renders line statement) : statement.IsRegular := by
  obtain ⟨σ, hσ, -, -, rfl⟩ := h
  have hnames : ∀ items : List Item, ∀ name ∈ items.map (·.name.name), isDottedName name = true := by
    intro items name hname
    obtain ⟨i, -, rfl⟩ := List.mem_map.1 hname
    exact i.name.isDottedName_name
  cases σ with
  | modules lead items => exact ⟨by simp [Items.all], hnames _⟩
  | members source listing =>
      obtain ⟨hsome, hsource⟩ := Source.isRegular hσ.1
      exact ⟨hsome, hsource, hnames _⟩

/-- Lines that render some statements. -/
theorem exists_spellings {lines : List (List Char)} {statements : List ImportStatement}
    (h : List.Forall₂ Renders lines statements) : ∃ σs : List Spelling, (∀ σ ∈ σs, σ.Proper) ∧
      σs.map Spelling.text = lines ∧ σs.map Spelling.reading = statements := by
  induction h with
  | nil => exact ⟨[], nofun, rfl, rfl⟩
  | cons hline _ ih =>
      obtain ⟨σ, hσ, hblank, rfl, rfl⟩ := hline
      obtain ⟨σs, hσs, rfl, rfl⟩ := ih
      refine ⟨σ :: σs, List.forall_mem_cons.2 ⟨hσ, hσs⟩, rfl, ?_⟩
      rw [List.map_cons, Spelling.reading_eq_statement hblank]

/-- The source of some lines. -/
def sourceOf (lines : List (List Char)) : String := String.ofList (lines.flatMap (· ++ ['\n']))

/-- Reading undoes rendering. The statements that can be rendered are the regular ones. A source of
lines that render some statements is accepted, and its import statements are these, in their order. -/
theorem importsOf_sourceOf_renderings :
    (∀ statement : ImportStatement, statement.IsRegular ↔ ∃ line, Renders line statement) ∧
    ∀ (lines : List (List Char)) (statements : List ImportStatement),
      List.Forall₂ Renders lines statements → importsOf (sourceOf lines) = .ok statements := by
  refine ⟨fun statement => ⟨fun h => h.exists_renders, fun ⟨_, h⟩ => h.isRegular⟩, ?_⟩
  intro lines statements h
  obtain ⟨σs, hσs, rfl, rfl⟩ := exists_spellings h
  have hsource : sourceOf (σs.map Spelling.text) = String.ofList (linesText σs) := by
    rw [sourceOf, List.flatMap_map, linesText]
  rw [hsource, importsOf_linesText hσs]

/-- Lines with new names, white space around dots and commas, brackets and a last comma. -/
def sampleLines : List (List Char) :=
  ["import a . b as c,\td".toList, "from . .a import (b , c as d,)".toList,
    "from a.b import *".toList]

def sampleStatements : List ImportStatement :=
  [.modules ["a.b", "d"], .members 2 (some "a") ["b", "c"], .members 0 (some "a.b") []]

/-- Reading undoes rendering for the lines above. -/
theorem importsOf_sourceOf_sampleLines : List.Forall₂ Renders sampleLines sampleStatements ∧
    importsOf (sourceOf sampleLines) = .ok sampleStatements := by
  let a : Word := ⟨['a'], by decide⟩
  let b : Word := ⟨['b'], by decide⟩
  let c : Word := ⟨['c'], by decide⟩
  let d : Word := ⟨['d'], by decide⟩
  let tab : Gap := [.filler '\t' rfl]
  have hrenders : List.Forall₂ Renders sampleLines sampleStatements := by
    refine .cons ⟨.modules space ⟨⟨⟨a, [⟨space.gap, space.gap, b⟩]⟩, some ⟨space, space, c⟩⟩,
      [⟨[], tab, ⟨d, []⟩, none⟩], none⟩, ?_, ?_, ?_, ?_⟩ (.cons ⟨.members
        (.inner space.gap [space.gap] [] ⟨a, []⟩ space) (.bracketed space.gap [] ⟨⟨⟨b, []⟩, none⟩,
          [⟨space.gap, space.gap, ⟨c, []⟩, some ⟨space, space, d⟩⟩], some []⟩ []), ?_, ?_, ?_, ?_⟩
        (.cons ⟨.members (.absolute space ⟨a, [⟨[], [], b⟩]⟩ space) (.wildcard space.gap), ?_, ?_, ?_, ?_⟩
          .nil))
    all_goals decide
  exact ⟨hrenders, importsOf_sourceOf_renderings.2 _ _ hrenders⟩

end ImportAtlas.Python
