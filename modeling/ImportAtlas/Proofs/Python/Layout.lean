import Mathlib.Data.Prod.Lex
import ImportAtlas.Proofs.Python.Relaid
import ImportAtlas.Proofs.Python.Rendering
import ImportAtlas.Proofs.Python.Rules

/-!
# Sources with another layout

An import node of a source starts at the word that its statement starts with, and a source has one place
at each position. So the statement of such a node is the one that is spelled out there, whatever stands
before and behind it. Two accepted sources whose statements are spelled with another layout are therefore
read alike if cleaning leaves the same around the dots of their names.

Main definitions:

* `ImportAtlas.Python.Spelling.StandsAt` — a statement is spelled at a position of a source;
* `ImportAtlas.Python.SpelledIn` — the spellings of all import statements of a source.

Main results:

* `ImportAtlas.Python.Position.eq_of_after_eq` — a source has one place at a position;
* `ImportAtlas.Python.Tree.ReadIn.statement?_eq` — a node has the statement that is spelled at its start;
* `ImportAtlas.Python.importsOf_relaid` — **when sources with another layout are read alike**;
* `ImportAtlas.Python.exists_relaid_importsOf_ne` — two that are not.
-/

set_option autoImplicit false

namespace ImportAtlas.Python

open Reader

/-! ### Positions tell places apart -/

namespace Position

/-- Positions are ordered by their rows, and in a row by their columns. -/
def key (p : Position) : ℕ ×ₗ ℕ := toLex (p.row, p.column)

theorem key_lt_next (p : Position) (c : Char) : p.key < (p.next c).key := by
  rw [key, key, Prod.Lex.toLex_lt_toLex, next]
  split
  · exact .inl (Nat.lt_succ_self _)
  · exact .inr ⟨rfl, Nat.lt_add_of_pos_right (Char.utf8Size_pos c)⟩

theorem key_le_foldl (p : Position) (text : List Char) : p.key ≤ (text.foldl next p).key := by
  induction text generalizing p with
  | nil => exact le_rfl
  | cons c text ih => exact (p.key_lt_next c).le.trans (ih _)

/-- The position behind more characters is another one. -/
theorem after_append_ne (text : List Char) {more : List Char} (h : more ≠ []) :
    after (text ++ more) ≠ after text := by
  obtain ⟨c, rest, rfl⟩ := List.exists_cons_of_ne_nil h
  intro heq
  have hlt : (after text).key < (after (text ++ c :: rest)).key := by
    rw [after, after, List.foldl_append]
    exact (key_lt_next _ c).trans_le (key_le_foldl _ rest)
  rw [heq] at hlt
  exact lt_irrefl _ hlt

/-- A source has one place at a position. -/
theorem eq_of_after_eq {a a' b b' : List Char} (h : a ++ b = a' ++ b') (hpos : after a = after a') :
    a = a' ∧ b = b' := by
  rcases List.append_eq_append_iff.1 h with ⟨more, rfl, rfl⟩ | ⟨more, rfl, rfl⟩
  · by_cases hmore : more = []
    · simp [hmore]
    · exact absurd hpos.symm (after_append_ne a hmore)
  · by_cases hmore : more = []
    · simp [hmore]
    · exact absurd hpos (after_append_ne a' hmore)

end Position

/-! ### Where import nodes start -/

section

variable {α β : Type} {s s' : Stream}

theorem exists_of_bind_eq_ok {p : Reader α} {f : α → Reader β} {r : β × Stream}
    (h : (p >>= f) s = .ok r) : ∃ a t, p s = .ok (a, t) ∧ f a t = .ok r := by
  change Except.bind (p s) (fun r => f r.1 r.2) = .ok r at h
  cases hp : p s with
  | error e =>
      rw [hp] at h
      cases h
  | ok q =>
      rw [hp] at h
      exact ⟨q.1, q.2, rfl, h⟩

theorem token_of_keyword {text : String} {w : Want} {r : Unit × Stream}
    (h : keyword text w s = .ok r) : s.token = .word text := by
  obtain ⟨found, t, hfound, h⟩ := exists_of_bind_eq_ok h
  cases hfound
  split at h
  · next heq => exact beq_iff_eq.1 heq
  · cases h

/-- An `import` statement starts at the word. -/
theorem start_of_importStatement {t : Tree} (h : importStatement s = .ok (t, s')) :
    s.token = .word "import" ∧ t.start = s.start.pos := by
  obtain ⟨pos, s₁, hpos, h⟩ := exists_of_bind_eq_ok h
  cases hpos
  obtain ⟨_, s₂, hkeyword, h⟩ := exists_of_bind_eq_ok h
  obtain ⟨names, s₃, _, h⟩ := exists_of_bind_eq_ok h
  cases h
  exact ⟨token_of_keyword hkeyword, rfl⟩

/-- A `from` statement starts at the word. -/
theorem start_of_fromStatement {t : Tree} (h : fromStatement s = .ok (t, s')) :
    s.token = .word "from" ∧ t.start = s.start.pos := by
  obtain ⟨pos, s₁, hpos, h⟩ := exists_of_bind_eq_ok h
  cases hpos
  obtain ⟨_, s₂, hkeyword, h⟩ := exists_of_bind_eq_ok h
  refine ⟨token_of_keyword hkeyword, ?_⟩
  obtain ⟨future, s₃, _, h⟩ := exists_of_bind_eq_ok h
  split at h
  · obtain ⟨_, s₄, _, h⟩ := exists_of_bind_eq_ok h
    obtain ⟨names, s₅, _, h⟩ := exists_of_bind_eq_ok h
    cases h
    rfl
  · obtain ⟨source, s₄, _, h⟩ := exists_of_bind_eq_ok h
    obtain ⟨_, s₅, _, h⟩ := exists_of_bind_eq_ok h
    obtain ⟨star, s₆, _, h⟩ := exists_of_bind_eq_ok h
    obtain ⟨wildcard, s₇, _, h⟩ := exists_of_bind_eq_ok h
    split at h
    · cases h
      rfl
    · obtain ⟨names, s₈, _, h⟩ := exists_of_bind_eq_ok h
      cases h
      rfl

end

/-! ### Statements in a source -/

/-- A statement of a source: at the position a proper spelling begins, behind which a statement may
end. -/
def Spelling.StandsAt (src : List Char) (pos : Position) (σ : Spelling) : Prop :=
  σ.Proper ∧ ∃ before after, src = before ++ (σ.text ++ after) ∧ pos = Position.after before ∧
    EndsStatement after

namespace Tree

@[simp] theorem statement?_withRole (role : Role) (t : Tree) :
    (t.withRole role).statement? = t.statement? := by
  cases t
  rfl

@[simp] theorem start_withRole (role : Role) (t : Tree) : (t.withRole role).start = t.start := by
  cases t
  rfl

/-- An import node that was read where a statement is spelled has that statement. -/
theorem ReadIn.statement?_eq {src : List Char} {n : Tree} {σ : Spelling} (h : n.ReadIn ⟨src⟩)
    (hσ : σ.StandsAt src n.start) : n.statement? = some σ.reading := by
  obtain ⟨s, t, s', hs, hread, role, rfl⟩ := h
  obtain ⟨hproper, before, after, hsrc, hpos, hafter⟩ := hσ
  rw [start_withRole] at hpos
  -- the reader was at the first word of a statement, and the node starts there
  have hstart : (∃ text, s.token = .word text) ∧ t.start = s.start.pos := by
    rcases hread with hread | hread
    · exact ⟨⟨_, (start_of_importStatement hread).1⟩, (start_of_importStatement hread).2⟩
    · exact ⟨⟨_, (start_of_fromStatement hread).1⟩, (start_of_fromStatement hread).2⟩
  obtain ⟨⟨text, htoken⟩, hstart⟩ := hstart
  have hahead : Ahead s.start.indents (σ.text ++ after) s := by
    obtain ⟨before', hrest, hleft, hbefore⟩ := hs.start
    rw [hpos, hbefore] at hstart
    obtain ⟨-, hrest⟩ := Position.eq_of_after_eq (hrest.trans hsrc) hstart.symm
    exact ⟨⟨hrest, by rw [hleft, hrest], rfl⟩, hs.plain text htoken⟩
  have hreader : σ.reader s = .ok (t, s') := by
    have hkeyword := hahead.keyword
    rcases hread with hread | hread
    · rw [(start_of_importStatement hread).1] at hkeyword
      cases σ with
      | modules lead items => exact hread
      | members source listing =>
          change Token.word "import" = .word fromWord.text at hkeyword
          exact absurd hkeyword (by decide)
    · rw [(start_of_fromStatement hread).1] at hkeyword
      cases σ with
      | modules lead items =>
          change Token.word "from" = .word importWord.text at hkeyword
          exact absurd hkeyword (by decide)
      | members source listing => exact hread
  rw [statement?_withRole]
  exact ((gives_statement hproper hafter hahead).of_eq_ok hreader).1.statement?_eq

end Tree

/-- An accepted source whose import statements have some spellings, in their order. -/
def SpelledIn (src : String) (σs : List Spelling) : Prop :=
  ∃ t, parse src = .ok t ∧
    List.Forall₂ (Spelling.StandsAt src.toList) (t.importNodes.map Tree.start) σs

section

variable {src : String} {t : Tree} {σs : List Spelling}

theorem parse_eq_ok_iff :
    parse src = .ok t ↔ (Tree.ofSource src.toList).check = .ok () ∧ t = Tree.ofSource src.toList := by
  unfold parse
  dsimp only
  cases hcheck : (Tree.ofSource src.toList).check with
  | error e => exact ⟨nofun, nofun⟩
  | ok u => exact ⟨fun h => ⟨rfl, (Except.ok.inj h).symm⟩, fun h => congrArg Except.ok h.2.symm⟩

/-- The import statements of a source are those that are spelled. -/
theorem SpelledIn.importsOf_eq (h : SpelledIn src σs) :
    importsOf src = .ok (σs.map Spelling.reading) := by
  obtain ⟨t, ht, hσs⟩ := h
  have hnodes : ∀ n ∈ t.importNodes, n.ReadIn ⟨src.toList⟩ := by
    intro n hn
    rw [(parse_eq_ok_iff.1 ht).2] at hn
    exact readIn_of_mem_importNodes hn
  have himports : importsOf src = .ok t.imports := by
    rw [importsOf, ht]
    rfl
  rw [himports, Tree.imports_eq]
  rw [List.forall₂_map_left_iff] at hσs
  generalize t.importNodes = nodes at hnodes hσs
  congr 1
  induction hσs with
  | nil => rfl
  | cons hσ _ ih =>
      obtain ⟨hn, hrest⟩ := List.forall_mem_cons.1 hnodes
      rw [List.filterMap_cons_some (hn.statement?_eq hσ), List.map_cons, ih hrest]

end

theorem spelledIn_of_starts {src : String} {σs : List Spelling} (starts : List Position)
    (hcheck : (Tree.ofSource src.toList).check = .ok ())
    (hstarts : (Tree.ofSource src.toList).importNodes.map Tree.start = starts)
    (hσs : List.Forall₂ (Spelling.StandsAt src.toList) starts σs) : SpelledIn src σs :=
  ⟨_, parse_eq_ok_iff.2 ⟨hcheck, rfl⟩, by rwa [hstarts]⟩

/-! ### Sources with another layout -/

/-- Let two accepted sources have the same import statements, except for the spaces, the tabs and the
joined lines between their words and marks. These are read alike if cleaning leaves the same around the
dots of their names, which disregards white space next to the dots. It is the only case, unless comments
around the dots have dots of their own. -/
theorem importsOf_relaid {src src' : String} {σs σs' : List Spelling} (h : SpelledIn src σs)
    (h' : SpelledIn src' σs') (hrelaid : List.Forall₂ Spelling.Relaid σs σs') :
    (σs.map Spelling.residues = σs'.map Spelling.residues → importsOf src = importsOf src') ∧
    ((∀ σ ∈ σs, σ.Plain) → importsOf src = importsOf src' →
      σs.map Spelling.residues = σs'.map Spelling.residues) := by
  rw [h.importsOf_eq, h'.importsOf_eq]
  refine ⟨fun hres => congrArg Except.ok ?_, fun hplain hread => ?_⟩
  · exact map_eq_map_of_forall₂ hrelaid (fun _ _ _ h => h.reading_eq) hres
  · exact map_eq_map_of_forall₂ hrelaid (fun σ hσ _ h => h.residues_eq (hplain σ hσ))
      (Except.ok.inj hread)

def wordA : Word := ⟨['a'], by decide⟩

def wordB : Word := ⟨['b'], by decide⟩

/-- A statement that imports `b` from the package itself. -/
def siblingImport (lead : Gap) (trail : Gap) (before : Break) : Spelling :=
  .members (.relative lead [] trail) (.bare before ⟨⟨⟨wordB, []⟩, none⟩, [], none⟩)

/-- A statement that imports `a.b`. -/
def submoduleImport (lead : Break) (before behind : Gap) : Spelling :=
  .modules lead ⟨⟨⟨wordA, [⟨before, behind, wordB⟩]⟩, none⟩, [], none⟩

theorem submoduleImport_relaid {lead lead' : Break} {before before' behind behind' : Gap}
    (hlead : lead.gap.Relaid lead'.gap) (hbefore : before.Relaid before')
    (hbehind : behind.Relaid behind') :
    (submoduleImport lead before behind).Relaid (submoduleImport lead' before' behind') :=
  .modules hlead ⟨⟨⟨rfl, .cons ⟨hbefore, hbehind, rfl⟩ .nil⟩, .none⟩, .nil, .none⟩

/-- Joined lines that are not next to the dot of a name, and white space next to it, are of no account. -/
theorem importsOf_relaid_sampleSources :
    importsOf "if a:\n  from . import b\nimport a.b\n" =
      importsOf "if a:\n  from .\\\n import\tb\nimport \\\n  a . b\n" := by
  let tab : Break := ⟨[.filler '\t' rfl], nofun⟩
  let far : Break := ⟨[.filler ' ' rfl, .join false, .filler ' ' rfl, .filler ' ' rfl], nofun⟩
  have hplain : SpelledIn "if a:\n  from . import b\nimport a.b\n"
      [siblingImport space.gap space.gap space, submoduleImport space [] []] := by
    refine spelledIn_of_starts [⟨1, 2⟩, ⟨2, 0⟩] (by decide +kernel) (by decide +kernel) ?_
    refine .cons ⟨by decide, "if a:\n  ".toList, "\nimport a.b\n".toList, by decide, by decide,
      endsStatement_line rfl⟩ (.cons ⟨by decide, "if a:\n  from . import b\n".toList, "\n".toList,
      by decide, by decide, endsStatement_line rfl⟩ .nil)
  have hother : SpelledIn "if a:\n  from .\\\n import\tb\nimport \\\n  a . b\n"
      [siblingImport space.gap [.join false, .filler ' ' rfl] tab,
        submoduleImport far space.gap space.gap] := by
    refine spelledIn_of_starts [⟨1, 2⟩, ⟨3, 0⟩] (by decide +kernel) (by decide +kernel) ?_
    refine .cons ⟨by decide, "if a:\n  ".toList, "\nimport \\\n  a . b\n".toList, by decide, by decide,
      endsStatement_line rfl⟩ (.cons ⟨by decide, "if a:\n  from .\\\n import\tb\n".toList, "\n".toList,
      by decide, by decide, endsStatement_line rfl⟩ .nil)
  refine (importsOf_relaid hplain hother ?_).1 (by decide)
  refine .cons (.members (.relative rfl .nil rfl) (.bare rfl ⟨⟨⟨rfl, .nil⟩, .none⟩, .nil, .none⟩)) ?_
  exact .cons (submoduleImport_relaid rfl rfl rfl) .nil

/-- A joined line next to the dot of a name stays in the name. -/
theorem exists_relaid_importsOf_ne : ∃ src src' σs σs', SpelledIn src σs ∧ SpelledIn src' σs' ∧
    List.Forall₂ Spelling.Relaid σs σs' ∧ importsOf src ≠ importsOf src' := by
  refine ⟨"import a.b\n", "import a.\\\nb\n", [submoduleImport space [] []],
    [submoduleImport space [] [.join false]], ?_, ?_, ?_, by decide +kernel⟩
  · refine spelledIn_of_starts [⟨0, 0⟩] (by decide +kernel) (by decide +kernel) ?_
    exact .cons ⟨by decide, [], "\n".toList, by decide, rfl, endsStatement_line rfl⟩ .nil
  · refine spelledIn_of_starts [⟨0, 0⟩] (by decide +kernel) (by decide +kernel) ?_
    exact .cons ⟨by decide, [], "\n".toList, by decide, rfl, endsStatement_line rfl⟩ .nil
  · exact .cons (submoduleImport_relaid rfl rfl rfl) .nil

end ImportAtlas.Python
