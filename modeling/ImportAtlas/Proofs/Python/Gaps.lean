import ImportAtlas.Python.Grammar.Import

/-!
# Between tokens

Between two tokens there may be fillers, which are white space and a few invisible characters, joined
lines, and comments. Where a line cannot end, all of them are passed, line ends included; only a line that
is narrower than the block around it is taken for the end of that block. Where a line can end, fillers
other than line ends and joined lines are passed.

Main definitions:

* `ImportAtlas.Python.Filling`, `ImportAtlas.Python.Gap` — what may stand between two tokens;
* `ImportAtlas.Python.Word` — a word;
* `ImportAtlas.Python.Ahead` — the word or mark at the beginning of a text is next;
* `ImportAtlas.Python.Passed` — the same, or a block ends before it.

Main results:

* `ImportAtlas.Python.Stream.passed` — **gaps are passed**;
* `ImportAtlas.Python.Ahead.word`, `ImportAtlas.Python.Ahead.mark` — the tokens behind them.
-/

set_option autoImplicit false

namespace ImportAtlas.Python

open ImportAtlas.Text

/-! ### Characters -/

/-- The code points of the fillers. -/
def fillerPoints : List Nat :=
  [9, 10, 11, 12, 13, 0x20, 0x85, 0xa0, 0x1680, 0x2000, 0x2001, 0x2002, 0x2003, 0x2004, 0x2005, 0x2006,
    0x2007, 0x2008, 0x2009, 0x200a, 0x200b, 0x2028, 0x2029, 0x202f, 0x205f, 0x2060, 0x3000, 0xfeff]

theorem toNat_mem_fillerPoints {c : Char} (h : Stream.isFiller c = true) : c.toNat ∈ fillerPoints := by
  simp only [Stream.isFiller, isBlank, Bool.or_eq_true, Bool.and_eq_true, decide_eq_true_eq,
    beq_iff_eq] at h
  have hrange : ∀ n < 0x200b, 0x2000 ≤ n → n ∈ fillerPoints := by
    intro n hn hlow
    obtain ⟨k, hk, rfl⟩ : ∃ k < 11, n = 0x2000 + k := ⟨n - 0x2000, by omega, by omega⟩
    have hall : ∀ k < 11, 0x2000 + k ∈ fillerPoints := by decide
    exact hall k hk
  have hlow : ∀ n < 14, 9 ≤ n → n ∈ fillerPoints := by decide
  rcases h with ((h | rfl) | rfl) | rfl
  · rcases h with ((((((((((h | h) | h) | h) | h) | h) | h) | h) | h) | h) | h)
    · exact hlow _ (by omega) h.1
    · rw [h]; decide
    · rw [h]; decide
    · rw [h]; decide
    · rw [h]; decide
    · exact hrange _ (by omega) h.1
    · rw [h]; decide
    · rw [h]; decide
    · rw [h]; decide
    · rw [h]; decide
    · rw [h]; decide
  · decide
  · decide
  · decide

/-- Fillers do not stand inside words. -/
theorem isIdentContinue_of_isFiller {c : Char} (h : Stream.isFiller c = true) :
    isIdentContinue c = false := by
  have hpoints : ∀ n ∈ fillerPoints, isIdentContinue (Char.ofNat n) = false := by decide +kernel
  have hc := hpoints _ (toNat_mem_fillerPoints h)
  rwa [Char.ofNat_toNat] at hc

theorem isFiller_of_isIdentStart {c : Char} (h : isIdentStart c = true) :
    Stream.isFiller c = false := by
  rw [← Bool.not_eq_true]
  intro hf
  have hc := isIdentContinue_of_isFiller hf
  rw [isIdentContinue_of_isIdentStart h] at hc
  cases hc

theorem isDigit_of_isIdentStart {c : Char} (h : isIdentStart c = true) : c.isDigit = false := by
  have hdigits : ∀ n ∈ List.range 58, 48 ≤ n → isIdentStart (Char.ofNat n) = false := by
    decide +kernel
  rw [← Bool.not_eq_true]
  intro hd
  obtain ⟨hlow, hhigh⟩ : 48 ≤ c.toNat ∧ c.toNat ≤ 57 := by
    simpa [Char.isDigit, UInt32.le_iff_toNat_le] using hd
  have hc := hdigits c.toNat (List.mem_range.2 (by omega)) hlow
  rw [Char.ofNat_toNat, h] at hc
  cases hc

theorem isIdentContinue_of_isDigit {c : Char} (h : c.isDigit = true) : isIdentContinue c = true := by
  have hlow : c.toNat < 128 := by
    have hrange : 48 ≤ c.toNat ∧ c.toNat ≤ 57 := by
      simpa [Char.isDigit, UInt32.le_iff_toNat_le] using h
    omega
  simp [isIdentContinue, hlow, h]

/-! ### Words and gaps -/

/-- Whether a text is one word. -/
def isWord : List Char → Bool
  | [] => false
  | c :: cs => isIdentStart c && cs.all isIdentContinue

/-- A word. -/
structure Word where
  chars : List Char
  isWord : isWord chars = true
deriving DecidableEq

def Word.text (w : Word) : String := String.ofList w.chars

/-- What may stand between two tokens. -/
inductive Filling where
  /-- A white space character or an invisible one. -/
  | filler (c : Char) (h : Stream.isFiller c = true)
  /-- A backslash before a line end, which may have a carriage return. -/
  | join (carriage : Bool)
  /-- A comment up to the end of its line. -/
  | comment (body : List Char) (h : ∀ c ∈ body, c ≠ '\n' ∧ c ≠ '\x00')
deriving DecidableEq

def Filling.text : Filling → List Char
  | .filler c _ => [c]
  | .join true => ['\\', '\r', '\n']
  | .join false => ['\\', '\n']
  | .comment body _ => '#' :: (body ++ ['\n'])

/-- Whether a filling leaves the line that it stands in open. -/
def Filling.inLine : Filling → Bool
  | .filler c _ => c != '\n'
  | .join _ => true
  | .comment _ _ => false

/-- What stands between two tokens. -/
abbrev Gap := List Filling

def Gap.text (g : Gap) : List Char := g.flatMap Filling.text

@[simp] theorem Gap.text_nil : Gap.text [] = [] := rfl

@[simp] theorem Gap.text_cons (f : Filling) (g : Gap) : Gap.text (f :: g) = f.text ++ Gap.text g :=
  List.flatMap_cons

/-- There are no more pieces than characters, if no piece is empty. -/
theorem length_le_length_flatMap {α : Type} {f : α → List Char} (h : ∀ a, f a ≠ [])
    (as : List α) : as.length ≤ (as.flatMap f).length := by
  induction as with
  | nil => simp
  | cons a as ih =>
      have ha := List.length_pos_iff.2 (h a)
      rw [List.flatMap_cons, List.length_append, List.length_cons]
      omega

theorem Filling.text_ne_nil (f : Filling) : f.text ≠ [] := by
  cases f with
  | filler c h => nofun
  | join carriage => cases carriage <;> nofun
  | comment body h => nofun

theorem Gap.length_le (g : Gap) : g.length ≤ (Gap.text g).length :=
  length_le_length_flatMap Filling.text_ne_nil g

/-! ### Places -/

/-- A place before some text, inside blocks of some widths. -/
structure Cursor.At (c : Cursor) (indents : List Nat) (text : List Char) : Prop where
  rest : c.rest = text
  left : c.left = text.length
  indents : c.indents = indents

namespace Cursor

variable {c : Cursor} {indents : List Nat} {a b : List Char}

theorem At.step {ch : Char} (h : c.At indents (ch :: b)) : c.step.At indents b := by
  obtain ⟨hrest, hleft, hindents⟩ := h
  refine ⟨by rw [step_rest, hrest, List.tail_cons], ?_, by rw [step_indents, hindents]⟩
  simp [Cursor.step, hrest, hleft]

theorem At.skip (h : c.At indents (a ++ b)) : (c.skip a.length).At indents b := by
  induction a generalizing c with
  | nil => exact h
  | cons ch a ih => exact ih h.step

theorem At.skipWhile {p : Char → Bool} (h : c.At indents (a ++ b)) (ha : ∀ ch ∈ a, p ch = true)
    (hb : b.head?.all (!p ·) = true) : c.skipWhile p = c.skip a.length := by
  have hstop : b.takeWhile p = [] := by
    cases b with
    | nil => rfl
    | cons ch b => simp_all
  rw [Cursor.skipWhile, h.rest, List.takeWhile_append_of_pos ha, hstop, List.append_nil]

theorem At.skipWhile_eq_self {p : Char → Bool} (h : c.At indents b) (hb : b.head?.all (!p ·) = true) :
    c.skipWhile p = c :=
  At.skipWhile (a := []) h (by simp) hb

theorem At.skipWhile_step {p : Char → Bool} {ch : Char} (h : c.At indents (ch :: b)) (hch : p ch = true) :
    c.skipWhile p = c.step.skipWhile p := by
  rw [Cursor.skipWhile, Cursor.skipWhile, h.rest, h.step.rest, List.takeWhile_cons_of_pos hch]
  rfl

theorem At.textTo {d : Cursor} (h : c.At indents (a ++ b)) (hd : d.left = b.length) :
    c.textTo d = String.ofList a := by
  rw [Cursor.textTo, h.left, hd, h.rest, List.length_append, Nat.add_sub_cancel, List.take_left]

end Cursor

/-! ### Passing gaps -/

/-- A text that begins with neither a filler nor a comment nor a joined line. -/
def Begins (text : List Char) : Prop :=
  ∃ ch rest, text = ch :: rest ∧ Stream.isFiller ch = false ∧ ch ≠ '#' ∧ ch ≠ '\\'

/-- What can be taken inside an import statement: at most the end of a line or a closing bracket. -/
structure Want.Inside (w : Want) : Prop where
  indent : w.indent = false
  dedent : w.dedent = false
  string : w.string = false
  handler : w.handler = false

/-- Whether a gap is passed: where a line can end, it has to leave the line open. -/
def Gap.Fits (g : Gap) (w : Want) : Prop := w.newline = true → ∀ f ∈ g, f.inLine = true

/-- A sweep that passes a character other than a line end, a comment or a joined line keeps what it
knows of line ends, whether it goes on or stops there. -/
theorem Sweep.exists_run_cons {comments : Bool} {ch : Char} {rest : List Char} {s s' : Sweep}
    (hline : ch ≠ '\n') (hcomment : ch ≠ '#') (hjoin : ch ≠ '\\')
    (h : run comments false (ch :: rest) s = some s') :
    s' = s ∨ (Stream.isFiller ch = true ∧
      ∃ s₁ : Sweep, run comments false rest s₁ = some s' ∧ s₁.lineEnd = s.lineEnd) := by
  unfold run at h
  rw [if_neg hline] at h
  split at h
  · next hspace => exact .inr ⟨by rw [hspace]; decide, _, h, rfl⟩
  split at h
  · next hreturn => exact .inr ⟨by rcases hreturn with rfl | rfl <;> decide, _, h, rfl⟩
  split at h
  · next htab => exact .inr ⟨by rw [htab]; decide, _, h, rfl⟩
  rw [if_neg (fun hc => hcomment hc.1)] at h
  exact .inl (Option.some.inj h).symm

/-- A sweep over a gap that leaves the line open comes to no line end. -/
theorem Sweep.lineEnd_run {comments : Bool} {g : Gap} {text : List Char} {s s' : Sweep}
    (hg : ∀ f ∈ g, f.inLine = true) (ht : Begins text)
    (h : run comments false (Gap.text g ++ text) s = some s') : s'.lineEnd = s.lineEnd := by
  induction g generalizing s with
  | nil =>
      obtain ⟨ch, rest, rfl, hfiller, hcomment, hjoin⟩ := ht
      have hline : ch ≠ '\n' := by
        rintro rfl
        cases hfiller
      rcases exists_run_cons hline hcomment hjoin h with rfl | ⟨hf, -⟩
      · rfl
      · rw [hfiller] at hf
        cases hf
  | cons f g ih =>
      obtain ⟨hf, hrest⟩ := List.forall_mem_cons.1 hg
      cases f with
      | filler c hc =>
          have hline : c ≠ '\n' := by simpa [Filling.inLine] using hf
          have hcomment : c ≠ '#' := by
            rintro rfl
            cases hc
          have hjoin : c ≠ '\\' := by
            rintro rfl
            cases hc
          rcases exists_run_cons hline hcomment hjoin h with rfl | ⟨-, s₁, h, hs₁⟩
          · rfl
          · rw [ih hrest h, hs₁]
      | join carriage =>
          cases carriage with
          | false =>
              have hpass : run comments false (Gap.text (.join false :: g) ++ text) s =
                  run comments false (Gap.text g ++ text) { s with passed := s.passed + 2 } := rfl
              have hopen := ih hrest (hpass ▸ h)
              exact hopen
          | true =>
              have hpass : run comments false (Gap.text (.join true :: g) ++ text) s =
                  run comments false (Gap.text g ++ text) { s with passed := s.passed + 3 } := rfl
              have hopen := ih hrest (hpass ▸ h)
              exact hopen
      | comment body hbody => cases hf

namespace Stream

variable {w : Want} {c : Cursor} {g : Gap} {text : List Char} {indents : List Nat}

/-- In a gap there is no layout token but the end of a block, where the line is narrower than the
block. -/
theorem layout?_eq_none_or (hw : w.Inside) (hg : g.Fits w) (ht : Begins text)
    (hc : c.rest = Gap.text g ++ text) :
    layout? w c = none ∨ ∃ s, layout? w c = some s ∧ s.start = c ∧ s.token = .dedent ∧
      c.indent ≠ 0 ∧ w.newline = false ∧ w.close = false := by
  cases hrun : Sweep.run w.passesComments false c.rest {} with
  | none => exact .inl (by rw [layout?, hrun])
  | some s =>
      rw [layout?, hrun]
      simp only [hw.indent, hw.string, Bool.and_false, Bool.false_and, Bool.false_eq_true, if_false]
      split
      · next hclose =>
          refine .inr ⟨_, rfl, rfl, rfl, ?_⟩
          simp only [closesBlock, hw.dedent, hw.string, Bool.and_eq_true, decide_eq_true_eq,
            Bool.or_eq_true, Bool.not_eq_true'] at hclose
          obtain ⟨-, ⟨⟨hwant, hwidth⟩, -⟩, -⟩ := hclose
          simp_all
          omega
      · split
        · next hend =>
            obtain ⟨hline, hnewline⟩ := Bool.and_eq_true_iff.1 hend
            rw [hc] at hrun
            rw [Sweep.lineEnd_run (hg hnewline) ht hrun] at hline
            cases hline
        · exact .inl rfl

@[simp] theorem start_plain (c : Cursor) : (plain c).start = c := by
  unfold plain
  split
  · rfl
  · split
    · rfl
    · split
      · split <;> rfl
      · rfl

section

variable {fuel : Nat} {d : Cursor} (hnone : layout? w c = none) (hskip : c.skipWhile isFiller = d)
include hnone hskip

theorem fetchWith_of_comment {rest : List Char} (hd : d.rest = '#' :: rest) :
    fetchWith w (fuel + 1) c = fetchWith w fuel (d.skipWhile fun ch => ch != '\n' && ch != '\x00') := by
  rw [fetchWith, hnone]
  simp only [hskip, hd]

theorem fetchWith_of_join {n : Nat} (hd : joinLength d.rest = n + 1) :
    fetchWith w (fuel + 1) c = fetchWith w fuel (d.skip (n + 1)) := by
  have hcomment : ∀ rest, d.rest ≠ '#' :: rest := by
    intro rest hrest
    rw [hrest] at hd
    cases hd
  rw [fetchWith, hnone]
  dsimp only
  rw [hskip]
  split
  · next hrest => exact absurd hrest (hcomment _)
  · rw [hd]
    rfl

theorem fetchWith_of_begins (hd : Begins d.rest) : fetchWith w (fuel + 1) c = plain d := by
  obtain ⟨ch, rest, hrest, -, hcomment, hjoin⟩ := hd
  rw [fetchWith, hnone]
  simp only [hskip, hrest]
  split
  · next heq => exact absurd (List.cons.inj heq).1 hcomment
  · have hlength : joinLength (ch :: rest) = 0 := by
      unfold joinLength
      split <;> simp_all
    rw [hlength]
    rfl

end

end Stream

/-- The word, number or mark at the beginning of a text is next. -/
structure Ahead (indents : List Nat) (text : List Char) (s : Stream) : Prop where
  start : s.start.At indents text
  plain : s = Stream.plain s.start

/-- The end of a block is next, where neither a line nor brackets can end. -/
structure Doomed (indents : List Nat) (w : Want) (s : Stream) : Prop where
  token : s.token = .dedent
  indented : indents.headD 0 ≠ 0
  newline : w.newline = false
  close : w.close = false

/-- The text behind a gap is next, or the end of a block before that text. -/
def Passed (indents : List Nat) (w : Want) (text : List Char) (s : Stream) : Prop :=
  Ahead indents text s ∨ Doomed indents w s ∧ text.length ≤ s.start.left

theorem Passed.length_le {indents : List Nat} {w : Want} {text : List Char} {s : Stream}
    (h : Passed indents w text s) : text.length ≤ s.start.left := by
  rcases h with hahead | ⟨-, hlength⟩
  · exact Nat.le_of_eq hahead.start.left.symm
  · exact hlength

namespace Stream

variable {w : Want} {g : Gap} {text : List Char} {indents : List Nat}

/-- In a gap the end of a block is next, or the gap goes on. -/
theorem passed_of_at (hw : w.Inside) (hg : g.Fits w) (ht : Begins text) {c : Cursor} {fuel : Nat}
    (hc : c.At indents (Gap.text g ++ text)) (hfuel : 0 < fuel)
    (hgo : layout? w c = none → Passed indents w text (fetchWith w fuel c)) :
    Passed indents w text (fetchWith w fuel c) := by
  obtain ⟨fuel, rfl⟩ := Nat.exists_eq_succ_of_ne_zero (Nat.ne_zero_of_lt hfuel)
  rcases layout?_eq_none_or hw hg ht hc.rest with
    hnone | ⟨s, hs, hstart, htoken, hindent, hnewline, hclose⟩
  · exact hgo hnone
  · rw [fetchWith, hs]
    rw [Cursor.indent, hc.indents] at hindent
    refine .inr ⟨⟨htoken, hindent, hnewline, hclose⟩, ?_⟩
    rw [hstart, hc.left, List.length_append]
    exact Nat.le_add_left _ _

theorem passed_of_none (hw : w.Inside) (hg : g.Fits w) (ht : Begins text) {c d : Cursor} {fuel : Nat}
    (hd : d.At indents (Gap.text g ++ text)) (hskip : c.skipWhile isFiller = d.skipWhile isFiller)
    (hnone : layout? w c = none) (hfuel : g.length < fuel) :
    Passed indents w text (fetchWith w fuel c) := by
  induction g generalizing c d fuel with
  | nil =>
      obtain ⟨fuel, rfl⟩ := Nat.exists_eq_succ_of_ne_zero (Nat.ne_zero_of_lt hfuel)
      have hstay : d.skipWhile isFiller = d := by
        refine hd.skipWhile_eq_self ?_
        obtain ⟨ch, rest, rfl, hfiller, -⟩ := ht
        simp [Gap.text, hfiller]
      have hbegins : Begins d.rest := by
        rw [hd.rest]
        exact ht
      rw [fetchWith_of_begins hnone (hskip.trans hstay) hbegins]
      exact .inl ⟨by rwa [start_plain], by rw [start_plain]⟩
  | cons f g ih =>
      obtain ⟨fuel, rfl⟩ := Nat.exists_eq_succ_of_ne_zero (Nat.ne_zero_of_lt hfuel)
      rw [List.length_cons] at hfuel
      have hrest : Gap.Fits g w := fun hn k hk => hg hn k (by simp [hk])
      rw [Gap.text_cons, List.append_assoc] at hd
      cases f with
      | filler ch hch =>
          exact ih hrest hd.step (hskip.trans (hd.skipWhile_step hch)) hnone (by omega)
      | join carriage =>
          have hstay : d.skipWhile isFiller = d :=
            hd.skipWhile_eq_self (by cases carriage <;> rfl)
          obtain ⟨n, hlength, hjoin⟩ : ∃ n, (Filling.join carriage).text.length = n + 1 ∧
              joinLength d.rest = n + 1 := by
            rw [hd.rest]
            cases carriage
            · exact ⟨1, rfl, rfl⟩
            · exact ⟨2, rfl, rfl⟩
          have hbehind := hd.skip
          rw [hlength] at hbehind
          rw [fetchWith_of_join hnone (hskip.trans hstay) hjoin]
          exact passed_of_at hw hrest ht hbehind (by omega) fun hnone' =>
            ih hrest hbehind rfl hnone' (by omega)
      | comment body hbody =>
          have hstay : d.skipWhile isFiller = d := hd.skipWhile_eq_self rfl
          have hopen : w.newline = false := by
            rw [← Bool.not_eq_true]
            intro hn
            cases hg hn (.comment body hbody) (by simp)
          -- the comment is passed up to the end of its line, which is a filler
          have hd' : d.At indents (('#' :: body) ++ ('\n' :: (Gap.text g ++ text))) := by
            simpa [Filling.text] using hd
          have hpass := hd'.skipWhile (p := fun ch => ch != '\n' && ch != '\x00')
            (by simpa using fun ch hch => hbody ch hch) (by simp)
          have hline : (d.skip ('#' :: body).length).At indents
              (Gap.text (.filler '\n' rfl :: g) ++ text) := hd'.skip
          rw [fetchWith_of_comment hnone (hskip.trans hstay) hd'.rest, hpass]
          refine passed_of_at hw (fun hn => ?_) ht hline (by omega) fun hnone' => ?_
          · rw [hopen] at hn
            cases hn
          · exact ih hrest hd'.skip.step (hd'.skip.skipWhile_step rfl) hnone' (by omega)

/-- Gaps are passed, unless the end of a block comes first. -/
theorem passed (hw : w.Inside) (hg : g.Fits w) (ht : Begins text) {c : Cursor}
    (hc : c.At indents (Gap.text g ++ text)) : Passed indents w text (fetch w c) := by
  have hlength := Gap.length_le g
  have hleft := hc.left
  rw [List.length_append] at hleft
  refine passed_of_at hw hg ht hc (by omega) fun hnone => ?_
  exact passed_of_none hw hg ht hc rfl hnone (by omega)

end Stream

/-! ### The tokens behind gaps -/

section

variable {indents : List Nat} {rest : List Char} {s : Stream}

theorem Ahead.word {v : Word} (h : Ahead indents (v.chars ++ rest) s)
    (hrest : rest.head?.all (!isIdentContinue ·) = true) :
    s.token = .word v.text ∧ s.next.At indents rest := by
  obtain ⟨⟨_ | ⟨ch, cs⟩, hv⟩, htext⟩ : ∃ v' : Word, v = v' := ⟨v, rfl⟩
  · cases hv
  obtain ⟨hch, hcs⟩ := Bool.and_eq_true_iff.1 hv
  subst htext
  have htake : (ch :: cs ++ rest).takeWhile isIdentContinue = ch :: cs := by
    rw [List.takeWhile_append_of_pos]
    · cases rest with
      | nil => simp
      | cons c rest => simp_all
    · simpa [isIdentContinue_of_isIdentStart hch] using hcs
  have hplain : Stream.plain s.start =
      Stream.ofLength (.word (String.ofList (ch :: cs))) s.start (ch :: cs).length := by
    unfold Stream.plain
    rw [h.start.rest]
    simp only [List.cons_append, hch, if_true]
    rw [← List.cons_append, htake]
  rw [h.plain, hplain]
  exact ⟨rfl, h.start.skip⟩

theorem Ahead.mark {a : List Char} {m : Mark} (h : Ahead indents (a ++ rest) s)
    (hm : Mark.read? (a ++ rest) = some (m, a.length))
    (hident : (a ++ rest).head?.any isIdentStart = false)
    (hnumber : numberLength (a ++ rest) = 0) : s.token = .mark m ∧ s.next.At indents rest := by
  have hplain : Stream.plain s.start = Stream.ofLength (.mark m) s.start a.length := by
    unfold Stream.plain
    rw [h.start.rest]
    split
    · next hnil =>
        rw [hnil] at hm
        cases hm
    · next ch cs hcons =>
        rw [hcons] at hident
        have hch : isIdentStart ch = false := by simpa using hident
        rw [hch, if_neg Bool.false_ne_true, hnumber, hm]
        rfl
  rw [h.plain, hplain]
  exact ⟨rfl, h.start.skip⟩

end

end ImportAtlas.Python
