import ImportAtlas.Proofs.Python.Spelling

/-!
# What readers give

A reader is followed step by step: after each step it has a value and a stream of which something is
known. A reader of import statements fails on a proper spelling only if a block ends in the middle, and
that cannot happen outside of blocks.

Main definitions:

* `ImportAtlas.Python.Reader.Gives` — what a reader gives at a stream;
* `ImportAtlas.Python.Done` — what has been read is known, and what is read next;
* `ImportAtlas.Python.Then` — which token a text goes on with.

Main results:

* `ImportAtlas.Python.Reader.Gives.bind` — one reader after another;
* `ImportAtlas.Python.Reader.gives_loop` — **loops, by the number of rounds that are left**.
-/

set_option autoImplicit false

namespace ImportAtlas.Python

open ImportAtlas.Text

namespace Reader

/-- What a reader gives inside blocks of some widths: a value and a stream with some property. It may fail
only inside of a block. -/
def Gives {α : Type} (indents : List Nat) (p : Reader α) (s : Stream) (Q : α → Stream → Prop) : Prop :=
  match p s with
  | .ok r => Q r.1 r.2
  | .error _ => indents.headD 0 ≠ 0

variable {α β σ : Type} {indents : List Nat} {s : Stream} {w : Want}

theorem Gives.bind {p : Reader α} {f : α → Reader β} {Q : β → Stream → Prop}
    (h : Gives indents p s fun a t => Gives indents (f a) t Q) : Gives indents (p >>= f) s Q := by
  have hbind : (p >>= f) s = Except.bind (p s) fun r => f r.1 r.2 := rfl
  unfold Gives at h ⊢
  rw [hbind]
  cases hp : p s with
  | ok r =>
      rw [hp] at h
      exact h
  | error e =>
      rw [hp] at h
      exact h

theorem Gives.mono {p : Reader α} {P Q : α → Stream → Prop} (h : Gives indents p s P)
    (hPQ : ∀ a t, P a t → Q a t) : Gives indents p s Q := by
  unfold Gives at h ⊢
  cases hp : p s with
  | ok r =>
      rw [hp] at h
      exact hPQ _ _ h
  | error e =>
      rw [hp] at h
      exact h

theorem Gives.of_eq {p q : Reader α} {Q : α → Stream → Prop} (h : Gives indents q s Q)
    (heq : p s = q s) : Gives indents p s Q := by
  unfold Gives
  rwa [heq]

theorem Gives.of_eq_ok {p : Reader α} {Q : α → Stream → Prop} {a : α} {t : Stream}
    (h : Gives indents p s Q) (hp : p s = .ok (a, t)) : Q a t := by
  unfold Gives at h
  rwa [hp] at h

/-- Outside of blocks a reader does not fail. -/
theorem Gives.exists_ok {p : Reader α} {Q : α → Stream → Prop} (h : Gives indents p s Q)
    (hindents : indents.headD 0 = 0) : ∃ a t, p s = .ok (a, t) ∧ Q a t := by
  unfold Gives at h
  cases hp : p s with
  | ok r =>
      rw [hp] at h
      exact ⟨r.1, r.2, rfl, h⟩
  | error e =>
      rw [hp] at h
      exact absurd hindents h

theorem gives_pure {a : α} {Q : α → Stream → Prop} (h : Q a s) : Gives indents (pure a) s Q := h

theorem gives_get {Q : Stream → Stream → Prop} (h : Q s s) : Gives indents get s Q := h

theorem gives_peek {Q : Token → Stream → Prop} (h : Q s.token s) : Gives indents peek s Q := h

theorem gives_here {Q : Position → Stream → Prop} (h : Q s.start.pos s) : Gives indents here s Q := h

theorem gives_refuse {Q : α → Stream → Prop} (h : indents.headD 0 ≠ 0) : Gives indents refuse s Q := h

theorem gives_take {Q : Unit → Stream → Prop} (h : Q () (Stream.fetch w s.next)) :
    Gives indents (take w) s Q := h

theorem gives_atMark {m : Mark} {Q : Bool → Stream → Prop} (h : Q (s.token == .mark m) s) :
    Gives indents (atMark m) s Q := h

theorem gives_atWord {text : String} {Q : Bool → Stream → Prop} (h : Q (s.token == .word text) s) :
    Gives indents (atWord text) s Q := h

/-- A mark is taken if it is next. -/
theorem gives_mark? {m : Mark} {Q : Bool → Stream → Prop}
    (hyes : s.token = .mark m → Q true (Stream.fetch w s.next)) (hno : s.token ≠ .mark m → Q false s) :
    Gives indents (mark? m w) s Q := by
  refine Gives.bind (gives_atMark ?_)
  by_cases h : s.token = .mark m
  · rw [beq_iff_eq.2 h, if_pos rfl]
    exact Gives.bind (gives_take (gives_pure (hyes h)))
  · rw [beq_eq_false_iff_ne.2 h, if_neg Bool.false_ne_true]
    exact gives_pure (hno h)

theorem gives_mark {m : Mark} {Q : Unit → Stream → Prop}
    (hyes : s.token = .mark m → Q () (Stream.fetch w s.next))
    (hno : s.token ≠ .mark m → indents.headD 0 ≠ 0) : Gives indents (mark m w) s Q := by
  refine Gives.bind (gives_atMark ?_)
  by_cases h : s.token = .mark m
  · rw [beq_iff_eq.2 h, if_pos rfl]
    exact gives_take (hyes h)
  · rw [beq_eq_false_iff_ne.2 h, if_neg Bool.false_ne_true]
    exact gives_refuse (hno h)

theorem gives_keyword? {text : String} {Q : Bool → Stream → Prop}
    (hyes : s.token = .word text → Q true (Stream.fetch w s.next))
    (hno : s.token ≠ .word text → Q false s) : Gives indents (keyword? text w) s Q := by
  refine Gives.bind (gives_atWord ?_)
  by_cases h : s.token = .word text
  · rw [beq_iff_eq.2 h, if_pos rfl]
    exact Gives.bind (gives_take (gives_pure (hyes h)))
  · rw [beq_eq_false_iff_ne.2 h, if_neg Bool.false_ne_true]
    exact gives_pure (hno h)

theorem gives_keyword {text : String} {Q : Unit → Stream → Prop}
    (hyes : s.token = .word text → Q () (Stream.fetch w s.next))
    (hno : s.token ≠ .word text → indents.headD 0 ≠ 0) : Gives indents (keyword text w) s Q := by
  refine Gives.bind (gives_atWord ?_)
  by_cases h : s.token = .word text
  · rw [beq_iff_eq.2 h, if_pos rfl]
    exact gives_take (hyes h)
  · rw [beq_eq_false_iff_ne.2 h, if_neg Bool.false_ne_true]
    exact gives_refuse (hno h)

theorem gives_ident {Q : Cursor → Stream → Prop}
    (hyes : ∀ text, s.token = .word text → Q s.next (Stream.fetch w s.next))
    (hno : (∀ text, s.token ≠ .word text) → indents.headD 0 ≠ 0) : Gives indents (ident w) s Q := by
  refine Gives.bind (gives_peek ?_)
  split
  · next text h => exact Gives.bind (gives_get (Gives.bind (gives_take (gives_pure (hyes text h)))))
  · next h => exact gives_refuse (hno h)

section

variable {p q : Reader α} {Q : α → Stream → Prop} {m : Mark} {text : String}

theorem gives_ite_mark?_pos (h : s.token = .mark m) (hp : Gives indents p (Stream.fetch w s.next) Q) :
    Gives indents (do if ← mark? m w then p else q) s Q := by
  refine Gives.bind (gives_mark? (fun _ => ?_) fun hno => absurd h hno)
  rwa [if_pos rfl]

theorem gives_ite_mark?_neg (h : s.token ≠ .mark m) (hq : Gives indents q s Q) :
    Gives indents (do if ← mark? m w then p else q) s Q := by
  refine Gives.bind (gives_mark? (fun hyes => absurd hyes h) fun _ => ?_)
  rwa [if_neg Bool.false_ne_true]

theorem gives_ite_keyword?_pos (h : s.token = .word text)
    (hp : Gives indents p (Stream.fetch w s.next) Q) :
    Gives indents (do if ← keyword? text w then p else q) s Q := by
  refine Gives.bind (gives_keyword? (fun _ => ?_) fun hno => absurd h hno)
  rwa [if_pos rfl]

theorem gives_ite_keyword?_neg (h : s.token ≠ .word text) (hq : Gives indents q s Q) :
    Gives indents (do if ← keyword? text w then p else q) s Q := by
  refine Gives.bind (gives_keyword? (fun hyes => absurd hyes h) fun _ => ?_)
  rwa [if_neg Bool.false_ne_true]

end

/-- A loop gives a result if each round gives one or leaves fewer rounds, and if these are no more than
the characters. -/
theorem gives_loop {step : σ → Reader (σ ⊕ α)} {I : Nat → σ → Stream → Prop} {Q : α → Stream → Prop}
    (hstep : ∀ n x s, I n x s → Gives indents (step x) s fun r t =>
      (∃ m < n, ∃ y, r = .inl y ∧ I m y t) ∨ ∃ a, r = .inr a ∧ Q a t)
    {n : Nat} {x : σ} (h : I n x s) (hn : n < s.start.left + 2) : Gives indents (loop step x) s Q := by
  have hloop : ∀ fuel n x s, I n x s → n < fuel → Gives indents (loopWith step fuel x) s Q := by
    intro fuel
    induction fuel with
    | zero => omega
    | succ fuel ih =>
        intro n x s h hn
        refine Gives.bind ((hstep n x s h).mono fun r t hr => ?_)
        rcases hr with ⟨m, hm, y, rfl, hy⟩ | ⟨a, rfl, ha⟩
        · exact ih m y t hy (by omega)
        · exact gives_pure ha
  exact Gives.bind (gives_get (hloop _ n x s h hn))

end Reader

/-! ### Texts that follow -/

/-- A text that does not go on with the word before it. -/
def Apart (text : List Char) : Prop := text.head?.all (!isIdentContinue ·) = true

theorem apart_cons {ch : Char} (h : isIdentContinue ch = false) (text : List Char) :
    Apart (ch :: text) := by simp [Apart, h]

/-- The first character of a gap. -/
theorem Gap.exists_head {g : Gap} (hg : g ≠ []) (text : List Char) :
    ∃ ch rest, Gap.text g ++ text = ch :: rest ∧
      (Stream.isFiller ch = true ∨ ch = '\\' ∨ ch = '#') := by
  cases g with
  | nil => exact absurd rfl hg
  | cons f g =>
      cases f with
      | filler c hc => exact ⟨c, _, rfl, .inl hc⟩
      | join carriage => cases carriage <;> exact ⟨_, _, rfl, .inr (.inl rfl)⟩
      | comment body hbody => exact ⟨_, _, rfl, .inr (.inr rfl)⟩

theorem isIdentContinue_of_head {ch : Char} (h : Stream.isFiller ch = true ∨ ch = '\\' ∨ ch = '#') :
    isIdentContinue ch = false := by
  rcases h with h | rfl | rfl
  · exact isIdentContinue_of_isFiller h
  · decide
  · decide

theorem apart_gap {g : Gap} (hg : g ≠ []) (text : List Char) : Apart (Gap.text g ++ text) := by
  obtain ⟨ch, rest, hhead, hch⟩ := Gap.exists_head hg text
  simp [Apart, hhead, isIdentContinue_of_head hch]

theorem Apart.gap {text : List Char} (h : Apart text) (g : Gap) : Apart (Gap.text g ++ text) := by
  by_cases hg : g = []
  · rw [hg]
    exact h
  · exact apart_gap hg text

theorem Break.apart (b : Break) (text : List Char) : Apart (b.text ++ text) := apart_gap b.ne_nil text

theorem Word.exists_head (v : Word) (text : List Char) :
    ∃ ch rest, v.chars ++ text = ch :: rest ∧ isIdentStart ch = true := by
  obtain ⟨chars, hv⟩ := v
  cases chars with
  | nil => cases hv
  | cons ch cs => exact ⟨ch, _, rfl, (Bool.and_eq_true_iff.1 hv).1⟩

theorem begins_of_isIdentStart {ch : Char} (h : isIdentStart ch = true) (text : List Char) :
    Begins (ch :: text) := by
  refine ⟨ch, text, rfl, isFiller_of_isIdentStart h, ?_, ?_⟩
  · rintro rfl
    cases h
  · rintro rfl
    cases h

theorem Word.begins (v : Word) (text : List Char) : Begins (v.chars ++ text) := by
  obtain ⟨ch, rest, hhead, hch⟩ := v.exists_head text
  rw [hhead]
  exact begins_of_isIdentStart hch rest

/-! ### Marks -/

section

variable {indents : List Nat} {w : Want} {rest : List Char} {s : Stream}

/-- A text before which a dot is a mark of its own. -/
def DotFree (text : List Char) : Prop := text.head?.all (fun c => c != '.' && !c.isDigit) = true

theorem Word.dotFree (v : Word) (text : List Char) : DotFree (v.chars ++ text) := by
  obtain ⟨ch, rest, hhead, hch⟩ := v.exists_head text
  have hdot : ch ≠ '.' := by
    rintro rfl
    cases hch
  simp [DotFree, hhead, isDigit_of_isIdentStart hch, hdot]

theorem dotFree_gap {g : Gap} (hg : g ≠ []) (text : List Char) : DotFree (Gap.text g ++ text) := by
  obtain ⟨ch, rest, hhead, hch⟩ := Gap.exists_head hg text
  have hdot : ch ≠ '.' := by
    rintro rfl
    rcases hch with h | h | h <;> cases h
  have hdigit : ch.isDigit = false := by
    rw [← Bool.not_eq_true]
    intro hd
    have hcontinue := isIdentContinue_of_head hch
    rw [isIdentContinue_of_isDigit hd] at hcontinue
    cases hcontinue
  simp [DotFree, hhead, hdigit, hdot]

theorem DotFree.gap {text : List Char} (h : DotFree text) (g : Gap) : DotFree (Gap.text g ++ text) := by
  by_cases hg : g = []
  · rw [hg]
    exact h
  · exact dotFree_gap hg text

theorem numberLength_dot (h : DotFree rest) : numberLength ('.' :: rest) = 0 := by
  cases rest with
  | nil => rfl
  | cons c rest =>
      have hc : c.isDigit = false := by
        simp only [DotFree, List.head?_cons, Option.all_some, Bool.and_eq_true, Bool.not_eq_true'] at h
        exact h.2
      simp [numberLength, plainNumberLength, decimalLength, digitsLength, hc]

theorem read?_dot (h : ∀ text, rest ≠ '.' :: '.' :: text) :
    Mark.read? ('.' :: rest) = some (.dot, 1) := by
  rw [Mark.read?]
  exact h

theorem Ahead.dot (h : Ahead indents ('.' :: rest) s) (hrest : DotFree rest) :
    s.token = .mark .dot ∧ s.next.At indents rest := by
  refine Ahead.mark (a := ['.']) h (read?_dot ?_) rfl (numberLength_dot hrest)
  rintro text rfl
  cases hrest

theorem Ahead.dot_dot (h : Ahead indents ('.' :: '.' :: rest) s) (hrest : DotFree rest) :
    s.token = .mark .dot ∧ s.next.At indents ('.' :: rest) := by
  refine Ahead.mark (a := ['.']) h (read?_dot ?_) rfl rfl
  intro text heq
  rw [(List.cons.inj heq).2] at hrest
  cases hrest

theorem Ahead.ellipsis (h : Ahead indents ('.' :: '.' :: '.' :: rest) s) :
    s.token = .mark .ellipsis ∧ s.next.At indents rest :=
  Ahead.mark (a := ['.', '.', '.']) h rfl rfl rfl

theorem Ahead.comma (h : Ahead indents (',' :: rest) s) :
    s.token = .mark .comma ∧ s.next.At indents rest :=
  Ahead.mark (a := [',']) h rfl rfl rfl

theorem Ahead.openParen (h : Ahead indents ('(' :: rest) s) :
    s.token = .mark .openParen ∧ s.next.At indents rest :=
  Ahead.mark (a := ['(']) h rfl rfl rfl

theorem Ahead.closeParen (h : Ahead indents (')' :: rest) s) :
    s.token = .mark .closeParen ∧ s.next.At indents rest :=
  Ahead.mark (a := [')']) h rfl rfl rfl

theorem Ahead.star (h : Ahead indents ('*' :: rest) s) (hpower : rest.head? ≠ some '*')
    (hassign : rest.head? ≠ some '=') : s.token = .mark .star ∧ s.next.At indents rest := by
  refine Ahead.mark (a := ['*']) h ?_ rfl rfl
  change Mark.read? ('*' :: rest) = some (.star, 1)
  rw [Mark.read?]
  · rintro text rfl
    exact hpower rfl
  · rintro text rfl
    exact hpower rfl
  · rintro text rfl
    exact hassign rfl

theorem head?_of_read?_semicolon {text : List Char} {n : Nat}
    (h : Mark.read? text = some (.semicolon, n)) : text.head? = some ';' := by
  unfold Mark.read? at h
  split at h <;> cases h
  rfl

theorem Stream.token_plain_ne_newline (c : Cursor) : (Stream.plain c).token ≠ .newline := by
  unfold Stream.plain
  split
  · simp [Stream.ofLength]
  · split
    · simp [Stream.ofLength]
    · split
      · split <;> simp [Stream.ofLength]
      · simp [Stream.ofLength]

theorem Stream.exists_read?_of_token_plain {c : Cursor} {m : Mark}
    (h : (Stream.plain c).token = .mark m) : ∃ n, Mark.read? c.rest = some (m, n) := by
  unfold Stream.plain at h
  split at h
  · cases h
  · next hrest =>
      split at h
      · cases h
      · split at h
        · split at h
          · next m' n hread =>
              obtain rfl : m' = m := by simpa [Stream.ofLength] using h
              exact ⟨n, hread⟩
          · cases h
        · cases h

end

/-! ### Tokens behind what has been read -/

/-- What has been read is as it should be, and the token at a text is next, or a block has ended. -/
def Done (indents : List Nat) (w : Want) (text : List Char) (P : Prop) (s : Stream) : Prop :=
  (P ∧ ∃ c : Cursor, c.At indents text ∧ s = Stream.fetch w c) ∨ Doomed indents w s

/-- The token that a text goes on with. -/
def Then (indents : List Nat) (w : Want) (text : List Char) (P : Token → Prop) : Prop :=
  ∀ c : Cursor, c.At indents text → P (Stream.fetch w c).token

/-- A text before which a statement may end: the end of a line or a semicolon is next. -/
def EndsStatement (text : List Char) : Prop :=
  ∀ indents, Then indents importEnd text fun token => token = .newline ∨ token = .mark .semicolon

theorem inside_importEnd : importEnd.Inside := ⟨rfl, rfl, rfl, rfl⟩

theorem inside_default : ({} : Want).Inside := ⟨rfl, rfl, rfl, rfl⟩

theorem inside_close : ({ close := true } : Want).Inside := ⟨rfl, rfl, rfl, rfl⟩

theorem fits_of_newline {w : Want} (hw : w.newline = false) (g : Gap) : g.Fits w := by
  intro hn
  rw [hw] at hn
  cases hn

/-- A statement does not end before a word or a mark other than a semicolon. -/
theorem EndsStatement.eq_semicolon {ch : Char} {rest : List Char} (h : EndsStatement (ch :: rest))
    (hbegins : Begins (ch :: rest)) : ch = ';' := by
  let c : Cursor := ⟨ch :: rest, rest.length + 1, ⟨0, 0⟩, [], false⟩
  have hc : c.At [] (Gap.text [] ++ ch :: rest) := ⟨rfl, rfl, rfl⟩
  have htoken := h [] c hc
  have hfits : Gap.Fits [] importEnd := by simp [Gap.Fits]
  rcases Stream.passed inside_importEnd hfits hbegins hc with hahead | ⟨hdoomed, -⟩
  · rw [hahead.plain] at htoken
    rcases htoken with hnewline | hsemicolon
    · exact absurd hnewline (Stream.token_plain_ne_newline _)
    · obtain ⟨n, hread⟩ := Stream.exists_read?_of_token_plain hsemicolon
      rw [hahead.start.rest] at hread
      simpa using head?_of_read?_semicolon hread
  · cases hdoomed.newline

end ImportAtlas.Python
