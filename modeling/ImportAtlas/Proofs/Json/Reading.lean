import ImportAtlas.Json.Reader

/-!
# What readers read

A reader reads a value from an input if it succeeds with that value. For each reader one lemma says
what it reads, in terms of the readers that it is made of; all later proofs use these lemmas and do not
look into the readers.

Main definitions:

* `ImportAtlas.Json.Reader.Reads` — a reader makes a value of the beginning of an input;
* `ImportAtlas.Json.Input.past`, `ImportAtlas.Json.Input.trimmed` — an input after some characters, and
  after its blanks;
* `ImportAtlas.Json.Begins` — where the next item of an array or member of an object begins;
* `ImportAtlas.Json.ValueAt` — the values that stand at the beginning of an input.

Main results:

* `ImportAtlas.Json.reads_readItems_succ`, `ImportAtlas.Json.reads_readMembers_succ` — **what can come
  next in an array or an object**;
* `ImportAtlas.Json.reads_readValue_succ` — **what a value can be**;
* `ImportAtlas.Json.readItems_simulation`, `ImportAtlas.Json.readMembers_simulation` — readers for the
  pieces that go along with each other make readers for the whole that do.
-/

set_option autoImplicit false

namespace ImportAtlas.Json

variable {α β σ τ : Type}

/-- A reader makes a value of the beginning of an input, and leaves the rest. -/
def Reader.Reads (r : Reader α) (i : Input) (a : α) (j : Input) : Prop := r i = .ok (a, j)

/-- An input after some characters of one byte each. -/
def Input.past (i : Input) (count : Nat) : Input := ⟨i.rest.drop count, i.offset + count⟩

/-- An input after the blanks at its beginning. -/
def Input.trimmed (i : Input) : Input := i.past (i.rest.takeWhile isBlank).length

theorem Input.rest_trimmed (i : Input) : i.trimmed.rest = i.rest.dropWhile isBlank := by
  have hsplit := List.takeWhile_append_dropWhile (p := isBlank) (l := i.rest)
  calc i.rest.drop (i.rest.takeWhile isBlank).length
      = (i.rest.takeWhile isBlank ++ i.rest.dropWhile isBlank).drop
          (i.rest.takeWhile isBlank).length := by rw [hsplit]
    _ = i.rest.dropWhile isBlank := List.drop_left

theorem Input.rest_past_one {i : Input} {c : Char} (h : i.rest.head? = some c) :
    i.rest = c :: (i.past 1).rest := by
  obtain ⟨rest, hrest⟩ := List.head?_eq_some_iff.1 h
  simp [past, hrest]

/-! ### Composed readers -/

section

variable {i j k : Input} {a b : α}

/-- A reader reads one value at most. -/
theorem Reader.Reads.unique {r : Reader α} (h : r.Reads i a j) (h' : r.Reads i b k) :
    a = b ∧ j = k := by
  have heq : (Except.ok (a, j) : Except Fault (α × Input)) = .ok (b, k) := h.symm.trans h'
  simpa using heq

theorem reads_pure : (pure a : Reader α).Reads i b j ↔ a = b ∧ i = j := by
  show Except.ok (a, i) = Except.ok (b, j) ↔ _
  simp

theorem reads_bind {x : Reader β} {f : β → Reader α} :
    Reader.Reads (x >>= f) i a k ↔ ∃ b j, x.Reads i b j ∧ (f b).Reads j a k := by
  show (x i >>= fun p => f p.1 p.2) = _ ↔ _
  unfold Reader.Reads
  cases h : x i with
  | error e => simp [bind, Except.bind]
  | ok p =>
      constructor
      · intro hf
        exact ⟨p.1, p.2, rfl, hf⟩
      · rintro ⟨b, j, hb, hf⟩
        cases hb
        exact hf

theorem not_reads_throw {fault : Fault} : ¬(throw fault : Reader α).Reads i a j := nofun

theorem not_reads_failHere {cause : Cause} : ¬(failHere cause : Reader α).Reads i a j := nofun

theorem not_reads_failNext {cause : Cause} : ¬(failNext cause : Reader α).Reads i a j := nofun

theorem not_reads_failNext_bind {cause : Cause} {f : β → Reader α} :
    ¬Reader.Reads (failNext cause >>= f) i a j := nofun

theorem reads_peek {c : Option Char} : peek.Reads i c j ↔ i.rest.head? = c ∧ i = j := by
  show Except.ok (i.rest.head?, i) = Except.ok (c, j) ↔ _
  simp

theorem reads_skip {count : Nat} {u : Unit} : (skip count).Reads i u j ↔ i.past count = j := by
  show Except.ok ((), i.past count) = Except.ok (u, j) ↔ _
  simp

theorem reads_advance {c : Char} {rest : List Char} {u : Unit} (h : i.rest = c :: rest) :
    advance.Reads i u j ↔ (⟨rest, i.offset + c.utf8Size⟩ : Input) = j := by
  have hrun : advance i = .ok ((), ⟨rest, i.offset + c.utf8Size⟩) := by
    obtain ⟨text, offset⟩ := i
    obtain rfl : text = c :: rest := h
    rfl
  rw [Reader.Reads, hrun]
  simp

theorem reads_skipBlanks {u : Unit} : skipBlanks.Reads i u j ↔ i.trimmed = j := by
  show Except.ok ((), i.trimmed) = Except.ok (u, j) ↔ _
  simp

theorem reads_withFuel {r : Nat → Reader α} :
    (withFuel r).Reads i a j ↔ (r (i.rest.length + 1)).Reads i a j := Iff.rfl

/-! A reader that cannot fail is gone past at once. -/

theorem reads_get_bind {f : Input → Reader α} :
    Reader.Reads (get >>= f) i a k ↔ (f i).Reads i a k := Iff.rfl

theorem reads_peek_bind {f : Option Char → Reader α} :
    Reader.Reads (peek >>= f) i a k ↔ (f i.rest.head?).Reads i a k := Iff.rfl

theorem reads_skip_bind {count : Nat} {f : Unit → Reader α} :
    Reader.Reads (skip count >>= f) i a k ↔ (f ()).Reads (i.past count) a k := Iff.rfl

theorem reads_skipBlanks_bind {f : Unit → Reader α} :
    Reader.Reads (skipBlanks >>= f) i a k ↔ (f ()).Reads i.trimmed a k := Iff.rfl

theorem reads_bind_pure {x : Reader β} {g : β → α} :
    Reader.Reads (x >>= fun b => pure (g b)) i a k ↔ ∃ b, x.Reads i b k ∧ g b = a := by
  simp only [reads_bind, reads_pure]
  constructor
  · rintro ⟨b, _, hb, ha, rfl⟩
    exact ⟨b, hb, ha⟩
  · rintro ⟨b, hb, ha⟩
    exact ⟨b, k, hb, ha, rfl⟩

end

/-- A document is read if nothing but blanks follows. -/
theorem reads_bind_peek {r : Reader β} {f : β → Option Char → Reader α} {i k : Input} {a : α} :
    Reader.Reads (do
        let b ← r
        skipBlanks
        f b (← peek)) i a k ↔
      ∃ b j, r.Reads i b j ∧ (f b j.trimmed.rest.head?).Reads j.trimmed a k := by
  simp only [reads_bind (x := r), reads_skipBlanks_bind, reads_peek_bind]

theorem parseWith_eq_ok_iff {r : Reader α} {text : String} {a : α} :
    parseWith r text = .ok a ↔ ∃ j, r.Reads ⟨text.toList, 0⟩ a j ∧ j.trimmed.rest = [] := by
  rw [parseWith]
  split
  · next b k hrun =>
      obtain ⟨b', j, hr, hlast⟩ := reads_bind_peek.1 hrun
      cases hend : j.trimmed.rest.head? with
      | some c =>
          rw [hend] at hlast
          exact absurd hlast not_reads_failNext
      | none =>
          rw [hend] at hlast
          obtain ⟨rfl, -⟩ := reads_pure.1 hlast
          constructor
          · intro h
            cases h
            exact ⟨j, hr, List.head?_eq_none_iff.1 hend⟩
          · rintro ⟨j', hr', -⟩
            rw [(hr.unique hr').1]
  · next fault hrun =>
      constructor
      · intro h
        cases h
      · rintro ⟨j, hr, hend⟩
        cases hrun.symm.trans (reads_bind_peek.2 ⟨a, j, hr, by rw [hend]; exact reads_pure.2 ⟨rfl, rfl⟩⟩)

/-! ### Words and colons -/

theorem rest_of_readWord {word : List Char} {i j : Input} {u : Unit}
    (h : (readWord word).Reads i u j) : i.rest = word ++ j.rest := by
  induction word generalizing i with
  | nil =>
      obtain ⟨-, rfl⟩ := reads_pure.1 h
      rfl
  | cons c word ih =>
      rw [readWord, reads_peek_bind] at h
      split at h
      · exact absurd h not_reads_failNext
      · next d hd =>
          split at h
          · next hdc =>
              subst hdc
              rw [Input.rest_past_one hd, ih (reads_skip_bind.1 h), List.cons_append]
          · exact absurd h not_reads_failNext

theorem reads_readColon {i j : Input} {u : Unit} :
    readColon.Reads i u j ↔ i.trimmed.rest.head? = some ':' ∧ i.trimmed.past 1 = j := by
  rw [readColon, reads_skipBlanks_bind, reads_peek_bind]
  constructor
  · intro h
    split at h
    · exact absurd h not_reads_failNext
    · next hc => exact ⟨hc, reads_skip.1 h⟩
    · exact absurd h not_reads_failNext
  · rintro ⟨hc, rfl⟩
    rw [hc]
    exact reads_skip.2 rfl

/-- A value that is made of what is read behind a colon. -/
theorem reads_readColon_bind_pure {x : Reader β} {g : β → α} {i k : Input} {a : α} :
    Reader.Reads (do
        readColon
        return g (← x)) i a k ↔
      ∃ j b, readColon.Reads i () j ∧ x.Reads j b k ∧ g b = a := by
  simp only [reads_bind (x := readColon), reads_bind_pure]
  constructor
  · rintro ⟨_, j, hcolon, b, hb, ha⟩
    exact ⟨j, b, hcolon, hb, ha⟩
  · rintro ⟨j, b, hcolon, hb, ha⟩
    exact ⟨(), j, hcolon, b, hb, ha⟩

/-! ### Arrays and objects -/

/-- Where the next piece between brackets begins, if blanks come first: the first piece begins there,
and another one behind a comma and more blanks. It does not begin with the closing bracket. -/
def Begins (closing : Char) (first : Bool) (i j : Input) : Prop :=
  (first = true ∧ i.trimmed = j ∨
      first = false ∧ i.trimmed.rest.head? = some ',' ∧ (i.trimmed.past 1).trimmed = j) ∧
    ∃ c, j.rest.head? = some c ∧ c ≠ closing

/-- An item, and the items behind it. -/
theorem reads_item {item : Reader α} {others : Reader (List α)} {i k : Input} {items : List α} :
    Reader.Reads (do
        let a ← item
        return a :: (← others)) i items k ↔
      ∃ a n rest, item.Reads i a n ∧ others.Reads n rest k ∧ items = a :: rest := by
  simp only [reads_bind (x := item), reads_bind_pure]
  constructor
  · rintro ⟨a, n, ha, rest, hrest, rfl⟩
    exact ⟨a, n, rest, ha, hrest, rfl⟩
  · rintro ⟨a, n, rest, ha, hrest, rfl⟩
    exact ⟨a, n, ha, rest, hrest, rfl⟩

/-- What can come next in an array: its end, or one more item. -/
theorem reads_readItems_succ {item : Reader α} {fuel : Nat} {first : Bool} {i k : Input}
    {items : List α} :
    (readItems item (fuel + 1) first).Reads i items k ↔
      (i.trimmed.rest.head? = some ']' ∧ items = [] ∧ i.trimmed.past 1 = k) ∨
      ∃ j a n rest, Begins ']' first i j ∧ item.Reads j a n ∧
        (readItems item fuel false).Reads n rest k ∧ items = a :: rest := by
  rw [readItems, reads_skipBlanks_bind, reads_peek_bind]
  constructor
  · intro h
    split at h
    · exact absurd h not_reads_failNext
    · next hc =>
        rw [reads_skip_bind, reads_pure] at h
        obtain ⟨rfl, rfl⟩ := h
        exact .inl ⟨hc, rfl, rfl⟩
    · next c hclosing hc =>
        cases first with
        | true =>
            obtain ⟨a, n, rest, h⟩ := reads_item.1 h
            exact .inr ⟨_, a, n, rest, ⟨.inl ⟨rfl, rfl⟩, c, hc, hclosing⟩, h⟩
        | false =>
            simp only [Bool.not_false, if_true] at h
            split at h
            · next hcomma =>
                subst hcomma
                rw [reads_skip_bind, reads_skipBlanks_bind, reads_peek_bind] at h
                split at h
                · exact absurd h not_reads_failNext_bind
                · exact absurd h not_reads_failNext_bind
                · next d hend hd =>
                    obtain ⟨a, n, rest, h⟩ := reads_item.1 h
                    exact .inr ⟨_, a, n, rest, ⟨.inr ⟨rfl, hc, rfl⟩, d, hd, hend⟩, h⟩
            · exact absurd h not_reads_failNext_bind
  · rintro (⟨hc, rfl, rfl⟩ | ⟨j, a, n, rest, ⟨hstart, c, hc, hne⟩, h⟩)
    · rw [hc]
      exact reads_skip_bind.2 (reads_pure.2 ⟨rfl, rfl⟩)
    · have hgo := reads_item.2 ⟨a, n, rest, h⟩
      rcases hstart with ⟨rfl, rfl⟩ | ⟨rfl, hcomma, rfl⟩
      · rw [hc]
        split
        · next hnone => cases hnone
        · next hclosing => exact absurd (Option.some.inj hclosing) hne
        · exact hgo
      · rw [hcomma]
        refine reads_skip_bind.2 (reads_skipBlanks_bind.2 (reads_peek_bind.2 ?_))
        rw [hc]
        split
        · next hnone => cases hnone
        · next hclosing => exact absurd (Option.some.inj hclosing) hne
        · exact hgo

/-- A key behind its quote, what `member` makes of it, and the members behind it. -/
theorem reads_member {member : String → Reader σ} {others : σ → Reader τ} {i k : Input} {result : τ} :
    Reader.Reads (do
        skip 1
        let key ← readString
        others (← member key)) i result k ↔
      ∃ key m next n, readString.Reads (i.past 1) key m ∧ (member key).Reads m next n ∧
        (others next).Reads n result k := by
  rw [reads_skip_bind]
  simp only [reads_bind]
  constructor
  · rintro ⟨key, m, hkey, next, n, hmember, hrest⟩
    exact ⟨key, m, next, n, hkey, hmember, hrest⟩
  · rintro ⟨key, m, next, n, hkey, hmember, hrest⟩
    exact ⟨key, m, hkey, next, n, hmember, hrest⟩

/-- What can come next in an object: its end, or a key and what `member` makes of it. -/
theorem reads_readMembers_succ {member : σ → String → Reader σ} {fuel : Nat} {first : Bool}
    {i k : Input} {state result : σ} :
    (readMembers member (fuel + 1) first state).Reads i result k ↔
      (i.trimmed.rest.head? = some '\x7d' ∧ state = result ∧ i.trimmed.past 1 = k) ∨
      ∃ j key m next n, Begins '\x7d' first i j ∧ j.rest.head? = some '\x22' ∧
        readString.Reads (j.past 1) key m ∧ (member state key).Reads m next n ∧
        (readMembers member fuel false next).Reads n result k := by
  have hquote : '\x22' ≠ '\x7d' := by decide
  rw [readMembers, reads_skipBlanks_bind, reads_peek_bind]
  constructor
  · intro h
    split at h
    · exact absurd h not_reads_failNext
    · next hc =>
        rw [reads_skip_bind, reads_pure] at h
        obtain ⟨rfl, rfl⟩ := h
        exact .inl ⟨hc, rfl, rfl⟩
    · next hc =>
        cases first with
        | true =>
            simp only [if_true] at h
            split at h
            · exact absurd h not_reads_failNext_bind
            · next hne =>
                rw [ne_eq, Decidable.not_not] at hne
                subst hne
                obtain ⟨key, m, next, n, h⟩ := reads_member.1 h
                exact .inr ⟨_, key, m, next, n, ⟨.inl ⟨rfl, rfl⟩, _, hc, hquote⟩, hc, h⟩
        | false =>
            simp only [Bool.false_eq_true, if_false] at h
            split at h
            · next hcomma =>
                subst hcomma
                rw [reads_skip_bind, reads_skipBlanks_bind, reads_peek_bind] at h
                split at h
                · exact absurd h not_reads_failNext_bind
                · next hd =>
                    obtain ⟨key, m, next, n, h⟩ := reads_member.1 h
                    exact .inr ⟨_, key, m, next, n, ⟨.inr ⟨rfl, hc, rfl⟩, _, hd, hquote⟩, hd, h⟩
                · exact absurd h not_reads_failNext_bind
                · exact absurd h not_reads_failNext_bind
            · exact absurd h not_reads_failNext_bind
  · rintro (⟨hc, rfl, rfl⟩ | ⟨j, key, m, next, n, ⟨hstart, -⟩, hc, h⟩)
    · rw [hc]
      exact reads_skip_bind.2 (reads_pure.2 ⟨rfl, rfl⟩)
    · have hgo := reads_member.2 ⟨key, m, next, n, h⟩
      rcases hstart with ⟨rfl, rfl⟩ | ⟨rfl, hcomma, rfl⟩
      · rw [hc]
        exact hgo
      · rw [hcomma]
        refine reads_skip_bind.2 (reads_skipBlanks_bind.2 (reads_peek_bind.2 ?_))
        rw [hc]
        exact hgo

/-- Readers for items that go along with each other make readers for arrays that do. -/
theorem readItems_simulation {item : Reader α} {item' : Reader β} {f : α → β}
    (hitem : ∀ {i a j}, item.Reads i a j → item'.Reads i (f a) j) {fuel : Nat} {first : Bool}
    {i j : Input} {items : List α} (h : (readItems item fuel first).Reads i items j) :
    (readItems item' fuel first).Reads i (items.map f) j := by
  induction fuel generalizing first i items with
  | zero => exact absurd h not_reads_failNext
  | succ fuel ih =>
      rcases reads_readItems_succ.1 h with ⟨hend, rfl, hj⟩ | ⟨k, a, n, rest, hbegins, ha, hrest, rfl⟩
      · exact reads_readItems_succ.2 (.inl ⟨hend, rfl, hj⟩)
      · exact reads_readItems_succ.2 (.inr ⟨k, f a, n, _, hbegins, hitem ha, ih hrest, rfl⟩)

/-- Readers for members that go along with each other make readers for objects that do. -/
theorem readMembers_simulation {member : σ → String → Reader σ} {member' : τ → String → Reader τ}
    {R : σ → τ → Prop}
    (hmember : ∀ s t key i s' j, R s t → (member s key).Reads i s' j →
      ∃ t', R s' t' ∧ (member' t key).Reads i t' j)
    {fuel : Nat} {first : Bool} {i j : Input} {s s' : σ} {t : τ} (hst : R s t)
    (h : (readMembers member fuel first s).Reads i s' j) :
    ∃ t', R s' t' ∧ (readMembers member' fuel first t).Reads i t' j := by
  induction fuel generalizing first i s t with
  | zero => exact absurd h not_reads_failNext
  | succ fuel ih =>
      rcases reads_readMembers_succ.1 h with
        ⟨hend, rfl, hj⟩ | ⟨k, key, m, next, n, hbegins, hquote, hkey, hnext, hrest⟩
      · exact ⟨t, hst, reads_readMembers_succ.2 (.inl ⟨hend, rfl, hj⟩)⟩
      · obtain ⟨t₁, ht₁, hnext'⟩ := hmember _ _ _ _ _ _ hst hnext
        obtain ⟨t', ht', hrest'⟩ := ih ht₁ hrest
        exact ⟨t', ht', reads_readMembers_succ.2
          (.inr ⟨k, key, m, t₁, n, hbegins, hquote, hkey, hnext', hrest'⟩)⟩

/-! ### Values -/

/-- The words of documents, behind their first letters, and the values that they stand for. -/
def words : List (Char × List Char × Json) :=
  [('n', ['u', 'l', 'l'], .null), ('t', ['r', 'u', 'e'], .bool true),
    ('f', ['a', 'l', 's', 'e'], .bool false)]

/-- Reads a member of an object into the members before it. -/
def readField (depth : Nat) (fields : Fields) (key : String) : Reader Fields := do
  readColon
  return fields.insert key (← readValue depth)

/-- The values that stand at the beginning of an input, and what is left behind them; `depth` bounds
how deep arrays and objects are. -/
inductive ValueAt (depth : Nat) (i : Input) : Json → Input → Prop where
  | word {c : Char} {word : List Char} {value : Json} {j : Input} (hmem : (c, word, value) ∈ words)
      (hc : i.rest.head? = some c) (hword : (readWord word).Reads (i.past 1) () j) :
      ValueAt depth i value j
  | negative {n : Number} {j : Input} (hc : i.rest.head? = some '-')
      (hn : (readNumber true).Reads (i.past 1) n j) : ValueAt depth i (.number n) j
  | number {c : Char} {n : Number} {j : Input} (hc : i.rest.head? = some c) (hdigit : c.isDigit = true)
      (hn : (readNumber false).Reads i n j) : ValueAt depth i (.number n) j
  | string {s : String} {j : Input} (hc : i.rest.head? = some '\x22')
      (hs : readString.Reads (i.past 1) s j) : ValueAt depth i (.string s) j
  | array {items : List Json} {j : Input} (hdepth : depth ≠ 0) (hc : i.rest.head? = some '[')
      (hitems : (withFuel fun fuel => readItems (readValue depth) fuel true).Reads (i.past 1) items j) :
      ValueAt depth i (.array items) j
  | object {fields : Fields} {j : Input} (hdepth : depth ≠ 0) (hc : i.rest.head? = some '\x7b')
      (hfields : (withFuel fun fuel => readMembers (readField depth) fuel true []).Reads
        (i.past 1) fields j) : ValueAt depth i (.object fields) j

/-- A value that is made of what is read behind a character. -/
theorem reads_skip_bind_pure {x : Reader β} {g : β → α} {i k : Input} {a : α} :
    Reader.Reads (do
        skip 1
        return g (← x)) i a k ↔ ∃ b, x.Reads (i.past 1) b k ∧ g b = a :=
  reads_skip_bind.trans reads_bind_pure

/-- What a value can be, behind the blanks before it. -/
theorem reads_readValue_succ {depth : Nat} {i j : Input} {v : Json} :
    (readValue (depth + 1)).Reads i v j ↔ ValueAt depth i.trimmed v j := by
  rw [readValue, reads_skipBlanks_bind, reads_peek_bind]
  constructor
  · intro h
    split at h
    · exact absurd h not_reads_failNext
    iterate 3
      next hc =>
        obtain ⟨_, hword, rfl⟩ := reads_skip_bind_pure.1 h
        exact .word (by simp [words]) hc hword
    · next hc =>
        obtain ⟨n, hn, rfl⟩ := reads_skip_bind_pure.1 h
        exact .negative hc hn
    · next hc =>
        obtain ⟨s, hs, rfl⟩ := reads_skip_bind_pure.1 h
        exact .string hc hs
    · next hc =>
        split at h
        · exact absurd h not_reads_failNext
        · next hdepth =>
            obtain ⟨items, hitems, rfl⟩ := reads_skip_bind_pure.1 h
            exact .array hdepth hc hitems
    · next hc =>
        split at h
        · exact absurd h not_reads_failNext
        · next hdepth =>
            obtain ⟨fields, hfields, rfl⟩ := reads_skip_bind_pure.1 h
            exact .object hdepth hc hfields
    · next hc =>
        split at h
        · next hdigit =>
            obtain ⟨n, hn, rfl⟩ := reads_bind_pure.1 h
            exact .number hc hdigit hn
        · exact absurd h not_reads_failNext
  · intro h
    cases h with
    | word hmem hc hword =>
        rw [hc]
        simp only [words, List.mem_cons, List.not_mem_nil, or_false, Prod.mk.injEq] at hmem
        rcases hmem with ⟨rfl, rfl, rfl⟩ | ⟨rfl, rfl, rfl⟩ | ⟨rfl, rfl, rfl⟩ <;>
          exact reads_skip_bind_pure.2 ⟨(), hword, rfl⟩
    | negative hc hn =>
        rw [hc]
        exact reads_skip_bind_pure.2 ⟨_, hn, rfl⟩
    | string hc hs =>
        rw [hc]
        exact reads_skip_bind_pure.2 ⟨_, hs, rfl⟩
    | array hdepth hc hitems =>
        simp only [hc, hdepth, if_false]
        exact reads_skip_bind_pure.2 ⟨_, hitems, rfl⟩
    | object hdepth hc hfields =>
        simp only [hc, hdepth, if_false]
        exact reads_skip_bind_pure.2 ⟨_, hfields, rfl⟩
    | @number c n j hc hdigit hn =>
        rw [hc]
        have hne : ∀ d : Char, d.isDigit = false → some c ≠ some d := by
          rintro d hd ⟨⟩
          rw [hdigit] at hd
          cases hd
        split
        · next hnone => cases hnone
        iterate 7 (next heq => exact absurd heq (hne _ rfl))
        · next heq =>
            cases heq
            rw [if_pos hdigit]
            exact reads_bind_pure.2 ⟨n, hn, rfl⟩

/-! ### Values of a given type -/

theorem not_reads_failType {expected : String} {i j : Input} {a : α} :
    ¬(failType expected : Reader α).Reads i a j := by
  intro h
  simp only [failType, reads_peek_bind] at h
  split at h
  case h_8 => split at h <;> simp [reads_bind, not_reads_failHere, not_reads_failNext] at h
  all_goals simp [reads_bind, not_reads_failHere, not_reads_failNext] at h

theorem reads_readTyped {start : Char} {expected : String} {r : Reader α} {i j : Input} {a : α} :
    (readTyped start expected r).Reads i a j ↔
      i.trimmed.rest.head? = some start ∧ r.Reads (i.trimmed.past 1) a j := by
  rw [readTyped, reads_skipBlanks_bind, reads_peek_bind]
  constructor
  · intro h
    split at h
    · exact absurd h not_reads_failNext
    · next c hc =>
        split at h
        · next hstart =>
            subst hstart
            exact ⟨hc, h⟩
        · exact absurd h not_reads_failType
  · rintro ⟨hc, h⟩
    rw [hc]
    dsimp only
    rw [if_pos rfl]
    exact reads_skip_bind.2 h

end ImportAtlas.Json
