import ImportAtlas.Json.Writer
import ImportAtlas.Proofs.Json.Values

/-!
# Written documents are read back

A written value is read back as the same value, whatever follows it, if its numbers are integers and its
members are in order. Floating point numbers are left out: they are rounded when they are read.

Main definitions:

* `ImportAtlas.Json.Reader.Yields` — a reader makes a value of the beginning of a text, wherever in a
  document the text stands;
* `ImportAtlas.Json.Reader.Recovers` — a reader makes a value of a text whatever follows;
* `ImportAtlas.Json.Takes` — a reader for members goes from one state to another along written members.

Main results:

* `ImportAtlas.Json.yields_readString` — strings with all their escapes;
* `ImportAtlas.Json.yields_readItems`, `ImportAtlas.Json.yields_readMembers` — arrays and objects, for any
  reader of their pieces;
* `ImportAtlas.Json.recovers_readValue` — **every well-formed value is read back**;
* `ImportAtlas.Json.parseWith_write_object` — a written object as a document of its own.
-/

set_option autoImplicit false

namespace ImportAtlas.Json

variable {α β σ : Type}

/-- A reader makes a value of the beginning of a text, and leaves the rest. -/
def Reader.Yields (r : Reader α) (text : List Char) (a : α) (rest : List Char) : Prop :=
  ∀ offset, ∃ offset', r.Reads ⟨text, offset⟩ a ⟨rest, offset'⟩

theorem yields_pure (a : α) (text : List Char) : (pure a : Reader α).Yields text a text :=
  fun offset => ⟨offset, reads_pure.2 ⟨rfl, rfl⟩⟩

theorem Reader.Yields.bind {x : Reader β} {f : β → Reader α} {text mid rest : List Char} {a : α} {b : β}
    (hx : x.Yields text b mid) (hf : (f b).Yields mid a rest) : Reader.Yields (x >>= f) text a rest := by
  intro offset
  obtain ⟨offset₁, hx⟩ := hx offset
  obtain ⟨offset₂, hf⟩ := hf offset₁
  exact ⟨offset₂, reads_bind.2 ⟨b, _, hx, hf⟩⟩

theorem yields_peek (text : List Char) : peek.Yields text text.head? text :=
  fun offset => ⟨offset, reads_peek.2 ⟨rfl, rfl⟩⟩

theorem yields_skip_one (c : Char) (rest : List Char) : (skip 1).Yields (c :: rest) () rest :=
  fun offset => ⟨offset + 1, reads_skip.2 rfl⟩

theorem yields_advance (c : Char) (rest : List Char) : advance.Yields (c :: rest) () rest :=
  fun offset => ⟨offset + c.utf8Size, (reads_advance rfl).2 rfl⟩

theorem trimmed_eq_self {text : List Char} (h : ∀ c ∈ text.head?, isBlank c = false) (offset : Nat) :
    (⟨text, offset⟩ : Input).trimmed = ⟨text, offset⟩ := by
  cases text with
  | nil => rfl
  | cons c text => simp [Input.trimmed, Input.past, h c rfl]

theorem trimmed_trimmed (i : Input) : i.trimmed.trimmed = i.trimmed := by
  have hrest : ∀ c ∈ i.trimmed.rest.head?, isBlank c = false := by
    intro c hc
    have hhead := List.head?_dropWhile_not isBlank i.rest
    rw [← Input.rest_trimmed, Option.mem_def.1 hc] at hhead
    exact hhead
  exact trimmed_eq_self hrest i.trimmed.offset

theorem yields_skipBlanks {text : List Char} (h : ∀ c ∈ text.head?, isBlank c = false) :
    skipBlanks.Yields text () text :=
  fun offset => ⟨offset, reads_skipBlanks.2 (trimmed_eq_self h offset)⟩

theorem isBlank_of_mem_newLine {level : Nat} {c : Char} (h : c ∈ newLine level) : isBlank c = true := by
  rcases List.mem_cons.1 h with rfl | h
  · rfl
  · rw [List.eq_of_mem_replicate h]
    rfl

/-- The beginning of a line is passed over before a text that starts with no blank. -/
theorem exists_trimmed_newLine (level : Nat) {text : List Char} {c : Char} (hc : text.head? = some c)
    (hblank : isBlank c = false) (offset : Nat) :
    ∃ offset', (⟨newLine level ++ text, offset⟩ : Input).trimmed = ⟨text, offset'⟩ := by
  have hrest : (⟨newLine level ++ text, offset⟩ : Input).trimmed.rest = text := by
    obtain ⟨tail, rfl⟩ := List.head?_eq_some_iff.1 hc
    rw [Input.rest_trimmed, List.dropWhile_append_of_pos fun _ => isBlank_of_mem_newLine,
      List.dropWhile_cons_of_neg (by simp [hblank])]
  generalize (⟨newLine level ++ text, offset⟩ : Input).trimmed = i at hrest
  subst hrest
  exact ⟨i.offset, rfl⟩

/-- A reader that starts with passing over blanks may stand before one more. -/
theorem Reader.Yields.blank {f : Unit → Reader α} {text rest : List Char} {a : α}
    (h : Reader.Yields (skipBlanks >>= f) text a rest) :
    Reader.Yields (skipBlanks >>= f) (' ' :: text) a rest := by
  intro offset
  obtain ⟨offset', h⟩ := h (offset + 1)
  have htrimmed : (⟨' ' :: text, offset⟩ : Input).trimmed = (⟨text, offset + 1⟩ : Input).trimmed := by
    simp [Input.trimmed, Input.past, isBlank, Nat.add_assoc, Nat.add_comm 1]
  refine ⟨offset', ?_⟩
  rw [reads_skipBlanks_bind, htrimmed]
  exact reads_skipBlanks_bind.1 h

/-! ### Strings -/

/-- The three ways to write a character. -/
theorem writeChar_cases (c : Char) :
    (∃ d, d ≠ 'u' ∧ escaped? d = some c ∧ writeChar c = ['\\', d]) ∨
      (c.toNat < 32 ∧
        writeChar c = ['\\', 'u', '0', '0', hexDigit (c.toNat / 16), hexDigit (c.toNat % 16)]) ∨
      (c ≠ '\x22' ∧ c ≠ '\\' ∧ ¬c.toNat < 32 ∧ writeChar c = [c]) := by
  unfold writeChar
  split
  · next h => exact .inl ⟨c, by rcases h with rfl | rfl <;> decide⟩
  · next h =>
      split
      · next h => exact .inl ⟨'b', by subst h; decide⟩
      split
      · next h => exact .inl ⟨'f', by subst h; decide⟩
      split
      · next h => exact .inl ⟨'n', by subst h; decide⟩
      split
      · next h => exact .inl ⟨'r', by subst h; decide⟩
      split
      · next h => exact .inl ⟨'t', by subst h; decide⟩
      split
      · next hcontrol => exact .inr (.inl ⟨hcontrol, rfl⟩)
      · next hcontrol => exact .inr (.inr ⟨fun hc => h (.inl hc), fun hc => h (.inr hc), hcontrol, rfl⟩)

theorem one_le_length_writeChar (c : Char) : 1 ≤ (writeChar c).length := by
  rcases writeChar_cases c with ⟨d, -, -, h⟩ | ⟨-, h⟩ | ⟨-, -, -, h⟩ <;> simp [h]

theorem yields_readUnicode {n : Nat} (hn : n < 32) (rest : List Char) :
    readUnicode.Yields ('0' :: '0' :: hexDigit (n / 16) :: hexDigit (n % 16) :: rest) (Char.ofNat n)
      rest := by
  have hdigits : ∀ n < 32, hexNumber? ['0', '0', hexDigit (n / 16), hexDigit (n % 16)] = some n ∧
      ¬byteCount ['0', '0', hexDigit (n / 16), hexDigit (n % 16)] < 4 := by decide
  obtain ⟨hnumber, hbytes⟩ := hdigits n hn
  have hunit : readUnit.Yields ('0' :: '0' :: hexDigit (n / 16) :: hexDigit (n % 16) :: rest) n rest := by
    intro offset
    refine ⟨offset + 4, reads_get_bind.2 ?_⟩
    dsimp only [List.take]
    rw [if_neg hbytes, hnumber]
    exact reads_skip_bind.2 (reads_pure.2 ⟨rfl, rfl⟩)
  refine hunit.bind ?_
  rw [if_neg (by omega), if_pos (by omega)]
  exact yields_pure _ _

/-- A character that is written with an escape is read from what follows the backslash. -/
theorem yields_readEscape {c d : Char} (hd : d ≠ 'u') (hc : escaped? d = some c) (rest : List Char) :
    readEscape.Yields (d :: rest) c rest := by
  refine (yields_peek _).bind ?_
  split
  · next h => cases h
  · next h => exact absurd (Option.some.inj h) hd
  · next e _ h =>
      obtain rfl : d = e := Option.some.inj h
      simp only [hc]
      exact (yields_skip_one _ _).bind (yields_pure _ _)

/-- One written character is read, and then the others. -/
theorem yields_readChars_succ {fuel : Nat} {text rest chars : List Char}
    (h : (readChars fuel).Yields text chars rest) (c : Char) :
    (readChars (fuel + 1)).Yields (writeChar c ++ text) (c :: chars) rest := by
  rw [readChars]
  rcases writeChar_cases c with
    ⟨d, hd, hc, hwrite⟩ | ⟨hcontrol, hwrite⟩ | ⟨hquote, hescape, hcontrol, hwrite⟩
  · -- an escape by one character
    rw [hwrite]
    refine (yields_peek _).bind ?_
    refine (yields_skip_one _ _).bind ((yields_readEscape hd hc text).bind ?_)
    exact h.bind (yields_pure _ _)
  · -- a control character, escaped by its number; no surrogates occur
    rw [hwrite]
    refine (yields_peek _).bind ?_
    have hunicode : readEscape.Yields
        ('u' :: '0' :: '0' :: hexDigit (c.toNat / 16) :: hexDigit (c.toNat % 16) :: text) c text := by
      have hread := yields_readUnicode hcontrol text
      rw [Char.ofNat_toNat] at hread
      exact (yields_peek _).bind ((yields_skip_one _ _).bind hread)
    refine (yields_skip_one _ _).bind (hunicode.bind ?_)
    exact h.bind (yields_pure _ _)
  · -- a character that stands for itself
    rw [hwrite]
    refine (yields_peek _).bind ?_
    simp only [List.cons_append, List.nil_append, List.head?_cons]
    rw [if_neg hquote, if_neg hescape, if_neg hcontrol]
    exact (yields_advance _ _).bind (h.bind (yields_pure _ _))

theorem yields_readChars {fuel : Nat} {chars : List Char} (hfuel : chars.length < fuel)
    (rest : List Char) :
    (readChars fuel).Yields (chars.flatMap writeChar ++ '\x22' :: rest) chars rest := by
  induction chars generalizing fuel with
  | nil =>
      obtain ⟨fuel, rfl⟩ := Nat.exists_eq_succ_of_ne_zero (Nat.ne_of_gt hfuel)
      exact (yields_peek _).bind ((yields_skip_one _ _).bind (yields_pure _ _))
  | cons c chars ih =>
      obtain ⟨fuel, rfl⟩ := Nat.exists_eq_succ_of_ne_zero (Nat.ne_zero_of_lt hfuel)
      rw [List.flatMap_cons, List.append_assoc]
      exact yields_readChars_succ (ih (Nat.lt_of_succ_lt_succ hfuel)) c

theorem length_le_length_flatMap_writeChar (chars : List Char) :
    chars.length ≤ (chars.flatMap writeChar).length := by
  induction chars with
  | nil => exact Nat.le_refl _
  | cons c chars ih =>
      have hone := one_le_length_writeChar c
      rw [List.flatMap_cons, List.length_append, List.length_cons]
      omega

/-- A written string is read back, with all its escapes. -/
theorem yields_readString (s : String) (rest : List Char) :
    readString.Yields (s.toList.flatMap writeChar ++ '\x22' :: rest) s rest := by
  intro offset
  have hlength := length_le_length_flatMap_writeChar s.toList
  have hfuel : s.toList.length < (s.toList.flatMap writeChar ++ '\x22' :: rest).length + 1 := by
    rw [List.length_append]
    omega
  obtain ⟨offset', hchars⟩ := yields_readChars hfuel rest offset
  exact ⟨offset', reads_get_bind.2 (reads_bind_pure.2 ⟨_, hchars, String.ofList_toList⟩)⟩

/-! ### Blocks -/

/-- What follows a piece of a block: the other pieces on lines of their own, and the closing bracket. -/
def following (level : Nat) (closing : Char) : List (List Char) → List Char
  | [] => newLine level ++ [closing]
  | piece :: rest => ',' :: newLine (level + 1) ++ piece ++ following level closing rest

/-- What follows the opening bracket of a block. -/
def inside (level : Nat) (closing : Char) : List (List Char) → List Char
  | [] => [closing]
  | piece :: rest => newLine (level + 1) ++ piece ++ following level closing rest

theorem writeBlock_eq (level : Nat) (opening closing : Char) (pieces : List (List Char)) :
    writeBlock level opening closing pieces = opening :: inside level closing pieces := by
  cases pieces with
  | nil => rfl
  | cons piece rest =>
      have hlines : ∀ piece, List.intercalate (',' :: newLine (level + 1)) (piece :: rest) ++
          newLine level ++ [closing] = piece ++ following level closing rest := by
        induction rest with
        | nil => simp [List.intercalate, following]
        | cons next rest ih =>
            intro piece
            simp only [following, ← ih next, List.intercalate, List.intersperse, List.flatten_cons,
              List.append_assoc, List.cons_append]
      simp only [writeBlock, inside, ← hlines piece, List.append_assoc, List.cons_append]

theorem length_le_length_following (level : Nat) (closing : Char) (pieces : List (List Char)) :
    pieces.length ≤ (following level closing pieces).length := by
  induction pieces with
  | nil => exact Nat.zero_le _
  | cons piece rest ih =>
      simp only [following, List.length_append, List.length_cons]
      omega

theorem length_le_length_inside (level : Nat) (closing : Char) (pieces : List (List Char)) :
    pieces.length ≤ (inside level closing pieces).length := by
  cases pieces with
  | nil => exact Nat.zero_le _
  | cons piece rest =>
      have hrest := length_le_length_following level closing rest
      simp only [inside, newLine, List.length_append, List.length_cons]
      omega

/-- No numeral goes on behind a piece. -/
theorem endsNumeral_following (level : Nat) (closing : Char) (pieces : List (List Char))
    (rest : List Char) : EndsNumeral (following level closing pieces ++ rest) := by
  intro c hc
  cases pieces with
  | nil =>
      obtain rfl : '\n' = c := Option.some.inj hc
      rfl
  | cons piece pieces =>
      obtain rfl : ',' = c := Option.some.inj hc
      rfl

/-- A piece of a block begins on a line of its own, behind a comma if it is not the first one. -/
theorem exists_begins {closing : Char} (first : Bool) (level : Nat) {text : List Char} {c : Char}
    (hc : text.head? = some c) (hblank : isBlank c = false) (hclosing : c ≠ closing) (offset : Nat) :
    ∃ offset', Begins closing first
      ⟨(if first then [] else [',']) ++ newLine level ++ text, offset⟩ ⟨text, offset'⟩ := by
  cases first with
  | true =>
      obtain ⟨offset', h⟩ := exists_trimmed_newLine level hc hblank offset
      exact ⟨offset', .inl ⟨rfl, h⟩, c, hc, hclosing⟩
  | false =>
      obtain ⟨offset', h⟩ := exists_trimmed_newLine level hc hblank (offset + 1)
      exact ⟨offset', .inr ⟨rfl, rfl, h⟩, c, hc, hclosing⟩

/-! ### Arrays and objects -/

/-- A reader makes a value of a text whatever follows, as long as a numeral ends where the text ends. The
text starts neither with a blank nor with a closing bracket. -/
structure Reader.Recovers (r : Reader α) (text : List Char) (a : α) : Prop where
  head : ∃ c, text.head? = some c ∧ isBlank c = false ∧ c ≠ ']'
  yields : ∀ rest, EndsNumeral rest → r.Yields (text ++ rest) a rest

/-- The items of an array behind the first one. -/
theorem yields_readItems_following {item : Reader α} {write : α → List Char} {items : List α}
    (hitems : ∀ a ∈ items, item.Recovers (write a) a) {fuel : Nat} (hfuel : items.length < fuel)
    (level : Nat) (rest : List Char) :
    (readItems item fuel false).Yields (following level ']' (items.map write) ++ rest) items rest := by
  induction items generalizing fuel with
  | nil =>
      obtain ⟨fuel, rfl⟩ := Nat.exists_eq_succ_of_ne_zero (Nat.ne_of_gt hfuel)
      intro offset
      have hhead : (']' :: rest).head? = some ']' := rfl
      obtain ⟨offset', htrimmed⟩ := exists_trimmed_newLine level hhead rfl offset
      refine ⟨offset' + 1, reads_readItems_succ.2 (.inl ?_)⟩
      rw [List.map_nil, following, List.append_assoc, List.singleton_append, htrimmed]
      exact ⟨rfl, rfl, rfl⟩
  | cons a items ih =>
      obtain ⟨fuel, rfl⟩ := Nat.exists_eq_succ_of_ne_zero (Nat.ne_zero_of_lt hfuel)
      obtain ⟨ha, hitems⟩ := List.forall_mem_cons.1 hitems
      obtain ⟨c, hc, hblank, hclosing⟩ := ha.head
      have htail := ih hitems (Nat.lt_of_succ_lt_succ hfuel)
      have hitem := ha.yields _ (endsNumeral_following level ']' (items.map write) rest)
      intro offset
      have hhead : (write a ++ (following level ']' (items.map write) ++ rest)).head? = some c := by
        simp [List.head?_append, hc]
      obtain ⟨offset₁, hbegins⟩ := exists_begins false (level + 1) hhead hblank hclosing offset
      obtain ⟨offset₂, hitem⟩ := hitem offset₁
      obtain ⟨offset₃, htail⟩ := htail offset₂
      refine ⟨offset₃, reads_readItems_succ.2 (.inr ⟨_, a, _, items, ?_, hitem, htail, rfl⟩)⟩
      simpa [following] using hbegins

/-- The items of a written array. -/
theorem yields_readItems {item : Reader α} {write : α → List Char} {items : List α}
    (hitems : ∀ a ∈ items, item.Recovers (write a) a) (level : Nat) (rest : List Char) :
    (withFuel fun fuel => readItems item fuel true).Yields (inside level ']' (items.map write) ++ rest)
      items rest := by
  have hlength := length_le_length_inside level ']' (items.map write)
  intro offset
  simp only [reads_withFuel]
  cases items with
  | nil => exact ⟨offset + 1, reads_readItems_succ.2 (.inl ⟨rfl, rfl, rfl⟩)⟩
  | cons a items =>
      obtain ⟨ha, hitems⟩ := List.forall_mem_cons.1 hitems
      obtain ⟨c, hc, hblank, hclosing⟩ := ha.head
      have hhead : (write a ++ (following level ']' (items.map write) ++ rest)).head? = some c := by
        simp [List.head?_append, hc]
      obtain ⟨offset₁, hbegins⟩ := exists_begins true (level + 1) hhead hblank hclosing offset
      obtain ⟨offset₂, hitem⟩ :=
        ha.yields _ (endsNumeral_following level ']' (items.map write) rest) offset₁
      have hfuel : items.length < (inside level ']' ((a :: items).map write) ++ rest).length := by
        simp only [List.length_map, List.length_cons, List.length_append] at hlength ⊢
        omega
      obtain ⟨offset₃, htail⟩ := yields_readItems_following hitems hfuel level rest offset₂
      refine ⟨offset₃, reads_readItems_succ.2 (.inr ⟨_, a, _, items, ?_, hitem, htail, rfl⟩)⟩
      simpa [inside] using hbegins

theorem writeItems_eq_map (level : Nat) (items : List Json) :
    writeItems level items = items.map (writeAt level) := by
  induction items with
  | nil => rfl
  | cons item rest ih => rw [writeItems, ih, List.map_cons]

theorem length_writeFields (level : Nat) (fields : Fields) :
    (writeFields level fields).length = fields.length := by
  induction fields with
  | nil => rfl
  | cons field rest ih => rw [writeFields, List.length_cons, List.length_cons, ih]

/-- A reader for members goes from one state to another if it is given the keys of written members and
stands before their values. -/
inductive Takes (member : σ → String → Reader σ) (level : Nat) : σ → Fields → σ → Prop where
  | nil (s : σ) : Takes member level s [] s
  | cons {s next t : σ} {key : String} {value : Json} {fields : Fields}
      (hmember : ∀ rest, EndsNumeral rest →
        (member s key).Yields (':' :: ' ' :: (writeAt level value ++ rest)) next rest)
      (htail : Takes member level next fields t) : Takes member level s ((key, value) :: fields) t

theorem Takes.append {member : σ → String → Reader σ} {level : Nat} {r s t : σ} {fields more : Fields}
    (h : Takes member level r fields s) (h' : Takes member level s more t) :
    Takes member level r (fields ++ more) t := by
  induction h with
  | nil s => exact h'
  | cons hmember _ ih => exact .cons hmember (ih h')

/-- One member of an object, and what is made of the others. -/
theorem yields_readMembers_succ {member : σ → String → Reader σ} {s next t : σ} {key : String}
    {value : Json} {level : Nat} {text rest : List Char} (htext : EndsNumeral text)
    (hmember : ∀ rest, EndsNumeral rest →
      (member s key).Yields (':' :: ' ' :: (writeAt level value ++ rest)) next rest)
    {fuel : Nat} (htail : (readMembers member fuel false next).Yields text t rest) (first : Bool) :
    (readMembers member (fuel + 1) first s).Yields ((if first then [] else [',']) ++ newLine level ++
      (writeString key ++ [':', ' '] ++ writeAt level value ++ text)) t rest := by
  intro offset
  have hhead : (writeString key ++ [':', ' '] ++ writeAt level value ++ text).head? = some '\x22' := rfl
  have hclosing : '\x22' ≠ '\x7d' := by decide
  obtain ⟨offset₁, hbegins⟩ := exists_begins first level hhead rfl hclosing offset
  obtain ⟨offset₂, hkey⟩ := yields_readString key (':' :: ' ' :: (writeAt level value ++ text)) (offset₁ + 1)
  obtain ⟨offset₃, hmember⟩ := hmember text htext offset₂
  obtain ⟨offset₄, htail⟩ := htail offset₃
  refine ⟨offset₄, reads_readMembers_succ.2
    (.inr ⟨_, key, _, next, _, hbegins, hhead, ?_, hmember, htail⟩)⟩
  have hpast : (⟨writeString key ++ [':', ' '] ++ writeAt level value ++ text, offset₁⟩ : Input).past 1 =
      ⟨key.toList.flatMap writeChar ++ '\x22' :: ':' :: ' ' :: (writeAt level value ++ text),
        offset₁ + 1⟩ := by
    simp [Input.past, writeString]
  rw [hpast]
  exact hkey

/-- The members of an object behind the first one. -/
theorem yields_readMembers_following {member : σ → String → Reader σ} {level : Nat} {s t : σ}
    {fields : Fields} (h : Takes member (level + 1) s fields t) {fuel : Nat}
    (hfuel : fields.length < fuel) (rest : List Char) :
    (readMembers member fuel false s).Yields
      (following level '\x7d' (writeFields (level + 1) fields) ++ rest) t rest := by
  induction h generalizing fuel with
  | nil s =>
      obtain ⟨fuel, rfl⟩ := Nat.exists_eq_succ_of_ne_zero (Nat.ne_of_gt hfuel)
      intro offset
      have hhead : ('\x7d' :: rest).head? = some '\x7d' := rfl
      obtain ⟨offset', htrimmed⟩ := exists_trimmed_newLine level hhead rfl offset
      refine ⟨offset' + 1, reads_readMembers_succ.2 (.inl ?_)⟩
      rw [writeFields, following, List.append_assoc, List.singleton_append, htrimmed]
      exact ⟨rfl, rfl, rfl⟩
  | @cons s next t key value fields hmember _ ih =>
      obtain ⟨fuel, rfl⟩ := Nat.exists_eq_succ_of_ne_zero (Nat.ne_zero_of_lt hfuel)
      have htail := ih (Nat.lt_of_succ_lt_succ hfuel)
      have hall := yields_readMembers_succ (endsNumeral_following level _ _ rest) hmember htail false
      simpa [following, writeFields] using hall

/-- The members of a written object. -/
theorem yields_readMembers {member : σ → String → Reader σ} {level : Nat} {s t : σ} {fields : Fields}
    (h : Takes member (level + 1) s fields t) (rest : List Char) :
    (withFuel fun fuel => readMembers member fuel true s).Yields
      (inside level '\x7d' (writeFields (level + 1) fields) ++ rest) t rest := by
  intro offset
  simp only [reads_withFuel]
  cases h with
  | nil => exact ⟨offset + 1, reads_readMembers_succ.2 (.inl ⟨rfl, rfl, rfl⟩)⟩
  | @cons _ next _ key value fields hmember htail =>
      have hlength := length_le_length_inside level '\x7d' (writeFields (level + 1) ((key, value) :: fields))
      rw [length_writeFields] at hlength
      have hfuel : fields.length <
          (inside level '\x7d' (writeFields (level + 1) ((key, value) :: fields)) ++ rest).length := by
        simp only [List.length_append, List.length_cons] at hlength ⊢
        omega
      have htail := yields_readMembers_following htail hfuel rest
      have hall := yields_readMembers_succ (endsNumeral_following level _ _ rest) hmember htail true
      simpa [inside, writeFields] using hall offset

/-! ### Values -/

theorem yields_readColon (rest : List Char) : readColon.Yields (':' :: rest) () rest := by
  intro offset
  refine ⟨offset + 1, reads_readColon.2 ?_⟩
  rw [trimmed_eq_self (by simp [isBlank])]
  exact ⟨rfl, rfl⟩

/-- A value of a given type is read from its second character on. -/
theorem yields_readTyped {start : Char} (hstart : isBlank start = false) {r : Reader α}
    {text rest : List Char} {a : α} (h : r.Yields text a rest) (expected : String) :
    (readTyped start expected r).Yields (start :: text) a rest := by
  intro offset
  obtain ⟨offset', h⟩ := h (offset + 1)
  refine ⟨offset', reads_readTyped.2 ?_⟩
  rw [trimmed_eq_self (by simp [hstart])]
  exact ⟨rfl, h⟩

theorem recovers_readText (s expected : String) : (readText expected).Recovers (writeString s) s where
  head := ⟨'\x22', rfl, by decide, by decide⟩
  yields rest _ := by
    rw [writeString, List.append_assoc]
    exact yields_readTyped (by decide) (yields_readString s rest) expected

theorem recovers_readTexts (level : Nat) (texts : List String) (expected : String) :
    (readTexts expected).Recovers (writeAt level (.array (texts.map .string))) texts where
  head := by
    rw [writeAt, writeBlock_eq]
    exact ⟨'[', rfl, by decide, by decide⟩
  yields rest _ := by
    have htexts : ∀ s ∈ texts, (readText expected).Recovers (writeString s) s :=
      fun s _ => recovers_readText s expected
    have hitems := yields_readItems htexts level rest
    rw [writeAt, writeBlock_eq, writeItems_eq_map, List.map_map]
    exact yields_readTyped (by decide) hitems _

theorem yields_readWord (word rest : List Char) : (readWord word).Yields (word ++ rest) () rest := by
  induction word with
  | nil => exact yields_pure _ _
  | cons c word ih =>
      refine (yields_peek _).bind ?_
      simp only [List.cons_append, List.head?_cons, if_true]
      exact (yields_skip_one _ _).bind ih

/-- Members in order are read back one by one, each one to the end. -/
theorem takes_readField {depth level : Nat} {fields : Fields}
    (hfields : ∀ field ∈ fields, (readValue (depth + 1)).Recovers (writeAt level field.2) field.2)
    (before : Fields) (horder : (before ++ fields).InOrder) :
    Takes (readField (depth + 1)) level before fields (before ++ fields) := by
  induction fields generalizing before with
  | nil =>
      rw [List.append_nil]
      exact .nil before
  | cons field fields ih =>
      obtain ⟨key, value⟩ := field
      obtain ⟨hvalue, hfields⟩ := List.forall_mem_cons.1 hfields
      have hinsert : before.insert key value = before ++ [(key, value)] := by
        refine Fields.insert_eq_append (fun field hfield => ?_) value
        exact (List.pairwise_append.1 horder).2.2 field hfield (key, value) (by simp)
      have htail := ih hfields (before ++ [(key, value)]) (by simpa using horder)
      rw [List.append_assoc, List.singleton_append] at htail
      refine .cons (fun rest hrest => ?_) htail
      refine (yields_readColon _).bind (Reader.Yields.bind (hvalue.yields rest hrest).blank ?_)
      rw [← hinsert]
      exact yields_pure _ _

/-- A text that stands for a value, whatever follows, is read as the value. -/
theorem recovers_of_valueAt {depth : Nat} {text : List Char} {value : Json}
    (hhead : ∃ c, text.head? = some c ∧ isBlank c = false ∧ c ≠ ']')
    (h : ∀ rest, EndsNumeral rest → ∀ offset, ∃ offset',
      ValueAt depth ⟨text ++ rest, offset⟩ value ⟨rest, offset'⟩) :
    (readValue (depth + 1)).Recovers text value where
  head := hhead
  yields rest hrest offset := by
    obtain ⟨c, hc, hblank, -⟩ := hhead
    obtain ⟨offset', hvalue⟩ := h rest hrest offset
    refine ⟨offset', reads_readValue_succ.2 ?_⟩
    rwa [trimmed_eq_self (by simp [List.head?_append, hc, hblank])]

theorem recovers_word {c : Char} {word : List Char} {value : Json} (hmem : (c, word, value) ∈ words)
    (depth : Nat) : (readValue (depth + 1)).Recovers (c :: word) value := by
  refine recovers_of_valueAt ⟨c, rfl, ?_⟩ fun rest _ offset => ?_
  · have hwords : ∀ w ∈ words, isBlank w.1 = false ∧ w.1 ≠ ']' := by decide
    exact hwords _ hmem
  · obtain ⟨offset', hword⟩ := yields_readWord word rest (offset + 1)
    exact ⟨offset', .word hmem rfl hword⟩

theorem isBlank_eq_false_of_isDigit {c : Char} (h : c.isDigit = true) : isBlank c = false := by
  refine Bool.eq_false_iff.2 fun hblank => ?_
  simp only [isBlank, Bool.or_eq_true, beq_iff_eq] at hblank
  rcases hblank with ((rfl | rfl) | rfl) | rfl <;> exact absurd h (by decide)

theorem recovers_number {n : Number} (hn : n.IsInteger) (depth : Nat) :
    (readValue (depth + 1)).Recovers n.text (.number n) := by
  cases n with
  | natural n =>
      obtain ⟨c, digits, hcons⟩ := List.exists_cons_of_ne_nil (Nat.toDigits_ne_nil (n := n) (b := 10))
      have hdigit : c.isDigit = true :=
        Nat.isDigit_of_mem_toDigits (b := 10) (n := n) (by decide) (by decide) (by rw [hcons]; simp)
      have hhead : (Nat.toDigits 10 n).head? = some c := by rw [hcons]; rfl
      refine recovers_of_valueAt ⟨c, hhead, ?_⟩ fun rest hrest offset => ?_
      · constructor
        · exact isBlank_eq_false_of_isDigit hdigit
        · rintro rfl
          exact absurd hdigit (by decide)
      · exact ⟨_, .number (by simp [Number.text, List.head?_append, hhead]) hdigit
          (reads_readNumber_natural hn.1 hrest offset)⟩
  | negative n =>
      refine recovers_of_valueAt ⟨'-', rfl, by decide, by decide⟩ fun rest hrest offset => ?_
      exact ⟨_, .negative rfl (reads_readNumber_negative hn.1.1 hn.1.2 hrest (offset + 1))⟩
  | real x => exact absurd hn.2 (by simp [Number.isReal])

theorem recovers_string (s : String) (depth : Nat) :
    (readValue (depth + 1)).Recovers (writeString s) (.string s) := by
  refine recovers_of_valueAt ⟨'\x22', rfl, by decide, by decide⟩ fun rest _ offset => ?_
  obtain ⟨offset', hs⟩ := yields_readString s rest (offset + 1)
  refine ⟨offset', .string rfl ?_⟩
  simpa [writeString, Input.past] using hs

theorem recovers_array {depth level : Nat} {items : List Json}
    (hitems : ∀ item ∈ items, (readValue (depth + 1)).Recovers (writeAt (level + 1) item) item) :
    (readValue (depth + 2)).Recovers (writeAt level (.array items)) (.array items) := by
  rw [writeAt, writeBlock_eq, writeItems_eq_map]
  refine recovers_of_valueAt ⟨'[', rfl, by decide, by decide⟩ fun rest _ offset => ?_
  obtain ⟨offset', h⟩ := yields_readItems hitems level rest (offset + 1)
  exact ⟨offset', .array (Nat.succ_ne_zero _) rfl h⟩

theorem recovers_object {depth level : Nat} {fields : Fields} (horder : fields.InOrder)
    (hfields : ∀ field ∈ fields, (readValue (depth + 1)).Recovers (writeAt (level + 1) field.2) field.2) :
    (readValue (depth + 2)).Recovers (writeAt level (.object fields)) (.object fields) := by
  rw [writeAt, writeBlock_eq]
  refine recovers_of_valueAt ⟨'\x7b', rfl, by decide, by decide⟩ fun rest _ offset => ?_
  obtain ⟨offset', h⟩ := yields_readMembers (takes_readField hfields [] horder) rest (offset + 1)
  exact ⟨offset', .object (Nat.succ_ne_zero _) rfl h⟩

/-- A written value is read back if its numbers are integers and its members are in order. -/
theorem recovers_readValue {depth : Nat} {value : Json} (h : Fits Number.IsInteger depth value)
    (level : Nat) : (readValue (depth + 1)).Recovers (writeAt level value) value := by
  induction depth generalizing value level with
  | zero =>
      cases value with
      | null => exact recovers_word (by simp [words]) 0
      | bool b => cases b <;> exact recovers_word (by simp [words]) 0
      | number n => exact recovers_number h 0
      | string s => exact recovers_string s 0
      | array items => exact h.elim
      | object fields => exact h.elim
  | succ depth ih =>
      cases value with
      | null => exact recovers_word (by simp [words]) _
      | bool b => cases b <;> exact recovers_word (by simp [words]) _
      | number n => exact recovers_number h _
      | string s => exact recovers_string s _
      | array items => exact recovers_array fun item hitem => ih (h item hitem) _
      | object fields => exact recovers_object h.1 fun field hfield => ih (h.2 field hfield) _

/-- The members of an object in order, read by themselves. -/
theorem recovers_readObject {depth : Nat} {fields : Fields} (h : fields.Fit Number.IsInteger depth)
    (level : Nat) : (readObject (depth + 1)).Recovers (writeAt level (.object fields)) fields where
  head := by
    rw [writeAt, writeBlock_eq]
    exact ⟨'\x7b', rfl, by decide, by decide⟩
  yields rest _ := by
    have hfields : ∀ field ∈ fields,
        (readValue (depth + 1)).Recovers (writeAt (level + 1) field.2) field.2 :=
      fun field hfield => recovers_readValue (h.2 field hfield) _
    have hread := yields_readMembers (takes_readField hfields [] h.1) rest
    rw [writeAt, writeBlock_eq]
    exact yields_readTyped (by decide) hread _

/-! ### Documents -/

/-- A written object is read as a document, whatever is made of its members. -/
theorem parseWith_write_object {member : σ → String → Reader σ} {s t : σ} {fields : Fields}
    (h : Takes member 1 s fields t) (expected : String) (finish : σ → α) :
    parseWith (do
      let result ← readTyped '\x7b' expected (withFuel fun fuel => readMembers member fuel true s)
      return finish result) (write (.object fields)) = .ok (finish t) := by
  have hread : Reader.Yields (do
      let result ← readTyped '\x7b' expected (withFuel fun fuel => readMembers member fuel true s)
      return finish result) (writeAt 0 (.object fields)) (finish t) [] := by
    have hmembers := yields_readMembers h []
    rw [List.append_nil] at hmembers
    rw [writeAt, writeBlock_eq]
    exact (yields_readTyped (by decide) hmembers expected).bind (yields_pure _ _)
  obtain ⟨offset, hread⟩ := hread 0
  refine parseWith_eq_ok_iff.2 ⟨⟨[], offset⟩, ?_, rfl⟩
  rwa [write, String.toList_ofList]

/-- Members are collected one after the other, whatever their order. -/
theorem takes_collect {level : Nat} {fields : Fields}
    (hfields : ∀ field ∈ fields, Fits Number.IsInteger (depthLimit - 2) field.2) (before : Fields) :
    Takes collect level before fields (before ++ fields) := by
  induction fields generalizing before with
  | nil =>
      rw [List.append_nil]
      exact .nil before
  | cons field fields ih =>
      obtain ⟨key, value⟩ := field
      obtain ⟨hvalue, hfields⟩ := List.forall_mem_cons.1 hfields
      have htail := ih hfields (before ++ [(key, value)])
      rw [List.append_assoc, List.singleton_append] at htail
      refine .cons (fun rest hrest => ?_) htail
      have hread := (recovers_readValue hvalue level).yields rest hrest
      exact (yields_readColon _).bind (Reader.Yields.bind hread.blank (yields_pure _ _))

/-- The members of a written object, as they stand in the document. -/
theorem parseMembers_write {fields : Fields}
    (h : ∀ field ∈ fields, Fits Number.IsInteger (depthLimit - 2) field.2) :
    parseMembers (write (.object fields)) = .ok fields := by
  have hread := parseWith_write_object (takes_collect h []) "a map" id
  simpa [parseMembers] using hread

end ImportAtlas.Json
