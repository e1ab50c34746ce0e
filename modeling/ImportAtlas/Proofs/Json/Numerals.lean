import ImportAtlas.Proofs.Json.Reading
import Mathlib.Data.List.TakeWhile

/-!
# The numbers of a document

The numerals of a document are found by looking at its characters alone: outside of strings, a numeral
starts at a digit or a minus and goes on as far as numerals can. A numeral that writes an integer of at
most 64 bits is read as that integer, and only the rest of the document is left behind it.

Main definitions:

* `ImportAtlas.Json.numerals` — the numerals of a text;
* `ImportAtlas.Json.IsIntegerNumeral` — the numerals that write integers of at most 64 bits;
* `ImportAtlas.Json.Number.InRange`, `ImportAtlas.Json.Number.IsInteger` — the numbers that can be read,
  and the integers among them.

Main results:

* `ImportAtlas.Json.only_readNumber` — what is read as a number is in range;
* `ImportAtlas.Json.reads_readNumber_natural`, `ImportAtlas.Json.reads_readNumber_negative` — **an integer
  is read from its digits**;
* `ImportAtlas.Json.afterString_readString` — reading a string ends behind its closing quote;
* `ImportAtlas.Json.isInteger_of_readNumber_digit`, `ImportAtlas.Json.isInteger_of_readNumber_minus` — a
  numeral that writes an integer is read as an integer.
-/

set_option autoImplicit false

namespace ImportAtlas.Json

/-- The characters that numerals are made of. -/
def isNumeralChar (c : Char) : Bool :=
  c.isDigit || c == '-' || c == '+' || c == '.' || c == 'e' || c == 'E'

/-- The characters that numerals start with. -/
def startsNumeral (c : Char) : Bool := c.isDigit || c == '-'

/-- What is left of a text behind the string in which it starts. -/
def afterString : List Char → List Char
  | [] => []
  | '\\' :: _ :: rest => afterString rest
  | c :: rest => if c = '\x22' then rest else afterString rest

theorem length_afterString_le (text : List Char) : (afterString text).length ≤ text.length := by
  fun_induction afterString text with
  | case1 => exact Nat.le_refl _
  | case2 c rest ih => simp only [List.length_cons]; omega
  | case3 rest => simp
  | case4 c rest _ _ ih => simp only [List.length_cons]; omega

/-- The numerals of a text, from left to right. -/
def numerals : List Char → List (List Char)
  | [] => []
  | c :: rest =>
      if c = '\x22' then numerals (afterString rest)
      else if startsNumeral c then
        (c :: rest.takeWhile isNumeralChar) :: numerals (rest.dropWhile isNumeralChar)
      else numerals rest
termination_by text => text.length
decreasing_by
  · have := length_afterString_le rest
    simp only [List.length_cons]
    omega
  · have := (List.dropWhile_suffix isNumeralChar (l := rest)).length_le
    simp only [List.length_cons]
    omega
  · simp

/-- A numeral writes an integer that fits into 64 bits with or without a sign; the negative zero is
none. -/
def IsIntegerNumeral (numeral : List Char) : Prop :=
  (∃ n, n < Nat.pow 2 64 ∧ numeral = Nat.toDigits 10 n) ∨
    ∃ n, 0 < n ∧ n ≤ Nat.pow 2 63 ∧ numeral = '-' :: Nat.toDigits 10 n

/-- The numbers that can be read: an integer fits into 64 bits with or without a sign, and zero has no
sign. -/
def Number.InRange : Number → Prop
  | .natural n => n < Nat.pow 2 64
  | .negative n => 0 < n ∧ n ≤ Nat.pow 2 63
  | .real _ => True

/-- Whether a number is a floating point number. -/
def Number.isReal : Number → Bool
  | .real _ => true
  | _ => false

/-- The integers that can be read. -/
def Number.IsInteger (n : Number) : Prop := n.InRange ∧ n.isReal = false

instance : (n : Number) → Decidable n.InRange
  | .natural _ => inferInstanceAs (Decidable (_ < _))
  | .negative _ => inferInstanceAs (Decidable (_ ∧ _))
  | .real _ => inferInstanceAs (Decidable True)

instance (n : Number) : Decidable n.IsInteger := inferInstanceAs (Decidable (_ ∧ _))

/-! ### Numbers are in range -/

theorem addDigits_le {limit n : Nat} (hn : n ≤ limit) (text : List Char) :
    (addDigits limit n text).1 ≤ limit := by
  induction text generalizing n with
  | nil => exact hn
  | cons c rest ih =>
      rw [addDigits]
      split
      · exact hn
      · next hc =>
          simp only [Bool.or_eq_true, decide_eq_true_eq, not_or, Nat.not_lt] at hc
          exact ih hc.2

section

variable {i j : Input}

theorem reads_readDigits {limit n : Nat} {result : Nat × Nat} :
    (readDigits limit n).Reads i result j ↔
      addDigits limit n i.rest = result ∧ i.past result.2 = j := by
  show Except.ok (addDigits limit n i.rest, i.past (addDigits limit n i.rest).2) =
    Except.ok (result, j) ↔ _
  simp only [Except.ok.injEq, Prod.mk.injEq]
  constructor
  · rintro ⟨rfl, rfl⟩
    exact ⟨rfl, rfl⟩
  · rintro ⟨rfl, rfl⟩
    exact ⟨rfl, rfl⟩

theorem reads_skipDigits {count : Nat} :
    skipDigits.Reads i count j ↔
      (i.rest.takeWhile Char.isDigit).length = count ∧ i.past count = j := by
  show Except.ok ((i.rest.takeWhile Char.isDigit).length,
    i.past (i.rest.takeWhile Char.isDigit).length) = Except.ok (count, j) ↔ _
  simp only [Except.ok.injEq, Prod.mk.injEq]
  constructor
  · rintro ⟨rfl, rfl⟩
    exact ⟨rfl, rfl⟩
  · rintro ⟨rfl, rfl⟩
    exact ⟨rfl, rfl⟩

end

/-- All that a reader can read has a property. -/
def Reader.Only {α : Type} (r : Reader α) (P : α → Prop) : Prop := ∀ i a j, r.Reads i a j → P a

section

variable {α β : Type} {P : α → Prop}

theorem Reader.Only.mono {Q : α → Prop} {r : Reader α} (h : r.Only P) (hPQ : ∀ a, P a → Q a) :
    r.Only Q := fun i a j ha => hPQ a (h i a j ha)

theorem only_pure {a : α} (h : P a) : (pure a : Reader α).Only P := by
  intro i b j hb
  obtain ⟨rfl, -⟩ := reads_pure.1 hb
  exact h

theorem only_bind {x : Reader β} {f : β → Reader α} (h : ∀ b, (f b).Only P) :
    Reader.Only (x >>= f) P := by
  intro i a j ha
  obtain ⟨b, k, -, hf⟩ := reads_bind.1 ha
  exact h b k a j hf

theorem only_ite {c : Prop} [Decidable c] {x y : Reader α} (hx : x.Only P) (hy : y.Only P) :
    Reader.Only (if c then x else y) P := by
  split
  · exact hx
  · exact hy

theorem only_failNext {cause : Cause} : (failNext cause : Reader α).Only P :=
  fun _ _ _ h => absurd h not_reads_failNext

theorem only_failHere {cause : Cause} : (failHere cause : Reader α).Only P :=
  fun _ _ _ h => absurd h not_reads_failHere

end

theorem only_realOf (negative : Bool) (m : Nat) (e : Int) :
    (realOf negative m e).Only (·.isReal = true) := by
  rw [realOf]
  split
  · exact only_pure rfl
  · exact only_failHere

theorem only_readExponent (negative : Bool) (m : Nat) (start : Int) :
    (readExponent negative m start).Only (·.isReal = true) := by
  rw [readExponent]
  dsimp only
  refine only_bind fun _ => only_bind fun sign => only_ite (only_bind fun _ => ?_) ?_
  -- what follows the sign is the same whether there is one or not
  all_goals
    refine only_bind fun c => ?_
    split
    · exact only_failNext
    · refine only_ite only_failNext (only_bind fun e => only_bind fun more => ?_)
      exact only_ite (only_ite only_failNext (only_bind fun _ => only_pure rfl)) (only_realOf _ _ _)

theorem only_readFraction (negative : Bool) (m : Nat) (start : Int) :
    (readFraction negative m start).Only (·.isReal = true) := by
  rw [readFraction]
  refine only_bind fun _ => only_bind fun digits => only_bind fun dropped => only_ite ?_ ?_
  · refine only_bind fun c => ?_
    split <;> exact only_failNext
  · exact only_bind fun _ => only_ite (only_readExponent _ _ _) (only_realOf _ _ _)

theorem Number.inRange_of_isReal : ∀ n : Number, n.isReal = true → n.InRange
  | .real _, _ => trivial

theorem only_integerOf (negative : Bool) {m : Nat} (hm : m < Nat.pow 2 64) :
    (integerOf negative m).Only Number.InRange := by
  rw [integerOf]
  refine only_ite (only_pure hm) ?_
  split
  · exact (only_realOf _ _ _).mono Number.inRange_of_isReal
  · next hrange =>
      rw [not_or, Nat.not_lt] at hrange
      exact only_pure ⟨Nat.pos_of_ne_zero hrange.1, hrange.2⟩

theorem only_readWhole : readWhole.Only (· < Nat.pow 2 64) := by
  rw [readWhole]
  refine only_bind fun c => ?_
  split
  · exact only_failNext
  · refine only_ite only_failNext (only_ite ?_ ?_)
    · exact only_bind fun _ => only_bind fun _ => only_ite only_failNext (only_pure (by decide))
    · intro i m j hm
      obtain ⟨digits, hdigits, rfl⟩ := reads_bind_pure.1 hm
      obtain ⟨rfl, -⟩ := reads_readDigits.1 hdigits
      have hle := addDigits_le (Nat.zero_le significandLimit) i.rest
      exact Nat.lt_of_le_of_lt hle (by decide)

/-- What is read as a number is in range. -/
theorem only_readNumber (negative : Bool) : (readNumber negative).Only Number.InRange := by
  intro i n j h
  rw [readNumber] at h
  obtain ⟨m, k, hm, h⟩ := reads_bind.1 h
  have hlimit := only_readWhole i m k hm
  obtain ⟨dropped, k', -, h⟩ := reads_bind.1 h
  refine only_bind (fun c => only_ite ?_ (only_bind fun _ => only_ite ?_ (only_ite ?_ ?_))) k' n j h
  · exact (only_readFraction _ _ _).mono Number.inRange_of_isReal
  · exact (only_readExponent _ _ _).mono Number.inRange_of_isReal
  · exact only_integerOf negative hlimit
  · exact (only_realOf _ _ _).mono Number.inRange_of_isReal

/-! ### Integers are read from their digits -/

/-- What follows a numeral: a character that can be none of it, or nothing. -/
def EndsNumeral (rest : List Char) : Prop := ∀ c ∈ rest.head?, isNumeralChar c = false

theorem le_ofDigitChars (digits : List Char) (n : Nat) : n ≤ Nat.ofDigitChars 10 digits n := by
  rw [Nat.ofDigitChars_eq_ofDigitChars_zero]
  have hpow : 0 < Nat.pow 10 digits.length := Nat.pow_pos (by decide)
  have hmul : 1 * n ≤ Nat.pow 10 digits.length * n := Nat.mul_le_mul_right n hpow
  rw [Nat.one_mul] at hmul
  exact Nat.le_add_right_of_le hmul

/-- Digits are added one by one up to their end, if the number that they write is within the limit. -/
theorem addDigits_append {limit n : Nat} {digits rest : List Char}
    (hdigits : ∀ c ∈ digits, c.isDigit = true) (hrest : ∀ c ∈ rest.head?, c.isDigit = false)
    (hlimit : Nat.ofDigitChars 10 digits n ≤ limit) :
    addDigits limit n (digits ++ rest) = (Nat.ofDigitChars 10 digits n, digits.length) := by
  induction digits generalizing n with
  | nil =>
      cases rest with
      | nil => rfl
      | cons c rest =>
          have hc := hrest c (by simp)
          simp [addDigits, hc, Nat.ofDigitChars_nil]
  | cons c digits ih =>
      have hstep : Nat.ofDigitChars 10 (c :: digits) n =
          Nat.ofDigitChars 10 digits (n * 10 + (c.toNat - '0'.toNat)) := by
        rw [Nat.ofDigitChars_eq_foldl, Nat.ofDigitChars_eq_foldl, List.foldl_cons, Nat.mul_comm 10 n]
      rw [hstep] at hlimit ⊢
      have hle : ¬limit < n * 10 + (c.toNat - '0'.toNat) :=
        Nat.not_lt.2 (Nat.le_trans (le_ofDigitChars digits _) hlimit)
      rw [List.cons_append, addDigits, ih (fun d hd => hdigits d (by simp [hd])) hlimit,
        hdigits c (by simp), decide_eq_false hle]
      rfl

/-- Only zero is written with a zero at the beginning. -/
theorem head?_toDigits_ne {n : Nat} (hn : 0 < n) : (Nat.toDigits 10 n).head? ≠ some '0' := by
  have hsmall : ∀ m < 10, 0 < m → (Nat.toDigits 10 m).head? ≠ some '0' := by decide
  induction n using Nat.strongRecOn with
  | _ n ih =>
      by_cases hlt : n < 10
      · exact hsmall n hlt hn
      · rw [Nat.toDigits_of_base_le (by decide) (by omega), List.head?_append,
          Option.or_of_isSome (by simp [Nat.toDigits_ne_nil])]
        exact ih (n / 10) (by omega) (by omega)

theorem EndsNumeral.isDigit_eq_false {rest : List Char} (h : EndsNumeral rest) :
    ∀ c ∈ rest.head?, c.isDigit = false := by
  intro c hc
  have hnumeral := h c hc
  simp only [isNumeralChar, Bool.or_eq_false_iff] at hnumeral
  exact hnumeral.1.1.1.1.1

theorem reads_readWhole_toDigits {n : Nat} {rest : List Char} (hn : n < Nat.pow 2 64)
    (hrest : EndsNumeral rest) (offset : Nat) :
    readWhole.Reads ⟨Nat.toDigits 10 n ++ rest, offset⟩ n
      ⟨rest, offset + (Nat.toDigits 10 n).length⟩ := by
  have hdigits : ∀ c ∈ Nat.toDigits 10 n, c.isDigit = true := fun c hc =>
    Nat.isDigit_of_mem_toDigits (by decide) (by decide) hc
  obtain ⟨c, digits, hcons⟩ := List.exists_cons_of_ne_nil (Nat.toDigits_ne_nil (n := n) (b := 10))
  have hc : c.isDigit = true := hdigits c (by simp [hcons])
  have hhead : (Nat.toDigits 10 n ++ rest).head? = some c := by simp [hcons]
  rw [readWhole, reads_peek_bind]
  simp only [hhead, hc, Bool.not_true, Bool.false_eq_true, if_false]
  by_cases hzero : n = 0
  · -- a zero must not be followed by a digit
    subst hzero
    obtain ⟨rfl, rfl⟩ : '0' = c ∧ [] = digits := by simpa [Nat.toDigits_zero] using hcons
    rw [if_pos rfl]
    have hany : rest.head?.any Char.isDigit = false := by
      cases hnext : rest.head? with
      | none => rfl
      | some d => exact hrest.isDigit_eq_false d hnext
    refine reads_skip_bind.2 (reads_peek_bind.2 ?_)
    rw [if_neg (by simpa [Input.past, Nat.toDigits_zero] using hany)]
    exact reads_pure.2 ⟨rfl, rfl⟩
  · have hne : c ≠ '0' := by
      rintro rfl
      exact head?_toDigits_ne (Nat.pos_of_ne_zero hzero) (by rw [hcons]; rfl)
    rw [if_neg hne]
    -- the digits are not cut off, since the number has no more than 64 bits
    have hlimit : Nat.ofDigitChars 10 (Nat.toDigits 10 n) 0 ≤ significandLimit := by
      rw [Nat.ofDigitChars_ten_toDigits]
      exact Nat.le_sub_one_of_lt hn
    have hadd := addDigits_append hdigits hrest.isDigit_eq_false hlimit
    rw [Nat.ofDigitChars_ten_toDigits] at hadd
    refine reads_bind_pure.2 ⟨_, reads_readDigits.2 ⟨hadd, ?_⟩, rfl⟩
    simp [Input.past]

/-- A number without a point and an exponent is an integer. -/
theorem reads_readNumber_of_readWhole {negative : Bool} {m : Nat} {n : Number} {i j k : Input}
    (hm : readWhole.Reads i m j) (hend : EndsNumeral j.rest)
    (hn : (integerOf negative m).Reads j n k) : (readNumber negative).Reads i n k := by
  have hdropped : (j.rest.takeWhile Char.isDigit).length = 0 := by
    cases hrest : j.rest with
    | nil => rfl
    | cons c rest =>
        have hc := hend.isDigit_eq_false c (by simp [hrest])
        simp [hc]
  have hmark : ∀ c, isNumeralChar c = true → j.rest.head? ≠ some c := by
    intro c hc hhead
    rw [hend c hhead] at hc
    cases hc
  have hexponent : atExponent.Reads j false j := by
    refine reads_peek_bind.2 (reads_pure.2 ⟨?_, rfl⟩)
    simp [hmark 'e' (by decide), hmark 'E' (by decide)]
  rw [readNumber]
  refine reads_bind.2 ⟨m, j, hm, reads_bind.2 ⟨0, j, reads_skipDigits.2 ⟨hdropped, rfl⟩, ?_⟩⟩
  rw [reads_peek_bind, if_neg (hmark '.' (by decide))]
  exact reads_bind.2 ⟨false, j, hexponent, hn⟩

/-- An integer is read from its digits. -/
theorem reads_readNumber_natural {n : Nat} {rest : List Char} (hn : n < Nat.pow 2 64)
    (hrest : EndsNumeral rest) (offset : Nat) :
    (readNumber false).Reads ⟨Nat.toDigits 10 n ++ rest, offset⟩ (.natural n)
      ⟨rest, offset + (Nat.toDigits 10 n).length⟩ :=
  reads_readNumber_of_readWhole (reads_readWhole_toDigits hn hrest offset) hrest
    (reads_pure.2 ⟨rfl, rfl⟩)

theorem reads_readNumber_negative {n : Nat} {rest : List Char} (hpos : 0 < n) (hn : n ≤ Nat.pow 2 63)
    (hrest : EndsNumeral rest) (offset : Nat) :
    (readNumber true).Reads ⟨Nat.toDigits 10 n ++ rest, offset⟩ (.negative n)
      ⟨rest, offset + (Nat.toDigits 10 n).length⟩ := by
  have hlimit : n < Nat.pow 2 64 := Nat.lt_of_le_of_lt hn (by decide)
  refine reads_readNumber_of_readWhole (reads_readWhole_toDigits hlimit hrest offset) hrest ?_
  have hrange : ¬(n = 0 ∨ Nat.pow 2 63 < n) := by omega
  rw [integerOf, if_neg (by decide), if_neg hrange]
  exact reads_pure.2 ⟨rfl, rfl⟩

/-! ### Strings end behind their closing quotes -/

theorem afterString_escaped (c : Char) (rest : List Char) :
    afterString ('\\' :: c :: rest) = afterString rest := rfl

theorem afterString_cons {c : Char} (hquote : c ≠ '\x22') (hescape : c ≠ '\\') (rest : List Char) :
    afterString (c :: rest) = afterString rest := by
  rw [afterString]
  · exact if_neg hquote
  · exact fun _ _ h _ => hescape h

theorem afterString_append {chars : List Char} (h : ∀ c ∈ chars, c ≠ '\x22' ∧ c ≠ '\\')
    (rest : List Char) : afterString (chars ++ rest) = afterString rest := by
  induction chars with
  | nil => rfl
  | cons c chars ih =>
      obtain ⟨hquote, hescape⟩ := h c (by simp)
      rw [List.cons_append, afterString_cons hquote hescape, ih fun d hd => h d (by simp [hd])]

theorem ne_of_hexValue? {c : Char} {n : Nat} (h : hexValue? c = some n) :
    c ≠ '\x22' ∧ c ≠ '\\' := by
  constructor <;> rintro rfl <;> revert h <;> decide +revert

theorem exists_of_mem_hexNumber? {digits : List Char} {n : Nat} (h : hexNumber? digits = some n) :
    ∀ c ∈ digits, ∃ m, hexValue? c = some m := by
  obtain ⟨values, hvalues, -⟩ := Option.bind_eq_some_iff.1 h
  clear h
  induction digits generalizing values with
  | nil => simp
  | cons c digits ih =>
      rw [List.mapM_cons] at hvalues
      obtain ⟨m, hm, hvalues⟩ := Option.bind_eq_some_iff.1 hvalues
      obtain ⟨rest, hrest, -⟩ := Option.bind_eq_some_iff.1 hvalues
      exact List.forall_mem_cons.2 ⟨⟨m, hm⟩, ih rest hrest⟩

/-- Four digits to the base sixteen hold no quote and no backslash. -/
theorem afterString_readUnit {i j : Input} {n : Nat} (h : readUnit.Reads i n j) :
    afterString i.rest = afterString j.rest := by
  rw [readUnit, reads_get_bind] at h
  dsimp only at h
  split at h
  · obtain ⟨_, _, hthrow, -⟩ := reads_bind.1 h
    exact absurd hthrow not_reads_throw
  · split at h
    · next m hnumber =>
        rw [reads_skip_bind, reads_pure] at h
        obtain ⟨-, rfl⟩ := h
        have hplain : ∀ c ∈ i.rest.take 4, c ≠ '\x22' ∧ c ≠ '\\' := by
          intro c hc
          obtain ⟨m, hm⟩ := exists_of_mem_hexNumber? hnumber c hc
          exact ne_of_hexValue? hm
        calc afterString i.rest
            = afterString (i.rest.take 4 ++ i.rest.drop 4) := by rw [List.take_append_drop]
          _ = afterString (i.past 4).rest := afterString_append hplain _
    · exact absurd h not_reads_throw

theorem rest_of_readPairMark {mark : Char} {i j : Input} {u : Unit}
    (h : (readPairMark mark).Reads i u j) : i.rest = mark :: j.rest := by
  rw [readPairMark, reads_peek_bind] at h
  split at h
  · exact absurd h not_reads_failNext
  · next c hc =>
      split at h
      · next hmark => rw [Input.rest_past_one hc, hmark, reads_skip.1 h]
      · exact absurd h not_reads_failNext

theorem afterString_readUnicode {i j : Input} {c : Char} (h : readUnicode.Reads i c j) :
    afterString i.rest = afterString j.rest := by
  rw [readUnicode] at h
  obtain ⟨n, k, hn, h⟩ := reads_bind.1 h
  rw [afterString_readUnit hn]
  split at h
  · exact absurd h not_reads_failHere
  · split at h
    · obtain ⟨-, rfl⟩ := reads_pure.1 h
      rfl
    · -- the second half of the pair is an escape of its own
      obtain ⟨_, k₁, hmark₁, h⟩ := reads_bind.1 h
      obtain ⟨_, k₂, hmark₂, h⟩ := reads_bind.1 h
      obtain ⟨m, k₃, hm, h⟩ := reads_bind.1 h
      rw [rest_of_readPairMark hmark₁, rest_of_readPairMark hmark₂, afterString_escaped,
        afterString_readUnit hm]
      split at h
      · exact absurd h not_reads_failHere
      · obtain ⟨-, rfl⟩ := reads_pure.1 h
        rfl

theorem afterString_readEscape {i j : Input} {c : Char} (h : readEscape.Reads i c j) :
    afterString ('\\' :: i.rest) = afterString j.rest := by
  rw [readEscape, reads_peek_bind] at h
  split at h
  · exact absurd h not_reads_failNext
  · next hd =>
      rw [Input.rest_past_one hd, afterString_escaped]
      exact afterString_readUnicode (reads_skip_bind.1 h)
  · next hd =>
      split at h
      · rw [reads_skip_bind, reads_pure] at h
        obtain ⟨-, rfl⟩ := h
        rw [Input.rest_past_one hd, afterString_escaped]
      · exact absurd h not_reads_failNext

theorem afterString_readChars {fuel : Nat} {i j : Input} {chars : List Char}
    (h : (readChars fuel).Reads i chars j) : afterString i.rest = j.rest := by
  induction fuel generalizing i chars with
  | zero => exact absurd h not_reads_failNext
  | succ fuel ih =>
      rw [readChars, reads_peek_bind] at h
      split at h
      · exact absurd h not_reads_failNext
      · next c hc =>
          have hrest := Input.rest_past_one hc
          split at h
          · next hquote =>
              rw [reads_skip_bind, reads_pure] at h
              obtain ⟨-, rfl⟩ := h
              rw [hrest, hquote]
              rfl
          · next hquote =>
              split at h
              · next hescape =>
                  obtain ⟨e, k, he, h⟩ := reads_bind.1 (reads_skip_bind.1 h)
                  obtain ⟨chars', hchars, -⟩ := reads_bind_pure.1 h
                  rw [hrest, hescape, afterString_readEscape he, ih hchars]
              · next hescape =>
                  split at h
                  · exact absurd h not_reads_failNext
                  · obtain ⟨_, k, hadvance, h⟩ := reads_bind.1 h
                    obtain ⟨chars', hchars, -⟩ := reads_bind_pure.1 h
                    obtain rfl := (reads_advance hrest).1 hadvance
                    rw [hrest, afterString_cons hquote hescape, ← ih hchars]

/-- Reading a string ends behind its closing quote. -/
theorem afterString_readString {i j : Input} {s : String} (h : readString.Reads i s j) :
    afterString i.rest = j.rest := by
  rw [readString, reads_get_bind] at h
  obtain ⟨chars, hchars, -⟩ := reads_bind_pure.1 h
  exact afterString_readChars hchars

/-! ### The numerals of what is left -/

theorem numerals_quote (rest : List Char) : numerals ('\x22' :: rest) = numerals (afterString rest) := by
  rw [numerals, if_pos rfl]

theorem numerals_cons {c : Char} (hquote : c ≠ '\x22') (hstart : startsNumeral c = false)
    (rest : List Char) : numerals (c :: rest) = numerals rest := by
  rw [numerals, if_neg hquote, if_neg (by simp [hstart])]

theorem numerals_numeral {c : Char} (hstart : startsNumeral c = true) (rest : List Char) :
    numerals (c :: rest) =
      (c :: rest.takeWhile isNumeralChar) :: numerals (rest.dropWhile isNumeralChar) := by
  have hquote : c ≠ '\x22' := by
    rintro rfl
    exact absurd hstart (by decide)
  rw [numerals, if_neg hquote, if_pos hstart]

/-- All numerals of a text write integers of at most 64 bits. -/
def HoldsIntegers (text : List Char) : Prop := ∀ numeral ∈ numerals text, IsIntegerNumeral numeral

theorem endsNumeral_dropWhile (text : List Char) : EndsNumeral (text.dropWhile isNumeralChar) := by
  intro c hc
  have := List.head?_dropWhile_not isNumeralChar text
  rw [Option.mem_def.1 hc] at this
  simpa using this

/-- If all numerals are integers, the number in front is read as an integer up to the end of its
numeral. -/
theorem isInteger_of_readNumber_digit {i j : Input} {c : Char} {n : Number}
    (hc : i.rest.head? = some c) (hdigit : c.isDigit = true) (hall : HoldsIntegers i.rest)
    (h : (readNumber false).Reads i n j) : n.IsInteger ∧ HoldsIntegers j.rest := by
  have hrest := Input.rest_past_one hc
  have hstart : startsNumeral c = true := by simp [startsNumeral, hdigit]
  rw [HoldsIntegers, hrest, numerals_numeral hstart] at hall
  obtain ⟨hfirst, hall⟩ := List.forall_mem_cons.1 hall
  rcases hfirst with ⟨m, hm, hnumeral⟩ | ⟨m, -, -, hnumeral⟩
  · -- what is left starts with the digits of `m`, of which only `m` can be read
    have htext : i.rest = Nat.toDigits 10 m ++ (i.past 1).rest.dropWhile isNumeralChar := by
      rw [← hnumeral, List.cons_append, List.takeWhile_append_dropWhile, ← hrest]
    have hread := reads_readNumber_natural hm (endsNumeral_dropWhile (i.past 1).rest) i.offset
    rw [← htext] at hread
    obtain ⟨rfl, rfl⟩ := h.unique hread
    exact ⟨⟨hm, rfl⟩, hall⟩
  · obtain ⟨rfl, -⟩ := List.cons.inj hnumeral
    cases hdigit

theorem isInteger_of_readNumber_minus {i j : Input} {n : Number}
    (hc : i.rest.head? = some '-') (hall : HoldsIntegers i.rest)
    (h : (readNumber true).Reads (i.past 1) n j) : n.IsInteger ∧ HoldsIntegers j.rest := by
  have hrest := Input.rest_past_one hc
  rw [HoldsIntegers, hrest, numerals_numeral rfl] at hall
  obtain ⟨hfirst, hall⟩ := List.forall_mem_cons.1 hall
  rcases hfirst with ⟨m, hm, hnumeral⟩ | ⟨m, hpos, hm, hnumeral⟩
  · have hdigit : '-'.isDigit = true :=
      Nat.isDigit_of_mem_toDigits (by decide) (by decide) (hnumeral ▸ List.mem_cons_self)
    cases hdigit
  · have htext : (i.past 1).rest =
        Nat.toDigits 10 m ++ (i.past 1).rest.dropWhile isNumeralChar := by
      rw [← (List.cons.inj hnumeral).2, List.takeWhile_append_dropWhile]
    have hread := reads_readNumber_negative hpos hm (endsNumeral_dropWhile (i.past 1).rest)
      (i.past 1).offset
    rw [← htext] at hread
    obtain ⟨rfl, rfl⟩ := h.unique hread
    exact ⟨⟨⟨hpos, hm⟩, rfl⟩, hall⟩

end ImportAtlas.Json
