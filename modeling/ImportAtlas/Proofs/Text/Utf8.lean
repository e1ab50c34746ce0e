import ImportAtlas.Text.Utf8

/-!
# Texts are read back from their bytes

Main results:

* `ImportAtlas.Text.charAt_utf8EncodeChar` — the bytes of a character start with the character, whatever
  follows;
* `ImportAtlas.Text.decode?_encode`, `ImportAtlas.Text.decodeLossy_encode` — **the bytes of a text are read
  as the text**.
-/

set_option autoImplicit false

namespace ImportAtlas.Text

theorem toNat_ofNat {n : Nat} (h : n < 256) : (UInt8.ofNat n).toNat = n :=
  Nat.mod_eq_of_lt h

/-- A byte that lies between two others, told by numbers. -/
theorem between_iff {low high : UInt8} {n : Nat} (h : n < 256) :
    (decide (low ≤ UInt8.ofNat n) && decide (UInt8.ofNat n ≤ high)) = true ↔
      low.toNat ≤ n ∧ n ≤ high.toNat := by
  rw [Bool.and_eq_true, decide_eq_true_iff, decide_eq_true_iff, UInt8.le_iff_toNat_le,
    UInt8.le_iff_toNat_le, toNat_ofNat h]

theorem isContinuation_ofNat (n : Nat) : isContinuation (UInt8.ofNat (n % 64 + 128)) = true :=
  (between_iff (by omega)).2 ⟨Nat.le_add_left _ _, Nat.le_of_lt_succ (by show _ < 192; omega)⟩

theorem payload_ofNat (n : Nat) : payload (UInt8.ofNat (n % 64 + 128)) = n % 64 := by
  rw [payload, toNat_ofNat (by omega)]
  omega

/-- The second byte of a character of more than two bytes: what the first byte asks for in particular is
that the character could not be written with fewer bytes, that it is no half of a pair and that it is not
too great. -/
theorem isSecond_ofNat {first n : Nat} (hfirst : first < 256) (hlow : first = 0xe0 → 32 ≤ n % 64)
    (hpair : first = 0xed → n % 64 < 32) (hshort : first = 0xf0 → 16 ≤ n % 64)
    (hgreat : first = 0xf4 → n % 64 < 16) :
    isSecond (UInt8.ofNat first) (UInt8.ofNat (n % 64 + 128)) = true := by
  have heq : ∀ b : UInt8, (UInt8.ofNat first == b) = true ↔ first = b.toNat := by
    intro b
    rw [beq_iff_eq, ← UInt8.toNat_inj, toNat_ofNat hfirst]
  unfold isSecond
  split
  · next h => exact (between_iff (by omega)).2 (by have := hlow ((heq _).1 h); simp; omega)
  split
  · next h => exact (between_iff (by omega)).2 (by have := hpair ((heq _).1 h); simp; omega)
  split
  · next h => exact (between_iff (by omega)).2 (by have := hshort ((heq _).1 h); simp; omega)
  split
  · next h => exact (between_iff (by omega)).2 (by have := hgreat ((heq _).1 h); simp; omega)
  · exact isContinuation_ofNat n

theorem not_lt_ofNat {a : Nat} (ha : a < 256) (h : 128 ≤ a) : ¬UInt8.ofNat a < 0x80 := by
  rw [UInt8.lt_iff_toNat_lt, toNat_ofNat ha]
  exact Nat.not_lt.2 h

theorem charAt_one {a : Nat} (h : a < 128) (rest : List UInt8) :
    charAt (UInt8.ofNat a :: rest) = (some (Char.ofNat a), 1) := by
  have hlt : UInt8.ofNat a < 0x80 := by
    rw [UInt8.lt_iff_toNat_lt, toNat_ofNat (by omega)]
    exact h
  rw [charAt.eq_def]
  dsimp only
  rw [if_pos hlt, toNat_ofNat (by omega)]

theorem charAt_two {a : Nat} (h : 0xc2 ≤ a ∧ a ≤ 0xdf) (n : Nat) (rest : List UInt8) :
    charAt (UInt8.ofNat a :: UInt8.ofNat (n % 64 + 128) :: rest) =
      (some (Char.ofNat (a % 32 * 64 + n % 64)), 2) := by
  have ha : a < 256 := by omega
  have htwo : (decide (0xc2 ≤ UInt8.ofNat a) && decide (UInt8.ofNat a ≤ 0xdf)) = true :=
    (between_iff ha).2 h
  rw [charAt.eq_def]
  dsimp only
  rw [if_neg (not_lt_ofNat ha (by omega)), if_pos htwo, if_pos (isContinuation_ofNat n), toNat_ofNat ha,
    payload_ofNat]

theorem charAt_three {a m : Nat} (h : 0xe0 ≤ a ∧ a ≤ 0xef) (hlow : a = 0xe0 → 32 ≤ m % 64)
    (hpair : a = 0xed → m % 64 < 32) (n : Nat) (rest : List UInt8) :
    charAt (UInt8.ofNat a :: UInt8.ofNat (m % 64 + 128) :: UInt8.ofNat (n % 64 + 128) :: rest) =
      (some (Char.ofNat (a % 16 * 4096 + m % 64 * 64 + n % 64)), 3) := by
  have ha : a < 256 := by omega
  have htwo : ¬(decide (0xc2 ≤ UInt8.ofNat a) && decide (UInt8.ofNat a ≤ 0xdf)) = true := by
    rw [between_iff ha]
    simp
    omega
  have hthree : (decide (0xe0 ≤ UInt8.ofNat a) && decide (UInt8.ofNat a ≤ 0xef)) = true :=
    (between_iff ha).2 h
  rw [charAt.eq_def]
  dsimp only
  rw [if_neg (not_lt_ofNat ha (by omega)), if_neg htwo, if_pos hthree,
    if_pos (isSecond_ofNat ha hlow hpair (by omega) (by omega)), if_pos (isContinuation_ofNat n),
    toNat_ofNat ha, payload_ofNat, payload_ofNat]

theorem charAt_four {a k : Nat} (h : 0xf0 ≤ a ∧ a ≤ 0xf4) (hshort : a = 0xf0 → 16 ≤ k % 64)
    (hgreat : a = 0xf4 → k % 64 < 16) (m n : Nat) (rest : List UInt8) :
    charAt (UInt8.ofNat a :: UInt8.ofNat (k % 64 + 128) :: UInt8.ofNat (m % 64 + 128) ::
        UInt8.ofNat (n % 64 + 128) :: rest) =
      (some (Char.ofNat (a % 8 * 262144 + k % 64 * 4096 + m % 64 * 64 + n % 64)), 4) := by
  have ha : a < 256 := by omega
  have htwo : ¬(decide (0xc2 ≤ UInt8.ofNat a) && decide (UInt8.ofNat a ≤ 0xdf)) = true := by
    rw [between_iff ha]
    simp
    omega
  have hthree : ¬(decide (0xe0 ≤ UInt8.ofNat a) && decide (UInt8.ofNat a ≤ 0xef)) = true := by
    rw [between_iff ha]
    simp
    omega
  have hfour : (decide (0xf0 ≤ UInt8.ofNat a) && decide (UInt8.ofNat a ≤ 0xf4)) = true :=
    (between_iff ha).2 h
  rw [charAt.eq_def]
  dsimp only
  rw [if_neg (not_lt_ofNat ha (by omega)), if_neg htwo, if_neg hthree, if_pos hfour,
    if_pos (isSecond_ofNat ha (by omega) (by omega) hshort hgreat), if_pos (isContinuation_ofNat m),
    if_pos (isContinuation_ofNat n), toNat_ofNat ha, payload_ofNat, payload_ofNat, payload_ofNat]

/-- The bytes of a character start with the character. -/
theorem charAt_utf8EncodeChar (c : Char) (rest : List UInt8) :
    charAt (String.utf8EncodeChar c ++ rest) = (some c, (String.utf8EncodeChar c).length) := by
  have hvalid : c.toNat < 55296 ∨ 57343 < c.toNat ∧ c.toNat < 1114112 := c.valid
  have hself := Char.ofNat_toNat c
  have hval : c.val.toNat = c.toNat := rfl
  unfold String.utf8EncodeChar
  simp only [hval]
  -- the cases are those of the number of bytes, and the rest is arithmetic with the code point
  generalize c.toNat = v at hvalid hself
  subst hself
  split
  · exact charAt_one (by omega) rest
  split
  · have hbits : (v / 64 % 32 + 192) % 32 * 64 + v % 64 = v := by omega
    rw [List.cons_append, List.cons_append, charAt_two (by omega), hbits]
    rfl
  split
  · have hbits : (v / 4096 % 16 + 224) % 16 * 4096 + v / 64 % 64 * 64 + v % 64 = v := by omega
    rw [List.cons_append, List.cons_append, List.cons_append,
      charAt_three (by omega) (by omega) (by omega), hbits]
    rfl
  · have hbits : (v / 262144 % 8 + 240) % 8 * 262144 + v / 4096 % 64 * 4096 + v / 64 % 64 * 64 +
        v % 64 = v := by omega
    rw [List.cons_append, List.cons_append, List.cons_append, List.cons_append,
      charAt_four (by omega) (by omega) (by omega), hbits]
    rfl

theorem one_le_length_utf8EncodeChar (c : Char) : 1 ≤ (String.utf8EncodeChar c).length := by
  rw [String.length_utf8EncodeChar]
  exact c.utf8Size_pos

/-- With enough steps, the bytes of some characters are read as the characters. -/
theorem decodeWith_flatMap {chars : List Char} {fuel : Nat}
    (h : (chars.flatMap String.utf8EncodeChar).length ≤ fuel) :
    decodeWith fuel (chars.flatMap String.utf8EncodeChar) = chars.map some := by
  induction chars generalizing fuel with
  | nil => cases fuel <;> rfl
  | cons c chars ih =>
      have hone := one_le_length_utf8EncodeChar c
      rw [List.flatMap_cons, List.length_append] at h
      obtain ⟨fuel, rfl⟩ := Nat.exists_eq_succ_of_ne_zero (n := fuel) (by omega)
      rw [List.flatMap_cons, decodeWith, charAt_utf8EncodeChar]
      · dsimp only
        rw [List.drop_left, ih (by omega), List.map_cons]
      · intro hnil
        rw [(List.append_eq_nil_iff.1 hnil).1] at hone
        exact absurd hone (by decide)

/-- The bytes of a text are read as the text. -/
theorem decode?_encode (s : String) : decode? (encode s) = some s := by
  have hmap : (s.toList.map some).mapM id = some s.toList := by
    induction s.toList with
    | nil => rfl
    | cons c chars ih => simp [List.mapM_cons, ih]
  rw [decode?, encode, decodeWith_flatMap (Nat.le_refl _), hmap, Option.map_some, String.ofList_toList]

/-- Nothing is replaced in the bytes of a text. -/
theorem decodeLossy_encode (s : String) : decodeLossy (encode s) = s := by
  rw [decodeLossy, encode, decodeWith_flatMap (Nat.le_refl _), List.map_map]
  simp [Function.comp_def]

/-- The bytes of a text start with a dot if and only if the text does. -/
theorem head?_encode_eq_dot_iff (s : String) :
    (encode s).head? = some 0x2e ↔ s.toList.head? = some '.' := by
  rw [encode]
  cases s.toList with
  | nil => simp
  | cons c chars =>
      rw [List.flatMap_cons, List.head?_cons, Option.some_inj]
      constructor
      · intro h
        obtain ⟨rest, hrest⟩ := List.head?_eq_some_iff.1 h
        have hchar := charAt_utf8EncodeChar c (chars.flatMap String.utf8EncodeChar)
        have hdot : charAt (0x2e :: rest) = (some '.', 1) := rfl
        rw [hrest, hdot] at hchar
        exact (Option.some.inj (congrArg Prod.fst hchar)).symm
      · rintro rfl
        rfl

end ImportAtlas.Text
