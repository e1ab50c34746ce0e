import ImportAtlas.Proofs.Json.Numerals
import ImportAtlas.Proofs.Order

/-!
# The values of documents

What is read as a value is well formed: its numbers are in range, the members of its objects are in the
order of their keys, and its arrays and objects are not too deep. If the document has a property at each
place at which a value may start or end, and the property tells something of the numbers, then that holds
of all numbers of the value.

Main definitions:

* `ImportAtlas.Json.Fields.InOrder` — members in the order of their keys;
* `ImportAtlas.Json.Fits` — the values of limited depth whose numbers have a property;
* `ImportAtlas.Json.numbers` — the numbers in a value;
* `ImportAtlas.Json.Invariant` — a property of what is left of a document, and one of its numbers;
* `ImportAtlas.Json.parseMembers` — the members of a document one after the other.

Main results:

* `ImportAtlas.Json.Fields.InOrder.insert`, `ImportAtlas.Json.Fields.insert_eq_append` — setting a member
  keeps the order, and puts one with a greater key at the end;
* `ImportAtlas.Json.Invariant.readValue` — **what is read as a value is well formed**;
* `ImportAtlas.Json.invariant_inRange`, `ImportAtlas.Json.invariant_isInteger` — the properties of
  documents in general, and of those in which all numerals write integers;
* `ImportAtlas.Json.parse_of_parseMembers` — of members with one key the last one counts.
-/

set_option autoImplicit false

namespace ImportAtlas.Json

/-! ### Members in order -/

namespace Fields

/-- The keys of the members are in order, and no key occurs twice. -/
def InOrder (fields : Fields) : Prop := fields.Pairwise fun a b => compare a.1 b.1 = .lt

instance (fields : Fields) : Decidable fields.InOrder :=
  inferInstanceAs (Decidable (List.Pairwise _ _))

theorem mem_insert {fields : Fields} {key : String} {value : Json} {field : String × Json}
    (h : field ∈ insert key value fields) : field = (key, value) ∨ field ∈ fields := by
  induction fields with
  | nil => simpa [insert] using h
  | cons first rest ih =>
      obtain ⟨k, v⟩ := first
      rw [insert] at h
      split at h
      · simpa using h
      · rcases List.mem_cons.1 h with h | h
        · exact .inl h
        · exact .inr (List.mem_cons_of_mem _ h)
      · rcases List.mem_cons.1 h with h | h
        · exact .inr (h ▸ List.mem_cons_self)
        · exact (ih h).imp_right (List.mem_cons_of_mem _)

/-- Setting a member keeps the order. -/
theorem InOrder.insert {fields : Fields} (h : fields.InOrder) (key : String) (value : Json) :
    (fields.insert key value).InOrder := by
  induction fields with
  | nil => exact List.pairwise_singleton _ _
  | cons first rest ih =>
      obtain ⟨k, v⟩ := first
      obtain ⟨hk, hrest⟩ := List.pairwise_cons.1 h
      rw [Fields.insert]
      split
      · next hlt =>
          refine List.pairwise_cons.2 ⟨?_, h⟩
          intro field hfield
          rcases List.mem_cons.1 hfield with rfl | hfield
          · exact hlt
          · exact Std.TransCmp.lt_trans hlt (hk field hfield)
      · next heq =>
          obtain rfl := Std.LawfulEqOrd.eq_of_compare heq
          exact List.pairwise_cons.2 ⟨hk, hrest⟩
      · next hgt =>
          refine List.pairwise_cons.2 ⟨?_, ih hrest⟩
          intro field hfield
          rcases mem_insert hfield with rfl | hfield
          · exact Std.OrientedCmp.lt_of_gt hgt
          · exact hk field hfield

/-- A member with a greater key than all others comes to the end. -/
theorem insert_eq_append {fields : Fields} {key : String} (h : ∀ field ∈ fields, compare field.1 key = .lt)
    (value : Json) : fields.insert key value = fields ++ [(key, value)] := by
  induction fields with
  | nil => rfl
  | cons first rest ih =>
      obtain ⟨k, v⟩ := first
      have hgt : compare key k = .gt := Std.OrientedCmp.gt_of_lt (h (k, v) (by simp))
      rw [insert, hgt]
      dsimp only
      rw [ih fun field hfield => h field (by simp [hfield])]
      rfl

theorem InOrder.nodup_keys {fields : Fields} (h : fields.InOrder) : (fields.map Prod.fst).Nodup := by
  refine List.pairwise_map.2 (h.imp ?_)
  intro a b hlt heq
  exact Order.compare_self_ne_lt b.1 (heq ▸ hlt)

end Fields

/-! ### Well-formed values -/

/-- All numbers of a value have a property, the members of its objects are in order, and at most
`depth` arrays and objects are inside each other. -/
def Fits (N : Number → Prop) : Nat → Json → Prop
  | _, .number n => N n
  | 0, .array _ => False
  | 0, .object _ => False
  | depth + 1, .array items => ∀ item ∈ items, Fits N depth item
  | depth + 1, .object fields => Fields.InOrder fields ∧ ∀ field ∈ fields, Fits N depth field.2
  | _, _ => True

/-- Members are in order, and their values are well formed. -/
def Fields.Fit (N : Number → Prop) (depth : Nat) (fields : Fields) : Prop :=
  fields.InOrder ∧ ∀ field ∈ fields, Fits N depth field.2

/-- Whether a value is well formed can be decided if the property of its numbers can be. -/
instance decidableFits (N : Number → Prop) [DecidablePred N] :
    (depth : Nat) → (value : Json) → Decidable (Fits N depth value)
  | 0, .number n | _ + 1, .number n => inferInstanceAs (Decidable (N n))
  | 0, .array _ | 0, .object _ => inferInstanceAs (Decidable False)
  | depth + 1, .array items =>
      have := decidableFits N depth
      inferInstanceAs (Decidable (∀ item ∈ items, Fits N depth item))
  | depth + 1, .object fields =>
      have := decidableFits N depth
      inferInstanceAs (Decidable (Fields.InOrder fields ∧ ∀ field ∈ fields, Fits N depth field.2))
  | 0, .null | _ + 1, .null | 0, .bool _ | _ + 1, .bool _ | 0, .string _ | _ + 1, .string _ =>
      inferInstanceAs (Decidable True)

namespace Fields

variable {N : Number → Prop} {depth : Nat}

theorem fit_nil (N : Number → Prop) (depth : Nat) : Fit N depth [] := ⟨List.Pairwise.nil, by simp⟩

theorem Fit.insert {fields : Fields} (h : fields.Fit N depth) (key : String) {value : Json}
    (hvalue : Fits N depth value) : (fields.insert key value).Fit N depth := by
  refine ⟨h.1.insert key value, fun field hfield => ?_⟩
  rcases mem_insert hfield with rfl | hfield
  · exact hvalue
  · exact h.2 field hfield

end Fields

mutual

/-- The numbers in a value. -/
def numbers : Json → List Number
  | .number n => [n]
  | .array items => numbersOfItems items
  | .object fields => numbersOfFields fields
  | _ => []

/-- The numbers in some values. -/
def numbersOfItems : List Json → List Number
  | [] => []
  | item :: rest => item.numbers ++ numbersOfItems rest

/-- The numbers in the values of some members. -/
def numbersOfFields : List (String × Json) → List Number
  | [] => []
  | (_, value) :: rest => value.numbers ++ numbersOfFields rest

end

theorem mem_numbersOfItems {items : List Json} {n : Number} :
    n ∈ numbersOfItems items ↔ ∃ item ∈ items, n ∈ item.numbers := by
  induction items with
  | nil => simp [numbersOfItems]
  | cons item rest ih => simp [numbersOfItems, ih]

theorem mem_numbersOfFields {fields : List (String × Json)} {n : Number} :
    n ∈ numbersOfFields fields ↔ ∃ field ∈ fields, n ∈ field.2.numbers := by
  induction fields with
  | nil => simp [numbersOfFields]
  | cons field rest ih => simp [numbersOfFields, ih]

/-- In a well-formed value without floating point numbers, all numbers are integers. -/
theorem Fits.isInteger {depth : Nat} {value : Json} (h : Fits Number.InRange depth value)
    (hreal : ∀ n ∈ value.numbers, n.isReal = false) : Fits Number.IsInteger depth value := by
  induction depth generalizing value with
  | zero =>
      cases value with
      | number n => exact ⟨h, hreal n (by simp [numbers])⟩
      | array items => exact h
      | object fields => exact h
      | null => trivial
      | bool b => trivial
      | string s => trivial
  | succ depth ih =>
      cases value with
      | number n => exact ⟨h, hreal n (by simp [numbers])⟩
      | array items =>
          intro item hitem
          refine ih (h item hitem) fun n hn => hreal n ?_
          exact mem_numbersOfItems.2 ⟨item, hitem, hn⟩
      | object fields =>
          refine ⟨h.1, fun field hfield => ih (h.2 field hfield) fun n hn => hreal n ?_⟩
          exact mem_numbersOfFields.2 ⟨field, hfield, hn⟩
      | null => trivial
      | bool b => trivial
      | string s => trivial

/-! ### Reading keeps invariants -/

/-- A property of what is left of a document, wherever a value may start or end, that tells something of
the numbers: it is kept by characters that start no string and no numeral, by strings and by numbers. -/
structure Invariant (I : List Char → Prop) (N : Number → Prop) : Prop where
  mark : ∀ {c : Char} {rest : List Char}, c ≠ '\x22' → startsNumeral c = false → I (c :: rest) → I rest
  string : ∀ {i j : Input} {s : String}, readString.Reads i s j → I ('\x22' :: i.rest) → I j.rest
  digit : ∀ {i j : Input} {c : Char} {n : Number}, i.rest.head? = some c → c.isDigit = true →
    (readNumber false).Reads i n j → I i.rest → N n ∧ I j.rest
  minus : ∀ {i j : Input} {n : Number}, i.rest.head? = some '-' →
    (readNumber true).Reads (i.past 1) n j → I i.rest → N n ∧ I j.rest

/-- In general, numbers are in range. -/
theorem invariant_inRange : Invariant (fun _ => True) Number.InRange where
  mark _ _ _ := trivial
  string _ _ := trivial
  digit _ _ h _ := ⟨only_readNumber _ _ _ _ h, trivial⟩
  minus _ h _ := ⟨only_readNumber _ _ _ _ h, trivial⟩

/-- If all numerals write integers, numbers are integers. -/
theorem invariant_isInteger : Invariant HoldsIntegers Number.IsInteger where
  mark hquote hstart h := by rwa [HoldsIntegers, numerals_cons hquote hstart] at h
  string hs h := by rwa [HoldsIntegers, numerals_quote, afterString_readString hs] at h
  digit hc hdigit h hall := isInteger_of_readNumber_digit hc hdigit hall h
  minus hc h hall := isInteger_of_readNumber_minus hc hall h

namespace Invariant

variable {I : List Char → Prop} {N : Number → Prop} (hI : Invariant I N)

include hI

theorem past_one {i : Input} {c : Char} (hc : i.rest.head? = some c) (hquote : c ≠ '\x22')
    (hstart : startsNumeral c = false) (h : I i.rest) : I (i.past 1).rest := by
  rw [Input.rest_past_one hc] at h
  exact hI.mark hquote hstart h

theorem trimmed {i : Input} (h : I i.rest) : I i.trimmed.rest := by
  rw [Input.rest_trimmed]
  generalize i.rest = text at h
  induction text with
  | nil => exact h
  | cons c rest ih =>
      rw [List.dropWhile_cons]
      split
      · next hblank =>
          have hmark : c ≠ '\x22' ∧ startsNumeral c = false := by
            simp only [isBlank, Bool.or_eq_true, beq_iff_eq] at hblank
            rcases hblank with ((rfl | rfl) | rfl) | rfl <;> decide
          exact ih (hI.mark hmark.1 hmark.2 h)
      · exact h

theorem begins {closing : Char} {first : Bool} {i j : Input} (hb : Begins closing first i j)
    (h : I i.rest) : I j.rest := by
  rcases hb.1 with ⟨-, rfl⟩ | ⟨-, hcomma, rfl⟩
  · exact hI.trimmed h
  · exact hI.trimmed (hI.past_one hcomma (by decide) (by decide) (hI.trimmed h))

theorem readWord {word : List Char} (hword : ∀ c ∈ word, c ≠ '\x22' ∧ startsNumeral c = false)
    {i j : Input} (hr : (readWord word).Reads i () j) (h : I i.rest) : I j.rest := by
  rw [rest_of_readWord hr] at h
  clear hr
  induction word with
  | nil => exact h
  | cons c word ih =>
      obtain ⟨hc, hword⟩ := List.forall_mem_cons.1 hword
      exact ih hword (hI.mark hc.1 hc.2 h)

theorem readColon {i j : Input} (hr : readColon.Reads i () j) (h : I i.rest) : I j.rest := by
  obtain ⟨hcolon, rfl⟩ := reads_readColon.1 hr
  exact hI.past_one hcolon (by decide) (by decide) (hI.trimmed h)

/-- Items that have a property make arrays whose items have it. -/
theorem readItems {α : Type} {item : Reader α} {P : α → Prop}
    (hitem : ∀ {i a j}, item.Reads i a j → I i.rest → P a ∧ I j.rest) {fuel : Nat} {first : Bool}
    {i j : Input} {items : List α} (hr : (readItems item fuel first).Reads i items j) (h : I i.rest) :
    (∀ a ∈ items, P a) ∧ I j.rest := by
  induction fuel generalizing first i items with
  | zero => exact absurd hr not_reads_failNext
  | succ fuel ih =>
      rcases reads_readItems_succ.1 hr with ⟨hend, rfl, rfl⟩ | ⟨k, a, n, rest, hb, ha, hrest, rfl⟩
      · exact ⟨by simp, hI.past_one hend (by decide) (by decide) (hI.trimmed h)⟩
      · obtain ⟨hPa, hn⟩ := hitem ha (hI.begins hb h)
        obtain ⟨hall, hj⟩ := ih hrest hn
        exact ⟨List.forall_mem_cons.2 ⟨hPa, hall⟩, hj⟩

/-- What is collected from an object has a property that each member keeps. -/
theorem readMembers {σ : Type} {member : σ → String → Reader σ} {P : σ → Prop}
    (hmember : ∀ {state key i next j}, (member state key).Reads i next j → P state → I i.rest →
      P next ∧ I j.rest)
    {fuel : Nat} {first : Bool} {i j : Input} {state result : σ}
    (hr : (readMembers member fuel first state).Reads i result j) (hstate : P state) (h : I i.rest) :
    P result ∧ I j.rest := by
  induction fuel generalizing first i state with
  | zero => exact absurd hr not_reads_failNext
  | succ fuel ih =>
      rcases reads_readMembers_succ.1 hr with
        ⟨hend, rfl, rfl⟩ | ⟨k, key, m, next, n, hb, hquote, hkey, hnext, hrest⟩
      · exact ⟨hstate, hI.past_one hend (by decide) (by decide) (hI.trimmed h)⟩
      · have hk := hI.begins hb h
        rw [Input.rest_past_one hquote] at hk
        obtain ⟨hPnext, hn⟩ := hmember hnext hstate (hI.string hkey hk)
        exact ih hrest hPnext hn

theorem readField {depth : Nat}
    (hvalue : ∀ {i v j}, (readValue depth).Reads i v j → I i.rest → Fits N (depth - 1) v ∧ I j.rest)
    {fields next : Fields} {key : String} {i j : Input}
    (hr : (readField depth fields key).Reads i next j) (hfields : fields.Fit N (depth - 1))
    (h : I i.rest) : next.Fit N (depth - 1) ∧ I j.rest := by
  obtain ⟨k, v, hcolon, hv, rfl⟩ := reads_readColon_bind_pure.1 hr
  obtain ⟨hfits, hm⟩ := hvalue hv (hI.readColon hcolon h)
  exact ⟨hfields.insert key hfits, hm⟩

/-- What is read as a value is well formed. -/
theorem readValue {depth : Nat} {i j : Input} {v : Json} (hr : (readValue depth).Reads i v j)
    (h : I i.rest) : Fits N (depth - 1) v ∧ I j.rest := by
  induction depth generalizing i j v with
  | zero => exact absurd hr not_reads_failNext
  | succ depth ih =>
      have ht := hI.trimmed h
      cases reads_readValue_succ.1 hr with
      | word hmem hc hword =>
          simp only [words, List.mem_cons, List.not_mem_nil, or_false, Prod.mk.injEq] at hmem
          rcases hmem with ⟨rfl, rfl, rfl⟩ | ⟨rfl, rfl, rfl⟩ | ⟨rfl, rfl, rfl⟩
          all_goals
            have hplain := hI.past_one hc (by decide) (by decide) ht
            have hrest := hI.readWord (by simp [startsNumeral]) hword hplain
            exact ⟨by unfold Fits; trivial, hrest⟩
      | negative hc hn =>
          obtain ⟨hn, hj⟩ := hI.minus hc hn ht
          exact ⟨by unfold Fits; trivial, hj⟩
      | number hc hdigit hn =>
          obtain ⟨hn, hj⟩ := hI.digit hc hdigit hn ht
          exact ⟨by unfold Fits; trivial, hj⟩
      | string hc hs =>
          rw [Input.rest_past_one hc] at ht
          exact ⟨by unfold Fits; trivial, hI.string hs ht⟩
      | array hdepth hc hitems =>
          obtain ⟨depth, rfl⟩ := Nat.exists_eq_succ_of_ne_zero hdepth
          exact hI.readItems ih (reads_withFuel.1 hitems) (hI.past_one hc (by decide) (by decide) ht)
      | object hdepth hc hfields =>
          obtain ⟨depth, rfl⟩ := Nat.exists_eq_succ_of_ne_zero hdepth
          exact hI.readMembers (P := Fields.Fit N depth) (hI.readField ih) (reads_withFuel.1 hfields)
            (Fields.fit_nil N depth) (hI.past_one hc (by decide) (by decide) ht)

end Invariant

/-! ### The members of a document -/

/-- Reads a member of a document behind those before it, also if its key has occurred. -/
def collect (members : List (String × Json)) (key : String) : Reader (List (String × Json)) := do
  readColon
  return members ++ [(key, ← readValue (depthLimit - 1))]

/-- The members of a document that is an object, one after the other. -/
def parseMembers (text : String) : Except Error (List (String × Json)) :=
  parseWith (readTyped '\x7b' "a map" (withFuel fun fuel => readMembers collect fuel true [])) text

theorem reads_collect {members result : List (String × Json)} {key : String} {i j : Input} :
    (collect members key).Reads i result j ↔
      ∃ k value, readColon.Reads i () k ∧ (readValue (depthLimit - 1)).Reads k value j ∧
        result = members ++ [(key, value)] := by
  rw [collect, reads_readColon_bind_pure]
  simp only [eq_comm (b := result)]

theorem parseMembers_eq_ok_iff {text : String} {members : List (String × Json)} :
    parseMembers text = .ok members ↔
      ∃ i j, i = (⟨text.toList, 0⟩ : Input).trimmed ∧ i.rest.head? = some '\x7b' ∧
        (readMembers collect ((i.past 1).rest.length + 1) true []).Reads (i.past 1) members j ∧
        j.trimmed.rest = [] := by
  rw [parseMembers, parseWith_eq_ok_iff]
  simp only [reads_readTyped, reads_withFuel]
  constructor
  · rintro ⟨j, ⟨hstart, hmembers⟩, hend⟩
    exact ⟨_, j, rfl, hstart, hmembers, hend⟩
  · rintro ⟨_, j, rfl, hstart, hmembers, hend⟩
    exact ⟨j, ⟨hstart, hmembers⟩, hend⟩

/-- The value of a document has the members of the document; of those with one key, the last one. -/
theorem parse_of_parseMembers {text : String} {members : List (String × Json)}
    (h : parseMembers text = .ok members) : parse text = .ok (.object (Fields.ofList members)) := by
  obtain ⟨_, j, rfl, hstart, hmembers, hend⟩ := parseMembers_eq_ok_iff.1 h
  have hstep : ∀ members fields key i next k, fields = Fields.ofList members →
      (collect members key).Reads i next k → ∃ fields', fields' = Fields.ofList next ∧
        (readField (depthLimit - 1) fields key).Reads i fields' k := by
    rintro members _ key i next k rfl hnext
    obtain ⟨k', value, hcolon, hvalue, rfl⟩ := reads_collect.1 hnext
    refine ⟨_, rfl, reads_readColon_bind_pure.2 ⟨k', value, hcolon, hvalue, ?_⟩⟩
    rw [Fields.ofList, Fields.ofList, List.foldl_append]
    rfl
  obtain ⟨fields, rfl, hfields⟩ := readMembers_simulation
    (R := fun members fields => fields = Fields.ofList members) hstep rfl hmembers
  -- the limit is written as a successor, for which there are rules
  have hvalue :
      (readValue (depthLimit - 1 + 1)).Reads ⟨text.toList, 0⟩ (.object (Fields.ofList members)) j :=
    reads_readValue_succ.2 (.object (by decide) hstart (reads_withFuel.2 hfields))
  exact parseWith_eq_ok_iff.2 ⟨j, hvalue, hend⟩

/-- The values of the members are well formed. -/
theorem fits_of_parseMembers {I : List Char → Prop} {N : Number → Prop} (hI : Invariant I N)
    {text : String} {members : List (String × Json)} (h : parseMembers text = .ok members)
    (htext : I text.toList) : ∀ member ∈ members, Fits N (depthLimit - 2) member.2 := by
  obtain ⟨_, j, rfl, hstart, hmembers, -⟩ := parseMembers_eq_ok_iff.1 h
  have hrest := hI.past_one hstart (by decide) (by decide) (hI.trimmed htext)
  refine (hI.readMembers (P := fun members => ∀ member ∈ members, Fits N (depthLimit - 2) member.2)
    ?_ hmembers (by simp) hrest).1
  intro members key i next j hnext hall hi
  obtain ⟨k, value, hcolon, hvalue, rfl⟩ := reads_collect.1 hnext
  obtain ⟨hfits, hj⟩ := hI.readValue hvalue (hI.readColon hcolon hi)
  refine ⟨fun member hmember => ?_, hj⟩
  rcases List.mem_append.1 hmember with hmember | hmember
  · exact hall member hmember
  · rw [List.mem_singleton.1 hmember]
    exact hfits

end ImportAtlas.Json
