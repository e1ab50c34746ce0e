import ImportAtlas.Proofs.Json.Values
import ImportAtlas.Workspace.EditorOptions

/-!
# Overrides of editor options

A configuration gives values for some options of the editor. If each of them has the type of its option,
they all count, and the other options keep their defaults. If one of them has not, none of them counts.
What is given under other keys does not matter in either case.

Options can be read from an object if and only if the object has all of their members, so an object says
completely what the options are. Putting the overrides over the members of the defaults and reading the
result is therefore the same as overriding the options one by one.

Main definitions:

* `ImportAtlas.EditorOptions.ValueType` — a text, a flag, or a size of at most 32 bits;
* `ImportAtlas.EditorOptions.types` — the keys of the options, with the types of their values;
* `ImportAtlas.EditorOptions.WellTyped` — all values that are given for options have their types;
* `ImportAtlas.EditorOptions.overridden` — the defaults, overridden one by one.

Main results:

* `ImportAtlas.EditorOptions.ofFields?_eq_some_iff` — when options are read from an object;
* `ImportAtlas.EditorOptions.ofFields?_merge`, `ImportAtlas.EditorOptions.wellTyped_of_ofFields?` — the
  overrides can be read if and only if they are well typed;
* `ImportAtlas.EditorOptions.overrides_all_or_nothing` — **all overrides count, or none**.
-/

set_option autoImplicit false

namespace ImportAtlas

/-! ### Members that are set one after the other -/

namespace Json.Fields

theorem get?_eq_none_iff {fields : Fields} {key : String} :
    fields.get? key = none ↔ key ∉ fields.map Prod.fst := by
  induction fields with
  | nil => simp [get?]
  | cons field rest ih =>
      rw [get?_cons, List.map_cons, List.mem_cons, not_or, ← ih]
      by_cases hkey : key = field.1
      · simp [hkey]
      · rw [if_neg hkey, and_iff_right hkey]

theorem get?_eq_some_of_mem {fields : Fields} (h : (fields.map Prod.fst).Nodup) {key : String}
    {value : Json} (hmem : (key, value) ∈ fields) : fields.get? key = some value := by
  induction fields with
  | nil => cases hmem
  | cons field rest ih =>
      obtain ⟨hfirst, hrest⟩ := List.nodup_cons.1 h
      rw [get?_cons]
      rcases List.mem_cons.1 hmem with rfl | hmem
      · rw [if_pos rfl]
      · have hne : key ≠ field.1 := by
          rintro rfl
          exact hfirst (List.mem_map.2 ⟨_, hmem, rfl⟩)
        rw [if_neg hne, ih hrest hmem]

/-- Members are set if their keys are admitted. Each of these keys has then the value that is given for
it, or else the one that it had before. -/
theorem get?_foldl_insert {given : Fields} (h : (given.map Prod.fst).Nodup) (admitted : String → Prop)
    [DecidablePred admitted] (fields : Fields) (key : String) (hkey : admitted key) :
    (given.foldl (fun fields m => if admitted m.1 then fields.insert m.1 m.2 else fields)
      fields).get? key = (given.get? key).or (fields.get? key) := by
  induction given generalizing fields with
  | nil => rfl
  | cons m rest ih =>
      obtain ⟨hfirst, hrest⟩ := List.nodup_cons.1 h
      rw [List.foldl_cons, ih hrest, get?_cons]
      by_cases hm : key = m.1
      · -- no later member has this key
        subst hm
        rw [get?_eq_none_iff.2 hfirst, if_pos hkey, if_pos rfl, get?_insert, if_pos rfl]
        rfl
      · have hold : (if admitted m.1 then fields.insert m.1 m.2 else fields).get? key =
            fields.get? key := by
          split
          · rw [get?_insert, if_neg hm]
          · rfl
        rw [hold, if_neg hm]

theorem get?_ofList {given : Fields} (h : (given.map Prod.fst).Nodup) (key : String) :
    (ofList given).get? key = given.get? key := by
  have hget := get?_foldl_insert h (fun _ => True) [] key trivial
  simp only [if_true] at hget
  rw [ofList, hget]
  cases given.get? key <;> rfl

theorem inOrder_ofList (given : List (String × Json)) : (ofList given).InOrder := by
  have hfold : ∀ fields : Fields, fields.InOrder →
      InOrder (given.foldl (fun fields m => insert m.1 m.2 fields) fields) := by
    induction given with
    | nil => exact fun fields h => h
    | cons m rest ih => exact fun fields h => ih _ (h.insert m.1 m.2)
  exact hfold [] .nil

end Json.Fields

namespace EditorOptions

open Json (Fields)

/-! ### Reading options -/

theorem text?_eq_some_iff {value : Json} {s : String} : text? value = some s ↔ value = .string s := by
  cases value <;> simp [text?]

theorem flag?_eq_some_iff {value : Json} {b : Bool} : flag? value = some b ↔ value = .bool b := by
  cases value <;> simp [flag?]

theorem size?_eq_some_iff {value : Json} {n : UInt32} :
    size? value = some n ↔ value = .number (.natural n.toNat) := by
  constructor
  · intro h
    unfold size? at h
    split at h
    · next m =>
        split at h
        · next hm =>
            obtain rfl := Option.some.inj h
            rw [UInt32.toNat_ofNat_of_lt' hm]
        · cases h
    · cases h
  · rintro rfl
    rw [size?, if_pos n.toNat_lt, UInt32.ofNat_toNat]

/-- Options are read from an object if and only if it has all of their members. -/
theorem ofFields?_eq_some_iff {fields : Fields} {o : EditorOptions} :
    ofFields? fields = some o ↔ ∀ m ∈ o.members, fields.get? m.1 = some m.2 := by
  simp only [ofFields?, Option.bind_eq_bind, Option.pure_def, Option.bind_eq_some_iff, text?_eq_some_iff,
    flag?_eq_some_iff, size?_eq_some_iff, exists_eq_right, Option.some.injEq, members,
    List.forall_mem_cons, List.not_mem_nil, false_implies, implies_true, and_true]
  constructor
  · rintro ⟨_, h₁, _, h₂, _, h₃, _, h₄, _, h₅, _, h₆, _, h₇, _, h₈, _, h₉, _, h₁₀, rfl⟩
    exact ⟨h₁, h₂, h₃, h₄, h₅, h₆, h₇, h₈, h₉, h₁₀⟩
  · rintro ⟨h₁, h₂, h₃, h₄, h₅, h₆, h₇, h₈, h₉, h₁₀⟩
    exact ⟨_, h₁, _, h₂, _, h₃, _, h₄, _, h₅, _, h₆, _, h₇, _, h₈, _, h₉, _, h₁₀, rfl⟩

/-! ### The types of the options -/

/-- What the value of an option may be. -/
inductive ValueType where
  | text
  | flag
  /-- A width or a position. -/
  | size
deriving DecidableEq, Repr

/-- The value is a text, is on or off, or is an integer from 0 to 4294967295. -/
inductive HasType : Json → ValueType → Prop
  | text (s : String) : HasType (.string s) .text
  | flag (b : Bool) : HasType (.bool b) .flag
  | size {n : Nat} (small : n < 4294967296) : HasType (.number (.natural n)) .size

/-- Whether a value can be read as one of the type. -/
def ValueType.reads : ValueType → Json → Bool
  | .text, value => (text? value).isSome
  | .flag, value => (flag? value).isSome
  | .size, value => (size? value).isSome

theorem hasType_iff {value : Json} {type : ValueType} :
    HasType value type ↔ type.reads value = true := by
  constructor
  · intro h
    cases h with
    | text s => rfl
    | flag b => rfl
    | size hsmall => exact Option.isSome_iff_exists.2 ⟨_, if_pos hsmall⟩
  · intro h
    cases type with
    | text =>
        obtain ⟨s, hs⟩ := Option.isSome_iff_exists.1 h
        rw [text?_eq_some_iff.1 hs]
        exact .text s
    | flag =>
        obtain ⟨b, hb⟩ := Option.isSome_iff_exists.1 h
        rw [flag?_eq_some_iff.1 hb]
        exact .flag b
    | size =>
        obtain ⟨n, hn⟩ := Option.isSome_iff_exists.1 h
        rw [size?_eq_some_iff.1 hn]
        exact .size n.toNat_lt

instance (value : Json) (type : ValueType) : Decidable (HasType value type) :=
  decidable_of_iff _ hasType_iff.symm

/-- The keys of the options, and the types of their values. -/
def types : List (String × ValueType) := [
  ("style", .text),
  ("auto-indent", .flag),
  ("indent-width", .size),
  ("tab-width", .size),
  ("insert-spaces-instead-of-tabs", .flag),
  ("highlight-current-line", .flag),
  ("show-right-margin", .flag),
  ("right-margin-position", .size),
  ("show-line-numbers", .flag),
  ("smart-backspace", .flag)]

theorem map_fst_members (o : EditorOptions) : o.members.map Prod.fst = types.map Prod.fst := rfl

theorem nodup_members (o : EditorOptions) : (o.members.map Prod.fst).Nodup := by
  rw [map_fst_members]
  decide

/-- Every option has a value of its type. -/
theorem exists_member (o : EditorOptions) {t : String × ValueType} (ht : t ∈ types) :
    ∃ value, (t.1, value) ∈ o.members ∧ HasType value t.2 := by
  have hsize : ∀ n : UInt32, HasType (.number (.natural n.toNat)) .size := fun n => .size n.toNat_lt
  simp only [types, List.mem_cons, List.not_mem_nil, or_false] at ht
  rcases ht with rfl | rfl | rfl | rfl | rfl | rfl | rfl | rfl | rfl | rfl
  all_goals simp [members, hsize, HasType.text, HasType.flag]

theorem exists_type {o : EditorOptions} {m : String × Json} (hm : m ∈ o.members) :
    ∃ t ∈ types, t.1 = m.1 := by
  have hkey : m.1 ∈ types.map Prod.fst := map_fst_members o ▸ List.mem_map_of_mem hm
  exact List.mem_map.1 hkey

/-! ### Members of the options -/

theorem get?_toFields {o : EditorOptions} {m : String × Json} (hm : m ∈ o.members) :
    o.toFields.get? m.1 = some m.2 := by
  rw [toFields, Fields.get?_ofList (nodup_members o)]
  exact Fields.get?_eq_some_of_mem (nodup_members o) hm

theorem mem_keys {t : String × ValueType} (ht : t ∈ types) : t.1 ∈ keys := by
  obtain ⟨value, hmem, -⟩ := exists_member {} ht
  by_contra hkey
  have hnone := Fields.get?_eq_none_iff.2 hkey
  rw [get?_toFields hmem] at hnone
  cases hnone

/-- What options are read as depends on the members with their keys only. -/
theorem ofFields?_congr {fields fields' : Fields}
    (h : ∀ t ∈ types, fields'.get? t.1 = fields.get? t.1) : ofFields? fields' = ofFields? fields := by
  refine Option.ext fun o => ?_
  rw [ofFields?_eq_some_iff, ofFields?_eq_some_iff]
  refine forall₂_congr fun m hm => ?_
  obtain ⟨t, ht, hkey⟩ := exists_type hm
  rw [← hkey, h t ht]

/-- Options have the members that they were read from. -/
theorem get?_toFields_of_ofFields? {fields : Fields} {o : EditorOptions} (h : ofFields? fields = some o)
    {t : String × ValueType} (ht : t ∈ types) : o.toFields.get? t.1 = fields.get? t.1 := by
  obtain ⟨value, hmem, -⟩ := exists_member o ht
  rw [get?_toFields hmem, ofFields?_eq_some_iff.1 h _ hmem]

/-! ### Overrides -/

/-- The overrides are put over the defaults, option by option. -/
theorem get?_merge {o : Fields} (h : o.InOrder) {t : String × ValueType} (ht : t ∈ types) :
    (merge o).value.get? t.1 = (o.get? t.1).or ((toFields {}).get? t.1) := by
  rw [← Fields.get?_foldl_insert h.nodup_keys (· ∈ keys) _ _ (mem_keys ht), merge, Logged.value_foldlM]
  congr 2
  funext fields m
  -- a key that is no option is written to the log, and nothing else becomes of it
  dsimp only
  split <;> rfl

theorem value_withOverrides (o : Fields) :
    (withOverrides o).value = (ofFields? (merge o).value).getD {} := by
  rw [withOverrides, Logged.value_bind]
  cases ofFields? (merge o).value <;> rfl

/-- All values that are given for options have the types of these. -/
def WellTyped (o : Fields) : Prop := ∀ t ∈ types, ∀ value ∈ o.get? t.1, HasType value t.2

instance (o : Fields) : Decidable (WellTyped o) :=
  inferInstanceAs (Decidable (∀ t ∈ types, ∀ value ∈ o.get? t.1, HasType value t.2))

/-- The value that is given for an option, or else its default. -/
def given {α : Type} (read : Json → Option α) (o : Fields) (key : String) (default : α) : α :=
  ((o.get? key).bind read).getD default

/-- The defaults, with each option overridden for which a value is given. -/
def overridden (o : Fields) : EditorOptions where
  style := given text? o "style" "solarized-light"
  autoIndent := given flag? o "auto-indent" true
  indentWidth := given size? o "indent-width" 4
  tabWidth := given size? o "tab-width" 4
  insertSpacesInsteadOfTabs := given flag? o "insert-spaces-instead-of-tabs" true
  highlightCurrentLine := given flag? o "highlight-current-line" true
  showRightMargin := given flag? o "show-right-margin" true
  rightMarginPosition := given size? o "right-margin-position" 80
  showLineNumbers := given flag? o "show-line-numbers" true
  smartBackspace := given flag? o "smart-backspace" true

/-- If what is given for an option has its type, the member for it is what is given, or else the default;
in either case it is the value that the option gets, written down. -/
theorem get?_merge_given {α : Type} {read : Json → Option α} {write : α → Json} {type : ValueType}
    (hread : ∀ {value x}, read value = some x ↔ value = write x)
    (hreads : ∀ value, type.reads value = (read value).isSome) {o : Fields} (h : o.InOrder)
    (htyped : WellTyped o) {key : String} {default : α} (hkey : (key, type) ∈ types)
    (hdefault : (key, write default) ∈ members {}) :
    (merge o).value.get? key = some (write (given read o key default)) := by
  rw [get?_merge h hkey, get?_toFields hdefault, given]
  cases hvalue : o.get? key with
  | none => rfl
  | some value =>
      have hsome := hasType_iff.1 (htyped _ hkey value hvalue)
      rw [hreads] at hsome
      obtain ⟨x, hx⟩ := Option.isSome_iff_exists.1 hsome
      rw [Option.bind_some, hx, hread.1 hx]
      rfl

/-- Overrides that are well typed can be read. -/
theorem ofFields?_merge {o : Fields} (h : o.InOrder) (htyped : WellTyped o) :
    ofFields? (merge o).value = some (overridden o) := by
  have htext := @get?_merge_given _ _ _ .text text?_eq_some_iff (fun _ => rfl) o h htyped
  have hflag := @get?_merge_given _ _ _ .flag flag?_eq_some_iff (fun _ => rfl) o h htyped
  have hsize := @get?_merge_given _ _ _ .size size?_eq_some_iff (fun _ => rfl) o h htyped
  rw [ofFields?_eq_some_iff]
  simp only [members, List.forall_mem_cons, List.not_mem_nil, false_implies, implies_true, and_true]
  refine ⟨htext ?_ ?_, hflag ?_ ?_, hsize ?_ ?_, hsize ?_ ?_, hflag ?_ ?_, hflag ?_ ?_, hflag ?_ ?_,
    hsize ?_ ?_, hflag ?_ ?_, hflag ?_ ?_⟩
  all_goals simp [types, members]

/-- Overrides that can be read are well typed. -/
theorem wellTyped_of_ofFields? {o : Fields} (h : o.InOrder) {e : EditorOptions}
    (he : ofFields? (merge o).value = some e) : WellTyped o := by
  intro t ht value hvalue
  -- what was read for the option is of its type, and it is what is given
  obtain ⟨own, hmem, htype⟩ := exists_member e ht
  have hget := ofFields?_eq_some_iff.1 he _ hmem
  rw [get?_merge h ht, Option.mem_def.1 hvalue, Option.some_or] at hget
  rwa [Option.some.inj hget]

/-- What is read from the members of options is these options. -/
theorem ofFields?_merge_toFields (e : EditorOptions) : ofFields? (merge e.toFields).value = some e := by
  rw [ofFields?_eq_some_iff]
  intro m hm
  obtain ⟨t, ht, hkey⟩ := exists_type hm
  have horder : e.toFields.InOrder := Fields.inOrder_ofList _
  rw [← hkey, get?_merge horder ht, hkey, get?_toFields hm, Option.some_or]

/-- **All overrides count, or none.** If all values that are given for options have the types of these, the
result is the defaults with each of these options replaced; written as an object, it has the given values,
and those of the defaults for all other options. If one of the values has another type, the result is the
defaults. What is given under other keys has no effect. Options that are written and given as overrides
are the same again, and so is the result of any overrides. -/
theorem overrides_all_or_nothing {o : Fields} (h : o.InOrder) :
    (WellTyped o → (withOverrides o).value = overridden o ∧
        ∀ t ∈ types, (withOverrides o).value.toFields.get? t.1 =
          (o.get? t.1).or ((toFields {}).get? t.1)) ∧
      (¬WellTyped o → (withOverrides o).value = {}) ∧
      (∀ o' : Fields, o'.InOrder → (∀ t ∈ types, o'.get? t.1 = o.get? t.1) →
        (withOverrides o').value = (withOverrides o).value) ∧
      (∀ e : EditorOptions, (withOverrides e.toFields).value = e) ∧
      (withOverrides (withOverrides o).value.toFields).value = (withOverrides o).value := by
  have hwritten : ∀ e : EditorOptions, (withOverrides e.toFields).value = e := by
    intro e
    rw [value_withOverrides, ofFields?_merge_toFields]
    rfl
  refine ⟨?_, ?_, ?_, hwritten, hwritten _⟩
  · intro htyped
    have hread := ofFields?_merge h htyped
    have hvalue : (withOverrides o).value = overridden o := by
      rw [value_withOverrides, hread]
      rfl
    refine ⟨hvalue, fun t ht => ?_⟩
    rw [hvalue, get?_toFields_of_ofFields? hread ht, get?_merge h ht]
  · intro htyped
    rw [value_withOverrides]
    cases hread : ofFields? (merge o).value with
    | none => rfl
    | some e => exact absurd (wellTyped_of_ofFields? h hread) htyped
  · intro o' h' hagree
    rw [value_withOverrides, value_withOverrides]
    congr 1
    refine ofFields?_congr fun t ht => ?_
    rw [get?_merge h' ht, get?_merge h ht, hagree t ht]

/-- Overrides of a width, a flag and the style, and a key that is no option. -/
def sampleOverrides : Fields :=
  [("auto-indent", .bool false), ("no-such-option", .null), ("style", .string "dark"),
    ("tab-width", .number (.natural 4294967295))]

/-- The same with a width that is too large by one. -/
def strayOverrides : Fields :=
  sampleOverrides.insert "indent-width" (.number (.natural 4294967296))

theorem sampleOverrides_all_or_nothing :
    sampleOverrides.InOrder ∧ strayOverrides.InOrder ∧
      WellTyped sampleOverrides ∧ ¬WellTyped strayOverrides ∧
      (withOverrides sampleOverrides).value =
        { style := "dark", autoIndent := false, tabWidth := 4294967295 } ∧
      (withOverrides strayOverrides).value = {} := by
  have h : sampleOverrides.InOrder := by decide
  have h' : strayOverrides.InOrder := by decide
  have htyped : WellTyped sampleOverrides := by decide
  have hstray : ¬WellTyped strayOverrides := by decide
  obtain ⟨hall, -⟩ := overrides_all_or_nothing h
  obtain ⟨-, hnothing, -⟩ := overrides_all_or_nothing h'
  exact ⟨h, h', htyped, hstray, (hall htyped).1, hnothing hstray⟩

end EditorOptions

end ImportAtlas
