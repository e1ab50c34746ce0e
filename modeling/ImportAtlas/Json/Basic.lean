import ImportAtlas.Decimal.Double

/-!
# JSON values

The members of an object are kept in the order of their keys, and each key occurs once.

Main definitions:

* `ImportAtlas.Json` — a value;
* `ImportAtlas.Json.Fields` — the members of an object;
* `ImportAtlas.Json.Fields.insert`, `ImportAtlas.Json.Fields.get?` — setting and getting a member.

Main results:

* `ImportAtlas.Json.Fields.get?_insert` — what a member is after another one was set.
-/

set_option autoImplicit false

namespace ImportAtlas

/-- A number of a document. -/
inductive Json.Number where
  | natural (n : Nat)
  /-- The number `-n`. -/
  | negative (n : Nat)
  | real (x : Double)
deriving DecidableEq, Repr

/-- A value. -/
inductive Json where
  | null
  | bool (b : Bool)
  | number (n : Json.Number)
  | string (s : String)
  | array (items : List Json)
  | object (fields : List (String × Json))
deriving Repr, Inhabited

namespace Json

mutual

/-- Decides whether two values are the same. -/
def decEq : (a b : Json) → Decidable (a = b)
  | .null, .null => isTrue rfl
  | .bool a, .bool b => decidable_of_iff (a = b) (by simp)
  | .number a, .number b => decidable_of_iff (a = b) (by simp)
  | .string a, .string b => decidable_of_iff (a = b) (by simp)
  | .array a, .array b =>
      match decEqItems a b with
      | isTrue h => isTrue (by rw [h])
      | isFalse h => isFalse (by simpa using h)
  | .object a, .object b =>
      match decEqFields a b with
      | isTrue h => isTrue (by rw [h])
      | isFalse h => isFalse (by simpa using h)
  | .null, .bool _ | .null, .number _ | .null, .string _ | .null, .array _ | .null, .object _
  | .bool _, .null | .bool _, .number _ | .bool _, .string _ | .bool _, .array _
  | .bool _, .object _
  | .number _, .null | .number _, .bool _ | .number _, .string _ | .number _, .array _
  | .number _, .object _
  | .string _, .null | .string _, .bool _ | .string _, .number _ | .string _, .array _
  | .string _, .object _
  | .array _, .null | .array _, .bool _ | .array _, .number _ | .array _, .string _
  | .array _, .object _
  | .object _, .null | .object _, .bool _ | .object _, .number _ | .object _, .string _
  | .object _, .array _ => isFalse (by simp)

/-- Decides whether two lists of values are the same. -/
def decEqItems : (a b : List Json) → Decidable (a = b)
  | [], [] => isTrue rfl
  | [], _ :: _ | _ :: _, [] => isFalse (by simp)
  | x :: a, y :: b =>
      match decEq x y, decEqItems a b with
      | isTrue h, isTrue i => isTrue (by rw [h, i])
      | isFalse h, _ => isFalse (by simp [h])
      | _, isFalse i => isFalse (by simp [i])

/-- Decides whether two lists of members are the same. -/
def decEqFields : (a b : List (String × Json)) → Decidable (a = b)
  | [], [] => isTrue rfl
  | [], _ :: _ | _ :: _, [] => isFalse (by simp)
  | (k, x) :: a, (l, y) :: b =>
      match decEq x y, decEqFields a b with
      | isTrue h, isTrue i =>
          if j : k = l then isTrue (by rw [h, i, j]) else isFalse (by simp [j])
      | isFalse h, _ => isFalse (by simp [h])
      | _, isFalse i => isFalse (by simp [i])

end

instance : DecidableEq Json := decEq

/-- The members of an object, in the order of their keys. -/
abbrev Fields := List (String × Json)

namespace Fields

/-- Sets a member, in place of one with the same key. -/
def insert (key : String) (value : Json) : Fields → Fields
  | [] => [(key, value)]
  | (k, v) :: rest =>
      match compare key k with
      | .lt => (key, value) :: (k, v) :: rest
      | .eq => (key, value) :: rest
      | .gt => (k, v) :: insert key value rest

/-- The value of a member. -/
def get? (fields : Fields) (key : String) : Option Json := fields.lookup key

/-- The members that are set one after the other. -/
def ofList (members : List (String × Json)) : Fields :=
  members.foldl (fun fields m => insert m.1 m.2 fields) []

/-- Looking past a member with another key. -/
theorem get?_cons (fields : Fields) (k other : String) (v : Json) :
    get? ((k, v) :: fields) other = if other = k then some v else fields.get? other := by
  by_cases h : other = k
  · simp [get?, h]
  · have hb : (other == k) = false := by simpa using h
    simp [get?, List.lookup_cons, hb, h]

theorem get?_insert (fields : Fields) (key other : String) (value : Json) :
    (insert key value fields).get? other =
      if other = key then some value else fields.get? other := by
  induction fields with
  | nil => simp [insert, get?_cons]
  | cons field rest ih =>
      obtain ⟨k, v⟩ := field
      unfold insert
      split
      · simp only [get?_cons]
      · next h =>
          have hk := Std.LawfulEqOrd.eq_of_compare h
          subst hk
          simp only [get?_cons]
          split <;> rfl
      · next h =>
          simp only [get?_cons, ih]
          by_cases hk : other = k
          · subst hk
            have : other ≠ key := by
              rintro rfl
              simp at h
            simp [this]
          · simp [hk]

end Fields

end Json

end ImportAtlas
