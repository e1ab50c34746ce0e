import ImportAtlas.Json.Error
import ImportAtlas.Log

/-!
# Editor options

The options of the editor have fixed defaults. A workspace may override them one by one, but if one
of the values has not the type of its option, none of them counts.

Main definitions:

* `ImportAtlas.EditorOptions` — the options;
* `ImportAtlas.EditorOptions.toFields`, `ImportAtlas.EditorOptions.ofFields?` — the options as
  members of an object;
* `ImportAtlas.EditorOptions.withOverrides` — the defaults with overrides.
-/

set_option autoImplicit false

namespace ImportAtlas

/-- The options of the editor. -/
structure EditorOptions where
  style : String := "solarized-light"
  autoIndent : Bool := true
  indentWidth : UInt32 := 4
  tabWidth : UInt32 := 4
  insertSpacesInsteadOfTabs : Bool := true
  highlightCurrentLine : Bool := true
  showRightMargin : Bool := true
  rightMarginPosition : UInt32 := 80
  showLineNumbers : Bool := true
  smartBackspace : Bool := true
deriving DecidableEq, Repr, Inhabited

namespace EditorOptions

/-- The keys of the options with their values. -/
def members (o : EditorOptions) : List (String × Json) := [
  ("style", .string o.style),
  ("auto-indent", .bool o.autoIndent),
  ("indent-width", .number (.natural o.indentWidth.toNat)),
  ("tab-width", .number (.natural o.tabWidth.toNat)),
  ("insert-spaces-instead-of-tabs", .bool o.insertSpacesInsteadOfTabs),
  ("highlight-current-line", .bool o.highlightCurrentLine),
  ("show-right-margin", .bool o.showRightMargin),
  ("right-margin-position", .number (.natural o.rightMarginPosition.toNat)),
  ("show-line-numbers", .bool o.showLineNumbers),
  ("smart-backspace", .bool o.smartBackspace)]

/-- The options as members of an object. -/
def toFields (o : EditorOptions) : Json.Fields := .ofList o.members

/-- The value of an option that is a text. -/
def text? : Json → Option String
  | .string s => some s
  | _ => none

/-- The value of an option that is on or off. -/
def flag? : Json → Option Bool
  | .bool b => some b
  | _ => none

/-- The value of an option that is a width or a position: an integer of at most 32 bits. -/
def size? : Json → Option UInt32
  | .number (.natural n) => if n < Nat.pow 2 32 then some (.ofNat n) else none
  | _ => none

/-- The options that the members of an object give, if all of them are there with their types. -/
def ofFields? (fields : Json.Fields) : Option EditorOptions := do
  return {
    style := ← fields.get? "style" >>= text?
    autoIndent := ← fields.get? "auto-indent" >>= flag?
    indentWidth := ← fields.get? "indent-width" >>= size?
    tabWidth := ← fields.get? "tab-width" >>= size?
    insertSpacesInsteadOfTabs := ← fields.get? "insert-spaces-instead-of-tabs" >>= flag?
    highlightCurrentLine := ← fields.get? "highlight-current-line" >>= flag?
    showRightMargin := ← fields.get? "show-right-margin" >>= flag?
    rightMarginPosition := ← fields.get? "right-margin-position" >>= size?
    showLineNumbers := ← fields.get? "show-line-numbers" >>= flag?
    smartBackspace := ← fields.get? "smart-backspace" >>= flag? }

/-- Why a value is not taken for an option with the given default, if it is not. -/
def refusal? (default value : Json) : Option String :=
  match default, value with
  | .string _, .string _ => none
  | .string _, _ => some (Json.Cause.describe (.wrongType value.found "a string"))
  | .bool _, .bool _ => none
  | .bool _, _ => some (Json.Cause.describe (.wrongType value.found "a boolean"))
  | _, .number (.real _) => some (Json.Cause.describe (.wrongType value.found "u32"))
  | _, .number _ =>
      if (size? value).isSome then none
      else some ("invalid value: " ++ value.found.describe ++ ", expected u32")
  | _, _ => some (Json.Cause.describe (.wrongType value.found "u32"))

/-- Why the members of an object do not give the options, if they do not: what is wrong with the first
of them, in the order of the keys, whose value is not taken. -/
def fault? (fields : Json.Fields) : Option String :=
  fields.findSome? fun (key, value) => do refusal? (← (toFields {}).get? key) value

/-- The keys of the options. -/
def keys : List String := (toFields {}).map (·.1)

/-- The defaults with overrides put over them; keys that are no options are passed over. -/
def merge (overrides : Json.Fields) : Logged Json.Fields :=
  overrides.foldlM (fun fields (key, value) => do
    if key ∈ keys then return fields.insert key value
    else
      .write .debug s!"Ignoring unknown editor option: {key}"
      return fields) (toFields {})

/-- The defaults with overrides, or the defaults alone if a value has not the type of its option. -/
def withOverrides (overrides : Json.Fields) : Logged EditorOptions := do
  let fields ← merge overrides
  match ofFields? fields with
  | some options => return options
  | none =>
      let reason := (fault? fields).getD ""
      .write .warn s!"Invalid editor options in config, using defaults: {reason}"
      return {}

end EditorOptions

end ImportAtlas
