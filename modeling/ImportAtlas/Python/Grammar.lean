import ImportAtlas.Python.Grammar.Pattern
import ImportAtlas.Python.Grammar.Statement

/-!
# The grammar

The rules of all goals, tied together, and the tree of a source.

Main definitions:

* `ImportAtlas.Python.rule` — the rule of each goal, given the rules of all goals;
* `ImportAtlas.Python.rulesWith` — the rules with a bound on how deep constructs nest;
* `ImportAtlas.Python.Tree.ofSource` — the tree of a source; a source outside the grammar has an
  error node where reading failed.
-/

set_option autoImplicit false

namespace ImportAtlas.Python

/-- The rule of each goal, given the rules of the constructs inside. -/
def rule (rules : Rules) : Rules
  | .expression x => expression rules x
  | .chain x => chain rules x
  | .simple x => simple rules x
  | .iterand x => iterand rules x
  | .typeForm x colon => typeForm rules x colon
  | .replacement => replacement rules
  | .pattern x => pattern rules x
  | .key => patternKey rules
  | .statements module => statements rules module

/-- The rules for constructs that nest at most so deep. -/
def rulesWith : Nat → Rules
  | 0 => fun _ => Reader.refuse
  | depth + 1 => fun goal => rule (rulesWith depth) goal

@[simp] theorem rulesWith_succ (depth : Nat) (goal : Goal) :
    rulesWith (depth + 1) goal = rule (rulesWith depth) goal := rfl

/-- A bound on how deep the constructs of a source nest: a chain of goals without a character between
them is shorter than four. -/
def depthBound (source : List Char) : Nat := 4 * source.length + 8

/-- Reads a whole source. -/
def readSource (source : List Char) : Except Failure (List Tree) :=
  let start := Stream.fetch { string := true } (Cursor.ofChars source)
  (rulesWith (depthBound source) (.statements true) start).map fun r => r.1.trees

/-- The tree of a source. A source outside the grammar has one error node, at the token where reading
failed. -/
def Tree.ofSource (source : List Char) : Tree :=
  match readSource source with
  | .ok trees => .inner .plain ⟨0, 0⟩ trees
  | .error failure => .inner .plain ⟨0, 0⟩ [.leaf .error failure.pos ""]

end ImportAtlas.Python
