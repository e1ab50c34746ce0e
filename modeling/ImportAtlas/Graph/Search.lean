/-!
# Searching backwards

A search looks at elements one after the other. At each of them it takes note of the elements before
it that it has not seen yet, and these are looked at later, the last one first. Where it starts is not
counted as seen, unless the search comes back there.

Main definitions:

* `ImportAtlas.Search` — the elements to be looked at, and those that were seen;
* `ImportAtlas.Search.step`, `ImportAtlas.Search.run` — looking at one element, and at some.
-/

set_option autoImplicit false

namespace ImportAtlas

/-- The elements that are still to be looked at, the next one first, and those that were seen. -/
structure Search (α : Type) where
  todo : List α
  seen : List α := []
deriving DecidableEq, Repr

namespace Search

variable {α : Type} [DecidableEq α]

/-- Takes note of an element, unless it was seen before. -/
def note (x : Search α) (a : α) : Search α :=
  if a ∈ x.seen then x else ⟨a :: x.todo, a :: x.seen⟩

/-- Looks at the next element, and takes note of those before it. -/
def step (before : α → List α) (x : Search α) : Search α :=
  match x.todo with
  | [] => x
  | a :: todo => (before a).foldl note ⟨todo, x.seen⟩

/-- The search after some steps. -/
def run (before : α → List α) : Nat → Search α → Search α
  | 0, x => x
  | n + 1, x => run before n (x.step before)

end Search

end ImportAtlas
