/-!
# Logs

Operations report what they do as a list of entries, which is returned beside their result. Nothing
else depends on it.

Main definitions:

* `ImportAtlas.LogEntry` — a level and a message;
* `ImportAtlas.Logged` — a result with the entries that were written on the way to it.
-/

set_option autoImplicit false

namespace ImportAtlas

/-- How much an entry matters. -/
inductive LogLevel where
  | error
  | warn
  | info
  | debug
  | trace
deriving DecidableEq, Repr

/-- An entry of a log. -/
structure LogEntry where
  level : LogLevel
  message : String
deriving DecidableEq, Repr

/-- A result with the entries that were written on the way to it. -/
structure Logged (α : Type) where
  value : α
  log : List LogEntry := []
deriving DecidableEq, Repr

namespace Logged

/-- Entries are written one after the other. -/
instance : Monad Logged where
  pure a := ⟨a, []⟩
  bind x f := ⟨(f x.value).value, x.log ++ (f x.value).log⟩

variable {α β : Type}

@[simp] theorem value_pure (a : α) : (pure a : Logged α).value = a := rfl

@[simp] theorem log_pure (a : α) : (pure a : Logged α).log = [] := rfl

@[simp] theorem value_bind (x : Logged α) (f : α → Logged β) :
    (x >>= f).value = (f x.value).value := rfl

@[simp] theorem log_bind (x : Logged α) (f : α → Logged β) :
    (x >>= f).log = x.log ++ (f x.value).log := rfl

/-- The value of a fold is the fold of the values. -/
theorem value_foldlM (f : β → α → Logged β) (l : List α) (b : β) :
    (l.foldlM f b).value = l.foldl (fun b a => (f b a).value) b := by
  induction l generalizing b with
  | nil => rfl
  | cons a l ih => rw [List.foldlM_cons, value_bind, ih, List.foldl_cons]

/-- Writes one entry. -/
def write (level : LogLevel) (message : String) : Logged Unit := ⟨(), [⟨level, message⟩]⟩

end Logged

end ImportAtlas
