import ExerciseDoc.Entries
import ExerciseDoc.Number.Binary64

/-!
# Value — document values

A document value is null, a boolean, a whole or a binary64 number, text, a list
or a mapping from text to values. A mapping is its entries in ascending order of
their keys, read and written with `Entries.get?` and `Entries.insert`. `Value.get?`
is the view of a value along a path of keys.
-/

namespace ExerciseDoc

/-- A document value. -/
inductive Value where
  | null
  | bool (b : Bool)
  | int (n : Int)
  | float (x : Binary64)
  | text (s : String)
  | list (items : List Value)
  | mapping (entries : List (String × Value))
  deriving Repr, Inhabited

/-- Values by key. -/
abbrev Mapping := Entries Value

namespace Mapping

/-- Whether a key is present. -/
def contains (m : Mapping) (key : String) : Bool :=
  (m.get? key).isSome

/-- The mapping of a list of entries; of entries with one key the last wins. -/
def ofEntries (entries : List (String × Value)) : Mapping :=
  entries.foldl (fun m e => Entries.insert m e.1 e.2) []

end Mapping

namespace Value

/-! ## The view along a path -/

/-- The value at a path of keys, each step into a mapping. -/
def get? : Value → List String → Option Value
  | v, [] => some v
  | .mapping entries, key :: rest => (Entries.get? entries key).bind fun v => get? v rest
  | _, _ :: _ => none

/-! ## Nesting -/

mutual

/-- The number of containers on the deepest way into a value. -/
def nesting : Value → Nat
  | .list items => nestingOfItems items + 1
  | .mapping entries => nestingOfEntries entries + 1
  | .null => 0
  | .bool _ => 0
  | .int _ => 0
  | .float _ => 0
  | .text _ => 0

def nestingOfItems : List Value → Nat
  | [] => 0
  | v :: rest => max (nesting v) (nestingOfItems rest)

def nestingOfEntries : List (String × Value) → Nat
  | [] => 0
  | (_, v) :: rest => max (nesting v) (nestingOfEntries rest)

end

end Value

end ExerciseDoc
