import ExerciseDoc.Number.Decimal
import ExerciseDoc.Value.Basic

/-!
# Json — writing

Two forms of one text: `compact` without any blank, and `pretty` with one entry a
line, indented by two spaces. Both write the entries of a mapping in the order in
which they stand, so a document's keys come out ascending and a report's fields in
the order chosen by the report. Characters below U+0020, the quote and the
backslash are escaped, and nothing else is.
-/

namespace ExerciseDoc.Json

/-! ## Leaves -/

/-- Numbers between `10 ^ -5` and `10 ^ 16` are written positionally. -/
def numberLayout : Decimal.Layout := ⟨-5, 15⟩

/-- A character inside a string. -/
def escapedChar (c : Char) : List Char :=
  if c = '"' then ['\\', '"']
  else if c = '\\' then ['\\', '\\']
  else if c = '\x08' then ['\\', 'b']
  else if c = '\x0c' then ['\\', 'f']
  else if c = '\n' then ['\\', 'n']
  else if c = '\r' then ['\\', 'r']
  else if c = '\t' then ['\\', 't']
  else if c.toNat < 0x20 then
    ['\\', 'u', '0', '0', Nat.digitChar (c.toNat / 16), Nat.digitChar (c.toNat % 16)]
  else [c]

def stringText (s : String) : List Char :=
  '"' :: s.toList.flatMap escapedChar ++ ['"']

def boolText (b : Bool) : List Char :=
  if b then ['t', 'r', 'u', 'e'] else ['f', 'a', 'l', 's', 'e']

/-! ## Compact -/

mutual

/-- The text of a value without blanks. -/
def compact : Value → List Char
  | .null => ['n', 'u', 'l', 'l']
  | .bool b => boolText b
  | .int n => Decimal.intText n
  | .float x => numberLayout.text x
  | .text s => stringText s
  | .list [] => ['[', ']']
  | .list (v :: rest) => '[' :: compact v ++ compactItems rest
  | .mapping [] => ['\x7b', '\x7d']
  | .mapping ((key, v) :: rest) =>
    '\x7b' :: stringText key ++ ':' :: compact v ++ compactEntries rest

def compactItems : List Value → List Char
  | [] => [']']
  | v :: rest => ',' :: compact v ++ compactItems rest

def compactEntries : List (String × Value) → List Char
  | [] => ['\x7d']
  | (key, v) :: rest => ',' :: stringText key ++ ':' :: compact v ++ compactEntries rest

end

/-! ## Pretty -/

/-- A line break and the indentation of a level. -/
def newLine (level : Nat) : List Char :=
  '\n' :: List.replicate (2 * level) ' '

mutual

/-- The text of a value that stands at a level of indentation. -/
def prettyAt (level : Nat) : Value → List Char
  | .null => ['n', 'u', 'l', 'l']
  | .bool b => boolText b
  | .int n => Decimal.intText n
  | .float x => numberLayout.text x
  | .text s => stringText s
  | .list [] => ['[', ']']
  | .list (v :: rest) =>
    '[' :: newLine (level + 1) ++ prettyAt (level + 1) v ++ prettyItems level rest
  | .mapping [] => ['\x7b', '\x7d']
  | .mapping ((key, v) :: rest) =>
    '\x7b' :: newLine (level + 1) ++ stringText key ++ ':' :: ' ' :: prettyAt (level + 1) v ++
      prettyEntries level rest

def prettyItems (level : Nat) : List Value → List Char
  | [] => newLine level ++ [']']
  | v :: rest =>
    ',' :: newLine (level + 1) ++ prettyAt (level + 1) v ++ prettyItems level rest

def prettyEntries (level : Nat) : List (String × Value) → List Char
  | [] => newLine level ++ ['\x7d']
  | (key, v) :: rest =>
    ',' :: newLine (level + 1) ++ stringText key ++ ':' :: ' ' :: prettyAt (level + 1) v ++
      prettyEntries level rest

end

/-- The text of a value without blanks. -/
def compactText (v : Value) : String :=
  String.ofList (compact v)

/-- The text of a value with one entry a line. -/
def prettyText (v : Value) : String :=
  String.ofList (prettyAt 0 v)

end ExerciseDoc.Json
