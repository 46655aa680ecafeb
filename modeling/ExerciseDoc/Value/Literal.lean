import ExerciseDoc.Number.Decimal
import ExerciseDoc.Text.Blank
import ExerciseDoc.Value.Basic

/-!
# Value — literals in right-hand sides

The literal notation that an author writes behind a key: keywords, numbers,
quoted strings, lists, tuples and mappings with string keys. `Literal.read?`
accepts a text that is one literal and nothing else. `ofLine` and `ofBlock` never
fail: a text that is no literal stands for itself.

Containers nest at most `maxNesting` deep, and the recursion is on the room that
is left.
-/

namespace ExerciseDoc.Literal

open Text (Reader isDigit digits dropBlanks allBlank trimmed)
open Decimal (digitsValue)

/-- Containers nested deeper than this are not read. -/
def maxNesting : Nat := 128

/-! ## Keywords -/

/-- Characters of a keyword. Other letters never follow a value, so a run of these
is as good as the whole word. -/
def isKeywordChar (c : Char) : Bool :=
  c.isAlphanum || c == '_'

def keyword? (word : List Char) : Option Value :=
  if word = ['T', 'r', 'u', 'e'] ∨ word = ['t', 'r', 'u', 'e'] then some (.bool true)
  else if word = ['F', 'a', 'l', 's', 'e'] ∨ word = ['f', 'a', 'l', 's', 'e'] then
    some (.bool false)
  else if word = ['N', 'o', 'n', 'e'] ∨ word = ['n', 'u', 'l', 'l'] then some .null
  else none

def keyword : Reader Value := fun cs =>
  (keyword? (cs.takeWhile isKeywordChar)).map fun v => (v, cs.dropWhile isKeywordChar)

/-! ## Strings -/

/-- What a backslash and the character behind it stand for. -/
def unescaped (c : Char) : List Char :=
  if c = 'n' then ['\n']
  else if c = 't' then ['\t']
  else if c = 'r' then ['\r']
  else if c = '0' then ['\x00']
  else if c = '\n' then []
  else if c = '\\' ∨ c = '\'' ∨ c = '"' then [c]
  else ['\\', c]

/-- The characters of a string up to its closing quote. -/
def stringBody (quote : Char) : Reader (List Char)
  | [] => none
  | ['\\'] => none
  | '\\' :: c :: cs => (stringBody quote cs).map fun (s, rest) => (unescaped c ++ s, rest)
  | c :: cs =>
    if c = quote then some ([], cs)
    else if c = '\n' then none
    else (stringBody quote cs).map fun (s, rest) => (c :: s, rest)

/-! ## Numbers -/

/-- A written number: a sign, digits, a point with digits behind it, and an
exponent, of which everything but one run of digits may be missing. -/
structure Numeral where
  sign : Option Char
  whole : List Char
  fraction : Option (List Char)
  exponent : Option (Option Char × List Char)
  deriving DecidableEq, Repr

/-- A plus or minus sign, if one stands in front. -/
def sign : List Char → Option Char × List Char
  | c :: cs => if c = '+' ∨ c = '-' then (some c, cs) else (none, c :: cs)
  | [] => (none, [])

/-- A point and the digits behind it, if a point stands in front. -/
def fraction : List Char → Option (List Char) × List Char
  | '.' :: cs => let (ds, rest) := digits cs; (some ds, rest)
  | cs => (none, cs)

/-- An exponent, if its letter stands in front; it needs a digit. -/
def exponent : Reader (Option (Option Char × List Char)) := fun cs =>
  match cs with
  | c :: tail =>
    if c = 'e' ∨ c = 'E' then
      let (s, tail) := sign tail
      let (ds, rest) := digits tail
      if ds = [] then none else some (some (s, ds), rest)
    else some (none, c :: tail)
  | [] => some (none, [])

def numeral : Reader Numeral := fun cs =>
  let (s, cs) := sign cs
  let (whole, cs) := digits cs
  let (frac, cs) := fraction cs
  if whole = [] ∧ frac.getD [] = [] then none
  else (exponent cs).map fun (e, rest) => (⟨s, whole, frac, e⟩, rest)

/-- The value of a numeral of digits alone: no leading zero unless all digits are
zeros, and between `-2 ^ 63` and `2 ^ 64 - 1`. -/
def wholeValue? (negative : Bool) (ds : List Char) : Option Value :=
  if ds.length > 1 ∧ ds.head? = some '0' ∧ ds.any (· != '0') then none
  else
    let n := digitsValue ds
    if negative then if n ≤ Nat.pow 2 63 then some (.int (-n)) else none
    else if n < Nat.pow 2 64 then some (.int n) else none

/-- The value of a numeral: a whole number if it has neither point nor exponent,
else the nearest binary64 number. -/
def Numeral.value? (n : Numeral) : Option Value :=
  let negative := n.sign == some '-'
  match n.fraction, n.exponent with
  | none, none => wholeValue? negative n.whole
  | frac, e =>
    let frac := frac.getD []
    let power : Int :=
      match e with
      | none => 0
      | some (s, ds) => if s = some '-' then -digitsValue ds else digitsValue ds
    (Binary64.ofDecimal negative (digitsValue (n.whole ++ frac))
      (power - frac.length)).map .float

def number : Reader Value := fun cs =>
  match numeral cs with
  | some (n, rest) => n.value?.map fun v => (v, rest)
  | none => none

/-! ## Containers -/

/-- The items of a list up to its closing bracket, and whether a comma stands
between or behind them. Every round takes at least one character, so the length
of the text bounds their number. -/
def items (element : Reader Value) (close : Char) : Nat → Reader (List Value × Bool)
  | 0, _ => none
  | rounds + 1, cs =>
    match dropBlanks cs with
    | [] => none
    | c :: cs =>
      if c = close then some (([], false), cs)
      else
        match element (c :: cs) with
        | none => none
        | some (v, cs) =>
          match dropBlanks cs with
          | [] => none
          | c :: cs =>
            if c = ',' then
              (items element close rounds cs).map fun ((vs, _), rest) => ((v :: vs, true), rest)
            else if c = close then some (([v], false), cs)
            else none

/-- The entries of a mapping up to its closing brace. -/
def entries (element : Reader Value) : Nat → Reader (List (String × Value))
  | 0, _ => none
  | rounds + 1, cs =>
    match dropBlanks cs with
    | [] => none
    | c :: cs =>
      if c = '\x7d' then some ([], cs)
      else
        match element (c :: cs) with
        | some (.text key, cs) =>
          match dropBlanks cs with
          | ':' :: cs =>
            match element cs with
            | none => none
            | some (v, cs) =>
              match dropBlanks cs with
              | [] => none
              | c :: cs =>
                if c = ',' then
                  (entries element rounds cs).map fun (es, rest) => ((key, v) :: es, rest)
                else if c = '\x7d' then some ([(key, v)], cs)
                else none
          | _ => none
        | _ => none

/-- The container whose opening bracket has just been taken off. Round brackets
around one item without a comma are that item. -/
def container (element : Reader Value) (opening : Char) : Reader Value := fun cs =>
  if opening = '[' then
    (items element ']' (cs.length + 1) cs).map fun ((vs, _), rest) => (.list vs, rest)
  else if opening = '(' then
    (items element ')' (cs.length + 1) cs).map fun ((vs, comma), rest) =>
      match vs, comma with
      | [v], false => (v, rest)
      | vs, _ => (.list vs, rest)
  else
    (entries element (cs.length + 1) cs).map fun (es, rest) => (.mapping (Mapping.ofEntries es), rest)

/-! ## Literals -/

def isOpening (c : Char) : Bool :=
  c == '[' || c == '(' || c == '\x7b'

def isNumberStart (c : Char) : Bool :=
  c == '+' || c == '-' || c == '.' || isDigit c

/-- One literal behind blanks, its kind told by its first character. -/
def front (inner : Char → Reader Value) : Reader Value := fun cs =>
  match dropBlanks cs with
  | [] => none
  | c :: cs =>
    if isOpening c then inner c cs
    else if c = '\'' ∨ c = '"' then
      (stringBody c cs).map fun (s, rest) => (.text (String.ofList s), rest)
    else if isNumberStart c then number (c :: cs)
    else keyword (c :: cs)

/-- One literal with room for so many containers inside each other. -/
def value : Nat → Reader Value
  | 0 => front fun _ _ => none
  | room + 1 => front (container (value room))

/-- The literal that a text is, if it is one. -/
def read? (cs : List Char) : Option Value :=
  match value maxNesting cs with
  | some (v, rest) => if allBlank rest then some v else none
  | none => none

/-- The value of a right-hand side on its key's own line: a literal, or the
trimmed text. -/
def ofLine (s : String) : Value :=
  let cs := trimmed s.toList
  (read? cs).getD (.text (String.ofList cs))

/-- The value of a right-hand side of several lines: a literal, or the text with
its blanks. -/
def ofBlock (s : String) : Value :=
  (read? (trimmed s.toList)).getD (.text s)

end ExerciseDoc.Literal
