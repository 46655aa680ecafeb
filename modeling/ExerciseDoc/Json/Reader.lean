import ExerciseDoc.Json.Number

/-!
# Json — reading

`Json.read?` accepts a text that is one JSON value and nothing else. It is
strict: four characters are blanks, a string holds no raw control character and
no lone surrogate, a number has no leading zero, and no comma stands before a
closing bracket. Of two entries with one key the later wins. Containers nest at
most `maxNesting` deep, and the recursion is on the room that is left.
-/

namespace ExerciseDoc.Json

open Text (Reader isDigit digits)
open Decimal (digitsValue)

/-- Containers nested deeper than this are refused. -/
def maxNesting : Nat := 127

/-- The four blanks of the notation. -/
def isJsonBlank (c : Char) : Bool :=
  c == ' ' || c == '\n' || c == '\t' || c == '\r'

def dropJsonBlanks (cs : List Char) : List Char :=
  cs.dropWhile isJsonBlank

/-! ## Words -/

/-- A value that is written as a word. -/
def word (w : List Char) (v : Value) : Reader Value := fun cs =>
  (w.isPrefixOf? cs).map fun rest => (v, rest)

/-! ## Strings -/

def hexDigit? (c : Char) : Option Nat :=
  if '0' ≤ c ∧ c ≤ '9' then some (c.toNat - '0'.toNat)
  else if 'a' ≤ c ∧ c ≤ 'f' then some (c.toNat - 'a'.toNat + 10)
  else if 'A' ≤ c ∧ c ≤ 'F' then some (c.toNat - 'A'.toNat + 10)
  else none

/-- The number of four hexadecimal digits. -/
def hexUnit? (a b c d : Char) : Option Nat :=
  match hexDigit? a, hexDigit? b, hexDigit? c, hexDigit? d with
  | some a, some b, some c, some d => some (((a * 16 + b) * 16 + c) * 16 + d)
  | _, _, _, _ => none

/-- The character of a two-character escape. -/
def shortEscape? (c : Char) : Option Char :=
  if c = '"' ∨ c = '\\' ∨ c = '/' then some c
  else if c = 'b' then some '\x08'
  else if c = 'f' then some '\x0c'
  else if c = 'n' then some '\n'
  else if c = 'r' then some '\r'
  else if c = 't' then some '\t'
  else none

def isHighSurrogate (n : Nat) : Bool :=
  0xD800 ≤ n && n ≤ 0xDBFF

def isLowSurrogate (n : Nat) : Bool :=
  0xDC00 ≤ n && n ≤ 0xDFFF

/-- The characters of a string up to its closing quote. -/
def stringBody : Reader (List Char)
  | '\\' :: 'u' :: a :: b :: c :: d :: cs =>
    match hexUnit? a b c d with
    | none => none
    | some unit =>
      if isHighSurrogate unit then
        match cs with
        | '\\' :: 'u' :: a :: b :: c :: d :: cs =>
          match hexUnit? a b c d with
          | none => none
          | some low =>
            if isLowSurrogate low then
              let point := 0x10000 + (unit - 0xD800) * 0x400 + (low - 0xDC00)
              (stringBody cs).map fun (s, rest) => (Char.ofNat point :: s, rest)
            else none
        | _ => none
      else if isLowSurrogate unit then none
      else (stringBody cs).map fun (s, rest) => (Char.ofNat unit :: s, rest)
  | '\\' :: c :: cs =>
    match shortEscape? c with
    | none => none
    | some c => (stringBody cs).map fun (s, rest) => (c :: s, rest)
  | c :: cs =>
    if c = '"' then some ([], cs)
    else if c.toNat < 0x20 ∨ c = '\\' then none
    else (stringBody cs).map fun (s, rest) => (c :: s, rest)
  | [] => none

/-! ## Numbers -/

/-- The digits of a whole number: a zero stands alone. -/
def wholeDigits : Reader (List Char) := fun cs =>
  let (ds, rest) := digits cs
  if ds = [] ∨ (ds.head? = some '0' ∧ ds.length > 1) then none else some (ds, rest)

/-- A point and at least one digit, if a point stands in front. -/
def fraction : Reader (Option (List Char)) := fun cs =>
  match cs with
  | '.' :: tail =>
    let (ds, rest) := digits tail
    if ds = [] then none else some (some ds, rest)
  | cs => some (none, cs)

/-- An exponent, if its letter stands in front; it needs a digit. -/
def exponent : Reader (Option Int) := fun cs =>
  match cs with
  | c :: tail =>
    if c = 'e' ∨ c = 'E' then
      let (negative, tail) :=
        match tail with
        | '-' :: tail => (true, tail)
        | '+' :: tail => (false, tail)
        | tail => (false, tail)
      let (ds, rest) := digits tail
      let n : Int := digitsValue ds
      if ds = [] then none else some (some (if negative then -n else n), rest)
    else some (none, c :: tail)
  | [] => some (none, [])

/-- A number behind its sign. -/
def number (negative : Bool) : Reader Value := fun cs =>
  match wholeDigits cs with
  | none => none
  | some (whole, cs) =>
    match fraction cs with
    | none => none
    | some (frac, cs) =>
      match exponent cs with
      | none => none
      | some (e, rest) =>
        match frac, e with
        | none, none => (wholeNumber? negative whole).map fun v => (v, rest)
        | frac, e =>
          (scaledNumber? negative whole (frac.getD []) (e.getD 0)).map fun v => (v, rest)

/-! ## Containers -/

/-- The items of an array, one at least, up to its closing bracket. Every round
takes at least one character, so the length of the text bounds their number. -/
def items (element : Reader Value) : Nat → Reader (List Value)
  | 0, _ => none
  | rounds + 1, cs =>
    match element cs with
    | none => none
    | some (v, cs) =>
      match dropJsonBlanks cs with
      | ',' :: cs => (items element rounds cs).map fun (vs, rest) => (v :: vs, rest)
      | ']' :: cs => some ([v], cs)
      | _ => none

/-- A key, a colon and a value. -/
def entry (element : Reader Value) : Reader (String × Value) := fun cs =>
  match dropJsonBlanks cs with
  | '"' :: cs =>
    match stringBody cs with
    | none => none
    | some (key, cs) =>
      match dropJsonBlanks cs with
      | ':' :: cs => (element cs).map fun (v, rest) => ((String.ofList key, v), rest)
      | _ => none
  | _ => none

/-- The entries of an object, one at least, up to its closing brace. -/
def entries (element : Reader Value) : Nat → Reader (List (String × Value))
  | 0, _ => none
  | rounds + 1, cs =>
    match entry element cs with
    | none => none
    | some (e, cs) =>
      match dropJsonBlanks cs with
      | ',' :: cs => (entries element rounds cs).map fun (es, rest) => (e :: es, rest)
      | '\x7d' :: cs => some ([e], cs)
      | _ => none

/-- The array behind its opening bracket. -/
def array (element : Reader Value) : Reader Value := fun cs =>
  match dropJsonBlanks cs with
  | ']' :: rest => some (.list [], rest)
  | cs => (items element (cs.length + 1) cs).map fun (vs, rest) => (.list vs, rest)

/-- The object behind its opening brace. -/
def object (element : Reader Value) : Reader Value := fun cs =>
  match dropJsonBlanks cs with
  | '\x7d' :: rest => some (.mapping [], rest)
  | cs =>
    (entries element (cs.length + 1) cs).map fun (es, rest) =>
      (.mapping (Mapping.ofEntries es), rest)

/-! ## Values -/

/-- One value behind blanks, its kind told by its first character; `element` reads
what stands in a container, if there is room for one. -/
def front (element : Option (Reader Value)) : Reader Value := fun cs =>
  match dropJsonBlanks cs with
  | [] => none
  | c :: cs =>
    if c = 'n' then word ['u', 'l', 'l'] .null cs
    else if c = 't' then word ['r', 'u', 'e'] (.bool true) cs
    else if c = 'f' then word ['a', 'l', 's', 'e'] (.bool false) cs
    else if c = '"' then (stringBody cs).map fun (s, rest) => (.text (String.ofList s), rest)
    else if c = '-' then number true cs
    else if isDigit c then number false (c :: cs)
    else
      match element with
      | none => none
      | some element =>
        if c = '[' then array element cs
        else if c = '\x7b' then object element cs
        else none

/-- One value with room for so many containers inside each other. -/
def value : Nat → Reader Value
  | 0 => front none
  | room + 1 => front (some (value room))

/-- The value that a text is, if it is one. -/
def read? (cs : List Char) : Option Value :=
  match value maxNesting cs with
  | some (v, rest) => if rest.all isJsonBlank then some v else none
  | none => none

/-- The value that a text is, if it is one. -/
def ofText? (s : String) : Option Value :=
  read? s.toList

end ExerciseDoc.Json
