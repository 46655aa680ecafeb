import ExerciseDoc.Line.Directive
import ExerciseDoc.Text.Blank
import ExerciseDoc.Text.Reader
import ExerciseDoc.Text.Word

/-!
# Line — classification

The grammar of a line. Every shape is a function of its own that says what the
line is by that shape alone, and `classify` is the first of them that has an
answer. Several shapes overlap (`extends = x` also assigns, `key =$ x` also has a
value), so their order matters.

Blanks in front of a reference are shared out from the longest run down, and a
reference is as long as the rest of the line allows: a no-break space separates,
but can also belong to a reference.
-/

namespace ExerciseDoc.Line

open Text (Reader isLetter isDigit run isBlank dropBlanks dropBlanksEnd allBlank isWord)

/-! ## Characters -/

/-- The first character of a key. -/
def isKeyStart (c : Char) : Bool :=
  isLetter c || c == '_'

/-- The characters of a key. -/
def isKeyChar (c : Char) : Bool :=
  isLetter c || isDigit c || c == '_' || c == '.'

/-- The first character of a dependency's name. -/
def isNameStart (c : Char) : Bool :=
  isLetter c || c == '_' || c == '.'

/-- The characters between the slashes of a reference. -/
def isReferenceChar (c : Char) : Bool :=
  c != '/' && c != ' ' && c != '\t' && c != '\n' && c != ';' && c != '#' && c != '+' && c != '&'

/-! ## Parts of a line -/

/-- A key, and what follows it and its blanks. -/
def key : Reader (List Char) := fun cs =>
  (run isKeyStart isKeyChar cs).map fun (k, rest) => (k, dropBlanks rest)

/-- The first operator of a table that stands in front, and what follows it. -/
def operator {α : Type} (table : List (List Char × α)) : Reader α := fun cs =>
  table.findSome? fun (token, a) => (token.isPrefixOf? cs).map fun rest => (a, rest)

/-- A comment that reaches the end of the line. -/
def comment? : List Char → Option (List Char)
  | '#' :: cs => if cs.contains '\n' then none else some ('#' :: cs)
  | _ => none

/-- Whether nothing is left but blanks and perhaps a comment. -/
def closes (cs : List Char) : Bool :=
  match dropBlanks cs with
  | [] => true
  | rest => (comment? rest).isSome

/-- The first answer of `k` behind a run of blanks, the longest run first. -/
def pastBlanks {α : Type} (k : List Char → Option α) : List Char → Option α
  | [] => k []
  | c :: cs => if isBlank c then pastBlanks k cs <|> k (c :: cs) else k (c :: cs)

/-- The rest of a reference that is inside a segment, or in front of one, and the
first answer of `k` behind it, the longest reference first. -/
def segments {α : Type} (k : List Char → Option α) :
    Bool → List Char → Option (List Char × α)
  | inside, [] => if inside then (k []).map fun a => ([], a) else none
  | inside, c :: cs =>
    let longer :=
      if isReferenceChar c then (segments k true cs).map fun (u, a) => (c :: u, a)
      else if inside && c == '/' then (segments k false cs).map fun (u, a) => (c :: u, a)
      else none
    longer <|> if inside then (k (c :: cs)).map fun a => ([], a) else none

/-- A reference, segments between single slashes and perhaps one in front, and the
first answer of `k` behind it, the longest reference first. -/
def reference {α : Type} (k : List Char → Option α) : List Char → Option (List Char × α)
  | '/' :: cs => (segments k false cs).map fun (u, a) => ('/' :: u, a)
  | cs => segments k false cs

/-- A reference behind blanks that ends the line. -/
def closingReference (cs : List Char) : Option String :=
  pastBlanks (reference fun rest => if closes rest then some () else none) cs
    |>.map fun (u, _) => String.ofList u

/-! ## Shapes -/

/-- `extends = uri` or `template = uri`. -/
def extends? (cs : List Char) : Option Directive :=
  match "extends".toList.isPrefixOf? cs <|> "template".toList.isPrefixOf? cs with
  | none => none
  | some rest =>
    match dropBlanks rest with
    | '=' :: rest => (closingReference rest).map .extends
    | _ => none

/-- The operators that load a file. -/
def fileOperators : List (List Char × Operator) :=
  [ (['=', '@'], .assign), (['+', '=', '@'], .append), (['-', '=', '@'], .prepend),
    (['%', '@'], .json), (['+', '@'], .append), (['-', '@'], .prepend) ]

/-- `key =@ uri` and its variants. -/
def fromFile? (cs : List Char) : Option Directive :=
  match key cs with
  | none => none
  | some (k, rest) =>
    match operator fileOperators rest with
    | none => none
    | some (op, rest) => (closingReference rest).map (.fromFile (String.ofList k) op)

/-- `key =$ uri`. -/
def link? (cs : List Char) : Option Directive :=
  match key cs with
  | some (k, '=' :: '$' :: rest) => (closingReference rest).map (.link (String.ofList k))
  | _ => none

/-- `key =: Name`. -/
def component? (cs : List Char) : Option Directive :=
  match key cs with
  | some (k, '=' :: ':' :: rest) =>
    match run isWord isWord (dropBlanks rest) with
    | some (name, rest) =>
      if closes rest then some (.component (String.ofList k) (String.ofList name)) else none
    | none => none
  | _ => none

/-- A name in square brackets, and what follows it. -/
def bracketedName? : Reader (List Char)
  | '[' :: cs =>
    match run isNameStart isKeyChar (dropBlanks cs) with
    | none => none
    | some (name, rest) =>
      match dropBlanks rest with
      | ']' :: rest => some (name, rest)
      | _ => none
  | _ => none

/-- The end of a dependency line: perhaps a name in brackets, and nothing more. -/
def dependencyEnd (cs : List Char) : Option (Option String) :=
  match bracketedName? (dropBlanks cs) with
  | some (name, rest) => if closes rest then some (some (String.ofList name)) else none
  | none => if closes cs then some none else none

/-- `@ uri` or `@ uri [name]`. -/
def dependency? : List Char → Option Directive
  | '@' :: cs =>
    (pastBlanks (reference dependencyEnd) cs).map fun (u, name) =>
      .dependency (String.ofList u) name
  | _ => none

/-- `# comment`. -/
def commentLine? (cs : List Char) : Option Directive :=
  (comment? (dropBlanks cs)).map fun text => .comment (String.ofList text)

/-- The operators of a value on its key's line. -/
def valueOperators : List (List Char × Operator) :=
  [ (['='], .assign), (['%'], .json), (['+'], .append), (['-'], .prepend) ]

/-- The value in front of a comment or the end: empty, or a text that does not
start with a character of an operator. -/
def valueText? (cs : List Char) : Option (List Char) :=
  let text := cs.takeWhile (· != '#')
  let rest := cs.dropWhile (· != '#')
  if text.head? = some '=' ∨ text.head? = some '@' ∨ text.head? = some '%' then none
  else if closes rest then some (dropBlanksEnd text)
  else none

/-- `key = value` and its variants. -/
def value? (cs : List Char) : Option Directive :=
  match key cs with
  | none => none
  | some (k, rest) =>
    match operator valueOperators rest with
    | none => none
    | some (op, rest) =>
      (valueText? (dropBlanks rest)).map fun text =>
        .value (String.ofList k) op (String.ofList text)

/-- The operators that open a block. -/
def blockOperators : List (List Char × Operator) :=
  [ (['=', '='], .assign), (['+', '='], .append), (['-', '='], .prepend), (['%', '='], .json) ]

/-- `key ==` and its variants. -/
def openBlock? (cs : List Char) : Option Directive :=
  match key cs with
  | none => none
  | some (k, rest) =>
    match operator blockOperators rest with
    | none => none
    | some (op, rest) => if closes rest then some (.openBlock (String.ofList k) op) else none

/-- A line of blanks. -/
def blank? (cs : List Char) : Option Directive :=
  if allBlank cs then some .blank else none

/-! ## The order of shapes -/

/-- What a line without its terminator says, by the first shape that it has. -/
def classify (cs : List Char) : Option Directive :=
  extends? cs <|> fromFile? cs <|> link? cs <|> component? cs <|> dependency? cs <|>
    commentLine? cs <|> value? cs <|> openBlock? cs <|> blank? cs

/-- Whether a line closes an open block. -/
def closesBlock (cs : List Char) : Bool :=
  match cs with
  | '=' :: '=' :: rest => allBlank rest
  | _ => false

end ExerciseDoc.Line
