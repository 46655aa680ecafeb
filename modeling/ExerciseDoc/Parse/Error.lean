import ExerciseDoc.Key
import ExerciseDoc.Source.Basic
import ExerciseDoc.Text.Blank

/-!
# Parse — errors

Every way a parse can end without a document. A fault of one line carries where
the line stands (`Place`); the other errors belong to a file. Each error has a
short kind for programs, a message for readers, and a report with both.
-/

namespace ExerciseDoc

/-- A line of a file: its text without blanks around it, and its number from 1. -/
structure Place where
  path : FullPath
  line : String
  number : Nat
  deriving DecidableEq, Repr

namespace Place

/-- The place of a line with the given text. -/
def of (path : FullPath) (line : List Char) (number : Nat) : Place :=
  ⟨path, String.ofList (Text.trimmed line), number⟩

def text (p : Place) : String :=
  p.path.text ++ " (line " ++ String.ofList (Decimal.natText p.number) ++ ")"

end Place

/-! ## Faults of a line -/

/-- Where a JSON text stands. -/
inductive JsonOrigin where
  | line
  | block
  | file
  deriving DecidableEq, Repr

/-- The kinds of faults that a line can have. -/
inductive LineFault.Kind where
  | undecodable
  | malformed
  | key
  | unresolved
  | unknownComponent
  deriving DecidableEq, Repr

/-- What is wrong with a line. -/
inductive LineFault where
  /-- The line has no shape. -/
  | shapeless
  | notJson (origin : JsonOrigin)
  /-- The block that the line opens is never closed. -/
  | unclosed
  | key (error : KeyError)
  | unresolved (uri : String)
  /-- The file that the line loads is not text. -/
  | undecodable (path : FullPath)
  | unknownComponent (name : String)
  /-- A fault that a parser of another format tells in its own words. -/
  | told (kind : LineFault.Kind) (message : String)
  deriving DecidableEq, Repr

namespace LineFault

def kind : LineFault → Kind
  | .shapeless => .malformed
  | .notJson _ => .malformed
  | .unclosed => .malformed
  | .key _ => .key
  | .unresolved _ => .unresolved
  | .undecodable _ => .undecodable
  | .unknownComponent _ => .unknownComponent
  | .told kind _ => kind

def message : LineFault → String
  | .shapeless => "line does not correspond to any defined pattern"
  | .notJson .line => "line does not correspond to a valid JSON format"
  | .notJson .block => "multiline does not correspond to a valid JSON format"
  | .notJson .file => "file does not correspond to a valid JSON format"
  | .unclosed => "multiline block was never closed"
  | .key error => error.message
  | .unresolved uri => "URI " ++ uri ++ " could not be resolved"
  | .undecodable path => path.text ++ " could not be decoded"
  | .unknownComponent name => "component " ++ name ++ " not found"
  | .told _ message => message

end LineFault

/-! ## Errors of a parse -/

/-- Why a parse gave no document. -/
inductive ParseError where
  /-- The file is not text. -/
  | undecodable (path : FullPath)
  | line (place : Place) (fault : LineFault)
  /-- The chain runs from the root to the file that repeats. -/
  | inheritanceLoop (path : FullPath) (chain : List FullPath)
  /-- The chain runs from the root to the file that is one too many. -/
  | inheritanceTooDeep (path : FullPath) (chain : List FullPath) (limit : Nat)
  | missingKey (path : FullPath) (key : String)
  | noParser (path : FullPath) (extension : String)
  deriving DecidableEq, Repr

namespace ParseError

/-- The short name of an error. -/
def kind : ParseError → String
  | .undecodable _ => "invalid_file"
  | .line _ fault =>
    match fault.kind with
    | .undecodable => "invalid_file_line"
    | .malformed => "syntax"
    | .key => "semantic"
    | .unresolved => "file_not_found"
    | .unknownComponent => "component_not_found"
  | .inheritanceLoop _ _ => "inheritance_loop"
  | .inheritanceTooDeep _ _ _ => "inheritance_too_deep"
  | .missingKey _ _ => "missing_key"
  | .noParser _ _ => "no_parser"

/-- The file that the error was met in. -/
def path : ParseError → FullPath
  | .undecodable path => path
  | .line place _ => place.path
  | .inheritanceLoop path _ => path
  | .inheritanceTooDeep path _ _ => path
  | .missingKey path _ => path
  | .noParser path _ => path

/-- The number of the faulty line, if the error belongs to one. -/
def lineNumber? : ParseError → Option Nat
  | .line place _ => some place.number
  | _ => none

/-- The chain of an inheritance error. -/
def chain? : ParseError → Option (List FullPath)
  | .inheritanceLoop _ chain => some chain
  | .inheritanceTooDeep _ chain _ => some chain
  | _ => none

def missingKey? : ParseError → Option String
  | .missingKey _ key => some key
  | _ => none

def extension? : ParseError → Option String
  | .noParser _ extension => some extension
  | _ => none

/-- The files of a chain with an arrow between neighbours. -/
def chainText (chain : List FullPath) : String :=
  " → ".intercalate (chain.map FullPath.text)

def message : ParseError → String
  | .undecodable path => path.text ++ ": invalid file, could not be decoded"
  | .line place fault =>
    place.text ++ ": " ++ fault.message ++ " in \"" ++ place.line ++ "\""
  | .inheritanceLoop path chain =>
    path.text ++ ": infinite inheritance loop detected, inheritance traceback is: " ++
      chainText chain
  | .inheritanceTooDeep path chain limit =>
    path.text ++ ": inheritance chain exceeds " ++ String.ofList (Decimal.natText limit) ++
      " levels: " ++ chainText chain
  | .missingKey path key => path.text ++ ": expected key " ++ key ++ " is missing"
  | .noParser path extension => path.text ++ ": no parser for extension ." ++ extension

/-- A full path as a value. -/
def pathValue (p : FullPath) : Value :=
  .mapping [("path", .text p.path), ("resource_id", .int p.resourceId)]

/-- The error as a value for programs; what does not apply is null. -/
def report (e : ParseError) : Value :=
  let textOrNull (s : Option String) : Value := (s.map Value.text).getD .null
  .mapping
    [ ("chain", (e.chain?.map fun chain => .list (chain.map pathValue)).getD .null),
      ("extension", textOrNull e.extension?),
      ("file", .text e.path.path),
      ("key", textOrNull e.missingKey?),
      ("kind", .text e.kind),
      ("line", (e.lineNumber?.map fun n => .int n).getD .null),
      ("message", .text e.message) ]

end ParseError

end ExerciseDoc
