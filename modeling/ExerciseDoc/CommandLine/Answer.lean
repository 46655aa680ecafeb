import ExerciseDoc.CommandLine.Arguments
import ExerciseDoc.Json.Printer
import ExerciseDoc.Registry.Basic
import ExerciseDoc.Source.Disk

/-!
# CommandLine — answers

What a command prints and its exit code, as a function of the invocation and of
the disk. `parse` prints the document, `check` a summary of it, `extensions` the
known extensions. Both file commands exit with 0 exactly if the file could be read
and parsed, and with 1 otherwise; arguments that make no sense exit with 2.
-/

namespace ExerciseDoc.CommandLine

/-- The exit code and the two streams of output. The log that `--verbose` adds to the error
stream is not part of `stderr`. -/
structure Answer where
  code : Nat
  stdout : String := ""
  stderr : String := ""
  deriving DecidableEq, Repr

def lines (ls : List String) : String :=
  String.join (ls.map (· ++ "\n"))

/-! ## Values that are printed -/

def natValue (n : Nat) : Value :=
  .int n

def textsValue (ss : List String) : Value :=
  .list (ss.map .text)

/-- A full path as a document prints it. -/
def fullPathValue (p : FullPath) : Value :=
  .mapping [("resource_id", .int p.resourceId), ("path", .text p.path)]

def dependencyValue (d : Dependency) : Value :=
  .mapping [("path", fullPathValue d.path), ("alias", .text d.name)]

/-- A document as it is printed. -/
def documentValue (doc : Document) : Value :=
  .mapping
    [ ("path", fullPathValue doc.path),
      ("circle_id", .int doc.circleId),
      ("format", .text doc.format),
      ("dependencies", .list (doc.dependencies.map dependencyValue)),
      ("comments", textsValue doc.comments),
      ("warnings", textsValue doc.warnings),
      ("data", .mapping doc.data) ]

/-- The summary of a valid document. -/
def summaryValue (doc : Document) : Value :=
  .mapping
    [ ("ok", .bool true),
      ("file", .text doc.path.text),
      ("format", .text doc.format),
      ("keys", natValue doc.data.length),
      ("dependencies", natValue doc.dependencies.length),
      ("warnings", textsValue doc.warnings) ]

/-- One known extension. -/
def extensionValue (e : String × String) : Value :=
  .mapping [("extension", .text e.1), ("format", .text e.2)]

/-! ## Failures -/

/-- Why a file command prints nothing. -/
inductive Failure where
  | unreadable (file : String) (failure : ReadFailure)
  | unparsed (error : ParseError)
  deriving Repr

/-- A file that cannot be read is told of unless the command is quiet; an error of
the parse is told of as JSON in any case. -/
def Failure.answer (style : Style) (quiet : Bool) : Failure → Answer
  | .unreadable file failure =>
    let message := "error reading file '" ++ file ++ "': " ++ failure.message
    if quiet then { code := 1 }
    else
      match style with
      | .text => { code := 1, stderr := lines [message] }
      | .json =>
        { code := 1, stderr := lines [Json.compactText (.mapping [("error", .text message)])] }
  | .unparsed error =>
    match style with
    | .text =>
      if quiet then { code := 1 } else { code := 1, stderr := lines ["error: " ++ error.message] }
    | .json => { code := 1, stderr := lines [Json.prettyText error.report] }

/-! ## Commands -/

/-- The parse of a file on disk, with the requests that it makes. -/
def runFile (options : FileOptions) (disk : Disk) (contents : ByteArray) : Run Document :=
  Registry.builtin.run
    { resolver := disk.resolver
      depthLimit := options.depthLimit
      checkMandatoryKeys := options.checkMandatoryKeys }
    ⟨contents, ⟨options.resourceId, options.file⟩, options.circleId⟩

/-- The document of a file on disk. -/
def documentOf (options : FileOptions) (disk : Disk) : Except Failure Document :=
  match disk options.file with
  | .error failure => .error (.unreadable options.file failure)
  | .ok contents =>
    match (runFile options disk contents).result with
    | .ok doc => .ok doc
    | .error error => .error (.unparsed error)

/-- Answers `parse`: the document, and its warnings beside it. -/
def parseAnswer (style : Style) (quiet : Bool) (doc : Document) : Answer :=
  { code := 0
    stdout := lines [Json.prettyText (documentValue doc)]
    stderr :=
      if style = .text ∧ quiet = false then lines (doc.warnings.map ("warning: " ++ ·)) else "" }

/-- Answers `check`: a summary of the document. -/
def checkAnswer (style : Style) (quiet : Bool) (file : String) (doc : Document) : Answer :=
  match style with
  | .json => { code := 0, stdout := lines [Json.prettyText (summaryValue doc)] }
  | .text =>
    if quiet then { code := 0 }
    else
      let count (n : Nat) := String.ofList (Decimal.natText n)
      let head := "ok: " ++ file ++ " (" ++ count doc.data.length ++ " top-level keys, " ++
        count doc.dependencies.length ++ " dependencies)"
      { code := 0, stdout := lines (head :: doc.warnings.map ("  warning: " ++ ·)) }

/-- Answers `extensions`. -/
def extensionsAnswer (style : Style) : Answer :=
  let tags := Registry.builtin.tags
  match style with
  | .json => { code := 0, stdout := lines [Json.prettyText (.list (tags.map extensionValue))] }
  | .text => { code := 0, stdout := lines (tags.map fun (e, tag) => "." ++ e ++ "\t" ++ tag) }

/-- What an invocation comes to on a disk. -/
def Invocation.answer (i : Invocation) (disk : Disk) : Answer :=
  match i.command with
  | .parse options =>
    match documentOf options disk with
    | .ok doc => parseAnswer i.style i.quiet doc
    | .error failure => failure.answer i.style i.quiet
  | .check options =>
    match documentOf options disk with
    | .ok doc => checkAnswer i.style i.quiet options.file doc
    | .error failure => failure.answer i.style i.quiet
  | .extensions => extensionsAnswer i.style

/-- What arguments come to on a disk, the same with and without `--verbose`. -/
def answer (args : List String) (disk : Disk) : Answer :=
  match Invocation.ofArguments? args with
  | some i => i.answer disk
  | none => { code := 2, stderr := lines ["error: the arguments do not make sense"] }

/-- The paths that an invocation reads, in order, if the disk is as given. -/
def Invocation.reads (i : Invocation) (disk : Disk) : List String :=
  let fileReads (options : FileOptions) : List String :=
    match disk options.file with
    | .error _ => [options.file]
    | .ok contents =>
      options.file :: (runFile options disk contents).calls.map fun q => q.target.path
  match i.command with
  | .parse options => fileReads options
  | .check options => fileReads options
  | .extensions => []

end ExerciseDoc.CommandLine
