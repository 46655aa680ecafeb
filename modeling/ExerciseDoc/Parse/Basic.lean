import ExerciseDoc.Component
import ExerciseDoc.Document
import ExerciseDoc.Json.Reader
import ExerciseDoc.Line.Classify
import ExerciseDoc.Parse.Run

/-!
# Parse — exercise files

The lines of a file are processed in order, each on what the lines before it have
built. A line `extends = uri` is resolved the moment it is reached: the ancestor
is parsed and folded in, so it overrides what stands above the line and is
overridden by what stands below it. Lines inside an open block are not read as
lines, only collected.

The recursion through ancestors is on the number of levels that the depth limit
still allows, so it ends whatever the resolver answers. Each file is parsed with
the chain of files that led to it, the root first and the file itself last.
-/

namespace ExerciseDoc

/-- The tag of the format. -/
def formatTag : String := "pl"

/-- The longest chain of files that is allowed unless a caller says otherwise. -/
def defaultDepthLimit : Nat := 64

/-- The top-level keys of a complete exercise. -/
def mandatoryKeys : List String :=
  ["author", "version", "title", "statement", "formState"]

/-- What a parse is asked to do besides its file. -/
structure Settings where
  resolver : Resolver
  /-- The files that led to this one, the root first. -/
  inherited : List FullPath := []
  depthLimit : Nat := defaultDepthLimit
  checkMandatoryKeys : Bool := true

/-- What turns a file into a document. -/
abbrev Parser := Settings → Location → Run Document

namespace Parse

/-! ## One file -/

/-- The file that is being parsed and its surroundings. -/
structure Context where
  resolver : Resolver
  path : FullPath
  circleId : Int
  /-- The files that led here, the root first and this file last. -/
  chain : List FullPath
  depthLimit : Nat

/-- What a reference in the file asks a resolver for. -/
def Context.request (ctx : Context) (uri : String) : Request :=
  ⟨uri, ctx.path.directory, ctx.path.resourceId, ctx.circleId⟩

/-- A block that has been opened and not yet closed. -/
structure Block where
  key : String
  op : Operator
  body : String
  place : Place
  deriving DecidableEq, Repr

/-- What the lines so far have built. -/
structure State where
  document : Document
  block : Option Block

/-- The state in front of the first line. -/
def State.start (ctx : Context) : State :=
  ⟨Document.empty ctx.path ctx.circleId formatTag, none⟩

/-- The mode of an operator; a JSON text is assigned. -/
def modeOf : Operator → Mode
  | .assign => .assign
  | .json => .assign
  | .append => .append
  | .prepend => .prepend

/-- What a reference leads to from a file, or a fault of its line. -/
def locate (ctx : Context) (place : Place) (uri : String) : Run Location :=
  Run.bind (Run.ask ctx.resolver (ctx.request uri)) fun
    | some location => Run.ok location
    | none => Run.error (.line place (.unresolved uri))

/-- The document with a right-hand side stored at a key. -/
def store (doc : Document) (place : Place) (key : String) (incoming : Incoming) (mode : Mode) :
    Run Document :=
  match Key.apply doc.data key incoming mode with
  | (data, .ok none) => Run.ok { doc with data := data }
  | (data, .ok (some warning)) => Run.ok ({ doc with data := data }.addWarning warning)
  | (_, .error e) => Run.error (.line place (.key e))

/-- The document with the value of a JSON text assigned to a key. -/
def storeJson (doc : Document) (place : Place) (key : String) (origin : JsonOrigin)
    (text : String) : Run Document :=
  match Json.ofText? text with
  | some v => store doc place key (.value v) .assign
  | none => Run.error (.line place (.notJson origin))

/-- A text as a right-hand side, by where it stands: only the text of a file is
never read as a literal. -/
def incomingOf : JsonOrigin → String → Incoming
  | .line => .line
  | .block => .block
  | .file => .text

/-- The document with a text stored at a key by an operator. -/
def storeText (doc : Document) (place : Place) (key : String) (op : Operator)
    (origin : JsonOrigin) (text : String) : Run Document :=
  match op with
  | .json => storeJson doc place key origin text
  | op => store doc place key (incomingOf origin text) (modeOf op)

/-! ## Directives -/

/-- A value on its key's line. -/
def storeValue (doc : Document) (place : Place) (key : String) (op : Operator) (text : String) :
    Run Document :=
  storeText doc place key op .line text

/-- A block at its closing line, stored at the place of its opening line. -/
def storeBlock (doc : Document) (block : Block) : Run Document :=
  storeText doc block.place block.key block.op .block
    (String.ofList (Text.blockBody block.body.toList))

/-- The text of another file. -/
def storeFile (ctx : Context) (doc : Document) (place : Place) (key : String) (op : Operator)
    (uri : String) : Run Document :=
  Run.bind (locate ctx place uri) fun location =>
    match String.fromUTF8? location.contents with
    | none => Run.error (.line place (.undecodable location.path))
    | some text => storeText doc place key op .file text

/-- The path that a reference leads to. -/
def storeLink (ctx : Context) (doc : Document) (place : Place) (key uri : String) :
    Run Document :=
  Run.bind (locate ctx place uri) fun location =>
    store doc place key (.value (.text location.path.path)) .assign

/-- The placeholder of a widget. -/
def storeComponent (doc : Document) (place : Place) (key name : String) : Run Document :=
  match Component.value? name with
  | some v => store doc place key (.value v) .assign
  | none => Run.error (.line place (.unknownComponent name))

/-- A dependency under the name given, or else under the file's own. -/
def addDependency (ctx : Context) (doc : Document) (place : Place) (uri : String)
    (name : Option String) : Run Document :=
  Run.bind (locate ctx place uri) fun location =>
    Run.ok (doc.addDependency ⟨location.path, name.getD location.path.fileName⟩)

/-- The document of an ancestor, unless the chain has the file already. `ancestor`
parses the file that has been found. -/
def descend (ancestor : Location → Run Document) (ctx : Context) (location : Location) :
    Run Document :=
  if location.path ∈ ctx.chain then
    Run.error (.inheritanceLoop ctx.path (ctx.chain ++ [location.path]))
  else ancestor location

/-- An ancestor folded in. -/
def inherit (ancestor : Location → Run Document) (ctx : Context) (doc : Document)
    (place : Place) (uri : String) : Run Document :=
  Run.bind (locate ctx place uri) fun location =>
    Run.bind (descend ancestor ctx location) fun found => Run.ok (doc.merge found)

/-- What a directive does to the document. Opening a block and a blank line leave
it as it is. -/
def perform (ancestor : Location → Run Document) (ctx : Context) (doc : Document)
    (place : Place) : Directive → Run Document
  | .extends uri => inherit ancestor ctx doc place uri
  | .fromFile key op uri => storeFile ctx doc place key op uri
  | .link key uri => storeLink ctx doc place key uri
  | .component key name => storeComponent doc place key name
  | .dependency uri name => addDependency ctx doc place uri name
  | .comment text => Run.ok (doc.addComment text)
  | .value key op text => storeValue doc place key op text
  | .openBlock _ _ => Run.ok doc
  | .blank => Run.ok doc

/-! ## Lines -/

/-- One line, with its terminator and its number from 1. -/
def step (ancestor : Location → Run Document) (ctx : Context) (s : State) (number : Nat)
    (raw : List Char) : Run State :=
  let line := Text.lineBody raw
  match s.block with
  | some block =>
    if Line.closesBlock line then
      Run.bind (storeBlock s.document block) fun doc => Run.ok ⟨doc, none⟩
    else
      Run.ok ⟨s.document, some { block with body := block.body ++ String.ofList raw }⟩
  | none =>
    let place := Place.of ctx.path line number
    match Line.classify line with
    | none => Run.error (.line place .shapeless)
    | some (.openBlock key op) => Run.ok ⟨s.document, some ⟨key, op, "", place⟩⟩
    | some directive =>
      Run.bind (perform ancestor ctx s.document place directive) fun doc => Run.ok ⟨doc, none⟩

/-- Lines in order, the first one with the given number. -/
def steps (ancestor : Location → Run Document) (ctx : Context) :
    State → Nat → List (List Char) → Run State
  | s, _, [] => Run.ok s
  | s, number, raw :: rest =>
    Run.bind (step ancestor ctx s number raw) fun s => steps ancestor ctx s (number + 1) rest

/-- The document at the end of a file, where no block may be open. -/
def finish (s : State) : Run Document :=
  match s.block with
  | some block => Run.error (.line block.place .unclosed)
  | none => Run.ok s.document

/-- A file whose ancestors `ancestor` parses. -/
def fileWith (ancestor : Location → Run Document) (ctx : Context) (contents : ByteArray) :
    Run Document :=
  match String.fromUTF8? contents with
  | none => Run.error (.undecodable ctx.path)
  | some text =>
    Run.bind (steps ancestor ctx (State.start ctx) 1 (Text.physicalLines text.toList)) finish

/-! ## Inheritance -/

/-- The context of an ancestor: its own path and circle, one link further down the
chain. -/
def Context.under (ctx : Context) (location : Location) : Context :=
  { ctx with
    path := location.path
    circleId := location.circleId
    chain := ctx.chain ++ [location.path] }

/-- A file with so many levels of ancestors allowed below it. -/
def file : Nat → Context → ByteArray → Run Document
  | 0, ctx, contents =>
    fileWith (fun location =>
      Run.error (.inheritanceTooDeep ctx.path (ctx.chain ++ [location.path]) ctx.depthLimit))
      ctx contents
  | levels + 1, ctx, contents =>
    fileWith (fun location => file levels (ctx.under location) location.contents) ctx contents

/-- The levels of ancestors that the depth limit allows below a file. -/
def Context.levels (ctx : Context) : Nat :=
  ctx.depthLimit - ctx.chain.length

/-- A file with as many levels of ancestors below it as the depth limit allows. -/
def fileIn (ctx : Context) (contents : ByteArray) : Run Document :=
  file ctx.levels ctx contents

/-! ## Whole parses -/

/-- The context of the file that a parse starts from. -/
def contextOf (settings : Settings) (source : Location) : Context :=
  { resolver := settings.resolver
    path := source.path
    circleId := source.circleId
    chain := settings.inherited ++ [source.path]
    depthLimit := settings.depthLimit }

/-- A document that has all mandatory keys, or the first one that it lacks. -/
def checked (doc : Document) : Run Document :=
  match mandatoryKeys.find? fun key => !Mapping.contains doc.data key with
  | some key => Run.error (.missingKey doc.path key)
  | none => Run.ok doc

end Parse

/-- The parser of exercise files. -/
def parse : Parser := fun settings source =>
  let run := Parse.fileIn (Parse.contextOf settings source) source.contents
  if settings.checkMandatoryKeys then Run.bind run Parse.checked else run

end ExerciseDoc
