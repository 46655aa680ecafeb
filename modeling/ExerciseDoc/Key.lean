import ExerciseDoc.Text.Lines
import ExerciseDoc.Value.Literal

/-!
# Key — dotted keys

A key such as `a.b.c` names a place in a tree of mappings. `Key.focus` walks the
segments in front of the last one, creating missing mappings, and runs a function
on the mapping it arrives at; `Key.resolve` shows that mapping and `Key.apply`
stores a right-hand side in it. What is stored replaces the old value, or is put
behind or in front of it.
-/

namespace ExerciseDoc

/-- How a right-hand side is combined with the value at its key. -/
inductive Mode where
  | assign
  | append
  | prepend
  deriving DecidableEq, Repr

def Mode.name : Mode → String
  | .assign => "assign"
  | .append => "append"
  | .prepend => "prepend"

/-- The kinds of values that a message tells apart. -/
inductive Kind where
  | null
  | boolean
  | number
  | text
  | list
  | mapping
  deriving DecidableEq, Repr

def Kind.phrase : Kind → String
  | .null => "null"
  | .boolean => "a boolean"
  | .number => "a number"
  | .text => "text"
  | .list => "a list"
  | .mapping => "a mapping"

def Value.kind : Value → Kind
  | .null => .null
  | .bool _ => .boolean
  | .int _ => .number
  | .float _ => .number
  | .text _ => .text
  | .list _ => .list
  | .mapping _ => .mapping

/-- The most segments of a key. -/
def maxSegments : Nat := 128

/-- Why nothing can be stored at a key. -/
inductive KeyError where
  | emptySegment (key : String)
  | tooDeep (key : String)
  | notAMapping (key segment : String)
  | missing (key : String) (mode : Mode)
  | incompatible (key : String) (mode : Mode) (found : Kind)
  deriving DecidableEq, Repr

def KeyError.message : KeyError → String
  | .emptySegment key =>
    key ++ " does not correspond to a valid namespace: key cannot be empty"
  | .tooDeep key =>
    key ++ " does not correspond to a valid namespace: more than " ++
      String.ofList (Decimal.natText maxSegments) ++ " segments"
  | .notAMapping key segment =>
    key ++ " does not correspond to a valid namespace: " ++ segment ++ " is not a mapping"
  | .missing key mode =>
    "trying to " ++ mode.name ++ " to a key that does not exist: " ++ key
  | .incompatible key mode found =>
    "cannot " ++ mode.name ++ " to " ++ key ++ ": existing value is " ++ found.phrase

/-! ## Right-hand sides -/

/-- A right-hand side that waits to be stored: text as it is, a text on its key's
line, a block of lines, or a value. -/
inductive Incoming where
  | text (s : String)
  | line (s : String)
  | block (s : String)
  | value (v : Value)
  deriving Repr

/-- The value that is assigned or joined to a list. -/
def Incoming.toValue : Incoming → Value
  | .text s => .text s
  | .line s => Literal.ofLine s
  | .block s => Literal.ofBlock s
  | .value v => v

/-- The text that is joined to a text; it is not read as a literal. -/
def Incoming.toText? : Incoming → Option String
  | .text s => some s
  | .line s => some s
  | .block s => some s
  | .value (.text s) => some s
  | .value _ => none

namespace Key

/-! ## Places -/

/-- The segments of a key. -/
def segments (key : String) : List String :=
  (Text.splitOn '.' key.toList).map String.ofList

/-- The segments in front of the last one, and the last one. -/
def place (key : String) : Except KeyError (List String × String) :=
  let segs := segments key
  if segs.length > maxSegments then .error (.tooDeep key)
  else if segs.any (· == "") then .error (.emptySegment key)
  else .ok (segs.dropLast, segs.getLast?.getD "")

/-- The root after `f` has run on the mapping that a path leads to, missing
mappings created on the way, and what `f` answers; or the segment at which
something else than a mapping stands. The root is changed while it is walked. -/
def focus {α : Type} (f : Mapping → Mapping × α) :
    List String → Mapping → Mapping × Except String α
  | [], m =>
    let (m, a) := f m
    (m, .ok a)
  | seg :: rest, m =>
    match (Entries.get? m seg).getD (.mapping []) with
    | .mapping sub =>
      let (sub, found) := focus f rest sub
      (Entries.insert m seg (.mapping sub), found)
    | _ => (m, .error seg)

/-! ## Resolving -/

/-- Where a key leads: the root with missing mappings created, the mapping that
holds the last segment, and that segment. -/
structure Resolved where
  root : Mapping
  within : Mapping
  last : String

/-- The place of a key. A failure leaves the root as it was: something else than a
mapping is never met below a mapping just created. -/
def resolve (root : Mapping) (key : String) : Except KeyError Resolved :=
  match place key with
  | .error e => .error e
  | .ok (parents, last) =>
    match focus (fun m => (m, m)) parents root with
    | (_, .error seg) => .error (.notAMapping key seg)
    | (root, .ok within) => .ok ⟨root, within, last⟩

/-! ## Storing -/

def overwriteWarning (key : String) : String :=
  "Overwriting existing value at key \"" ++ key ++ "\""

/-- The existing value with a right-hand side joined to it: text to text, list to
list. -/
def joined (existing : Value) (incoming : Incoming) (mode : Mode) : Except Kind Value :=
  match existing with
  | .text old =>
    match incoming.toText? with
    | some s => .ok (.text (if mode = .append then old ++ s else s ++ old))
    | none => .error .text
  | .list old =>
    match incoming.toValue with
    | .list items => .ok (.list (if mode = .append then old ++ items else items ++ old))
    | _ => .error .list
  | other => .error other.kind

/-- A mapping after a right-hand side is stored under one of its keys, and the
warning that something was replaced. -/
def put (key last : String) (incoming : Incoming) (mode : Mode) (m : Mapping) :
    Mapping × Except KeyError (Option String) :=
  if mode = .assign then
    (Entries.insert m last incoming.toValue,
      .ok (if Mapping.contains m last then some (overwriteWarning key) else none))
  else
    match Entries.get? m last with
    | none => (m, .error (.missing key mode))
    | some existing =>
      match joined existing incoming mode with
      | .ok v => (Entries.insert m last v, .ok none)
      | .error found => (m, .error (.incompatible key mode found))

/-- The root after a right-hand side is stored at a key, and the warning or the
failure. -/
def apply (root : Mapping) (key : String) (incoming : Incoming) (mode : Mode) :
    Mapping × Except KeyError (Option String) :=
  match place key with
  | .error e => (root, .error e)
  | .ok (parents, last) =>
    match focus (put key last incoming mode) parents root with
    | (root, .error seg) => (root, .error (.notAMapping key seg))
    | (root, .ok outcome) => (root, outcome)

end Key

end ExerciseDoc
