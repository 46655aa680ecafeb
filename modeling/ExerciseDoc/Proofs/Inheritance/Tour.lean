import ExerciseDoc.Document
import ExerciseDoc.Line.Classify
import ExerciseDoc.Source.Basic
import ExerciseDoc.Text.Lines

/-!
# Inheritance — the tour

The lines of a file and of all it inherits from in one order: line by line, and behind
an `extends` line the lines of the ancestor, before the file goes on. A `Tour` takes the
first line of an agenda and puts what stands below it in front of the rest. It reads
lines and asks the resolver; it stores nothing and refuses nothing, so it may go on for
ever where files inherit from each other.
-/

namespace ExerciseDoc

/-! ## Lines of one file -/

/-- Whether a block is open behind a line, and not only in front of it. -/
def inBlockAfter : Bool → List Char → Bool
  | true, raw => !Line.closesBlock (Text.lineBody raw)
  | false, raw =>
    match Line.classify (Text.lineBody raw) with
    | some (.openBlock _ _) => true
    | _ => false

/-- What a line says, which is nothing inside a block. -/
def directive? : Bool → List Char → Option Directive
  | true, _ => none
  | false, raw => Line.classify (Text.lineBody raw)

/-- What lines say in order, the first one inside a block or not. -/
def directives : Bool → List (List Char) → List Directive
  | _, [] => []
  | inBlock, raw :: rest =>
    (directive? inBlock raw).toList ++ directives (inBlockAfter inBlock raw) rest

/-- A line that says something, and the file it stands in. -/
structure Visit where
  path : FullPath
  circleId : Int
  directive : Directive
  deriving DecidableEq, Repr

/-- The lines of a file that say something; a file that is not text has none. -/
def Location.visits (location : Location) : List Visit :=
  match String.fromUTF8? location.contents with
  | some text =>
    (directives false (Text.physicalLines text.toList)).map
      (⟨location.path, location.circleId, ·⟩)
  | none => []

namespace Visit

/-- What a reference in the file of the line asks a resolver for. -/
def ask (v : Visit) (uri : String) : Request :=
  ⟨uri, v.path.directory, v.path.resourceId, v.circleId⟩

/-- The request of a line that refers to another file. -/
def request? (v : Visit) : Option Request :=
  match v.directive with
  | .extends uri => some (v.ask uri)
  | .fromFile _ _ uri => some (v.ask uri)
  | .link _ uri => some (v.ask uri)
  | .dependency uri _ => some (v.ask uri)
  | _ => none

/-- The text of a comment. -/
def comment? (v : Visit) : Option String :=
  match v.directive with
  | .comment text => some text
  | _ => none

/-- The file that a dependency leads to, under the name given or its own. -/
def dependency? (resolver : Resolver) (v : Visit) : Option Dependency :=
  match v.directive with
  | .dependency uri name =>
    (resolver (v.ask uri)).map fun location =>
      ⟨location.path, name.getD location.path.fileName⟩
  | _ => none

/-- The lines below a line: those of the file that it inherits from. -/
def below (resolver : Resolver) (v : Visit) : List Visit :=
  match v.directive with
  | .extends uri =>
    match resolver (v.ask uri) with
    | some location => location.visits
    | none => []
  | _ => []

end Visit

/-! ## Lines of a whole tree -/

/-- From an agenda of lines, a tour visits some lines in order and has others left. -/
inductive Tour (resolver : Resolver) : List Visit → List Visit → List Visit → Prop where
  | stop {agenda : List Visit} : Tour resolver agenda [] agenda
  | visit {v : Visit} {agenda seen left : List Visit} :
      Tour resolver (v.below resolver ++ agenda) seen left →
      Tour resolver (v :: agenda) (v :: seen) left

namespace Tour

variable {resolver : Resolver} {agenda agenda' seen seen' left left' : List Visit}

/-- What stands further down an agenda waits. -/
theorem append_right (h : Tour resolver agenda seen left) (later : List Visit) :
    Tour resolver (agenda ++ later) seen (left ++ later) := by
  induction h with
  | stop => exact .stop
  | visit _ ih =>
      rw [List.append_assoc] at ih
      exact .visit ih

theorem trans (h : Tour resolver agenda seen left) (h' : Tour resolver left seen' left') :
    Tour resolver agenda (seen ++ seen') left' := by
  induction h with
  | stop => exact h'
  | visit _ ih => exact .visit (ih h')

/-- Behind a tour that has come to its end, the next one begins. -/
theorem append (h : Tour resolver agenda seen []) (h' : Tour resolver agenda' seen' left) :
    Tour resolver (agenda ++ agenda') (seen ++ seen') left :=
  (h.append_right agenda').trans h'

/-- **There is one tour**: one that has come to its end begins with every other one. -/
theorem isPrefix (h : Tour resolver agenda seen []) (h' : Tour resolver agenda seen' left) :
    seen' <+: seen := by
  induction h' generalizing seen with
  | stop => exact List.nil_prefix
  | visit _ ih =>
      cases h with
      | visit h => exact (List.prefix_cons_inj _).mpr (ih h)

end Tour

end ExerciseDoc
