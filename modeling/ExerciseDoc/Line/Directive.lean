/-!
# Line — directives

What one line of an exercise file says. A line has one of nine shapes, or none.
-/

namespace ExerciseDoc

/-- What a right-hand side does to its key. -/
inductive Operator where
  | assign
  /-- Assigns what the right-hand side is as a JSON text. -/
  | json
  | append
  | prepend
  deriving DecidableEq, Repr

/-- The shape of a line and its parts. -/
inductive Directive where
  /-- Inherits from the file that `uri` leads to. -/
  | extends (uri : String)
  /-- Stores the text of another file. -/
  | fromFile (key : String) (op : Operator) (uri : String)
  /-- Stores the path that `uri` leads to. -/
  | link (key uri : String)
  /-- Declares a widget. -/
  | component (key name : String)
  /-- Adds a file to the dependencies. -/
  | dependency (uri : String) (name : Option String)
  | comment (text : String)
  /-- Stores the rest of the line. -/
  | value (key : String) (op : Operator) (text : String)
  /-- Opens a block of lines to store. -/
  | openBlock (key : String) (op : Operator)
  | blank
  deriving DecidableEq, Repr

end ExerciseDoc
