import ExerciseDoc.Number.Decimal
import ExerciseDoc.Path

/-!
# Source — where files come from

A file is known by its repository and its path (`FullPath`). What a reference
leads to is a `Location`: the bytes, their own full path, and the circle that the
file belongs to. A `Resolver` answers a `Request`, and it is the only way to
another file: parsing never looks anything up by itself.
-/

namespace ExerciseDoc

/-- A file inside a repository. -/
structure FullPath where
  resourceId : Int
  path : String
  deriving DecidableEq, Repr, Inhabited

namespace FullPath

/-- The directory that references in the file start from. -/
def directory (p : FullPath) : String :=
  Path.directory p.path

/-- The file's own name. -/
def fileName (p : FullPath) : String :=
  Path.fileName p.path

/-- The repository and the path, a colon between them. -/
def text (p : FullPath) : String :=
  String.ofList (Decimal.intText p.resourceId) ++ ":" ++ p.path

end FullPath

/-- A file that has been found. -/
structure Location where
  contents : ByteArray
  path : FullPath
  circleId : Int
  deriving Inhabited

/-- A reference and where it is made: the directory, repository and circle of the
file that holds it. -/
structure Request where
  uri : String
  directory : String
  resourceId : Int
  circleId : Int
  deriving DecidableEq, Repr

/-- The path that a request asks for. -/
def Request.target (q : Request) : FullPath :=
  ⟨q.resourceId, Path.join q.directory q.uri⟩

/-- What answers references, or does not. -/
abbrev Resolver := Request → Option Location

end ExerciseDoc
