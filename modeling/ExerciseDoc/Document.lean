import ExerciseDoc.Source.Basic
import ExerciseDoc.Value.Merge

/-!
# Document — what a parse yields

The data of one file together with everything it inherits, the comments and
warnings met on the way, and the files that it depends on. Dependencies are a set,
listed in ascending order of repository, path and name. `Document.merge` folds an
ancestor in: its dependencies are united with ours, its comments and warnings
follow ours, and its data wins conflicts.
-/

namespace ExerciseDoc

/-! ## Dependencies -/

/-- A file to place beside the exercise, under a name of its own. -/
structure Dependency where
  path : FullPath
  name : String
  deriving DecidableEq, Repr

/-- The order of dependencies: by repository, then path, then name. -/
def Dependency.before (a b : Dependency) : Bool :=
  a.path.resourceId < b.path.resourceId ||
    (a.path.resourceId == b.path.resourceId &&
      (a.path.path < b.path.path || (a.path.path == b.path.path && a.name < b.name)))

/-- A list of dependencies in ascending order, with one more unless it is there. -/
def Dependency.insertInto (d : Dependency) : List Dependency → List Dependency
  | [] => [d]
  | e :: rest =>
    if e = d then e :: rest
    else if e.before d then e :: insertInto d rest
    else d :: e :: rest

/-! ## Documents -/

/-- Result of parsing one file with everything it inherits. -/
structure Document where
  path : FullPath
  circleId : Int
  format : String
  dependencies : List Dependency
  comments : List String
  warnings : List String
  data : Mapping
  deriving Repr, Inhabited

namespace Document

/-- The document of a file before its first line. -/
def empty (path : FullPath) (circleId : Int) (format : String) : Document :=
  ⟨path, circleId, format, [], [], [], []⟩

def addDependency (doc : Document) (d : Dependency) : Document :=
  { doc with dependencies := d.insertInto doc.dependencies }

def addComment (doc : Document) (comment : String) : Document :=
  { doc with comments := doc.comments ++ [comment] }

def addWarning (doc : Document) (warning : String) : Document :=
  { doc with warnings := doc.warnings ++ [warning] }

/-- The document with an ancestor folded in. -/
def merge (doc ancestor : Document) : Document :=
  { doc with
    dependencies := ancestor.dependencies.foldl (fun ds d => d.insertInto ds) doc.dependencies
    comments := doc.comments ++ ancestor.comments
    warnings := doc.warnings ++ ancestor.warnings
    data := Mapping.merge doc.data ancestor.data }

end Document

end ExerciseDoc
