import ExerciseDoc.Source.Basic

/-!
# Source — files held in memory

A store of registered files by repository and normal path. A later registration
replaces an earlier one whole, with its circle. Its resolver answers from the
requesting repository only; a file without a circle of its own is in the circle
of whoever asks.
-/

namespace ExerciseDoc

/-- A registered file. -/
structure StoredFile where
  contents : ByteArray
  circleId : Option Int
  deriving Inhabited

/-- Registered files, the latest first. -/
abbrev Store := List (FullPath × StoredFile)

namespace Store

def empty : Store := []

/-- The store with a file registered under the normal form of its path. -/
def add (store : Store) (path : FullPath) (file : StoredFile) : Store :=
  (⟨path.resourceId, Path.normalize path.path⟩, file) :: store

/-- The latest file registered under a path in normal form. -/
def find? : Store → FullPath → Option StoredFile
  | [], _ => none
  | (p, file) :: rest, path => if p = path then some file else find? rest path

/-- The paths of the files that are registered in a repository, each of them once. -/
def filesIn (store : Store) (resourceId : Int) : List FullPath :=
  ((store.map (·.1)).filter (·.resourceId == resourceId)).eraseDups

/-- The bytes of a registered file, whatever the spelling of its path. -/
def contents? (store : Store) (path : FullPath) : Option ByteArray :=
  (store.find? ⟨path.resourceId, Path.normalize path.path⟩).map (·.contents)

/-- The resolver that answers from a store. -/
def resolver (store : Store) : Resolver := fun q =>
  (store.find? q.target).map fun file =>
    ⟨file.contents, q.target, file.circleId.getD q.circleId⟩

end Store

end ExerciseDoc
