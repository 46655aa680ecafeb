import ExerciseDoc.Source.Basic

/-!
# Source — files on disk

Reading a disk is a function from the text of a path to bytes or a failure. A
resolver made of one reads the normal form of the path that a request asks for,
and hands on the repository and the circle of whoever asks.

`FileTree` is such a disk: files and directories below one working directory. It
follows a path step by step, so a path through something that is not there fails
even where two dots would take the step back.
-/

namespace ExerciseDoc

/-- Why a path could not be read. -/
inductive ReadFailure where
  | notFound
  | notADirectory
  | isADirectory
  | nameTooLong
  | other (text : String)
  deriving DecidableEq, Repr

def ReadFailure.message : ReadFailure → String
  | .notFound => "No such file or directory (os error 2)"
  | .notADirectory => "Not a directory (os error 20)"
  | .isADirectory => "Is a directory (os error 21)"
  | .nameTooLong => "File name too long (os error 36)"
  | .other text => text

/-- The reading of a disk. -/
abbrev Disk := String → Except ReadFailure ByteArray

/-- The resolver that answers from a disk. -/
def Disk.resolver (disk : Disk) : Resolver := fun q =>
  match disk q.target.path with
  | .ok contents => some ⟨contents, q.target, q.circleId⟩
  | .error _ => none

/-! ## A tree of files -/

open ExerciseDoc.Path (Segment)

/-- Files and directories below a working directory, by their names from there.
Every proper front of a file's names is a directory. -/
structure FileTree where
  files : List (List Segment × ByteArray)
  directories : List (List Segment)

namespace FileTree

def empty : FileTree := ⟨[], []⟩

/-- The names of a path below the working directory. -/
def namesOf (path : String) : List Segment :=
  (Path.Normal.of path.toList).segments

/-- All fronts of a list of names, the list itself among them. -/
def fronts : List Segment → List (List Segment)
  | [] => [[]]
  | s :: rest => [] :: (fronts rest).map (s :: ·)

/-- The tree with a directory and those above it. -/
def addDirectory (tree : FileTree) (path : String) : FileTree :=
  { tree with directories := fronts (namesOf path) ++ tree.directories }

/-- The tree with a file and the directories above it. -/
def addFile (tree : FileTree) (path : String) (contents : ByteArray) : FileTree :=
  let steps := namesOf path
  ⟨(steps, contents) :: tree.files, fronts steps.dropLast ++ tree.directories⟩

/-- The bytes of the file with these names. -/
def contents? (tree : FileTree) (names : List Segment) : Option ByteArray :=
  (tree.files.find? fun f => f.1 == names).map (·.2)

/-- The longest name of a file, in bytes. -/
def maxNameBytes : Nat := 255

/-- The longest path that is looked up, in bytes. -/
def maxPathBytes : Nat := 4095

/-- What stands at the end of a walk along segments from a directory, which is
given by its names below the working directory. `none` is any directory further
up: there are such directories, and nothing else is known there. -/
def walk (tree : FileTree) (dir : Option (List Segment)) :
    List Segment → Except ReadFailure ByteArray
  | [] => .error .isADirectory
  | s :: rest =>
    if Path.isVoid s then walk tree dir rest
    else if s = Path.parent then
      walk tree (dir.bind fun names => if names = [] then none else some names.dropLast) rest
    else if (String.ofList s).utf8ByteSize > maxNameBytes then .error .nameTooLong
    else
      match dir with
      | none => .error .notFound
      | some names =>
        let next := names ++ [s]
        match tree.contents? next with
        | some contents => if rest = [] then .ok contents else .error .notADirectory
        | none =>
          if tree.directories.contains next then walk tree (some next) rest
          else .error .notFound

/-- The reading of a tree. An empty path names nothing, and an absolute path leads
outside. -/
def disk (tree : FileTree) : Disk := fun path =>
  let cs := path.toList
  if cs = [] ∨ cs.contains '\x00' then .error .notFound
  else if path.utf8ByteSize > maxPathBytes then .error .nameTooLong
  else tree.walk (if Path.isAbsolute cs then none else some []) (Text.splitOn '/' cs)

end FileTree

end ExerciseDoc
