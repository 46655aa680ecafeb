import ExerciseDoc.Text.Lines

/-!
# Path — file paths as text

Slash-separated paths, read by their segments and never looked up. Empty segments
and single dots say nothing; a dot in front of a relative path is kept only where
the text of a path is cut. `Path.Normal` is the lexical normal form, in which a
pair of dots takes back the name before it, and `Path.join` resolves a reference
against a directory.
-/

namespace ExerciseDoc.Path

open Text (splitOn joinWith)

/-- A part of a path between slashes. -/
abbrev Segment := List Char

def isAbsolute (p : List Char) : Bool :=
  p.head? == some '/'

/-- The segment that stays where it is. -/
def here : Segment := ['.']

/-- The segment that leads out of a directory. -/
def parent : Segment := ['.', '.']

/-- A segment that says nothing: empty or a single dot. -/
def isVoid (s : Segment) : Bool :=
  s == [] || s == here

/-! ## Normal form -/

/-- A path with nothing to fold: the directories to leave first, which an absolute
path has none of, and the names to enter, innermost first. -/
structure Normal where
  absolute : Bool
  climbs : Nat
  names : List Segment
  deriving DecidableEq, Repr

/-- One more segment at the end of a path. -/
def Normal.push (n : Normal) (s : Segment) : Normal :=
  if isVoid s then n
  else if s = parent then
    match n.names with
    | _ :: rest => { n with names := rest }
    | [] => if n.absolute then n else { n with climbs := n.climbs + 1 }
  else { n with names := s :: n.names }

/-- The normal form of a path. -/
def Normal.of (p : List Char) : Normal :=
  (splitOn '/' p).foldl Normal.push ⟨isAbsolute p, 0, []⟩

/-- The segments of a normal form, outermost first. -/
def Normal.segments (n : Normal) : List Segment :=
  List.replicate n.climbs parent ++ n.names.reverse

/-- The text of a normal form. -/
def Normal.text (n : Normal) : List Char :=
  if n.absolute then '/' :: joinWith '/' n.segments else joinWith '/' n.segments

/-- The path with its single and double dots folded by text alone. -/
def normalize (p : String) : String :=
  String.ofList (Normal.of p.toList).text

/-! ## References -/

/-- A reference behind a directory; an absolute reference stands alone. -/
def appended (directory reference : List Char) : List Char :=
  if isAbsolute reference then reference
  else if directory = [] then reference
  else if directory.getLast? = some '/' then directory ++ reference
  else directory ++ '/' :: reference

/-- The normal form of a reference made from a directory. -/
def join (directory reference : String) : String :=
  String.ofList (Normal.of (appended directory.toList reference.toList)).text

/-! ## Cutting -/

/-- What a path starts from. -/
inductive Start where
  | root
  | here
  | bare
  deriving DecidableEq, Repr

/-- The start of a path and the segments behind it. -/
def start (p : List Char) : Start × List Segment :=
  match splitOn '/' p with
  | first :: rest =>
    if first = [] ∧ rest ≠ [] then (.root, rest)
    else if first = here then (.here, rest)
    else (.bare, first :: rest)
  | [] => (.bare, [])

/-- The segments without void ones at the end. -/
def dropVoidEnd (segs : List Segment) : List Segment :=
  (segs.reverse.dropWhile isVoid).reverse

/-- The text of a start and the segments behind it. -/
def rejoined : Start → List Segment → List Char
  | .root, segs => '/' :: joinWith '/' segs
  | .here, segs => joinWith '/' (here :: segs)
  | .bare, segs => joinWith '/' segs

/-- The directory that a path lies in, as the path writes it; empty if the path
has nothing but its start. -/
def directory (p : String) : String :=
  let (origin, segs) := start p.toList
  match dropVoidEnd segs with
  | [] => ""
  | kept => String.ofList (rejoined origin (dropVoidEnd kept.dropLast))

/-- The last name of a path, or the whole path if it does not end in a name. -/
def fileName (p : String) : String :=
  match (dropVoidEnd (start p.toList).2).getLast? with
  | some s => if s = parent then p else String.ofList s
  | none => p

/-- The text behind the last dot of the text behind the last slash, or all of the
latter if it has no dot. -/
def extension (p : String) : String :=
  let name := (splitOn '/' p.toList).getLast?.getD []
  String.ofList ((splitOn '.' name).getLast?.getD [])

end ExerciseDoc.Path
