import ExerciseDoc.CommandLine.Answer

/-!
# Main — the command line on a real disk

Answering is a function of the disk, so the program answers with the files that it
has read so far, reads the first path that the answer asked for beyond them, and
answers again until nothing is missing.
-/

namespace ExerciseDoc.CommandLine

/-- The number of a system error, which may be reported with a minus sign. -/
def errorNumber (code : UInt32) : Nat :=
  if code.toNat < Nat.pow 2 31 then code.toNat else Nat.pow 2 32 - code.toNat

/-- What a failure to read means. -/
def failureOf : IO.Error → ReadFailure
  | .noFileOrDirectory .. => .notFound
  | .inappropriateType _ code details =>
    if errorNumber code = 20 then .notADirectory
    else if errorNumber code = 21 then .isADirectory
    else .other details
  | .invalidArgument _ code details =>
    if errorNumber code = 36 then .nameTooLong else .other details
  | e => .other (toString e)

/-- Reads a path from the disk of the machine. -/
def readPath (path : String) : IO (Except ReadFailure ByteArray) := do
  try
    return .ok (← IO.FS.readBinFile path)
  catch e =>
    return .error (failureOf e)

/-- The disk of the paths that have been read; nothing else is known to be there. -/
def knownDisk (known : List (String × Except ReadFailure ByteArray)) : Disk := fun path =>
  (known.lookup path).getD (.error .notFound)

/-- The answer once every path that it asks for has been read. -/
partial def answerFrom (i : Invocation) (known : List (String × Except ReadFailure ByteArray)) :
    IO Answer := do
  let disk := knownDisk known
  match (i.reads disk).find? fun path => (known.lookup path).isNone with
  | some path => answerFrom i ((path, ← readPath path) :: known)
  | none => return i.answer disk

end ExerciseDoc.CommandLine

open ExerciseDoc.CommandLine in
def main (args : List String) : IO UInt32 := do
  let result ←
    match Invocation.ofArguments? args with
    | some i => answerFrom i []
    | none => pure (answer args (knownDisk []))
  IO.print result.stdout
  IO.eprint result.stderr
  return UInt32.ofNat result.code
