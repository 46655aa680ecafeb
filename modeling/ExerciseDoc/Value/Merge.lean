import ExerciseDoc.Value.Basic

/-!
# Value — deep merge

`Mapping.merge` lays one mapping over another: keys that only one side has are
kept, mappings on both sides are merged in turn, and any other conflict is won
by the incoming side.
-/

namespace ExerciseDoc

mutual

/-- An incoming value laid over what stands at its key, if anything does. -/
def Value.mergedOver (existing : Option Value) : Value → Value
  | .mapping entries =>
    match existing with
    | some (.mapping old) => .mapping (Mapping.merge old entries)
    | _ => .mapping entries
  | .null => .null
  | .bool b => .bool b
  | .int n => .int n
  | .float x => .float x
  | .text s => .text s
  | .list items => .list items

/-- The target with every entry of the incoming mapping laid over it in turn. -/
def Mapping.merge (target : List (String × Value)) :
    List (String × Value) → List (String × Value)
  | [] => target
  | (key, value) :: rest =>
    Mapping.merge
      (Entries.insert target key (Value.mergedOver (Entries.get? target key) value)) rest

end

@[simp] theorem Mapping.merge_nil (target : Mapping) : Mapping.merge target [] = target := by
  simp [Mapping.merge]

end ExerciseDoc
