import ExerciseDoc.Proofs.Key.Assign
import ExerciseDoc.Proofs.Text.Fields

/-!
# Key — appending and prepending

Text is joined to text and a list to a list, whatever the right-hand side looks like, and
nothing else can be joined (`joined_eq_error_iff`). What a key has is therefore of one kind
all along a run of stores that append and prepend, and grows at both ends
(`Joins.joinedTo`). Both kinds are made of parts that are put one behind the other,
which is all that the run needs to know of them (`Joins`).
-/

namespace ExerciseDoc

/-- The items that are joined to a list; a text that is written as a list has some. -/
def Incoming.toItems? (incoming : Incoming) : Option (List Value) :=
  match incoming.toValue with
  | .list items => some items
  | _ => none

namespace Key

/-! ## What can be joined -/

/-- A right-hand side that cannot be joined to a value: a value other than text to a text,
what is not read as a list to a list, and anything to anything else. -/
def Mismatched : Value → Incoming → Prop
  | .text _, incoming => ∃ v, incoming = .value v ∧ ∀ s, v ≠ .text s
  | .list _, incoming => ∀ items, incoming.toValue ≠ .list items
  | _, _ => True

/-- Values that others are joined to: `wrap` makes such a value, `part?` is what of a
right-hand side is joined to it, and `concat` puts parts one behind the other. -/
structure Joins {γ : Type} [Append γ] (wrap : γ → Value) (part? : Incoming → Option γ)
    (concat : List γ → γ) : Prop where
  joined_eq : ∀ x incoming mode, joined (wrap x) incoming mode =
    match part? incoming with
    | some y => .ok (wrap (if mode = .append then x ++ y else y ++ x))
    | none => .error (wrap x).kind
  not_mapping : ∀ x m, wrap x ≠ .mapping m
  concat_one : ∀ x, concat [x] = x
  concat_join : ∀ front x y back, concat (front ++ (x ++ y) :: back) =
    concat (front ++ x :: y :: back)

theorem joins_text : Joins Value.text Incoming.toText? String.join where
  joined_eq x incoming mode := by
    rw [joined]
    cases incoming.toText? <;> rfl
  not_mapping x m h := nomatch h
  concat_one x := by simp
  concat_join front x y back := by simp [String.append_assoc]

theorem joins_list : Joins Value.list Incoming.toItems? List.flatten where
  joined_eq x incoming mode := by
    rw [joined, Incoming.toItems?]
    cases incoming.toValue <;> rfl
  not_mapping x m h := nomatch h
  concat_one x := by simp
  concat_join front x y back := by simp

theorem toText?_eq_none_iff {incoming : Incoming} :
    incoming.toText? = none ↔ ∃ v, incoming = .value v ∧ ∀ s, v ≠ .text s := by
  constructor
  · intro h
    cases incoming with
    | value v =>
        refine ⟨v, rfl, ?_⟩
        rintro s rfl
        cases h
    | _ => cases h
  · rintro ⟨v, rfl, hv⟩
    cases v with
    | text s => exact absurd rfl (hv s)
    | _ => rfl

theorem toItems?_eq_none_iff {incoming : Incoming} :
    incoming.toItems? = none ↔ ∀ items, incoming.toValue ≠ .list items := by
  unfold Incoming.toItems?
  cases incoming.toValue <;> simp

/-- Nothing can be joined exactly where the two do not match. -/
theorem joined_eq_error_iff {v : Value} {incoming : Incoming} {mode : Mode} {found : Kind} :
    joined v incoming mode = .error found ↔ Mismatched v incoming ∧ found = v.kind := by
  cases v with
  | text t =>
      rw [Mismatched, ← toText?_eq_none_iff, joins_text.joined_eq]
      cases incoming.toText? <;> simp [eq_comm]
  | list l =>
      rw [Mismatched, ← toItems?_eq_none_iff, joins_list.joined_eq]
      cases incoming.toItems? <;> simp [eq_comm]
  | _ => simp [joined, Mismatched, eq_comm]

/-! ## One store -/

section Apply

variable {root : Mapping} {key : String} {v : Value} {incoming : Incoming} {mode : Mode}

theorem put_of_get? {m : Mapping} {last : String} (hmode : mode ≠ .assign)
    (hlast : Entries.get? m last = some v) (key : String) (incoming : Incoming) :
    put key last incoming mode m =
      match joined v incoming mode with
      | .ok w => (Entries.insert m last w, .ok none)
      | .error found => (m, .error (.incompatible key mode found)) := by
  cases hjoin : joined v incoming mode <;> simp only [put, if_neg hmode, hlast, hjoin]

/-- Where something stands, it is replaced by what it is joined to. -/
theorem Assignable.apply_join (h : Assignable root key) (hmode : mode ≠ .assign)
    (hv : Value.get? (.mapping root) (segments key) = some v) (incoming : Incoming) :
    match joined v incoming mode with
    | .ok w => (apply root key incoming mode).2 = .ok none ∧
        Assigned root (apply root key incoming mode).1 (segments key) w
    | .error found =>
        (apply root key incoming mode).2 = .error (.incompatible key mode found) := by
  obtain ⟨parents, last, m, hsegments, hpassable, hm⟩ := h.exists_place
  rw [hsegments, hm.get?_concat] at hv
  have hput := put_of_get? hmode hv key incoming
  rw [h.apply_eq hsegments hm, hsegments]
  cases hjoined : joined v incoming mode with
  | ok w =>
      rw [hjoined] at hput
      exact ⟨by rw [hput], assigned_focus hpassable hm (by rw [hput])⟩
  | error found =>
      rw [hjoined] at hput
      dsimp only
      rw [hput]

/-- Why nothing can be joined to what a key has: the key is refused, or the two do not
match. -/
theorem apply_join_eq_error_iff (hmode : mode ≠ .assign)
    (hv : Value.get? (.mapping root) (segments key) = some v) {e : KeyError} :
    (apply root key incoming mode).2 = .error e ↔
      maxSegments < (segments key).length ∧ e = .tooDeep key ∨
      (segments key).length ≤ maxSegments ∧ "" ∈ segments key ∧ e = .emptySegment key ∨
      (segments key).length ≤ maxSegments ∧ "" ∉ segments key ∧
        Mismatched v incoming ∧ e = .incompatible key mode v.kind := by
  rcases place_cases key with ⟨hlong, hplace⟩ | ⟨hshort, hempty, hplace⟩ |
    ⟨hshort, hnamed, -⟩
  · rw [apply_of_refused hplace]
    simp [hlong, Nat.not_le.mpr hlong, eq_comm]
  · rw [apply_of_refused hplace]
    simp [hshort, Nat.not_lt.mpr hshort, hempty, eq_comm]
  · have hempty : "" ∉ segments key := fun h => hnamed _ h rfl
    have hjoin := (assignable_of_get? hshort hnamed hv).apply_join hmode hv incoming
    simp only [Nat.not_lt.mpr hshort, hshort, hempty, false_and, true_and, false_or,
      not_false_eq_true]
    cases hjoined : joined v incoming mode with
    | ok w =>
        rw [hjoined] at hjoin
        rw [hjoin.1]
        refine ⟨by rintro ⟨⟩, fun ⟨hmismatched, _⟩ => ?_⟩
        rw [joined_eq_error_iff.mpr ⟨hmismatched, rfl⟩] at hjoined
        cases hjoined
    | error found =>
        rw [hjoined] at hjoin
        obtain ⟨hmismatched, rfl⟩ := joined_eq_error_iff.mp hjoined
        rw [hjoin]
        simp [hmismatched, eq_comm]

end Apply

/-! ## Runs -/

/-- The root after right-hand sides have been stored at a key one after the other, and the
outcome of each. -/
def applyAll (key : String) :
    List (Incoming × Mode) → Mapping → Mapping × List (Except KeyError (Option String))
  | [], root => (root, [])
  | (incoming, mode) :: rest, root =>
    let (root, outcome) := apply root key incoming mode
    let (root, outcomes) := applyAll key rest root
    (root, outcome :: outcomes)

/-- What right-hand sides that are stored in a mode have to be joined, in their order. -/
def partsOf {γ : Type} (part? : Incoming → Option γ) (mode : Mode)
    (steps : List (Incoming × Mode)) : List γ :=
  steps.filterMap fun step => if step.2 = mode then part? step.1 else none

theorem partsOf_cons_self {γ : Type} {part? : Incoming → Option γ} {incoming : Incoming}
    {mode : Mode} {y : γ} (steps : List (Incoming × Mode)) (h : part? incoming = some y) :
    partsOf part? mode ((incoming, mode) :: steps) = y :: partsOf part? mode steps := by
  simp [partsOf, h]

theorem partsOf_cons_of_ne {γ : Type} (part? : Incoming → Option γ) (incoming : Incoming)
    {mode other : Mode} (steps : List (Incoming × Mode)) (h : mode ≠ other) :
    partsOf part? other ((incoming, mode) :: steps) = partsOf part? other steps := by
  simp [partsOf, h]

/-- A run at a key ends with a value there, without a warning, and with every path that
does not lead to the key as it was; the mappings on the way keep their other entries. -/
structure JoinedTo (root : Mapping) (key : String) (steps : List (Incoming × Mode))
    (v : Value) : Prop where
  stored : Value.get? (.mapping (applyAll key steps root).1) (segments key) = some v
  beside : ∀ other, ¬ other <+: segments key →
    Value.get? (.mapping (applyAll key steps root).1) other = Value.get? (.mapping root) other
  kept : ∀ front seg rest, segments key = front ++ seg :: rest →
    KeptBut root (applyAll key steps root).1 front seg
  silent : ∀ outcome ∈ (applyAll key steps root).2, outcome = .ok none

section Runs

variable {γ : Type} [Append γ] {wrap : γ → Value} {part? : Incoming → Option γ}
variable {concat : List γ → γ} {root : Mapping} {key : String} {x : γ}
variable {steps : List (Incoming × Mode)}

/-- A run that succeeds leaves the value grown at both ends, and nothing else changed. -/
theorem Joins.assigned_applyAll (h : Joins wrap part? concat)
    (hx : Value.get? (.mapping root) (segments key) = some (wrap x))
    (hmodes : ∀ step ∈ steps, step.2 ≠ .assign)
    (hok : ∀ outcome ∈ (applyAll key steps root).2, ∃ warning, outcome = .ok warning) :
    (∀ step ∈ steps, (part? step.1).isSome) ∧
      (∀ outcome ∈ (applyAll key steps root).2, outcome = .ok none) ∧
      Assigned root (applyAll key steps root).1 (segments key)
        (wrap (concat ((partsOf part? .prepend steps).reverse ++
          x :: partsOf part? .append steps))) := by
  induction steps generalizing root x with
  | nil =>
      refine ⟨by simp, by simp [applyAll], ?_, fun other _ _ => rfl⟩
      simpa [applyAll, partsOf, h.concat_one] using hx
  | cons step rest ih =>
      obtain ⟨incoming, mode⟩ := step
      obtain ⟨hmode, hmodes⟩ := List.forall_mem_cons.mp hmodes
      rw [applyAll] at hok ⊢
      obtain ⟨⟨warning, hfirst⟩, hok⟩ := List.forall_mem_cons.mp hok
      have hassignable := assignable_of_apply (Prod.ext rfl hfirst :
        apply root key incoming mode = ((apply root key incoming mode).1, .ok warning))
      have hjoin := hassignable.apply_join hmode hx incoming
      rw [h.joined_eq] at hjoin
      cases hpart : part? incoming with
      | none =>
          rw [hpart, hfirst] at hjoin
          cases hjoin
      | some y =>
          rw [hpart] at hjoin
          obtain ⟨hsilent, hassigned⟩ := hjoin
          obtain ⟨hparts, hsilents, hrest⟩ := ih hassigned.stored hmodes hok
          refine ⟨?_, ?_, ?_⟩
          · exact List.forall_mem_cons.mpr ⟨by rw [hpart]; rfl, hparts⟩
          · exact List.forall_mem_cons.mpr ⟨hsilent, hsilents⟩
          · have hgrown := hassigned.trans hrest
            -- The part stands next to the old value, on the side of the mode.
            cases mode with
            | assign => exact absurd rfl hmode
            | append =>
                rw [if_pos rfl, h.concat_join] at hgrown
                rwa [partsOf_cons_self rest hpart, partsOf_cons_of_ne part? incoming rest (by simp)]
            | prepend =>
                rw [if_neg (by simp), h.concat_join] at hgrown
                rwa [partsOf_cons_self rest hpart,
                  partsOf_cons_of_ne part? incoming rest (by simp), List.reverse_cons,
                  List.append_assoc, List.singleton_append]

/-- Nothing is found below a value that is no mapping. -/
theorem Joins.get?_below (h : Joins wrap part? concat)
    (hx : Value.get? (.mapping root) (segments key) = some (wrap x)) {other : List String}
    (hover : segments key <+: other) (hunder : ¬ other <+: segments key) :
    Value.get? (.mapping root) other = none := by
  obtain ⟨rest, rfl⟩ := hover
  cases rest with
  | nil => exact absurd (by simp) hunder
  | cons seg rest =>
      rw [Value.get?_append, hx, Option.bind_some]
      cases hbelow : Value.get? (wrap x) (seg :: rest) with
      | none => rfl
      | some u =>
          obtain ⟨m, hm⟩ := Value.exists_mapping_of_get?_cons hbelow
          exact absurd hm (h.not_mapping x m)

theorem Joins.joinedTo (h : Joins wrap part? concat)
    (hx : Value.get? (.mapping root) (segments key) = some (wrap x))
    (hmodes : ∀ step ∈ steps, step.2 ≠ .assign)
    (hok : ∀ outcome ∈ (applyAll key steps root).2, ∃ warning, outcome = .ok warning) :
    (∀ step ∈ steps, (part? step.1).isSome) ∧
      JoinedTo root key steps (wrap (concat ((partsOf part? .prepend steps).reverse ++
        x :: partsOf part? .append steps))) := by
  obtain ⟨hparts, hsilent, hassigned⟩ := h.assigned_applyAll hx hmodes hok
  refine ⟨hparts, hassigned.stored, fun other hother => ?_, ?_, hsilent⟩
  · by_cases hover : segments key <+: other
    · rw [h.get?_below hx hover hother, h.get?_below hassigned.stored hover hother]
    · exact hassigned.apart other hover hother
  · intro front seg rest hsegments
    rw [hsegments] at hx hassigned
    exact hassigned.keptBut (passable_of_get? hx)

end Runs

/-- **Runs of appends and prepends.** At a key that has a text or a list, a run of appends
and prepends that all succeed ends with what was prepended, the last first, then what stood
there, then what was appended: raw texts at a text, the lists that right-hand sides are read
as at a list. There is no warning, and nothing else of the root changes. A single one fails
exactly if the key is too long, or has an empty segment, or the right-hand side does not
match what the key has. -/
theorem join_runs {root : Mapping} {key : String} {v : Value}
    (hv : Value.get? (.mapping root) (segments key) = some v) :
    (∀ steps, (∀ step ∈ steps, step.2 ≠ .assign) →
      (∀ outcome ∈ (applyAll key steps root).2, ∃ warning, outcome = .ok warning) →
      (∀ t, v = .text t →
        (∀ step ∈ steps, step.1.toText?.isSome) ∧
        JoinedTo root key steps (.text (String.join
          ((partsOf Incoming.toText? .prepend steps).reverse ++
            t :: partsOf Incoming.toText? .append steps)))) ∧
      (∀ l, v = .list l →
        (∀ step ∈ steps, step.1.toItems?.isSome) ∧
        JoinedTo root key steps (.list
          ((partsOf Incoming.toItems? .prepend steps).reverse ++
            l :: partsOf Incoming.toItems? .append steps).flatten))) ∧
    ∀ incoming mode, mode ≠ .assign → ∀ e, ((apply root key incoming mode).2 = .error e ↔
      maxSegments < (segments key).length ∧ e = .tooDeep key ∨
      (segments key).length ≤ maxSegments ∧ "" ∈ segments key ∧ e = .emptySegment key ∨
      (segments key).length ≤ maxSegments ∧ "" ∉ segments key ∧
        Mismatched v incoming ∧ e = .incompatible key mode v.kind) := by
  refine ⟨fun steps hmodes hok => ⟨?_, ?_⟩, fun incoming mode hmode e => ?_⟩
  · rintro t rfl
    exact joins_text.joinedTo hv hmodes hok
  · rintro l rfl
    exact joins_list.joinedTo hv hmodes hok
  · exact apply_join_eq_error_iff hmode hv

/-- Texts at both ends of a text; those that look like a number or a list stay as they
are. -/
theorem join_runs_texts :
    let root : Mapping := [("a", .mapping [("n", .int 1), ("t", .text "-")])]
    let steps : List (Incoming × Mode) := [(.line "1", .append), (.block "[2]", .prepend),
      (.value (.text "x"), .append), (.text " y", .prepend)]
    JoinedTo root "a.t" steps (.text " y[2]-1x") := by
  intro root steps
  have hv : Value.get? (.mapping root) (segments "a.t") = some (.text "-") := rfl
  have hoks : (applyAll "a.t" steps root).2 = [.ok none, .ok none, .ok none, .ok none] := rfl
  have hok : ∀ outcome ∈ (applyAll "a.t" steps root).2, ∃ warning, outcome = .ok warning := by
    rw [hoks]
    simp
  exact (((join_runs hv).1 steps (by simp [steps]) hok).1 "-" rfl).2

/-- Something stands at a key with an empty segment, and at a key of too many segments, and
yet a text cannot be appended to the text there, although the two match. -/
theorem join_refused :
    let empty : Mapping := [("a", .mapping [("", .text "t")])]
    let long := String.ofList (Text.joinWith '.' (List.replicate 129 ['a']))
    let deep : Mapping :=
      [("a", (List.replicate 128 "a").foldr (fun seg v => .mapping [(seg, v)]) (.text "t"))]
    ¬ Mismatched (.text "t") (.text "x") ∧
      (Value.get? (.mapping empty) (segments "a.") = some (.text "t") ∧
        apply empty "a." (.text "x") .append = (empty, .error (.emptySegment "a."))) ∧
      Value.get? (.mapping deep) (segments long) = some (.text "t") ∧
        apply deep long (.text "x") .append = (deep, .error (.tooDeep long)) := by
  intro empty long deep
  have hlong : segments long = List.replicate 129 "a" := by
    rw [segments, String.toList_ofList, Text.splitOn_joinWith (by simp) (by simp),
      List.map_replicate]
  have hplace : place long = .error (.tooDeep long) := by
    have hcount : (segments long).length > maxSegments := by
      rw [hlong, List.length_replicate]
      decide
    unfold place
    rw [if_pos hcount]
  refine ⟨?_, ⟨rfl, rfl⟩, ?_, apply_of_refused hplace _ _ _⟩
  · rintro ⟨v, hv, -⟩
    cases hv
  · rw [hlong]
    rfl

end Key

end ExerciseDoc
