import ExerciseDoc.Proofs.Key.Focus

/-!
# Key — what an assignment changes

A key that is refused, or blocked on its way, leaves the root as it was
(`apply_of_not_assignable`). Every other key leads to a mapping, in which one entry may be
written (`Assignable.apply_eq`), and writing it changes nothing anywhere else
(`assigned_focus`). An assignment therefore stores its value under the key, and a later one
at the same key hides it (`assignment_lens`).
-/

namespace ExerciseDoc

namespace Key

/-! ## Keys and their places -/

/-- The key has no more segments than are allowed, none of them empty, and no other value
than a mapping stands in front of the last one. -/
structure Assignable (root : Mapping) (key : String) : Prop where
  short : (segments key).length ≤ maxSegments
  named : ∀ seg ∈ segments key, seg ≠ ""
  passable : Passable root (segments key).dropLast

/-- What an assignment makes of the data: the value stands at the path, and every path that
neither leads to it nor goes on from it leads where it did. -/
structure Assigned (root root' : Mapping) (path : List String) (v : Value) : Prop where
  stored : Value.get? (.mapping root') path = some v
  apart : ∀ other, ¬ path <+: other → ¬ other <+: path →
    Value.get? (.mapping root') other = Value.get? (.mapping root) other

theorem segments_ne_nil (key : String) : segments key ≠ [] := by
  simp [segments, Text.splitOn_ne_nil]

/-- The segments of a key are those in front of the last one, and the last one. -/
theorem dropLast_concat_segments (key : String) :
    (segments key).dropLast ++ [(segments key).getLast?.getD ""] = segments key := by
  rw [List.getLast?_eq_some_getLast (segments_ne_nil key)]
  exact List.dropLast_append_getLast (segments_ne_nil key)

theorem Assignable.place_eq {root : Mapping} {key : String} (h : Assignable root key) :
    place key = .ok ((segments key).dropLast, (segments key).getLast?.getD "") := by
  have hnamed : (segments key).any (· == "") = false := by
    simpa using h.named
  simp only [place, if_neg (Nat.not_lt.mpr h.short), hnamed]
  rfl

/-- A key leads to a place, or is refused for one of two reasons. -/
theorem place_cases (key : String) :
    (maxSegments < (segments key).length ∧ place key = .error (.tooDeep key)) ∨
      ((segments key).length ≤ maxSegments ∧ "" ∈ segments key ∧
        place key = .error (.emptySegment key)) ∨
      ((segments key).length ≤ maxSegments ∧ (∀ seg ∈ segments key, seg ≠ "") ∧
        place key = .ok ((segments key).dropLast, (segments key).getLast?.getD "")) := by
  unfold place
  dsimp only
  split
  · rename_i hlong
    exact .inl ⟨hlong, rfl⟩
  · rename_i hshort
    have hshort := Nat.not_lt.mp hshort
    split
    · rename_i hempty
      exact .inr (.inl ⟨hshort, by simpa using hempty, rfl⟩)
    · rename_i hnamed
      refine .inr (.inr ⟨hshort, ?_, rfl⟩)
      rintro seg hseg rfl
      exact hnamed (by simpa using hseg)

section Apply

variable {root root' : Mapping} {key last : String} {parents : List String}
variable {incoming : Incoming} {mode : Mode}

theorem segments_of_place (h : place key = .ok (parents, last)) :
    segments key = parents ++ [last] := by
  rcases place_cases key with ⟨-, hplace⟩ | ⟨-, -, hplace⟩ | ⟨-, -, hplace⟩
  · cases h.symm.trans hplace
  · cases h.symm.trans hplace
  · cases h.symm.trans hplace
    exact (dropLast_concat_segments key).symm

theorem apply_of_refused {e : KeyError} (h : place key = .error e) (incoming : Incoming)
    (mode : Mode) (root : Mapping) : apply root key incoming mode = (root, .error e) := by
  rw [apply, h]

/-- A key that is refused, or that something blocks, fails without a trace, and for another
reason than what stands at its place. -/
theorem apply_of_not_assignable (h : ¬ Assignable root key) (incoming : Incoming)
    (mode : Mode) :
    ∃ e, apply root key incoming mode = (root, .error e) ∧
      (e = .tooDeep key ∨ e = .emptySegment key ∨ ∃ seg, e = .notAMapping key seg) := by
  rcases place_cases key with ⟨-, hplace⟩ | ⟨-, -, hplace⟩ | ⟨hshort, hnamed, hplace⟩
  · exact ⟨_, apply_of_refused hplace incoming mode root, .inl rfl⟩
  · exact ⟨_, apply_of_refused hplace incoming mode root, .inr (.inl rfl)⟩
  · have hblocked : ¬ Passable root (segments key).dropLast :=
      fun hpassable => h ⟨hshort, hnamed, hpassable⟩
    obtain ⟨seg, hfocus⟩ := focus_of_not_passable hblocked
      (put key ((segments key).getLast?.getD "") incoming mode)
    refine ⟨.notAMapping key seg, ?_, .inr (.inr ⟨seg, rfl⟩)⟩
    rw [apply, hplace]
    dsimp only
    rw [hfocus]

theorem assignable_of_apply {warning : Option String}
    (h : apply root key incoming mode = (root', .ok warning)) : Assignable root key := by
  by_contra hnot
  obtain ⟨e, herror, -⟩ := apply_of_not_assignable hnot incoming mode
  rw [herror] at h
  cases h

/-- A key that is assignable has a place, with a mapping that is there or will be. -/
theorem Assignable.exists_place (h : Assignable root key) :
    ∃ parents last m, segments key = parents ++ [last] ∧ Passable root parents ∧
      Ends root parents m := by
  obtain ⟨m, hm⟩ := h.passable.exists_ends
  exact ⟨_, _, m, (dropLast_concat_segments key).symm, h.passable, hm⟩

/-- A key at which something stands is blocked by nothing. -/
theorem assignable_of_get? {v : Value} (hshort : (segments key).length ≤ maxSegments)
    (hnamed : ∀ seg ∈ segments key, seg ≠ "")
    (h : Value.get? (.mapping root) (segments key) = some v) : Assignable root key := by
  rw [← dropLast_concat_segments key] at h
  exact ⟨hshort, hnamed, passable_of_get? h⟩

/-- At a key that is assignable, what happens is decided by the mapping at its place. -/
theorem Assignable.apply_eq (h : Assignable root key)
    (hsegments : segments key = parents ++ [last]) {m : Mapping} (hm : Ends root parents m)
    (incoming : Incoming) (mode : Mode) :
    apply root key incoming mode =
      ((focus (put key last incoming mode) parents root).1,
        (put key last incoming mode m).2) := by
  have hplace : place key = .ok (parents, last) := by
    rw [h.place_eq, hsegments, List.dropLast_concat, List.getLast?_concat, Option.getD_some]
  have hpassable : Passable root parents := by
    have hpassable := h.passable
    rwa [hsegments, List.dropLast_concat] at hpassable
  obtain ⟨hanswer, -⟩ := focus_of_passable hpassable hm (put key last incoming mode)
  rw [apply, hplace]
  dsimp only
  rw [← Prod.eta (focus (put key last incoming mode) parents root), hanswer]

end Apply

/-! ## One entry written -/

section Assigned

variable {root root' root'' m : Mapping} {path : List String} {last : String} {v w : Value}

/-- An entry written at the end of a path is all that changes. -/
theorem assigned_focus {α : Type} {f : Mapping → Mapping × α} (h : Passable root path)
    (hm : Ends root path m) (hf : (f m).1 = Entries.insert m last v) :
    Assigned root (focus f path root).1 (path ++ [last]) v := by
  obtain ⟨-, hget⟩ := focus_of_passable h hm f
  rw [hf] at hget
  have hthere : Ends (focus f path root).1 path (Entries.insert m last v) := .inl hget
  constructor
  · rw [hthere.get?_append, Value.get?_mapping_cons, Entries.get?_insert_self,
      Option.bind_some, Value.get?_nil]
  · intro other hover hunder
    have hunder' : ¬ other <+: path := fun h => hunder (h.trans (List.prefix_append _ _))
    by_cases hthrough : path <+: other
    · -- The path leads through the mapping, to another of its entries.
      obtain ⟨rest, rfl⟩ := hthrough
      cases rest with
      | nil =>
          rw [List.append_nil] at hunder'
          exact absurd List.prefix_rfl hunder'
      | cons seg rest =>
          have hseg : last ≠ seg := by
            rintro rfl
            exact hover ⟨rest, by simp⟩
          rw [hthere.get?_append, hm.get?_append, Value.get?_mapping_cons,
            Entries.get?_insert_of_ne m _ hseg, ← Value.get?_mapping_cons]
    · exact get?_focus_of_apart f hthrough hunder'

theorem Assigned.trans (h : Assigned root root' path v) (h' : Assigned root' root'' path w) :
    Assigned root root'' path w :=
  ⟨h'.stored, fun other hover hunder =>
    (h'.apart other hover hunder).trans (h.apart other hover hunder)⟩

/-- The mapping at the end of a path, created if nothing stood there, has the entries that
it had but for one. -/
def KeptBut (root root' : Mapping) (path : List String) (seg : String) : Prop :=
  ∃ m m', Ends root path m ∧ Value.get? (.mapping root') path = some (.mapping m') ∧
    ∀ other, other ≠ seg → Entries.get? m' other = Entries.get? m other

/-- Every mapping on the way keeps its entries, but for the one that leads on. -/
theorem Assigned.keptBut {front rest : List String} {seg : String}
    (h : Assigned root root' (front ++ seg :: rest) v) (hfront : Passable root front) :
    KeptBut root root' front seg := by
  obtain ⟨m, hm⟩ := hfront.exists_ends
  have hstored := h.stored
  rw [Value.get?_append] at hstored
  obtain ⟨u, hu, hrest⟩ := Option.bind_eq_some_iff.mp hstored
  obtain ⟨m', rfl⟩ := Value.exists_mapping_of_get?_cons hrest
  have hm' : Ends root' front m' := .inl hu
  refine ⟨m, m', hm, hu, fun other hother => ?_⟩
  have hapart := h.apart (front ++ [other])
    (by simp [List.prefix_append_right_inj, List.cons_prefix_cons, hother.symm])
    (by simp [List.prefix_append_right_inj, List.cons_prefix_cons, hother])
  rw [hm'.get?_append, hm.get?_append] at hapart
  simpa using hapart

end Assigned

/-! ## Assignments -/

theorem put_assign (key last : String) (incoming : Incoming) (m : Mapping) :
    put key last incoming .assign m = (Entries.insert m last incoming.toValue,
      .ok (if Mapping.contains m last then some (overwriteWarning key) else none)) := by
  rw [put, if_pos rfl]

/-- **Assignment.** A value can be assigned to every key that is assignable, and then stands
at the key and nowhere else. There is a warning if something stood at the key before. -/
theorem apply_assign {root : Mapping} {key : String} (h : Assignable root key)
    (incoming : Incoming) :
    ∃ root', Assigned root root' (segments key) incoming.toValue ∧
      apply root key incoming .assign = (root', .ok
        (if (Value.get? (.mapping root) (segments key)).isSome then
          some (overwriteWarning key) else none)) := by
  obtain ⟨parents, last, m, hsegments, hpassable, hm⟩ := h.exists_place
  refine ⟨(focus (put key last incoming .assign) parents root).1, ?_, ?_⟩
  · rw [hsegments]
    exact assigned_focus hpassable hm (by rw [put_assign])
  · rw [h.apply_eq hsegments hm, put_assign, hsegments, hm.get?_concat]
    rfl

/-- Of what is assigned, only the value counts. -/
theorem apply_assign_congr {incoming incoming' : Incoming}
    (h : incoming.toValue = incoming'.toValue) (root : Mapping) (key : String) :
    apply root key incoming .assign = apply root key incoming' .assign := by
  have hput : ∀ last, put key last incoming .assign = put key last incoming' .assign := by
    intro last
    funext m
    rw [put_assign, put_assign, h]
  simp only [apply, hput]

/-- The later of two assignments at one key hides the earlier one, which it reports. -/
theorem Assignable.apply_assign_twice {root : Mapping} {key : String}
    (h : Assignable root key) (incoming later : Incoming) :
    apply (apply root key incoming .assign).1 key later .assign =
      ((apply root key later .assign).1, .ok (some (overwriteWarning key))) := by
  obtain ⟨parents, last, m, hsegments, hpassable, hm⟩ := h.exists_place
  obtain ⟨root', hassigned, happly⟩ := apply_assign h incoming
  have hroot' : (focus (put key last incoming .assign) parents root).1 = root' := by
    rw [h.apply_eq hsegments hm] at happly
    exact (Prod.mk.inj happly).1
  have h' : Assignable root' key := assignable_of_get? h.short h.named hassigned.stored
  have hm' : Ends root' parents (Entries.insert m last incoming.toValue) := by
    have hget := (focus_of_passable hpassable hm (put key last incoming .assign)).2
    rw [hroot', put_assign] at hget
    exact .inl hget
  have hhidden : ∀ m, (put key last later .assign (put key last incoming .assign m).1).1 =
      (put key last later .assign m).1 := by
    intro m
    rw [put_assign, put_assign, put_assign, Entries.insert_insert_self]
  rw [happly, h'.apply_eq hsegments hm', h.apply_eq hsegments hm, Prod.mk.injEq]
  constructor
  · rw [← hroot', focus_focus]
    exact focus_fst_congr hhidden parents root
  · rw [put_assign, Mapping.contains, Entries.get?_insert_self]
    rfl

/-- **Assignment as a lens.** An assignment succeeds exactly at a key that has no more
segments than are allowed, none of them empty, and no other value than a mapping on its way.
Then the value is found under the key, every path beside it leads where it did, every mapping
on the way keeps its other entries, those that were missing being created, and there is a
warning exactly if something stood at the key. A second assignment at the key leaves nothing
of the first. -/
theorem assignment_lens (root : Mapping) (key : String) (incoming : Incoming) :
    ((∃ root' warning, apply root key incoming .assign = (root', .ok warning)) ↔
      Assignable root key) ∧
    ∀ root' warning, apply root key incoming .assign = (root', .ok warning) →
      Assigned root root' (segments key) incoming.toValue ∧
      (∀ front seg rest, segments key = front ++ seg :: rest → KeptBut root root' front seg) ∧
      (warning = if (Value.get? (.mapping root) (segments key)).isSome then
        some (overwriteWarning key) else none) ∧
      ∀ later, apply root' key later .assign =
        ((apply root key later .assign).1, .ok (some (overwriteWarning key))) := by
  refine ⟨⟨fun ⟨root', warning, happly⟩ => assignable_of_apply happly, fun h => ?_⟩, ?_⟩
  · obtain ⟨root', -, happly⟩ := apply_assign h incoming
    exact ⟨root', _, happly⟩
  · intro root' warning happly
    have h := assignable_of_apply happly
    obtain ⟨root'', hassigned, happly'⟩ := apply_assign h incoming
    obtain ⟨rfl, hwarning⟩ := Prod.mk.inj (happly.symm.trans happly')
    refine ⟨hassigned, ?_, Except.ok.inj hwarning, fun later => ?_⟩
    · intro front seg rest hsegments
      have hassigned' := hassigned
      rw [hsegments] at hassigned'
      refine hassigned'.keptBut (h.passable.of_prefix ?_)
      -- The front of a path that goes on is in front of its last segment.
      rw [hsegments, List.dropLast_append_of_ne_nil (List.cons_ne_nil seg rest)]
      exact List.prefix_append _ _
    · rw [← h.apply_assign_twice incoming later, happly]

/-- A list over a number, beside another entry, two mappings down; the text is read as a
literal. -/
theorem assignment_lens_nested :
    let root : Mapping := [("a", .mapping [("b", .int 1), ("c", .text "t")])]
    let root' : Mapping := [("a", .mapping [("b", .list [.int 2]), ("c", .text "t")])]
    apply root "a.b" (.line "[2]") .assign = (root', .ok (some (overwriteWarning "a.b"))) ∧
      Assigned root root' ["a", "b"] (.list [.int 2]) ∧
      apply root' "a.b" (.line "x") .assign =
        ((apply root "a.b" (.line "x") .assign).1, .ok (some (overwriteWarning "a.b"))) := by
  intro root root'
  have happly : apply root "a.b" (.line "[2]") .assign =
      (root', .ok (some (overwriteWarning "a.b"))) := rfl
  obtain ⟨-, hlens⟩ := assignment_lens root "a.b" (.line "[2]")
  obtain ⟨hassigned, -, -, hlater⟩ := hlens root' _ happly
  exact ⟨happly, hassigned, hlater (.line "x")⟩

end Key

end ExerciseDoc
