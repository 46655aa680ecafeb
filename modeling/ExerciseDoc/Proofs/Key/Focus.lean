import ExerciseDoc.Key
import Mathlib.Data.List.Infix

/-!
# Key — walking along a path

`focus` arrives at the end of a path exactly if nothing but mappings stands on the way, and
then changes what it has found there (`focus_of_passable`). A walk that is blocked leaves no
trace (`focus_of_not_passable`): a mapping just created has nothing in it that could block.
Every path that does not lead through the walked one leads where it did, however the walk
ends (`get?_focus_of_apart`). Two walks along one path are one (`focus_focus`). A store is a
walk that writes at most one entry where it ends (`apply_fst_cases`, `put_fst_cases`).
-/

namespace ExerciseDoc

/-! ## Views along paths -/

namespace Value

@[simp] theorem get?_nil (v : Value) : get? v [] = some v := by
  cases v <;> rfl

@[simp] theorem get?_mapping_cons (entries : Mapping) (key : String) (rest : List String) :
    get? (.mapping entries) (key :: rest) =
      (Entries.get? entries key).bind fun v => get? v rest :=
  rfl

theorem get?_append (v : Value) (path rest : List String) :
    get? v (path ++ rest) = (get? v path).bind fun u => get? u rest := by
  induction path generalizing v with
  | nil => simp
  | cons key path ih =>
      cases v with
      | mapping entries =>
          rw [List.cons_append, get?_mapping_cons, get?_mapping_cons, Option.bind_assoc]
          simp only [ih]
      | _ => rfl

/-- A path that goes on leads on from a mapping. -/
theorem exists_mapping_of_get?_cons {v u : Value} {key : String} {rest : List String}
    (h : get? v (key :: rest) = some u) : ∃ m, v = .mapping m := by
  cases v with
  | mapping m => exact ⟨m, rfl⟩
  | _ => cases h

end Value

namespace Key

/-- Nothing but mappings stands on the way along a path and at its end. -/
def Passable (root : Mapping) (path : List String) : Prop :=
  ∀ front u, front <+: path → Value.get? (.mapping root) front = some u → ∃ m, u = .mapping m

/-- The mapping at the end of a path, an empty one if nothing stands there. -/
def Ends (root : Mapping) (path : List String) (m : Mapping) : Prop :=
  Value.get? (.mapping root) path = some (.mapping m) ∨
    (Value.get? (.mapping root) path = none ∧ m = [])

/-- The mapping that a walk goes on with at a segment, a new one if nothing stands there. -/
def Enters (root : Mapping) (seg : String) (sub : Mapping) : Prop :=
  Entries.get? root seg = some (.mapping sub) ∨ Entries.get? root seg = none ∧ sub = []

/-- Something else than a mapping stands at a segment. -/
def Blocks (root : Mapping) (seg : String) : Prop :=
  ∃ u, Entries.get? root seg = some u ∧ ∀ m, u ≠ .mapping m

section Paths

variable {root sub m : Mapping} {seg : String} {path rest : List String}

theorem enters_or_blocks (root : Mapping) (seg : String) :
    (∃ sub, Enters root seg sub) ∨ Blocks root seg := by
  cases hseg : Entries.get? root seg with
  | none => exact .inl ⟨[], .inr ⟨hseg, rfl⟩⟩
  | some u =>
      cases u with
      | mapping sub => exact .inl ⟨sub, .inl hseg⟩
      | _ => exact .inr ⟨_, hseg, fun m hm => nomatch hm⟩

/-- A path that goes on behind a segment leads where it leads in the mapping there. -/
theorem Enters.get?_cons (h : Enters root seg sub) {key : String} {rest : List String} :
    Value.get? (.mapping root) (seg :: key :: rest) =
      Value.get? (.mapping sub) (key :: rest) := by
  rcases h with h | ⟨h, rfl⟩
  · rw [Value.get?_mapping_cons, h]
    rfl
  · rw [Value.get?_mapping_cons, h]
    rfl

/-- A path that does not end at a segment leads where it did, if it does so in the mapping
that is put there. -/
theorem Enters.get?_insert (h : Enters root seg sub) {sub' : Mapping} {other : List String}
    (hother : ¬ other <+: [seg])
    (hsame : ∀ rest, other = seg :: rest →
      Value.get? (.mapping sub') rest = Value.get? (.mapping sub) rest) :
    Value.get? (.mapping (Entries.insert root seg (.mapping sub'))) other =
      Value.get? (.mapping root) other := by
  cases other with
  | nil => exact absurd List.nil_prefix hother
  | cons key rest =>
      by_cases hkey : seg = key
      · subst hkey
        rw [Value.get?_mapping_cons, Entries.get?_insert_self, Option.bind_some,
          hsame rest rfl]
        -- The path does not end in the mapping, which may be new.
        cases rest with
        | nil => exact absurd List.prefix_rfl hother
        | cons key rest => exact h.get?_cons.symm
      · rw [Value.get?_mapping_cons, Value.get?_mapping_cons,
          Entries.get?_insert_of_ne root _ hkey]

/-- Whatever stands at a path behind a segment stands there in the mapping, too. -/
theorem Enters.of_get?_cons (h : Enters root seg sub) {u : Value}
    (hu : Value.get? (.mapping root) (seg :: rest) = some u) :
    Value.get? (.mapping sub) rest = some u := by
  rcases h with h | ⟨h, -⟩ <;> rw [Value.get?_mapping_cons, h] at hu
  · exact hu
  · cases hu

theorem Enters.ends_cons_iff (h : Enters root seg sub) :
    Ends root (seg :: rest) m ↔ Ends sub rest m := by
  unfold Ends
  rcases h with h | ⟨h, rfl⟩ <;> rw [Value.get?_mapping_cons, h]
  · exact Iff.rfl
  · -- Nothing is found in an empty mapping either.
    cases rest with
    | nil => simp [eq_comm]
    | cons key rest => simp [Entries.get?]

theorem passable_start (root : Mapping) : Passable root [] := by
  intro front u hfront hu
  rw [List.prefix_nil.mp hfront, Value.get?_nil] at hu
  exact ⟨root, (Option.some.inj hu).symm⟩

theorem passable_nil (path : List String) : Passable [] path := by
  intro front u _ h
  cases front with
  | nil => exact ⟨[], (Option.some.inj h).symm⟩
  | cons seg rest => cases h

theorem Enters.passable_iff (h : Enters root seg sub) :
    Passable root (seg :: rest) ↔ Passable sub rest := by
  constructor
  · intro hpassable front u hfront hu
    rcases h with h | ⟨-, rfl⟩
    · refine hpassable (seg :: front) u ((List.prefix_cons_inj seg).mpr hfront) ?_
      rw [Value.get?_mapping_cons, h]
      exact hu
    · exact passable_nil rest front u hfront hu
  · intro hpassable front u hfront hu
    cases front with
    | nil => exact ⟨root, (Option.some.inj hu).symm⟩
    | cons key front =>
        obtain ⟨rfl, hrest⟩ := List.cons_prefix_cons.mp hfront
        exact hpassable front u hrest (h.of_get?_cons hu)

theorem Blocks.not_passable (h : Blocks root seg) : ¬ Passable root (seg :: rest) := by
  obtain ⟨u, hu, hmapping⟩ := h
  intro hpassable
  obtain ⟨m, hm⟩ := hpassable [seg] u ⟨rest, rfl⟩ (by
    rw [Value.get?_mapping_cons, hu, Option.bind_some, Value.get?_nil])
  exact hmapping m hm

/-- What stands behind a path shows that nothing blocks it. -/
theorem passable_of_get? {u : Value} {key : String} (h : Value.get? (.mapping root)
    (path ++ key :: rest) = some u) : Passable root path := by
  intro front v hfront hv
  obtain ⟨back, rfl⟩ := hfront
  rw [List.append_assoc, Value.get?_append, hv, Option.bind_some] at h
  cases back with
  | nil => exact Value.exists_mapping_of_get?_cons h
  | cons seg back => exact Value.exists_mapping_of_get?_cons h

/-- A path that goes on behind the end of another leads where it leads in the mapping
there. -/
theorem Ends.get?_append (h : Ends root path m) (key : String) (rest : List String) :
    Value.get? (.mapping root) (path ++ key :: rest) = Value.get? (.mapping m) (key :: rest) := by
  rw [Value.get?_append]
  rcases h with h | ⟨h, rfl⟩ <;> rw [h] <;> rfl

theorem Ends.get?_concat (h : Ends root path m) (last : String) :
    Value.get? (.mapping root) (path ++ [last]) = Entries.get? m last := by
  rw [h.get?_append]
  simp

/-- At the end of a passable path stands a mapping, or nothing. -/
theorem Passable.exists_ends (h : Passable root path) : ∃ m, Ends root path m := by
  cases hpath : Value.get? (.mapping root) path with
  | none => exact ⟨[], .inr ⟨hpath, rfl⟩⟩
  | some u =>
      obtain ⟨m, rfl⟩ := h path u List.prefix_rfl hpath
      exact ⟨m, .inl hpath⟩

theorem Passable.of_prefix {front : List String} (h : Passable root path)
    (hfront : front <+: path) : Passable root front :=
  fun front' u hfront' hu => h front' u (hfront'.trans hfront) hu

end Paths

/-! ## Focus -/

section Focus

variable {α β : Type} {f : Mapping → Mapping × α} {root sub : Mapping} {seg : String}
variable {path rest : List String}

theorem focus_nil : focus f [] root = ((f root).1, .ok (f root).2) :=
  rfl

theorem Enters.focus_cons (h : Enters root seg sub) :
    focus f (seg :: rest) root =
      (Entries.insert root seg (.mapping (focus f rest sub).1), (focus f rest sub).2) := by
  rcases h with h | ⟨h, rfl⟩
  · simp only [focus, h, Option.getD_some]
  · simp only [focus, h, Option.getD_none]

theorem Blocks.focus_cons (h : Blocks root seg) :
    focus f (seg :: rest) root = (root, .error seg) := by
  obtain ⟨u, hu, hmapping⟩ := h
  rw [focus, hu, Option.getD_some]
  cases u with
  | mapping m => exact absurd rfl (hmapping m)
  | _ => rfl

/-- Where nothing blocks the path, `focus` runs its function on what the path leads to. -/
theorem focus_of_passable (h : Passable root path) {m : Mapping} (hm : Ends root path m)
    (f : Mapping → Mapping × α) :
    (focus f path root).2 = .ok (f m).2 ∧
      Value.get? (.mapping (focus f path root).1) path = some (.mapping (f m).1) := by
  induction path generalizing root with
  | nil =>
      obtain rfl : root = m := by simpa [Ends] using hm
      exact ⟨rfl, Value.get?_nil _⟩
  | cons seg rest ih =>
      rcases enters_or_blocks root seg with ⟨sub, hsub⟩ | hblocks
      · obtain ⟨hanswer, hget⟩ := ih (hsub.passable_iff.mp h) (hsub.ends_cons_iff.mp hm)
        rw [hsub.focus_cons, Value.get?_mapping_cons, Entries.get?_insert_self]
        exact ⟨hanswer, hget⟩
      · exact absurd h hblocks.not_passable

/-- A walk that is blocked leaves the root as it was. -/
theorem focus_of_not_passable (h : ¬ Passable root path) (f : Mapping → Mapping × α) :
    ∃ seg, focus f path root = (root, .error seg) := by
  induction path generalizing root with
  | nil => exact absurd (passable_start root) h
  | cons key rest ih =>
      rcases enters_or_blocks root key with ⟨sub, hsub⟩ | hblocks
      · have hrest : ¬ Passable sub rest := fun hrest => h (hsub.passable_iff.mpr hrest)
        obtain ⟨seg, hseg⟩ := ih hrest
        refine ⟨seg, ?_⟩
        rw [hsub.focus_cons, hseg]
        rcases hsub with hsub | ⟨-, rfl⟩
        · rw [Entries.insert_of_get? hsub]
        · -- Nothing blocks below a mapping that has just been created.
          exact absurd (passable_nil rest) hrest
      · exact ⟨key, hblocks.focus_cons⟩

/-- A path that does not lead through the one of `focus`, nor ends on it, leads where it
did. -/
theorem get?_focus_of_apart {other : List String} (f : Mapping → Mapping × α)
    (hover : ¬ path <+: other) (hunder : ¬ other <+: path) :
    Value.get? (.mapping (focus f path root).1) other = Value.get? (.mapping root) other := by
  induction path generalizing root other with
  | nil => exact absurd List.nil_prefix hover
  | cons seg rest ih =>
      rcases enters_or_blocks root seg with ⟨sub, hsub⟩ | hblocks
      · rw [hsub.focus_cons]
        refine hsub.get?_insert (fun hother => hunder (hother.trans ⟨rest, rfl⟩)) ?_
        rintro others rfl
        rw [List.prefix_cons_inj] at hover hunder
        exact ih hover hunder
      · rw [hblocks.focus_cons]

/-- Two walks along one path are one walk that does both things at its end. -/
theorem focus_focus (f : Mapping → Mapping × α) (g : Mapping → Mapping × β)
    (path : List String) (root : Mapping) :
    focus g path (focus f path root).1 = focus (fun m => g (f m).1) path root := by
  induction path generalizing root with
  | nil => rfl
  | cons seg rest ih =>
      rcases enters_or_blocks root seg with ⟨sub, hsub⟩ | hblocks
      · have hnew : Enters (Entries.insert root seg (.mapping (focus f rest sub).1)) seg
            (focus f rest sub).1 := .inl (Entries.get?_insert_self _ _ _)
        rw [hsub.focus_cons, hnew.focus_cons, hsub.focus_cons, ih,
          Entries.insert_insert_self]
      · rw [hblocks.focus_cons, hblocks.focus_cons, hblocks.focus_cons]

/-- What becomes of the root does not depend on what is answered. -/
theorem focus_fst_congr {f : Mapping → Mapping × α} {g : Mapping → Mapping × β}
    (h : ∀ m, (f m).1 = (g m).1) (path : List String) (root : Mapping) :
    (focus f path root).1 = (focus g path root).1 := by
  induction path generalizing root with
  | nil => exact h root
  | cons seg rest ih =>
      rcases enters_or_blocks root seg with ⟨sub, hsub⟩ | hblocks
      · rw [hsub.focus_cons, hsub.focus_cons, ih]
      · rw [hblocks.focus_cons, hblocks.focus_cons]

end Focus

/-! ## What a store leaves -/

section Stores

variable (root m : Mapping) (key last : String) (incoming : Incoming) (mode : Mode)

/-- A mapping in which something is stored stays as it is, or gets one entry: the right-hand
side, or what has been there with the right-hand side joined to it. -/
theorem put_fst_cases :
    (put key last incoming mode m).1 = m ∨
      ∃ v, (put key last incoming mode m).1 = Entries.insert m last v ∧
        (v = incoming.toValue ∨ ∃ existing, Entries.get? m last = some existing ∧
          joined existing incoming mode = .ok v) := by
  unfold put
  split
  · exact .inr ⟨_, rfl, .inl rfl⟩
  · split
    · exact .inl rfl
    · rename_i existing hexisting
      split
      · rename_i v hjoined
        exact .inr ⟨v, rfl, .inr ⟨existing, hexisting, hjoined⟩⟩
      · exact .inl rfl

/-- A key without a place leaves the root as it is, and any other leads a walk to its place. -/
theorem apply_fst_cases :
    (apply root key incoming mode).1 = root ∨
      ∃ parents last, place key = .ok (parents, last) ∧
        (apply root key incoming mode).1 =
          (focus (put key last incoming mode) parents root).1 := by
  unfold apply
  split
  · exact .inl rfl
  · rename_i parents last hplace
    refine .inr ⟨parents, last, hplace, ?_⟩
    split
    all_goals
      rename_i hfocus
      rw [hfocus]

end Stores

end Key

end ExerciseDoc
