import ExerciseDoc.Proofs.Key.Assign

/-!
# Key — stores that do not meet

What is stored at a key touches one entry of the mapping at its place, and a walk to that
place touches one entry of the root (`touches_put`, `touches_focus_cons`). Operations that
touch different entries are independent: neither notices the other, and their order does not
matter (`independent_of_touches`). Two walks part at the first segment in which their paths
differ, and up to there they enter the same mapping (`independent_focus`), so stores at keys
of which neither leads on from the other are independent, too (`apply_comm`). Failures need
no case of their own: a failure is an answer, and what it has created is a write.
-/

namespace ExerciseDoc

namespace Key

/-! ## Independent operations -/

/-- Two operations on a mapping do not notice each other: each answers the same whether or
not the other came first, and in either order they make the same mapping. -/
structure Independent {α β : Type} (f : Mapping → Mapping × α)
    (g : Mapping → Mapping × β) : Prop where
  first : ∀ m, (f (g m).1).2 = (f m).2
  second : ∀ m, (g (f m).1).2 = (g m).2
  together : ∀ m, (g (f m).1).1 = (f (g m).1).1

/-- An operation looks at one entry only, and writes it or nothing. -/
structure Touches {α : Type} (seg : String) (f : Mapping → Mapping × α) : Prop where
  writes : ∀ m, (f m).1 = m ∨ ∃ v, (f m).1 = Entries.insert m seg v
  ignores : ∀ m key v, key ≠ seg →
    f (Entries.insert m key v) = (Entries.insert (f m).1 key v, (f m).2)

section Operations

variable {α β γ δ : Type} {f : Mapping → Mapping × α} {g : Mapping → Mapping × β}
variable {seg other : String} {path rest : List String}

theorem Independent.symm (h : Independent f g) : Independent g f :=
  ⟨h.second, h.first, fun m => (h.together m).symm⟩

/-- What is made of the answers does not matter. -/
theorem Independent.map (h : Independent f g) (answer : α → γ) (answer' : β → δ) :
    Independent (fun m => ((f m).1, answer (f m).2)) (fun m => ((g m).1, answer' (g m).2)) where
  first m := congrArg answer (h.first m)
  second m := congrArg answer' (h.second m)
  together := h.together

/-- An operation that does nothing is independent of all. -/
theorem independent_idle (a : α) (g : Mapping → Mapping × β) :
    Independent (fun m => (m, a)) g where
  first _ := rfl
  second _ := rfl
  together _ := rfl

/-- Neither of two operations on different entries notices the other. -/
theorem Touches.answer_eq (hf : Touches seg f) (hg : Touches other g) (h : seg ≠ other)
    (m : Mapping) : (f (g m).1).2 = (f m).2 := by
  rcases hg.writes m with hwrite | ⟨v, hwrite⟩
  · rw [hwrite]
  · rw [hwrite, hf.ignores m other v h.symm]

theorem independent_of_touches (hf : Touches seg f) (hg : Touches other g)
    (h : seg ≠ other) : Independent f g where
  first := hf.answer_eq hg h
  second := hg.answer_eq hf h.symm
  together := by
    intro m
    rcases hf.writes m with hfirst | ⟨v, hfirst⟩ <;>
      rcases hg.writes m with hsecond | ⟨w, hsecond⟩
    · rw [hfirst, hsecond, hfirst]
    · rw [hfirst, hsecond, hf.ignores m other w h.symm, hfirst]
    · rw [hfirst, hsecond, hg.ignores m seg v h, hfirst, hsecond]
    · rw [hfirst, hsecond, hg.ignores m seg v h, hf.ignores m other w h.symm, hfirst,
        hsecond, Entries.insert_comm m w v h.symm]

/-! ## Walks -/

theorem Enters.insert_of_ne {root sub : Mapping} (h : Enters root seg sub)
    (hother : other ≠ seg) (v : Value) : Enters (Entries.insert root other v) seg sub := by
  unfold Enters
  rw [Entries.get?_insert_of_ne root v hother]
  exact h

theorem Blocks.insert_of_ne {root : Mapping} (h : Blocks root seg) (hother : other ≠ seg)
    (v : Value) : Blocks (Entries.insert root other v) seg := by
  unfold Blocks
  rw [Entries.get?_insert_of_ne root v hother]
  exact h

theorem touches_focus_nil (h : Touches seg f) : Touches seg (focus f []) where
  writes m := h.writes m
  ignores m key v hkey := by
    rw [focus_nil, focus_nil, h.ignores m key v hkey]

theorem touches_focus_cons (f : Mapping → Mapping × α) (seg : String) (rest : List String) :
    Touches seg (focus f (seg :: rest)) where
  writes m := by
    rcases enters_or_blocks m seg with ⟨sub, hsub⟩ | hblocks
    · exact .inr ⟨_, by rw [hsub.focus_cons]⟩
    · exact .inl (by rw [hblocks.focus_cons])
  ignores m key v hkey := by
    rcases enters_or_blocks m seg with ⟨sub, hsub⟩ | hblocks
    · rw [hsub.focus_cons, (hsub.insert_of_ne hkey v).focus_cons,
        Entries.insert_comm m v _ hkey]
    · rw [hblocks.focus_cons, (hblocks.insert_of_ne hkey v).focus_cons]

/-- Behind a common segment two walks are in the same mapping. -/
theorem Independent.focus_cons (h : Independent (focus f path) (focus g rest)) (seg : String) :
    Independent (focus f (seg :: path)) (focus g (seg :: rest)) := by
  have hentered : ∀ m (sub : Mapping), Enters (Entries.insert m seg (.mapping sub)) seg sub :=
    fun m sub => .inl (Entries.get?_insert_self _ _ _)
  constructor
  all_goals
    intro m
    rcases enters_or_blocks m seg with ⟨sub, hsub⟩ | hblocks
  · rw [hsub.focus_cons, (hentered _ _).focus_cons, hsub.focus_cons]
    exact h.first sub
  · rw [hblocks.focus_cons, hblocks.focus_cons]
  · rw [hsub.focus_cons, (hentered _ _).focus_cons, hsub.focus_cons]
    exact h.second sub
  · rw [hblocks.focus_cons, hblocks.focus_cons]
  · rw [hsub.focus_cons, hsub.focus_cons, (hentered _ _).focus_cons,
      (hentered _ _).focus_cons, Entries.insert_insert_self, Entries.insert_insert_self,
      h.together sub]
  · rw [hblocks.focus_cons, hblocks.focus_cons, hblocks.focus_cons]

/-- Walks to entries of which neither stands on the way to the other are independent. -/
theorem independent_focus (hf : Touches seg f) (hg : Touches other g)
    (h : ¬ path ++ [seg] <+: rest ++ [other]) (h' : ¬ rest ++ [other] <+: path ++ [seg]) :
    Independent (focus f path) (focus g rest) := by
  induction path generalizing rest with
  | nil =>
      have hf := touches_focus_nil hf
      cases rest with
      | nil => exact independent_of_touches hf (touches_focus_nil hg) (by rintro rfl; simp at h)
      | cons key rest =>
          refine independent_of_touches hf (touches_focus_cons g key rest) ?_
          rintro rfl
          exact h (List.prefix_append [seg] _)
  | cons key path ih =>
      have hf' := touches_focus_cons f key path
      cases rest with
      | nil =>
          refine independent_of_touches hf' (touches_focus_nil hg) ?_
          rintro rfl
          exact h' (List.prefix_append [key] _)
      | cons key' rest =>
          by_cases hkey : key = key'
          · subst hkey
            rw [List.cons_append, List.cons_append, List.prefix_cons_inj] at h h'
            exact (ih h h').focus_cons key
          · exact independent_of_touches hf' (touches_focus_cons g key' rest) hkey

end Operations

/-! ## Stores -/

theorem touches_put (key last : String) (incoming : Incoming) (mode : Mode) :
    Touches last (put key last incoming mode) where
  writes m := (put_fst_cases m key last incoming mode).imp_right fun ⟨v, hput, _⟩ => ⟨v, hput⟩
  ignores m other v hother := by
    unfold put
    rw [Mapping.contains, Mapping.contains, Entries.get?_insert_of_ne m v hother]
    split
    · rw [Entries.insert_comm m v _ hother]
    · split
      · rfl
      · split
        · rw [Entries.insert_comm m v _ hother]
        · rfl

/-- What a walk to a key's place comes to. -/
def outcome (key : String) :
    Except String (Except KeyError (Option String)) → Except KeyError (Option String)
  | .error seg => .error (.notAMapping key seg)
  | .ok answer => answer

theorem apply_eq_outcome {key last : String} {parents : List String}
    (h : place key = .ok (parents, last)) (incoming : Incoming) (mode : Mode)
    (root : Mapping) :
    apply root key incoming mode =
      ((focus (put key last incoming mode) parents root).1,
        outcome key (focus (put key last incoming mode) parents root).2) := by
  rw [apply, h]
  dsimp only
  split
  · rename_i hfocus
    rw [hfocus]
    rfl
  · rename_i hfocus
    rw [hfocus]
    rfl

/-- Stores at keys of which neither leads on from the other are independent. -/
theorem independent_apply {key key' : String} (h : ¬ segments key <+: segments key')
    (h' : ¬ segments key' <+: segments key) (incoming incoming' : Incoming)
    (mode mode' : Mode) :
    Independent (fun root => apply root key incoming mode)
      (fun root => apply root key' incoming' mode') := by
  cases hplace : place key with
  | error e =>
      simp only [apply_of_refused hplace]
      exact independent_idle _ _
  | ok found =>
      cases hplace' : place key' with
      | error e =>
          simp only [apply_of_refused hplace']
          exact (independent_idle _ _).symm
      | ok found' =>
          rw [segments_of_place hplace, segments_of_place hplace'] at h h'
          simp only [apply_eq_outcome hplace, apply_eq_outcome hplace']
          exact (independent_focus (touches_put _ _ _ _) (touches_put _ _ _ _) h h').map _ _

/-- **Stores that do not meet.** Whatever is stored at two keys of which neither leads on
from the other, and in whatever modes: in either order each of the two stores has the same
outcome, a warning or a failure with what it says, and the root is the same in the end. -/
theorem apply_comm {key key' : String} (h : ¬ segments key <+: segments key')
    (h' : ¬ segments key' <+: segments key) (incoming incoming' : Incoming)
    (mode mode' : Mode) (root : Mapping) :
    (apply (apply root key' incoming' mode').1 key incoming mode).2 =
        (apply root key incoming mode).2 ∧
      (apply (apply root key incoming mode).1 key' incoming' mode').2 =
        (apply root key' incoming' mode').2 ∧
      (apply (apply root key incoming mode).1 key' incoming' mode').1 =
        (apply (apply root key' incoming' mode').1 key incoming mode).1 := by
  have hindependent := independent_apply h h' incoming incoming' mode mode'
  exact ⟨hindependent.first root, hindependent.second root, hindependent.together root⟩

/-- A failure creates mappings that an assignment needs, too, and the other way round. -/
theorem apply_comm_failing :
    let root' : Mapping := [("a", .mapping [("b", .mapping [("d", .mapping [("e", .int 1)])])])]
    (apply [] "a.b.c" (.text "x") .append).2 = .error (.missing "a.b.c" .append) ∧
      (apply (apply [] "a.b.d.e" (.line "1") .assign).1 "a.b.c" (.text "x") .append) =
        (root', .error (.missing "a.b.c" .append)) ∧
      (apply (apply [] "a.b.c" (.text "x") .append).1 "a.b.d.e" (.line "1") .assign).1 =
        root' := by
  intro root'
  have hsegments : ¬ segments "a.b.c" <+: segments "a.b.d.e" ∧
      ¬ segments "a.b.d.e" <+: segments "a.b.c" := by decide +kernel
  have hfailure : (apply [] "a.b.c" (.text "x") .append).2 =
      .error (.missing "a.b.c" .append) := rfl
  have hroot : (apply (apply [] "a.b.d.e" (.line "1") .assign).1 "a.b.c" (.text "x")
      .append).1 = root' := rfl
  obtain ⟨hfirst, -, htogether⟩ := apply_comm hsegments.1 hsegments.2
    (.text "x") (.line "1") .append .assign []
  exact ⟨hfailure, Prod.ext hroot (hfirst.trans hfailure), htogether.trans hroot⟩

end Key

end ExerciseDoc
