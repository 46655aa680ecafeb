import ExerciseDoc.Path
import ExerciseDoc.Proofs.Text.Fields

/-!
# Path — the normal form

What is left of a path when it is folded is `Proper`: names, and in front of them the
directories to leave, which an absolute path has none of. The text of a proper normal
form is a path with that normal form (`Normal.of_text`), so a path that has been folded
stays as it is (`normalize_normalize`, `normalize_join`).
-/

namespace ExerciseDoc.Path

open Text (splitOn)

/-! ## Segments -/

/-- A segment that leads into a directory or to a file. -/
structure IsName (s : Segment) : Prop where
  ne_nil : s ≠ []
  ne_here : s ≠ here
  ne_parent : s ≠ parent

theorem isName_iff {s : Segment} : IsName s ↔ isVoid s = false ∧ s ≠ parent := by
  constructor
  · rintro ⟨hne, hhere, hparent⟩
    exact ⟨by simp [isVoid, hne, hhere], hparent⟩
  · rintro ⟨hvoid, hparent⟩
    simp only [isVoid, Bool.or_eq_false_iff, beq_eq_false_iff_ne] at hvoid
    exact ⟨hvoid.1, hvoid.2, hparent⟩

theorem IsName.isVoid_eq {s : Segment} (h : IsName s) : isVoid s = false :=
  (isName_iff.mp h).1

/-! ## Folding -/

namespace Normal

variable {n m : Normal} {s : Segment} {segs : List Segment}

theorem push_void (n : Normal) (h : isVoid s = true) : n.push s = n :=
  if_pos h

theorem push_name (n : Normal) (h : IsName s) : n.push s = { n with names := s :: n.names } := by
  simp [push, h.isVoid_eq, h.ne_parent]

/-- A name takes nothing back. -/
theorem push_name_inj (h : IsName s) (hpush : n.push s = m.push s) : n = m := by
  rw [push_name n h, push_name m h] at hpush
  cases n
  cases m
  simp only [Normal.mk.injEq, List.cons.injEq, true_and] at hpush ⊢
  exact hpush

theorem foldl_push_names (n : Normal) (h : ∀ s ∈ segs, IsName s) :
    segs.foldl push n = { n with names := segs.reverse ++ n.names } := by
  induction segs generalizing n with
  | nil => rfl
  | cons s rest ih =>
      obtain ⟨hs, hrest⟩ := List.forall_mem_cons.mp h
      rw [List.foldl_cons, push_name n hs, ih _ hrest, List.reverse_cons, List.append_assoc]
      rfl

/-- Nothing is taken back in front of a relative path: each pair of dots leads one
directory further out. -/
theorem foldl_push_parents (climbs k : Nat) :
    (List.replicate k parent).foldl push ⟨false, climbs, []⟩ = ⟨false, climbs + k, []⟩ := by
  induction k generalizing climbs with
  | zero => rfl
  | succ k ih =>
      rw [List.replicate_succ, List.foldl_cons]
      exact (ih (climbs + 1)).trans (by rw [Nat.add_right_comm, Nat.add_assoc])

/-! ## What is left -/

/-- A normal form that folding can come to: its names are names, and an absolute path
leaves no directory. -/
structure Proper (n : Normal) : Prop where
  names : ∀ s ∈ n.names, IsName s ∧ '/' ∉ s
  absolute : n.absolute = true → n.climbs = 0

theorem Proper.push (h : n.Proper) (hs : '/' ∉ s) : (n.push s).Proper := by
  cases hvoid : isVoid s with
  | true =>
      rw [push_void n hvoid]
      exact h
  | false =>
      by_cases hparent : s = parent
      · subst hparent
        obtain ⟨absolute, climbs, names⟩ := n
        cases names with
        | cons name rest => exact ⟨(List.forall_mem_cons.mp h.names).2, h.absolute⟩
        | nil =>
            cases absolute with
            | true => exact h
            | false => exact ⟨h.names, fun habsolute => by cases habsolute⟩
      · have hname : IsName s := isName_iff.mpr ⟨hvoid, hparent⟩
        rw [push_name n hname]
        exact ⟨List.forall_mem_cons.mpr ⟨⟨hname, hs⟩, h.names⟩, h.absolute⟩

theorem Proper.foldl_push (h : n.Proper) (hsegs : ∀ s ∈ segs, '/' ∉ s) :
    (segs.foldl Normal.push n).Proper := by
  induction segs generalizing n with
  | nil => exact h
  | cons s rest ih =>
      obtain ⟨hs, hrest⟩ := List.forall_mem_cons.mp hsegs
      exact ih (h.push hs) hrest

/-- **Folding comes to proper normal forms.** -/
theorem proper_of (p : List Char) : (of p).Proper := by
  have hstart : (⟨isAbsolute p, 0, []⟩ : Normal).Proper :=
    ⟨fun s hs => absurd hs List.not_mem_nil, fun _ => rfl⟩
  exact hstart.foldl_push fun s hs => Text.not_mem_of_mem_splitOn hs

/-! ## The text of what is left -/

theorem Proper.not_mem_segments (h : n.Proper) : ∀ s ∈ n.segments, '/' ∉ s := by
  intro s hs
  rcases List.mem_append.mp hs with hs | hs
  · rw [List.eq_of_mem_replicate hs]
    decide
  · exact (h.names s (List.mem_reverse.mp hs)).2

/-- The segments of a proper normal form fold to it. -/
theorem Proper.foldl_push_segments (h : n.Proper) :
    n.segments.foldl Normal.push ⟨n.absolute, 0, []⟩ = n := by
  have hnames : ∀ s ∈ n.names.reverse, IsName s :=
    fun s hs => (h.names s (List.mem_reverse.mp hs)).1
  have hclimbs : (List.replicate n.climbs parent).foldl Normal.push ⟨n.absolute, 0, []⟩ =
      ⟨n.absolute, n.climbs, []⟩ := by
    cases habsolute : n.absolute with
    | true =>
        rw [h.absolute habsolute]
        rfl
    | false => rw [foldl_push_parents, Nat.zero_add]
  rw [segments, List.foldl_append, hclimbs, foldl_push_names _ hnames, List.reverse_reverse,
    List.append_nil]

/-- A path is absolute if it starts with an empty segment that is not its only one. -/
theorem isAbsolute_iff {p : List Char} :
    isAbsolute p = true ↔ ∃ rest, rest ≠ [] ∧ splitOn '/' p = [] :: rest := by
  cases p with
  | nil => simp [isAbsolute, splitOn]
  | cons c cs =>
      by_cases hc : c = '/'
      · subst hc
        simp [isAbsolute, splitOn, Text.splitOn_ne_nil]
      · cases hs : splitOn '/' cs with
        | nil => exact absurd hs (Text.splitOn_ne_nil '/' cs)
        | cons field fields => simp [isAbsolute, Text.splitOn_cons_of_ne hc hs, hc]

theorem Proper.ne_nil_of_mem_segments (h : n.Proper) : ∀ s ∈ n.segments, s ≠ [] := by
  intro s hs
  rcases List.mem_append.mp hs with hs | hs
  · rw [List.eq_of_mem_replicate hs]
    exact List.cons_ne_nil _ _
  · exact (h.names s (List.mem_reverse.mp hs)).1.ne_nil

theorem Proper.splitOn_text (h : n.Proper) (hne : n.segments ≠ []) :
    splitOn '/' n.text = if n.absolute then [] :: n.segments else n.segments := by
  have hsegs := Text.splitOn_joinWith hne h.not_mem_segments
  unfold text
  split
  · rw [splitOn, if_pos rfl, hsegs]
  · exact hsegs

theorem Proper.isAbsolute_text (h : n.Proper) : isAbsolute n.text = n.absolute := by
  cases habsolute : n.absolute with
  | true =>
      rw [text, habsolute]
      rfl
  | false =>
      rw [Bool.eq_false_iff]
      intro htext
      obtain ⟨rest, -, hsplit⟩ := isAbsolute_iff.mp htext
      by_cases hsegs : n.segments = []
      · rw [text, habsolute, hsegs] at htext
        cases htext
      · rw [h.splitOn_text hsegs, habsolute, if_neg Bool.false_ne_true] at hsplit
        exact h.ne_nil_of_mem_segments [] (by rw [hsplit]; exact List.mem_cons_self) rfl

/-- **The text of a proper normal form folds to it.** -/
theorem of_text (h : n.Proper) : of n.text = n := by
  have hfold := h.foldl_push_segments
  by_cases hsegs : n.segments = []
  · rw [hsegs] at hfold
    rw [text, hsegs, ← hfold]
    cases n.absolute <;> rfl
  · rw [of, h.isAbsolute_text, h.splitOn_text hsegs]
    split
    · rw [List.foldl_cons, push_void _ rfl]
      exact hfold
    · exact hfold

end Normal

theorem normalize_normalize (p : String) : normalize (normalize p) = normalize p := by
  rw [normalize, normalize, String.toList_ofList, Normal.of_text (Normal.proper_of _)]

theorem normalize_join (directory reference : String) :
    normalize (join directory reference) = join directory reference := by
  rw [normalize, join, String.toList_ofList, Normal.of_text (Normal.proper_of _)]

/-- Paths with one normal form fold alike. -/
theorem of_eq_of_normalize_eq {p p' : String} (h : normalize p = normalize p') :
    Normal.of p.toList = Normal.of p'.toList := by
  have htext := String.ofList_injective h
  rw [← Normal.of_text (Normal.proper_of p.toList), htext,
    Normal.of_text (Normal.proper_of p'.toList)]

end ExerciseDoc.Path
