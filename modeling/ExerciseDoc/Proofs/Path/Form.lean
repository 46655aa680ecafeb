import ExerciseDoc.Proofs.Path.Directory

/-!
# Path — what a normal form looks like

A path with nothing to fold has names between its slashes, perhaps behind directories to
leave (`IsFolded`). These are the paths that are their own normal form, and all normal forms
are such paths (`isFolded_iff`). A reference finds the same path from a directory and from
the normal form of the directory, so references can be followed one after the other or
joined first (`join_join`). What it is to join paths without folding is said by `adjoined`,
apart from `Path.appended`, which `Path.join` folds.
-/

namespace ExerciseDoc.Path

open Text (splitOn joinWith)

variable {p : List Char}

/-! ## Segments behind the root -/

/-- The text of a path behind the slash of an absolute one. -/
def behindRoot (p : List Char) : List Char :=
  if isAbsolute p then p.tail else p

/-- The segments of a path behind its root. The root itself and the empty path have none. -/
def segmentsOf (p : List Char) : List Segment :=
  if behindRoot p = [] then [] else splitOn '/' (behindRoot p)

theorem not_mem_segmentsOf (p : List Char) : ∀ s ∈ segmentsOf p, '/' ∉ s := by
  intro s hs
  unfold segmentsOf at hs
  split at hs
  · cases hs
  · exact Text.not_mem_of_mem_splitOn hs

theorem isAbsolute_eq_true : isAbsolute p = true ↔ ∃ rest, p = '/' :: rest := by
  cases p <;> simp [isAbsolute]

/-- A path is its segments with slashes between them, behind one more if it is absolute. -/
theorem joinWith_segmentsOf (p : List Char) :
    (if isAbsolute p then '/' :: joinWith '/' (segmentsOf p)
      else joinWith '/' (segmentsOf p)) = p := by
  have hjoin : joinWith '/' (segmentsOf p) = behindRoot p := by
    by_cases h : behindRoot p = []
    · simp [segmentsOf, h, joinWith]
    · simp [segmentsOf, h, Text.joinWith_splitOn]
  rw [hjoin]
  by_cases habsolute : isAbsolute p = true
  · obtain ⟨rest, rfl⟩ := isAbsolute_eq_true.mp habsolute
    simp [behindRoot, habsolute]
  · simp [behindRoot, habsolute]

/-! ## Paths with nothing to fold -/

/-- There is nothing to fold in a path: no segment is empty or a single dot, no slash stands
at its end unless it is the root, and double dots stand in front of all names, in a relative
path only. -/
structure IsFolded (p : List Char) : Prop where
  nonvoid : ∀ s ∈ segmentsOf p, isVoid s = false
  unslashed : p ≠ ['/'] → p.getLast? ≠ some '/'
  climbs : ∃ k names, segmentsOf p = List.replicate k parent ++ names ∧ parent ∉ names ∧
    (isAbsolute p = true → k = 0)

/-- A slash at the end of a path has an empty segment behind it. -/
theorem nil_mem_segmentsOf (hroot : p ≠ ['/']) (hlast : p.getLast? = some '/') :
    [] ∈ segmentsOf p := by
  have hslashed : ∀ front : List Char, [] ∈ splitOn '/' (front ++ ['/']) := by
    intro front
    rw [Text.splitOn_append_sep]
    exact List.mem_append_right _ (List.mem_singleton.mpr rfl)
  obtain ⟨front, rfl⟩ := List.getLast?_eq_some_iff.mp hlast
  cases front with
  | nil => exact absurd rfl hroot
  | cons c front =>
      by_cases hc : c = '/'
      · simpa [segmentsOf, behindRoot, isAbsolute, hc] using hslashed front
      · simpa [segmentsOf, behindRoot, isAbsolute, hc] using hslashed (c :: front)

namespace Normal

variable {n : Normal}

theorem push_absolute (n : Normal) (s : Segment) : (n.push s).absolute = n.absolute := by
  unfold push
  split
  · rfl
  · split
    · split
      · rfl
      · split <;> rfl
    · rfl

/-- Folding keeps a path absolute or relative. -/
theorem absolute_of (p : List Char) : (of p).absolute = isAbsolute p := by
  have hfold : ∀ (segs : List Segment) (n : Normal),
      (segs.foldl push n).absolute = n.absolute := by
    intro segs
    induction segs with
    | nil => intro n; rfl
    | cons s rest ih =>
        intro n
        rw [List.foldl_cons, ih, push_absolute]
  exact hfold _ _

theorem Proper.segmentsOf_text (h : n.Proper) : segmentsOf n.text = n.segments := by
  have hjoin : n.segments ≠ [] → joinWith '/' n.segments ≠ [] := by
    intro hsegs hnil
    have hsplit := Text.splitOn_joinWith hsegs h.not_mem_segments
    rw [hnil] at hsplit
    exact h.ne_nil_of_mem_segments [] (by simp [← hsplit, splitOn]) rfl
  by_cases hsegs : n.segments = []
  · cases hn : n.absolute <;>
      simp [text, hn, hsegs, joinWith, segmentsOf, behindRoot, isAbsolute]
  · have hsplit := Text.splitOn_joinWith hsegs h.not_mem_segments
    have hbehind : behindRoot n.text = joinWith '/' n.segments := by
      rw [behindRoot, h.isAbsolute_text]
      cases hn : n.absolute <;> simp [text, hn]
    rw [segmentsOf, hbehind, if_neg (hjoin hsegs), hsplit]

/-- **Normal forms have nothing to fold.** -/
theorem Proper.isFolded_text (h : n.Proper) : IsFolded n.text := by
  have hnonvoid : ∀ s ∈ segmentsOf n.text, isVoid s = false := by
    intro s hs
    rw [h.segmentsOf_text, segments, List.mem_append] at hs
    rcases hs with hs | hs
    · rw [List.eq_of_mem_replicate hs]
      decide
    · exact (h.names s (List.mem_reverse.mp hs)).1.isVoid_eq
  refine ⟨hnonvoid, ?_, n.climbs, n.names.reverse, h.segmentsOf_text, ?_, ?_⟩
  · intro hroot hlast
    have hvoid := hnonvoid [] (nil_mem_segmentsOf hroot hlast)
    cases hvoid
  · intro hmem
    exact (h.names parent (List.mem_reverse.mp hmem)).1.ne_parent rfl
  · intro habsolute
    exact h.absolute (by rwa [h.isAbsolute_text] at habsolute)

end Normal

/-- **The paths with nothing to fold are their own normal forms**, and no other path is. -/
theorem isFolded_iff : IsFolded p ↔ (Normal.of p).text = p := by
  constructor
  · rintro ⟨hnonvoid, -, k, names, hsegments, hnames, habsolute⟩
    -- The normal form that is read off the segments is proper, and the path is its text.
    have hproper : (⟨isAbsolute p, k, names.reverse⟩ : Normal).Proper := by
      refine ⟨?_, habsolute⟩
      intro s hs
      have hmem : s ∈ segmentsOf p := by
        rw [hsegments]
        exact List.mem_append_right _ (List.mem_reverse.mp hs)
      have hparent : s ≠ parent := by
        rintro rfl
        exact hnames (List.mem_reverse.mp hs)
      exact ⟨isName_iff.mpr ⟨hnonvoid s hmem, hparent⟩, not_mem_segmentsOf p s hmem⟩
    have htext : (⟨isAbsolute p, k, names.reverse⟩ : Normal).text = p := by
      have hjoin := joinWith_segmentsOf p
      rw [hsegments] at hjoin
      rw [Normal.text, Normal.segments, List.reverse_reverse]
      exact hjoin
    have hfold := Normal.of_text hproper
    rw [htext] at hfold
    rw [hfold, htext]
  · intro h
    rw [← h]
    exact (Normal.proper_of p).isFolded_text

/-! ## References one after the other -/

/-- What goes between a path and a relative one behind it: a slash, unless there is nothing
in front of it or a slash already. -/
def divider (first : List Char) : List Char :=
  match first.getLast? with
  | none => []
  | some c => if c = '/' then [] else ['/']

/-- Two paths in one text, with nothing folded. The second stands alone if it starts at the
root, and else behind the first. -/
def adjoined (first second : List Char) : List Char :=
  if second.head? = some '/' then second else first ++ divider first ++ second

/-- A reference is put behind its directory as any path behind another. -/
theorem appended_eq_adjoined (directory reference : List Char) :
    appended directory reference = adjoined directory reference := by
  unfold appended adjoined divider
  by_cases hroot : reference.head? = some '/'
  · simp only [isAbsolute, hroot, beq_self_eq_true, if_true]
  · simp only [isAbsolute, beq_iff_eq, if_neg hroot]
    cases hlast : directory.getLast? with
    | none =>
        rw [List.getLast?_eq_none_iff.mp hlast]
        rfl
    | some c =>
        have hne : directory ≠ [] := by
          rintro rfl
          cases hlast
        by_cases hslash : c = '/'
        · simp [hne, hslash]
        · simp [hne, hslash]

theorem join_eq_normalize (directory reference : String) : join directory reference =
    normalize (String.ofList (adjoined directory.toList reference.toList)) := by
  rw [join, normalize, String.toList_ofList, appended_eq_adjoined]

/-- A directory can be folded before a reference is made from it. -/
theorem join_normalize (directory reference : String) :
    join (normalize directory) reference = join directory reference := by
  apply join_congr
  rw [normalize, String.toList_ofList, Normal.of_text (Normal.proper_of _)]

/-- A reference from where another one leads to can be joined to it first. -/
theorem join_join (directory reference further : String) :
    join (join directory reference) further =
      normalize (String.ofList
        (adjoined (adjoined directory.toList reference.toList) further.toList)) := by
  rw [join_eq_normalize directory reference, join_normalize, join_eq_normalize,
    String.toList_ofList]

/-- **Normal forms and joined references.** A path is folded once and for all, to a path with
nothing to fold that is absolute exactly if the path is; paths with nothing to fold stay as
they are. What a reference leads to has nothing to fold, does not depend on whether its
directory has been folded, and another reference from there leads to the normal form of all
three joined. -/
theorem normalForm_laws (directory reference further : String) :
    normalize (normalize directory) = normalize directory ∧
    IsFolded (normalize directory).toList ∧
    (normalize directory = directory ↔ IsFolded directory.toList) ∧
    isAbsolute (normalize directory).toList = isAbsolute directory.toList ∧
    IsFolded (join directory reference).toList ∧
    join (normalize directory) reference = join directory reference ∧
    join (join directory reference) further =
      normalize (String.ofList
        (adjoined (adjoined directory.toList reference.toList) further.toList)) := by
  have hfolded : ∀ p : List Char, IsFolded (Normal.of p).text :=
    fun p => (Normal.proper_of p).isFolded_text
  refine ⟨normalize_normalize directory, ?_, ?_, ?_, ?_, join_normalize directory reference,
    join_join directory reference further⟩
  · rw [normalize, String.toList_ofList]
    exact hfolded _
  · rw [isFolded_iff, normalize, ← String.toList_inj, String.toList_ofList]
  · rw [normalize, String.toList_ofList, (Normal.proper_of _).isAbsolute_text,
      Normal.absolute_of]
  · rw [join, String.toList_ofList]
    exact hfolded _

/-- A reference out of a directory, and then one from there. -/
example : join (join "exos//a/./b" "../../lib/") "../x.pl" = "exos/x.pl" := by decide

end ExerciseDoc.Path
