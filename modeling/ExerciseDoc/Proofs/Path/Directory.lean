import ExerciseDoc.Proofs.Path.Normal
import Mathlib.Data.List.Induction

/-!
# Path — directories and references

A path whose last word is a name folds to its directory and then that name
(`Named.of_eq`), however many void segments are cut off with the name. A reference is
folded from where the directory is folded to (`of_appended`). So it is of no account to
the references of a file how the path of the file is spelled (`Named.join_directory_eq`).
-/

namespace ExerciseDoc.Path

open Text (splitOn joinWith)

/-! ## References -/

theorem isAbsolute_append {p : List Char} (hp : p ≠ []) (q : List Char) :
    isAbsolute (p ++ q) = isAbsolute p := by
  cases p with
  | nil => exact absurd rfl hp
  | cons c cs => rfl

/-- A relative reference is folded from where its directory is folded to. -/
theorem of_appended (directory : List Char) {reference : List Char}
    (h : isAbsolute reference = false) :
    Normal.of (appended directory reference) =
      (splitOn '/' reference).foldl Normal.push (Normal.of directory) := by
  rw [appended, if_neg (by simp [h])]
  split
  · rename_i hempty
    rw [hempty, Normal.of, h]
    rfl
  · rename_i hne
    split
    · -- The slash behind the directory leaves a void segment there.
      rename_i hslash
      obtain ⟨front, rfl⟩ := List.getLast?_eq_some_iff.mp hslash
      rw [Normal.of, Normal.of, isAbsolute_append hne, List.append_assoc, List.singleton_append,
        Text.splitOn_append_sep, Text.splitOn_append_sep, List.foldl_append, List.foldl_append]
      rfl
    · rw [Normal.of, Normal.of, isAbsolute_append hne, Text.splitOn_append_sep,
        List.foldl_append]

/-- Directories that fold alike are one to every reference. -/
theorem join_congr {d d' : String} (h : Normal.of d.toList = Normal.of d'.toList)
    (reference : String) : join d reference = join d' reference := by
  unfold join
  cases habsolute : isAbsolute reference.toList with
  | true => rw [appended, appended, if_pos habsolute, if_pos habsolute]
  | false => rw [of_appended _ habsolute, of_appended _ habsolute, h]

/-! ## Directories -/

theorem dropVoidEnd_concat (segs : List Segment) (s : Segment) :
    dropVoidEnd (segs ++ [s]) = if isVoid s then dropVoidEnd segs else segs ++ [s] := by
  simp only [dropVoidEnd, List.reverse_concat, List.dropWhile_cons]
  split
  · rfl
  · simp

theorem dropVoidEnd_isPrefix (segs : List Segment) : dropVoidEnd segs <+: segs := by
  have h := List.reverse_prefix.mpr (List.dropWhile_suffix (l := segs.reverse) isVoid)
  rwa [List.reverse_reverse] at h

/-- Void segments at the end fold to nothing. -/
theorem foldl_push_dropVoidEnd (n : Normal) (segs : List Segment) :
    (dropVoidEnd segs).foldl Normal.push n = segs.foldl Normal.push n := by
  induction segs using List.reverseRecOn with
  | nil => rfl
  | append_singleton segs s ih =>
      rw [dropVoidEnd_concat]
      split
      · rename_i hvoid
        rw [ih, List.foldl_append, List.foldl_cons, List.foldl_nil, Normal.push_void _ hvoid]
      · rfl

/-- A start and the segments behind it fold as a path does, if the first segment of a
bare path does not look like the root. -/
theorem of_rejoined {origin : Start} {segs : List Segment} (hfree : ∀ s ∈ segs, '/' ∉ s)
    (hbare : origin = .bare → segs.head? ≠ some []) :
    Normal.of (rejoined origin segs) =
      segs.foldl Normal.push ⟨decide (origin = .root), 0, []⟩ := by
  cases origin with
  | root =>
      by_cases hsegs : segs = []
      · subst hsegs
        rfl
      · rw [rejoined, Normal.of, splitOn, if_pos rfl, Text.splitOn_joinWith hsegs hfree]
        rfl
  | here =>
      have hsplit := Text.splitOn_joinWith (List.cons_ne_nil here segs)
        (List.forall_mem_cons.mpr ⟨by decide, hfree⟩)
      have hrelative : isAbsolute (joinWith '/' (here :: segs)) = false := by
        cases segs <;> rfl
      rw [rejoined, Normal.of, hsplit, hrelative]
      rfl
  | bare =>
      by_cases hsegs : segs = []
      · subst hsegs
        rfl
      · have hsplit := Text.splitOn_joinWith hsegs hfree
        have hrelative : isAbsolute (joinWith '/' segs) = false := by
          rw [Bool.eq_false_iff]
          intro habsolute
          obtain ⟨rest, -, hroot⟩ := Normal.isAbsolute_iff.mp habsolute
          rw [hsplit] at hroot
          exact hbare rfl (by rw [hroot]; rfl)
        rw [rejoined, Normal.of, hsplit, hrelative]
        rfl

theorem rejoined_start (p : List Char) : rejoined (start p).1 (start p).2 = p := by
  have hjoin := Text.joinWith_splitOn '/' p
  unfold start
  cases hsplit : splitOn '/' p with
  | nil => exact absurd hsplit (Text.splitOn_ne_nil '/' p)
  | cons first rest =>
      rw [hsplit] at hjoin
      dsimp only
      split
      · rename_i hroot
        obtain ⟨rfl, hrest⟩ := hroot
        rw [Text.joinWith_cons '/' [] hrest] at hjoin
        exact hjoin
      · split
        · rename_i hhere
          rw [hhere] at hjoin
          exact hjoin
        · exact hjoin

/-! ## The name of a path -/

/-- The segments of a path that say something. -/
def telling (p : List Char) : List Segment :=
  (splitOn '/' p).filter fun s => !isVoid s

/-- The start of a path takes nothing but a void segment off. -/
theorem telling_start (p : List Char) : (start p).2.filter (fun s => !isVoid s) = telling p := by
  unfold start telling
  cases hsplit : splitOn '/' p with
  | nil => exact absurd hsplit (Text.splitOn_ne_nil '/' p)
  | cons first rest =>
      dsimp only
      split
      · rename_i hroot
        rw [hroot.1]
        rfl
      · split
        · rename_i hhere
          rw [hhere]
          rfl
        · rfl

theorem not_mem_start (p : List Char) : ∀ s ∈ (start p).2, '/' ∉ s := by
  have hfree : ∀ s ∈ splitOn '/' p, '/' ∉ s := fun s hs => Text.not_mem_of_mem_splitOn hs
  unfold start
  cases hsplit : splitOn '/' p with
  | nil => exact absurd hsplit (Text.splitOn_ne_nil '/' p)
  | cons first rest =>
      rw [hsplit] at hfree
      dsimp only
      split
      · exact (List.forall_mem_cons.mp hfree).2
      · split
        · exact (List.forall_mem_cons.mp hfree).2
        · exact hfree

/-- A bare path that says something does not look like the root. -/
theorem head?_start {p : List Char} (hbare : (start p).1 = .bare) (h : telling p ≠ []) :
    (start p).2.head? ≠ some [] := by
  unfold start at hbare ⊢
  unfold telling at h
  cases hsplit : splitOn '/' p with
  | nil => exact absurd hsplit (Text.splitOn_ne_nil '/' p)
  | cons first rest =>
      rw [hsplit] at hbare h
      dsimp only at hbare ⊢
      split at hbare
      · cases hbare
      · rename_i hroot
        split at hbare
        · cases hbare
        · rename_i hhere
          rw [if_neg hroot, if_neg hhere]
          intro hfirst
          cases hfirst
          have hrest : rest = [] := not_not.mp fun hne => hroot ⟨rfl, hne⟩
          subst hrest
          exact h rfl

theorem getLast?_dropVoidEnd (segs : List Segment) :
    (dropVoidEnd segs).getLast? = (segs.filter fun s => !isVoid s).getLast? := by
  induction segs using List.reverseRecOn with
  | nil => rfl
  | append_singleton segs s ih =>
      rw [dropVoidEnd_concat, List.filter_append]
      cases hvoid : isVoid s with
      | true => simpa [hvoid] using ih
      | false => simp [hvoid]

/-- The last segment of the path that says something is a name. -/
structure Named (p : String) (s : Segment) : Prop where
  name : IsName s
  last : (telling p.toList).getLast? = some s

namespace Named

variable {p p' : String} {s s' : Segment}

theorem unique (h : Named p s) (h' : Named p s') : s = s' :=
  Option.some.inj (h.last.symm.trans h'.last)

/-- The name is what is left at the end of the path without the void segments there. -/
theorem exists_front (h : Named p s) :
    ∃ front, dropVoidEnd (start p.toList).2 = front ++ [s] := by
  apply List.getLast?_eq_some_iff.mp
  rw [getLast?_dropVoidEnd, telling_start, h.last]

theorem fileName_eq (h : Named p s) : fileName p = String.ofList s := by
  obtain ⟨front, hfront⟩ := h.exists_front
  simp only [fileName, hfront, List.getLast?_concat, if_neg h.name.ne_parent]

/-- **A path is its directory and its name.** -/
theorem of_eq (h : Named p s) :
    Normal.of p.toList = (Normal.of (directory p).toList).push s := by
  obtain ⟨front, hfront⟩ := h.exists_front
  have htelling : telling p.toList ≠ [] := by
    intro hnil
    have hlast := h.last
    rw [hnil] at hlast
    cases hlast
  have hfree := not_mem_start p.toList
  have hbare := fun hbare => head?_start (p := p.toList) hbare htelling
  have hpath := rejoined_start p.toList
  have hdirectory : directory p =
      String.ofList (rejoined (start p.toList).1 (dropVoidEnd front)) := by
    simp only [directory, hfront]
    split
    · rename_i hnil
      exact absurd hnil (List.append_ne_nil_of_right_ne_nil _ (List.cons_ne_nil _ _))
    · rw [List.dropLast_concat]
  generalize (start p.toList).1 = origin at hbare hpath hdirectory
  generalize (start p.toList).2 = segs at hfront hfree hbare hpath
  -- What is left of the path's segments starts with what is left of the directory's.
  have hkept : dropVoidEnd front <+: segs :=
    ((dropVoidEnd_isPrefix front).trans (List.prefix_append _ _)).trans
      (hfront ▸ dropVoidEnd_isPrefix segs)
  have hfold : Normal.of p.toList =
      (front ++ [s]).foldl Normal.push ⟨decide (origin = .root), 0, []⟩ := by
    rw [← hpath, of_rejoined hfree hbare, ← foldl_push_dropVoidEnd, hfront]
  rw [hfold, hdirectory, String.toList_ofList,
    of_rejoined (fun x hx => hfree x (hkept.subset hx)), foldl_push_dropVoidEnd,
    List.foldl_append]
  · rfl
  · intro horigin hhead
    obtain ⟨rest, hrest⟩ := hkept
    apply hbare horigin
    rw [← hrest, List.head?_append, hhead]
    rfl

/-- **References do not depend on how a path is spelled.** From paths that have one normal
form and one name they lead to one path. -/
theorem join_directory_eq (hp : Named p s) (hp' : Named p' s)
    (h : normalize p = normalize p') (reference : String) :
    join (directory p) reference = join (directory p') reference := by
  apply join_congr
  apply Normal.push_name_inj hp.name
  rw [← hp.of_eq, ← hp'.of_eq, of_eq_of_normalize_eq h]

end Named

/-- Behind its last slash the path has a name. -/
structure EndsIn (p : String) (s : Segment) : Prop where
  name : IsName s
  last : (splitOn '/' p.toList).getLast? = some s

theorem EndsIn.named {p : String} {s : Segment} (h : EndsIn p s) : Named p s := by
  refine ⟨h.name, ?_⟩
  obtain ⟨front, hfront⟩ := List.getLast?_eq_some_iff.mp h.last
  rw [telling, hfront, List.filter_append]
  simp [h.name.isVoid_eq]

/-- The normal form of a path ends in the path's name. -/
theorem Named.normalize {p : String} {s : Segment} (h : Named p s) :
    EndsIn (normalize p) s := by
  refine ⟨h.name, ?_⟩
  have hproper := Normal.proper_of p.toList
  obtain ⟨segs, hsegs⟩ : ∃ segs, (Normal.of p.toList).segments = segs ++ [s] := by
    rw [h.of_eq, Normal.push_name _ h.name, Normal.segments, List.reverse_cons,
      ← List.append_assoc]
    exact ⟨_, rfl⟩
  have hne : (Normal.of p.toList).segments ≠ [] := by simp [hsegs]
  rw [Path.normalize, String.toList_ofList, hproper.splitOn_text hne, hsegs]
  split
  · rw [← List.cons_append]
    exact List.getLast?_concat
  · exact List.getLast?_concat

end ExerciseDoc.Path
