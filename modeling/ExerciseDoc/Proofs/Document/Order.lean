import ExerciseDoc.Proofs.Key.Focus
import ExerciseDoc.Proofs.Parse.Opened
import ExerciseDoc.Proofs.Value.Order

/-!
# Document — order

The keys of a document's data ascend, and so do its dependencies
(`Document.Ordered`). Every line keeps this, so it holds of every document that a file
yields (`fileIn_ordered`). What ascends is found again whole after it has been laid
over nothing, so an ancestor folded into an empty document is the ancestor itself, but
for its path (`Document.Ordered.merge_empty`).
-/

namespace ExerciseDoc

/-! ## Dependencies -/

namespace Dependency

theorem before_iff {a b : Dependency} :
    a.before b ↔ a.path.resourceId < b.path.resourceId ∨
      a.path.resourceId = b.path.resourceId ∧
        (a.path.path < b.path.path ∨ a.path.path = b.path.path ∧ a.name < b.name) := by
  simp [before]

theorem not_before_self (d : Dependency) : ¬ d.before d := by
  intro h
  rcases before_iff.mp h with h | ⟨-, h | ⟨-, h⟩⟩
  · exact Int.lt_irrefl _ h
  · exact String.lt_irrefl _ h
  · exact String.lt_irrefl _ h

theorem before_trans {a b c : Dependency} (hab : a.before b) (hbc : b.before c) :
    a.before c := by
  rw [before_iff] at *
  rcases hab with hab | ⟨hab, hab' | ⟨hab', hab''⟩⟩
  · rcases hbc with hbc | ⟨hbc, -⟩ <;> exact .inl (by omega)
  · rcases hbc with hbc | ⟨hbc, hbc' | ⟨hbc', -⟩⟩
    · exact .inl (by omega)
    · exact .inr ⟨by omega, .inl (String.lt_trans hab' hbc')⟩
    · exact .inr ⟨by omega, .inl (hbc' ▸ hab')⟩
  · rw [hab, hab']
    rcases hbc with hbc | ⟨hbc, hbc' | ⟨hbc', hbc''⟩⟩
    · exact .inl hbc
    · exact .inr ⟨hbc, .inl hbc'⟩
    · exact .inr ⟨hbc, .inr ⟨hbc', String.lt_trans hab'' hbc''⟩⟩

theorem before_of_not {a b : Dependency} (h : ¬ a.before b) (hne : a ≠ b) : b.before a := by
  rw [before_iff, not_or, not_and] at h
  obtain ⟨hresource, hpath⟩ := h
  rw [before_iff]
  -- The first component in which the two differ decides.
  by_cases hsame : a.path.resourceId = b.path.resourceId
  · have hpath := hpath hsame
    rw [not_or, not_and] at hpath
    refine .inr ⟨hsame.symm, ?_⟩
    by_cases hsame' : a.path.path = b.path.path
    · refine .inr ⟨hsame'.symm, Entries.string_lt_of_not (hpath.2 hsame') ?_⟩
      intro hname
      obtain ⟨⟨_, _⟩, _⟩ := a
      cases hsame
      cases hsame'
      cases hname
      exact hne rfl
    · exact .inl (Entries.string_lt_of_not hpath.1 hsame')
  · exact .inl (by omega)

theorem mem_insertInto {d e : Dependency} {ds : List Dependency} :
    e ∈ d.insertInto ds ↔ e = d ∨ e ∈ ds := by
  induction ds with
  | nil => simp [insertInto]
  | cons first rest ih =>
      rw [insertInto]
      split
      · rename_i heq
        simp [heq]
      · split
        · rw [List.mem_cons, ih, List.mem_cons]
          exact or_left_comm
        · exact List.mem_cons

theorem mem_union {e : Dependency} {ds others : List Dependency} :
    e ∈ others.foldl (fun ds d => d.insertInto ds) ds ↔ e ∈ ds ∨ e ∈ others := by
  induction others generalizing ds with
  | nil => simp
  | cons d rest ih =>
      rw [List.foldl_cons, ih, mem_insertInto, List.mem_cons, or_assoc, or_left_comm]

/-- The dependencies ascend, so none of them stands twice. -/
def Ascending (ds : List Dependency) : Prop :=
  ds.Pairwise fun a b => a.before b

theorem Ascending.insertInto {ds : List Dependency} (h : Ascending ds) (d : Dependency) :
    Ascending (d.insertInto ds) := by
  induction ds with
  | nil => exact List.pairwise_singleton _ _
  | cons first rest ih =>
      obtain ⟨hfirst, hrest⟩ := List.pairwise_cons.mp h
      rw [Dependency.insertInto]
      split
      · exact h
      · rename_i hne
        split
        · rename_i hbefore
          refine List.pairwise_cons.mpr ⟨?_, ih hrest⟩
          intro e he
          rcases mem_insertInto.mp he with rfl | he
          · exact hbefore
          · exact hfirst e he
        · rename_i hbefore
          have hd : d.before first := before_of_not hbefore hne
          refine List.pairwise_cons.mpr ⟨?_, h⟩
          intro e he
          rcases List.mem_cons.mp he with rfl | he
          · exact hd
          · exact before_trans hd (hfirst e he)

theorem Ascending.union {ds : List Dependency} (h : Ascending ds)
    (others : List Dependency) :
    Ascending (others.foldl (fun ds d => d.insertInto ds) ds) := by
  induction others generalizing ds with
  | nil => exact h
  | cons d rest ih => exact ih (h.insertInto d)

theorem insertInto_of_above {ds : List Dependency} {d : Dependency}
    (h : ∀ e ∈ ds, e.before d) : d.insertInto ds = ds ++ [d] := by
  induction ds with
  | nil => rfl
  | cons first rest ih =>
      have hfirst := h first List.mem_cons_self
      have hne : first ≠ d := by
        rintro rfl
        exact not_before_self first hfirst
      rw [insertInto, if_neg hne, if_pos hfirst]
      rw [ih fun e he => h e (List.mem_cons_of_mem _ he)]
      rfl

/-- A dependency that is there already changes nothing. -/
theorem insertInto_of_mem {ds : List Dependency} {d : Dependency} (h : Ascending ds)
    (hd : d ∈ ds) : d.insertInto ds = ds := by
  induction ds with
  | nil => cases hd
  | cons first rest ih =>
      obtain ⟨hfirst, hrest⟩ := List.pairwise_cons.mp h
      rw [insertInto]
      by_cases heq : first = d
      · rw [if_pos heq]
      · have hmem : d ∈ rest := (List.mem_cons.mp hd).resolve_left (Ne.symm heq)
        rw [if_neg heq, if_pos (hfirst d hmem), ih hrest hmem]

/-- Dependencies that are all there already change nothing. -/
theorem union_of_subset {ds others : List Dependency} (h : Ascending ds)
    (hothers : others ⊆ ds) : others.foldl (fun ds d => d.insertInto ds) ds = ds := by
  induction others with
  | nil => rfl
  | cons d rest ih =>
      obtain ⟨hd, hrest⟩ := List.cons_subset.mp hothers
      rw [List.foldl_cons, insertInto_of_mem h hd, ih hrest]

/-- Dependencies above all that are there already are put behind them. -/
theorem union_of_above {ds others : List Dependency} (h : Ascending (ds ++ others)) :
    others.foldl (fun ds d => d.insertInto ds) ds = ds ++ others := by
  induction others generalizing ds with
  | nil => rw [List.foldl_nil, List.append_nil]
  | cons d rest ih =>
      have habove : ∀ e ∈ ds, e.before d := fun e he =>
        (List.pairwise_append.mp h).2.2 e he _ List.mem_cons_self
      rw [List.foldl_cons, insertInto_of_above habove]
      rw [ih (by rwa [List.append_cons] at h), ← List.append_cons]

end Dependency

/-! ## Documents -/

namespace Key

/-- What is done at the end of a path keeps the order of the root, if it keeps the order
of the mapping that it is done to. -/
theorem focus_ascending {α : Type} {f : Mapping → Mapping × α} {root : Mapping}
    (path : List String) (hf : root.Ascending → (f root).1.Ascending)
    (hroot : root.Ascending) : (focus f path root).1.Ascending := by
  cases path with
  | nil => exact hf hroot
  | cons seg rest =>
      -- Further down the path nothing but the value at the first segment changes.
      rcases enters_or_blocks root seg with ⟨sub, hsub⟩ | hblocks
      · rw [hsub.focus_cons]
        exact hroot.insert seg _
      · rw [hblocks.focus_cons]
        exact hroot

theorem put_ascending {m : Mapping} (h : m.Ascending) (key last : String)
    (incoming : Incoming) (mode : Mode) : (put key last incoming mode m).1.Ascending := by
  rcases put_fst_cases m key last incoming mode with hput | ⟨v, hput, -⟩ <;> rw [hput]
  · exact h
  · exact h.insert last v

theorem apply_ascending {root : Mapping} (h : root.Ascending) (key : String)
    (incoming : Incoming) (mode : Mode) : (apply root key incoming mode).1.Ascending := by
  rcases apply_fst_cases root key incoming mode with happly | ⟨parents, last, -, happly⟩ <;>
    rw [happly]
  · exact h
  · exact focus_ascending parents (fun h => put_ascending h key last incoming mode) h

end Key

namespace Document

/-- The data and the dependencies ascend. -/
structure Ordered (doc : Document) : Prop where
  data : doc.data.Ascending
  dependencies : Dependency.Ascending doc.dependencies

theorem ordered_empty (path : FullPath) (circleId : Int) (format : String) :
    (empty path circleId format).Ordered :=
  ⟨List.Pairwise.nil, List.Pairwise.nil⟩

theorem ordered_lasting : Parse.Lasting Ordered Ordered where
  stored := by
    intro doc key incoming mode data warning _ happly h
    have hdata := Key.apply_ascending h.data key incoming mode
    rw [happly] at hdata
    exact ⟨hdata, h.dependencies⟩
  warned h := ⟨h.data, h.dependencies⟩
  commented h := ⟨h.data, h.dependencies⟩
  depends h := ⟨h.data, h.dependencies.insertInto _⟩
  merged h _ := ⟨h.data.merge _, h.dependencies.union _⟩

/-- Folded into an empty document, a document is the same as before, but for what the
empty one is the document of. -/
theorem Ordered.merge_empty {doc : Document} (h : doc.Ordered) (path : FullPath)
    (circleId : Int) (format : String) :
    (empty path circleId format).merge doc =
      { doc with path := path, circleId := circleId, format := format } := by
  have hdependencies :
      doc.dependencies.foldl (fun ds d => d.insertInto ds) [] = doc.dependencies :=
    Dependency.union_of_above (by simpa using h.dependencies)
  simp only [merge, empty, List.nil_append, h.data.nil_merge, hdependencies]

end Document

namespace Parse

/-- **Every document is in order.** -/
theorem fileIn_ordered {ctx : Context} {contents : ByteArray} {doc : Document}
    (h : (fileIn ctx contents).result = .ok doc) : doc.Ordered :=
  Document.ordered_lasting.fileIn (fun _ => Document.ordered_empty _ _ _) h

end Parse

end ExerciseDoc
