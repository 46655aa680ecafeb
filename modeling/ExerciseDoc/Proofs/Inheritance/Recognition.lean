import ExerciseDoc.Proofs.Inheritance.Spelling

/-!
# Inheritance — which files of a chain are one

A store answers with paths in normal form, so the files of a chain are told apart by their
paths, all but the root, whose path is the caller's (`Opens.isNormal`). A root under another
spelling stands on a chain a second time where a file comes back to it, and that is the only
way for a file to do so (`chain_distinct_iff`). A chain that has the root twice can end with
the limit before the loop is seen, so a loop is not always told as one
(`root_not_recognised`).
-/

namespace ExerciseDoc

/-- The file under the normal form of its path. -/
def FullPath.normal (path : FullPath) : FullPath :=
  ⟨path.resourceId, Path.normalize path.path⟩

namespace FullPath

instance (path : FullPath) : Decidable path.IsNormal :=
  inferInstanceAs (Decidable (Path.normalize path.path = path.path))

variable {path root : FullPath} {rest : List FullPath}

theorem isNormal_iff : path.IsNormal ↔ path.normal = path := by
  cases path
  simp [IsNormal, normal]

theorem map_normal (h : ∀ path ∈ rest, path.IsNormal) : rest.map normal = rest := by
  refine (List.map_congr_left fun path hpath => ?_).trans (List.map_id rest)
  exact isNormal_iff.mp (h path hpath)

/-- Behind a root, which can be spelled in any way, all paths are normal. -/
def Recognised (root : FullPath) (chain : List FullPath) : Prop :=
  ∃ rest, chain = root :: rest ∧ chain.Nodup ∧ ∀ path ∈ rest, path.IsNormal

/-- No file stands twice on such a chain exactly if the root is not spelled in one way by
the caller and in another one behind. -/
theorem Recognised.nodup_map_iff {chain : List FullPath} (h : Recognised root chain) :
    (chain.map normal).Nodup ↔ root.IsNormal ∨ root.normal ∉ chain := by
  obtain ⟨rest, rfl, hnodup, hrest⟩ := h
  obtain ⟨hroot, hnodup⟩ := List.nodup_cons.mp hnodup
  rw [List.map_cons, map_normal hrest, List.nodup_cons, isNormal_iff]
  by_cases hnormal : root.normal = root
  · simp [hnormal, hroot, hnodup]
  · simp [hnormal, hnodup]

/-- No other file stands on it twice. -/
theorem Recognised.nodup_map_tail {chain : List FullPath} (h : Recognised root chain) :
    (chain.tail.map normal).Nodup := by
  obtain ⟨rest, rfl, hnodup, hrest⟩ := h
  rw [List.tail_cons, map_normal hrest]
  exact (List.nodup_cons.mp hnodup).2

end FullPath

namespace Parse

open FullPath (Recognised)

/-! ## Chains over a store -/

variable {store : Store} {ctx ctx' : Context} {contents contents' : ByteArray}
  {location : Location} {edges : List Location} {limit : Nat}

theorem LeadsTo.isNormal {f : Location → Run Document} (h : LeadsTo f ctx contents location)
    (hresolver : ctx.resolver = store.resolver) : location.path.IsNormal := by
  obtain ⟨_, _, _, _, _, uri, _, hfound⟩ := h
  rw [hresolver] at hfound
  exact Store.isNormal_of_resolver hfound

/-- Over a store all files below the first one have normal paths. -/
theorem Opens.isNormal (h : Opens ctx contents edges ctx' contents')
    (hresolver : ctx.resolver = store.resolver) :
    ∀ path ∈ edges.map (·.path), path.IsNormal := by
  induction h with
  | root => simp
  | further hlead _ _ ih =>
      rw [List.map_cons, List.forall_mem_cons]
      exact ⟨hlead.isNormal hresolver, ih hresolver⟩

theorem Opens.recognised (h : Opens ctx contents edges ctx' contents')
    (hroot : RootOver store limit ctx) : Recognised ctx.path ctx'.chain := by
  have hchain : ctx'.chain = ctx.path :: edges.map (·.path) := by
    rw [h.chain, hroot.chain]
    rfl
  have hfresh : ctx.chain.Nodup := by simp [hroot.chain]
  exact ⟨_, hchain, h.nodup hfresh, h.isNormal hroot.resolver⟩

/-- The chain that a loop is reported with, without the file that repeats. -/
theorem recognised_of_loop (hroot : RootOver store limit ctx) {path : FullPath}
    {chain : List FullPath}
    (h : (fileIn ctx contents).result = .error (.inheritanceLoop path chain)) :
    Recognised ctx.path chain.dropLast := by
  obtain ⟨edges, ctx', contents', location, hopen, -, -, -, rfl⟩ := fileIn_eq_loop h
  rw [List.dropLast_concat]
  exact hopen.recognised hroot

/-- The chain that is too long, with the file that is one too many. -/
theorem recognised_of_tooDeep (hroot : RootOver store limit ctx) {path : FullPath}
    {chain : List FullPath} {limit' : Nat}
    (h : (fileIn ctx contents).result = .error (.inheritanceTooDeep path chain limit')) :
    Recognised ctx.path chain := by
  obtain ⟨edges, ctx', contents', location, hopen, hlead, hnew, -, -, rfl, -⟩ :=
    fileIn_eq_tooDeep h
  obtain ⟨rest, hchain, hnodup, hrest⟩ := hopen.recognised hroot
  have hlast : location.path.IsNormal :=
    hlead.isNormal (hopen.resolver.trans hroot.resolver)
  refine ⟨rest ++ [location.path], by simp [hchain], Context.nodup_under hnodup hnew, ?_⟩
  exact List.forall_mem_append.mpr ⟨hrest, List.forall_mem_singleton.mpr hlast⟩

/-! ## The chains of a parse -/

/-- **Which files a chain recognises.** A file is parsed over a store, whatever the spelling
of its path. In the chain that a loop is reported with, the file that repeats left aside, and
in a chain that is too long, no two files behind the root have one normal path. No two files
at all have one exactly if the root's path is normal or its normal path is not on the chain
as well. -/
theorem chain_distinct_iff (store : Store) (limit : Nat) (check : Bool) (source : Location) :
    (∀ path chain,
      (parse ⟨store.resolver, [], limit, check⟩ source).result =
        .error (.inheritanceLoop path chain) →
      (chain.dropLast.tail.map FullPath.normal).Nodup ∧
      ((chain.dropLast.map FullPath.normal).Nodup ↔
        source.path.IsNormal ∨ source.path.normal ∉ chain.dropLast)) ∧
    (∀ path chain limit',
      (parse ⟨store.resolver, [], limit, check⟩ source).result =
        .error (.inheritanceTooDeep path chain limit') →
      (chain.tail.map FullPath.normal).Nodup ∧
      ((chain.map FullPath.normal).Nodup ↔
        source.path.IsNormal ∨ source.path.normal ∉ chain)) := by
  have hroot : RootOver store limit
      (contextOf ⟨store.resolver, [], limit, check⟩ source) := ⟨rfl, rfl, rfl⟩
  refine ⟨?_, ?_⟩
  · intro path chain h
    rcases parse_eq_error h with hfile | ⟨_, _, hmissing⟩
    · have hchain := recognised_of_loop hroot hfile
      exact ⟨hchain.nodup_map_tail, hchain.nodup_map_iff⟩
    · cases hmissing
  · intro path chain limit' h
    rcases parse_eq_error h with hfile | ⟨_, _, hmissing⟩
    · have hchain := recognised_of_tooDeep hroot hfile
      exact ⟨hchain.nodup_map_tail, hchain.nodup_map_iff⟩
    · cases hmissing

/-! A file that inherits from itself, in its store. -/

def ownParent : Location := ⟨"extends = a".toUTF8, ⟨0, "a"⟩, 0⟩

def ownParentStore : Store := [(ownParent.path, ⟨ownParent.contents, none⟩)]

/-- The file under another spelling of its path. -/
def ownParentSpelled : Location := { ownParent with path := ⟨0, "./a"⟩ }

/-- From its normal path the file is seen to repeat at once, and from the other one when it
is on the chain twice. -/
theorem chain_distinct_iff_ownParent :
    (parse ⟨ownParentStore.resolver, [], 64, true⟩ ownParent).result =
      .error (.inheritanceLoop ⟨0, "a"⟩ [⟨0, "a"⟩, ⟨0, "a"⟩]) ∧
    ([⟨0, "a"⟩].map FullPath.normal).Nodup ∧
    (parse ⟨ownParentStore.resolver, [], 64, true⟩ ownParentSpelled).result =
      .error (.inheritanceLoop ⟨0, "a"⟩ [⟨0, "./a"⟩, ⟨0, "a"⟩, ⟨0, "a"⟩]) ∧
    ¬ ([⟨0, "./a"⟩, ⟨0, "a"⟩].map FullPath.normal).Nodup := by
  have hloop : (parse ⟨ownParentStore.resolver, [], 64, true⟩ ownParent).result =
      .error (.inheritanceLoop ⟨0, "a"⟩ [⟨0, "a"⟩, ⟨0, "a"⟩]) := rfl
  have hspelled : (parse ⟨ownParentStore.resolver, [], 64, true⟩ ownParentSpelled).result =
      .error (.inheritanceLoop ⟨0, "a"⟩ [⟨0, "./a"⟩, ⟨0, "a"⟩, ⟨0, "a"⟩]) := rfl
  refine ⟨hloop, ?_, hspelled, ?_⟩
  · have h := ((chain_distinct_iff ownParentStore 64 true ownParent).1 _ _ hloop).2
    exact h.mpr (.inl (by decide))
  · have h := ((chain_distinct_iff ownParentStore 64 true ownParentSpelled).1 _ _ hspelled).2
    intro hdistinct
    exact absurd (h.mp hdistinct) (by decide)

/-- **A root is not always recognised.** A stored file that inherits from itself is parsed
under another spelling of its path. It stands on the chain of the loop twice before it
repeats, and under a limit of one its loop is told as a chain that is too long, on which it
stands twice. -/
theorem root_not_recognised :
    ownParentStore.contents? ownParentSpelled.path = some ownParentSpelled.contents ∧
    (∃ path chain,
      (parse ⟨ownParentStore.resolver, [], 64, true⟩ ownParentSpelled).result =
        .error (.inheritanceLoop path chain) ∧
      ¬ (chain.dropLast.map FullPath.normal).Nodup) ∧
    ∃ path chain limit,
      (parse ⟨ownParentStore.resolver, [], 1, true⟩ ownParentSpelled).result =
        .error (.inheritanceTooDeep path chain limit) ∧
      ¬ (chain.map FullPath.normal).Nodup := by
  refine ⟨rfl, ⟨⟨0, "a"⟩, [⟨0, "./a"⟩, ⟨0, "a"⟩, ⟨0, "a"⟩], rfl, by decide⟩,
    ⟨0, "./a"⟩, [⟨0, "./a"⟩, ⟨0, "a"⟩], 1, rfl, by decide⟩

end Parse

end ExerciseDoc
