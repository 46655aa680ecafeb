import ExerciseDoc.Proofs.Parse.Opened

/-!
# Inheritance — the chain

Every file that a parse opens carries the chain of files that led to it: what the
caller preset, the root, and the line of descent from there, nothing beside it. The
chain never has a file twice and never outgrows the depth limit, and the two errors
of inheritance report it with the file that is one too many.
-/

namespace ExerciseDoc.Parse

/-! ## The chain of a file that is opened -/

/-- A file that is new to a chain leaves it without repetition. -/
theorem Context.nodup_under {ctx : Context} {location : Location} (h : ctx.chain.Nodup)
    (hnew : location.path ∉ ctx.chain) : (ctx.under location).chain.Nodup := by
  rw [Context.under, List.nodup_append]
  refine ⟨h, List.pairwise_singleton _ _, ?_⟩
  rintro a ha b hb rfl
  exact hnew (List.mem_singleton.mp hb ▸ ha)

section Opened

variable {ctx ctx' : Context} {contents contents' : ByteArray} {edges : List Location}

theorem Opens.chain (h : Opens ctx contents edges ctx' contents') :
    ctx'.chain = ctx.chain ++ edges.map (·.path) := by
  induction h with
  | root => simp
  | further _ _ _ ih => rw [ih]; simp [Context.under]

theorem Opens.depthLimit (h : Opens ctx contents edges ctx' contents') :
    ctx'.depthLimit = ctx.depthLimit := by
  induction h with
  | root => rfl
  | further _ _ _ ih => exact ih

/-- A file that is not refused is new to the chain. -/
theorem Opens.nodup (h : Opens ctx contents edges ctx' contents')
    (hfresh : ctx.chain.Nodup) : ctx'.chain.Nodup := by
  induction h with
  | root => exact hfresh
  | further _ hrefusal _ ih =>
      exact ih (Context.nodup_under hfresh (refusal_eq_none.mp hrefusal).1)

/-- Below the first file the chain is never longer than the limit. -/
theorem Opens.length_le (h : Opens ctx contents edges ctx' contents') :
    ctx'.chain.length ≤ max ctx.depthLimit ctx.chain.length := by
  induction h with
  | root => exact Nat.le_max_right _ _
  | further _ hrefusal _ ih =>
      have hshort := (refusal_eq_none.mp hrefusal).2
      simp only [Context.under, List.length_append, List.length_singleton] at ih
      omega

/-- A chain that the limit keeps from growing is as long as the limit, or as it was at
the first file if that one's is past the limit already. -/
theorem Opens.length_eq_of_le (h : Opens ctx contents edges ctx' contents')
    (hdeep : ctx'.depthLimit ≤ ctx'.chain.length) :
    ctx'.chain.length = max ctx.depthLimit ctx.chain.length := by
  have hmax := h.length_le
  have hchain := congrArg List.length h.chain
  rw [h.depthLimit] at hdeep
  rw [List.length_append, List.length_map] at hchain
  omega

/-- The file itself is the last of its chain. -/
theorem Opens.chain_eq_append (h : Opens ctx contents edges ctx' contents')
    (hlast : ∃ front, ctx.chain = front ++ [ctx.path]) :
    ∃ front, ctx'.chain = front ++ [ctx'.path] := by
  induction h with
  | root => exact hlast
  | further _ _ _ ih => exact ih ⟨_, rfl⟩

end Opened

/-! ## The errors of inheritance -/

/-- A loop is reported by a file that inherits from a file of its own chain. -/
theorem fileIn_eq_loop {ctx : Context} {contents : ByteArray} {path : FullPath}
    {chain : List FullPath}
    (h : (fileIn ctx contents).result = .error (.inheritanceLoop path chain)) :
    ∃ edges ctx' contents' location, Opens ctx contents edges ctx' contents' ∧
      LeadsTo (ancestor ctx') ctx' contents' location ∧ location.path ∈ ctx'.chain ∧
      path = ctx'.path ∧ chain = ctx'.chain ++ [location.path] := by
  obtain ⟨edges, ctx', contents', hopen, hown | ⟨location, hlead, hrefusal⟩⟩ :=
    fileIn_eq_error h
  · cases hown
  · refine ⟨edges, ctx', contents', location, hopen, hlead, ?_⟩
    rcases refusal_eq_some hrefusal with ⟨hmem, hloop⟩ | ⟨-, -, hdeep⟩
    · cases hloop
      exact ⟨hmem, rfl, rfl⟩
    · cases hdeep

/-- The limit is reported by a file whose chain is as long as the limit allows, and
which inherits from a file that is new to the chain. -/
theorem fileIn_eq_tooDeep {ctx : Context} {contents : ByteArray} {path : FullPath}
    {chain : List FullPath} {limit : Nat}
    (h : (fileIn ctx contents).result = .error (.inheritanceTooDeep path chain limit)) :
    ∃ edges ctx' contents' location, Opens ctx contents edges ctx' contents' ∧
      LeadsTo (ancestor ctx') ctx' contents' location ∧ location.path ∉ ctx'.chain ∧
      ctx'.depthLimit ≤ ctx'.chain.length ∧ path = ctx'.path ∧
      chain = ctx'.chain ++ [location.path] ∧ limit = ctx'.depthLimit := by
  obtain ⟨edges, ctx', contents', hopen, hown | ⟨location, hlead, hrefusal⟩⟩ :=
    fileIn_eq_error h
  · cases hown
  · refine ⟨edges, ctx', contents', location, hopen, hlead, ?_⟩
    rcases refusal_eq_some hrefusal with ⟨-, hloop⟩ | ⟨hnew, hdeep, hcut⟩
    · cases hloop
    · cases hcut
      exact ⟨hnew, hdeep, rfl, rfl, rfl⟩

/-! ## The chain of a parse -/

/-- **The inheritance chain.** A file that a parse opens has as its chain the preset
files, the root and the line of descent from the root to itself; no file stands on it
twice, and it is no longer than the limit unless the root's own chain is. A loop is
reported with the chain of the file that closes it and behind that the file that
repeats, and an inheritance that is too deep with a chain that is one longer than the
limit allows and still has no file twice. -/
theorem chain_of_parse (settings : Settings) (source : Location)
    (hfresh : (settings.inherited ++ [source.path]).Nodup) :
    (∀ edges ctx contents,
      Opens (contextOf settings source) source.contents edges ctx contents →
      ctx.chain = settings.inherited ++ source.path :: edges.map (·.path) ∧
      ctx.chain.Nodup ∧
      ctx.chain.length ≤ max settings.depthLimit (settings.inherited.length + 1)) ∧
    (∀ path chain,
      (parse settings source).result = .error (.inheritanceLoop path chain) →
      ∃ front last edges ctx contents, chain = front ++ [path, last] ∧
        Opens (contextOf settings source) source.contents edges ctx contents ∧
        ctx.path = path ∧ ctx.chain = front ++ [path] ∧
        (front ++ [path]).Nodup ∧ last ∈ front ++ [path]) ∧
    (∀ path chain limit,
      (parse settings source).result = .error (.inheritanceTooDeep path chain limit) →
      ∃ front last edges ctx contents, chain = front ++ [path, last] ∧
        Opens (contextOf settings source) source.contents edges ctx contents ∧
        ctx.path = path ∧ ctx.chain = front ++ [path] ∧ chain.Nodup ∧
        chain.length = max settings.depthLimit (settings.inherited.length + 1) + 1 ∧
        limit = settings.depthLimit) := by
  have hroot : (contextOf settings source).chain.Nodup := hfresh
  have hrootLast : ∃ front, (contextOf settings source).chain =
      front ++ [(contextOf settings source).path] := ⟨settings.inherited, rfl⟩
  have hrootLength :
      (contextOf settings source).chain.length = settings.inherited.length + 1 := by
    simp [contextOf]
  refine ⟨?_, ?_, ?_⟩
  · intro edges ctx contents hopen
    refine ⟨?_, hopen.nodup hroot, ?_⟩
    · rw [hopen.chain]
      simp [contextOf]
    · rw [← hrootLength]
      exact hopen.length_le
  · intro path chain h
    rcases parse_eq_error h with hfile | ⟨_, _, hmissing⟩
    · obtain ⟨edges, ctx, contents, location, hopen, -, hmem, rfl, rfl⟩ :=
        fileIn_eq_loop hfile
      obtain ⟨front, hfront⟩ := hopen.chain_eq_append hrootLast
      have hnodup := hopen.nodup hroot
      rw [hfront] at hmem hnodup
      exact ⟨front, location.path, edges, ctx, contents, by simp [hfront], hopen, rfl,
        hfront, hnodup, hmem⟩
    · cases hmissing
  · intro path chain limit h
    rcases parse_eq_error h with hfile | ⟨_, _, hmissing⟩
    · obtain ⟨edges, ctx, contents, location, hopen, -, hnew, hdeep, rfl, rfl, rfl⟩ :=
        fileIn_eq_tooDeep hfile
      obtain ⟨front, hfront⟩ := hopen.chain_eq_append hrootLast
      refine ⟨front, location.path, edges, ctx, contents, by simp [hfront], hopen, rfl,
        hfront, Context.nodup_under (hopen.nodup hroot) hnew, ?_, hopen.depthLimit⟩
      rw [List.length_append, hopen.length_eq_of_le hdeep, hrootLength]
      rfl
    · cases hmissing

/-! Two files that inherit from each other, and a resolver that has no other. -/

def firstOfPair : Location := ⟨"extends = b".toUTF8, ⟨0, "a"⟩, 0⟩

def secondOfPair : Location := ⟨"extends = a".toUTF8, ⟨0, "b"⟩, 0⟩

def pairResolver : Resolver := fun q =>
  if q.uri = "a" then some firstOfPair
  else if q.uri = "b" then some secondOfPair
  else none

/-- The pair opens the second file, and comes to a loop under the usual limit and to
an inheritance that is too deep under a limit of one. -/
theorem chain_of_parse_pair :
    (∃ ctx contents,
      Opens (contextOf { resolver := pairResolver } firstOfPair) firstOfPair.contents
        [secondOfPair] ctx contents ∧
      ctx.chain = [⟨0, "a"⟩, ⟨0, "b"⟩]) ∧
    (parse { resolver := pairResolver } firstOfPair).result =
      .error (.inheritanceLoop ⟨0, "b"⟩ [⟨0, "a"⟩, ⟨0, "b"⟩, ⟨0, "a"⟩]) ∧
    (∃ front last, [⟨0, "a"⟩, ⟨0, "b"⟩, ⟨0, "a"⟩] = front ++ [⟨0, "b"⟩, last] ∧
      last ∈ front ++ [(⟨0, "b"⟩ : FullPath)]) ∧
    (parse { resolver := pairResolver, depthLimit := 1 } firstOfPair).result =
      .error (.inheritanceTooDeep ⟨0, "a"⟩ [⟨0, "a"⟩, ⟨0, "b"⟩] 1) ∧
    ([⟨0, "a"⟩, ⟨0, "b"⟩] : List FullPath).Nodup := by
  have hfresh : ([] ++ [firstOfPair.path]).Nodup := by decide
  have hopen : Opens (contextOf { resolver := pairResolver } firstOfPair)
      firstOfPair.contents [secondOfPair] _ _ :=
    .further ⟨1, "extends = b".toList, State.start _, ⟨"extends = b", [], [], rfl, rfl, rfl, rfl⟩,
      rfl, "b", rfl, rfl⟩ rfl .root
  have hloop : (parse { resolver := pairResolver } firstOfPair).result =
      .error (.inheritanceLoop ⟨0, "b"⟩ [⟨0, "a"⟩, ⟨0, "b"⟩, ⟨0, "a"⟩]) := rfl
  have hdeep : (parse { resolver := pairResolver, depthLimit := 1 } firstOfPair).result =
      .error (.inheritanceTooDeep ⟨0, "a"⟩ [⟨0, "a"⟩, ⟨0, "b"⟩] 1) := rfl
  obtain ⟨hopened, hlooped, -⟩ :=
    chain_of_parse { resolver := pairResolver } firstOfPair hfresh
  obtain ⟨-, -, hstopped⟩ :=
    chain_of_parse { resolver := pairResolver, depthLimit := 1 } firstOfPair hfresh
  obtain ⟨front, last, -, -, -, hchain, -, -, -, -, hmem⟩ := hlooped _ _ hloop
  obtain ⟨-, -, -, -, -, -, -, -, -, hnodup, -, -⟩ := hstopped _ _ _ hdeep
  exact ⟨⟨_, _, hopen, (hopened _ _ _ hopen).1⟩, hloop, ⟨front, last, hchain, hmem⟩,
    hdeep, hnodup⟩

end ExerciseDoc.Parse
