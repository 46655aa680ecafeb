import ExerciseDoc.Proofs.Parse.Agreement

/-!
# Inheritance — independence of the chain

The chain that a file is parsed with decides which ancestors are refused and nothing
else. So what a file contributes does not depend on who inherits from it: under two
chains it comes to one document with the same requests, and a parse that succeeds
under a chain succeeds under every chain that is no longer and has no other files.
-/

namespace ExerciseDoc

/-- The error is one of inheritance: a loop or a chain that is too long. -/
def ParseError.OfInheritance (e : ParseError) : Prop :=
  e.chain?.isSome

namespace Parse

theorem refusal_ofInheritance {ctx : Context} {location : Location} {e : ParseError}
    (h : refusal ctx location = some e) : e.OfInheritance := by
  rcases refusal_eq_some h with ⟨-, rfl⟩ | ⟨-, -, rfl⟩
  · rfl
  · rfl

/-- A shorter chain of fewer files refuses nothing more. -/
theorem refusal_eq_none_of_subset {ctx ctx' : Context} {location : Location}
    (h : refusal ctx location = none) (hsub : ctx'.chain ⊆ ctx.chain)
    (hlength : ctx'.chain.length ≤ ctx.chain.length)
    (hlimit : ctx'.depthLimit = ctx.depthLimit) : refusal ctx' location = none := by
  obtain ⟨hnew, hshort⟩ := refusal_eq_none.mp h
  exact refusal_eq_none.mpr ⟨fun hmem => hnew (hsub hmem), by omega⟩

/-! ## Contexts that differ in their chains -/

/-- The second context differs from the first in its chain alone. -/
def OtherChain (ctx ctx' : Context) : Prop :=
  ∃ chain, ctx' = { ctx with chain := chain }

/-- The second context has a chain that is no longer and has no other files. -/
def SubChain (ctx ctx' : Context) : Prop :=
  ∃ chain, ctx' = { ctx with chain := chain } ∧ chain ⊆ ctx.chain ∧
    chain.length ≤ ctx.chain.length

theorem SubChain.under {ctx ctx' : Context} (h : SubChain ctx ctx') (location : Location) :
    SubChain (ctx.under location) (ctx'.under location) := by
  obtain ⟨chain, rfl, hsub, hlength⟩ := h
  refine ⟨chain ++ [location.path], rfl, ?_, ?_⟩
  · exact List.append_subset.mpr
      ⟨List.subset_append_of_subset_left _ hsub, List.subset_append_right _ _⟩
  · simpa [Context.under] using hlength

theorem OtherChain.sameFile {ctx ctx' : Context} (h : OtherChain ctx ctx') :
    SameFile ctx ctx' := by
  obtain ⟨chain, rfl⟩ := h
  exact ⟨chain, ctx.depthLimit, rfl⟩

theorem SubChain.sameFile {ctx ctx' : Context} (h : SubChain ctx ctx') :
    SameFile ctx ctx' := by
  obtain ⟨chain, rfl, -⟩ := h
  exact ⟨chain, ctx.depthLimit, rfl⟩

variable {E : ParseError → ParseError → Prop}

/-- Whatever the two chains are, they can do no more than refuse. -/
theorem otherChain_simulation (hE : ∀ e, E e e) :
    Simulation (· = ·) E ParseError.OfInheritance ParseError.OfInheritance OtherChain where
  alongside h := h.sameFile.alongside
  line h line number fault := by
    rw [h.sameFile.path]
    exact hE _
  undecodable h := by
    rw [h.sameFile.path]
    exact hE _
  further := by
    intro ctx ctx' h location location' hfind
    obtain rfl := h.sameFile.location_eq hfind
    cases hleft : refusal ctx location with
    | some e =>
        rw [descend_of_refusal hleft]
        exact .inl (.left rfl (refusal_ofInheritance hleft))
    | none =>
        cases hright : refusal ctx' location with
        | some e =>
            rw [descend_of_refusal hright]
            exact .inl (.right rfl (refusal_ofInheritance hright))
        | none =>
            obtain ⟨chain, rfl⟩ := h
            exact .inr ⟨rfl, rfl, chain ++ [location.path], rfl⟩

/-- Towards a smaller chain only the larger one can refuse. -/
theorem subChain_simulation (hE : ∀ e, E e e) :
    Simulation (· = ·) E ParseError.OfInheritance (fun _ => False) SubChain where
  alongside h := h.sameFile.alongside
  line h line number fault := by
    rw [h.sameFile.path]
    exact hE _
  undecodable h := by
    rw [h.sameFile.path]
    exact hE _
  further := by
    intro ctx ctx' h location location' hfind
    obtain rfl := h.sameFile.location_eq hfind
    have hunder := h.under location
    obtain ⟨chain, rfl, hsub, hlength⟩ := h
    cases hleft : refusal ctx location with
    | some e =>
        rw [descend_of_refusal hleft]
        exact .inl (.left rfl (refusal_ofInheritance hleft))
    | none =>
        exact .inr ⟨rfl, refusal_eq_none_of_subset hleft hsub hlength rfl, hunder⟩

/-! ## Parses under two chains -/

/-- **The chain decides on success alone.** Parses of one file under any two preset
chains that both succeed yield one document and make the same requests. A parse that
succeeds under a chain also succeeds, with the same document and the same requests,
under every chain that is no longer and has no other files. -/
theorem parse_inherited (settings : Settings) (source : Location)
    (inherited inherited' : List FullPath) :
    (∀ doc doc',
      (parse { settings with inherited := inherited } source).result = .ok doc →
      (parse { settings with inherited := inherited' } source).result = .ok doc' →
      doc' = doc ∧
        (parse { settings with inherited := inherited' } source).calls =
          (parse { settings with inherited := inherited } source).calls) ∧
    (∀ doc, (parse { settings with inherited := inherited } source).result = .ok doc →
      inherited' ⊆ inherited → inherited'.length ≤ inherited.length →
      (parse { settings with inherited := inherited' } source).result = .ok doc ∧
        (parse { settings with inherited := inherited' } source).calls =
          (parse { settings with inherited := inherited } source).calls) := by
  constructor
  · intro doc doc' hdoc hdoc'
    have hother : OtherChain (contextOf { settings with inherited := inherited } source)
        (contextOf { settings with inherited := inherited' } source) := ⟨_, rfl⟩
    have hfile := (otherChain_simulation Eq.refl).fileIn_agree_eq hother rfl source.contents
    have hparse : Run.Agree (· = ·) _ _ (· = ·)
        (parse { settings with inherited := inherited } source)
        (parse { settings with inherited := inherited' } source) :=
      parse_agree Eq.refl rfl hfile
    obtain ⟨hcalls, hsame⟩ := hparse.of_ok_ok hdoc hdoc'
    exact ⟨hsame.symm, hcalls.symm⟩
  · intro doc hdoc hsub hlength
    have hless : SubChain (contextOf { settings with inherited := inherited } source)
        (contextOf { settings with inherited := inherited' } source) := by
      refine ⟨inherited' ++ [source.path], rfl, ?_, ?_⟩
      · exact List.append_subset.mpr
          ⟨List.subset_append_of_subset_left _ hsub, List.subset_append_right _ _⟩
      · simpa [contextOf] using hlength
    have hfile := (subChain_simulation Eq.refl).fileIn_agree_eq hless rfl source.contents
    have hparse : Run.Agree (· = ·) _ (fun _ => False) (· = ·)
        (parse { settings with inherited := inherited } source)
        (parse { settings with inherited := inherited' } source) :=
      parse_agree Eq.refl rfl hfile
    obtain ⟨doc', hdoc', hcalls, rfl⟩ := hparse.of_ok hdoc
    exact ⟨hdoc', hcalls.symm⟩

/-! A file that inherits from one other file, and a resolver that has that one. -/

def heir : Location := ⟨"extends = b".toUTF8, ⟨0, "a"⟩, 0⟩

def heirResolver : Resolver := fun q =>
  if q.uri = "b" then some ⟨"x = 1".toUTF8, ⟨0, "b"⟩, 0⟩ else none

/-- The heir yields one document under the chains `c`, `d` and `c, d`. -/
theorem parse_inherited_heir :
    ∃ doc : Document,
      (parse ⟨heirResolver, [⟨0, "c"⟩, ⟨0, "d"⟩], defaultDepthLimit, false⟩ heir).result =
        .ok doc ∧
      (parse ⟨heirResolver, [⟨0, "c"⟩], defaultDepthLimit, false⟩ heir).result = .ok doc ∧
      (parse ⟨heirResolver, [⟨0, "d"⟩], defaultDepthLimit, false⟩ heir).result = .ok doc ∧
      (parse ⟨heirResolver, [⟨0, "d"⟩], defaultDepthLimit, false⟩ heir).calls =
        (parse ⟨heirResolver, [⟨0, "c"⟩], defaultDepthLimit, false⟩ heir).calls := by
  have hcd : (parse ⟨heirResolver, [⟨0, "c"⟩, ⟨0, "d"⟩], defaultDepthLimit, false⟩
      heir).result = .ok ⟨⟨0, "a"⟩, 0, "pl", [], [], [], [("x", .int 1)]⟩ := rfl
  have hd : (parse ⟨heirResolver, [⟨0, "d"⟩], defaultDepthLimit, false⟩ heir).result =
      .ok ⟨⟨0, "a"⟩, 0, "pl", [], [], [], [("x", .int 1)]⟩ := rfl
  have hc := ((parse_inherited ⟨heirResolver, [], defaultDepthLimit, false⟩ heir
    [⟨0, "c"⟩, ⟨0, "d"⟩] [⟨0, "c"⟩]).2 _ hcd (by decide) (by decide)).1
  have hany := (parse_inherited ⟨heirResolver, [], defaultDepthLimit, false⟩ heir
    [⟨0, "c"⟩] [⟨0, "d"⟩]).1 _ _ hc hd
  exact ⟨_, hcd, hc, hd, hany.2⟩

end Parse

end ExerciseDoc
