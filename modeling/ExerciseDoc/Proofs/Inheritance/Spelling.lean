import ExerciseDoc.Proofs.Inheritance.Independence
import ExerciseDoc.Proofs.Inheritance.Limit
import ExerciseDoc.Proofs.Path.Directory

/-!
# Inheritance — the spelling of the root

A store answers with paths in normal form, and the chain compares paths as they are
written. A root under another spelling is therefore not recognised when a file comes
back to it: it is parsed again as an ancestor of its own, and the loop is found one
round later. The parse ends alike all the same. Its chain has no file that the other
one lacks, but for the root itself, and a root that leads to a loop leads to one
wherever it is parsed (`Doomed`).
-/

namespace ExerciseDoc

theorem ParseError.ofInheritance_iff {e : ParseError} :
    e.OfInheritance ↔ e.kind = "inheritance_loop" ∨ e.kind = "inheritance_too_deep" := by
  cases e with
  | line place fault => cases hkind : fault.kind <;> simp [OfInheritance, chain?, kind, hkind]
  | _ => simp [OfInheritance, chain?, kind]

theorem ParseError.OfInheritance.of_kind_eq {e e' : ParseError} (h : e.OfInheritance)
    (hkind : e'.kind = e.kind) : e'.OfInheritance := by
  rw [ofInheritance_iff, hkind]
  exact ofInheritance_iff.mp h

theorem ParseError.OfInheritance.kind_eq {e : ParseError} (h : e.OfInheritance)
    (hdeep : ¬ e.IsTooDeep) : e.kind = "inheritance_loop" := by
  cases e with
  | inheritanceLoop path chain => rfl
  | inheritanceTooDeep path chain limit => exact absurd ⟨path, chain, limit, rfl⟩ hdeep
  | _ => cases h

/-- The path is written as a store writes it. -/
def FullPath.IsNormal (path : FullPath) : Prop :=
  Path.normalize path.path = path.path

namespace Store

variable {store : Store}

/-- Requests for one path come to one file, in whatever circles they are made. -/
theorem resolver_alike {q q' : Request} (h : q.target = q'.target) :
    Option.Rel Location.Alike (store.resolver q) (store.resolver q') := by
  unfold resolver
  rw [← h]
  cases store.find? q.target with
  | none => exact .none
  | some file => exact .some ⟨_, rfl⟩

theorem isNormal_of_resolver {q : Request} {location : Location}
    (h : store.resolver q = some location) : location.path.IsNormal := by
  obtain ⟨file, -, rfl⟩ := Option.map_eq_some_iff.mp h
  exact Path.normalize_join _ _

theorem contents?_of_resolver {q : Request} {location : Location}
    (h : store.resolver q = some location) :
    store.contents? location.path = some location.contents := by
  have hnormal : Path.normalize location.path.path = location.path.path :=
    isNormal_of_resolver h
  obtain ⟨file, hfile, rfl⟩ := Option.map_eq_some_iff.mp h
  rw [contents?, hnormal, hfile]
  rfl

end Store

namespace Parse

/-! ## Contexts that differ in the spelling of the root -/

/-- Wherever a parse over the store comes to the file, it fails with an error of
inheritance. -/
def Doomed (store : Store) (limit : Nat) (path : FullPath) : Prop :=
  ∀ (ctx : Context) (location : Location), ctx.resolver = store.resolver →
    ctx.depthLimit = limit → location.path = path →
    store.contents? path = some location.contents →
    ∃ e, (fileIn (ctx.under location) location.contents).result = .error e ∧
      e.OfInheritance

/-- References lead to the same files of the store in both contexts. Of these files the
second chain has no more than the first, but for those that are doomed. -/
structure Respelled (store : Store) (limit : Nat) (ctx ctx' : Context) : Prop where
  resolver : ctx.resolver = store.resolver
  resolver' : ctx'.resolver = store.resolver
  depthLimit : ctx.depthLimit = limit
  depthLimit' : ctx'.depthLimit = limit
  target : ∀ uri, (ctx.request uri).target = (ctx'.request uri).target
  length : ctx'.chain.length ≤ ctx.chain.length
  chain : ∀ path ∈ ctx'.chain, path.IsNormal → path ∈ ctx.chain ∨ Doomed store limit path

variable {store : Store} {limit : Nat}

namespace Respelled

variable {ctx ctx' : Context} {location location' : Location}

theorem alongside (h : Respelled store limit ctx ctx') :
    Alongside (fun _ _ => True) ctx ctx' where
  request _ := trivial
  answer uri := by
    rw [h.resolver, h.resolver']
    exact Store.resolver_alike (h.target uri)

theorem under (h : Respelled store limit ctx ctx') (halike : location.Alike location') :
    Respelled store limit (ctx.under location) (ctx'.under location') := by
  obtain ⟨circleId, rfl⟩ := halike
  refine ⟨h.resolver, h.resolver', h.depthLimit, h.depthLimit', fun _ => rfl, ?_, ?_⟩
  · simpa [Context.under] using h.length
  · intro path hmem hnormal
    rcases List.mem_append.mp hmem with hmem | hlast
    · exact (h.chain path hmem hnormal).imp_left (List.mem_append_left _)
    · exact .inl (List.mem_append_right _ hlast)

end Respelled

/-- Only the first of two such parses can be refused a file that the other one is not;
where the second one is, the first goes on and fails. -/
theorem respelled_simulation :
    Simulation (fun _ _ => True) (fun e e' => e.kind = e'.kind) ParseError.OfInheritance
      (fun _ => False) (Respelled store limit) where
  alongside h := h.alongside
  line _ _ _ _ := rfl
  undecodable _ := rfl
  further := by
    intro ctx ctx' h location location' hfind
    cases hleft : refusal ctx location with
    | some e =>
        rw [descend_of_refusal hleft]
        exact .inl (.left rfl (refusal_ofInheritance hleft))
    | none =>
        have halike := h.alongside.alike hfind
        have hunder := h.under halike
        obtain ⟨circleId, rfl⟩ := halike
        obtain ⟨uri, hfound, -⟩ := hfind
        rw [h.resolver] at hfound
        obtain ⟨hnew, hshort⟩ := refusal_eq_none.mp hleft
        by_cases hmem : location.path ∈ ctx'.chain
        · have hdoomed := (h.chain _ hmem (Store.isNormal_of_resolver hfound)).resolve_left hnew
          obtain ⟨e, he, hinherit⟩ := hdoomed ctx location h.resolver h.depthLimit rfl
            (Store.contents?_of_resolver hfound)
          rw [descend_of_no_refusal hleft]
          exact .inl (.left he hinherit)
        · have hshort' : ctx'.chain.length < ctx'.depthLimit := by
            rw [h.depthLimit', ← h.depthLimit]
            exact Nat.lt_of_le_of_lt h.length hshort
          exact .inr ⟨rfl, refusal_eq_none.mpr ⟨hmem, hshort'⟩, hunder⟩

/-! ## Roots over a store -/

/-- The context of a root that is parsed over the store. -/
structure RootOver (store : Store) (limit : Nat) (ctx : Context) : Prop where
  resolver : ctx.resolver = store.resolver
  depthLimit : ctx.depthLimit = limit
  chain : ctx.chain = [ctx.path]

namespace RootOver

variable {ctx ctx' : Context} {contents : ByteArray}

theorem respelled (h : RootOver store limit ctx) (h' : RootOver store limit ctx')
    (htarget : ∀ uri, (ctx.request uri).target = (ctx'.request uri).target)
    (hroot : ctx'.path.IsNormal → ctx'.path = ctx.path ∨ Doomed store limit ctx'.path) :
    Respelled store limit ctx ctx' := by
  refine ⟨h.resolver, h'.resolver, h.depthLimit, h'.depthLimit, htarget, ?_, ?_⟩
  · rw [h.chain, h'.chain]
    exact Nat.le_refl 1
  · intro path hmem hnormal
    rw [h'.chain, List.mem_singleton] at hmem
    subst hmem
    rw [h.chain, List.mem_singleton]
    exact hroot hnormal

/-- **A root that leads to a loop is doomed.** Under the longer chain of an ancestor it
fails as it does under its own, if not before. -/
theorem doomed (h : RootOver store limit ctx) (hstored : store.contents? ctx.path = some contents)
    {e : ParseError} (he : (fileIn ctx contents).result = .error e) (hinherit : e.OfInheritance) :
    Doomed store limit ctx.path := by
  intro heir location hresolver hlimit hpath hcontents
  rw [hstored] at hcontents
  cases hcontents
  have hrespelled : Respelled store limit (heir.under location) ctx := by
    refine ⟨hresolver, h.resolver, hlimit, h.depthLimit, ?_, ?_, ?_⟩
    · intro uri
      simp only [Context.request, Context.under, Request.target, hpath]
    · rw [h.chain]
      simp [Context.under]
    · intro path hmem _
      rw [h.chain, ← hpath] at hmem
      exact .inl (List.mem_append_right _ hmem)
  have haccord := respelled_simulation.fileIn_agree hrespelled location.contents
  obtain ⟨e', he', hown | hkind⟩ := haccord.error_of_error he
  · exact ⟨e', he', hown⟩
  · exact ⟨e', he', hinherit.of_kind_eq hkind⟩

end RootOver

/-- The second context is that of the same root under another spelling. -/
structure Spelled (store : Store) (limit : Nat) (ctx ctx' : Context) : Prop where
  root : RootOver store limit ctx
  root' : RootOver store limit ctx'
  target : ∀ uri, (ctx.request uri).target = (ctx'.request uri).target
  isNormal : ctx'.path.IsNormal → ctx'.path = ctx.path

/-- Both runs return, with values in `V`, or both fail, with one kind of error. -/
def EndAlike {α β : Type} (V : α → β → Prop) (x : Run α) (y : Run β) : Prop :=
  (∃ a b, x.result = .ok a ∧ y.result = .ok b ∧ V a b) ∨
    ∃ e e', x.result = .error e ∧ y.result = .error e' ∧ e.kind = e'.kind

namespace Spelled

variable {ctx ctx' ctx'' : Context} {contents : ByteArray}

theorem resourceId (h : Spelled store limit ctx ctx') :
    ctx.path.resourceId = ctx'.path.resourceId := by
  have htarget := congrArg FullPath.resourceId (h.target "")
  simpa only [Request.target, Context.request] using htarget

/-- Where a root comes to a document, it does so under every spelling. -/
theorem of_ok (h : Spelled store limit ctx ctx') {doc : Document}
    (hdoc : (fileIn ctx contents).result = .ok doc) :
    ∃ doc', (fileIn ctx' contents).result = .ok doc' ∧ doc.Alike doc' := by
  have haccord := respelled_simulation.fileIn_agree
    (h.root.respelled h.root' h.target fun hnormal => .inl (h.isNormal hnormal)) contents
  obtain ⟨doc', hdoc', -, halike⟩ := haccord.of_ok hdoc
  exact ⟨doc', hdoc', halike⟩

/-- Where a root fails, it fails under every spelling, in the same way. -/
theorem of_error (h : Spelled store limit ctx ctx')
    (hstored : store.contents? ctx.path = some contents)
    (hlimit : (store.filesIn ctx.path.resourceId).length < limit) {e : ParseError}
    (he : (fileIn ctx contents).result = .error e) :
    ∃ e', (fileIn ctx' contents).result = .error e' ∧ e'.kind = e.kind := by
  by_cases hinherit : e.OfInheritance
  · -- Under the other spelling the parse comes to the root itself, which is doomed.
    have haccord := respelled_simulation.fileIn_agree
      (h.root'.respelled h.root (fun uri => (h.target uri).symm)
        fun _ => .inr (h.root.doomed hstored he hinherit)) contents
    obtain ⟨e', he', hown | hkind⟩ := haccord.error_of_error he
    · -- Neither parse can be cut off, so both come to a loop.
      have hloop := hinherit.kind_eq (not_tooDeep_of_store h.root.resolver h.root.chain
        (h.root.depthLimit ▸ hlimit) he)
      have hloop' := hown.kind_eq (not_tooDeep_of_store h.root'.resolver h.root'.chain
        (by rw [← h.resourceId, h.root'.depthLimit]; exact hlimit) he')
      exact ⟨e', he', hloop'.trans hloop.symm⟩
    · exact ⟨e', he', hkind⟩
  · have haccord := respelled_simulation.fileIn_agree
      (h.root.respelled h.root' h.target fun hnormal => .inl (h.isNormal hnormal)) contents
    obtain ⟨e', he', hkind⟩ := haccord.of_error he hinherit
    exact ⟨e', he', hkind.symm⟩

/-- **A root ends alike under any two spellings.** -/
theorem fileIn_endAlike (h : Spelled store limit ctx ctx') (h' : Spelled store limit ctx ctx'')
    (hstored : store.contents? ctx.path = some contents)
    (hlimit : (store.filesIn ctx.path.resourceId).length < limit) :
    EndAlike Document.Alike (fileIn ctx' contents) (fileIn ctx'' contents) := by
  cases hroot : (fileIn ctx contents).result with
  | ok doc =>
      obtain ⟨_, hdoc, _, _, rfl⟩ := h.of_ok hroot
      obtain ⟨_, hdoc', _, _, rfl⟩ := h'.of_ok hroot
      exact .inl ⟨_, _, hdoc, hdoc', _, _, rfl⟩
  | error e =>
      obtain ⟨e₁, he₁, hkind₁⟩ := h.of_error hstored hlimit hroot
      obtain ⟨e₂, he₂, hkind₂⟩ := h'.of_error hstored hlimit hroot
      exact .inr ⟨e₁, e₂, he₁, he₂, hkind₁.trans hkind₂.symm⟩

end Spelled

/-! ## Whole parses -/

/-- A path that ends in a name is a spelling of its normal form. -/
theorem spelled_of_endsIn {p : String} {name : Path.Segment} (hp : Path.EndsIn p name)
    (store : Store) (limit : Nat) (check : Bool) (contents : ByteArray)
    (resourceId circleId : Int) :
    Spelled store limit
      (contextOf ⟨store.resolver, [], limit, check⟩
        ⟨contents, ⟨resourceId, Path.normalize p⟩, circleId⟩)
      (contextOf ⟨store.resolver, [], limit, check⟩ ⟨contents, ⟨resourceId, p⟩, circleId⟩) where
  root := ⟨rfl, rfl, rfl⟩
  root' := ⟨rfl, rfl, rfl⟩
  target uri := by
    simp only [Context.request, Request.target, contextOf, FullPath.directory]
    rw [hp.named.normalize.named.join_directory_eq hp.named (Path.normalize_normalize p)]
  isNormal h := by
    have hnormal : Path.normalize p = p := h
    simp only [contextOf, hnormal]

/-- The check for mandatory keys looks at the data alone. -/
theorem checked_endAlike (doc : Document) (path : FullPath) :
    EndAlike (fun doc doc' => doc' = { doc with path := path }) (checked doc)
      (checked { doc with path := path }) := by
  unfold checked
  cases mandatoryKeys.find? fun key => !Mapping.contains doc.data key with
  | some key => exact .inr ⟨_, _, rfl, rfl, rfl⟩
  | none => exact .inl ⟨_, _, rfl, rfl, rfl⟩

/-- **The spelling of the root is of no account.** A stored file is parsed over a store,
under a limit above the number of files in its repository, by two paths with one normal
form that end in the same name. Either both parses return documents that differ at most
in their paths, or both fail with the same kind of error. -/
theorem parse_spelled (store : Store) (limit : Nat) (check : Bool)
    (resourceId circleId : Int) (p p' : String) (name : Path.Segment) (contents : ByteArray)
    (hlimit : (store.filesIn resourceId).length < limit)
    (hnormal : Path.normalize p = Path.normalize p')
    (hp : Path.EndsIn p name) (hp' : Path.EndsIn p' name)
    (hstored : store.contents? ⟨resourceId, p⟩ = some contents) :
    (∃ doc,
      (parse ⟨store.resolver, [], limit, check⟩
        ⟨contents, ⟨resourceId, p⟩, circleId⟩).result = .ok doc ∧
      (parse ⟨store.resolver, [], limit, check⟩
        ⟨contents, ⟨resourceId, p'⟩, circleId⟩).result =
          .ok { doc with path := ⟨resourceId, p'⟩ }) ∨
    ∃ e e',
      (parse ⟨store.resolver, [], limit, check⟩
        ⟨contents, ⟨resourceId, p⟩, circleId⟩).result = .error e ∧
      (parse ⟨store.resolver, [], limit, check⟩
        ⟨contents, ⟨resourceId, p'⟩, circleId⟩).result = .error e' ∧
      e.kind = e'.kind := by
  have hspelled := spelled_of_endsIn hp store limit check contents resourceId circleId
  have hspelled' := spelled_of_endsIn hp' store limit check contents resourceId circleId
  rw [← hnormal] at hspelled'
  have hroot : store.contents? ⟨resourceId, Path.normalize p⟩ = some contents := by
    rw [← hstored, Store.contents?, Store.contents?, Path.normalize_normalize]
  rw [parse_eq, parse_eq]
  rcases hspelled.fileIn_endAlike hspelled' hroot hlimit with
    ⟨doc, doc', hdoc, hdoc', halike⟩ | ⟨e, e', he, he', hkind⟩
  · -- Both documents have the circle of the root, each has its own path.
    obtain ⟨-, hcircle, -⟩ := fileIn_header hdoc
    obtain ⟨hpath', hcircle', -⟩ := fileIn_header hdoc'
    have hsame := halike.eq_with_path (hcircle.trans hcircle'.symm)
    rw [hpath'] at hsame
    subst hsame
    rw [Run.result_bind_of_ok _ hdoc, Run.result_bind_of_ok _ hdoc']
    cases check with
    | false => exact .inl ⟨doc, rfl, rfl⟩
    | true =>
        rcases checked_endAlike doc ⟨resourceId, p'⟩ with
          ⟨found, _, hfound, hfound', rfl⟩ | ⟨e, e', he, he', hkind⟩
        · exact .inl ⟨found, hfound, hfound'⟩
        · exact .inr ⟨e, e', he, he', hkind⟩
  · exact .inr ⟨e, e', Run.result_bind_of_error _ he, Run.result_bind_of_error _ he', hkind⟩

/-! The pair in its store, and a store in which the first file has a parent instead. -/

def heirStore : Store :=
  [ (heir.path, ⟨heir.contents, none⟩),
    (⟨0, "b"⟩, ⟨"x = 1".toUTF8, none⟩) ]

/-- The first file of the pair is met again under its normal path, so from the other one
the loop is found a round later. The heir comes to one document from both. -/
theorem parse_spelled_pair :
    (∃ e e',
      (parse ⟨pairStore.resolver, [], 3, true⟩
        ⟨firstOfPair.contents, ⟨0, "a"⟩, 0⟩).result = .error e ∧
      (parse ⟨pairStore.resolver, [], 3, true⟩
        ⟨firstOfPair.contents, ⟨0, "./a"⟩, 0⟩).result = .error e' ∧
      e.kind = e'.kind ∧
      e.chain? = some [⟨0, "a"⟩, ⟨0, "b"⟩, ⟨0, "a"⟩] ∧
      e'.chain? = some [⟨0, "./a"⟩, ⟨0, "b"⟩, ⟨0, "a"⟩, ⟨0, "b"⟩]) ∧
    ∃ doc,
      (parse ⟨heirStore.resolver, [], 3, false⟩
        ⟨heir.contents, ⟨0, "a"⟩, 0⟩).result = .ok doc ∧
      (parse ⟨heirStore.resolver, [], 3, false⟩
        ⟨heir.contents, ⟨0, "./a"⟩, 0⟩).result = .ok { doc with path := ⟨0, "./a"⟩ } ∧
      doc.data.map (·.1) = ["x"] := by
  have hplain : Path.EndsIn "a" ['a'] := ⟨⟨by decide, by decide, by decide⟩, rfl⟩
  have hdotted : Path.EndsIn "./a" ['a'] := ⟨⟨by decide, by decide, by decide⟩, rfl⟩
  have hnormal : Path.normalize "a" = Path.normalize "./a" := by decide
  constructor
  · have hloop : (parse ⟨pairStore.resolver, [], 3, true⟩
        ⟨firstOfPair.contents, ⟨0, "a"⟩, 0⟩).result =
        .error (.inheritanceLoop ⟨0, "b"⟩ [⟨0, "a"⟩, ⟨0, "b"⟩, ⟨0, "a"⟩]) := rfl
    have hloop' : (parse ⟨pairStore.resolver, [], 3, true⟩
        ⟨firstOfPair.contents, ⟨0, "./a"⟩, 0⟩).result =
        .error (.inheritanceLoop ⟨0, "a"⟩ [⟨0, "./a"⟩, ⟨0, "b"⟩, ⟨0, "a"⟩, ⟨0, "b"⟩]) := rfl
    rcases parse_spelled pairStore 3 true 0 0 "a" "./a" ['a'] firstOfPair.contents (by decide)
      hnormal hplain hdotted rfl with ⟨doc, hdoc, -⟩ | ⟨e, e', he, he', hkind⟩
    · rw [hloop] at hdoc
      cases hdoc
    · rw [hloop] at he
      rw [hloop'] at he'
      cases he
      cases he'
      exact ⟨_, _, hloop, hloop', hkind, rfl, rfl⟩
  · have hkeys : ((parse ⟨heirStore.resolver, [], 3, false⟩
        ⟨heir.contents, ⟨0, "a"⟩, 0⟩).result.toOption.map fun doc => doc.data.map (·.1)) =
        some ["x"] := by decide +kernel
    obtain ⟨doc, hdoc, hkeys⟩ := Option.map_eq_some_iff.mp hkeys
    have hresult := Run.result_of_toOption hdoc
    rcases parse_spelled heirStore 3 false 0 0 "a" "./a" ['a'] heir.contents (by decide)
      hnormal hplain hdotted rfl with ⟨doc', hdoc', hspelled⟩ | ⟨e, _, he, -⟩
    · rw [hresult] at hdoc'
      cases hdoc'
      exact ⟨doc, hresult, hspelled, hkeys⟩
    · rw [hresult] at he
      cases he

end Parse

end ExerciseDoc
