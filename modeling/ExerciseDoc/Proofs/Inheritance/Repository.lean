import ExerciseDoc.Proofs.Document.Order
import ExerciseDoc.Proofs.Parse.Agreement
import ExerciseDoc.Proofs.Path.Normal
import ExerciseDoc.Source.Store

/-!
# Inheritance — one repository

A store answers every request from the repository that makes it, so a parse over a store
never leaves the repository of its root: what it returns and what it fails with speak of
files of that repository alone (`parse_within`). What other repositories hold is of no
account, and neither are the circles of files: over two stores that agree on one
repository every root of it ends the same way.
-/

namespace ExerciseDoc

/-! ## Paths in documents and errors -/

/-- All paths that an error names. -/
def ParseError.paths : ParseError → List FullPath
  | .undecodable path => [path]
  | .line place (.undecodable path) => [place.path, path]
  | .line place _ => [place.path]
  | .inheritanceLoop path chain => path :: chain
  | .inheritanceTooDeep path chain _ => path :: chain
  | .missingKey path _ => [path]
  | .noParser path _ => [path]

/-- The document and its dependencies belong to the repository. -/
structure Document.Within (resourceId : Int) (doc : Document) : Prop where
  path : doc.path.resourceId = resourceId
  dependencies : ∀ d ∈ doc.dependencies, d.path.resourceId = resourceId

/-- The error names files of the repository alone. -/
def ParseError.Within (resourceId : Int) (e : ParseError) : Prop :=
  ∀ path ∈ e.paths, path.resourceId = resourceId

namespace Document.Within

variable {resourceId : Int} {doc found : Document}

theorem addDependency (h : doc.Within resourceId) {d : Dependency}
    (hd : d.path.resourceId = resourceId) : (doc.addDependency d).Within resourceId where
  path := h.path
  dependencies := by
    intro e he
    rcases Dependency.mem_insertInto.mp he with rfl | he
    · exact hd
    · exact h.dependencies e he

theorem merge (h : doc.Within resourceId) (hfound : found.Within resourceId) :
    (doc.merge found).Within resourceId where
  path := h.path
  dependencies := by
    intro e he
    rcases Dependency.mem_union.mp he with he | he
    · exact h.dependencies e he
    · exact hfound.dependencies e he

end Document.Within

/-! ## Resolvers of one repository -/

/-- Every request is answered from the repository that makes it. -/
def Resolver.StaysHome (resolver : Resolver) : Prop :=
  ∀ q location, resolver q = some location → location.path.resourceId = q.resourceId

namespace Store

theorem resolver_staysHome (store : Store) : Resolver.StaysHome store.resolver := by
  intro q location h
  obtain ⟨file, -, rfl⟩ := Option.map_eq_some_iff.mp h
  rfl

/-- The stores hold the same files in a repository, in whatever circles. -/
def AgreeOn (resourceId : Int) (store store' : Store) : Prop :=
  ∀ path : FullPath, path.resourceId = resourceId →
    store.contents? path = store'.contents? path

/-- Where stores agree, requests for one path come to one file, in whatever circles the
file is and the requests are made. -/
theorem AgreeOn.resolver_alike {resourceId : Int} {store store' : Store}
    (h : AgreeOn resourceId store store') {q q' : Request}
    (htarget : q.target = q'.target) (hresource : q.resourceId = resourceId) :
    Option.Rel Location.Alike (store.resolver q) (store'.resolver q') := by
  -- The path that a request asks for is in normal form already.
  have hfind : (store.find? q.target).map (·.contents) =
      (store'.find? q.target).map (·.contents) := by
    have hsame := h q.target hresource
    have hnormal : Path.normalize q.target.path = q.target.path := Path.normalize_join _ _
    simpa only [contents?, hnormal] using hsame
  unfold resolver
  rw [← htarget]
  cases hfile : store.find? q.target with
  | none =>
      rw [hfile] at hfind
      rw [Option.map_eq_none_iff.mp hfind.symm]
      exact .none
  | some file =>
      rw [hfile] at hfind
      obtain ⟨file', hfile', hcontents⟩ := Option.map_eq_some_iff.mp hfind.symm
      rw [hfile']
      refine .some ⟨file'.circleId.getD q'.circleId, ?_⟩
      simp only [hcontents]

end Store

namespace Parse

/-! ## Directives -/

section Directives

variable {resourceId : Int} {f : Location → Run Document} {ctx : Context}
variable {place : Place} {doc : Document}
variable (hctx : ctx.path.resourceId = resourceId) (hhome : ctx.resolver.StaysHome)
variable (hdoc : doc.Within resourceId) (hplace : place.path.resourceId = resourceId)

include hplace

/-- A fault that names no other file is one of the place's own file. -/
theorem line_within {fault : LineFault} (hfault : ∀ path, fault ≠ .undecodable path) :
    (ParseError.line place fault).Within resourceId := by
  intro path hpath
  cases fault with
  | undecodable other => exact absurd rfl (hfault other)
  | _ =>
      cases List.mem_singleton.mp hpath
      exact hplace

include hdoc

theorem store_within (key : String) (incoming : Incoming) (mode : Mode) :
    Run.Ends (Document.Within resourceId) (ParseError.Within resourceId)
      (store doc place key incoming mode) := by
  unfold store
  split
  · exact .ok ⟨hdoc.path, hdoc.dependencies⟩
  · exact .ok ⟨hdoc.path, hdoc.dependencies⟩
  · exact .error (line_within hplace nofun)

theorem storeText_within (key : String) (op : Operator) (origin : JsonOrigin)
    (text : String) :
    Run.Ends (Document.Within resourceId) (ParseError.Within resourceId)
      (storeText doc place key op origin text) := by
  unfold storeText
  split
  · unfold storeJson
    split
    · exact store_within hdoc hplace key _ _
    · exact .error (line_within hplace nofun)
  · exact store_within hdoc hplace key _ _

theorem storeComponent_within (key name : String) :
    Run.Ends (Document.Within resourceId) (ParseError.Within resourceId)
      (storeComponent doc place key name) := by
  unfold storeComponent
  split
  · exact store_within hdoc hplace key _ _
  · exact .error (line_within hplace nofun)

omit hdoc
include hctx hhome

/-- A reference leads to a file of the repository, or is at fault in its own. -/
theorem locate_within (uri : String) :
    Run.Ends (fun location => location.path.resourceId = resourceId)
      (ParseError.Within resourceId) (locate ctx place uri) := by
  refine Run.Ends.bind (Run.Ends.ask ctx.resolver (ctx.request uri)) fun found hfound => ?_
  cases found with
  | none => exact .error (line_within hplace nofun)
  | some location => exact .ok ((hhome _ _ hfound).trans hctx)

include hdoc

theorem storeFile_within (key : String) (op : Operator) (uri : String) :
    Run.Ends (Document.Within resourceId) (ParseError.Within resourceId)
      (storeFile ctx doc place key op uri) := by
  refine Run.Ends.bind (locate_within hctx hhome hplace uri) fun location hlocation => ?_
  split
  · -- The file that cannot be decoded has been found, so it is in the repository too.
    refine .error fun path hpath => ?_
    rcases List.mem_cons.mp hpath with rfl | hpath
    · exact hplace
    · cases List.mem_singleton.mp hpath
      exact hlocation
  · exact storeText_within hdoc hplace key op _ _

/-- A directive stays in the repository, if the ancestors that it may lead to do. -/
theorem perform_within (directive : Directive)
    (hanc : ∀ location, location.path.resourceId = resourceId →
      Run.Ends (Document.Within resourceId) (ParseError.Within resourceId)
        (descend f ctx location)) :
    Run.Ends (Document.Within resourceId) (ParseError.Within resourceId)
      (perform f ctx doc place directive) := by
  have hlocate := locate_within hctx hhome hplace
  cases directive with
  | «extends» uri =>
      refine Run.Ends.bind (hlocate uri) fun location hlocation => ?_
      exact Run.Ends.bind (hanc location hlocation) fun found hfound => .ok (hdoc.merge hfound)
  | fromFile key op uri => exact storeFile_within hctx hhome hdoc hplace key op uri
  | link key uri =>
      exact Run.Ends.bind (hlocate uri) fun _ _ => store_within hdoc hplace key _ _
  | component key name => exact storeComponent_within hdoc hplace key name
  | dependency uri name =>
      exact Run.Ends.bind (hlocate uri) fun _ hlocation => .ok (hdoc.addDependency hlocation)
  | comment text => exact .ok ⟨hdoc.path, hdoc.dependencies⟩
  | value key op text => exact storeText_within hdoc hplace key op _ text
  | openBlock key op => exact .ok hdoc
  | blank => exact .ok hdoc

end Directives

/-! ## Lines -/

/-- The document of the state is in the repository, and so is the place of a block that
is open. -/
structure State.Within (resourceId : Int) (s : State) : Prop where
  document : s.document.Within resourceId
  block : ∀ block, s.block = some block → block.place.path.resourceId = resourceId

theorem State.Within.idle {resourceId : Int} {doc : Document} (h : doc.Within resourceId) :
    State.Within resourceId ⟨doc, none⟩ := by
  refine ⟨h, ?_⟩
  intro block hblock
  cases hblock

section Lines

variable {resourceId : Int} {f : Location → Run Document} {ctx : Context}
variable (hctx : ctx.path.resourceId = resourceId) (hhome : ctx.resolver.StaysHome)
variable (hanc : ∀ location, location.path.resourceId = resourceId →
  Run.Ends (Document.Within resourceId) (ParseError.Within resourceId)
    (descend f ctx location))

include hctx hhome hanc

theorem step_within {s : State} (hs : s.Within resourceId) (number : Nat) (raw : List Char) :
    Run.Ends (State.Within resourceId) (ParseError.Within resourceId)
      (step f ctx s number raw) := by
  obtain ⟨doc, block⟩ := s
  cases block with
  | some block =>
      have hplace := hs.block block rfl
      simp only [step]
      split
      · exact Run.Ends.bind (storeText_within hs.document hplace _ _ _ _)
          fun _ hdoc => .ok (State.Within.idle hdoc)
      · refine .ok ⟨hs.document, ?_⟩
        rintro _ ⟨⟩
        exact hplace
  | none =>
      simp only [step]
      split
      · refine .error (line_within hctx ?_)
        intro path hfault
        cases hfault
      · refine .ok ⟨hs.document, ?_⟩
        rintro _ ⟨⟩
        exact hctx
      · exact Run.Ends.bind (perform_within hctx hhome hs.document hctx _ hanc)
          fun _ hdoc => .ok (State.Within.idle hdoc)

theorem steps_within {s : State} (hs : s.Within resourceId) (number : Nat)
    (lines : List (List Char)) :
    Run.Ends (State.Within resourceId) (ParseError.Within resourceId)
      (steps f ctx s number lines) := by
  induction lines generalizing s number with
  | nil => exact .ok hs
  | cons raw rest ih =>
      refine Run.Ends.bind (step_within hctx hhome hanc hs number raw) fun s' hs' => ?_
      exact ih hs' (number + 1)

theorem fileWith_within (contents : ByteArray) :
    Run.Ends (Document.Within resourceId) (ParseError.Within resourceId)
      (fileWith f ctx contents) := by
  unfold fileWith
  split
  · refine .error fun path hpath => ?_
    cases List.mem_singleton.mp hpath
    exact hctx
  · have hstart : (State.start ctx).Within resourceId :=
      State.Within.idle ⟨hctx, List.forall_mem_nil _⟩
    refine Run.Ends.bind (steps_within hctx hhome hanc hstart 1 _) fun s hs => ?_
    unfold finish
    split
    · rename_i block hblock
      exact .error (line_within (hs.block block hblock) nofun)
    · exact .ok hs.document

end Lines

/-! ## Files -/

/-- A file that is refused is reported with files of the repository, if the chain and the
file are in it. -/
theorem refusal_within {resourceId : Int} {ctx : Context} {location : Location}
    {e : ParseError} (hctx : ctx.path.resourceId = resourceId)
    (hchain : ∀ path ∈ ctx.chain, path.resourceId = resourceId)
    (hlocation : location.path.resourceId = resourceId)
    (h : refusal ctx location = some e) : e.Within resourceId := by
  have hall : ∀ path ∈ ctx.path :: (ctx.chain ++ [location.path]),
      path.resourceId = resourceId := by
    intro path hpath
    rcases List.mem_cons.mp hpath with rfl | hpath
    · exact hctx
    · rcases List.mem_append.mp hpath with hpath | hpath
      · exact hchain path hpath
      · cases List.mem_singleton.mp hpath
        exact hlocation
  rcases refusal_eq_some h with ⟨-, rfl⟩ | ⟨-, -, rfl⟩
  · exact hall
  · exact hall

/-- **A file stays in its repository**, whatever it inherits from. -/
theorem fileIn_within {resourceId : Int} {ctx : Context} (contents : ByteArray)
    (hhome : ctx.resolver.StaysHome) (hctx : ctx.path.resourceId = resourceId)
    (hchain : ∀ path ∈ ctx.chain, path.resourceId = resourceId) :
    Run.Ends (Document.Within resourceId) (ParseError.Within resourceId)
      (fileIn ctx contents) := by
  induction ctx using Context.descent generalizing contents with
  | further ctx ih =>
      rw [fileIn_eq]
      refine fileWith_within hctx hhome ?_ contents
      intro location hlocation
      rw [descend_ancestor]
      cases hrefusal : refusal ctx location with
      | some e => exact .error (refusal_within hctx hchain hlocation hrefusal)
      | none =>
          refine ih location hrefusal location.contents hhome hlocation ?_
          intro path hpath
          rcases List.mem_append.mp hpath with hpath | hpath
          · exact hchain path hpath
          · cases List.mem_singleton.mp hpath
            exact hlocation

theorem parse_within {settings : Settings} (source : Location)
    (hhome : settings.resolver.StaysHome)
    (hinherited : ∀ path ∈ settings.inherited, path.resourceId = source.path.resourceId) :
    Run.Ends (Document.Within source.path.resourceId)
      (ParseError.Within source.path.resourceId) (parse settings source) := by
  have hchain : ∀ path ∈ (contextOf settings source).chain,
      path.resourceId = source.path.resourceId := by
    intro path hpath
    rcases List.mem_append.mp hpath with hpath | hpath
    · exact hinherited path hpath
    · cases List.mem_singleton.mp hpath
      rfl
  have hhome : (contextOf settings source).resolver.StaysHome := hhome
  rw [parse_eq]
  refine Run.Ends.bind (fileIn_within source.contents hhome rfl hchain) fun doc hdoc => ?_
  split
  · unfold checked
    split
    · refine .error fun path hpath => ?_
      cases List.mem_singleton.mp hpath
      exact hdoc.path
    · exact .ok hdoc
  · exact .ok hdoc

/-! ## Two stores -/

/-- The contexts are those of one file of the repository, parsed over the two stores in
whatever circles. -/
structure Isolated (resourceId : Int) (store store' : Store) (ctx ctx' : Context) :
    Prop where
  resolver : ctx.resolver = store.resolver
  resolver' : ctx'.resolver = store'.resolver
  resource : ctx.path.resourceId = resourceId
  path : ctx'.path = ctx.path
  chain : ctx'.chain = ctx.chain
  depthLimit : ctx'.depthLimit = ctx.depthLimit

namespace Isolated

variable {resourceId : Int} {store store' : Store} {ctx ctx' : Context}

theorem alongside (h : Isolated resourceId store store' ctx ctx')
    (hagree : Store.AgreeOn resourceId store store') :
    Alongside (fun _ _ => True) ctx ctx' where
  request _ := trivial
  answer uri := by
    rw [h.resolver, h.resolver']
    refine hagree.resolver_alike ?_ h.resource
    simp only [Context.request, Request.target, h.path]

theorem refusal_eq (h : Isolated resourceId store store' ctx ctx')
    {location location' : Location} (halike : location.Alike location') :
    refusal ctx' location' = refusal ctx location := by
  obtain ⟨circleId, rfl⟩ := halike
  simp only [refusal, h.path, h.chain, h.depthLimit]

theorem under (h : Isolated resourceId store store' ctx ctx') {location location' : Location}
    (halike : location.Alike location') (hlocation : location.path.resourceId = resourceId) :
    Isolated resourceId store store' (ctx.under location) (ctx'.under location') := by
  obtain ⟨circleId, rfl⟩ := halike
  refine ⟨h.resolver, h.resolver', hlocation, rfl, ?_, h.depthLimit⟩
  simp only [Context.under, h.chain]

end Isolated

/-- Over stores that agree on the repository, neither parse can go where the other does
not. -/
theorem isolated_simulation {resourceId : Int} {store store' : Store}
    (hagree : Store.AgreeOn resourceId store store') :
    Simulation (fun _ _ => True) (· = ·) (fun _ => False) (fun _ => False)
      (Isolated resourceId store store') where
  alongside h := h.alongside hagree
  line h line number fault := by rw [h.path]
  undecodable h := by rw [h.path]
  further := by
    intro ctx ctx' h location location' hfind
    have halike := (h.alongside hagree).alike hfind
    obtain ⟨uri, hfound, -⟩ := hfind
    have hlocation : location.path.resourceId = resourceId := by
      rw [h.resolver] at hfound
      exact (store.resolver_staysHome _ _ hfound).trans h.resource
    cases hrefusal : refusal ctx location with
    | some e =>
        rw [descend_of_refusal hrefusal,
          descend_of_refusal ((h.refusal_eq halike).trans hrefusal)]
        exact .inl (.error rfl)
    | none =>
        exact .inr ⟨rfl, (h.refusal_eq halike).trans hrefusal, h.under halike hlocation⟩

/-- A file ends the same way over stores that agree on its repository. -/
theorem fileIn_isolated {resourceId : Int} {store store' : Store} {ctx ctx' : Context}
    (hagree : Store.AgreeOn resourceId store store')
    (h : Isolated resourceId store store' ctx ctx') (hcircle : ctx'.circleId = ctx.circleId)
    (contents : ByteArray) :
    (fileIn ctx contents).result = (fileIn ctx' contents).result := by
  have haccord := (isolated_simulation hagree).fileIn_agree h contents
  cases hfile : (fileIn ctx contents).result with
  | ok doc =>
      obtain ⟨doc', hdoc', -, halike⟩ := haccord.of_ok hfile
      have hheader := fileIn_header hfile
      have hheader' := fileIn_header hdoc'
      rw [hdoc', halike.eq (by rw [hheader.1, hheader'.1, h.path])
        (by rw [hheader.2.1, hheader'.2.1, hcircle])]
  | error e =>
      obtain ⟨e', he', rfl⟩ := haccord.of_error hfile not_false
      exact he'.symm

/-! ## Whole parses -/

/-- **Repositories are isolated.** A root is parsed over two stores that hold the same
paths and bytes in its repository, whatever they hold elsewhere and whatever circles
their files are in. Both parses end the same way, with one document or with one error.
If the preset chain is of that repository too, so are the dependencies of the document
and all paths that the error names. -/
theorem parse_isolated (store store' : Store) (inherited : List FullPath) (limit : Nat)
    (check : Bool) (source : Location)
    (hagree : ∀ path : FullPath, path.resourceId = source.path.resourceId →
      store.contents? path = store'.contents? path) :
    (parse ⟨store.resolver, inherited, limit, check⟩ source).result =
      (parse ⟨store'.resolver, inherited, limit, check⟩ source).result ∧
    ((∀ path ∈ inherited, path.resourceId = source.path.resourceId) →
      (∀ doc, (parse ⟨store.resolver, inherited, limit, check⟩ source).result = .ok doc →
        doc.path.resourceId = source.path.resourceId ∧
        ∀ d ∈ doc.dependencies, d.path.resourceId = source.path.resourceId) ∧
      (∀ e, (parse ⟨store.resolver, inherited, limit, check⟩ source).result = .error e →
        ∀ path ∈ e.paths, path.resourceId = source.path.resourceId)) := by
  constructor
  · have hisolated : Isolated source.path.resourceId store store'
        (contextOf ⟨store.resolver, inherited, limit, check⟩ source)
        (contextOf ⟨store'.resolver, inherited, limit, check⟩ source) :=
      ⟨rfl, rfl, rfl, rfl, rfl, rfl⟩
    have hfile := fileIn_isolated hagree hisolated rfl source.contents
    rw [parse_eq, parse_eq]
    exact Run.result_bind_congr _ hfile
  · intro hinherited
    have hends : Run.Ends (Document.Within source.path.resourceId)
        (ParseError.Within source.path.resourceId)
        (parse ⟨store.resolver, inherited, limit, check⟩ source) :=
      parse_within source store.resolver_staysHome hinherited
    refine ⟨fun doc hdoc => ?_, hends.fault⟩
    have hwithin := hends.value doc hdoc
    exact ⟨hwithin.path, hwithin.dependencies⟩

/-! Two stores with the same two files in repository 0, in different circles, and with
another file of the same name in repository 1. -/

def homeStore : Store :=
  [ (⟨0, "b"⟩, ⟨"x = 1\n@ c".toUTF8, some 7⟩),
    (⟨0, "c"⟩, ⟨"extends = b".toUTF8, none⟩),
    (⟨1, "b"⟩, ⟨"?".toUTF8, none⟩) ]

def awayStore : Store :=
  [ (⟨1, "b"⟩, ⟨"y = 2".toUTF8, some 9⟩),
    (⟨0, "c"⟩, ⟨"extends = b".toUTF8, some 3⟩),
    (⟨0, "b"⟩, ⟨"x = 1\n@ c".toUTF8, none⟩) ]

theorem agreeOn_homeStore : Store.AgreeOn 0 homeStore awayStore := by
  rintro ⟨resourceId, path⟩ rfl
  simp only [Store.contents?, homeStore, awayStore, Store.find?, FullPath.mk.injEq]
  by_cases hb : "b" = Path.normalize path
  · simp [← hb]
  · by_cases hc : "c" = Path.normalize path
    · simp [← hc]
    · simp [hb, hc]

/-- A root that inherits from `b` comes to one document over both stores, with the
dependency of `b`, and a root that inherits from `c` and stands in the place of `b` comes
to one loop, below a preset chain. -/
theorem parse_isolated_home :
    (∃ doc,
      (parse ⟨homeStore.resolver, [], 64, false⟩
        ⟨"extends = b".toUTF8, ⟨0, "a"⟩, 1⟩).result = .ok doc ∧
      (parse ⟨awayStore.resolver, [], 64, false⟩
        ⟨"extends = b".toUTF8, ⟨0, "a"⟩, 1⟩).result = .ok doc ∧
      doc.dependencies = [⟨⟨0, "c"⟩, "c"⟩] ∧
      ∀ d ∈ doc.dependencies, d.path.resourceId = 0) ∧
    ∃ e,
      (parse ⟨homeStore.resolver, [⟨0, "z"⟩], 64, false⟩
        ⟨"extends = c".toUTF8, ⟨0, "b"⟩, 1⟩).result = .error e ∧
      (parse ⟨awayStore.resolver, [⟨0, "z"⟩], 64, false⟩
        ⟨"extends = c".toUTF8, ⟨0, "b"⟩, 1⟩).result = .error e ∧
      e.paths = [⟨0, "c"⟩, ⟨0, "z"⟩, ⟨0, "b"⟩, ⟨0, "c"⟩, ⟨0, "b"⟩] ∧
      ∀ path ∈ e.paths, path.resourceId = 0 := by
  constructor
  · have hlists : ((parse ⟨homeStore.resolver, [], 64, false⟩
        ⟨"extends = b".toUTF8, ⟨0, "a"⟩, 1⟩).result.toOption.map
          fun doc => doc.dependencies) = some [⟨⟨0, "c"⟩, "c"⟩] := by decide +kernel
    obtain ⟨doc, hdoc, hlists⟩ := Option.map_eq_some_iff.mp hlists
    have hresult := Run.result_of_toOption hdoc
    obtain ⟨hsame, hwithin⟩ := parse_isolated homeStore awayStore [] 64 false
      ⟨"extends = b".toUTF8, ⟨0, "a"⟩, 1⟩ agreeOn_homeStore
    exact ⟨doc, hresult, hsame ▸ hresult, hlists,
      ((hwithin (List.forall_mem_nil _)).1 doc hresult).2⟩
  · have hloop : (parse ⟨homeStore.resolver, [⟨0, "z"⟩], 64, false⟩
        ⟨"extends = c".toUTF8, ⟨0, "b"⟩, 1⟩).result =
        .error (.inheritanceLoop ⟨0, "c"⟩ [⟨0, "z"⟩, ⟨0, "b"⟩, ⟨0, "c"⟩, ⟨0, "b"⟩]) := rfl
    obtain ⟨hsame, hwithin⟩ := parse_isolated homeStore awayStore [⟨0, "z"⟩] 64 false
      ⟨"extends = c".toUTF8, ⟨0, "b"⟩, 1⟩ agreeOn_homeStore
    exact ⟨_, hloop, hsame ▸ hloop, rfl, (hwithin (by simp)).2 _ hloop⟩

end Parse

end ExerciseDoc
