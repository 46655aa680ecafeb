import ExerciseDoc.Proofs.Parse.Opened

/-!
# Parse — two parses side by side

What a parse does depends on its context in few ways: through the requests it makes,
the answers it gets, the chain and the limit, and the places it reports. Two contexts
whose requests get the same files for answers (`Alongside`) take the same lines alike,
line by line (`steps_agree`), in whatever circles the files are.
`Simulation.fileIn_agree` extends this down the ancestors, where two chains may refuse
different files.
-/

namespace ExerciseDoc

/-- The documents differ at most in their paths and their circles. -/
def Document.Alike (doc doc' : Document) : Prop :=
  ∃ path circleId, doc' = { doc with path := path, circleId := circleId }

theorem Document.Alike.refl (doc : Document) : doc.Alike doc :=
  ⟨doc.path, doc.circleId, rfl⟩

theorem Document.Alike.eq_with_path {doc doc' : Document} (h : doc.Alike doc')
    (hcircle : doc.circleId = doc'.circleId) : doc' = { doc with path := doc'.path } := by
  obtain ⟨path, circleId, rfl⟩ := h
  cases doc
  cases hcircle
  rfl

theorem Document.Alike.eq {doc doc' : Document} (h : doc.Alike doc')
    (hpath : doc.path = doc'.path) (hcircle : doc.circleId = doc'.circleId) : doc' = doc := by
  rw [h.eq_with_path hcircle, ← hpath]

/-- The locations are one file, in whatever circles. -/
def Location.Alike (location location' : Location) : Prop :=
  ∃ circleId, location' = { location with circleId := circleId }

theorem Location.Alike.refl (location : Location) : location.Alike location :=
  ⟨location.circleId, rfl⟩

namespace Parse

/-- The requests of the contexts are alike in `A` and lead to the same files. -/
structure Alongside (A : Request → Request → Prop) (ctx ctx' : Context) : Prop where
  request : ∀ uri, A (ctx.request uri) (ctx'.request uri)
  answer : ∀ uri, Option.Rel Location.Alike (ctx.resolver (ctx.request uri))
    (ctx'.resolver (ctx'.request uri))

/-- A reference leads to the first location in the first context and to the second one in
the second. -/
def BothFind (ctx ctx' : Context) (location location' : Location) : Prop :=
  ∃ uri, ctx.resolver (ctx.request uri) = some location ∧
    ctx'.resolver (ctx'.request uri) = some location'

theorem Alongside.alike {A : Request → Request → Prop} {ctx ctx' : Context}
    {location location' : Location} (h : Alongside A ctx ctx')
    (hfind : BothFind ctx ctx' location location') : location.Alike location' := by
  obtain ⟨uri, hfound, hfound'⟩ := hfind
  have hanswer := h.answer uri
  rw [hfound, hfound'] at hanswer
  cases hanswer with
  | some halike => exact halike

/-- Contexts that make the same requests of one resolver get the same answers. -/
theorem Alongside.of_request_eq {ctx ctx' : Context}
    (hrequest : ∀ uri, ctx.request uri = ctx'.request uri)
    (hresolver : ctx.resolver = ctx'.resolver) : Alongside (· = ·) ctx ctx' := by
  refine ⟨hrequest, fun uri => ?_⟩
  rw [← hrequest, ← hresolver]
  cases ctx.resolver (ctx.request uri) with
  | none => exact .none
  | some location => exact .some (.refl location)

theorem BothFind.eq {ctx ctx' : Context} {location location' : Location}
    (h : BothFind ctx ctx' location location')
    (hrequest : ∀ uri, ctx.request uri = ctx'.request uri)
    (hresolver : ctx.resolver = ctx'.resolver) : location = location' := by
  obtain ⟨uri, hfound, hfound'⟩ := h
  rw [← hrequest, ← hresolver, hfound] at hfound'
  exact Option.some.inj hfound'

/-- The contexts are those of one file: they differ at most in their chains and their
limits. -/
def SameFile (ctx ctx' : Context) : Prop :=
  ∃ chain limit, ctx' = { ctx with chain := chain, depthLimit := limit }

theorem SameFile.refl (ctx : Context) : SameFile ctx ctx :=
  ⟨ctx.chain, ctx.depthLimit, rfl⟩

theorem SameFile.alongside {ctx ctx' : Context} (h : SameFile ctx ctx') :
    Alongside (· = ·) ctx ctx' := by
  obtain ⟨chain, limit, rfl⟩ := h
  exact .of_request_eq (fun _ => rfl) rfl

theorem SameFile.path {ctx ctx' : Context} (h : SameFile ctx ctx') :
    ctx'.path = ctx.path := by
  obtain ⟨chain, limit, rfl⟩ := h
  rfl

theorem SameFile.location_eq {ctx ctx' : Context} {location location' : Location}
    (h : SameFile ctx ctx') (hfind : BothFind ctx ctx' location location') :
    location = location' := by
  obtain ⟨chain, limit, rfl⟩ := h
  exact hfind.eq (fun _ => rfl) rfl

/-- The states differ at most in the path and the circle of the document and in the place
of the open block, where `E` has to excuse the difference in every fault. -/
inductive State.Alike (E : ParseError → ParseError → Prop) : State → State → Prop where
  | idle {doc doc' : Document} : doc.Alike doc' → Alike E ⟨doc, none⟩ ⟨doc', none⟩
  | collecting {doc doc' : Document} {block : Block} {place : Place} : doc.Alike doc' →
      (∀ fault, E (.line block.place fault) (.line place fault)) →
      Alike E ⟨doc, some block⟩ ⟨doc', some { block with place := place }⟩

variable {A : Request → Request → Prop} {E : ParseError → ParseError → Prop}
variable {p q : ParseError → Prop}

/-! ## Directives -/

section Directives

variable {f g : Location → Run Document} {ctx ctx' : Context} {place place' : Place}
variable {doc doc' : Document}
variable (hctx : Alongside A ctx ctx') (hdoc : doc.Alike doc')
variable (hE : ∀ fault, E (.line place fault) (.line place' fault))

include hE

theorem store_agree (hdoc : doc.Alike doc') (key : String) (incoming : Incoming)
    (mode : Mode) :
    Run.Accord A E p q Document.Alike (store doc place key incoming mode)
      (store doc' place' key incoming mode) := by
  obtain ⟨path, circleId, rfl⟩ := hdoc
  rcases happly : Key.apply doc.data key incoming mode with ⟨data, e | none | warning⟩
  · simp only [store, happly]
    exact .error (hE _)
  · simp only [store, happly]
    exact .ok ⟨path, circleId, rfl⟩
  · simp only [store, happly]
    exact .ok ⟨path, circleId, rfl⟩

theorem storeText_agree (hdoc : doc.Alike doc') (key : String) (op : Operator)
    (origin : JsonOrigin) (text : String) :
    Run.Accord A E p q Document.Alike (storeText doc place key op origin text)
      (storeText doc' place' key op origin text) := by
  unfold storeText
  split
  · unfold storeJson
    split
    · exact store_agree hE hdoc key _ _
    · exact .error (hE _)
  · exact store_agree hE hdoc key _ _

theorem storeComponent_agree (hdoc : doc.Alike doc') (key name : String) :
    Run.Accord A E p q Document.Alike (storeComponent doc place key name)
      (storeComponent doc' place' key name) := by
  unfold storeComponent
  split
  · exact store_agree hE hdoc key _ _
  · exact .error (hE _)

include hctx

/-- Both contexts come to one file, or to none. -/
theorem locate_agree (uri : String) :
    Run.Accord A E p q
      (fun location location' => location.Alike location' ∧ BothFind ctx ctx' location location')
      (locate ctx place uri) (locate ctx' place' uri) := by
  unfold locate
  have hask : Run.Accord A E p q (fun found found' => Option.Rel Location.Alike found found' ∧
        ctx.resolver (ctx.request uri) = found ∧ ctx'.resolver (ctx'.request uri) = found')
      (Run.ask ctx.resolver (ctx.request uri)) (Run.ask ctx'.resolver (ctx'.request uri)) :=
    .ask (hctx.request uri) ⟨hctx.answer uri, rfl, rfl⟩
  refine hask.bind ?_
  rintro found found' ⟨halike, hfound, hfound'⟩
  cases halike with
  | none => exact .error (hE _)
  | some halike => exact .ok ⟨halike, uri, hfound, hfound'⟩

include hdoc

theorem storeFile_agree (key : String) (op : Operator) (uri : String) :
    Run.Accord A E p q Document.Alike (storeFile ctx doc place key op uri)
      (storeFile ctx' doc' place' key op uri) := by
  refine (locate_agree hctx hE uri).bind ?_
  rintro location _ ⟨⟨circleId, rfl⟩, -⟩
  dsimp only
  split
  · exact .error (hE _)
  · exact storeText_agree hE hdoc key op _ _

theorem storeLink_agree (key uri : String) :
    Run.Accord A E p q Document.Alike (storeLink ctx doc place key uri)
      (storeLink ctx' doc' place' key uri) := by
  refine (locate_agree hctx hE uri).bind ?_
  rintro location _ ⟨⟨circleId, rfl⟩, -⟩
  exact store_agree hE hdoc key _ _

theorem addDependency_agree (uri : String) (name : Option String) :
    Run.Accord A E p q Document.Alike (addDependency ctx doc place uri name)
      (addDependency ctx' doc' place' uri name) := by
  refine (locate_agree hctx hE uri).bind ?_
  rintro location _ ⟨⟨circleId, rfl⟩, -⟩
  obtain ⟨path, docCircleId, rfl⟩ := hdoc
  exact .ok ⟨path, docCircleId, rfl⟩

theorem inherit_agree (uri : String)
    (hanc : ∀ location location', BothFind ctx ctx' location location' →
      Run.Accord A E p q Document.Alike (descend f ctx location) (descend g ctx' location')) :
    Run.Accord A E p q Document.Alike (inherit f ctx doc place uri)
      (inherit g ctx' doc' place' uri) := by
  refine (locate_agree hctx hE uri).bind ?_
  rintro location location' ⟨-, hfind⟩
  refine (hanc location location' hfind).bind ?_
  rintro found _ ⟨_, _, rfl⟩
  obtain ⟨path, circleId, rfl⟩ := hdoc
  exact .ok ⟨path, circleId, rfl⟩

theorem perform_agree (directive : Directive)
    (hanc : ∀ location location', BothFind ctx ctx' location location' →
      Run.Accord A E p q Document.Alike (descend f ctx location) (descend g ctx' location')) :
    Run.Accord A E p q Document.Alike (perform f ctx doc place directive)
      (perform g ctx' doc' place' directive) := by
  cases directive with
  | «extends» uri => exact inherit_agree hctx hdoc hE uri hanc
  | fromFile key op uri => exact storeFile_agree hctx hdoc hE key op uri
  | link key uri => exact storeLink_agree hctx hdoc hE key uri
  | component key name => exact storeComponent_agree hE hdoc key name
  | dependency uri name => exact addDependency_agree hctx hdoc hE uri name
  | comment text =>
      obtain ⟨path, circleId, rfl⟩ := hdoc
      exact .ok ⟨path, circleId, rfl⟩
  | value key op text => exact storeText_agree hE hdoc key op _ text
  | openBlock key op => exact .ok hdoc
  | blank => exact .ok hdoc

end Directives

/-! ## Lines -/

section Lines

variable {f g : Location → Run Document} {ctx ctx' : Context}
variable (hctx : Alongside A ctx ctx')
variable (hanc : ∀ location location', BothFind ctx ctx' location location' →
  Run.Accord A E p q Document.Alike (descend f ctx location) (descend g ctx' location'))

include hctx hanc

theorem step_agree {s s' : State} (hs : s.Alike E s') {number number' : Nat}
    (raw : List Char)
    (hE : ∀ line fault, E (.line (Place.of ctx.path line number) fault)
      (.line (Place.of ctx'.path line number') fault)) :
    Run.Accord A E p q (State.Alike E) (step f ctx s number raw)
      (step g ctx' s' number' raw) := by
  cases hs with
  | collecting hdoc hblock =>
      simp only [step]
      split
      · exact Run.Accord.bind (storeText_agree hblock hdoc _ _ _ _)
          fun _ _ h => .ok (.idle h)
      · exact .ok (.collecting hdoc hblock)
  | idle hdoc =>
      simp only [step]
      split
      · exact .error (hE _ _)
      · exact .ok (.collecting hdoc (hE _))
      · exact Run.Accord.bind (perform_agree hctx hdoc (hE _) _ hanc)
          fun _ _ h => .ok (.idle h)

theorem steps_agree {s s' : State} (hs : s.Alike E s') {number number' : Nat}
    (lines : List (List Char))
    (hE : ∀ line k fault, E (.line (Place.of ctx.path line (number + k)) fault)
      (.line (Place.of ctx'.path line (number' + k)) fault)) :
    Run.Accord A E p q (State.Alike E) (steps f ctx s number lines)
      (steps g ctx' s' number' lines) := by
  induction lines generalizing s s' number number' with
  | nil => exact .ok hs
  | cons raw rest ih =>
      refine Run.Accord.bind (step_agree hctx hanc hs raw fun line => hE line 0) ?_
      intro t t' ht
      apply ih ht
      intro line k fault
      rw [Nat.add_assoc, Nat.add_assoc]
      exact hE line (1 + k) fault

omit hctx hanc in
theorem finish_agree {s s' : State} (hs : s.Alike E s') :
    Run.Accord A E p q Document.Alike (finish s) (finish s') := by
  cases hs with
  | idle hdoc => exact .ok hdoc
  | collecting hdoc hblock => exact .error (hblock _)

theorem fileWith_agree (contents : ByteArray)
    (hE : ∀ line number fault, E (.line (Place.of ctx.path line number) fault)
      (.line (Place.of ctx'.path line number) fault))
    (hdecode : E (.undecodable ctx.path) (.undecodable ctx'.path)) :
    Run.Accord A E p q Document.Alike (fileWith f ctx contents)
      (fileWith g ctx' contents) := by
  unfold fileWith
  split
  · exact .error hdecode
  · have hstart : (State.start ctx).Alike E (State.start ctx') :=
      .idle ⟨ctx'.path, ctx'.circleId, rfl⟩
    exact Run.Accord.bind (steps_agree hctx hanc hstart _ fun line k => hE line (1 + k))
      fun _ _ hs => finish_agree hs

end Lines

/-! ## Files -/

/-- `R` relates contexts in which files can be parsed side by side: with a related pair
of contexts, every ancestor that a reference leads to in both comes to the same end in
both, or is parsed in contexts that are related again. -/
structure Simulation (A : Request → Request → Prop) (E : ParseError → ParseError → Prop)
    (p q : ParseError → Prop) (R : Context → Context → Prop) : Prop where
  alongside : ∀ {ctx ctx'}, R ctx ctx' → Alongside A ctx ctx'
  line : ∀ {ctx ctx'}, R ctx ctx' → ∀ line number fault,
    E (.line (Place.of ctx.path line number) fault)
      (.line (Place.of ctx'.path line number) fault)
  undecodable : ∀ {ctx ctx'}, R ctx ctx' →
    E (.undecodable ctx.path) (.undecodable ctx'.path)
  further : ∀ {ctx ctx'}, R ctx ctx' → ∀ location location',
    BothFind ctx ctx' location location' →
    Run.Accord A E p q Document.Alike (descend (ancestor ctx) ctx location)
      (descend (ancestor ctx') ctx' location') ∨
    (refusal ctx location = none ∧ refusal ctx' location' = none ∧
      R (ctx.under location) (ctx'.under location'))

/-- A file is parsed alike in related contexts. -/
theorem Simulation.fileIn_agree {R : Context → Context → Prop} (hR : Simulation A E p q R)
    {ctx ctx' : Context} (h : R ctx ctx') (contents : ByteArray) :
    Run.Accord A E p q Document.Alike (fileIn ctx contents) (fileIn ctx' contents) := by
  -- The induction goes down the ancestors of the first file; the second one follows,
  -- since both descend together as long as their ends are not settled.
  induction ctx using Context.descent generalizing ctx' contents with
  | further ctx ih =>
      have hctx := hR.alongside h
      rw [fileIn_eq, fileIn_eq]
      refine fileWith_agree hctx ?_ contents (hR.line h) (hR.undecodable h)
      intro location location' hfind
      rcases hR.further h location location' hfind with hends | ⟨hnone, hnone', hunder⟩
      · exact hends
      · rw [descend_of_no_refusal hnone, descend_of_no_refusal hnone']
        obtain ⟨circleId, rfl⟩ := hctx.alike hfind
        exact ih location hnone hunder location.contents

/-! ## The document of a file -/

/-- Lines leave the path, the circle and the format of a document as they are. -/
theorem header_lasting (path : FullPath) (circleId : Int) (format : String) :
    Lasting (fun doc => doc.path = path ∧ doc.circleId = circleId ∧ doc.format = format)
      fun _ => True :=
  ⟨fun _ _ h => h, fun h => h, fun h => h, fun h => h, fun h _ => h⟩

/-- A document keeps the path, the circle and the format of the file it starts from,
whatever its ancestors are. -/
theorem fileIn_header {ctx : Context} {contents : ByteArray} {doc : Document}
    (h : (fileIn ctx contents).result = .ok doc) :
    doc.path = ctx.path ∧ doc.circleId = ctx.circleId ∧ doc.format = formatTag := by
  rw [fileIn_eq] at h
  exact (fileWith_ends (p := fun _ => True) (header_lasting _ _ _) contents ⟨rfl, rfl, rfl⟩
    (fun _ _ => trivial) trivial
    fun _ => ⟨fun _ _ => trivial, fun _ _ => trivial⟩).value doc h

/-- A file is parsed to the same document in related contexts that make the same requests,
if they have one path. -/
theorem Simulation.fileIn_agree_eq {R : Context → Context → Prop}
    (hR : Simulation (· = ·) E p q R) {ctx ctx' : Context} (h : R ctx ctx')
    (hpath : ctx'.path = ctx.path) (contents : ByteArray) :
    Run.Agree E p q (· = ·) (fileIn ctx contents) (fileIn ctx' contents) := by
  have hcircle : ctx.circleId = ctx'.circleId :=
    congrArg Request.circleId ((hR.alongside h).request "")
  apply (hR.fileIn_agree h contents).mono
  intro doc doc' hdoc hdoc' halike
  have hheader := fileIn_header hdoc
  have hheader' := fileIn_header hdoc'
  refine (halike.eq ?_ ?_).symm
  · rw [hheader.1, hheader'.1, hpath]
  · rw [hheader.2.1, hheader'.2.1, hcircle]

/-! ## Whole parses -/

theorem parse_agree {settings settings' : Settings} {source : Location}
    (hE : ∀ e, E e e)
    (hcheck : settings'.checkMandatoryKeys = settings.checkMandatoryKeys)
    (h : Run.Agree E p q (· = ·) (fileIn (contextOf settings source) source.contents)
      (fileIn (contextOf settings' source) source.contents)) :
    Run.Agree E p q (· = ·) (parse settings source) (parse settings' source) := by
  rw [parse_eq, parse_eq, hcheck]
  refine Run.Accord.bind h ?_
  rintro doc _ rfl
  exact Run.Agree.refl hE _

end Parse

end ExerciseDoc
