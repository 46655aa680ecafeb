import ExerciseDoc.Proofs.Parse.Lines

/-!
# Parse — the files that a parse opens

`Opens` follows the recursion of `fileIn` through ancestors: a line of descent starts
at the root and goes on to a file that an `extends` line of the last file leads to,
as long as that file is not refused (`refusal`). What a parse ends with is settled by
the files that it opens: an error in one of them is the error of the whole
(`Opens.fails`), and every error arises in one of them (`fileIn_eq_error`).
-/

namespace ExerciseDoc.Parse

/-! ## Ancestors -/

/-- What a file does with the files it inherits from: they are parsed one level
further down, as long as the chain is shorter than the limit. -/
def ancestor (ctx : Context) (location : Location) : Run Document :=
  if ctx.depthLimit ≤ ctx.chain.length then
    Run.error (.inheritanceTooDeep ctx.path (ctx.chain ++ [location.path]) ctx.depthLimit)
  else fileIn (ctx.under location) location.contents

theorem Context.levels_under (ctx : Context) (location : Location) :
    (ctx.under location).levels = ctx.levels - 1 := by
  simp only [Context.levels, Context.under, List.length_append, List.length_singleton]
  omega

/-- The recursion through ancestors, without the count of the levels that are left. -/
theorem fileIn_eq (ctx : Context) (contents : ByteArray) :
    fileIn ctx contents = fileWith (ancestor ctx) ctx contents := by
  unfold fileIn
  -- No level is left exactly if the chain is as long as the limit.
  cases hlevels : ctx.levels with
  | zero =>
      have hdeep : ctx.depthLimit ≤ ctx.chain.length := Nat.sub_eq_zero_iff_le.mp hlevels
      rw [file]
      congr
      funext location
      rw [ancestor, if_pos hdeep]
  | succ levels =>
      have hdeep : ¬ ctx.depthLimit ≤ ctx.chain.length := by
        unfold Context.levels at hlevels
        omega
      rw [file]
      congr
      funext location
      rw [ancestor, if_neg hdeep, fileIn, Context.levels_under, hlevels, Nat.add_sub_cancel]

/-- The error that refuses an ancestor, if it is refused: the chain has the file
already, or else the chain is as long as the limit allows. -/
def refusal (ctx : Context) (location : Location) : Option ParseError :=
  if location.path ∈ ctx.chain then
    some (.inheritanceLoop ctx.path (ctx.chain ++ [location.path]))
  else if ctx.depthLimit ≤ ctx.chain.length then
    some (.inheritanceTooDeep ctx.path (ctx.chain ++ [location.path]) ctx.depthLimit)
  else none

theorem refusal_of_mem {ctx : Context} {location : Location}
    (h : location.path ∈ ctx.chain) :
    refusal ctx location = some (.inheritanceLoop ctx.path (ctx.chain ++ [location.path])) := by
  rw [refusal, if_pos h]

theorem refusal_of_le {ctx : Context} {location : Location}
    (hnew : location.path ∉ ctx.chain) (h : ctx.depthLimit ≤ ctx.chain.length) :
    refusal ctx location =
      some (.inheritanceTooDeep ctx.path (ctx.chain ++ [location.path]) ctx.depthLimit) := by
  rw [refusal, if_neg hnew, if_pos h]

theorem refusal_eq_none {ctx : Context} {location : Location} :
    refusal ctx location = none ↔
      location.path ∉ ctx.chain ∧ ctx.chain.length < ctx.depthLimit := by
  unfold refusal
  split <;> simp_all

/-- A file is refused because the chain has it or, if not, because there is no level left
for it. -/
theorem refusal_eq_some {ctx : Context} {location : Location} {e : ParseError}
    (h : refusal ctx location = some e) :
    (location.path ∈ ctx.chain ∧
      e = .inheritanceLoop ctx.path (ctx.chain ++ [location.path])) ∨
    (location.path ∉ ctx.chain ∧ ctx.depthLimit ≤ ctx.chain.length ∧
      e = .inheritanceTooDeep ctx.path (ctx.chain ++ [location.path]) ctx.depthLimit) := by
  unfold refusal at h
  split at h
  · rename_i hmem
    cases h
    exact .inl ⟨hmem, rfl⟩
  · rename_i hnew
    split at h
    · rename_i hdeep
      cases h
      exact .inr ⟨hnew, hdeep, rfl⟩
    · cases h

/-- An ancestor is refused, or parsed one level further down. -/
theorem descend_ancestor (ctx : Context) (location : Location) :
    descend (ancestor ctx) ctx location =
      match refusal ctx location with
      | some e => Run.error e
      | none => fileIn (ctx.under location) location.contents := by
  unfold descend ancestor refusal
  split
  · rfl
  · split <;> rfl

theorem descend_of_refusal {ctx : Context} {location : Location} {e : ParseError}
    (h : refusal ctx location = some e) :
    descend (ancestor ctx) ctx location = Run.error e := by
  rw [descend_ancestor, h]

theorem descend_of_no_refusal {ctx : Context} {location : Location}
    (h : refusal ctx location = none) :
    descend (ancestor ctx) ctx location = fileIn (ctx.under location) location.contents := by
  rw [descend_ancestor, h]

/-- Induction down the ancestors: what holds of a file if it holds of every file that
it can inherit from, holds of all files. -/
@[elab_as_elim]
theorem Context.descent {motive : Context → Prop} (ctx : Context)
    (further : ∀ ctx, (∀ location, refusal ctx location = none → motive (ctx.under location)) →
      motive ctx) : motive ctx := by
  -- Every ancestor has one level less below it.
  induction hlevels : ctx.levels using Nat.strongRecOn generalizing ctx with
  | ind levels ih =>
      apply further
      intro location hrefusal
      apply ih (ctx.under location).levels _ _ rfl
      have hshort := (refusal_eq_none.mp hrefusal).2
      rw [Context.levels_under]
      unfold Context.levels at hlevels ⊢
      omega

/-- What every line keeps, with ancestors that have it too, holds of every document that
a file yields. -/
theorem Lasting.fileIn {P : Document → Prop} (hP : Lasting P P)
    (hstart : ∀ ctx, P (State.start ctx).document) {ctx : Context} {contents : ByteArray}
    {doc : Document} (h : (fileIn ctx contents).result = .ok doc) : P doc := by
  have hends : Run.Ends P (fun _ => True) (Parse.fileIn ctx contents) := by
    clear h
    induction ctx using Context.descent generalizing contents with
    | further ctx ih =>
        rw [fileIn_eq]
        refine fileWith_ends hP contents (hstart ctx) (fun _ _ => trivial) trivial ?_
        intro location
        rw [descend_ancestor]
        cases hrefusal : refusal ctx location with
        | some e => exact .error trivial
        | none => exact ih location hrefusal
  exact hends.value doc h

/-! ## Lines of descent -/

/-- A parse opens a file: from the first file, with its context and its contents,
`extends` lines lead through the files at `edges` to the last one, none of them
refused. -/
inductive Opens : Context → ByteArray → List Location → Context → ByteArray → Prop where
  | root {ctx : Context} {contents : ByteArray} : Opens ctx contents [] ctx contents
  | further {ctx : Context} {contents : ByteArray} {location : Location}
      {edges : List Location} {ctx' : Context} {contents' : ByteArray} :
      LeadsTo (ancestor ctx) ctx contents location →
      refusal ctx location = none →
      Opens (ctx.under location) location.contents edges ctx' contents' →
      Opens ctx contents (location :: edges) ctx' contents'

/-! ## What a parse depends on -/

/-- A line depends on the ancestor that it leads to alone. -/
theorem step_congr {f g : Location → Run Document} {ctx : Context} {s : State}
    {raw : List Char} (number : Nat)
    (h : ∀ location, Extends ctx s raw location →
      descend f ctx location = descend g ctx location) :
    step f ctx s number raw = step g ctx s number raw := by
  obtain ⟨doc, block⟩ := s
  cases block with
  | some block => rfl
  | none =>
      simp only [step]
      split
      · rfl
      · rfl
      · rename_i directive _ hshape
        -- Of all directives only `extends` looks at an ancestor.
        cases directive with
        | «extends» uri =>
            simp only [perform, inherit, locate, Run.ask]
            cases hfound : ctx.resolver (ctx.request uri) with
            | none => rfl
            | some location =>
                simp only [Run.bind, Run.ok, h location ⟨rfl, uri, hshape, hfound⟩]
        | _ => rfl

/-! ## Errors -/

/-- A line that leads to an ancestor fails with it, and does not fail otherwise. -/
theorem Extends.step_eq_error_iff {f : Location → Run Document} {ctx : Context} {s : State}
    {raw : List Char} {location : Location} (h : Extends ctx s raw location)
    (number : Nat) (e : ParseError) :
    (step f ctx s number raw).result = .error e ↔
      (descend f ctx location).result = .error e := by
  obtain ⟨doc, _⟩ := s
  obtain ⟨rfl, uri, hshape, hfound⟩ := h
  simp only [step, hshape, perform, inherit, locate, Run.ask, hfound]
  cases hdescend : (descend f ctx location).result with
  | ok found => simp [Run.bind, Run.ok, hdescend]
  | error e' => simp [Run.bind, Run.ok, hdescend]

/-- A line that fails has a fault of its own, which no ancestor could avert, or it leads
to an ancestor that fails. -/
theorem step_eq_error {f : Location → Run Document} {ctx : Context} {s : State}
    {number : Nat} {raw : List Char} {e : ParseError}
    (h : (step f ctx s number raw).result = .error e) :
    (∃ fault, e = .line (s.place ctx number raw) fault ∧
      ∀ g, (step g ctx s number raw).result = .error e) ∨
    ∃ location, Extends ctx s raw location ∧ (descend f ctx location).result = .error e := by
  by_cases hext : ∃ location, Extends ctx s raw location
  · obtain ⟨location, hext⟩ := hext
    exact .inr ⟨location, hext, (hext.step_eq_error_iff number e).mp h⟩
  · have hnone : ∀ location, ¬ Extends ctx s raw location := not_exists.mp hext
    have hends : Run.Ends (fun _ => True)
        (fun e => ∃ fault, e = .line (s.place ctx number raw) fault) (step f ctx s number raw) :=
      step_ends (P := fun _ => True) (Q := fun _ => True)
        ⟨fun _ _ _ => trivial, fun _ => trivial, fun _ => trivial, fun _ => trivial,
          fun _ _ => trivial⟩ trivial (fun fault => ⟨fault, rfl⟩)
        (fun location hext => absurd hext (hnone location))
    obtain ⟨fault, hfault⟩ := hends.fault e h
    refine .inl ⟨fault, hfault, ?_⟩
    intro g
    rw [step_congr (g := f) number fun location hext => absurd hext (hnone location)]
    exact h

/-- Where a line leads to an ancestor that fails, the whole file fails with the same
error. -/
theorem fileWith_eq_error_of_descend {f : Location → Run Document} {ctx : Context}
    {contents : ByteArray} {location : Location} {e : ParseError}
    (hlead : LeadsTo f ctx contents location)
    (h : (descend f ctx location).result = .error e) :
    (fileWith f ctx contents).result = .error e := by
  obtain ⟨number, raw, s, ⟨text, before, after, htext, hlines, -, hbefore⟩, hext⟩ := hlead
  simp only [fileWith, htext]
  apply Run.result_bind_of_error
  rw [hlines, steps_append, Run.result_bind_of_ok _ hbefore]
  exact Run.result_bind_of_error _ ((hext.step_eq_error_iff _ e).mpr h)

/-- The faults that a file has of its own: it is no text, one of its lines is at fault
whatever its ancestors are, or its last block stays open. -/
inductive OwnFault (f : Location → Run Document) (ctx : Context) (contents : ByteArray) :
    ParseError → Prop where
  | undecodable : String.fromUTF8? contents = none →
      OwnFault f ctx contents (.undecodable ctx.path)
  | line {number : Nat} {raw : List Char} {s : State} {fault : LineFault} :
      Reaches f ctx contents number raw s →
      (∀ g, (step g ctx s number raw).result =
        .error (.line (s.place ctx number raw) fault)) →
      OwnFault f ctx contents (.line (s.place ctx number raw) fault)
  | unclosed {text : String} {s : State} {block : Block} :
      String.fromUTF8? contents = some text →
      (steps f ctx (State.start ctx) 1 (Text.physicalLines text.toList)).result = .ok s →
      s.block = some block → OwnFault f ctx contents (.line block.place .unclosed)

/-- A file fails by a fault of its own, or with an ancestor that a line leads to. -/
theorem fileWith_eq_error {f : Location → Run Document} {ctx : Context}
    {contents : ByteArray} {e : ParseError}
    (h : (fileWith f ctx contents).result = .error e) :
    OwnFault f ctx contents e ∨
      ∃ location, LeadsTo f ctx contents location ∧
        (descend f ctx location).result = .error e := by
  cases htext : String.fromUTF8? contents with
  | none =>
      simp only [fileWith, htext] at h
      cases h
      exact .inl (.undecodable htext)
  | some text =>
      simp only [fileWith, htext] at h
      rcases Run.bind_eq_error.mp h with hsteps | ⟨s, hsteps, hfinish⟩
      · obtain ⟨before, raw, after, s, hlines, hbefore, hfail⟩ := steps_eq_error hsteps
        have hreach : Reaches f ctx contents (1 + before.length) raw s :=
          ⟨text, before, after, htext, hlines, Nat.add_comm _ _, hbefore⟩
        rcases step_eq_error hfail with ⟨fault, rfl, hown⟩ | ⟨location, hext, he⟩
        · exact .inl (.line hreach hown)
        · exact .inr ⟨location, ⟨_, raw, s, hreach, hext⟩, he⟩
      · cases hblock : s.block with
        | none => simp [finish, hblock, Run.ok] at hfinish
        | some block =>
            simp only [finish, hblock] at hfinish
            cases hfinish
            exact .inl (.unclosed htext hsteps hblock)

/-- A file with a fault of its own fails with it. -/
theorem OwnFault.fails {f : Location → Run Document} {ctx : Context}
    {contents : ByteArray} {e : ParseError} (h : OwnFault f ctx contents e) :
    (fileWith f ctx contents).result = .error e := by
  cases h with
  | undecodable htext =>
      simp only [fileWith, htext]
      rfl
  | line hreach hfail =>
      obtain ⟨text, before, after, htext, hlines, rfl, hbefore⟩ := hreach
      simp only [fileWith, htext]
      apply Run.result_bind_of_error
      rw [hlines, steps_append, Run.result_bind_of_ok _ hbefore, Nat.add_comm]
      exact Run.result_bind_of_error _ (hfail f)
  | unclosed htext hsteps hblock =>
      simp only [fileWith, htext, Run.result_bind_of_ok _ hsteps, finish, hblock]
      rfl

/-- An error in a file that is opened is the error of the whole parse. -/
theorem Opens.fails {ctx ctx' : Context} {contents contents' : ByteArray}
    {edges : List Location} {e : ParseError} (h : Opens ctx contents edges ctx' contents')
    (he : (fileIn ctx' contents').result = .error e) :
    (fileIn ctx contents).result = .error e := by
  induction h with
  | root => exact he
  | further hlead hfresh _ ih =>
      rw [fileIn_eq]
      apply fileWith_eq_error_of_descend hlead
      rw [descend_of_no_refusal hfresh]
      exact ih he

/-- A file that inherits from a file that is refused fails with the refusal. -/
theorem fileIn_eq_error_of_refusal {ctx : Context} {contents : ByteArray}
    {location : Location} {e : ParseError}
    (hlead : LeadsTo (ancestor ctx) ctx contents location)
    (h : refusal ctx location = some e) : (fileIn ctx contents).result = .error e := by
  rw [fileIn_eq]
  apply fileWith_eq_error_of_descend hlead
  rw [descend_of_refusal h]
  rfl

/-- **Where an error comes from**: some file that the parse opens is at fault itself,
or inherits from a file that is refused. -/
theorem fileIn_eq_error {ctx : Context} {contents : ByteArray} {e : ParseError}
    (h : (fileIn ctx contents).result = .error e) :
    ∃ edges ctx' contents', Opens ctx contents edges ctx' contents' ∧
      (OwnFault (ancestor ctx') ctx' contents' e ∨
        ∃ location, LeadsTo (ancestor ctx') ctx' contents' location ∧
          refusal ctx' location = some e) := by
  induction ctx using Context.descent generalizing contents with
  | further ctx ih =>
      rw [fileIn_eq] at h
      rcases fileWith_eq_error h with hown | ⟨location, hlead, hfail⟩
      · exact ⟨[], ctx, contents, .root, .inl hown⟩
      · -- An ancestor that is parsed has the cause among the files that it opens.
        cases hrefusal : refusal ctx location with
        | some e' =>
            rw [descend_of_refusal hrefusal] at hfail
            cases hfail
            exact ⟨[], ctx, contents, .root, .inr ⟨location, hlead, hrefusal⟩⟩
        | none =>
            rw [descend_of_no_refusal hrefusal] at hfail
            obtain ⟨edges, ctx', contents', hopen, hcause⟩ := ih location hrefusal hfail
            exact ⟨location :: edges, ctx', contents', .further hlead hrefusal hopen, hcause⟩

/-! ## Whole parses -/

/-- A parse is its root file and then the check for mandatory keys, if there is one. -/
theorem parse_eq (settings : Settings) (source : Location) :
    parse settings source =
      Run.bind (fileIn (contextOf settings source) source.contents)
        (if settings.checkMandatoryKeys then checked else Run.ok) := by
  unfold parse
  split
  · rfl
  · rw [Run.bind_ok]

/-- The document of a parse is that of its root file. -/
theorem parse_eq_ok {settings : Settings} {source : Location} {doc : Document}
    (h : (parse settings source).result = .ok doc) :
    (fileIn (contextOf settings source) source.contents).result = .ok doc := by
  rw [parse_eq] at h
  obtain ⟨doc', hfile, hchecked⟩ := Run.bind_eq_ok.mp h
  split at hchecked
  · unfold checked at hchecked
    split at hchecked <;> cases hchecked
    exact hfile
  · cases hchecked
    exact hfile

/-- An error of the root file is the error of the parse. -/
theorem parse_eq_error_of_fileIn {settings : Settings} {source : Location} {e : ParseError}
    (h : (fileIn (contextOf settings source) source.contents).result = .error e) :
    (parse settings source).result = .error e := by
  rw [parse_eq]
  exact Run.result_bind_of_error _ h

/-- Any other error of a parse is a mandatory key that is missing. -/
theorem parse_eq_error {settings : Settings} {source : Location} {e : ParseError}
    (h : (parse settings source).result = .error e) :
    (fileIn (contextOf settings source) source.contents).result = .error e ∨
      ∃ path key, e = .missingKey path key := by
  rw [parse_eq] at h
  rcases Run.bind_eq_error.mp h with hfile | ⟨doc, _, hchecked⟩
  · exact .inl hfile
  · split at hchecked
    · unfold checked at hchecked
      split at hchecked <;> cases hchecked
      exact .inr ⟨_, _, rfl⟩
    · cases hchecked

end ExerciseDoc.Parse
