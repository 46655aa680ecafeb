import ExerciseDoc.Proofs.Parse.Opened

/-!
# Parse — the answers that a parse gets

A parse knows its resolver by the answers to the requests that it makes. A run and the same
run with another resolver (`Repeats`) are one if all requests of the first are answered alike
by both, and every part of a parse has this property if the parts that it binds have it. So
`parse_congr` needs the resolvers to agree on the requests on record alone, where they may be
apart everywhere else.
-/

namespace ExerciseDoc

/-- The second run is the first one, if the second resolver gives the answers that the first
one has given on record. -/
def Run.Repeats {α : Type} (r r' : Resolver) (x y : Run α) : Prop :=
  (∀ q ∈ x.calls, r q = r' q) → y = x

namespace Run.Repeats

variable {α β : Type} {r r' : Resolver}

theorem refl (x : Run α) : Repeats r r' x x :=
  fun _ => rfl

theorem ask (q : Request) : Repeats r r' (ask r q) (ask r' q) := by
  intro h
  simp only [Run.ask, h q (List.mem_singleton.mpr rfl)]

theorem bind {x y : Run α} {f g : α → Run β} (hx : Repeats r r' x y)
    (hf : ∀ a, Repeats r r' (f a) (g a)) : Repeats r r' (Run.bind x f) (Run.bind y g) := by
  intro h
  cases hresult : x.result with
  | error e =>
      have hcalls : (Run.bind x f).calls = x.calls := by simp only [Run.bind, hresult]
      rw [hcalls] at h
      simp only [hx h, Run.bind, hresult]
  | ok a =>
      rw [calls_bind_of_ok f hresult] at h
      have hy : y = x := hx fun q hq => h q (List.mem_append_left _ hq)
      have hg : g a = f a := hf a fun q hq => h q (List.mem_append_right _ hq)
      simp only [hy, Run.bind, hresult, hg]

end Run.Repeats

namespace Parse

/-- The context with another resolver. -/
def Context.asking (ctx : Context) (r : Resolver) : Context :=
  { ctx with resolver := r }

/-! ## Directives and lines -/

section Lines

variable {f g : Location → Run Document} {ctx : Context} {r : Resolver}

theorem locate_repeats (place : Place) (uri : String) :
    Run.Repeats ctx.resolver r (locate ctx place uri) (locate (ctx.asking r) place uri) :=
  (Run.Repeats.ask (ctx.request uri)).bind fun _ => .refl _

theorem inherit_repeats (doc : Document) (place : Place) (uri : String)
    (hanc : ∀ location, Run.Repeats ctx.resolver r (descend f ctx location)
      (descend g (ctx.asking r) location)) :
    Run.Repeats ctx.resolver r (inherit f ctx doc place uri)
      (inherit g (ctx.asking r) doc place uri) :=
  (locate_repeats place uri).bind fun location => (hanc location).bind fun _ => .refl _

theorem perform_repeats (doc : Document) (place : Place) (directive : Directive)
    (hanc : ∀ location, Run.Repeats ctx.resolver r (descend f ctx location)
      (descend g (ctx.asking r) location)) :
    Run.Repeats ctx.resolver r (perform f ctx doc place directive)
      (perform g (ctx.asking r) doc place directive) := by
  cases directive with
  | «extends» uri => exact inherit_repeats doc place uri hanc
  | fromFile key op uri => exact (locate_repeats place uri).bind fun _ => .refl _
  | link key uri => exact (locate_repeats place uri).bind fun _ => .refl _
  | dependency uri name => exact (locate_repeats place uri).bind fun _ => .refl _
  | component | comment | value | openBlock | blank => exact .refl _

theorem step_repeats (s : State) (number : Nat) (raw : List Char)
    (hanc : ∀ location, Run.Repeats ctx.resolver r (descend f ctx location)
      (descend g (ctx.asking r) location)) :
    Run.Repeats ctx.resolver r (step f ctx s number raw)
      (step g (ctx.asking r) s number raw) := by
  obtain ⟨doc, block⟩ := s
  cases block with
  | some block => exact .refl _
  | none =>
      simp only [step]
      split
      · exact .refl _
      · exact .refl _
      · exact (perform_repeats doc _ _ hanc).bind fun _ => .refl _

theorem steps_repeats (s : State) (number : Nat) (lines : List (List Char))
    (hanc : ∀ location, Run.Repeats ctx.resolver r (descend f ctx location)
      (descend g (ctx.asking r) location)) :
    Run.Repeats ctx.resolver r (steps f ctx s number lines)
      (steps g (ctx.asking r) s number lines) := by
  induction lines generalizing s number with
  | nil => exact .refl _
  | cons raw rest ih => exact (step_repeats s number raw hanc).bind fun s => ih s (number + 1)

theorem fileWith_repeats (contents : ByteArray)
    (hanc : ∀ location, Run.Repeats ctx.resolver r (descend f ctx location)
      (descend g (ctx.asking r) location)) :
    Run.Repeats ctx.resolver r (fileWith f ctx contents)
      (fileWith g (ctx.asking r) contents) := by
  unfold fileWith
  split
  · exact .refl _
  · exact (steps_repeats _ 1 _ hanc).bind fun _ => .refl _

end Lines

/-! ## Files -/

theorem fileIn_repeats (ctx : Context) (r : Resolver) (contents : ByteArray) :
    Run.Repeats ctx.resolver r (fileIn ctx contents) (fileIn (ctx.asking r) contents) := by
  induction ctx using Context.descent generalizing contents with
  | further ctx ih =>
      rw [fileIn_eq, fileIn_eq]
      refine fileWith_repeats contents fun location => ?_
      have hrefusal : refusal (ctx.asking r) location = refusal ctx location := rfl
      rw [descend_ancestor, descend_ancestor, hrefusal]
      cases hnone : refusal ctx location with
      | some e => exact .refl _
      | none => exact ih location hnone location.contents

/-- **A parse depends on the answers that it gets.** With a resolver that gives the same
answers to the requests of a parse, it makes the same requests and comes to the same end. -/
theorem parse_congr {r r' : Resolver} {inherited : List FullPath} {limit : Nat} {check : Bool}
    {source : Location}
    (h : ∀ q ∈ (parse ⟨r, inherited, limit, check⟩ source).calls, r q = r' q) :
    parse ⟨r', inherited, limit, check⟩ source = parse ⟨r, inherited, limit, check⟩ source := by
  have hrepeats : Run.Repeats r r' (parse ⟨r, inherited, limit, check⟩ source)
      (parse ⟨r', inherited, limit, check⟩ source) := by
    rw [parse_eq, parse_eq]
    exact (fileIn_repeats (contextOf ⟨r, inherited, limit, check⟩ source) r' _).bind
      fun _ => .refl _
  exact hrepeats h

end Parse

end ExerciseDoc
