import ExerciseDoc.Parse.Run
import Mathlib.Data.List.Forall2

/-!
# Run — taking runs apart

How the result behind a bind comes about, what a run can end with (`Ends`), and
two runs side by side (`Accord`): they make related requests and come to related
results, unless one of them fails with an error that excuses it from going along
with the other. Runs that make the same requests `Agree`.
-/

namespace ExerciseDoc.Run

variable {α β γ δ : Type}

/-! ## The result of a bind -/

theorem result_bind_of_ok {x : Run α} {a : α} (f : α → Run β) (h : x.result = .ok a) :
    (bind x f).result = (f a).result := by
  simp [bind, h]

theorem calls_bind_of_ok {x : Run α} {a : α} (f : α → Run β) (h : x.result = .ok a) :
    (bind x f).calls = x.calls ++ (f a).calls := by
  simp [bind, h]

theorem result_bind_of_error {x : Run α} {e : ParseError} (f : α → Run β)
    (h : x.result = .error e) : (bind x f).result = .error e := by
  simp [bind, h]

/-- What stands behind runs with one result ends with one result. -/
theorem result_bind_congr {x y : Run α} (f : α → Run β) (h : x.result = y.result) :
    (bind x f).result = (bind y f).result := by
  cases hy : y.result with
  | ok a => rw [result_bind_of_ok f (h.trans hy), result_bind_of_ok f hy]
  | error e => rw [result_bind_of_error f (h.trans hy), result_bind_of_error f hy]

/-- A bind returns what its second part returns on the value of the first. -/
theorem bind_eq_ok {x : Run α} {f : α → Run β} {b : β} :
    (bind x f).result = .ok b ↔ ∃ a, x.result = .ok a ∧ (f a).result = .ok b := by
  cases hx : x.result with
  | ok a => simp [result_bind_of_ok f hx]
  | error e => simp [result_bind_of_error f hx]

/-- A bind fails where its first part fails, or behind it. -/
theorem bind_eq_error {x : Run α} {f : α → Run β} {e : ParseError} :
    (bind x f).result = .error e ↔
      x.result = .error e ∨ ∃ a, x.result = .ok a ∧ (f a).result = .error e := by
  cases hx : x.result with
  | ok a => simp [result_bind_of_ok f hx]
  | error e => simp [result_bind_of_error f hx]

theorem result_of_toOption {x : Run α} {a : α} (h : x.result.toOption = some a) :
    x.result = .ok a := by
  cases hx : x.result with
  | ok b =>
      rw [hx] at h
      cases h
      rfl
  | error e =>
      rw [hx] at h
      cases h

/-- Behind a question stands what is done with its answer. -/
theorem ask_bind (resolver : Resolver) (q : Request) (f : Option Location → Run β) :
    bind (ask resolver q) f = ⟨q :: (f (resolver q)).calls, (f (resolver q)).result⟩ :=
  rfl

/-! ## How a run ends -/

/-- Whatever the run returns has `P`, and whatever it fails with has `p`. -/
structure Ends (P : α → Prop) (p : ParseError → Prop) (x : Run α) : Prop where
  value : ∀ a, x.result = .ok a → P a
  fault : ∀ e, x.result = .error e → p e

namespace Ends

variable {P : α → Prop} {Q : β → Prop} {p : ParseError → Prop}

theorem ok {a : α} (h : P a) : Ends P p (ok a) where
  value := by
    intro b hb
    cases hb
    exact h
  fault := by
    intro e he
    cases he

theorem error {e : ParseError} (h : p e) : Ends P p (error e) where
  value := by
    intro a ha
    cases ha
  fault := by
    intro e' he
    cases he
    exact h

/-- Asking a resolver never fails. -/
theorem ask (resolver : Resolver) (q : Request) :
    Ends (fun found => resolver q = found) p (ask resolver q) :=
  ⟨fun _ h => by cases h; rfl, fun _ h => by cases h⟩

theorem bind {x : Run α} {f : α → Run β} (hx : Ends P p x)
    (hf : ∀ a, P a → Ends Q p (f a)) : Ends Q p (bind x f) where
  value := by
    intro b hb
    obtain ⟨a, ha, hb⟩ := bind_eq_ok.mp hb
    exact (hf a (hx.value a ha)).value b hb
  fault := by
    intro e he
    rcases bind_eq_error.mp he with hxe | ⟨a, ha, hfe⟩
    · exact hx.fault e hxe
    · exact (hf a (hx.value a ha)).fault e hfe

end Ends

/-! ## Two runs side by side -/

/-- The runs make requests that are alike in `A`, one by one, and end alike, with values
in `V` or with errors in `E`, unless the first fails with an error in `p` or the second
with one in `q`. -/
inductive Accord (A : Request → Request → Prop) (E : ParseError → ParseError → Prop)
    (p q : ParseError → Prop) (V : α → β → Prop) : Run α → Run β → Prop where
  | value {calls calls' : List Request} {a : α} {b : β} : List.Forall₂ A calls calls' →
      V a b → Accord A E p q V ⟨calls, .ok a⟩ ⟨calls', .ok b⟩
  | fault {calls calls' : List Request} {e e' : ParseError} : List.Forall₂ A calls calls' →
      E e e' → Accord A E p q V ⟨calls, .error e⟩ ⟨calls', .error e'⟩
  | left {x : Run α} {y : Run β} {e : ParseError} :
      x.result = .error e → p e → Accord A E p q V x y
  | right {x : Run α} {y : Run β} {e : ParseError} :
      y.result = .error e → q e → Accord A E p q V x y

/-- The runs make the same requests and end alike. -/
abbrev Agree (E : ParseError → ParseError → Prop) (p q : ParseError → Prop)
    (V : α → β → Prop) : Run α → Run β → Prop :=
  Accord (· = ·) E p q V

/-- The second run returns if the first one does, after the same requests, and values in
`V`. Nothing is said where the first run fails. -/
abbrev Follows (V : α → β → Prop) : Run α → Run β → Prop :=
  Agree (fun _ _ => True) (fun _ => True) (fun _ => False) V

namespace Accord

variable {A : Request → Request → Prop} {E : ParseError → ParseError → Prop}
variable {p q : ParseError → Prop} {V : α → β → Prop} {W : γ → δ → Prop}

theorem ok {a : α} {b : β} (h : V a b) : Accord A E p q V (ok a) (ok b) :=
  .value .nil h

theorem error {e e' : ParseError} (h : E e e') :
    Accord A E p q V (error e) (error e') :=
  .fault .nil h

theorem ask {r r' : Resolver} {request request' : Request}
    {V : Option Location → Option Location → Prop} (hA : A request request')
    (h : V (r request) (r' request')) :
    Accord A E p q V (ask r request) (ask r' request') := by
  unfold Run.ask
  exact .value (.cons hA .nil) h

/-- Runs go side by side along binds. -/
theorem bind {x : Run α} {y : Run β} {f : α → Run γ} {g : β → Run δ}
    (h : Accord A E p q V x y) (hfg : ∀ a b, V a b → Accord A E p q W (f a) (g b)) :
    Accord A E p q W (bind x f) (bind y g) := by
  cases h with
  | fault hcalls he => exact .fault hcalls he
  | left hx hp => exact .left (result_bind_of_error f hx) hp
  | right hy hq => exact .right (result_bind_of_error g hy) hq
  | @value calls calls' a b hcalls hab =>
    cases hf : f a with | mk fcalls fresult =>
    cases hg : g b with | mk gcalls gresult =>
    have hrest := hfg a b hab
    rw [hf, hg] at hrest
    simp only [Run.bind, hf, hg]
    -- The requests behind the bind are appended to those in front of it on both sides.
    cases hrest with
    | value hcalls' hw => exact .value (List.rel_append hcalls hcalls') hw
    | fault hcalls' he => exact .fault (List.rel_append hcalls hcalls') he
    | left hx hp => exact .left hx hp
    | right hy hq => exact .right hy hq

theorem mono {V' : α → β → Prop} {x : Run α} {y : Run β} (h : Accord A E p q V x y)
    (hV : ∀ a b, x.result = .ok a → y.result = .ok b → V a b → V' a b) :
    Accord A E p q V' x y := by
  cases h with
  | value hcalls hab => exact .value hcalls (hV _ _ rfl rfl hab)
  | fault hcalls he => exact .fault hcalls he
  | left hx hp => exact .left hx hp
  | right hy hq => exact .right hy hq

/-- Where nothing excuses the second run, it returns if the first does. -/
theorem of_ok {x : Run α} {y : Run β} {a : α} (h : Accord A E p (fun _ => False) V x y)
    (hx : x.result = .ok a) :
    ∃ b, y.result = .ok b ∧ List.Forall₂ A x.calls y.calls ∧ V a b := by
  cases h with
  | value hcalls hab =>
    cases hx
    exact ⟨_, rfl, hcalls, hab⟩
  | fault hcalls he => cases hx
  | left hx' hp => simp [hx] at hx'
  | right hy hq => exact hq.elim

/-- Where nothing excuses the second run, it fails if the first does, unless that is
excused. -/
theorem of_error {x : Run α} {y : Run β} {e : ParseError}
    (h : Accord A E p (fun _ => False) V x y) (hx : x.result = .error e) (hp : ¬ p e) :
    ∃ e', y.result = .error e' ∧ E e e' := by
  cases h with
  | value hcalls hab => cases hx
  | fault hcalls he =>
    cases hx
    exact ⟨_, rfl, he⟩
  | left hx' hp' =>
    rw [hx] at hx'
    cases hx'
    exact absurd hp' hp
  | right hy hq => exact hq.elim

/-- Where nothing excuses the second run, the first fails with it, if not for a reason of
its own. -/
theorem error_of_error {x : Run α} {y : Run β} {e' : ParseError}
    (h : Accord A E p (fun _ => False) V x y) (hy : y.result = .error e') :
    ∃ e, x.result = .error e ∧ (p e ∨ E e e') := by
  cases h with
  | value hcalls hab => cases hy
  | fault hcalls he =>
    cases hy
    exact ⟨_, rfl, .inr he⟩
  | left hx hp => exact ⟨_, hx, .inl hp⟩
  | right hy' hq => exact hq.elim

end Accord

namespace Agree

variable {E : ParseError → ParseError → Prop} {p q : ParseError → Prop} {V : α → β → Prop}

theorem calls_eq {calls calls' : List Request} (h : List.Forall₂ (· = ·) calls calls') :
    calls = calls' := by
  rwa [List.forall₂_eq_eq_eq] at h

theorem refl (hE : ∀ e, E e e) (x : Run α) : Agree E p q (· = ·) x x := by
  have hcalls : List.Forall₂ (· = ·) x.calls x.calls := List.forall₂_refl _
  obtain ⟨calls, result⟩ := x
  cases result with
  | ok a => exact .value hcalls rfl
  | error e => exact .fault hcalls (hE e)

theorem follows {x : Run α} {y : Run β}
    (h : ∀ a, x.result = .ok a → ∃ b, y.result = .ok b ∧ x.calls = y.calls ∧ V a b) :
    Follows V x y := by
  obtain ⟨calls, result⟩ := x
  cases result with
  | error e => exact .left rfl trivial
  | ok a =>
      -- The second run is taken apart as well, to make its requests those of the first.
      obtain ⟨⟨calls', result'⟩, hy⟩ : ∃ y', y' = y := ⟨y, rfl⟩
      obtain ⟨b, hb, hcalls, hab⟩ := h a rfl
      subst hy
      cases hb
      cases hcalls
      exact .value (List.forall₂_refl _) hab

/-- Two runs that agree and both return make the same requests. -/
theorem of_ok_ok {x : Run α} {y : Run β} {a : α} {b : β} (h : Agree E p q V x y)
    (hx : x.result = .ok a) (hy : y.result = .ok b) : x.calls = y.calls ∧ V a b := by
  cases h with
  | value hcalls hab =>
    cases hx
    cases hy
    exact ⟨calls_eq hcalls, hab⟩
  | fault hcalls he => cases hx
  | left hx' hp => simp [hx] at hx'
  | right hy' hq => simp [hy] at hy'

/-- Two runs that agree up to equality are one, where neither is excused. -/
theorem eq {x y : Run α} (h : Agree (· = ·) p (fun _ => False) (· = ·) x y)
    (hx : ∀ e, x.result = .error e → ¬ p e) : y = x := by
  cases h with
  | value hcalls hab => rw [calls_eq hcalls, hab]
  | fault hcalls he => rw [calls_eq hcalls, he]
  | left hx' hp => exact absurd hp (hx _ hx')
  | right hy hq => exact hq.elim

/-- Where nothing excuses the second run, it returns if the first does. -/
theorem of_ok {x : Run α} {y : Run β} {a : α} (h : Agree E p (fun _ => False) V x y)
    (hx : x.result = .ok a) : ∃ b, y.result = .ok b ∧ x.calls = y.calls ∧ V a b := by
  obtain ⟨b, hb, hcalls, hab⟩ := Accord.of_ok h hx
  exact ⟨b, hb, calls_eq hcalls, hab⟩

end Agree

end ExerciseDoc.Run
