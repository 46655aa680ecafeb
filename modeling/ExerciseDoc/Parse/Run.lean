import ExerciseDoc.Parse.Error

/-!
# Parse — runs

A run is what happens on the way to a result: the requests made of a resolver, in
order, and then a value or an error. Requests made before an error stay on record.
-/

namespace ExerciseDoc

/-- The requests of a computation and its result. -/
structure Run (α : Type) where
  calls : List Request
  result : Except ParseError α

namespace Run

def ok {α : Type} (a : α) : Run α :=
  ⟨[], .ok a⟩

def error {α : Type} (e : ParseError) : Run α :=
  ⟨[], .error e⟩

/-- One run behind another; nothing runs behind an error. -/
def bind {α β : Type} (x : Run α) (f : α → Run β) : Run β :=
  match x.result with
  | .ok a =>
    let y := f a
    ⟨x.calls ++ y.calls, y.result⟩
  | .error e => ⟨x.calls, .error e⟩

/-- Asks a resolver, on record. -/
def ask (resolver : Resolver) (q : Request) : Run (Option Location) :=
  ⟨[q], .ok (resolver q)⟩

/-! ## Laws -/

@[simp] theorem ok_bind {α β : Type} (a : α) (f : α → Run β) : bind (ok a) f = f a := by
  simp [bind, ok]

@[simp] theorem error_bind {α β : Type} (e : ParseError) (f : α → Run β) :
    bind (error e) f = error e := by
  simp [bind, error]

@[simp] theorem bind_ok {α : Type} (x : Run α) : bind x ok = x := by
  obtain ⟨calls, result⟩ := x
  cases result <;> simp [bind, ok]

theorem bind_assoc {α β γ : Type} (x : Run α) (f : α → Run β) (g : β → Run γ) :
    bind (bind x f) g = bind x fun a => bind (f a) g := by
  obtain ⟨calls, result⟩ := x
  cases result with
  | error e => rfl
  | ok a =>
    simp only [bind]
    cases (f a).result <;> simp

end Run

end ExerciseDoc
