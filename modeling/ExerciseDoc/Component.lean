import ExerciseDoc.Value.Basic

/-!
# Component — widgets by name

The widgets that a key can be declared as, with the selector each is rendered
under, and the placeholder value that a declaration stores.
-/

namespace ExerciseDoc.Component

/-- The known widgets and their selectors. -/
def selectors : List (String × String) :=
  [ ("AutomatonDrawer", "wc-automaton-drawer"),
    ("AutomatonEditor", "wc-automaton-editor"),
    ("CheckboxGroup", "wc-checkbox-group"),
    ("CodeEditor", "wc-code-editor"),
    ("DragDrop", "wc-drag-drop"),
    ("GraphDrawer", "wc-graph-drawer"),
    ("Input", "wc-input"),
    ("MatchList", "wc-match-list"),
    ("MathDrawer", "wc-math-drawer"),
    ("MathInput", "wc-math-input"),
    ("MathMatrix", "wc-math-matrix"),
    ("RadioGroup", "wc-radio-group"),
    ("SortList", "wc-sort-list"),
    ("Text", "wc-text"),
    ("TransfertList", "wc-transfert-list") ]

/-- The selector of a widget, by its exact name. -/
def selector? (name : String) : Option String :=
  selectors.lookup name

/-- The placeholder that a declared widget starts from: an empty form and the
selector. -/
def value? (name : String) : Option Value :=
  (selector? name).map fun selector =>
    .mapping [("form", .mapping []), ("selector", .text selector)]

end ExerciseDoc.Component
