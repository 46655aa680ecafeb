import ExerciseDoc.Proofs.Document.Order
import ExerciseDoc.Proofs.Parse.Agreement

/-!
# Parse — mandatory keys

The check for mandatory keys is the last thing that a parse does, and its root alone
does it: no file is refused for the keys that it lacks (`fileIn_ne_missingKey`). What is
checked is the data that the root and its ancestors have put together, and the first
mandatory key that it lacks is the one that is reported.
-/

namespace ExerciseDoc

/-- The key is one of those at the top of the data. -/
def Document.Has (doc : Document) (key : String) : Prop :=
  key ∈ doc.data.map (·.1)

namespace Parse

/-- A file is not refused for a key that it lacks. -/
theorem fileIn_ne_missingKey (ctx : Context) (contents : ByteArray) (path : FullPath)
    (key : String) : (fileIn ctx contents).result ≠ .error (.missingKey path key) := by
  intro h
  obtain ⟨_, ctx', _, -, hown | ⟨location, -, hrefusal⟩⟩ := fileIn_eq_error h
  · cases hown
  · rcases refusal_eq_some hrefusal with ⟨-, hloop⟩ | ⟨-, -, hdeep⟩
    · cases hloop
    · cases hdeep

/-! ## The check -/

section Checked

variable {doc : Document} (hdoc : doc.Ordered)

theorem checked_calls (doc : Document) : (checked doc).calls = [] := by
  unfold checked
  split <;> rfl

include hdoc

theorem contains_iff_has (key : String) : doc.data.contains key ↔ doc.Has key :=
  hdoc.data.contains_iff key

/-- A document with all mandatory keys passes. -/
theorem checked_of_all (hall : ∀ key ∈ mandatoryKeys, doc.Has key) :
    checked doc = Run.ok doc := by
  have hnone : mandatoryKeys.find? (fun key => !Mapping.contains doc.data key) = none := by
    rw [List.find?_eq_none]
    intro key hkey
    simp [(contains_iff_has hdoc key).mpr (hall key hkey)]
  rw [checked, hnone]

/-- The check stops at the first key that is missing. -/
theorem checked_of_first {before after : List String} {key : String}
    (hkeys : mandatoryKeys = before ++ key :: after) (hbefore : ∀ k ∈ before, doc.Has k)
    (hkey : ¬ doc.Has key) : checked doc = Run.error (.missingKey doc.path key) := by
  have hfirst :
      mandatoryKeys.find? (fun key => !Mapping.contains doc.data key) = some key := by
    rw [List.find?_eq_some_iff_append]
    refine ⟨?_, before, after, hkeys, ?_⟩
    · rw [← contains_iff_has hdoc] at hkey
      simpa using hkey
    · intro k hk
      simp [(contains_iff_has hdoc k).mpr (hbefore k hk)]
  rw [checked, hfirst]

end Checked

/-! ## Parses with and without the check -/

theorem parse_unchecked (settings : Settings) (source : Location) :
    parse { settings with checkMandatoryKeys := false } source =
      fileIn (contextOf settings source) source.contents :=
  rfl

theorem parse_checked (settings : Settings) (source : Location) :
    parse { settings with checkMandatoryKeys := true } source =
      Run.bind (fileIn (contextOf settings source) source.contents) checked :=
  rfl

/-- **Mandatory keys are checked last, and at the root alone.** No file is refused for a
key that it lacks, in whatever context it is parsed, and neither is a parse without the
check. With the check, a parse makes the same requests as without, ends with the same
error, and comes to the same document if that has all five keys at its top; otherwise it
names the root and the first key, in the order of the list, that the document lacks. -/
theorem mandatory_keys_at_root (settings : Settings) (source : Location) :
    mandatoryKeys = ["author", "version", "title", "statement", "formState"] ∧
    (∀ ctx contents path key, (fileIn ctx contents).result ≠ .error (.missingKey path key)) ∧
    (∀ path key, (parse { settings with checkMandatoryKeys := false } source).result ≠
      .error (.missingKey path key)) ∧
    (parse { settings with checkMandatoryKeys := true } source).calls =
      (parse { settings with checkMandatoryKeys := false } source).calls ∧
    (∀ e, (parse { settings with checkMandatoryKeys := false } source).result = .error e →
      (parse { settings with checkMandatoryKeys := true } source).result = .error e) ∧
    (∀ doc, (parse { settings with checkMandatoryKeys := false } source).result = .ok doc →
      ((∀ key ∈ mandatoryKeys, doc.Has key) →
        (parse { settings with checkMandatoryKeys := true } source).result = .ok doc) ∧
      (∀ before key after, mandatoryKeys = before ++ key :: after →
        (∀ k ∈ before, doc.Has k) → ¬ doc.Has key →
        (parse { settings with checkMandatoryKeys := true } source).result =
          .error (.missingKey source.path key))) := by
  rw [parse_unchecked, parse_checked]
  refine ⟨rfl, ?_, ?_, ?_, ?_, ?_⟩
  · exact fileIn_ne_missingKey
  · exact fileIn_ne_missingKey _ _
  · cases hfile : (fileIn (contextOf settings source) source.contents).result with
    | ok doc => rw [Run.calls_bind_of_ok _ hfile, checked_calls, List.append_nil]
    | error e => simp only [Run.bind, hfile]
  · intro e he
    exact Run.result_bind_of_error _ he
  · intro doc hdoc
    have hordered := fileIn_ordered hdoc
    have hpath : doc.path = source.path := (fileIn_header hdoc).1
    rw [Run.result_bind_of_ok _ hdoc]
    constructor
    · intro hall
      rw [checked_of_all hordered hall]
      rfl
    · intro before key after hkeys hbefore hkey
      rw [checked_of_first hordered hkeys hbefore hkey, hpath]
      rfl

/-! Files that inherit three of the five keys, and one whose line has no shape. -/

def partialResolver : Resolver := fun q =>
  if q.uri = "b" then
    some ⟨"author = A\nversion = 1\ntitle = T".toUTF8, ⟨0, "b"⟩, 0⟩
  else none

/-- An heir that adds the two other keys passes, one that adds only the first of them
lacks the second, and a line that is at fault is reported before any missing key. -/
theorem mandatory_keys_at_root_heirs :
    (∃ doc, (parse ⟨partialResolver, [], 64, true⟩
      ⟨"extends = b\nstatement = S\nformState =".toUTF8, ⟨0, "a"⟩, 0⟩).result = .ok doc) ∧
    (parse ⟨partialResolver, [], 64, true⟩
      ⟨"extends = b\nstatement = S".toUTF8, ⟨0, "a"⟩, 0⟩).result =
        .error (.missingKey ⟨0, "a"⟩ "formState") ∧
    (parse ⟨partialResolver, [], 64, true⟩ ⟨"?".toUTF8, ⟨0, "a"⟩, 0⟩).result =
      .error (.line ⟨⟨0, "a"⟩, "?", 1⟩ .shapeless) := by
  have hwhole : ((parse ⟨partialResolver, [], 64, false⟩
      ⟨"extends = b\nstatement = S\nformState =".toUTF8, ⟨0, "a"⟩, 0⟩).result.toOption.map
        fun doc => doc.data.map (·.1)) =
      some ["author", "formState", "statement", "title", "version"] := by decide +kernel
  have hlacking : ((parse ⟨partialResolver, [], 64, false⟩
      ⟨"extends = b\nstatement = S".toUTF8, ⟨0, "a"⟩, 0⟩).result.toOption.map
        fun doc => doc.data.map (·.1)) =
      some ["author", "statement", "title", "version"] := by decide +kernel
  have hfaulty : (parse ⟨partialResolver, [], 64, false⟩
      ⟨"?".toUTF8, ⟨0, "a"⟩, 0⟩).result =
      .error (.line ⟨⟨0, "a"⟩, "?", 1⟩ .shapeless) := rfl
  obtain ⟨whole, hwhole, hkeys⟩ := Option.map_eq_some_iff.mp hwhole
  obtain ⟨lacking, hlacking, hkeys'⟩ := Option.map_eq_some_iff.mp hlacking
  obtain ⟨-, -, -, -, -, hreturns⟩ := mandatory_keys_at_root ⟨partialResolver, [], 64, true⟩
    ⟨"extends = b\nstatement = S\nformState =".toUTF8, ⟨0, "a"⟩, 0⟩
  obtain ⟨-, -, -, -, -, hreturns'⟩ := mandatory_keys_at_root ⟨partialResolver, [], 64, true⟩
    ⟨"extends = b\nstatement = S".toUTF8, ⟨0, "a"⟩, 0⟩
  obtain ⟨-, -, -, -, hfails, -⟩ := mandatory_keys_at_root ⟨partialResolver, [], 64, true⟩
    ⟨"?".toUTF8, ⟨0, "a"⟩, 0⟩
  refine ⟨⟨whole, (hreturns _ (Run.result_of_toOption hwhole)).1 ?_⟩,
    (hreturns' _ (Run.result_of_toOption hlacking)).2
      ["author", "version", "title", "statement"] "formState" [] rfl ?_ ?_,
    hfails _ hfaulty⟩
  · simp only [Document.Has, hkeys]
    decide
  · simp only [Document.Has, hkeys']
    decide
  · simp only [Document.Has, hkeys']
    decide

end Parse

end ExerciseDoc
