import ExerciseDoc.Value.Literal

/-!
# Literal — strings

`Quoted` is the notation of a string between its quotes, with `Escape` for what a backslash
and the character behind it stand for. A backslash in front of any other character is kept,
and one at the end of a line joins the lines. The reader finds exactly this notation in front
of the closing quote (`stringBody_eq_some`).
-/

namespace ExerciseDoc.Literal

/-- A character behind a backslash, and the characters that both stand for. -/
inductive Escape : Char → List Char → Prop where
  | lineFeed : Escape 'n' ['\n']
  | tab : Escape 't' ['\t']
  | carriageReturn : Escape 'r' ['\r']
  | nul : Escape '0' ['\x00']
  | joined : Escape '\n' []
  | backslash : Escape '\\' ['\\']
  | quote : Escape '\'' ['\'']
  | doubleQuote : Escape '"' ['"']
  | other {c : Char} : c ∉ ['n', 't', 'r', '0', '\n', '\\', '\'', '"'] → Escape c ['\\', c]

/-- Characters between quotes, and the characters that they stand for. -/
inductive Quoted (quote : Char) : List Char → List Char → Prop where
  | nil : Quoted quote [] []
  | plain {c : Char} {cs s : List Char} : c ≠ quote → c ≠ '\\' → c ≠ '\n' →
      Quoted quote cs s → Quoted quote (c :: cs) (c :: s)
  | escaped {c : Char} {cs e s : List Char} : Escape c e →
      Quoted quote cs s → Quoted quote ('\\' :: c :: cs) (e ++ s)

/-- A backslash and the character behind it stand for what the reader makes of them. -/
theorem escape_iff {c : Char} {e : List Char} : Escape c e ↔ e = unescaped c := by
  have hother : c ∉ ['n', 't', 'r', '0', '\n', '\\', '\'', '"'] → unescaped c = ['\\', c] := by
    intro hc
    simp only [List.mem_cons, List.not_mem_nil, or_false, not_or] at hc
    simp only [unescaped, hc, if_false, or_self]
  constructor
  · intro h
    cases h with
    | other hc => exact (hother hc).symm
    | _ => rfl
  · rintro rfl
    by_cases hc : c ∈ ['n', 't', 'r', '0', '\n', '\\', '\'', '"']
    · simp only [List.mem_cons, List.not_mem_nil, or_false] at hc
      rcases hc with rfl | rfl | rfl | rfl | rfl | rfl | rfl | rfl
      · exact .lineFeed
      · exact .tab
      · exact .carriageReturn
      · exact .nul
      · exact .joined
      · exact .backslash
      · exact .quote
      · exact .doubleQuote
    · rw [hother hc]
      exact .other hc

/-- A string is read off the front of a text up to its closing quote. -/
theorem stringBody_eq_some {quote : Char} (hquote : quote ≠ '\\') {cs s rest : List Char} :
    stringBody quote cs = some (s, rest) ↔
      ∃ body, cs = body ++ quote :: rest ∧ Quoted quote body s := by
  constructor
  · intro h
    fun_induction stringBody quote cs generalizing s with
    | case1 | case2 | case5 => cases h
    | case3 c cs ih =>
        obtain ⟨⟨t, _⟩, hread, hpair⟩ := Option.map_eq_some_iff.mp h
        cases hpair
        obtain ⟨body, rfl, hbody⟩ := ih hread
        exact ⟨_, rfl, .escaped (escape_iff.mpr rfl) hbody⟩
    | case4 cs =>
        cases h
        exact ⟨[], rfl, .nil⟩
    | case6 c cs hlast hescape hc hfeed ih =>
        -- A backslash would have been the last character or the front of an escape.
        have hback : c ≠ '\\' := by
          rintro rfl
          cases cs with
          | nil => exact hlast rfl rfl
          | cons d tail => exact hescape d tail rfl rfl
        obtain ⟨⟨t, _⟩, hread, hpair⟩ := Option.map_eq_some_iff.mp h
        cases hpair
        obtain ⟨body, rfl, hbody⟩ := ih hread
        exact ⟨_, rfl, .plain hc hback hfeed hbody⟩
  · rintro ⟨body, rfl, h⟩
    induction h with
    | nil =>
        rw [List.nil_append, stringBody, if_pos rfl]
        · exact fun h => absurd h hquote
        · exact fun _ _ h => absurd h hquote
    | @plain c cs s hc hback hfeed _ ih =>
        rw [List.cons_append, stringBody, if_neg hc, if_neg hfeed, ih]
        · rfl
        · exact fun h => absurd h hback
        · exact fun _ _ h => absurd h hback
    | escaped hescape _ ih =>
        rw [List.cons_append, List.cons_append, stringBody, ih, escape_iff.mp hescape]
        rfl

end ExerciseDoc.Literal
