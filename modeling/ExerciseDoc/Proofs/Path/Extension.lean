import ExerciseDoc.Path
import ExerciseDoc.Proofs.Text.Fields

/-!
# Path — extensions

The extension of a path is the text behind the last dot of the text behind the last
slash (`extension_eq_iff`). A text with neither dot nor slash in it is the extension of
every path that it is put to behind a dot (`extension_append`), whatever that path is.
-/

namespace ExerciseDoc.Path

open Text (IsLastField exists_isLastField getLast?_splitOn_iff)

/-- The text behind the last dot of the text behind the last slash. -/
def IsExtension (p e : List Char) : Prop :=
  ∃ name, IsLastField '/' p name ∧ IsLastField '.' name e

theorem extension_eq_iff {p e : String} :
    extension p = e ↔ IsExtension p.toList e.toList := by
  obtain ⟨name, hname⟩ := exists_isLastField '/' p.toList
  obtain ⟨last, hlast⟩ := exists_isLastField '.' name
  have hextension : extension p = String.ofList last := by
    simp only [extension, getLast?_splitOn_iff.mpr hname, Option.getD_some,
      getLast?_splitOn_iff.mpr hlast]
  rw [hextension, ← String.toList_inj, String.toList_ofList]
  constructor
  · rintro rfl
    exact ⟨name, hname, hlast⟩
  · -- Both last fields are the only ones of their texts.
    rintro ⟨name', hname', hlast'⟩
    rw [← getLast?_splitOn_iff] at hname hname' hlast hlast'
    rw [hname] at hname'
    cases hname'
    rw [hlast] at hlast'
    exact Option.some.inj hlast'

theorem isExtension_append (stem : List Char) {e : List Char} (hdot : '.' ∉ e)
    (hslash : '/' ∉ e) : IsExtension (stem ++ '.' :: e) e := by
  obtain ⟨name, hfree, hname⟩ := exists_isLastField '/' stem
  refine ⟨name ++ '.' :: e, ⟨?_, ?_⟩, hdot, .inr ⟨name, rfl⟩⟩
  · simp [hfree, hslash]
  · rcases hname with rfl | ⟨front, rfl⟩
    · exact .inl rfl
    · exact .inr ⟨front, by rw [List.append_assoc, List.cons_append]⟩

theorem extension_append (stem : String) {e : String} (hdot : '.' ∉ e.toList)
    (hslash : '/' ∉ e.toList) : extension (stem ++ "." ++ e) = e := by
  rw [extension_eq_iff, String.toList_append, String.toList_append, List.append_assoc]
  exact isExtension_append stem.toList hdot hslash

end ExerciseDoc.Path
