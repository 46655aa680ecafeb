import ExerciseDoc.Proofs.Json.Containers
import ExerciseDoc.Proofs.Json.Tokens
import ExerciseDoc.Proofs.Literal.Grammar

/-!
# Json — texts that are literals as well

Words, strings, numbers, arrays and objects of JSON are atoms and layers of literals with the
same meaning, as long as their tokens are plain. A reader of JSON therefore takes a literal off
a text of plain tokens and leaves plain tokens (`value_readsPlain`), one case for each kind of
value, and the text as a whole is a literal of the same value (`literal_of_read?`).
-/

namespace ExerciseDoc.Json

open Text (Reader Blanks)
open Literal (Atom Denotes)

variable {α : Type} {cs rest : List Char} {a : α} {v : Value} {c : Char}

/-- The text up to `rest` is what `E` describes, and the tokens behind it are plain. -/
def Taken (E : List Char → α → Prop) (cs : List Char) (a : α) (rest : List Char) : Prop :=
  ∃ body, cs = body ++ rest ∧ E body a ∧ PlainFrom .outside rest

theorem Taken.imp {E E' : List Char → α → Prop} (hE : ∀ {cs}, E cs a → E' cs a)
    (h : Taken E cs a rest) : Taken E' cs a rest := by
  obtain ⟨body, hcs, hbody, hrest⟩ := h
  exact ⟨body, hcs, hE hbody, hrest⟩

/-- From texts whose tokens are plain the reader takes what `E` describes, behind blanks. -/
def ReadsPlain (reader : Reader α) (E : List Char → α → Prop) : Prop :=
  ∀ cs a rest, reader cs = some (a, rest) → PlainFrom .outside cs →
    ∃ w tail, cs = w ++ tail ∧ Blanks w ∧ Taken E tail a rest

/-! ## What has no tokens -/

theorem plainFrom_of_idle {w : List Char} (hw : ∀ c ∈ w, isIdle c)
    (hplain : PlainFrom .outside (w ++ cs)) : PlainFrom .outside cs := by
  unfold PlainFrom at hplain ⊢
  rwa [tokensFrom_append hw] at hplain

theorem plainFrom_tail (hc : isIdle c) (hplain : PlainFrom .outside (c :: cs)) :
    PlainFrom .outside cs :=
  plainFrom_of_idle (List.forall_mem_singleton.mpr hc) hplain

/-- Blanks of the notation are blanks of literals, and plain tokens stand behind them. -/
theorem exists_dropJsonBlanks (hplain : PlainFrom .outside cs) :
    ∃ w, cs = w ++ dropJsonBlanks cs ∧ Blanks w ∧ PlainFrom .outside (dropJsonBlanks cs) := by
  have hblank : ∀ c ∈ cs.takeWhile isJsonBlank, isJsonBlank c := fun _ => List.mem_takeWhile_imp
  have hcs : cs.takeWhile isJsonBlank ++ dropJsonBlanks cs = cs :=
    List.takeWhile_append_dropWhile
  rw [← hcs] at hplain
  exact ⟨_, hcs.symm, fun c hc => isBlank_of_isJsonBlank (hblank c hc),
    plainFrom_of_idle (fun c hc => isIdle_of_isJsonBlank (hblank c hc)) hplain⟩

/-! ## Rows -/

section Rows

variable {reader : Reader α} {E : List Char → α → Prop} {close : Char}

theorem ReadsPlain.row (h : ReadsPlain reader E) (hclose : isIdle close) {rounds : Nat}
    {as : List α} (hread : row close reader rounds cs = some (as, rest))
    (hplain : PlainFrom .outside cs) :
    ∃ body comma, cs = body ++ close :: rest ∧ Literal.Row E body as comma ∧
      PlainFrom .outside rest := by
  induction rounds generalizing cs as with
  | zero => cases hread
  | succ rounds ih =>
      obtain ⟨a, behind, c, tail, ha, hdrop, hnext⟩ := row_cases hread
      obtain ⟨w, _, rfl, hw, body, rfl, hbody, hbehind⟩ := h _ _ _ ha hplain
      obtain ⟨w', hcs, hw', htail⟩ := exists_dropJsonBlanks hbehind
      rw [hdrop] at hcs htail
      rcases hnext with ⟨rfl, others, rfl, hothers⟩ | ⟨rfl, rfl, rfl⟩
      · obtain ⟨body', comma, rfl, hrow, hrest⟩ := ih hothers (plainFrom_tail rfl htail)
        exact ⟨_, true, by simp [hcs], .more hw hbody hw' hrow, hrest⟩
      · exact ⟨_, false, by simp [hcs], .last hw hbody hw', plainFrom_tail hclose htail⟩

/-- Between its brackets a container is a row. -/
theorem ReadsPlain.container (h : ReadsPlain reader E) (hclose : isIdle close)
    {make : List α → Value} (hread : container close reader make cs = some (v, rest))
    (hplain : PlainFrom .outside cs) :
    ∃ body as comma, cs = body ++ close :: rest ∧ Literal.Row E body as comma ∧ v = make as ∧
      PlainFrom .outside rest := by
  obtain ⟨w, hcs, hw, hbehind⟩ := exists_dropJsonBlanks hplain
  rcases container_cases hread with ⟨hempty, rfl⟩ | ⟨rounds, as, hrow, rfl⟩
  · rw [hempty] at hcs hbehind
    exact ⟨w, [], false, hcs, .nil hw, rfl, plainFrom_tail hclose hbehind⟩
  · obtain ⟨body, comma, hbody, hrow, hrest⟩ := h.row hclose hrow hbehind
    exact ⟨w ++ body, as, comma, by rw [hcs, hbody, List.append_assoc], hrow.blanks_append hw,
      rfl, hrest⟩

end Rows

/-! ## Atoms -/

theorem taken_of_word {w : List Char} {u : Value} (hword : Literal.IsKeyword (c :: w) u)
    (hidle : (c :: w).all isIdle) (hread : word w u cs = some (v, rest))
    (hplain : PlainFrom .outside (c :: cs)) : Taken Atom (c :: cs) v rest := by
  obtain ⟨tail, hprefix, hpair⟩ := Option.map_eq_some_iff.mp hread
  cases hpair
  rw [List.isPrefixOf?_eq_some_iff_append_eq] at hprefix
  subst hprefix
  exact ⟨_, rfl, .keyword hword, plainFrom_of_idle (List.all_eq_true.mp hidle) hplain⟩

theorem taken_of_stringBody {s : List Char} (hread : stringBody cs = some (s, rest))
    (hplain : PlainFrom .outside ('"' :: cs)) :
    Taken Atom ('"' :: cs) (.text (String.ofList s)) rest := by
  obtain ⟨front, rfl, hspells⟩ := stringBody_eq_some.mp hread
  obtain ⟨hquoted, hrest⟩ := quoted_of_spells hspells hplain
  exact ⟨_, by simp, .text (.inr rfl) hquoted, hrest⟩

theorem taken_of_numeral (h : ∃ w n, cs = w ++ rest ∧ Literal.IsNumeral w n ∧
    n.value? = some v ∧ PlainFrom .outside rest) : Taken Atom cs v rest := by
  obtain ⟨w, n, hcs, hn, hv, hrest⟩ := h
  exact ⟨w, hcs, .number hn hv, hrest⟩

/-! ## Containers -/

section Containers

variable {element : Reader Value} {room : Nat} (h : ReadsPlain element (Denotes room))

include h

theorem entry_readsPlain : ReadsPlain (entry element) (Literal.Entry (Denotes room)) := by
  intro cs e rest hread hplain
  obtain ⟨w₀, hcs, hw₀, hkeyPlain⟩ := exists_dropJsonBlanks hplain
  unfold entry at hread
  split at hread
  · rename_i tail hdrop
    rw [hdrop] at hcs hkeyPlain
    split at hread
    · cases hread
    · rename_i key behind hstring
      obtain ⟨k, hk, hatom, hbehind⟩ := taken_of_stringBody hstring hkeyPlain
      obtain ⟨w, hcolon, hw, hvaluePlain⟩ := exists_dropJsonBlanks hbehind
      split at hread
      · rename_i tail' hdrop'
        rw [hdrop'] at hcolon hvaluePlain
        obtain ⟨⟨v, _⟩, hvalue, hpair⟩ := Option.map_eq_some_iff.mp hread
        cases hpair
        obtain ⟨w', _, rfl, hw', body, rfl, hbody, hrest⟩ :=
          h _ _ _ hvalue (plainFrom_tail rfl hvaluePlain)
        exact ⟨w₀, _, hcs, hw₀, _, by simp [hk, hcolon], .mk hatom.denotes hw hw' hbody, hrest⟩
      · cases hread
  · cases hread

theorem taken_of_array (hread : array element cs = some (v, rest))
    (hplain : PlainFrom .outside ('[' :: cs)) :
    Taken (Literal.Layer (Denotes room)) ('[' :: cs) v rest := by
  rw [array_eq_container] at hread
  obtain ⟨body, vs, comma, rfl, hrow, rfl, hrest⟩ :=
    h.container rfl hread (plainFrom_tail rfl hplain)
  exact ⟨_, by simp, .list hrow, hrest⟩

theorem taken_of_object (hread : object element cs = some (v, rest))
    (hplain : PlainFrom .outside ('\x7b' :: cs)) :
    Taken (Literal.Layer (Denotes room)) ('\x7b' :: cs) v rest := by
  rw [object_eq_container] at hread
  obtain ⟨body, es, comma, rfl, hrow, rfl, hrest⟩ :=
    (entry_readsPlain h).container rfl hread (plainFrom_tail rfl hplain)
  exact ⟨_, by simp, .mapping hrow (Mapping.gathers_iff.mpr rfl), hrest⟩

end Containers

/-! ## Values -/

theorem front_readsPlain {element : Option (Reader Value)} {room : Nat}
    (h : ∀ reader, element = some reader →
      ∃ inner, room = inner + 1 ∧ ReadsPlain reader (Denotes inner)) :
    ReadsPlain (front element) (Denotes room) := by
  intro cs v rest hread hplain
  obtain ⟨w, hcs, hw, hfront⟩ := exists_dropJsonBlanks hplain
  refine ⟨w, _, hcs, hw, ?_⟩
  have hatom : Taken Atom (dropJsonBlanks cs) v rest →
      Taken (Denotes room) (dropJsonBlanks cs) v rest := Taken.imp Atom.denotes
  -- The first character behind the blanks tells the kind of the value.
  unfold front at hread
  split at hread
  · cases hread
  · rename_i c tail hdrop
    rw [hdrop] at hfront hatom ⊢
    split at hread
    · rename_i hc
      subst hc
      exact hatom (taken_of_word .nothingLower rfl hread hfront)
    split at hread
    · rename_i hc
      subst hc
      exact hatom (taken_of_word .yesLower rfl hread hfront)
    split at hread
    · rename_i hc
      subst hc
      exact hatom (taken_of_word .noLower rfl hread hfront)
    split at hread
    · rename_i hc
      subst hc
      obtain ⟨⟨s, _⟩, hstring, hpair⟩ := Option.map_eq_some_iff.mp hread
      cases hpair
      exact hatom (taken_of_stringBody hstring hfront)
    split at hread
    · rename_i hc
      subst hc
      exact hatom (taken_of_numeral (negative_of_number hfront hread))
    split at hread
    · rename_i hc
      exact hatom (taken_of_numeral (natural_of_number hc hfront hread))
    split at hread
    · cases hread
    · rename_i reader
      obtain ⟨inner, rfl, hinner⟩ := h reader rfl
      split at hread
      · rename_i hc
        subst hc
        exact (taken_of_array hinner hread hfront).imp .inr
      · split at hread
        · rename_i hc
          subst hc
          exact (taken_of_object hinner hread hfront).imp .inr
        · cases hread

/-- **What JSON takes from a text of plain tokens is a literal**, with at most as many containers
inside each other. -/
theorem value_readsPlain (room : Nat) : ReadsPlain (value room) (Denotes room) := by
  induction room with
  | zero => exact front_readsPlain fun _ hreader => by cases hreader
  | succ room ih =>
      refine front_readsPlain fun reader hreader => ?_
      cases hreader
      exact ⟨room, rfl, ih⟩

/-- A text of JSON whose tokens are plain is a literal of the same value. Literals have room for
one container more. -/
theorem literal_of_read? (hplain : ∀ t ∈ tokens cs, t.Plain) (h : read? cs = some v) :
    Literal.read? cs = some v := by
  unfold read? at h
  split at h
  · rename_i u rest hread
    split at h
    · rename_i hrest
      cases h
      obtain ⟨w, _, rfl, hw, body, rfl, hbody, -⟩ := value_readsPlain maxNesting _ _ _ hread hplain
      have hblanks : Blanks rest :=
        fun c hc => isBlank_of_isJsonBlank (List.all_eq_true.mp hrest c hc)
      exact Literal.read?_of_denotes hw hblanks hbody.succ
    · cases h
  · cases h

end ExerciseDoc.Json
