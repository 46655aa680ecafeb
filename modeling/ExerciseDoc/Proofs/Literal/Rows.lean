import ExerciseDoc.Proofs.Literal.Numbers

/-!
# Literal — rows and entries

`Row` is the notation of elements between brackets, and `Entry` that of a key with its value.
A reader `Reads` a notation if it finds it behind blanks and in front of anything that cannot
go on with it, and finds nothing else. Items and entries are read by one loop (`items_eq_row`,
`entries_eq_row`), which reads rows of whatever the reader of its elements reads
(`Reads.map_row_eq_some`).
-/

namespace ExerciseDoc.Literal

open Text (Reader Blanks Stops stops_cons isBlank isDigit dropBlanks)

variable {α : Type}

/-! ## The notation -/

/-- Elements with commas between them, blanks around each of them, and perhaps a comma behind
the last one. The flag tells whether there is a comma. -/
inductive Row (E : List Char → α → Prop) : List Char → List α → Bool → Prop where
  | nil {w : List Char} : Blanks w → Row E w [] false
  | last {w body w' : List Char} {a : α} : Blanks w → E body a → Blanks w' →
      Row E (w ++ (body ++ w')) [a] false
  | more {w body w' cs : List Char} {a : α} {as : List α} {comma : Bool} :
      Blanks w → E body a → Blanks w' → Row E cs as comma →
      Row E (w ++ (body ++ (w' ++ ',' :: cs))) (a :: as) true

/-- A literal that stands for a text, a colon and a literal. -/
inductive Entry (D : List Char → Value → Prop) : List Char → String × Value → Prop where
  | mk {k w w' body : List Char} {key : String} {v : Value} : D k (.text key) → Blanks w →
      Blanks w' → D body v → Entry D (k ++ (w ++ ':' :: (w' ++ body))) (key, v)

theorem Row.mono {E E' : List Char → α → Prop} (hE : ∀ {cs a}, E cs a → E' cs a)
    {cs : List Char} {as : List α} {comma : Bool} (h : Row E cs as comma) : Row E' cs as comma := by
  induction h with
  | nil hw => exact .nil hw
  | last hw hbody hw' => exact .last hw (hE hbody) hw'
  | more hw hbody hw' _ ih => exact .more hw (hE hbody) hw' ih

theorem Row.blanks_append {E : List Char → α → Prop} {w cs : List Char} {as : List α}
    {comma : Bool} (hw : Blanks w) (h : Row E cs as comma) : Row E (w ++ cs) as comma := by
  have hblanks : ∀ {w'}, Blanks w' → Blanks (w ++ w') :=
    fun hw' => List.forall_mem_append.mpr ⟨hw, hw'⟩
  cases h with
  | nil hw₁ => exact .nil (hblanks hw₁)
  | last hw₁ hbody hw₂ =>
      rw [← List.append_assoc]
      exact .last (hblanks hw₁) hbody hw₂
  | more hw₁ hbody hw₂ hrow =>
      rw [← List.append_assoc]
      exact .more (hblanks hw₁) hbody hw₂ hrow

theorem Entry.mono {D D' : List Char → Value → Prop} (hD : ∀ {cs v}, D cs v → D' cs v)
    {cs : List Char} {e : String × Value} (h : Entry D cs e) : Entry D' cs e := by
  cases h with
  | mk hkey hw hw' hbody => exact .mk (hD hkey) hw hw' (hD hbody)

/-! ## Characters -/

/-- The characters that literals start with. -/
def isStart (c : Char) : Bool :=
  isDigit c ||
    ['[', '(', '\x7b', '\'', '"', '+', '-', '.', 'T', 't', 'F', 'f', 'N', 'n'].contains c

/-- Letters and digits are ranges of code points between `0` and `z`. -/
theorem toNat_of_isAlphanum {c : Char} (h : c.isAlphanum) : 0x30 ≤ c.toNat ∧ c.toNat ≤ 0x7A := by
  have hupper : c.isUpper → 0x41 ≤ c.toNat ∧ c.toNat ≤ 0x5A := of_decide_eq_true
  have hlower : c.isLower → 0x61 ≤ c.toNat ∧ c.toNat ≤ 0x7A := fun h =>
    (Bool.and_eq_true_iff.mp h).imp of_decide_eq_true of_decide_eq_true
  have hdigit : c.isDigit → 0x30 ≤ c.toNat ∧ c.toNat ≤ 0x39 := Char.isDigit_iff_toNat.mp
  rcases Bool.or_eq_true_iff.mp h with hletter | h
  · rcases Bool.or_eq_true_iff.mp hletter with h | h
    · have := hupper h
      omega
    · have := hlower h
      omega
  · have := hdigit h
    omega

theorem isTokenChar_of_isBlank {c : Char} (h : isBlank c) : isTokenChar c = false := by
  rw [Bool.eq_false_iff]
  intro htoken
  have hrange : 0x2E ≤ c.toNat ∧ c.toNat ≤ 0x7A := by
    simp only [isTokenChar, isKeywordChar, Bool.or_eq_true, beq_iff_eq] at htoken
    rcases htoken with (halnum | rfl) | rfl
    · exact (toNat_of_isAlphanum halnum).imp_left (Nat.le_trans (by decide))
    · decide
    · decide
  -- Blanks lie below and above the characters of a token.
  simp only [isBlank, Bool.or_eq_true, Bool.and_eq_true, decide_eq_true_eq, beq_iff_eq] at h
  omega

theorem isBlank_of_isStart {c : Char} (h : isStart c) : isBlank c = false := by
  rw [isStart, Bool.or_eq_true] at h
  rcases h with h | h
  · rw [Bool.eq_false_iff]
    intro hblank
    have hother := isTokenChar_of_isBlank hblank
    rw [isTokenChar_of_isDigit h] at hother
    cases hother
  · have hall : ['[', '(', '\x7b', '\'', '"', '+', '-', '.', 'T', 't', 'F', 'f', 'N',
      'n'].all fun d => !isBlank d := rfl
    simpa using List.all_eq_true.mp hall c (List.contains_iff_mem.mp h)

variable {w cs rest body : List Char} {c : Char}

/-- Blanks and what stands behind them do not go on with a keyword or a number. -/
theorem stops_isTokenChar (hw : Blanks w) (hrest : Stops isTokenChar rest) :
    Stops isTokenChar (w ++ rest) :=
  Stops.append (fun c hc => isTokenChar_of_isBlank (hw c hc)) hrest

/-- The reader reads what `E` describes, behind blanks and in front of what cannot go on
with it, and reads nothing else. -/
structure Reads (reader : Reader α) (E : List Char → α → Prop) : Prop where
  sound : ∀ {cs a rest}, reader cs = some (a, rest) →
    ∃ w body, cs = w ++ (body ++ rest) ∧ Blanks w ∧ E body a
  complete : ∀ {w body a rest}, Blanks w → E body a → Stops isTokenChar rest →
    reader (w ++ (body ++ rest)) = some (a, rest)
  starts : ∀ {body a}, E body a → ∃ c tail, body = c :: tail ∧ isStart c

/-! ## Rows -/

/-- Elements up to a closing character, and whether there is a comma. -/
def row (reader : Reader α) (close : Char) : Nat → Reader (List α × Bool)
  | 0, _ => none
  | rounds + 1, cs =>
    match dropBlanks cs with
    | [] => none
    | c :: cs =>
      if c = close then some (([], false), cs)
      else
        match reader (c :: cs) with
        | none => none
        | some (a, cs) =>
          match dropBlanks cs with
          | [] => none
          | c :: cs =>
            if c = ',' then
              (row reader close rounds cs).map fun ((as, _), rest) => ((a :: as, true), rest)
            else if c = close then some (([a], false), cs)
            else none

/-- A key, a colon and a value. -/
def entry (element : Reader Value) : Reader (String × Value) := fun cs =>
  match element cs with
  | some (.text key, cs) =>
    match dropBlanks cs with
    | ':' :: cs => (element cs).map fun (v, rest) => ((key, v), rest)
    | _ => none
  | _ => none

theorem items_eq_row (element : Reader Value) (close : Char) (rounds : Nat) (cs : List Char) :
    items element close rounds cs = row element close rounds cs := by
  induction rounds generalizing cs with
  | zero => rfl
  | succ rounds ih =>
      simp only [items, row, ih]
      cases dropBlanks cs with
      | nil => rfl
      | cons c tail =>
          cases helement : element (c :: tail) with
          | none => simp only [helement]
          | some read =>
              cases hbehind : dropBlanks read.2 with
              | nil => simp only [helement, hbehind]
              | cons d tail' => simp only [helement, hbehind]

theorem entries_eq_row (element : Reader Value) (rounds : Nat) (cs : List Char) :
    entries element rounds cs =
      (row (entry element) '\x7d' rounds cs).map fun ((es, _), rest) => (es, rest) := by
  induction rounds generalizing cs with
  | zero => rfl
  | succ rounds ih =>
      simp only [entries, row, entry, ih]
      cases dropBlanks cs with
      | nil => rfl
      | cons c tail =>
          by_cases hclose : c = '\x7d'
          · simp [hclose]
          · simp only [if_neg hclose]
            cases element (c :: tail) with
            | none => rfl
            | some read =>
                obtain ⟨key, behind⟩ := read
                cases key with
                | text key =>
                    dsimp only
                    cases dropBlanks behind with
                    | nil => rfl
                    | cons d tail =>
                        by_cases hcolon : d = ':'
                        · subst hcolon
                          cases helement : element tail with
                          | none => simp only [helement, Option.map_none]
                          | some read =>
                              simp only [helement, Option.map_some]
                              cases dropBlanks read.2 with
                              | nil => rfl
                              | cons c tail =>
                                  dsimp only
                                  split
                                  · simp only [Option.map_map]
                                    rfl
                                  · split <;> rfl
                        · simp [hcolon]
                | _ => rfl

variable {reader : Reader α} {E : List Char → α → Prop} {close : Char}

/-- A row is read up to its closing character, and nothing else is. -/
theorem Reads.row_sound (h : Reads reader E) {rounds : Nat} {as : List α} {comma : Bool}
    (hread : row reader close rounds cs = some ((as, comma), rest)) :
    ∃ body, cs = body ++ close :: rest ∧ Row E body as comma := by
  induction rounds generalizing cs as comma with
  | zero => cases hread
  | succ rounds ih =>
      obtain ⟨w, hcs, hw, -⟩ := Text.exists_dropBlanks cs
      rw [row] at hread
      split at hread
      · cases hread
      · rename_i c tail hdrop
        rw [hdrop] at hcs
        split at hread
        · rename_i hclose
          cases hread
          exact ⟨w, by rw [hcs, hclose], .nil hw⟩
        · split at hread
          · cases hread
          · rename_i a behind hreader
            obtain ⟨w₁, body, hcons, hw₁, hbody⟩ := h.sound hreader
            have hblanks : Blanks (w ++ w₁) := List.forall_mem_append.mpr ⟨hw, hw₁⟩
            obtain ⟨w', hbehind, hw', -⟩ := Text.exists_dropBlanks behind
            split at hread
            · cases hread
            · rename_i d tail' hdrop'
              rw [hdrop'] at hbehind
              split at hread
              · rename_i hcomma
                obtain ⟨⟨⟨as', _⟩, _⟩, hothers, hpair⟩ := Option.map_eq_some_iff.mp hread
                cases hpair
                obtain ⟨body', rfl, hrow⟩ := ih hothers
                refine ⟨_, ?_, .more hblanks hbody hw' hrow⟩
                rw [hcs, hcons, hbehind, hcomma]
                simp only [List.append_assoc, List.cons_append]
              · split at hread <;> cases hread
                rename_i hclose
                refine ⟨_, ?_, .last hblanks hbody hw'⟩
                rw [hcs, hcons, hbehind, hclose]
                simp only [List.append_assoc]

/-- One round of a row: an element, blanks, and the character that decides what is next. -/
theorem Reads.row_element (h : Reads reader E) (hclose : isStart close = false)
    {w body w' : List Char} {a : α} (hw : Blanks w) (hbody : E body a) (hw' : Blanks w')
    {c : Char} (hblank : isBlank c = false) (htoken : isTokenChar c = false) (rounds : Nat)
    (cs : List Char) :
    row reader close (rounds + 1) (w ++ (body ++ (w' ++ c :: cs))) =
      if c = ',' then
        (row reader close rounds cs).map fun ((as, _), rest) => ((a :: as, true), rest)
      else if c = close then some (([a], false), cs)
      else none := by
  obtain ⟨d, tail, rfl, hd⟩ := h.starts hbody
  have hdrop : dropBlanks (w ++ (d :: tail ++ (w' ++ c :: cs))) = d :: (tail ++ (w' ++ c :: cs)) :=
    Text.dropBlanks_append hw (stops_cons.mpr (isBlank_of_isStart hd))
  have hread : reader (d :: (tail ++ (w' ++ c :: cs))) = some (a, w' ++ c :: cs) :=
    h.complete Text.blanks_nil hbody (stops_isTokenChar hw' (stops_cons.mpr htoken))
  have hne : d ≠ close := by
    rintro rfl
    rw [hclose] at hd
    cases hd
  rw [row, hdrop]
  simp only [if_neg hne, hread, Text.dropBlanks_append hw' (stops_cons.mpr hblank)]

/-- **A row is read whole.** -/
theorem Reads.row_complete (h : Reads reader E) (hclose : close ∈ [']', ')', '\x7d'])
    {as : List α} {comma : Bool} (hrow : Row E body as comma) {rounds : Nat}
    (hrounds : body.length < rounds) (rest : List Char) :
    row reader close rounds (body ++ close :: rest) = some ((as, comma), rest) := by
  have hmark : isStart close = false ∧ isTokenChar close = false ∧ isBlank close = false ∧
      close ≠ ',' := by
    simp only [List.mem_cons, List.not_mem_nil, or_false] at hclose
    rcases hclose with rfl | rfl | rfl <;> decide
  obtain ⟨hstart, htoken, hblank, hcomma⟩ := hmark
  induction hrow generalizing rounds with
  | nil hw =>
      obtain ⟨rounds, rfl⟩ : ∃ k, rounds = k + 1 := ⟨rounds - 1, by omega⟩
      rw [row, Text.dropBlanks_append hw (stops_cons.mpr hblank)]
      exact if_pos rfl
  | last hw hbody hw' =>
      obtain ⟨rounds, rfl⟩ : ∃ k, rounds = k + 1 := ⟨rounds - 1, by omega⟩
      rw [List.append_assoc, List.append_assoc,
        h.row_element hstart hw hbody hw' hblank htoken, if_neg hcomma, if_pos rfl]
  | more hw hbody hw' _ ih =>
      obtain ⟨rounds, rfl⟩ : ∃ k, rounds = k + 1 := ⟨rounds - 1, by omega⟩
      simp only [List.append_assoc, List.cons_append]
      rw [h.row_element hstart hw hbody hw' rfl rfl, if_pos rfl, ih]
      · rfl
      · simp only [List.length_append, List.length_cons] at hrounds
        omega

/-- What is made of the elements of a row is read off the text of the row. -/
theorem Reads.map_row_eq_some (h : Reads reader E) (hclose : close ∈ [']', ')', '\x7d'])
    (make : List α → Bool → Value) {v : Value} :
    (row reader close (cs.length + 1) cs).map (fun x => (make x.1.1 x.1.2, x.2)) =
        some (v, rest) ↔
      ∃ body as comma, cs = body ++ close :: rest ∧ Row E body as comma ∧ v = make as comma := by
  rw [Option.map_eq_some_iff]
  constructor
  · rintro ⟨⟨⟨as, comma⟩, _⟩, hread, hpair⟩
    cases hpair
    obtain ⟨body, hcs, hrow⟩ := h.row_sound hread
    exact ⟨body, as, comma, hcs, hrow, rfl⟩
  · rintro ⟨body, as, comma, rfl, hrow, rfl⟩
    refine ⟨((as, comma), rest), h.row_complete hclose hrow ?_ rest, rfl⟩
    rw [List.length_append]
    omega

/-! ## Entries -/

theorem Reads.entry {element : Reader Value} {D : List Char → Value → Prop}
    (h : Reads element D) : Reads (Literal.entry element) (Entry D) where
  sound := by
    intro cs e rest hread
    unfold Literal.entry at hread
    split at hread
    · rename_i key behind helement
      obtain ⟨w₀, k, rfl, hw₀, hk⟩ := h.sound helement
      obtain ⟨w, hbehind, hw, -⟩ := Text.exists_dropBlanks behind
      split at hread
      · rename_i tail hdrop
        obtain ⟨⟨v, _⟩, hvalue, hpair⟩ := Option.map_eq_some_iff.mp hread
        cases hpair
        obtain ⟨w', body, rfl, hw', hbody⟩ := h.sound hvalue
        refine ⟨w₀, _, ?_, hw₀, .mk hk hw hw' hbody⟩
        rw [hbehind, hdrop]
        simp only [List.append_assoc, List.cons_append]
      · cases hread
    · cases hread
  complete := by
    rintro w₀ _ _ rest hw₀ @⟨k, w, w', body, key, v, hk, hw, hw', hbody⟩ hrest
    have hkey : element (w₀ ++ (k ++ (w ++ ':' :: (w' ++ (body ++ rest))))) =
        some (.text key, w ++ ':' :: (w' ++ (body ++ rest))) :=
      h.complete hw₀ hk (stops_isTokenChar hw (stops_cons.mpr rfl))
    have hdrop : dropBlanks (w ++ ':' :: (w' ++ (body ++ rest))) = ':' :: (w' ++ (body ++ rest)) :=
      Text.dropBlanks_append hw (stops_cons.mpr rfl)
    simp only [List.append_assoc, List.cons_append, Literal.entry, hkey, hdrop,
      h.complete hw' hbody hrest]
    rfl
  starts := by
    rintro _ _ @⟨k, w, w', body, key, v, hk, -, -, -⟩
    obtain ⟨c, tail, rfl, hc⟩ := h.starts hk
    exact ⟨c, _, rfl, hc⟩

end ExerciseDoc.Literal
