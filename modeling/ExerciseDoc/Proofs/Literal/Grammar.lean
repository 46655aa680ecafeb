import ExerciseDoc.Proofs.Literal.Rows
import ExerciseDoc.Proofs.Literal.Strings
import ExerciseDoc.Proofs.Value.Entries

/-!
# Literal — the grammar

`Denotes room` is the notation of literals with at most so many containers inside each
other: an atom, or one layer of notation around literals with less room. It says nothing of
how a text is read. Containers are read as layers of what their elements are read as
(`Reads.container`), and so `read?` accepts the grammar and nothing else.
-/

namespace ExerciseDoc.Literal

open Text (Reader Blanks Stops stops_cons isBlank dropBlanks)

/-! ## The grammar -/

/-- The words that stand for a value. -/
inductive IsKeyword : List Char → Value → Prop where
  | yes : IsKeyword ['T', 'r', 'u', 'e'] (.bool true)
  | yesLower : IsKeyword ['t', 'r', 'u', 'e'] (.bool true)
  | no : IsKeyword ['F', 'a', 'l', 's', 'e'] (.bool false)
  | noLower : IsKeyword ['f', 'a', 'l', 's', 'e'] (.bool false)
  | nothing : IsKeyword ['N', 'o', 'n', 'e'] .null
  | nothingLower : IsKeyword ['n', 'u', 'l', 'l'] .null

/-- A keyword, a number that is worth a value, or a string in quotes of one kind. -/
inductive Atom : List Char → Value → Prop where
  | keyword {w : List Char} {v : Value} : IsKeyword w v → Atom w v
  | number {w : List Char} {n : Numeral} {v : Value} : IsNumeral w n → n.value? = some v →
      Atom w v
  | text {quote : Char} {body s : List Char} : quote = '\'' ∨ quote = '"' →
      Quoted quote body s → Atom (quote :: (body ++ [quote])) (.text (String.ofList s))

/-- A container of literals. Round brackets around a single item without a comma are the item
itself; of entries with one key the last one counts. -/
inductive Layer (D : List Char → Value → Prop) : List Char → Value → Prop where
  | list {cs : List Char} {vs : List Value} {comma : Bool} : Row D cs vs comma →
      Layer D ('[' :: (cs ++ [']'])) (.list vs)
  | single {cs : List Char} {v : Value} : Row D cs [v] false → Layer D ('(' :: (cs ++ [')'])) v
  | tuple {cs : List Char} {vs : List Value} {comma : Bool} : Row D cs vs comma →
      ¬ (vs.length = 1 ∧ comma = false) → Layer D ('(' :: (cs ++ [')'])) (.list vs)
  | mapping {cs : List Char} {es : List (String × Value)} {comma : Bool} {m : Mapping} :
      Row (Entry D) cs es comma → Mapping.Gathers es m →
      Layer D ('\x7b' :: (cs ++ ['\x7d'])) (.mapping m)

/-- A text without blanks around it is one literal that stands for a value, with at most so
many containers inside each other. -/
def Denotes : Nat → List Char → Value → Prop
  | 0 => Atom
  | room + 1 => fun cs v => Atom cs v ∨ Layer (Denotes room) cs v

variable {w cs rest body : List Char} {c : Char}

theorem Atom.denotes {room : Nat} {v : Value} (h : Atom cs v) : Denotes room cs v := by
  cases room with
  | zero => exact h
  | succ room => exact .inl h

theorem Layer.mono {D D' : List Char → Value → Prop} (hD : ∀ {cs v}, D cs v → D' cs v)
    {v : Value} (h : Layer D cs v) : Layer D' cs v := by
  cases h with
  | list hrow => exact .list (hrow.mono hD)
  | single hrow => exact .single (hrow.mono hD)
  | tuple hrow hone => exact .tuple (hrow.mono hD) hone
  | mapping hrow hm => exact .mapping (hrow.mono (Entry.mono hD)) hm

/-- More room does no harm. -/
theorem Denotes.succ {room : Nat} {v : Value} (h : Denotes room cs v) :
    Denotes (room + 1) cs v := by
  induction room generalizing cs v with
  | zero => exact Atom.denotes h
  | succ room ih => exact h.imp_right (Layer.mono ih)

/-! ## Containers -/

/-- What round brackets around items stand for. -/
def rounded : List Value → Bool → Value
  | [v], false => v
  | vs, _ => .list vs

theorem rounded_eq_list {vs : List Value} {comma : Bool} (h : ¬ (vs.length = 1 ∧ comma = false)) :
    rounded vs comma = .list vs := by
  unfold rounded
  split
  · exact absurd ⟨rfl, rfl⟩ h
  · rfl

section Containers

variable (element : Reader Value) (cs : List Char)

theorem container_square : container element '[' cs =
    (row element ']' (cs.length + 1) cs).map fun x => (.list x.1.1, x.2) := by
  rw [container, if_pos rfl, items_eq_row]

theorem container_round : container element '(' cs =
    (row element ')' (cs.length + 1) cs).map fun x => (rounded x.1.1 x.1.2, x.2) := by
  rw [container, if_neg (by decide), if_pos rfl, items_eq_row]
  congr
  funext ⟨⟨vs, comma⟩, rest⟩
  rcases vs with _ | ⟨v, _ | _⟩ <;> cases comma <;> rfl

theorem container_curly : container element '\x7b' cs =
    (row (entry element) '\x7d' (cs.length + 1) cs).map fun x =>
      (.mapping (Mapping.ofEntries x.1.1), x.2) := by
  rw [container, if_neg (by decide), if_neg (by decide), entries_eq_row, Option.map_map]
  rfl

end Containers

/-- Behind an opening bracket the reader reads the rest of what `L` describes, and nothing
else. -/
structure ReadsInside (inner : Char → Reader Value) (L : List Char → Value → Prop) : Prop where
  eq_some : ∀ {c cs v rest}, isOpening c →
    (inner c cs = some (v, rest) ↔ ∃ body, c :: cs = body ++ rest ∧ L body v)
  starts : ∀ {body v}, L body v → ∃ c tail, body = c :: tail ∧ isOpening c

theorem Reads.container {element : Reader Value} {D : List Char → Value → Prop}
    (h : Reads element D) : ReadsInside (container element) (Layer D) where
  eq_some := by
    intro c cs v rest hopening
    have hcases : c = '[' ∨ c = '(' ∨ c = '\x7b' := by
      simpa [isOpening, or_assoc] using hopening
    rcases hcases with rfl | rfl | rfl
    · rw [container_square, h.map_row_eq_some (by decide) fun vs _ => .list vs]
      constructor
      · rintro ⟨body, vs, comma, rfl, hrow, rfl⟩
        exact ⟨_, by simp, .list hrow⟩
      · rintro ⟨_, hbody, hlayer⟩
        cases hlayer with
        | list hrow => exact ⟨_, _, _, by simpa using hbody, hrow, rfl⟩
        | _ => cases hbody
    · rw [container_round, h.map_row_eq_some (by decide) rounded]
      constructor
      · rintro ⟨body, vs, comma, rfl, hrow, rfl⟩
        by_cases hone : vs.length = 1 ∧ comma = false
        · obtain ⟨hlength, rfl⟩ := hone
          obtain ⟨v, rfl⟩ := List.length_eq_one_iff.mp hlength
          exact ⟨_, by simp, .single hrow⟩
        · rw [rounded_eq_list hone]
          exact ⟨_, by simp, .tuple hrow hone⟩
      · rintro ⟨_, hbody, hlayer⟩
        cases hlayer with
        | single hrow => exact ⟨_, _, _, by simpa using hbody, hrow, rfl⟩
        | tuple hrow hone =>
            exact ⟨_, _, _, by simpa using hbody, hrow, (rounded_eq_list hone).symm⟩
        | _ => cases hbody
    · rw [container_curly, h.entry.map_row_eq_some (by decide)
        fun es _ => .mapping (Mapping.ofEntries es)]
      constructor
      · rintro ⟨body, es, comma, rfl, hrow, rfl⟩
        exact ⟨_, by simp, .mapping hrow (Mapping.gathers_iff.mpr rfl)⟩
      · rintro ⟨_, hbody, hlayer⟩
        cases hlayer with
        | mapping hrow hm =>
            exact ⟨_, _, _, by simpa using hbody, hrow, by rw [Mapping.gathers_iff.mp hm]⟩
        | _ => cases hbody
  starts := by
    intro body v hlayer
    cases hlayer <;> exact ⟨_, _, rfl, rfl⟩

/-! ## Atoms -/

theorem keyword?_eq_some {v : Value} : keyword? w = some v ↔ IsKeyword w v := by
  constructor
  · intro h
    unfold keyword? at h
    split at h
    · rename_i hw
      cases h
      rcases hw with rfl | rfl
      · exact .yes
      · exact .yesLower
    · split at h
      · rename_i hw
        cases h
        rcases hw with rfl | rfl
        · exact .no
        · exact .noLower
      · split at h
        · rename_i hw
          cases h
          rcases hw with rfl | rfl
          · exact .nothing
          · exact .nothingLower
        · cases h
  · intro h
    cases h <;> rfl

/-- A keyword starts with a letter that starts nothing else. -/
theorem IsKeyword.starts {v : Value} (h : IsKeyword w v) :
    ∃ c tail, w = c :: tail ∧ isStart c ∧ ¬ isOpening c ∧ ¬ (c = '\'' ∨ c = '"') ∧
      ¬ isNumberStart c := by
  cases h <;> exact ⟨_, _, rfl, by decide⟩

theorem starts_of_isNumberStart (h : isNumberStart c) :
    isStart c ∧ ¬ isOpening c ∧ ¬ (c = '\'' ∨ c = '"') := by
  refine ⟨?_, ?_, ?_⟩
  · simp only [isNumberStart, Bool.or_eq_true, beq_iff_eq] at h
    rcases h with ((rfl | rfl) | rfl) | hdigit
    · rfl
    · rfl
    · rfl
    · simp [isStart, hdigit]
  · intro hopening
    simp only [isOpening, Bool.or_eq_true, beq_iff_eq] at hopening
    rcases hopening with (rfl | rfl) | rfl <;> cases h
  · rintro (rfl | rfl) <;> cases h

theorem isStart_of_isOpening (h : isOpening c) : isStart c := by
  simp only [isOpening, Bool.or_eq_true, beq_iff_eq] at h
  rcases h with (rfl | rfl) | rfl <;> rfl

theorem keyword_eq_some {v : Value} (h : keyword cs = some (v, rest)) :
    ∃ w, cs = w ++ rest ∧ IsKeyword w v := by
  obtain ⟨_, hv, hpair⟩ := Option.map_eq_some_iff.mp h
  cases hpair
  exact ⟨_, List.takeWhile_append_dropWhile.symm, keyword?_eq_some.mp hv⟩

theorem keyword_append {v : Value} (h : IsKeyword w v) (hrest : Stops isTokenChar rest) :
    keyword (w ++ rest) = some (v, rest) := by
  have hchars : ∀ c ∈ w, isKeywordChar c := by
    rw [← List.all_eq_true]
    cases h <;> rfl
  have hstops : Stops isKeywordChar rest := fun c hc => (Bool.or_eq_false_iff.mp (hrest c hc)).1
  rw [keyword, Text.takeWhile_append hchars hstops, Text.dropWhile_append hchars hstops,
    keyword?_eq_some.mpr h]
  rfl

theorem number_eq_some {v : Value} (h : number cs = some (v, rest)) :
    ∃ w n, cs = w ++ rest ∧ IsNumeral w n ∧ n.value? = some v := by
  unfold number at h
  split at h
  · rename_i n behind hnumeral
    obtain ⟨_, hv, hpair⟩ := Option.map_eq_some_iff.mp h
    cases hpair
    obtain ⟨w, rfl, hw⟩ := numeral_eq_some hnumeral
    exact ⟨w, n, rfl, hw, hv⟩
  · cases h

theorem number_append {n : Numeral} {v : Value} (h : IsNumeral w n) (hv : n.value? = some v)
    (hrest : Stops isTokenChar rest) : number (w ++ rest) = some (v, rest) := by
  simp only [number, numeral_append h hrest, hv]
  rfl

/-- Blanks in front of a literal are skipped, and its first character tells its kind. -/
theorem front_cons (inner : Char → Reader Value) (hw : Blanks w) (hc : isBlank c = false) :
    front inner (w ++ c :: cs) =
      if isOpening c then inner c cs
      else if c = '\'' ∨ c = '"' then
        (stringBody c cs).map fun (s, rest) => (.text (String.ofList s), rest)
      else if isNumberStart c then number (c :: cs)
      else keyword (c :: cs) := by
  simp only [front, Text.dropBlanks_append hw (stops_cons.mpr hc)]

theorem front_reads {inner : Char → Reader Value} {L : List Char → Value → Prop}
    (h : ReadsInside inner L) : Reads (front inner) fun cs v => Atom cs v ∨ L cs v where
  sound := by
    intro cs v rest hread
    obtain ⟨w, hcs, hw, hstops⟩ := Text.exists_dropBlanks cs
    cases hdrop : dropBlanks cs with
    | nil =>
        simp only [front, hdrop] at hread
        cases hread
    | cons c tail =>
        rw [hdrop] at hcs hstops
        rw [hcs, front_cons inner hw (stops_cons.mp hstops)] at hread
        rw [hcs]
        split at hread
        · rename_i hopening
          obtain ⟨body, hbody, hlayer⟩ := (h.eq_some hopening).mp hread
          exact ⟨w, body, by rw [hbody], hw, .inr hlayer⟩
        · split at hread
          · rename_i hquote
            obtain ⟨⟨s, _⟩, hstring, hpair⟩ := Option.map_eq_some_iff.mp hread
            cases hpair
            have hne : c ≠ '\\' := by rcases hquote with rfl | rfl <;> decide
            obtain ⟨body, rfl, hbody⟩ := (stringBody_eq_some hne).mp hstring
            exact ⟨w, _, by simp, hw, .inl (.text hquote hbody)⟩
          · split at hread
            · obtain ⟨body, n, hbody, hn, hv⟩ := number_eq_some hread
              exact ⟨w, body, by rw [hbody], hw, .inl (.number hn hv)⟩
            · obtain ⟨body, hbody, hword⟩ := keyword_eq_some hread
              exact ⟨w, body, by rw [hbody], hw, .inl (.keyword hword)⟩
  complete := by
    rintro w body v rest hw (hatom | hlayer) hrest
    · cases hatom with
      | keyword hword =>
          obtain ⟨c, tail, rfl, hstart, hopening, hquote, hnumber⟩ := hword.starts
          rw [List.cons_append, front_cons inner hw (isBlank_of_isStart hstart),
            if_neg hopening, if_neg hquote, if_neg hnumber]
          exact keyword_append hword hrest
      | number hn hv =>
          obtain ⟨c, tail, rfl, hnumber⟩ := hn.exists_cons
          obtain ⟨hstart, hopening, hquote⟩ := starts_of_isNumberStart hnumber
          rw [List.cons_append, front_cons inner hw (isBlank_of_isStart hstart),
            if_neg hopening, if_neg hquote, if_pos hnumber]
          exact number_append hn hv hrest
      | @text quote body s hquote hbody =>
          have hmark : quote ≠ '\\' ∧ isBlank quote = false ∧ ¬ isOpening quote := by
            rcases hquote with rfl | rfl <;> decide
          have hread : stringBody quote (body ++ [quote] ++ rest) = some (s, rest) :=
            (stringBody_eq_some hmark.1).mpr ⟨body, by simp, hbody⟩
          rw [List.cons_append, front_cons inner hw hmark.2.1, if_neg hmark.2.2, if_pos hquote,
            hread]
          rfl
    · obtain ⟨c, tail, rfl, hopening⟩ := h.starts hlayer
      rw [List.cons_append,
        front_cons inner hw (isBlank_of_isStart (isStart_of_isOpening hopening)), if_pos hopening]
      exact (h.eq_some hopening).mpr ⟨_, rfl, hlayer⟩
  starts := by
    rintro body v (hatom | hlayer)
    · cases hatom with
      | keyword hword =>
          obtain ⟨c, tail, rfl, hstart, -⟩ := hword.starts
          exact ⟨c, tail, rfl, hstart⟩
      | number hn hv =>
          obtain ⟨c, tail, rfl, hnumber⟩ := hn.exists_cons
          exact ⟨c, tail, rfl, (starts_of_isNumberStart hnumber).1⟩
      | text hquote hbody => exact ⟨_, _, rfl, by rcases hquote with rfl | rfl <;> rfl⟩
    · obtain ⟨c, tail, rfl, hopening⟩ := h.starts hlayer
      exact ⟨c, tail, rfl, isStart_of_isOpening hopening⟩

/-! ## Literals -/

/-- **Literals are read as the grammar has them**, with room for as many containers. -/
theorem value_reads (room : Nat) : Reads (value room) (Denotes room) := by
  induction room with
  | zero =>
      have hnothing : ReadsInside (fun _ _ => none) fun _ _ => False :=
        ⟨fun _ => by simp, fun h => h.elim⟩
      have hatoms := front_reads hnothing
      simp only [or_false] at hatoms
      exact hatoms
  | succ room ih => exact front_reads ih.container

/-- Every literal of the grammar is accepted, with blanks around it. -/
theorem read?_of_denotes {w' : List Char} {v : Value} (hw : Blanks w) (hw' : Blanks w')
    (h : Denotes maxNesting body v) : read? (w ++ (body ++ w')) = some v := by
  have hstops : Stops isTokenChar w' := by
    have h := stops_isTokenChar hw' (Text.stops_nil)
    rwa [List.append_nil] at h
  have hread := (value_reads maxNesting).complete hw h hstops
  simp only [read?, hread]
  exact if_pos (Text.allBlank_iff.mpr hw')

/-- **The literal grammar.** A text is accepted as a literal exactly if it is blanks, one
literal with at most `maxNesting` containers inside each other, and blanks again; the value is
what the literal stands for. -/
theorem read?_iff_denotes {v : Value} :
    read? cs = some v ↔ ∃ w body w', cs = w ++ (body ++ w') ∧ Blanks w ∧ Blanks w' ∧
      Denotes maxNesting body v := by
  constructor
  · intro h
    unfold read? at h
    split at h
    · rename_i v' rest hread
      split at h
      · rename_i hrest
        cases h
        obtain ⟨w, body, rfl, hw, hbody⟩ := (value_reads maxNesting).sound hread
        exact ⟨w, body, rest, rfl, hw, Text.allBlank_iff.mp hrest, hbody⟩
      · cases h
    · cases h
  · rintro ⟨w, body, w', rfl, hw, hw', hbody⟩
    exact read?_of_denotes hw hw' hbody

end ExerciseDoc.Literal
