import ExerciseDoc.Proofs.Json.Containers
import ExerciseDoc.Proofs.Json.Strings
import ExerciseDoc.Proofs.Json.Whole
import ExerciseDoc.Proofs.Value.Nesting
import ExerciseDoc.Proofs.Value.Order

/-!
# Json — notations of a value

`Writes` says which texts stand for a value, one layer for each container that it may be in;
the blanks between the parts of a text are of a kind that is given. The reader finds the
value of every such text (`read?_of_writes`), and both forms of the printer write one
(`writes_compact`, `writes_prettyAt`), so a printed value is read back (`read?_printed`).
What all parts of a notation have in common, its text has as a whole
(`Writes.of_parts`).
-/

namespace ExerciseDoc.Json

open Text (Reader isDigit Stops stops_nil stops_cons)

/-! ## Texts of a value -/

/-- A value that is no container, and a text that stands for it. A whole number stands for
itself between `-2 ^ 63` and `2 ^ 64 - 1`. -/
inductive WritesLeaf : Value → List Char → Prop where
  | null : WritesLeaf .null ['n', 'u', 'l', 'l']
  | bool (b : Bool) : WritesLeaf (.bool b) (boolText b)
  | int {n : Int} : -2 ^ 63 ≤ n → n < 2 ^ 64 → WritesLeaf (.int n) (Decimal.intText n)
  | text {cs s : List Char} : Spells cs s →
      WritesLeaf (.text (String.ofList s)) ('"' :: (cs ++ ['"']))

/-- Elements with a comma between neighbours, up to the closing character. Gaps may stand
behind each of them and behind each comma. -/
inductive Row {α : Type} (gap : List Char → Prop) (W : α → List Char → Prop) (close : Char) :
    List α → List Char → Prop where
  | last {a : α} {cs w : List Char} : W a cs → gap w → Row gap W close [a] (cs ++ (w ++ [close]))
  | more {a : α} {as : List α} {cs ds w u : List Char} : W a cs → gap w → gap u →
      Row gap W close as ds → Row gap W close (a :: as) (cs ++ (w ++ ',' :: (u ++ ds)))

/-- A key in quotes, a colon and a value. -/
inductive WritesEntry (gap : List Char → Prop) (W : Value → List Char → Prop) :
    String × Value → List Char → Prop where
  | entry {key : String} {v : Value} {ks cs w u : List Char} : Spells ks key.toList →
      gap w → gap u → W v cs →
      WritesEntry gap W (key, v) ('"' :: (ks ++ '"' :: (w ++ ':' :: (u ++ cs))))

/-- A leaf, or a container of values that are written as `W` has it. -/
inductive Layer (gap : List Char → Prop) (W : Value → List Char → Prop) :
    Value → List Char → Prop where
  | leaf {v : Value} {cs : List Char} : WritesLeaf v cs → Layer gap W v cs
  | emptyList {w : List Char} : gap w → Layer gap W (.list []) ('[' :: (w ++ [']']))
  | list {vs : List Value} {w cs : List Char} : gap w → Row gap W ']' vs cs →
      Layer gap W (.list vs) ('[' :: (w ++ cs))
  | emptyMapping {w : List Char} : gap w →
      Layer gap W (.mapping []) ('\x7b' :: (w ++ ['\x7d']))
  | mapping {es : Mapping} {w cs : List Char} : es.Ascending → gap w →
      Row gap (WritesEntry gap W) '\x7d' es cs → Layer gap W (.mapping es) ('\x7b' :: (w ++ cs))

/-- The text stands for the value, which has at most so many containers inside each
other. -/
def Writes (gap : List Char → Prop) : Nat → Value → List Char → Prop
  | 0 => WritesLeaf
  | room + 1 => Layer gap (Writes gap room)

/-- Blanks of the notation, perhaps none. -/
def JsonBlanks (w : List Char) : Prop :=
  ∀ c ∈ w, isJsonBlank c

theorem writes_leaf {gap : List Char → Prop} {v : Value} {cs : List Char} (room : Nat)
    (h : WritesLeaf v cs) : Writes gap room v cs := by
  cases room with
  | zero => exact h
  | succ room => exact .leaf h

/-! ## Parts -/

section Parts

variable {gap P : List Char → Prop} {W : Value → List Char → Prop}
variable (happend : ∀ {cs ds}, P cs → P ds → P (cs ++ ds)) (hgap : ∀ {w}, gap w → P w)
variable (hplain : ∀ {cs}, (∀ c ∈ cs, 0x20 ≤ c.toNat) → cs.head? ≠ some '=' → P cs)

theorem printable_of_all {cs : List Char} (h : cs.all fun c => decide (0x20 ≤ c.toNat)) :
    ∀ c ∈ cs, 0x20 ≤ c.toNat := by
  simpa using h

theorem printable_intText (n : Int) : ∀ c ∈ Decimal.intText n, 0x20 ≤ c.toNat := by
  have hdigit : ∀ m, ∀ c ∈ Decimal.natText m, 0x20 ≤ c.toNat := by
    intro m c hc
    have hdigit := Decimal.isDigit_of_mem_natText hc
    simp only [isDigit, Bool.and_eq_true, decide_eq_true_eq] at hdigit
    exact Nat.le_trans (by decide) hdigit.1
  cases n with
  | ofNat m => exact hdigit m
  | negSucc m => exact List.forall_mem_cons.mpr ⟨by decide, hdigit _⟩

theorem printable_quoted {cs s : List Char} (h : Spells cs s) :
    ∀ c ∈ '"' :: (cs ++ ['"']), 0x20 ≤ c.toNat := by
  rw [List.forall_mem_cons, List.forall_mem_append, List.forall_mem_singleton]
  exact ⟨by decide, h.printable, by decide⟩

include hplain

theorem WritesLeaf.of_plain {v : Value} {cs : List Char} (h : WritesLeaf v cs) : P cs := by
  cases h with
  | null => exact hplain (printable_of_all rfl) (by decide)
  | bool b => cases b <;> exact hplain (printable_of_all rfl) (by decide)
  | @int n _ _ =>
      refine hplain (printable_intText n) ?_
      cases n with
      | ofNat m =>
          intro hhead
          have hdigit := Decimal.isDigit_of_mem_natText (List.mem_of_mem_head? hhead)
          cases hdigit
      | negSucc m => simp [Decimal.intText]
  | text hspelled => exact hplain (printable_quoted hspelled) (by simp)

include happend hgap

theorem Row.of_parts {α : Type} {E : α → List Char → Prop} {close : Char} {as : List α}
    {cs : List Char} (hclose : P [close]) (hE : ∀ {a cs}, E a cs → P cs)
    (h : Row gap E close as cs) : P cs := by
  have hcomma : P [','] := hplain (printable_of_all rfl) (by decide)
  induction h with
  | last ha hw => exact happend (hE ha) (happend (hgap hw) hclose)
  | more ha hw hu _ ih =>
      exact happend (hE ha) (happend (hgap hw) (happend hcomma (happend (hgap hu) ih)))

theorem WritesEntry.of_parts {e : String × Value} {cs : List Char}
    (hW : ∀ {v cs}, W v cs → P cs) (h : WritesEntry gap W e cs) : P cs := by
  cases h with
  | @entry key v ks cs w u hkey hw hu hv =>
      have hquoted : P ('"' :: (ks ++ ['"'])) :=
        hplain (printable_quoted hkey) (by simp)
      have hcolon : P [':'] := hplain (printable_of_all rfl) (by decide)
      have hparts := happend hquoted (happend (hgap hw) (happend hcolon
        (happend (hgap hu) (hW hv))))
      simpa using hparts

theorem Layer.of_parts {v : Value} {cs : List Char} (hW : ∀ {v cs}, W v cs → P cs)
    (h : Layer gap W v cs) : P cs := by
  have hmark : ∀ c ∈ ['[', ']', '\x7b', '\x7d'], P [c] := by
    intro c hc
    simp only [List.mem_cons, List.not_mem_nil, or_false] at hc
    rcases hc with rfl | rfl | rfl | rfl <;> exact hplain (printable_of_all rfl) (by decide)
  cases h with
  | leaf hleaf => exact hleaf.of_plain hplain
  | emptyList hw =>
      exact happend (hmark '[' (by decide)) (happend (hgap hw) (hmark ']' (by decide)))
  | list hw hrow =>
      exact happend (hmark '[' (by decide)) (happend (hgap hw)
        (hrow.of_parts happend hgap hplain (hmark ']' (by decide)) hW))
  | emptyMapping hw =>
      exact happend (hmark '\x7b' (by decide)) (happend (hgap hw) (hmark '\x7d' (by decide)))
  | mapping _ hw hrow =>
      exact happend (hmark '\x7b' (by decide)) (happend (hgap hw)
        (hrow.of_parts happend hgap hplain (hmark '\x7d' (by decide))
          fun he => he.of_parts happend hgap hplain hW))

/-- What texts keep when they are put together, and gaps and plain texts have, a notation
has. A plain text has no control character, and no `=` in front. -/
theorem Writes.of_parts {room : Nat} {v : Value} {cs : List Char} (h : Writes gap room v cs) :
    P cs := by
  induction room generalizing v cs with
  | zero => exact WritesLeaf.of_plain hplain h
  | succ room ih => exact Layer.of_parts happend hgap hplain ih h

end Parts

/-! ## Both ends -/

/-- The first characters of values. -/
def startsValue (c : Char) : Bool :=
  isDigit c || ['n', 't', 'f', '"', '-', '[', '\x7b'].contains c

/-- The last characters of values. -/
def endsValue (c : Char) : Bool :=
  isDigit c || ['l', 'e', '"', ']', '\x7d'].contains c

/-- The text starts and ends like a value. -/
structure Ended (cs : List Char) : Prop where
  front : ∃ c tail, cs = c :: tail ∧ startsValue c
  back : ∃ c, cs.getLast? = some c ∧ endsValue c

theorem Ended.of_ends {c d : Char} (hc : startsValue c) (hd : endsValue d) (cs : List Char) :
    Ended (c :: (cs ++ [d])) := by
  refine ⟨⟨c, _, rfl, hc⟩, d, ?_, hd⟩
  rw [← List.cons_append, List.getLast?_concat]

theorem ended_natText (n : Nat) : Ended (Decimal.natText n) := by
  have hne := Decimal.natText_ne_nil n
  constructor
  · obtain ⟨c, ds, hds⟩ := List.exists_cons_of_ne_nil hne
    refine ⟨c, ds, hds, ?_⟩
    rw [startsValue, Decimal.isDigit_of_mem_natText (hds ▸ List.mem_cons_self)]
    rfl
  · refine ⟨_, List.getLast?_eq_some_getLast hne, ?_⟩
    rw [endsValue, Decimal.isDigit_of_mem_natText (List.getLast_mem hne)]
    rfl

theorem WritesLeaf.ended {v : Value} {cs : List Char} (h : WritesLeaf v cs) : Ended cs := by
  cases h with
  | null => exact .of_ends rfl rfl ['u', 'l']
  | bool b =>
      cases b with
      | true => exact .of_ends rfl rfl ['r', 'u']
      | false => exact .of_ends rfl rfl ['a', 'l', 's']
  | @int n _ _ =>
      cases n with
      | ofNat m => exact ended_natText m
      | negSucc m =>
          obtain ⟨c, hc, hends⟩ := (ended_natText (m + 1)).back
          refine ⟨⟨'-', _, rfl, rfl⟩, c, ?_, hends⟩
          rw [Decimal.intText, List.getLast?_cons, hc]
          rfl
  | text _ => exact .of_ends rfl rfl _

theorem Row.eq_concat {α : Type} {gap : List Char → Prop} {E : α → List Char → Prop}
    {close : Char} {as : List α} {cs : List Char} (h : Row gap E close as cs) :
    ∃ front, cs = front ++ [close] := by
  induction h with
  | @last a cs w _ _ => exact ⟨cs ++ w, by simp⟩
  | @more a as cs ds w u _ _ _ _ ih =>
      obtain ⟨front, rfl⟩ := ih
      exact ⟨cs ++ (w ++ ',' :: (u ++ front)), by simp⟩

theorem Layer.ended {gap : List Char → Prop} {W : Value → List Char → Prop} {v : Value}
    {cs : List Char} (h : Layer gap W v cs) : Ended cs := by
  cases h with
  | leaf hleaf => exact hleaf.ended
  | emptyList _ => exact .of_ends rfl rfl _
  | list _ hrow =>
      obtain ⟨front, rfl⟩ := hrow.eq_concat
      rw [← List.append_assoc]
      exact .of_ends rfl rfl _
  | emptyMapping _ => exact .of_ends rfl rfl _
  | mapping _ _ hrow =>
      obtain ⟨front, rfl⟩ := hrow.eq_concat
      rw [← List.append_assoc]
      exact .of_ends rfl rfl _

theorem Writes.ended {gap : List Char → Prop} {room : Nat} {v : Value} {cs : List Char}
    (h : Writes gap room v cs) : Ended cs := by
  cases room with
  | zero => exact WritesLeaf.ended h
  | succ room => exact Layer.ended h

theorem startsValue_ne {c d : Char} (hc : startsValue c) (hd : startsValue d = false) : c ≠ d := by
  rintro rfl
  rw [hc] at hd
  cases hd

theorem not_isJsonBlank_of_startsValue {c : Char} (h : startsValue c) : isJsonBlank c = false := by
  simp [isJsonBlank, startsValue_ne h (rfl : startsValue ' ' = false),
    startsValue_ne h (rfl : startsValue '\n' = false),
    startsValue_ne h (rfl : startsValue '\t' = false),
    startsValue_ne h (rfl : startsValue '\r' = false)]

/-! ## Reading -/

theorem dropJsonBlanks_append {w rest : List Char} (hw : JsonBlanks w)
    (hrest : Stops isJsonBlank rest) : dropJsonBlanks (w ++ rest) = rest :=
  Text.dropWhile_append hw hrest

theorem not_isNumberChar_of_isJsonBlank {c : Char} (h : isJsonBlank c) :
    isNumberChar c = false := by
  simp only [isJsonBlank, Bool.or_eq_true, beq_iff_eq] at h
  rcases h with ((rfl | rfl) | rfl) | rfl <;> decide

theorem stops_isNumberChar {w rest : List Char} (hw : JsonBlanks w)
    (hrest : Stops isNumberChar rest) : Stops isNumberChar (w ++ rest) :=
  Stops.append (fun c hc => not_isNumberChar_of_isJsonBlank (hw c hc)) hrest

/-- The reader finds an element in front of any text that a number does not go on with,
and behind any blanks. -/
def Reads {α : Type} (reader : Reader α) (E : α → List Char → Prop) : Prop :=
  ∀ w a cs rest, JsonBlanks w → E a cs → Stops isNumberChar rest →
    reader (w ++ (cs ++ rest)) = some (a, rest)

theorem front_of_isDigit {element : Option (Reader Value)} {cs tail : List Char} {c : Char}
    (hcs : dropJsonBlanks cs = c :: tail) (hc : isDigit c) :
    front element cs = number false (c :: tail) := by
  have hne : ∀ d, isDigit d = false → c ≠ d := by
    rintro d hd rfl
    rw [hc] at hd
    cases hd
  simp only [front, hcs]
  rw [if_neg (hne _ rfl), if_neg (hne _ rfl), if_neg (hne _ rfl), if_neg (hne _ rfl),
    if_neg (hne _ rfl), if_pos hc]

theorem reads_leaf (element : Option (Reader Value)) : Reads (front element) WritesLeaf := by
  intro w v cs rest hw h hrest
  -- The first character is no blank, and tells how to go on.
  have hcs : ∀ c tail, isJsonBlank c = false → dropJsonBlanks (w ++ c :: tail) = c :: tail :=
    fun c tail hc => dropJsonBlanks_append hw (stops_cons.mpr hc)
  cases h with
  | null =>
      rw [front, show ['n', 'u', 'l', 'l'] ++ rest = 'n' :: 'u' :: 'l' :: 'l' :: rest from rfl,
        hcs 'n' _ rfl]
      rfl
  | bool b =>
      cases b with
      | true =>
          rw [front, show boolText true ++ rest = 't' :: 'r' :: 'u' :: 'e' :: rest from rfl,
            hcs 't' _ rfl]
          rfl
      | false =>
          rw [front, show boolText false ++ rest = 'f' :: 'a' :: 'l' :: 's' :: 'e' :: rest from rfl,
            hcs 'f' _ rfl]
          rfl
  | @int n hlow hhigh =>
      cases n with
      | ofNat m =>
          have hm : m < 2 ^ 64 := by
            simp only [Int.ofNat_eq_natCast] at hhigh
            omega
          obtain ⟨c, ds, hds⟩ := List.exists_cons_of_ne_nil (Decimal.natText_ne_nil m)
          have hdigit : isDigit c :=
            Decimal.isDigit_of_mem_natText (hds ▸ List.mem_cons_self)
          have hblank : isJsonBlank c = false := by
            rw [Bool.eq_false_iff]
            intro hblank
            have hother := not_isNumberChar_of_isJsonBlank hblank
            simp [isNumberChar, hdigit] at hother
          have hread := number_natText (n := m) false hrest
          rw [wholeNumber?_natText hm, hds] at hread
          rw [Decimal.intText, hds, List.cons_append,
            front_of_isDigit (hcs c (ds ++ rest) hblank) hdigit]
          exact hread
      | negSucc m =>
          have hm : m + 1 ≤ 2 ^ 63 := by omega
          have hread := number_natText (n := m + 1) true hrest
          rw [wholeNumber?_neg_natText (Nat.succ_pos m) hm] at hread
          rw [Decimal.intText, List.cons_append, front, hcs '-' _ rfl]
          exact hread
  | @text cs s hspelled =>
      have hbody : stringBody (cs ++ '"' :: rest) = some (s, rest) :=
        stringBody_eq_some.mpr ⟨cs, rfl, hspelled⟩
      rw [List.cons_append, List.append_assoc, List.singleton_append, front, hcs '"' _ rfl]
      simp only [hbody]
      rfl

section Containers

variable {gap : List Char → Prop} (hgap : ∀ {w}, gap w → JsonBlanks w)

section Rows

variable {α : Type} {E : α → List Char → Prop} {close : Char} {reader : Reader α}
variable {as : List α} {cs : List Char}

theorem Row.length_le (h : Row gap E close as cs) : as.length ≤ cs.length := by
  induction h with
  | last _ _ =>
      simp only [List.length_append, List.length_cons, List.length_nil]
      omega
  | more _ _ _ _ ih =>
      simp only [List.length_append, List.length_cons]
      omega

theorem Row.exists_cons (hE : ∀ {a cs}, E a cs → ∃ c tail, cs = c :: tail ∧ startsValue c)
    (h : Row gap E close as cs) : ∃ c tail, cs = c :: tail ∧ startsValue c := by
  cases h with
  | last ha _ =>
      obtain ⟨c, tail, rfl, hc⟩ := hE ha
      exact ⟨c, _, rfl, hc⟩
  | more ha _ _ _ =>
      obtain ⟨c, tail, rfl, hc⟩ := hE ha
      exact ⟨c, _, rfl, hc⟩

variable (hreader : Reads reader E) (hother : isNumberChar close = false)
variable (hblank : isJsonBlank close = false) (hcomma : close ≠ ',')

include hgap hreader hother hblank hcomma

/-- A row is read in as many rounds as it has elements, or more. -/
theorem reads_row {w rest : List Char} {rounds : Nat} (hw : JsonBlanks w)
    (h : Row gap E close as cs) (hrounds : as.length ≤ rounds) :
    row close reader rounds (w ++ (cs ++ rest)) = some (as, rest) := by
  induction h generalizing w rounds with
  | @last a cs u ha hu =>
      rw [List.length_singleton] at hrounds
      obtain ⟨rounds, rfl⟩ : ∃ k, rounds = k + 1 := ⟨rounds - 1, by omega⟩
      have hstops : Stops isNumberChar (u ++ close :: rest) :=
        stops_isNumberChar (hgap hu) (stops_cons.mpr hother)
      have hread := hreader w a cs _ hw ha hstops
      have hend : dropJsonBlanks (u ++ close :: rest) = close :: rest :=
        dropJsonBlanks_append (hgap hu) (stops_cons.mpr hblank)
      simp only [List.append_assoc, List.singleton_append, row, hread, hend, if_neg hcomma,
        if_true]
  | @more a as cs ds u u' ha hu hu' _ ih =>
      rw [List.length_cons] at hrounds
      obtain ⟨rounds, rfl⟩ : ∃ k, rounds = k + 1 := ⟨rounds - 1, by omega⟩
      have hstops : Stops isNumberChar (u ++ ',' :: (u' ++ (ds ++ rest))) :=
        stops_isNumberChar (hgap hu) (stops_cons.mpr rfl)
      have hread := hreader w a cs _ hw ha hstops
      have hmore : dropJsonBlanks (u ++ ',' :: (u' ++ (ds ++ rest))) =
          ',' :: (u' ++ (ds ++ rest)) := dropJsonBlanks_append (hgap hu) (stops_cons.mpr rfl)
      have hothers := ih (hgap hu') (Nat.le_of_succ_le_succ hrounds)
      simp only [List.append_assoc, List.cons_append, row, hread, hmore, hothers, if_true,
        Option.map_some]

omit hreader hother hcomma in
theorem container_empty (make : List α → Value) {u rest : List Char} (hu : gap u) :
    container close reader make (u ++ close :: rest) = some (make [], rest) := by
  have hend : dropJsonBlanks (u ++ close :: rest) = close :: rest :=
    dropJsonBlanks_append (hgap hu) (stops_cons.mpr hblank)
  simp only [container, hend, List.head?_cons, if_true, List.tail_cons]

theorem container_of_row (hstarts : startsValue close = false)
    (hE : ∀ {a cs}, E a cs → ∃ c tail, cs = c :: tail ∧ startsValue c)
    (make : List α → Value) {u rest : List Char} (hu : gap u) (h : Row gap E close as cs) :
    container close reader make (u ++ (cs ++ rest)) = some (make as, rest) := by
  have hlength := h.length_le
  have hrounds : as.length ≤ (cs ++ rest).length + 1 := by
    rw [List.length_append]
    omega
  have hread : row close reader ((cs ++ rest).length + 1) ([] ++ (cs ++ rest)) =
      some (as, rest) :=
    reads_row hgap hreader hother hblank hcomma (List.forall_mem_nil _) h hrounds
  obtain ⟨c, tail, rfl, hc⟩ := h.exists_cons hE
  have hfront : dropJsonBlanks (u ++ (c :: tail ++ rest)) = c :: tail ++ rest :=
    dropJsonBlanks_append (hgap hu) (stops_cons.mpr (not_isJsonBlank_of_startsValue hc))
  have hopen : (c :: tail ++ rest).head? ≠ some close :=
    fun hhead => startsValue_ne hc hstarts (Option.some.inj hhead)
  rw [List.nil_append] at hread
  simp only [container, hfront, if_neg hopen, hread, Option.map_some]

end Rows

variable {W : Value → List Char → Prop} {element : Reader Value} (helement : Reads element W)

include hgap helement

theorem reads_entry : Reads (entry element) (WritesEntry gap W) := by
  intro w e cs rest hw h hrest
  cases h with
  | @entry key v ks cs u u' hkey hu hu' hv =>
      have hquote : dropJsonBlanks (w ++ '"' :: (ks ++ '"' :: (u ++ ':' :: (u' ++ (cs ++ rest))))) =
          '"' :: (ks ++ '"' :: (u ++ ':' :: (u' ++ (cs ++ rest)))) :=
        dropJsonBlanks_append hw (stops_cons.mpr rfl)
      have hbody : stringBody (ks ++ '"' :: (u ++ ':' :: (u' ++ (cs ++ rest)))) =
          some (key.toList, u ++ ':' :: (u' ++ (cs ++ rest))) :=
        stringBody_eq_some.mpr ⟨ks, rfl, hkey⟩
      have hcolon : dropJsonBlanks (u ++ ':' :: (u' ++ (cs ++ rest))) =
          ':' :: (u' ++ (cs ++ rest)) := dropJsonBlanks_append (hgap hu) (stops_cons.mpr rfl)
      simp only [List.append_assoc, List.cons_append, entry, hquote, hbody, hcolon,
        helement u' v cs rest (hgap hu') hv hrest, Option.map_some, String.ofList_toList]

theorem reads_layer (hended : ∀ {v cs}, W v cs → Ended cs) :
    Reads (front (some element)) (Layer gap W) := by
  intro w v cs rest hw h hrest
  have harray : ∀ tail, front (some element) (w ++ '[' :: tail) =
      container ']' element .list tail := by
    intro tail
    rw [front, dropJsonBlanks_append hw (stops_cons.mpr rfl), ← array_eq_container]
    rfl
  have hobject : ∀ tail, front (some element) (w ++ '\x7b' :: tail) =
      container '\x7d' (entry element) (fun es => .mapping (Mapping.ofEntries es)) tail := by
    intro tail
    rw [front, dropJsonBlanks_append hw (stops_cons.mpr rfl), ← object_eq_container]
    rfl
  cases h with
  | leaf hleaf => exact reads_leaf (some element) w v cs rest hw hleaf hrest
  | emptyList hu =>
      rw [List.cons_append, List.append_assoc, harray]
      exact container_empty hgap rfl _ hu
  | list hu hrow =>
      rw [List.cons_append, List.append_assoc, harray]
      exact container_of_row hgap helement rfl rfl (by decide) rfl (fun hv => (hended hv).front)
        _ hu hrow
  | emptyMapping hu =>
      rw [List.cons_append, List.append_assoc, hobject]
      exact container_empty hgap rfl _ hu
  | mapping hes hu hrow =>
      have hquoted : ∀ {e cs}, WritesEntry gap W e cs →
          ∃ c tail, cs = c :: tail ∧ startsValue c := by
        rintro _ _ ⟨⟩
        exact ⟨'"', _, rfl, rfl⟩
      rw [List.cons_append, List.append_assoc, hobject,
        container_of_row hgap (reads_entry hgap helement) rfl rfl (by decide) rfl hquoted _ hu
          hrow,
        Mapping.ofEntries_of_ascending hes]

end Containers

theorem reads_writes {gap : List Char → Prop} (hgap : ∀ {w}, gap w → JsonBlanks w)
    (room : Nat) : Reads (value room) (Writes gap room) := by
  induction room with
  | zero => exact reads_leaf none
  | succ room ih => exact reads_layer hgap ih Writes.ended

/-- **Reading a notation.** Every text that stands for a value of at most `maxNesting`
containers is read as that value. -/
theorem read?_of_writes {gap : List Char → Prop} (hgap : ∀ {w}, gap w → JsonBlanks w)
    {v : Value} {cs : List Char} (h : Writes gap maxNesting v cs) : read? cs = some v := by
  have hread := reads_writes hgap maxNesting [] v cs [] (List.forall_mem_nil _) h stops_nil
  rw [List.nil_append, List.append_nil] at hread
  rw [read?, hread]
  rfl

/-! ## Writing -/

/-- A value that the notation keeps: without binary64 numbers, with whole numbers of at most
sixty-four bits, and with mappings in the order of their keys. -/
inductive Exact : Value → Prop where
  | null : Exact .null
  | bool (b : Bool) : Exact (.bool b)
  | int {n : Int} : -2 ^ 63 ≤ n → n < 2 ^ 64 → Exact (.int n)
  | text (s : String) : Exact (.text s)
  | list {items : List Value} : (∀ v ∈ items, Exact v) → Exact (.list items)
  | mapping {entries : Mapping} : entries.Ascending → (∀ e ∈ entries, Exact e.2) →
      Exact (.mapping entries)

theorem writesLeaf_text (s : String) : WritesLeaf (.text s) (stringText s) := by
  have h := WritesLeaf.text (spells_escaped s.toList)
  rwa [String.ofList_toList] at h

/-- The parts of the text stand side by side. -/
def NoGap (w : List Char) : Prop :=
  w = []

theorem noGap_nil : NoGap [] :=
  rfl

/-- An element is a row with what stands behind it: a comma and a gap in front of each
further element, and a gap in front of the closing character. -/
theorem row_of_tail {α : Type} {gap : List Char → Prop} {E : α → List Char → Prop}
    {close : Char} (text : α → List Char) (tail : List α → List Char) {w u : List Char}
    (hw : gap w) (hnil : gap []) (hu : gap u) (hlast : tail [] = w ++ [close])
    (hmore : ∀ b bs, tail (b :: bs) = ',' :: (u ++ (text b ++ tail bs))) {a : α} {as : List α}
    (h : ∀ b ∈ a :: as, E b (text b)) : Row gap E close (a :: as) (text a ++ tail as) := by
  induction as generalizing a with
  | nil =>
      rw [hlast]
      exact .last (h a List.mem_cons_self) hw
  | cons b bs ih =>
      rw [hmore]
      exact .more (h a List.mem_cons_self) hnil hu
        (ih fun c hc => h c (List.mem_cons_of_mem _ hc))

theorem writesEntry_of_text {gap : List Char → Prop} {W : Value → List Char → Prop}
    {key : String} {v : Value} {u cs : List Char} (hnil : gap []) (hu : gap u) (h : W v cs) :
    WritesEntry gap W (key, v) (stringText key ++ ':' :: (u ++ cs)) := by
  have hentry : WritesEntry gap W (key, v) _ := .entry (spells_escaped key.toList) hnil hu h
  simpa [stringText] using hentry

/-- The text without blanks stands for its value. -/
theorem writes_compact {room : Nat} {v : Value} (h : Exact v) (hroom : v.nesting ≤ room) :
    Writes NoGap room v (compact v) := by
  induction h generalizing room with
  | null => exact writes_leaf room .null
  | bool b => exact writes_leaf room (.bool b)
  | int hlow hhigh => exact writes_leaf room (.int hlow hhigh)
  | text s => exact writes_leaf room (writesLeaf_text s)
  | @list items _ ih =>
      rw [Value.nesting_list] at hroom
      obtain ⟨room, rfl⟩ : ∃ k, room = k + 1 := ⟨room - 1, by omega⟩
      cases items with
      | nil => exact .emptyList noGap_nil
      | cons v rest =>
          have hitems : ∀ u ∈ v :: rest, Writes NoGap room u (compact u) := by
            intro u hu
            have hnesting := Value.nesting_le_of_mem_items hu
            exact ih u hu (by omega)
          have hrow : Row NoGap (Writes NoGap room) ']' (v :: rest)
              (compact v ++ compactItems rest) :=
            row_of_tail compact compactItems noGap_nil noGap_nil noGap_nil rfl (fun _ _ => rfl)
              hitems
          rw [Writes, compact]
          simpa using Layer.list noGap_nil hrow
  | @mapping entries hentries _ ih =>
      rw [Value.nesting_mapping] at hroom
      obtain ⟨room, rfl⟩ : ∃ k, room = k + 1 := ⟨room - 1, by omega⟩
      cases entries with
      | nil => exact .emptyMapping noGap_nil
      | cons e rest =>
          have hvalues : ∀ e' ∈ e :: rest, WritesEntry NoGap (Writes NoGap room) e'
              (stringText e'.1 ++ ':' :: compact e'.2) := by
            intro e' he
            have hnesting := Value.nesting_le_of_mem_entries he
            exact writesEntry_of_text noGap_nil noGap_nil (ih e' he (by omega))
          have hrow : Row NoGap (WritesEntry NoGap (Writes NoGap room)) '\x7d' (e :: rest)
              (stringText e.1 ++ ':' :: compact e.2 ++ compactEntries rest) :=
            row_of_tail (fun e : String × Value => stringText e.1 ++ ':' :: compact e.2)
              compactEntries noGap_nil noGap_nil noGap_nil rfl
              (fun _ _ => by simp [compactEntries]) hvalues
          rw [Writes, compact]
          simpa using Layer.mapping hentries noGap_nil hrow

theorem jsonBlanks_nil : JsonBlanks [] :=
  List.forall_mem_nil _

theorem jsonBlanks_of_noGap {w : List Char} (h : NoGap w) : JsonBlanks w := by
  rw [h]
  exact jsonBlanks_nil

theorem jsonBlanks_space : JsonBlanks [' '] :=
  List.forall_mem_singleton.mpr rfl

theorem jsonBlanks_newLine (level : Nat) : JsonBlanks (newLine level) := by
  refine List.forall_mem_cons.mpr ⟨rfl, ?_⟩
  intro c hc
  rw [List.eq_of_mem_replicate hc]
  rfl

/-- The text with one entry a line stands for its value. -/
theorem writes_prettyAt {room : Nat} {v : Value} (h : Exact v) (hroom : v.nesting ≤ room)
    (level : Nat) : Writes JsonBlanks room v (prettyAt level v) := by
  induction h generalizing room level with
  | null => exact writes_leaf room .null
  | bool b => exact writes_leaf room (.bool b)
  | int hlow hhigh => exact writes_leaf room (.int hlow hhigh)
  | text s => exact writes_leaf room (writesLeaf_text s)
  | @list items _ ih =>
      rw [Value.nesting_list] at hroom
      obtain ⟨room, rfl⟩ : ∃ k, room = k + 1 := ⟨room - 1, by omega⟩
      cases items with
      | nil => exact .emptyList jsonBlanks_nil
      | cons v rest =>
          have hitems : ∀ u ∈ v :: rest, Writes JsonBlanks room u (prettyAt (level + 1) u) := by
            intro u hu
            have hnesting := Value.nesting_le_of_mem_items hu
            exact ih u hu (by omega) (level + 1)
          have hrow : Row JsonBlanks (Writes JsonBlanks room) ']' (v :: rest)
              (prettyAt (level + 1) v ++ prettyItems level rest) :=
            row_of_tail (prettyAt (level + 1)) (prettyItems level) (jsonBlanks_newLine level)
              jsonBlanks_nil (jsonBlanks_newLine (level + 1)) rfl
              (fun _ _ => by simp [prettyItems]) hitems
          rw [Writes, prettyAt]
          simpa using Layer.list (jsonBlanks_newLine (level + 1)) hrow
  | @mapping entries hentries _ ih =>
      rw [Value.nesting_mapping] at hroom
      obtain ⟨room, rfl⟩ : ∃ k, room = k + 1 := ⟨room - 1, by omega⟩
      cases entries with
      | nil => exact .emptyMapping jsonBlanks_nil
      | cons e rest =>
          have hvalues : ∀ e' ∈ e :: rest, WritesEntry JsonBlanks (Writes JsonBlanks room) e'
              (stringText e'.1 ++ ':' :: ' ' :: prettyAt (level + 1) e'.2) := by
            intro e' he
            have hnesting := Value.nesting_le_of_mem_entries he
            exact writesEntry_of_text jsonBlanks_nil jsonBlanks_space
              (ih e' he (by omega) (level + 1))
          have hrow : Row JsonBlanks (WritesEntry JsonBlanks (Writes JsonBlanks room)) '\x7d'
              (e :: rest) (stringText e.1 ++ ':' :: ' ' :: prettyAt (level + 1) e.2 ++
                prettyEntries level rest) :=
            row_of_tail
              (fun e : String × Value => stringText e.1 ++ ':' :: ' ' :: prettyAt (level + 1) e.2)
              (prettyEntries level) (jsonBlanks_newLine level) jsonBlanks_nil
              (jsonBlanks_newLine (level + 1)) rfl (fun _ _ => by simp [prettyEntries]) hvalues
          rw [Writes, prettyAt]
          simpa using Layer.mapping hentries (jsonBlanks_newLine (level + 1)) hrow

/-- **Printed values are read back.** Both forms of the text of a value, which the notation
keeps and which nests no deeper than it allows, are read as the value. -/
theorem read?_printed {v : Value} (h : Exact v) (hnesting : v.nesting ≤ maxNesting) :
    read? (compact v) = some v ∧ read? (prettyAt 0 v) = some v :=
  ⟨read?_of_writes jsonBlanks_of_noGap (writes_compact h hnesting),
    read?_of_writes id (writes_prettyAt h hnesting 0)⟩

end ExerciseDoc.Json
