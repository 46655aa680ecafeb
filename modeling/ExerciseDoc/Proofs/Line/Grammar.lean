import ExerciseDoc.Proofs.Line.Reference

/-!
# Line — the grammar

The shapes of a line, written out as texts that are put together from parts (`Reads`).
A line can have several of them; `classify` answers with the first one in their order,
and with nothing exactly if the line has none (`classify_first`). For each shape there
is a law of its own, which says that its reader accepts the lines of that shape and finds
the parts that they are put together from.

The lines are those whose only blanks are spaces and tabs. Other blanks can also belong
to a reference or a word, and a line that has one can be put together in several ways.
-/

namespace ExerciseDoc

/-- The place of a directive's shape in the order of shapes. -/
def Directive.rank : Directive → Nat
  | .extends _ => 0
  | .fromFile _ _ _ => 1
  | .link _ _ => 2
  | .component _ _ => 3
  | .dependency _ _ => 4
  | .comment _ => 5
  | .value _ _ _ => 6
  | .openBlock _ _ => 7
  | .blank => 8

namespace Line

open Text (isBlank isWord dropBlanks run Stops stops_cons stops_append_of_disjoint IsRun
  run_eq_some Blanks dropBlanks_eq exists_dropBlanks not_mem_dropBlanks dropBlanks_append)

/-! ## Shapes -/

/-- The line adds the file that `u` leads to to the dependencies. -/
def NamesDependency (line u : List Char) (name : Option String) : Prop :=
  ∃ w rest, line = '@' :: (w ++ (u ++ rest)) ∧ Blanks w ∧ IsReference u ∧ NameEnd rest name

/-- The line can be read as a directive. -/
inductive Reads (line : List Char) : Directive → Prop where
  | extends {word w₁ w₂ u rest : List Char} :
      word = "extends".toList ∨ word = "template".toList →
      Blanks w₁ → Blanks w₂ → IsReference u → IsEnd rest →
      line = word ++ (w₁ ++ '=' :: (w₂ ++ (u ++ rest))) →
      Reads line (.extends (String.ofList u))
  | fromFile {k w₁ token w₂ u rest : List Char} {op : Operator} :
      IsKey k → Blanks w₁ → Loads op token → Blanks w₂ → IsReference u → IsEnd rest →
      line = k ++ (w₁ ++ (token ++ (w₂ ++ (u ++ rest)))) →
      Reads line (.fromFile (String.ofList k) op (String.ofList u))
  | link {k w₁ w₂ u rest : List Char} :
      IsKey k → Blanks w₁ → Blanks w₂ → IsReference u → IsEnd rest →
      line = k ++ (w₁ ++ '=' :: '$' :: (w₂ ++ (u ++ rest))) →
      Reads line (.link (String.ofList k) (String.ofList u))
  | component {k w₁ w₂ name rest : List Char} :
      IsKey k → Blanks w₁ → Blanks w₂ → IsRun isWord isWord name → IsEnd rest →
      line = k ++ (w₁ ++ '=' :: ':' :: (w₂ ++ (name ++ rest))) →
      Reads line (.component (String.ofList k) (String.ofList name))
  /-- Of the references that the line can name, it names the longest one. -/
  | dependency {u : List Char} {name : Option String} :
      NamesDependency line u name →
      (∀ u' name', NamesDependency line u' name' → u'.length ≤ u.length) →
      Reads line (.dependency (String.ofList u) name)
  | comment {w text : List Char} :
      Blanks w → line = w ++ '#' :: text → Reads line (.comment (String.ofList ('#' :: text)))
  | value {k w₁ w₂ v rest : List Char} {op : Operator} :
      IsKey k → Blanks w₁ → Blanks w₂ → IsValue v → IsEnd rest →
      line = k ++ (w₁ ++ op.sign :: (w₂ ++ (v ++ rest))) →
      Reads line (.value (String.ofList k) op (String.ofList v))
  | openBlock {k w rest : List Char} {op : Operator} :
      IsKey k → Blanks w → IsEnd rest → line = k ++ (w ++ op.sign :: '=' :: rest) →
      Reads line (.openBlock (String.ofList k) op)
  | blank : Blanks line → Reads line .blank

/-- The only blanks are spaces and tabs. -/
def PlainBlanks (cs : List Char) : Prop :=
  ∀ c ∈ cs, isBlank c → c = ' ' ∨ c = '\t'

instance (cs : List Char) : Decidable (PlainBlanks cs) :=
  decidable_of_iff (cs.all fun c => !isBlank c || (c == ' ' || c == '\t')) (by
    simp only [List.all_eq_true, PlainBlanks, Bool.or_eq_true, Bool.not_eq_true', beq_iff_eq,
      ← Bool.not_eq_true, ← imp_iff_not_or])

variable {c : Char} {cs line rest u : List Char} {d : Directive}

/-! ## Lines with plain blanks -/

namespace PlainBlanks

theorem subset (h : PlainBlanks line) (hsub : cs ⊆ line) : PlainBlanks cs :=
  fun c hc => h c (hsub hc)

theorem no_feed (h : PlainBlanks line) : '\n' ∉ line := by
  intro hmem
  rcases h _ hmem rfl with hc | hc <;> cases hc

theorem not_isPathChar (h : PlainBlanks line) (hc : c ∈ line) (hblank : isBlank c) :
    isPathChar c = false := by
  rcases h c hc hblank with rfl | rfl <;> rfl

theorem not_isWord (h : PlainBlanks line) (hc : c ∈ line) (hblank : isBlank c) :
    isWord c = false := by
  rcases h c hc hblank with rfl | rfl <;> decide +kernel

end PlainBlanks

theorem IsReference.stops_isBlank (hu : IsReference u) (hplain : PlainBlanks (u ++ rest)) :
    Stops isBlank (u ++ rest) :=
  stops_append_of_disjoint hu.ne_nil hu.chars fun _ hc =>
    hplain.not_isPathChar (List.mem_append_left rest hc)

theorem closingReference_plain {w : List Char} (hplain : PlainBlanks (w ++ (u ++ rest)))
    (hw : Blanks w) (hu : IsReference u) (hrest : IsEnd rest) :
    closingReference (w ++ (u ++ rest)) = some (String.ofList u) := by
  have hrestPlain : PlainBlanks rest := hplain.subset (by simp)
  refine closingReference_append hw hu (hu.stops_isBlank (hplain.subset (by simp))) hrest ?_
    hrestPlain.no_feed
  exact hrest.stops (fun c hc => hrestPlain.not_isPathChar hc) rfl

/-! ## The law of each shape -/

section Shapes

variable (hplain : PlainBlanks line)

include hplain

theorem extends?_eq_some : extends? line = some d ↔ Reads line d ∧ d.rank = 0 := by
  constructor
  · intro h
    obtain ⟨word, w₁, rest, hword, rfl, hw₁, hfound⟩ := of_extends? h
    obtain ⟨s, hs, rfl⟩ := Option.map_eq_some_iff.mp hfound
    have hrest : PlainBlanks rest := fun c hc => hplain c (by simp [hc])
    obtain ⟨w₂, u, _, rfl, hw₂, hu, hend, rfl⟩ := of_closingReference hrest.no_feed hs
    exact ⟨.extends hword hw₁ hw₂ hu hend rfl, rfl⟩
  · rintro ⟨h, hrank⟩
    cases h with
    | @«extends» word w₁ w₂ u rest hword hw₁ hw₂ hu hend hline =>
        subst hline
        have hrest : PlainBlanks (w₂ ++ (u ++ rest)) := fun c hc => hplain c (by simp [hc])
        have hs := closingReference_plain hrest hw₂ hu hend
        rw [extends?_append hword hw₁, hs]
        rfl
    | _ => cases hrank

theorem fromFile?_eq_some : fromFile? line = some d ↔ Reads line d ∧ d.rank = 1 := by
  constructor
  · intro h
    obtain ⟨k, w₁, token, op, rest, rfl, hk, hw₁, htoken, hfound⟩ := of_fromFile? h
    obtain ⟨s, hs, rfl⟩ := Option.map_eq_some_iff.mp hfound
    have hrest : PlainBlanks rest := fun c hc => hplain c (by simp [hc])
    obtain ⟨w₂, u, _, rfl, hw₂, hu, hend, rfl⟩ := of_closingReference hrest.no_feed hs
    exact ⟨.fromFile hk hw₁ htoken hw₂ hu hend rfl, rfl⟩
  · rintro ⟨h, hrank⟩
    cases h with
    | @fromFile k w₁ token w₂ u rest op hk hw₁ htoken hw₂ hu hend hline =>
        subst hline
        have hrest : PlainBlanks (w₂ ++ (u ++ rest)) := fun c hc => hplain c (by simp [hc])
        have hs := closingReference_plain hrest hw₂ hu hend
        have hop : operator fileOperators (token ++ (w₂ ++ (u ++ rest))) =
            some (op, w₂ ++ (u ++ rest)) := operator_file.mpr ⟨token, htoken, rfl⟩
        obtain ⟨tail, rfl⟩ := htoken.eq_cons
        rw [List.cons_append] at hop ⊢
        simp only [fromFile?, key_append_sign op hk hw₁, hop, hs]
        rfl
    | _ => cases hrank

theorem link?_eq_some : link? line = some d ↔ Reads line d ∧ d.rank = 2 := by
  constructor
  · intro h
    obtain ⟨k, w₁, rest, rfl, hk, hw₁, hfound⟩ := of_link? h
    obtain ⟨s, hs, rfl⟩ := Option.map_eq_some_iff.mp hfound
    have hrest : PlainBlanks rest := fun c hc => hplain c (by simp [hc])
    obtain ⟨w₂, u, _, rfl, hw₂, hu, hend, rfl⟩ := of_closingReference hrest.no_feed hs
    exact ⟨.link hk hw₁ hw₂ hu hend rfl, rfl⟩
  · rintro ⟨h, hrank⟩
    cases h with
    | @link k w₁ w₂ u rest hk hw₁ hw₂ hu hend hline =>
        subst hline
        have hrest : PlainBlanks (w₂ ++ (u ++ rest)) := fun c hc => hplain c (by simp [hc])
        have hs := closingReference_plain hrest hw₂ hu hend
        have hkey : key (k ++ (w₁ ++ '=' :: '$' :: (w₂ ++ (u ++ rest)))) =
            some (k, '=' :: '$' :: (w₂ ++ (u ++ rest))) := key_append_sign .assign hk hw₁
        simp only [link?, hkey, hs]
        rfl
    | _ => cases hrank

theorem component?_eq_some : component? line = some d ↔ Reads line d ∧ d.rank = 3 := by
  constructor
  · intro h
    unfold component? at h
    split at h
    · rename_i k rest hkey
      obtain ⟨w₁, rfl, hk, hw₁, -⟩ := key_eq_some.mp hkey
      split at h
      · rename_i name rest' hrun
        obtain ⟨hcloses, hend⟩ := Option.ite_none_right_eq_some.mp h
        cases hend
        obtain ⟨hname, hword, -⟩ := run_eq_some.mp hrun
        obtain ⟨w₂, rfl, hw₂, -⟩ := dropBlanks_eq.mp hname
        have hrest : PlainBlanks rest' := fun c hc => hplain c (by simp [hc])
        exact ⟨.component hk hw₁ hw₂ hword ((closes_iff hrest.no_feed).mp hcloses) rfl, rfl⟩
      · cases h
    · cases h
  · rintro ⟨h, hrank⟩
    cases h with
    | @component k w₁ w₂ name rest hk hw₁ hw₂ hname hend hline =>
        subst hline
        have hplainRest : PlainBlanks rest := fun c hc => hplain c (by simp [hc])
        have hkey : key (k ++ (w₁ ++ '=' :: ':' :: (w₂ ++ (name ++ rest)))) =
            some (k, '=' :: ':' :: (w₂ ++ (name ++ rest))) := key_append_sign .assign hk hw₁
        have hfront : Stops isBlank (name ++ rest) :=
          stops_append_of_disjoint hname.ne_nil (hname.forall fun _ hc => hc) fun c hc =>
            hplain.not_isWord (by simp [hc])
        have hstops : Stops isWord rest :=
          hend.stops (fun c hc => hplainRest.not_isWord hc) (by decide +kernel)
        have hrun : run isWord isWord (dropBlanks (w₂ ++ (name ++ rest))) = some (name, rest) := by
          rw [dropBlanks_append hw₂ hfront]
          exact run_eq_some.mpr ⟨rfl, hname, hstops⟩
        simp only [component?, hkey, hrun, (closes_iff hplainRest.no_feed).mpr hend, if_true]
    | _ => cases hrank

/-- What a line names is what is read behind its blanks. -/
theorem longest_iff_names {w : List Char} {name : Option String} (hw : Blanks w)
    (hline : line = '@' :: (w ++ rest)) (hfront : Stops isBlank rest) :
    Longest IsReference dependencyEnd rest u name ↔ NamesDependency line u name ∧
      ∀ u' name', NamesDependency line u' name' → u'.length ≤ u.length := by
  subst hline
  have hrest : PlainBlanks rest := fun c hc => hplain c (by simp [hc])
  -- The blanks in front of a reference are the same for all references.
  have hnames : ∀ u' name', NamesDependency ('@' :: (w ++ rest)) u' name' ↔
      ∃ rest', rest = u' ++ rest' ∧ IsReference u' ∧ dependencyEnd rest' = some name' := by
    intro u' name'
    constructor
    · rintro ⟨w', rest', hline, hw', hu', hname⟩
      have hline := (List.cons.inj hline).2
      have hplain' : PlainBlanks (u' ++ rest') :=
        fun c hc => hplain c (by rw [hline]; simp [List.mem_append.mp hc])
      have hrest' : rest = u' ++ rest' := by
        rw [← dropBlanks_append hw hfront, hline,
          dropBlanks_append hw' (hu'.stops_isBlank hplain')]
      have hfeed : '\n' ∉ rest' := (hplain'.subset (by simp)).no_feed
      exact ⟨rest', hrest', hu', (dependencyEnd_eq_some hfeed).mpr hname⟩
    · rintro ⟨rest', rfl, hu', hname⟩
      have hfeed : '\n' ∉ rest' := (hrest.subset (by simp)).no_feed
      exact ⟨w, rest', rfl, hw, hu', (dependencyEnd_eq_some hfeed).mp hname⟩
  constructor
  · rintro ⟨⟨rest', hcs, hname⟩, hu, hlongest⟩
    refine ⟨(hnames u name).mpr ⟨rest', hcs, hu, hname⟩, ?_⟩
    intro u' name' hnamed
    obtain ⟨rest', hcs', hu', hname'⟩ := (hnames u' name').mp hnamed
    exact hlongest u' rest' hcs' hu' (Option.isSome_iff_exists.mpr ⟨name', hname'⟩)
  · rintro ⟨hnamed, hlongest⟩
    obtain ⟨rest', hcs, hu, hname⟩ := (hnames u name).mp hnamed
    refine ⟨⟨rest', hcs, hname⟩, hu, ?_⟩
    intro u' rest' hcs' hu' hsome
    obtain ⟨name', hname'⟩ := Option.isSome_iff_exists.mp hsome
    exact hlongest u' name' ((hnames u' name').mpr ⟨rest', hcs', hu', hname'⟩)

theorem dependency?_eq_some : dependency? line = some d ↔ Reads line d ∧ d.rank = 4 := by
  constructor
  · intro h
    unfold dependency? at h
    split at h
    · rename_i cs
      obtain ⟨⟨u, name⟩, hfound, rfl⟩ := Option.map_eq_some_iff.mp h
      obtain ⟨w, rest, rfl, hw, hfound⟩ := of_pastBlanks hfound
      have hlongest := reference_eq_some.mp hfound
      obtain ⟨⟨rest', rfl, -⟩, hu, -⟩ := id hlongest
      have hrest : PlainBlanks (u ++ rest') := fun c hc => hplain c (by simp [hc])
      obtain ⟨hnames, hmost⟩ :=
        (longest_iff_names hplain hw rfl (hu.stops_isBlank hrest)).mp hlongest
      exact ⟨.dependency hnames hmost, rfl⟩
    · cases h
  · rintro ⟨h, hrank⟩
    cases h with
    | @dependency u name hnames hmost =>
        obtain ⟨w, rest, rfl, hw, hu, hname⟩ := id hnames
        have hrest : PlainBlanks (u ++ rest) := fun c hc => hplain c (by simp [hc])
        have hfront := hu.stops_isBlank hrest
        have hlongest := (longest_iff_names hplain hw rfl hfront).mpr ⟨hnames, hmost⟩
        rw [dependency?, pastBlanks_of_some hw hfront (reference_eq_some.mpr hlongest)]
        rfl
    | _ => cases hrank

theorem commentLine?_eq_some : commentLine? line = some d ↔ Reads line d ∧ d.rank = 5 := by
  unfold commentLine?
  rw [Option.map_eq_some_iff]
  simp only [comment?_eq_some (not_mem_dropBlanks hplain.no_feed)]
  constructor
  · rintro ⟨_, ⟨hline, t, rfl⟩, rfl⟩
    obtain ⟨w, rfl, hw, -⟩ := dropBlanks_eq.mp hline
    exact ⟨.comment hw rfl, rfl⟩
  · rintro ⟨h, hrank⟩
    cases h with
    | @comment w t hw hline =>
        subst hline
        exact ⟨_, ⟨dropBlanks_append hw (stops_cons.mpr rfl), t, rfl⟩, rfl⟩
    | _ => cases hrank

theorem value?_eq_some : value? line = some d ↔ Reads line d ∧ d.rank = 6 := by
  constructor
  · intro h
    unfold value? at h
    split at h
    · cases h
    · rename_i k rest hkey
      split at h
      · cases h
      · rename_i op rest' hop
        obtain ⟨v, hv, rfl⟩ := Option.map_eq_some_iff.mp h
        obtain ⟨w₁, rfl, hk, hw₁, -⟩ := key_eq_some.mp hkey
        cases operator_value.mp hop
        obtain ⟨w₂, hrest', hw₂, hfront⟩ := exists_dropBlanks rest'
        have hfeed : '\n' ∉ rest' := fun hmem => hplain.no_feed (by simp [hmem])
        obtain ⟨end', hcs, hv, hend⟩ :=
          (valueText?_eq_some (not_mem_dropBlanks hfeed) hfront).mp hv
        rw [hcs] at hrest'
        exact ⟨.value hk hw₁ hw₂ hv hend (by rw [hrest']), rfl⟩
  · rintro ⟨h, hrank⟩
    cases h with
    | @value k w₁ w₂ v rest op hk hw₁ hw₂ hv hend hline =>
        subst hline
        have hfeed : '\n' ∉ w₂ ++ (v ++ rest) := fun hmem =>
          hplain.no_feed (by simp [hmem])
        have htext := valueText?_append hw₂ hv hend hfeed
        simp only [value?, key_append_sign op hk hw₁, operator_value.mpr rfl, htext]
        rfl
    | _ => cases hrank

theorem openBlock?_eq_some : openBlock? line = some d ↔ Reads line d ∧ d.rank = 7 := by
  constructor
  · intro h
    unfold openBlock? at h
    split at h
    · cases h
    · rename_i k rest hkey
      split at h
      · cases h
      · rename_i op rest' hop
        obtain ⟨hcloses, hend⟩ := Option.ite_none_right_eq_some.mp h
        cases hend
        obtain ⟨w, rfl, hk, hw, -⟩ := key_eq_some.mp hkey
        cases operator_block.mp hop
        have hfeed : '\n' ∉ rest' := fun hmem => hplain.no_feed (by simp [hmem])
        exact ⟨.openBlock hk hw ((closes_iff hfeed).mp hcloses) rfl, rfl⟩
  · rintro ⟨h, hrank⟩
    cases h with
    | @openBlock k w rest op hk hw hend hline =>
        subst hline
        have hfeed : '\n' ∉ rest := fun hmem => hplain.no_feed (by simp [hmem])
        simp only [openBlock?, key_append_sign op hk hw, operator_block.mpr rfl,
          (closes_iff hfeed).mpr hend, if_true]
    | _ => cases hrank

omit hplain in
theorem blank?_eq_some : blank? line = some d ↔ Reads line d ∧ d.rank = 8 := by
  constructor
  · intro h
    obtain ⟨hblank, hend⟩ := Option.ite_none_right_eq_some.mp h
    cases hend
    exact ⟨.blank (Text.allBlank_iff.mp hblank), rfl⟩
  · rintro ⟨h, hrank⟩
    cases h with
    | blank hblank => exact if_pos (Text.allBlank_iff.mpr hblank)
    | _ => cases hrank

end Shapes

/-! ## The order of shapes -/

/-- The readers of the shapes in their order. -/
def readers : List (List Char → Option Directive) :=
  [extends?, fromFile?, link?, component?, dependency?, commentLine?, value?, openBlock?, blank?]

theorem classify_eq_findSome? (cs : List Char) :
    classify cs = readers.findSome? fun read => read cs := by
  have hcons : ∀ (read : List Char → Option Directive) (others),
      (read :: others).findSome? (fun read => read cs) =
        (read cs <|> others.findSome? fun read => read cs) := by
    intro read others
    rw [List.findSome?_cons]
    cases read cs <;> rfl
  simp [readers, hcons, classify]

/-- A reader accepts the lines of the shape in its place. -/
theorem reader_eq_some (hplain : PlainBlanks line) {i : Nat}
    {read : List Char → Option Directive} (h : readers[i]? = some read) :
    read line = some d ↔ Reads line d ∧ d.rank = i := by
  match i, h with
  | 0, rfl => exact extends?_eq_some hplain
  | 1, rfl => exact fromFile?_eq_some hplain
  | 2, rfl => exact link?_eq_some hplain
  | 3, rfl => exact component?_eq_some hplain
  | 4, rfl => exact dependency?_eq_some hplain
  | 5, rfl => exact commentLine?_eq_some hplain
  | 6, rfl => exact value?_eq_some hplain
  | 7, rfl => exact openBlock?_eq_some hplain
  | 8, rfl => exact blank?_eq_some
  | i + 9, h => simp [readers] at h

theorem exists_reader (d : Directive) : ∃ read, readers[d.rank]? = some read := by
  cases d <;> exact ⟨_, rfl⟩

theorem classify_eq_none (hplain : PlainBlanks line) :
    classify line = none ↔ ∀ d, ¬ Reads line d := by
  rw [classify_eq_findSome?, List.findSome?_eq_none_iff]
  constructor
  · intro h d hd
    obtain ⟨read, hread⟩ := exists_reader d
    have hsome := (reader_eq_some hplain hread).mpr ⟨hd, rfl⟩
    rw [h read (List.mem_of_getElem? hread)] at hsome
    cases hsome
  · intro h read hmem
    obtain ⟨i, hread⟩ := List.mem_iff_getElem?.mp hmem
    cases hsome : read line with
    | none => rfl
    | some d => exact absurd ((reader_eq_some hplain hread).mp hsome).1 (h d)

theorem first_of_classify (hplain : PlainBlanks line) (h : classify line = some d) :
    Reads line d ∧ ∀ d', Reads line d' → d.rank ≤ d'.rank := by
  rw [classify_eq_findSome?, List.findSome?_eq_some_iff] at h
  obtain ⟨before, read, after, hreaders, hsome, hbefore⟩ := h
  have hread : readers[before.length]? = some read := by simp [hreaders]
  obtain ⟨hd, hrank⟩ := (reader_eq_some hplain hread).mp hsome
  refine ⟨hd, ?_⟩
  intro d' hd'
  by_contra hlt
  -- The reader of an earlier shape would have answered.
  obtain ⟨read', hread'⟩ := exists_reader d'
  have hmem : read' ∈ before := by
    rw [hreaders, List.getElem?_append_left (by omega)] at hread'
    exact List.mem_of_getElem? hread'
  have hsome' := (reader_eq_some hplain hread').mpr ⟨hd', rfl⟩
  rw [hbefore read' hmem] at hsome'
  cases hsome'

/-- **The grammar of lines.** What a line says is the first of the shapes that it has,
with the parts that it is put together from; it says nothing exactly if it has none. -/
theorem classify_first (line : List Char) (hplain : PlainBlanks line) :
    (∀ d, classify line = some d ↔
      Reads line d ∧ ∀ d', Reads line d' → d.rank ≤ d'.rank) ∧
    (classify line = none ↔ ∀ d, ¬ Reads line d) := by
  refine ⟨fun d => ⟨first_of_classify hplain, ?_⟩, classify_eq_none hplain⟩
  rintro ⟨hd, hleast⟩
  cases h : classify line with
  | none => exact absurd hd ((classify_eq_none hplain).mp h d)
  | some d' =>
      -- Both are first, so one reader answers with both of them.
      obtain ⟨hd', hleast'⟩ := first_of_classify hplain h
      have hrank : d'.rank = d.rank := Nat.le_antisymm (hleast' d hd) (hleast d' hd')
      obtain ⟨read, hread⟩ := exists_reader d
      have hsome := (reader_eq_some hplain hread).mpr ⟨hd, rfl⟩
      have hsome' := (reader_eq_some hplain hread).mpr ⟨hd', hrank⟩
      exact hsome'.symm.trans hsome

/-! A reference with brackets in it, in front of a name in brackets, and a line without a
shape. -/

def dependencyLine : List Char :=
  "@ a/b[c] [d]\t# e".toList

/-- The name is not part of the reference, but the brackets without a blank are. -/
theorem classify_first_brackets :
    Reads dependencyLine (.dependency "a/b[c]" (some "d")) ∧
    (∀ d, Reads dependencyLine d → 4 ≤ d.rank) ∧
    ¬ Reads dependencyLine (.dependency "a/b" (some "c")) ∧
    ∀ d, ¬ Reads "k = = x".toList d := by
  have hplain : PlainBlanks dependencyLine := by decide
  have hplain' : PlainBlanks "k = = x".toList := by decide
  obtain ⟨hd, hleast⟩ := ((classify_first dependencyLine hplain).1
    (.dependency "a/b[c]" (some "d"))).mp rfl
  refine ⟨hd, hleast, ?_, (classify_first "k = = x".toList hplain').2.mp rfl⟩
  intro h
  have hother := ((classify_first dependencyLine hplain).1
    (.dependency "a/b" (some "c"))).mpr ⟨h, hleast⟩
  exact absurd hother (by decide)

end Line

end ExerciseDoc
