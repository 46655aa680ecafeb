import ExerciseDoc.Proofs.Line.Parts
import ExerciseDoc.Proofs.Text.Fields

/-!
# Line — references

A reference is segments between single slashes, perhaps with a slash in front. Its reader
goes through the text once and remembers whether it is inside a segment (`Continues`);
what it finds is the longest reference that the rest of the line can stand behind
(`reference_eq_some`). Most lines have nothing behind a reference that could belong to
it, and then there is only one to find (`closingReference_append`). So it is in a line
that inherits (`extends?_append`), the one shape that has a reference and no key.
-/

namespace ExerciseDoc.Line

open Text (isBlank dropBlanks Stops stops_cons Blanks blanks_nil dropBlanks_eq
  dropBlanks_append)

variable {c : Char} {cs rest w u v : List Char}

/-! ## Paths and references -/

/-- Segments with one slash between neighbours. -/
def IsPath (u : List Char) : Prop :=
  ∃ segs, segs ≠ [] ∧ (∀ seg ∈ segs, seg ≠ [] ∧ ∀ c ∈ seg, isReferenceChar c) ∧
    u = Text.joinWith '/' segs

/-- A reference is a path, perhaps with a slash in front. -/
def IsReference (u : List Char) : Prop :=
  IsPath u ∨ ∃ path, u = '/' :: path ∧ IsPath path

/-- Whether a path is inside a segment behind a character, if the character belongs to
it. -/
def next (inside : Bool) (c : Char) : Option Bool :=
  if isReferenceChar c then some true else if inside && c == '/' then some false else none

theorem next_eq_some {inside after : Bool} : next inside c = some after ↔
    (isReferenceChar c ∧ after = true) ∨ (inside = true ∧ c = '/' ∧ after = false) := by
  unfold next
  split
  · rename_i hc
    have hslash : c ≠ '/' := by
      rintro rfl
      cases hc
    simp only [Option.some.injEq, hc, hslash, true_and, false_and, and_false, or_false]
    exact eq_comm
  · rename_i hc
    simp only [hc, Bool.and_eq_true, beq_iff_eq]
    cases after <;> simp

/-- The text goes on with a path, inside a segment or in front of one. -/
def Continues : Bool → List Char → Prop
  | inside, [] => inside
  | inside, c :: cs => ∃ after, next inside c = some after ∧ Continues after cs

theorem Continues.append {seg : List Char} {inside : Bool} (hseg : ∀ c ∈ seg, isReferenceChar c)
    (hrest : Continues true rest) (h : inside = true ∨ seg ≠ []) :
    Continues inside (seg ++ rest) := by
  induction seg generalizing inside with
  | nil =>
      rcases h with rfl | hne
      · exact hrest
      · exact absurd rfl hne
  | cons c seg ih =>
      obtain ⟨hc, hseg⟩ := List.forall_mem_cons.mp hseg
      exact ⟨true, next_eq_some.mpr (.inl ⟨hc, rfl⟩), ih hseg (.inl rfl)⟩

/-- The rest of a path is the rest of a segment and then whole segments. -/
theorem continues_iff {inside : Bool} : Continues inside u ↔
    ∃ seg segs, (inside = true ∨ seg ≠ []) ∧ (∀ c ∈ seg, isReferenceChar c) ∧
      (∀ s ∈ segs, s ≠ [] ∧ ∀ c ∈ s, isReferenceChar c) ∧
      u = Text.joinWith '/' (seg :: segs) := by
  constructor
  · intro h
    induction u generalizing inside with
    | nil => exact ⟨[], [], .inl h, List.forall_mem_nil _, List.forall_mem_nil _, rfl⟩
    | cons c cs ih =>
        obtain ⟨after, hnext, hcs⟩ := h
        obtain ⟨seg, segs, hne, hseg, hsegs, rfl⟩ := ih hcs
        rcases next_eq_some.mp hnext with ⟨hc, -⟩ | ⟨hinside, rfl, rfl⟩
        · refine ⟨c :: seg, segs, .inr (List.cons_ne_nil _ _),
            List.forall_mem_cons.mpr ⟨hc, hseg⟩, hsegs, ?_⟩
          cases segs <;> rfl
        · have hne : seg ≠ [] := hne.resolve_left Bool.false_ne_true
          exact ⟨[], seg :: segs, .inl hinside, List.forall_mem_nil _,
            List.forall_mem_cons.mpr ⟨⟨hne, hseg⟩, hsegs⟩, rfl⟩
  · rintro ⟨seg, segs, hne, hseg, hsegs, rfl⟩
    induction segs generalizing seg inside with
    | nil =>
        have hend : Continues true [] := rfl
        have h := Continues.append hseg hend hne
        rwa [List.append_nil] at h
    | cons first segs ih =>
        obtain ⟨⟨hfirst, hchars⟩, hsegs⟩ := List.forall_mem_cons.mp hsegs
        rw [Text.joinWith_cons '/' seg (List.cons_ne_nil _ _)]
        exact Continues.append hseg
          ⟨false, next_eq_some.mpr (.inr ⟨rfl, rfl, rfl⟩), ih first (.inr hfirst) hchars hsegs⟩
          hne

theorem isPath_iff : IsPath u ↔ Continues false u := by
  rw [continues_iff]
  constructor
  · rintro ⟨_ | ⟨seg, segs⟩, hne, hsegs, rfl⟩
    · exact absurd rfl hne
    · obtain ⟨⟨hseg, hchars⟩, hsegs⟩ := List.forall_mem_cons.mp hsegs
      exact ⟨seg, segs, .inr hseg, hchars, hsegs, rfl⟩
  · rintro ⟨seg, segs, hne | hne, hchars, hsegs, rfl⟩
    · cases hne
    · exact ⟨seg :: segs, List.cons_ne_nil _ _,
        List.forall_mem_cons.mpr ⟨⟨hne, hchars⟩, hsegs⟩, rfl⟩

/-! ## The longest text -/

/-- The longest text with `R` in front of another one, among those behind which `k` has
an answer. -/
structure Longest {α : Type} (R : List Char → Prop) (k : List Char → Option α)
    (cs u : List Char) (a : α) : Prop where
  found : ∃ rest, cs = u ++ rest ∧ k rest = some a
  fits : R u
  longest : ∀ u' rest', cs = u' ++ rest' → R u' → (k rest').isSome → u'.length ≤ u.length

theorem Longest.unique {α : Type} {R : List Char → Prop} {k : List Char → Option α}
    {a b : α} (hu : Longest R k cs u a) (hv : Longest R k cs v b) : u = v ∧ a = b := by
  obtain ⟨⟨rest, hcs, ha⟩, hfits, hlongest⟩ := hu
  obtain ⟨⟨rest', hcs', hb⟩, hfits', hlongest'⟩ := hv
  have hlength : u.length = v.length :=
    Nat.le_antisymm (hlongest' u rest hcs hfits (by rw [ha]; rfl))
      (hlongest v rest' hcs' hfits' (by rw [hb]; rfl))
  obtain ⟨rfl, rfl⟩ := List.append_inj (hcs.symm.trans hcs') hlength
  rw [ha] at hb
  exact ⟨rfl, Option.some.inj hb⟩

/-- A text is the longest one behind one more character if it is so without it. -/
theorem longest_cons_iff {α : Type} {R R' : List Char → Prop} {k : List Char → Option α}
    {a : α} (hR : ∀ u, R (c :: u) ↔ R' u) :
    Longest R k (c :: cs) (c :: u) a ↔ Longest R' k cs u a := by
  constructor
  · rintro ⟨⟨rest, happend, hk⟩, hfits, hlongest⟩
    refine ⟨⟨rest, List.cons.inj happend |>.2, hk⟩, (hR u).mp hfits, ?_⟩
    rintro u' rest' rfl hu' hsome
    exact Nat.le_of_succ_le_succ (hlongest (c :: u') rest' rfl ((hR u').mpr hu') hsome)
  · rintro ⟨⟨rest, rfl, hk⟩, hfits, hlongest⟩
    refine ⟨⟨rest, rfl, hk⟩, (hR u).mpr hfits, ?_⟩
    intro u' rest' happend hu' hsome
    cases u' with
    | nil => exact Nat.zero_le _
    | cons d u' =>
        obtain ⟨rfl, htail⟩ := List.cons.inj happend
        exact Nat.succ_le_succ (hlongest u' rest' htail ((hR u').mp hu') hsome)

theorem longest_congr {α : Type} {R R' : List Char → Prop} {k : List Char → Option α}
    {a : α} (h : ∀ u rest, cs = u ++ rest → (R u ↔ R' u)) :
    Longest R k cs u a ↔ Longest R' k cs u a := by
  constructor
  · rintro ⟨⟨rest, hcs, hk⟩, hfits, hlongest⟩
    exact ⟨⟨rest, hcs, hk⟩, (h u rest hcs).mp hfits, fun u' rest' hcs' hu' =>
      hlongest u' rest' hcs' ((h u' rest' hcs').mpr hu')⟩
  · rintro ⟨⟨rest, hcs, hk⟩, hfits, hlongest⟩
    exact ⟨⟨rest, hcs, hk⟩, (h u rest hcs).mpr hfits, fun u' rest' hcs' hu' =>
      hlongest u' rest' hcs' ((h u' rest' hcs').mp hu')⟩

/-- A text is the longest one where it stops. -/
theorem longest_of_stops {α : Type} {R : List Char → Prop} {k : List Char → Option α}
    {a : α} {q : Char → Bool} (hq : ∀ u, R u → ∀ c ∈ u, q c) (hu : R u)
    (hrest : Stops q rest) (hk : k rest = some a) : Longest R k (u ++ rest) u a := by
  refine ⟨⟨rest, rfl, hk⟩, hu, ?_⟩
  intro u' rest' happend hu' _
  rcases List.append_eq_append_iff.mp happend with ⟨x, rfl, rfl⟩ | ⟨x, rfl, -⟩
  · -- A longer text goes on with a character that has just been ruled out.
    cases x with
    | nil => simp
    | cons c x =>
        have hc := hq _ hu' c (by simp)
        rw [stops_cons.mp hrest] at hc
        cases hc
  · simp

/-! ## The reader of references -/

section Segments

variable {α : Type} {k : List Char → Option α} {inside : Bool} {a : α}

theorem segments_cons (k : List Char → Option α) (inside : Bool) (c : Char) (cs : List Char) :
    segments k inside (c :: cs) =
      (((next inside c).bind fun after => (segments k after cs).map fun (u, a) => (c :: u, a)) <|>
        if inside then (k (c :: cs)).map fun a => ([], a) else none) := by
  rw [segments, next]
  congr 1
  split
  · rfl
  · split <;> rfl

/-- A path is found if there is one. -/
theorem isSome_segments (hu : Continues inside u) (hk : (k rest).isSome) :
    (segments k inside (u ++ rest)).isSome := by
  induction u generalizing inside with
  | nil =>
      have hinside : inside = true := hu
      subst hinside
      cases rest with
      | nil => simpa [segments] using hk
      | cons c rest => simp [segments_cons, hk]
  | cons c u ih =>
      obtain ⟨after, hnext, hu⟩ := hu
      simp [segments_cons, hnext, ih hu]

theorem longest_of_segments {u : List Char} (h : segments k inside cs = some (u, a)) :
    Longest (Continues inside) k cs u a := by
  induction cs generalizing inside u with
  | nil =>
      rw [segments] at h
      split at h
      · rename_i hinside
        obtain ⟨b, hb, hpair⟩ := Option.map_eq_some_iff.mp h
        cases hpair
        refine ⟨⟨[], rfl, hb⟩, hinside, ?_⟩
        intro u' rest' happend _ _
        rw [(List.append_eq_nil_iff.mp happend.symm).1]
      · cases h
  | cons c cs ih =>
      rw [segments_cons] at h
      rcases (Option.orElse_eq_some _ _ _).mp h with hlonger | ⟨hnone, hend⟩
      · obtain ⟨after, hnext, hrest⟩ := Option.bind_eq_some_iff.mp hlonger
        obtain ⟨⟨u', a'⟩, hrest, hpair⟩ := Option.map_eq_some_iff.mp hrest
        cases hpair
        refine (longest_cons_iff fun u => ?_).mpr (ih hrest)
        simp [Continues, hnext]
      · split at hend
        · rename_i hinside
          obtain ⟨b, hb, hpair⟩ := Option.map_eq_some_iff.mp hend
          cases hpair
          refine ⟨⟨c :: cs, rfl, hb⟩, hinside, ?_⟩
          intro u' rest' happend hu' hsome
          -- A path that takes the first character would have been found before.
          cases u' with
          | nil => exact Nat.zero_le _
          | cons d u' =>
              rw [List.cons_append] at happend
              obtain ⟨rfl, rfl⟩ := List.cons.inj happend
              obtain ⟨after, hnext, hu'⟩ := hu'
              have hfound := isSome_segments hu' hsome
              rw [hnext, Option.bind_some, Option.map_eq_none_iff] at hnone
              rw [hnone] at hfound
              cases hfound
        · cases hend

theorem segments_eq_some :
    segments k inside cs = some (u, a) ↔ Longest (Continues inside) k cs u a := by
  refine ⟨longest_of_segments, ?_⟩
  intro h
  obtain ⟨⟨rest, rfl, hk⟩, hu, -⟩ := id h
  have hsome : (k rest).isSome := by
    rw [hk]
    rfl
  obtain ⟨⟨v, b⟩, hfound⟩ := Option.isSome_iff_exists.mp (isSome_segments hu hsome)
  obtain ⟨rfl, rfl⟩ := (longest_of_segments hfound).unique h
  exact hfound

/-- The reference in front is the longest one that `k` can go on behind. -/
theorem reference_eq_some :
    reference k cs = some (u, a) ↔ Longest IsReference k cs u a := by
  unfold reference
  split
  · rename_i cs
    have hslash : ∀ u, IsReference ('/' :: u) ↔ Continues false u := by
      intro u
      simp [IsReference, isPath_iff, Continues, next, isReferenceChar]
    constructor
    · intro h
      obtain ⟨⟨path, b⟩, hfound, hpair⟩ := Option.map_eq_some_iff.mp h
      cases hpair
      exact (longest_cons_iff hslash).mpr (segments_eq_some.mp hfound)
    · intro h
      obtain ⟨⟨rest, hcs, -⟩, hu, -⟩ := id h
      cases u with
      | nil => simp [IsReference, isPath_iff, Continues] at hu
      | cons d path =>
          obtain ⟨rfl, -⟩ := List.cons.inj hcs
          rw [segments_eq_some.mpr ((longest_cons_iff hslash).mp h)]
          rfl
  · rename_i hother
    rw [segments_eq_some]
    refine longest_congr fun u rest happend => ?_
    rw [IsReference, isPath_iff]
    constructor
    · exact .inl
    · rintro (hpath | ⟨path, rfl, -⟩)
      · exact hpath
      · exact absurd happend (hother (path ++ rest))

end Segments

/-- The characters of references. -/
def isPathChar (c : Char) : Bool :=
  isReferenceChar c || c == '/'

theorem Continues.chars {inside : Bool} (h : Continues inside u) : ∀ c ∈ u, isPathChar c := by
  induction u generalizing inside with
  | nil => exact List.forall_mem_nil _
  | cons c u ih =>
      obtain ⟨after, hnext, hu⟩ := h
      refine List.forall_mem_cons.mpr ⟨?_, ih hu⟩
      rcases next_eq_some.mp hnext with ⟨hc, -⟩ | ⟨-, rfl, -⟩
      · simp [isPathChar, hc]
      · rfl

theorem IsReference.ne_nil (h : IsReference u) : u ≠ [] := by
  rintro rfl
  rcases h with hpath | ⟨path, hslash, -⟩
  · cases isPath_iff.mp hpath
  · cases hslash

theorem IsReference.chars (h : IsReference u) : ∀ c ∈ u, isPathChar c := by
  rcases h with hpath | ⟨path, rfl, hpath⟩
  · exact (isPath_iff.mp hpath).chars
  · exact List.forall_mem_cons.mpr ⟨rfl, (isPath_iff.mp hpath).chars⟩

/-! ## Longer and shorter references -/

theorem isReference_iff : IsReference u ↔
    Continues false u ∨ ∃ path, u = '/' :: path ∧ Continues false path := by
  simp only [IsReference, isPath_iff]

theorem continues_cons_of_char {inside : Bool} (hc : isReferenceChar c) :
    Continues inside (c :: u) ↔ Continues true u := by
  simp [Continues, next, hc]

/-- What goes on in front of a segment also goes on inside one. -/
theorem Continues.inside (h : Continues false u) : Continues true u := by
  cases u with
  | nil => cases h
  | cons c u =>
      obtain ⟨after, hnext, hu⟩ := h
      rcases next_eq_some.mp hnext with ⟨hc, rfl⟩ | ⟨hinside, -⟩
      · exact (continues_cons_of_char hc).mpr hu
      · cases hinside

theorem IsReference.continues (h : IsReference u) : Continues true u := by
  rcases isReference_iff.mp h with hpath | ⟨path, rfl, hpath⟩
  · exact hpath.inside
  · exact ⟨false, next_eq_some.mpr (.inr ⟨rfl, rfl, rfl⟩), hpath⟩

theorem Continues.append_chars {inside : Bool} (h : Continues inside u)
    (hv : ∀ c ∈ v, isReferenceChar c) : Continues inside (u ++ v) := by
  induction u generalizing inside with
  | nil =>
      have hinside : inside = true := h
      have hend : Continues true [] := rfl
      have hseg := Continues.append hv hend (.inl hinside)
      rwa [List.append_nil] at hseg
  | cons c u ih =>
      obtain ⟨after, hnext, hu⟩ := h
      exact ⟨after, hnext, ih hu⟩

/-- A reference ends inside a segment, so the segment can be longer. -/
theorem IsReference.append_chars (h : IsReference u) (hv : ∀ c ∈ v, isReferenceChar c) :
    IsReference (u ++ v) := by
  rw [isReference_iff] at h ⊢
  rcases h with hpath | ⟨path, rfl, hpath⟩
  · exact .inl (hpath.append_chars hv)
  · exact .inr ⟨path ++ v, rfl, hpath.append_chars hv⟩

/-- One segment is a reference. -/
theorem isReference_of_chars (hne : u ≠ []) (h : ∀ c ∈ u, isReferenceChar c) :
    IsReference u := by
  have hend : Continues true [] := rfl
  have hseg : Continues false (u ++ []) := Continues.append h hend (.inr hne)
  rw [List.append_nil] at hseg
  exact isReference_iff.mpr (.inl hseg)

/-- Without the first character of its first segment a reference is still one, if anything
is left. -/
theorem IsReference.tail (h : IsReference (c :: u)) (hc : c ≠ '/') (hne : u ≠ []) :
    IsReference u := by
  have hu : Continues true u := by
    rcases isReference_iff.mp h with ⟨after, hnext, hu⟩ | ⟨path, hslash, -⟩
    · rcases next_eq_some.mp hnext with ⟨-, rfl⟩ | ⟨-, hslash, -⟩
      · exact hu
      · exact absurd hslash hc
    · exact absurd (List.cons.inj hslash).1 hc
  cases u with
  | nil => exact absurd rfl hne
  | cons d u =>
      obtain ⟨after, hnext, hu⟩ := hu
      rcases next_eq_some.mp hnext with ⟨hd, rfl⟩ | ⟨-, rfl, rfl⟩
      · exact isReference_iff.mpr (.inl ((continues_cons_of_char hd).mpr hu))
      · exact isReference_iff.mpr (.inr ⟨u, rfl, hu⟩)

/-! ## Gaps -/

/-- Spaces and tabs, perhaps none: the blanks of a line that no reference has. -/
def Gap (w : List Char) : Prop :=
  ∀ c ∈ w, c = ' ' ∨ c = '\t'

instance (w : List Char) : Decidable (Gap w) :=
  decidable_of_iff (w.all fun c => c == ' ' || c == '\t') (by simp [Gap])

theorem Gap.blanks (h : Gap w) : Blanks w := by
  intro c hc
  rcases h c hc with rfl | rfl <;> rfl

theorem Gap.not_isPathChar (h : Gap w) (hc : c ∈ w) : isPathChar c = false := by
  rcases h c hc with rfl | rfl <;> rfl

/-! ## References behind blanks -/

section Blanks

variable {α : Type} {f : List Char → Option α} {a : α}

/-- What is found behind blanks is found with more of them in front. -/
theorem pastBlanks_of_behind (hw : Blanks w) (h : pastBlanks f rest = some a) :
    pastBlanks f (w ++ rest) = some a := by
  induction w with
  | nil => exact h
  | cons c w ih =>
      obtain ⟨hc, hw⟩ := List.forall_mem_cons.mp hw
      rw [List.cons_append, pastBlanks, if_pos hc, ih hw]
      rfl

theorem pastBlanks_of_some (hw : Blanks w) (hrest : Stops isBlank rest) (h : f rest = some a) :
    pastBlanks f (w ++ rest) = some a := by
  refine pastBlanks_of_behind hw ?_
  cases rest with
  | nil => exact h
  | cons c cs => rwa [pastBlanks, if_neg (Bool.eq_false_iff.mp (stops_cons.mp hrest))]

theorem of_pastBlanks (h : pastBlanks f cs = some a) :
    ∃ w rest, cs = w ++ rest ∧ Blanks w ∧ f rest = some a := by
  induction cs with
  | nil => exact ⟨[], [], rfl, blanks_nil, h⟩
  | cons c cs ih =>
      rw [pastBlanks] at h
      split at h
      · rename_i hc
        rcases (Option.orElse_eq_some _ _ _).mp h with h | ⟨-, h⟩
        · obtain ⟨w, rest, rfl, hw, hrest⟩ := ih h
          exact ⟨c :: w, rest, rfl, List.forall_mem_cons.mpr ⟨hc, hw⟩, hrest⟩
        · exact ⟨[], c :: cs, rfl, blanks_nil, h⟩
      · exact ⟨[], c :: cs, rfl, blanks_nil, h⟩

end Blanks

/-- A reference that ends a line is read to where it stops. -/
theorem closingReference_append (hw : Blanks w) (hu : IsReference u)
    (hfront : Stops isBlank (u ++ rest)) (hrest : IsEnd rest) (hstops : Stops isPathChar rest)
    (hfeed : '\n' ∉ rest) : closingReference (w ++ (u ++ rest)) = some (String.ofList u) := by
  have hlongest : Longest IsReference (fun rest => if closes rest then some () else none)
      (u ++ rest) u () :=
    longest_of_stops (fun _ h => h.chars) hu hstops (if_pos ((closes_iff hfeed).mpr hrest))
  rw [closingReference, pastBlanks_of_some hw hfront (reference_eq_some.mpr hlongest)]
  rfl

theorem of_closingReference {s : String} (hfeed : '\n' ∉ cs)
    (h : closingReference cs = some s) :
    ∃ w u rest, cs = w ++ (u ++ rest) ∧ Blanks w ∧ IsReference u ∧ IsEnd rest ∧
      s = String.ofList u := by
  obtain ⟨⟨u, _⟩, hfound, rfl⟩ := Option.map_eq_some_iff.mp h
  obtain ⟨w, _, rfl, hw, hfound⟩ := of_pastBlanks hfound
  obtain ⟨⟨rest, rfl, hend⟩, hu, -⟩ := reference_eq_some.mp hfound
  have hcloses : closes rest := (Option.ite_none_right_eq_some.mp hend).1
  have hfeed : '\n' ∉ rest := fun hmem => hfeed (by simp [hmem])
  exact ⟨w, u, rest, rfl, hw, hu, (closes_iff hfeed).mp hcloses, rfl⟩

/-! ## Lines that inherit -/

theorem extends?_append {word w : List Char}
    (hword : word = "extends".toList ∨ word = "template".toList) (hw : Blanks w) :
    extends? (word ++ (w ++ '=' :: rest)) = (closingReference rest).map .extends := by
  have hfront : ("extends".toList.isPrefixOf? (word ++ (w ++ '=' :: rest)) <|>
      "template".toList.isPrefixOf? (word ++ (w ++ '=' :: rest))) = some (w ++ '=' :: rest) := by
    have hstart := List.isPrefixOf?_eq_some_iff_append_eq.mpr
      (rfl : word ++ (w ++ '=' :: rest) = word ++ (w ++ '=' :: rest))
    rcases hword with rfl | rfl
    · rw [hstart]
      rfl
    · rw [hstart]
      rfl
  have hsign : dropBlanks (w ++ '=' :: rest) = '=' :: rest :=
    dropBlanks_append hw (stops_cons.mpr rfl)
  simp only [extends?, hfront, hsign]

theorem of_extends? {d : Directive} (h : extends? cs = some d) :
    ∃ word w rest, (word = "extends".toList ∨ word = "template".toList) ∧
      cs = word ++ (w ++ '=' :: rest) ∧ Blanks w ∧
      (closingReference rest).map .extends = some d := by
  unfold extends? at h
  split at h
  · cases h
  · rename_i behind hfront
    obtain ⟨word, hword, rfl⟩ : ∃ word, (word = "extends".toList ∨ word = "template".toList) ∧
        cs = word ++ behind := by
      rcases (Option.orElse_eq_some _ _ _).mp hfront with h | ⟨-, h⟩
      · exact ⟨_, .inl rfl, (List.isPrefixOf?_eq_some_iff_append_eq.mp h).symm⟩
      · exact ⟨_, .inr rfl, (List.isPrefixOf?_eq_some_iff_append_eq.mp h).symm⟩
    split at h
    · rename_i rest hsign
      obtain ⟨w, rfl, hw, -⟩ := dropBlanks_eq.mp hsign
      exact ⟨word, w, rest, hword, rfl, hw, h⟩
    · cases h

/-! ## Lines that lead to a file -/

theorem of_fromFile? {d : Directive} (h : fromFile? cs = some d) :
    ∃ k w token op rest, cs = k ++ (w ++ (token ++ rest)) ∧ IsKey k ∧ Blanks w ∧
      Loads op token ∧
      (closingReference rest).map (.fromFile (String.ofList k) op) = some d := by
  unfold fromFile? at h
  split at h
  · cases h
  · rename_i k behind hkey
    split at h
    · cases h
    · rename_i op rest hop
      obtain ⟨w, rfl, hk, hw, -⟩ := key_eq_some.mp hkey
      obtain ⟨token, htoken, rfl⟩ := operator_file.mp hop
      exact ⟨k, w, token, op, rest, rfl, hk, hw, htoken, h⟩

theorem of_link? {d : Directive} (h : link? cs = some d) :
    ∃ k w rest, cs = k ++ (w ++ '=' :: '$' :: rest) ∧ IsKey k ∧ Blanks w ∧
      (closingReference rest).map (.link (String.ofList k)) = some d := by
  unfold link? at h
  split at h
  · rename_i k rest hkey
    obtain ⟨w, rfl, hk, hw, -⟩ := key_eq_some.mp hkey
    exact ⟨k, w, rest, rfl, hk, hw, h⟩
  · cases h

end ExerciseDoc.Line
