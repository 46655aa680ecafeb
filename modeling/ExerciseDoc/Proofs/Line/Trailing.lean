import ExerciseDoc.Proofs.Line.Padded

/-!
# Line — blanks at the end

Blanks at the end of a line are insignificant, except to a reference: spaces and tabs end
it, but any other blank can be one of its characters. So a reference behind which more
blanks are put is the same as before, or else it goes on into them, and then there is one
way to do so only, since it is as long as it can be (`Takes`). This settles the shapes that
end with a reference (`read_append_blanks`), and `classify_append_blanks` all lines.
-/

namespace ExerciseDoc.Line

open Text (isBlank dropBlanks Stops stops_nil stops_cons Blanks blanks_nil exists_dropBlanks)

variable {c : Char} {front line r s u v w f g rest : List Char} {shape : Shape}
  {make : String → Directive}

/-! ## References that take blanks -/

/-- With the blanks `s` behind it, the text `r` is read as the reference `u`, which ends with
some of them. -/
inductive Takes (r s : List Char) : List Char → Prop where
  /-- The reference starts in front of them and takes as many as it can. -/
  | further {w f t rest : List Char} :
      r = w ++ f → Blanks w → f ≠ [] → Stops isBlank f →
      s = t ++ rest → t ≠ [] → (∀ c ∈ t, isReferenceChar c) → Stops isReferenceChar rest →
      IsReference (f ++ t) → Takes r s (f ++ t)
  /-- Nothing stands in front of them, and the reference is the last one that can be. -/
  | alone {s₁ s₂ : List Char} {c : Char} :
      Blanks r → s = s₁ ++ c :: s₂ → isReferenceChar c →
      (∀ d ∈ s₂, isReferenceChar d = false) → Takes r s [c]

/-- Spaces and tabs are not taken. -/
theorem Takes.not_gap (h : Takes r s u) : ¬ Gap s := by
  intro hgap
  have hnone : ∀ c ∈ s, isReferenceChar c = false := by
    intro c hc
    have hpath := hgap.not_isPathChar hc
    simp only [isPathChar, Bool.or_eq_false_iff] at hpath
    exact hpath.1
  cases h with
  | @further w f t rest _ _ _ _ hs ht hchars =>
      obtain ⟨c, hc⟩ := List.exists_mem_of_ne_nil t ht
      have hchar := hchars c hc
      rw [hnone c (by simp [hs, hc])] at hchar
      cases hchar
  | @alone s₁ s₂ c _ hs hc =>
      rw [hnone c (by simp [hs])] at hc
      cases hc

/-- The slash is no blank. -/
theorem isPathChar_of_isBlank (h : isBlank c) : isPathChar c = isReferenceChar c := by
  have hslash : c ≠ '/' := by
    rintro rfl
    cases h
  simp [isPathChar, hslash]

theorem exists_takes_of_blanks (hr : Blanks r) (hmem : c ∈ s) (hc : isReferenceChar c) :
    ∃ u, Takes r s u := by
  have hfound : (s.reverse.find? isReferenceChar).isSome :=
    List.find?_isSome.mpr ⟨c, List.mem_reverse.mpr hmem, hc⟩
  obtain ⟨d, hd⟩ := Option.isSome_iff_exists.mp hfound
  obtain ⟨hchar, back, front, hs, hback⟩ := List.find?_eq_some_iff_append.mp hd
  have happend : s = front.reverse ++ d :: back.reverse := by
    have h := congrArg List.reverse hs
    simpa using h
  refine ⟨[d], .alone hr happend hchar ?_⟩
  intro e he
  simpa using hback e (List.mem_reverse.mp he)

/-- Without blanks in front a reference is still one, if there is anything else in it. -/
theorem IsReference.of_blanks_append (hv : Blanks v) (hne : u ≠ [])
    (h : IsReference (v ++ u)) : IsReference u := by
  induction v with
  | nil => exact h
  | cons c v ih =>
      obtain ⟨hc, hv⟩ := List.forall_mem_cons.mp hv
      have hslash : c ≠ '/' := by
        rintro rfl
        cases hc
      exact ih hv (IsReference.tail h hslash (by simp [hne]))

/-- If any reference behind blanks goes on into the blanks at the end, one takes them. -/
theorem exists_takes (hs : Blanks s) (hr : r = v ++ g) (hv : Blanks v)
    (happend : g ++ s = u ++ rest) (hu : IsReference u) (hlonger : g.length < u.length) :
    ∃ u, Takes r s u := by
  obtain ⟨t, rfl, rfl⟩ : ∃ t, u = g ++ t ∧ s = t ++ rest := by
    rcases List.append_eq_append_iff.mp happend with h | ⟨x, rfl, -⟩
    · exact h
    · rw [List.length_append] at hlonger
      omega
  have ht : t ≠ [] := by
    rintro rfl
    simp at hlonger
  have hchars : ∀ c ∈ t, isReferenceChar c := by
    intro c hc
    rw [← isPathChar_of_isBlank (hs c (List.mem_append_left rest hc))]
    exact hu.chars c (List.mem_append_right g hc)
  by_cases hblank : Blanks r
  · obtain ⟨c, hc⟩ := List.exists_mem_of_ne_nil t ht
    exact exists_takes_of_blanks hblank (List.mem_append_left rest hc) (hchars c hc)
  · obtain ⟨w, hline, hw, hstops⟩ := exists_dropBlanks r
    have hne : dropBlanks r ≠ [] := by
      intro hnil
      rw [hnil, List.append_nil] at hline
      exact hblank (hline ▸ hw)
    -- All blanks in front that the reference has can be left out of it.
    obtain ⟨v', rfl, hv'⟩ : ∃ v', g = v' ++ dropBlanks r ∧ Blanks v' := by
      rcases List.append_eq_append_iff.mp (hr.symm.trans hline) with ⟨x, rfl, hg⟩ | ⟨x, rfl, hg⟩
      · exact ⟨x, hg, fun c hc => hw c (List.mem_append_right v hc)⟩
      · cases x with
        | nil => exact ⟨[], hg.symm, blanks_nil⟩
        | cons c x =>
            have hc := hv c (by simp)
            rw [hg, List.cons_append, stops_cons] at hstops
            rw [hstops] at hc
            cases hc
    rw [List.append_assoc] at hu
    have hfirst := hu.of_blanks_append hv' (by simp [hne])
    have hmost := hfirst.append_chars (v := rest.takeWhile isReferenceChar)
      fun _ => List.mem_takeWhile_imp
    rw [List.append_assoc] at hmost
    have happend : t ++ rest = t ++ rest.takeWhile isReferenceChar ++
        rest.dropWhile isReferenceChar := by
      rw [List.append_assoc, List.takeWhile_append_dropWhile]
    refine ⟨_, .further hline hw hne hstops happend (by simp [ht]) ?_
      (Text.stops_dropWhile _ _) hmost⟩
    intro c hc
    rcases List.mem_append.mp hc with hc | hc
    · exact hchars c hc
    · exact List.mem_takeWhile_imp hc

/-! ## What is read behind blanks -/

section Reading

variable {α : Type} {k : List Char → Option α} {e : α}

/-- `k` reads the end of a line: it finds `e` where nothing is left, and more blanks change
nothing for it. -/
structure ReadsEnd (k : List Char → Option α) (e : α) : Prop where
  nil : k [] = some e
  padded : ∀ cs cs', Padded cs cs' → k cs' = k cs

theorem ReadsEnd.blanks (hk : ReadsEnd k e) (hw : Blanks w) : k w = some e := by
  rw [hk.padded [] w ⟨List.not_mem_nil, w, rfl, hw⟩, hk.nil]

theorem readsEnd_closes : ReadsEnd (fun rest => if closes rest then some () else none) () where
  nil := rfl
  padded _ _ h := by simp only [h.closes_eq]

theorem readsEnd_dependencyEnd : ReadsEnd dependencyEnd none where
  nil := rfl
  padded _ _ h := h.dependencyEnd_eq

/-- No reference is found where no character can be part of one. -/
theorem pastBlanks_reference_eq_none (h : ∀ c ∈ rest, isPathChar c = false) :
    pastBlanks (reference k) rest = none := by
  rw [Option.eq_none_iff_forall_ne_some]
  rintro ⟨u, a⟩ hfound
  obtain ⟨w, behind, rfl, -, hread⟩ := of_pastBlanks hfound
  obtain ⟨⟨tail, rfl, -⟩, hu, -⟩ := reference_eq_some.mp hread
  obtain ⟨c, hc⟩ := List.exists_mem_of_ne_nil u hu.ne_nil
  have hchar := hu.chars c hc
  rw [h c (by simp [hc])] at hchar
  cases hchar

/-- A reference up to the end of a line is read as a whole. -/
theorem pastBlanks_reference_of_end (hk : ReadsEnd k e) (hw : Blanks w) (hf : Stops isBlank f)
    (hreference : IsReference f) : pastBlanks (reference k) (w ++ f) = some (f, e) := by
  have hlongest := longest_of_stops (fun _ h => h.chars) hreference stops_nil hk.nil
  rw [List.append_nil] at hlongest
  exact pastBlanks_of_some hw hf (reference_eq_some.mpr hlongest)

/-- A reference that takes blanks is what is read. -/
theorem Takes.pastBlanks (hk : ReadsEnd k e) (hs : Blanks s) (h : Takes r s u) :
    pastBlanks (reference k) (r ++ s) = some (u, e) := by
  have hpath : ∀ {rest}, rest ⊆ s → Stops isReferenceChar rest → Stops isPathChar rest := by
    intro rest hsub hrest c hc
    rw [isPathChar_of_isBlank (hs c (hsub (List.mem_of_mem_head? hc)))]
    exact hrest c hc
  cases h with
  | @further w f t rest hr hw hne hf hs' ht hchars hrest hreference =>
      have hsub : rest ⊆ s := by simp [hs']
      have hend : k rest = some e := hk.blanks fun c hc => hs c (hsub hc)
      have hlongest := longest_of_stops (fun _ h => h.chars) hreference (hpath hsub hrest) hend
      have hfront : Stops isBlank (f ++ t ++ rest) := by
        obtain ⟨c, f, rfl⟩ := List.exists_cons_of_ne_nil hne
        exact stops_cons.mpr (stops_cons.mp hf)
      rw [hr, hs', List.append_assoc, ← List.append_assoc f]
      exact pastBlanks_of_some hw hfront (reference_eq_some.mpr hlongest)
  | @alone s₁ s₂ c hr hs' hc hlast =>
      have hsub : s₂ ⊆ s := fun d hd => by simp [hs', hd]
      have hblank : isBlank c := hs c (by simp [hs'])
      have hnone : ∀ d ∈ s₂, isPathChar d = false := by
        intro d hd
        rw [isPathChar_of_isBlank (hs d (hsub hd))]
        exact hlast d hd
      have hone : IsReference [c] :=
        isReference_of_chars (List.cons_ne_nil _ _) (List.forall_mem_singleton.mpr hc)
      have hstops : Stops isPathChar s₂ := fun d hd => hnone d (List.mem_of_mem_head? hd)
      have hend : k s₂ = some e := hk.blanks fun d hd => hs d (hsub hd)
      have hlongest := longest_of_stops (fun _ h => h.chars) hone hstops hend
      have hfront : Blanks (r ++ s₁) :=
        List.forall_mem_append.mpr ⟨hr, fun d hd => hs d (by simp [hs', hd])⟩
      rw [hs', ← List.append_assoc]
      refine pastBlanks_of_behind hfront ?_
      -- Behind the last character that can be one there is no reference.
      rw [Line.pastBlanks, if_pos hblank, pastBlanks_reference_eq_none hnone]
      exact reference_eq_some.mpr hlongest

/-- What is read behind blanks stays the same if it does so behind each of them. -/
theorem pastBlanks_append {f : List Char → Option α}
    (h : ∀ v g, r = v ++ g → Blanks v → f (g ++ s) = f g)
    (hend : Blanks r → pastBlanks f s = f []) : pastBlanks f (r ++ s) = pastBlanks f r := by
  induction r with
  | nil => exact hend blanks_nil
  | cons c r ih =>
      have hself : f (c :: (r ++ s)) = f (c :: r) := h [] (c :: r) rfl blanks_nil
      rw [List.cons_append, pastBlanks, pastBlanks, hself]
      by_cases hc : isBlank c
      · have hcons : ∀ v, Blanks v → Blanks (c :: v) := fun v hv =>
          List.forall_mem_cons.mpr ⟨hc, hv⟩
        rw [ih (fun v g hg hv => h (c :: v) g (by rw [hg]; rfl) (hcons v hv))
          (fun hr => hend (hcons r hr))]
      · rw [if_neg hc, if_neg hc]

/-- The longest reference stays the same if no longer one goes on into the blanks. -/
theorem reference_append (hk : ReadsEnd k e) (hs : Blanks s) (hg : '#' ∉ g)
    (hmost : ∀ u rest, g ++ s = u ++ rest → IsReference u → u.length ≤ g.length) :
    reference k (g ++ s) = reference k g := by
  have hinside : ∀ {u rest}, g ++ s = u ++ rest → u.length ≤ g.length →
      ∃ behind, g = u ++ behind ∧ rest = behind ++ s := by
    intro u rest happend hle
    rcases List.append_eq_append_iff.mp happend with ⟨x, rfl, rfl⟩ | h
    · rw [List.length_append] at hle
      obtain rfl : x = [] := List.eq_nil_of_length_eq_zero (by omega)
      exact ⟨[], by simp⟩
    · exact h
  have hend : ∀ {u behind}, g = u ++ behind → k (behind ++ s) = k behind := by
    rintro u behind rfl
    exact hk.padded _ _ (padded_append (fun hmem => hg (List.mem_append_right u hmem)) hs)
  refine Option.ext fun found => ?_
  obtain ⟨u, a⟩ := found
  rw [reference_eq_some, reference_eq_some]
  constructor
  · rintro ⟨⟨rest, happend, ha⟩, hu, hlongest⟩
    obtain ⟨behind, hcs, rfl⟩ := hinside happend (hmost u rest happend hu)
    refine ⟨⟨behind, hcs, by rw [← hend hcs, ha]⟩, hu, ?_⟩
    intro u' behind' hcs' hu' hsome
    exact hlongest u' (behind' ++ s) (by rw [hcs', List.append_assoc]) hu'
      (by rwa [hend hcs'])
  · rintro ⟨⟨behind, hcs, ha⟩, hu, hlongest⟩
    refine ⟨⟨behind ++ s, by rw [hcs, List.append_assoc], by rw [hend hcs, ha]⟩, hu, ?_⟩
    intro u' rest happend hu' hsome
    obtain ⟨behind', hcs', rfl⟩ := hinside happend (hmost u' rest happend hu')
    exact hlongest u' behind' hcs' hu' (by rwa [hend hcs'] at hsome)

/-- Where no reference takes blanks, they change nothing. -/
theorem pastBlanks_reference_append (hk : ReadsEnd k e) (hr : '#' ∉ r) (hs : Blanks s)
    (hnone : ¬ ∃ u, Takes r s u) :
    pastBlanks (reference k) (r ++ s) = pastBlanks (reference k) r := by
  refine pastBlanks_append (fun v g hg hv => ?_) fun hblank => ?_
  · refine reference_append hk hs (fun hmem => hr (by simp [hg, hmem])) ?_
    intro u rest happend hu
    by_contra hlonger
    exact hnone (exists_takes hs hg hv happend hu (by omega))
  · refine pastBlanks_reference_eq_none fun c hc => ?_
    rw [isPathChar_of_isBlank (hs c hc), Bool.eq_false_iff]
    intro hchar
    exact hnone (exists_takes_of_blanks hblank hc hchar)

end Reading

/-! ## Shapes with a reference at the end -/

/-- Lines of the shape can end with a reference. -/
def Shape.refers : Shape → Bool
  | .extends | .fromFile | .link | .dependency => true
  | _ => false

/-- In a line of the shape a reference stands behind `front`, and then the line says what
`make` makes of it. -/
inductive Leads : Shape → List Char → (String → Directive) → Prop where
  | extends {word w : List Char} :
      word = "extends".toList ∨ word = "template".toList → Blanks w →
      Leads .extends (word ++ (w ++ ['='])) .extends
  | fromFile {k w token : List Char} {op : Operator} :
      IsKey k → Blanks w → Loads op token →
      Leads .fromFile (k ++ (w ++ token)) (.fromFile (String.ofList k) op)
  | link {k w : List Char} :
      IsKey k → Blanks w → Leads .link (k ++ (w ++ ['=', '$'])) (.link (String.ofList k))
  | dependency : Leads .dependency ['@'] fun u => .dependency u none

/-- The last character in front of a reference is a sign. -/
theorem Leads.back (h : Leads shape front make) : Stops isBlank front.reverse := by
  cases h with
  | «extends» => simp [isBlank]
  | fromFile _ _ htoken => rcases htoken with rfl | ⟨-, rfl⟩ <;> simp [isBlank]
  | link => simp [isBlank]
  | dependency => simp [isBlank]

theorem Leads.read_closing (h : Leads shape front make) (hshape : shape ≠ .dependency) :
    shape.read (front ++ r) = (closingReference r).map make := by
  cases h with
  | @«extends» word w hword hw =>
      simpa [Shape.read] using extends?_append hword hw
  | @fromFile k w token op hk hw htoken =>
      have hop : operator fileOperators (token ++ r) = some (op, r) :=
        operator_file.mpr ⟨token, htoken, rfl⟩
      obtain ⟨tail, rfl⟩ := htoken.eq_cons
      rw [List.cons_append] at hop
      have hkey : key (k ++ (w ++ op.sign :: tail) ++ r) = some (k, op.sign :: (tail ++ r)) := by
        simpa using key_append_sign op hk hw
      simp only [Shape.read, fromFile?, hkey, hop]
  | @link k w hk hw =>
      have hkey : key (k ++ (w ++ ['=', '$']) ++ r) = some (k, '=' :: '$' :: r) := by
        simpa [Operator.sign] using key_append_sign .assign hk hw
      simp only [Shape.read, link?, hkey]
  | dependency => exact absurd rfl hshape

/-- What such a shape reads behind the front. -/
theorem Leads.read (h : Leads shape front make) :
    ∃ (α : Type) (k : List Char → Option α) (e : α) (say : List Char × α → Directive),
      ReadsEnd k e ∧ (∀ u, say (u, e) = make (String.ofList u)) ∧
      ∀ r, shape.read (front ++ r) = (pastBlanks (reference k) r).map say := by
  by_cases hshape : shape = .dependency
  · subst hshape
    cases h
    exact ⟨Option String, dependencyEnd, none,
      fun found => .dependency (String.ofList found.1) found.2, readsEnd_dependencyEnd,
      fun _ => rfl, fun _ => rfl⟩
  · refine ⟨Unit, _, (), fun found => make (String.ofList found.1), readsEnd_closes,
      fun _ => rfl, fun r => ?_⟩
    rw [h.read_closing hshape, closingReference, Option.map_map]
    rfl

/-- A line of such a shape has such a front. -/
theorem exists_leads {d : Directive} {cs : List Char} (hshape : shape.refers)
    (h : shape.read cs = some d) : ∃ front make r, cs = front ++ r ∧ Leads shape front make := by
  cases shape with
  | «extends» =>
      obtain ⟨word, w, r, hword, rfl, hw, -⟩ := of_extends? h
      exact ⟨_, _, r, by simp, .extends hword hw⟩
  | fromFile =>
      obtain ⟨k, w, token, op, r, rfl, hk, hw, htoken, -⟩ := of_fromFile? h
      exact ⟨_, _, r, by simp, .fromFile hk hw htoken⟩
  | link =>
      obtain ⟨k, w, r, rfl, hk, hw, -⟩ := of_link? h
      exact ⟨_, _, r, by simp, .link hk hw⟩
  | dependency =>
      replace h : dependency? cs = some d := h
      unfold dependency? at h
      split at h
      · exact ⟨_, _, _, rfl, .dependency⟩
      · cases h
  | _ => cases hshape

/-! ## Blanks at the end of a line -/

/-- With the blanks `s` behind it, the line is read with a reference that ends with some of
them; if the text in front of them is a reference, that is the one without them. -/
def GoesOn (read : List Char → Option Directive) (line s : List Char) : Prop :=
  ∃ shape front make r u, line = front ++ r ∧ Leads shape front make ∧ Takes r s u ∧
    read (line ++ s) = some (make (String.ofList u)) ∧
    ∀ w f, r = w ++ f → Blanks w → Stops isBlank f → IsReference f →
      read line = some (make (String.ofList f))

theorem read_append_of_leads (hleads : Leads shape front make) (hr : '#' ∉ r) (hs : Blanks s) :
    shape.read (front ++ r ++ s) = shape.read (front ++ r) ∨
      GoesOn shape.read (front ++ r) s := by
  obtain ⟨α, k, e, say, hk, hsay, hread⟩ := hleads.read
  by_cases htakes : ∃ u, Takes r s u
  · obtain ⟨u, htakes⟩ := htakes
    refine .inr ⟨shape, front, make, r, u, rfl, hleads, htakes, ?_, ?_⟩
    · rw [List.append_assoc, hread, htakes.pastBlanks hk hs, Option.map_some, hsay]
    · rintro w f rfl hw hf hreference
      rw [hread, pastBlanks_reference_of_end hk hw hf hreference, Option.map_some, hsay]
  · refine .inl ?_
    rw [List.append_assoc, hread, hread, pastBlanks_reference_append hk hr hs htakes]

/-- Every shape reads a line with more blanks behind it as the line itself, or with a
reference that takes them. -/
theorem read_append_blanks (shape : Shape) (hline : '#' ∉ line) (hs : Blanks s) :
    shape.read (line ++ s) = shape.read line ∨ GoesOn shape.read line s := by
  have hpadded : Padded line (line ++ s) := padded_append hline hs
  by_cases hshape : shape.refers
  · by_cases hfront : ∃ front make r, line = front ++ r ∧ Leads shape front make
    · obtain ⟨front, make, r, rfl, hleads⟩ := hfront
      exact read_append_of_leads hleads (fun hmem => hline (List.mem_append_right front hmem)) hs
    · -- The front of a line that the shape reads is not in the blanks.
      have hnone : shape.read line = none := by
        rw [Option.eq_none_iff_forall_ne_some]
        intro d hd
        exact hfront (exists_leads hshape hd)
      have hnone' : shape.read (line ++ s) = none := by
        rw [Option.eq_none_iff_forall_ne_some]
        intro d hd
        obtain ⟨front, make, rest, happend, hleads⟩ := exists_leads hshape hd
        obtain ⟨r, hr, -⟩ := eq_append_of_append_blanks hs hleads.back happend
        exact hfront ⟨front, make, r, hr, hleads⟩
      exact .inl (hnone'.trans hnone.symm)
  · left
    cases shape with
    | component => exact hpadded.component?_eq
    | comment => exact hpadded.commentLine?_eq
    | value => exact hpadded.value?_eq
    | openBlock => exact hpadded.openBlock?_eq
    | blank => exact hpadded.blank?_eq
    | _ => exact absurd rfl hshape

/-- The first answers of two functions are alike, or the first one comes from where they
are not. -/
theorem findSome?_alike {β γ : Type} {f g : β → Option γ} {P : β → Prop}
    (h : ∀ b, f b = g b ∨ P b) (hsome : ∀ b, P b → (f b).isSome) (l : List β) :
    l.findSome? f = l.findSome? g ∨
      ∃ b, P b ∧ l.findSome? f = f b ∧ ∀ c, g b = some c → l.findSome? g = some c := by
  induction l with
  | nil => exact .inl rfl
  | cons b l ih =>
      rcases h b with hb | hb
      · cases hg : g b with
        | some c =>
            rw [hg] at hb
            exact .inl (by simp [hb, hg])
        | none =>
            rw [hg] at hb
            simpa [hb, hg] using ih
      · obtain ⟨c, hc⟩ := Option.isSome_iff_exists.mp (hsome b hb)
        refine .inr ⟨b, hb, by simp [hc], ?_⟩
        intro c hc
        simp [hc]

/-- **Blanks at the end of a line.** With blanks behind a line without a comment, it says what
it says without them, unless it ends with a reference that takes some of them. Spaces and
tabs are never taken. -/
theorem classify_append_blanks (hline : '#' ∉ line) (hs : Blanks s) :
    (classify (line ++ s) = classify line ∨ GoesOn classify line s) ∧
      (Gap s → classify (line ++ s) = classify line) := by
  have hsettled : classify (line ++ s) = classify line ∨ GoesOn classify line s := by
    rw [classify_eq_byPrecedence, classify_eq_byPrecedence]
    rcases findSome?_alike (fun shape => read_append_blanks shape hline hs)
        (fun shape h => by
          obtain ⟨_, _, _, _, _, _, _, _, hread, -⟩ := h
          simp [hread]) Shape.byPrecedence with h | ⟨shape, h, hfirst, hsame⟩
    · exact .inl h
    · obtain ⟨shape', front, make, r, u, hfront, hleads, htakes, hread, hwithout⟩ := h
      refine .inr ⟨shape', front, make, r, u, hfront, hleads, htakes, ?_, ?_⟩
      · rw [classify_eq_byPrecedence, hfirst, hread]
      · intro w f hr hw hf hreference
        rw [classify_eq_byPrecedence]
        exact hsame _ (hwithout w f hr hw hf hreference)
  refine ⟨hsettled, fun hgap => hsettled.resolve_right ?_⟩
  rintro ⟨_, _, _, _, _, _, _, htakes, -⟩
  exact htakes.not_gap hgap

/-- A no-break space behind a link is taken and the space behind that is not; a space in front
of it ends the link. -/
theorem classify_append_blanks_link :
    '#' ∉ "k =$ a/".toList ∧ Blanks ['\u00a0', ' '] ∧
      GoesOn classify "k =$ a/".toList ['\u00a0', ' '] ∧
      Gap [' ', '\t'] ∧ classify "k =$ a/ \t".toList = classify "k =$ a/".toList := by
  have hline : '#' ∉ "k =$ a/".toList := by decide
  have hs : Blanks ['\u00a0', ' '] := List.all_eq_true.mp rfl
  have hgap : Gap [' ', '\t'] := by decide
  have hother : classify ("k =$ a/".toList ++ ['\u00a0', ' ']) ≠ classify "k =$ a/".toList := by
    decide
  exact ⟨hline, hs, (classify_append_blanks hline hs).1.resolve_left hother, hgap,
    (classify_append_blanks hline hgap.blanks).2 hgap⟩

/-- **A no-break space behind a reference is part of it.** -/
theorem noBreak_joined_to_reference :
    '\n' ∉ "extends = a".toList ∧ '#' ∉ "extends = a".toList ∧
      Blanks ['\u00a0'] ∧ '\n' ∉ ['\u00a0'] ∧
      classify ("extends = a".toList ++ ['\u00a0']) = some (.extends "a\u00a0") ∧
      classify ("extends = a".toList ++ ['\u00a0']) ≠ classify "extends = a".toList := by
  have hs : Blanks ['\u00a0'] := List.forall_mem_singleton.mpr rfl
  exact ⟨by decide, by decide, hs, by decide, rfl, by decide⟩

end ExerciseDoc.Line
