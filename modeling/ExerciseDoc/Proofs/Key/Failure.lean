import ExerciseDoc.Proofs.Key.Assign

/-!
# Key — what a failure leaves behind

A walk that finds nothing to join to has created the missing mappings on its way by then, and
nothing else (`Created`, `focus_created`). It leaves every value where it was
(`Created.spared`). Every other failure leaves the root as it was (`apply_failure`): a key is
refused before the walk, a walk is blocked only where it has created nothing, and a value that
cannot be joined stands in a mapping that was there.
-/

namespace ExerciseDoc

namespace Key

/-! ## Mappings created on the way -/

/-- Mappings inside each other under the segments of a path, each holding nothing but the
next one. -/
def nested : List String → Value
  | [] => .mapping []
  | seg :: rest => .mapping [(seg, nested rest)]

/-- The missing mappings along a path are created in a root. Where the first one is missing,
all that follow are. -/
inductive Created : List String → Mapping → Mapping → Prop
  | arrived (m : Mapping) : Created [] m m
  | present {seg : String} {rest : List String} {m sub sub' : Mapping}
      (h : Entries.get? m seg = some (.mapping sub)) (hrest : Created rest sub sub') :
      Created (seg :: rest) m (Entries.insert m seg (.mapping sub'))
  | missing {seg : String} {rest : List String} {m : Mapping}
      (h : Entries.get? m seg = none) :
      Created (seg :: rest) m (Entries.insert m seg (nested rest))

/-- What creating mappings along a path spares: every path that does not end on the way
leads where it did, and on the way, where nothing but mappings stood, nothing but mappings
stands. If all of them stood already, the root is the same. -/
structure Spared (root root' : Mapping) (path : List String) : Prop where
  beside : ∀ other, ¬ other <+: path →
    Value.get? (.mapping root') other = Value.get? (.mapping root) other
  before : Passable root path
  after : ∀ front, front <+: path → ∃ m, Value.get? (.mapping root') front = some (.mapping m)
  whole : (∀ front, front <+: path → (Value.get? (.mapping root) front).isSome) → root' = root

section Created

variable {root root' m sub : Mapping} {seg : String} {path rest : List String}

/-- In an empty mapping all of a path is missing. -/
theorem Created.eq_nested (h : Created path [] m) : .mapping m = nested path := by
  cases h with
  | arrived => rfl
  | present h => cases h
  | missing => rfl

theorem created_nested (path : List String) :
    ∃ m, nested path = .mapping m ∧ Created path [] m := by
  cases path with
  | nil => exact ⟨[], rfl, .arrived []⟩
  | cons seg rest => exact ⟨_, rfl, .missing rfl⟩

/-- Creating mappings behind a segment is creating them in the mapping that is entered. -/
theorem created_cons_iff : Created (seg :: rest) root root' ↔
    ∃ sub sub', Enters root seg sub ∧ Created rest sub sub' ∧
      root' = Entries.insert root seg (.mapping sub') := by
  constructor
  · intro h
    cases h with
    | present h hrest => exact ⟨_, _, .inl h, hrest, rfl⟩
    | missing h =>
        obtain ⟨sub', hnested, hcreated⟩ := created_nested rest
        exact ⟨[], sub', .inr ⟨h, rfl⟩, hcreated, by rw [hnested]⟩
  · rintro ⟨sub, sub', h | ⟨h, rfl⟩, hrest, rfl⟩
    · exact .present h hrest
    · rw [hrest.eq_nested]
      exact .missing h

/-- A walk that changes nothing at its end has created the mappings on its way. -/
theorem focus_created {α : Type} {f : Mapping → Mapping × α} (h : Passable root path)
    (hm : Ends root path m) (hf : (f m).1 = m) : Created path root (focus f path root).1 := by
  induction path generalizing root with
  | nil =>
      obtain rfl : root = m := by simpa [Ends] using hm
      rw [focus_nil, hf]
      exact .arrived root
  | cons seg rest ih =>
      rcases enters_or_blocks root seg with ⟨sub, hsub⟩ | hblocks
      · rw [hsub.focus_cons, created_cons_iff]
        exact ⟨sub, _, hsub, ih (hsub.passable_iff.mp h) (hsub.ends_cons_iff.mp hm), rfl⟩
      · exact absurd h hblocks.not_passable

theorem Spared.nil (m : Mapping) : Spared m m [] where
  beside _ _ := rfl
  before := passable_start m
  after := by
    intro front hfront
    rw [List.prefix_nil.mp hfront]
    exact ⟨m, Value.get?_nil _⟩
  whole _ := rfl

theorem Spared.cons {sub' : Mapping} (h : Enters root seg sub) (hrest : Spared sub sub' rest) :
    Spared root (Entries.insert root seg (.mapping sub')) (seg :: rest) where
  beside := by
    intro other hother
    refine h.get?_insert (fun hend => hother (hend.trans ⟨rest, rfl⟩)) ?_
    rintro others rfl
    rw [List.prefix_cons_inj] at hother
    exact hrest.beside others hother
  before := h.passable_iff.mpr hrest.before
  after := by
    intro front hfront
    cases front with
    | nil => exact ⟨_, Value.get?_nil _⟩
    | cons key front =>
        obtain ⟨rfl, hrestFront⟩ := List.cons_prefix_cons.mp hfront
        rw [Value.get?_mapping_cons, Entries.get?_insert_self]
        exact hrest.after front hrestFront
  whole := by
    intro hwhole
    have hseg := hwhole [seg] ((List.prefix_cons_inj seg).mpr List.nil_prefix)
    rcases h with h | ⟨h, rfl⟩
    · have hsub : sub' = sub := hrest.whole fun front hfront => by
        have hthere := hwhole (seg :: front) ((List.prefix_cons_inj seg).mpr hfront)
        rwa [Value.get?_mapping_cons, h] at hthere
      rw [hsub, Entries.insert_of_get? h]
    · rw [Value.get?_mapping_cons, h] at hseg
      cases hseg

theorem Created.spared (h : Created path root root') : Spared root root' path := by
  induction path generalizing root root' with
  | nil =>
      cases h
      exact Spared.nil root
  | cons seg rest ih =>
      obtain ⟨sub, sub', hsub, hrest, rfl⟩ := created_cons_iff.mp h
      exact Spared.cons hsub (ih hrest)

end Created

/-! ## Failures -/

/-- Nothing is written where nothing can be joined. -/
theorem put_eq_error {key last : String} {incoming : Incoming} {mode : Mode} {m : Mapping}
    {e : KeyError} (h : (put key last incoming mode m).2 = .error e) :
    mode ≠ .assign ∧ (put key last incoming mode m).1 = m ∧
      (Entries.get? m last = none ∧ e = .missing key mode ∨
        ∃ existing found, Entries.get? m last = some existing ∧
          joined existing incoming mode = .error found ∧ e = .incompatible key mode found) := by
  unfold put at h ⊢
  split at h
  · cases h
  · rename_i hmode
    rw [if_neg hmode]
    refine ⟨hmode, ?_⟩
    split at h
    · rename_i hnone
      cases h
      exact ⟨rfl, .inl ⟨hnone, rfl⟩⟩
    · rename_i existing hexisting
      split at h
      · cases h
      · rename_i found hjoined
        cases h
        exact ⟨rfl, .inr ⟨existing, found, hexisting, hjoined, rfl⟩⟩

/-- **What a failure leaves behind.** If a right-hand side is to be appended or prepended and
nothing stands at the key, the missing mappings on the way to it have been created, each
holding nothing but the next one, and no value has been changed or removed. Every other
failure leaves the root as it was. -/
theorem apply_failure {root root' : Mapping} {key : String} {incoming : Incoming} {mode : Mode}
    {e : KeyError} (h : apply root key incoming mode = (root', .error e)) :
    (∀ key' mode', e ≠ .missing key' mode') ∧ root' = root ∨
      e = .missing key mode ∧ mode ≠ .assign ∧
        Created (segments key).dropLast root root' ∧
        Spared root root' (segments key).dropLast := by
  by_cases hassignable : Assignable root key
  · obtain ⟨parents, last, m, hsegments, hpassable, hm⟩ := hassignable.exists_place
    rw [hassignable.apply_eq hsegments hm] at h
    obtain ⟨rfl, herror⟩ := Prod.mk.inj h
    obtain ⟨hmode, hput, hreason⟩ := put_eq_error herror
    have hcreated := focus_created hpassable hm hput
    rcases hreason with ⟨-, rfl⟩ | ⟨existing, found, hexisting, -, rfl⟩
    · rw [hsegments, List.dropLast_concat]
      exact .inr ⟨rfl, hmode, hcreated, hcreated.spared⟩
    · refine .inl ⟨by rintro key' mode' ⟨⟩, hcreated.spared.whole fun front hfront => ?_⟩
      -- The mapping that has the entry is not empty, so it is there, and all on the way to it.
      obtain ⟨back, rfl⟩ := hfront
      rcases hm with hm | ⟨-, rfl⟩
      · rw [Value.get?_append] at hm
        obtain ⟨u, hu, -⟩ := Option.bind_eq_some_iff.mp hm
        rw [hu]
        rfl
      · cases hexisting
  · obtain ⟨e', herror, hkind⟩ := apply_of_not_assignable hassignable incoming mode
    obtain ⟨rfl, he⟩ := Prod.mk.inj (h.symm.trans herror)
    cases he
    refine .inl ⟨?_, rfl⟩
    rintro key' mode' rfl
    rcases hkind with hkind | hkind | ⟨seg, hkind⟩ <;> cases hkind

/-- Two mappings are created beside an entry that is there. -/
theorem apply_failure_missing :
    let root : Mapping := [("a", .mapping [("t", .int 1)])]
    let root' : Mapping :=
      [("a", .mapping [("b", .mapping [("c", .mapping [])]), ("t", .int 1)])]
    apply root "a.b.c.d" (.text "x") .append = (root', .error (.missing "a.b.c.d" .append)) ∧
      Created ["a", "b", "c"] root root' ∧ Spared root root' ["a", "b", "c"] := by
  intro root root'
  have happly : apply root "a.b.c.d" (.text "x") .append =
      (root', .error (.missing "a.b.c.d" .append)) := rfl
  rcases apply_failure happly with ⟨hother, -⟩ | ⟨-, -, hcreated, hspared⟩
  · exact absurd rfl (hother "a.b.c.d" .append)
  · exact ⟨happly, hcreated, hspared⟩

end Key

end ExerciseDoc
