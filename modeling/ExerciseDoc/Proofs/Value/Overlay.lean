import ExerciseDoc.Proofs.Key.Focus
import ExerciseDoc.Proofs.Value.InOrder

/-!
# Value — one mapping laid over another

What is found in a mapping after another one has been laid over it is said key by key
(`Mapping.get?_merge`): the incoming value, if there is one, laid over the old one, and else
the old one. Mappings on both sides are merged in turn, so the same is said path by path
(`Mapping.merge_along`): a leaf that comes in stands where it stood and cuts off everything
behind it, a mapping that comes in stays a mapping, and every other path leads where it did.
Laying one mapping over another twice changes nothing (`Mapping.merge_merge_self`), and three
mappings may be merged from either end, unless the middle one cuts one of the outer two off
from the other (`Mapping.merge_assoc`).
-/

namespace ExerciseDoc

/-- The value is no mapping, so no path goes on from it. -/
def Value.IsLeaf (v : Value) : Prop :=
  ∀ m, v ≠ .mapping m

theorem Value.isLeaf_or_mapping (v : Value) : v.IsLeaf ∨ ∃ m, v = .mapping m := by
  cases v with
  | mapping m => exact .inr ⟨m, rfl⟩
  | _ => exact .inl fun _ h => nomatch h

/-- Nothing stands behind a leaf. -/
theorem Value.IsLeaf.get?_cons {v : Value} (h : v.IsLeaf) (key : String)
    (rest : List String) : v.get? (key :: rest) = none := by
  cases hget : v.get? (key :: rest) with
  | none => rfl
  | some u =>
      obtain ⟨m, hm⟩ := Value.exists_mapping_of_get?_cons hget
      exact absurd hm (h m)

theorem Value.IsLeaf.mergedOver {v : Value} (h : v.IsLeaf) (existing : Option Value) :
    Value.mergedOver existing v = v := by
  cases v with
  | mapping m => exact absurd rfl (h m)
  | _ => simp only [Value.mergedOver]

namespace Mapping

open Entries (get?)

variable {target incoming m sub : Mapping} {key : String} {path rest : List String}

/-! ## Key by key -/

/-- What stands at a key after something, or nothing, has been laid over it. -/
def overlaid (old : Option Value) : Option Value → Option Value
  | some v => some (Value.mergedOver old v)
  | none => old

/-- The entries that a mapping is laid over: those of a mapping that stands there, and none
if anything else or nothing does. -/
def entriesOf : Option Value → Mapping
  | some (.mapping m) => m
  | _ => []

@[simp] theorem overlaid_some (old : Option Value) (v : Value) :
    overlaid old (some v) = some (Value.mergedOver old v) :=
  rfl

@[simp] theorem overlaid_none (old : Option Value) : overlaid old none = old :=
  rfl

@[simp] theorem entriesOf_mapping (m : Mapping) : entriesOf (some (.mapping m)) = m :=
  rfl

@[simp] theorem entriesOf_none : entriesOf none = [] :=
  rfl

theorem get?_cons_self {v : Value} : get? ((key, v) :: m) key = some v := by
  rw [get?, if_neg (String.lt_irrefl _), if_pos rfl]

theorem Ascending.get?_tail {v : Value} (h : Ascending ((key, v) :: m)) :
    get? m key = none := by
  cases hget : get? m key with
  | none => rfl
  | some u =>
      have hlt := (List.pairwise_cons.mp h).1 _ (mem_of_get? hget)
      exact absurd hlt (String.lt_irrefl _)

theorem Ascending.get?_cons_of_ne {v : Value} {other : String}
    (h : Ascending ((key, v) :: m)) (hne : key ≠ other) :
    get? ((key, v) :: m) other = get? m other := by
  have hm : Ascending m := (List.pairwise_cons.mp h).2
  refine Option.ext fun u => ?_
  rw [h.get?_eq_some, hm.get?_eq_some, List.mem_cons]
  simp [Ne.symm hne]

theorem get?_merge (h : incoming.Ascending) (target : Mapping) (key : String) :
    get? (merge target incoming) key = overlaid (get? target key) (get? incoming key) := by
  induction incoming generalizing target with
  | nil =>
      rw [merge_nil]
      rfl
  | cons entry rest ih =>
      obtain ⟨k, v⟩ := entry
      have hrest : Ascending rest := (List.pairwise_cons.mp h).2
      rw [merge, ih hrest]
      by_cases hkey : k = key
      · subst hkey
        rw [Entries.get?_insert_self, h.get?_tail, get?_cons_self]
        rfl
      · rw [Entries.get?_insert_of_ne _ _ hkey, h.get?_cons_of_ne hkey]

theorem entriesOf_of_isLeaf {v : Value} (h : v.IsLeaf) : entriesOf (some v) = [] := by
  cases v with
  | mapping m => exact absurd rfl (h m)
  | _ => rfl

theorem mergedOver_mapping (h : sub.Ascending) (existing : Option Value) :
    Value.mergedOver existing (.mapping sub) = .mapping (merge (entriesOf existing) sub) := by
  match existing with
  | some (.mapping old) => rw [Value.mergedOver, entriesOf]
  | none | some .null | some (.bool _) | some (.int _) | some (.float _) | some (.text _)
  | some (.list _) => simp only [Value.mergedOver, entriesOf, h.nil_merge]

theorem inOrder_entriesOf (h : m.InOrder) (key : String) :
    (entriesOf (get? m key)).InOrder := by
  cases hget : get? m key with
  | none => exact inOrder_nil
  | some v =>
      cases v with
      | mapping sub => exact h.of_get? hget
      | _ => exact inOrder_nil

/-! ## Path by path -/

/-- A path that goes on leads on in the entries as it does from the value. -/
theorem get?_entriesOf (old : Option Value) (key : String) (rest : List String) :
    Value.get? (.mapping (entriesOf old)) (key :: rest) =
      old.bind fun v => v.get? (key :: rest) := by
  cases old with
  | none => rfl
  | some v => cases v <;> rfl

theorem entriesOf_get? (old : Option Value) (path : List String) :
    entriesOf (Value.get? (.mapping (entriesOf old)) path) =
      entriesOf (old.bind fun v => v.get? path) := by
  cases path with
  | nil =>
      rw [Value.get?_nil]
      cases old <;> simp [entriesOf]
  | cons key rest => rw [get?_entriesOf]

section Paths

variable (h : incoming.InOrder) (target)

include h

/-- Where nothing comes in at a key, nothing changes behind it. -/
theorem get?_merge_of_none (hkey : get? incoming key = none) (rest : List String) :
    Value.get? (.mapping (merge target incoming)) (key :: rest) =
      Value.get? (.mapping target) (key :: rest) := by
  rw [Value.get?_mapping_cons, get?_merge h.ascending, hkey]
  rfl

/-- A leaf that comes in at a key is all that stands there. -/
theorem get?_merge_of_leaf {leaf : Value} (hkey : get? incoming key = some leaf)
    (hleaf : leaf.IsLeaf) (rest : List String) :
    Value.get? (.mapping (merge target incoming)) (key :: rest) = leaf.get? rest := by
  rw [Value.get?_mapping_cons, get?_merge h.ascending, hkey, overlaid_some, hleaf.mergedOver]
  rfl

/-- A mapping that comes in at a key is merged with what stands there. -/
theorem get?_merge_of_mapping (hkey : get? incoming key = some (.mapping sub))
    (rest : List String) :
    Value.get? (.mapping (merge target incoming)) (key :: rest) =
      Value.get? (.mapping (merge (entriesOf (get? target key)) sub)) rest := by
  have hsub : sub.InOrder := h.of_get? hkey
  rw [Value.get?_mapping_cons, get?_merge h.ascending, hkey, overlaid_some,
    mergedOver_mapping hsub.ascending]
  rfl

/-- Every leaf that comes in is found where it stood. -/
theorem get?_merge_leaf {leaf : Value} (hleaf : leaf.IsLeaf)
    (hget : Value.get? (.mapping incoming) path = some leaf) :
    Value.get? (.mapping (merge target incoming)) path = some leaf := by
  induction path generalizing target incoming with
  | nil => exact absurd (Option.some.inj hget).symm (hleaf incoming)
  | cons key rest ih =>
      obtain ⟨v, hkey, hrest⟩ := Option.bind_eq_some_iff.mp hget
      rcases v.isLeaf_or_mapping with hv | ⟨sub, rfl⟩
      · rw [get?_merge_of_leaf target h hkey hv]
        exact hrest
      · rw [get?_merge_of_mapping target h hkey]
        exact ih _ (h.of_get? hkey) hrest

/-- Every mapping that comes in is merged with what stood at its path. -/
theorem get?_merge_mapping
    (hget : Value.get? (.mapping incoming) path = some (.mapping sub)) :
    Value.get? (.mapping (merge target incoming)) path =
      some (.mapping (merge (entriesOf (Value.get? (.mapping target) path)) sub)) := by
  induction path generalizing target incoming with
  | nil =>
      cases hget
      rfl
  | cons key rest ih =>
      obtain ⟨v, hkey, hrest⟩ := Option.bind_eq_some_iff.mp hget
      rcases v.isLeaf_or_mapping with hv | ⟨m, rfl⟩
      · -- From a leaf no path leads to a mapping.
        cases rest with
        | nil => exact absurd (Option.some.inj hrest) (hv sub)
        | cons key rest =>
            rw [hv.get?_cons] at hrest
            cases hrest
      · rw [get?_merge_of_mapping target h hkey, ih _ (h.of_get? hkey) hrest,
          entriesOf_get?]
        rfl

/-- Where no leaf comes in on the way and nothing at the end, a path leads where it did. -/
theorem get?_merge_of_passable (hpath : Key.Passable incoming path)
    (hget : Value.get? (.mapping incoming) path = none) :
    Value.get? (.mapping (merge target incoming)) path =
      Value.get? (.mapping target) path := by
  induction path generalizing target incoming with
  | nil => cases hget
  | cons key rest ih =>
      cases hkey : get? incoming key with
      | none => exact get?_merge_of_none target h hkey rest
      | some v =>
          have hv : Value.get? (.mapping incoming) [key] = some v := by
            rw [Value.get?_mapping_cons, hkey]
            exact Value.get?_nil v
          obtain ⟨sub, rfl⟩ := hpath [key] v (List.prefix_append [key] rest) hv
          have hsub : Key.Enters incoming key sub := .inl hkey
          rw [get?_merge_of_mapping target h hkey]
          rw [Value.get?_mapping_cons, hkey, Option.bind_some] at hget
          rw [ih _ (h.of_get? hkey) (hsub.passable_iff.mp hpath) hget]
          -- The path goes on behind the key, where something does come in.
          cases rest with
          | nil => cases hget
          | cons key rest => exact get?_entriesOf _ _ _

end Paths

/-- **The merge along a path.** Let one mapping be laid over another. A leaf that comes in is
found at its path, and nothing behind it. A mapping that comes in is found as a mapping,
merged with what stood there. Every other path leads where it did. So what stood at a path
is gone only if, further up, a leaf has come in where a mapping stood. -/
theorem merge_along (target incoming : Mapping) (h : incoming.InOrder) (path : List String) :
    (∀ front leaf, front <+: path → leaf.IsLeaf →
      Value.get? (.mapping incoming) front = some leaf →
      Value.get? (.mapping (merge target incoming)) path =
        if front = path then some leaf else none) ∧
    (∀ sub, Value.get? (.mapping incoming) path = some (.mapping sub) →
      Value.get? (.mapping (merge target incoming)) path =
        some (.mapping (merge (entriesOf (Value.get? (.mapping target) path)) sub))) ∧
    (Key.Passable incoming path → Value.get? (.mapping incoming) path = none →
      Value.get? (.mapping (merge target incoming)) path =
        Value.get? (.mapping target) path) ∧
    (∀ v, Value.get? (.mapping target) path = some v →
      Value.get? (.mapping (merge target incoming)) path = none →
      ∃ front leaf old, front <+: path ∧ front ≠ path ∧ leaf.IsLeaf ∧
        Value.get? (.mapping incoming) front = some leaf ∧
        Value.get? (.mapping target) front = some (.mapping old)) := by
  have hleaf : ∀ front leaf, front <+: path → leaf.IsLeaf →
      Value.get? (.mapping incoming) front = some leaf →
      Value.get? (.mapping (merge target incoming)) path =
        if front = path then some leaf else none := by
    rintro front leaf ⟨rest, rfl⟩ hleaf hget
    rw [Value.get?_append, get?_merge_leaf target h hleaf hget, Option.bind_some]
    cases rest with
    | nil => rw [Value.get?_nil, List.append_nil, if_pos rfl]
    | cons key rest => rw [hleaf.get?_cons, if_neg (by simp)]
  refine ⟨hleaf, fun sub => get?_merge_mapping target h,
    get?_merge_of_passable target h, fun v hv hgone => ?_⟩
  by_cases hpath : Key.Passable incoming path
  · -- Without a leaf on the way nothing is lost.
    cases hget : Value.get? (.mapping incoming) path with
    | none =>
        rw [get?_merge_of_passable target h hpath hget, hv] at hgone
        cases hgone
    | some u =>
        obtain ⟨sub, rfl⟩ := hpath path u List.prefix_rfl hget
        rw [get?_merge_mapping target h hget] at hgone
        cases hgone
  · unfold Key.Passable at hpath
    push Not at hpath
    obtain ⟨front, leaf, hfront, hget, hisLeaf⟩ := hpath
    have hend := hleaf front leaf hfront hisLeaf hget
    have hne : front ≠ path := by
      intro heq
      rw [hgone, if_pos heq] at hend
      cases hend
    obtain ⟨_ | ⟨key, rest⟩, rfl⟩ := hfront
    · exact absurd (List.append_nil front).symm hne
    · rw [Value.get?_append] at hv
      obtain ⟨old, hold, hrest⟩ := Option.bind_eq_some_iff.mp hv
      obtain ⟨m, rfl⟩ := Value.exists_mapping_of_get?_cons hrest
      exact ⟨front, leaf, m, List.prefix_append _ _, hne, hisLeaf, hget, hold⟩

/-- A text that comes in where a mapping stood: what was in the mapping is gone. -/
theorem merge_along_cut :
    let target : Mapping :=
      [("a", .mapping [("b", .mapping [("c", .int 1)]), ("d", .int 2)])]
    let incoming : Mapping := [("a", .mapping [("b", .text "e")])]
    incoming.InOrder ∧
      Value.get? (.mapping target) ["a", "b", "c"] = some (.int 1) ∧
      Value.get? (.mapping (merge target incoming)) ["a", "b", "c"] = none ∧
      ∃ front leaf old, front <+: ["a", "b", "c"] ∧ front ≠ ["a", "b", "c"] ∧ leaf.IsLeaf ∧
        Value.get? (.mapping incoming) front = some leaf ∧
        Value.get? (.mapping target) front = some (.mapping old) := by
  intro target incoming
  have hinner : InOrder [("b", .text "e")] := inOrder_nil.insert "b" (.text "e")
  have h : incoming.InOrder := inOrder_nil.insert "a" hinner
  obtain ⟨hleaf, -, -, hgone⟩ := merge_along target incoming h ["a", "b", "c"]
  have hnone := hleaf ["a", "b"] (.text "e") (by simp) (fun _ hm => nomatch hm) rfl
  exact ⟨h, rfl, hnone, hgone (.int 1) rfl hnone⟩

/-! ## Merges of merges -/

section Algebra

variable {a b c : Mapping}

/-- What has been laid over a mapping may be laid over it again. -/
theorem merge_merge_self (ha : a.InOrder) (hb : b.InOrder) :
    merge (merge a b) b = merge a b := by
  induction hb using InOrder.induction generalizing a with
  | step b hb ih =>
      have hmerged : Ascending (merge a b) := ha.ascending.merge b
      refine (hmerged.merge b).ext hmerged fun key => ?_
      rw [get?_merge hb.ascending, get?_merge hb.ascending]
      cases hkey : get? b key with
      | none => rfl
      | some v =>
          rcases v.isLeaf_or_mapping with hv | ⟨sub, rfl⟩
          · simp only [overlaid_some, hv.mergedOver]
          · have hsub : InOrder sub := hb.of_get? hkey
            simp only [overlaid_some, mergedOver_mapping hsub.ascending, entriesOf_mapping]
            rw [ih key sub hkey (inOrder_entriesOf ha key)]

/-- The mapping `b` cuts `c` off from `a`: at some path it has a leaf where both of them
have a mapping. -/
def Severs (b a c : Mapping) : Prop :=
  ∃ path leaf m m', leaf.IsLeaf ∧ Value.get? (.mapping b) path = some leaf ∧
    Value.get? (.mapping a) path = some (.mapping m) ∧
    Value.get? (.mapping c) path = some (.mapping m')

/-- Nothing is cut off inside the mappings at a key if nothing is cut off at all. -/
theorem not_severs_inside {subB subC : Mapping} (h : ¬ Severs b a c)
    (hB : get? b key = some (.mapping subB)) (hC : get? c key = some (.mapping subC)) :
    ¬ Severs subB (entriesOf (get? a key)) subC := by
  rintro ⟨_ | ⟨next, rest⟩, leaf, m, m', hleaf, hb, ha, hc⟩
  · exact hleaf subB (Option.some.inj hb).symm
  · rw [get?_entriesOf] at ha
    refine h ⟨key :: next :: rest, leaf, m, m', hleaf, ?_, ha, ?_⟩
    · rw [Value.get?_mapping_cons, hB]
      exact hb
    · rw [Value.get?_mapping_cons, hC]
      exact hc

/-- Where a leaf stands in the middle and a mapping comes in, the first one has no mapping. -/
theorem entriesOf_of_not_severs {leaf : Value} {subC : Mapping} (h : ¬ Severs b a c)
    (hleaf : leaf.IsLeaf) (hB : get? b key = some leaf)
    (hC : get? c key = some (.mapping subC)) : entriesOf (get? a key) = [] := by
  cases hA : get? a key with
  | none => rfl
  | some v =>
      rcases v.isLeaf_or_mapping with hv | ⟨subA, rfl⟩
      · exact entriesOf_of_isLeaf hv
      · refine absurd ⟨[key], leaf, subA, subC, hleaf, ?_, ?_, ?_⟩ h
        · rw [Value.get?_mapping_cons, hB, Option.bind_some, Value.get?_nil]
        · rw [Value.get?_mapping_cons, hA, Option.bind_some, Value.get?_nil]
        · rw [Value.get?_mapping_cons, hC, Option.bind_some, Value.get?_nil]

/-- Merges may be grouped either way if nothing is cut off in between. -/
theorem merge_assoc (ha : a.InOrder) (hb : b.InOrder) (hc : c.InOrder)
    (h : ¬ Severs b a c) : merge (merge a b) c = merge a (merge b c) := by
  induction hb using InOrder.induction generalizing a c with
  | step b hb ih =>
      refine ((ha.ascending.merge b).merge c).ext (ha.ascending.merge _) fun key => ?_
      rw [get?_merge hc.ascending, get?_merge hb.ascending,
        get?_merge (hb.ascending.merge c), get?_merge hc.ascending]
      cases hC : get? c key with
      | none => rfl
      | some v =>
          rcases v.isLeaf_or_mapping with hv | ⟨subC, rfl⟩
          · simp only [overlaid_some, hv.mergedOver]
          · -- A mapping comes in last: all depends on what it finds in the middle.
            have hsubC : InOrder subC := hc.of_get? hC
            have hinner : InOrder (merge (entriesOf (get? b key)) subC) :=
              (inOrder_entriesOf hb key).merge hsubC
            simp only [overlaid_some, mergedOver_mapping hsubC.ascending,
              mergedOver_mapping hinner.ascending, Option.some.injEq, Value.mapping.injEq]
            cases hB : get? b key with
            | none => rw [overlaid_none, entriesOf_none, hsubC.ascending.nil_merge]
            | some u =>
                rcases u.isLeaf_or_mapping with hu | ⟨subB, rfl⟩
                · have hA : entriesOf (get? a key) = [] :=
                    entriesOf_of_not_severs h hu hB hC
                  simp only [overlaid_some, hu.mergedOver, entriesOf_of_isLeaf hu, hA,
                    hsubC.ascending.nil_merge]
                · have hsubB : InOrder subB := hb.of_get? hB
                  simp only [overlaid_some, mergedOver_mapping hsubB.ascending, entriesOf_mapping]
                  exact ih key subB hB (inOrder_entriesOf ha key) hsubC
                    (not_severs_inside h hB hC)

end Algebra

end Mapping

end ExerciseDoc
