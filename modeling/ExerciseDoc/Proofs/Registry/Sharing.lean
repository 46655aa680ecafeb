import ExerciseDoc.Registry.Basic
import Mathlib.Data.List.Nodup

/-!
# Registry — sharing

A cache only grows (`Cache.load_isPrefix`), and what it keeps for a name is what the load of
the name has given (`Cache.find?_load`). Its entries are numbered as they stand
(`Cache.Numbered`), so a number belongs to one name. A run of loads keeps both, from which
follows what each of them gets: the registry of the first plugins that came under its name,
shared with just the loads of this name (`Cache.loadAll_shares`).
-/

namespace ExerciseDoc

/-- Plugins that are loaded together, and the name that they go by. -/
structure PluginSet where
  name : String
  plugins : List Plugin

namespace Cache

variable {cache cache' : Cache} {name : String} {shared shared' : SharedRegistry}

/-! ## What a cache keeps -/

theorem mem_of_find? (h : cache.find? name = some shared) : (name, shared) ∈ cache := by
  obtain ⟨before, after, hcache, -⟩ := List.lookup_eq_some_iff.mp h
  rw [hcache]
  exact List.mem_append_right _ List.mem_cons_self

theorem find?_append (name : String) :
    (cache ++ cache').find? name = (cache.find? name).or (cache'.find? name) :=
  List.lookup_append

/-- What stands behind the entries of a cache takes nothing from them. -/
theorem find?_of_isPrefix (hgrows : cache <+: cache') (h : cache.find? name = some shared) :
    cache'.find? name = some shared := by
  obtain ⟨further, rfl⟩ := hgrows
  rw [find?_append, h]
  rfl

/-- The entries are numbered from the first one on. -/
def Numbered (cache : Cache) : Prop :=
  cache.map (fun entry => entry.2.number) = List.range cache.length

theorem numbered_nil : Numbered [] :=
  rfl

theorem Numbered.eq_of_number_eq (h : cache.Numbered) {entry entry' : String × SharedRegistry}
    (hmem : entry ∈ cache) (hmem' : entry' ∈ cache)
    (hnumber : entry.2.number = entry'.2.number) : entry = entry' := by
  have hnodup : (cache.map fun entry => entry.2.number).Nodup := by
    rw [h]
    exact List.nodup_range
  exact List.inj_on_of_nodup_map hnodup hmem hmem' hnumber

/-- A number belongs to one name. -/
theorem Numbered.number_eq_iff (h : cache.Numbered) {name' : String}
    (hfind : cache.find? name = some shared) (hfind' : cache.find? name' = some shared') :
    shared.number = shared'.number ↔ name = name' := by
  constructor
  · intro hnumber
    have hentry := h.eq_of_number_eq (mem_of_find? hfind) (mem_of_find? hfind') hnumber
    exact congrArg Prod.fst hentry
  · rintro rfl
    rw [Option.some.inj (hfind.symm.trans hfind')]

/-! ## One load -/

theorem load_of_some (plugins : List Plugin) (h : cache.find? name = some shared) :
    cache.load name plugins = (shared, cache) := by
  rw [load, h]

theorem load_of_none (plugins : List Plugin) (h : cache.find? name = none) :
    cache.load name plugins =
      (⟨cache.length, Registry.ofPlugins plugins⟩,
        cache ++ [(name, ⟨cache.length, Registry.ofPlugins plugins⟩)]) := by
  rw [load, h]

theorem load_isPrefix (cache : Cache) (name : String) (plugins : List Plugin) :
    cache <+: (cache.load name plugins).2 := by
  cases h : cache.find? name with
  | some shared =>
      exact ⟨[], by rw [load_of_some plugins h, List.append_nil]⟩
  | none =>
      rw [load_of_none plugins h]
      exact List.prefix_append _ _

/-- A load is kept for its own name, and changes what is kept for no other. -/
theorem find?_load (cache : Cache) (name : String) (plugins : List Plugin) (key : String) :
    (cache.load name plugins).2.find? key =
      if key = name then some (cache.load name plugins).1 else cache.find? key := by
  cases h : cache.find? name with
  | some shared =>
      rw [load_of_some plugins h]
      split
      · rename_i hkey
        rw [hkey, h]
      · rfl
  | none =>
      rw [load_of_none plugins h, find?_append]
      split
      · rename_i hkey
        rw [hkey, h, find?, List.lookup_cons_self]
        rfl
      · rename_i hkey
        rw [find?, find?, List.lookup_cons, beq_false_of_ne hkey]
        exact Option.or_none

theorem Numbered.load (h : cache.Numbered) (name : String) (plugins : List Plugin) :
    (cache.load name plugins).2.Numbered := by
  cases hfind : cache.find? name with
  | some shared =>
      rw [load_of_some plugins hfind]
      exact h
  | none =>
      rw [load_of_none plugins hfind, Numbered, List.map_append, h, List.length_append,
        List.length_singleton, List.range_succ]
      rfl

/-! ## Loads one after the other -/

/-- What each of the loads gives, and the cache behind the last of them. -/
def loadAll (cache : Cache) : List PluginSet → List SharedRegistry × Cache
  | [] => ([], cache)
  | set :: rest =>
    let (shared, cache) := cache.load set.name set.plugins
    let (others, cache) := loadAll cache rest
    (shared :: others, cache)

variable {sets : List PluginSet}

theorem loadAll_cons (cache : Cache) (set : PluginSet) (rest : List PluginSet) :
    cache.loadAll (set :: rest) =
      ((cache.load set.name set.plugins).1 ::
          ((cache.load set.name set.plugins).2.loadAll rest).1,
        ((cache.load set.name set.plugins).2.loadAll rest).2) :=
  rfl

theorem length_loadAll (cache : Cache) (sets : List PluginSet) :
    (cache.loadAll sets).1.length = sets.length := by
  induction sets generalizing cache with
  | nil => rfl
  | cons set rest ih => rw [loadAll_cons, List.length_cons, ih, List.length_cons]

theorem loadAll_isPrefix (cache : Cache) (sets : List PluginSet) :
    cache <+: (cache.loadAll sets).2 := by
  induction sets generalizing cache with
  | nil => exact List.prefix_rfl
  | cons set rest ih => exact (load_isPrefix cache set.name set.plugins).trans (ih _)

theorem Numbered.loadAll (h : cache.Numbered) (sets : List PluginSet) :
    (cache.loadAll sets).2.Numbered := by
  induction sets generalizing cache with
  | nil => exact h
  | cons set rest ih => exact ih (h.load set.name set.plugins)

/-- What a load has given is kept for its name through all loads behind it. -/
theorem find?_loadAll_of_mem {set : PluginSet}
    (h : (set, shared) ∈ sets.zip (cache.loadAll sets).1) :
    (cache.loadAll sets).2.find? set.name = some shared := by
  induction sets generalizing cache with
  | nil => cases h
  | cons first rest ih =>
      rw [loadAll_cons, List.zip_cons_cons] at h
      rcases List.mem_cons.mp h with hfirst | h
      · cases hfirst
        have hkept : (cache.load set.name set.plugins).2.find? set.name =
            some (cache.load set.name set.plugins).1 := by
          rw [find?_load, if_pos rfl]
        exact find?_of_isPrefix (loadAll_isPrefix _ rest) hkept
      · exact ih h

/-- For a name that has been kept before nothing is built, and for any other the plugins are
taken that come first under it. -/
theorem registry_loadAll (cache : Cache) (sets : List PluginSet) (name : String) :
    ((cache.loadAll sets).2.find? name).map (·.registry) =
      ((cache.find? name).map (·.registry)).or
        ((sets.find? fun set => set.name == name).map fun set =>
          Registry.ofPlugins set.plugins) := by
  induction sets generalizing cache with
  | nil => simp [loadAll]
  | cons set rest ih =>
      rw [loadAll_cons, ih, find?_load, List.find?_cons]
      by_cases hname : name = set.name
      · subst hname
        cases hfind : cache.find? set.name with
        | some shared => simp [load_of_some set.plugins hfind]
        | none => simp [load_of_none set.plugins hfind]
      · simp [hname, beq_false_of_ne (Ne.symm hname)]

/-- **Loads share by name.** However many loads there are, in whatever order of the names
and with whatever plugins, each gets the registry that is built from the plugins of the first
load of its name. Two loads get one shared registry if and only if their names are equal.
One more load leaves what all loads in front of it have got, and what is kept for any name
but its own. -/
theorem loadAll_shares (sets : List PluginSet) :
    let given := (loadAll [] sets).1
    let cache := (loadAll [] sets).2
    given.length = sets.length ∧
    (∀ set shared, (set, shared) ∈ sets.zip given →
      ∃ first, sets.find? (fun other => other.name == set.name) = some first ∧
        shared.registry = Registry.ofPlugins first.plugins) ∧
    (∀ set shared set' shared', (set, shared) ∈ sets.zip given →
      (set', shared') ∈ sets.zip given →
      (shared.number = shared'.number ↔ set.name = set'.name) ∧
      (shared.number = shared'.number → shared = shared')) ∧
    ∀ (name : String) (plugins : List Plugin),
      (∀ set shared, (set, shared) ∈ sets.zip given →
        cache.find? set.name = some shared ∧
        (cache.load name plugins).2.find? set.name = some shared) ∧
      ∀ other, other ≠ name → (cache.load name plugins).2.find? other = cache.find? other := by
  intro given cache
  have hkept : ∀ set shared, (set, shared) ∈ sets.zip given →
      cache.find? set.name = some shared := fun set shared hmem => find?_loadAll_of_mem hmem
  have hnumbered : cache.Numbered := numbered_nil.loadAll sets
  refine ⟨length_loadAll [] sets, ?_, ?_, ?_⟩
  · intro set shared hmem
    have hregistry := registry_loadAll [] sets set.name
    rw [hkept set shared hmem] at hregistry
    obtain ⟨first, hfirst, hplugins⟩ := Option.map_eq_some_iff.mp hregistry.symm
    exact ⟨first, hfirst, hplugins.symm⟩
  · intro set shared set' shared' hmem hmem'
    have hset := hkept set shared hmem
    have hset' := hkept set' shared' hmem'
    have hiff := hnumbered.number_eq_iff hset hset'
    refine ⟨hiff, fun hnumber => ?_⟩
    rw [hiff.mp hnumber] at hset
    exact Option.some.inj (hset.symm.trans hset')
  · intro name plugins
    refine ⟨fun set shared hmem => ?_, fun other hother => ?_⟩
    · have hset := hkept set shared hmem
      exact ⟨hset, find?_of_isPrefix (load_isPrefix cache name plugins) hset⟩
    · rw [find?_load, if_neg hother]

/-- A plugin of the name `x` that offers one format. -/
def offering (tag : String) : Plugin :=
  ⟨"x", .provides ⟨tag, ["txt"], fun _ source =>
    Run.ok (Document.empty source.path source.circleId tag)⟩⟩

/-- The third load has the name of the first, and gets its registry whatever the plugins. -/
theorem loadAll_shares_again :
    let sets : List PluginSet :=
      [⟨"a", [offering "first"]⟩, ⟨"b", [offering "first"]⟩, ⟨"a", [offering "other"]⟩]
    ∃ x y z, (loadAll [] sets).1 = [x, y, z] ∧
      z.registry = Registry.ofPlugins [offering "first"] ∧ x = z ∧ x.number ≠ y.number := by
  intro sets
  obtain ⟨hlength, hregistry, hshared, -⟩ := loadAll_shares sets
  obtain ⟨x, y, z, hgiven⟩ := List.length_eq_three.mp hlength
  rw [hgiven] at hregistry hshared
  have hx : (⟨"a", [offering "first"]⟩, x) ∈ sets.zip [x, y, z] := by simp [sets]
  have hy : (⟨"b", [offering "first"]⟩, y) ∈ sets.zip [x, y, z] := by simp [sets]
  have hz : (⟨"a", [offering "other"]⟩, z) ∈ sets.zip [x, y, z] := by simp [sets]
  obtain ⟨first, hfirst, hplugins⟩ := hregistry _ z hz
  cases hfirst
  refine ⟨x, y, z, hgiven, hplugins, ?_, ?_⟩
  · obtain ⟨hiff, heq⟩ := hshared _ x _ z hx hz
    exact heq (hiff.mpr rfl)
  · intro hnumber
    have hname := (hshared _ x _ y hx hy).1.mp hnumber
    exact absurd hname (by decide)

end Cache

end ExerciseDoc
