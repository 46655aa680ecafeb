import ExerciseDoc.Proofs.Path.Normal
import ExerciseDoc.Source.Store
import Mathlib.Data.List.Induction

/-!
# Source — registered files

A store is filled by registrations, one after the other and in any spelling of the paths.
What it finds at a place is what the last registration of that place has put there, bytes
and circle together (`Store.find?_ofRegistrations`): a registration settles its own place
and no other (`Store.find?_register`). Registering, resolving and reading all fold the path
that they are given, so they speak of the same place.
-/

namespace ExerciseDoc

/-- A file that is put into a store: the path that it is given, in whatever spelling, and the
circle that it is in, if it is not that of whoever asks for it. -/
structure Registration where
  path : FullPath
  contents : ByteArray
  circleId : Option Int

namespace Registration

/-- Where a store keeps the file: at the normal form of its path. -/
def place (r : Registration) : FullPath :=
  ⟨r.path.resourceId, Path.normalize r.path.path⟩

/-- What a store keeps of the file. -/
def file (r : Registration) : StoredFile :=
  ⟨r.contents, r.circleId⟩

/-- Of all registrations of the place this is the last one. -/
def IsLatest (r : Registration) (registrations : List Registration) (place : FullPath) : Prop :=
  ∃ before after, registrations = before ++ r :: after ∧ r.place = place ∧
    ∀ later ∈ after, later.place ≠ place

variable {r last : Registration} {registrations : List Registration} {place : FullPath}

theorem place_eq_iff {resourceId : Int} {p : String} : r.place = ⟨resourceId, p⟩ ↔
    r.path.resourceId = resourceId ∧ Path.normalize r.path.path = p := by
  rw [place, FullPath.mk.injEq]

theorem not_isLatest_nil : ¬ r.IsLatest [] place := by
  rintro ⟨before, after, hnil, -⟩
  exact List.append_ne_nil_of_right_ne_nil before (List.cons_ne_nil r after) hnil.symm

/-- One more registration is the latest of its own place, and leaves the others theirs. -/
theorem isLatest_concat : r.IsLatest (registrations ++ [last]) place ↔
    if last.place = place then r = last else r.IsLatest registrations place := by
  constructor
  · rintro ⟨before, after, hsplit, hplace, hafter⟩
    rcases List.eq_nil_or_concat after with rfl | ⟨front, x, rfl⟩
    · obtain ⟨-, hlast⟩ := List.append_inj' hsplit rfl
      cases hlast
      rw [if_pos hplace]
    · rw [List.concat_eq_append] at hafter hsplit
      rw [← List.cons_append, ← List.append_assoc] at hsplit
      obtain ⟨hfront, hlast⟩ := List.append_inj' hsplit rfl
      cases hlast
      rw [if_neg (hafter last List.mem_concat_self)]
      exact ⟨before, front, hfront, hplace, fun later hmem =>
        hafter later (List.mem_append_left _ hmem)⟩
  · intro h
    split at h
    · rename_i hplace
      subst h
      exact ⟨registrations, [], rfl, hplace, fun _ hmem => absurd hmem List.not_mem_nil⟩
    · rename_i hplace
      obtain ⟨before, after, rfl, hr, hafter⟩ := h
      refine ⟨before, after ++ [last], by simp, hr, ?_⟩
      intro later hmem
      rcases List.mem_append.mp hmem with hmem | hmem
      · exact hafter later hmem
      · rw [List.mem_singleton.mp hmem]
        exact hplace

/-- A place that has been registered at all has a latest registration. -/
theorem exists_isLatest_iff :
    (∃ r : Registration, r.IsLatest registrations place) ↔
      ∃ r ∈ registrations, r.place = place := by
  constructor
  · rintro ⟨r, before, after, rfl, hplace, -⟩
    exact ⟨r, List.mem_append_right _ List.mem_cons_self, hplace⟩
  · induction registrations using List.reverseRecOn with
    | nil => simp
    | append_singleton registrations last ih =>
        rintro ⟨r, hmem, hr⟩
        by_cases hlast : last.place = place
        · exact ⟨last, isLatest_concat.mpr (by rw [if_pos hlast])⟩
        · have hmem : r ∈ registrations := by
            rcases List.mem_append.mp hmem with hmem | hmem
            · exact hmem
            · rw [List.mem_singleton.mp hmem] at hr
              exact absurd hr hlast
          obtain ⟨r, hr⟩ := ih ⟨r, hmem, hr⟩
          exact ⟨r, isLatest_concat.mpr (by rwa [if_neg hlast])⟩

end Registration

/-! ## Stores -/

namespace Store

/-- The store with one more file. -/
def register (store : Store) (r : Registration) : Store :=
  store.add r.path r.file

/-- The store in which files have been registered one after the other. -/
def ofRegistrations (registrations : List Registration) : Store :=
  registrations.foldl register empty

variable {registrations : List Registration} {place : FullPath}

/-- A registration replaces what is at its place, and nothing else. -/
theorem find?_register (store : Store) (r : Registration) (place : FullPath) :
    (store.register r).find? place =
      if r.place = place then some r.file else store.find? place :=
  rfl

/-- **The latest registration of a place counts**, as a whole. -/
theorem find?_ofRegistrations {file : StoredFile} :
    (ofRegistrations registrations).find? place = some file ↔
      ∃ r : Registration, r.IsLatest registrations place ∧ file = r.file := by
  induction registrations using List.reverseRecOn with
  | nil => simp [ofRegistrations, empty, find?, Registration.not_isLatest_nil]
  | append_singleton registrations last ih =>
      rw [ofRegistrations, List.foldl_append, List.foldl_cons, List.foldl_nil,
        ← ofRegistrations, find?_register]
      by_cases hlast : last.place = place
      · simp [Registration.isLatest_concat, hlast, eq_comm]
      · simp only [Registration.isLatest_concat, if_neg hlast, ih]

/-- A request is answered from the latest registration of the place that it asks for. -/
theorem resolver_ofRegistrations_eq_some {q : Request} {location : Location} :
    (ofRegistrations registrations).resolver q = some location ↔
      ∃ r : Registration, r.IsLatest registrations q.target ∧
        location = ⟨r.contents, q.target, r.circleId.getD q.circleId⟩ := by
  rw [resolver, Option.map_eq_some_iff]
  constructor
  · rintro ⟨file, hfile, rfl⟩
    obtain ⟨r, hr, rfl⟩ := find?_ofRegistrations.mp hfile
    exact ⟨r, hr, rfl⟩
  · rintro ⟨r, hr, rfl⟩
    have hfile := find?_ofRegistrations.mpr ⟨r, hr, rfl⟩
    exact ⟨r.file, hfile, rfl⟩

/-- Whoever knows a file's place in some spelling reads what a request for it gets. -/
theorem contents?_eq_of_normalize_eq (store : Store) (q : Request) {spelled : String}
    (h : Path.normalize spelled = Path.join q.directory q.uri) :
    store.contents? ⟨q.resourceId, spelled⟩ = (store.resolver q).map (·.contents) := by
  rw [contents?, h, resolver, Option.map_map]
  rfl

/-- **A store is a map over places.** After any registrations a request is answered if and
only if one of them is of the place that the request asks for. The answer has the bytes of
the last such registration, the path that was asked for, and the circle that this
registration gives the file, or else that of the request; the same bytes are read at every
spelling of the path. -/
theorem resolver_ofRegistrations (registrations : List Registration) (uri directory : String)
    (resourceId circleId : Int) :
    let store := ofRegistrations registrations
    let path := Path.join directory uri
    let q : Request := ⟨uri, directory, resourceId, circleId⟩
    ((store.resolver q).isSome ↔ ∃ r ∈ registrations,
      r.path.resourceId = resourceId ∧ Path.normalize r.path.path = path) ∧
    (∀ location, store.resolver q = some location ↔
      ∃ r : Registration, r.IsLatest registrations ⟨resourceId, path⟩ ∧
        location = ⟨r.contents, ⟨resourceId, path⟩, r.circleId.getD circleId⟩) ∧
    ∀ spelled, Path.normalize spelled = path →
      store.contents? ⟨resourceId, spelled⟩ = (store.resolver q).map (·.contents) := by
  intro store path q
  have hanswer : ∀ location, store.resolver q = some location ↔
      ∃ r : Registration, r.IsLatest registrations ⟨resourceId, path⟩ ∧
        location = ⟨r.contents, ⟨resourceId, path⟩, r.circleId.getD circleId⟩ :=
    fun location => resolver_ofRegistrations_eq_some
  refine ⟨?_, hanswer, fun spelled h => contents?_eq_of_normalize_eq store q h⟩
  simp only [← Registration.place_eq_iff, ← Registration.exists_isLatest_iff,
    Option.isSome_iff_exists, hanswer]
  constructor
  · rintro ⟨_, r, hr, -⟩
    exact ⟨r, hr⟩
  · rintro ⟨r, hr⟩
    exact ⟨_, r, hr, rfl⟩

/-- A file of the repository is registered in two spellings, first in a circle of its own, and
another repository has one at the same path. -/
def twiceRegistered : List Registration :=
  [⟨⟨0, "./a//b"⟩, "old".toUTF8, some 3⟩, ⟨⟨0, "a/c/../b"⟩, "new".toUTF8, none⟩,
    ⟨⟨1, "a/b"⟩, "other".toUTF8, some 5⟩]

/-- The second registration counts, without the circle of the first. -/
theorem resolver_ofRegistrations_twice :
    let store := ofRegistrations twiceRegistered
    store.resolver ⟨"../a/b", "d", 0, 9⟩ = some ⟨"new".toUTF8, ⟨0, "a/b"⟩, 9⟩ ∧
    store.contents? ⟨0, "x/../a/./b/"⟩ = some "new".toUTF8 := by
  obtain ⟨-, hanswer, hspelled⟩ := resolver_ofRegistrations twiceRegistered "../a/b" "d" 0 9
  have hlocation : (ofRegistrations twiceRegistered).resolver ⟨"../a/b", "d", 0, 9⟩ =
      some ⟨"new".toUTF8, ⟨0, "a/b"⟩, 9⟩ := by
    refine (hanswer _).mpr ⟨⟨⟨0, "a/c/../b"⟩, "new".toUTF8, none⟩, ?_, ?_⟩
    · exact ⟨[_], [_], rfl, by decide, by decide⟩
    · rw [show Path.join "d" "../a/b" = "a/b" from by decide]
      rfl
  refine ⟨hlocation, ?_⟩
  rw [hspelled "x/../a/./b/" (by decide), hlocation]
  rfl

end Store

end ExerciseDoc
