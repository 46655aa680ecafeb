import ExerciseDoc.Proofs.Inheritance.Limit
import ExerciseDoc.Proofs.Inheritance.Recount
import ExerciseDoc.Proofs.Inheritance.Repository
import ExerciseDoc.Proofs.Parse.Answers
import ExerciseDoc.Source.Disk
import Mathlib.Data.List.Nodup

/-!
# Inheritance — one folder on disk and in memory

A `Folder` is finitely many files below a working directory. A disk has the folder if it can
read just the paths of the folder among those that stay inside; a store has it once the
files are registered, in whatever order and spelling. The resolver of the disk reads the
path that a request joins to, the resolver of the store looks the joined path up among
normalized ones: both come to one file because a joined path is its own normal form. A parse
that never looks outside cannot tell the two apart.
-/

namespace ExerciseDoc

/-- The path is relative, and does not start with a way out of its directory. -/
def Path.IsInside (p : String) : Prop :=
  Path.isAbsolute p.toList = false ∧ (Text.splitOn '/' p.toList).head? ≠ some Path.parent

instance (p : String) : Decidable (Path.IsInside p) :=
  inferInstanceAs (Decidable (_ ∧ _))

/-! ## Folders -/

/-- Files by their paths: each path is in normal form and inside, and has one file. -/
structure Folder where
  files : List (String × ByteArray)
  normal : ∀ file ∈ files, Path.normalize file.1 = file.1
  inside : ∀ file ∈ files, Path.IsInside file.1
  once : (files.map (·.1)).Nodup

namespace Folder

variable {folder : Folder}

theorem contents_unique {p : String} {contents contents' : ByteArray}
    (h : (p, contents) ∈ folder.files) (h' : (p, contents') ∈ folder.files) :
    contents = contents' :=
  congrArg Prod.snd (List.inj_on_of_nodup_map folder.once h h' rfl)

/-- A file is found at its path and nowhere else. -/
theorem lookup_eq_some {p : String} {contents : ByteArray} :
    folder.files.lookup p = some contents ↔ (p, contents) ∈ folder.files := by
  have hmem : ∀ contents, folder.files.lookup p = some contents →
      (p, contents) ∈ folder.files := by
    intro contents h
    obtain ⟨before, after, hfiles, -⟩ := List.lookup_eq_some_iff.mp h
    rw [hfiles]
    exact List.mem_append_right _ List.mem_cons_self
  refine ⟨hmem contents, fun h => ?_⟩
  cases hfound : folder.files.lookup p with
  | none =>
      have hne := List.lookup_eq_none_iff.mp hfound _ h
      rw [bne_self_eq_false] at hne
      cases hne
  | some contents' => rw [contents_unique h (hmem contents' hfound)]

/-- The disk that has nothing but the folder. -/
def disk (folder : Folder) : Disk := fun p =>
  match folder.files.lookup p with
  | some contents => .ok contents
  | none => .error .notFound

/-- Among the paths in normal form that stay inside, the disk can read those of the folder. -/
def IsOn (folder : Folder) (disk : Disk) : Prop :=
  ∀ p, Path.normalize p = p → Path.IsInside p →
    ∀ contents, disk p = .ok contents ↔ (p, contents) ∈ folder.files

theorem isOn_disk (folder : Folder) : folder.IsOn folder.disk := by
  intro p _ _ contents
  rw [← lookup_eq_some, disk]
  cases folder.files.lookup p <;> simp

/-- The files are those of the folder, whatever the spelling of their paths. -/
def Registers (folder : Folder) (registered : List (String × ByteArray)) : Prop :=
  ∀ p contents, (p, contents) ∈ folder.files ↔
    ∃ spelled, (spelled, contents) ∈ registered ∧ Path.normalize spelled = p

end Folder

/-! ## Files in memory -/

namespace Store

/-- The store in which files have been registered in a repository, one after the other and
without circles of their own. -/
def ofFiles (resourceId : Int) (files : List (String × ByteArray)) : Store :=
  files.foldl (fun store file => store.add ⟨resourceId, file.1⟩ ⟨file.2, none⟩) empty

theorem mem_foldl_add {resourceId : Int} {files : List (String × ByteArray)} {store : Store}
    {path : FullPath} {file : StoredFile} :
    (path, file) ∈ files.foldl
        (fun store file => store.add ⟨resourceId, file.1⟩ ⟨file.2, none⟩) store ↔
      (∃ spelled contents, (spelled, contents) ∈ files ∧
        path = ⟨resourceId, Path.normalize spelled⟩ ∧ file = ⟨contents, none⟩) ∨
      (path, file) ∈ store := by
  induction files generalizing store with
  | nil => simp
  | cons first rest ih =>
      rw [List.foldl_cons, ih, add, List.mem_cons]
      constructor
      · rintro (⟨spelled, contents, hmem, hfile⟩ | hfirst | hmem)
        · exact .inl ⟨spelled, contents, List.mem_cons_of_mem _ hmem, hfile⟩
        · obtain ⟨rfl, rfl⟩ := Prod.mk.inj hfirst
          exact .inl ⟨first.1, first.2, List.mem_cons_self, rfl, rfl⟩
        · exact .inr hmem
      · rintro (⟨spelled, contents, hmem, rfl, rfl⟩ | hmem)
        · rcases List.mem_cons.mp hmem with rfl | hmem
          · exact .inr (.inl rfl)
          · exact .inl ⟨spelled, contents, hmem, rfl, rfl⟩
        · exact .inr (.inr hmem)

theorem mem_ofFiles {resourceId : Int} {files : List (String × ByteArray)} {path : FullPath}
    {file : StoredFile} :
    (path, file) ∈ ofFiles resourceId files ↔ ∃ spelled contents, (spelled, contents) ∈ files ∧
      path = ⟨resourceId, Path.normalize spelled⟩ ∧ file = ⟨contents, none⟩ := by
  rw [ofFiles, mem_foldl_add]
  simp [empty]

theorem find?_ne_none {store : Store} {path : FullPath} {file : StoredFile}
    (h : (path, file) ∈ store) : store.find? path ≠ none := by
  induction store with
  | nil => cases h
  | cons first rest ih =>
      obtain ⟨p, file'⟩ := first
      unfold find?
      split
      · exact Option.some_ne_none _
      · rename_i hp
        rcases List.mem_cons.mp h with hfirst | hmem
        · exact absurd (Prod.mk.inj hfirst).1.symm hp
        · exact ih hmem

/-- A store finds the files of a folder that it has registered, and no others. -/
theorem find?_ofFiles {folder : Folder} {registered : List (String × ByteArray)}
    (h : folder.Registers registered) (resourceId : Int) (p : String) :
    (ofFiles resourceId registered).find? ⟨resourceId, p⟩ =
      (folder.files.lookup p).map fun contents => ⟨contents, none⟩ := by
  -- What is found is a file of the folder, since it is one of the registered ones.
  have hfolder : ∀ file, (ofFiles resourceId registered).find? ⟨resourceId, p⟩ = some file →
      (p, file.contents) ∈ folder.files ∧ file = ⟨file.contents, none⟩ := by
    intro file hfound
    obtain ⟨spelled, contents, hmem, hpath, rfl⟩ := mem_ofFiles.mp (mem_of_find? hfound)
    exact ⟨(h _ _).mpr ⟨spelled, hmem, (FullPath.mk.inj hpath).2.symm⟩, rfl⟩
  cases hfound : (ofFiles resourceId registered).find? ⟨resourceId, p⟩ with
  | some file =>
      obtain ⟨hmem, hfile⟩ := hfolder file hfound
      rw [Folder.lookup_eq_some.mpr hmem, hfile]
      rfl
  | none =>
      cases hlookup : folder.files.lookup p with
      | none => rfl
      | some contents =>
          obtain ⟨spelled, hmem, rfl⟩ := (h _ _).mp (Folder.lookup_eq_some.mp hlookup)
          exact absurd hfound
            (find?_ne_none (mem_ofFiles.mpr ⟨spelled, contents, hmem, rfl, rfl⟩))

end Store

/-- **One answer from two resolvers.** A request for a path inside is answered alike by a disk
that has the folder and by a store in which its files are registered. -/
theorem Folder.resolver_eq {folder : Folder} {disk : Disk}
    {registered : List (String × ByteArray)} (hdisk : folder.IsOn disk)
    (hregistered : folder.Registers registered) {q : Request}
    (hinside : Path.IsInside q.target.path) :
    disk.resolver q = (Store.ofFiles q.resourceId registered).resolver q := by
  -- The joined path is in normal form, as the paths of the folder are.
  have hnormal : Path.normalize q.target.path = q.target.path :=
    Path.normalize_join q.directory q.uri
  have hread := hdisk q.target.path hnormal hinside
  have hfind : (Store.ofFiles q.resourceId registered).find? q.target =
      (folder.files.lookup q.target.path).map fun contents => ⟨contents, none⟩ :=
    Store.find?_ofFiles hregistered q.resourceId q.target.path
  simp only [Disk.resolver, Store.resolver, hfind]
  cases hfile : disk q.target.path with
  | ok contents =>
      rw [Folder.lookup_eq_some.mpr ((hread contents).mp hfile)]
      rfl
  | error failure =>
      cases hlookup : folder.files.lookup q.target.path with
      | none => rfl
      | some contents =>
          rw [(hread contents).mpr (Folder.lookup_eq_some.mp hlookup)] at hfile
          cases hfile

/-! ## Requests of one repository -/

theorem Disk.resolver_staysHome (disk : Disk) : Resolver.StaysHome disk.resolver := by
  intro q location h
  unfold Disk.resolver at h
  split at h
  · cases h
    rfl
  · cases h

theorem Location.path_of_mem_visits {location : Location} {v : Visit}
    (h : v ∈ location.visits) : v.path = location.path := by
  unfold visits at h
  split at h
  · obtain ⟨directive, -, rfl⟩ := List.mem_map.mp h
    rfl
  · cases h

/-- What stands below a line stands in the repository of the line. -/
theorem Visit.resourceId_of_mem_below {resolver : Resolver} (hhome : resolver.StaysHome)
    {v w : Visit} (h : w ∈ v.below resolver) : w.path.resourceId = v.path.resourceId := by
  unfold below at h
  split at h
  · rename_i uri _
    split at h
    · rename_i location hlocation
      rw [Location.path_of_mem_visits h, hhome _ _ hlocation, ask]
    · cases h
  · cases h

/-- A tour stays in the repository that it starts in. -/
theorem Tour.resourceId_eq {resolver : Resolver} (hhome : resolver.StaysHome)
    {resourceId : Int} {agenda seen left : List Visit} (h : Tour resolver agenda seen left)
    (hagenda : ∀ v ∈ agenda, v.path.resourceId = resourceId) :
    ∀ v ∈ seen, v.path.resourceId = resourceId := by
  induction h with
  | stop => exact List.forall_mem_nil _
  | @visit v agenda seen left _ ih =>
      obtain ⟨hv, hrest⟩ := List.forall_mem_cons.mp hagenda
      refine List.forall_mem_cons.mpr ⟨hv, ih fun w hw => ?_⟩
      rcases List.mem_append.mp hw with hbelow | hw
      · exact (Visit.resourceId_of_mem_below hhome hbelow).trans hv
      · exact hrest w hw

namespace Parse

/-- All requests of a parse are made of the repository of its root. -/
theorem resourceId_of_mem_calls {settings : Settings} {source : Location}
    (hhome : settings.resolver.StaysHome) :
    ∀ q ∈ (parse settings source).calls, q.resourceId = source.path.resourceId := by
  obtain ⟨seen, left, htour, hcalls⟩ := (parse_recounts settings source).exists_tour
  intro q hq
  rw [hcalls] at hq
  obtain ⟨v, hv, hrequest⟩ := List.mem_filterMap.mp hq
  have hask : q.resourceId = v.path.resourceId := by
    unfold Visit.request? at hrequest
    split at hrequest <;> cases hrequest <;> rfl
  rw [hask]
  exact htour.resourceId_eq hhome
    (fun w hw => congrArg _ (Location.path_of_mem_visits hw)) v hv

/-! ## Two resolvers -/

/-- **The disk and the memory agree.** A root is parsed over a disk that has a folder, and
over a store in which the files of the folder are registered in the root's repository. If
the requests of one of the two parses all lead to paths inside, both make the same requests
and come to the same end. -/
theorem parse_disk_eq_parse_store {folder : Folder} {disk : Disk}
    {registered : List (String × ByteArray)} (hdisk : folder.IsOn disk)
    (hregistered : folder.Registers registered) (inherited : List FullPath) (limit : Nat)
    (check : Bool) (source : Location)
    (hinside :
      (∀ q ∈ (parse ⟨disk.resolver, inherited, limit, check⟩ source).calls,
        Path.IsInside q.target.path) ∨
      (∀ q ∈ (parse ⟨(Store.ofFiles source.path.resourceId registered).resolver, inherited,
        limit, check⟩ source).calls, Path.IsInside q.target.path)) :
    parse ⟨disk.resolver, inherited, limit, check⟩ source =
      parse ⟨(Store.ofFiles source.path.resourceId registered).resolver, inherited, limit,
        check⟩ source := by
  have hanswer : ∀ q : Request, q.resourceId = source.path.resourceId →
      Path.IsInside q.target.path →
      disk.resolver q = (Store.ofFiles source.path.resourceId registered).resolver q := by
    intro q hresource hq
    rw [← hresource]
    exact Folder.resolver_eq hdisk hregistered hq
  rcases hinside with hinside | hinside
  · refine (parse_congr fun q hq => ?_).symm
    exact hanswer q (resourceId_of_mem_calls disk.resolver_staysHome q hq) (hinside q hq)
  · refine parse_congr fun q hq => ?_
    exact (hanswer q (resourceId_of_mem_calls (Store.resolver_staysHome _) q hq)
      (hinside q hq)).symm

/-- A file in a directory, and one beside the directory. -/
def twoPlaces : Folder where
  files := [("d/b", "x = 1\n@ ../c".toUTF8), ("c", "".toUTF8)]
  normal := by decide
  inside := by decide
  once := by decide

/-- The files of `twoPlaces` in other spellings, and one of them twice. -/
def twoPlacesSpelled : List (String × ByteArray) :=
  [("c", "".toUTF8), ("./d/e/../b", "x = 1\n@ ../c".toUTF8), ("d/../c", "".toUTF8)]

theorem registers_twoPlacesSpelled : twoPlaces.Registers twoPlacesSpelled := by
  intro p contents
  simp only [twoPlaces, twoPlacesSpelled, List.mem_cons, List.not_mem_nil, or_false,
    Prod.mk.injEq]
  constructor
  · rintro (⟨rfl, rfl⟩ | ⟨rfl, rfl⟩)
    · exact ⟨"./d/e/../b", .inr (.inl ⟨rfl, rfl⟩), rfl⟩
    · exact ⟨"c", .inl ⟨rfl, rfl⟩, rfl⟩
  · rintro ⟨spelled, ⟨rfl, rfl⟩ | ⟨rfl, rfl⟩ | ⟨rfl, rfl⟩, rfl⟩
    · exact .inr ⟨rfl, rfl⟩
    · exact .inl ⟨rfl, rfl⟩
    · exact .inr ⟨rfl, rfl⟩

/-- A root beside `d/b` that inherits from it makes two requests on disk and in memory, and
gets the dependency of `d/b`. -/
theorem parse_disk_eq_parse_store_twoPlaces :
    let onDisk := parse ⟨twoPlaces.disk.resolver, [], 64, false⟩
      ⟨"extends = ./b".toUTF8, ⟨7, "d/a"⟩, 1⟩
    onDisk.calls = [⟨"./b", "d", 7, 1⟩, ⟨"../c", "d", 7, 1⟩] ∧
      (onDisk.result.toOption.map fun doc => doc.dependencies) = some [⟨⟨7, "c"⟩, "c"⟩] ∧
      onDisk = parse ⟨(Store.ofFiles 7 twoPlacesSpelled).resolver, [], 64, false⟩
        ⟨"extends = ./b".toUTF8, ⟨7, "d/a"⟩, 1⟩ := by
  have hcalls : (parse ⟨twoPlaces.disk.resolver, [], 64, false⟩
      ⟨"extends = ./b".toUTF8, ⟨7, "d/a"⟩, 1⟩).calls =
        [⟨"./b", "d", 7, 1⟩, ⟨"../c", "d", 7, 1⟩] := by decide +kernel
  refine ⟨hcalls, by decide +kernel, ?_⟩
  refine parse_disk_eq_parse_store twoPlaces.isOn_disk registers_twoPlacesSpelled [] 64 false
    ⟨"extends = ./b".toUTF8, ⟨7, "d/a"⟩, 1⟩ (.inl ?_)
  rw [hcalls]
  decide

end Parse

end ExerciseDoc
