import ExerciseDoc.Parse.Basic
import ExerciseDoc.Proofs.Path.Directory
import ExerciseDoc.Proofs.Run
import ExerciseDoc.Source.Disk
import ExerciseDoc.Source.Store

/-!
# Path — the name of a file

A walk along a path meets its `pieces`. A path whose last piece is a name can be cut into
its directory and this name, and a reference by the name from the directory leads to the
path itself, folded (`Named.join_fileName`). What its cutting gives is what cutting its
normal form gives (`Named.fileName_normalize`, `Named.join_directory_normalize`), so what a
file refers to, and under which name, does not depend on how its path is spelled
(`self_reference`).
-/

namespace ExerciseDoc

/-! ## Resolvers that go by paths -/

/-- The answer depends on the path that is asked for and on the circle that asks, but not on
the reference and the directory that lead to the path. -/
def Resolver.Lexical (resolver : Resolver) : Prop :=
  ∀ q q' : Request, q.target = q'.target → q.circleId = q'.circleId → resolver q = resolver q'

theorem Store.resolver_lexical (store : Store) : Resolver.Lexical store.resolver := by
  intro q q' htarget hcircle
  rw [resolver, resolver, htarget, hcircle]

theorem Disk.resolver_lexical (disk : Disk) : Resolver.Lexical disk.resolver := by
  intro q q' htarget hcircle
  rw [resolver, resolver, htarget, hcircle]

namespace Path

open Text (splitOn)

variable {p p' : String} {s s' : Segment}

/-! ## Pieces -/

/-- What a walk along a path meets. -/
inductive Piece where
  | root
  | here
  | parent
  | name (s : Segment)
  deriving DecidableEq, Repr

/-- The piece that a segment stands for. -/
def Piece.of (s : Segment) : Piece :=
  if s = Path.parent then .parent else .name s

/-- The pieces of a path in order. A slash in front is the root, and a single dot in front is
where a relative path starts; other slashes only divide, and other single dots say nothing. -/
def pieces (p : List Char) : List Piece :=
  let origin :=
    if isAbsolute p then [.root]
    else if (splitOn '/' p).head? = some here then [.here]
    else []
  origin ++ (telling p).map Piece.of

theorem Piece.of_eq_name {x : Segment} : Piece.of x = .name s ↔ x = s ∧ x ≠ Path.parent := by
  unfold Piece.of
  split <;> simp_all

/-- Nothing but a name at the end of the walk is a name: not what the walk starts from. -/
theorem getLast?_pieces_eq_name {p : List Char} : (pieces p).getLast? = some (.name s) ↔
    ((telling p).map Piece.of).getLast? = some (.name s) := by
  unfold pieces
  cases htelling : (telling p).getLast? with
  | some x => simp [List.getLast?_append, List.getLast?_map, htelling]
  | none =>
      rw [List.getLast?_eq_none_iff.mp htelling]
      split
      · simp
      · split <;> simp

/-- A path has a name if its last piece is one. -/
theorem named_iff : Named p s ↔ (pieces p.toList).getLast? = some (.name s) := by
  rw [getLast?_pieces_eq_name, List.getLast?_map, Option.map_eq_some_iff]
  constructor
  · intro h
    exact ⟨s, h.last, Piece.of_eq_name.mpr ⟨rfl, h.name.ne_parent⟩⟩
  · rintro ⟨x, hx, hpiece⟩
    obtain ⟨rfl, hparent⟩ := Piece.of_eq_name.mp hpiece
    obtain ⟨-, hvoid⟩ := List.mem_filter.mp (List.mem_of_getLast? hx)
    exact ⟨isName_iff.mpr ⟨by simpa using hvoid, hparent⟩, hx⟩

/-! ## A file and its directory -/

namespace Named

theorem not_mem (h : Named p s) : '/' ∉ s :=
  Text.not_mem_of_mem_splitOn (List.mem_filter.mp (List.mem_of_getLast? h.last)).1

/-- From its directory a file is found by its name. -/
theorem join_fileName (h : Named p s) : join (directory p) (fileName p) = Path.normalize p := by
  have hrelative : isAbsolute s = false := by
    rw [Bool.eq_false_iff]
    intro habsolute
    obtain ⟨rest, -, hsplit⟩ := Normal.isAbsolute_iff.mp habsolute
    rw [Text.splitOn_of_not_mem h.not_mem] at hsplit
    exact h.name.ne_nil (List.cons.inj hsplit).1
  rw [h.fileName_eq, join, String.toList_ofList, of_appended _ hrelative,
    Text.splitOn_of_not_mem h.not_mem, List.foldl_cons, List.foldl_nil, ← h.of_eq]
  rfl

theorem fileName_normalize (h : Named p s) : fileName (Path.normalize p) = fileName p := by
  rw [h.normalize.named.fileName_eq, h.fileName_eq]

theorem join_directory_normalize (h : Named p s) (reference : String) :
    join (directory (Path.normalize p)) reference = join (directory p) reference :=
  h.normalize.named.join_directory_eq h (normalize_normalize p) reference

/-- The normal form of a path has its name, so paths with one normal form have one name. -/
theorem unique_of_normalize_eq (h : Named p s) (h' : Named p' s')
    (hnormal : Path.normalize p = Path.normalize p') : s = s' := by
  have hname := h.normalize.named
  rw [hnormal] at hname
  exact hname.unique h'.normalize.named

end Named

/-! ## References and their names -/

/-- A dependency is the same from two paths that lead to the same file. -/
theorem addDependency_result_eq {ctx : Parse.Context} (h : ctx.resolver.Lexical)
    {path path' : FullPath} {uri : String}
    (htarget : (Parse.Context.request { ctx with path := path } uri).target =
      (Parse.Context.request { ctx with path := path' } uri).target)
    (doc : Document) (place : Place) (name : Option String) :
    (Parse.addDependency { ctx with path := path } doc place uri name).result =
      (Parse.addDependency { ctx with path := path' } doc place uri name).result := by
  have hanswer := h _ _ htarget rfl
  apply Run.result_bind_congr
  simp only [Parse.locate, Run.ask_bind, hanswer]

/-- **A file finds itself.** From the directory of a path whose last piece is a name, the
file name of the path leads to its normal form. The normal form has the same file name, and
references lead from it to the same paths. The same holds of any two paths with one normal
form whose last pieces are names. A resolver that goes by paths, as those of stores and disks
do, then gives files at both paths the same dependencies, whether their names are written
out or taken from the files. -/
theorem self_reference {p : String} {s : Segment}
    (h : (pieces p.toList).getLast? = some (.name s)) :
    join (directory p) (fileName p) = normalize p ∧
    fileName p = fileName (normalize p) ∧
    (∀ uri, join (directory p) uri = join (directory (normalize p)) uri) ∧
    ∀ p' s', (pieces p'.toList).getLast? = some (.name s') → normalize p = normalize p' →
      fileName p = fileName p' ∧
      (∀ uri, join (directory p) uri = join (directory p') uri) ∧
      ∀ (ctx : Parse.Context) (resourceId : Int) (doc : Document) (place : Place) (uri : String)
        (name : Option String), ctx.resolver.Lexical →
        (Parse.addDependency { ctx with path := ⟨resourceId, p⟩ } doc place uri name).result =
          (Parse.addDependency { ctx with path := ⟨resourceId, p'⟩ } doc place uri name).result := by
  have hp : Named p s := named_iff.mpr h
  refine ⟨hp.join_fileName, hp.fileName_normalize.symm,
    fun uri => (hp.join_directory_normalize uri).symm, ?_⟩
  intro p' s' h' hnormal
  have hp' : Named p' s' := named_iff.mpr h'
  obtain rfl := hp.unique_of_normalize_eq hp' hnormal
  have hjoin := hp.join_directory_eq hp' hnormal
  refine ⟨hp.fileName_eq.trans hp'.fileName_eq.symm, hjoin, ?_⟩
  intro ctx resourceId doc place uri name hlexical
  refine addDependency_result_eq hlexical ?_ doc place name
  simp only [Request.target, Parse.Context.request, FullPath.directory, hjoin]

/-- The path `./a//b/../c/.` is that of the file `c` beside `d`, as `a/c/` is: a dependency on
`d` gets its name in both. -/
theorem self_reference_slashed :
    let store := Store.empty.add ⟨0, "a/d"⟩ ⟨"".toUTF8, none⟩
    let ctx : Parse.Context := ⟨store.resolver, ⟨0, "a/c/"⟩, 1, [], 64⟩
    let doc := Document.empty ⟨0, "a/c/"⟩ 1 "pl"
    let place := Place.of ⟨0, "a/c/"⟩ ['@', 'd'] 1
    (pieces "./a//b/../c/.".toList).getLast? = some (.name ['c']) ∧
    join (directory "./a//b/../c/.") (fileName "./a//b/../c/.") = "a/c" ∧
    ((Parse.addDependency { ctx with path := ⟨0, "./a//b/../c/."⟩ } doc place "d"
      none).result.toOption.map fun doc => doc.dependencies) = some [⟨⟨0, "a/d"⟩, "d"⟩] := by
  intro store ctx doc place
  have hpiece : (pieces "./a//b/../c/.".toList).getLast? = some (.name ['c']) := by decide
  obtain ⟨hself, -, -, hspelled⟩ := self_reference hpiece
  obtain ⟨-, -, hdependency⟩ := hspelled "a/c/" ['c'] (by decide) (by decide)
  refine ⟨hpiece, hself.trans (by decide), ?_⟩
  rw [hdependency ctx 0 doc place "d" none store.resolver_lexical]
  decide +kernel

end Path

end ExerciseDoc
