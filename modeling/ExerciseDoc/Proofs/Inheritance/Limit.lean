import ExerciseDoc.Proofs.Inheritance.Chain
import ExerciseDoc.Proofs.Parse.Agreement
import ExerciseDoc.Source.Store

/-!
# Inheritance — the depth limit

The limit cuts a parse off and changes nothing otherwise: a parse that it does not cut
off is the same under every higher limit. Over a store of files a limit above their
number is never reached, since a chain has no file twice and holds no files but the
root and stored ones; a cycle is then reported as a loop.
-/

namespace ExerciseDoc

/-- The error is that of a chain that is too long. -/
def ParseError.IsTooDeep (e : ParseError) : Prop :=
  ∃ path chain limit, e = .inheritanceTooDeep path chain limit

/-! ## Files of a store -/

namespace Store

theorem mem_of_find? {store : Store} {path : FullPath} {file : StoredFile}
    (h : store.find? path = some file) : (path, file) ∈ store := by
  induction store with
  | nil => cases h
  | cons entry rest ih =>
      obtain ⟨key, stored⟩ := entry
      rw [find?] at h
      split at h
      · rename_i hkey
        cases h
        rw [hkey]
        exact List.mem_cons_self
      · exact List.mem_cons_of_mem _ (ih h)

theorem mem_filesIn {store : Store} {resourceId : Int} {path : FullPath} :
    path ∈ store.filesIn resourceId ↔
      path.resourceId = resourceId ∧ ∃ file, (path, file) ∈ store := by
  simp [filesIn, and_comm]

/-- A store answers with the file that is asked for, and with stored ones only. -/
theorem mem_filesIn_of_resolver {store : Store} {q : Request} {location : Location}
    (h : store.resolver q = some location) :
    location.path ∈ store.filesIn q.resourceId := by
  obtain ⟨file, hfile, rfl⟩ := Option.map_eq_some_iff.mp h
  exact mem_filesIn.mpr ⟨rfl, file, mem_of_find? hfile⟩

end Store

namespace Parse

/-! ## A higher limit -/

/-- The second context differs from the first in a limit that is no lower. -/
def HigherLimit (ctx ctx' : Context) : Prop :=
  ∃ limit, ctx' = { ctx with depthLimit := limit } ∧ ctx.depthLimit ≤ limit

theorem HigherLimit.sameFile {ctx ctx' : Context} (h : HigherLimit ctx ctx') :
    SameFile ctx ctx' := by
  obtain ⟨limit, rfl, -⟩ := h
  exact ⟨ctx.chain, limit, rfl⟩

/-- Towards a higher limit only the lower one can refuse for the length of a chain; a
loop is refused under both. -/
theorem higherLimit_simulation :
    Simulation (· = ·) (· = ·) ParseError.IsTooDeep (fun _ => False) HigherLimit where
  alongside h := h.sameFile.alongside
  line h line number fault := by rw [h.sameFile.path]
  undecodable h := by rw [h.sameFile.path]
  further := by
    intro ctx ctx' h location location' hfind
    obtain rfl := h.sameFile.location_eq hfind
    obtain ⟨limit, rfl, hlimit⟩ := h
    by_cases hmem : location.path ∈ ctx.chain
    · have hmem' : location.path ∈ ({ ctx with depthLimit := limit } : Context).chain := hmem
      rw [descend_of_refusal (refusal_of_mem hmem), descend_of_refusal (refusal_of_mem hmem')]
      exact .inl (.error rfl)
    · by_cases hdeep : ctx.depthLimit ≤ ctx.chain.length
      · rw [descend_of_refusal (refusal_of_le hmem hdeep)]
        exact .inl (.left rfl ⟨_, _, _, rfl⟩)
      · -- What the lower limit lets pass, the higher one does.
        have hshort : ctx.chain.length < ctx.depthLimit := by omega
        refine .inr ⟨refusal_eq_none.mpr ⟨hmem, hshort⟩,
          refusal_eq_none.mpr ⟨hmem, ?_⟩, limit, rfl, hlimit⟩
        exact Nat.lt_of_lt_of_le hshort hlimit

/-! ## Chains over a store -/

theorem LeadsTo.mem_filesIn {store : Store} {f : Location → Run Document} {ctx : Context}
    {contents : ByteArray} {location : Location} (h : LeadsTo f ctx contents location)
    (hresolver : ctx.resolver = store.resolver) :
    location.path ∈ store.filesIn ctx.path.resourceId := by
  obtain ⟨_, _, _, _, _, uri, _, hfound⟩ := h
  rw [hresolver] at hfound
  exact Store.mem_filesIn_of_resolver hfound

theorem Opens.resolver {ctx ctx' : Context} {contents contents' : ByteArray}
    {edges : List Location} (h : Opens ctx contents edges ctx' contents') :
    ctx'.resolver = ctx.resolver := by
  induction h with
  | root => rfl
  | further _ _ _ ih => exact ih

/-- Over a store a parse stays in one repository and opens stored files only. -/
theorem Opens.stored {store : Store} {ctx ctx' : Context}
    {contents contents' : ByteArray} {edges : List Location}
    (h : Opens ctx contents edges ctx' contents')
    (hresolver : ctx.resolver = store.resolver) :
    ctx'.path.resourceId = ctx.path.resourceId ∧
      edges.map (·.path) ⊆ store.filesIn ctx.path.resourceId := by
  induction h with
  | root => exact ⟨rfl, List.nil_subset _⟩
  | @further ctx _ location _ _ _ hlead _ _ ih =>
      -- The store answers from the repository that asks, so the next file asks there too.
      have hmem := hlead.mem_filesIn hresolver
      have hsame : (ctx.under location).path.resourceId = ctx.path.resourceId :=
        (Store.mem_filesIn.mp hmem).1
      obtain ⟨hpath, hedges⟩ := ih hresolver
      rw [hsame] at hpath hedges
      exact ⟨hpath, List.cons_subset.mpr ⟨hmem, hedges⟩⟩

/-- A chain that is too long over a store has more stored files than there are. -/
theorem not_tooDeep_of_store {store : Store} {ctx : Context} {contents : ByteArray}
    (hresolver : ctx.resolver = store.resolver) (hroot : ctx.chain = [ctx.path])
    (hlimit : (store.filesIn ctx.path.resourceId).length < ctx.depthLimit)
    {e : ParseError} (he : (fileIn ctx contents).result = .error e) : ¬ e.IsTooDeep := by
  intro hcut
  obtain ⟨path, chain, limit, rfl⟩ := hcut
  obtain ⟨edges, ctx', contents', location, hopen, hlead, hnew, hdeep, -, -, -⟩ :=
    fileIn_eq_tooDeep he
  have hchain : ctx'.chain = ctx.path :: edges.map (·.path) := by
    rw [hopen.chain, hroot]
    rfl
  obtain ⟨hsame, hedges⟩ := hopen.stored hresolver
  have hlast : location.path ∈ store.filesIn ctx.path.resourceId := by
    rw [← hsame]
    exact hlead.mem_filesIn (hopen.resolver.trans hresolver)
  have hfresh : ctx.chain.Nodup := by
    rw [hroot]
    exact List.pairwise_singleton _ _
  have hnodup := Context.nodup_under (hopen.nodup hfresh) hnew
  rw [Context.under, hchain, List.cons_append, List.nodup_cons] at hnodup
  -- The files below the root and the one that is too many are stored, each once.
  have hcount : (edges.map (·.path) ++ [location.path]).length ≤
      (store.filesIn ctx.path.resourceId).length :=
    hnodup.2.length_le_of_subset
      (List.append_subset.mpr ⟨hedges, List.cons_subset.mpr ⟨hlast, List.nil_subset _⟩⟩)
  rw [hopen.depthLimit, hchain] at hdeep
  simp only [List.length_append, List.length_cons, List.length_map, List.length_nil] at hcount
  simp only [List.length_cons, List.length_map] at hdeep
  omega

/-! ## The limit of a parse -/

/-- **The depth limit only cuts.** A parse that does not end with a chain that is too
long is the same under every higher limit, its requests included. Over a store, under
a limit above the number of files in the root's repository, no parse ends so, and a
parse ends with a loop exactly if it comes to a file that inherits from its own
chain. -/
theorem limit_only_cuts :
    (∀ (settings : Settings) (source : Location) (limit limit' : Nat), limit ≤ limit' →
      (∀ path chain l, (parse { settings with depthLimit := limit } source).result ≠
        .error (.inheritanceTooDeep path chain l)) →
      parse { settings with depthLimit := limit' } source =
        parse { settings with depthLimit := limit } source) ∧
    (∀ (store : Store) (limit : Nat) (check : Bool) (source : Location),
      (store.filesIn source.path.resourceId).length < limit →
      (∀ path chain l, (parse ⟨store.resolver, [], limit, check⟩ source).result ≠
        .error (.inheritanceTooDeep path chain l)) ∧
      ((∃ path chain, (parse ⟨store.resolver, [], limit, check⟩ source).result =
          .error (.inheritanceLoop path chain)) ↔
        ∃ edges ctx contents location,
          Opens (contextOf ⟨store.resolver, [], limit, check⟩ source) source.contents
            edges ctx contents ∧
          LeadsTo (ancestor ctx) ctx contents location ∧ location.path ∈ ctx.chain)) := by
  refine ⟨?_, ?_⟩
  · intro settings source limit limit' hle hcut
    have hhigher : HigherLimit (contextOf { settings with depthLimit := limit } source)
        (contextOf { settings with depthLimit := limit' } source) := ⟨limit', rfl, hle⟩
    have hfile := higherLimit_simulation.fileIn_agree_eq hhigher rfl source.contents
    have hparse : Run.Agree (· = ·) ParseError.IsTooDeep (fun _ => False) (· = ·)
        (parse { settings with depthLimit := limit } source)
        (parse { settings with depthLimit := limit' } source) :=
      parse_agree Eq.refl rfl hfile
    apply hparse.eq
    intro e he htooDeep
    obtain ⟨path, chain, l, rfl⟩ := htooDeep
    exact hcut path chain l he
  · intro store limit check source hlimit
    refine ⟨?_, ?_, ?_⟩
    · intro path chain l h
      rcases parse_eq_error h with hfile | ⟨_, _, hmissing⟩
      · exact not_tooDeep_of_store rfl rfl hlimit hfile ⟨path, chain, l, rfl⟩
      · cases hmissing
    · intro hloop
      obtain ⟨path, chain, h⟩ := hloop
      rcases parse_eq_error h with hfile | ⟨_, _, hmissing⟩
      · obtain ⟨edges, ctx, contents, location, hopen, hlead, hmem, -, -⟩ :=
          fileIn_eq_loop hfile
        exact ⟨edges, ctx, contents, location, hopen, hlead, hmem⟩
      · cases hmissing
    · intro hcycle
      obtain ⟨edges, ctx, contents, location, hopen, hlead, hmem⟩ := hcycle
      exact ⟨_, _, parse_eq_error_of_fileIn
        (hopen.fails (fileIn_eq_error_of_refusal hlead (refusal_of_mem hmem)))⟩

/-! The files of the pair in a store. -/

def pairStore : Store :=
  [ (firstOfPair.path, ⟨firstOfPair.contents, none⟩),
    (secondOfPair.path, ⟨secondOfPair.contents, none⟩) ]

/-- The parse of the pair is not cut off under a limit of two and so the same under the
usual one. Under a limit of three, one more than there are files, it ends with a loop
and with nothing else. -/
theorem limit_only_cuts_pair :
    parse ⟨pairStore.resolver, [], 64, true⟩ firstOfPair =
      parse ⟨pairStore.resolver, [], 2, true⟩ firstOfPair ∧
    (∀ path chain l, (parse ⟨pairStore.resolver, [], 3, true⟩ firstOfPair).result ≠
      .error (.inheritanceTooDeep path chain l)) ∧
    ∃ edges ctx contents location,
      Opens (contextOf ⟨pairStore.resolver, [], 3, true⟩ firstOfPair) firstOfPair.contents
        edges ctx contents ∧
      LeadsTo (ancestor ctx) ctx contents location ∧ location.path ∈ ctx.chain := by
  have hloop : ∀ limit, limit = 2 ∨ limit = 3 →
      (parse ⟨pairStore.resolver, [], limit, true⟩ firstOfPair).result =
        .error (.inheritanceLoop ⟨0, "b"⟩ [⟨0, "a"⟩, ⟨0, "b"⟩, ⟨0, "a"⟩]) := by
    rintro limit (rfl | rfl)
    · rfl
    · rfl
  have hhigher := limit_only_cuts.1 ⟨pairStore.resolver, [], 2, true⟩ firstOfPair 2 64
    (by decide)
  have hstore := limit_only_cuts.2 pairStore 3 true firstOfPair (by decide)
  refine ⟨hhigher ?_, hstore.1, hstore.2.mp ⟨_, _, hloop 3 (.inr rfl)⟩⟩
  intro path chain l h
  rw [show (parse { (⟨pairStore.resolver, [], 2, true⟩ : Settings) with depthLimit := 2 }
    firstOfPair).result = _ from hloop 2 (.inl rfl)] at h
  cases h

end Parse

end ExerciseDoc
