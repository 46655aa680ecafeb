import ExerciseDoc.Proofs.Path.Extension
import ExerciseDoc.Registry.Basic

/-!
# Registry — the parser of a path

A registry is built from its plugins in order, and what a plugin offers is put over what
those in front of it have claimed (`get?_addPlugin`). So the last plugin that claims an
extension has it (`get?_ofPlugins_of_last`), and plugins that offer nothing could as well
be missing. An extension that passes the check of a format is one that paths can have,
so every claim can be reached (`Claims.extension_append`).
-/

namespace ExerciseDoc

/-! ## What plugins offer -/

namespace Plugin

/-- The plugin is no helper, and loads with this format. -/
def Offers (plugin : Plugin) (format : Format) : Prop :=
  plugin.isHelper = false ∧ plugin.load = .ok format

/-- The plugin offers a format for an extension. -/
def Claims (plugin : Plugin) (extension : String) (format : Format) : Prop :=
  plugin.Offers format ∧ extension ∈ format.extensions

theorem Offers.unique {plugin : Plugin} {format other : Format} (h : plugin.Offers format)
    (hother : plugin.Offers other) : format = other :=
  Except.ok.inj (h.2.symm.trans hother.2)

/-- Helpers and plugins that do not load offer nothing. -/
theorem not_offers {plugin : Plugin}
    (h : plugin.isHelper ∨ ∃ e, plugin.load = .error e) (format : Format) :
    ¬ plugin.Offers format := by
  rintro ⟨hhelper, hload⟩
  rcases h with h | ⟨e, h⟩
  · rw [h] at hhelper
    cases hhelper
  · rw [h] at hload
    cases hload

theorem fault?_of_load {plugin : Plugin} {format : Format} (h : plugin.load = .ok format) :
    format.fault? = none := by
  unfold load at h
  split at h
  · cases h
  · cases h
  · split at h
    · cases h
    · rename_i hfault
      cases h
      exact hfault

/-- What is claimed has passed the check of extensions. -/
theorem Claims.isValidExtension {plugin : Plugin} {extension : String} {format : Format}
    (h : plugin.Claims extension format) : isValidExtension extension := by
  obtain ⟨⟨-, hload⟩, hmem⟩ := h
  have hfault := fault?_of_load hload
  unfold Format.fault? at hfault
  split at hfault
  · cases hfault
  · split at hfault
    · cases hfault
    · have hnone := List.find?_eq_none.mp (Option.map_eq_none_iff.mp hfault) extension hmem
      simpa using hnone

theorem Claims.extension_append {plugin : Plugin} {extension : String} {format : Format}
    (h : plugin.Claims extension format) (stem : String) :
    Path.extension (stem ++ "." ++ extension) = extension := by
  have hvalid := h.isValidExtension
  simp only [ExerciseDoc.isValidExtension, Bool.and_eq_true, Bool.not_eq_true',
    List.any_eq_false] at hvalid
  have hchars := hvalid.2
  apply Path.extension_append
  · intro hdot
    exact hchars _ hdot rfl
  · intro hslash
    exact hchars _ hslash rfl

end Plugin

/-! ## Registries as maps -/

namespace Registry

open Entries (get?)

theorem get?_addFormat (registry : Registry) (format : Format) (key : String) :
    get? (addFormat registry format) key =
      if key ∈ format.extensions then some format else get? registry key := by
  unfold addFormat
  generalize format.extensions = extensions
  induction extensions generalizing registry with
  | nil => rfl
  | cons e rest ih =>
      rw [List.foldl_cons, ih, Entries.get?_insert]
      by_cases hrest : key ∈ rest
      · rw [if_pos hrest, if_pos (List.mem_cons_of_mem e hrest)]
      · by_cases hkey : key = e <;> simp [hrest, hkey]

/-! ## Plugins in order -/

theorem addPlugin_of_offers (registry : Registry) {plugin : Plugin} {format : Format}
    (h : plugin.Offers format) : addPlugin registry plugin = addFormat registry format := by
  rw [addPlugin, h.1, h.2]
  rfl

theorem addPlugin_of_not_offers (registry : Registry) {plugin : Plugin}
    (h : ∀ format, ¬ plugin.Offers format) : addPlugin registry plugin = registry := by
  unfold addPlugin
  split
  · rfl
  · rename_i hhelper
    cases hload : plugin.load with
    | ok format => exact absurd ⟨Bool.eq_false_iff.mpr hhelper, hload⟩ (h format)
    | error e => rfl

/-- A plugin takes the extensions that it claims, and no others. -/
theorem get?_addPlugin (registry : Registry) (plugin : Plugin) (key : String) :
    (∀ format, plugin.Claims key format → get? (addPlugin registry plugin) key = some format) ∧
    ((∀ format, ¬ plugin.Claims key format) →
      get? (addPlugin registry plugin) key = get? registry key) := by
  by_cases hoffers : ∃ format, plugin.Offers format
  · obtain ⟨format, hformat⟩ := hoffers
    rw [addPlugin_of_offers registry hformat, get?_addFormat]
    refine ⟨?_, ?_⟩
    · rintro other ⟨hother, hmem⟩
      obtain rfl := hformat.unique hother
      rw [if_pos hmem]
    · intro hnone
      rw [if_neg fun hmem => hnone format ⟨hformat, hmem⟩]
  · have hnone : ∀ format, ¬ plugin.Offers format := not_exists.mp hoffers
    rw [addPlugin_of_not_offers registry hnone]
    exact ⟨fun format hclaims => absurd hclaims.1 (hnone format), fun _ => rfl⟩

theorem get?_foldl_of_unclaimed (registry : Registry) {plugins : List Plugin} {key : String}
    (h : ∀ plugin ∈ plugins, ∀ format, ¬ plugin.Claims key format) :
    get? (plugins.foldl addPlugin registry) key = get? registry key := by
  induction plugins generalizing registry with
  | nil => rfl
  | cons plugin rest ih =>
      obtain ⟨hplugin, hrest⟩ := List.forall_mem_cons.mp h
      rw [List.foldl_cons, ih _ hrest, (get?_addPlugin registry plugin key).2 hplugin]

theorem isSome_get?_foldl (registry : Registry) {plugins : List Plugin} {key : String}
    (h : (get? registry key).isSome ∨ ∃ plugin ∈ plugins, ∃ format, plugin.Claims key format) :
    (get? (plugins.foldl addPlugin registry) key).isSome := by
  induction plugins generalizing registry with
  | nil => simpa using h
  | cons plugin rest ih =>
      apply ih
      by_cases hclaims : ∃ format, plugin.Claims key format
      · obtain ⟨format, hformat⟩ := hclaims
        rw [(get?_addPlugin registry plugin key).1 format hformat]
        exact .inl rfl
      · rw [(get?_addPlugin registry plugin key).2 (not_exists.mp hclaims)]
        refine h.imp_right ?_
        rintro ⟨other, hmem, hother⟩
        rcases List.mem_cons.mp hmem with rfl | hmem
        · exact absurd hother hclaims
        · exact ⟨other, hmem, hother⟩

/-- The last claim of an extension is the one that counts. -/
theorem get?_ofPlugins_of_last {before after : List Plugin} {plugin : Plugin}
    {key : String} {format : Format} (hclaims : plugin.Claims key format)
    (hlast : ∀ later ∈ after, ∀ other, ¬ later.Claims key other) :
    get? (ofPlugins (before ++ plugin :: after)) key = some format := by
  rw [ofPlugins, List.foldl_append, List.foldl_cons, get?_foldl_of_unclaimed _ hlast]
  exact (get?_addPlugin _ plugin key).1 format hclaims

theorem run_of_get? {registry : Registry} {settings : Settings} {source : Location}
    {format : Format} (h : get? registry (Path.extension source.path.path) = some format) :
    run registry settings source = format.parser settings source := by
  simp only [run, h]

/-- **The parser of a path.** A registry parses a file with the format of the last plugin
that is no helper, loads and claims the extension of its path, the text behind the last
dot of the text behind the last slash, and refuses a file whose extension no such plugin
claims. Helpers and plugins that do not load can be left out. Every claimed extension is
found, and behind any stem it selects what is found for it. -/
theorem run_ofPlugins (plugins : List Plugin) :
    (∀ (settings : Settings) (source : Location),
      let extension := Path.extension source.path.path
      Path.IsExtension source.path.path.toList extension.toList ∧
      (∀ before plugin after format, plugins = before ++ plugin :: after →
        plugin.Claims extension format →
        (∀ later ∈ after, ∀ other, ¬ later.Claims extension other) →
        run (ofPlugins plugins) settings source = format.parser settings source) ∧
      ((∀ plugin ∈ plugins, ∀ format, ¬ plugin.Claims extension format) →
        run (ofPlugins plugins) settings source =
          Run.error (.noParser source.path extension))) ∧
    (∀ before plugin after, plugins = before ++ plugin :: after →
      (plugin.isHelper ∨ ∃ e, plugin.load = .error e) →
      ofPlugins (before ++ after) = ofPlugins plugins) ∧
    ∀ plugin ∈ plugins, ∀ extension format, plugin.Claims extension format →
      ∃ chosen, get? (ofPlugins plugins) extension = some chosen ∧
        ∀ (stem : String) (settings : Settings) (source : Location),
          source.path.path = stem ++ "." ++ extension →
          run (ofPlugins plugins) settings source = chosen.parser settings source := by
  refine ⟨?_, ?_, ?_⟩
  · intro settings source extension
    refine ⟨Path.extension_eq_iff.mp rfl, ?_, ?_⟩
    · rintro before plugin after format rfl hclaims hlast
      exact run_of_get? (get?_ofPlugins_of_last hclaims hlast)
    · intro hnone
      have hget : get? (ofPlugins plugins) extension = none :=
        get?_foldl_of_unclaimed [] hnone
      rw [run, hget]
  · rintro before plugin after rfl hidle
    rw [ofPlugins, ofPlugins, List.foldl_append, List.foldl_append, List.foldl_cons,
      addPlugin_of_not_offers _ (Plugin.not_offers hidle)]
  · intro plugin hmem extension format hclaims
    have hsome : (get? (ofPlugins plugins) extension).isSome :=
      isSome_get?_foldl [] (.inr ⟨plugin, hmem, format, hclaims⟩)
    obtain ⟨chosen, hchosen⟩ := Option.isSome_iff_exists.mp hsome
    refine ⟨chosen, hchosen, ?_⟩
    intro stem settings source hpath
    apply run_of_get?
    rw [hpath, hclaims.extension_append, hchosen]

/-! Two plugins that claim one extension, between a helper and one that panics. -/

/-- A format whose documents are empty but for its tag. -/
def tagged (tag : String) (extensions : List String) : Format :=
  ⟨tag, extensions, fun _ source => Run.ok (Document.empty source.path source.circleId tag)⟩

def helperPlugin : Plugin := ⟨"_notes", .provides (tagged "notes" ["txt", "x"])⟩

def firstPlugin : Plugin := ⟨"first", .provides (tagged "first" ["txt", "md"])⟩

def secondPlugin : Plugin := ⟨"second", .provides (tagged "second" ["txt"])⟩

def panickingPlugin : Plugin := ⟨"last", .panics⟩

def somePlugins : List Plugin :=
  [helperPlugin, firstPlugin, secondPlugin, panickingPlugin]

/-- The second plugin has the extension that both claim, and the helper has none. -/
theorem run_ofPlugins_tagged :
    let settings : Settings := ⟨fun _ => none, [], 64, false⟩
    let runAt (path : String) : Run Document :=
      run (ofPlugins somePlugins) settings ⟨ByteArray.empty, ⟨0, path⟩, 0⟩
    secondPlugin.Claims "txt" (tagged "second" ["txt"]) ∧
    runAt "a.md/b.txt" = Run.ok (Document.empty ⟨0, "a.md/b.txt"⟩ 0 "second") ∧
    helperPlugin.isHelper ∧
    runAt "a.md/b.x" = Run.error (.noParser ⟨0, "a.md/b.x"⟩ "x") ∧
    ofPlugins [firstPlugin, secondPlugin, panickingPlugin] = ofPlugins somePlugins ∧
    firstPlugin.Claims "md" (tagged "first" ["txt", "md"]) ∧
    ∃ chosen, get? (ofPlugins somePlugins) "md" = some chosen ∧
      runAt "a/.txt.md" = chosen.parser settings ⟨ByteArray.empty, ⟨0, "a/.txt.md"⟩, 0⟩ := by
  intro settings runAt
  have hfirst : firstPlugin.Offers (tagged "first" ["txt", "md"]) := ⟨rfl, rfl⟩
  have hsecond : secondPlugin.Offers (tagged "second" ["txt"]) := ⟨rfl, rfl⟩
  have hpanicking : ∀ format, ¬ panickingPlugin.Offers format :=
    Plugin.not_offers (.inr ⟨_, rfl⟩)
  have hunclaimed : ∀ plugin ∈ somePlugins, ∀ format, ¬ plugin.Claims "x" format := by
    have hx : ∀ plugin format other, Plugin.Offers plugin format →
        "x" ∉ format.extensions → ¬ plugin.Claims "x" other := by
      rintro plugin format other hformat hx ⟨hother, hmem⟩
      exact hx (hformat.unique hother ▸ hmem)
    intro plugin hmem format
    simp only [somePlugins, List.mem_cons, List.not_mem_nil, or_false] at hmem
    rcases hmem with rfl | rfl | rfl | rfl
    · exact fun h => Plugin.not_offers (.inl rfl) format h.1
    · exact hx _ _ format hfirst (by decide)
    · exact hx _ _ format hsecond (by decide)
    · exact fun h => hpanicking format h.1
  obtain ⟨hruns, hremoved, hreached⟩ := run_ofPlugins somePlugins
  have htxt := (hruns settings ⟨ByteArray.empty, ⟨0, "a.md/b.txt"⟩, 0⟩).2.1
    [helperPlugin, firstPlugin] secondPlugin [panickingPlugin] _ rfl ⟨hsecond, by decide⟩
    (List.forall_mem_singleton.mpr fun other h => hpanicking other h.1)
  have hx := (hruns settings ⟨ByteArray.empty, ⟨0, "a.md/b.x"⟩, 0⟩).2.2 hunclaimed
  obtain ⟨chosen, hchosen, hstem⟩ := hreached firstPlugin (by simp [somePlugins]) "md" _
    ⟨hfirst, by decide⟩
  exact ⟨⟨hsecond, by decide⟩, htxt, rfl, hx,
    hremoved [] helperPlugin [firstPlugin, secondPlugin, panickingPlugin] rfl (.inl rfl),
    ⟨hfirst, by decide⟩, chosen, hchosen, hstem "a/.txt" settings _ rfl⟩

end Registry

end ExerciseDoc
