import ExerciseDoc.Entries
import ExerciseDoc.Registry.Plugin

/-!
# Registry — parsers by extension

A registry maps extensions to formats, in ascending order of the extensions. It is
built from plugins in order: helpers and plugins that do not load are passed over,
and of two plugins that claim one extension the later keeps it. A `Cache` holds
the registries built so far by the name of their plugin set; the first set given
for a name is the one that counts.
-/

namespace ExerciseDoc

/-- Formats by extension. -/
abbrev Registry := Entries Format

namespace Registry

/-- The registry with a format at each extension that it claims. -/
def addFormat (registry : Registry) (format : Format) : Registry :=
  format.extensions.foldl (fun r e => Entries.insert r e format) registry

/-- The registry with what a plugin provides, if it is no helper and loads. -/
def addPlugin (registry : Registry) (plugin : Plugin) : Registry :=
  if plugin.isHelper then registry
  else
    match plugin.load with
    | .ok format => registry.addFormat format
    | .error _ => registry

/-- The registry of a list of plugins. -/
def ofPlugins (plugins : List Plugin) : Registry :=
  plugins.foldl addPlugin []

/-- The extensions and the tag of the format at each. -/
def tags (registry : Registry) : List (String × String) :=
  registry.map fun (e, format) => (e, format.tag)

/-- The registry of the plugins that are always there. -/
def builtin : Registry :=
  ofPlugins [Plugin.exercise]

/-- Parses a file with the format at its extension. -/
def run (registry : Registry) : Parser := fun settings source =>
  let extension := Path.extension source.path.path
  match registry.get? extension with
  | some format => format.parser settings source
  | none => Run.error (.noParser source.path extension)

end Registry

/-! ## Cache -/

/-- A registry that may be handed out more than once. Registries are numbered as they are
built: those with one number are one registry that is shared. -/
structure SharedRegistry where
  number : Nat
  registry : Registry

instance : Coe SharedRegistry Registry := ⟨SharedRegistry.registry⟩

/-- The registries built so far, the first one first. -/
abbrev Cache := List (String × SharedRegistry)

namespace Cache

/-- The registry kept for a name. -/
def find? (cache : Cache) (name : String) : Option SharedRegistry :=
  cache.lookup name

/-- The registry for a name, built from the plugins if none is kept, and the cache
that keeps it. -/
def load (cache : Cache) (name : String) (plugins : List Plugin) : SharedRegistry × Cache :=
  match cache.find? name with
  | some shared => (shared, cache)
  | none =>
    let shared : SharedRegistry := ⟨cache.length, Registry.ofPlugins plugins⟩
    (shared, cache ++ [(name, shared)])

end Cache

end ExerciseDoc
