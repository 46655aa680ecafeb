import ExerciseDoc.Parse.Basic
import ExerciseDoc.Text.Quoted

/-!
# Registry — plugins

A plugin offers a parser for a format together with the file extensions that it
claims. Loading one calls its entry point and checks what comes back; a plugin
whose name starts with a low line is a helper and is never loaded.
-/

namespace ExerciseDoc

/-- What a plugin provides: a format's tag, its extensions without the dot, and
its parser. -/
structure Format where
  tag : String
  extensions : List String
  parser : Parser

/-- What calling the entry point of a plugin comes to. -/
inductive EntryPoint where
  /-- The plugin has no entry point. -/
  | missing
  /-- The call ends in a panic. -/
  | panics
  | provides (format : Format)

structure Plugin where
  name : String
  entryPoint : EntryPoint

/-- What is wrong with what a plugin provides. -/
inductive FormatFault where
  | emptyTag
  | noExtensions
  | invalidExtension (extension : String)
  deriving DecidableEq, Repr

def FormatFault.message : FormatFault → String
  | .emptyTag => "empty format tag"
  | .noExtensions => "no extensions claimed"
  | .invalidExtension extension => "invalid extension " ++ Text.quoted extension

/-- Why a plugin is not loaded. -/
inductive PluginError where
  | missingEntryPoint (plugin : String)
  | malformed (plugin : String) (fault : FormatFault)
  | panicked (plugin : String)
  deriving DecidableEq, Repr

def PluginError.message : PluginError → String
  | .missingEntryPoint plugin =>
    "get_parser() function from plugin " ++ plugin ++ " is not defined"
  | .malformed plugin fault =>
    "get_parser() function from plugin " ++ plugin ++
      " returned a malformed ParserImport: " ++ fault.message
  | .panicked plugin => "could not import parser " ++ plugin ++ ": get_parser() panicked"

/-! ## Checking -/

/-- Whether an extension can be that of a path: not empty, no dot, no slash and no
blank. -/
def isValidExtension (extension : String) : Bool :=
  let cs := extension.toList
  cs != [] && !cs.any fun c => c == '.' || c == '/' || Text.isBlank c

/-- The first fault of what a plugin provides. -/
def Format.fault? (format : Format) : Option FormatFault :=
  if Text.allBlank format.tag.toList then some .emptyTag
  else if format.extensions = [] then some .noExtensions
  else (format.extensions.find? fun e => !isValidExtension e).map .invalidExtension

namespace Plugin

/-- Whether a plugin is a helper. -/
def isHelper (plugin : Plugin) : Bool :=
  plugin.name.toList.head? == some '_'

/-- The format that a plugin provides, or why it cannot be used. -/
def load (plugin : Plugin) : Except PluginError Format :=
  match plugin.entryPoint with
  | .missing => .error (.missingEntryPoint plugin.name)
  | .panics => .error (.panicked plugin.name)
  | .provides format =>
    match format.fault? with
    | some fault => .error (.malformed plugin.name fault)
    | none => .ok format

/-- The plugin of exercise files. -/
def exercise : Plugin :=
  ⟨"pl", .provides ⟨formatTag, ["pl"], parse⟩⟩

end Plugin

end ExerciseDoc
