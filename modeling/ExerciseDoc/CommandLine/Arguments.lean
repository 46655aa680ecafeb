import ExerciseDoc.Number.Decimal
import ExerciseDoc.Parse.Basic

/-!
# CommandLine — arguments

The arguments of the command line as a tree of options. Options that every
command knows stand in front of the command's name or behind it, and what stands
behind wins. An option is given once at each of the two places; its value follows
it or is joined to it by an equals sign. Behind a double dash nothing is an option.
-/

namespace ExerciseDoc.CommandLine

/-! ## Invocations -/

/-- How answers are written. -/
inductive Style where
  | text
  | json
  deriving DecidableEq, Repr

/-- What a command that parses a file is told. -/
structure FileOptions where
  file : String
  resourceId : Int := 0
  circleId : Int := 0
  depthLimit : Nat := defaultDepthLimit
  checkMandatoryKeys : Bool := true
  deriving DecidableEq, Repr

inductive Command where
  /-- Prints the document of a file. -/
  | parse (options : FileOptions)
  /-- Says whether a file is valid. -/
  | check (options : FileOptions)
  /-- Lists the known file extensions. -/
  | extensions
  deriving DecidableEq, Repr

/-- What the whole line asks for. `--verbose` is understood and leaves no trace here: it asks
for a log of the parse on the error stream, and answers have no log. -/
structure Invocation where
  style : Style
  quiet : Bool
  command : Command
  deriving DecidableEq, Repr

/-! ## Words -/

/-- The options by name. -/
inductive OptionName where
  | output
  | quiet
  | verbose
  | resourceId
  | circleId
  | maxDepth
  | noMandatoryKeys
  deriving DecidableEq, Repr

/-- Whether an option has a value. -/
def OptionName.takesValue : OptionName → Bool
  | .output => true
  | .resourceId => true
  | .circleId => true
  | .maxDepth => true
  | .quiet => false
  | .verbose => false
  | .noMandatoryKeys => false

/-- The options that every command knows. -/
def commonOptions : List (String × OptionName) :=
  [("output", .output), ("quiet", .quiet), ("verbose", .verbose)]

/-- The options of a command that parses a file. -/
def fileOptions : List (String × OptionName) :=
  commonOptions ++
    [ ("resource-id", .resourceId), ("circle-id", .circleId), ("max-depth", .maxDepth),
      ("no-mandatory-keys", .noMandatoryKeys) ]

/-- What one argument looks like. -/
inductive Word where
  /-- Two dashes alone. -/
  | rest
  /-- A name behind two dashes, and perhaps a value behind an equals sign. -/
  | long (name : String) (value : Option String)
  /-- Letters behind one dash. -/
  | short (letters : String)
  | plain (text : String)
  deriving DecidableEq, Repr

def Word.of (arg : String) : Word :=
  match arg.toList with
  | ['-', '-'] => .rest
  | '-' :: '-' :: cs =>
    let name := String.ofList (cs.takeWhile (· != '='))
    match cs.dropWhile (· != '=') with
    | _ :: value => .long name (some (String.ofList value))
    | [] => .long name none
  | '-' :: c :: cs => .short (String.ofList (c :: cs))
  | _ => .plain arg

/-! ## One level of arguments -/

/-- The options and plain arguments of one level. -/
structure Level where
  options : List (OptionName × String)
  plain : List String

/-- The level with one more option, unless it is given already. -/
def Level.addOption (level : Level) (name : OptionName) (value : String) : Option Level :=
  if (level.options.lookup name).isSome then none
  else some { level with options := level.options ++ [(name, value)] }

def Level.addPlain (level : Level) (arg : String) : Level :=
  { level with plain := level.plain ++ [arg] }

/-- Whether an argument can be the value of the option in front of it. -/
def isValue (arg : String) : Bool :=
  match Word.of arg with
  | .plain _ => true
  | _ => false

/-- The arguments of a level up to its end, or up to the first plain one if `stop`
holds; that one and what follows it are handed back. None if an option is unknown,
given twice, lacks its value, or has one that it does not take. -/
def level (known : List (String × OptionName)) (stop : Bool) :
    Level → List String → Option (Level × List String)
  | l, [] => some (l, [])
  | l, arg :: args =>
    match Word.of arg with
    | .plain text =>
      if stop then some (l, arg :: args) else level known stop (l.addPlain text) args
    | .rest => if stop then none else some ({ l with plain := l.plain ++ args }, [])
    | .short letters =>
      if letters = "v" then
        match l.addOption .verbose "" with
        | some l => level known stop l args
        | none => none
      else none
    | .long name value =>
      match known.lookup name with
      | none => none
      | some option =>
        if option.takesValue then
          match value, args with
          | some value, args =>
            match l.addOption option value with
            | some l => level known stop l args
            | none => none
          | none, value :: args =>
            if isValue value then
              match l.addOption option value with
              | some l => level known stop l args
              | none => none
            else none
          | none, [] => none
        else
          match value, l.addOption option "" with
          | none, some l => level known stop l args
          | _, _ => none

/-! ## Values -/

/-- The number of a text of decimal digits, one at least. -/
def nat? (cs : List Char) : Option Nat :=
  if cs != [] && cs.all Text.isDigit then some (Decimal.digitsValue cs) else none

/-- A whole number with or without a sign, of sixty-four bits. -/
def int64? (s : String) : Option Int :=
  let n? : Option Int :=
    match s.toList with
    | '-' :: cs => (nat? cs).map fun n => -(n : Int)
    | '+' :: cs => (nat? cs).map fun n => (n : Int)
    | cs => (nat? cs).map fun n => (n : Int)
  n?.filter fun n => -(Int.pow 2 63) ≤ n && n < Int.pow 2 63

/-- A natural number with or without a plus sign, of sixty-four bits. -/
def nat64? (s : String) : Option Nat :=
  let n? :=
    match s.toList with
    | '+' :: cs => nat? cs
    | cs => nat? cs
  n?.filter fun n => n < Nat.pow 2 64

def style? (s : String) : Option Style :=
  if s = "text" then some .text
  else if s = "json" then some .json
  else none

/-- The value of an option read by `read`, or what holds if it is not given. -/
def Level.get {α : Type} (l : Level) (name : OptionName) (read : String → Option α) (absent : α) :
    Option α :=
  match l.options.lookup name with
  | some value => read value
  | none => some absent

def Level.has (l : Level) (name : OptionName) : Bool :=
  (l.options.lookup name).isSome

/-- What a level says about a file to parse. -/
def Level.fileOptions? (l : Level) : Option FileOptions :=
  match l.plain with
  | [file] =>
    if file = "" then none
    else do
      let resourceId ← l.get .resourceId int64? 0
      let circleId ← l.get .circleId int64? 0
      let depthLimit ← l.get .maxDepth nat64? defaultDepthLimit
      some ⟨file, resourceId, circleId, depthLimit, !l.has .noMandatoryKeys⟩
  | _ => none

/-! ## The whole line -/

/-- The command of a name with the level of arguments behind it. -/
def command? (name : String) (args : List String) : Option (Level × Command) :=
  let fileLevel := (level fileOptions false ⟨[], []⟩ args).map (·.1)
  if name = "parse" then do
    let l ← fileLevel
    let options ← l.fileOptions?
    some (l, .parse options)
  else if name = "check" then do
    let l ← fileLevel
    let options ← l.fileOptions?
    some (l, .check options)
  else if name = "extensions" then do
    let (l, _) ← level commonOptions false ⟨[], []⟩ args
    if l.plain = [] then some (l, .extensions) else none
  else none

/-- What the arguments ask for, or none if they do not make sense. -/
def Invocation.ofArguments? (args : List String) : Option Invocation :=
  match level commonOptions true ⟨[], []⟩ args with
  | some (outer, name :: rest) => do
    let (inner, command) ← command? name rest
    let outerStyle ← outer.get .output style? .text
    let style ← inner.get .output style? outerStyle
    some ⟨style, outer.has .quiet || inner.has .quiet, command⟩
  | _ => none

end ExerciseDoc.CommandLine
