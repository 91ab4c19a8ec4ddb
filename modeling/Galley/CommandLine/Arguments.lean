import Galley.CommandLine.Settings

/-!
The arguments of the command. An option's value is checked when the next argument that is known
comes, or at the end; an argument that is not known is reported at once, whatever is still
unchecked before it.
-/

namespace Galley.CommandLine

/-- The container that markup is converted into. -/
inductive Container where
  | newSection
  | newParagraph
  deriving DecidableEq, Repr

/-- What to do. -/
inductive Command where
  | convert (input : String) (container : Container) (format : Option OutputFormat)
      (maxDepth : Option Nat)
  /-- Lists the tags that have handlers. -/
  | tags
  deriving DecidableEq, Repr

structure Invocation where
  /-- The settings file to use in place of the usual one. -/
  settingsPath : Option String
  command : Command
  deriving DecidableEq, Repr

/-- Why the arguments give nothing to do. -/
inductive UsageStop where
  | help
  | version
  /-- No argument says anything. -/
  | helpOnNothing
  | missingSubcommand
  | invalidSubcommand
  | unknownArgument
  | missingArgument
  /-- An option's value is missing or not one of those it can have. -/
  | invalidValue
  /-- An option's value is no number that it can have. -/
  | invalidNumber
  /-- An option is given twice. -/
  | repeatedOption
  /-- A flag is given a value. -/
  | needlessValue
  deriving DecidableEq, Repr

/-- Only help and version are asked for and no fault. -/
def UsageStop.exitCode : UsageStop → Nat
  | .help => 0
  | .version => 0
  | _ => 2

/-- The options that take a value. -/
inductive OptionName where
  | config
  | into
  | format
  | maxDepth
  deriving DecidableEq, Repr

def OptionName.spelling : OptionName → String
  | .config => "config"
  | .into => "into"
  | .format => "format"
  | .maxDepth => "max-depth"

/-- What the arguments of one level have said so far. -/
structure Given where
  config : Option String := none
  into : Option Container := none
  format : Option OutputFormat := none
  maxDepth : Option Nat := none
  input : Option String := none
  deriving DecidableEq, Repr

namespace Given

def has (given : Given) : OptionName → Bool
  | .config => given.config.isSome
  | .into => given.into.isSome
  | .format => given.format.isSome
  | .maxDepth => given.maxDepth.isSome

end Given

def Container.ofName? : String → Option Container
  | "section" => some .newSection
  | "paragraph" => some .newParagraph
  | _ => none

/-- A decimal number that fits into 64 bits; a plus sign may stand before it. -/
def readDepth? (text : String) : Option Nat :=
  let digits :=
    match text.toList with
    | '+' :: rest => rest
    | cs => cs
  if digits.isEmpty then none
  else (Json.number (String.ofList digits)).word64?

/-- Takes an option's value. -/
def accept (given : Given) (option : OptionName) (value : String) : Except UsageStop Given :=
  if given.has option then .error .repeatedOption
  else
    match option with
    | .config =>
      if value = "" then .error .invalidValue else .ok { given with config := some value }
    | .into =>
      match Container.ofName? value with
      | some container => .ok { given with into := some container }
      | none => .error .invalidValue
    | .format =>
      match OutputFormat.ofName? value with
      | some format => .ok { given with format := some format }
      | none => .error .invalidValue
    | .maxDepth =>
      match readDepth? value with
      | some depth => .ok { given with maxDepth := some depth }
      | none => .error .invalidNumber

/-- An option that is still to be checked. -/
inductive Pending where
  | nothing
  /-- Its value is to come. -/
  | awaiting (option : OptionName)
  | holding (option : OptionName) (value : String)

/-- Checks the option that is still to be checked. -/
def resolve (given : Given) : Pending → Except UsageStop Given
  | .nothing => .ok given
  | .awaiting _ => .error .invalidValue
  | .holding option value => accept given option value

/-- What an argument looks like. -/
inductive Shape where
  /-- Two dashes, after which nothing is an option. -/
  | escape
  | long (name : String) (value : Option String)
  | short (first : Char)
  | plain

def shapeOf (argument : String) : Shape :=
  match argument.toList with
  | ['-', '-'] => .escape
  | '-' :: '-' :: rest =>
    let name := String.ofList (rest.takeWhile (· ≠ '='))
    match rest.dropWhile (· ≠ '=') with
    | _ :: value => .long name (some (String.ofList value))
    | [] => .long name none
  | '-' :: first :: _ => .short first
  | _ => .plain

/-- What stands at one level: its options, its flags, and whether it takes an input. -/
structure Level where
  options : List OptionName
  hasVersion : Bool
  takesInput : Bool

def topLevel : Level := ⟨[.config], true, false⟩

def convertLevel : Level := ⟨[.config, .into, .format, .maxDepth], false, true⟩

def tagsLevel : Level := ⟨[.config], false, false⟩

/-- A flag, which ends the reading of arguments. -/
def Level.flag? (level : Level) (name : String) : Option UsageStop :=
  if name = "help" then some .help
  else if level.hasVersion ∧ name = "version" then some .version
  else none

def Level.shortFlag? (level : Level) (c : Char) : Option UsageStop :=
  if c = 'h' then some .help
  else if level.hasVersion ∧ c = 'V' then some .version
  else none

/-- Takes an argument that begins with two dashes. -/
def takeLong (level : Level) (given : Given) (pending : Pending) (name : String)
    (value : Option String) : Except UsageStop (Given × Pending) :=
  match level.options.find? fun option => option.spelling == name with
  | some option => do
    let given ← resolve given pending
    match value with
    | some value => return (← accept given option value, .nothing)
    | none => return (given, .awaiting option)
  | none =>
    match level.flag? name, value with
    | some _, some _ => .error .needlessValue
    | some stop, none => do
      let _ ← resolve given pending
      throw stop
    | none, _ => .error .unknownArgument

/-- Takes an argument that begins with one dash. -/
def takeShort (level : Level) (given : Given) (pending : Pending) (first : Char) :
    Except UsageStop (Given × Pending) :=
  match level.shortFlag? first with
  | some stop => do
    let _ ← resolve given pending
    throw stop
  | none => .error .unknownArgument

/-- Takes an argument that is the input. -/
def takeInput (level : Level) (given : Given) (pending : Pending) (argument : String) :
    Except UsageStop (Given × Pending) :=
  if level.takesInput && given.input.isNone then do
    let given ← resolve given pending
    return ({ given with input := some argument }, .nothing)
  else .error .unknownArgument

/-- Reads the arguments after a subcommand. -/
def readSubcommand (level : Level) (escaped : Bool) (given : Given) (pending : Pending) :
    List String → Except UsageStop Given
  | [] => resolve given pending
  | argument :: rest => do
    if escaped then
      let (given, pending) ← takeInput level given pending argument
      readSubcommand level true given pending rest
    else
      match shapeOf argument, pending with
      | .escape, _ => readSubcommand level true given pending rest
      | .long name value, _ =>
        let (given, pending) ← takeLong level given pending name value
        readSubcommand level false given pending rest
      | .short first, _ =>
        let (given, pending) ← takeShort level given pending first
        readSubcommand level false given pending rest
      | .plain, .awaiting option =>
        readSubcommand level false given (.holding option argument) rest
      | .plain, _ =>
        let (given, pending) ← takeInput level given pending argument
        readSubcommand level false given pending rest

/-- The command that the arguments of `convert` give. -/
def convertCommand (given : Given) : Except UsageStop Command :=
  match given.input with
  | some input => .ok (.convert input (given.into.getD .newSection) given.format given.maxDepth)
  | none => .error .missingArgument

/-- The commands that help can be asked for. -/
def subcommandNames : List String := ["convert", "tags", "help"]

/-- Help on at most one command. -/
def readHelp : List String → UsageStop
  | [] => .help
  | [name] => if subcommandNames.contains name then .help else .invalidSubcommand
  | _ => .invalidSubcommand

/-- Reads what follows the name of a subcommand. What stands before it is checked at the end, and
its settings file counts unless the subcommand is given one too. -/
def finishInvocation (before : Given) (pending : Pending) (after : Given)
    (command : Except UsageStop Command) : Except UsageStop Invocation := do
  let command ← command
  let before ← resolve before pending
  return ⟨after.config.or before.config, command⟩

/-- Reads the arguments from the first on. -/
def readTop (escaped : Bool) (given : Given) (pending : Pending) :
    List String → Except UsageStop Invocation
  | [] => do
    let given ← resolve given pending
    throw (if given.config.isSome then .missingSubcommand else .helpOnNothing)
  | argument :: rest => do
    if escaped then
      throw (if subcommandNames.contains argument then .unknownArgument else .invalidSubcommand)
    else
      match shapeOf argument, pending with
      | .escape, _ => readTop true given pending rest
      | .long name value, _ =>
        let (given, pending) ← takeLong topLevel given pending name value
        readTop false given pending rest
      | .short first, _ =>
        let (given, pending) ← takeShort topLevel given pending first
        readTop false given pending rest
      | .plain, .awaiting option => readTop false given (.holding option argument) rest
      | .plain, _ =>
        match argument with
        | "convert" =>
          let after ← readSubcommand convertLevel false {} .nothing rest
          finishInvocation given pending after (convertCommand after)
        | "tags" =>
          let after ← readSubcommand tagsLevel false {} .nothing rest
          finishInvocation given pending after (.ok .tags)
        | "help" => throw (readHelp rest)
        | _ => throw .invalidSubcommand

/-- What the arguments ask for. -/
def Invocation.ofArguments (arguments : List String) : Except UsageStop Invocation :=
  readTop false {} .nothing arguments

end Galley.CommandLine
