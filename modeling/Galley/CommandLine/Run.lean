import Galley.CommandLine.Arguments
import Galley.Conversion.Converter
import Galley.Document.Outline
import Galley.Document.ViewJson
import Galley.Json.Reader
import Galley.Json.Writer

/-!
Running the command: settings are loaded first, then the input is read and converted, and only a
document that is complete is printed.
-/

namespace Galley.CommandLine

/-- What a file holds. -/
inductive FileState where
  | missing
  /-- There is something, but no text that could be read. -/
  | unreadable
  | text (content : String)
  deriving DecidableEq, Repr

/-- What the command can see. -/
structure Environment where
  file : String → FileState
  standardInput : FileState
  /-- The settings file that is used where no other is given. -/
  defaultSettingsPath : String

/-- Why the command failed. -/
inductive Failure where
  | settingsUnreadable (path : String)
  | settingsInvalid (path : String)
  | standardInputUnreadable
  | inputUnreadable (path : String)
  | conversion (cause : ConvertError)
  deriving DecidableEq, Repr

namespace Failure

def message : Failure → String
  | settingsUnreadable path => "Failed to read config file " ++ path
  | settingsInvalid path => "Invalid config file " ++ path
  | standardInputUnreadable => "Failed to read standard input"
  | inputUnreadable path => "Failed to read " ++ path
  | conversion _ => "Failed to convert HTML"

/-- The cause of a conversion that failed. -/
def cause? : Failure → Option ConvertError
  | conversion cause => some cause
  | _ => none

end Failure

/-- The settings that a file's text gives. -/
def settingsOfText (path content : String) : Except Failure Settings :=
  match (Json.read content).bind Settings.ofJson? with
  | some settings => .ok settings
  | none => .error (.settingsInvalid path)

/-- Loads the settings. Only the file that is used by default may be missing. -/
def loadSettings (env : Environment) (path : Option String) : Except Failure Settings :=
  match path with
  | some path =>
    match env.file path with
    | .text content => settingsOfText path content
    | _ => .error (.settingsUnreadable path)
  | none =>
    match env.file env.defaultSettingsPath with
    | .text content => settingsOfText env.defaultSettingsPath content
    | .missing => .ok {}
    | .unreadable => .error (.settingsUnreadable env.defaultSettingsPath)

/-- Reads the markup from a file, or from standard input where a dash is given. -/
def readInput (env : Environment) (input : String) : Except Failure String :=
  if input = "-" then
    match env.standardInput with
    | .text content => .ok content
    | _ => .error .standardInputUnreadable
  else
    match env.file input with
    | .text content => .ok content
    | _ => .error (.inputUnreadable input)

/-- A new document with one section, and the container to convert into. -/
def newDocument (container : Container) : Except DocumentError (Target × Document) :=
  let (owner, d) := Document.empty.addSection
  match container with
  | .newSection => .ok (.intoSection owner, d)
  | .newParagraph => do
    let (paragraph, d) ← d.addParagraph owner
    return (.intoParagraph paragraph, d)

/-- Converts markup into a new document. -/
def convertToDocument (source : String) (container : Container) (settings : ConversionSettings) :
    Except Failure Document :=
  match newDocument container with
  | .error cause => .error (.conversion (.document cause))
  | .ok (target, d) =>
    match (addConverted (.ofSettings settings) source target).runOn d with
    | (.ok _, d) => .ok d
    | (.error cause, _) => .error (.conversion cause)

/-- A document in a format, without blanks at the end of an outline. -/
def render (d : Document) : OutputFormat → String
  | .outline => String.ofList (Text.trimEnd d.outline.toList)
  | .json => d.viewJson.pretty

/-- The settings with what the flags say in place. -/
def Settings.withFlags (settings : Settings) (format : Option OutputFormat)
    (maxDepth : Option Nat) : Settings :=
  { conversion :=
      { settings.conversion with maxDepth := maxDepth.getD settings.conversion.maxDepth }
    format := format.getD settings.format }

/-- What the command prints. -/
def run (env : Environment) (invocation : Invocation) : Except Failure String := do
  let settings ← loadSettings env invocation.settingsPath
  match invocation.command with
  | .convert input container format maxDepth =>
    let source ← readInput env input
    let settings := settings.withFlags format maxDepth
    let d ← convertToDocument source container settings.conversion
    return render d settings.format ++ "\n"
  | .tags =>
    let registry := Registry.withDefaults settings.conversion
    return String.join (registry.keys.map fun key => key.spelling ++ "\n")

end Galley.CommandLine
