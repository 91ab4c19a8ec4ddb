import Galley.CommandLine.Run

/-!
The command line program: reads what the command needs to see, runs it and prints the outcome.
-/

namespace Galley.CommandLine

/-- The text of some bytes. -/
def FileState.ofBytes (bytes : ByteArray) : FileState :=
  match String.fromUTF8? bytes with
  | some content => .text content
  | none => .unreadable

/-- What a file holds now. -/
def readFileState (path : String) : IO FileState :=
  try
    return .ofBytes (← IO.FS.readBinFile path)
  catch
    | .noFileOrDirectory _ _ _ => return .missing
    | _ => return .unreadable

def readStandardInput : IO FileState :=
  try
    return .ofBytes (← (← IO.getStdin).readBinToEnd)
  catch _ => return .unreadable

/-- The directory of settings files: where the environment says, or in the home directory. -/
def settingsDirectory : IO String := do
  match ← IO.getEnv "XDG_CONFIG_HOME" with
  | some path => if path.startsWith "/" then return path else homeSettings
  | none => homeSettings
where
  homeSettings : IO String := do
    return (← IO.getEnv "HOME").getD "." ++ "/.config"

/-- Reads the files that an invocation names. -/
def observe (invocation : Invocation) : IO Environment := do
  let defaultPath := (← settingsDirectory) ++ "/galley/config.json"
  let settingsPath := invocation.settingsPath.getD defaultPath
  let settings ← readFileState settingsPath
  let input :=
    match invocation.command with
    | .convert input _ _ _ => input
    | .tags => ""
  let source ← if input = "-" || input = "" then pure .missing else readFileState input
  let standardInput ← if input = "-" then readStandardInput else pure .missing
  return {
    file := fun path => if path = settingsPath then settings else if path = input then source
      else .missing
    standardInput := standardInput
    defaultSettingsPath := defaultPath }

/-- How the command is called. -/
def usageText : String :=
  "Usage: galley [--config PATH] <convert INPUT [--into section|paragraph]\n" ++
  "       [--format outline|json] [--max-depth N] | tags | help>"

/-- What is said of arguments that give nothing to do. -/
def UsageStop.text : UsageStop → String
  | .help => usageText
  | .version => "galley 0.1.0"
  | .helpOnNothing => usageText
  | .missingSubcommand => "error: a subcommand is missing\n" ++ usageText
  | .invalidSubcommand => "error: there is no such subcommand\n" ++ usageText
  | .unknownArgument => "error: unexpected argument\n" ++ usageText
  | .missingArgument => "error: the input is missing\n" ++ usageText
  | .invalidValue => "error: an option has a value that it cannot have\n" ++ usageText
  | .invalidNumber => "error: an option has a value that is no fitting number\n" ++ usageText
  | .repeatedOption => "error: an option is given twice\n" ++ usageText
  | .needlessValue => "error: a flag is given a value\n" ++ usageText

end Galley.CommandLine

open Galley.CommandLine in
def main (arguments : List String) : IO UInt32 := do
  match Invocation.ofArguments arguments with
  | .error stop =>
    if stop.exitCode = 0 then IO.println stop.text else IO.eprintln stop.text
    return stop.exitCode.toUInt32
  | .ok invocation =>
    match run (← observe invocation) invocation with
    | .ok text =>
      IO.print text
      return 0
    | .error failure =>
      IO.eprintln ("Error: " ++ failure.message)
      match failure.cause? with
      | some cause => IO.eprintln ("Caused by: " ++ cause.message)
      | none => pure ()
      return 1
