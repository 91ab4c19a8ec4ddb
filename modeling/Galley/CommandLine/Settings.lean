import Galley.Conversion.Settings

/-!
The settings file of the command: how to convert, and in which format to print. Every part may be
left out.
-/

namespace Galley.CommandLine

/-- The two forms in which a document is printed. -/
inductive OutputFormat where
  | outline
  | json
  deriving DecidableEq, Repr

/-- What a settings file can say. -/
structure Settings where
  conversion : ConversionSettings := {}
  format : OutputFormat := .outline
  deriving DecidableEq, Repr

/-- The format with a name. -/
def OutputFormat.ofName? : String → Option OutputFormat
  | "outline" => some .outline
  | "json" => some .json
  | _ => none

/-- A format is written as its name, or as an object with its name and `null`. -/
def OutputFormat.ofJson? : Json → Option OutputFormat
  | .string (some name) => ofName? name
  | .object [(some name, .null)] => ofName? name
  | _ => none

namespace Settings

/-- The format in the output part of a settings file. -/
def formatOfJson? (value : Json) : Option OutputFormat := do
  match ← value.fields? ["format"] with
  | [format] => Json.orDefault OutputFormat.ofJson? .outline format
  | _ => none

/-- The settings that a JSON value gives. -/
def ofJson? (value : Json) : Option Settings := do
  match ← value.fields? ["conversion", "output"] with
  | [conversion, output] =>
    return {
      conversion := ← Json.orDefault ConversionSettings.ofJson? {} conversion
      format := ← Json.orDefault formatOfJson? .outline output }
  | _ => none

end Settings

end Galley.CommandLine
