import Galley.Conversion.Handlers
import Galley.Conversion.Walk
import Galley.Html.Fragment

/-!
Converters: markup is parsed first, and the result inserted into a section or a paragraph of any
document, as often as wanted.
-/

namespace Galley

/-- The container that converted markup goes into. -/
inductive Target where
  | intoSection (id : SectionId)
  | intoParagraph (id : ParagraphId)
  deriving DecidableEq, Repr

/-- The context that a target stands for, if the document has it. -/
def Document.resolve (d : Document) : Target → Except DocumentError Context
  | .intoSection id => do
    d.checkSection id
    return .inSection id
  | .intoParagraph id => do
    let _ ← d.paragraph id
    return .inParagraph id

structure Converter where
  registry : Registry
  settings : ConversionSettings

/-- Parsed markup with the converter that inserts it. -/
structure Conversion where
  converter : Converter
  markup : Location

/-- The root of parsed markup, whose children are the top-level nodes. Markup is not empty. -/
def parseMarkup (source : String) : Except ConvertError Location :=
  if source = "" then .error .emptyMarkup
  else .ok ⟨Html.parseFragment source, [⟨.fragment, [], []⟩]⟩

/-- Converts the markup into a target. What was inserted before a failure stays. -/
def Conversion.insertInto (conversion : Conversion) (target : Target) : Edit Unit := do
  let context ← Edit.query (·.resolve target)
  let _ ← walk conversion.converter.registry conversion.converter.settings.maxDepth context
    conversion.markup

namespace Converter

/-- A converter with the usual handlers. -/
def ofSettings (settings : ConversionSettings) : Converter :=
  ⟨.withDefaults settings, settings⟩

/-- The usual handlers and settings. -/
def default : Converter := ofSettings {}

/-- Parses markup for this converter. -/
def convert (converter : Converter) (source : String) : Except ConvertError Conversion := do
  return ⟨converter, ← parseMarkup source⟩

end Converter

/-- Parses and inserts markup with a converter. -/
def addConverted (converter : Converter) (source : String) (target : Target) : Edit Unit := do
  let conversion ← (converter.convert source : Except ConvertError Conversion)
  conversion.insertInto target

/-- Inserts markup with the usual converter. Where the target is a section, empty markup is
skipped. -/
def addMarkup (source : String) (target : Target) : Edit Unit :=
  match target with
  | .intoSection _ => if source = "" then return () else addConverted .default source target
  | .intoParagraph _ => addConverted .default source target

end Galley
