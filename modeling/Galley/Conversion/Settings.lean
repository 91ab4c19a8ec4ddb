import Galley.Json.Fields

/-!
What a conversion can be told: how deep markup may be nested, and which span class is only the
default text colour and names no style. Settings are read field by field, a missing one having its
default.
-/

namespace Galley

structure ConversionSettings where
  /-- The depth of nesting from which a conversion is given up. -/
  maxDepth : Nat := 512
  /-- A class on a `span` that gives its run no style. -/
  reservedSpanClass : Option String := some "style_color_0_0_0"
  deriving DecidableEq, Repr

namespace ConversionSettings

/-- The settings that a JSON value gives. -/
def ofJson? (value : Json) : Option ConversionSettings := do
  let default : ConversionSettings := {}
  match ← value.fields? ["max_depth", "reserved_span_class"] with
  | [maxDepth, reservedSpanClass] =>
    return {
      maxDepth := ← Json.orDefault Json.word64? default.maxDepth maxDepth
      reservedSpanClass :=
        ← Json.orDefault Json.optionalText? default.reservedSpanClass reservedSpanClass }
  | _ => none

def toJson (settings : ConversionSettings) : Json :=
  .record
    [ ("max_depth", .natural settings.maxDepth),
      ("reserved_span_class", .ofOption .text settings.reservedSpanClass) ]

end ConversionSettings

end Galley
