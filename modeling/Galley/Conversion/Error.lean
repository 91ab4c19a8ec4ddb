import Galley.Conversion.TagKey
import Galley.Document.Error

/-!
What can go wrong in a conversion, and the wording of each cause.
-/

namespace Galley

/-- Why a text is no usable tag name. -/
inductive TagFault where
  | empty
  | forbiddenCharacter
  /-- A heading's name has no digit that could give its level. -/
  | noLevelDigit
  deriving DecidableEq, Repr

def TagFault.message : TagFault → String
  | .empty => "tag name is empty"
  | .forbiddenCharacter =>
    "tag names may only contain ASCII letters, digits, '-', '_' and ':'"
  | .noLevelDigit => "heading tags must end in a level digit"

/-- The places a handler can ask to be called in. -/
inductive Expectation where
  | aSection
  | aSectionOrParagraph
  deriving DecidableEq, Repr

def Expectation.message : Expectation → String
  | .aSection => "a section"
  | .aSectionOrParagraph => "a section or paragraph"

/-- Why a conversion failed. -/
inductive ConvertError where
  | emptyMarkup
  | invalidTag (tag : String) (fault : TagFault)
  /-- The key has a handler already. -/
  | duplicateHandler (key : TagKey)
  /-- A handler was called in a place where it cannot put its content. -/
  | unexpectedContext (key : Option TagKey) (expected : Expectation) (found : ObjectKind)
  /-- The markup is nested more deeply than allowed. -/
  | tooDeep (limit : Nat)
  | document (cause : DocumentError)
  deriving DecidableEq, Repr

/-- The text shown for a cause. -/
def ConvertError.message : ConvertError → String
  | .emptyMarkup => "Markup must not be empty"
  | .invalidTag tag fault => s!"Invalid tag '{tag}': {fault.message}"
  | .duplicateHandler key => s!"Handler for tag '{key.spelling}' already registered"
  | .unexpectedContext key expected found =>
    let tag := (key.map TagKey.spelling).getD ""
    s!"Handler for '{tag}' expected {expected.message}, got a {found.displayName}"
  | .tooDeep limit => s!"Markup nesting exceeds the limit of {limit} levels"
  | .document cause => s!"Document error: {cause.message}"

end Galley
