import Galley.Document.Object

/-!
What can go wrong when a document is asked for an object, and the wording of each cause.
-/

namespace Galley

/-- Why an operation on a document failed. -/
inductive DocumentError where
  /-- The handle's slot does not exist in this document. -/
  | missing (expected : ObjectKind)
  /-- The slot holds an object of another kind. -/
  | kindMismatch (expected found : ObjectKind)
  /-- The object is not inside the owner that was asked for. -/
  | detached (kind expected : ObjectKind)
  /-- Paragraph styles have a name. -/
  | emptyStyle
  deriving DecidableEq, Repr

/-- The text shown for a cause. -/
def DocumentError.message : DocumentError → String
  | .missing expected => s!"No {expected.displayName} with the given id exists in this document"
  | .kindMismatch expected found =>
    s!"Expected a {expected.displayName}, found a {found.displayName}"
  | .detached kind expected => s!"{kind.displayName} is not contained in a {expected.displayName}"
  | .emptyStyle => "Paragraph style must not be empty"

end Galley
