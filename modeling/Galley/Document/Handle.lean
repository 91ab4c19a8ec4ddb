import Galley.Document.Object

/-!
Handles: the kind of an object and the slot it stands in. A handle is minted by the document that
creates the object; used on another document it is checked there like any other.
-/

namespace Galley

/-- Names an object of kind `kind` by its slot. -/
structure Handle (kind : ObjectKind) where
  slot : Nat
  deriving DecidableEq, Repr

abbrev SectionId := Handle .sectionBlock
abbrev ParagraphId := Handle .paragraph
abbrev RunId := Handle .run
abbrev LinkId := Handle .hyperlink

/-- The objects that may hold inline content directly. -/
inductive InlineParent where
  | paragraph (id : ParagraphId)
  | run (id : RunId)
  | hyperlink (id : LinkId)
  deriving DecidableEq, Repr

namespace InlineParent

def kind : InlineParent → ObjectKind
  | paragraph _ => .paragraph
  | run _ => .run
  | hyperlink _ => .hyperlink

def slot : InlineParent → Nat
  | paragraph id => id.slot
  | run id => id.slot
  | hyperlink id => id.slot

end InlineParent

end Galley
