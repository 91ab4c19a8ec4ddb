import Galley.Conversion.Error
import Galley.Document.Basic

/-!
Contexts: the document object that new content attaches to, and the three questions a handler asks
about one: which section block content goes to, which paragraph inline content belongs to, and
which container holds it. Only a section answers the last two by getting a new paragraph.
-/

namespace Galley

/-- The object that content attaches to. -/
inductive Context where
  | inSection (id : SectionId)
  | inParagraph (id : ParagraphId)
  | inRun (id : RunId)
  | inHyperlink (id : LinkId)
  deriving DecidableEq, Repr

namespace Context

def kind : Context → ObjectKind
  | inSection _ => .sectionBlock
  | inParagraph _ => .paragraph
  | inRun _ => .run
  | inHyperlink _ => .hyperlink

def slot : Context → Nat
  | inSection id => id.slot
  | inParagraph id => id.slot
  | inRun id => id.slot
  | inHyperlink id => id.slot

end Context

namespace Document

/-- The section that block content in a context goes to. -/
def nearestSection (d : Document) : Context → Except DocumentError SectionId
  | .inSection id => .ok id
  | .inParagraph id => d.sectionOf id
  | .inRun id => do d.sectionOf (← d.paragraphOf (.run id))
  | .inHyperlink id => do d.sectionOf (← d.paragraphOf (.hyperlink id))

/-- The paragraph that inline content in a context belongs to. A section gets a new one. -/
def obtainParagraph (d : Document) : Context → Except DocumentError (ParagraphId × Document)
  | .inSection id => d.addParagraph id
  | .inParagraph id => .ok (id, d)
  | .inRun id => do return (← d.paragraphOf (.run id), d)
  | .inHyperlink id => do return (← d.paragraphOf (.hyperlink id), d)

/-- The container that inline content in a context goes into. Runs and links hold it themselves,
so it stays in document order; a section gets a new paragraph. -/
def inlineParent (d : Document) : Context → Except DocumentError (InlineParent × Document)
  | .inSection id => do
    let (paragraph, d) ← d.addParagraph id
    return (.paragraph paragraph, d)
  | .inParagraph id => .ok (.paragraph id, d)
  | .inRun id => .ok (.run id, d)
  | .inHyperlink id => .ok (.hyperlink id, d)

end Document

end Galley
