import Galley.Document.Basic

/-!
Views: a document as nested data, section by section. A view holds every object but the root once,
in document order.
-/

namespace Galley

/-- Inline content with all that is inside it. -/
inductive InlineView where
  | text (value : String)
  | lineBreak
  | run (value : TextRun) (content : List InlineView)
  | hyperlink (value : Hyperlink) (content : List InlineView)
  deriving Repr

/-- A paragraph's own data and its content. -/
structure ParagraphView where
  value : Paragraph
  content : List InlineView
  deriving Repr

structure SectionView where
  paragraphs : List ParagraphView
  deriving Repr

mutual

/-- The texts in an inline object, and a line feed for each line break. -/
def InlineView.plainText : InlineView → String
  | .text value => value
  | .lineBreak => "\n"
  | .run _ content => InlineView.plainTexts content
  | .hyperlink _ content => InlineView.plainTexts content

/-- The plain texts of a list of inline objects, one after the other. -/
def InlineView.plainTexts : List InlineView → String
  | [] => ""
  | inline :: rest => inline.plainText ++ InlineView.plainTexts rest

end

/-- The plain text of a paragraph's content. -/
def ParagraphView.plainText (view : ParagraphView) : String :=
  InlineView.plainTexts view.content

namespace Document

/-- The inline content of the object in a slot. -/
def inlineViews (d : Document) (slot : Nat) : List InlineView :=
  (d.children slot).attach.filterMap fun ⟨child, _⟩ =>
    match d.object? child with
    | some (.text value) => some (.text value)
    | some .lineBreak => some .lineBreak
    | some (.run value) => some (.run value (d.inlineViews child))
    | some (.hyperlink value) => some (.hyperlink value (d.inlineViews child))
    | _ => none
termination_by d.size - slot
decreasing_by
  all_goals
    have := lt_of_mem_children ‹child ∈ d.children slot›
    omega

/-- The view of the paragraph in a slot, if there is one. -/
def paragraphViewAt? (d : Document) (slot : Nat) : Option ParagraphView :=
  match d.object? slot with
  | some (.paragraph value) => some ⟨value, d.inlineViews slot⟩
  | _ => none

def paragraphView (d : Document) (id : ParagraphId) : Except DocumentError ParagraphView := do
  let value ← d.paragraph id
  return ⟨value, d.inlineViews id.slot⟩

/-- Every section in document order. -/
def view (d : Document) : List SectionView :=
  d.sections.map fun id => ⟨(d.children id.slot).filterMap d.paragraphViewAt?⟩

end Document

end Galley
