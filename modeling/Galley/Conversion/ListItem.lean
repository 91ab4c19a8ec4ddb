import Galley.Conversion.Registry

/-!
List items. No list is remembered between items: an item sees from its siblings whether it opens
or closes its list, and says so with marker paragraphs around its own.
-/

namespace Galley

inductive ListKind where
  | ordered
  | unordered
  deriving DecidableEq, Repr

namespace ListKind

/-- The style of an item paragraph. -/
def style : ListKind → String
  | ordered => "OrderedList"
  | unordered => "UnorderedList"

def listType : ListKind → ListType
  | ordered => .numberList1
  | unordered => .bulletList1

end ListKind

/-- The style of the paragraph before the first item. -/
def listStartStyle : String := "ListStart"

/-- The style of the paragraph after the last item. -/
def listEndStyle : String := "ListEnd"

/-- Where an item stands among the `li` children of its parent. -/
structure ItemPosition where
  kind : ListKind
  isFirst : Bool
  isLast : Bool
  deriving DecidableEq, Repr

/-- A node without a parent is a list of its own; one that is no `li` stands nowhere in its list. -/
def ItemPosition.ofLocation (place : Location) : ItemPosition :=
  match place.crumbs with
  | [] => ⟨.unordered, true, true⟩
  | crumb :: _ =>
    let isItem (node : Node) : Bool := node.isElement "li"
    { kind := if crumb.label.name? == some "ol" then .ordered else .unordered
      isFirst := isItem place.node && !crumb.before.any isItem
      isLast := isItem place.node && !crumb.after.any isItem }

/-- The error of a handler that cannot work in the context it was given. -/
def unexpectedContext (place : Location) (expected : Expectation) (context : Context) :
    ConvertError :=
  .unexpectedContext place.node.key? expected context.kind

/-- A new paragraph at the end of a section, with a style. -/
def addStyledParagraph (owner : SectionId) (style : String) : Edit ParagraphId := do
  let paragraph ← Edit.perform (·.addParagraph owner)
  Edit.update (·.setStyle paragraph style)
  return paragraph

/-- An item paragraph in the owning section, between a start marker where the list begins and an
end marker where it ends. -/
def Handler.listItem : Handler := fun place context => do
  let position := ItemPosition.ofLocation place
  let owner ←
    match context with
    | .inSection id => pure id
    | .inParagraph id => Edit.query (·.sectionOf id)
    | _ => throw (unexpectedContext place .aSectionOrParagraph context)
  if position.isFirst then
    let _ ← addStyledParagraph owner listStartStyle
  let item ← addStyledParagraph owner position.kind.style
  Edit.update (·.updateParagraph item fun value =>
    { value with listInfo := some ⟨position.kind.listType, !position.isFirst⟩ })
  if position.isLast then
    let _ ← addStyledParagraph owner listEndStyle
  return .inParagraph item

end Galley
