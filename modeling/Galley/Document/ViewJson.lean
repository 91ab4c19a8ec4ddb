import Galley.Document.View
import Galley.Json.Value

/-!
Views as JSON values. An inline object says first what it is.
-/

namespace Galley

mutual

def InlineView.toJson : InlineView → Json
  | .text value => .record [("type", .text "text"), ("text", .text value)]
  | .lineBreak => .record [("type", .text "line_break")]
  | .run value content =>
    .record
      [ ("type", .text "formatted_text"), ("bold", .ofOption .bool value.bold),
        ("italic", .ofOption .bool value.italic), ("underline", .ofOption .bool value.underline),
        ("style", .ofOption .text value.style), ("content", .array (InlineView.toJsons content)) ]
  | .hyperlink value content =>
    .record
      [ ("type", .text "hyperlink"), ("target", .text value.target),
        ("kind", .text value.kind.keyword), ("content", .array (InlineView.toJsons content)) ]

def InlineView.toJsons : List InlineView → List Json
  | [] => []
  | inline :: rest => inline.toJson :: InlineView.toJsons rest

end

def ListInfo.toJson (info : ListInfo) : Json :=
  .record
    [ ("list_type", .text info.listType.keyword),
      ("continue_previous_list", .bool info.continuesPrevious) ]

def ParagraphView.toJson (view : ParagraphView) : Json :=
  .record
    [ ("style", .ofOption .text view.value.style),
      ("alignment", .ofOption (fun alignment => .text alignment.keyword) view.value.alignment),
      ("list_info", .ofOption ListInfo.toJson view.value.listInfo),
      ("content", .array (InlineView.toJsons view.content)) ]

def SectionView.toJson (view : SectionView) : Json :=
  .record [("paragraphs", .array (view.paragraphs.map ParagraphView.toJson))]

/-- A document's view as one JSON value. -/
def Document.viewJson (d : Document) : Json :=
  .array (d.view.map SectionView.toJson)

end Galley
