import Galley.Document.View
import Galley.Text.Quoted

/-!
Outlines: a document as indented text, one line for each object. Texts and link targets are quoted,
so that a line never breaks inside one; styles stand as they are.
-/

namespace Galley

/-- How an alignment is named in outlines. -/
def Alignment.outlineName : Alignment → String
  | .left => "Left"
  | .center => "Center"
  | .right => "Right"
  | .justify => "Justify"

/-- How a kind of link is named in outlines. -/
def LinkKind.outlineName : LinkKind → String
  | .bookmark => "Local"
  | .web => "Web"
  | .file => "File"

/-- A truth value in outlines and messages. -/
def boolText (value : Bool) : String :=
  if value then "true" else "false"

/-- A part of a line that is only there for a value. -/
def optionalPart {α : Type} (write : α → String) : Option α → String
  | some value => write value
  | none => ""

def stylePart (style : Option String) : String :=
  optionalPart (fun name => " [" ++ name ++ "]") style

def flagPart (name : String) (flag : Option Bool) : String :=
  optionalPart (fun value => " " ++ name ++ "=" ++ boolText value) flag

/-- What an outline says of a paragraph. -/
def Paragraph.outlineText (value : Paragraph) : String :=
  "paragraph" ++ stylePart value.style ++
    optionalPart (fun alignment => " align=" ++ alignment.outlineName) value.alignment ++
    optionalPart
      (fun info =>
        " list=" ++ info.listType.keyword ++ " continue=" ++ boolText info.continuesPrevious)
      value.listInfo

/-- What an outline says of a run. -/
def TextRun.outlineText (value : TextRun) : String :=
  "formatted" ++ flagPart "bold" value.bold ++ flagPart "italic" value.italic ++
    flagPart "underline" value.underline ++ stylePart value.style

/-- What an outline says of a link. -/
def Hyperlink.outlineText (value : Hyperlink) : String :=
  "hyperlink " ++ value.kind.outlineName ++ " " ++ Text.quote value.target

/-- A line without its end, indented by two spaces for each level. -/
def outlineLine (level : Nat) (text : String) : String :=
  String.ofList (List.replicate (2 * level) ' ') ++ text

mutual

/-- The lines of an inline object and of all inside it. -/
def InlineView.outlineLines (level : Nat) : InlineView → List String
  | .text value => [outlineLine level ("text " ++ Text.quote value)]
  | .lineBreak => [outlineLine level "line-break"]
  | .run value content =>
    outlineLine level value.outlineText :: InlineView.outlinesLines (level + 1) content
  | .hyperlink value content =>
    outlineLine level value.outlineText :: InlineView.outlinesLines (level + 1) content

/-- The lines of a list of inline objects. -/
def InlineView.outlinesLines (level : Nat) : List InlineView → List String
  | [] => []
  | inline :: rest => inline.outlineLines level ++ InlineView.outlinesLines level rest

end

def ParagraphView.outlineLines (view : ParagraphView) : List String :=
  outlineLine 1 view.value.outlineText :: InlineView.outlinesLines 2 view.content

def SectionView.outlineLines (view : SectionView) : List String :=
  outlineLine 0 "section" :: view.paragraphs.flatMap ParagraphView.outlineLines

namespace Document

/-- The lines of a document's outline. -/
def outlineLines (d : Document) : List String :=
  d.view.flatMap SectionView.outlineLines

/-- A document's outline, each line with a line feed at its end. -/
def outline (d : Document) : String :=
  String.join (d.outlineLines.map fun line => line ++ "\n")

end Document

end Galley
