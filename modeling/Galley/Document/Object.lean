/-!
Objects of a document: the kinds there are, and what an object of each kind carries.
`TextRun.apply` sets one format flag and keeps the others.
-/

namespace Galley

/-- The seven kinds of object in a document tree. -/
inductive ObjectKind where
  /-- The tree root, which owns sections. -/
  | document
  /-- Block container that owns paragraphs. -/
  | sectionBlock
  | paragraph
  /-- Inline run with format flags. -/
  | run
  | hyperlink
  | lineBreak
  | text
  deriving DecidableEq, Repr

/-- How a kind is called in messages. -/
def ObjectKind.displayName : ObjectKind → String
  | .document => "document"
  | .sectionBlock => "section"
  | .paragraph => "paragraph"
  | .run => "formatted text"
  | .hyperlink => "hyperlink"
  | .lineBreak => "line break"
  | .text => "text"

/-- How a kind is written in data. -/
def ObjectKind.keyword : ObjectKind → String
  | .document => "document"
  | .sectionBlock => "section"
  | .paragraph => "paragraph"
  | .run => "formatted_text"
  | .hyperlink => "hyperlink"
  | .lineBreak => "line_break"
  | .text => "text"

inductive Alignment where
  | left
  | center
  | right
  | justify
  deriving DecidableEq, Repr

/-- How an alignment is written in styles and in data. -/
def Alignment.keyword : Alignment → String
  | .left => "left"
  | .center => "center"
  | .right => "right"
  | .justify => "justify"

/-- Bulleted and numbered lists, each with three levels. -/
inductive ListType where
  | bulletList1
  | bulletList2
  | bulletList3
  | numberList1
  | numberList2
  | numberList3
  deriving DecidableEq, Repr

/-- How a list type is written in data. -/
def ListType.keyword : ListType → String
  | .bulletList1 => "BulletList1"
  | .bulletList2 => "BulletList2"
  | .bulletList3 => "BulletList3"
  | .numberList1 => "NumberList1"
  | .numberList2 => "NumberList2"
  | .numberList3 => "NumberList3"

/-- List data of an item paragraph. -/
structure ListInfo where
  listType : ListType
  /-- Numbering or bulleting goes on from the list paragraph before. -/
  continuesPrevious : Bool
  deriving DecidableEq, Repr

/-- A paragraph's own data; without an alignment the style decides. -/
structure Paragraph where
  style : Option String := none
  alignment : Option Alignment := none
  listInfo : Option ListInfo := none
  deriving DecidableEq, Repr

/-- One setting of one format flag. -/
inductive TextFormat where
  | bold
  | notBold
  | italic
  | notItalic
  | underline
  | noUnderline
  deriving DecidableEq, Repr

/-- An inline run. A flag that is not set is left to the surroundings. -/
structure TextRun where
  bold : Option Bool := none
  italic : Option Bool := none
  underline : Option Bool := none
  /-- Name of a character style. -/
  style : Option String := none
  deriving DecidableEq, Repr

namespace TextRun

/-- Sets the flag that `format` speaks of and keeps the others. -/
def apply (run : TextRun) : TextFormat → TextRun
  | .bold => { run with bold := some true }
  | .notBold => { run with bold := some false }
  | .italic => { run with italic := some true }
  | .notItalic => { run with italic := some false }
  | .underline => { run with underline := some true }
  | .noUnderline => { run with underline := some false }

/-- A run with one flag set. -/
def ofFormat (format : TextFormat) : TextRun :=
  ({} : TextRun).apply format

theorem style_apply (run : TextRun) (format : TextFormat) :
    (run.apply format).style = run.style := by
  cases format <;> rfl

end TextRun

inductive LinkKind where
  /-- Bookmark in the same document. -/
  | bookmark
  | web
  | file
  deriving DecidableEq, Repr

/-- How a kind of link is written in data. -/
def LinkKind.keyword : LinkKind → String
  | .bookmark => "local"
  | .web => "web"
  | .file => "file"

/-- An inline container that is shown as a link. -/
structure Hyperlink where
  target : String
  kind : LinkKind
  deriving DecidableEq, Repr

/-- An object together with what it carries. -/
inductive DocumentObject where
  | document
  | sectionBlock
  | paragraph (value : Paragraph)
  | run (value : TextRun)
  | hyperlink (value : Hyperlink)
  | lineBreak
  | text (value : String)
  deriving DecidableEq, Repr

/-- The kind of an object. -/
def DocumentObject.kind : DocumentObject → ObjectKind
  | .document => .document
  | .sectionBlock => .sectionBlock
  | .paragraph _ => .paragraph
  | .run _ => .run
  | .hyperlink _ => .hyperlink
  | .lineBreak => .lineBreak
  | .text _ => .text

end Galley
