import Galley.Markup.Node

/-!
Tokens: what the text of a markup source is cut into. Text comes one character at a time.
-/

namespace Galley.Html

/-- What a tag says. -/
structure Tag where
  name : String
  attributes : List Attribute := []
  /-- The tag ends with `/>`. -/
  selfClosing : Bool := false
  deriving DecidableEq, Repr

inductive Token where
  | char (c : Char)
  | startTag (tag : Tag)
  | endTag (tag : Tag)
  | comment (content : String)
  /-- Adds nothing to a fragment. -/
  | doctype
  /-- A slip of the source that stands for nothing: an end tag without a name, or what is wrong in
  the reference that follows. -/
  | slip
  | endOfSource
  deriving DecidableEq, Repr

/-- White space of the markup language. Only a reference can bring in a carriage return. -/
def isSpace (c : Char) : Bool :=
  c == '\t' || c == '\n' || c == '\x0c' || c == '\r' || c == ' '

/-- Stands for a character that cannot be kept. -/
def replacement : Char := '\ufffd'

/-- A null character in text that keeps a mark of it. -/
def unlessNull (c : Char) : Char :=
  if c = '\x00' then replacement else c

/-- How the text after a tag is read. -/
inductive TextMode where
  /-- Tags, comments and references count. -/
  | data
  /-- References count, and the end tag of the named element. -/
  | escapable (closing : String)
  /-- Only the end tag of the named element counts. -/
  | raw (closing : String)
  /-- As raw text, with the comments in which a script may hide its own tags. -/
  | script
  /-- Nothing counts any more. -/
  | plain
  deriving DecidableEq, Repr

/-- The element whose end tag ends the text. -/
def TextMode.closing? : TextMode → Option String
  | escapable name => some name
  | raw name => some name
  | script => some "script"
  | _ => none

end Galley.Html
