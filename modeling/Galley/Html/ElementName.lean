/-!
Element names and the classes of elements that the rules of tree construction speak of. A name
belongs to one of three vocabularies; most classes hold names of the markup language itself.
-/

namespace Galley.Html

/-- The vocabularies: the markup language itself, vector graphics and mathematics. -/
inductive Vocabulary where
  | html
  | svg
  | math
  deriving DecidableEq, Repr

structure ElementName where
  vocabulary : Vocabulary
  name : String
  deriving DecidableEq, Repr

namespace ElementName

def isHtml (element : ElementName) (name : String) : Bool :=
  element.vocabulary = .html && element.name == name

/-- An element of the markup language with one of the names. -/
def isHtmlIn (element : ElementName) (names : List String) : Bool :=
  element.vocabulary = .html && names.contains element.name

def isMathIn (element : ElementName) (names : List String) : Bool :=
  element.vocabulary = .math && names.contains element.name

def isSvgIn (element : ElementName) (names : List String) : Bool :=
  element.vocabulary = .svg && names.contains element.name

/-- Elements of mathematics whose content is text of the markup language. -/
def isMathTextPoint (element : ElementName) : Bool :=
  element.isMathIn ["mi", "mo", "mn", "ms", "mtext"]

/-- Elements of graphics whose content is markup. -/
def isSvgMarkupPoint (element : ElementName) : Bool :=
  element.isSvgIn ["foreignObject", "desc", "title"]

def headings : List String := ["h1", "h2", "h3", "h4", "h5", "h6"]

/-- Elements that end a search for an open element. -/
def boundsScope (element : ElementName) : Bool :=
  element.isHtmlIn
      ["applet", "caption", "html", "table", "td", "th", "marquee", "object", "select",
        "template"] ||
    element.isMathTextPoint || element.isSvgMarkupPoint

/-- Elements that end a search for an open list item. -/
def boundsListScope (element : ElementName) : Bool :=
  element.boundsScope || element.isHtmlIn ["ol", "ul"]

/-- Elements that end a search for an open paragraph. -/
def boundsButtonScope (element : ElementName) : Bool :=
  element.boundsScope || element.isHtml "button"

/-- Elements that end a search for a part of a table. -/
def boundsTableScope (element : ElementName) : Bool :=
  element.isHtmlIn ["html", "table", "template"]

/-- Elements whose end tags may be left out. -/
def isImplied (element : ElementName) : Bool :=
  element.isHtmlIn
    ["dd", "dt", "li", "option", "optgroup", "p", "rb", "rp", "rt", "rtc"]

/-- Elements whose end tags may be left out at the end of a template. -/
def isImpliedInTemplate (element : ElementName) : Bool :=
  element.isImplied ||
    element.isHtmlIn
      ["caption", "colgroup", "tbody", "td", "tfoot", "th", "thead", "tr"]

/-- Elements that end tags of other elements do not reach across. -/
def isSpecial (element : ElementName) : Bool :=
  element.isHtmlIn
    [ "address", "applet", "area", "article", "aside", "base", "basefont", "bgsound",
      "blockquote", "body", "br", "button", "caption", "center", "col", "colgroup", "dd",
      "details", "dir", "div", "dl", "dt", "embed", "fieldset", "figcaption", "figure",
      "footer", "form", "frame", "frameset", "h1", "h2", "h3", "h4", "h5", "h6", "head",
      "header", "hgroup", "hr", "html", "iframe", "img", "input", "isindex", "li", "link",
      "listing", "main", "marquee", "menu", "meta", "nav", "noembed", "noframes", "noscript",
      "object", "ol", "p", "param", "plaintext", "pre", "script", "section", "select", "source",
      "style", "summary", "table", "tbody", "td", "template", "textarea", "tfoot", "th", "thead",
      "title", "tr", "track", "ul", "wbr", "xmp" ]

/-- Elements between whose parts no content may stand. -/
def isTablePart (element : ElementName) : Bool :=
  element.isHtmlIn ["table", "tbody", "tfoot", "thead", "tr"]

end ElementName

end Galley.Html
