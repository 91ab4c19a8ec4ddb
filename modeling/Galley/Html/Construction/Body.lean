import Galley.Html.Construction.Foreign
import Galley.Html.EncodingDeclaration

/-!
Rules for content: what a start tag, an end tag or a character means in a body, outside the parts
of a table.
-/

namespace Galley.Html.Construction

/-! ### Classes of tags -/

/-- Blocks without rules of their own. -/
def plainBlocks : List String :=
  [ "address", "article", "aside", "blockquote", "center", "details", "dialog", "dir", "div", "dl",
    "fieldset", "figcaption", "figure", "footer", "header", "hgroup", "main", "menu", "nav", "ol",
    "search", "section", "summary", "ul" ]

/-- Elements whose end tag closes all that is open inside them. -/
def closedAsBlocks : List String :=
  plainBlocks ++ ["pre", "listing", "button", "select"]

def formattingNames : List String :=
  [ "b", "big", "code", "em", "font", "i", "s", "small", "strike", "strong", "tt", "u" ]

/-- Embedded content that formatting does not reach into. -/
def embeddedNames : List String := ["applet", "marquee", "object"]

/-- Elements without content that stand in text. -/
def voidInText : List String := ["area", "br", "embed", "img", "keygen", "wbr"]

/-- Elements without content that stand outside text. -/
def voidOutsideText : List String := ["param", "source", "track"]

/-- Elements of a head, which are taken over where they stand. -/
def headNames : List String :=
  [ "base", "basefont", "bgsound", "link", "meta", "noframes", "script", "style", "template",
    "title" ]

/-- Tags that mean nothing in a fragment of a body: parts of the whole document, and parts of
tables outside a table. -/
def meaninglessNames : List String :=
  [ "body", "frameset", "caption", "col", "colgroup", "frame", "head", "tbody", "td", "tfoot",
    "th", "thead", "tr" ]

/-! ### Content of a head -/

/-- A start tag of `headNames`. -/
def startInHead (c : Construction) (tag : Tag) : Construction :=
  match tag.name with
  | "title" => c.insertTextElement tag (.escapable tag.name)
  | "noframes" => c.insertTextElement tag (.raw tag.name)
  | "style" => c.insertTextElement tag (.raw tag.name)
  | "script" => c.insertTextElement tag .script
  | "template" =>
    let modes := .inTemplate :: c.templateModes
    let c := { c.pushMarker with mode := .inTemplate, templateModes := modes }
    c.insertTag tag
  | "meta" => { c.insertVoid tag with resumed := tag.declaresEncoding }
  | _ => c.insertVoid tag

/-- Leaves the innermost template. -/
def leaveTemplate (c : Construction) : Construction :=
  let c := (c.closeNamed "template").clearToMarker
  { c with templateModes := c.templateModes.tail }.resetMode

/-- The end tag of a template. -/
def endTemplate (c : Construction) : Construction :=
  if c.hasOpen "template" then (c.popWhile ElementName.isImpliedInTemplate).leaveTemplate else c

/-! ### Start tags -/

/-- The item that a new item closes, looked for from the inside out as far as a special element
that is no mere container of text. -/
def itemToClose? (names : List String) : List OpenElement → Option String
  | [] => none
  | element :: rest =>
    if element.name.isHtmlIn names then some element.name.name
    else if element.name.isSpecial && !element.name.isHtmlIn ["address", "div", "p"] then none
    else itemToClose? names rest

/-- Begins an item, closing the one before. -/
def startItem (c : Construction) (names : List String) (tag : Tag) : Construction :=
  let c :=
    match itemToClose? names c.stack with
    | some name => (c.closeImpliedExcept name).closeNamed name
    | none => c
  c.closeOpenParagraph.insertTag tag

/-- Begins a link, closing the one that is in force. -/
def startLink (c : Construction) (tag : Tag) : Construction :=
  let c :=
    match c.formattingInForce.find? fun entry => entry.2.name == "a" with
    | some (id, _) => ((c.closeFormatting "a").removeFormatting id).removeFromStack id
    | none => c
  c.reopenFormatting.openFormatting tag

def startForm (c : Construction) (tag : Tag) : Construction :=
  let inTemplate := c.hasOpen "template"
  if c.form.isSome && !inTemplate then c
  else
    let (id, c) := c.closeOpenParagraph.insertOpen ⟨.html, tag.name⟩ tag.attributes
    if inTemplate then c else { c with form := some id }

def startButton (c : Construction) (tag : Tag) : Construction :=
  let c :=
    if c.inScope ElementName.boundsScope "button" then c.closeImplied.closeNamed "button" else c
  c.reopenFormatting.insertTag tag

def startNoBreak (c : Construction) (tag : Tag) : Construction :=
  let c := c.reopenFormatting
  let c :=
    if c.inScope ElementName.boundsScope "nobr" then (c.closeFormatting "nobr").reopenFormatting
    else c
  c.openFormatting tag

/-- A selection does not stand in a selection. -/
def startSelect (c : Construction) (tag : Tag) : Construction :=
  if c.inScope ElementName.boundsScope "select" then c.closeNamed "select"
  else c.reopenFormatting.insertTag tag

/-- An option or a group of options. -/
def startOption (c : Construction) (tag : Tag) : Construction :=
  let c :=
    if c.inScope ElementName.boundsScope "select" then
      if tag.name = "option" then c.closeImpliedExcept "optgroup" else c.closeImplied
    else if c.current.isHtml "option" then c.pop
    else c
  c.reopenFormatting.insertTag tag

def startInput (c : Construction) (tag : Tag) : Construction :=
  let c := if c.inScope ElementName.boundsScope "select" then c.closeNamed "select" else c
  c.reopenFormatting.insertVoid tag

def startRule (c : Construction) (tag : Tag) : Construction :=
  let c := c.closeOpenParagraph
  let c := if c.inScope ElementName.boundsScope "select" then c.closeImplied else c
  c.insertVoid tag

/-- A part of an annotation. -/
def startRuby (c : Construction) (tag : Tag) : Construction :=
  let c :=
    if c.inScope ElementName.boundsScope "ruby" then
      if ["rb", "rtc"].contains tag.name then c.closeImplied else c.closeImpliedExcept "rtc"
    else c
  c.insertTag tag

/-- A start tag in a body that is none of those with a class or a rule of its own. -/
def startOther (c : Construction) (tag : Tag) : Construction :=
  c.reopenFormatting.insertTag tag

/-- A start tag in a body that has a rule of its own. -/
def startByName (c : Construction) (tag : Tag) : Construction :=
  match tag.name with
  | "html" =>
    if c.hasOpen "template" then c
    else { c with tree := c.tree.addMissingAttributes root tag.attributes }
  | "p" => c.closeOpenParagraph.insertTag tag
  | "pre" => { c.closeOpenParagraph.insertTag tag with skipsLineFeed := true }
  | "listing" => { c.closeOpenParagraph.insertTag tag with skipsLineFeed := true }
  | "form" => c.startForm tag
  | "li" => c.startItem ["li"] tag
  | "dd" => c.startItem ["dd", "dt"] tag
  | "dt" => c.startItem ["dd", "dt"] tag
  | "plaintext" => { c.closeOpenParagraph.insertTag tag with textMode := .plain }
  | "button" => c.startButton tag
  | "a" => c.startLink tag
  | "nobr" => c.startNoBreak tag
  | "table" => { c.closeOpenParagraph.insertTag tag with mode := .inTable }
  | "input" => c.startInput tag
  | "hr" => c.startRule tag
  | "image" => c.reopenFormatting.insertVoid { tag with name := "img" }
  | "textarea" =>
    { c.insertTextElement tag (.escapable tag.name) with skipsLineFeed := true }
  | "xmp" => c.closeOpenParagraph.reopenFormatting.insertTextElement tag (.raw tag.name)
  | "iframe" => c.insertTextElement tag (.raw tag.name)
  | "noembed" => c.insertTextElement tag (.raw tag.name)
  | "noscript" => c.insertTextElement tag (.raw tag.name)
  | "select" => c.startSelect tag
  | "option" => c.startOption tag
  | "optgroup" => c.startOption tag
  | "rb" => c.startRuby tag
  | "rtc" => c.startRuby tag
  | "rp" => c.startRuby tag
  | "rt" => c.startRuby tag
  | _ => c.startOther tag

/-- A heading. It closes a heading that is open right here. -/
def startHeading (c : Construction) (tag : Tag) : Construction :=
  let c := c.closeOpenParagraph
  let c := if c.current.isHtmlIn ElementName.headings then c.pop else c
  c.insertTag tag

/-- A start tag in a body. -/
def startInBody (c : Construction) (tag : Tag) : Construction :=
  let name := tag.name
  if plainBlocks.contains name then c.closeOpenParagraph.insertTag tag
  else if formattingNames.contains name then c.reopenFormatting.openFormatting tag
  else if voidInText.contains name then c.reopenFormatting.insertVoid tag
  else if ElementName.headings.contains name then c.startHeading tag
  else if headNames.contains name then c.startInHead tag
  else if voidOutsideText.contains name then c.insertVoid tag
  else if embeddedNames.contains name then (c.reopenFormatting.insertTag tag).pushMarker
  else if meaninglessNames.contains name then c
  else if name = "math" then c.enterForeign .math tag
  else if name = "svg" then c.enterForeign .svg tag
  else c.startByName tag

/-! ### End tags -/

def endForm (c : Construction) : Construction :=
  if c.hasOpen "template" then
    if c.inScope ElementName.boundsScope "form" then c.closeImplied.closeNamed "form" else c
  else
    match c.form with
    | none => c
    | some id =>
      let c := { c with form := none }
      if hasInScope (fun element => element.id == id) (fun element => element.name.boundsScope)
          c.stack then
        c.closeImplied.removeFromStack id
      else c

/-- The end tag of an item. -/
def endItem (c : Construction) (bounds : ElementName → Bool) (name : String) : Construction :=
  if c.inScope bounds name then (c.closeImpliedExcept name).closeNamed name else c

/-- The end tag of a paragraph. Where none is open it stands for an empty one. -/
def endParagraph (c : Construction) : Construction :=
  let c := if c.inScope ElementName.boundsButtonScope "p" then c else c.insertImplied "p"
  c.closeParagraph

/-- An end tag in a body. -/
def endInBody (c : Construction) (name : String) : Construction :=
  if closedAsBlocks.contains name then
    if c.inScope ElementName.boundsScope name then c.closeImplied.closeNamed name else c
  else if formattingNames.contains name || name == "a" || name == "nobr" then
    c.closeFormatting name
  else if ElementName.headings.contains name then
    if c.inScopeAny ElementName.boundsScope ElementName.headings then
      c.closeImplied.popThrough fun element => element.isHtmlIn ElementName.headings
    else c
  else if embeddedNames.contains name then
    if c.inScope ElementName.boundsScope name then
      (c.closeImplied.closeNamed name).clearToMarker
    else c
  else
    match name with
    | "body" => c
    | "html" => c
    | "template" => c.endTemplate
    | "form" => c.endForm
    | "p" => c.endParagraph
    | "li" => c.endItem ElementName.boundsListScope name
    | "dd" => c.endItem ElementName.boundsScope name
    | "dt" => c.endItem ElementName.boundsScope name
    | "br" => c.reopenFormatting.insertVoid ⟨name, [], false⟩
    | _ => c.closeAny name

/-! ### Tokens -/

/-- A character in a body. A null character is dropped. -/
def charInBody (c : Construction) (char : Char) : Construction :=
  if char = '\x00' then c else c.reopenFormatting.insertText char.toString

/-- A token in a body. What is open at the end of the source stays so. -/
def inBody (c : Construction) (token : Token) : Construction :=
  match token with
  | .char char => c.charInBody char
  | .startTag tag => c.startInBody tag
  | .endTag tag => c.endInBody tag.name
  | .comment content => c.insertComment content
  | _ => c

/-- A token in a body whose content may not stand in the innermost table. -/
def inBodyFostered (c : Construction) (token : Token) : Construction :=
  { { c with fostering := true }.inBody token with fostering := false }

end Galley.Html.Construction
