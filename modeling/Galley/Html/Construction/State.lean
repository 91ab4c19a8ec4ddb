import Galley.Html.GrowingTree
import Galley.Html.Token

/-!
The state of tree construction: the tree so far, the elements that are open, the formatting
elements that are in force, and the mode that says what a token means. Lists of open elements and
of formatting elements have the latest first.
-/

namespace Galley.Html

/-- Where in the markup construction stands. -/
inductive Mode where
  | inBody
  /-- In an element that holds text only. -/
  | inText
  | inTable
  | inTableText
  | inCaption
  | inColumnGroup
  | inTableBody
  | inRow
  | inCell
  | inTemplate
  deriving DecidableEq, Repr

structure OpenElement where
  id : Nat
  name : ElementName
  deriving DecidableEq, Repr

/-- A formatting element that is to be opened again where its parent ends too early. -/
inductive FormattingEntry where
  /-- Bounds the elements that are in force. -/
  | marker
  | element (id : Nat) (tag : Tag)
  deriving DecidableEq, Repr

structure Construction where
  tree : GrowingTree
  mode : Mode
  /-- The mode after text that is read on its own. -/
  resumeMode : Mode
  /-- The modes of the open templates. -/
  templateModes : List Mode
  stack : List OpenElement
  formatting : List FormattingEntry
  /-- The open form. -/
  form : Option Nat
  /-- Text between the parts of a table, the last character first. -/
  tableText : List Char
  /-- Content that may not stand in a table goes before it. -/
  fostering : Bool
  /-- A line feed that comes next is dropped. -/
  skipsLineFeed : Bool
  /-- How the text that follows is read. -/
  textMode : TextMode
  /-- Reading has just begun, or gone on after a script or a declaration of the encoding. -/
  resumed : Bool

/-- What is left to do after a rule: nothing, or the same token in the mode that is now. -/
inductive Outcome where
  | done (c : Construction)
  | again (c : Construction)

namespace Construction

/-- A fragment that stands in a body: its root is the only open element. -/
def start : Construction :=
  let (root, tree) := GrowingTree.empty.create (.element ⟨.html, "html"⟩ [])
  { tree := tree, mode := .inBody, resumeMode := .inBody, templateModes := []
    stack := [⟨root, ⟨.html, "html"⟩⟩], formatting := [], form := none, tableText := []
    fostering := false, skipsLineFeed := false, textMode := .data, resumed := true }

/-- The root of the fragment. -/
def root : Nat := 0

/-! ### Open elements -/

/-- The name of the innermost open element. -/
def current (c : Construction) : ElementName :=
  (c.stack.head?.map OpenElement.name).getD ⟨.html, "html"⟩

/-- The innermost open element, the root where none is open. -/
def currentId (c : Construction) : Nat :=
  (c.stack.head?.map OpenElement.id).getD root

def pop (c : Construction) : Construction :=
  { c with stack := c.stack.tail }

/-- Closes elements while they have a property. -/
def popWhile (c : Construction) (p : ElementName → Bool) : Construction :=
  { c with stack := c.stack.dropWhile fun element => p element.name }

/-- Closes elements up to and with the innermost that has a property. -/
def popThrough (c : Construction) (p : ElementName → Bool) : Construction :=
  (c.popWhile fun element => !p element).pop

/-- An open element has the first property, and none further in bounds the search. -/
def hasInScope (p bounds : OpenElement → Bool) : List OpenElement → Bool
  | [] => false
  | element :: rest => p element || (!bounds element && hasInScope p bounds rest)

/-- An element of the markup language is open within certain bounds. -/
def inScope (c : Construction) (bounds : ElementName → Bool) (name : String) : Bool :=
  hasInScope (fun element => element.name.isHtml name) (fun element => bounds element.name) c.stack

def inScopeAny (c : Construction) (bounds : ElementName → Bool) (names : List String) : Bool :=
  hasInScope (fun element => element.name.isHtmlIn names) (fun element => bounds element.name)
    c.stack

def isOpen (c : Construction) (id : Nat) : Bool :=
  c.stack.any fun element => element.id == id

def hasOpen (c : Construction) (name : String) : Bool :=
  c.stack.any fun element => element.name.isHtml name

/-- Forgets that an element is open, wherever it is on the stack. -/
def removeFromStack (c : Construction) (id : Nat) : Construction :=
  { c with stack := c.stack.eraseP fun element => element.id == id }

/-- Closes the elements whose end tags may be left out. -/
def closeImplied (c : Construction) : Construction :=
  c.popWhile ElementName.isImplied

/-- The same, but for elements of one name. -/
def closeImpliedExcept (c : Construction) (name : String) : Construction :=
  c.popWhile fun element => element.isImplied && !element.isHtml name

/-- Closes elements through the innermost of a name. -/
def closeNamed (c : Construction) (name : String) : Construction :=
  c.popThrough fun element => element.isHtml name

/-- Closes the innermost paragraph. -/
def closeParagraph (c : Construction) : Construction :=
  (c.closeImpliedExcept "p").closeNamed "p"

/-- Closes the paragraph that is open, if one is. -/
def closeOpenParagraph (c : Construction) : Construction :=
  if c.inScope ElementName.boundsButtonScope "p" then c.closeParagraph else c

/-! ### Formatting elements -/

/-- The formatting elements after the last marker, the latest first. -/
def formattingInForce (c : Construction) : List (Nat × Tag) :=
  (c.formatting.takeWhile (· ≠ .marker)).filterMap fun
    | .element id tag => some (id, tag)
    | .marker => none

def hasFormatting (c : Construction) (id : Nat) : Bool :=
  c.formatting.any fun
    | .element other _ => other == id
    | .marker => false

def removeFormatting (c : Construction) (id : Nat) : Construction :=
  { c with formatting := c.formatting.eraseP fun
      | .element other _ => other == id
      | .marker => false }

def replaceFormatting (c : Construction) (id : Nat) (entry : FormattingEntry) : Construction :=
  { c with formatting := c.formatting.map fun
      | .element other tag => if other = id then entry else .element other tag
      | .marker => .marker }

def pushMarker (c : Construction) : Construction :=
  { c with formatting := .marker :: c.formatting }

/-- Forgets the formatting elements through the last marker. -/
def clearToMarker (c : Construction) : Construction :=
  { c with formatting := (c.formatting.dropWhile (· ≠ .marker)).tail }

/-! ### Insertion -/

/-- A place for a new node. -/
inductive Place where
  /-- At the end of a node's children. -/
  | lastIn (parent : Nat)
  /-- Before a node, or at the end of another where the first stands nowhere. -/
  | before (sibling fallback : Nat)

/-- The node that holds the content of an element: for a template, its fragment. -/
def contentOf (c : Construction) (element : OpenElement) : Nat :=
  if element.name.isHtml "template" then (c.tree.children element.id).head?.getD element.id
  else element.id

/-- The place for content that may not stand in the innermost table. -/
def fosterPlace (c : Construction) : List OpenElement → Place
  | [] => .lastIn root
  | element :: rest =>
    if element.name.isHtml "template" then .lastIn (c.contentOf element)
    else if element.name.isHtml "table" then
      .before element.id ((rest.head?.map OpenElement.id).getD root)
    else c.fosterPlace rest

/-- The place for content of an open element. -/
def placeIn (c : Construction) (target : OpenElement) : Place :=
  if c.fostering && target.name.isTablePart then c.fosterPlace c.stack
  else .lastIn (c.contentOf target)

/-- The place for content at this point. -/
def place (c : Construction) : Place :=
  match c.stack with
  | target :: _ => c.placeIn target
  | [] => .lastIn root

/-- Puts a node at a place. -/
def putNode (c : Construction) (at? : Place) (id : Nat) : Construction :=
  match at? with
  | .lastIn parent => { c with tree := c.tree.append parent id }
  | .before sibling fallback =>
    if (c.tree.parent? sibling).isSome then { c with tree := c.tree.insertBefore sibling id }
    else { c with tree := c.tree.append fallback id }

/-- Adds text at this point. -/
def insertText (c : Construction) (text : String) : Construction :=
  match c.place with
  | .lastIn parent => { c with tree := c.tree.appendText parent text }
  | .before sibling fallback =>
    if (c.tree.parent? sibling).isSome then
      { c with tree := c.tree.insertTextBefore sibling text }
    else { c with tree := c.tree.appendText fallback text }

def insertComment (c : Construction) (content : String) : Construction :=
  let (id, tree) := c.tree.create (.comment content)
  { c with tree := tree }.putNode c.place id

/-- Makes an element that stands nowhere yet. A template gets a fragment for its content. -/
def createElement (c : Construction) (name : ElementName) (attributes : List Attribute) :
    Nat × Construction :=
  let (id, tree) := c.tree.create (.element name attributes)
  if name.isHtml "template" then
    let (content, tree) := tree.create .fragment
    (id, { c with tree := tree.append id content })
  else (id, { c with tree := tree })

/-- Adds an element at this point and leaves it closed. -/
def insertClosed (c : Construction) (name : ElementName) (attributes : List Attribute) :
    Nat × Construction :=
  let at? := c.place
  let (id, c) := c.createElement name attributes
  (id, c.putNode at? id)

/-- Adds an element at this point and opens it. -/
def insertOpen (c : Construction) (name : ElementName) (attributes : List Attribute) :
    Nat × Construction :=
  let (id, c) := c.insertClosed name attributes
  (id, { c with stack := ⟨id, name⟩ :: c.stack })

/-- Adds and opens the element of a start tag. -/
def insertTag (c : Construction) (tag : Tag) : Construction :=
  (c.insertOpen ⟨.html, tag.name⟩ tag.attributes).2

/-- Adds the element of a start tag that has no content. -/
def insertVoid (c : Construction) (tag : Tag) : Construction :=
  (c.insertClosed ⟨.html, tag.name⟩ tag.attributes).2

/-- Adds and opens an element that no tag stands for. -/
def insertImplied (c : Construction) (name : String) : Construction :=
  (c.insertOpen ⟨.html, name⟩ []).2

/-- Adds and opens an element that holds text only. -/
def insertTextElement (c : Construction) (tag : Tag) (textMode : TextMode) : Construction :=
  { c.insertTag tag with resumeMode := c.mode, mode := .inText, textMode := textMode }

/-! ### Modes -/

/-- The mode that an open element asks for, if it decides. -/
def modeOf? (templateModes : List Mode) (element : ElementName) : Option Mode :=
  if element.vocabulary ≠ .html then none
  else
    match element.name with
    | "td" => some .inCell
    | "th" => some .inCell
    | "tr" => some .inRow
    | "tbody" => some .inTableBody
    | "thead" => some .inTableBody
    | "tfoot" => some .inTableBody
    | "caption" => some .inCaption
    | "colgroup" => some .inColumnGroup
    | "table" => some .inTable
    | "template" => some (templateModes.head?.getD .inBody)
    | _ => none

/-- Sets the mode by the innermost open element that decides. -/
def resetMode (c : Construction) : Construction :=
  let mode := c.stack.findSome? fun element => modeOf? c.templateModes element.name
  { c with mode := mode.getD .inBody }

end Construction

end Galley.Html
