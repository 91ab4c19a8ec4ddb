import Galley.Html.Construction.State

/-!
Formatting elements that are closed in another order than they were opened. Where a block ends
before the formatting around it, formatting is opened again (`reopenFormatting`); where formatting
ends inside a block it encloses, the block takes a copy of it along (`closeFormatting`).
-/

namespace Galley.Html.Construction

/-- Opens a formatting element again, as the same entry. -/
def reopen (c : Construction) (entry : Nat × Tag) : Construction :=
  let (id, c) := c.insertOpen ⟨.html, entry.2.name⟩ entry.2.attributes
  c.replaceFormatting entry.1 (.element id entry.2)

/-- Opens the formatting elements again that are in force and not open, the earliest first. Those
before one that is open need no care. -/
def reopenFormatting (c : Construction) : Construction :=
  let closed := c.formattingInForce.takeWhile fun entry => !c.isOpen entry.1
  closed.reverse.foldl reopen c

/-- Two tags with the same attributes in any order. -/
def sameTag (tag other : Tag) : Bool :=
  tag.name == other.name && tag.attributes.length == other.attributes.length &&
    tag.attributes.all other.attributes.contains

/-- Opens a formatting element. Of elements with the same tag, three are in force at most. -/
def openFormatting (c : Construction) (tag : Tag) : Construction :=
  let equal := c.formattingInForce.filter fun entry => sameTag tag entry.2
  let c :=
    match equal.getLast? with
    | some earliest => if 3 ≤ equal.length then c.removeFormatting earliest.1 else c
    | none => c
  let (id, c) := c.insertOpen ⟨.html, tag.name⟩ tag.attributes
  { c with formatting := .element id tag :: c.formatting }

/-- An end tag that closes the innermost element of its name, unless a special element stands in
between. -/
def closeAny (c : Construction) (name : String) : Construction :=
  match c.stack.find? fun element => element.name.isHtml name || element.name.isSpecial with
  | none => c
  | some found =>
    if found.name.isHtml name then
      { c with stack := (c.stack.dropWhile fun element => element.id != found.id).tail }
    else c

/-- What has been settled while the elements between a block and a formatting element around it are
copied, from the inside out. -/
structure Copying where
  c : Construction
  /-- The copies, the innermost first, in the order of the stack. -/
  kept : List OpenElement
  /-- The node that the next copy takes in. -/
  inner : Nat
  /-- The formatting entry after which the copy of the outermost element is put. -/
  bookmark : Option Nat

/-- Copies one element. Only the innermost three that are in force are copied; the others are
passed over. -/
def copyElement (state : Copying) (index : Nat) (element : OpenElement) : Copying :=
  let entry := state.c.formatting.findSome? fun
    | .element id tag => if id = element.id then some tag else none
    | .marker => none
  match entry with
  | none => state
  | some tag =>
    if 3 ≤ index then { state with c := state.c.removeFormatting element.id }
    else
      let (copy, c) := state.c.createElement ⟨.html, tag.name⟩ tag.attributes
      let c := c.replaceFormatting element.id (.element copy tag)
      { c := { c with tree := c.tree.append copy state.inner }
        kept := state.kept ++ [⟨copy, ⟨.html, tag.name⟩⟩]
        inner := copy
        bookmark := state.bookmark.or (some copy) }

/-- A list with `item` right before the entry of a formatting element, that is, later than it. -/
def insertAfterEntry (id : Nat) (item : FormattingEntry) :
    List FormattingEntry → List FormattingEntry
  | [] => []
  | .element other tag :: rest =>
    if other = id then item :: .element other tag :: rest
    else .element other tag :: insertAfterEntry id item rest
  | .marker :: rest => .marker :: insertAfterEntry id item rest

/-- Gives a block the formatting that is to be closed around it. `inside` are the elements that are
open in the block, `between` those between it and the formatting element, and `outside` those
around that element, each with the innermost first. -/
def carryFormatting (c : Construction) (formatted : OpenElement) (tag : Tag) (block : OpenElement)
    (inside between outside : List OpenElement) : Construction :=
  let state := between.zipIdx.foldl (fun state item => copyElement state item.2 item.1)
    { c := c, kept := [], inner := block.id, bookmark := none }
  let c := { state.c with
    tree := state.c.tree.detach state.inner
    stack := inside ++ block :: state.kept ++ formatted :: outside }
  let c :=
    match outside with
    | ancestor :: _ => c.putNode (c.placeIn ancestor) state.inner
    | [] => c.putNode (.lastIn root) state.inner
  let (copy, c) := c.createElement ⟨.html, tag.name⟩ tag.attributes
  let c := { c with tree := (c.tree.moveChildren block.id copy).append block.id copy }
  let c :=
    match state.bookmark with
    | none => c.replaceFormatting formatted.id (.element copy tag)
    | some mark =>
      let formatting := insertAfterEntry mark (.element copy tag) c.formatting
      { c with formatting := formatting }.removeFormatting formatted.id
  { c with stack := inside ++ ⟨copy, ⟨.html, tag.name⟩⟩ :: block :: state.kept ++ outside }

/-- One round of closing formatting of a name. The second part says whether another round may
follow. -/
def closeFormattingOnce (c : Construction) (name : String) : Construction × Bool :=
  match c.formattingInForce.find? fun entry => entry.2.name == name with
  | none => (c.closeAny name, false)
  | some (id, tag) =>
    let within := c.stack.takeWhile fun element => element.id != id
    match c.stack.dropWhile fun element => element.id != id with
    | [] => (c.removeFormatting id, false)
    | formatted :: outside =>
      if within.any fun element => element.name.boundsScope then (c, false)
      else
        -- The outermost special element is the block that takes the formatting along.
        match within.reverse.find? fun element => element.name.isSpecial with
        | none => ({ c with stack := outside }.removeFormatting id, false)
        | some block =>
          let inside := within.takeWhile fun element => element.id != block.id
          let between := (within.dropWhile fun element => element.id != block.id).tail
          (c.carryFormatting formatted tag block inside between outside, true)

/-- Closes formatting of a name, with as many rounds as are left. -/
def closeFormattingRounds (name : String) : (rounds : Nat) → Construction → Construction
  | 0, c => c
  | rounds + 1, c =>
    match c.closeFormattingOnce name with
    | (c, true) => closeFormattingRounds name rounds c
    | (c, false) => c

/-- An end tag of a formatting element. -/
def closeFormatting (c : Construction) (name : String) : Construction :=
  if c.current.isHtml name && !c.hasFormatting c.currentId then c.pop
  else closeFormattingRounds name 8 c

end Galley.Html.Construction
