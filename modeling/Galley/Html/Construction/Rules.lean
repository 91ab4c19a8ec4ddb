import Galley.Html.Construction.Table

/-!
All rules together: what a token does to the state of construction. A rule may change the mode and
ask for the token to be looked at again; each time it does, it has closed an element, opened one
that was left out, or come nearer to a body, so the tokens are bounded by the open elements.
-/

namespace Galley.Html.Construction

/-- Changes the mode of the innermost template. -/
def switchTemplate (c : Construction) (mode : Mode) : Outcome :=
  .again { c with mode := mode, templateModes := mode :: c.templateModes.tail }

/-- The source ends. A template that is open is left first. -/
def endOfSource (c : Construction) : Outcome :=
  if c.templateModes.isEmpty || !c.hasOpen "template" then .done c else .again c.leaveTemplate

def inTemplate (c : Construction) (token : Token) : Outcome :=
  match token with
  | .startTag tag =>
    let name := tag.name
    if headNames.contains name then .done (c.startInHead tag)
    else if name = "caption" || name == "colgroup" || rowGroupNames.contains name then
      c.switchTemplate .inTable
    else if name = "col" then c.switchTemplate .inColumnGroup
    else if name = "tr" then c.switchTemplate .inTableBody
    else if cellNames.contains name then c.switchTemplate .inRow
    else c.switchTemplate .inBody
  | .endTag tag => .done (if tag.name = "template" then c.endTemplate else c)
  | .endOfSource => c.endOfSource
  | _ => .done (c.inBody token)

/-- In an element that holds text only, which ends with its end tag or with the source. -/
def inText (c : Construction) (token : Token) : Outcome :=
  let left := { c.pop with mode := c.resumeMode, textMode := .data }
  match token with
  | .char char => .done (c.insertText char.toString)
  | .endTag tag => .done { left with resumed := tag.name == "script" }
  | .endOfSource => .again left
  | _ => .done c

/-- A token in the mode that is now. -/
def inMode (c : Construction) (token : Token) : Outcome :=
  match c.mode, token with
  | .inText, _ => c.inText token
  | .inTableText, _ => c.inTableText token
  | _, .endOfSource => c.endOfSource
  | .inBody, _ => .done (c.inBody token)
  | .inTable, _ => c.inTable token
  | .inCaption, _ => c.inCaption token
  | .inColumnGroup, _ => c.inColumnGroup token
  | .inTableBody, _ => c.inTableBody token
  | .inRow, _ => c.inRow token
  | .inCell, _ => c.inCell token
  | .inTemplate, _ => c.inTemplate token

/-- A token that the rules for foreign content apply to. -/
def inForeign (c : Construction) (token : Token) : Outcome :=
  match token with
  | .char char => .done (c.insertText (unlessNull char).toString)
  | .comment content => .done (c.insertComment content)
  | .startTag tag =>
    if leavesForeign tag then c.leaveForeign.inMode token else .done (c.startForeign tag)
  | .endTag tag =>
    if tag.name = "br" || tag.name = "p" then c.leaveForeign.inMode token
    else
      match foreignEnd tag.name true c.stack with
      | .closes stack => .done { c with stack := stack }
      | .isMarkup => c.inMode token
      | .ignored => .done c
  | _ => .done c

/-- A token, by the rules that apply to it. -/
def rule (c : Construction) (token : Token) : Outcome :=
  if c.isForeign token then c.inForeign token else c.inMode token

/-- A token, looked at again up to `fuel` times. -/
def settle (token : Token) : (fuel : Nat) → Construction → Construction
  | 0, c => c
  | fuel + 1, c =>
    match c.rule token with
    | .done c => c
    | .again c => settle token fuel c

/-- What a token adds to the construction. The line feed that follows certain tags is dropped. -/
def add (c : Construction) (token : Token) : Construction :=
  let isSkipped := c.skipsLineFeed && token == .char '\n'
  let c := { c with skipsLineFeed := false }
  match token with
  | .doctype => c
  | .slip => c
  | _ => if isSkipped then c else settle token (4 * c.stack.length + 16) c

end Galley.Html.Construction
