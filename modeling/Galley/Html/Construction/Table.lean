import Galley.Html.Construction.Body

/-!
Rules for tables. Rows, cells and other parts are opened where they are left out; text and content
that stand between the parts go before the table.
-/

namespace Galley.Html.Construction

/-- Closes elements down to a table. -/
def popToTable (c : Construction) : Construction :=
  c.popWhile fun element => !element.boundsTableScope

/-- Closes elements down to a group of rows. -/
def popToRowGroup (c : Construction) : Construction :=
  c.popWhile fun element => !element.isHtmlIn ["tbody", "tfoot", "thead", "template", "html"]

/-- Closes elements down to a row. -/
def popToRow (c : Construction) : Construction :=
  c.popWhile fun element => !element.isHtmlIn ["tr", "template", "html"]

def inTableScope (c : Construction) (name : String) : Bool :=
  c.inScope ElementName.boundsTableScope name

/-- Changes the mode. -/
def enter (c : Construction) (mode : Mode) : Construction :=
  { c with mode := mode }

def rowGroupNames : List String := ["tbody", "tfoot", "thead"]

def cellNames : List String := ["td", "th"]

/-- The parts of a table whose start tags end a cell or a caption. -/
def partNames : List String :=
  ["caption", "col", "colgroup", "tbody", "td", "tfoot", "th", "thead", "tr"]

/-- The parts of a table that lie outside a row. -/
def partsOutsideRow : List String :=
  ["caption", "col", "colgroup", "tbody", "tfoot", "thead"]

/-! ### Text -/

/-- A character between the parts of a table. -/
def charInTable (c : Construction) (char : Char) : Outcome :=
  if c.current.isTablePart then .again { c with resumeMode := c.mode, mode := .inTableText }
  else .done (c.inBodyFostered (.char char))

/-- Adds the collected text: white space in place, all else before the table. -/
def placeTableText (c : Construction) : Construction :=
  let text := c.tableText.reverse
  let c := { c with tableText := [], mode := c.resumeMode }
  if text.all isSpace then
    if text.isEmpty then c else c.insertText (String.ofList text)
  else text.foldl (fun c char => c.inBodyFostered (.char char)) c

/-- A token after text between the parts of a table. -/
def inTableText (c : Construction) (token : Token) : Outcome :=
  match token with
  | .char char =>
    .done (if char = '\x00' then c else { c with tableText := char :: c.tableText })
  | _ => .again c.placeTableText

/-! ### Tables and captions -/

def startInTable (c : Construction) (tag : Tag) : Outcome :=
  let name := tag.name
  if name = "caption" then .done ((c.popToTable.pushMarker.insertTag tag).enter .inCaption)
  else if name = "colgroup" then .done ((c.popToTable.insertTag tag).enter .inColumnGroup)
  else if name = "col" then .again ((c.popToTable.insertImplied "colgroup").enter .inColumnGroup)
  else if rowGroupNames.contains name then .done ((c.popToTable.insertTag tag).enter .inTableBody)
  else if cellNames.contains name || name == "tr" then
    .again ((c.popToTable.insertImplied "tbody").enter .inTableBody)
  else if name = "table" then
    if c.inTableScope "table" then .again (c.closeNamed "table").resetMode else .done c
  else if ["style", "script", "template"].contains name then .done (c.startInHead tag)
  else if name = "input" &&
      tag.attributes.any fun given =>
        given.name == "type" && given.value.toLower == "hidden" then
    .done (c.insertVoid tag)
  else if name = "form" then
    if c.hasOpen "template" || c.form.isSome then .done c
    else
      let (id, c) := c.insertClosed ⟨.html, name⟩ tag.attributes
      .done { c with form := some id }
  else .done (c.inBodyFostered (.startTag tag))

def endInTable (c : Construction) (tag : Tag) : Outcome :=
  let name := tag.name
  if name = "table" then
    .done (if c.inTableScope "table" then (c.closeNamed "table").resetMode else c)
  else if partNames.contains name || name == "body" || name == "html" then .done c
  else if name = "template" then .done c.endTemplate
  else .done (c.inBodyFostered (.endTag tag))

/-- A token in a table, outside its parts. -/
def inTable (c : Construction) (token : Token) : Outcome :=
  match token with
  | .char char => c.charInTable char
  | .startTag tag => c.startInTable tag
  | .endTag tag => c.endInTable tag
  | .comment content => .done (c.insertComment content)
  | _ => .done c

/-- Closes a caption. -/
def closeCaption (c : Construction) : Construction :=
  ((c.closeImplied.closeNamed "caption").clearToMarker).enter .inTable

def inCaption (c : Construction) (token : Token) : Outcome :=
  match token with
  | .startTag tag =>
    if partNames.contains tag.name then
      if c.inTableScope "caption" then .again c.closeCaption else .done c
    else .done (c.inBody token)
  | .endTag tag =>
    if tag.name = "caption" then
      .done (if c.inTableScope "caption" then c.closeCaption else c)
    else if tag.name = "table" then
      if c.inTableScope "caption" then .again c.closeCaption else .done c
    else if partNames.contains tag.name || tag.name == "body" || tag.name == "html" then .done c
    else .done (c.inBody token)
  | _ => .done (c.inBody token)

/-- What means nothing in a group of columns ends it. -/
def leaveColumnGroup (c : Construction) : Outcome :=
  if c.current.isHtml "colgroup" then .again (c.pop.enter .inTable) else .done c

def inColumnGroup (c : Construction) (token : Token) : Outcome :=
  match token with
  | .char char => if isSpace char then .done (c.insertText char.toString) else c.leaveColumnGroup
  | .comment content => .done (c.insertComment content)
  | .startTag tag =>
    if tag.name = "html" then .done (c.inBody token)
    else if tag.name = "col" then .done (c.insertVoid tag)
    else if tag.name = "template" then .done (c.startInHead tag)
    else c.leaveColumnGroup
  | .endTag tag =>
    if tag.name = "colgroup" then
      .done (if c.current.isHtml "colgroup" then c.pop.enter .inTable else c)
    else if tag.name = "col" then .done c
    else if tag.name = "template" then .done c.endTemplate
    else c.leaveColumnGroup
  | _ => .done c

/-! ### Rows and cells -/

/-- Ends a group of rows, if one or a table is open. -/
def leaveRowGroup (c : Construction) : Outcome :=
  if c.inScopeAny ElementName.boundsTableScope ["table", "tbody", "tfoot"] then
    .again (c.popToRowGroup.pop.enter .inTable)
  else .done c

/-- A token in a group of rows. -/
def inTableBody (c : Construction) (token : Token) : Outcome :=
  match token with
  | .startTag tag =>
    if tag.name = "tr" then .done ((c.popToRowGroup.insertTag tag).enter .inRow)
    else if cellNames.contains tag.name then
      .again ((c.popToRowGroup.insertImplied "tr").enter .inRow)
    else if partsOutsideRow.contains tag.name then c.leaveRowGroup
    else c.inTable token
  | .endTag tag =>
    if rowGroupNames.contains tag.name then
      .done (if c.inTableScope tag.name then c.popToRowGroup.pop.enter .inTable else c)
    else if tag.name = "table" then c.leaveRowGroup
    else if ["body", "caption", "col", "colgroup", "html", "td", "th", "tr"].contains tag.name then
      .done c
    else c.inTable token
  | _ => c.inTable token

/-- Closes a row. -/
def closeRow (c : Construction) : Construction :=
  c.popToRow.pop.enter .inTableBody

/-- Ends a row, if one is open. -/
def leaveRow (c : Construction) : Outcome :=
  if c.inTableScope "tr" then .again c.closeRow else .done c

def inRow (c : Construction) (token : Token) : Outcome :=
  match token with
  | .startTag tag =>
    if cellNames.contains tag.name then
      .done ((c.popToRow.insertTag tag).enter .inCell).pushMarker
    else if partsOutsideRow.contains tag.name || tag.name == "tr" then c.leaveRow
    else c.inTable token
  | .endTag tag =>
    if tag.name = "tr" then .done (if c.inTableScope "tr" then c.closeRow else c)
    else if tag.name = "table" then c.leaveRow
    else if rowGroupNames.contains tag.name then
      if c.inTableScope tag.name then c.leaveRow else .done c
    else if ["body", "caption", "col", "colgroup", "html", "td", "th"].contains tag.name then
      .done c
    else c.inTable token
  | _ => c.inTable token

/-- Closes a cell. -/
def closeCell (c : Construction) : Construction :=
  ((c.closeImplied.popThrough fun element => element.isHtmlIn cellNames).clearToMarker).enter .inRow

def inCell (c : Construction) (token : Token) : Outcome :=
  match token with
  | .startTag tag =>
    if partNames.contains tag.name then
      if c.inScopeAny ElementName.boundsTableScope cellNames then .again c.closeCell else .done c
    else .done (c.inBody token)
  | .endTag tag =>
    if cellNames.contains tag.name then
      .done
        (if c.inTableScope tag.name then
          ((c.closeImplied.closeNamed tag.name).clearToMarker).enter .inRow
        else c)
    else if ["body", "caption", "col", "colgroup", "html"].contains tag.name then .done c
    else if rowGroupNames.contains tag.name || tag.name == "table" || tag.name == "tr" then
      if c.inTableScope tag.name then .again c.closeCell else .done c
    else .done (c.inBody token)
  | _ => .done (c.inBody token)

end Galley.Html.Construction
