import Galley.Conversion.ListItem
import Galley.Conversion.Settings
import Galley.Markup.Alignment

/-!
The handlers of the usual tags, and the registry that binds them. Each gets a node in its place
and the context to attach to, and gives the context for the node's children.
-/

namespace Galley

/-- The no-break space, which counts as content and not as white space. -/
def noBreakSpace : Char := '\u00a0'

/-- A `span` whose only text is one no-break space. -/
def Node.isSpacer (node : Node) : Bool :=
  node.isElement "span" && node.innerText == noBreakSpace.toString

/-- A text as it goes into a document: without line feeds and carriage returns. -/
def visibleText (content : String) : String :=
  String.ofList (content.toList.filter fun c => c != '\r' && c != '\n')

theorem mem_visibleText {content : String} {c : Char} :
    c ∈ (visibleText content).toList ↔ c ∈ content.toList ∧ c ≠ '\r' ∧ c ≠ '\n' := by
  rw [visibleText, String.toList_ofList, List.mem_filter, Bool.and_eq_true, bne_iff_ne, bne_iff_ne]

theorem count_visibleText (content : String) (c : Char) :
    (visibleText content).toList.count c =
      if c = '\r' ∨ c = '\n' then 0 else content.toList.count c := by
  split
  · next hend =>
    rw [List.count_eq_zero, mem_visibleText]
    rintro ⟨-, hreturn, hfeed⟩
    exact hend.elim hreturn hfeed
  · next hkept =>
    rw [visibleText, String.toList_ofList, List.count_filter]
    simpa using hkept

/-- What goes into a document of a text: all its characters but line feeds and carriage returns,
each as often as it is there, in the order they have. -/
theorem visibleText_eq_iff {content text : String} :
    visibleText content = text ↔ text.toList.Sublist content.toList ∧
      ∀ c, text.toList.count c = if c = '\r' ∨ c = '\n' then 0 else content.toList.count c := by
  constructor
  · rintro rfl
    refine ⟨?_, count_visibleText content⟩
    rw [visibleText, String.toList_ofList]
    exact List.filter_sublist
  · rintro ⟨hsublist, hcount⟩
    have hperm : text.toList.Perm (visibleText content).toList :=
      List.perm_iff_count.2 fun c => (hcount c).trans (count_visibleText content c).symm
    -- The text has no line ends itself, so leaving them out of both sides keeps it a part.
    have hkept : text.toList.filter (fun c => c != '\r' && c != '\n') = text.toList :=
      List.filter_eq_self.2 fun c hc => by
        simpa using (mem_visibleText.1 (hperm.mem_iff.1 hc)).2
    have hpart : text.toList.Sublist (visibleText content).toList := by
      rw [← hkept, visibleText, String.toList_ofList]
      exact hsublist.filter _
    exact String.toList_injective (hpart.eq_of_length hperm.length_eq).symm

/-- White space that adds nothing. -/
def isVoidBlank (c : Char) : Bool :=
  Text.isBlank c && c != noBreakSpace

namespace Handler

/-- A new heading paragraph, whose level is what follows the letters of the tag. Only a section
takes one. -/
def heading : Handler := fun place context =>
  match context with
  | .inSection owner => do
    let name := place.node.name?.getD ""
    let level := name.toList.dropWhile fun c => !c.isDigit
    if level.isEmpty then
      throw (.invalidTag name .noLevelDigit)
    let paragraph ← addStyledParagraph owner ("Heading" ++ String.ofList level)
    return .inParagraph paragraph
  | _ => throw (unexpectedContext place .aSection context)

/-- A new paragraph in the nearest section, aligned as its inline style says. -/
def paragraph : Handler := fun place context => do
  let owner ← Edit.query (·.nearestSection context)
  let paragraph ← Edit.perform (·.addParagraph owner)
  match (place.node.attr? "style").bind textAlignment with
  | some alignment =>
    Edit.update (·.updateParagraph paragraph fun value =>
      { value with alignment := some alignment })
  | none => pure ()
  return .inParagraph paragraph

/-- Bold, italic and underlined content. A run that is open takes the flag; elsewhere a new run
begins, inside a link if there is one. -/
def formattedText (format : TextFormat) : Handler := fun _ context =>
  match context with
  | .inRun run => do
    Edit.update (·.applyFormat run format)
    return context
  | _ => do
    let parent ← Edit.perform (·.inlineParent context)
    return .inRun (← Edit.perform (·.addRun parent format))

/-- A link to the address in `href`, which may be missing. -/
def hyperlink : Handler := fun place context => do
  let parent ← Edit.perform (·.inlineParent context)
  let target := (place.node.attr? "href").getD ""
  return .inHyperlink (← Edit.perform (·.addHyperlink parent ⟨target, .web⟩))

/-- The style name that a span's class gives: none if it is empty or reserved. -/
def spanStyle (node : Node) (reserved : Option String) : Option String :=
  (node.attr? "class").filter fun name => name != "" && some name != reserved

/-- A run without underline, styled by the span's class. A spacer adds nothing. -/
def span (reserved : Option String) : Handler := fun place context =>
  if place.node.isSpacer then return context
  else do
    let parent ← Edit.perform (·.inlineParent context)
    let run ← Edit.perform (·.addRun parent .noUnderline)
    match spanStyle place.node reserved with
    | some style => Edit.update (·.updateRun run fun value => { value with style := some style })
    | none => pure ()
    return .inRun run

/-- A paragraph that is drawn as a line. -/
def horizontalRule : Handler := fun _ context => do
  let owner ← Edit.query (·.nearestSection context)
  let paragraph ← addStyledParagraph owner "HorizontalRule"
  return .inParagraph paragraph

/-- A line break, unless it would only add space at the end: as the last node of its parent, or
right before a list. In a section the last of several breaks stands for all. -/
def lineBreak : Handler := fun place context =>
  match place.nextSibling? with
  | none => return context
  | some next =>
    if next.node.isElement "ul" || next.node.isElement "ol" then return context
    else
      match context with
      | .inRun run => do
        Edit.update (·.addLineBreak (.run run))
        return context
      | .inParagraph paragraph => do
        Edit.update (·.addLineBreak (.paragraph paragraph))
        return context
      | .inHyperlink link => do
        Edit.update (·.addLineBreak (.hyperlink link))
        return context
      | .inSection owner =>
        if next.node.isElement "br" then return context
        else do
          let paragraph ← Edit.perform (·.addParagraph owner)
          Edit.update (·.addLineBreak (.paragraph paragraph))
          return .inParagraph paragraph

/-- A text node. The content of a spacer, and text that is all white space, add nothing. -/
def text : Handler := fun place context =>
  let text := visibleText (place.node.text?.getD "")
  if (place.parent?.map fun parent => parent.node.isSpacer).getD false then return context
  else if text.toList.all isVoidBlank then return context
  else
    match context with
    | .inRun run => do
      Edit.update (·.addText (.run run) text)
      return context
    | .inHyperlink link => do
      Edit.update (·.addText (.hyperlink link) text)
      return context
    | _ => do
      let paragraph ← Edit.perform (·.obtainParagraph context)
      Edit.update (·.addText (.paragraph paragraph) text)
      return .inParagraph paragraph

end Handler

/-- The usual tags and their handlers. -/
def defaultHandlers (settings : ConversionSettings) : List (TagKey × Handler) :=
  [ (.element "h1", .heading), (.element "h2", .heading), (.element "h3", .heading),
    (.element "h4", .heading), (.element "h5", .heading), (.element "h6", .heading),
    (.element "p", .paragraph), (.element "div", .paragraph),
    (.element "hr", .horizontalRule), (.element "li", .listItem),
    (.element "strong", .formattedText .bold), (.element "bold", .formattedText .bold),
    (.element "i", .formattedText .italic), (.element "em", .formattedText .italic),
    (.element "u", .formattedText .underline),
    (.element "a", .hyperlink), (.element "span", .span settings.reservedSpanClass),
    (.element "br", .lineBreak), (.text, .text) ]

/-- The registry of the usual handlers. -/
def Registry.withDefaults (settings : ConversionSettings) : Registry :=
  (defaultHandlers settings).foldl (fun registry entry => registry.insert entry.1 entry.2) .empty

end Galley
