import Galley.Proofs.Conversion.LiveContext

/-!
  What a call of a usual handler adds to a document.

  `Role` names the usual handlers, under whatever tags. `Role.effect` says what a call adds, from
  the place and the context alone: nothing, a flag on the open run, new paragraphs at the end of
  the section, or one inline object. `Role.Does` has one rule for each of these outcomes, and what
  holds of all calls is proved by its cases (`Role.does_of_effect`). `Role.runOn_handler` is the one
  lemma about each handler: in a live context it does what its effect says, and where it fails it
  has done nothing.
-/

namespace Galley

/-! ## Effects -/

/-- An inline object that a handler adds. -/
inductive Inline where
  | text (value : String)
  | lineBreak
  | run (value : TextRun)
  | hyperlink (value : Hyperlink)
  deriving DecidableEq, Repr

def Inline.object : Inline → DocumentObject
  | text value => .text value
  | lineBreak => .lineBreak
  | run value => .run value
  | hyperlink value => .hyperlink value

theorem Inline.isInline_kind (inline : Inline) : inline.object.kind.isInline := by
  cases inline <;> rfl

/-- What a call of a usual handler does. -/
inductive Effect where
  /-- Nothing is added. -/
  | nothing
  /-- The run that is open takes a flag. -/
  | flag (format : TextFormat)
  /-- New paragraphs at the end of the section. Content goes on in the one between the others. -/
  | blocks (before : List Paragraph) (value : Paragraph) (after : List Paragraph)
  /-- One inline object at the end of the container, for which a section gets a new paragraph. -/
  | content (value : Inline)
  deriving DecidableEq, Repr

namespace Context

/-- The container that inline content in a context goes into, where the next new object gets the
    slot `next`. -/
def container (next : Nat) : Context → InlineParent
  | inSection _ => .paragraph ⟨next⟩
  | inParagraph id => .paragraph id
  | inRun id => .run id
  | inHyperlink id => .hyperlink id

theorem slot_container (context : Context) (next : Nat) :
    (context.container next).slot = next ∨ (context.container next).slot = context.slot := by
  cases context with
  | inSection id => exact .inl rfl
  | _ => exact .inr rfl

/-- The paragraph that a section gets for inline content. -/
def opening (owner : SectionId) : Context → List (Nat × DocumentObject)
  | inSection _ => [(owner.slot, .paragraph {})]
  | _ => []

/-- The number of paragraphs that inline content in a context begins. -/
def openings : Context → Nat
  | inSection _ => 1
  | _ => 0

/-- The context that is left after inline content that holds nothing itself. -/
def afterContent (next : Nat) : Context → Context
  | inSection _ => .inParagraph ⟨next⟩
  | context => context

end Context

namespace Effect

/-- The objects that are added, each with the slot of its parent. -/
def additions (owner : SectionId) (context : Context) (next : Nat) :
    Effect → List (Nat × DocumentObject)
  | nothing => []
  | flag _ => []
  | blocks before value after =>
    (before ++ value :: after).map fun paragraph => (owner.slot, .paragraph paragraph)
  | content value =>
    context.opening owner ++ [((context.container next).slot, value.object)]

/-- The document with a flag set on the run that is open. -/
def flagged (context : Context) (format : TextFormat) (d : Document) : Document :=
  match context, d.object? context.slot with
  | .inRun id, some (.run value) => d.put id.slot (.run (value.apply format))
  | _, _ => d

/-- The document after a call. -/
def applyTo (owner : SectionId) (context : Context) (d : Document) : Effect → Document
  | flag format => flagged context format d
  | effect => d.pushAll (effect.additions owner context d.size)

/-- The context for what is inside the node that a call was for. -/
def result (context : Context) (next : Nat) : Effect → Context
  | nothing => context
  | flag _ => context
  | blocks before _ _ => .inParagraph ⟨next + before.length⟩
  | content value =>
    let slot := next + context.openings
    match value with
    | .run _ => .inRun ⟨slot⟩
    | .hyperlink _ => .inHyperlink ⟨slot⟩
    | .text _ => context.afterContent next
    | .lineBreak => context.afterContent next

end Effect

/-! ## Roles -/

/-- The usual handlers, with what each is given besides place and context. -/
inductive Role where
  | heading
  | paragraph
  | formattedText (format : TextFormat)
  | hyperlink
  | span (reserved : Option String)
  | horizontalRule
  | lineBreak
  | text
  | listItem
  deriving DecidableEq, Repr

/-- A paragraph that carries a style and nothing else. -/
def styled (style : String) : Paragraph := { style := some style }

/-- The paragraph of an item. -/
def itemParagraph (position : ItemPosition) : Paragraph where
  style := some position.kind.style
  listInfo := some ⟨position.kind.listType, !position.isFirst⟩

namespace Role

def handler : Role → Handler
  | heading => .heading
  | paragraph => .paragraph
  | formattedText format => .formattedText format
  | hyperlink => .hyperlink
  | span reserved => .span reserved
  | horizontalRule => .horizontalRule
  | lineBreak => .lineBreak
  | text => .text
  | listItem => .listItem

/-- The effect of a heading's handler. -/
def headingEffect (place : Location) (context : Context) : Except ConvertError Effect :=
  match context with
  | .inSection _ =>
    let name := place.node.name?.getD ""
    let level := name.toList.dropWhile fun c => !c.isDigit
    if level.isEmpty then .error (.invalidTag name .noLevelDigit)
    else .ok (.blocks [] (styled ("Heading" ++ String.ofList level)) [])
  | _ => .error (unexpectedContext place .aSection context)

/-- The effect of a line break's handler. -/
def lineBreakEffect (place : Location) (context : Context) : Effect :=
  match place.nextSibling? with
  | none => .nothing
  | some next =>
    if next.node.isElement "ul" || next.node.isElement "ol" then .nothing
    else
      match context with
      | .inSection _ => if next.node.isElement "br" then .nothing else .content .lineBreak
      | _ => .content .lineBreak

/-- What a text node adds to a document, if it adds anything. -/
def contribution? (place : Location) : Option String :=
  let text := visibleText (place.node.text?.getD "")
  if (place.parent?.map fun parent => parent.node.isSpacer).getD false then none
  else if text.toList.all isVoidBlank then none
  else some text

/-- The paragraphs of a list item: its own, and the markers where its list begins and ends. -/
def itemEffect (position : ItemPosition) : Effect :=
  .blocks (if position.isFirst then [styled listStartStyle] else [])
    (itemParagraph position)
    (if position.isLast then [styled listEndStyle] else [])

/-- What a call of a usual handler does, or why it fails. -/
def effect (place : Location) (context : Context) : Role → Except ConvertError Effect
  | heading => headingEffect place context
  | paragraph =>
    .ok (.blocks [] { alignment := (place.node.attr? "style").bind textAlignment } [])
  | formattedText format =>
    match context with
    | .inRun _ => .ok (.flag format)
    | _ => .ok (.content (.run (.ofFormat format)))
  | hyperlink => .ok (.content (.hyperlink ⟨(place.node.attr? "href").getD "", .web⟩))
  | span reserved =>
    if place.node.isSpacer then .ok .nothing
    else .ok (.content (.run
      { TextRun.ofFormat .noUnderline with style := Handler.spanStyle place.node reserved }))
  | horizontalRule => .ok (.blocks [] (styled "HorizontalRule") [])
  | lineBreak => .ok (lineBreakEffect place context)
  | text =>
    match contribution? place with
    | none => .ok .nothing
    | some added => .ok (.content (.text added))
  | listItem =>
    match context with
    | .inSection _ => .ok (itemEffect (.ofLocation place))
    | .inParagraph _ => .ok (itemEffect (.ofLocation place))
    | _ => .error (unexpectedContext place .aSectionOrParagraph context)

/-- What a call of a usual handler does where it does not fail, one rule for each way to end. -/
inductive Does (place : Location) : Role → Context → Effect → Prop
  | heading (id : SectionId) :
      Does place .heading (.inSection id) (.blocks [] (styled ("Heading" ++ String.ofList
        ((place.node.name?.getD "").toList.dropWhile fun c => !c.isDigit))) [])
  | paragraph (context : Context) :
      Does place .paragraph context
        (.blocks [] { alignment := (place.node.attr? "style").bind textAlignment } [])
  | horizontalRule (context : Context) :
      Does place .horizontalRule context (.blocks [] (styled "HorizontalRule") [])
  | listItem {context : Context} (hrun : context.kind ≠ .run) (hlink : context.kind ≠ .hyperlink) :
      Does place .listItem context (itemEffect (.ofLocation place))
  | flag (format : TextFormat) (id : RunId) :
      Does place (.formattedText format) (.inRun id) (.flag format)
  | run (format : TextFormat) {context : Context} (hcontext : context.kind ≠ .run) :
      Does place (.formattedText format) context (.content (.run (.ofFormat format)))
  | hyperlink (context : Context) :
      Does place .hyperlink context
        (.content (.hyperlink ⟨(place.node.attr? "href").getD "", .web⟩))
  | spacer (reserved : Option String) (context : Context) (hspacer : place.node.isSpacer) :
      Does place (.span reserved) context .nothing
  | span (reserved : Option String) (context : Context) (hspacer : ¬ place.node.isSpacer) :
      Does place (.span reserved) context (.content (.run
        { TextRun.ofFormat .noUnderline with style := Handler.spanStyle place.node reserved }))
  | noBreak (context : Context) : Does place .lineBreak context .nothing
  | lineBreak (context : Context) : Does place .lineBreak context (.content .lineBreak)
  | noText (context : Context) (hadded : contribution? place = none) :
      Does place .text context .nothing
  | text (context : Context) {added : String} (hadded : contribution? place = some added) :
      Does place .text context (.content (.text added))

theorem lineBreakEffect_cases (place : Location) (context : Context) :
    lineBreakEffect place context = .nothing ∨
      lineBreakEffect place context = .content .lineBreak := by
  unfold lineBreakEffect
  split
  · exact .inl rfl
  · split
    · exact .inl rfl
    · cases context with
      | inSection id =>
        dsimp only
        split
        · exact .inl rfl
        · exact .inr rfl
      | _ => exact .inr rfl

theorem does_of_effect {place : Location} {role : Role} {context : Context} {effect : Effect}
    (h : role.effect place context = .ok effect) : Does place role context effect := by
  cases role with
  | heading =>
    cases context with
    | inSection id =>
      simp only [Role.effect, headingEffect] at h
      split at h
      · cases h
      · cases h
        exact .heading id
    | _ => cases h
  | paragraph =>
    cases h
    exact .paragraph context
  | formattedText format =>
    cases context with
    | inRun id =>
      cases h
      exact .flag format id
    | _ =>
      cases h
      exact .run format nofun
  | hyperlink =>
    cases h
    exact .hyperlink context
  | span reserved =>
    simp only [Role.effect] at h
    split at h
    · next hspacer =>
      cases h
      exact .spacer reserved context hspacer
    · next hspacer =>
      cases h
      exact .span reserved context hspacer
  | horizontalRule =>
    cases h
    exact .horizontalRule context
  | lineBreak =>
    rcases lineBreakEffect_cases place context with heq | heq
    · rw [Role.effect, heq] at h
      cases h
      exact .noBreak context
    · rw [Role.effect, heq] at h
      cases h
      exact .lineBreak context
  | text =>
    simp only [Role.effect] at h
    split at h
    · next hadded =>
      cases h
      exact .noText context hadded
    · next added hadded =>
      cases h
      exact .text context hadded
  | listItem =>
    cases context with
    | inSection id | inParagraph id =>
      cases h
      exact .listItem nofun nofun
    | inRun id | inHyperlink id => cases h

end Role

/-! ## Operations in live contexts -/

section Operations

variable {d : Document} {owner : SectionId} {context : Context}

theorem kind?_push_section {parent : Nat} {value : DocumentObject}
    (h : d.kind? owner.slot = some .sectionBlock) :
    (d.push parent value).kind? owner.slot = some .sectionBlock :=
  (Document.keepsShape_push d parent value).kind?_eq _ _ h

theorem addParagraph_of_section (h : d.kind? owner.slot = some .sectionBlock) :
    d.addParagraph owner = .ok (⟨d.size⟩, d.push owner.slot (.paragraph {})) := by
  rw [Document.addParagraph_eq, Document.addChild_of_kind? h]
  rfl

/-- A paragraph that was just added may be changed. -/
theorem updateParagraph_push (parent : Nat) (value : Paragraph) (f : Paragraph → Paragraph) :
    (d.push parent (.paragraph value)).updateParagraph ⟨d.size⟩ f =
      .ok (d.push parent (.paragraph (f value))) := by
  refine Document.updateParagraph_eq_ok.2 ⟨value, ?_, ?_⟩
  · rw [Document.object?_push, if_pos rfl]
  · rw [Document.put_push]

theorem setStyle_push (parent : Nat) {style : String} (hstyle : style ≠ "") (value : Paragraph) :
    (d.push parent (.paragraph value)).setStyle ⟨d.size⟩ style =
      .ok (d.push parent (.paragraph { value with style := some style })) := by
  rw [Document.setStyle, if_neg hstyle, updateParagraph_push]

theorem updateRun_push (parent : Nat) (value : TextRun) (f : TextRun → TextRun) :
    (d.push parent (.run value)).updateRun ⟨d.size⟩ f = .ok (d.push parent (.run (f value))) := by
  refine Document.updateRun_eq_ok.2 ⟨value, ?_, ?_⟩
  · rw [Document.object?_push, if_pos rfl]
  · rw [Document.put_push]

theorem runOn_addStyledParagraph (h : d.kind? owner.slot = some .sectionBlock) {style : String}
    (hstyle : style ≠ "") :
    (addStyledParagraph owner style).runOn d =
      (.ok ⟨d.size⟩, d.push owner.slot (.paragraph (styled style))) := by
  rw [addStyledParagraph, Edit.runOn_bind, Edit.runOn_perform, addParagraph_of_section h]
  dsimp only
  rw [Edit.runOn_bind, Edit.runOn_update, setStyle_push _ hstyle]
  rfl

theorem Document.Reachable.push_paragraph (hd : d.Reachable)
    (h : d.kind? owner.slot = some .sectionBlock) (value : Paragraph) :
    (d.push owner.slot (.paragraph value)).Reachable := by
  have hadd : (Operation.addParagraph owner).perform d =
      .ok (d.push owner.slot (.paragraph {})) := by
    rw [Operation.perform, addParagraph_of_section h]
    rfl
  have hupdate : (Operation.updateParagraph ⟨d.size⟩ fun _ => value).perform
      (d.push owner.slot (.paragraph {})) = .ok (d.push owner.slot (.paragraph value)) :=
    updateParagraph_push _ _ _
  exact .perform _ (.perform _ hd hadd) hupdate

theorem Document.Reachable.push_paragraphs (hd : d.Reachable)
    (h : d.kind? owner.slot = some .sectionBlock) (values : List Paragraph) :
    (d.pushAll (values.map fun value => (owner.slot, .paragraph value))).Reachable := by
  induction values generalizing d with
  | nil => exact hd
  | cons value values ih => exact ih (hd.push_paragraph h value) (kind?_push_section h)

theorem Document.Reachable.push_inline (hd : d.Reachable) {parent : InlineParent}
    (h : d.kind? parent.slot = some parent.kind) (value : Inline) :
    (d.push parent.slot value.object).Reachable := by
  cases value with
  | text text =>
    have hadd : (Operation.addText parent text).perform d =
        .ok (d.push parent.slot (.text text)) := by
      rw [Operation.perform, Document.addText_eq, Document.addChild_of_kind? h]
      rfl
    exact .perform _ hd hadd
  | lineBreak =>
    have hadd : (Operation.addLineBreak parent).perform d =
        .ok (d.push parent.slot .lineBreak) := by
      rw [Operation.perform, Document.addLineBreak_eq, Document.addChild_of_kind? h]
      rfl
    exact .perform _ hd hadd
  | run value =>
    have hadd : (Operation.addRun parent .bold).perform d =
        .ok (d.push parent.slot (.run (.ofFormat .bold))) := by
      rw [Operation.perform, Document.addRun_eq, Document.addChild_of_kind? h]
      rfl
    have hupdate : (Operation.updateRun ⟨d.size⟩ fun _ => value).perform
        (d.push parent.slot (.run (.ofFormat .bold))) = .ok (d.push parent.slot (.run value)) :=
      updateRun_push _ _ _
    exact .perform _ (.perform _ hd hadd) hupdate
  | hyperlink value =>
    have hadd : (Operation.addHyperlink parent value).perform d =
        .ok (d.push parent.slot (.hyperlink value)) := by
      rw [Operation.perform, Document.addHyperlink_eq, Document.addChild_of_kind? h]
      rfl
    exact .perform _ hd hadd

/-- The document with the paragraph that a section gets for inline content. -/
def opened (owner : SectionId) (context : Context) (d : Document) : Document :=
  d.pushAll (context.opening owner)

theorem Live.inlineParent (h : Live d owner context) :
    d.inlineParent context = .ok (context.container d.size, opened owner context d) := by
  cases context with
  | inSection id =>
    obtain rfl := h.eq_of_inSection
    rw [Document.inlineParent, addParagraph_of_section h.isKind]
    rfl
  | inParagraph id => rfl
  | inRun id => rfl
  | inHyperlink id => rfl

/-- The container is there. -/
theorem Live.kind?_container (h : Live d owner context) :
    (opened owner context d).kind? (context.container d.size).slot =
      some (context.container d.size).kind := by
  cases context with
  | inSection id =>
    have hobject : (opened owner (.inSection id) d).object? d.size = some (.paragraph {}) :=
      Document.object?_push_self
    exact Document.kind?_of_object? hobject
  | inParagraph id => exact h.isKind
  | inRun id => exact h.isKind
  | inHyperlink id => exact h.isKind

theorem size_opened (owner : SectionId) (context : Context) (d : Document) :
    (opened owner context d).size = d.size + context.openings := by
  rw [opened, Document.size_pushAll]
  cases context <;> rfl

/-- Adding inline content to the container. -/
theorem Live.addChild (h : Live d owner context) (value : DocumentObject) :
    (opened owner context d).addChild (context.container d.size).kind
        (context.container d.size).slot value =
      .ok (d.size + context.openings,
        (opened owner context d).push (context.container d.size).slot value) := by
  rw [Document.addChild_of_kind? h.kind?_container, size_opened]

theorem Live.addText (h : Live d owner context) (text : String) :
    (opened owner context d).addText (context.container d.size) text =
      .ok ((opened owner context d).push (context.container d.size).slot (.text text)) := by
  rw [Document.addText_eq, h.addChild]
  rfl

theorem Live.addLineBreak (h : Live d owner context) :
    (opened owner context d).addLineBreak (context.container d.size) =
      .ok ((opened owner context d).push (context.container d.size).slot .lineBreak) := by
  rw [Document.addLineBreak_eq, h.addChild]
  rfl

theorem applyTo_content (owner : SectionId) (context : Context) (d : Document) (value : Inline) :
    Effect.applyTo owner context d (.content value) =
      (opened owner context d).push (context.container d.size).slot value.object := by
  show d.pushAll (context.opening owner ++ [_]) = _
  rw [Document.pushAll_append]
  rfl

theorem applyTo_blocks (owner : SectionId) (context : Context) (d : Document)
    (before after : List Paragraph) (value : Paragraph) :
    Effect.applyTo owner context d (.blocks before value after) =
      ((d.pushAll (before.map fun paragraph => (owner.slot, .paragraph paragraph))).push owner.slot
        (.paragraph value)).pushAll
          (after.map fun paragraph => (owner.slot, .paragraph paragraph)) := by
  show d.pushAll ((before ++ value :: after).map _) = _
  rw [List.map_append, List.map_cons, Document.pushAll_append, Document.pushAll_cons]

theorem applyTo_flag {id : RunId} {value : TextRun} (h : d.object? id.slot = some (.run value))
    (owner : SectionId) (format : TextFormat) :
    Effect.applyTo owner (.inRun id) d (.flag format) =
      d.put id.slot (.run (value.apply format)) := by
  have hslot : d.object? (Context.inRun id).slot = some (.run value) := h
  simp only [Effect.applyTo, Effect.flagged, hslot]

end Operations

/-! ## Handlers do what their effects say -/

/-- What a call gives and leaves behind, by its effect. -/
def Effect.perform (owner : SectionId) (context : Context) (d : Document) :
    Except ConvertError Effect → Except ConvertError Context × Document
  | .ok effect => (.ok (effect.result context d.size), effect.applyTo owner context d)
  | .error cause => (.error cause, d)

/-- Inline content that is added: in the container. -/
theorem perform_content (owner : SectionId) (context : Context) (d : Document) (value : Inline) :
    Effect.perform owner context d (.ok (.content value)) =
      (.ok ((Effect.content value).result context d.size),
        (opened owner context d).push (context.container d.size).slot value.object) := by
  rw [Effect.perform, applyTo_content]

section Handlers

variable {d : Document} {owner : SectionId} {context : Context} {place : Location}

theorem runOn_heading (h : Live d owner context) :
    (Handler.heading place context).runOn d =
      Effect.perform owner context d (Role.heading.effect place context) := by
  cases context with
  | inSection id =>
    obtain rfl := h.eq_of_inSection
    unfold Role.effect Role.headingEffect Handler.heading
    dsimp only
    split
    · rfl
    · have hstyle (level : String) : "Heading" ++ level ≠ "" := by
        intro heq
        have := congrArg String.length heq
        simp at this
      rw [Edit.runOn_bind, runOn_addStyledParagraph h.isKind (hstyle _)]
      rfl
  | _ => rfl

theorem runOn_paragraph (h : Live d owner context) :
    (Handler.paragraph place context).runOn d =
      Effect.perform owner context d (Role.paragraph.effect place context) := by
  unfold Handler.paragraph
  rw [Edit.runOn_bind, Edit.runOn_query, h.nearestSection]
  dsimp only
  rw [Edit.runOn_bind, Edit.runOn_perform, addParagraph_of_section h.isSection]
  dsimp only
  unfold Role.effect
  cases (place.node.attr? "style").bind textAlignment with
  | none => rfl
  | some alignment =>
    dsimp only
    rw [Edit.runOn_bind, Edit.runOn_update, updateParagraph_push]
    rfl

theorem runOn_horizontalRule (h : Live d owner context) :
    (Handler.horizontalRule place context).runOn d =
      Effect.perform owner context d (Role.horizontalRule.effect place context) := by
  unfold Handler.horizontalRule
  rw [Edit.runOn_bind, Edit.runOn_query, h.nearestSection]
  dsimp only
  rw [Edit.runOn_bind, runOn_addStyledParagraph h.isSection (by decide)]
  rfl

/-- A run at the end of the container, as formatting and spans begin one. -/
theorem runOn_addRun (h : Live d owner context) (format : TextFormat) {α : Type}
    (next : RunId → Edit α) :
    (do let parent ← Edit.perform (·.inlineParent context)
        next (← Edit.perform (·.addRun parent format))).runOn d =
      (next ⟨d.size + context.openings⟩).runOn
        ((opened owner context d).push (context.container d.size).slot
          (.run (.ofFormat format))) := by
  rw [Edit.runOn_bind, Edit.runOn_perform, h.inlineParent]
  dsimp only
  rw [Edit.runOn_bind, Edit.runOn_perform, Document.addRun_eq, h.addChild]
  rfl

theorem runOn_formattedText (h : Live d owner context) (format : TextFormat) :
    (Handler.formattedText format place context).runOn d =
      Effect.perform owner context d ((Role.formattedText format).effect place context) := by
  have hadd := runOn_addRun h format fun run => pure (Context.inRun run)
  cases context with
  | inRun id =>
    obtain ⟨value, hobject⟩ := Document.object?_of_kind?_run h.isKind
    have happly : d.applyFormat id format = .ok (d.put id.slot (.run (value.apply format))) :=
      Document.updateRun_eq_ok.2 ⟨value, hobject, rfl⟩
    unfold Handler.formattedText
    rw [Edit.runOn_bind, Edit.runOn_update, happly]
    dsimp only [Role.effect, Effect.perform]
    rw [applyTo_flag hobject]
    rfl
  | inSection id => exact hadd
  | inParagraph id => exact hadd
  | inHyperlink id => exact hadd

theorem runOn_span (h : Live d owner context) (reserved : Option String) :
    (Handler.span reserved place context).runOn d =
      Effect.perform owner context d ((Role.span reserved).effect place context) := by
  unfold Handler.span Role.effect
  dsimp only
  split
  · rfl
  · rw [runOn_addRun h]
    cases Handler.spanStyle place.node reserved with
    | none =>
      rw [perform_content]
      rfl
    | some style =>
      rw [perform_content, Edit.runOn_bind, Edit.runOn_update, ← size_opened owner context d,
        updateRun_push]
      dsimp only [Effect.result]
      rw [size_opened]
      rfl

theorem runOn_hyperlink (h : Live d owner context) :
    (Handler.hyperlink place context).runOn d =
      Effect.perform owner context d (Role.hyperlink.effect place context) := by
  unfold Handler.hyperlink
  rw [Edit.runOn_bind, Edit.runOn_perform, h.inlineParent]
  dsimp only
  rw [Edit.runOn_bind, Edit.runOn_perform, Document.addHyperlink_eq, h.addChild]
  unfold Role.effect
  rw [perform_content]
  rfl

/-- An operation that succeeds, and a context after it. -/
theorem runOn_update_ok {operation : Document → Except DocumentError Document} {d' : Document}
    (h : operation d = .ok d') (context : Context) :
    (do Edit.update operation; return context : Edit Context).runOn d = (.ok context, d') := by
  rw [Edit.runOn_bind, Edit.runOn_update, h]
  rfl

theorem runOn_lineBreak (h : Live d owner context) :
    (Handler.lineBreak place context).runOn d =
      Effect.perform owner context d (Role.lineBreak.effect place context) := by
  unfold Handler.lineBreak Role.effect Role.lineBreakEffect
  cases hnext : place.nextSibling? with
  | none => rfl
  | some next =>
    dsimp only
    by_cases hlist : (next.node.isElement "ul" || next.node.isElement "ol") = true
    · rw [if_pos hlist, if_pos hlist]
      rfl
    · rw [if_neg hlist, if_neg hlist]
      cases context with
      | inSection id =>
        dsimp only
        by_cases hbreak : next.node.isElement "br" = true
        · rw [if_pos hbreak, if_pos hbreak]
          rfl
        · obtain rfl := h.eq_of_inSection
          rw [if_neg hbreak, if_neg hbreak, perform_content, Edit.runOn_bind,
            Edit.runOn_perform, addParagraph_of_section h.isKind]
          exact runOn_update_ok h.addLineBreak _
      | inParagraph id =>
        rw [perform_content]
        exact runOn_update_ok h.addLineBreak _
      | inRun id =>
        rw [perform_content]
        exact runOn_update_ok h.addLineBreak _
      | inHyperlink id =>
        rw [perform_content]
        exact runOn_update_ok h.addLineBreak _

theorem runOn_text (h : Live d owner context) :
    (Handler.text place context).runOn d =
      Effect.perform owner context d (Role.text.effect place context) := by
  unfold Handler.text Role.effect Role.contribution?
  dsimp only
  by_cases hspacer : (place.parent?.map fun parent => parent.node.isSpacer).getD false = true
  · rw [if_pos hspacer, if_pos hspacer]
    rfl
  · rw [if_neg hspacer, if_neg hspacer]
    by_cases hblank : (visibleText (place.node.text?.getD "")).toList.all isVoidBlank = true
    · rw [if_pos hblank, if_pos hblank]
      rfl
    · rw [if_neg hblank, if_neg hblank]
      dsimp only
      rw [perform_content]
      cases context with
      | inSection id =>
        obtain rfl := h.eq_of_inSection
        dsimp only
        rw [Edit.runOn_bind, Edit.runOn_perform, Document.obtainParagraph,
          addParagraph_of_section h.isKind]
        exact runOn_update_ok (h.addText _) _
      | inParagraph id => exact runOn_update_ok (h.addText _) _
      | inRun id => exact runOn_update_ok (h.addText _) _
      | inHyperlink id => exact runOn_update_ok (h.addText _) _

/-! A list item adds up to three paragraphs to the same section. -/

/-- The item's own paragraph and the end marker. -/
theorem runOn_itemAndEnd (h : d.kind? owner.slot = some .sectionBlock) (position : ItemPosition) :
    (do
      let item ← addStyledParagraph owner position.kind.style
      Edit.update (·.updateParagraph item fun value =>
        { value with listInfo := some ⟨position.kind.listType, !position.isFirst⟩ })
      if position.isLast then
        let _ ← addStyledParagraph owner listEndStyle
      return .inParagraph item : Edit Context).runOn d =
      (.ok (.inParagraph ⟨d.size⟩),
        (d.push owner.slot (.paragraph (itemParagraph position))).pushAll
          (if position.isLast then [(owner.slot, .paragraph (styled listEndStyle))] else [])) := by
  have hstyle : position.kind.style ≠ "" := by
    cases position.kind <;> decide
  rw [Edit.runOn_bind, runOn_addStyledParagraph h hstyle]
  dsimp only
  rw [Edit.runOn_bind, Edit.runOn_update, styled, updateParagraph_push]
  cases position.isLast with
  | false => rfl
  | true =>
    have hend : listEndStyle ≠ "" := by decide
    rw [if_pos rfl, if_pos rfl]
    dsimp only
    rw [Edit.runOn_bind, runOn_addStyledParagraph (kind?_push_section h) hend]
    rfl

theorem runOn_itemParagraphs (h : d.kind? owner.slot = some .sectionBlock)
    (position : ItemPosition) :
    (do
      if position.isFirst then
        let _ ← addStyledParagraph owner listStartStyle
      let item ← addStyledParagraph owner position.kind.style
      Edit.update (·.updateParagraph item fun value =>
        { value with listInfo := some ⟨position.kind.listType, !position.isFirst⟩ })
      if position.isLast then
        let _ ← addStyledParagraph owner listEndStyle
      return .inParagraph item : Edit Context).runOn d =
      Effect.perform owner context d (.ok (Role.itemEffect position)) := by
  unfold Role.itemEffect
  by_cases hfirst : position.isFirst = true
  · have hstart : listStartStyle ≠ "" := by decide
    rw [if_pos hfirst, if_pos hfirst, Edit.runOn_bind, runOn_addStyledParagraph h hstart]
    refine (runOn_itemAndEnd (kind?_push_section h) position).trans ?_
    rw [Document.size_push]
    cases position.isLast <;> rfl
  · rw [if_neg hfirst, if_neg hfirst]
    refine (runOn_itemAndEnd h position).trans ?_
    cases position.isLast <;> rfl

theorem runOn_listItem (h : Live d owner context) :
    (Handler.listItem place context).runOn d =
      Effect.perform owner context d (Role.listItem.effect place context) := by
  unfold Handler.listItem Role.effect
  cases context with
  | inSection id =>
    obtain rfl := h.eq_of_inSection
    exact runOn_itemParagraphs h.isSection _
  | inParagraph id =>
    have howner : d.sectionOf id = .ok owner := h.nearestSection
    dsimp only
    rw [Edit.runOn_bind, Edit.runOn_query, howner]
    exact runOn_itemParagraphs h.isSection _
  | inRun id => rfl
  | inHyperlink id => rfl

/-- **A usual handler does in a live context what its effect says.** -/
theorem Role.runOn_handler (h : Live d owner context) (role : Role) :
    (role.handler place context).runOn d =
      Effect.perform owner context d (role.effect place context) := by
  cases role with
  | heading => exact runOn_heading h
  | paragraph => exact runOn_paragraph h
  | formattedText format => exact runOn_formattedText h format
  | hyperlink => exact runOn_hyperlink h
  | span reserved => exact runOn_span h reserved
  | horizontalRule => exact runOn_horizontalRule h
  | lineBreak => exact runOn_lineBreak h
  | text => exact runOn_text h
  | listItem => exact runOn_listItem h

end Handlers

end Galley
