import Galley.Proofs.Conversion.Run
import Galley.Proofs.Document.Operations

/-!
  Calls of the usual handlers in any context at all.

  A context may come from another document, or name a slot that does not exist or holds another
  kind of object: the document refuses it (`Document.Refuses`). In a reachable document a context
  that is not refused is live (`Document.WellFormed.exists_live`), and there `Role.runOn_handler`
  says what a call does. Where it is refused, no handler gets beyond its first operation
  (`Role.runOn_handler_of_refused`, one lemma for each handler): what would add nothing adds
  nothing, and all else fails. So a call that fails has changed nothing (`handler_atomic`).
-/

namespace Galley

/-- A context with the kind that it says its object has. -/
def Context.handle (context : Context) : AnyHandle :=
  ⟨context.kind, ⟨context.slot⟩⟩

namespace Document

variable {d : Document} {cause : DocumentError}

theorem exists_refuses (handle : AnyHandle) (h : d.kind? handle.2.slot ≠ some handle.1) :
    ∃ cause, d.Refuses handle cause := by
  cases hkind : d.kind? handle.2.slot with
  | none => exact ⟨_, (refuses_of_none hkind).2 rfl⟩
  | some found =>
    rw [hkind] at h
    exact ⟨_, .mismatch hkind fun heq => h (congrArg some heq)⟩

/-- A context that names an object of its kind is live. -/
theorem WellFormed.exists_live (h : d.WellFormed) {context : Context}
    (hkind : d.kind? context.slot = some context.kind) : ∃ owner, Live d owner context := by
  have hinside (hcase : context.kind = .paragraph ∨ context.kind.isInline) :
      ∃ owner, Live d owner context := by
    obtain ⟨owner, hsection, hstands⟩ := h.exists_standsIn hkind hcase
    exact ⟨⟨owner⟩, hkind, hsection, .inr hstands⟩
  cases context with
  | inSection id => exact ⟨id, hkind, hkind, .inl rfl⟩
  | inParagraph id => exact hinside (.inl rfl)
  | inRun id => exact hinside (.inr rfl)
  | inHyperlink id => exact hinside (.inr rfl)

/-! ## Operations with refused handles -/

theorem perform_of_refused (operation : Operation) {handle : AnyHandle}
    (hhandle : operation.handle? = some handle) (hstyle : ¬ operation.namesNoStyle)
    (h : d.Refuses handle cause) : operation.perform d = .error cause := by
  rw [perform_eq_error_iff, if_neg hstyle]
  exact ⟨handle, hhandle, h⟩

theorem addParagraph_of_refused {id : SectionId} (h : d.Refuses ⟨_, id⟩ cause) :
    d.addParagraph id = .error cause :=
  map_eq_error_iff.1 (perform_of_refused (.addParagraph id) rfl Bool.false_ne_true h)

theorem addRun_of_refused {parent : InlineParent} (h : d.Refuses parent.handle cause)
    (format : TextFormat) : d.addRun parent format = .error cause :=
  map_eq_error_iff.1 (perform_of_refused (.addRun parent format) rfl Bool.false_ne_true h)

theorem addHyperlink_of_refused {parent : InlineParent} (h : d.Refuses parent.handle cause)
    (link : Hyperlink) : d.addHyperlink parent link = .error cause :=
  map_eq_error_iff.1 (perform_of_refused (.addHyperlink parent link) rfl Bool.false_ne_true h)

theorem addText_of_refused {parent : InlineParent} (h : d.Refuses parent.handle cause)
    (text : String) : d.addText parent text = .error cause :=
  perform_of_refused (.addText parent text) rfl Bool.false_ne_true h

theorem addLineBreak_of_refused {parent : InlineParent} (h : d.Refuses parent.handle cause) :
    d.addLineBreak parent = .error cause :=
  perform_of_refused (.addLineBreak parent) rfl Bool.false_ne_true h

theorem bind_of_error {α β : Type} {x : Except DocumentError α} (h : x = .error cause)
    (next : α → Except DocumentError β) : (x >>= next) = .error cause := by
  rw [h]
  rfl

theorem sectionOf_of_refused {id : ParagraphId} (h : d.Refuses ⟨_, id⟩ cause) :
    d.sectionOf id = .error cause :=
  bind_of_error (paragraph_eq_error_iff.2 h) _

theorem paragraphOf_of_refused (parent : InlineParent) (h : d.Refuses parent.handle cause) :
    d.paragraphOf parent = .error cause :=
  bind_of_error (checkInlineParent_eq_error_iff.2 h) _

/-- Block content in a refused context: there is no section to ask for, or it is refused itself. -/
theorem nearestSection_of_refused {context : Context} (h : d.Refuses context.handle cause) :
    d.nearestSection context = .error cause ∨
      ∃ id, d.nearestSection context = .ok id ∧ d.addParagraph id = .error cause := by
  cases context with
  | inSection id => exact .inr ⟨id, rfl, addParagraph_of_refused h⟩
  | inParagraph id => exact .inl (sectionOf_of_refused h)
  | inRun id => exact .inl (bind_of_error (paragraphOf_of_refused (.run id) h) _)
  | inHyperlink id => exact .inl (bind_of_error (paragraphOf_of_refused (.hyperlink id) h) _)

/-- Inline content in a refused context: there is no container to ask for, or it is refused
    itself. -/
theorem inlineParent_of_refused {context : Context} (h : d.Refuses context.handle cause) :
    d.inlineParent context = .error cause ∨
      ∃ parent, d.inlineParent context = .ok (parent, d) ∧ d.Refuses parent.handle cause := by
  cases context with
  | inSection id => exact .inl (bind_of_error (addParagraph_of_refused h) _)
  | inParagraph id => exact .inr ⟨.paragraph id, rfl, h⟩
  | inRun id => exact .inr ⟨.run id, rfl, h⟩
  | inHyperlink id => exact .inr ⟨.hyperlink id, rfl, h⟩

end Document

/-! ## Calls in refused contexts -/

/-- What a call gives and leaves behind in a context that is refused, by its effect. -/
def Effect.refuse (context : Context) (d : Document) (cause : DocumentError) :
    Except ConvertError Effect → Except ConvertError Context × Document
  | .ok .nothing => (.ok context, d)
  | .ok _ => (.error (.document cause), d)
  | .error reason => (.error reason, d)

section Refused

variable {d : Document} {context : Context} {place : Location} {cause : DocumentError}

theorem runOn_bind_error {α β : Type} {edit : Edit α} {reason : ConvertError} {d' : Document}
    (h : edit.runOn d = (.error reason, d')) (next : α → Edit β) :
    (edit >>= next).runOn d = (.error reason, d') := by
  rw [Edit.runOn_bind, h]

theorem runOn_perform_error {α : Type} {operation : Document → Except DocumentError (α × Document)}
    (h : operation d = .error cause) :
    (Edit.perform operation).runOn d = (.error (.document cause), d) := by
  rw [Edit.runOn_perform, h]

theorem runOn_update_error {operation : Document → Except DocumentError Document}
    (h : operation d = .error cause) :
    (Edit.update operation).runOn d = (.error (.document cause), d) := by
  rw [Edit.runOn_update, h]

theorem runOn_addStyledParagraph_of_refused {owner : SectionId}
    (h : d.addParagraph owner = .error cause) (style : String) :
    (addStyledParagraph owner style).runOn d = (.error (.document cause), d) :=
  runOn_bind_error (runOn_perform_error h) _

/-- Block content: the section is asked for first, and then gets a paragraph. -/
theorem runOn_blocks_of_refused (h : d.Refuses context.handle cause) {α : Type}
    {next : SectionId → Edit α} (hnext : ∀ owner, d.addParagraph owner = .error cause →
      (next owner).runOn d = (.error (.document cause), d)) :
    (do next (← Edit.query (·.nearestSection context))).runOn d =
      (.error (.document cause), d) := by
  rw [Edit.runOn_bind, Edit.runOn_query]
  rcases Document.nearestSection_of_refused h with hsection | ⟨owner, hsection, hadd⟩
  · rw [hsection]
  · rw [hsection]
    exact hnext owner hadd

/-- Inline content: the container is asked for first, and then gets an object. -/
theorem runOn_content_of_refused (h : d.Refuses context.handle cause) {α : Type}
    {next : InlineParent → Edit α} (hnext : ∀ parent, d.Refuses parent.handle cause →
      (next parent).runOn d = (.error (.document cause), d)) :
    (do next (← Edit.perform (·.inlineParent context))).runOn d =
      (.error (.document cause), d) := by
  rw [Edit.runOn_bind, Edit.runOn_perform]
  rcases Document.inlineParent_of_refused h with hparent | ⟨parent, hparent, hrefused⟩
  · rw [hparent]
  · rw [hparent]
    exact hnext parent hrefused

theorem runOn_heading_of_refused (h : d.Refuses context.handle cause) :
    (Handler.heading place context).runOn d =
      Effect.refuse context d cause (Role.heading.effect place context) := by
  cases context with
  | inSection id =>
    have hadd := Document.addParagraph_of_refused h
    unfold Role.effect Role.headingEffect Handler.heading
    dsimp only
    split
    · rfl
    · exact runOn_bind_error (runOn_addStyledParagraph_of_refused hadd _) _
  | _ => rfl

theorem runOn_paragraph_of_refused (h : d.Refuses context.handle cause) :
    (Handler.paragraph place context).runOn d =
      Effect.refuse context d cause (Role.paragraph.effect place context) := by
  unfold Handler.paragraph
  exact runOn_blocks_of_refused h fun owner hadd => runOn_bind_error (runOn_perform_error hadd) _

theorem runOn_horizontalRule_of_refused (h : d.Refuses context.handle cause) :
    (Handler.horizontalRule place context).runOn d =
      Effect.refuse context d cause (Role.horizontalRule.effect place context) := by
  unfold Handler.horizontalRule
  exact runOn_blocks_of_refused h fun owner hadd =>
    runOn_bind_error (runOn_addStyledParagraph_of_refused hadd _) _

theorem runOn_addRun_of_refused (h : d.Refuses context.handle cause) (format : TextFormat)
    {α : Type} (next : RunId → Edit α) :
    (do let parent ← Edit.perform (·.inlineParent context)
        next (← Edit.perform (·.addRun parent format))).runOn d =
      (.error (.document cause), d) :=
  runOn_content_of_refused h fun _ hparent =>
    runOn_bind_error (runOn_perform_error (Document.addRun_of_refused hparent format)) _

theorem runOn_formattedText_of_refused (h : d.Refuses context.handle cause) (format : TextFormat) :
    (Handler.formattedText format place context).runOn d =
      Effect.refuse context d cause ((Role.formattedText format).effect place context) := by
  have hadd := runOn_addRun_of_refused h format fun run => pure (Context.inRun run)
  cases context with
  | inRun id =>
    have happly : d.applyFormat id format = .error cause :=
      Document.updateRun_eq_error_iff.2 h
    exact runOn_bind_error (runOn_update_error happly) _
  | inSection id => exact hadd
  | inParagraph id => exact hadd
  | inHyperlink id => exact hadd

theorem runOn_hyperlink_of_refused (h : d.Refuses context.handle cause) :
    (Handler.hyperlink place context).runOn d =
      Effect.refuse context d cause (Role.hyperlink.effect place context) := by
  unfold Handler.hyperlink
  exact runOn_content_of_refused h fun parent hparent =>
    runOn_bind_error (runOn_perform_error (Document.addHyperlink_of_refused hparent _)) _

theorem runOn_span_of_refused (h : d.Refuses context.handle cause) (reserved : Option String) :
    (Handler.span reserved place context).runOn d =
      Effect.refuse context d cause ((Role.span reserved).effect place context) := by
  unfold Handler.span Role.effect
  dsimp only
  split
  · rfl
  · exact runOn_addRun_of_refused h .noUnderline _

theorem runOn_lineBreak_of_refused (h : d.Refuses context.handle cause) :
    (Handler.lineBreak place context).runOn d =
      Effect.refuse context d cause (Role.lineBreak.effect place context) := by
  have hbreak (parent : InlineParent) (hparent : d.Refuses parent.handle cause) :
      (do Edit.update (·.addLineBreak parent); return context : Edit Context).runOn d =
        (.error (.document cause), d) :=
    runOn_bind_error (runOn_update_error (Document.addLineBreak_of_refused hparent)) _
  unfold Handler.lineBreak Role.effect Role.lineBreakEffect
  cases place.nextSibling? with
  | none => rfl
  | some next =>
    dsimp only
    by_cases hlist : (next.node.isElement "ul" || next.node.isElement "ol") = true
    · rw [if_pos hlist, if_pos hlist]
      rfl
    · rw [if_neg hlist, if_neg hlist]
      cases context with
      | inSection id =>
        dsimp only
        split
        · rfl
        · exact runOn_bind_error (runOn_perform_error (Document.addParagraph_of_refused h)) _
      | inParagraph id => exact hbreak (.paragraph id) h
      | inRun id => exact hbreak (.run id) h
      | inHyperlink id => exact hbreak (.hyperlink id) h

theorem runOn_text_of_refused (h : d.Refuses context.handle cause) :
    (Handler.text place context).runOn d =
      Effect.refuse context d cause (Role.text.effect place context) := by
  have htext (parent : InlineParent) (hparent : d.Refuses parent.handle cause) (text : String)
      (result : Context) :
      (do Edit.update (·.addText parent text); return result : Edit Context).runOn d =
        (.error (.document cause), d) :=
    runOn_bind_error (runOn_update_error (Document.addText_of_refused hparent text)) _
  unfold Handler.text Role.effect Role.contribution?
  dsimp only
  by_cases hspacer : (place.parent?.map fun parent => parent.node.isSpacer).getD false = true
  · rw [if_pos hspacer, if_pos hspacer]
    rfl
  · rw [if_neg hspacer, if_neg hspacer]
    by_cases hblank : (visibleText (place.node.text?.getD "")).toList.all isVoidBlank = true
    · rw [if_pos hblank, if_pos hblank]
      rfl
    · rw [if_neg hblank, if_neg hblank]
      cases context with
      | inSection id =>
        exact runOn_bind_error (runOn_perform_error (Document.addParagraph_of_refused h)) _
      | inParagraph id => exact htext (.paragraph id) h _ _
      | inRun id => exact htext (.run id) h _ _
      | inHyperlink id => exact htext (.hyperlink id) h _ _

theorem runOn_listItem_of_refused (h : d.Refuses context.handle cause) :
    (Handler.listItem place context).runOn d =
      Effect.refuse context d cause (Role.listItem.effect place context) := by
  unfold Handler.listItem Role.effect
  cases context with
  | inSection id =>
    have hadd := Document.addParagraph_of_refused h
    dsimp only
    rw [Edit.runOn_bind, Edit.runOn_pure]
    dsimp only
    split
    · exact runOn_bind_error (runOn_addStyledParagraph_of_refused hadd _) _
    · exact runOn_bind_error (runOn_addStyledParagraph_of_refused hadd _) _
  | inParagraph id =>
    have howner : d.sectionOf id = .error cause := Document.sectionOf_of_refused h
    dsimp only
    rw [Edit.runOn_bind, Edit.runOn_query, howner]
    rfl
  | inRun id => rfl
  | inHyperlink id => rfl

/-- **In a context that is refused a usual handler changes nothing**: it gives the context back
    where its effect is to add nothing, and fails everywhere else. -/
theorem Role.runOn_handler_of_refused (h : d.Refuses context.handle cause) (role : Role) :
    (role.handler place context).runOn d =
      Effect.refuse context d cause (role.effect place context) := by
  cases role with
  | heading => exact runOn_heading_of_refused h
  | paragraph => exact runOn_paragraph_of_refused h
  | formattedText format => exact runOn_formattedText_of_refused h format
  | hyperlink => exact runOn_hyperlink_of_refused h
  | span reserved => exact runOn_span_of_refused h reserved
  | horizontalRule => exact runOn_horizontalRule_of_refused h
  | lineBreak => exact runOn_lineBreak_of_refused h
  | text => exact runOn_text_of_refused h
  | listItem => exact runOn_listItem_of_refused h

end Refused

/-! ## Calls in any context -/

/-- A call in a live context: it fails and does nothing, or gives the context it was given or one
    that is new. -/
theorem Live.perform {d : Document} {owner : SectionId} {context : Context}
    (h : Live d owner context) (effect : Except ConvertError Effect) :
    (∃ cause, Effect.perform owner context d effect = (.error cause, d)) ∨
      ∃ result d', Effect.perform owner context d effect = (.ok result, d') ∧
        (result = context ∨ d.size ≤ result.slot ∧ d'.kind? result.slot = some result.kind) := by
  cases effect with
  | error cause => exact .inl ⟨cause, rfl⟩
  | ok effect =>
    refine .inr ⟨_, _, rfl, (effect.result_eq_or_le context d.size).imp id fun hle => ?_⟩
    exact ⟨hle, (h.result effect).isKind⟩

/-- A call in a refused context: it fails or gives the context back, and does nothing. -/
theorem Effect.refuse_cases (context : Context) (d : Document) (cause : DocumentError)
    (effect : Except ConvertError Effect) :
    (∃ reason, Effect.refuse context d cause effect = (.error reason, d)) ∨
      Effect.refuse context d cause effect = (.ok context, d) := by
  cases effect with
  | error reason => exact .inl ⟨reason, rfl⟩
  | ok effect =>
    cases effect with
    | nothing => exact .inr rfl
    | _ => exact .inl ⟨_, rfl⟩

/-- **Handlers are atomic in any context**, also in one that comes from elsewhere or names nothing.
    A call of a usual handler that fails leaves the document exactly as it was. One that succeeds
    gives the context it was given, or one for an object that it has created, of the kind that the
    context says. -/
theorem handler_atomic {d : Document} (hd : d.Reachable) (role : Role) (place : Location)
    (context : Context) :
    (∀ cause d', (role.handler place context).runOn d = (.error cause, d') → d' = d) ∧
    ∀ result d', (role.handler place context).runOn d = (.ok result, d') →
      result = context ∨
        d.kind? result.slot = none ∧ d'.kind? result.slot = some result.kind := by
  have hcases : (∃ cause, (role.handler place context).runOn d = (.error cause, d)) ∨
      ∃ result d', (role.handler place context).runOn d = (.ok result, d') ∧
        (result = context ∨ d.size ≤ result.slot ∧ d'.kind? result.slot = some result.kind) := by
    by_cases hkind : d.kind? context.slot = some context.kind
    · obtain ⟨owner, hlive⟩ := hd.wellFormed.exists_live hkind
      rw [role.runOn_handler hlive]
      exact hlive.perform _
    · obtain ⟨cause, hrefused⟩ := Document.exists_refuses context.handle hkind
      rw [role.runOn_handler_of_refused hrefused]
      exact (Effect.refuse_cases context d cause _).imp id fun heq => ⟨context, d, heq, .inl rfl⟩
  constructor
  · intro cause d' herror
    rcases hcases with ⟨other, hfails⟩ | ⟨result, other, hsucceeds, -⟩
    · rw [hfails] at herror
      exact (Prod.mk.inj herror).2.symm
    · rw [hsucceeds] at herror
      exact absurd (Prod.mk.inj herror).1 nofun
  · intro result d' hok
    rcases hcases with ⟨other, hfails⟩ | ⟨given, other, hsucceeds, hgiven⟩
    · rw [hfails] at hok
      exact absurd (Prod.mk.inj hok).1 nofun
    · rw [hsucceeds] at hok
      obtain ⟨hresult, rfl⟩ := Prod.mk.inj hok
      obtain rfl := Except.ok.inj hresult
      refine hgiven.imp id fun hnew => ⟨?_, hnew.2⟩
      rw [Document.kind?, Document.object?_eq_none_iff.2 hnew.1]
      rfl

/-- An item in a section brings three paragraphs and gives the second. In a run that is none, and
    for a link in a section that is none, nothing is left behind. -/
theorem handler_atomic_item :
    let d : Document := Document.empty.push 0 .sectionBlock
    let d' := ((d.push 1 (.paragraph (styled listStartStyle))).push 1
      (.paragraph (itemParagraph ⟨.ordered, true, true⟩))).push 1 (.paragraph (styled listEndStyle))
    let item : Location :=
      ⟨.branch (.element "li" []) [], [⟨.element "ol" [], [], []⟩]⟩
    d.Reachable ∧
      (Role.listItem.handler item (.inSection ⟨1⟩)).runOn d = (.ok (.inParagraph ⟨3⟩), d') ∧
      d.kind? 3 = none ∧ d'.kind? 3 = some .paragraph ∧
      (∃ cause after, (Role.listItem.handler item (.inRun ⟨1⟩)).runOn d = (.error cause, after) ∧
        after = d) ∧
      ∃ cause after, (Role.hyperlink.handler item (.inSection ⟨0⟩)).runOn d =
        (.error cause, after) ∧ after = d := by
  intro d d' item
  have hreachable : d.Reachable := .perform .addSection .empty rfl
  have hitem : (Role.listItem.handler item (.inSection ⟨1⟩)).runOn d =
      (.ok (.inParagraph ⟨3⟩), d') := by decide +kernel
  have hrun : (Role.listItem.handler item (.inRun ⟨1⟩)).runOn d =
      (.error (.unexpectedContext (some (.element "li")) .aSectionOrParagraph .run), d) := by
    decide +kernel
  have hlink : (Role.hyperlink.handler item (.inSection ⟨0⟩)).runOn d =
      (.error (.document (.kindMismatch .sectionBlock .document)), d) := by decide +kernel
  obtain ⟨-, hgives⟩ := handler_atomic hreachable .listItem item (.inSection ⟨1⟩)
  obtain ⟨hrunFails, -⟩ := handler_atomic hreachable .listItem item (.inRun ⟨1⟩)
  obtain ⟨hlinkFails, -⟩ := handler_atomic hreachable .hyperlink item (.inSection ⟨0⟩)
  have hnew := (hgives _ _ hitem).resolve_left nofun
  exact ⟨hreachable, hitem, hnew.1, hnew.2, ⟨_, d, hrun, hrunFails _ d hrun⟩,
    ⟨_, d, hlink, hlinkFails _ d hlink⟩⟩

end Galley
