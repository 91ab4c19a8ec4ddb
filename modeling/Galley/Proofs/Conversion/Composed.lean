import Galley.Proofs.Conversion.UsualRoles
import Galley.Proofs.Document.Owners

/-!
  Conversions with handlers of any kind, as long as they work on the document through its
  operations.

  `Edit.Composed` holds of the computations built from operations, questions and failures; it says
  nothing about the handles they use. One runs operations and nothing else, so it leads from
  reachable documents to reachable ones, and no owner is found missing on the way
  (`Edit.Composed.runOn`, by induction over how the computation is built). A walk whose handlers
  are composed is composed (`composed_walkSiblings`, by the recursion of the walk), and the usual
  handlers are (`Role.composed_handler`). `Document.Made` takes in the documents that operations
  and such conversions make in any order, and `shape_of_made` says what shape they have.
-/

namespace Galley

/-- The error of an owner that is not there. -/
def ConvertError.isDetached : ConvertError → Bool
  | .document cause => cause.isDetached
  | _ => false

namespace Edit

/-- The second edit starts where the first has failed, from the document that this leaves. -/
theorem runOn_tryCatch {α : Type} (edit : Edit α) (recover : ConvertError → Edit α)
    (d : Document) :
    (tryCatch edit recover).runOn d =
      match edit.runOn d with
      | (.ok value, d') => (.ok value, d')
      | (.error cause, d') => (recover cause).runOn d' := by
  simp only [runOn, tryCatch, tryCatchThe, MonadExceptOf.tryCatch, ExceptT.tryCatch, ExceptT.run,
    ExceptT.mk, bind, StateT.bind, StateT.run]
  cases edit d with
  | mk outcome d' => cases outcome <;> rfl

/-- The computations that are built from the operations on documents, the questions that these
    answer, and failures. The error of a missing owner is neither made up nor recovered from. -/
inductive Composed : {α : Type} → Edit α → Prop where
  | pure {α : Type} (value : α) : Composed (pure value : Edit α)
  | throw {α : Type} {cause : ConvertError} (hcause : ¬ cause.isDetached) :
      Composed (throw cause : Edit α)
  | bind {α β : Type} {edit : Edit α} {next : α → Edit β} (hedit : Composed edit)
      (hnext : ∀ value, Composed (next value)) : Composed (edit >>= next)
  | tryCatch {α : Type} {edit : Edit α} {recover : ConvertError → Edit α}
      (hedit : Composed edit)
      (hrecover : ∀ cause, ¬ cause.isDetached → Composed (recover cause)) :
      Composed (tryCatch edit recover)
  /-- An operation, with whatever it answers besides the changed document. -/
  | perform {α : Type} {run : Document → Except DocumentError (α × Document)}
      (operation : Operation) (hrun : ∀ d, (run d).map Prod.snd = operation.perform d) :
      Composed (perform run)
  | query {α : Type} (question : Question α) : Composed (query question.answer)

namespace Composed

/-- A composed edit leads from reachable documents to reachable ones, and misses no owner. -/
theorem runOn {α : Type} {edit : Edit α} (h : edit.Composed) {d : Document} (hd : d.Reachable) :
    (edit.runOn d).2.Reachable ∧
      ∀ cause, (edit.runOn d).1 = .error cause → ¬ cause.isDetached := by
  induction h generalizing d with
  | pure value => exact ⟨hd, fun cause hcause => absurd hcause nofun⟩
  | throw hcause =>
    refine ⟨hd, fun other hother => ?_⟩
    obtain rfl := Except.error.inj hother
    exact hcause
  | @bind α β edit next _ _ ih ihnext =>
    have hfirst := ih hd
    rw [Edit.runOn_bind]
    rcases hedit : edit.runOn d with ⟨outcome, d'⟩
    rw [hedit] at hfirst
    cases outcome with
    | ok value => exact ihnext value hfirst.1
    | error cause =>
      refine ⟨hfirst.1, fun other hother => ?_⟩
      obtain rfl := Except.error.inj hother
      exact hfirst.2 cause rfl
  | @tryCatch α edit recover _ _ ih ihrecover =>
    have hfirst := ih hd
    rw [Edit.runOn_tryCatch]
    rcases hedit : edit.runOn d with ⟨outcome, d'⟩
    rw [hedit] at hfirst
    cases outcome with
    | ok value => exact ⟨hfirst.1, fun cause hcause => absurd hcause nofun⟩
    | error cause => exact ihrecover cause (hfirst.2 cause rfl) hfirst.1
  | @perform α run operation hrun =>
    have hperform := hrun d
    rw [Edit.runOn_perform]
    cases hresult : run d with
    | ok result =>
      rw [hresult] at hperform
      exact ⟨.perform operation hd hperform.symm, fun cause hcause => absurd hcause nofun⟩
    | error cause =>
      rw [hresult] at hperform
      have herror : operation.perform d = .error cause := hperform.symm
      refine ⟨hd, fun other hother => ?_⟩
      obtain rfl := Except.error.inj hother
      exact Document.perform_not_detached herror
  | @query α question =>
    rw [Edit.runOn_query]
    cases hanswer : question.answer d with
    | ok value => exact ⟨hd, fun cause hcause => absurd hcause nofun⟩
    | error cause =>
      refine ⟨hd, fun other hother => ?_⟩
      obtain rfl := Except.error.inj hother
      exact hd.wellFormed.answer_not_detached hanswer

/-! ## Composed handlers -/

/-- An operation that only changes the document. -/
theorem update {change : Document → Except DocumentError Document} (operation : Operation)
    (hchange : ∀ d, change d = operation.perform d) : (update change).Composed := by
  refine .perform operation fun d => ?_
  rw [← hchange]
  cases change d <;> rfl

end Composed

/-- An operation that gives the document back is a question. -/
theorem perform_eq_query {α : Type} (question : Document → Except DocumentError α) :
    perform (fun d => do return (← question d, d)) = query question := by
  refine congrArg perform (funext fun d => ?_)
  cases question d <;> rfl

/-- Two questions, the second with what the first has answered. -/
theorem query_bind {α β : Type} (question : Document → Except DocumentError α)
    (next : α → Document → Except DocumentError β) :
    query (fun d => question d >>= fun value => next value d) =
      query question >>= fun value => query (next value) := by
  refine ext fun d => ?_
  rw [runOn_query, runOn_bind, runOn_query]
  cases hanswer : question d with
  | error cause => rfl
  | ok value =>
    show _ = (query (next value)).runOn d
    rw [runOn_query]
    rfl

end Edit

section Handlers

open Edit

theorem composed_addParagraph (owner : SectionId) : (perform (·.addParagraph owner)).Composed :=
  .perform (.addParagraph owner) fun _ => rfl

theorem composed_addStyledParagraph (owner : SectionId) (style : String) :
    (addStyledParagraph owner style).Composed :=
  .bind (composed_addParagraph owner) fun paragraph =>
    .bind (.update (.setStyle paragraph style) fun _ => rfl) fun _ => .pure paragraph

theorem composed_nearestSection (context : Context) :
    (query (·.nearestSection context)).Composed := by
  cases context with
  | inSection id => exact .pure id
  | inParagraph id => exact .query (.sectionOf id)
  | inRun id =>
    have hsplit := query_bind (·.paragraphOf (.run id)) fun paragraph d => d.sectionOf paragraph
    exact hsplit ▸ .bind (.query (.paragraphOf (.run id))) fun paragraph =>
      .query (.sectionOf paragraph)
  | inHyperlink id =>
    have hsplit := query_bind (·.paragraphOf (.hyperlink id)) fun paragraph d =>
      d.sectionOf paragraph
    exact hsplit ▸ .bind (.query (.paragraphOf (.hyperlink id))) fun paragraph =>
      .query (.sectionOf paragraph)

theorem composed_inlineParent (context : Context) :
    (perform (·.inlineParent context)).Composed := by
  cases context with
  | inSection id =>
    refine .perform (.addParagraph id) fun d => ?_
    show (d.addParagraph id >>= fun added =>
      Except.ok (InlineParent.paragraph added.1, added.2)).map Prod.snd = _
    rw [Operation.perform]
    cases d.addParagraph id <;> rfl
  | inParagraph id => exact .pure (InlineParent.paragraph id)
  | inRun id => exact .pure (InlineParent.run id)
  | inHyperlink id => exact .pure (InlineParent.hyperlink id)

theorem composed_obtainParagraph (context : Context) :
    (perform (·.obtainParagraph context)).Composed := by
  cases context with
  | inSection id => exact composed_addParagraph id
  | inParagraph id => exact .pure id
  | inRun id =>
    have hquery := perform_eq_query (·.paragraphOf (.run id))
    exact hquery ▸ .query (.paragraphOf (.run id))
  | inHyperlink id =>
    have hquery := perform_eq_query (·.paragraphOf (.hyperlink id))
    exact hquery ▸ .query (.paragraphOf (.hyperlink id))

theorem composed_resolve (into : Target) : (query (·.resolve into)).Composed := by
  cases into with
  | intoSection id =>
    have hsplit := query_bind (·.checkSection id) fun _ _ => .ok (Context.inSection id)
    exact hsplit ▸ .bind (.query (.checkSection id)) fun _ => .pure (Context.inSection id)
  | intoParagraph id =>
    have hsplit := query_bind (·.paragraph id) fun _ _ => .ok (Context.inParagraph id)
    exact hsplit ▸ .bind (.query (.paragraph id)) fun _ => .pure (Context.inParagraph id)

theorem composed_heading (place : Location) (context : Context) :
    (Handler.heading place context).Composed := by
  unfold Handler.heading
  split
  · have hrest (owner : SectionId) (style : String) :
        (do return .inParagraph (← addStyledParagraph owner style) : Edit Context).Composed :=
      .bind (composed_addStyledParagraph owner style) fun paragraph => .pure _
    dsimp only
    split
    · exact .bind (.throw Bool.false_ne_true) fun _ => hrest _ _
    · exact hrest _ _
  · exact .throw Bool.false_ne_true

theorem composed_paragraph (place : Location) (context : Context) :
    (Handler.paragraph place context).Composed := by
  unfold Handler.paragraph
  refine .bind (composed_nearestSection context) fun owner =>
    .bind (composed_addParagraph owner) fun paragraph => ?_
  cases (place.node.attr? "style").bind textAlignment with
  | none => exact .pure _
  | some alignment =>
    exact .bind (.update (.updateParagraph paragraph _) fun _ => rfl) fun _ => .pure _

theorem composed_addRun (parent : InlineParent) (format : TextFormat) :
    (perform (·.addRun parent format)).Composed :=
  .perform (.addRun parent format) fun _ => rfl

theorem composed_addText (parent : InlineParent) (text : String) :
    (Edit.update (·.addText parent text)).Composed :=
  .update (.addText parent text) fun _ => rfl

theorem composed_addLineBreak (parent : InlineParent) :
    (Edit.update (·.addLineBreak parent)).Composed :=
  .update (.addLineBreak parent) fun _ => rfl

theorem composed_formattedText (format : TextFormat) (place : Location) (context : Context) :
    (Handler.formattedText format place context).Composed := by
  have hnew : (do
      let parent ← perform (·.inlineParent context)
      return .inRun (← perform (·.addRun parent format)) : Edit Context).Composed :=
    .bind (composed_inlineParent context) fun parent =>
      .bind (composed_addRun parent format) fun run => .pure _
  cases context with
  | inRun run => exact .bind (.update (.applyFormat run format) fun _ => rfl) fun _ => .pure _
  | inSection id => exact hnew
  | inParagraph id => exact hnew
  | inHyperlink id => exact hnew

theorem composed_hyperlink (place : Location) (context : Context) :
    (Handler.hyperlink place context).Composed :=
  .bind (composed_inlineParent context) fun parent =>
    .bind (.perform (.addHyperlink parent _) fun _ => rfl) fun _ => .pure _

theorem composed_span (reserved : Option String) (place : Location) (context : Context) :
    (Handler.span reserved place context).Composed := by
  unfold Handler.span
  split
  · exact .pure context
  · refine .bind (composed_inlineParent context) fun parent =>
      .bind (composed_addRun parent .noUnderline) fun run => ?_
    cases Handler.spanStyle place.node reserved with
    | none => exact .pure _
    | some style => exact .bind (.update (.updateRun run _) fun _ => rfl) fun _ => .pure _

theorem composed_horizontalRule (place : Location) (context : Context) :
    (Handler.horizontalRule place context).Composed :=
  .bind (composed_nearestSection context) fun owner =>
    .bind (composed_addStyledParagraph owner _) fun _ => .pure _

theorem composed_lineBreak (place : Location) (context : Context) :
    (Handler.lineBreak place context).Composed := by
  unfold Handler.lineBreak
  cases place.nextSibling? with
  | none => exact .pure context
  | some next =>
    dsimp only
    split
    · exact .pure context
    · cases context with
      | inRun id => exact .bind (composed_addLineBreak _) fun _ => .pure _
      | inParagraph id => exact .bind (composed_addLineBreak _) fun _ => .pure _
      | inHyperlink id => exact .bind (composed_addLineBreak _) fun _ => .pure _
      | inSection owner =>
        dsimp only
        split
        · exact .pure _
        · exact .bind (composed_addParagraph owner) fun paragraph =>
            .bind (composed_addLineBreak _) fun _ => .pure _

theorem composed_text (place : Location) (context : Context) :
    (Handler.text place context).Composed := by
  unfold Handler.text
  dsimp only
  have hloose (text : String) : (do
      let paragraph ← perform (·.obtainParagraph context)
      Edit.update (·.addText (.paragraph paragraph) text)
      return .inParagraph paragraph : Edit Context).Composed :=
    .bind (composed_obtainParagraph context) fun paragraph =>
      .bind (composed_addText _ text) fun _ => .pure _
  split
  · exact .pure context
  · split
    · exact .pure context
    · cases context with
      | inRun id => exact .bind (composed_addText _ _) fun _ => .pure _
      | inHyperlink id => exact .bind (composed_addText _ _) fun _ => .pure _
      | inSection id => exact hloose _
      | inParagraph id => exact hloose _

theorem composed_itemAndEnd (owner : SectionId) (position : ItemPosition) :
    (do
      let item ← addStyledParagraph owner position.kind.style
      Edit.update (·.updateParagraph item fun value =>
        { value with listInfo := some ⟨position.kind.listType, !position.isFirst⟩ })
      if position.isLast then
        let _ ← addStyledParagraph owner listEndStyle
      return .inParagraph item : Edit Context).Composed := by
  refine .bind (composed_addStyledParagraph owner _) fun item =>
    .bind (.update (.updateParagraph item _) fun _ => rfl) fun _ => ?_
  cases position.isLast with
  | true => exact .bind (composed_addStyledParagraph owner _) fun _ => .pure _
  | false => exact .pure _

theorem composed_itemParagraphs (owner : SectionId) (position : ItemPosition) :
    (do
      if position.isFirst then
        let _ ← addStyledParagraph owner listStartStyle
      let item ← addStyledParagraph owner position.kind.style
      Edit.update (·.updateParagraph item fun value =>
        { value with listInfo := some ⟨position.kind.listType, !position.isFirst⟩ })
      if position.isLast then
        let _ ← addStyledParagraph owner listEndStyle
      return .inParagraph item : Edit Context).Composed := by
  by_cases hfirst : position.isFirst = true
  · rw [if_pos hfirst]
    exact .bind (composed_addStyledParagraph owner _) fun _ => composed_itemAndEnd owner position
  · rw [if_neg hfirst]
    exact composed_itemAndEnd owner position

theorem composed_listItem (place : Location) (context : Context) :
    (Handler.listItem place context).Composed := by
  unfold Handler.listItem
  cases context with
  | inSection id => exact composed_itemParagraphs id _
  | inParagraph id =>
    exact .bind (.query (.sectionOf id)) fun owner => composed_itemParagraphs owner _
  | inRun id => exact .bind (.throw Bool.false_ne_true) fun owner => composed_itemParagraphs owner _
  | inHyperlink id =>
    exact .bind (.throw Bool.false_ne_true) fun owner => composed_itemParagraphs owner _

/-- The usual handlers work on documents by operations alone. -/
theorem Role.composed_handler (role : Role) (place : Location) (context : Context) :
    (role.handler place context).Composed := by
  cases role with
  | heading => exact composed_heading place context
  | paragraph => exact composed_paragraph place context
  | formattedText format => exact composed_formattedText format place context
  | hyperlink => exact composed_hyperlink place context
  | span reserved => exact composed_span reserved place context
  | horizontalRule => exact composed_horizontalRule place context
  | lineBreak => exact composed_lineBreak place context
  | text => exact composed_text place context
  | listItem => exact composed_listItem place context

end Handlers

/-! ## Composed conversions -/

/-- All handlers of the registry are composed. -/
def Registry.Composed (registry : Registry) : Prop :=
  ∀ node handler, registry.handler? node = some handler →
    ∀ place context, (handler place context).Composed

theorem Registry.Assembled.composed {registry : Registry} {roles : TagKey → Option Role}
    (h : registry.Assembled roles) : registry.Composed := by
  intro node handler hhandler
  rw [h.handler?, Option.map_eq_some_iff] at hhandler
  obtain ⟨role, -, rfl⟩ := hhandler
  exact role.composed_handler

theorem Registry.Composed.insert {registry : Registry} (h : registry.Composed) (key : TagKey)
    {handler : Handler} (hhandler : ∀ place context, (handler place context).Composed) :
    (registry.insert key handler).Composed := by
  intro node other hother
  obtain ⟨found, hfound, hother⟩ := Option.bind_eq_some_iff.1 hother
  rw [Registry.find?_insert] at hother
  split at hother
  · exact Option.some.inj hother ▸ hhandler
  · exact h node other (Option.bind_eq_some_iff.2 ⟨found, hfound, hother⟩)

section Walk

variable {registry : Registry} (limit : Nat)

mutual

theorem composed_walkInside (h : registry.Composed) (depth : Nat) (crumbs : List Crumb)
    (context : Context) (node : Node) :
    (walkInside registry limit depth crumbs context node).Composed :=
  match node with
  | .text _ => .pure 0
  | .comment _ => .pure 0
  | .branch label nodes => by
    rw [walkInside]
    split
    · exact .pure 0
    · split
      · exact .throw Bool.false_ne_true
      · exact composed_walkSiblings h depth label crumbs [] ⟨context, none⟩ nodes

theorem composed_walkSiblings (h : registry.Composed) (depth : Nat) (label : Label)
    (crumbs : List Crumb) (before : List Node) (cursor : Cursor) (nodes : List Node) :
    (walkSiblings registry limit depth label crumbs before cursor nodes).Composed :=
  match nodes with
  | [] => .pure 0
  | node :: after => by
    rw [walkSiblings]
    cases hhandler : registry.handler? node with
    | none =>
      exact .bind (composed_walkInside h _ _ _ node) fun inside =>
        .bind (composed_walkSiblings h _ _ _ _ _ after) fun rest => .pure _
    | some handler =>
      exact .bind (h node handler hhandler _ _) fun result =>
        .bind (composed_walkInside h _ _ _ node) fun inside =>
          .bind (composed_walkSiblings h _ _ _ _ _ after) fun rest => .pure _

end

end Walk

/-- A conversion with composed handlers is composed. -/
theorem composed_insertInto {conversion : Conversion}
    (h : conversion.converter.registry.Composed) (into : Target) :
    (conversion.insertInto into).Composed :=
  .bind (composed_resolve into) fun context =>
    .bind (composed_walkInside _ h _ _ context _) fun _ => .pure ()

/-! ## Documents that conversions make -/

/-- The documents that operations and conversions make out of the empty one, whatever handles and
    targets they are given. A conversion may fail: what it did before stays. -/
inductive Document.Made : Document → Prop where
  | empty : Made .empty
  | perform {d d' : Document} (operation : Operation) (h : Made d)
      (hperform : operation.perform d = .ok d') : Made d'
  | insertInto {d : Document} (conversion : Conversion) (into : Target) (h : Made d)
      (hcomposed : conversion.converter.registry.Composed) :
      Made ((conversion.insertInto into).runOn d).2

/-- Conversions reach no documents that operations do not. -/
theorem Document.Made.reachable {d : Document} (h : d.Made) : d.Reachable := by
  induction h with
  | empty => exact .empty
  | perform operation _ hperform ih => exact .perform operation ih hperform
  | insertInto conversion into _ hcomposed ih =>
    exact ((composed_insertInto hcomposed into).runOn ih).1

/-- **The shape of every document**, whatever operations and conversions have made it. Its objects
    form a tree of sections, paragraphs and inline content (`TreeShape`), every paragraph has its
    section and every inline parent its paragraph (`OwnersFound`), and no operation, no question
    and no conversion ends with the error of an owner that is not there. -/
theorem shape_of_made {d : Document} (h : d.Made) :
    d.TreeShape ∧ d.OwnersFound ∧
      (∀ (operation : Operation) cause, operation.perform d = .error cause →
        ¬ cause.isDetached) ∧
      (∀ (α : Type) (question : Question α) cause, question.answer d = .error cause →
        ¬ cause.isDetached) ∧
      ∀ (conversion : Conversion) into cause, conversion.converter.registry.Composed →
        ((conversion.insertInto into).runOn d).1 = .error cause → ¬ cause.isDetached := by
  have hd := h.reachable
  refine ⟨hd.wellFormed.treeShape, hd.wellFormed.ownersFound, ?_, ?_, ?_⟩
  · exact fun operation cause => Document.perform_not_detached
  · exact fun α question cause => hd.wellFormed.answer_not_detached
  · exact fun conversion into cause hcomposed =>
      ((composed_insertInto hcomposed into).runOn hd).2 cause

/-- A handler that makes a heading where one can stand, and elsewhere sets its content in bold. -/
theorem shape_of_made_heading_or_bold :
    let handler : Handler := fun place context =>
      tryCatch (Handler.heading place context) fun _ => Handler.formattedText .bold place context
    let registry := Registry.empty.insert (.element "h1") handler
    let root : Location :=
      ⟨.branch .fragment [.branch (.element "h1" []) [.branch (.element "h1" []) []]], []⟩
    let d := ((Conversion.insertInto ⟨⟨registry, {}⟩, root⟩ (.intoSection ⟨1⟩)).runOn
      (Document.empty.push 0 .sectionBlock)).2
    d.Made ∧ d.TreeShape ∧ d.kind? 3 = some .run ∧ (∃ id, d.paragraphOf (.run ⟨3⟩) = .ok id) ∧
      Operation.perform d (.addText (.run ⟨2⟩) "x") = .error (.kindMismatch .run .paragraph) ∧
      ¬ (DocumentError.kindMismatch .run .paragraph).isDetached := by
  intro handler registry root d
  have hcomposed : registry.Composed :=
    Registry.Assembled.empty.composed.insert _ fun place context =>
      .tryCatch (composed_heading place context) fun _ _ =>
        composed_formattedText .bold place context
  have hmade : d.Made :=
    .insertInto ⟨⟨registry, {}⟩, root⟩ (.intoSection ⟨1⟩)
      (.perform .addSection .empty rfl) hcomposed
  obtain ⟨hshape, howners, hoperation, -, -⟩ := shape_of_made hmade
  have hkind : d.kind? 3 = some .run := by decide +kernel
  have hmismatch :
      Operation.perform d (.addText (.run ⟨2⟩) "x") = .error (.kindMismatch .run .paragraph) := by
    decide +kernel
  obtain ⟨id, hid, -⟩ := howners.paragraphOf (.run ⟨3⟩) hkind
  exact ⟨hmade, hshape, hkind, ⟨id, hid⟩, hmismatch, hoperation _ _ hmismatch⟩

end Galley
