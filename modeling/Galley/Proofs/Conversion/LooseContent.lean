import Galley.Proofs.Conversion.InlineContent

/-!
  The paragraphs that a section gets for markup without blocks.

  `Node.looseAll` says without a walk what these paragraphs hold. A node that adds something opens a
  paragraph of its own, and a node that adds nothing leaves that to what is inside it; but when a
  text has opened a paragraph and the node right after it is handled, that and all nodes after it
  go into the same paragraph. Each step in the section comes to one in the paragraph that it opens
  (`exists_effect_opens`), so that the walk adds just these paragraphs (`walkSiblings_eq_loose`).
  They hold something, and their texts are those of the markup in order (`insertInto_loose`).
-/

namespace Galley

/-! ## What the markup says -/

namespace Node

/-- Whether the node has a handler, given that it is no block. -/
def isInline (node : Node) : Bool :=
  node.isText || node.isElement "a" || node.isElement "span" || node.isElement "br" ||
    node.format?.isSome

/-- Whether the node opens a paragraph where it stands in a section: it adds something itself.
    `inSpacer` says whether its parent is a spacer, and `next?` is the sibling after it. -/
def opens (inSpacer : Bool) (next? : Option Node) (node : Node) : Bool :=
  (node.text?.any fun content => hasContent (visibleText content)) && !inSpacer ||
    node.isElement "a" || node.isElement "span" && !node.isSpacer || node.format?.isSome ||
    node.isElement "br" && next?.any fun next =>
      !next.isElement "ul" && !next.isElement "ol" && !next.isElement "br"

mutual

/-- What is in the paragraphs that a node in a section gets. -/
def loose (reserved : Option String) (inSpacer : Bool) (next? : Option Node) :
    Node → List (List InlineView)
  | .text content =>
    if opens inSpacer next? (.text content) then [[.text (visibleText content)]] else []
  | .comment _ => []
  | .branch label nodes =>
    let node : Node := .branch label nodes
    if node.opens inSpacer next? then [(node.rendered reserved false inSpacer next?).content]
    else looseAll reserved node.isSpacer nodes

/-- What is in the paragraphs that siblings in a section get. -/
def looseAll (reserved : Option String) (inSpacer : Bool) : List Node → List (List InlineView)
  | [] => []
  | node :: after =>
    if node.isText && node.opens inSpacer after.head? && after.head?.any isInline then
      [(renderedAll reserved false inSpacer (node :: after)).content]
    else loose reserved inSpacer after.head? node ++ looseAll reserved inSpacer after

end

variable {node : Node} {inSpacer : Bool} {next? : Option Node}

theorem isInline_of_opens (h : node.opens inSpacer next?) : node.isInline := by
  unfold opens at h
  unfold isInline
  simp only [Bool.or_eq_true, Bool.and_eq_true] at h ⊢
  rcases h with (((h | h) | h) | h) | h
  · cases node with
    | text content => exact .inl (.inl (.inl (.inl rfl)))
    | _ => exact absurd h.1 Bool.false_ne_true
  · exact .inl (.inl (.inl (.inr h)))
  · exact .inl (.inl (.inr h.1))
  · exact .inr h
  · exact .inl (.inr h.1)

theorem opens_text {content : String} :
    opens inSpacer next? (.text content) =
      (hasContent (visibleText content) && !inSpacer) := by
  simp [opens, text?, isElement, name?, format?]

theorem loose_of_opens (reserved : Option String) (h : node.opens inSpacer next?) :
    node.loose reserved inSpacer next? =
      [(node.rendered reserved false inSpacer next?).content] := by
  cases node with
  | text content =>
    rw [loose, if_pos h, rendered, ← opens_text, if_pos h]
  | comment content => exact absurd h Bool.false_ne_true
  | branch label nodes =>
    rw [loose]
    exact if_pos h

theorem loose_of_not_opens (reserved : Option String) (h : ¬ node.opens inSpacer next?) :
    node.loose reserved inSpacer next? = looseAll reserved node.isSpacer node.children := by
  cases node with
  | text content =>
    rw [loose, if_neg h]
    rfl
  | comment content => rfl
  | branch label nodes =>
    rw [loose]
    exact if_neg h

theorem looseAll_cons_of_not_opens (reserved : Option String) {after : List Node}
    (h : ¬ node.opens inSpacer after.head?) :
    looseAll reserved inSpacer (node :: after) =
      looseAll reserved node.isSpacer node.children ++ looseAll reserved inSpacer after := by
  rw [looseAll, Bool.eq_false_iff.2 h, Bool.and_false, Bool.false_and, if_neg Bool.false_ne_true,
    loose_of_not_opens reserved h]

theorem looseAll_cons_of_opens (reserved : Option String) {after : List Node}
    (h : node.opens inSpacer after.head?) (hnot : ¬ (node.isText ∧ after.head?.any isInline)) :
    looseAll reserved inSpacer (node :: after) =
      (node.rendered reserved false inSpacer after.head?).content ::
        looseAll reserved inSpacer after := by
  have hcontinued :
      (node.isText && node.opens inSpacer after.head? && after.head?.any isInline) = false := by
    rw [h, Bool.and_true, Bool.eq_false_iff, ne_eq, Bool.and_eq_true]
    exact hnot
  rw [looseAll, hcontinued, if_neg Bool.false_ne_true, loose_of_opens reserved h,
    List.singleton_append]

/-- The node right after a text that has opened a paragraph goes on there, and so do all others. -/
theorem looseAll_cons_of_continued (reserved : Option String) {after : List Node}
    (htext : node.isText) (h : node.opens inSpacer after.head?)
    (hnext : after.head?.any isInline) :
    looseAll reserved inSpacer (node :: after) =
      [(node.rendered reserved false inSpacer after.head?).content ++
        (renderedAll reserved false inSpacer after).content] := by
  rw [looseAll, htext, h, hnext, renderedAll]
  rfl

/-- What opens a paragraph puts something into it; a text puts itself there. -/
theorem rendered_of_opens (reserved : Option String) (h : node.opens inSpacer next?) :
    (node.rendered reserved false inSpacer next?).content ≠ [] ∧
      (node.isText → ∃ added, (node.rendered reserved false inSpacer next?).content =
        [.text added]) := by
  cases node with
  | text content =>
    have hcontent : (rendered reserved false inSpacer next? (.text content)).content =
        [.text (visibleText content)] := by
      rw [rendered, ← opens_text, if_pos h]
    rw [hcontent]
    exact ⟨List.cons_ne_nil _ _, fun _ => ⟨_, rfl⟩⟩
  | comment content => exact absurd h Bool.false_ne_true
  | branch label nodes =>
    refine ⟨?_, fun htext => absurd htext Bool.false_ne_true⟩
    rw [rendered]
    dsimp only
    by_cases hlink : (branch label nodes).isElement "a"
    · rw [if_pos hlink]
      exact List.cons_ne_nil _ _
    rw [if_neg hlink]
    by_cases hspan : (branch label nodes).isElement "span" && !(branch label nodes).isSpacer
    · rw [if_pos hspan]
      exact List.cons_ne_nil _ _
    rw [if_neg hspan]
    cases hformat : (branch label nodes).format? with
    | some format => exact List.cons_ne_nil _ _
    | none =>
      -- Only a line break is left.
      have hbreaks : (branch label nodes).isElement "br" && next?.any fun next =>
          !next.isElement "ul" && !next.isElement "ol" && !next.isElement "br" := by
        simpa only [opens, text?, Option.any_none, Bool.false_and, Bool.false_or, hformat,
          Option.isSome_none, Bool.or_false, Bool.eq_false_iff.2 hlink,
          Bool.eq_false_iff.2 hspan] using h
      obtain ⟨hbreak, hnext⟩ := Bool.and_eq_true_iff.1 hbreaks
      obtain ⟨next, rfl, hnext⟩ := (Option.any_eq_true _ _).1 hnext
      have hadds : (!next.isElement "ul" && !next.isElement "ol") = true :=
        (Bool.and_eq_true_iff.1 hnext).1
      rw [hbreak, Option.any_some, hadds]
      exact List.cons_ne_nil _ _

end Node

/-! ## One step in a section -/

section Step

variable {settings : ConversionSettings} {node : Node} {role : Role}

theorem isInline_of_role? (h : node.role? (usualRole? settings) = some role)
    (hblock : ¬ role.makesBlock) : node.isInline := by
  obtain ⟨hlink, hspan, -, hbreak, hformat⟩ := elements_of_role? h
  unfold Node.isInline
  simp only [Bool.or_eq_true]
  cases role with
  | text => exact .inl (.inl (.inl (.inl (role?_eq_text.1 h))))
  | hyperlink => exact .inl (.inl (.inl (.inr (hlink.2 rfl))))
  | span reserved => exact .inl (.inl (.inr (hspan.2 ⟨reserved, rfl⟩)))
  | lineBreak => exact .inl (.inr (hbreak.2 rfl))
  | formattedText format =>
    refine .inr ?_
    rw [(hformat format).2 rfl]
    rfl
  | _ => exact absurd rfl hblock

theorem not_isInline_of_role?_none (h : node.role? (usualRole? settings) = none) :
    node.isInline = false := by
  obtain ⟨hlink, hspan, hbreak, hformat⟩ := elements_of_role?_none h
  have htext : node.isText = false := by
    refine Bool.eq_false_iff.2 fun htext => ?_
    rw [role?_eq_text.2 htext] at h
    cases h
  rw [Node.isInline, htext, Bool.eq_false_iff.2 hlink, Bool.eq_false_iff.2 hspan,
    Bool.eq_false_iff.2 hbreak, hformat]
  rfl

theorem text?_eq_none_of_role? (h : node.role? (usualRole? settings) = some role)
    (hne : role ≠ .text) : node.text? = none := by
  cases node with
  | text content => exact absurd (Option.some.inj (h.symm.trans (role?_eq_text.2 rfl))) hne
  | _ => rfl

section Opens

variable {inSpacer : Bool} {next? : Option Node}

theorem opens_of_formattedText {format : TextFormat}
    (h : node.role? (usualRole? settings) = some (.formattedText format)) :
    node.opens inSpacer next? := by
  obtain ⟨-, -, -, -, hformat⟩ := elements_of_role? h
  simp [Node.opens, (hformat format).2 rfl]

theorem opens_of_hyperlink (h : node.role? (usualRole? settings) = some .hyperlink) :
    node.opens inSpacer next? := by
  obtain ⟨hlink, -⟩ := elements_of_role? h
  simp [Node.opens, hlink.2 rfl]

theorem opens_of_span {reserved : Option String}
    (h : node.role? (usualRole? settings) = some (.span reserved)) :
    node.opens inSpacer next? = !node.isSpacer := by
  obtain ⟨hlink, hspan, -, hbreak, hformat⟩ := elements_of_role? h
  have hnoText := text?_eq_none_of_role? h (by simp)
  have hnotLink : node.isElement "a" = false := Bool.eq_false_iff.2 fun h => by cases hlink.1 h
  have hnotBreak : node.isElement "br" = false := Bool.eq_false_iff.2 fun h => by cases hbreak.1 h
  have hnoFormat : node.format? = none :=
    Option.eq_none_iff_forall_ne_some.2 fun format h => by cases (hformat format).1 h
  simp [Node.opens, hnoText, hnotLink, hspan.2 ⟨_, rfl⟩, hnoFormat, hnotBreak]

theorem opens_of_lineBreak (h : node.role? (usualRole? settings) = some .lineBreak) :
    node.opens inSpacer next? = next?.any fun next =>
      !next.isElement "ul" && !next.isElement "ol" && !next.isElement "br" := by
  obtain ⟨hlink, hspan, -, hbreak, hformat⟩ := elements_of_role? h
  have hnoText := text?_eq_none_of_role? h (by simp)
  have hnotLink : node.isElement "a" = false := Bool.eq_false_iff.2 fun h => by cases hlink.1 h
  have hnotSpan : node.isElement "span" = false :=
    Bool.eq_false_iff.2 fun h => by obtain ⟨_, ⟨⟩⟩ := hspan.1 h
  have hnoFormat : node.format? = none :=
    Option.eq_none_iff_forall_ne_some.2 fun format h => by cases (hformat format).1 h
  simp [Node.opens, hnoText, hnotLink, hnotSpan, hnoFormat, hbreak.2 rfl]

end Opens

/-- A line break in a section adds its object unless it is followed by nothing, by a list or by
    another break. -/
theorem lineBreakEffect_inSection (node : Node) (label : Label) (crumbs : List Crumb)
    (before after : List Node) (owner : SectionId) :
    let place : Location := ⟨node, ⟨label, before, after⟩ :: crumbs⟩
    if after.head?.any fun next =>
        !next.isElement "ul" && !next.isElement "ol" && !next.isElement "br" then
      Role.lineBreakEffect place (.inSection owner) = .content .lineBreak ∧
        ∀ id, Role.lineBreakEffect place (.inParagraph id) = .content .lineBreak
    else Role.lineBreakEffect place (.inSection owner) = .nothing := by
  intro place
  cases after with
  | nil => rfl
  | cons next rest =>
    have hkind (id : ParagraphId) : (Context.inParagraph id).kind ≠ .sectionBlock := nofun
    have hparagraph (id : ParagraphId) :=
      lineBreakEffect_of_kind_ne (hkind id) node label crumbs before (next :: rest)
    have hsection : Role.lineBreakEffect place (.inSection owner) =
        if next.isElement "ul" || next.isElement "ol" then .nothing
        else if next.isElement "br" then .nothing else .content .lineBreak := rfl
    rw [List.head?_cons, Option.any_some] at hparagraph ⊢
    rw [hsection]
    cases hul : next.isElement "ul" <;> cases hol : next.isElement "ol" <;>
      cases hbr : next.isElement "br" <;> simp_all [place]

/-- In a section a handled node adds one object if it opens a paragraph, the same that it adds in
    that paragraph, and else nothing. -/
theorem effect_inSection (hrole : node.role? (usualRole? settings) = some role)
    (hblock : ¬ role.makesBlock) (label : Label) (crumbs : List Crumb) (before after : List Node)
    (owner : SectionId) :
    let place : Location := ⟨node, ⟨label, before, after⟩ :: crumbs⟩
    if node.opens (Node.branch label (before.reverse ++ node :: after)).isSpacer after.head? then
      ∃ value, role.effect place (.inSection owner) = .ok (.content value) ∧
        ∀ id, role.effect place (.inParagraph id) = .ok (.content value)
    else role.effect place (.inSection owner) = .ok .nothing := by
  intro place
  cases node with
  | text content =>
    obtain rfl := Option.some.inj ((role?_eq_text.2 rfl).symm.trans hrole)
    have hcontributes : Role.contribution? place =
        if hasContent (visibleText content) &&
            !(Node.branch label (before.reverse ++ .text content :: after)).isSpacer then
          some (visibleText content)
        else none := contribution?_eq_contributedText? rfl
    rw [Node.opens_text]
    cases hadds : hasContent (visibleText content) &&
        !(Node.branch label (before.reverse ++ .text content :: after)).isSpacer with
    | false =>
      rw [hadds] at hcontributes
      rw [if_neg Bool.false_ne_true, Role.effect, hcontributes]
      rfl
    | true =>
      rw [hadds] at hcontributes
      rw [if_pos rfl]
      refine ⟨.text (visibleText content), ?_, fun id => ?_⟩
      · rw [Role.effect, hcontributes]
        rfl
      · rw [Role.effect, hcontributes]
        rfl
  | comment content => cases hrole
  | branch inner nodes =>
    cases role with
    | formattedText format =>
      rw [if_pos (opens_of_formattedText hrole)]
      exact ⟨_, rfl, fun _ => rfl⟩
    | hyperlink =>
      rw [if_pos (opens_of_hyperlink hrole)]
      exact ⟨_, rfl, fun _ => rfl⟩
    | span reserved =>
      rw [opens_of_span hrole]
      cases hspacer : (Node.branch inner nodes).isSpacer with
      | true => exact if_pos hspacer
      | false =>
        have hnot : ¬ place.node.isSpacer = true := by
          rw [show place.node.isSpacer = false from hspacer]
          exact Bool.false_ne_true
        exact ⟨_, if_neg hnot, fun _ => if_neg hnot⟩
    | lineBreak =>
      have heffect := lineBreakEffect_inSection (.branch inner nodes) label crumbs before after
        owner
      rw [opens_of_lineBreak hrole]
      split
      · next hadds =>
        rw [if_pos hadds] at heffect
        exact ⟨_, congrArg _ heffect.1, fun id => congrArg _ (heffect.2 id)⟩
      · next hadds =>
        rw [if_neg hadds] at heffect
        exact congrArg _ heffect
    | text => exact absurd (role?_eq_text.1 hrole) Bool.false_ne_true
    | _ => exact absurd rfl hblock

/-- A call that opens a paragraph comes to one in the paragraph that it opens. -/
theorem exists_effect_opens {d : Document} {owner : SectionId}
    (hlive : Live d owner (.inSection owner))
    (hrole : node.role? (usualRole? settings) = some role) (hblock : ¬ role.makesBlock)
    (label : Label) (crumbs : List Crumb) (before after : List Node)
    (hopens : node.opens (Node.branch label (before.reverse ++ node :: after)).isSpacer
      after.head?) :
    ∃ effect, role.effect ⟨node, ⟨label, before, after⟩ :: crumbs⟩ (.inSection owner) =
        .ok effect ∧
      Renders settings node (Node.branch label (before.reverse ++ node :: after)).isSpacer
        after.head? (.inParagraph ⟨d.size⟩) (effect.result (.inSection owner) d.size)
        (d.push owner.slot (.paragraph {})) (effect.applyTo owner (.inSection owner) d) := by
  have hparagraph := Live.of_push_paragraph hlive.isSection {}
  have heffect := effect_inSection hrole hblock label crumbs before after owner
  rw [if_pos hopens] at heffect
  obtain ⟨value, hsection, hinside⟩ := heffect
  obtain ⟨effect, hgiven, hrenders⟩ :=
    exists_effect_renders hparagraph nofun hrole hblock label crumbs before after
  obtain rfl := Except.ok.inj ((hinside _).symm.trans hgiven)
  have hresult : (Effect.content value).result (.inParagraph ⟨d.size⟩)
      (d.push owner.slot (.paragraph {})).size =
        (Effect.content value).result (.inSection owner) d.size := by
    rw [Document.size_push]
    cases value <;> rfl
  have happly : Effect.applyTo owner (.inParagraph ⟨d.size⟩) (d.push owner.slot (.paragraph {}))
      (.content value) = Effect.applyTo owner (.inSection owner) d (.content value) := rfl
  rw [hresult, happly] at hrenders
  exact ⟨_, hsection, hrenders⟩

end Step

/-! ## The walk adds the paragraphs -/

/-- Where the first of some siblings is handled, a walk along them depends on the cursor only by the
    context that this first one is given. -/
theorem walkSiblings_of_contextAfter {registry : Registry} {node : Node}
    (hhandled : (registry.handler? node).isSome) {cursor cursor' : Cursor} {before : List Node}
    (h : cursor.contextAfter before.head? = cursor'.contextAfter before.head?)
    (limit depth : Nat) (label : Label) (crumbs : List Crumb) (after : List Node) :
    walkSiblings registry limit depth label crumbs before cursor (node :: after) =
      walkSiblings registry limit depth label crumbs before cursor' (node :: after) := by
  obtain ⟨handler, hhandler⟩ := Option.isSome_iff_exists.1 hhandled
  rw [walkSiblings, walkSiblings, hhandler]
  dsimp only
  rw [h]

theorem Cursor.contextAfter_of_not_isText {cursor : Cursor} {node : Node} (h : ¬ node.isText) :
    cursor.contextAfter (some node) = cursor.current := by
  cases node with
  | text content => exact absurd rfl h
  | _ => rfl

section Walk

variable {settings : ConversionSettings} {base limit : Nat} {owner : SectionId}

theorem Live.graftParagraphs {d : Document} {context : Context} (h : Live d owner context)
    (contents : List (List InlineView)) :
    Live (d.graftParagraphs owner.slot contents) owner context := by
  induction contents generalizing d with
  | nil => exact h
  | cons content contents ih =>
    refine ih (Document.graftAll_induction (motive := fun d' => Live d' owner context)
      (fun d' parent value _ hlive =>
        hlive.of_keepsShape (Document.keepsShape_push d' parent value)) _ _ _ ?_)
    exact h.of_keepsShape (Document.keepsShape_push d _ _)

/-- The call for a node that opens a paragraph, and the walk of what is inside it, add that
    paragraph. A text leaves it open. -/
theorem exists_call_opens {d : Document} (hlive : Live d owner (.inSection owner)) {node : Node}
    {role : Role} (hrole : node.role? (usualRole? settings) = some role)
    (hblock : ¬ role.makesBlock) {depth : Nat} {label : Label} {crumbs : List Crumb}
    {before after : List Node}
    (hopens : node.opens (Node.branch label (before.reverse ++ node :: after)).isSpacer
      after.head?)
    (hdepth : (⟨label, before, after⟩ :: crumbs).length = base + (depth + 1))
    (hself : node.hasChildren → depth + 1 ≤ limit)
    (hfits : ∀ place ∈ Location.below (⟨label, before, after⟩ :: crumbs) node,
      place.FitsInline base limit) :
    ∃ given middle n,
      (role.handler ⟨node, ⟨label, before, after⟩ :: crumbs⟩ (.inSection owner)).runOn d =
        (.ok given, middle) ∧
      (walkInside (.withDefaults settings) limit (depth + 1) (⟨label, before, after⟩ :: crumbs)
        given node).runOn middle = (.ok n, d.graftParagraphs owner.slot
          [(node.rendered settings.reservedSpanClass false
            (Node.branch label (before.reverse ++ node :: after)).isSpacer after.head?).content]) ∧
      (node.isText → given = .inParagraph ⟨d.size⟩) := by
  obtain ⟨effect, heffect, hgiven, htext, hinsert⟩ :=
    exists_effect_opens hlive hrole hblock label crumbs before after hopens
  obtain ⟨n, hin⟩ := walkInside_eq_insert _ (depth + 1) node _ _ (hlive.result effect) hgiven
    hdepth hself hfits
  rw [hinsert, insert_inParagraph] at hin
  refine ⟨_, _, n, ?_, hin, htext⟩
  rw [role.runOn_handler hlive, heffect]
  rfl

variable (settings) in
/-- Siblings that come right after a text that has opened a paragraph, the first of them handled, go
    into that paragraph. -/
theorem exists_walkSiblings_continued {d : Document} (hlive : Live d owner (.inSection owner))
    {depth : Nat} {label : Label} {crumbs : List Crumb} {before after : List Node} {node : Node}
    {inSpacer : Bool} (content : List InlineView) (htext : node.isText)
    (hnext : after.head?.any Node.isInline) (hdepth : crumbs.length = base + depth)
    (hspacer : (Node.branch label ((node :: before).reverse ++ after)).isSpacer = inSpacer)
    (hfits : ∀ place ∈ Location.belowAll label crumbs (node :: before) after,
      place.FitsInline base limit) :
    ∃ m, (walkSiblings (.withDefaults settings) limit depth label crumbs (node :: before)
      ⟨.inSection owner, some (.inParagraph ⟨d.size⟩)⟩ after).runOn
        (d.graftParagraphs owner.slot [content]) =
      (.ok m, d.graftParagraphs owner.slot [content ++
        (Node.renderedAll settings.reservedSpanClass false inSpacer after).content]) := by
  have hparagraph : Live (d.graftParagraphs owner.slot [content]) owner
      (.inParagraph ⟨d.size⟩) := by
    have hopened := (Live.of_push_paragraph hlive.isSection {}).insert ⟨[], content⟩
    rw [insert_inParagraph] at hopened
    exact hopened
  have hkind : (Context.inParagraph ⟨d.size⟩).kind ≠ .sectionBlock := nofun
  obtain ⟨m, hrest⟩ : ∃ m, (walkSiblings (.withDefaults settings) limit depth label crumbs
      (node :: before) ⟨.inParagraph ⟨d.size⟩, some (.inParagraph ⟨d.size⟩)⟩ after).runOn
        (d.graftParagraphs owner.slot [content]) = (.ok m, _) :=
    walkSiblings_eq_insert label crumbs (node :: before) _ depth after _ inSpacer _ hparagraph
      hkind hdepth hspacer rfl (fun _ _ => rfl) hfits
  obtain ⟨text, rfl⟩ : ∃ text, node = .text text := by
    cases node with
    | text text => exact ⟨text, rfl⟩
    | _ => exact absurd htext Bool.false_ne_true
  refine ⟨m, ?_⟩
  cases after with
  | nil => exact absurd hnext Bool.false_ne_true
  | cons next after =>
    have hinline : next.isInline := hnext
    have hhandled : ((Registry.withDefaults settings).handler? next).isSome := by
      rw [(assembled_withDefaults settings).handler?, Option.isSome_map, Option.isSome_iff_ne_none]
      intro hnone
      rw [not_isInline_of_role?_none hnone] at hinline
      cases hinline
    have hgiven : Cursor.contextAfter ⟨.inSection owner, some (.inParagraph ⟨d.size⟩)⟩
        (Node.text text :: before).head? =
          Cursor.contextAfter ⟨.inParagraph ⟨d.size⟩, some (.inParagraph ⟨d.size⟩)⟩
            (Node.text text :: before).head? := rfl
    have happend (more : List InlineView) : d.graftParagraphs owner.slot [content ++ more] =
        (d.graftParagraphs owner.slot [content]).graftAll d.size more :=
      Document.graftAll_append _ _ _ _
    rw [walkSiblings_of_contextAfter hhandled hgiven, hrest, insert_inParagraph, happend]
    rfl

mutual

theorem walkInside_eq_loose (crumbs : List Crumb) (depth : Nat) (node : Node) (d : Document)
    (hlive : Live d owner (.inSection owner)) (hdepth : crumbs.length = base + depth)
    (hself : node.hasChildren → depth ≤ limit)
    (hfits : ∀ place ∈ Location.below crumbs node, place.FitsInline base limit) :
    ∃ count, (walkInside (.withDefaults settings) limit depth crumbs (.inSection owner)
      node).runOn d = (.ok count, d.graftParagraphs owner.slot
        (Node.looseAll settings.reservedSpanClass node.isSpacer node.children)) :=
  match node with
  | .text _ => ⟨0, rfl⟩
  | .comment _ => ⟨0, rfl⟩
  | .branch label nodes => by
    rw [walkInside]
    by_cases hnodes : nodes = []
    · rw [hnodes]
      exact ⟨0, rfl⟩
    · have hlimit : depth ≤ limit := hself (by simpa [Node.hasChildren, Node.children] using hnodes)
      rw [if_neg (by rwa [List.isEmpty_iff]), if_neg (by omega)]
      exact walkSiblings_eq_loose label crumbs [] ⟨.inSection owner, none⟩ depth nodes d _ hlive
        hdepth rfl rfl (fun _ => rfl) hfits

/-- **Along siblings in a section the walk adds the paragraphs that they stand for**, where none
    before them has left the section. -/
theorem walkSiblings_eq_loose (label : Label) (crumbs : List Crumb) (before : List Node)
    (cursor : Cursor) (depth : Nat) (nodes : List Node) (d : Document) (inSpacer : Bool)
    (hlive : Live d owner (.inSection owner)) (hdepth : crumbs.length = base + depth)
    (hspacer : (Node.branch label (before.reverse ++ nodes)).isSpacer = inSpacer)
    (hcurrent : cursor.current = .inSection owner)
    (hfirst : nodes.head?.any Node.isInline →
      cursor.contextAfter before.head? = .inSection owner)
    (hfits : ∀ place ∈ Location.belowAll label crumbs before nodes, place.FitsInline base limit) :
    ∃ count, (walkSiblings (.withDefaults settings) limit depth label crumbs before cursor
      nodes).runOn d = (.ok count, d.graftParagraphs owner.slot
        (Node.looseAll settings.reservedSpanClass inSpacer nodes)) :=
  match nodes with
  | [] => ⟨0, rfl⟩
  | node :: after => by
    obtain ⟨hlength, hblock, hself, hinside, hafter⟩ := fitsInline_cons hdepth hfits
    have hspacer' := isSpacer_reverse_cons hspacer
    cases hrole : node.role? (usualRole? settings) with
    | none =>
      have hinline : node.isInline = false := not_isInline_of_role?_none hrole
      have hnotText : ¬ node.isText := fun h => by
        rw [role?_eq_text.2 h] at hrole
        cases hrole
      have hopens : ¬ node.opens inSpacer after.head? := fun h => by
        rw [Node.isInline_of_opens h] at hinline
        cases hinline
      obtain ⟨n, hin⟩ := walkInside_eq_loose _ (depth + 1) node d hlive hlength hself hinside
      obtain ⟨m, hrest⟩ := walkSiblings_eq_loose label crumbs (node :: before) cursor depth after _
        inSpacer (hlive.graftParagraphs _) hdepth hspacer' hcurrent
        (fun _ => (Cursor.contextAfter_of_not_isText hnotText).trans hcurrent) hafter
      rw [Node.looseAll_cons_of_not_opens _ hopens, Document.graftParagraphs_append]
      rw [← hcurrent] at hin
      exact ⟨n + m, runOn_walkSiblings_of_none
        ((assembled_withDefaults settings).handler?_of_none hrole) hin hrest⟩
    | some role =>
      have hnotBlock : ¬ role.makesBlock := fun h => hblock ((isBlock_iff_of_role? hrole).2 h)
      have hhandler := (assembled_withDefaults settings).handler?_of_some hrole
      have hgiven := hfirst (isInline_of_role? hrole hnotBlock)
      by_cases hopens : node.opens inSpacer after.head?
      · rw [← hspacer] at hopens
        obtain ⟨given, middle, n, hcall, hin, htext⟩ :=
          exists_call_opens hlive hrole hnotBlock hopens hlength hself hinside
        rw [hspacer] at hopens hin
        by_cases hgoes : node.isText ∧ after.head?.any Node.isInline
        · obtain rfl := htext hgoes.1
          obtain ⟨m, hrest⟩ := exists_walkSiblings_continued settings hlive _ hgoes.1 hgoes.2
            hdepth hspacer' hafter
          rw [Node.looseAll_cons_of_continued _ hgoes.1 hopens hgoes.2]
          exact ⟨1 + n + m, runOn_walkSiblings_of_some hhandler hgiven hcall hin hrest⟩
        · obtain ⟨m, hrest⟩ := walkSiblings_eq_loose label crumbs (node :: before)
            ⟨.inSection owner, some given⟩ depth after _ inSpacer (hlive.graftParagraphs _) hdepth
            hspacer' rfl (fun hnext => Cursor.contextAfter_of_not_isText fun h => hgoes ⟨h, hnext⟩)
            hafter
          rw [Node.looseAll_cons_of_opens _ hopens hgoes]
          exact ⟨1 + n + m, runOn_walkSiblings_of_some hhandler hgiven hcall hin hrest⟩
      · have heffect := effect_inSection hrole hnotBlock label crumbs before after owner
        rw [hspacer, if_neg hopens] at heffect
        have hcall : (role.handler ⟨node, ⟨label, before, after⟩ :: crumbs⟩
            (.inSection owner)).runOn d = (.ok (.inSection owner), d) := by
          rw [role.runOn_handler hlive, heffect]
          rfl
        obtain ⟨n, hin⟩ := walkInside_eq_loose _ (depth + 1) node d hlive hlength hself hinside
        obtain ⟨m, hrest⟩ := walkSiblings_eq_loose label crumbs (node :: before)
          ⟨.inSection owner, some (.inSection owner)⟩ depth after _ inSpacer
          (hlive.graftParagraphs _) hdepth hspacer' rfl
          (fun _ => contextAfter_eq rfl fun _ _ => rfl) hafter
        rw [Node.looseAll_cons_of_not_opens _ hopens, Document.graftParagraphs_append]
        exact ⟨1 + n + m, runOn_walkSiblings_of_some hhandler hgiven hcall hin hrest⟩

end

end Walk

/-! ## What the paragraphs hold -/

/-- The content begins with what a place puts into the paragraph that it opens. -/
def Location.Begins (reserved : Option String) (content : List InlineView) (place : Location) :
    Prop :=
  ∃ inSpacer next? more, place.node.opens inSpacer next? ∧
    content = (place.node.rendered reserved false inSpacer next?).content ++ more

section Contents

variable {reserved : Option String} {content : List InlineView}

mutual

theorem exists_begins_inside (crumbs : List Crumb) (node : Node)
    (h : content ∈ Node.looseAll reserved node.isSpacer node.children) :
    ∃ place ∈ Location.below crumbs node, place.Begins reserved content :=
  match node with
  | .text _ => absurd h List.not_mem_nil
  | .comment _ => absurd h List.not_mem_nil
  | .branch label nodes => exists_begins label crumbs [] nodes _ h

/-- Each paragraph is opened by a place of the markup. -/
theorem exists_begins (label : Label) (crumbs : List Crumb) (before nodes : List Node)
    (inSpacer : Bool) (h : content ∈ Node.looseAll reserved inSpacer nodes) :
    ∃ place ∈ Location.belowAll label crumbs before nodes, place.Begins reserved content :=
  match nodes with
  | [] => absurd h List.not_mem_nil
  | node :: after => by
    have hafter (h : content ∈ Node.looseAll reserved inSpacer after) :
        ∃ place ∈ Location.belowAll label crumbs before (node :: after),
          place.Begins reserved content := by
      obtain ⟨place, hplace, hbegins⟩ := exists_begins label crumbs (node :: before) after _ h
      exact ⟨place, List.mem_cons_of_mem _ (List.mem_append_right _ hplace), hbegins⟩
    by_cases hopens : node.opens inSpacer after.head?
    · by_cases hgoes : node.isText ∧ after.head?.any Node.isInline
      · rw [Node.looseAll_cons_of_continued _ hgoes.1 hopens hgoes.2, List.mem_singleton] at h
        exact ⟨_, List.mem_cons_self, inSpacer, after.head?, _, hopens, h⟩
      · rw [Node.looseAll_cons_of_opens _ hopens hgoes, List.mem_cons] at h
        rcases h with h | h
        · exact ⟨_, List.mem_cons_self, inSpacer, after.head?, [], hopens,
            h.trans (List.append_nil _).symm⟩
        · exact hafter h
    · rw [Node.looseAll_cons_of_not_opens _ hopens, List.mem_append] at h
      rcases h with h | h
      · obtain ⟨place, hplace, hbegins⟩ :=
          exists_begins_inside (⟨label, before, after⟩ :: crumbs) node h
        exact ⟨place, List.mem_cons_of_mem _ (List.mem_append_left _ hplace), hbegins⟩
      · exact hafter h

end

theorem Location.Begins.isInline {place : Location} (h : place.Begins reserved content) :
    place.node.isInline := by
  obtain ⟨inSpacer, next?, more, hopens, -⟩ := h
  exact Node.isInline_of_opens hopens

theorem Location.Begins.ne_nil {place : Location} (h : place.Begins reserved content) :
    content ≠ [] := by
  obtain ⟨inSpacer, next?, more, hopens, rfl⟩ := h
  exact List.append_ne_nil_of_left_ne_nil (Node.rendered_of_opens reserved hopens).1 more

end Contents

/-! ## Plain texts -/

/-- A text without its line feeds. -/
def withoutLineFeeds (text : String) : String :=
  String.ofList (text.toList.filter (· != '\n'))

theorem withoutLineFeeds_append (first second : String) :
    withoutLineFeeds (first ++ second) = withoutLineFeeds first ++ withoutLineFeeds second := by
  rw [withoutLineFeeds, String.toList_append, List.filter_append, String.ofList_append,
    withoutLineFeeds, withoutLineFeeds]

/-- The texts in inline content, in order. -/
def InlineView.texts (content : List InlineView) : List String :=
  (InlineView.objectsAll content).filterMap DocumentObject.text?

mutual

theorem withoutLineFeeds_plainText (view : InlineView) :
    withoutLineFeeds view.plainText =
      String.join ((view.objects.filterMap DocumentObject.text?).map withoutLineFeeds) :=
  match view with
  | .text value => by
    have hone : String.join [withoutLineFeeds value] = withoutLineFeeds value := by
      rw [String.join_cons, String.join_nil, String.append_empty]
    exact hone.symm
  | .lineBreak => rfl
  | .run _ content => withoutLineFeeds_plainTexts content
  | .hyperlink _ content => withoutLineFeeds_plainTexts content

/-- Line feeds aside, the plain text is that of the texts. -/
theorem withoutLineFeeds_plainTexts (content : List InlineView) :
    withoutLineFeeds (InlineView.plainTexts content) =
      String.join ((InlineView.texts content).map withoutLineFeeds) :=
  match content with
  | [] => rfl
  | view :: rest => by
    rw [InlineView.plainTexts, withoutLineFeeds_append, withoutLineFeeds_plainText view,
      withoutLineFeeds_plainTexts rest, InlineView.texts, InlineView.texts, InlineView.objectsAll,
      List.filterMap_append, List.map_append, String.join_append]

end

theorem withoutLineFeeds_join (contents : List (List InlineView)) :
    withoutLineFeeds (String.join (contents.map InlineView.plainTexts)) =
      String.join ((contents.flatMap InlineView.texts).map withoutLineFeeds) := by
  induction contents with
  | nil => rfl
  | cons content contents ih =>
    rw [List.map_cons, String.join_cons, withoutLineFeeds_append, withoutLineFeeds_plainTexts, ih,
      List.flatMap_cons, List.map_append, String.join_append]

/-- The text of a place has no line feeds. -/
theorem withoutLineFeeds_contributedText? {place : Location} {text : String}
    (h : place.contributedText? = some text) : withoutLineFeeds text = text := by
  have hvisible (content : String) :
      withoutLineFeeds (visibleText content) = visibleText content := by
    have hkept : (visibleText content).toList.filter (· != '\n') = (visibleText content).toList :=
      List.filter_eq_self.2 fun c hc => bne_iff_ne.2 (mem_visibleText.1 hc).2.2
    rw [withoutLineFeeds, hkept, String.ofList_toList]
  obtain ⟨node, crumbs⟩ := place
  unfold Location.contributedText? at h
  cases node with
  | text content =>
    dsimp only at h
    split at h
    · obtain rfl := Option.some.inj h
      exact hvisible content
    · cases h
  | _ => cases h

theorem Location.Begins.texts_ne_nil {reserved : Option String} {content : List InlineView}
    {place : Location} (h : place.Begins reserved content) (htext : place.node.isText) :
    InlineView.texts content ≠ [] := by
  obtain ⟨inSpacer, next?, more, hopens, rfl⟩ := h
  obtain ⟨added, hadded⟩ := (Node.rendered_of_opens reserved hopens).2 htext
  rw [hadded]
  exact List.cons_ne_nil _ _

/-! ## Insertions into sections -/

section Insertion

variable {settings : ConversionSettings} {root : Location} {d d' : Document} {id : SectionId}

theorem resolve_intoSection {old : List ParagraphId} (h : d.paragraphs id = .ok old) :
    d.resolve (.intoSection id) = .ok (.inSection id) := by
  have hcheck : d.checkSection id = .ok () :=
    Document.checkSection_eq_ok.2 (Document.paragraphs_eq_ok.1 h).1
  rw [Document.resolve, hcheck]
  rfl

/-- The texts that an insertion creates are those of the places below the root. -/
theorem created_texts_of_insertInto (hd : d.WellFormed) {target : Target} {context : Context}
    (hresolve : d.resolve target = .ok context)
    (hinsert : (Conversion.insertInto ⟨.ofSettings settings, root⟩ target).runOn d =
      (.ok (), d')) :
    d'.created DocumentObject.text? d.size =
      root.descendants.filterMap Location.contributedText? := by
  have hnoText : ∀ place : Location, place.node.role? (usualRole? settings) = none →
      place.contributedText?.toList = [] := by
    intro place hnone
    have hnode : ¬ place.node.isText := fun h => by
      rw [role?_eq_text.2 h] at hnone
      cases hnone
    rw [contributedText?_of_not_isText hnode, Option.toList_none]
  obtain ⟨htexts, -⟩ := insertInto_created (assembled_withDefaults settings) hd hresolve hinsert
    (fun _ _ => rfl) (fun _ _ _ _ => texts_of_call) hnoText
  rw [← List.filterMap_eq_flatMap_toList] at htexts
  exact htexts rfl

/-- An insertion into a section of markup without blocks adds the paragraphs that the walk along the
    top of the markup adds. -/
theorem runOn_insertInto_loose (hblocks : ∀ place ∈ root.descendants, ¬ place.node.isBlock)
    (hdepth : root.FitsDepth settings.maxDepth) (hd : d.WellFormed)
    (hresolve : d.resolve (.intoSection id) = .ok (.inSection id)) :
    (Conversion.insertInto ⟨.ofSettings settings, root⟩ (.intoSection id)).runOn d =
      (.ok (), d.graftParagraphs id.slot
        (Node.looseAll settings.reservedSpanClass root.node.isSpacer root.node.children)) := by
  obtain ⟨-, owner, hlive⟩ := live_of_resolve hd hresolve
  obtain rfl : id = owner := hlive.eq_of_inSection
  have hfits : ∀ place ∈ Location.below root.crumbs root.node,
      place.FitsInline root.crumbs.length settings.maxDepth := by
    intro place hplace
    refine ⟨hblocks place hplace, fun hchildren => ?_⟩
    have hlevel := hdepth place hplace hchildren
    unfold Location.levelUnder at hlevel
    omega
  obtain ⟨count, hwalk⟩ : ∃ count, (walk (.withDefaults settings) settings.maxDepth
      (.inSection id) root).runOn d = (.ok count, _) :=
    walkInside_eq_loose root.crumbs 0 root.node d hlive (Nat.add_zero _).symm
      (fun _ => Nat.zero_le _) hfits
  rw [Conversion.insertInto, Edit.runOn_bind, Edit.runOn_query, hresolve]
  dsimp only [Converter.ofSettings]
  rw [Edit.runOn_bind, hwalk]
  rfl

/-- Where only texts have a handler, no paragraph is without a text: the one that opens it is in
    it. -/
theorem looseAll_texts_eq_nil_iff
    (hnone : ∀ place ∈ root.descendants, place.node.isText ∨
      (Registry.withDefaults settings).handler? place.node = none) :
    let contents := Node.looseAll settings.reservedSpanClass root.node.isSpacer root.node.children
    contents.flatMap InlineView.texts = [] ↔ contents = [] := by
  intro contents
  rw [List.flatMap_eq_nil_iff, List.eq_nil_iff_forall_not_mem]
  refine forall₂_congr fun content hcontent => ?_
  obtain ⟨place, hplace, hbegins⟩ := exists_begins_inside root.crumbs root.node hcontent
  have htext : place.node.isText := by
    refine (hnone place hplace).resolve_right fun hhandler => ?_
    rw [(assembled_withDefaults settings).handler?] at hhandler
    have hinline := hbegins.isInline
    rw [not_isInline_of_role?_none (Option.map_eq_none_iff.1 hhandler)] at hinline
    cases hinline
  exact iff_of_false (hbegins.texts_ne_nil htext) not_false

end Insertion

/-- **Markup without blocks keeps its order in a section, and makes no empty paragraph.**

    Markup without blocks that is not too deep goes into any section of a document. The insertion by
    the usual converter succeeds and adds paragraphs at the end of the section, each of them with
    content and with nothing else. One after the other, and without the line feeds that stand for
    breaks, they have the texts that the markup stands for. Where no element has a handler, a
    paragraph is added exactly if there is such a text. -/
theorem insertInto_loose {settings : ConversionSettings} {root : Location}
    (hblocks : ∀ place ∈ root.descendants, ¬ place.node.isBlock)
    (hdepth : root.FitsDepth settings.maxDepth) {d : Document} (hd : d.Reachable)
    {id : SectionId} {old : List ParagraphId} (hold : d.paragraphs id = .ok old) :
    ∃ d' added, ∃ views : List ParagraphView,
      (Conversion.insertInto ⟨.ofSettings settings, root⟩ (.intoSection id)).runOn d =
        (.ok (), d') ∧
      d'.paragraphs id = .ok (old ++ added) ∧
      added.map d'.paragraphView = views.map Except.ok ∧
      withoutLineFeeds (String.join (views.map ParagraphView.plainText)) =
        String.join (root.descendants.filterMap Location.contributedText?) ∧
      (∀ view ∈ views, view.content ≠ [] ∧ view.value.style = none ∧
        view.value.alignment = none ∧ view.value.listInfo = none) ∧
      ((∀ place ∈ root.descendants, place.node.isText ∨
          (Registry.withDefaults settings).handler? place.node = none) →
        (added = [] ↔ ∀ place ∈ root.descendants, place.contributedText? = none)) := by
  have hresolve := resolve_intoSection hold
  have hinsert := runOn_insertInto_loose hblocks hdepth hd.wellFormed hresolve
  generalize hcontents :
    Node.looseAll settings.reservedSpanClass root.node.isSpacer root.node.children = contents
    at hinsert
  have hbegins : ∀ content ∈ contents, ∃ place ∈ root.descendants,
      place.Begins settings.reservedSpanClass content := by
    intro content hcontent
    rw [← hcontents] at hcontent
    exact exists_begins_inside root.crumbs root.node hcontent
  have htexts : contents.flatMap InlineView.texts =
      root.descendants.filterMap Location.contributedText? := by
    have hcreated := created_texts_of_insertInto hd.wellFormed hresolve hinsert
    rw [Document.created_graftParagraphs rfl _ _ (Nat.le_refl _), Document.created_self,
      List.nil_append] at hcreated
    exact hcreated
  obtain ⟨added, hadded, hviews⟩ := Document.exists_paragraphs_graftParagraphs hold contents
  refine ⟨_, added, contents.map fun content => ⟨{}, content⟩, hinsert, hadded, ?_, ?_, ?_, ?_⟩
  · rw [hviews, List.map_map]
    rfl
  · have hplain : (contents.map fun content => ParagraphView.mk {} content).map
        ParagraphView.plainText = contents.map InlineView.plainTexts := by
      rw [List.map_map]
      rfl
    have hfeeds : (root.descendants.filterMap Location.contributedText?).map withoutLineFeeds =
        root.descendants.filterMap Location.contributedText? := by
      refine (List.map_congr_left fun text htext => ?_).trans (List.map_id _)
      obtain ⟨place, -, hplace⟩ := List.mem_filterMap.1 htext
      exact withoutLineFeeds_contributedText? hplace
    rw [hplain, withoutLineFeeds_join, htexts, hfeeds]
  · intro view hview
    obtain ⟨content, hcontent, rfl⟩ := List.mem_map.1 hview
    obtain ⟨place, -, hplace⟩ := hbegins content hcontent
    exact ⟨hplace.ne_nil, rfl, rfl, rfl⟩
  · intro hnone
    have hnil : added = [] ↔ contents = [] := by
      rw [← List.map_eq_nil_iff, hviews, List.map_eq_nil_iff]
    rw [hnil, ← List.filterMap_eq_nil_iff, ← htexts, ← hcontents]
    exact (looseAll_texts_eq_nil_iff hnone).symm

/-- Loose texts around an element that has no handler, with a break in it, and a link right after
    the last text. -/
theorem insertInto_loose_link :
    let d : Document := Document.empty.push 0 .sectionBlock
    let root : Location :=
      ⟨.branch .fragment
        [.text "a\n", .branch (.element "ul" []) [.branch (.element "br" []) [], .text "b"],
          .text "c", .branch (.element "a" []) [.text "d"]], []⟩
    ∃ d' added, ∃ views : List ParagraphView, d.Reachable ∧
      (Conversion.insertInto ⟨.ofSettings {}, root⟩ (.intoSection ⟨1⟩)).runOn d = (.ok (), d') ∧
      d'.paragraphs ⟨1⟩ = .ok added ∧ added.map d'.paragraphView = views.map Except.ok ∧
      withoutLineFeeds (String.join (views.map ParagraphView.plainText)) = "abcd" ∧
      ∀ view ∈ views, view.content ≠ [] := by
  intro d root
  have hreachable : d.Reachable := .perform .addSection .empty rfl
  have hblocks : ∀ place ∈ root.descendants, ¬ place.node.isBlock := by
    decide +kernel
  have hdepth : root.FitsDepth (ConversionSettings.maxDepth {}) := by
    unfold Location.FitsDepth
    decide +kernel
  have hold : d.paragraphs ⟨1⟩ = .ok [] := rfl
  have htexts : String.join (root.descendants.filterMap Location.contributedText?) = "abcd" := by
    decide +kernel
  obtain ⟨d', added, views, hinsert, hadded, hviews, hplain, hcontent, -⟩ :=
    insertInto_loose hblocks hdepth hreachable hold
  exact ⟨d', added, views, hreachable, hinsert, hadded, hviews, hplain.trans htexts,
    fun view hview => (hcontent view hview).1⟩

end Galley
