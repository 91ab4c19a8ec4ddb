import Galley.Proofs.Conversion.NearestBlock

/-!
  The block skeleton that the usual converter makes of markup.

  `Location.blockStyles` and `Location.blockAlignment?` say, without a walk, which styles and which
  alignment a place of the markup brings into the section, whatever is around it. A call adds the
  paragraphs of its handler (`paragraphs_of_effect`), and these carry what its place stands for
  (`blocks_of_role`). So the styles, and the alignments, of the new paragraphs are those of the
  places in the order of the markup; and where inline content has its paragraph already, there are
  no others (`insertInto_skeleton`).
-/

namespace Galley

/-! ## What places stand for -/

/-- The styles of the paragraphs of an item: its own, after a start marker if no item of its parent
    is before it, and before an end marker if none is after it. -/
def Location.itemStyles (place : Location) : List String :=
  let crumb? := place.crumbs.head?
  (if crumb?.any fun crumb => crumb.before.any Node.isItem then [] else ["ListStart"]) ++
    (if crumb?.any fun crumb => crumb.label.name? = some "ol" then "OrderedList"
      else "UnorderedList") ::
    (if crumb?.any fun crumb => crumb.after.any Node.isItem then [] else ["ListEnd"])

/-- The styles that a place brings into the section. -/
def Location.blockStyles (place : Location) : List String :=
  match place.node.name? with
  | some "h1" => ["Heading1"]
  | some "h2" => ["Heading2"]
  | some "h3" => ["Heading3"]
  | some "h4" => ["Heading4"]
  | some "h5" => ["Heading5"]
  | some "h6" => ["Heading6"]
  | some "hr" => ["HorizontalRule"]
  | some "li" => place.itemStyles
  | _ => []

/-- The alignment that a place brings into the section. -/
def Location.blockAlignment? (place : Location) : Option Alignment :=
  match place.node.name? with
  | some "p" | some "div" => (place.node.attr? "style").bind textAlignment
  | _ => none

/-- The paragraphs of a place that is no heading. -/
def Location.blocks (place : Location) : List Paragraph :=
  match place.node.name? with
  | some "p" | some "div" => [{ alignment := place.blockAlignment? }]
  | some "hr" => [styled "HorizontalRule"]
  | some "li" => itemBlocks (.ofLocation place)
  | _ => []

theorem name?_of_isText {node : Node} (h : node.isText) : node.name? = none := by
  cases node with
  | branch label nodes => exact absurd h Bool.false_ne_true
  | _ => rfl

theorem styles_itemBlocks {place : Location} (h : place.node.isElement "li") :
    (itemBlocks (.ofLocation place)).filterMap Paragraph.style = place.itemStyles := by
  have hstyles (position : ItemPosition) :
      (itemBlocks position).filterMap Paragraph.style =
        (if position.isFirst then ["ListStart"] else []) ++ position.kind.style ::
          (if position.isLast then ["ListEnd"] else []) := by
    unfold itemBlocks
    cases position.isFirst <;> cases position.isLast <;> rfl
  rw [hstyles]
  obtain ⟨node, crumbs⟩ := place
  cases crumbs with
  | nil => rfl
  | cons crumb crumbs =>
    have hli : node.isElement "li" = true := h
    have hmarker (among : Bool) (styles : List String) :
        (if !among then styles else []) = if among then [] else styles := by
      cases among <;> rfl
    have hkind : ListKind.style (if crumb.label.name? == some "ol" then .ordered else .unordered) =
        if crumb.label.name? = some "ol" then "OrderedList" else "UnorderedList" := by
      simp only [beq_iff_eq, apply_ite ListKind.style]
      rfl
    simp only [ItemPosition.ofLocation, hli, Bool.true_and, hmarker, hkind]
    simp only [Location.itemStyles, List.head?_cons, Option.any_some, decide_eq_true_eq]
    rfl

theorem alignments_itemBlocks (position : ItemPosition) :
    (itemBlocks position).filterMap Paragraph.alignment = [] := by
  unfold itemBlocks
  cases position.isFirst <;> cases position.isLast <;> rfl

section Roles

variable {settings : ConversionSettings} {place : Location} {role : Role}

/-- A call adds what its place stands for. One line for each of the usual tags: headings, the two
    paragraph tags, rules, items, and those of inline content. -/
theorem blocks_of_role (h : place.node.role? (usualRole? settings) = some role) :
    (role.blocks place).filterMap Paragraph.style = place.blockStyles ∧
      (role.blocks place).filterMap Paragraph.alignment = place.blockAlignment?.toList ∧
      (role ≠ .heading → role.blocks place = place.blocks) := by
  obtain ⟨key, hkey, hentry⟩ := mem_usualRoles_of_role? h
  have halignment (alignment : Option Alignment) :
      [({ alignment := alignment } : Paragraph)].filterMap Paragraph.alignment =
        alignment.toList := by
    cases alignment <;> rfl
  unfold Role.blocks Location.blockStyles Location.blocks Location.blockAlignment?
  cases key with
  | text =>
    have hrole : role = .text := by simpa [usualRoles] using hentry
    rw [hrole, name?_of_isText (isText_iff_key?.2 hkey)]
    exact ⟨rfl, rfl, fun _ => rfl⟩
  | element name =>
    have hli : name = "li" → place.node.isElement "li" :=
      fun h => isElement_iff_key?.2 (h ▸ hkey)
    simp only [usualRoles, List.mem_cons, Prod.mk.injEq, List.not_mem_nil, or_false,
      TagKey.element.injEq, reduceCtorEq, false_and] at hentry
    rw [name?_of_key? hkey]
    rcases hentry with ⟨rfl, rfl⟩ | ⟨rfl, rfl⟩ | ⟨rfl, rfl⟩ | ⟨rfl, rfl⟩ | ⟨rfl, rfl⟩ | ⟨rfl, rfl⟩ |
      ⟨rfl, rfl⟩ | ⟨rfl, rfl⟩ | ⟨rfl, rfl⟩ | ⟨rfl, rfl⟩ | ⟨rfl, rfl⟩ | ⟨rfl, rfl⟩ | ⟨rfl, rfl⟩ |
      ⟨rfl, rfl⟩ | ⟨rfl, rfl⟩ | ⟨rfl, rfl⟩ | ⟨rfl, rfl⟩ | ⟨rfl, rfl⟩
    iterate 6
      · exact ⟨rfl, rfl, fun h => absurd rfl h⟩
    iterate 2
      · exact ⟨rfl, halignment _, fun _ => rfl⟩
    · exact ⟨rfl, rfl, fun _ => rfl⟩
    · exact ⟨styles_itemBlocks (hli rfl), alignments_itemBlocks _, fun _ => rfl⟩
    iterate 8
      · exact ⟨rfl, rfl, fun _ => rfl⟩

/-- A place without a handler stands for no block. -/
theorem blocks_of_role?_none (h : place.node.role? (usualRole? settings) = none) :
    place.blockStyles = [] ∧ place.blockAlignment? = none ∧ place.blocks = [] := by
  have hname : ∀ tag ∈ blockTags, place.node.name? ≠ some tag := by
    intro tag htag hname
    have hblock : place.node.isBlock := List.any_eq_true.2 ⟨tag, htag, beq_iff_eq.2 hname⟩
    obtain ⟨role, hrole⟩ := role?_of_isBlock hblock
    rw [h] at hrole
    exact absurd hrole nofun
  refine ⟨?_, ?_, ?_⟩
  · unfold Location.blockStyles
    split
    iterate 8
      · next heq => exact absurd heq (hname _ (by decide))
    · rfl
  · unfold Location.blockAlignment?
    split
    iterate 2
      · next heq => exact absurd heq (hname _ (by decide))
    · rfl
  · unfold Location.blocks
    split
    iterate 4
      · next heq => exact absurd heq (hname _ (by decide))
    · rfl

/-- No paragraph of a block has both a style and an alignment. -/
theorem style_or_alignment_of_blocks :
    ∀ value ∈ role.blocks place, value.style = none ∨ value.alignment = none := by
  cases role with
  | heading => exact List.forall_mem_singleton.2 (.inr rfl)
  | paragraph => exact List.forall_mem_singleton.2 (.inl rfl)
  | horizontalRule => exact List.forall_mem_singleton.2 (.inr rfl)
  | listItem =>
    have hnone := List.filterMap_eq_nil_iff.1 (alignments_itemBlocks (.ofLocation place))
    exact fun value hvalue => .inr (hnone value hvalue)
  | _ => exact fun _ h => absurd h List.not_mem_nil

end Roles

/-! ## Along a run -/

theorem kind_of_headingEffect {place : Location} {context : Context} {effect : Effect}
    (h : Role.heading.effect place context = .ok effect) : context.kind = .sectionBlock := by
  cases Role.does_of_effect h with
  | heading => rfl

namespace Run

variable {roles : TagKey → Option Role} {owner : SectionId} {target : Context} {d₀ d : Document}
  {calls : List Call} {settings : ConversionSettings} {root : Location}

/-- Where a run does not start in a section, no call is given one: the only one that is live is
    older than the run. -/
theorem kind_context_ne (hrun : Run roles owner target d₀ calls d) (hlive : Live d₀ owner target)
    (htarget : target.kind ≠ .sectionBlock) :
    ∀ call ∈ calls, call.context.kind ≠ .sectionBlock := by
  induction hrun with
  | start => exact fun _ h => absurd h List.not_mem_nil
  | call call _ hcontext hsite _ _ ih =>
    refine List.forall_mem_append.2 ⟨ih, List.forall_mem_singleton.2 fun hkind => ?_⟩
    rcases hsite with heq | hle
    · exact htarget (heq ▸ hkind)
    · cases hgiven : call.context with
      | inSection id =>
        rw [hgiven] at hcontext hle
        have howner : id = owner := hcontext.eq_of_inSection
        have hlt : owner.slot < d₀.size := Document.lt_size_of_kind? hlive.isSection
        rw [howner] at hle
        exact absurd hlt (Nat.not_lt.2 hle)
      | _ =>
        rw [hgiven] at hkind
        exact absurd hkind nofun

theorem created_paragraphs (hrun : Run roles owner target d₀ calls d) :
    d.created DocumentObject.paragraph? d₀.size =
      calls.flatMap fun call => call.effect.paragraphs call.context :=
  hrun.created fun _ _ => rfl

variable (hrun : Run (usualRole? settings) owner target d₀ calls d)
  (hall : calls.map Call.place =
    ((Registry.withDefaults settings).handled root.descendants).map Prod.fst)

include hrun in
theorem style_or_alignment :
    ∀ value ∈ d.created DocumentObject.paragraph? d₀.size,
      value.style = none ∨ value.alignment = none := by
  rw [hrun.created_paragraphs]
  intro value hvalue
  obtain ⟨call, hcall, hvalue⟩ := List.mem_flatMap.1 hvalue
  rcases paragraphs_of_effect (hrun.of_mem call hcall).2 with heq | ⟨-, -, heq⟩
  · rw [heq] at hvalue
    exact style_or_alignment_of_blocks value hvalue
  · rw [heq, List.mem_singleton] at hvalue
    rw [hvalue]
    exact .inl rfl

include hrun hall

/-- What the new paragraphs carry is what the places bring, where a paragraph that carries nothing
    does not count. -/
theorem filterMap_created {α : Type} {select : Paragraph → Option α} (hselect : select {} = none)
    {part : Location → List α}
    (hpart : ∀ place role, place.node.role? (usualRole? settings) = some role →
      (role.blocks place).filterMap select = part place)
    (hother : ∀ place, place.node.role? (usualRole? settings) = none → part place = []) :
    (d.created DocumentObject.paragraph? d₀.size).filterMap select =
      root.descendants.flatMap part := by
  rw [hrun.created_paragraphs, List.filterMap_flatMap]
  refine flatMap_calls (assembled_withDefaults settings) hall (fun call hcall => ?_) hother
  obtain ⟨hrole, heffect⟩ := hrun.of_mem call hcall
  rw [← hpart call.place call.role hrole]
  rcases paragraphs_of_effect heffect with heq | ⟨-, hblocks, heq⟩
  · rw [heq]
  · rw [heq, hblocks, List.filterMap_cons_none hselect]

/-- Where no call is given a section, the new paragraphs are those of the blocks, and no block is a
    heading. -/
theorem created_eq_blocks (hkind : ∀ call ∈ calls, call.context.kind ≠ .sectionBlock) :
    d.created DocumentObject.paragraph? d₀.size = root.descendants.flatMap Location.blocks ∧
      ∀ place ∈ root.descendants, ∀ tag ∈ headingTags, ¬ place.node.isElement tag := by
  have hrole (call : Call) (hcall : call ∈ calls) : call.role ≠ .heading := by
    intro heading
    have heffect := (hrun.of_mem call hcall).2
    rw [heading] at heffect
    exact hkind call hcall (kind_of_headingEffect heffect)
  constructor
  · rw [hrun.created_paragraphs]
    refine flatMap_calls (assembled_withDefaults settings) hall (fun call hcall => ?_)
      fun place hnone => (blocks_of_role?_none hnone).2.2
    obtain ⟨hgiven, heffect⟩ := hrun.of_mem call hcall
    rw [← (blocks_of_role hgiven).2.2 (hrole call hcall)]
    exact (paragraphs_of_effect heffect).resolve_right fun h => hkind call hcall h.1
  · intro place hplace tag htag hnode
    have hheading : place.node.role? (usualRole? settings) = some .heading :=
      role?_of_heading htag hnode
    have hhandled : place ∈
        ((Registry.withDefaults settings).handled root.descendants).map Prod.fst := by
      refine List.mem_map.2 ⟨(place, Role.heading.handler), mem_handled.2 ⟨hplace, ?_⟩, rfl⟩
      exact (assembled_withDefaults settings).handler?_of_some hheading
    rw [← hall] at hhandled
    obtain ⟨call, hcall, rfl⟩ := List.mem_map.1 hhandled
    exact hrole call hcall (Option.some.inj ((hrun.of_mem call hcall).1.symm.trans hheading))

end Run

/-- **The blocks of the markup make the skeleton of the section, in their order.**

    Where the usual converter succeeds, all new paragraphs stand after the old ones in the section
    of the target. Those with a style have, one after the other, the styles of the headings, rules
    and items of the markup, those with an alignment the alignments that its `p` and `div` elements
    declare, and none has both. Where the target is a paragraph no heading is among the markup, and
    the new paragraphs are those of its `p`, `div`, `hr` and `li` elements and no others. -/
theorem insertInto_skeleton {settings : ConversionSettings} {root : Location} {d d' : Document}
    (hd : d.Reachable) {target : Target}
    (hinsert : (Conversion.insertInto ⟨.ofSettings settings, root⟩ target).runOn d =
      (.ok (), d')) :
    ∃ context owner old added values,
      d.resolve target = .ok context ∧
      d.nearestSection context = .ok owner ∧
      d.paragraphs owner = .ok old ∧
      d'.paragraphs owner = .ok (old ++ added) ∧
      added.map d'.paragraph = values.map Except.ok ∧
      values.filterMap Paragraph.style = root.descendants.flatMap Location.blockStyles ∧
      values.filterMap Paragraph.alignment =
        root.descendants.filterMap Location.blockAlignment? ∧
      (∀ value ∈ values, value.style = none ∨ value.alignment = none) ∧
      (∀ id, target = .intoParagraph id →
        values = root.descendants.flatMap Location.blocks ∧
        ∀ place ∈ root.descendants, ∀ tag ∈ headingTags, ¬ place.node.isElement tag) := by
  cases hresolve : d.resolve target with
  | error cause =>
    rw [Conversion.insertInto, Edit.runOn_bind, Edit.runOn_query, hresolve] at hinsert
    cases hinsert
  | ok context =>
    have hwell := hd.wellFormed
    obtain ⟨owner, calls, hlive, hrun, -, hall⟩ :=
      insertInto_run (assembled_withDefaults settings) hwell hresolve hinsert
    obtain ⟨rfl, -⟩ := live_of_resolve hwell hresolve
    obtain ⟨old, hold, hnew⟩ := hrun.paragraphs_append hlive hd
    refine ⟨_, owner, old, _, d'.created DocumentObject.paragraph? d.size, rfl,
      hlive.nearestSection, hold, hnew, map_paragraph_filter _ _, ?_, ?_,
      hrun.style_or_alignment, ?_⟩
    · exact hrun.filterMap_created (hall rfl) rfl (fun _ _ h => (blocks_of_role h).1)
        fun _ h => (blocks_of_role?_none h).1
    · have halignments := hrun.filterMap_created (hall rfl) rfl
        (fun _ _ h => (blocks_of_role h).2.1) fun place h => by
          rw [(blocks_of_role?_none h).2.1, Option.toList_none]
      rw [← List.filterMap_eq_flatMap_toList] at halignments
      exact halignments
    · rintro id rfl
      have hkind : ObjectKind.paragraph ≠ .sectionBlock := by decide
      exact hrun.created_eq_blocks (hall rfl) (hrun.kind_context_ne hlive hkind)

/-- An aligned paragraph in the first of two items, and a rule inside a link, after a heading. -/
theorem insertInto_skeleton_nested :
    let d : Document := Document.empty.push 0 .sectionBlock
    let centered : Node := .branch (.element "p" [⟨"style", "text-align: Center"⟩]) []
    let root : Location :=
      ⟨.branch .fragment
        [.branch (.element "h2" []) [],
          .branch (.element "ul" [])
            [.branch (.element "li" []) [centered], .branch (.element "li" []) []],
          .branch (.element "a" []) [.branch (.element "hr" []) []]], []⟩
    ∃ d' added, ∃ values : List Paragraph, d.Reachable ∧
      (Conversion.insertInto ⟨.ofSettings {}, root⟩ (.intoSection ⟨1⟩)).runOn d = (.ok (), d') ∧
      d'.paragraphs ⟨1⟩ = .ok added ∧ added.map d'.paragraph = values.map Except.ok ∧
      values.filterMap Paragraph.style =
        ["Heading2", "ListStart", "UnorderedList", "UnorderedList", "ListEnd", "HorizontalRule"] ∧
      values.filterMap Paragraph.alignment = [.center] := by
  intro d centered root
  have hreachable : d.Reachable := .perform .addSection .empty rfl
  have hstyles : root.descendants.flatMap Location.blockStyles =
      ["Heading2", "ListStart", "UnorderedList", "UnorderedList", "ListEnd", "HorizontalRule"] := by
    decide +kernel
  have halignments : root.descendants.filterMap Location.blockAlignment? = [.center] := by
    decide +kernel
  have hinsert :
      (Conversion.insertInto ⟨.ofSettings {}, root⟩ (.intoSection ⟨1⟩)).runOn d =
        (.ok (), (((d.pushAll ([styled "Heading2", styled "ListStart",
          { style := some "UnorderedList", listInfo := some ⟨.bulletList1, false⟩ },
          { alignment := some .center },
          { style := some "UnorderedList", listInfo := some ⟨.bulletList1, true⟩ },
          styled "ListEnd", {}].map fun value => (1, .paragraph value))).push 8
            (.hyperlink ⟨"", .web⟩)).push 1 (.paragraph (styled "HorizontalRule")))) := by
    decide +kernel
  obtain ⟨context, owner, old, added, values, hresolve, howner, hold, hnew, hvalues, hstyle,
    halignment, -, -⟩ := insertInto_skeleton hreachable hinsert
  obtain rfl : context = .inSection ⟨1⟩ := (Except.ok.inj hresolve).symm
  obtain rfl : owner = ⟨1⟩ := (Except.ok.inj howner).symm
  obtain rfl : old = [] := (Except.ok.inj hold).symm
  exact ⟨_, added, values, hreachable, hinsert, hnew, hvalues, hstyle.trans hstyles,
    halignment.trans halignments⟩

end Galley
