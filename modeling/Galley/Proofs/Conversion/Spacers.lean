import Mathlib.Data.List.Flatten
import Galley.Proofs.Conversion.Idle

/-!
  What is left of a spacer: a `span` whose texts, at any depth, come to one no-break space.

  The handler of spans looks at all texts inside a span, that of texts at the parent of a text only.
  So a spacer's own call does nothing, and all that is inside it is called in the context that the
  spacer was given. Whether the document stays as it is depends on the calls inside
  (`spacer_leaves_document_iff`): the no-break space itself is passed over exactly where its parent
  is a span, and gets into the document from inside anything else
  (`spacer_with_strong_adds`).
-/

namespace Galley

/-! ## Texts inside a spacer -/

namespace Location

/-- The characters of a text node. -/
def content (place : Location) : List Char := (place.node.text?.getD "").toList

mutual

theorem toList_innerText_below (crumbs : List Crumb) (node : Node) :
    node.innerText.toList =
      content ⟨node, crumbs⟩ ++ (below crumbs node).flatMap content :=
  match node with
  | .text _ => (List.append_nil _).symm
  | .comment _ => rfl
  | .branch label nodes => toList_innerTexts_belowAll label crumbs [] nodes

theorem toList_innerTexts_belowAll (label : Label) (crumbs : List Crumb)
    (before nodes : List Node) :
    (Node.innerTexts nodes).toList = (belowAll label crumbs before nodes).flatMap content :=
  match nodes with
  | [] => rfl
  | node :: after => by
    have hnode := toList_innerText_below (⟨label, before, after⟩ :: crumbs) node
    have hafter := toList_innerTexts_belowAll label crumbs (node :: before) after
    rw [Node.innerTexts, String.toList_append, hnode, hafter, belowAll, List.flatMap_cons,
      List.flatMap_append, List.append_assoc]

end

/-- The inner text of a node with something inside it is that of the texts inside it. -/
theorem toList_innerText (place : Location) (h : place.node.text? = none) :
    place.node.innerText.toList = place.descendants.flatMap content := by
  have hinner := toList_innerText_below place.crumbs place.node
  rw [content, h] at hinner
  exact hinner

theorem text?_of_isElement {place : Location} {name : String} (h : place.node.isElement name) :
    place.node.text? = none := by
  obtain ⟨node, crumbs⟩ := place
  cases node with
  | text content => exact absurd h Bool.false_ne_true
  | _ => rfl

end Location

section Inside

variable {place inner owner : Location}

theorem isSpacer_iff : place.node.isSpacer ↔
    place.node.isElement "span" ∧ place.descendants.flatMap Location.content = [noBreakSpace] := by
  rw [Node.isSpacer, Bool.and_eq_true, beq_iff_eq, ← String.toList_inj]
  refine and_congr_right fun hspan => ?_
  rw [place.toList_innerText (Location.text?_of_isElement hspan)]
  rfl

/-- A text inside a spacer is the no-break space or empty. -/
theorem content_inside (hspacer : place.node.isSpacer) (hinner : inner ∈ place.descendants) :
    inner.content = [] ∨ inner.content = [noBreakSpace] := by
  have hsublist := (List.singleton_sublist.2 hinner).flatMap Location.content
  rw [List.flatMap_singleton, (isSpacer_iff.1 hspacer).2] at hsublist
  exact List.sublist_singleton.1 hsublist

/-- A span around the no-break space of a spacer is a spacer. -/
theorem isSpacer_inside (hspacer : place.node.isSpacer) (hinner : inner ∈ place.descendants)
    (hcontent : inner.content = [noBreakSpace]) (hparent : inner.parent? = some owner)
    (hspan : owner.node.isElement "span") : owner.node.isSpacer := by
  obtain ⟨owner', howner', hat⟩ := Location.parent?_of_mem_descendants hinner
  obtain rfl := Option.some.inj (hparent.symm.trans howner')
  rcases hat with rfl | howner
  · exact hspacer
  · have hsublist := (Location.descendants_sublist howner).flatMap Location.content
    rw [(isSpacer_iff.1 hspacer).2, List.sublist_singleton] at hsublist
    refine isSpacer_iff.2 ⟨hspan, hsublist.resolve_left fun hnil => ?_⟩
    have hempty := List.flatMap_eq_nil_iff.1 hnil inner
      (Location.mem_descendants_of_parent? hparent)
    rw [hcontent] at hempty
    exact absurd hempty (List.cons_ne_nil _ _)

/-- A text inside a spacer goes into the document exactly if it is the no-break space and its parent
    is no span. -/
theorem contributedText?_inside (hspacer : place.node.isSpacer) (hinner : inner ∈ place.descendants)
    {content : String} (htext : inner.node.text? = some content) :
    inner.contributedText? = none ↔ (content = noBreakSpace.toString →
      ∃ owner, inner.parent? = some owner ∧ owner.node.isElement "span") := by
  have hcases := content_inside hspacer hinner
  obtain ⟨owner, hparent, -⟩ := Location.parent?_of_mem_descendants hinner
  obtain ⟨node, crumbs⟩ := inner
  cases node with
  | comment other => exact absurd htext nofun
  | branch label nodes => exact absurd htext nofun
  | text other =>
    obtain rfl : other = content := Option.some.inj htext
    rcases hcases with hnil | hspace
    · obtain rfl : other = "" := String.toList_inj.1 hnil
      have hblank : hasContent (visibleText "") = false := by decide +kernel
      simp only [Location.contributedText?, hblank, Bool.false_and, Bool.false_eq_true, if_false]
      exact iff_of_true trivial fun heq => absurd heq (by decide)
    · obtain rfl : other = noBreakSpace.toString := String.toList_inj.1 hspace
      have hsome : hasContent (visibleText noBreakSpace.toString) = true := by decide +kernel
      simp only [Location.contributedText?, hsome, hparent, Option.any_some, Bool.true_and,
        forall_const, Option.some.injEq, exists_eq_left']
      by_cases hspan : owner.node.isElement "span"
      · rw [isSpacer_inside hspacer hinner hspace hparent hspan]
        exact iff_of_true rfl hspan
      · have hnot : owner.node.isSpacer = false := by
          rw [Node.isSpacer, Bool.eq_false_iff.2 hspan, Bool.false_and]
        rw [hnot]
        exact iff_of_false nofun hspan

end Inside

section Calls

variable {settings : ConversionSettings} {owner : SectionId} {context : Context} {d : Document}
  {place inner : Location}

/-- A text is idle exactly if it adds nothing. -/
theorem idle_iff_of_isText (hlive : Live d owner context) (htext : inner.node.isText) :
    (Registry.withDefaults settings).Idle context d inner ↔ inner.contributedText? = none := by
  have hhandler := (assembled_withDefaults settings).handler?_of_some (role?_eq_text.2 htext)
  have hcall : (Role.text.handler inner context).runOn d =
      Effect.perform owner context d (Role.text.effect inner context) := Role.runOn_handler hlive _
  constructor
  · intro hidle
    cases hadded : inner.contributedText? with
    | none => rfl
    | some added =>
      rw [hidle _ hhandler, effect_of_contributedText? hadded, Effect.perform] at hcall
      have hsize := congrArg Document.size (Prod.mk.inj hcall).2
      rw [applyTo_content, Document.size_push, size_opened] at hsize
      omega
  · intro hnone handler hfound
    obtain rfl := Option.some.inj (hhandler.symm.trans hfound)
    rw [hcall, Role.effect, contribution?_eq_contributedText? htext, hnone]
    rfl

theorem role?_of_isSpacer (hspacer : place.node.isSpacer) :
    place.node.role? (usualRole? settings) = some (.span settings.reservedSpanClass) :=
  role?_eq_span.2 (isSpacer_iff.1 hspacer).1

theorem effect_of_isSpacer (hspacer : place.node.isSpacer) (reserved : Option String) :
    (Role.span reserved).effect place context = .ok .nothing :=
  if_pos hspacer

/-- A spacer's own call does nothing. -/
theorem idle_of_isSpacer (hlive : Live d owner context) (hspacer : place.node.isSpacer) :
    (Registry.withDefaults settings).Idle context d place := by
  intro handler hfound
  have hhandler := (assembled_withDefaults settings).handler?_of_some (role?_of_isSpacer hspacer)
  obtain rfl := Option.some.inj (hhandler.symm.trans hfound)
  rw [Role.runOn_handler hlive, effect_of_isSpacer hspacer]
  rfl

end Calls

/-- **When a spacer leaves the document alone.** Where a walk with the usual handlers comes to a
    spacer, the spacer's own call does nothing, and the walk goes on with what is inside it. If each
    handler inside would give the spacer's context back and leave the document as it is, the walk
    over all of that leaves it so too, however it ends; and if it does not fail, only then. A spacer
    inside the spacer is such a place, and so is a text inside it, unless it is the no-break space
    and its parent is no span. -/
theorem spacer_leaves_document_iff {settings : ConversionSettings} {root : Location} {d : Document}
    (hd : d.Reachable) {target : Target} {context : Context}
    (hresolve : d.resolve target = .ok context) {place : Location}
    (hspacer : place.node.isSpacer) {answers : Answers} {middle : Document}
    (hreach : Reaches (.withDefaults settings) settings.maxDepth context root d place answers
      middle) :
    let registry := Registry.withDefaults settings
    let given := inForce registry context root answers place
    registry.handles place.node ∧ registry.Idle given middle place ∧
    (∃ done rest, root.descendants = done ++ place :: (place.descendants ++ rest) ∧
      (visit registry settings.maxDepth context root [] done).runOn d = (.ok answers, middle)) ∧
    (∀ outcome final, (visit registry settings.maxDepth context root answers
        (place :: place.descendants)).runOn middle = (outcome, final) →
      ((∀ inner ∈ place.descendants, registry.Idle given middle inner) → final = middle) ∧
      (∀ answers', outcome = .ok answers' → final = middle →
        ∀ inner ∈ place.descendants, registry.Idle given middle inner)) ∧
    (∀ inner ∈ place.descendants, inner.node.isSpacer → registry.Idle given middle inner) ∧
    (∀ inner ∈ place.descendants, ∀ content, inner.node.text? = some content →
      (registry.Idle given middle inner ↔ (content = noBreakSpace.toString →
        ∃ owner, inner.parent? = some owner ∧ owner.node.isElement "span"))) := by
  intro registry given
  obtain ⟨rfl, owner, hlive⟩ := live_of_resolve hd.wellFormed hresolve
  have hassembled := assembled_withDefaults settings
  have hmem := hreach.mem_descendants
  have hbelow := Location.length_crumbs_lt_of_mem_descendants hmem
  have hcontext : Live middle owner given := hreach.live hassembled hlive place
  have hrole : place.node.role? (usualRole? settings) = _ := role?_of_isSpacer hspacer
  have hhandles := Registry.handles_of_some (hassembled.handler?_of_some hrole)
  have hown : registry.Idle given middle place := idle_of_isSpacer hcontext hspacer
  -- The walk comes to what is inside with the spacer's own context as its answer.
  have hsettled : Settled registry ((place, given) :: answers) given [place] := by
    intro other hother _
    rw [List.mem_singleton.1 hother]
    exact answerAt?_cons_self place given
  have hinside : (visit registry settings.maxDepth target.context root answers
      (place :: place.descendants)).runOn middle =
        (visit registry settings.maxDepth target.context root ((place, given) :: answers)
          place.descendants).runOn middle := by
    rw [runOn_visit_cons hassembled hrole hcontext hreach.level_le, effect_of_isSpacer hspacer]
    rfl
  refine ⟨hhandles, hown, ?_, fun outcome final hvisit => ⟨fun hidle => ?_, ?_⟩,
    fun inner _ hinner => idle_of_isSpacer hcontext hinner, fun inner hinner content htext => ?_⟩
  · obtain ⟨done, rest, hsplit⟩ := Location.exists_descendants_eq hmem
    obtain ⟨before, after, hsplit', -, hbefore⟩ := hreach
    obtain ⟨rfl, -⟩ := Location.descendants_split_unique hsplit hsplit'
    exact ⟨done, rest, hsplit, hbefore⟩
  · have hsame : ((visit registry settings.maxDepth target.context root ((place, given) :: answers)
        place.descendants).runOn middle).2 = middle :=
      visit_of_idle hbelow hhandles (List.nil_append _).symm hsettled hidle
    rw [← hinside, hvisit] at hsame
    exact hsame
  · rintro answers' rfl rfl
    obtain ⟨done, hpast⟩ := hreach.exists_progress hassembled hlive
    have hcalled := hpast.call place hrole (effect_of_isSpacer hspacer _)
    exact hcalled.idle_of_visit hlive hbelow hhandles (List.nil_append _).symm hsettled
      (hinside.symm.trans hvisit)
  · have hisText : inner.node.isText := by
      cases hnode : inner.node with
      | text other => rfl
      | _ => exact absurd (hnode ▸ htext) nofun
    rw [idle_iff_of_isText hcontext hisText]
    exact contributedText?_inside hspacer hinner htext

/-- A spacer that holds its no-break space itself. -/
theorem spacer_leaves_document_iff_direct :
    let d : Document := Document.empty.push 0 .sectionBlock
    let span : Node := .branch (.element "span" []) [.text "\u00a0"]
    let root : Location := ⟨.branch .fragment [span], []⟩
    let place : Location := ⟨span, [⟨.fragment, [], []⟩]⟩
    d.Reachable ∧ d.resolve (.intoSection ⟨1⟩) = .ok (.inSection ⟨1⟩) ∧ place.node.isSpacer ∧
      Reaches (.withDefaults {}) 512 (.inSection ⟨1⟩) root d place [] d ∧
      ((visit (.withDefaults {}) 512 (.inSection ⟨1⟩) root [] (place :: place.descendants)).runOn
        d).2 = d := by
  intro d span root place
  have hreachable : d.Reachable := .perform .addSection .empty rfl
  have hresolve : d.resolve (.intoSection ⟨1⟩) = .ok (.inSection ⟨1⟩) := rfl
  have hspacer : place.node.isSpacer := by decide +kernel
  have hreach : Reaches (.withDefaults {}) 512 (.inSection ⟨1⟩) root d place [] d :=
    ⟨[], [_], rfl, by decide, rfl⟩
  obtain ⟨-, -, -, hvisit, -, htexts⟩ :=
    spacer_leaves_document_iff hreachable hresolve hspacer hreach
  obtain ⟨hleaves, -⟩ := hvisit _ _ rfl
  refine ⟨hreachable, hresolve, hspacer, hreach, hleaves fun inner hinner => ?_⟩
  obtain rfl := List.mem_singleton.1 hinner
  exact (htexts _ hinner _ rfl).2 fun _ => ⟨place, rfl, rfl⟩

/-- A spacer that holds its no-break space in bold: a paragraph, a run and a text are added. -/
theorem spacer_with_strong_adds :
    let d : Document := Document.empty.push 0 .sectionBlock
    let span : Node := .branch (.element "span" []) [.branch (.element "strong" []) [.text "\u00a0"]]
    let root : Location := ⟨.branch .fragment [span], []⟩
    let place : Location := ⟨span, [⟨.fragment, [], []⟩]⟩
    d.Reachable ∧ place.node.isSpacer ∧ root.descendants = place :: place.descendants ∧
      (Conversion.insertInto ⟨.ofSettings {}, root⟩ (.intoSection ⟨1⟩)).runOn d =
        (.ok (), ((d.push 1 (.paragraph {})).push 2 (.run (.ofFormat .bold))).push 3
          (.text "\u00a0")) := by
  intro d span root place
  have hreachable : d.Reachable := .perform .addSection .empty rfl
  have hspacer : place.node.isSpacer := by decide +kernel
  exact ⟨hreachable, hspacer, rfl, by decide +kernel⟩

end Galley
