import Galley.Proofs.Conversion.ExistingContent
import Galley.Proofs.Conversion.UsualRoles
import Galley.Proofs.Document.Moved

/-!
  What an insertion adds depends on the markup and on the kind of its target, and on nothing else.

  Two insertions of one conversion, into targets of one kind, make the same calls: a context of one
  run stands for the moved context of the other (`Context.relocate`), and since effects look at the
  kind of a context alone (`Role.effect_congr`) a call adds the same objects in moved slots
  (`Effect.alike_applyTo`). So the context in force moves along (`inForce_relocate`), and by
  induction over the places of a visit both runs end alike and leave documents that have grown
  alike (`visit_relocate`).
-/

namespace Galley

namespace Context

/-- The context of the same kind in a moved slot. -/
def relocate (image : Nat → Nat) : Context → Context
  | inSection id => .inSection ⟨image id.slot⟩
  | inParagraph id => .inParagraph ⟨image id.slot⟩
  | inRun id => .inRun ⟨image id.slot⟩
  | inHyperlink id => .inHyperlink ⟨image id.slot⟩

variable {image : Nat → Nat} {context context' : Context}

theorem kind_relocate (context : Context) : (context.relocate image).kind = context.kind := by
  cases context <;> rfl

theorem eq_relocate (hkind : context.kind = context'.kind)
    (hslot : image context.slot = context'.slot) : context' = context.relocate image := by
  cases context <;> cases context' <;> cases hkind <;> simp only [slot] at hslot <;>
    simp only [relocate, hslot]

end Context

/-- Effects look at no more of a context than its kind. -/
theorem Role.effect_congr (role : Role) (place : Location) {context context' : Context}
    (hkind : context.kind = context'.kind) :
    role.effect place context = role.effect place context' := by
  cases context <;> cases context' <;> cases hkind <;> cases role <;> rfl

theorem Role.effect_relocate (role : Role) (place : Location) (context : Context)
    (image : Nat → Nat) :
    role.effect place (context.relocate image) = role.effect place context :=
  role.effect_congr place context.kind_relocate

namespace Effect

variable {home : Nat → Prop} {start start' next : Nat}
  {move : Document.Move home start start'} {owner : SectionId} {context : Context}

theorem result_relocate (hnext : start ≤ next) (effect : Effect) :
    effect.result (context.relocate move.image) (move.image next) =
      (effect.result context next).relocate move.image := by
  cases effect with
  | nothing => rfl
  | flag format => rfl
  | blocks before value after =>
    simp only [result, Context.relocate, move.image_add hnext]
  | content value =>
    cases value <;> cases context <;>
      simp only [result, Context.relocate, Context.openings, Context.afterContent,
        move.image_add hnext]

theorem slot_container_relocate (context : Context) (next : Nat) :
    ((context.relocate move.image).container (move.image next)).slot =
      move.image (context.container next).slot := by
  cases context <;> rfl

theorem additions_relocate (effect : Effect) :
    effect.additions ⟨move.image owner.slot⟩ (context.relocate move.image) (move.image next) =
      (effect.additions owner context next).map fun addition =>
        (move.image addition.1, addition.2) := by
  cases effect with
  | nothing => rfl
  | flag format => rfl
  | blocks before value after =>
    rw [additions, additions, List.map_map]
    rfl
  | content value =>
    rw [additions, additions, slot_container_relocate, List.map_append]
    cases context <;> rfl

/-- A call in a moved context changes a document that has grown alike in the same way. -/
theorem alike_applyTo {d e : Document} (h : Document.Alike move d e) (hlive : Live d owner context)
    (hrun : ∀ id, context = .inRun id → start ≤ id.slot) (effect : Effect) :
    Document.Alike move (effect.applyTo owner context d)
      (effect.applyTo ⟨move.image owner.slot⟩ (context.relocate move.image) e) := by
  have hpush : Document.Alike move (d.pushAll (effect.additions owner context d.size))
      (e.pushAll (effect.additions ⟨move.image owner.slot⟩ (context.relocate move.image)
        e.size)) := by
    rw [h.size_eq, additions_relocate]
    exact h.pushAll _
  cases effect with
  | nothing => exact hpush
  | flag format =>
    cases context with
    | inRun id =>
      obtain ⟨value, hobject⟩ := Document.object?_of_kind?_run hlive.isKind
      have hmoved : e.object? (move.image id.slot) = some (.run value) :=
        (h.object?_eq _ (hrun id rfl)).trans hobject
      rw [Context.relocate, applyTo_flag hobject, applyTo_flag hmoved]
      exact h.put (hrun id rfl) _
    | inSection id => exact h
    | inParagraph id => exact h
    | inHyperlink id => exact h
  | blocks before value after => exact hpush
  | content value => exact hpush

end Effect

/-! ## The context in force -/

/-- Answers that name moved slots. -/
def relocateAll (image : Nat → Nat) (answers : Answers) : Answers :=
  answers.map fun answer => (answer.1, answer.2.relocate image)

theorem relocateAll_nil (image : Nat → Nat) : relocateAll image [] = [] := rfl

section Rule

variable {registry : Registry} {target : Context} {root : Location} {answers : Answers}
  {image : Nat → Nat}

theorem answerAt?_relocate (place : Location) :
    answerAt? (relocateAll image answers) place =
      (answerAt? answers place).map (Context.relocate image) := by
  rw [answerAt?, answerAt?, relocateAll, List.find?_map, Option.map_map, Option.map_map]
  rfl

theorem nearestAnswer?_relocate (place : Location) :
    nearestAnswer? registry (relocateAll image answers) place =
      (nearestAnswer? registry answers place).map (Context.relocate image) := by
  unfold nearestAnswer?
  cases place.earlier.find? fun sibling => registry.handles sibling.node with
  | none => rfl
  | some sibling => exact answerAt?_relocate sibling

theorem continued?_relocate (place : Location) :
    continued? registry (relocateAll image answers) place =
      (continued? registry answers place).map (Context.relocate image) := by
  rw [continued?, continued?, nearestAnswer?_relocate]
  split
  · cases nearestAnswer? registry answers place with
    | none => rfl
    | some context => cases context <;> rfl
  · rfl

/-- The context in force moves along with the target and the answers. -/
theorem inForce_relocate (place : Location) :
    inForce registry (target.relocate image) root (relocateAll image answers) place =
      (inForce registry target root answers place).relocate image := by
  induction place using Location.back_induction with
  | top place hprevious hparent =>
    rw [inForce_of_top hprevious hparent, inForce_of_top hprevious hparent]
  | first place owner hprevious hparent ih =>
    rw [inForce_of_first hprevious hparent, inForce_of_first hprevious hparent, startInside,
      startInside, answerAt?_relocate, ih]
    split
    · rfl
    · split
      · cases answerAt? answers owner <;> rfl
      · rfl
  | later place sibling hprevious ih =>
    rw [inForce_of_previousSibling? hprevious, inForce_of_previousSibling? hprevious,
      continued?_relocate, ih]
    cases continued? registry answers place <;> rfl

end Rule

/-! ## Two runs -/

section Visit

variable {registry : Registry} {roles : TagKey → Option Role} {limit : Nat} {owner : SectionId}
  {target : Context} {root : Location} {d₀ e₀ : Document}
  {move : Document.Move (Run.home owner target) d₀.size e₀.size}

/-- Two visits, from documents that have grown alike and with answers that stand for each other,
    end alike and leave documents that have grown alike. -/
theorem visit_relocate (hassembled : registry.Assembled roles) (hlive : Live d₀ owner target)
    (hlive' : Live e₀ ⟨move.image owner.slot⟩ (target.relocate move.image))
    (htarget : ∀ id, target ≠ .inRun id) {places : List Location} (rest : List Location)
    {answers : Answers} {d e : Document}
    (hpast : Progress registry roles target root owner d₀ places answers d)
    (hpast' : Progress registry roles (target.relocate move.image) root ⟨move.image owner.slot⟩
      e₀ places (relocateAll move.image answers) e)
    (h : Document.Alike move d e) :
    ∃ outcome d' e',
      (visit registry limit target root answers rest).runOn d = (outcome, d') ∧
      (visit registry limit (target.relocate move.image) root (relocateAll move.image answers)
        rest).runOn e = (outcome.map (relocateAll move.image), e') ∧
      Document.Alike move d' e' := by
  induction rest generalizing places answers d e with
  | nil => exact ⟨_, d, e, rfl, rfl, h⟩
  | cons place rest ih =>
    by_cases hlevel : root.levelUnder place ≤ limit + 1
    · cases hrole : place.node.role? roles with
      | none =>
        have hnone := hassembled.handler?_of_none hrole
        rw [visit_cons_of_none rest hlevel hnone, visit_cons_of_none rest hlevel hnone]
        exact ih (hpast.pass place hrole) (hpast'.pass place hrole) h
      | some role =>
        have husable := hpast.usable hlive place
        have husable' := hpast'.usable hlive' place
        have hmoved : inForce registry (target.relocate move.image) root
            (relocateAll move.image answers) place =
              (inForce registry target root answers place).relocate move.image :=
          inForce_relocate place
        rw [runOn_visit_cons hassembled hrole husable.live hlevel,
          runOn_visit_cons hassembled hrole husable'.live hlevel, hmoved, Role.effect_relocate]
        cases heffect : role.effect place (inForce registry target root answers place) with
        | error cause => exact ⟨_, d, e, rfl, rfl, h⟩
        | ok effect =>
          have heffect' : role.effect place (inForce registry (target.relocate move.image) root
              (relocateAll move.image answers) place) = .ok effect := by
            rw [hmoved, Role.effect_relocate, heffect]
          have hnext := hpast'.call place hrole heffect'
          have hle := (hpast.keepsShape hlive).size_le
          rw [hmoved, h.size_eq, effect.result_relocate hle] at hnext
          dsimp only
          rw [h.size_eq, effect.result_relocate hle]
          refine ih (hpast.call place hrole heffect) hnext ?_
          refine effect.alike_applyTo h husable.live fun id hid => ?_
          rw [hid] at husable
          exact husable.size_le_of_inRun htarget
    · rw [visit_cons_of_tooDeep rest hlevel, visit_cons_of_tooDeep rest hlevel]
      exact ⟨_, d, e, rfl, rfl, h⟩

end Visit

/-! ## Two insertions -/

/-- A live context is the owner exactly if it is a section. -/
theorem Live.slot_eq_owner_iff {d : Document} {owner : SectionId} {context : Context}
    (h : Live d owner context) : context.slot = owner.slot ↔ context.kind = .sectionBlock := by
  constructor
  · intro hslot
    have hkind := h.isKind
    rw [hslot, h.isSection] at hkind
    exact (Option.some.inj hkind).symm
  · intro hkind
    cases context with
    | inSection id => rw [h.eq_of_inSection, Context.slot]
    | inParagraph id => exact absurd hkind nofun
    | inRun id => exact absurd hkind nofun
    | inHyperlink id => exact absurd hkind nofun

section Insertion

variable {roles : TagKey → Option Role} {d e : Document} {owner owner' : SectionId}
  {context context' : Context}

/-- The slots of one live context and its section stand for those of another of the same kind. -/
theorem exists_move (hlive : Live d owner context) (hlive' : Live e owner' context')
    (hkind : context.kind = context'.kind) :
    ∃ move : Document.Move (Run.home owner context) d.size e.size,
      move.image owner.slot = owner'.slot ∧ move.image context.slot = context'.slot := by
  let image (slot : Nat) : Nat :=
    if d.size ≤ slot then e.size + (slot - d.size)
    else if slot = owner.slot then owner'.slot else context'.slot
  have howner : image owner.slot = owner'.slot := by
    have := Document.lt_size_of_kind? hlive.isSection
    simp only [image, if_neg (Nat.not_le.2 this), if_pos]
  have hsame : context.slot = owner.slot ↔ context'.slot = owner'.slot := by
    rw [hlive.slot_eq_owner_iff, hlive'.slot_eq_owner_iff, hkind]
  have hcontext : image context.slot = context'.slot := by
    have := hlive.slot_lt
    simp only [image, if_neg (Nat.not_le.2 this)]
    split
    · next heq => exact (hsame.1 heq).symm
    · rfl
  have hold (slot : Nat) (hslot : Run.home owner context slot) : image slot < e.size := by
    rcases hslot with rfl | rfl
    · rw [howner]
      exact Document.lt_size_of_kind? hlive'.isSection
    · rw [hcontext]
      exact hlive'.slot_lt
  have hinjective (slot other : Nat) (hslot : Run.home owner context slot)
      (hother : Run.home owner context other) (heq : image slot = image other) :
      slot = other := by
    rcases hslot with rfl | rfl <;> rcases hother with rfl | rfl
    · rfl
    · rw [howner, hcontext] at heq
      exact (hsame.2 heq.symm).symm
    · rw [howner, hcontext] at heq
      exact hsame.2 heq
    · rfl
  refine ⟨⟨image, fun index => ?_, hold, hinjective⟩, howner, hcontext⟩
  simp only [image, if_pos (Nat.le_add_right d.size index), Nat.add_sub_cancel_left]

/-- One conversion, inserted into two targets of one kind, ends alike in both, and the documents
    grow alike. -/
theorem insertInto_alike {conversion : Conversion}
    (hassembled : conversion.converter.registry.Assembled roles) (hd : d.WellFormed)
    (he : e.WellFormed) {into into' : Target} (hresolve : d.resolve into = .ok context)
    (hresolve' : e.resolve into' = .ok context') (hkind : context.kind = context'.kind) :
    ∃ owner owner' outcome d' e',
      ∃ move : Document.Move (Run.home owner context) d.size e.size,
        Live d owner context ∧ Live e owner' context' ∧
        move.image owner.slot = owner'.slot ∧ move.image context.slot = context'.slot ∧
        (conversion.insertInto into).runOn d = (outcome, d') ∧
        (conversion.insertInto into').runOn e = (outcome, e') ∧ Document.Alike move d' e' := by
  obtain ⟨hinto, owner, hlive⟩ := live_of_resolve hd hresolve
  obtain ⟨-, owner', hlive'⟩ := live_of_resolve he hresolve'
  obtain ⟨move, howner, hcontext⟩ := exists_move hlive hlive' hkind
  have hmoved : context' = context.relocate move.image := Context.eq_relocate hkind hcontext
  have hlive₁ : Live e ⟨move.image owner.slot⟩ (context.relocate move.image) := by
    rw [howner, ← hmoved]
    exact hlive'
  have htarget : ∀ id, context ≠ .inRun id := by
    rw [hinto]
    exact into.context_ne_inRun
  obtain ⟨outcome, d', e', hvisit, hvisit', halike⟩ := visit_relocate hassembled hlive hlive₁
    htarget conversion.markup.descendants .start .start (.refl move)
  refine ⟨owner, owner', outcome.map fun _ => (), d', e', move, hlive, hlive', howner, hcontext,
    ?_, ?_, halike⟩
  · rw [runOn_insertInto hresolve, Edit.runOn_map, hvisit]
    cases outcome <;> rfl
  · rw [hmoved] at hresolve'
    rw [relocateAll_nil] at hvisit'
    rw [runOn_insertInto hresolve', Edit.runOn_map, hvisit']
    cases outcome <;> rfl

/-- Paragraphs can be viewed. -/
theorem exists_views {ids : List ParagraphId} (h : ∀ id ∈ ids, d.kind? id.slot = some .paragraph) :
    ∃ views : List ParagraphView, ids.map d.paragraphView = views.map .ok := by
  induction ids with
  | nil => exact ⟨[], rfl⟩
  | cons id ids ih =>
    obtain ⟨views, hviews⟩ := ih fun other hother => h other (List.mem_cons_of_mem _ hother)
    obtain ⟨value, hobject⟩ := Document.object?_of_kind?_paragraph (h id List.mem_cons_self)
    refine ⟨⟨value, d.inlineViews id.slot⟩ :: views, ?_⟩
    rw [List.map_cons, List.map_cons, hviews, Document.paragraphView_eq,
      Document.paragraph_eq_ok.2 hobject]
    rfl

theorem kind?_of_mem_newParagraphs {start : Nat} {id : ParagraphId}
    (h : id ∈ d.newParagraphs start) : d.kind? id.slot = some .paragraph := by
  obtain ⟨slot, hslot, rfl⟩ := List.mem_map.1 h
  exact beq_iff_eq.1 (List.mem_filter.1 hslot).2

/-- What an insertion has added to the section of its target, and to the target. -/
theorem insertInto_added {conversion : Conversion}
    (hassembled : conversion.converter.registry.Assembled roles) {d' : Document}
    (hd : d.Reachable) {into : Target} (hresolve : d.resolve into = .ok context)
    {outcome : Except ConvertError Unit}
    (hinsert : (conversion.insertInto into).runOn d = (outcome, d')) :
    ∃ owner old, Live d owner context ∧ d'.Reachable ∧
      Document.GrownFrom (Run.home owner context) d d' ∧
      d.paragraphs owner = .ok old ∧ d'.paragraphs owner = .ok (old ++ d'.newParagraphs d.size) ∧
      ∀ id, into = .intoParagraph id → context.slot = id.slot ∧ ∃ value content,
        d.paragraphView id = .ok ⟨value, content⟩ ∧ d'.paragraphView id =
          .ok ⟨value, content ++ (d'.newChildren d.size id.slot).filterMap d'.inlineViewAt?⟩ := by
  obtain ⟨owner, calls, hlive, hrun, -, -⟩ :=
    insertInto_run hassembled hd.wellFormed hresolve hinsert
  obtain ⟨rfl, -⟩ := live_of_resolve hd.wellFormed hresolve
  have hgrown := hrun.grownFrom into.context_ne_inRun
  obtain ⟨old, hold, hnew⟩ := hrun.paragraphs_append hlive hd
  refine ⟨owner, old, hlive, hrun.reachable hd, hgrown, hold, hnew, ?_⟩
  rintro id rfl
  obtain ⟨value, hobject⟩ := Document.object?_of_kind?_paragraph hlive.isKind
  have hcontent := hgrown.inlineViews_eq_append (Run.not_isInline_of_home hlive)
    (Document.lt_size_of_object? hobject)
  refine ⟨rfl, value, d.inlineViews id.slot, ?_, ?_⟩
  · rw [Document.paragraphView_eq, Document.paragraph_eq_ok.2 hobject]
    rfl
  · rw [Document.paragraphView_eq, Document.paragraph_eq_ok.2 (hgrown.object?_eq _ _ hobject)]
    exact congrArg (fun content => Except.ok (ParagraphView.mk value content)) hcontent

end Insertion

/-- **What an insertion adds depends on the markup and the kind of target alone.**

    For every conversion with the usual handlers under whatever keys, and every kind of target,
    there are one outcome, one list of paragraphs and one piece of content such that every insertion
    into a target of that kind, in whatever document, ends with this outcome, adds these paragraphs
    to the section of the target and, where the target is a paragraph, this content to it. The
    document that is left is reachable, so that the next insertion adds the same. -/
theorem insertInto_independent {conversion : Conversion} {roles : TagKey → Option Role}
    (hassembled : conversion.converter.registry.Assembled roles) (kind : ObjectKind) :
    ∃ (outcome : Except ConvertError Unit) (views : List ParagraphView) (more : List InlineView),
      ∀ (d : Document) into context, d.Reachable →
      d.resolve into = .ok context → context.kind = kind →
      ∃ d' owner old added, (conversion.insertInto into).runOn d = (outcome, d') ∧
        d'.Reachable ∧ d.nearestSection context = .ok owner ∧
        d.paragraphs owner = .ok old ∧ d'.paragraphs owner = .ok (old ++ added) ∧
        added.map d'.paragraphView = views.map .ok ∧
        ∀ id, into = .intoParagraph id → ∃ value content,
          d.paragraphView id = .ok ⟨value, content⟩ ∧
          d'.paragraphView id = .ok ⟨value, content ++ more⟩ := by
  by_cases hsample : ∃ (e : Document) (into : Target) (context : Context),
    e.Reachable ∧ e.resolve into = .ok context ∧ context.kind = kind
  · obtain ⟨e, into', context', he, hresolve', hkind'⟩ := hsample
    obtain ⟨-, -, outcome, e', -, -, -, -, -, -, hinsert', -, -⟩ :=
      insertInto_alike hassembled he.wellFormed he.wellFormed hresolve' hresolve' rfl
    obtain ⟨owner', -, hlive', hreachable', hgrown', -, -, -⟩ :=
      insertInto_added hassembled he hresolve' hinsert'
    obtain ⟨views, hviews⟩ : ∃ views : List ParagraphView,
        (e'.newParagraphs e.size).map e'.paragraphView = views.map .ok :=
      exists_views fun _ => kind?_of_mem_newParagraphs
    have hparents (child owner : Nat) (hchild : e.size ≤ child)
        (howner : e'.parent? child = some owner) :
        Run.home owner' context' owner ∨ e.size ≤ owner := by
      obtain ⟨other, hother, hhome⟩ :=
        hgrown'.parent?_new child hchild (Document.lt_size_of_parent? howner)
      rw [Option.some.inj (howner.symm.trans hother)]
      exact hhome
    refine ⟨outcome, views, (e'.newChildren e.size context'.slot).filterMap e'.inlineViewAt?, ?_⟩
    intro d into context hd hresolve hkind
    obtain ⟨owner₁, -, outcome₁, e₁, d', move, hlive₁, -, -, hcontext, hinsert₁, hinsert,
      halike⟩ := insertInto_alike hassembled he.wellFormed hd.wellFormed hresolve' hresolve
        (hkind'.trans hkind.symm)
    rw [hinsert'] at hinsert₁
    obtain ⟨rfl, rfl⟩ := Prod.mk.inj hinsert₁
    obtain rfl := Except.ok.inj (hlive₁.nearestSection.symm.trans hlive'.nearestSection)
    obtain ⟨owner, old, hlive, hreachable, -, hold, hnew, htarget⟩ :=
      insertInto_added hassembled hd hresolve hinsert
    refine ⟨d', owner, old, _, hinsert, hreachable, hlive.nearestSection, hold, hnew, ?_, ?_⟩
    · rw [halike.map_paragraphView_eq hreachable'.wellFormed hreachable.wellFormed hparents,
        hviews]
    · intro id hinto
      obtain ⟨hslot, value, content, hbefore, hafter⟩ := htarget id hinto
      have hcontent := halike.newContent_eq hreachable'.wellFormed hreachable.wellFormed hparents
        (.inl (.inr rfl))
      rw [hcontext, hslot] at hcontent
      refine ⟨value, content, hbefore, ?_⟩
      rw [hafter, hcontent]
  · refine ⟨.ok (), [], [], fun d into context hd hresolve hkind => ?_⟩
    exact absurd ⟨d, into, context, hd, hresolve, hkind⟩ hsample

/-- `x<p>y</p>` goes alike into an empty paragraph and into one that holds a text. -/
theorem insertInto_independent_paragraphs :
    let conversion : Conversion := ⟨.ofSettings {},
      ⟨.branch .fragment [.text "x", .branch (.element "p" []) [.text "y"]], []⟩⟩
    let d := (Document.empty.push 0 .sectionBlock).push 1 (.paragraph {})
    let e := d.push 2 (.text "old")
    ∃ outcome more d' e' value value' content content', d.Reachable ∧ e.Reachable ∧
      (conversion.insertInto (.intoParagraph ⟨2⟩)).runOn d = (outcome, d') ∧
      (conversion.insertInto (.intoParagraph ⟨2⟩)).runOn e = (outcome, e') ∧
      d.paragraphView ⟨2⟩ = .ok ⟨value, content⟩ ∧
      d'.paragraphView ⟨2⟩ = .ok ⟨value, content ++ more⟩ ∧
      e.paragraphView ⟨2⟩ = .ok ⟨value', content'⟩ ∧
      e'.paragraphView ⟨2⟩ = .ok ⟨value', content' ++ more⟩ := by
  intro conversion d e
  have hd : d.Reachable := .perform (.addParagraph ⟨1⟩) (.perform .addSection .empty rfl) rfl
  have he : e.Reachable := .perform (.addText (.paragraph ⟨2⟩) "old") hd rfl
  have hassembled : conversion.converter.registry.Assembled (usualRole? {}) :=
    assembled_withDefaults {}
  obtain ⟨outcome, views, more, hall⟩ := insertInto_independent hassembled .paragraph
  obtain ⟨d', -, -, -, hinsert, -, -, -, -, -, hmore⟩ :=
    hall d (.intoParagraph ⟨2⟩) (.inParagraph ⟨2⟩) hd rfl rfl
  obtain ⟨e', -, -, -, hinsert', -, -, -, -, -, hmore'⟩ :=
    hall e (.intoParagraph ⟨2⟩) (.inParagraph ⟨2⟩) he rfl rfl
  obtain ⟨value, content, hbefore, hafter⟩ := hmore ⟨2⟩ rfl
  obtain ⟨value', content', hbefore', hafter'⟩ := hmore' ⟨2⟩ rfl
  exact ⟨outcome, more, d', e', value, value', content, content', hd, he, hinsert, hinsert',
    hbefore, hafter, hbefore', hafter'⟩

end Galley
