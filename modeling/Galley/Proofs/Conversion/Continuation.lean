import Galley.Proofs.Conversion.Calls
import Galley.Proofs.Conversion.Failures
import Galley.Proofs.Conversion.TextsAndLinks

/-!
  How far content after loose text goes on in the paragraph of that text, with the usual handlers.

  Texts have a handler, so what a place right after a text goes on with is what that text's own
  handler gave: its own context, or the paragraph that it began in a section. Hence along siblings
  the context in force changes only at the first place that follows a contributing text in a
  section (`inForce_step`), and is the same from there on (`inForce_of_switch`). A heading after
  that place is refused (`contexts_of_children`).
-/

namespace Galley

namespace Location

theorem earlier_of_previousSibling? {place sibling : Location}
    (h : place.previousSibling? = some sibling) : place.earlier = sibling :: sibling.earlier := by
  obtain ⟨node, _ | ⟨⟨label, _ | ⟨previous, before⟩, after⟩, crumbs⟩⟩ := place
  · exact absurd h (by simp [previousSibling?])
  · exact absurd h (by simp [previousSibling?])
  · obtain rfl := Option.some.inj h
    rfl

theorem earlier_of_first {place : Location} (h : place.previousSibling? = none) :
    place.earlier = [] := by
  rw [← head?_earlier] at h
  exact List.head?_eq_none_iff.1 h

/-- What holds of every first sibling, and of every other one if it holds of the one before it,
    holds everywhere. -/
theorem sibling_induction {motive : Location → Prop}
    (first : ∀ place, place.previousSibling? = none → motive place)
    (later : ∀ place sibling, place.previousSibling? = some sibling → motive sibling →
      motive place)
    (place : Location) : motive place :=
  back_induction (fun place h _ => first place h) (fun place _ h _ _ => first place h) later place

/-- The earlier siblings of an earlier sibling. -/
theorem suffix_of_mem_earlier {place sibling : Location} (h : sibling ∈ place :: place.earlier) :
    sibling :: sibling.earlier <:+ place :: place.earlier := by
  induction place using sibling_induction with
  | first place hfirst =>
    rw [earlier_of_first hfirst, List.mem_singleton] at h
    exact h ▸ List.suffix_refl _
  | later place previous hprevious ih =>
    rcases List.mem_cons.1 h with rfl | hearlier
    · exact List.suffix_refl _
    · rw [earlier_of_previousSibling? hprevious] at hearlier ⊢
      exact (ih hearlier).trans (List.suffix_cons _ _)

/-- Of two siblings, one is the other or comes before it, or it comes after it. -/
theorem mem_or_suffix_earlier {place first second : Location}
    (hfirst : first ∈ place :: place.earlier) (hsecond : second ∈ place :: place.earlier) :
    first ∈ second :: second.earlier ∨ second :: second.earlier <:+ first.earlier := by
  rcases List.suffix_or_suffix_of_suffix (suffix_of_mem_earlier hfirst)
    (suffix_of_mem_earlier hsecond) with hbefore | hafter
  · exact .inl (hbefore.subset List.mem_cons_self)
  · rcases List.suffix_cons_iff.1 hafter with heq | hearlier
    · exact .inl (heq ▸ List.mem_cons_self)
    · exact .inr hearlier

theorem parent?_of_mem_earlier {place sibling : Location} (h : sibling ∈ place :: place.earlier) :
    sibling.parent? = place.parent? := by
  induction place using sibling_induction with
  | first place hfirst =>
    rw [earlier_of_first hfirst, List.mem_singleton] at h
    rw [h]
  | later place previous hprevious ih =>
    rcases List.mem_cons.1 h with rfl | hearlier
    · rfl
    · rw [earlier_of_previousSibling? hprevious] at hearlier
      exact (ih hearlier).trans (parent?_of_previousSibling? hprevious)

/-- The place has a handler and comes right after a text that goes into the document. -/
def FollowsText (registry : Registry) (place : Location) : Prop :=
  registry.handles place.node ∧ (place.previousSibling?.bind contributedText?).isSome

theorem not_followsText_of_first {registry : Registry} {place : Location}
    (h : place.previousSibling? = none) : ¬ place.FollowsText registry := by
  rintro ⟨-, htext⟩
  rw [h] at htext
  exact absurd htext Bool.false_ne_true

/-- Among a place and its earlier siblings, one that follows a text has a first one before it. -/
theorem exists_first_followsText {registry : Registry} {place : Location}
    (h : ∃ sibling ∈ place :: place.earlier, sibling.FollowsText registry) :
    ∃ switch ∈ place :: place.earlier, switch.FollowsText registry ∧
      ∀ sibling ∈ switch.earlier, ¬ sibling.FollowsText registry := by
  induction place using sibling_induction with
  | first place hfirst =>
    obtain ⟨sibling, hsibling, hfollows⟩ := h
    rw [earlier_of_first hfirst, List.mem_singleton] at hsibling
    exact absurd (hsibling ▸ hfollows) (not_followsText_of_first hfirst)
  | later place sibling hprevious ih =>
    rw [earlier_of_previousSibling? hprevious] at h ⊢
    by_cases hbefore : ∃ other ∈ sibling :: sibling.earlier, other.FollowsText registry
    · obtain ⟨switch, hswitch, hfollows⟩ := ih hbefore
      exact ⟨switch, List.mem_cons_of_mem _ hswitch, hfollows⟩
    · obtain ⟨other, hother, hfollows⟩ := h
      rcases List.mem_cons.1 hother with rfl | hother
      · refine ⟨other, List.mem_cons_self, hfollows, ?_⟩
        rw [earlier_of_previousSibling? hprevious]
        exact fun earlier hearlier hfollows' => hbefore ⟨earlier, hearlier, hfollows'⟩
      · exact absurd ⟨other, hother, hfollows⟩ hbefore

end Location

section Continuation

variable {settings : ConversionSettings} {limit : Nat} {owner : SectionId} {target : Context}
  {root : Location} {d₀ d : Document} {place next sibling : Location} {answers : Answers}

theorem handles_of_isText (h : sibling.node.isText) :
    (Registry.withDefaults settings).handles sibling.node :=
  Registry.handles_of_some ((assembled_withDefaults settings).handler?_of_some (role?_eq_text.2 h))

/-- What a place right after a text goes on with: what the handler of that text gave, if it is a
    paragraph. -/
theorem continued?_of_isText (answers : Answers) (hprevious : next.previousSibling? = some sibling)
    (htext : sibling.node.isText) (hhandles : (Registry.withDefaults settings).handles next.node) :
    continued? (.withDefaults settings) answers next =
      (answerAt? answers sibling).filter fun given => given.kind == .paragraph := by
  have hnearest : nearestAnswer? (.withDefaults settings) answers next =
      answerAt? answers sibling := by
    rw [nearestAnswer?, Location.earlier_of_previousSibling? hprevious, List.find?_cons,
      handles_of_isText htext]
    rfl
  rw [continued?, hprevious, if_pos ⟨hhandles, htext⟩, hnearest]
  cases answerAt? answers sibling with
  | none => rfl
  | some given => cases given <;> rfl

theorem continued?_of_not_isText {registry : Registry}
    (hprevious : next.previousSibling? = some sibling) (htext : ¬ sibling.node.isText) :
    continued? registry answers next = none := by
  rw [continued?, hprevious, if_neg]
  exact fun h => htext h.2

theorem continued?_of_not_handles {registry : Registry} (h : ¬ registry.handles next.node) :
    continued? registry answers next = none := by
  rw [continued?, if_neg fun hboth => h hboth.1]

theorem afterContent_of_kind_ne {context : Context} (size : Nat)
    (h : context.kind ≠ .sectionBlock) : context.afterContent size = context := by
  cases context with
  | inSection id => exact absurd rfl h
  | _ => rfl

theorem mem_descendants_of_previousSibling? (hnext : next ∈ root.descendants)
    (hprevious : next.previousSibling? = some sibling) : sibling ∈ root.descendants := by
  obtain ⟨done, rest, hsplit⟩ := Location.descendants_eq_of_previousSibling? hnext hprevious
  rw [hsplit]
  exact List.mem_append_right _ List.mem_cons_self

theorem lt_of_previousSibling? (hprevious : next.previousSibling? = some sibling)
    (hupto : next = place ∨ next.address < place.address) : sibling.address < place.address := by
  have hlt := Location.address_lt_of_previousSibling? hprevious
  rcases hupto with rfl | hless
  · exact hlt
  · exact List.lt_trans hlt hless

theorem isText_of_contributedText? {added : String} (h : place.contributedText? = some added) :
    place.node.isText := by
  by_contra hnot
  rw [contributedText?_of_not_isText hnot] at h
  exact absurd h nofun

/-- The call for a text that goes into the document adds it. -/
theorem effect_of_contributedText? {context : Context} {added : String}
    (h : place.contributedText? = some added) :
    Role.text.effect place context = .ok (.content (.text added)) := by
  rw [Role.effect, contribution?_eq_contributedText? (isText_of_contributedText? h), h]

/-- From one sibling to the next the context in force changes only where the next one follows a
    text that goes into the document: it is then the one that is left after that text. -/
theorem inForce_step (hlive : Live d₀ owner target)
    (hreach : Reaches (.withDefaults settings) limit target root d₀ place answers d)
    (hnext : next ∈ root.descendants) (hprevious : next.previousSibling? = some sibling)
    (hlt : sibling.address < place.address) :
    (¬ next.FollowsText (.withDefaults settings) →
      inForce (.withDefaults settings) target root answers next =
        inForce (.withDefaults settings) target root answers sibling) ∧
    (next.FollowsText (.withDefaults settings) → ∃ earlier d₁ added,
      Reaches (.withDefaults settings) limit target root d₀ sibling earlier d₁ ∧
        inForce (.withDefaults settings) target root earlier sibling =
          inForce (.withDefaults settings) target root answers sibling ∧
        sibling.contributedText? = some added ∧
        inForce (.withDefaults settings) target root answers next =
          (inForce (.withDefaults settings) target root answers sibling).afterContent d₁.size) := by
  have hstays : continued? (.withDefaults settings) answers next = none →
      inForce (.withDefaults settings) target root answers next =
        inForce (.withDefaults settings) target root answers sibling := by
    intro hnone
    rw [inForce_of_previousSibling? hprevious, hnone]
    rfl
  by_cases hhandles : (Registry.withDefaults settings).handles next.node
  case neg =>
    exact ⟨fun _ => hstays (continued?_of_not_handles hhandles), fun h => absurd h.1 hhandles⟩
  by_cases htext : sibling.node.isText
  case neg =>
    refine ⟨fun _ => hstays (continued?_of_not_isText hprevious htext), fun h => ?_⟩
    have hsome := h.2
    rw [hprevious, Option.bind_some, contributedText?_of_not_isText htext] at hsome
    exact absurd hsome Bool.false_ne_true
  have hmem := mem_descendants_of_previousSibling? hnext hprevious
  obtain ⟨earlier, d₁, effect, hsibling, hsame, heffect, hanswer, -⟩ :=
    hreach.exists_call (assembled_withDefaults settings) hlive hmem hlt (role?_eq_text.2 htext)
  have hcontinued := continued?_of_isText answers hprevious htext hhandles
  rw [hanswer] at hcontinued
  rw [inForce_of_previousSibling? hprevious, hcontinued]
  constructor
  · intro hfollows
    have hnone : sibling.contributedText? = none := by
      cases hadded : sibling.contributedText? with
      | none => rfl
      | some added =>
        refine absurd ⟨hhandles, ?_⟩ hfollows
        rw [hprevious, Option.bind_some, hadded]
        rfl
    rw [Role.effect, contribution?_eq_contributedText? htext, hnone] at heffect
    obtain rfl := Except.ok.inj heffect
    rw [Effect.result]
    cases inForce (.withDefaults settings) target root answers sibling <;> rfl
  · rintro ⟨-, hsome⟩
    rw [hprevious, Option.bind_some] at hsome
    obtain ⟨added, hadded⟩ := Option.isSome_iff_exists.1 hsome
    rw [effect_of_contributedText? hadded] at heffect
    obtain rfl := Except.ok.inj heffect
    refine ⟨earlier, d₁, added, hsibling, hsame, hadded, ?_⟩
    rw [Effect.result]
    cases inForce (.withDefaults settings) target root answers sibling <;> rfl

/-- A place goes on with what was in force at the sibling before it, or with what is left after
    that text. -/
theorem Reaches.inForce_cases (hlive : Live d₀ owner target)
    (hreach : Reaches (.withDefaults settings) limit target root d₀ place answers d)
    (hprevious : place.previousSibling? = some sibling) :
    ∃ earlier d₁, Reaches (.withDefaults settings) limit target root d₀ sibling earlier d₁ ∧
      ((inForce (.withDefaults settings) target root answers place =
          inForce (.withDefaults settings) target root earlier sibling ∧ d₁.Keeps d) ∨
        ∃ added, sibling.contributedText? = some added ∧
          inForce (.withDefaults settings) target root answers place =
            (inForce (.withDefaults settings) target root earlier sibling).afterContent d₁.size ∧
          (Effect.applyTo owner (inForce (.withDefaults settings) target root earlier sibling) d₁
            (.content (.text added))).Keeps d) := by
  have hassembled := assembled_withDefaults settings
  have hmem := mem_descendants_of_previousSibling? hreach.mem_descendants hprevious
  have hlt := Location.address_lt_of_previousSibling? hprevious
  obtain ⟨hstays, hswitches⟩ := inForce_step hlive hreach hreach.mem_descendants hprevious hlt
  by_cases hfollows : place.FollowsText (.withDefaults settings)
  · obtain ⟨earlier, d₁, added, hsibling, hsame, hadded, hafter⟩ := hswitches hfollows
    obtain ⟨earlier', d₁', effect, hsibling', -, heffect, -, hkeeps⟩ :=
      hreach.exists_call hassembled hlive hmem hlt
        (role?_eq_text.2 (isText_of_contributedText? hadded))
    obtain ⟨rfl, rfl⟩ := hsibling.unique hsibling'
    obtain rfl := Except.ok.inj ((effect_of_contributedText? hadded).symm.trans heffect)
    rw [← hsame] at hafter hkeeps
    exact ⟨earlier, d₁, hsibling, .inr ⟨added, hadded, hafter, hkeeps⟩⟩
  · obtain ⟨earlier, d₁, later, hsibling, hvisit, -, hsame⟩ := hreach.of_lt hmem hlt
    have hkeeps := hsibling.keeps_of_visit hassembled hlive hvisit
    exact ⟨earlier, d₁, hsibling, .inl ⟨(hstays hfollows).trans hsame.symm, hkeeps⟩⟩

/-- Before a switch, and everywhere if the siblings do not start in a section, the context in
    force is the one that the siblings start with. -/
theorem inForce_before_switch (hlive : Live d₀ owner target)
    (hreach : Reaches (.withDefaults settings) limit target root d₀ place answers d)
    (hnext : next ∈ root.descendants) (hupto : next = place ∨ next.address < place.address)
    {parent : Location} (hparent : next.parent? = some parent)
    (hstays : (startInside (.withDefaults settings) target root answers parent).kind ≠
        .sectionBlock ∨
      ∀ sibling ∈ next :: next.earlier, ¬ sibling.FollowsText (.withDefaults settings)) :
    inForce (.withDefaults settings) target root answers next =
      startInside (.withDefaults settings) target root answers parent := by
  induction next using Location.sibling_induction with
  | first next hfirst => exact inForce_of_first hfirst hparent
  | later next sibling hprevious ih =>
    have hless := lt_of_previousSibling? hprevious hupto
    have hsibling := ih (mem_descendants_of_previousSibling? hnext hprevious) (.inr hless)
      ((Location.parent?_of_previousSibling? hprevious).trans hparent)
      (hstays.imp id fun h other hother => h other
        (Location.earlier_of_previousSibling? hprevious ▸ List.mem_cons_of_mem _ hother))
    obtain ⟨hsame, hswitch⟩ := inForce_step hlive hreach hnext hprevious hless
    by_cases hfollows : next.FollowsText (.withDefaults settings)
    · obtain ⟨-, d₁, -, -, -, -, hafter⟩ := hswitch hfollows
      rcases hstays with hkind | hnone
      · rw [hafter, hsibling]
        exact afterContent_of_kind_ne d₁.size hkind
      · exact absurd hfollows (hnone next List.mem_cons_self)
    · rw [hsame hfollows, hsibling]

/-- From the switch on the context in force is the paragraph that the text before it began. -/
theorem inForce_of_switch (hlive : Live d₀ owner target)
    (hreach : Reaches (.withDefaults settings) limit target root d₀ place answers d)
    (hnext : next ∈ root.descendants) (hupto : next = place ∨ next.address < place.address)
    {parent : Location} (hparent : next.parent? = some parent) {id : SectionId}
    (hstart : startInside (.withDefaults settings) target root answers parent = .inSection id)
    {switch : Location} (hswitch : switch ∈ next :: next.earlier)
    (hfollows : switch.FollowsText (.withDefaults settings))
    (hfirst : ∀ sibling ∈ switch.earlier, ¬ sibling.FollowsText (.withDefaults settings)) :
    ∃ text earlier d₁ added, switch.previousSibling? = some text ∧
      Reaches (.withDefaults settings) limit target root d₀ text earlier d₁ ∧
      inForce (.withDefaults settings) target root earlier text = .inSection id ∧
      text.contributedText? = some added ∧
      inForce (.withDefaults settings) target root answers next = .inParagraph ⟨d₁.size⟩ := by
  induction next using Location.sibling_induction with
  | first next hnone =>
    rw [Location.earlier_of_first hnone, List.mem_singleton] at hswitch
    exact absurd (hswitch ▸ hfollows) (Location.not_followsText_of_first hnone)
  | later next sibling hprevious ih =>
    have hless := lt_of_previousSibling? hprevious hupto
    have hmem := mem_descendants_of_previousSibling? hnext hprevious
    have hsiblings := (Location.parent?_of_previousSibling? hprevious).trans hparent
    obtain ⟨hsame, hchanges⟩ := inForce_step hlive hreach hnext hprevious hless
    rcases List.mem_cons.1 hswitch with rfl | hearlier
    · rw [Location.earlier_of_previousSibling? hprevious] at hfirst
      have hsection := inForce_before_switch hlive hreach hmem (.inr hless) hsiblings (.inr hfirst)
      obtain ⟨earlier, d₁, added, htext, hthen, hadded, hafter⟩ := hchanges hfollows
      rw [hsection, hstart] at hthen hafter
      exact ⟨sibling, earlier, d₁, added, hprevious, htext, hthen, hadded, hafter⟩
    · rw [Location.earlier_of_previousSibling? hprevious] at hearlier
      obtain ⟨text, earlier, d₁, added, htext, hreached, hthen, hadded, hgiven⟩ :=
        ih hmem (.inr hless) hsiblings hearlier
      refine ⟨text, earlier, d₁, added, htext, hreached, hthen, hadded, ?_⟩
      by_cases hagain : next.FollowsText (.withDefaults settings)
      · obtain ⟨-, d₂, -, -, -, -, hafter⟩ := hchanges hagain
        rw [hafter, hgiven]
        rfl
      · rw [hsame hagain, hgiven]

/-- A walk that comes to a place has come to all its earlier siblings. -/
theorem reaches_of_mem_earlier {registry : Registry}
    (h : Reaches registry limit target root d₀ place answers d)
    (hnext : next ∈ place :: place.earlier) :
    ∃ before d', Reaches registry limit target root d₀ next before d' := by
  induction place using Location.sibling_induction generalizing answers d with
  | first place hfirst =>
    rw [Location.earlier_of_first hfirst, List.mem_singleton] at hnext
    exact ⟨answers, d, hnext ▸ h⟩
  | later place sibling hprevious ih =>
    rcases List.mem_cons.1 hnext with rfl | hearlier
    · exact ⟨answers, d, h⟩
    · rw [Location.earlier_of_previousSibling? hprevious] at hearlier
      obtain ⟨before, d₁, -, hsibling, -⟩ :=
        h.of_lt (mem_descendants_of_previousSibling? h.mem_descendants hprevious)
          (Location.address_lt_of_previousSibling? hprevious)
      exact ih hsibling hearlier

theorem descendants_of_isText (h : place.node.isText) : place.descendants = [] := by
  obtain ⟨node, crumbs⟩ := place
  cases node with
  | text content => rfl
  | comment content => rfl
  | branch label nodes => exact absurd h Bool.false_ne_true

/-- Right after a text in a section a walk goes on with a new paragraph, the last one of the
    section, that holds the text. -/
theorem reaches_after_text (hlive : Live d₀ owner target)
    {earlier : Answers} {d₁ : Document} {added : String}
    (hreach : Reaches (.withDefaults settings) limit target root d₀ place answers d)
    (htext : Reaches (.withDefaults settings) limit target root d₀ sibling earlier d₁)
    (hprevious : place.previousSibling? = some sibling)
    (hcontext : inForce (.withDefaults settings) target root earlier sibling = .inSection owner)
    (hadded : sibling.contributedText? = some added) :
    d = (d₁.push owner.slot (.paragraph {})).push d₁.size (.text added) := by
  have hnode := isText_of_contributedText? hadded
  have hlevel := htext.level_le
  have hlive₁ := htext.live (assembled_withDefaults settings) hlive sibling
  have hvisit := hreach.of_previousSibling? htext hprevious (descendants_of_isText hnode)
  rw [runOn_visit_cons (assembled_withDefaults settings) (role?_eq_text.2 hnode) hlive₁ hlevel,
    effect_of_contributedText? hadded] at hvisit
  dsimp only at hvisit
  rw [hcontext, applyTo_content] at hvisit
  exact (congrArg Prod.snd hvisit).symm

/-! ## Headings -/

theorem role?_of_heading {tag : String} (htag : tag ∈ headingTags)
    (hnode : place.node.isElement tag) :
    place.node.role? (usualRole? settings) = some .heading := by
  have hroles : ∀ tag ∈ headingTags, usualRole? settings (.element tag) = some .heading := by
    simp [headingTags, usualRole?, roleIn?, usualRoles]
  rw [Node.role?, isElement_iff_key?.1 hnode]
  exact hroles tag htag

theorem runOn_heading_inSection {id : SectionId} (hlive : Live d owner (.inSection id))
    {tag : String} (htag : tag ∈ headingTags) (hnode : place.node.isElement tag) :
    ∃ paragraph d', (Handler.heading place (.inSection id)).runOn d =
      (.ok (.inParagraph paragraph), d') := by
  have hlevel := level_ne_nil htag
  have hname := name?_of_key? (isElement_iff_key?.1 hnode)
  rw [runOn_heading hlive, Role.effect, Role.headingEffect, hname]
  dsimp only [Option.getD_some]
  rw [if_neg (by rwa [List.isEmpty_iff])]
  exact ⟨_, _, rfl⟩

end Continuation

/-- **How far content goes on after loose text.**

    Take the children of a node that a walk by the usual converter comes to, the context that they
    start with, and the one that a child is given, which its handler is called with or which what
    is inside it starts with. If they do not start in a section all are given what they start with.
    If they do, let a switch be the first child with a handler that comes right after a text that
    goes into the document: up to the switch, and everywhere without one, all are given the section,
    and from the switch on the paragraph that the text before it has just begun, the last of the
    section when the walk comes to the switch. So a heading right below the root of markup that goes
    into a section is accepted before the switch, and ends the insertion from there on. -/
theorem contexts_of_children {settings : ConversionSettings} {root : Location} {d : Document}
    (hd : d.Reachable) {target : Target} {context : Context}
    (hresolve : d.resolve target = .ok context) {place parent : Location} {answers : Answers}
    {middle : Document}
    (hreach : Reaches (.withDefaults settings) settings.maxDepth context root d place answers
      middle) (hparent : place.parent? = some parent) :
    let registry := Registry.withDefaults settings
    let start := startInside registry context root answers parent
    let given := inForce registry context root answers place
    (∀ handler, registry.handler? place.node = some handler →
      ∃ after, (walk registry settings.maxDepth context root).runOn d =
        ((fun _ => (registry.handled root.descendants).length) <$> do
          let result ← handler place given
          visit registry settings.maxDepth context root ((place, result) :: answers)
            after).runOn middle) ∧
    (registry.handler? place.node = none →
      startInside registry context root answers place = given) ∧
    (start.kind ≠ .sectionBlock → given = start) ∧
    (∀ id, start = .inSection id →
      ((∀ sibling ∈ place :: place.earlier, ¬ sibling.FollowsText registry) → given = start) ∧
      ∀ switch ∈ place :: place.earlier, switch.FollowsText registry →
        (∀ sibling ∈ switch.earlier, ¬ sibling.FollowsText registry) →
        ∃ text earlier d₁ answers₂ d₂ old begun, switch.previousSibling? = some text ∧
          Reaches registry settings.maxDepth context root d text earlier d₁ ∧
          Reaches registry settings.maxDepth context root d switch answers₂ d₂ ∧
          d₁.paragraphs id = .ok old ∧ d₂.paragraphs id = .ok (old ++ [begun]) ∧
          given = .inParagraph begun) ∧
    (∀ id, target = .intoSection id → parent = root → ∀ tag ∈ headingTags,
      place.node.isElement tag →
      ((∀ sibling ∈ place :: place.earlier, ¬ sibling.FollowsText registry) →
        ∃ paragraph d', (Handler.heading place given).runOn middle =
          (.ok (.inParagraph paragraph), d')) ∧
      ((∃ sibling ∈ place :: place.earlier, sibling.FollowsText registry) →
        (Conversion.insertInto ⟨.ofSettings settings, root⟩ target).runOn d =
          (.error (.unexpectedContext (some (.element tag)) .aSection .paragraph), middle))) := by
  intro registry start given
  obtain ⟨rfl, owner, hlive⟩ := live_of_resolve hd.wellFormed hresolve
  have hmem := hreach.mem_descendants
  have hassembled := assembled_withDefaults settings
  have hstays := inForce_before_switch hlive hreach hmem (.inl rfl) hparent
  refine ⟨fun handler hhandler => ?_, fun hnone => ?_, fun hkind => hstays (.inl hkind),
    fun id hstart => ⟨fun hnone => hstays (.inr hnone), ?_⟩, ?_⟩
  · obtain ⟨after, hwalk⟩ := runOn_walk_of_reaches hreach
    rw [hhandler] at hwalk
    exact ⟨after, hwalk⟩
  · have hdeeper := Location.length_crumbs_lt_of_mem_descendants hmem
    exact (startInside_of_not_handled answers hdeeper hnone).trans
      (inForce_of_not_handled hnone answers).symm
  · intro switch hamong hfollows hfirst
    obtain ⟨text, earlier, d₁, added, htext, hbefore, hcontext, hadded, hgiven⟩ :=
      inForce_of_switch hlive hreach hmem (.inl rfl) hparent hstart hamong hfollows hfirst
    obtain ⟨answers₂, d₂, hat⟩ := reaches_of_mem_earlier hreach hamong
    have hlive₁ := hbefore.live hassembled hlive text
    rw [hcontext] at hlive₁
    obtain rfl := hlive₁.eq_of_inSection
    obtain rfl := reaches_after_text hlive hat hbefore htext hcontext hadded
    have hold := Document.paragraphs_eq_ok.2 ⟨Document.object?_of_kind?_section hlive₁.isKind, rfl⟩
    refine ⟨text, earlier, d₁, answers₂, _, _, ⟨d₁.size⟩, htext, hbefore, hat, hold, ?_, hgiven⟩
    exact Document.paragraphs_push_other (Document.paragraphs_push_paragraph hold) nofun
  · rintro id rfl rfl tag htag hnode
    have hstart : start = .inSection id := if_pos rfl
    have hhandler : registry.handler? place.node = some Role.heading.handler := by
      rw [hassembled.handler?, role?_of_heading htag hnode]
      rfl
    constructor
    · intro hnone
      have hgiven : given = .inSection id := (hstays (.inr hnone)).trans hstart
      have hlive' := hreach.live hassembled hlive place
      change Live middle owner given at hlive'
      rw [hgiven] at hlive' ⊢
      exact runOn_heading_inSection hlive' htag hnode
    · intro hsome
      obtain ⟨switch, hamong, hfollows, hfirst⟩ := Location.exists_first_followsText hsome
      obtain ⟨-, -, d₁, -, -, -, -, -, hgiven⟩ :=
        inForce_of_switch hlive hreach hmem (.inl rfl) hparent hstart hamong hfollows hfirst
      refine runOn_insertInto_of_fails hresolve hreach hhandler ?_
      change given = _ at hgiven
      have hlive' := hreach.live hassembled hlive place
      change Live middle owner given at hlive'
      show (Handler.heading place given).runOn middle = _
      rw [runOn_heading hlive', hgiven]
      show (Except.error (unexpectedContext place .aSection _), middle) = _
      rw [unexpectedContext, isElement_iff_key?.1 hnode]
      rfl

/-- A heading after loose text, which is refused. -/
theorem contexts_of_children_heading :
    let d : Document := Document.empty.push 0 .sectionBlock
    let root : Location := ⟨.branch .fragment [.text "x", .branch (.element "h1" []) []], []⟩
    let place : Location := ⟨.branch (.element "h1" []) [], [⟨.fragment, [.text "x"], []⟩]⟩
    ∃ answers middle, d.Reachable ∧
      Reaches (.withDefaults {}) 512 (.inSection ⟨1⟩) root d place answers middle ∧
      (Conversion.insertInto ⟨.ofSettings {}, root⟩ (.intoSection ⟨1⟩)).runOn d =
        (.error (.unexpectedContext (some (.element "h1")) .aSection .paragraph), middle) := by
  intro d root place
  let text : Location := ⟨.text "x", [⟨.fragment, [], [.branch (.element "h1" []) []]⟩]⟩
  have hreachable : d.Reachable := .perform .addSection .empty rfl
  have hlive : Live d ⟨1⟩ (.inSection ⟨1⟩) := ⟨rfl, rfl, .inl rfl⟩
  have heffect : Role.text.effect text (.inSection ⟨1⟩) = .ok (.content (.text "x")) := by
    decide +kernel
  have hgiven : inForce (.withDefaults {}) (.inSection ⟨1⟩) root [] text = .inSection ⟨1⟩ := by
    rw [inForce_of_first rfl rfl]
    exact if_pos rfl
  have hhandler : (Registry.withDefaults {}).handler? text.node = some Role.text.handler :=
    assembled_withDefaults {} .text
  have hreach : Reaches (.withDefaults {}) 512 (.inSection ⟨1⟩) root d place
      [(text, .inParagraph ⟨2⟩)] ((d.push 1 (.paragraph {})).push 2 (.text "x")) := by
    refine ⟨[text], [], rfl, by decide, ?_⟩
    rw [visit, if_pos (by decide), hhandler]
    dsimp only [callInForce]
    rw [hgiven, bind_assoc, Edit.runOn_bind, Role.runOn_handler hlive, heffect]
    rfl
  have hfollows : place.FollowsText (.withDefaults {}) :=
    ⟨by decide +kernel, by decide +kernel⟩
  have hresolve : d.resolve (.intoSection ⟨1⟩) = .ok (.inSection ⟨1⟩) := rfl
  have hparent : place.parent? = some root := rfl
  obtain ⟨-, -, -, -, hheading⟩ := contexts_of_children hreachable hresolve hreach hparent
  have hrefused := (hheading ⟨1⟩ rfl rfl "h1" List.mem_cons_self rfl).2
  exact ⟨_, _, hreachable, hreach, hrefused ⟨place, List.mem_cons_self, hfollows⟩⟩

end Galley
