import Galley.Proofs.Conversion.NearestBlock
import Galley.Proofs.Document.Order

/-!
  In which order a section shows the text in a block and what comes after the block.

  Blocks begin their paragraphs at the end of the section, so what is added for a later place comes
  later (`AddedFor.lt`). Only text that no block holds can go back to an earlier paragraph: the one
  that loose text before the block has begun, where content goes on in it. `GoesTo` says of a
  context to which paragraphs it leads. Calls that make no blocks keep it (`GoesTo.result`), so what
  holds at a node holds for all loose content inside it (`Reaches.goesTo`), and what holds at the
  later siblings of a block is told by the place of the switch (`goesTo_of_later`).
-/

namespace Galley

/-! ## The paragraph around inline content -/

namespace Live

variable {d : Document} {owner : SectionId} {context : Context}

/-- Where inline content goes: to a new paragraph, or to the one around the context. -/
theorem paragraphAt?_opened (owner : SectionId) (context : Context) (d : Document) :
    (Galley.opened owner context d).paragraphAt? (context.afterContent d.size).slot =
      if context.kind = .sectionBlock then some d.size else d.paragraphAt? context.slot := by
  cases context with
  | inSection id =>
    exact Document.paragraphAt?_of_paragraph
      (Document.kind?_of_object? Document.object?_push_self)
  | _ => rfl

/-- Inline content stands in the paragraph that it goes to. -/
theorem standsIn_content (h : Live d owner context) (value : Inline) :
    (Effect.applyTo owner context d (.content value)).StandsIn owner.slot
        (d.size + context.openings) ∧
      (Effect.applyTo owner context d (.content value)).paragraphAt? (d.size + context.openings) =
        (Galley.opened owner context d).paragraphAt? (context.afterContent d.size).slot := by
  have hcontainer := h.opened.standsIn (kind_afterContent d.size context)
  have hlt := h.opened.slot_lt
  rw [slot_afterContent] at hcontainer hlt ⊢
  rw [applyTo_content, ← size_opened owner]
  have hkeeps := Document.keepsShape_push (Galley.opened owner context d)
    (context.container d.size).slot value.object
  have hkind := Document.kind?_of_object? (@Document.object?_push_self
    (Galley.opened owner context d) (context.container d.size).slot value.object)
  have hparent := @Document.parent?_push_self
    (Galley.opened owner context d) (context.container d.size).slot value.object
  refine ⟨.inside hkind value.isInline_kind hparent hlt (hcontainer.of_keepsShape hkeeps), ?_⟩
  rw [Document.paragraphAt?_of_inline hkind value.isInline_kind hparent hlt]
  exact hcontainer.paragraphAt?_eq hkeeps

end Live

/-! ## Where contexts lead -/

/-- The paragraph that inline content in the context goes to is among the given ones, also if it is
    yet to be made. -/
structure GoesTo (among : Nat → Prop) (d : Document) (context : Context) : Prop where
  ofSection : context.kind = .sectionBlock → ∀ slot, d.size ≤ slot → among slot
  ofParagraph : context.kind ≠ .sectionBlock →
    ∃ slot, d.paragraphAt? context.slot = some slot ∧ among slot

namespace GoesTo

variable {among : Nat → Prop} {d d' : Document} {owner : SectionId} {context : Context}
  {effect : Effect}

theorem keep (h : GoesTo among d context) (hlive : Live d owner context) (hkeeps : d.Keeps d') :
    GoesTo among d' context where
  ofSection := fun hkind slot hle =>
    h.ofSection hkind slot (Nat.le_trans hkeeps.toKeepsShape.size_le hle)
  ofParagraph := fun hkind => by
    rw [(hlive.standsIn hkind).paragraphAt?_eq hkeeps.toKeepsShape]
    exact h.ofParagraph hkind

theorem exists_opened (h : GoesTo among d context) (owner : SectionId) : ∃ slot,
    (opened owner context d).paragraphAt? (context.afterContent d.size).slot = some slot ∧
      among slot := by
  rw [Live.paragraphAt?_opened]
  by_cases hkind : context.kind = .sectionBlock
  · rw [if_pos hkind]
    exact ⟨d.size, rfl, h.ofSection hkind d.size (Nat.le_refl _)⟩
  · rw [if_neg hkind]
    exact h.ofParagraph hkind

/-- What inline content leaves leads where the content went. -/
theorem content (h : GoesTo among d context) (hlive : Live d owner context) (value : Inline) :
    GoesTo among (Effect.applyTo owner context d (.content value))
      ((Effect.content value).result context d.size) := by
  obtain ⟨slot, hslot, hamong⟩ := h.exists_opened owner
  have hinner := (hlive.standsIn_content value).2.trans hslot
  have hsame : (Effect.applyTo owner context d (.content value)).paragraphAt?
      (context.afterContent d.size).slot = some slot := by
    rw [applyTo_content]
    exact ((hlive.opened.standsIn (Live.kind_afterContent d.size context)).paragraphAt?_eq
      (Document.keepsShape_push _ _ _)).trans hslot
  cases value with
  | run value => exact ⟨nofun, fun _ => ⟨slot, hinner, hamong⟩⟩
  | hyperlink value => exact ⟨nofun, fun _ => ⟨slot, hinner, hamong⟩⟩
  | text text =>
    exact ⟨fun hkind => absurd hkind (Live.kind_afterContent _ _), fun _ => ⟨slot, hsame, hamong⟩⟩
  | lineBreak =>
    exact ⟨fun hkind => absurd hkind (Live.kind_afterContent _ _), fun _ => ⟨slot, hsame, hamong⟩⟩

/-- **A call that makes no blocks leaves a context that leads where the given one did.** -/
theorem result (h : GoesTo among d context) (hlive : Live d owner context)
    (hblocks : effect.addsBlocks = false) :
    GoesTo among (effect.applyTo owner context d) (effect.result context d.size) := by
  cases effect with
  | nothing => exact h
  | flag format => exact h.keep hlive (hlive.keeps (.flag format))
  | blocks before value after => exact absurd hblocks nofun
  | content value => exact h.content hlive value

end GoesTo

/-! ## Owners at the top -/

/-- The nearest block around what is inside a top-level block without other blocks in it. -/
theorem blockAmong?_of_mem_descendants {root block place : Location}
    (htop : block.parent? = some root) (hblock : block.node.isBlock)
    (hplain : ∀ inner ∈ block.descendants, ¬ inner.node.isBlock)
    (hplace : place ∈ block.descendants) :
    blockAmong? (root.ownersUnder place) = some block := by
  rw [Location.ownersUnder_append (Location.mem_descendants_of_parent? htop) hplace]
  refine List.find?_eq_some_iff_append.2 ⟨hblock, _, _, rfl, fun owner howner => ?_⟩
  have hnot := hplain owner (Location.mem_descendants_of_mem_ownersUnder hplace howner)
  rwa [Bool.not_eq_true, ← Bool.not_eq_true'] at hnot

/-- The owners of a top-level place, or of what is inside it, do not come before it. -/
theorem le_address_of_mem_ownersUnder {root top place owner : Location}
    (htop : top.parent? = some root) (hinside : place = top ∨ place ∈ top.descendants)
    (howner : owner ∈ root.ownersUnder place) : owner = top ∨ top.address < owner.address := by
  rcases hinside with rfl | hinside
  · rw [Location.ownersUnder_of_root htop] at howner
    exact absurd howner List.not_mem_nil
  · rw [Location.ownersUnder_append (Location.mem_descendants_of_parent? htop) hinside,
      Location.ownersUnder_of_root htop, List.mem_append, List.mem_singleton] at howner
    refine howner.symm.imp id fun hinner => ?_
    exact Location.address_lt_of_mem_descendants
      (Location.mem_descendants_of_mem_ownersUnder hinside hinner)

section Calls

variable {settings : ConversionSettings} {limit : Nat} {owner : SectionId} {target : Context}
  {root : Location} {d₀ d d' : Document} {place other outer : Location} {answers : Answers}
  {slot later : Nat} {among : Nat → Prop}

/-- What is added for a later place stands in a later slot. -/
theorem AddedFor.lt (hlive : Live d₀ owner target)
    (h : AddedFor (.withDefaults settings) limit target root d₀ place slot)
    (h' : AddedFor (.withDefaults settings) limit target root d₀ other later)
    (hlt : place.address < other.address) : slot < later := by
  obtain ⟨answers, d, handler, given, d', hreach, -, -, hle, -⟩ := h'
  exact Nat.lt_of_lt_of_le (h.lt_size hlive hreach hlt) hle

/-- **Loose content inside a node goes where the context in force at the node leads.** -/
theorem Reaches.goesTo (hlive : Live d₀ owner target) (houter : outer ∈ root.descendants)
    (hat : ∀ earlier d₁, Reaches (.withDefaults settings) limit target root d₀ outer earlier d₁ →
      GoesTo among d₁ (inForce (.withDefaults settings) target root earlier outer))
    (hreach : Reaches (.withDefaults settings) limit target root d₀ place answers d)
    (hinside : place = outer ∨ place ∈ outer.descendants)
    (hloose : ∀ around ∈ root.ownersUnder place, ¬ around.node.isBlock) :
    GoesTo among d (inForce (.withDefaults settings) target root answers place) := by
  have hassembled := assembled_withDefaults settings
  induction place using Location.back_induction generalizing answers d with
  | top place _ hnone =>
    obtain ⟨parent, hparent, -⟩ := Location.parent?_of_mem_descendants hreach.mem_descendants
    cases hnone.symm.trans hparent
  | first place parent hfirst hparent ih =>
    rcases hinside with rfl | hinside
    · exact hat _ _ hreach
    obtain ⟨parent', hparent', hbelow⟩ := Location.parent?_of_mem_descendants hinside
    obtain rfl := Option.some.inj (hparent.symm.trans hparent')
    have hroot : parent ∈ root.descendants := by
      rcases hbelow with rfl | hbelow
      · exact houter
      · exact (Location.descendants_sublist houter).subset hbelow
    obtain ⟨earlier, d₁, hreach', hcase⟩ := hreach.startInside_cases hassembled hlive hroot
      (Location.address_lt_of_parent? hparent)
    have hcontext := hreach'.live hassembled hlive parent
    rw [Location.ownersUnder_of_parent? hparent hroot, List.forall_mem_cons] at hloose
    have hgoes := ih hreach' hbelow hloose.2
    rw [inForce_of_first hfirst hparent]
    rcases hcase with ⟨-, hstart, hkeeps⟩ | ⟨role, effect, hrole, heffect, hstart, hkeeps⟩
    · rw [hstart]
      exact hgoes.keep hcontext hkeeps
    · have hblocks := addsBlocks_of_effect
        (fun hmakes => hloose.1 ((isBlock_iff_of_role? hrole).2 hmakes)) heffect
      rw [hstart]
      exact (hgoes.result hcontext hblocks).keep (hcontext.result effect) hkeeps
  | later place sibling hprevious ih =>
    rcases hinside with rfl | hinside
    · exact hat _ _ hreach
    obtain ⟨parent, hparent, -⟩ := Location.parent?_of_mem_descendants hinside
    have hsibling := mem_descendants_of_previousSibling? hinside hprevious
    obtain ⟨earlier, d₁, hreach', hcase⟩ := hreach.inForce_cases hlive hprevious
    have hcontext := hreach'.live hassembled hlive sibling
    rw [Location.ownersUnder_of_previousSibling? hprevious hparent] at hloose
    have hgoes := ih hreach' (.inr hsibling) hloose
    rcases hcase with ⟨hstays, hkeeps⟩ | ⟨added, -, hafter, hkeeps⟩
    · rw [hstays]
      exact hgoes.keep hcontext hkeeps
    · rw [hafter]
      exact (hgoes.content hcontext (.text added)).keep (hcontext.result _) hkeeps

/-! ## After a block -/

/-- From the place on, or from an earlier sibling on, content goes on in the paragraph that loose
    text has begun: one of them has a handler and comes right after such a text. -/
def Location.AfterSwitch (registry : Registry) (place : Location) : Prop :=
  ∃ sibling ∈ place :: place.earlier, sibling.FollowsText registry

/-- **Where the later siblings of a block lead**, in markup that goes into a section: behind what
    was added for the block, except after a switch, where they lead to what comes before it. -/
theorem goesTo_of_later {block : Location} (hlive : Live d₀ owner target)
    (htarget : target.kind = .sectionBlock)
    (hreach : Reaches (.withDefaults settings) limit target root d₀ place answers d)
    (hparent : place.parent? = some root) (hblock : block.node.isBlock)
    (hlater : block ∈ place.earlier)
    (hadded : AddedFor (.withDefaults settings) limit target root d₀ block slot) :
    GoesTo
      (fun other => (block.AfterSwitch (.withDefaults settings) → other < slot) ∧
        (¬ block.AfterSwitch (.withDefaults settings) → slot < other)) d
      (inForce (.withDefaults settings) target root answers place) := by
  have hstart : startInside (.withDefaults settings) target root answers root = target :=
    if_pos rfl
  have hmem := hreach.mem_descendants
  by_cases hsome : place.AfterSwitch (.withDefaults settings)
  case neg =>
    have hamong := Location.suffix_of_mem_earlier (List.mem_cons_of_mem place hlater)
    have hnone : ¬ block.AfterSwitch (.withDefaults settings) :=
      fun ⟨sibling, hsibling, hfollows⟩ => hsome ⟨sibling, hamong.subset hsibling, hfollows⟩
    have hgiven := inForce_before_switch hlive hreach hmem (.inl rfl) hparent
      (.inr fun sibling hsibling hfollows => hsome ⟨sibling, hsibling, hfollows⟩)
    have hlt := hadded.lt_size hlive hreach (Location.address_lt_of_mem_earlier hlater)
    rw [hgiven, hstart]
    exact ⟨fun _ other hle => ⟨fun h => absurd h hnone, fun _ => Nat.lt_of_lt_of_le hlt hle⟩,
      fun hkind => absurd htarget hkind⟩
  -- From the switch on all goes into the paragraph that the text before the switch has begun.
  obtain ⟨switch, hswitch, hfollows, hfirst⟩ := Location.exists_first_followsText hsome
  obtain ⟨id, hid⟩ : ∃ id, target = .inSection id := by
    cases target with
    | inSection id => exact ⟨id, rfl⟩
    | _ => exact absurd htarget nofun
  obtain ⟨text, earlier, d₁, added, htext, hreach', -, hcontributed, hgiven⟩ :=
    inForce_of_switch hlive hreach hmem (.inl rfl) hparent (hstart.trans hid) hswitch hfollows
      hfirst
  have hbegun := addedFor_size hlive hreach'
    (role?_eq_text.2 (isText_of_contributedText? hcontributed))
    (effect_of_contributedText? hcontributed)
  have hkind : d.kind? d₁.size = some .paragraph := by
    have hcontext := hreach.live (assembled_withDefaults settings) hlive place
    rw [hgiven] at hcontext
    exact hcontext.isKind
  rw [hgiven]
  refine ⟨nofun, fun _ => ⟨d₁.size, Document.paragraphAt?_of_paragraph hkind, ?_⟩⟩
  rcases Location.mem_or_suffix_earlier hswitch (List.mem_cons_of_mem place hlater) with
    hamong | hearlier
  · -- The text comes before the switch, which is the block or comes before it.
    have hlt : text.address < block.address := by
      have hless := Location.address_lt_of_previousSibling? htext
      rcases List.mem_cons.1 hamong with rfl | hbefore
      · exact hless
      · exact List.lt_trans hless (Location.address_lt_of_mem_earlier hbefore)
    exact ⟨fun _ => hbegun.lt hlive hadded hlt, fun h => absurd ⟨switch, hamong, hfollows⟩ h⟩
  · -- The block comes before the switch, and is not the text right before it.
    have hnone : ¬ block.AfterSwitch (.withDefaults settings) :=
      fun ⟨sibling, hsibling, hagain⟩ => hfirst sibling (hearlier.subset hsibling) hagain
    have hlt : block.address < text.address := by
      rw [Location.earlier_of_previousSibling? htext] at hearlier
      rcases List.suffix_cons_iff.1 hearlier with heq | hbefore
      · have hisText := isText_of_contributedText? hcontributed
        rw [← (List.cons.inj heq).1] at hisText
        exact absurd hblock (not_isBlock_of_isText hisText)
      · exact Location.address_lt_of_mem_earlier (hbefore.subset List.mem_cons_self)
    exact ⟨fun h => absurd h hnone, fun _ => hadded.lt hlive hbegun hlt⟩

/-- The text object that the call for a text adds, and where it stands in the end. -/
theorem exists_text {into : Target} (hlive : Live d₀ owner target)
    (hresolve : d₀.resolve into = .ok target) {outcome : Except ConvertError Unit}
    (hinsert : (Conversion.insertInto ⟨.ofSettings settings, root⟩ into).runOn d₀ = (outcome, d'))
    (hreach : Reaches (.withDefaults settings) settings.maxDepth target root d₀ place answers d)
    {text : String} (htext : place.contributedText? = some text) :
    let given := inForce (.withDefaults settings) target root answers place
    ∃ slot, (∀ other, (AddedFor (.withDefaults settings) settings.maxDepth target root d₀ place
          other ∧ d'.kind? other = some .text) ↔ other = slot) ∧
      d'.object? slot = some (.text text) ∧ d'.StandsIn owner.slot slot ∧
      d'.paragraphAt? slot =
        (opened owner given d).paragraphAt? (given.afterContent d.size).slot := by
  intro given
  have hassembled := assembled_withDefaults settings
  have hrole : place.node.role? (usualRole? settings) = some .text :=
    role?_eq_text.2 (isText_of_contributedText? htext)
  have heffect : Role.text.effect place given = .ok (.content (.text text)) :=
    effect_of_contributedText? htext
  have hkeeps : (Effect.applyTo owner given d (.content (.text text))).Keeps d' :=
    keeps_of_insertInto hassembled hlive hresolve hreach hrole heffect hinsert
  have hcontext : Live d owner given := hreach.live hassembled hlive place
  obtain ⟨hstands, hparagraph⟩ := hcontext.standsIn_content (.text text)
  have hobject : (Effect.applyTo owner given d (.content (.text text))).object?
      (d.size + given.openings) = some (.text text) := by
    rw [applyTo_content, ← size_opened owner]
    exact Document.object?_push_self
  refine ⟨d.size + given.openings, addedFor_content_iff hlive hreach hrole heffect hkeeps,
    hkeeps.object?_eq _ _ hobject nofun, hstands.of_keepsShape hkeeps.toKeepsShape, ?_⟩
  rw [hstands.paragraphAt?_eq hkeeps.toKeepsShape, hparagraph]

/-- A text with a block around it goes into a paragraph that the nearest one has added. -/
theorem exists_paragraph_of_block (hlive : Live d₀ owner target)
    (htarget : target.kind = .sectionBlock ∨ target.kind = .paragraph)
    (hreach : Reaches (.withDefaults settings) limit target root d₀ place answers d)
    {text : String} (htext : place.contributedText? = some text) {block : Location}
    (hblock : blockAmong? (root.ownersUnder place) = some block) :
    let given := inForce (.withDefaults settings) target root answers place
    ∃ slot, (opened owner given d).paragraphAt? (given.afterContent d.size).slot = some slot ∧
      AddedFor (.withDefaults settings) limit target root d₀ block slot := by
  intro given
  have hnode := isText_of_contributedText? htext
  have hplaced := hreach.placed hlive htarget
  have hloose := fun hsection => loose_of_content hlive hreach (role?_eq_text.2 hnode)
    (effect_of_contributedText? htext) (not_isBlock_of_isText hnode) hsection
    (hplaced.ofSection hsection).1
  obtain ⟨slot, hslot, hright⟩ :=
    (hplaced.opened hloose).ofParagraph (Live.kind_afterContent d.size given)
  exact ⟨slot, hslot, (hright.block hblock).added⟩

/-- The paragraph of a text that comes after a block at the top of markup that goes into a section:
    a later one than the block has added, except for loose text after a switch. -/
theorem exists_paragraph_after_block {block top : Location} (hlive : Live d₀ owner target)
    (htarget : target.kind = .sectionBlock)
    (hreach : Reaches (.withDefaults settings) limit target root d₀ place answers d)
    {text : String} (htext : place.contributedText? = some text)
    (htop : top.parent? = some root) (hblock : block.node.isBlock) (hlater : block ∈ top.earlier)
    (hinside : place = top ∨ place ∈ top.descendants)
    (hadded : AddedFor (.withDefaults settings) limit target root d₀ block slot) :
    let given := inForce (.withDefaults settings) target root answers place
    let goesBack := blockAmong? (root.ownersUnder place) = none ∧
      block.AfterSwitch (.withDefaults settings)
    ∃ later, (opened owner given d).paragraphAt? (given.afterContent d.size).slot = some later ∧
      (goesBack → later < slot) ∧ (¬ goesBack → slot < later) := by
  intro given goesBack
  cases hnearest : blockAmong? (root.ownersUnder place) with
  | some around =>
    obtain ⟨later, hparagraph, hbegun⟩ :=
      exists_paragraph_of_block hlive (.inl htarget) hreach htext hnearest
    have hbefore := Location.address_lt_of_mem_earlier hlater
    have hlt : block.address < around.address := by
      rcases le_address_of_mem_ownersUnder htop hinside (List.mem_of_find?_eq_some hnearest) with
        rfl | hafter
      · exact hbefore
      · exact List.lt_trans hbefore hafter
    exact ⟨later, hparagraph, fun h => absurd (hnearest.symm.trans h.1) nofun,
      fun _ => hadded.lt hlive hbegun hlt⟩
  | none =>
    have hgoes := hreach.goesTo hlive (Location.mem_descendants_of_parent? htop)
      (fun _ _ hat => goesTo_of_later hlive htarget hat htop hblock hlater hadded) hinside
      (List.find?_eq_none.1 hnearest)
    obtain ⟨later, hparagraph, hback, hstays⟩ := hgoes.exists_opened owner
    exact ⟨later, hparagraph, fun h => hback h.2,
      fun h => hstays fun hswitch => h ⟨hnearest, hswitch⟩⟩

end Calls

/-- **Text after a block is shown after the text in it, unless it goes back.**

    Take an insertion into a section that succeeds, a block at the top of the markup with no block
    inside it, a text in the block, and a text in a later top-level place or that is one; both go
    into the document. The call for each adds one text object, and the section shows the one in the
    block first, except where the other text is in no block and the block comes after a switch: at
    the block or before it something with a handler follows loose text. Then the later text goes
    back to the paragraph of that loose text, and is shown first. -/
theorem insertInto_block_order {settings : ConversionSettings} {root : Location}
    {d d' : Document} (hd : d.Reachable) {id : SectionId}
    (hinsert : (Conversion.insertInto ⟨.ofSettings settings, root⟩ (.intoSection id)).runOn d =
      (.ok (), d'))
    {block later first second : Location} (htop : block.parent? = some root)
    (hblock : block.node.isBlock) (hplain : ∀ inner ∈ block.descendants, ¬ inner.node.isBlock)
    (hlater : block ∈ later.earlier) (hfirst : first ∈ block.descendants)
    (hsecond : second = later ∨ second ∈ later.descendants) {inBlock after : String}
    (hinBlock : first.contributedText? = some inBlock)
    (hafter : second.contributedText? = some after) :
    let registry := Registry.withDefaults settings
    let added := AddedFor registry settings.maxDepth (.inSection id) root d
    let goesBack := blockAmong? (root.ownersUnder second) = none ∧ block.AfterSwitch registry
    ∃ slot slot', (∀ other, (added first other ∧ d'.kind? other = some .text) ↔ other = slot) ∧
      (∀ other, (added second other ∧ d'.kind? other = some .text) ↔ other = slot') ∧
      d'.object? slot = some (.text inBlock) ∧ d'.object? slot' = some (.text after) ∧
      (d'.ShowsBefore id slot slot' ↔ ¬ goesBack) ∧ (d'.ShowsBefore id slot' slot ↔ goesBack) := by
  intro registry added goesBack
  obtain ⟨context, hresolve⟩ := exists_resolve_of_insertInto hinsert
  obtain ⟨rfl, owner, hlive⟩ := live_of_resolve hd.wellFormed hresolve
  obtain rfl := hlive.eq_of_inSection
  -- All the places are below the root, so the insertion has come to them.
  have htopLater : later.parent? = some root :=
    (Location.parent?_of_mem_earlier (List.mem_cons_of_mem _ hlater)).symm.trans htop
  have hbelow : first ∈ root.descendants :=
    (Location.descendants_sublist (Location.mem_descendants_of_parent? htop)).subset hfirst
  have hbelow' : second ∈ root.descendants := by
    have hlaterBelow := Location.mem_descendants_of_parent? htopLater
    rcases hsecond with rfl | hinside
    · exact hlaterBelow
    · exact (Location.descendants_sublist hlaterBelow).subset hinside
  obtain ⟨answers, d₁, hreach⟩ := exists_reaches hresolve hinsert hbelow
  obtain ⟨answers', d₂, hreach'⟩ := exists_reaches hresolve hinsert hbelow'
  obtain ⟨slot, honly, hobject, hstands, hat⟩ :=
    exists_text hlive hresolve hinsert hreach hinBlock
  obtain ⟨slot', honly', hobject', hstands', hat'⟩ :=
    exists_text hlive hresolve hinsert hreach' hafter
  obtain ⟨paragraph, hparagraph, hbegun⟩ := exists_paragraph_of_block hlive (.inl rfl) hreach
    hinBlock (blockAmong?_of_mem_descendants htop hblock hplain hfirst)
  obtain ⟨paragraph', hparagraph', hback, hstays⟩ := exists_paragraph_after_block hlive rfl hreach'
    hafter htopLater hblock hlater hsecond hbegun
  have hne : paragraph ≠ paragraph' := by
    by_cases h : goesBack
    · exact (Nat.ne_of_lt (hback h)).symm
    · exact Nat.ne_of_lt (hstays h)
  -- The section shows the two texts in the order of their paragraphs.
  have hwell := (hd.insertInto (assembled_withDefaults settings) hinsert).wellFormed
  have hin := hat.trans hparagraph
  have hin' := hat'.trans hparagraph'
  refine ⟨slot, slot', honly, honly', hobject, hobject', ?_, ?_⟩
  · rw [hwell.showsBefore_iff hstands hstands' hin hin' hne]
    exact ⟨fun hlt h => absurd (hback h) (Nat.lt_asymm hlt), hstays⟩
  · rw [hwell.showsBefore_iff hstands' hstands hin' hin hne.symm]
    exact ⟨fun hlt => Classical.byContradiction fun h => absurd (hstays h) (Nat.lt_asymm hlt),
      hback⟩

/-- Text after a paragraph, with nothing before it. -/
theorem insertInto_block_order_paragraph :
    let d : Document := Document.empty.push 0 .sectionBlock
    let paragraph : Node := .branch (.element "p" []) [.text "x"]
    let root : Location := ⟨.branch .fragment [paragraph, .text "y"], []⟩
    ∃ d' slot slot', d.Reachable ∧
      (Conversion.insertInto ⟨.ofSettings {}, root⟩ (.intoSection ⟨1⟩)).runOn d = (.ok (), d') ∧
      d'.object? slot = some (.text "x") ∧ d'.object? slot' = some (.text "y") ∧
      d'.ShowsBefore ⟨1⟩ slot slot' := by
  intro d paragraph root
  let block : Location := ⟨paragraph, [⟨.fragment, [], [.text "y"]⟩]⟩
  let inner : Location := ⟨.text "x", ⟨.element "p" [], [], []⟩ :: block.crumbs⟩
  let later : Location := ⟨.text "y", [⟨.fragment, [paragraph], []⟩]⟩
  have hreachable : d.Reachable := .perform .addSection .empty rfl
  have hinsert : (Conversion.insertInto ⟨.ofSettings {}, root⟩ (.intoSection ⟨1⟩)).runOn d =
      (.ok (), (((d.push 1 (.paragraph {})).push 2 (.text "x")).push 1 (.paragraph {})).push 4
        (.text "y")) := by
    decide +kernel
  have htop : block.parent? = some root := rfl
  have hblock : block.node.isBlock := by decide +kernel
  have hplain : ∀ place ∈ block.descendants, ¬ place.node.isBlock := by decide +kernel
  have hlater : block ∈ later.earlier := List.mem_cons_self
  have hinner : inner ∈ block.descendants := List.mem_cons_self
  have hx : inner.contributedText? = some "x" := by decide +kernel
  have hy : later.contributedText? = some "y" := by decide +kernel
  obtain ⟨slot, slot', -, -, hobject, hobject', hbefore, -⟩ :=
    insertInto_block_order hreachable hinsert htop hblock hplain hlater hinner (.inl rfl) hx hy
  refine ⟨_, slot, slot', hreachable, hinsert, hobject, hobject', hbefore.2 ?_⟩
  rintro ⟨-, sibling, hsibling, hfollows⟩
  obtain rfl := List.mem_singleton.1 hsibling
  exact Location.not_followsText_of_first rfl hfollows

/-- Text after a paragraph that comes after loose text: it is not shown after the text in the
    paragraph. -/
theorem insertInto_goes_back :
    let d : Document := Document.empty.push 0 .sectionBlock
    let paragraph : Node := .branch (.element "p" []) [.text "b"]
    let root : Location := ⟨.branch .fragment [.text "a", paragraph, .text "c"], []⟩
    let block : Location := ⟨paragraph, [⟨.fragment, [.text "a"], [.text "c"]⟩]⟩
    let inner : Location := ⟨.text "b", ⟨.element "p" [], [], []⟩ :: block.crumbs⟩
    let later : Location := ⟨.text "c", [⟨.fragment, [paragraph, .text "a"], []⟩]⟩
    let added := AddedFor (.withDefaults {}) 512 (.inSection ⟨1⟩) root d
    ∃ d' slot slot', d.Reachable ∧
      (Conversion.insertInto ⟨.ofSettings {}, root⟩ (.intoSection ⟨1⟩)).runOn d = (.ok (), d') ∧
      block.parent? = some root ∧ block.node.isElement "p" ∧
      (∀ place ∈ block.descendants, ¬ place.node.isBlock) ∧ inner ∈ block.descendants ∧
      block ∈ later.earlier ∧ inner.contributedText? = some "b" ∧
      later.contributedText? = some "c" ∧
      (∀ other, (added inner other ∧ d'.kind? other = some .text) ↔ other = slot) ∧
      (∀ other, (added later other ∧ d'.kind? other = some .text) ↔ other = slot') ∧
      ¬ d'.ShowsBefore ⟨1⟩ slot slot' := by
  intro d paragraph root block inner later added
  let d' : Document := ((((d.push 1 (.paragraph {})).push 2 (.text "a")).push 1
    (.paragraph {})).push 4 (.text "b")).push 2 (.text "c")
  have hreachable : d.Reachable := .perform .addSection .empty rfl
  have hresolve : d.resolve (.intoSection ⟨1⟩) = .ok (.inSection ⟨1⟩) := rfl
  have hlive : Live d ⟨1⟩ (.inSection ⟨1⟩) := ⟨rfl, rfl, .inl rfl⟩
  have hinsert : (Conversion.insertInto ⟨.ofSettings {}, root⟩ (.intoSection ⟨1⟩)).runOn d =
      (.ok (), d') := by
    decide +kernel
  have hplain : ∀ place ∈ block.descendants, ¬ place.node.isBlock := by decide +kernel
  have hb : inner.contributedText? = some "b" := by decide +kernel
  have hc : later.contributedText? = some "c" := by decide +kernel
  have hinner : inner ∈ root.descendants :=
    List.mem_cons_of_mem _ (List.mem_cons_of_mem _ List.mem_cons_self)
  have hlater : later ∈ root.descendants := List.mem_cons_of_mem _
    (List.mem_cons_of_mem _ (List.mem_cons_of_mem _ List.mem_cons_self))
  obtain ⟨answers, d₁, hreach⟩ := exists_reaches hresolve hinsert hinner
  obtain ⟨answers', d₂, hreach'⟩ := exists_reaches hresolve hinsert hlater
  obtain ⟨slot, honly, hobject, hstands, -⟩ := exists_text hlive hresolve hinsert hreach hb
  obtain ⟨slot', honly', hobject', hstands', -⟩ := exists_text hlive hresolve hinsert hreach' hc
  -- The last two slots hold the texts, in the paragraphs that stand in the slots 4 and 2.
  have hslots : ∀ slot < d'.size, (d'.object? slot = some (.text "b") → slot = 5) ∧
      (d'.object? slot = some (.text "c") → slot = 6) := by
    decide +kernel
  obtain rfl := (hslots slot (Document.lt_size_of_object? hobject)).1 hobject
  obtain rfl := (hslots slot' (Document.lt_size_of_object? hobject')).2 hobject'
  have hat : d'.paragraphAt? 5 = some 4 :=
    (Document.paragraphAt?_of_inline (Document.kind?_of_object? hobject) rfl rfl (by decide)).trans
      (Document.paragraphAt?_of_paragraph rfl)
  have hat' : d'.paragraphAt? 6 = some 2 :=
    (Document.paragraphAt?_of_inline (Document.kind?_of_object? hobject') rfl rfl (by decide)).trans
      (Document.paragraphAt?_of_paragraph rfl)
  have hwell := (hreachable.insertInto (assembled_withDefaults {}) hinsert).wellFormed
  refine ⟨d', 5, 6, hreachable, hinsert, rfl, rfl, hplain, List.mem_cons_self, List.mem_cons_self,
    hb, hc, honly, honly', ?_⟩
  rw [hwell.showsBefore_iff hstands hstands' hat hat' (by decide)]
  decide

end Galley
