import Galley.Proofs.Conversion.Calls
import Galley.Proofs.Conversion.Continuation
import Galley.Proofs.Conversion.Lists

/-!
  Every text goes into the paragraph of the nearest block around it.

  Blocks are the elements whose handlers begin paragraphs. `Placed` says of a context that it is the
  right one for content that has given owners: the paragraph around it was made for the nearest
  block among them, and the links up to that block are around it too; without a block it is the
  target, or a paragraph that was begun for inline content. What a call gives is right for what is
  inside its place (`Placed.result`), a continued paragraph is one that a text has begun, and so
  every context in force is right where a walk comes to (`Reaches.placed`).
-/

namespace Galley

/-- The tags of the elements that begin paragraphs. -/
def blockTags : List String := headingTags ++ ["p", "div", "hr", "li"]

def Node.isBlock (node : Node) : Bool := blockTags.any node.isElement

/-- The call for a place that a walk comes to adds the object in a slot. -/
def AddedFor (registry : Registry) (limit : Nat) (target : Context) (root : Location)
    (d₀ : Document) (place : Location) (slot : Nat) : Prop :=
  ∃ answers d handler given d', Reaches registry limit target root d₀ place answers d ∧
    registry.handler? place.node = some handler ∧
    (handler place (inForce registry target root answers place)).runOn d = (.ok given, d') ∧
    d.size ≤ slot ∧ slot < d'.size

/-! ## Blocks and their roles -/

/-- Whether a handler makes block content. -/
def Role.makesBlock : Role → Bool
  | heading => true
  | paragraph => true
  | horizontalRule => true
  | listItem => true
  | _ => false

section Blocks

variable {settings : ConversionSettings} {node : Node} {role : Role} {place : Location}
  {context : Context} {effect : Effect}

theorem isBlock_iff : node.isBlock ↔ ∃ tag ∈ blockTags, node.key? = some (.element tag) := by
  rw [Node.isBlock, List.any_eq_true]
  simp only [isElement_iff_key?]

/-- Blocks are the nodes whose handlers make block content. -/
theorem isBlock_iff_of_role? (h : node.role? (usualRole? settings) = some role) :
    node.isBlock ↔ role.makesBlock := by
  have htable : ∀ entry ∈ usualRoles settings,
      (∃ tag ∈ blockTags, entry.1 = .element tag) ↔ entry.2.makesBlock := by
    simp [usualRoles, blockTags, headingTags, Role.makesBlock]
  obtain ⟨key, hkey, hentry⟩ := mem_usualRoles_of_role? h
  rw [isBlock_iff, hkey, ← htable _ hentry]
  simp only [Option.some.injEq]

/-- Every block has a handler. -/
theorem role?_of_isBlock (h : node.isBlock) :
    ∃ role, node.role? (usualRole? settings) = some role := by
  have htable : ∀ tag ∈ blockTags, (usualRole? settings (.element tag)).isSome := by
    simp [usualRole?, roleIn?, usualRoles, blockTags, headingTags]
  obtain ⟨tag, htag, hkey⟩ := isBlock_iff.1 h
  obtain ⟨role, hrole⟩ := Option.isSome_iff_exists.1 (htable tag htag)
  refine ⟨role, ?_⟩
  rw [Node.role?, hkey]
  exact hrole

/-- A call for a block adds one paragraph that is no marker, and markers around it. -/
theorem blocks_of_effect (hblock : role.makesBlock) (h : role.effect place context = .ok effect) :
    ∃ before value after, effect = .blocks before value after ∧ value.marker? = none ∧
      (∀ marker ∈ before ++ after, marker.marker? ≠ none) ∧
      (role = .listItem → value = itemParagraph (.ofLocation place)) := by
  have honly (value : Paragraph) (hmarker : value.marker? = none) (hrole : role ≠ .listItem) :
      ∃ before value' after, Effect.blocks [] value [] = .blocks before value' after ∧
        value'.marker? = none ∧ (∀ marker ∈ before ++ after, marker.marker? ≠ none) ∧
        (role = .listItem → value' = itemParagraph (.ofLocation place)) :=
    ⟨[], value, [], rfl, hmarker, fun _ h => absurd h List.not_mem_nil, fun h => absurd h hrole⟩
  cases Role.does_of_effect h with
  | heading =>
    refine honly _ (plain_of_style (fun heq => ?_) (fun heq => ?_) rfl).1 (by decide)
    · exact (heading_ne_marker _).1 (Option.some.inj heq)
    · exact (heading_ne_marker _).2 (Option.some.inj heq)
  | paragraph => exact honly _ rfl (by decide)
  | horizontalRule => exact honly _ rfl (by decide)
  | listItem =>
    refine ⟨_, _, _, rfl, marker?_item _, fun marker hmarker => ?_, fun _ => rfl⟩
    have hstyled : marker = styled listStartStyle ∨ marker = styled listEndStyle := by
      rcases List.mem_append.1 hmarker with hmarker | hmarker
      · split at hmarker
        · exact .inl (List.mem_singleton.1 hmarker)
        · exact absurd hmarker List.not_mem_nil
      · split at hmarker
        · exact .inr (List.mem_singleton.1 hmarker)
        · exact absurd hmarker List.not_mem_nil
    rcases hstyled with rfl | rfl <;> decide
  | _ => exact absurd hblock Bool.false_ne_true

/-- Other calls make no block content. -/
theorem addsBlocks_of_effect (hblock : ¬ role.makesBlock)
    (h : role.effect place context = .ok effect) : effect.addsBlocks = false := by
  cases Role.does_of_effect h with
  | heading | paragraph | horizontalRule | listItem => exact absurd rfl hblock
  | _ => rfl

end Blocks

/-! ## What is added for a place -/

section Added

variable {settings : ConversionSettings} {limit : Nat} {owner : SectionId} {target : Context}
  {root : Location} {d₀ d d' : Document} {place other : Location} {answers : Answers} {slot : Nat}
  {role : Role} {effect : Effect}

/-- What a call adds, by its effect. -/
theorem addedFor_iff (hlive : Live d₀ owner target)
    (hreach : Reaches (.withDefaults settings) limit target root d₀ place answers d)
    (hrole : place.node.role? (usualRole? settings) = some role)
    (heffect : role.effect place (inForce (.withDefaults settings) target root answers place) =
      .ok effect) :
    AddedFor (.withDefaults settings) limit target root d₀ place slot ↔
      d.size ≤ slot ∧ slot < (effect.applyTo owner
        (inForce (.withDefaults settings) target root answers place) d).size := by
  have hcontext := hreach.live (assembled_withDefaults settings) hlive place
  have hhandler := (assembled_withDefaults settings).handler?_of_some hrole
  have hcall : (role.handler place
      (inForce (.withDefaults settings) target root answers place)).runOn d = _ :=
    role.runOn_handler hcontext
  rw [heffect] at hcall
  constructor
  · rintro ⟨answers', d₁, handler, given, d₂, hreach', hhandler', hcall', hle, hlt⟩
    obtain ⟨rfl, rfl⟩ := hreach.unique hreach'
    obtain rfl := Option.some.inj (hhandler.symm.trans hhandler')
    obtain ⟨-, rfl⟩ := Prod.mk.inj (hcall'.symm.trans hcall)
    exact ⟨hle, hlt⟩
  · rintro ⟨hle, hlt⟩
    exact ⟨answers, d, _, _, _, hreach, hhandler, hcall, hle, hlt⟩

theorem AddedFor.exists_effect (hlive : Live d₀ owner target)
    (h : AddedFor (.withDefaults settings) limit target root d₀ place slot) :
    ∃ answers d role effect,
      Reaches (.withDefaults settings) limit target root d₀ place answers d ∧
      place.node.role? (usualRole? settings) = some role ∧
      role.effect place (inForce (.withDefaults settings) target root answers place) =
        .ok effect := by
  obtain ⟨answers, d, handler, given, d', hreach, hhandler, hcall, -, -⟩ := h
  rw [(assembled_withDefaults settings).handler?] at hhandler
  obtain ⟨role, hrole, rfl⟩ := Option.map_eq_some_iff.1 hhandler
  rw [role.runOn_handler (hreach.live (assembled_withDefaults settings) hlive place)] at hcall
  cases heffect : role.effect place
      (inForce (.withDefaults settings) target root answers place) with
  | error cause =>
    rw [heffect] at hcall
    exact absurd (congrArg Prod.fst hcall) nofun
  | ok effect => exact ⟨answers, d, role, effect, hreach, hrole, heffect⟩

/-- What an insertion leaves keeps what the call left that added an object. -/
theorem AddedFor.exists_kept {into : Target} (hlive : Live d₀ owner target)
    (hresolve : d₀.resolve into = .ok target) {outcome : Except ConvertError Unit}
    (hinsert : (Conversion.insertInto ⟨.ofSettings settings, root⟩ into).runOn d₀ = (outcome, d'))
    (h : AddedFor (.withDefaults settings) settings.maxDepth target root d₀ place slot) :
    ∃ answers d role effect,
      Reaches (.withDefaults settings) settings.maxDepth target root d₀ place answers d ∧
      place.node.role? (usualRole? settings) = some role ∧
      role.effect place (inForce (.withDefaults settings) target root answers place) =
        .ok effect ∧
      (effect.applyTo owner (inForce (.withDefaults settings) target root answers place) d).Keeps
        d' := by
  obtain ⟨answers, d, role, effect, hreach, hrole, heffect⟩ := h.exists_effect hlive
  exact ⟨answers, d, role, effect, hreach, hrole, heffect,
    keeps_of_insertInto (assembled_withDefaults settings) hlive hresolve hreach hrole heffect
      hinsert⟩

/-- An object that is added for an earlier place is there when the walk comes to a later one. -/
theorem AddedFor.lt_size (hlive : Live d₀ owner target)
    (h : AddedFor (.withDefaults settings) limit target root d₀ other slot)
    (hreach : Reaches (.withDefaults settings) limit target root d₀ place answers d)
    (hlt : other.address < place.address) : slot < d.size := by
  obtain ⟨answers', d₁, role, effect, hother, hrole, heffect⟩ := h.exists_effect hlive
  obtain ⟨earlier, d₂, effect', hreach', hsame, heffect', -, hkeeps⟩ :=
    hreach.exists_call (assembled_withDefaults settings) hlive hother.mem_descendants hlt hrole
  rw [← hsame] at heffect' hkeeps
  exact Nat.lt_of_lt_of_le ((addedFor_iff hlive hreach' hrole heffect').1 h).2
    hkeeps.toKeepsShape.size_le

/-- No object is added for two places. -/
theorem AddedFor.unique (hlive : Live d₀ owner target)
    (h : AddedFor (.withDefaults settings) limit target root d₀ place slot)
    (h' : AddedFor (.withDefaults settings) limit target root d₀ other slot) :
    place = other := by
  obtain ⟨answers, d, role, effect, hreach, hrole, heffect⟩ := h.exists_effect hlive
  obtain ⟨answers', d', role', effect', hreach', hrole', heffect'⟩ := h'.exists_effect hlive
  have hle := ((addedFor_iff hlive hreach hrole heffect).1 h).1
  have hle' := ((addedFor_iff hlive hreach' hrole' heffect').1 h').1
  rcases lt_trichotomy place.address other.address with hlt | heq | hlt
  · exact absurd (h.lt_size hlive hreach' hlt) (Nat.not_lt.2 hle')
  · exact Location.eq_of_address_eq hreach.mem_descendants hreach'.mem_descendants heq
  · exact absurd (h'.lt_size hlive hreach hlt) (Nat.not_lt.2 hle)

end Added

/-! ## Right contexts -/

/-- The nearest block of a list of owners. -/
def blockAmong? (owners : List Location) : Option Location :=
  owners.find? fun owner => owner.node.isBlock

/-- The links of a list of owners up to the nearest block. -/
def linksAmong (owners : List Location) : List Location :=
  (owners.takeWhile fun owner => !owner.node.isBlock).filter fun owner => owner.node.isElement "a"

section Placed

variable (registry : Registry) (limit : Nat) (target : Context) (root : Location) (d₀ d : Document)

/-- The slot holds the paragraph that the call for a block adds, apart from list markers. For a list
    item it is the item's own. -/
structure ParagraphFor (block : Location) (slot : Nat) : Prop where
  added : AddedFor registry limit target root d₀ block slot
  carries : ∃ value, d.object? slot = some (.paragraph value) ∧ value.marker? = none ∧
    (block.node.isElement "li" → value = itemParagraph (.ofLocation block))

/-- The slot holds the target, or a new paragraph without a style in a target section, which was
    not added for a block. -/
def LooseParagraph (slot : Nat) : Prop :=
  (target.kind = .paragraph ∧ slot = target.slot) ∨
    (target.kind = .sectionBlock ∧ d₀.size ≤ slot ∧ d.object? slot = some (.paragraph {}) ∧
      ∀ block : Location, block.node.isBlock → ¬ AddedFor registry limit target root d₀ block slot)

/-- The slot holds the right paragraph for content that has given owners. -/
def RightParagraph (owners : List Location) (slot : Nat) : Prop :=
  match blockAmong? owners with
  | some block => ParagraphFor registry limit target root d₀ d block slot
  | none => LooseParagraph registry limit target root d₀ d slot

/-- The context is right for content that has given owners. -/
structure Placed (owners : List Location) (context : Context) : Prop where
  ofSection : context.kind = .sectionBlock → context = target ∧
    ∀ owner ∈ owners, ¬ owner.node.isBlock ∧ ¬ owner.node.isElement "a"
  ofParagraph : context.kind ≠ .sectionBlock → ∃ slot, d.paragraphAt? context.slot = some slot ∧
    RightParagraph registry limit target root d₀ d owners slot
  links : ∀ link ∈ linksAmong owners, ∃ slot ∈ context.slot :: d.ancestors context.slot,
    AddedFor registry limit target root d₀ link slot ∧ d.kind? slot = some .hyperlink

variable {registry limit target root d₀ d} {d' : Document} {owner : SectionId}
  {owners : List Location} {context : Context} {slot : Nat}

namespace RightParagraph

theorem block {block : Location} (h : RightParagraph registry limit target root d₀ d owners slot)
    (hblock : blockAmong? owners = some block) :
    ParagraphFor registry limit target root d₀ d block slot := by
  unfold RightParagraph at h
  rw [hblock] at h
  exact h

theorem loose (h : RightParagraph registry limit target root d₀ d owners slot)
    (hnone : blockAmong? owners = none) :
    LooseParagraph registry limit target root d₀ d slot := by
  unfold RightParagraph at h
  rw [hnone] at h
  exact h

/-- Paragraphs stay what they are. -/
theorem keep (h : RightParagraph registry limit target root d₀ d owners slot)
    (hkeeps : d.Keeps d') : RightParagraph registry limit target root d₀ d' owners slot := by
  unfold RightParagraph
  cases hfound : blockAmong? owners with
  | some block =>
    obtain ⟨hadded, value, hobject, hvalue⟩ := h.block hfound
    exact ⟨hadded, value, hkeeps.object?_eq _ _ hobject nofun, hvalue⟩
  | none =>
    rcases h.loose hfound with htarget | ⟨htarget, hle, hobject, hnone⟩
    · exact .inl htarget
    · exact .inr ⟨htarget, hle, hkeeps.object?_eq _ _ hobject nofun, hnone⟩

end RightParagraph

namespace Placed

theorem keep (h : Placed registry limit target root d₀ d owners context)
    (hlive : Live d owner context) (hkeeps : d.Keeps d') :
    Placed registry limit target root d₀ d' owners context where
  ofSection := h.ofSection
  ofParagraph := fun hkind => by
    obtain ⟨slot, hslot, hright⟩ := h.ofParagraph hkind
    rw [← (hlive.standsIn hkind).paragraphAt?_eq hkeeps.toKeepsShape] at hslot
    exact ⟨slot, hslot, hright.keep hkeeps⟩
  links := fun link hlink => by
    obtain ⟨slot, hslot, hadded, hkind⟩ := h.links link hlink
    refine ⟨slot, ?_, hadded, hkeeps.kind?_eq _ _ hkind⟩
    rcases List.mem_cons.1 hslot with rfl | habove
    · exact List.mem_cons_self
    · exact List.mem_cons_of_mem _ (hkeeps.toKeepsShape.mem_ancestors habove)

/-- An owner that is neither a block nor a link changes nothing. -/
theorem cons (h : Placed registry limit target root d₀ d owners context) {place : Location}
    (hblock : ¬ place.node.isBlock)
    (hlink : place.node.isElement "a" → context.kind ≠ .sectionBlock ∧
      ∃ slot ∈ context.slot :: d.ancestors context.slot,
        AddedFor registry limit target root d₀ place slot ∧ d.kind? slot = some .hyperlink) :
    Placed registry limit target root d₀ d (place :: owners) context where
  ofSection := fun hkind => by
    obtain ⟨htarget, hnone⟩ := h.ofSection hkind
    refine ⟨htarget, fun owner howner => ?_⟩
    rcases List.mem_cons.1 howner with rfl | howner
    · exact ⟨hblock, fun heq => (hlink heq).1 hkind⟩
    · exact hnone owner howner
  ofParagraph := fun hkind => by
    have hsame : blockAmong? (place :: owners) = blockAmong? owners :=
      List.find?_cons_of_neg hblock
    unfold RightParagraph
    rw [hsame]
    exact h.ofParagraph hkind
  links := fun link hmem => by
    rw [linksAmong, List.takeWhile_cons_of_pos (by simpa using hblock), List.filter_cons] at hmem
    split at hmem
    · next heq =>
      rcases List.mem_cons.1 hmem with rfl | hmem
      · exact (hlink heq).2
      · exact h.links link hmem
    · exact h.links link hmem

/-- The paragraph of a block is right for what is inside it. -/
theorem of_block {block : Location} {id : ParagraphId} (hblock : block.node.isBlock)
    (hkind : d.kind? id.slot = some .paragraph)
    (h : ParagraphFor registry limit target root d₀ d block id.slot) :
    Placed registry limit target root d₀ d (block :: owners) (.inParagraph id) where
  ofSection := nofun
  ofParagraph := fun _ => by
    have hfound : blockAmong? (block :: owners) = some block := List.find?_cons_of_pos hblock
    unfold RightParagraph
    rw [hfound]
    exact ⟨id.slot, Document.paragraphAt?_of_paragraph hkind, h⟩
  links := fun link hmem => by
    rw [linksAmong, List.takeWhile_cons_of_neg (by simpa using hblock)] at hmem
    exact absurd hmem List.not_mem_nil

/-- The container that inline content goes into, also where it was just made. -/
theorem opened (h : Placed registry limit target root d₀ d owners context)
    (hloose : context.kind = .sectionBlock →
      LooseParagraph registry limit target root d₀ (opened owner context d) d.size) :
    Placed registry limit target root d₀ (opened owner context d) owners
      (context.afterContent d.size) := by
  cases context with
  | inSection id =>
    obtain ⟨-, hnone⟩ := h.ofSection rfl
    have hlast : (Galley.opened owner (.inSection id) d).kind? d.size = some .paragraph :=
      Document.kind?_of_object? Document.object?_push_self
    have hfound : blockAmong? owners = none := List.find?_eq_none.2 fun owner howner =>
      (hnone owner howner).1
    refine ⟨nofun, fun _ => ⟨d.size, Document.paragraphAt?_of_paragraph hlast, ?_⟩, ?_⟩
    · unfold RightParagraph
      rw [hfound]
      exact hloose rfl
    · intro link hmem
      obtain ⟨hmem, hlink⟩ := List.mem_filter.1 hmem
      exact absurd hlink (hnone link ((List.takeWhile_subset _) hmem)).2
  | inParagraph id => exact h
  | inRun id => exact h
  | inHyperlink id => exact h

/-- A container that was just added where inline content goes. -/
theorem push_inner (h : Placed registry limit target root d₀ d owners context)
    (hlive : Live d owner context) (hcontext : context.kind ≠ .sectionBlock)
    (value : DocumentObject) (inner : Context) (hslot : inner.slot = d.size)
    (hkind : value.kind = inner.kind) (hinline : inner.kind.isInline) :
    Placed registry limit target root d₀ (d.push context.slot value) owners inner := by
  have hkeeps := Document.keeps_push d context.slot value
  have hinner : (d.push context.slot value).kind? d.size = some inner.kind := by
    rw [← hkind]
    exact Document.kind?_of_object? Document.object?_push_self
  have hparent : (d.push context.slot value).parent? d.size = some context.slot :=
    Document.parent?_push_self
  have hkept := h.keep hlive hkeeps
  refine ⟨fun heq => ?_, fun _ => ?_, fun link hmem => ?_⟩
  · rw [heq] at hinline
    exact absurd hinline (by decide)
  · rw [hslot, Document.paragraphAt?_of_inline hinner hinline hparent hlive.slot_lt]
    exact hkept.ofParagraph hcontext
  · obtain ⟨slot, hmem, hadded⟩ := hkept.links link hmem
    rw [hslot, Document.ancestors_of_parent? hparent hlive.slot_lt]
    exact ⟨slot, List.mem_cons_of_mem _ hmem, hadded⟩

/-- What inline content leaves is right for what is inside it. -/
theorem content (h : Placed registry limit target root d₀ d owners context)
    (hlive : Live d owner context)
    (hloose : context.kind = .sectionBlock →
      LooseParagraph registry limit target root d₀ (Galley.opened owner context d) d.size)
    (value : Inline) :
    Placed registry limit target root d₀ (Effect.applyTo owner context d (.content value)) owners
      ((Effect.content value).result context d.size) := by
  have hopened := h.opened hloose
  have hinner := hopened.push_inner hlive.opened (Live.kind_afterContent d.size context)
    value.object
  have hkept := hopened.keep hlive.opened
    (Document.keeps_push _ (context.container d.size).slot value.object)
  rw [Live.slot_afterContent, size_opened] at hinner
  rw [applyTo_content]
  cases value with
  | run value => exact hinner (.inRun _) rfl rfl rfl
  | hyperlink value => exact hinner (.inHyperlink _) rfl rfl rfl
  | text text => exact hkept
  | lineBreak => exact hkept

end Placed

end Placed

/-! ## Calls give right contexts -/

section Calls

variable {settings : ConversionSettings} {limit : Nat} {owner : SectionId} {target : Context}
  {root : Location} {d₀ d : Document} {place : Location} {answers : Answers} {role : Role}
  {effect : Effect} {value : Inline}

/-- The first object that is added for inline content. In a section it is a paragraph. -/
theorem addedFor_size (hlive : Live d₀ owner target)
    (hreach : Reaches (.withDefaults settings) limit target root d₀ place answers d)
    (hrole : place.node.role? (usualRole? settings) = some role)
    (heffect : role.effect place (inForce (.withDefaults settings) target root answers place) =
      .ok (.content value)) :
    AddedFor (.withDefaults settings) limit target root d₀ place d.size := by
  refine (addedFor_iff hlive hreach hrole heffect).2 ⟨Nat.le_refl _, ?_⟩
  rw [applyTo_content, Document.size_push, size_opened]
  omega

/-- The paragraph that inline content in a section begins is loose. -/
theorem loose_of_content (hlive : Live d₀ owner target)
    (hreach : Reaches (.withDefaults settings) limit target root d₀ place answers d)
    (hrole : place.node.role? (usualRole? settings) = some role)
    (heffect : role.effect place (inForce (.withDefaults settings) target root answers place) =
      .ok (.content value)) (hblock : ¬ place.node.isBlock)
    (hsection : (inForce (.withDefaults settings) target root answers place).kind = .sectionBlock)
    (htarget : inForce (.withDefaults settings) target root answers place = target) :
    LooseParagraph (.withDefaults settings) limit target root d₀
      (opened owner (inForce (.withDefaults settings) target root answers place) d) d.size := by
  have hadded := addedFor_size hlive hreach hrole heffect
  refine .inr ⟨htarget ▸ hsection, ?_, ?_, fun block hisBlock hblockAdded => ?_⟩
  · exact (hreach.keepsShape (assembled_withDefaults settings) hlive).size_le
  · cases hcontext : inForce (.withDefaults settings) target root answers place with
    | inSection id => exact Document.object?_push_self
    | _ => exact absurd hsection (by rw [hcontext]; exact nofun)
  · rw [hblockAdded.unique hlive hadded] at hisBlock
    exact hblock hisBlock

/-- The paragraph that a block begins is its own. -/
theorem paragraphFor_of_blocks (hlive : Live d₀ owner target)
    (hreach : Reaches (.withDefaults settings) limit target root d₀ place answers d)
    (hrole : place.node.role? (usualRole? settings) = some role)
    {before after : List Paragraph} {value : Paragraph}
    (heffect : role.effect place (inForce (.withDefaults settings) target root answers place) =
      .ok (.blocks before value after)) (hmarker : value.marker? = none)
    (hitem : role = .listItem → value = itemParagraph (.ofLocation place)) :
    ParagraphFor (.withDefaults settings) limit target root d₀
      (Effect.applyTo owner (inForce (.withDefaults settings) target root answers place) d
        (.blocks before value after)) place (d.size + before.length) := by
  have hobject : (Effect.applyTo owner (inForce (.withDefaults settings) target root answers place)
      d (.blocks before value after)).object? (d.size + before.length) =
        some (.paragraph value) := by
    rw [applyTo_blocks]
    refine (Document.keeps_pushAll _ _).object?_eq _ _ (Document.object?_push.trans ?_) nofun
    rw [Document.size_pushAll, List.length_map, if_pos rfl]
  refine ⟨(addedFor_iff hlive hreach hrole heffect).2 ⟨Nat.le_add_right _ _, ?_⟩, value, hobject,
    hmarker, fun hli => hitem ?_⟩
  · exact Document.lt_size_of_object? hobject
  · exact Option.some.inj (hrole.symm.trans (role?_eq_listItem.2 hli))

/-- **What a call gives is right for what is inside its place**, if the context that it was given is
    right for the place. -/
theorem Placed.result (hlive : Live d₀ owner target)
    (hreach : Reaches (.withDefaults settings) limit target root d₀ place answers d)
    (hrole : place.node.role? (usualRole? settings) = some role)
    (heffect : role.effect place (inForce (.withDefaults settings) target root answers place) =
      .ok effect) {owners : List Location}
    (h : Placed (.withDefaults settings) limit target root d₀ d owners
      (inForce (.withDefaults settings) target root answers place)) :
    Placed (.withDefaults settings) limit target root d₀
      (effect.applyTo owner (inForce (.withDefaults settings) target root answers place) d)
      (place :: owners)
      (effect.result (inForce (.withDefaults settings) target root answers place) d.size) := by
  have hcontext := hreach.live (assembled_withDefaults settings) hlive place
  by_cases hblock : role.makesBlock
  · obtain ⟨before, value, after, rfl, hmarker, -, hitem⟩ := blocks_of_effect hblock heffect
    have hparagraph := paragraphFor_of_blocks hlive hreach hrole heffect hmarker hitem
    obtain ⟨-, given, hobject, -⟩ := id hparagraph
    exact of_block ((isBlock_iff_of_role? hrole).2 hblock) (Document.kind?_of_object? hobject)
      hparagraph
  · have hplace : ¬ place.node.isBlock := fun h => hblock ((isBlock_iff_of_role? hrole).1 h)
    -- Only the call for a link adds one, so other effects are those of other nodes.
    have hlink (heq : place.node.isElement "a") : ∃ link, effect = .content (.hyperlink link) := by
      obtain rfl := Option.some.inj (hrole.symm.trans (role?_eq_hyperlink.2 heq))
      exact ⟨_, (Except.ok.inj heffect).symm⟩
    have hnot (hne : ∀ link, effect ≠ .content (.hyperlink link)) : ¬ place.node.isElement "a" :=
      fun heq => (hlink heq).elim hne
    cases effect with
    | nothing => exact h.cons hplace fun heq => absurd heq (hnot nofun)
    | flag format =>
      exact (h.keep hcontext (hcontext.keeps _)).cons hplace fun heq => absurd heq (hnot nofun)
    | blocks before value after =>
      exact absurd (addsBlocks_of_effect hblock heffect) nofun
    | content value =>
      have hloose := fun hsection => loose_of_content hlive hreach hrole heffect hplace hsection
        (h.ofSection hsection).1
      refine (h.content hcontext hloose value).cons hplace fun heq => ?_
      obtain ⟨link, hvalue⟩ := hlink heq
      obtain rfl := Effect.content.inj hvalue
      have hlast : (Effect.applyTo owner (inForce (.withDefaults settings) target root answers
          place) d (.content (.hyperlink link))).object?
            (d.size + (inForce (.withDefaults settings) target root answers place).openings) =
              some (.hyperlink link) := by
        rw [applyTo_content, ← size_opened owner]
        exact Document.object?_push_self
      refine ⟨nofun, _, List.mem_cons_self, ?_, Document.kind?_of_object? hlast⟩
      exact (addedFor_iff hlive hreach hrole heffect).2
        ⟨Nat.le_add_right _ _, Document.lt_size_of_object? hlast⟩

theorem not_isBlock_of_isText (h : place.node.isText) : ¬ place.node.isBlock := by
  have hrole : place.node.role? (usualRole? {}) = some .text := role?_eq_text.2 h
  rw [isBlock_iff_of_role? hrole]
  exact Bool.false_ne_true

/-- A target that is no section is the paragraph of what stands right below the root. -/
theorem placed_target (hkind : d.kind? target.slot = some target.kind)
    (htarget : target.kind = .sectionBlock ∨ target.kind = .paragraph) :
    Placed (.withDefaults settings) limit target root d₀ d [] target := by
  refine ⟨fun _ => ⟨rfl, fun _ h => absurd h List.not_mem_nil⟩, fun hother => ?_,
    fun _ h => absurd h List.not_mem_nil⟩
  have hparagraph := htarget.resolve_left hother
  rw [hparagraph] at hkind
  exact ⟨target.slot, Document.paragraphAt?_of_paragraph hkind, .inl ⟨hparagraph, rfl⟩⟩

/-- **Every context in force is right** for the place where a walk comes to it. -/
theorem Reaches.placed (hlive : Live d₀ owner target)
    (htarget : target.kind = .sectionBlock ∨ target.kind = .paragraph)
    (hreach : Reaches (.withDefaults settings) limit target root d₀ place answers d) :
    Placed (.withDefaults settings) limit target root d₀ d (root.ownersUnder place)
      (inForce (.withDefaults settings) target root answers place) := by
  have hassembled := assembled_withDefaults settings
  induction place using Location.back_induction generalizing answers d with
  | top place _ hnone =>
    obtain ⟨parent, hparent, -⟩ := Location.parent?_of_mem_descendants hreach.mem_descendants
    cases hnone.symm.trans hparent
  | first place parent hfirst hparent ih =>
    obtain ⟨parent', hparent', hbelow⟩ :=
      Location.parent?_of_mem_descendants hreach.mem_descendants
    obtain rfl := Option.some.inj (hparent.symm.trans hparent')
    rw [inForce_of_first hfirst hparent]
    rcases hbelow with rfl | hbelow
    · rw [Location.ownersUnder_of_root hparent, startInside, if_pos rfl]
      exact placed_target ((hreach.keepsShape hassembled hlive).kind?_eq _ _ hlive.isKind) htarget
    obtain ⟨earlier, d₁, hreach', hcase⟩ := hreach.startInside_cases hassembled hlive hbelow
      (Location.address_lt_of_parent? hparent)
    have hcontext := hreach'.live hassembled hlive parent
    rw [Location.ownersUnder_of_parent? hparent hbelow]
    rcases hcase with ⟨hrole, hstart, hkeeps⟩ | ⟨role, effect, hrole, heffect, hstart, hkeeps⟩
    · have hblock : ¬ parent.node.isBlock := fun h => by
        obtain ⟨role, hsome⟩ := role?_of_isBlock h
        cases hrole.symm.trans hsome
      have hlink : ¬ parent.node.isElement "a" := fun h => by
        cases hrole.symm.trans (role?_eq_hyperlink.2 h)
      rw [hstart]
      exact ((ih hreach').keep hcontext hkeeps).cons hblock fun h => absurd h hlink
    · rw [hstart]
      exact (Placed.result hlive hreach' hrole heffect (ih hreach')).keep (hcontext.result effect)
        hkeeps
  | later place sibling hprevious ih =>
    obtain ⟨parent, hparent, -⟩ := Location.parent?_of_mem_descendants hreach.mem_descendants
    obtain ⟨earlier, d₁, hreach', hcase⟩ := hreach.inForce_cases hlive hprevious
    have hcontext := hreach'.live hassembled hlive sibling
    have hplaced := ih hreach'
    rw [Location.ownersUnder_of_previousSibling? hprevious hparent]
    rcases hcase with ⟨hstays, hkeeps⟩ | ⟨added, hadded, hafter, hkeeps⟩
    · rw [hstays]
      exact hplaced.keep hcontext hkeeps
    · have htext := isText_of_contributedText? hadded
      have hloose := fun hsection => loose_of_content hlive hreach' (role?_eq_text.2 htext)
        (effect_of_contributedText? hadded) (not_isBlock_of_isText htext) hsection
        (hplaced.ofSection hsection).1
      rw [hafter]
      exact (hplaced.content hcontext hloose (.text added)).keep (hcontext.result _) hkeeps

/-! ## What is added once -/

/-- The inline object that a call adds is the only one of its kind that it adds. -/
theorem addedFor_content_iff (hlive : Live d₀ owner target)
    (hreach : Reaches (.withDefaults settings) limit target root d₀ place answers d)
    (hrole : place.node.role? (usualRole? settings) = some role)
    (heffect : role.effect place (inForce (.withDefaults settings) target root answers place) =
      .ok (.content value)) {d' : Document}
    (hkeeps : (Effect.applyTo owner (inForce (.withDefaults settings) target root answers place) d
      (.content value)).Keeps d') (slot : Nat) :
    (AddedFor (.withDefaults settings) limit target root d₀ place slot ∧
        d'.kind? slot = some value.object.kind) ↔
      slot = d.size + (inForce (.withDefaults settings) target root answers place).openings := by
  rw [addedFor_iff hlive hreach hrole heffect]
  rw [applyTo_content] at hkeeps ⊢
  rw [Document.size_push, size_opened]
  constructor
  · rintro ⟨⟨hle, hlt⟩, hkind⟩
    cases hcontext : inForce (.withDefaults settings) target root answers place with
    | inSection id =>
      rw [hcontext, Context.openings] at hlt
      rw [hcontext] at hkeeps
      -- The first of the two new objects is the paragraph.
      have hfirst : (opened owner (.inSection id) d).object? d.size = some (.paragraph {}) :=
        Document.object?_push_self
      have hparagraph := hkeeps.object?_eq _ _ (Document.object?_push_of_some hfirst) nofun
      have hne : slot ≠ d.size := by
        rintro rfl
        rw [Document.kind?_of_object? hparagraph] at hkind
        have hinline := value.isInline_kind
        rw [← Option.some.inj hkind] at hinline
        exact absurd hinline (by decide)
      rw [Context.openings]
      omega
    | _ =>
      have hnone : (inForce (.withDefaults settings) target root answers place).openings = 0 := by
        rw [hcontext]
        rfl
      rw [hnone] at hlt
      show slot = d.size + 0
      omega
  · rintro rfl
    refine ⟨⟨Nat.le_add_right _ _, Nat.lt_succ_self _⟩, hkeeps.kind?_eq _ _ ?_⟩
    rw [← size_opened owner]
    exact Document.kind?_of_object? Document.object?_push_self

/-- A block has one paragraph of its own. -/
theorem ParagraphFor.unique (hlive : Live d₀ owner target)
    (hreach : Reaches (.withDefaults settings) limit target root d₀ place answers d)
    (hrole : place.node.role? (usualRole? settings) = some role)
    (heffect : role.effect place (inForce (.withDefaults settings) target root answers place) =
      .ok effect) (hblock : place.node.isBlock) {d' : Document}
    (hkeeps : (effect.applyTo owner (inForce (.withDefaults settings) target root answers place)
      d).Keeps d') {slot other : Nat}
    (h : ParagraphFor (.withDefaults settings) limit target root d₀ d' place slot)
    (h' : ParagraphFor (.withDefaults settings) limit target root d₀ d' place other) :
    slot = other := by
  obtain ⟨before, value, after, rfl, -, hmarkers, -⟩ :=
    blocks_of_effect ((isBlock_iff_of_role? hrole).1 hblock) heffect
  have hslot {slot : Nat}
      (h : ParagraphFor (.withDefaults settings) limit target root d₀ d' place slot) :
      slot = d.size + before.length := by
    obtain ⟨hadded, paragraph, hobject, hplain, -⟩ := h
    obtain ⟨hle, hlt⟩ := (addedFor_iff hlive hreach hrole heffect).1 hadded
    obtain ⟨index, rfl⟩ := Nat.exists_eq_add_of_le hle
    have hall : Effect.applyTo owner (inForce (.withDefaults settings) target root answers place) d
        (.blocks before value after) = d.pushAll ((before ++ value :: after).map fun paragraph =>
          (owner.slot, .paragraph paragraph)) := rfl
    rw [hall, Document.size_pushAll, List.length_map] at hlt
    have hindex : index < (before ++ value :: after).length := by omega
    have hthere := Document.object?_pushAll_add d
      ((before ++ value :: after).map fun paragraph => (owner.slot, .paragraph paragraph)) index
    rw [List.getElem?_map, List.getElem?_eq_getElem hindex] at hthere
    rw [hall] at hkeeps
    have hsame := hkeeps.object?_eq _ _ hthere nofun
    obtain rfl := DocumentObject.paragraph.inj (Option.some.inj (hobject.symm.trans hsame))
    rcases lt_trichotomy index before.length with hless | heq | hless
    · rw [List.getElem_append_left hless] at hplain
      exact absurd hplain (hmarkers _ (List.mem_append_left _ (List.getElem_mem _)))
    · rw [heq]
    · obtain ⟨rest, rfl⟩ := Nat.exists_eq_add_of_lt hless
      rw [List.getElem_append_right (by omega)] at hplain
      have hrest : before.length + rest + 1 - before.length = rest + 1 := by omega
      simp only [hrest, List.getElem_cons_succ] at hplain
      exact absurd hplain (hmarkers _ (List.mem_append_right _ (List.getElem_mem _)))
  rw [hslot h, hslot h']

end Calls

theorem Target.kind_context (target : Target) :
    target.context.kind = .sectionBlock ∨ target.context.kind = .paragraph := by
  cases target with
  | intoSection id => exact .inl rfl
  | intoParagraph id => exact .inr rfl

/-- **Every text goes into the paragraph of its nearest block.**

    Take a text that goes into the document, where an insertion by the usual converter comes to it,
    whether that succeeds in the end or not. The call for it adds one text object. With a block
    among the owners of the text, the paragraph that owns this object is the one that the nearest
    block has for itself; without, it is the target, or in a target section a new paragraph without
    a style that no block has added. And each link around the text, up to the nearest block, has
    added one hyperlink, which owns the object too. -/
theorem insertInto_nearest_block {settings : ConversionSettings} {root : Location}
    {d d' : Document} (hd : d.Reachable) {target : Target} {context : Context}
    (hresolve : d.resolve target = .ok context) {outcome : Except ConvertError Unit}
    (hinsert : (Conversion.insertInto ⟨.ofSettings settings, root⟩ target).runOn d =
      (outcome, d'))
    {place : Location} {answers : Answers} {middle : Document}
    (hreach : Reaches (.withDefaults settings) settings.maxDepth context root d place answers
      middle) {text : String} (htext : place.contributedText? = some text) :
    let added := AddedFor (.withDefaults settings) settings.maxDepth context root d
    let owners := root.ownersUnder place
    ∃ slot parent paragraph,
      (∀ other, (added place other ∧ d'.kind? other = some .text) ↔ other = slot) ∧
      d'.object? slot = some (.text text) ∧ d'.parent? slot = some parent.slot ∧
      d'.paragraphOf parent = .ok paragraph ∧
      (∀ block, blockAmong? owners = some block → ∀ other,
        ParagraphFor (.withDefaults settings) settings.maxDepth context root d d' block other ↔
          other = paragraph.slot) ∧
      (∀ link ∈ linksAmong owners, ∃ around ∈ d'.ancestors slot, ∀ other,
        (added link other ∧ d'.kind? other = some .hyperlink) ↔ other = around) ∧
      (blockAmong? owners = none → ∀ id, target = .intoParagraph id → paragraph = id) ∧
      (blockAmong? owners = none → ∀ id, target = .intoSection id →
        d.size ≤ paragraph.slot ∧ d'.object? paragraph.slot = some (.paragraph {}) ∧
          ∀ block : Location, block.node.isBlock → ¬ added block paragraph.slot) := by
  intro added owners
  obtain ⟨rfl, owner, hlive⟩ := live_of_resolve hd.wellFormed hresolve
  have hassembled := assembled_withDefaults settings
  have hnode := isText_of_contributedText? htext
  have hrole : place.node.role? (usualRole? settings) = some .text := role?_eq_text.2 hnode
  let given := inForce (.withDefaults settings) target.context root answers place
  have heffect : Role.text.effect place given = .ok (.content (.text text)) :=
    effect_of_contributedText? htext
  have hcontext : Live middle owner given := hreach.live hassembled hlive place
  have hkeeps : (Effect.applyTo owner given middle (.content (.text text))).Keeps d' :=
    keeps_of_insertInto hassembled hlive hresolve hreach hrole heffect hinsert
  -- The context in force was right, so the container that the text went into is.
  have hplaced := hreach.placed hlive target.kind_context
  have hloose := fun hsection => loose_of_content hlive hreach hrole heffect
    (not_isBlock_of_isText hnode) hsection (hplaced.ofSection hsection).1
  have hresult : Placed (.withDefaults settings) settings.maxDepth target.context root d d' owners
      (given.afterContent middle.size) :=
    (hplaced.content hcontext hloose (.text text)).keep (hcontext.result _) hkeeps
  have hslot : (given.afterContent middle.size).slot = (given.container middle.size).slot :=
    Live.slot_afterContent _ _
  obtain ⟨paragraph, hparagraph, hright⟩ :=
    hresult.ofParagraph (Live.kind_afterContent middle.size given)
  have hlinks := hresult.links
  rw [hslot] at hparagraph hlinks
  rw [applyTo_content] at hkeeps
  let slot := middle.size + given.openings
  have hsize : (opened owner given middle).size = slot := size_opened owner given middle
  have hobject : d'.object? slot = some (.text text) :=
    hkeeps.object?_eq _ _ (hsize ▸ Document.object?_push_self) nofun
  have hparent : d'.parent? slot = some (given.container middle.size).slot :=
    hkeeps.parent?_eq _ _ (hsize ▸ Document.parent?_push_self)
  have hkind : d'.kind? (given.container middle.size).slot =
      some (given.container middle.size).kind :=
    hkeeps.kind?_eq _ _ ((Document.keepsShape_push _ _ _).kind?_eq _ _ hcontext.kind?_container)
  have hlt : (given.container middle.size).slot < slot := by
    have hthere := Document.lt_size_of_kind? hcontext.kind?_container
    rwa [size_opened] at hthere
  refine ⟨slot, given.container middle.size, ⟨paragraph⟩, fun other => ?_,
    hobject, hparent, Live.paragraphOf_eq_ok hkind hparagraph, ?_, ?_, ?_, ?_⟩
  · rw [← applyTo_content] at hkeeps
    exact addedFor_content_iff hlive hreach hrole heffect hkeeps other
  · intro block hblock other
    have hown := hright.block hblock
    have hisBlock : block.node.isBlock :=
      List.find?_some (p := fun owner : Location => owner.node.isBlock) hblock
    obtain ⟨answers', d₁, role, effect, hreach', hrole', heffect', hkeeps'⟩ :=
      hown.added.exists_kept hlive hresolve hinsert
    refine ⟨fun hother => ?_, fun heq => heq ▸ hown⟩
    exact hother.unique hlive hreach' hrole' heffect' hisBlock hkeeps' hown
  · intro link hlink
    obtain ⟨around, hmem, hadded, hhyperlink⟩ := hlinks link hlink
    obtain ⟨answers', d₁, role, effect, hreach', hrole', heffect', hkeeps'⟩ :=
      hadded.exists_kept hlive hresolve hinsert
    obtain rfl := Option.some.inj
      (hrole'.symm.trans (role?_eq_hyperlink.2 (List.mem_filter.1 hlink).2))
    obtain rfl := Except.ok.inj heffect'
    have honly := addedFor_content_iff hlive hreach' hrole' heffect' hkeeps'
    rw [Document.ancestors_of_parent? hparent hlt]
    refine ⟨around, hmem, fun other => ?_⟩
    rw [(honly around).1 ⟨hadded, hhyperlink⟩]
    exact honly other
  · rintro hnone id rfl
    rcases hright.loose hnone with ⟨-, heq⟩ | ⟨hkind, -⟩
    · rw [heq]
      rfl
    · exact absurd hkind nofun
  · rintro hnone id rfl
    rcases hright.loose hnone with ⟨hkind, -⟩ | ⟨-, hloose⟩
    · exact absurd hkind nofun
    · exact hloose

/-- A text in a link in a block. -/
theorem insertInto_nearest_block_link :
    let d : Document := Document.empty.push 0 .sectionBlock
    let link : Node := .branch (.element "a" [⟨"href", "u"⟩]) [.text "x"]
    let root : Location := ⟨.branch .fragment [.branch (.element "p" []) [link]], []⟩
    let block : Location := ⟨.branch (.element "p" []) [link], [⟨.fragment, [], []⟩]⟩
    ∃ d' slot parent paragraph, d.Reachable ∧
      (Conversion.insertInto ⟨.ofSettings {}, root⟩ (.intoSection ⟨1⟩)).runOn d = (.ok (), d') ∧
      d'.object? slot = some (.text "x") ∧ d'.parent? slot = some (InlineParent.slot parent) ∧
      d'.paragraphOf parent = .ok paragraph ∧
      ∀ other, ParagraphFor (.withDefaults {}) 512 (.inSection ⟨1⟩) root d d' block other ↔
        other = paragraph.slot := by
  intro d link root block
  let text : Location := ⟨.text "x", [⟨.element "a" [⟨"href", "u"⟩], [], []⟩,
    ⟨.element "p" [], [], []⟩, ⟨.fragment, [], []⟩]⟩
  have hreachable : d.Reachable := .perform .addSection .empty rfl
  have hresolve : d.resolve (.intoSection ⟨1⟩) = .ok (.inSection ⟨1⟩) := rfl
  let after := ((d.push 1 (.paragraph {})).push 2 (.hyperlink ⟨"u", .web⟩)).push 3 (.text "x")
  have hinsert : (Conversion.insertInto ⟨.ofSettings {}, root⟩ (.intoSection ⟨1⟩)).runOn d =
      (.ok (), after) := by
    decide +kernel
  have hmem : text ∈ root.descendants :=
    List.mem_cons_of_mem _ (List.mem_cons_of_mem _ List.mem_cons_self)
  obtain ⟨answers, middle, hreach⟩ := exists_reaches hresolve hinsert hmem
  have htext : text.contributedText? = some "x" := by decide +kernel
  obtain ⟨slot, parent, paragraph, -, hobject, hparent, hparagraph, hblock, -⟩ :=
    insertInto_nearest_block hreachable hresolve hinsert hreach htext
  exact ⟨_, slot, parent, paragraph, hreachable, hinsert, hobject, hparent, hparagraph,
    hblock block rfl⟩

end Galley
