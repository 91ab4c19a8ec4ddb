import Mathlib.Data.List.Count
import Galley.Proofs.Conversion.LiveContext
import Galley.Proofs.Document.Shown

/-!
  Owners: the shape of a document as its children lists and its handles show it.

  In a well-formed document the children of an object are of the kinds it holds and every object
  but the root is the child of exactly one other, in an earlier slot (`WellFormed.treeShape`). So
  the chain of owners of a paragraph or of inline content ends in a section, with one paragraph on
  the way (`WellFormed.paragraphs_on_chain`, by induction on the slot), and the owner that a
  handle asks for is there (`WellFormed.ownersFound`). `DocumentError.detached` is the answer where
  it is not: no operation and no question gives it (`perform_not_detached`,
  `WellFormed.answer_not_detached`).
-/

namespace Galley

/-- The error of an owner that is not there. -/
def DocumentError.isDetached : DocumentError → Bool
  | .detached _ _ => true
  | .missing _ | .kindMismatch _ _ | .emptyStyle => false

/-- The questions that a document answers and that change nothing. -/
inductive Question : Type → Type where
  | sections : Question (List SectionId)
  | checkSection (id : SectionId) : Question Unit
  | paragraphs (id : SectionId) : Question (List ParagraphId)
  | paragraph (id : ParagraphId) : Question Paragraph
  | sectionOf (id : ParagraphId) : Question SectionId
  | paragraphOf (parent : InlineParent) : Question ParagraphId
  | run (id : RunId) : Question TextRun
  | hyperlink (id : LinkId) : Question Hyperlink
  | view : Question (List SectionView)
  | paragraphView (id : ParagraphId) : Question ParagraphView

def Question.answer {α : Type} : Question α → Document → Except DocumentError α
  | sections, d => .ok d.sections
  | checkSection id, d => d.checkSection id
  | paragraphs id, d => d.paragraphs id
  | paragraph id, d => d.paragraph id
  | sectionOf id, d => d.sectionOf id
  | paragraphOf parent, d => d.paragraphOf parent
  | run id, d => d.run id
  | hyperlink id, d => d.hyperlink id
  | view, d => .ok d.view
  | paragraphView id, d => d.paragraphView id

namespace Document

variable {d : Document} {slot : Nat}

/-! ## Children -/

/-- The shape of a document, told by the kinds of its children. -/
structure TreeShape (d : Document) : Prop where
  /-- The root, which stands in the first slot, is the only object of its kind. -/
  root : ∀ slot, d.kind? slot = some .document ↔ slot = rootSlot
  sections : ∀ child ∈ d.children rootSlot, d.kind? child = some .sectionBlock
  paragraphs : ∀ slot, d.kind? slot = some .sectionBlock →
    ∀ child ∈ d.children slot, d.kind? child = some .paragraph
  inlines : ∀ slot kind, d.kind? slot = some kind →
    kind = .paragraph ∨ kind = .run ∨ kind = .hyperlink →
    ∀ child ∈ d.children slot, ∃ inner, d.kind? child = some inner ∧ inner.isInline
  leaves : ∀ slot, d.kind? slot = some .text ∨ d.kind? slot = some .lineBreak →
    d.children slot = []
  ownerless : ∀ owner, rootSlot ∉ d.children owner
  /-- Every other object is once a child, and of one object in an earlier slot. -/
  owned : ∀ slot, slot ≠ rootSlot → slot < d.size → ∃ owner < slot,
    ∀ other, (d.children other).count slot = if other = owner then 1 else 0

theorem nodup_children (d : Document) (slot : Nat) : (d.children slot).Nodup :=
  (List.nodup_range' ..).filter _

namespace WellFormed

/-- An object's children are of the kinds it holds. -/
theorem mayHold_of_mem_children (h : d.WellFormed) {child : Nat} {outer : ObjectKind}
    (houter : d.kind? slot = some outer) (hchild : child ∈ d.children slot) :
    ∃ inner, d.kind? child = some inner ∧ outer.mayHold inner := by
  have hparent := parent?_of_mem_children hchild
  obtain ⟨value, hobject⟩ := object?_of_lt_size (lt_size_of_parent? hparent)
  have hinner := kind?_of_object? hobject
  exact ⟨_, hinner, (h.mayHold_of_parent? hparent houter hinner).2⟩

theorem kind?_rootSlot (h : d.WellFormed) : d.kind? rootSlot = some .document :=
  kind?_of_object? h.root

theorem parent?_of_ne_rootSlot (h : d.WellFormed) (hslot : slot ≠ rootSlot)
    (hlt : slot < d.size) : ∃ owner < slot, d.parent? slot = some owner ∧
      slot ∈ d.children owner := by
  obtain ⟨value, hobject⟩ := object?_of_lt_size hlt
  obtain ⟨owner, above, howner, hbefore, habove, -⟩ := h.owned slot value hslot hobject
  have hchild := h.mem_children howner (kind?_of_object? habove) (kind?_of_object? hobject)
  exact ⟨owner, hbefore, howner, hchild⟩

theorem treeShape (h : d.WellFormed) : d.TreeShape where
  root := fun slot => by
    constructor
    · exact h.eq_rootSlot
    · rintro rfl
      exact h.kind?_rootSlot
  sections := fun child hchild => by
    obtain ⟨inner, hinner, hholds⟩ := h.mayHold_of_mem_children h.kind?_rootSlot hchild
    rw [hinner, of_decide_eq_true hholds]
  paragraphs := fun slot hslot child hchild => by
    obtain ⟨inner, hinner, hholds⟩ := h.mayHold_of_mem_children hslot hchild
    rw [hinner, of_decide_eq_true hholds]
  inlines := fun slot kind hslot hkind child hchild => by
    obtain ⟨inner, hinner, hholds⟩ := h.mayHold_of_mem_children hslot hchild
    refine ⟨inner, hinner, ?_⟩
    rcases hkind with rfl | rfl | rfl <;> exact hholds
  leaves := fun slot hslot => by
    refine List.eq_nil_iff_forall_not_mem.2 fun child hchild => ?_
    rcases hslot with hslot | hslot <;>
      obtain ⟨inner, -, hholds⟩ := h.mayHold_of_mem_children hslot hchild <;>
      exact absurd hholds Bool.false_ne_true
  ownerless := fun owner hchild => by
    have hparent := parent?_of_mem_children hchild
    rw [h.ownerless] at hparent
    exact absurd hparent nofun
  owned := fun slot hslot hlt => by
    obtain ⟨owner, hbefore, howner, hchild⟩ := h.parent?_of_ne_rootSlot hslot hlt
    refine ⟨owner, hbefore, fun other => ?_⟩
    rw [(nodup_children d other).count]
    refine if_congr ⟨fun hother => ?_, ?_⟩ rfl rfl
    · exact Option.some.inj ((parent?_of_mem_children hother).symm.trans howner)
    · rintro rfl
      exact hchild

/-! ## Chains of owners -/

/-- Paragraphs and inline content stand in a section. -/
theorem exists_standsIn (h : d.WellFormed) {kind : ObjectKind} (hkind : d.kind? slot = some kind)
    (hcase : kind = .paragraph ∨ kind.isInline) :
    ∃ owner, d.kind? owner = some .sectionBlock ∧ d.StandsIn owner slot := by
  induction slot using Nat.strongRecOn generalizing kind with
  | ind slot ih =>
    rcases hcase with rfl | hinline
    · obtain ⟨owner, howner, hsection⟩ := h.section_of_paragraph hkind
      exact ⟨owner, hsection, .block hkind howner⟩
    · have hne : kind ≠ .document := by
        rintro rfl
        exact absurd hinline Bool.false_ne_true
      obtain ⟨parent, outer, hparent, hlt, houter, hholds⟩ := h.exists_owner hkind hne
      have houterCase : outer = .paragraph ∨ outer.isInline := by
        revert hholds hinline
        cases outer <;> cases kind <;> decide
      obtain ⟨owner, hsection, hstands⟩ := ih parent hlt houter houterCase
      exact ⟨owner, hsection, .inside hkind hinline hparent hlt hstands⟩

/-- The owners of a section are the root alone. -/
theorem ancestors_of_section (h : d.WellFormed) (hkind : d.kind? slot = some .sectionBlock) :
    d.ancestors slot = [rootSlot] := by
  have hroot := h.parent?_of_section hkind
  rw [ancestors_of_parent? hroot (h.lt_of_parent? hroot), ancestors, h.ownerless]

/-- Between inline content and its section there is one paragraph. -/
theorem paragraphs_on_chain (h : d.WellFormed) {owner : Nat}
    (howner : d.kind? owner = some .sectionBlock) (hstands : d.StandsIn owner slot) :
    (slot :: d.ancestors slot).filter (fun above => d.kind? above == some .paragraph) =
      (d.paragraphAt? slot).toList := by
  induction hstands with
  | @block slot hkind hparent =>
    have hlt := (h.mayHold_of_parent? hparent howner hkind).1
    rw [paragraphAt?_of_paragraph hkind, ancestors_of_parent? hparent hlt,
      h.ancestors_of_section howner]
    simp [hkind, howner, h.kind?_rootSlot]
  | @inside slot parent kind hkind hinline hparent hlt _ ih =>
    have hne : kind ≠ .paragraph := by
      rintro rfl
      exact absurd hinline Bool.false_ne_true
    rw [paragraphAt?_of_inline hkind hinline hparent hlt, ← ih,
      ancestors_of_parent? hparent hlt, List.filter_cons_of_neg]
    simpa [hkind] using hne

end WellFormed

/-! ## What handles ask for -/

/-- Every paragraph has its section, and every inline parent its paragraph. -/
structure OwnersFound (d : Document) : Prop where
  /-- The section of a paragraph lists it once, and no other section lists it. -/
  sectionOf : ∀ id : ParagraphId, d.kind? id.slot = some .paragraph →
    ∃ owner paragraphs, d.sectionOf id = .ok owner ∧ d.paragraphs owner = .ok paragraphs ∧
      paragraphs.count id = 1 ∧
      ∀ other others, d.paragraphs other = .ok others → id ∈ others → other = owner
  /-- The paragraph of an inline parent is the only one among this and its owners. -/
  paragraphOf : ∀ parent : InlineParent, d.kind? parent.slot = some parent.kind →
    ∃ id, d.paragraphOf parent = .ok id ∧
      (parent.slot :: d.ancestors parent.slot).filter
        (fun above => d.kind? above == some .paragraph) = [id.slot]

/-- A section lists the paragraphs that stand in it, each once. -/
theorem count_paragraphs {owner : SectionId} {id : ParagraphId} {paragraphs : List ParagraphId}
    (h : d.paragraphs owner = .ok paragraphs) : paragraphs.count id =
      if id.slot ∈ d.children owner.slot ∧ d.kind? id.slot = some .paragraph then 1 else 0 := by
  obtain ⟨-, rfl⟩ := paragraphs_eq_ok.1 h
  have hinjective : Function.Injective (Handle.mk : Nat → ParagraphId) :=
    fun _ _ heq => congrArg Handle.slot heq
  have hcount := List.count_map_of_injective ((d.children owner.slot).filter
    fun slot => d.kind? slot == some .paragraph) _ hinjective id.slot
  refine hcount.trans ?_
  rw [List.Nodup.count ((nodup_children d owner.slot).filter _)]
  simp only [List.mem_filter, beq_iff_eq]

theorem WellFormed.ownersFound (h : d.WellFormed) : d.OwnersFound where
  sectionOf := fun id hkind => by
    obtain ⟨owner, howner, hsection⟩ := h.section_of_paragraph hkind
    have hchild := h.mem_children howner hsection hkind
    have hlisted : d.paragraphs ⟨owner⟩ = .ok _ :=
      paragraphs_eq_ok.2 ⟨object?_of_kind?_section hsection, rfl⟩
    refine ⟨⟨owner⟩, _, Live.sectionOf hsection hkind howner, hlisted, ?_, ?_⟩
    · rw [count_paragraphs hlisted, if_pos ⟨hchild, hkind⟩]
    · intro other others hothers hmem
      obtain ⟨-, rfl⟩ := paragraphs_eq_ok.1 hothers
      obtain ⟨slot, hslot, rfl⟩ := List.mem_map.1 hmem
      have hparent := parent?_of_mem_children (List.mem_filter.1 hslot).1
      exact congrArg Handle.mk (Option.some.inj (hparent.symm.trans howner))
  paragraphOf := fun parent hkind => by
    have hcase : parent.kind = .paragraph ∨ parent.kind.isInline := by
      cases parent <;> simp [InlineParent.kind, ObjectKind.isInline]
    obtain ⟨owner, hsection, hstands⟩ := h.exists_standsIn hkind hcase
    obtain ⟨paragraph, hat, -, -⟩ := hstands.exists_paragraph
    refine ⟨⟨paragraph⟩, Live.paragraphOf_eq_ok hkind hat, ?_⟩
    rw [h.paragraphs_on_chain hsection hstands, hat]
    rfl

/-! ## No owner is missing -/

variable {cause : DocumentError}

/-- Reading an object never asks for an owner. -/
theorem read_not_detached {kind : ObjectKind} {α : Type} {handle : Handle kind}
    {select : DocumentObject → Option α} (h : d.read handle select = .error cause) :
    ¬ cause.isDetached := by
  unfold read at h
  split at h
  · cases h
    exact Bool.false_ne_true
  · split at h
    · exact absurd h nofun
    · cases h
      exact Bool.false_ne_true

/-- Nor does adding one. -/
theorem addChild_not_detached {kind : ObjectKind} {value : DocumentObject}
    (h : d.addChild kind slot value = .error cause) : ¬ cause.isDetached := by
  unfold addChild at h
  split at h
  · cases h
    exact Bool.false_ne_true
  · split at h
    · exact absurd h nofun
    · cases h
      exact Bool.false_ne_true

theorem error_of_bind {α β : Type} {x : Except DocumentError α}
    {next : α → Except DocumentError β} (h : x >>= next = .error cause) :
    x = .error cause ∨ ∃ value, x = .ok value ∧ next value = .error cause := by
  cases x with
  | error other => exact .inl (congrArg Except.error (Except.error.inj h))
  | ok value => exact .inr ⟨value, rfl, h⟩

theorem error_of_map {α β : Type} {x : Except DocumentError α} {f : α → β}
    (h : x.map f = .error cause) : x = .error cause := by
  cases x with
  | error other => exact congrArg Except.error (Except.error.inj h)
  | ok value => exact absurd h nofun

theorem updateParagraph_not_detached {id : ParagraphId} {f : Paragraph → Paragraph}
    (h : d.updateParagraph id f = .error cause) : ¬ cause.isDetached := by
  obtain hread | ⟨value, -, hvalue⟩ := error_of_bind h
  · exact read_not_detached hread
  · exact absurd hvalue nofun

theorem updateRun_not_detached {id : RunId} {f : TextRun → TextRun}
    (h : d.updateRun id f = .error cause) : ¬ cause.isDetached := by
  obtain hread | ⟨value, -, hvalue⟩ := error_of_bind h
  · exact read_not_detached hread
  · exact absurd hvalue nofun

/-- **No operation misses an owner**, in whatever document. -/
theorem perform_not_detached {operation : Operation} (h : operation.perform d = .error cause) :
    ¬ cause.isDetached := by
  cases operation with
  | addSection => exact absurd h nofun
  | addParagraph owner =>
    rw [Operation.perform, addParagraph_eq] at h
    exact addChild_not_detached (error_of_map (error_of_map h))
  | updateParagraph id f => exact updateParagraph_not_detached h
  | setStyle id style =>
    simp only [Operation.perform, Document.setStyle] at h
    split at h
    · cases h
      exact Bool.false_ne_true
    · exact updateParagraph_not_detached h
  | addText parent text =>
    rw [Operation.perform, addText_eq] at h
    exact addChild_not_detached (error_of_map h)
  | addLineBreak parent =>
    rw [Operation.perform, addLineBreak_eq] at h
    exact addChild_not_detached (error_of_map h)
  | addRun parent format =>
    rw [Operation.perform, addRun_eq] at h
    exact addChild_not_detached (error_of_map (error_of_map h))
  | updateRun id f => exact updateRun_not_detached h
  | applyFormat id format => exact updateRun_not_detached h
  | addHyperlink parent link =>
    rw [Operation.perform, addHyperlink_eq] at h
    exact addChild_not_detached (error_of_map (error_of_map h))

namespace WellFormed

theorem sectionOf_not_detached (h : d.WellFormed) {id : ParagraphId}
    (herror : d.sectionOf id = .error cause) : ¬ cause.isDetached := by
  obtain hread | ⟨value, hread, -⟩ := error_of_bind herror
  · exact read_not_detached hread
  · have hkind := kind?_of_object? (paragraph_eq_ok.1 hread)
    obtain ⟨owner, -, hok, -⟩ := h.ownersFound.sectionOf id hkind
    rw [hok] at herror
    exact absurd herror nofun

theorem paragraphOf_not_detached (h : d.WellFormed) {parent : InlineParent}
    (herror : d.paragraphOf parent = .error cause) : ¬ cause.isDetached := by
  by_cases hkind : d.kind? parent.slot = some parent.kind
  · obtain ⟨id, hok, -⟩ := h.ownersFound.paragraphOf parent hkind
    rw [hok] at herror
    exact absurd herror nofun
  · obtain hread | ⟨value, hread, -⟩ := error_of_bind herror
    · exact read_not_detached hread
    · obtain ⟨object, hobject, hselect⟩ := read_eq_ok.1 hread
      have hparent : object.kind = parent.kind := (Option.ite_none_right_eq_some.1 hselect).1
      exact absurd (hparent ▸ kind?_of_object? hobject) hkind

/-- **No question misses an owner** in a well-formed document. -/
theorem answer_not_detached (h : d.WellFormed) {α : Type} {question : Question α}
    (herror : question.answer d = .error cause) : ¬ cause.isDetached := by
  cases question with
  | sections => exact absurd herror nofun
  | checkSection id => exact read_not_detached herror
  | paragraphs id =>
    obtain hcheck | ⟨value, -, hvalue⟩ := error_of_bind herror
    · exact read_not_detached hcheck
    · exact absurd hvalue nofun
  | paragraph id => exact read_not_detached herror
  | sectionOf id => exact h.sectionOf_not_detached herror
  | paragraphOf parent => exact h.paragraphOf_not_detached herror
  | run id => exact read_not_detached herror
  | hyperlink id => exact read_not_detached herror
  | view => exact absurd herror nofun
  | paragraphView id =>
    obtain hread | ⟨value, -, hvalue⟩ := error_of_bind herror
    · exact read_not_detached hread
    · exact absurd hvalue nofun

end WellFormed

end Document

end Galley
