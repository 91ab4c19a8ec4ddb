import Galley.Proofs.Document.Growth

/-!
  What a view shows, slot by slot.

  `shownSlots` lists the slots whose objects a view holds, in the order of the view
  (`objects_view`). In a well-formed document every object but the root is shown
  (`WellFormed.mem_shownSlots`): by induction on the slot, an object is reached from its parent.
-/

namespace Galley

mutual

/-- An inline object and all that is inside it. -/
def InlineView.objects : InlineView → List DocumentObject
  | .text value => [.text value]
  | .lineBreak => [.lineBreak]
  | .run value content => .run value :: InlineView.objectsAll content
  | .hyperlink value content => .hyperlink value :: InlineView.objectsAll content

/-- The objects of a list of inline objects, one after the other. -/
def InlineView.objectsAll : List InlineView → List DocumentObject
  | [] => []
  | inline :: rest => inline.objects ++ InlineView.objectsAll rest

end

theorem InlineView.objectsAll_eq_flatMap (content : List InlineView) :
    InlineView.objectsAll content = content.flatMap InlineView.objects := by
  induction content with
  | nil => rfl
  | cons inline rest ih => rw [InlineView.objectsAll, ih, List.flatMap_cons]

def ParagraphView.objects (view : ParagraphView) : List DocumentObject :=
  .paragraph view.value :: view.content.flatMap InlineView.objects

/-- The objects that a section's view holds, the section first. -/
def SectionView.objects (view : SectionView) : List DocumentObject :=
  .sectionBlock :: view.paragraphs.flatMap ParagraphView.objects

namespace Document

/-- The slots that the content of an object is read from, in order. -/
def inlineSlots (d : Document) (slot : Nat) : List Nat :=
  (d.children slot).attach.flatMap fun ⟨child, _⟩ =>
    match d.object? child with
    | some (.text _) => [child]
    | some .lineBreak => [child]
    | some (.run _) => child :: d.inlineSlots child
    | some (.hyperlink _) => child :: d.inlineSlots child
    | _ => []
termination_by d.size - slot
decreasing_by
  all_goals
    have := lt_of_mem_children ‹child ∈ d.children slot›
    omega

/-- The slots that the inline object in a slot is read from, if there is one. -/
def inlineSlotsAt (d : Document) (slot : Nat) : List Nat :=
  match d.object? slot with
  | some (.text _) => [slot]
  | some .lineBreak => [slot]
  | some (.run _) => slot :: d.inlineSlots slot
  | some (.hyperlink _) => slot :: d.inlineSlots slot
  | _ => []

/-- The slots that the paragraph in a slot is read from, if there is one. -/
def paragraphSlotsAt (d : Document) (slot : Nat) : List Nat :=
  match d.object? slot with
  | some (.paragraph _) => slot :: d.inlineSlots slot
  | _ => []

/-- The slots that a view of the document is read from, in order. -/
def shownSlots (d : Document) : List Nat :=
  d.sections.flatMap fun id => id.slot :: (d.children id.slot).flatMap d.paragraphSlotsAt

variable {d : Document} {slot : Nat}

theorem inlineSlots_eq_flatMap (d : Document) (slot : Nat) :
    d.inlineSlots slot = (d.children slot).flatMap d.inlineSlotsAt := by
  rw [inlineSlots]
  conv_rhs => rw [← List.attach_map_subtype_val (d.children slot), List.flatMap_map]
  rfl

/-! ## The order of a view -/

/-- What is taken from a list of slots one by one, through views or from the slots they are read
    from. -/
theorem flatMap_filterMap_eq {α β : Type} (slots : List Nat) (view : Nat → Option α)
    (parts : α → List β) (read : Nat → List Nat) (select : Nat → Option β)
    (h : ∀ slot ∈ slots, (view slot).toList.flatMap parts = (read slot).filterMap select) :
    (slots.filterMap view).flatMap parts = (slots.flatMap read).filterMap select := by
  induction slots with
  | nil => rfl
  | cons slot slots ih =>
    have hslot := h slot List.mem_cons_self
    rw [List.flatMap_cons, List.filterMap_append, ← hslot,
      ← ih fun other hother => h other (List.mem_cons_of_mem _ hother), List.filterMap_cons]
    cases view slot <;> simp

theorem objects_inlineViews (d : Document) (slot : Nat) :
    (d.inlineViews slot).flatMap InlineView.objects =
      (d.inlineSlots slot).filterMap d.object? := by
  induction slot using d.children_induction with
  | step slot ih =>
    rw [inlineViews_eq_filterMap, inlineSlots_eq_flatMap]
    refine flatMap_filterMap_eq _ _ _ _ _ fun child hchild => ?_
    have hinside := ih child hchild
    unfold inlineViewAt? inlineSlotsAt
    cases hobject : d.object? child with
    | none => rfl
    | some object =>
      cases object <;>
        simp [InlineView.objects, InlineView.objectsAll_eq_flatMap, hinside, hobject]

/-- **A view holds the objects of the shown slots**, in their order. -/
theorem objects_view (d : Document) :
    d.view.flatMap SectionView.objects = d.shownSlots.filterMap d.object? := by
  rw [view, shownSlots, List.flatMap_map, List.filterMap_flatMap]
  refine List.flatMap_congr fun id hid => ?_
  have hsection := object?_of_kind?_section (kind?_of_mem_sections hid)
  rw [List.filterMap_cons_some hsection, SectionView.objects]
  refine congrArg _ (flatMap_filterMap_eq _ _ _ _ _ fun slot _ => ?_)
  unfold paragraphViewAt? paragraphSlotsAt
  cases hobject : d.object? slot with
  | none => rfl
  | some object =>
    cases object <;> simp [ParagraphView.objects, objects_inlineViews, hobject]

/-! ## Every object is shown -/

theorem mem_inlineSlotsAt {value : DocumentObject} (hobject : d.object? slot = some value)
    (hinline : value.kind.isInline) : slot ∈ d.inlineSlotsAt slot := by
  unfold inlineSlotsAt
  rw [hobject]
  cases value with
  | text value => exact List.mem_cons_self
  | lineBreak => exact List.mem_cons_self
  | run value => exact List.mem_cons_self
  | hyperlink value => exact List.mem_cons_self
  | document => exact absurd hinline Bool.false_ne_true
  | sectionBlock => exact absurd hinline Bool.false_ne_true
  | paragraph value => exact absurd hinline Bool.false_ne_true

/-- What is inside an inline container is read with it. -/
theorem inlineSlots_subset_inlineSlotsAt {value : DocumentObject}
    (hobject : d.object? slot = some value) (hinline : value.kind.isInline)
    (hholds : value.kind.mayHold .text) : d.inlineSlots slot ⊆ d.inlineSlotsAt slot := by
  unfold inlineSlotsAt
  rw [hobject]
  cases value with
  | run value => exact List.subset_cons_self _ _
  | hyperlink value => exact List.subset_cons_self _ _
  | text value => exact absurd hholds Bool.false_ne_true
  | lineBreak => exact absurd hholds Bool.false_ne_true
  | document => exact absurd hinline Bool.false_ne_true
  | sectionBlock => exact absurd hinline Bool.false_ne_true
  | paragraph value => exact absurd hinline Bool.false_ne_true

namespace WellFormed

/-- The root is the only object of its kind. -/
theorem eq_rootSlot (h : d.WellFormed) (hkind : d.kind? slot = some .document) :
    slot = rootSlot := by
  obtain ⟨value, hobject, hvalue⟩ := kind?_eq_some_iff.1 hkind
  refine Classical.byContradiction fun hslot => ?_
  obtain ⟨owner, above, -, -, -, hholds⟩ := h.owned slot value hslot hobject
  rw [hvalue] at hholds
  revert hholds
  cases above.kind <;> decide

/-- Sections stand in the root. -/
theorem parent?_of_section (h : d.WellFormed) (hkind : d.kind? slot = some .sectionBlock) :
    d.parent? slot = some rootSlot := by
  obtain ⟨owner, outer, howner, -, houter, hholds⟩ := h.exists_owner hkind (by decide)
  have hdocument : outer = .document := by
    revert hholds
    cases outer <;> decide
  rw [hdocument] at houter
  rw [howner, h.eq_rootSlot houter]

theorem mem_sections (h : d.WellFormed) (hkind : d.kind? slot = some .sectionBlock) :
    ⟨slot⟩ ∈ d.sections := by
  have hchild := h.mem_children (h.parent?_of_section hkind) (kind?_of_object? h.root) hkind
  exact List.mem_map.2 ⟨slot, List.mem_filter.2 ⟨hchild, beq_iff_eq.2 hkind⟩, rfl⟩

theorem section_mem_shownSlots (h : d.WellFormed) (hkind : d.kind? slot = some .sectionBlock) :
    slot ∈ d.shownSlots :=
  List.mem_flatMap.2 ⟨⟨slot⟩, h.mem_sections hkind, List.mem_cons_self⟩

/-- A paragraph is shown with all its content. -/
theorem paragraphSlotsAt_subset_shownSlots (h : d.WellFormed)
    (hkind : d.kind? slot = some .paragraph) : d.paragraphSlotsAt slot ⊆ d.shownSlots := by
  obtain ⟨owner, howner, hsection⟩ := h.section_of_paragraph hkind
  intro other hother
  refine List.mem_flatMap.2 ⟨⟨owner⟩, h.mem_sections hsection, List.mem_cons_of_mem _ ?_⟩
  exact List.mem_flatMap.2 ⟨slot, h.mem_children howner hsection hkind, hother⟩

/-- An inline object is read with the content of its parent, which holds inline content. -/
theorem inlineSlotsAt_subset_inlineSlots (h : d.WellFormed) {value : DocumentObject}
    (hobject : d.object? slot = some value) (hinline : value.kind.isInline) :
    ∃ owner outer, d.parent? slot = some owner ∧ owner < slot ∧ d.kind? owner = some outer ∧
      outer.mayHold .text ∧ d.inlineSlotsAt slot ⊆ d.inlineSlots owner := by
  have hkind := kind?_of_object? hobject
  have hne : value.kind ≠ .document := by
    intro heq
    rw [heq] at hinline
    exact absurd hinline Bool.false_ne_true
  obtain ⟨owner, outer, howner, hlt, houter, hholds⟩ := h.exists_owner hkind hne
  refine ⟨owner, outer, howner, hlt, houter, ?_, ?_⟩
  · revert hholds hinline
    cases outer <;> cases value.kind <;> decide
  · intro other hother
    rw [inlineSlots_eq_flatMap]
    exact List.mem_flatMap.2 ⟨slot, h.mem_children howner houter hkind, hother⟩

/-- What holds inline content is shown with all that is inside it. -/
theorem inlineSlots_subset_shownSlots (h : d.WellFormed) {kind : ObjectKind}
    (hkind : d.kind? slot = some kind) (hholds : kind.mayHold .text) :
    slot ∈ d.shownSlots ∧ d.inlineSlots slot ⊆ d.shownSlots := by
  -- A run or a link is reached from its parent, which stands in an earlier slot.
  induction slot using Nat.strongRecOn generalizing kind with
  | ind slot ih =>
    obtain ⟨value, hobject, rfl⟩ := kind?_eq_some_iff.1 hkind
    by_cases hinline : value.kind.isInline
    · obtain ⟨owner, outer, -, hlt, houter, hholds', hinside⟩ :=
        h.inlineSlotsAt_subset_inlineSlots hobject hinline
      have hshown := List.Subset.trans hinside (ih owner hlt houter hholds').2
      have hcontent := inlineSlots_subset_inlineSlotsAt hobject hinline hholds
      exact ⟨hshown (mem_inlineSlotsAt hobject hinline), List.Subset.trans hcontent hshown⟩
    · have hparagraph : value.kind = .paragraph := by
        revert hholds hinline
        cases value.kind <;> decide
      rw [hparagraph] at hkind
      have hshown := h.paragraphSlotsAt_subset_shownSlots hkind
      have hread : d.paragraphSlotsAt slot = slot :: d.inlineSlots slot := by
        cases value with
        | paragraph value => simp only [paragraphSlotsAt, hobject]
        | _ => exact absurd hparagraph nofun
      rw [hread, List.cons_subset] at hshown
      exact hshown

theorem inline_mem_shownSlots (h : d.WellFormed) {value : DocumentObject}
    (hobject : d.object? slot = some value) (hinline : value.kind.isInline) :
    slot ∈ d.shownSlots := by
  obtain ⟨owner, outer, -, -, houter, hholds, hinside⟩ :=
    h.inlineSlotsAt_subset_inlineSlots hobject hinline
  have hshown := (h.inlineSlots_subset_shownSlots houter hholds).2
  exact hshown (hinside (mem_inlineSlotsAt hobject hinline))

/-- **Every object but the root is shown.** -/
theorem mem_shownSlots (h : d.WellFormed) (hroot : slot ≠ rootSlot) (hslot : slot < d.size) :
    slot ∈ d.shownSlots := by
  obtain ⟨value, hobject⟩ := object?_of_lt_size hslot
  have hkind := kind?_of_object? hobject
  cases value with
  | document => exact absurd (h.eq_rootSlot hkind) hroot
  | sectionBlock => exact h.section_mem_shownSlots hkind
  | paragraph value => exact (h.inlineSlots_subset_shownSlots hkind rfl).1
  | run value => exact h.inline_mem_shownSlots hobject rfl
  | hyperlink value => exact h.inline_mem_shownSlots hobject rfl
  | lineBreak => exact h.inline_mem_shownSlots hobject rfl
  | text text => exact h.inline_mem_shownSlots hobject rfl

end WellFormed

end Document

end Galley
