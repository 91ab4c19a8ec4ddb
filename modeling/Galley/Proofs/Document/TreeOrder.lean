import Mathlib.Data.List.Nodup
import Galley.Proofs.Document.Owners

/-!
  Tree order, and that a view shows the whole tree in it.

  `descendants` lists what is below an object, each object before what it holds, whatever the kinds
  are. An object is below another exactly if that is one of its owners (`mem_descendants_iff`), so
  no object is listed twice (`nodup_descendants`). The readers of a document leave out what is not
  of the kind they look for; in a well-formed document there is nothing to leave out, and they read
  the tree as it is (`WellFormed.inlineSlots_eq_descendants`, by induction from the inside out, and
  `WellFormed.shownSlots_eq_descendants`). The main result is `view_complete`.
-/

namespace Galley

/-- What an object adds to a plain text: a text itself, a break a line feed. -/
def DocumentObject.plainText : DocumentObject → String
  | .text value => value
  | .lineBreak => "\n"
  | _ => ""

mutual

theorem InlineView.plainText_eq (view : InlineView) :
    view.plainText = String.join (view.objects.map DocumentObject.plainText) :=
  match view with
  | .text value => by
    unfold InlineView.plainText InlineView.objects
    simp [DocumentObject.plainText]
  | .lineBreak => rfl
  | .run value content => by
    unfold InlineView.plainText InlineView.objects
    simp [DocumentObject.plainText, InlineView.plainTexts_eq content]
  | .hyperlink value content => by
    unfold InlineView.plainText InlineView.objects
    simp [DocumentObject.plainText, InlineView.plainTexts_eq content]

/-- A plain text is that of the objects shown, one after the other. -/
theorem InlineView.plainTexts_eq (content : List InlineView) :
    InlineView.plainTexts content =
      String.join ((InlineView.objectsAll content).map DocumentObject.plainText) :=
  match content with
  | [] => rfl
  | view :: rest => by
    unfold InlineView.plainTexts InlineView.objectsAll
    rw [InlineView.plainText_eq view, InlineView.plainTexts_eq rest, List.map_append,
      String.join_append]

end

namespace Document

variable {d : Document} {slot above other : Nat}

/-- What is below an object, each object before what it holds. -/
def descendants (d : Document) (slot : Nat) : List Nat :=
  (d.children slot).attach.flatMap fun ⟨child, _⟩ => child :: d.descendants child
termination_by d.size - slot
decreasing_by
  have := lt_of_mem_children ‹child ∈ d.children slot›
  omega

theorem descendants_eq_flatMap (d : Document) (slot : Nat) :
    d.descendants slot = (d.children slot).flatMap fun child => child :: d.descendants child := by
  rw [descendants]
  conv_rhs => rw [← List.attach_map_subtype_val (d.children slot), List.flatMap_map]

/-! ## Owners and descendants -/

theorem ancestors_of_mem_children {child : Nat} (h : child ∈ d.children slot) :
    d.ancestors child = slot :: d.ancestors slot :=
  ancestors_of_parent? (parent?_of_mem_children h) (lt_of_mem_children h).1

theorem mem_ancestors_cases (h : above ∈ d.ancestors slot) :
    ∃ owner < slot, d.parent? slot = some owner ∧ (above = owner ∨ above ∈ d.ancestors owner) := by
  unfold ancestors at h
  split at h
  · next owner howner =>
    split at h
    · next hlt => exact ⟨owner, hlt, howner, List.mem_cons.1 h⟩
    · exact absurd h List.not_mem_nil
  · exact absurd h List.not_mem_nil

/-- The owners of an owner are owners as well: the last ones. -/
theorem suffix_ancestors (h : above ∈ d.ancestors slot) :
    above :: d.ancestors above <:+ d.ancestors slot := by
  induction slot using Nat.strongRecOn with
  | ind slot ih =>
    obtain ⟨owner, hlt, howner, rfl | habove⟩ := mem_ancestors_cases h
    · exact ⟨[], (ancestors_of_parent? howner hlt).symm⟩
    · rw [ancestors_of_parent? howner hlt]
      exact (ih owner hlt habove).trans (List.suffix_cons _ _)

/-- An owner owns through one of its children. -/
theorem exists_child_of_mem_ancestors (h : above ∈ d.ancestors slot) :
    ∃ child ∈ d.children above, slot = child ∨ child ∈ d.ancestors slot := by
  induction slot using Nat.strongRecOn with
  | ind slot ih =>
    obtain ⟨owner, hlt, howner, rfl | habove⟩ := mem_ancestors_cases h
    · have hsize := lt_size_of_parent? howner
      refine ⟨slot, List.mem_filter.2 ⟨?_, beq_iff_eq.2 howner⟩, .inl rfl⟩
      rw [List.mem_range'_1]
      omega
    · obtain ⟨child, hchild, hcase⟩ := ih owner hlt habove
      refine ⟨child, hchild, .inr ?_⟩
      rw [ancestors_of_parent? howner hlt]
      exact List.mem_cons.2 (hcase.imp Eq.symm id)

/-- **An object is below another exactly if that is one of its owners.** -/
theorem mem_descendants_iff : slot ∈ d.descendants above ↔ above ∈ d.ancestors slot := by
  induction above using d.children_induction with
  | step above ih =>
    rw [descendants_eq_flatMap, List.mem_flatMap]
    constructor
    · rintro ⟨child, hchild, hslot⟩
      have howners := ancestors_of_mem_children hchild
      rcases List.mem_cons.1 hslot with rfl | hslot
      · rw [howners]
        exact List.mem_cons_self
      · have hbelow := suffix_ancestors ((ih child hchild).1 hslot)
        refine hbelow.subset (List.mem_cons_of_mem _ ?_)
        rw [howners]
        exact List.mem_cons_self
    · intro h
      obtain ⟨child, hchild, hcase⟩ := exists_child_of_mem_ancestors h
      exact ⟨child, hchild, List.mem_cons.2 (hcase.imp id (ih child hchild).2)⟩

theorem lt_of_mem_descendants (h : slot ∈ d.descendants above) : above < slot ∧ slot < d.size := by
  induction above using d.children_induction with
  | step above ih =>
    rw [descendants_eq_flatMap] at h
    obtain ⟨child, hchild, hslot⟩ := List.mem_flatMap.1 h
    have hlt := lt_of_mem_children hchild
    rcases List.mem_cons.1 hslot with rfl | hslot
    · exact hlt
    · have hbelow := ih child hchild hslot
      omega

/-- Two children of one object have nothing below them in common. -/
theorem disjoint_of_children {child : Nat} (hchild : child ∈ d.children slot)
    (hother : other ∈ d.children slot) (hne : child ≠ other) :
    List.Disjoint (child :: d.descendants child) (other :: d.descendants other) := by
  have hchain {top inner : Nat} (h : inner ∈ top :: d.descendants top) :
      top :: d.ancestors top <:+ inner :: d.ancestors inner := by
    rcases List.mem_cons.1 h with rfl | h
    · exact List.suffix_rfl
    · exact (suffix_ancestors (mem_descendants_iff.1 h)).trans (List.suffix_cons _ _)
  -- The owners of both end the same chain and are as many, so that the chains are one.
  intro inner hleft hright
  have hlength : (child :: d.ancestors child).length = (other :: d.ancestors other).length := by
    simp [ancestors_of_mem_children hchild, ancestors_of_mem_children hother]
  have hsame := (List.suffix_of_suffix_length_le (hchain hleft) (hchain hright)
    (Nat.le_of_eq hlength)).eq_of_length hlength
  exact hne (List.cons.inj hsame).1

theorem nodup_descendants (d : Document) (slot : Nat) : (d.descendants slot).Nodup := by
  induction slot using d.children_induction with
  | step slot ih =>
    rw [descendants_eq_flatMap, List.nodup_flatMap]
    constructor
    · intro child hchild
      refine List.nodup_cons.2 ⟨fun hself => ?_, ih child hchild⟩
      exact absurd (lt_of_mem_descendants hself).1 (Nat.lt_irrefl _)
    · refine (nodup_children d slot).pairwise_of_forall_ne ?_
      intro child hchild other hother hne
      exact disjoint_of_children hchild hother hne

/-! ## Nothing is left out -/

namespace WellFormed

/-- The content of a container is all that is below it. -/
theorem inlineSlots_eq_descendants (h : d.WellFormed) {kind : ObjectKind}
    (hkind : d.kind? slot = some kind)
    (hholds : kind = .paragraph ∨ kind = .run ∨ kind = .hyperlink) :
    d.inlineSlots slot = d.descendants slot := by
  induction slot using d.children_induction generalizing kind with
  | step slot ih =>
    rw [inlineSlots_eq_flatMap, descendants_eq_flatMap]
    refine List.flatMap_congr fun child hchild => ?_
    obtain ⟨inner, hinner, hinline⟩ := h.treeShape.inlines slot kind hkind hholds child hchild
    obtain ⟨value, hobject, rfl⟩ := kind?_eq_some_iff.1 hinner
    have hinside := ih child hchild hinner
    unfold inlineSlotsAt
    rw [hobject]
    have hleaf (hkind : value.kind = .text ∨ value.kind = .lineBreak) :
        d.descendants child = [] := by
      rw [descendants_eq_flatMap, h.treeShape.leaves child (by rwa [hinner, Option.some.injEq,
        Option.some.injEq]), List.flatMap_nil]
    cases value with
    | text value => rw [hleaf (.inl rfl)]
    | lineBreak => rw [hleaf (.inr rfl)]
    | run value => rw [hinside (.inr (.inl rfl))]
    | hyperlink value => rw [hinside (.inr (.inr rfl))]
    | document => exact absurd hinline Bool.false_ne_true
    | sectionBlock => exact absurd hinline Bool.false_ne_true
    | paragraph value => exact absurd hinline Bool.false_ne_true

theorem paragraphSlotsAt_eq_descendants (h : d.WellFormed)
    (hkind : d.kind? slot = some .paragraph) :
    d.paragraphSlotsAt slot = slot :: d.descendants slot := by
  obtain ⟨value, hobject⟩ := object?_of_kind?_paragraph hkind
  unfold paragraphSlotsAt
  rw [hobject]
  dsimp only
  rw [h.inlineSlots_eq_descendants hkind (.inl rfl)]

/-- **A view is read from the tree as it is.** -/
theorem shownSlots_eq_descendants (h : d.WellFormed) :
    d.shownSlots = d.descendants rootSlot := by
  have hsections : (d.children rootSlot).filter
      (fun slot => d.kind? slot == some .sectionBlock) = d.children rootSlot := by
    refine List.filter_eq_self.2 fun slot hslot => ?_
    rw [h.treeShape.sections slot hslot, beq_self_eq_true]
  rw [shownSlots, sections, hsections, List.flatMap_map, descendants_eq_flatMap]
  refine List.flatMap_congr fun slot hslot => ?_
  have hsection := h.treeShape.sections slot hslot
  rw [descendants_eq_flatMap d slot]
  refine congrArg _ (List.flatMap_congr fun child hchild => ?_)
  exact h.paragraphSlotsAt_eq_descendants (h.treeShape.paragraphs slot hsection child hchild)

/-- Every slot but the root's is read once. -/
theorem perm_shownSlots (h : d.WellFormed) :
    d.shownSlots.Perm (List.range' 1 (d.size - 1)) := by
  have hnodup : d.shownSlots.Nodup := by
    rw [h.shownSlots_eq_descendants]
    exact nodup_descendants d rootSlot
  refine (List.perm_ext_iff_of_nodup hnodup (List.nodup_range' ..)).2 fun slot => ?_
  rw [List.mem_range'_1]
  constructor
  · intro hslot
    rw [h.shownSlots_eq_descendants] at hslot
    have hlt := lt_of_mem_descendants hslot
    unfold rootSlot at hlt
    omega
  · intro hslot
    refine h.mem_shownSlots ?_ (by omega)
    unfold rootSlot
    omega

/-- The view holds every object but the root once. -/
theorem perm_objects_view (h : d.WellFormed) : (d.view.flatMap SectionView.objects).Perm
    ((List.range' 1 (d.size - 1)).filterMap d.object?) := by
  rw [objects_view]
  exact h.perm_shownSlots.filterMap _

theorem length_objects_view (h : d.WellFormed) :
    (d.view.flatMap SectionView.objects).length + 1 = d.size := by
  have hall : ((List.range' 1 (d.size - 1)).filterMap d.object?).length = d.size - 1 := by
    rw [List.length_filterMap_eq_countP, List.countP_eq_length.2, List.length_range']
    intro slot hslot
    rw [List.mem_range'_1] at hslot
    have hlt : slot < d.size := by omega
    obtain ⟨value, hobject⟩ := object?_of_lt_size hlt
    rw [hobject]
    rfl
  have hpos := h.size_pos
  rw [h.perm_objects_view.length_eq, hall]
  omega

end WellFormed

/-! ## The ways to read a document agree -/

theorem paragraphView_of_object? {value : Paragraph}
    (h : d.object? slot = some (.paragraph value)) :
    d.paragraphView ⟨slot⟩ = .ok ⟨value, d.inlineViews slot⟩ := by
  have hread : d.paragraph ⟨slot⟩ = .ok value := paragraph_eq_ok.2 h
  rw [paragraphView_eq, hread]
  rfl

/-- The paragraphs among some slots, seen one by one and as a section's view sees them. -/
theorem map_paragraphView (d : Document) (slots : List Nat) :
    ((slots.filter fun slot => d.kind? slot == some .paragraph).map Handle.mk).map d.paragraphView =
      (slots.filterMap d.paragraphViewAt?).map Except.ok := by
  induction slots with
  | nil => rfl
  | cons slot slots ih =>
    by_cases hkind : d.kind? slot = some .paragraph
    · obtain ⟨value, hobject⟩ := object?_of_kind?_paragraph hkind
      have hview : d.paragraphViewAt? slot = some ⟨value, d.inlineViews slot⟩ := by
        unfold paragraphViewAt?
        rw [hobject]
      have hpos : (d.kind? slot == some .paragraph) = true := beq_iff_eq.2 hkind
      rw [List.filter_cons, if_pos hpos, List.filterMap_cons_some hview, List.map_cons,
        List.map_cons, List.map_cons, ih, paragraphView_of_object? hobject]
    · have hview : d.paragraphViewAt? slot = none := by
        unfold paragraphViewAt?
        split
        · next value hobject => exact absurd (kind?_of_object? hobject) hkind
        · rfl
      have hneg : ¬ (d.kind? slot == some .paragraph) = true := by rwa [beq_iff_eq]
      rw [List.filter_cons, if_neg hneg, List.filterMap_cons_none hview, ih]

/-- An entry of a view is the section that stands there, with its paragraphs. -/
theorem exists_view_getElem? {index : Nat} {id : SectionId} (h : d.sections[index]? = some id) :
    ∃ view paragraphs, d.view[index]? = some view ∧ d.paragraphs id = .ok paragraphs ∧
      paragraphs.map d.paragraphView = view.paragraphs.map Except.ok := by
  have hsection := object?_of_kind?_section (kind?_of_mem_sections (List.mem_of_getElem? h))
  refine ⟨_, _, ?_, paragraphs_eq_ok.2 ⟨hsection, rfl⟩, map_paragraphView d (d.children id.slot)⟩
  rw [view, List.getElem?_map, h, Option.map_some]

/-- A plain text is read from what is below the paragraph, in tree order. -/
theorem WellFormed.plainText_paragraphView (h : d.WellFormed) {id : ParagraphId}
    (hkind : d.kind? id.slot = some .paragraph) :
    ∃ view, d.paragraphView id = .ok view ∧ view.plainText = String.join
      (((d.descendants id.slot).filterMap d.object?).map DocumentObject.plainText) := by
  obtain ⟨value, hobject⟩ := object?_of_kind?_paragraph hkind
  refine ⟨_, paragraphView_of_object? hobject, ?_⟩
  rw [ParagraphView.plainText, InlineView.plainTexts_eq, InlineView.objectsAll_eq_flatMap,
    objects_inlineViews, h.inlineSlots_eq_descendants hkind (.inl rfl)]

/-- **A view is complete, and all ways to read a document agree with it.**

    It has an entry for each section, in order, and the paragraphs of an entry are those that the
    section lists, each as it is seen alone. It is read from all slots but the root's, from each
    once and in tree order, and so holds as many sections, paragraphs and inline objects as there
    are objects but the root. The plain text of a paragraph is that of the objects below it in tree
    order: of each text the text, of each line break a line feed, of all others nothing. -/
theorem view_complete {d : Document} (hd : d.Reachable) :
    d.view.length = d.sections.length ∧
    (∀ (index : Nat) id, d.sections[index]? = some id →
      ∃ view paragraphs, d.view[index]? = some view ∧ d.paragraphs id = .ok paragraphs ∧
        paragraphs.map d.paragraphView = view.paragraphs.map Except.ok) ∧
    d.view.flatMap SectionView.objects = (d.descendants rootSlot).filterMap d.object? ∧
    (d.descendants rootSlot).Perm (List.range' 1 (d.size - 1)) ∧
    (d.view.flatMap SectionView.objects).length + 1 = d.size ∧
    ∀ id : ParagraphId, d.kind? id.slot = some .paragraph →
      ∃ view, d.paragraphView id = .ok view ∧ view.plainText = String.join
        (((d.descendants id.slot).filterMap d.object?).map DocumentObject.plainText) := by
  have h := hd.wellFormed
  have htree := h.shownSlots_eq_descendants
  refine ⟨?_, fun index id => exists_view_getElem?, ?_, ?_, h.length_objects_view,
    fun id => h.plainText_paragraphView⟩
  · rw [view, List.length_map]
  · rw [objects_view, htree]
  · rw [← htree]
    exact h.perm_shownSlots

/-- A link in a run, made after a second paragraph: the slots stand in another order than the
    tree. -/
theorem view_complete_nested :
    let d : Document := (((((Document.empty.push 0 .sectionBlock).push 1 (.paragraph {})).push 2
      (.run { bold := some true })).push 1 (.paragraph {})).push 3
        (.hyperlink ⟨"x", .web⟩)).push 5 (.text "a") |>.push 2 .lineBreak |>.push 4 (.text "b")
    d.Reachable ∧ d.sections[0]? = some ⟨1⟩ ∧ d.descendants rootSlot = [1, 2, 3, 5, 6, 7, 4, 8] ∧
      (d.view.flatMap SectionView.objects).length = 8 ∧
      d.kind? 2 = some .paragraph ∧
      ∃ view, d.paragraphView ⟨2⟩ = .ok view ∧ view.plainText = "a\n" := by
  intro d
  have hreachable : d.Reachable :=
    .perform (.addText (.paragraph ⟨4⟩) "b")
      (.perform (.addLineBreak (.paragraph ⟨2⟩))
        (.perform (.addText (.hyperlink ⟨5⟩) "a")
          (.perform (.addHyperlink (.run ⟨3⟩) ⟨"x", .web⟩)
            (.perform (.addParagraph ⟨1⟩)
              (.perform (.addRun (.paragraph ⟨2⟩) .bold)
                (.perform (.addParagraph ⟨1⟩) (.perform .addSection .empty rfl) rfl) rfl) rfl) rfl)
          rfl) rfl) rfl
  obtain ⟨-, -, -, -, hcount, hplain⟩ := view_complete hreachable
  obtain ⟨view, hview, htext⟩ := hplain ⟨2⟩ rfl
  have hroot : d.descendants rootSlot = [1, 2, 3, 5, 6, 7, 4, 8] := by
    decide +kernel
  have hbelow : d.descendants 2 = [3, 5, 6, 7] := by
    decide +kernel
  rw [hbelow] at htext
  exact ⟨hreachable, rfl, hroot, Nat.succ.inj hcount, rfl, view, hview, htext⟩

end Document

end Galley
