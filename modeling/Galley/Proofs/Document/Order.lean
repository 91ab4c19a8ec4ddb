import Mathlib.Data.List.Basic
import Galley.Proofs.Document.Owners

/-!
  The order in which a section shows its objects.

  `sectionSlots` lists the slots that the content of a section is read from, as a view of the
  document does (`sectionSlots_sublist_shownSlots`), and `ShowsBefore` is the order of this list. A
  section shows what stands in it, in the paragraph around it (`WellFormed.mem_sectionSlots`,
  `paragraphAt?_of_mem_paragraphSlotsAt`), and its paragraphs in the
  order of their slots. So of two objects in different paragraphs the one whose paragraph was made
  first is shown first (`WellFormed.showsBefore_iff`).
-/

namespace Galley.Document

/-- The slots that the content of a section is read from, in order. -/
def sectionSlots (d : Document) (id : SectionId) : List Nat :=
  (d.children id.slot).flatMap d.paragraphSlotsAt

/-- The section shows the object in the first slot before that in the second. -/
def ShowsBefore (d : Document) (id : SectionId) (first second : Nat) : Prop :=
  [first, second].Sublist (d.sectionSlots id)

variable {d : Document} {id : SectionId} {slot other paragraph : Nat}

/-- The order in which a section shows its objects is that of a view. -/
theorem sectionSlots_sublist_shownSlots (hid : id ∈ d.sections) :
    (d.sectionSlots id).Sublist d.shownSlots := by
  obtain ⟨before, after, hsplit⟩ := List.append_of_mem hid
  rw [shownSlots, hsplit, List.flatMap_append, List.flatMap_cons, List.cons_append]
  exact ((List.sublist_append_left _ _).trans (List.sublist_cons_self _ _)).trans
    (List.sublist_append_right _ _)

/-! ## What a section shows -/

theorem mem_inlineSlotsAt_cases (h : other ∈ d.inlineSlotsAt slot) :
    ∃ kind, d.kind? slot = some kind ∧ kind.isInline ∧
      (other = slot ∨ other ∈ d.inlineSlots slot) := by
  unfold inlineSlotsAt at h
  cases hobject : d.object? slot with
  | none =>
    rw [hobject] at h
    exact absurd h List.not_mem_nil
  | some value =>
    rw [hobject] at h
    refine ⟨value.kind, kind?_of_object? hobject, ?_⟩
    cases value with
    | text value => exact ⟨rfl, .inl (List.mem_singleton.1 h)⟩
    | lineBreak => exact ⟨rfl, .inl (List.mem_singleton.1 h)⟩
    | run value => exact ⟨rfl, List.mem_cons.1 h⟩
    | hyperlink value => exact ⟨rfl, List.mem_cons.1 h⟩
    | _ => exact absurd h List.not_mem_nil

/-- What is read with a container stands in its paragraph. -/
theorem paragraphAt?_of_mem_inlineSlots (h : other ∈ d.inlineSlots slot) :
    d.paragraphAt? other = d.paragraphAt? slot := by
  induction hn : d.size - slot using Nat.strongRecOn generalizing slot with
  | ind n ih =>
    subst hn
    rw [inlineSlots_eq_flatMap] at h
    obtain ⟨child, hchild, hother⟩ := List.mem_flatMap.1 h
    have hlt := lt_of_mem_children hchild
    obtain ⟨kind, hkind, hinline, hcase⟩ := mem_inlineSlotsAt_cases hother
    have hsame := paragraphAt?_of_inline hkind hinline (parent?_of_mem_children hchild) hlt.1
    rcases hcase with rfl | hinside
    · exact hsame
    · exact (ih _ (by omega) hinside rfl).trans hsame

theorem paragraphAt?_of_mem_paragraphSlotsAt (h : other ∈ d.paragraphSlotsAt slot) :
    d.paragraphAt? other = some slot := by
  unfold paragraphSlotsAt at h
  split at h
  · next value hobject =>
    have hslot := paragraphAt?_of_paragraph (kind?_of_object? hobject)
    rcases List.mem_cons.1 h with rfl | hinside
    · exact hslot
    · exact (paragraphAt?_of_mem_inlineSlots hinside).trans hslot
  · exact absurd h List.not_mem_nil

theorem mem_paragraphSlotsAt_self (h : d.kind? slot = some .paragraph) :
    slot ∈ d.paragraphSlotsAt slot ∧ d.inlineSlots slot ⊆ d.paragraphSlotsAt slot := by
  obtain ⟨value, hobject⟩ := object?_of_kind?_paragraph h
  unfold paragraphSlotsAt
  rw [hobject]
  exact ⟨List.mem_cons_self, List.subset_cons_self _ _⟩

namespace WellFormed

/-- What stands in a section is read with the paragraph around it, and so is what it holds. -/
theorem mem_paragraphSlotsAt (h : d.WellFormed) {owner : Nat} (hstands : d.StandsIn owner slot)
    (hat : d.paragraphAt? slot = some paragraph) :
    slot ∈ d.paragraphSlotsAt paragraph ∧
      ∀ kind, d.kind? slot = some kind → kind.mayHold .text →
        d.inlineSlots slot ⊆ d.paragraphSlotsAt paragraph := by
  induction hstands with
  | @block slot hkind _ =>
    obtain rfl := Option.some.inj ((paragraphAt?_of_paragraph hkind).symm.trans hat)
    have hself := mem_paragraphSlotsAt_self hkind
    exact ⟨hself.1, fun _ _ _ => hself.2⟩
  | @inside slot parent kind hkind hinline hparent hlt _ ih =>
    rw [paragraphAt?_of_inline hkind hinline hparent hlt] at hat
    obtain ⟨value, hobject, rfl⟩ := kind?_eq_some_iff.1 hkind
    obtain ⟨owner', outer, howner, -, houter, hholds, hread⟩ :=
      h.inlineSlotsAt_subset_inlineSlots hobject hinline
    obtain rfl := Option.some.inj (hparent.symm.trans howner)
    have hinside : d.inlineSlotsAt slot ⊆ d.paragraphSlotsAt paragraph :=
      List.Subset.trans hread ((ih hat).2 outer houter hholds)
    refine ⟨hinside (mem_inlineSlotsAt hobject hinline), fun kind hsame hmay => ?_⟩
    obtain rfl := Option.some.inj (hkind.symm.trans hsame)
    exact List.Subset.trans (inlineSlots_subset_inlineSlotsAt hobject hinline hmay) hinside

/-- A section shows all that stands in it. -/
theorem mem_sectionSlots (h : d.WellFormed) (hstands : d.StandsIn id.slot slot) :
    slot ∈ d.sectionSlots id := by
  obtain ⟨paragraph, hat, hkind, hparent⟩ := hstands.exists_paragraph
  obtain ⟨owner, howner, hsection⟩ := h.section_of_paragraph hkind
  obtain rfl := Option.some.inj (hparent.symm.trans howner)
  exact List.mem_flatMap.2
    ⟨paragraph, h.mem_children hparent hsection hkind, (h.mem_paragraphSlotsAt hstands hat).1⟩

end WellFormed

/-! ## In which order -/

theorem pairwise_children (d : Document) (slot : Nat) : (d.children slot).Pairwise (· < ·) :=
  (List.pairwise_lt_range' 1).filter _

/-- Along what a section shows, the paragraphs come in the order of their slots. -/
theorem pairwise_sectionSlots (d : Document) (id : SectionId) :
    (d.sectionSlots id).Pairwise fun first second => ∀ paragraph later,
      d.paragraphAt? first = some paragraph → d.paragraphAt? second = some later →
        paragraph ≤ later := by
  have hread {block first paragraph : Nat} (hfirst : first ∈ d.paragraphSlotsAt block)
      (hparagraph : d.paragraphAt? first = some paragraph) : paragraph = block :=
    Option.some.inj (hparagraph.symm.trans (paragraphAt?_of_mem_paragraphSlotsAt hfirst))
  rw [sectionSlots, List.pairwise_flatMap]
  constructor
  · intro block _
    refine List.pairwise_of_forall_mem_list fun first hfirst second hsecond => ?_
    intro paragraph later hparagraph hlater
    exact Nat.le_of_eq ((hread hfirst hparagraph).trans (hread hsecond hlater).symm)
  · refine (pairwise_children d id.slot).imp fun hlt first hfirst second hsecond => ?_
    intro paragraph later hparagraph hlater
    rw [hread hfirst hparagraph, hread hsecond hlater]
    exact Nat.le_of_lt hlt

/-- Of two members of a list one comes before the other. -/
theorem pair_sublist_or {first second : Nat} {slots : List Nat} (hfirst : first ∈ slots)
    (hsecond : second ∈ slots) (hne : first ≠ second) :
    [first, second].Sublist slots ∨ [second, first].Sublist slots := by
  obtain ⟨before, after, rfl⟩ := List.append_of_mem hfirst
  rcases List.mem_append.1 hsecond with hbefore | hafter
  · exact .inr ((List.singleton_sublist.2 hbefore).append
      (List.singleton_sublist.2 List.mem_cons_self))
  · have hlater := List.singleton_sublist.2 ((List.mem_cons.1 hafter).resolve_left hne.symm)
    exact .inl ((hlater.cons_cons first).trans (List.sublist_append_right _ _))

/-- **Of two objects in different paragraphs of a section, the one in the paragraph that was made
    first is shown first.** -/
theorem WellFormed.showsBefore_iff (h : d.WellFormed) {first second later : Nat}
    (hfirst : d.StandsIn id.slot first) (hsecond : d.StandsIn id.slot second)
    (hparagraph : d.paragraphAt? first = some paragraph)
    (hlater : d.paragraphAt? second = some later) (hne : paragraph ≠ later) :
    d.ShowsBefore id first second ↔ paragraph < later := by
  have hordered {first second paragraph later : Nat} (hbefore : d.ShowsBefore id first second)
      (hparagraph : d.paragraphAt? first = some paragraph)
      (hlater : d.paragraphAt? second = some later) : paragraph ≤ later :=
    List.pairwise_iff_forall_sublist.1 (pairwise_sectionSlots d id) hbefore paragraph later
      hparagraph hlater
  constructor
  · intro hbefore
    exact Nat.lt_of_le_of_ne (hordered hbefore hparagraph hlater) hne
  · intro hlt
    have hslots : first ≠ second := by
      rintro rfl
      exact hne (Option.some.inj (hparagraph.symm.trans hlater))
    rcases pair_sublist_or (h.mem_sectionSlots hfirst) (h.mem_sectionSlots hsecond) hslots with
      hbefore | hafter
    · exact hbefore
    · exact absurd (hordered hafter hlater hparagraph) (Nat.not_le.2 hlt)

end Galley.Document
