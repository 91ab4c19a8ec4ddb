import Galley.Proofs.Document.OutlineReading
import Galley.Proofs.Document.TreeOrder

/-!
  An outline object by object.

  The text that an outline has for an object is that of `lineAt?`: indented by two spaces for each
  owner but the root, and beginning with the keyword of the object's kind. An outline is made of
  these texts in tree order, each with a line feed at its end (`hasLines_outlineLines`). They are
  lines where no line feed stands inside one. An outline that breaks nowhere else is one line for
  each object (`OneLineEach`), and by counting line feeds that is so exactly where no style has a
  line feed in it (`oneLineEach_iff`).
-/

namespace Galley

/-- The word that begins the lines of a kind of object. -/
def ObjectKind.outlineKeyword : ObjectKind → String
  | .document => ""
  | .sectionBlock => "section"
  | .paragraph => "paragraph"
  | .run => "formatted"
  | .hyperlink => "hyperlink"
  | .lineBreak => "line-break"
  | .text => "text"

theorem DocumentObject.exists_outlineText_eq (object : DocumentObject) :
    ∃ rest, object.outlineText = object.kind.outlineKeyword ++ rest := by
  cases object with
  | document => exact ⟨"", rfl⟩
  | sectionBlock => exact ⟨"", rfl⟩
  | lineBreak => exact ⟨"", rfl⟩
  | paragraph value =>
    refine ⟨stylePart value.style ++ (alignmentPart value.alignment ++ listPart value.listInfo), ?_⟩
    rw [← String.append_assoc, ← String.append_assoc]
    rfl
  | run value =>
    refine ⟨flagPart "bold" value.bold ++ (flagPart "italic" value.italic ++
      (flagPart "underline" value.underline ++ stylePart value.style)), ?_⟩
    rw [← String.append_assoc, ← String.append_assoc, ← String.append_assoc]
    rfl
  | hyperlink value =>
    refine ⟨" " ++ (value.kind.outlineName ++ (" " ++ Text.quote value.target)), ?_⟩
    rw [← String.append_assoc, ← String.append_assoc, ← String.append_assoc]
    rfl
  | text value =>
    refine ⟨" " ++ Text.quote value, ?_⟩
    rw [← String.append_assoc]
    rfl

/-- A style with a line feed in it breaks the line of its object. -/
theorem DocumentObject.lineFeed_mem_outlineText {object : DocumentObject} {style : String}
    (hstyle : object.style? = some style) (h : '\n' ∈ style.toList) :
    '\n' ∈ object.outlineText.toList := by
  have hpart : '\n' ∈ (stylePart (some style)).toList := by
    simp [stylePart, optionalPart, h]
  cases object with
  | paragraph value =>
    have hvalue : value.style = some style := hstyle
    simp only [outlineText, Paragraph.outlineText, String.toList_append, List.mem_append, hvalue]
    exact .inl (.inl (.inr hpart))
  | run value =>
    have hvalue : value.style = some style := hstyle
    simp only [outlineText, TextRun.outlineText, String.toList_append, List.mem_append, hvalue]
    exact .inr hpart
  | _ => cases hstyle

namespace Document

variable {d : Document} {slot : Nat}

/-! ## The texts of an outline in tree order -/

/-- The number of owners of an object, but for the root. -/
def level (d : Document) (slot : Nat) : Nat := (d.ancestors slot).length - 1

/-- What an outline has for the object in a slot, if there is one. -/
def lineAt? (d : Document) (slot : Nat) : Option String :=
  (d.object? slot).map fun object => outlineLine (d.level slot) object.outlineText

theorem length_ancestors_of_mem_children {child : Nat} (h : child ∈ d.children slot) :
    (d.ancestors child).length = (d.ancestors slot).length + 1 := by
  rw [ancestors_of_mem_children h, List.length_cons]

theorem lineAt?_of_object? {object : DocumentObject} {child : Nat} (h : child ∈ d.children slot)
    (hobject : d.object? child = some object) :
    d.lineAt? child = some (outlineLine (d.ancestors slot).length object.outlineText) := by
  rw [lineAt?, hobject, level, length_ancestors_of_mem_children h]
  rfl

theorem outlineLines_inlineViews (d : Document) (slot : Nat) :
    (d.inlineViews slot).flatMap (InlineView.outlineLines (d.ancestors slot).length) =
      (d.inlineSlots slot).filterMap d.lineAt? := by
  induction slot using d.children_induction with
  | step slot ih =>
    rw [inlineViews_eq_filterMap, inlineSlots_eq_flatMap]
    refine flatMap_filterMap_eq _ _ _ _ _ fun child hchild => ?_
    have hinside := ih child hchild
    rw [length_ancestors_of_mem_children hchild] at hinside
    unfold inlineViewAt? inlineSlotsAt
    cases hobject : d.object? child with
    | none => rfl
    | some object =>
      have hline := lineAt?_of_object? hchild hobject
      cases object <;>
        simp [InlineView.outlineLines_eq, InlineView.object, InlineView.content, hinside, hline]

theorem ancestors_rootSlot (d : Document) : d.ancestors rootSlot = [] := by
  unfold ancestors
  split
  · exact if_neg (Nat.not_lt_zero _)
  · rfl

theorem outlineLines_eq (d : Document) : d.outlineLines = d.shownSlots.filterMap d.lineAt? := by
  rw [outlineLines, view, shownSlots, List.flatMap_map, List.filterMap_flatMap]
  refine List.flatMap_congr fun id hid => ?_
  obtain ⟨slot, hslot, rfl⟩ := List.mem_map.1 hid
  have hroot := (List.mem_filter.1 hslot).1
  have hsection := object?_of_kind?_section (kind?_of_mem_sections hid)
  have hline := lineAt?_of_object? hroot hsection
  have howners : (d.ancestors slot).length = 1 := by
    rw [length_ancestors_of_mem_children hroot, ancestors_rootSlot]
    rfl
  rw [ancestors_rootSlot] at hline
  rw [List.filterMap_cons_some hline, SectionView.outlineLines_eq]
  refine congrArg _ (flatMap_filterMap_eq _ _ _ _ _ fun child hchild => ?_)
  have hinside := outlineLines_inlineViews d child
  rw [length_ancestors_of_mem_children hchild, howners] at hinside
  unfold paragraphViewAt? paragraphSlotsAt
  cases hobject : d.object? child with
  | none => rfl
  | some object =>
    have hline := lineAt?_of_object? hchild hobject
    rw [howners] at hline
    cases object <;> simp [ParagraphView.outlineLines_eq, hinside, hline]

/-! ## One line for each object -/

/-- The outline is made of the given texts, each with a line feed at its end: one for each object
    but the root in tree order, indented by two spaces for each owner of the object but the root and
    beginning with the keyword of its kind. -/
def HasLines (d : Document) (lines : List String) : Prop :=
  d.outline = String.join (lines.map fun line => line ++ "\n") ∧
    List.Forall₂ (fun slot line => ∃ kind rest, d.kind? slot = some kind ∧
      line = outlineLine (d.level slot) (kind.outlineKeyword ++ rest)) (d.descendants rootSlot) lines

/-- The outline has exactly one line for each object but the root. -/
def OneLineEach (d : Document) : Prop :=
  ∃ lines, d.HasLines lines ∧ ∀ line ∈ lines, '\n' ∉ line.toList

theorem forall₂_filterMap {α β : Type} {relation : α → β → Prop} {select : α → Option β}
    {as : List α} (h : ∀ a ∈ as, ∃ b, select a = some b ∧ relation a b) :
    List.Forall₂ relation as (as.filterMap select) := by
  induction as with
  | nil => exact .nil
  | cons a as ih =>
    obtain ⟨b, hb, hrelation⟩ := h a List.mem_cons_self
    rw [List.filterMap_cons_some hb]
    exact .cons hrelation (ih fun other hother => h other (List.mem_cons_of_mem _ hother))

/-- **An outline is made of the texts of all objects in tree order.** -/
theorem WellFormed.hasLines_outlineLines (h : d.WellFormed) : d.HasLines d.outlineLines := by
  refine ⟨rfl, ?_⟩
  rw [d.outlineLines_eq, h.shownSlots_eq_descendants]
  refine forall₂_filterMap fun slot hslot => ?_
  obtain ⟨object, hobject⟩ := object?_of_lt_size (lt_of_mem_descendants hslot).2
  obtain ⟨rest, hrest⟩ := object.exists_outlineText_eq
  refine ⟨outlineLine (d.level slot) object.outlineText, ?_, object.kind, rest,
    kind?_of_object? hobject, ?_⟩
  · rw [lineAt?, hobject]
    rfl
  · rw [hrest]

theorem count_join_cons (line : String) (lines : List String) :
    (String.join ((line :: lines).map fun line => line ++ "\n")).toList.count '\n' =
      line.toList.count '\n' +
        (String.join (lines.map fun line => line ++ "\n")).toList.count '\n' + 1 := by
  have hend : "\n".toList.count '\n' = 1 := rfl
  rw [List.map_cons, String.join_cons, String.toList_append, String.toList_append,
    List.count_append, List.count_append, hend]
  omega

theorem length_le_count_join (lines : List String) :
    lines.length ≤ (String.join (lines.map fun line => line ++ "\n")).toList.count '\n' := by
  induction lines with
  | nil => exact Nat.zero_le _
  | cons line lines ih =>
    rw [count_join_cons, List.length_cons]
    omega

/-- Joined texts have no more line feeds than their own ends exactly if none has one inside it. -/
theorem count_join_eq_length_iff (lines : List String) :
    (String.join (lines.map fun line => line ++ "\n")).toList.count '\n' = lines.length ↔
      ∀ line ∈ lines, '\n' ∉ line.toList := by
  induction lines with
  | nil => exact iff_of_true rfl fun line hline => absurd hline List.not_mem_nil
  | cons line lines ih =>
    have hle := length_le_count_join lines
    rw [count_join_cons, List.length_cons, List.forall_mem_cons, ← ih, ← List.count_eq_zero]
    omega

/-- If an outline has one line for each object, its own texts are those lines. -/
theorem WellFormed.lineFeed_notMem_of_oneLineEach (h : d.WellFormed) (heach : d.OneLineEach) :
    ∀ line ∈ d.outlineLines, '\n' ∉ line.toList := by
  obtain ⟨lines, ⟨houtline, hlines⟩, hunbroken⟩ := heach
  obtain ⟨-, htexts⟩ := h.hasLines_outlineLines
  have hlength : d.outlineLines.length = lines.length :=
    htexts.length_eq.symm.trans hlines.length_eq
  rw [← count_join_eq_length_iff, hlength, ← (count_join_eq_length_iff lines).2 hunbroken,
    ← houtline, outline]

/-- **An outline has one line for each object exactly if no style has a line feed in it.** -/
theorem WellFormed.oneLineEach_iff (h : d.WellFormed) : d.OneLineEach ↔ d.UnbrokenStyles := by
  constructor
  · intro heach entry hentry style hstyle hfeed
    have hunbroken := h.lineFeed_notMem_of_oneLineEach heach
    obtain ⟨slot, hslot⟩ := Array.getElem?_of_mem hentry
    have hobject : d.object? slot = some entry.value := by
      rw [object?, hslot]
      rfl
    have hroot : slot ≠ rootSlot := by
      rintro rfl
      rw [← Option.some.inj (h.root.symm.trans hobject)] at hstyle
      cases hstyle
    have hshown := h.mem_shownSlots hroot (lt_size_of_object? hobject)
    have hline : outlineLine (d.level slot) entry.value.outlineText ∈ d.outlineLines := by
      rw [d.outlineLines_eq]
      refine List.mem_filterMap.2 ⟨slot, hshown, ?_⟩
      rw [lineAt?, hobject]
      rfl
    refine hunbroken _ hline ?_
    rw [toList_outlineLine]
    exact List.mem_append_right _ (DocumentObject.lineFeed_mem_outlineText hstyle hfeed)
  · intro hstyles
    exact ⟨d.outlineLines, h.hasLines_outlineLines, lineFeed_notMem_outlineLines hstyles⟩

end Document

end Galley
