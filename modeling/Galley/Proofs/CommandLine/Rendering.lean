import Galley.CommandLine.Run
import Galley.Proofs.Document.OutlineReading
import Galley.Proofs.Text.Search

/-!
  Printed outlines are whole.

  The command cuts the blanks off the end of an outline and prints a line feed after it. The last
  line of an outline never ends in a blank, though texts, link targets and styles may: all three
  stand between marks that close after them, and any other part of a line ends in a letter
  (`DocumentObject.endsInk_outlineText`). So what is cut off is the line feed that ends the last
  line, and printing puts it back (`render_outline_append_iff`).
-/

namespace Galley

open Text

/-- The text has a last character, which is no blank. -/
def EndsInk (text : String) : Prop :=
  text.toList.getLast?.any fun c => !isBlank c

instance (text : String) : Decidable (EndsInk text) :=
  inferInstanceAs (Decidable (_ = true))

theorem endsInk_iff {text : String} :
    EndsInk text ↔ ∃ c, text.toList.getLast? = some c ∧ ¬ isBlank c := by
  simp only [EndsInk, Option.any_eq_true, Bool.not_eq_true', Bool.not_eq_true]

namespace EndsInk

variable {text front : String}

theorem append (h : EndsInk text) (front : String) : EndsInk (front ++ text) := by
  obtain ⟨c, hlast, hc⟩ := endsInk_iff.1 h
  refine endsInk_iff.2 ⟨c, ?_, hc⟩
  rw [String.toList_append, List.getLast?_append, hlast, Option.some_or]

/-- A part that may be left out ends in ink if each of its values does. -/
theorem append_optionalPart {α : Type} {write : α → String} (h : EndsInk front)
    (hwrite : ∀ value, EndsInk (write value)) (part : Option α) :
    EndsInk (front ++ optionalPart write part) := by
  cases part with
  | none =>
    rw [optionalPart, String.append_empty]
    exact h
  | some value => exact (hwrite value).append front

/-- A style stands in brackets. -/
theorem append_stylePart (h : EndsInk front) (style : Option String) :
    EndsInk (front ++ stylePart style) := by
  have hbracket : EndsInk "]" := by decide
  exact h.append_optionalPart (fun name => hbracket.append (" [" ++ name)) style

theorem boolText (value : Bool) : EndsInk (boolText value) := by
  cases value <;> decide

theorem append_flagPart (h : EndsInk front) (name : String) (flag : Option Bool) :
    EndsInk (front ++ flagPart name flag) :=
  h.append_optionalPart (fun value => (EndsInk.boolText value).append _) flag

/-- Quotes are closed. -/
theorem quote (text : String) : EndsInk (quote text) := by
  refine endsInk_iff.2 ⟨'"', ?_, by decide⟩
  rw [Text.quote, String.toList_ofList, List.getLast?_concat]

end EndsInk

/-- **What an outline says of an object ends in ink**, whatever its texts and styles end in. -/
theorem DocumentObject.endsInk_outlineText {object : DocumentObject} (h : object ≠ .document) :
    EndsInk object.outlineText := by
  cases object with
  | document => exact absurd rfl h
  | sectionBlock => exact (by decide : EndsInk "section")
  | lineBreak => exact (by decide : EndsInk "line-break")
  | text value => exact (EndsInk.quote value).append "text "
  | hyperlink value =>
    exact (EndsInk.quote value.target).append ("hyperlink " ++ value.kind.outlineName ++ " ")
  | run value =>
    have hkeyword : EndsInk "formatted" := by decide
    have hflags := ((hkeyword.append_flagPart "bold" value.bold).append_flagPart "italic"
      value.italic).append_flagPart "underline" value.underline
    exact hflags.append_stylePart value.style
  | paragraph value =>
    have hkeyword : EndsInk "paragraph" := by decide
    have halignment (alignment : Alignment) : EndsInk (" align=" ++ alignment.outlineName) := by
      cases alignment <;> decide
    have hlist (info : ListInfo) : EndsInk (" list=" ++ info.listType.keyword ++ " continue=" ++
        boolText info.continuesPrevious) :=
      (EndsInk.boolText info.continuesPrevious).append _
    have hstyled := hkeyword.append_stylePart value.style
    exact (hstyled.append_optionalPart halignment value.alignment).append_optionalPart hlist
      value.listInfo

/-! ## The lines of an outline -/

/-- The root of a document has no line. -/
theorem InlineView.document_notMem_objects (view : InlineView) :
    DocumentObject.document ∉ view.objects := by
  induction view using InlineView.induction with
  | step view ih =>
    rw [objects_eq, List.mem_cons, List.mem_flatMap]
    rintro (hobject | ⟨part, hpart, hmem⟩)
    · cases view <;> cases hobject
    · exact ih part hpart hmem

theorem SectionView.document_notMem_objects (view : SectionView) :
    DocumentObject.document ∉ view.objects := by
  rw [objects, List.mem_cons, List.mem_flatMap]
  rintro (hobject | ⟨paragraph, -, hmem⟩)
  · cases hobject
  · rw [ParagraphView.objects, List.mem_cons, List.mem_flatMap] at hmem
    rcases hmem with hobject | ⟨part, -, hmem⟩
    · cases hobject
    · exact part.document_notMem_objects hmem

theorem Document.endsInk_of_mem_outlineLines {d : Document} {line : String}
    (h : line ∈ d.outlineLines) : EndsInk line := by
  obtain ⟨view, -, hline⟩ := List.mem_flatMap.1 h
  obtain ⟨object, hobject, level, rfl⟩ := view.lineOf line hline
  have hroot : object ≠ .document := fun heq => view.document_notMem_objects (heq ▸ hobject)
  exact (DocumentObject.endsInk_outlineText hroot).append _

/-- Every section has a line. -/
theorem Document.outlineLines_eq_nil_iff {d : Document} :
    d.outlineLines = [] ↔ d.sections = [] := by
  rw [outlineLines, List.flatMap_eq_nil_iff, view, List.forall_mem_map]
  constructor
  · intro h
    exact List.eq_nil_iff_forall_not_mem.2 fun id hid => List.cons_ne_nil _ _ (h id hid)
  · intro h id hid
    exact absurd (h ▸ hid) List.not_mem_nil

/-- Lines that are joined end in the last of them. -/
theorem exists_join_eq {lines : List String} (hlines : ∀ line ∈ lines, EndsInk line)
    (h : lines ≠ []) :
    ∃ text, EndsInk text ∧ String.join (lines.map fun line => line ++ "\n") = text ++ "\n" := by
  induction lines with
  | nil => exact absurd rfl h
  | cons line rest ih =>
    have hline := hlines line List.mem_cons_self
    rw [List.map_cons, String.join_cons]
    by_cases hrest : rest = []
    · refine ⟨line, hline, ?_⟩
      rw [hrest, List.map_nil, String.join_nil, String.append_empty]
    · obtain ⟨text, htext, hjoin⟩ := ih (fun other hother => hlines other (.tail _ hother)) hrest
      refine ⟨line ++ "\n" ++ text, htext.append _, ?_⟩
      rw [hjoin, ← String.append_assoc]

theorem EndsInk.trimEnd_append {text : String} (h : EndsInk text) :
    trimEnd (text ++ "\n").toList = text.toList := by
  obtain ⟨c, hlast, hc⟩ := endsInk_iff.1 h
  rw [String.toList_append]
  refine Text.trimEnd_append (by decide) fun last hmem => ?_
  rw [hlast] at hmem
  exact Option.some.inj hmem ▸ hc

namespace CommandLine

/-- **Printing an outline loses nothing.** What is printed for a document in this format, with the
    line feed after it, is the outline of the document exactly if it has a section. Without one the
    outline is empty, and the line feed is all that is printed. -/
theorem render_outline_append_iff (d : Document) :
    render d .outline ++ "\n" = d.outline ↔ d.sections ≠ [] := by
  rw [ne_eq, ← Document.outlineLines_eq_nil_iff, render, Document.outline]
  constructor
  · intro h hnone
    rw [hnone] at h
    exact absurd h (by decide)
  · intro hsome
    obtain ⟨text, htext, hjoin⟩ :=
      exists_join_eq (fun _ => Document.endsInk_of_mem_outlineLines) hsome
    rw [hjoin, htext.trimEnd_append, String.ofList_toList]

end CommandLine

end Galley
