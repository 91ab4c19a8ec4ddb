import Galley.Proofs.Document.OutlineText
import Galley.Proofs.Document.Shown

/-!
  An outline shows all that a view holds.

  Sections, paragraphs and inline objects are written in one way: a line for the object, then the
  lines of its parts, indented by one level more. The parts of an object end before the first line
  that is not indented so far (`Below`), and its own line tells the object
  (`outlineText_injective`), so what is written for an object and its parts reads back
  (`readsBack_nested`), and so does a row of them (`readsBack_siblings`). By induction on views the
  lines of an outline determine what it shows (`sections_eq_of_outlineLines_eq`), and where no style
  breaks a line, the text determines the lines (`view_eq_of_outline_eq`).
-/

namespace Galley

open Text

/-! ## Indentation -/

/-- The lines are at an end, or go on further to the left than `level`. -/
def Below (level : Nat) (lines : List String) : Prop :=
  ∀ line ∈ lines.head?, ¬ List.replicate (2 * level) ' ' <+: line.toList

variable {level : Nat} {text text' : String} {lines : List String}

theorem toList_outlineLine (level : Nat) (text : String) :
    (outlineLine level text).toList = List.replicate (2 * level) ' ' ++ text.toList := by
  rw [outlineLine, String.toList_append, String.toList_ofList]

theorem outlineLine_inj (h : outlineLine level text = outlineLine level text') : text = text' := by
  have hchars := congrArg String.toList h
  rw [toList_outlineLine, toList_outlineLine] at hchars
  exact String.toList_injective (List.append_cancel_left hchars)

theorem Below.succ (h : Below level lines) : Below (level + 1) lines := by
  intro line hline hindent
  refine h line hline (List.IsPrefix.trans ?_ hindent)
  exact ⟨[' ', ' '], by rw [Nat.mul_succ, List.replicate_add]; rfl⟩

theorem not_below_cons : ¬ Below level (outlineLine level text :: lines) := by
  intro h
  refine h _ rfl ?_
  rw [toList_outlineLine]
  exact List.prefix_append _ _

/-- The line of an object goes no further to the right than its level says. -/
theorem below_succ_cons {object : DocumentObject} :
    Below (level + 1) (outlineLine level object.outlineText :: lines) := by
  intro line hline hindent
  obtain rfl := Option.some.inj hline
  rw [toList_outlineLine, Nat.mul_succ, List.replicate_add, List.prefix_append_right_inj] at hindent
  have hblank : object.kind.initial = some ' ' := by
    obtain ⟨rest, hrest⟩ := hindent
    rw [← DocumentObject.head?_outlineText, ← hrest]
    rfl
  cases hkind : object.kind <;> rw [hkind] at hblank <;> exact absurd hblank (by decide)

/-- A line of one of the given objects, at some level. -/
def LineOf (objects : List DocumentObject) (line : String) : Prop :=
  ∃ object ∈ objects, ∃ level, line = outlineLine level object.outlineText

theorem lineOf_flatMap {α : Type} {write : α → List String} {objects : α → List DocumentObject}
    {as : List α} (h : ∀ a ∈ as, ∀ line ∈ write a, LineOf (objects a) line) :
    ∀ line ∈ as.flatMap write, LineOf (as.flatMap objects) line := by
  intro line hline
  obtain ⟨a, ha, hline⟩ := List.mem_flatMap.1 hline
  obtain ⟨object, hobject, hlevel⟩ := h a ha line hline
  exact ⟨object, List.mem_flatMap.2 ⟨a, ha, hobject⟩, hlevel⟩

/-! ## Objects with their parts -/

section Nested

variable {α γ : Type} {write : α → List String} {owner : α → DocumentObject} {parts : α → γ}
  {writeParts : γ → List String}
  (hwrite : ∀ a, write a = outlineLine level (owner a).outlineText :: writeParts (parts a))

include hwrite

/-- An object and its parts read back, up to a line that is none of its parts. -/
theorem readsBack_nested {a : α} (hext : ∀ b, owner a = owner b → parts a = parts b → a = b)
    (hparts : ReadsBack writeParts (Below (level + 1)) (parts a)) :
    ReadsBack write (Below (level + 1)) a := by
  intro b rest rest' hrest hrest' h
  rw [hwrite, hwrite, List.cons_append, List.cons_append] at h
  obtain ⟨hline, htail⟩ := List.cons.inj h
  obtain ⟨hsame, rfl⟩ := hparts _ _ _ hrest hrest' htail
  exact ⟨hext b (DocumentObject.outlineText_injective (outlineLine_inj hline)) hsame, rfl⟩

/-- A row of objects reads back, up to a line that is not indented so far. -/
theorem readsBack_siblings {as : List α}
    (hitems : ∀ a ∈ as, ReadsBack write (Below (level + 1)) a) :
    ReadsBack (List.flatMap write) (Below level) as := by
  refine readsBack_flatMap hitems ?_ (fun rest => Below.succ) ?_
  · intro a rest
    rw [hwrite]
    exact below_succ_cons
  · intro a rest
    rw [hwrite]
    exact not_below_cons

/-- The lines of an object and of its parts are lines of what the view holds. -/
theorem lineOf_nested {objects : α → List DocumentObject} {partObjects : γ → List DocumentObject}
    (hobjects : ∀ a, objects a = owner a :: partObjects (parts a)) {a : α}
    (hparts : ∀ line ∈ writeParts (parts a), LineOf (partObjects (parts a)) line) :
    ∀ line ∈ write a, LineOf (objects a) line := by
  intro line hline
  rw [hobjects]
  rw [hwrite] at hline
  rcases List.mem_cons.1 hline with rfl | hline
  · exact ⟨owner a, List.mem_cons_self, level, rfl⟩
  · obtain ⟨object, hobject, hlevel⟩ := hparts line hline
    exact ⟨object, List.mem_cons_of_mem _ hobject, hlevel⟩

end Nested

/-! ## Inline objects -/

namespace InlineView

/-- The object that a view is of, without its content. -/
def object : InlineView → DocumentObject
  | .text value => .text value
  | .lineBreak => .lineBreak
  | .run value _ => .run value
  | .hyperlink value _ => .hyperlink value

/-- The content of a view. -/
def content : InlineView → List InlineView
  | .text _ => []
  | .lineBreak => []
  | .run _ content => content
  | .hyperlink _ content => content

theorem ext_object {view other : InlineView} (hobject : view.object = other.object)
    (hcontent : view.content = other.content) : view = other := by
  cases view <;> cases other <;> cases hobject
  case text.text => rfl
  case lineBreak.lineBreak => rfl
  case run.run => exact congrArg _ hcontent
  case hyperlink.hyperlink => exact congrArg _ hcontent

theorem outlinesLines_eq_flatMap (level : Nat) (content : List InlineView) :
    outlinesLines level content = content.flatMap (outlineLines level) := by
  induction content with
  | nil => rfl
  | cons view rest ih => rw [outlinesLines, ih, List.flatMap_cons]

theorem outlineLines_eq (level : Nat) (view : InlineView) :
    view.outlineLines level = outlineLine level view.object.outlineText ::
      view.content.flatMap (outlineLines (level + 1)) := by
  rw [← outlinesLines_eq_flatMap]
  cases view <;> rfl

theorem objects_eq (view : InlineView) :
    view.objects = view.object :: view.content.flatMap objects := by
  rw [← objectsAll_eq_flatMap]
  cases view <;> rfl

theorem sizeOf_lt_of_mem_content {view part : InlineView} (h : part ∈ view.content) :
    sizeOf part < sizeOf view := by
  cases view with
  | text value => exact absurd h List.not_mem_nil
  | lineBreak => exact absurd h List.not_mem_nil
  | run value content =>
    have hlt : sizeOf part < sizeOf content := List.sizeOf_lt_of_mem h
    rw [run.sizeOf_spec]
    omega
  | hyperlink value content =>
    have hlt : sizeOf part < sizeOf content := List.sizeOf_lt_of_mem h
    rw [hyperlink.sizeOf_spec]
    omega

/-- Induction from the content of a view to the view. -/
theorem induction {motive : InlineView → Prop}
    (step : ∀ view : InlineView, (∀ part ∈ view.content, motive part) → motive view)
    (view : InlineView) : motive view :=
  step view fun part _ => induction step part
termination_by sizeOf view
decreasing_by exact sizeOf_lt_of_mem_content (by assumption)

/-- **What is written for an inline object and its content reads back.** -/
theorem readsBack (level : Nat) (view : InlineView) :
    ReadsBack (outlineLines level) (Below (level + 1)) view := by
  induction view using InlineView.induction generalizing level with
  | step view ih =>
    refine readsBack_nested (outlineLines_eq level) (fun other => ext_object) ?_
    exact readsBack_siblings (outlineLines_eq (level + 1)) fun part hpart => ih part hpart _

theorem lineOf (level : Nat) (view : InlineView) :
    ∀ line ∈ view.outlineLines level, LineOf view.objects line := by
  induction view using InlineView.induction generalizing level with
  | step view ih =>
    exact lineOf_nested (outlineLines_eq level) objects_eq
      (lineOf_flatMap fun part hpart => ih part hpart _)

end InlineView

/-! ## Paragraphs and sections -/

namespace ParagraphView

theorem outlineLines_eq (view : ParagraphView) :
    view.outlineLines = outlineLine 1 (DocumentObject.paragraph view.value).outlineText ::
      view.content.flatMap (InlineView.outlineLines 2) := by
  rw [← InlineView.outlinesLines_eq_flatMap]
  rfl

theorem readsBack (view : ParagraphView) : ReadsBack outlineLines (Below 2) view := by
  refine readsBack_nested outlineLines_eq ?_ ?_
  · rintro ⟨value, content⟩ hvalue hcontent
    cases view
    cases hvalue
    cases hcontent
    rfl
  · exact readsBack_siblings (InlineView.outlineLines_eq 2) fun part _ => part.readsBack 2

theorem lineOf (view : ParagraphView) : ∀ line ∈ view.outlineLines, LineOf view.objects line :=
  lineOf_nested outlineLines_eq (fun _ => rfl) (lineOf_flatMap fun part _ => part.lineOf 2)

end ParagraphView

namespace SectionView

theorem outlineLines_eq (view : SectionView) :
    view.outlineLines = outlineLine 0 DocumentObject.sectionBlock.outlineText ::
      view.paragraphs.flatMap ParagraphView.outlineLines :=
  rfl

theorem readsBack (view : SectionView) : ReadsBack outlineLines (Below 1) view := by
  refine readsBack_nested outlineLines_eq ?_ ?_
  · rintro ⟨paragraphs⟩ - hparagraphs
    cases view
    cases hparagraphs
    rfl
  · exact readsBack_siblings ParagraphView.outlineLines_eq fun part _ => part.readsBack

theorem lineOf (view : SectionView) : ∀ line ∈ view.outlineLines, LineOf view.objects line :=
  lineOf_nested outlineLines_eq (fun _ => rfl) (lineOf_flatMap fun part _ => part.lineOf)

end SectionView

/-! ## Documents -/

/-- **The lines of an outline determine what it shows.** -/
theorem sections_eq_of_outlineLines_eq {sections sections' : List SectionView}
    (h : sections.flatMap SectionView.outlineLines = sections'.flatMap SectionView.outlineLines) :
    sections = sections' := by
  have hread : ReadsBack (List.flatMap SectionView.outlineLines) (Below 0) sections :=
    readsBack_siblings SectionView.outlineLines_eq fun view _ => view.readsBack
  have hend : Below 0 [] := nofun
  exact (hread sections' [] [] hend hend (by rw [h])).1

namespace Document

/-- No paragraph and no run has a style with a line feed in it. -/
def UnbrokenStyles (d : Document) : Prop :=
  ∀ entry ∈ d.entries, ∀ style ∈ entry.value.style?, '\n' ∉ style.toList

instance (d : Document) : Decidable d.UnbrokenStyles :=
  inferInstanceAs
    (Decidable (∀ entry ∈ d.entries, ∀ style ∈ entry.value.style?, '\n' ∉ style.toList))

variable {d e : Document}

theorem lineFeed_notMem_outlineLines (h : d.UnbrokenStyles) :
    ∀ line ∈ d.outlineLines, '\n' ∉ line.toList := by
  intro line hline
  obtain ⟨object, hobject, level, rfl⟩ := lineOf_flatMap (fun view _ => view.lineOf) line hline
  have hshown : object ∈ d.shownSlots.filterMap d.object? := by
    rw [← objects_view]
    exact hobject
  obtain ⟨slot, -, hslot⟩ := List.mem_filterMap.1 hshown
  obtain ⟨entry, hentry, rfl⟩ := Option.map_eq_some_iff.1 hslot
  have hblank : '\n' ∉ List.replicate (2 * level) ' ' :=
    fun hmem => absurd (List.eq_of_mem_replicate hmem) (by decide)
  have hstyles := h entry (Array.mem_of_getElem? hentry)
  rw [toList_outlineLine, List.mem_append, not_or]
  exact ⟨hblank, DocumentObject.lineFeed_notMem_outlineText hstyles⟩

/-- **An outline loses nothing.** Two documents with the same outline have the same view, whatever
    their texts and link targets are, and whatever their styles are but for line feeds. -/
theorem view_eq_of_outline_eq (hd : d.UnbrokenStyles) (he : e.UnbrokenStyles)
    (h : d.outline = e.outline) : d.view = e.view := by
  apply sections_eq_of_outlineLines_eq
  exact lines_eq_of_join_eq (lineFeed_notMem_outlineLines hd) (lineFeed_notMem_outlineLines he) h

/-- A text that looks like a line and a style that looks like an alignment, made in two orders. -/
theorem view_eq_of_outline_eq_imitations :
    let d := ((((Document.empty.push 0 .sectionBlock).push 1
      (.paragraph { style := some "a] align=Left" })).push 2 (.run { style := some "]" })).push 3
        (.text "\"\n  paragraph")).push 1 (.paragraph { style := some "a", alignment := some .left })
    let e := ((((Document.empty.push 0 .sectionBlock).push 1
      (.paragraph { style := some "a] align=Left" })).push 1
        (.paragraph { style := some "a", alignment := some .left })).push 2
          (.run { style := some "]" })).push 4 (.text "\"\n  paragraph")
    d ≠ e ∧ d.UnbrokenStyles ∧ e.UnbrokenStyles ∧ d.outline = e.outline ∧ d.view = e.view := by
  intro d e
  have hd : d.UnbrokenStyles := by decide
  have he : e.UnbrokenStyles := by decide
  have houtline : d.outline = e.outline := by decide +kernel
  exact ⟨by decide, hd, he, houtline, view_eq_of_outline_eq hd he houtline⟩

/-- Line feeds in styles have to be left out: with one of them a paragraph looks like two. -/
example :
    let d := Document.empty.push 0 .sectionBlock
    (d.push 1 (.paragraph { style := some "a]\n  paragraph [b" })).outline =
      ((d.push 1 (.paragraph { style := some "a" })).push 1
        (.paragraph { style := some "b" })).outline := by
  decide +kernel

end Document

end Galley
