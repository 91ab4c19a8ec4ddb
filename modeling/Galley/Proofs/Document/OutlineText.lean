import Mathlib.Data.List.Basic
import Galley.Document.Outline
import Galley.Proofs.Text.ReadingBack

/-!
  What a line of an outline says of its object.

  Every kind of object begins its line with a letter of its own. The rest of a line is read from
  the side that is free of styles: the flags of a run come before its style, the alignment and the
  list data of a paragraph after it, so that a style may hold anything, even what looks like another
  part of the line. No two objects have the same text (`outlineText_injective`), and the only line
  feeds in it are those of a style (`lineFeed_notMem_outlineText`).
-/

namespace Galley

open Text

theorem stylePart_injective : Function.Injective stylePart := by
  intro style style' h
  cases style with
  | none =>
    cases style' with
    | none => rfl
    | some name => simp [stylePart, optionalPart, ← String.toList_inj] at h
  | some name =>
    cases style' with
    | none => simp [stylePart, optionalPart, ← String.toList_inj] at h
    | some name' => simpa [stylePart, optionalPart, ← String.toList_inj] using h

/-! ## Paragraphs, from the end of the line -/

/-- The part of a paragraph's line that tells its alignment. -/
def alignmentPart (alignment : Option Alignment) : String :=
  optionalPart (fun alignment => " align=" ++ alignment.outlineName) alignment

/-- The part of a paragraph's line that tells its list data. -/
def listPart (info : Option ListInfo) : String :=
  optionalPart
    (fun info =>
      " list=" ++ info.listType.keyword ++ " continue=" ++ boolText info.continuesPrevious)
    info

theorem readsBack_alignmentPart (alignment : Option Alignment) :
    ReadsBack (fun alignment => (alignmentPart alignment).toList.reverse)
      (fun rest => ∀ c ∈ rest.head?, c = ']' ∨ c = 'h') alignment := by
  refine readsBack_optional rfl (readsBack_of_prefixFree ?_) (fun _ _ => trivial) ?_ alignment
  · intro a b
    cases a <;> cases b <;> decide
  · intro a rest h
    cases a <;> simp [alignmentPart, optionalPart, Alignment.outlineName] at h

theorem readsBack_listInfo (info : ListInfo) :
    ReadsBack (fun info => (listPart (some info)).toList.reverse) (fun _ => True) info := by
  have hcontinues : ∀ value,
      ReadsBack (fun value => (boolText value).toList.reverse) (fun _ => True) value :=
    readsBack_of_prefixFree (by decide)
  have htype : ∀ listType,
      ReadsBack (fun listType => (ListType.keyword listType).toList.reverse) (fun _ => True)
        listType :=
    readsBack_of_prefixFree fun a b => by cases a <;> cases b <;> decide
  intro other rest rest' _ _ h
  simp only [listPart, optionalPart, String.toList_append, List.reverse_append,
    List.append_assoc] at h
  obtain ⟨hsame, h⟩ := hcontinues _ _ _ _ trivial trivial h
  obtain ⟨hsame', h⟩ := htype _ _ _ _ trivial trivial (List.append_cancel_left h)
  refine ⟨?_, List.append_cancel_left h⟩
  cases info
  cases other
  exact congrArg₂ ListInfo.mk hsame' hsame

theorem readsBack_listPart (info : Option ListInfo) :
    ReadsBack (fun info => (listPart info).toList.reverse) (fun rest => rest.head? ≠ some 'e')
      info := by
  refine readsBack_optional rfl ?_ (fun _ _ => trivial) ?_ info
  · exact readsBack_listInfo
  · rintro ⟨listType, continues⟩ rest
    cases continues <;> simp [listPart, optionalPart, boolText]

theorem Paragraph.outlineText_injective : Function.Injective Paragraph.outlineText := by
  intro v w h
  have hend (style : Option String) :
      ∀ c ∈ ((stylePart style).toList.reverse ++ "paragraph".toList.reverse).head?,
        c = ']' ∨ c = 'h' := by
    cases style <;> simp [stylePart, optionalPart]
  have hend' (alignment : Option Alignment) (style : Option String) :
      ((alignmentPart alignment).toList.reverse ++
        ((stylePart style).toList.reverse ++ "paragraph".toList.reverse)).head? ≠ some 'e' := by
    cases alignment with
    | none =>
      intro hhead
      have hlast := hend style _ hhead
      revert hlast
      decide
    | some alignment =>
      cases alignment <;> simp [alignmentPart, optionalPart, Alignment.outlineName]
  -- The style is read last: what is left of the line then is all its own.
  have hchars := congrArg (fun text => text.toList.reverse) h
  simp only [Paragraph.outlineText, String.toList_append, List.reverse_append] at hchars
  obtain ⟨hlist, hchars⟩ := readsBack_listPart _ _ _ _ (hend' _ _) (hend' _ _) hchars
  obtain ⟨halignment, hchars⟩ := readsBack_alignmentPart _ _ _ _ (hend _) (hend _) hchars
  have hstyle := List.reverse_injective (List.append_cancel_right hchars)
  cases v
  cases w
  simp only [Paragraph.mk.injEq]
  exact ⟨stylePart_injective (String.toList_injective hstyle), halignment, hlist⟩

/-! ## Runs, from the start of the line -/

theorem readsBack_flagPart (name : String) (flag : Option Bool) :
    ReadsBack (fun flag => (flagPart name flag).toList)
      (fun rest => ¬ (" " ++ name ++ "=").toList <+: rest) flag := by
  have hvalue : ∀ value, ReadsBack (fun value => (boolText value).toList) (fun _ => True) value :=
    readsBack_of_prefixFree (by decide)
  refine readsBack_optional rfl ?_ (fun _ _ => trivial) ?_ flag
  · intro value other rest rest' _ _ h
    simp only [flagPart, optionalPart, String.toList_append, List.append_assoc] at h
    exact hvalue _ _ _ _ trivial trivial
      (List.append_cancel_left (List.append_cancel_left (List.append_cancel_left h)))
  · intro value rest
    simp [flagPart, optionalPart]

theorem TextRun.outlineText_injective : Function.Injective TextRun.outlineText := by
  intro v w h
  have hunderline (style : Option String) :
      ¬ (" " ++ "underline" ++ "=").toList <+: (stylePart style).toList := by
    cases style <;> simp [stylePart, optionalPart]
  have hitalic (underline : Option Bool) (style : Option String) :
      ¬ (" " ++ "italic" ++ "=").toList <+:
        (flagPart "underline" underline).toList ++ (stylePart style).toList := by
    cases underline <;> cases style <;> simp [flagPart, stylePart, optionalPart]
  have hbold (italic underline : Option Bool) (style : Option String) :
      ¬ (" " ++ "bold" ++ "=").toList <+: (flagPart "italic" italic).toList ++
        ((flagPart "underline" underline).toList ++ (stylePart style).toList) := by
    cases italic <;> cases underline <;> cases style <;>
      simp [flagPart, stylePart, optionalPart]
  have hchars := congrArg String.toList h
  simp only [TextRun.outlineText, String.toList_append, List.append_assoc] at hchars
  obtain ⟨hbold, hchars⟩ := readsBack_flagPart "bold" _ _ _ _ (hbold _ _ _) (hbold _ _ _)
    (List.append_cancel_left hchars)
  obtain ⟨hitalic, hchars⟩ := readsBack_flagPart "italic" _ _ _ _ (hitalic _ _) (hitalic _ _) hchars
  obtain ⟨hunderline, hchars⟩ :=
    readsBack_flagPart "underline" _ _ _ _ (hunderline _) (hunderline _) hchars
  cases v
  cases w
  simp only [TextRun.mk.injEq]
  exact ⟨hbold, hitalic, hunderline, stylePart_injective (String.toList_injective hchars)⟩

/-! ## Links -/

theorem Hyperlink.outlineText_injective : Function.Injective Hyperlink.outlineText := by
  have hkinds : ∀ kind,
      ReadsBack (fun kind => (LinkKind.outlineName kind).toList) (fun _ => True) kind :=
    readsBack_of_prefixFree fun a b => by cases a <;> cases b <;> decide
  intro v w h
  have hchars := congrArg String.toList h
  simp only [Hyperlink.outlineText, String.toList_append, List.append_assoc] at hchars
  obtain ⟨hkind, hchars⟩ := hkinds _ _ _ _ trivial trivial (List.append_cancel_left hchars)
  have htarget := quote_injective (String.toList_injective (List.append_cancel_left hchars))
  cases v
  cases w
  exact congrArg₂ Hyperlink.mk htarget hkind

/-! ## All objects -/

/-- What an outline says of an object. -/
def DocumentObject.outlineText : DocumentObject → String
  | .document => ""
  | .sectionBlock => "section"
  | .paragraph value => value.outlineText
  | .run value => value.outlineText
  | .hyperlink value => value.outlineText
  | .lineBreak => "line-break"
  | .text value => "text " ++ quote value

/-- The style that an object names. -/
def DocumentObject.style? : DocumentObject → Option String
  | .paragraph value => value.style
  | .run value => value.style
  | _ => none

/-- The letter that begins the lines of a kind of object. -/
def ObjectKind.initial : ObjectKind → Option Char
  | .document => none
  | .sectionBlock => some 's'
  | .paragraph => some 'p'
  | .run => some 'f'
  | .hyperlink => some 'h'
  | .lineBreak => some 'l'
  | .text => some 't'

theorem ObjectKind.initial_injective : Function.Injective ObjectKind.initial := by
  intro a b
  cases a <;> cases b <;> decide

namespace DocumentObject

theorem head?_outlineText (object : DocumentObject) :
    object.outlineText.toList.head? = object.kind.initial := by
  cases object <;> simp [outlineText, kind, ObjectKind.initial, Paragraph.outlineText,
    TextRun.outlineText, Hyperlink.outlineText]

/-- **No two objects have the same line.** -/
theorem outlineText_injective : Function.Injective outlineText := by
  intro a b h
  have hkind : a.kind = b.kind := by
    apply ObjectKind.initial_injective
    rw [← head?_outlineText, ← head?_outlineText, h]
  -- Only pairs of one kind are left.
  cases a <;> cases b <;> try cases hkind
  case document.document => rfl
  case sectionBlock.sectionBlock => rfl
  case paragraph.paragraph v w => exact congrArg _ (Paragraph.outlineText_injective h)
  case run.run v w => exact congrArg _ (TextRun.outlineText_injective h)
  case hyperlink.hyperlink v w => exact congrArg _ (Hyperlink.outlineText_injective h)
  case lineBreak.lineBreak => rfl
  case text.text v w =>
    have hchars := congrArg String.toList h
    simp only [outlineText, String.toList_append] at hchars
    exact congrArg _ (quote_injective (String.toList_injective (List.append_cancel_left hchars)))

/-- A line breaks only where its style does. -/
theorem lineFeed_notMem_outlineText {object : DocumentObject}
    (h : ∀ style ∈ object.style?, '\n' ∉ style.toList) : '\n' ∉ object.outlineText.toList := by
  have hstyle {style : Option String} (h : ∀ name ∈ style, '\n' ∉ name.toList) :
      '\n' ∉ (stylePart style).toList := by
    cases style with
    | none => decide
    | some name => simpa [stylePart, optionalPart] using h name rfl
  cases object with
  | document => decide
  | sectionBlock => decide
  | paragraph value =>
    have halignment (alignment : Option Alignment) : '\n' ∉ (alignmentPart alignment).toList := by
      cases alignment with
      | none => decide
      | some alignment => cases alignment <;> decide
    have hcontinues (value : Bool) : '\n' ∉ (boolText value).toList := by
      cases value <;> decide
    have htype (listType : ListType) : '\n' ∉ listType.keyword.toList := by
      cases listType <;> decide
    have hlist (info : Option ListInfo) : '\n' ∉ (listPart info).toList := by
      cases info with
      | none => decide
      | some info =>
        simp only [listPart, optionalPart, String.toList_append, List.mem_append, not_or]
        exact ⟨⟨⟨by decide, htype _⟩, by decide⟩, hcontinues _⟩
    simp only [outlineText, Paragraph.outlineText, String.toList_append, List.mem_append, not_or]
    exact ⟨⟨⟨by decide, hstyle h⟩, halignment _⟩, hlist _⟩
  | run value =>
    have hflag (flag : Option Bool) {name : String} (hname : '\n' ∉ name.toList) :
        '\n' ∉ (flagPart name flag).toList := by
      cases flag with
      | none => exact List.not_mem_nil
      | some value => cases value <;> simp [flagPart, optionalPart, boolText, hname]
    simp only [outlineText, TextRun.outlineText, String.toList_append, List.mem_append, not_or]
    exact ⟨⟨⟨⟨by decide, hflag _ (by decide)⟩, hflag _ (by decide)⟩, hflag _ (by decide)⟩, hstyle h⟩
  | hyperlink value =>
    have hkind (kind : LinkKind) : '\n' ∉ kind.outlineName.toList := by
      cases kind <;> decide
    simp only [outlineText, Hyperlink.outlineText, String.toList_append, List.mem_append, not_or]
    exact ⟨⟨⟨by decide, hkind _⟩, by decide⟩, lineFeed_notMem_quote _⟩
  | lineBreak => decide
  | text value =>
    simp only [outlineText, String.toList_append, List.mem_append, not_or]
    exact ⟨by decide, lineFeed_notMem_quote _⟩

end DocumentObject

end Galley
