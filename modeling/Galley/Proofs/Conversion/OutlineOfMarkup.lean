import Galley.Proofs.Conversion.Lists
import Galley.Proofs.Conversion.TextsAndLinks
import Galley.Proofs.Conversion.Failures
import Galley.Proofs.Document.OutlineOrder

/-!
  The outlines of converted markup.

  Of all that the usual handlers take from markup only the class of a span gets into an outline as
  it stands, as the style of a run; the styles of paragraphs are the handlers' own. So a conversion
  adds a broken line exactly for the spans whose class has a line feed in it
  (`brokenStyles_of_call`), and the outline has one line for each object exactly where there is no
  such span (`outline_one_line_each_iff`). `outline_of_broken_class` is a span that breaks one.
-/

namespace Galley

/-- The style of an object, if it has a line feed in it. -/
def DocumentObject.brokenStyle? (object : DocumentObject) : Option String :=
  object.style?.filter fun style => style.toList.contains '\n'

/-- The style of the run that a place begins by a span's handler. -/
def Location.spanStyle? (reserved : Option String) (place : Location) : Option String :=
  if place.node.isElement "span" && !place.node.isSpacer then
    Handler.spanStyle place.node reserved
  else none

theorem DocumentObject.brokenStyle?_eq_none_iff {object : DocumentObject} :
    object.brokenStyle? = none ↔ ∀ style ∈ object.style?, '\n' ∉ style.toList := by
  simp only [brokenStyle?, Option.filter_eq_none_iff, List.contains_iff_mem, Option.mem_def]

theorem Document.unbrokenStyles_iff {d : Document} :
    d.UnbrokenStyles ↔ d.created DocumentObject.brokenStyle? 0 = [] := by
  rw [created, List.filterMap_eq_nil_iff]
  constructor
  · intro h slot _
    cases hentry : d.entries[slot]? with
    | none =>
      rw [object?, hentry]
      rfl
    | some entry =>
      rw [object?, hentry]
      exact DocumentObject.brokenStyle?_eq_none_iff.2 (h entry (Array.mem_of_getElem? hentry))
  · intro h entry hentry
    obtain ⟨slot, hslot⟩ := Array.getElem?_of_mem hentry
    have hobject : d.object? slot = some entry.value := by
      rw [object?, hslot]
      rfl
    have hnone := h slot (List.mem_range'_1.2 ⟨Nat.zero_le _, by
      have := lt_size_of_object? hobject
      omega⟩)
    rw [hobject] at hnone
    exact DocumentObject.brokenStyle?_eq_none_iff.1 hnone

/-! ## The styles that calls add -/

theorem Effect.objects_eq (effect : Effect) (context : Context) :
    effect.objects context = (effect.paragraphs context).map DocumentObject.paragraph ++
      (effect.inline?.map Inline.object).toList := by
  cases effect with
  | nothing => rfl
  | flag format => rfl
  | blocks before value after =>
    rw [paragraphs_blocks]
    exact (List.append_nil _).symm
  | content value => cases context <;> cases value <;> rfl

section Calls

variable {settings : ConversionSettings} {place : Location} {context : Context} {effect : Effect}
  {role : Role}

/-- The styles of paragraphs are the handlers' own. -/
theorem lineFeed_notMem_paragraphs (hrole : place.node.role? (usualRole? settings) = some role)
    (heffect : role.effect place context = .ok effect) :
    ∀ paragraph ∈ effect.paragraphs context, ∀ style ∈ paragraph.style, '\n' ∉ style.toList := by
  have hstyled {style : String} (h : '\n' ∉ style.toList) :
      ∀ other ∈ (styled style).style, '\n' ∉ other.toList :=
    fun other hother => Option.some.inj hother ▸ h
  have hblocks : ∀ paragraph ∈ role.blocks place, ∀ style ∈ paragraph.style,
      '\n' ∉ style.toList := by
    cases role with
    | heading =>
      obtain ⟨tag, htag, hkey⟩ := heading_of_role? hrole
      have hlevels : ∀ tag ∈ headingTags,
          '\n' ∉ ("Heading" ++ String.ofList (tag.toList.dropWhile fun c => !c.isDigit)).toList := by
        decide
      refine List.forall_mem_singleton.2 (hstyled ?_)
      rw [name?_of_key? hkey]
      exact hlevels tag htag
    | paragraph => exact List.forall_mem_singleton.2 nofun
    | horizontalRule => exact List.forall_mem_singleton.2 (hstyled (by decide))
    | listItem =>
      have hitem (position : ItemPosition) : ∀ style ∈ (itemParagraph position).style,
          '\n' ∉ style.toList := by
        rw [itemParagraph]
        cases position.kind <;> exact fun style hstyle => Option.some.inj hstyle ▸ by decide
      have hmarker {given : Bool} {style : String} (h : '\n' ∉ style.toList) :
          ∀ paragraph ∈ (if given then [styled style] else []), ∀ other ∈ paragraph.style,
            '\n' ∉ other.toList := by
        cases given with
        | true => exact List.forall_mem_singleton.2 (hstyled h)
        | false => exact fun _ h => absurd h List.not_mem_nil
      refine List.forall_mem_append.2 ⟨hmarker (by decide), List.forall_mem_cons.2 ⟨hitem _, ?_⟩⟩
      exact hmarker (by decide)
    | _ => exact fun _ h => absurd h List.not_mem_nil
  rcases paragraphs_of_effect heffect with heq | ⟨-, -, heq⟩
  · rw [heq]
    exact hblocks
  · rw [heq]
    exact List.forall_mem_singleton.2 nofun

/-- Only the handler of spans gives a run a style. -/
theorem style?_of_effect (heffect : role.effect place context = .ok effect) :
    (effect.inline?.bind fun value => value.object.style?) =
      match role with
      | .span reserved =>
        if place.node.isSpacer then none else Handler.spanStyle place.node reserved
      | _ => none := by
  cases Role.does_of_effect heffect with
  | run format _ => exact TextRun.style_apply {} format
  | spacer _ _ hspacer => exact (if_pos hspacer).symm
  | span _ _ hspacer => exact (if_neg hspacer).symm
  | _ => rfl

theorem style?_of_call (hrole : place.node.role? (usualRole? settings) = some role)
    (heffect : role.effect place context = .ok effect) :
    (effect.inline?.bind fun value => value.object.style?) =
      place.spanStyle? settings.reservedSpanClass := by
  rw [style?_of_effect heffect, Location.spanStyle?]
  by_cases hspan : place.node.isElement "span"
  · obtain rfl := Option.some.inj (hrole.symm.trans (role?_eq_span.2 hspan))
    rw [hspan, Bool.true_and]
    cases place.node.isSpacer <;> rfl
  · rw [Bool.eq_false_iff.2 hspan, Bool.false_and]
    cases role with
    | span reserved =>
      have honly : ∀ entry ∈ usualRoles settings, entry.2 = .span reserved →
          entry.1 = .element "span" := by
        simp [usualRoles]
      obtain ⟨key, hkey, hentry⟩ := mem_usualRoles_of_role? hrole
      obtain rfl := honly _ hentry rfl
      exact absurd (isElement_iff_key?.2 hkey) hspan
    | _ => rfl

/-- A call adds a broken style exactly where its place has one. -/
theorem brokenStyles_of_call (hrole : place.node.role? (usualRole? settings) = some role)
    (heffect : role.effect place context = .ok effect) :
    (effect.objects context).filterMap DocumentObject.brokenStyle? =
      ((place.spanStyle? settings.reservedSpanClass).filter fun style =>
        style.toList.contains '\n').toList := by
  have hparagraphs : ((effect.paragraphs context).map DocumentObject.paragraph).filterMap
      DocumentObject.brokenStyle? = [] := by
    rw [List.filterMap_map, List.filterMap_eq_nil_iff]
    exact fun paragraph hparagraph => DocumentObject.brokenStyle?_eq_none_iff.2
      (lineFeed_notMem_paragraphs hrole heffect paragraph hparagraph)
  rw [effect.objects_eq, List.filterMap_append, hparagraphs, List.nil_append,
    ← style?_of_call hrole heffect]
  cases effect.inline? with
  | none => rfl
  | some value =>
    change [value.object].filterMap DocumentObject.brokenStyle? = value.object.brokenStyle?.toList
    rw [List.filterMap_cons]
    cases value.object.brokenStyle? <;> rfl

end Calls

theorem brokenStyle?_apply (value : TextRun) (format : TextFormat) :
    (DocumentObject.run (value.apply format)).brokenStyle? =
      (DocumentObject.run value).brokenStyle? := by
  rw [DocumentObject.brokenStyle?, DocumentObject.style?, value.style_apply]
  rfl

/-- The broken styles that the places of a list add. -/
theorem brokenStyles_eq_nil_iff {reserved : Option String} {places : List Location} :
    (places.flatMap fun place => ((place.spanStyle? reserved).filter fun style =>
        style.toList.contains '\n').toList) = [] ↔
      ∀ style ∈ places.filterMap (Location.spanStyle? reserved), '\n' ∉ style.toList := by
  simp only [List.flatMap_eq_nil_iff, Option.toList_eq_nil_iff, Option.filter_eq_none_iff,
    List.contains_iff_mem, List.mem_filterMap]
  exact ⟨fun h style ⟨place, hplace, hstyle⟩ => h place hplace style hstyle,
    fun h place hplace style hstyle => h style ⟨place, hplace, hstyle⟩⟩

/-- **When an outline has one line for each object.** The outline of a document that a conversion
    by the usual handlers leaves is made of one text for each section, paragraph and inline object,
    in tree order, each indented by two spaces for each level and beginning with the keyword of its
    object. All of them are single lines if no span that begins a run has a class with a line feed
    in it, apart from the reserved one; and if the conversion has not failed, only then. -/
theorem outline_one_line_each_iff {settings : ConversionSettings} {root : Location}
    {d d' : Document} (hd : d.Reachable) (hstyles : d.UnbrokenStyles) {target : Target}
    {context : Context} (hresolve : d.resolve target = .ok context)
    {outcome : Except ConvertError Unit}
    (hinsert : (Conversion.insertInto ⟨.ofSettings settings, root⟩ target).runOn d =
      (outcome, d')) :
    let styles := root.descendants.filterMap (Location.spanStyle? settings.reservedSpanClass)
    d'.HasLines d'.outlineLines ∧
      (d'.descendants Document.rootSlot).Perm (List.range' 1 (d'.size - 1)) ∧
      ((∀ style ∈ styles, '\n' ∉ style.toList) → d'.OneLineEach) ∧
      (outcome = .ok () → d'.OneLineEach → ∀ style ∈ styles, '\n' ∉ style.toList) := by
  intro styles
  have hassembled := assembled_withDefaults settings
  have hwell : d'.WellFormed := (hd.insertInto hassembled hinsert).wellFormed
  have hnone : ∀ place : Location, place.node.role? (usualRole? settings) = none →
      ((place.spanStyle? settings.reservedSpanClass).filter fun style =>
        style.toList.contains '\n').toList = [] := by
    intro place hnone
    have hspan : place.node.isElement "span" = false := by
      refine Bool.eq_false_iff.2 fun hspan => ?_
      rw [role?_eq_span.2 hspan] at hnone
      exact absurd hnone nofun
    rw [Location.spanStyle?, hspan]
    rfl
  obtain ⟨hall, hpart⟩ := insertInto_created hassembled hd.wellFormed hresolve hinsert
    brokenStyle?_apply (fun _ _ _ _ => brokenStyles_of_call) hnone
  -- What was there has no broken style, so that all of them are of new objects.
  have hnew : d'.UnbrokenStyles ↔ d'.created DocumentObject.brokenStyle? d.size = [] := by
    obtain ⟨owner, calls, -, hrun, -, -⟩ :=
      insertInto_run hassembled hd.wellFormed hresolve hinsert
    rw [Document.unbrokenStyles_iff, hrun.created_from brokenStyle?_apply (Nat.zero_le _),
      hrun.created brokenStyle?_apply, Document.unbrokenStyles_iff.1 hstyles, List.nil_append]
  refine ⟨hwell.hasLines_outlineLines, ?_, fun hunbroken => ?_, fun hok heach => ?_⟩
  · rw [← hwell.shownSlots_eq_descendants]
    exact hwell.perm_shownSlots
  · rw [brokenStyles_eq_nil_iff.2 hunbroken] at hpart
    exact hwell.oneLineEach_iff.2 (hnew.2 (List.prefix_nil.1 hpart))
  · refine brokenStyles_eq_nil_iff.1 ?_
    rw [← hall hok]
    exact hnew.1 (hwell.oneLineEach_iff.1 heach)

/-- A span whose class looks like the end of a style. -/
theorem outline_one_line_each_iff_span :
    let d : Document := Document.empty.push 0 .sectionBlock
    let root : Location :=
      ⟨.branch .fragment [.branch (.element "span" [⟨"class", "a] b"⟩]) [.text "x"]], []⟩
    ∃ d', d.Reachable ∧ d.UnbrokenStyles ∧
      d.resolve (.intoSection ⟨1⟩) = .ok (.inSection ⟨1⟩) ∧
      (Conversion.insertInto ⟨.ofSettings {}, root⟩ (.intoSection ⟨1⟩)).runOn d = (.ok (), d') ∧
      d'.OneLineEach := by
  intro d root
  have hreachable : d.Reachable := .perform .addSection .empty rfl
  have hstyles : d.UnbrokenStyles := by decide
  have hresolve : d.resolve (.intoSection ⟨1⟩) = .ok (.inSection ⟨1⟩) := rfl
  have hinsert : (Conversion.insertInto ⟨.ofSettings {}, root⟩ (.intoSection ⟨1⟩)).runOn d =
      (.ok (), ((d.push 1 (.paragraph {})).push 2
        (.run { underline := some false, style := some "a] b" })).push 3 (.text "x")) := by
    decide +kernel
  have hspans : root.descendants.filterMap
      (Location.spanStyle? (some "style_color_0_0_0")) = ["a] b"] := by
    decide +kernel
  obtain ⟨-, -, heach, -⟩ := outline_one_line_each_iff hreachable hstyles hresolve hinsert
  refine ⟨_, hreachable, hstyles, hresolve, hinsert, heach ?_⟩
  rw [hspans]
  exact List.forall_mem_singleton.2 (by decide)

/-- A span whose class has a line feed in it: what stands after that looks like a section. -/
theorem outline_of_broken_class :
    let d : Document := Document.empty.push 0 .sectionBlock
    let root : Location :=
      ⟨.branch .fragment [.branch (.element "span" [⟨"class", "a\nsection"⟩]) [.text "x"]], []⟩
    ∃ d', d.Reachable ∧
      (Conversion.insertInto ⟨.ofSettings {}, root⟩ (.intoSection ⟨1⟩)).runOn d = (.ok (), d') ∧
      d'.outline = "section\n  paragraph\n    formatted underline=false [a\nsection]\n" ++
        "      text \"x\"\n" ∧
      ¬ d'.OneLineEach := by
  intro d root
  have hreachable : d.Reachable := .perform .addSection .empty rfl
  have hinsert : (Conversion.insertInto ⟨.ofSettings {}, root⟩ (.intoSection ⟨1⟩)).runOn d =
      (.ok (), ((d.push 1 (.paragraph {})).push 2
        (.run { underline := some false, style := some "a\nsection" })).push 3 (.text "x")) := by
    decide +kernel
  have hwell := (hreachable.insertInto (assembled_withDefaults {}) hinsert).wellFormed
  refine ⟨_, hreachable, hinsert, by decide +kernel, fun heach => ?_⟩
  exact absurd (hwell.oneLineEach_iff.1 heach) (by decide)

end Galley
