import Galley.Proofs.Conversion.UsualRoles

/-!
  The ways in which an insertion can fail.

  A target that does not name a container of its kind is refused before anything is done. After
  that, the usual handlers under whatever keys only ever refuse a place: every context that they
  are given is live, so no operation on the document fails. `error_of_effect` says which two
  handlers refuse, and where; `insertInto_failures` says what is left for the usual converter.
-/

namespace Galley

/-- The tags of headings. -/
def headingTags : List String := ["h1", "h2", "h3", "h4", "h5", "h6"]

/-! ## Targets that name no container -/

section Targets

variable {d : Document} {target : Target}

theorem read_of_kind?_none {kind : ObjectKind} {α : Type} {handle : Handle kind}
    {select : DocumentObject → Option α} (h : d.kind? handle.slot = none) :
    d.read handle select = .error (.missing kind) := by
  rw [Document.kind?, Option.map_eq_none_iff] at h
  rw [Document.read, h]

theorem read_of_other_kind {kind found : ObjectKind} {α : Type} {handle : Handle kind}
    {select : DocumentObject → Option α} (h : d.kind? handle.slot = some found)
    (hselect : ∀ object, object.kind = found → select object = none) :
    d.read handle select = .error (.kindMismatch kind found) := by
  obtain ⟨object, hobject, hkind⟩ := Document.kind?_eq_some_iff.1 h
  simp only [Document.read, hobject, hselect object hkind, hkind]

theorem resolve_of_kind?_none (h : d.kind? target.context.slot = none) :
    d.resolve target = .error (.missing target.context.kind) := by
  cases target with
  | intoSection id =>
    have hcheck : d.checkSection id = .error (.missing .sectionBlock) := read_of_kind?_none h
    rw [Document.resolve, hcheck]
    rfl
  | intoParagraph id =>
    have hparagraph : d.paragraph id = .error (.missing .paragraph) := read_of_kind?_none h
    rw [Document.resolve, hparagraph]
    rfl

theorem resolve_of_other_kind {found : ObjectKind} (h : d.kind? target.context.slot = some found)
    (hfound : found ≠ target.context.kind) :
    d.resolve target = .error (.kindMismatch target.context.kind found) := by
  cases target with
  | intoSection id =>
    have hcheck : d.checkSection id = .error (.kindMismatch .sectionBlock found) := by
      refine read_of_other_kind h fun object hkind => ?_
      cases object with
      | sectionBlock => exact absurd hkind.symm hfound
      | _ => rfl
    rw [Document.resolve, hcheck]
    rfl
  | intoParagraph id =>
    have hparagraph : d.paragraph id = .error (.kindMismatch .paragraph found) := by
      refine read_of_other_kind h fun object hkind => ?_
      cases object with
      | paragraph value => exact absurd hkind.symm hfound
      | _ => rfl
    rw [Document.resolve, hparagraph]
    rfl

theorem resolve_of_kind? (h : d.kind? target.context.slot = some target.context.kind) :
    d.resolve target = .ok target.context := by
  cases target with
  | intoSection id =>
    have hcheck : d.checkSection id = .ok () :=
      Document.checkSection_eq_ok.2 (Document.object?_of_kind?_section h)
    rw [Document.resolve, hcheck]
    rfl
  | intoParagraph id =>
    obtain ⟨value, hobject⟩ := Document.object?_of_kind?_paragraph h
    rw [Document.resolve, Document.paragraph_eq_ok.2 hobject]
    rfl

/-- A target that is refused leaves the document as it was. -/
theorem runOn_insertInto_of_refused {conversion : Conversion} {cause : DocumentError}
    (h : d.resolve target = .error cause) :
    (conversion.insertInto target).runOn d = (.error (.document cause), d) := by
  rw [Conversion.insertInto, Edit.runOn_bind, Edit.runOn_query, h]

/-- Where an insertion succeeds, its target is there. -/
theorem exists_resolve_of_insertInto {conversion : Conversion} {d' : Document}
    (h : (conversion.insertInto target).runOn d = (.ok (), d')) :
    ∃ context, d.resolve target = .ok context := by
  cases hresolve : d.resolve target with
  | ok context => exact ⟨context, rfl⟩
  | error cause =>
    rw [runOn_insertInto_of_refused hresolve] at h
    exact absurd (congrArg Prod.fst h) nofun

end Targets

/-! ## Places that are refused -/

section Refused

variable {place : Location} {context : Context} {role : Role} {cause : ConvertError}

/-- Only headings and list items refuse a context: a heading all but sections, or all contexts
    where its name has no digit; a list item those inside a paragraph. -/
theorem error_of_effect (h : role.effect place context = .error cause) :
    (role = .heading ∧ context.kind ≠ .sectionBlock ∧
        cause = unexpectedContext place .aSection context) ∨
      (role = .heading ∧ ((place.node.name?.getD "").toList.dropWhile fun c => !c.isDigit) = [] ∧
        cause = .invalidTag (place.node.name?.getD "") .noLevelDigit) ∨
      (role = .listItem ∧ (context.kind = .run ∨ context.kind = .hyperlink) ∧
        cause = unexpectedContext place .aSectionOrParagraph context) := by
  cases role with
  | heading =>
    cases context with
    | inSection id =>
      simp only [Role.effect, Role.headingEffect] at h
      split at h
      · next hlevel =>
        exact .inr (.inl ⟨rfl, List.isEmpty_iff.1 hlevel, (Except.error.inj h).symm⟩)
      · cases h
    | _ =>
      refine .inl ⟨rfl, fun hkind => ?_, (Except.error.inj h).symm⟩
      cases hkind
  | listItem =>
    cases context with
    | inRun id => exact .inr (.inr ⟨rfl, .inl rfl, (Except.error.inj h).symm⟩)
    | inHyperlink id => exact .inr (.inr ⟨rfl, .inr rfl, (Except.error.inj h).symm⟩)
    | _ => cases h
  | formattedText format => cases context <;> cases h
  | span reserved =>
    simp only [Role.effect] at h
    split at h <;> cases h
  | text =>
    simp only [Role.effect] at h
    split at h <;> cases h
  | _ => cases h

variable {settings : ConversionSettings}

theorem heading_of_role? (h : place.node.role? (usualRole? settings) = some .heading) :
    ∃ tag ∈ headingTags, place.node.key? = some (.element tag) := by
  have htags : ∀ entry ∈ usualRoles settings, entry.2 = .heading →
      ∃ tag ∈ headingTags, entry.1 = .element tag := by
    simp [usualRoles, headingTags]
  obtain ⟨key, hkey, hmem⟩ := mem_usualRoles_of_role? h
  obtain ⟨tag, htag, rfl⟩ := htags _ hmem rfl
  exact ⟨tag, htag, hkey⟩

/-- Every heading's name gives its level. -/
theorem level_ne_nil {tag : String} (htag : tag ∈ headingTags) :
    (tag.toList.dropWhile fun c => !c.isDigit) ≠ [] := by
  revert tag
  decide

theorem name?_of_key? {node : Node} {name : String} (h : node.key? = some (.element name)) :
    node.name? = some name :=
  beq_iff_eq.1 (isElement_iff_key?.2 h)

/-- What the usual handlers refuse: headings outside sections, and list items inside paragraphs. -/
theorem error_of_usual_effect (hrole : place.node.role? (usualRole? settings) = some role)
    (h : role.effect place context = .error cause) :
    (∃ tag ∈ headingTags, ∃ found, found ≠ .sectionBlock ∧
        cause = .unexpectedContext (some (.element tag)) .aSection found) ∨
      ∃ found, (found = .run ∨ found = .hyperlink) ∧
        cause = .unexpectedContext (some (.element "li")) .aSectionOrParagraph found := by
  rcases error_of_effect h with ⟨rfl, hfound, rfl⟩ | ⟨rfl, hlevel, -⟩ | ⟨rfl, hfound, rfl⟩
  · obtain ⟨tag, htag, hkey⟩ := heading_of_role? hrole
    refine .inl ⟨tag, htag, context.kind, hfound, ?_⟩
    rw [unexpectedContext, hkey]
  · obtain ⟨tag, htag, hkey⟩ := heading_of_role? hrole
    rw [name?_of_key? hkey] at hlevel
    exact absurd hlevel (level_ne_nil htag)
  · refine .inr ⟨context.kind, hfound, ?_⟩
    rw [unexpectedContext, isElement_iff_key?.1 (role?_eq_listItem.1 hrole)]

end Refused

/-- **Only these failures are possible.**

    A target that does not name a container of its kind is refused with the cause that says so,
    and the document stays as it was. For one that does, no registry of usual handlers, under
    whatever keys, makes an insertion fail in an operation on the document, for want of markup or
    for a handler that is there already. With the usual converter it fails only where the markup is
    too deep, at a heading outside sections, or at a list item inside a run or a link. -/
theorem insertInto_failures {d : Document} (hd : d.Reachable) (target : Target) :
    (∀ conversion : Conversion, d.kind? target.context.slot = none →
      (conversion.insertInto target).runOn d =
        (.error (.document (.missing target.context.kind)), d)) ∧
    (∀ (conversion : Conversion) found, d.kind? target.context.slot = some found →
      found ≠ target.context.kind →
      (conversion.insertInto target).runOn d =
        (.error (.document (.kindMismatch target.context.kind found)), d)) ∧
    (d.kind? target.context.slot = some target.context.kind →
      (∀ (conversion : Conversion) roles, conversion.converter.registry.Assembled roles →
        ∀ cause d', (conversion.insertInto target).runOn d = (.error cause, d') →
          (∀ inner, cause ≠ .document inner) ∧ cause ≠ .emptyMarkup ∧
            ∀ key, cause ≠ .duplicateHandler key) ∧
      (∀ settings root cause d',
        (Conversion.insertInto ⟨.ofSettings settings, root⟩ target).runOn d = (.error cause, d') →
          cause = .tooDeep settings.maxDepth ∨
          (∃ tag ∈ headingTags, ∃ found, found ≠ .sectionBlock ∧
            cause = .unexpectedContext (some (.element tag)) .aSection found) ∨
          ∃ found, (found = .run ∨ found = .hyperlink) ∧
            cause = .unexpectedContext (some (.element "li")) .aSectionOrParagraph found)) := by
  refine ⟨fun conversion hnone => ?_, fun conversion found hkind hfound => ?_, fun hkind => ?_⟩
  · exact runOn_insertInto_of_refused (resolve_of_kind?_none hnone)
  · exact runOn_insertInto_of_refused (resolve_of_other_kind hkind hfound)
  have hresolve := resolve_of_kind? hkind
  constructor
  · intro conversion roles hassembled cause d' hinsert
    obtain ⟨owner, done, answers, -, -, -, -, hcause⟩ :=
      insertInto_progress hassembled hd.wellFormed hresolve hinsert
    rcases hcause cause rfl with rfl | ⟨place, -, role, -, heffect⟩
    · exact ⟨nofun, nofun, nofun⟩
    · rcases error_of_effect heffect with ⟨-, -, rfl⟩ | ⟨-, -, rfl⟩ | ⟨-, -, rfl⟩
      all_goals exact ⟨nofun, nofun, nofun⟩
  · intro settings root cause d' hinsert
    obtain ⟨owner, done, answers, -, -, -, -, hcause⟩ :=
      insertInto_progress (assembled_withDefaults settings) hd.wellFormed hresolve hinsert
    rcases hcause cause rfl with hdeep | ⟨place, -, role, hrole, heffect⟩
    · exact .inl hdeep
    · exact .inr (error_of_usual_effect hrole heffect)

/-- A list item inside a run, and a target that is a section's handle on a paragraph. -/
theorem insertInto_failures_item_in_run :
    let d : Document := (Document.empty.push 0 .sectionBlock).push 1 (.paragraph {})
    let root : Location :=
      ⟨.branch .fragment
        [.branch (.element "strong" []) [.text "x", .branch (.element "li" []) []]], []⟩
    let conversion : Conversion := ⟨.ofSettings {}, root⟩
    ∃ cause d', d.Reachable ∧
      (conversion.insertInto (.intoSection ⟨1⟩)).runOn d = (.error cause, d') ∧
      (∀ inner, cause ≠ .document inner) ∧
      (conversion.insertInto (.intoSection ⟨2⟩)).runOn d =
        (.error (.document (.kindMismatch .sectionBlock .paragraph)), d) := by
  intro d root conversion
  have hreachable : d.Reachable :=
    .perform (.addParagraph ⟨1⟩) (.perform .addSection .empty rfl) rfl
  have hinsert : (conversion.insertInto (.intoSection ⟨1⟩)).runOn d =
      (.error (.unexpectedContext (some (.element "li")) .aSectionOrParagraph .run),
        (((d.push 1 (.paragraph {})).push 3 (.run (.ofFormat .bold))).push 4 (.text "x"))) := by
    decide +kernel
  obtain ⟨-, -, hresolved⟩ := insertInto_failures hreachable (.intoSection ⟨1⟩)
  obtain ⟨-, hmismatch, -⟩ := insertInto_failures hreachable (.intoSection ⟨2⟩)
  have hcause := (hresolved rfl).1 conversion _ (assembled_withDefaults {}) _ _ hinsert
  exact ⟨_, _, hreachable, hinsert, hcause.1, hmismatch conversion .paragraph rfl nofun⟩

end Galley
