import Galley.Proofs.Conversion.Progress

/-!
  Inserting markup never disturbs what a document holds.

  Whatever handlers are bound to whatever keys, a run of calls only adds to the section of its
  target, to the target itself and to what it has made (`Run.grownFrom`). So everything else
  reads as before, and the section and a target paragraph have their old content first
  (`insertInto_keeps_existing`), whether the insertion succeeds or fails.
-/

namespace Galley

namespace Run

variable {d : Document} {owner : SectionId} {target : Target}

/-- The containers that a run adds to are blocks. -/
theorem kind?_of_home (h : Live d owner target.context) {slot : Nat}
    (hhome : home owner target.context slot) :
    d.kind? slot = some .sectionBlock ∨ d.kind? slot = some .paragraph := by
  rcases hhome with rfl | rfl
  · exact .inl h.isSection
  · cases target with
    | intoSection id => exact .inl h.isKind
    | intoParagraph id => exact .inr h.isKind

theorem not_isInline_of_home (h : Live d owner target.context) (slot : Nat)
    (value : DocumentObject) (hhome : home owner target.context slot)
    (hobject : d.object? slot = some value) : ¬ value.kind.isInline := by
  have hkind := kind?_of_home h hhome
  rw [Document.kind?_of_object? hobject, Option.some.injEq, Option.some.injEq] at hkind
  rcases hkind with heq | heq
  · rw [heq]
    decide
  · rw [heq]
    decide

/-- The only section that a run adds to is the owner. -/
theorem eq_of_home (h : Live d owner target.context) (slot : Nat)
    (hhome : home owner target.context slot) (hkind : d.kind? slot = some .sectionBlock) :
    slot = owner.slot := by
  rcases hhome with rfl | rfl
  · rfl
  · rcases h.stands with heq | hstands
    · rw [heq]
      rfl
    · exact absurd hkind hstands.kind?_ne

/-- The only paragraph that a run adds to is the target. -/
theorem eq_intoParagraph_of_home (h : Live d owner target.context) {id : ParagraphId}
    (hhome : home owner target.context id.slot) (hkind : d.kind? id.slot = some .paragraph) :
    target = .intoParagraph id := by
  have hslot : id.slot = target.context.slot := by
    refine hhome.resolve_left fun heq => ?_
    rw [heq, h.isSection] at hkind
    exact absurd hkind (by decide)
  cases target with
  | intoSection other =>
    have hother : d.kind? id.slot = some .sectionBlock := by
      rw [hslot]
      exact h.isKind
    rw [hkind] at hother
    exact absurd hother (by decide)
  | intoParagraph other =>
    exact congrArg (fun slot => Target.intoParagraph ⟨slot⟩) hslot.symm

/-- A run adds to no paragraph of another section. -/
theorem not_home_of_mem_children (h : Live d owner target.context) (hd : d.WellFormed)
    {other : SectionId} (hother : d.kind? other.slot = some .sectionBlock) (hne : other ≠ owner)
    {slot : Nat} (hslot : slot ∈ d.children other.slot) : ¬ home owner target.context slot := by
  intro hhome
  have hparent := Document.parent?_of_mem_children hslot
  rcases kind?_of_home h hhome with hkind | hkind
  · have hholds := (hd.mayHold_of_parent? hparent hother hkind).2
    exact absurd hholds (by decide)
  · have htarget : target = .intoParagraph ⟨slot⟩ := eq_intoParagraph_of_home h hhome hkind
    subst htarget
    have howner : d.parent? slot = some owner.slot := h.parent?_of_inParagraph
    rw [hparent, Option.some.injEq] at howner
    apply hne
    exact congrArg Handle.mk howner

/-- The section of the target keeps its paragraphs, and gets all that are new after them. -/
theorem paragraphs_append {roles : TagKey → Option Role} {calls : List Call} {d' : Document}
    (hrun : Run roles owner target.context d calls d') (h : Live d owner target.context)
    (hd : d.Reachable) :
    ∃ old, d.paragraphs owner = .ok old ∧
      d'.paragraphs owner = .ok (old ++ d'.newParagraphs d.size) := by
  have hold := Document.paragraphs_eq_ok.2 ⟨Document.object?_of_kind?_section h.isSection, rfl⟩
  have hgrown := hrun.grownFrom target.context_ne_inRun
  have hwell := (hrun.reachable hd).wellFormed
  exact ⟨_, hold, hgrown.paragraphs_append hwell (eq_of_home h) hold⟩

end Run

/-- **Inserting markup keeps all that was there**, also where it fails midway.

    For every registry of usual handlers under whatever keys, and every target that resolves, the
    sections stay, every other section shows the same, and the section of the target has its old
    paragraphs first. Of these only a paragraph that is itself the target shows more: new content
    after its old one. Every object keeps what it carries, and its parent. -/
theorem insertInto_keeps_existing {conversion : Conversion} {roles : TagKey → Option Role}
    (hassembled : conversion.converter.registry.Assembled roles) {d d' : Document}
    (hd : d.Reachable) {target : Target} {context : Context}
    (hresolve : d.resolve target = .ok context) {outcome : Except ConvertError Unit}
    (hinsert : (conversion.insertInto target).runOn d = (outcome, d')) :
    ∃ owner old added,
      d.nearestSection context = .ok owner ∧
      d.paragraphs owner = .ok old ∧
      d'.sections = d.sections ∧
      (∀ (index : Nat) other, d.sections[index]? = some other → other ≠ owner →
        d'.view[index]? = d.view[index]?) ∧
      d'.paragraphs owner = .ok (old ++ added) ∧
      (∀ id ∈ old, target ≠ .intoParagraph id → d'.paragraphView id = d.paragraphView id) ∧
      (∀ id, target = .intoParagraph id → id ∈ old ∧ ∃ value content more,
        d.paragraphView id = .ok ⟨value, content⟩ ∧
        d'.paragraphView id = .ok ⟨value, content ++ more⟩) ∧
      (∀ slot < d.size, d'.object? slot = d.object? slot ∧ d'.parent? slot = d.parent? slot) := by
  have hwell := hd.wellFormed
  obtain ⟨owner, calls, hlive, hrun, -, -⟩ := insertInto_run hassembled hwell hresolve hinsert
  obtain ⟨rfl, -⟩ := live_of_resolve hwell hresolve
  have hgrown := hrun.grownFrom target.context_ne_inRun
  have hinline := Run.not_isInline_of_home hlive
  obtain ⟨old, hold, hnew⟩ := hrun.paragraphs_append hlive hd
  have hroot : ¬ Run.home owner target.context Document.rootSlot := by
    intro hhome
    have hkind := Run.kind?_of_home hlive hhome
    rw [Document.kind?_of_object? hwell.root] at hkind
    exact absurd hkind (by decide)
  have hsections := hgrown.sections_eq hwell.size_pos hroot
  refine ⟨owner, old, _, hlive.nearestSection, hold, hsections, ?_, hnew, ?_, ?_, ?_⟩
  · intro index other hother hne
    have hkind := Document.kind?_of_mem_sections (List.mem_of_getElem? hother)
    have hhome : ¬ Run.home owner target.context other.slot := by
      intro hhome
      exact hne (congrArg Handle.mk (Run.eq_of_home hlive _ hhome hkind))
    exact hgrown.view_getElem?_of_not_home hinline hsections hother hhome
      fun slot hslot => Run.not_home_of_mem_children hlive hwell hkind hne hslot
  · intro id hid hne
    rw [(Document.paragraphs_eq_ok.1 hold).2] at hid
    obtain ⟨slot, hslot, rfl⟩ := List.mem_map.1 hid
    obtain ⟨hchild, hparagraph⟩ := List.mem_filter.1 hslot
    have hlt := (Document.lt_of_mem_children hchild).2
    have hhome : ¬ Run.home owner target.context slot := by
      intro hhome
      exact hne (Run.eq_intoParagraph_of_home hlive hhome (beq_iff_eq.1 hparagraph))
    rw [Document.paragraphView_eq, Document.paragraphView_eq,
      hgrown.inlineViews_of_not_home hinline hlt hhome, Document.paragraph, Document.paragraph,
      Document.read, Document.read, hgrown.object?_of_lt hlt]
  · rintro id rfl
    obtain ⟨value, hobject⟩ := Document.object?_of_kind?_paragraph hlive.isKind
    obtain ⟨more, hmore⟩ :=
      hgrown.inlineViews_append hinline (Document.lt_size_of_object? hobject)
    have hchild := hwell.mem_children hlive.parent?_of_inParagraph hlive.isSection hlive.isKind
    have hmem : id.slot ∈ (d.children owner.slot).filter
        fun slot => d.kind? slot == some .paragraph :=
      List.mem_filter.2 ⟨hchild, beq_iff_eq.2 hlive.isKind⟩
    rw [(Document.paragraphs_eq_ok.1 hold).2]
    refine ⟨List.mem_map.2 ⟨id.slot, hmem, rfl⟩, value, d.inlineViews id.slot, more, ?_, ?_⟩
    · rw [Document.paragraphView_eq, Document.paragraph_eq_ok.2 hobject]
      rfl
    · rw [Document.paragraphView_eq,
        Document.paragraph_eq_ok.2 (hgrown.object?_eq _ _ hobject)]
      exact congrArg (fun content => Except.ok (ParagraphView.mk value content)) hmore
  · intro slot hslot
    exact ⟨hgrown.object?_of_lt hslot, hgrown.parent?_eq slot hslot⟩

/-- An insertion of `b<h1></h1>` that fails at the heading, into a paragraph that holds a text.
    The text stays, and what was added before the failure comes after it. -/
theorem insertInto_keeps_existing_text :
    let d : Document := ((Document.empty.push 0 .sectionBlock).push 1 (.paragraph {})).push 2
      (.text "a")
    let registry :=
      (Registry.empty.insert .text Handler.text).insert (.element "h1") Handler.heading
    let root : Location :=
      ⟨.branch .fragment [.text "b", .branch (.element "h1" []) []], []⟩
    ∃ cause d', d.Reachable ∧
      (Conversion.insertInto ⟨⟨registry, {}⟩, root⟩ (.intoParagraph ⟨2⟩)).runOn d =
        (.error cause, d') ∧
      d.paragraphView ⟨2⟩ = .ok ⟨{}, [.text "a"]⟩ ∧
      ∃ more, d'.paragraphView ⟨2⟩ = .ok ⟨{}, [.text "a"] ++ more⟩ := by
  intro d registry root
  have hreachable : d.Reachable :=
    .perform (.addText (.paragraph ⟨2⟩) "a")
      (.perform (.addParagraph ⟨1⟩) (.perform .addSection .empty rfl) rfl) rfl
  have hview : d.paragraphView ⟨2⟩ = .ok ⟨{}, [.text "a"]⟩ := by
    rw [Document.paragraphView_eq, Document.inlineViews_eq_filterMap]
    rfl
  have hassembled := (Registry.Assembled.empty.insert .text .text).insert (.element "h1") .heading
  have hinsert : (Conversion.insertInto ⟨⟨registry, {}⟩, root⟩ (.intoParagraph ⟨2⟩)).runOn d =
      (.error (.unexpectedContext (some (.element "h1")) .aSection .paragraph),
        d.push 2 (.text "b")) := by
    decide +kernel
  obtain ⟨owner, old, added, -, -, -, -, -, -, htarget, -⟩ :=
    insertInto_keeps_existing hassembled hreachable rfl hinsert
  obtain ⟨-, value, content, more, hold, hnew⟩ := htarget ⟨2⟩ rfl
  rw [hview] at hold
  obtain ⟨rfl, rfl⟩ := ParagraphView.mk.inj (Except.ok.inj hold)
  exact ⟨_, _, hreachable, hinsert, hview, more, hnew⟩

end Galley
