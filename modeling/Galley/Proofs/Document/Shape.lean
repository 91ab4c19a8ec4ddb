import Galley.Document.Lemmas

/-!
  The shape of a document, and that every sequence of operations keeps it.

  `WellFormed`: the root object stands in the first slot and has no owner; every other object
  has an owner in an earlier slot, of a kind that may hold it (`ObjectKind.mayHold`). An
  operation that succeeds is a `Step`: it adds one object at the end of one that may hold it, or
  changes one object in place and keeps its kind (`step_of_perform`). `Reachable.wellFormed`
  follows by induction over the operations.
-/

namespace Galley

/-- Whether objects of this kind stand in paragraphs. -/
def ObjectKind.isInline : ObjectKind → Bool
  | .run | .hyperlink | .lineBreak | .text => true
  | .document | .sectionBlock | .paragraph => false

/-- Which kinds of object may stand directly in an object of which kind. -/
def ObjectKind.mayHold : ObjectKind → ObjectKind → Bool
  | .document, inner => inner = .sectionBlock
  | .sectionBlock, inner => inner = .paragraph
  | .paragraph, inner | .run, inner | .hyperlink, inner => inner.isInline
  | .lineBreak, _ | .text, _ => false

namespace Document

/-- The shape that all documents have. -/
structure WellFormed (d : Document) : Prop where
  root : d.object? rootSlot = some .document
  ownerless : d.parent? rootSlot = none
  owned : ∀ slot value, slot ≠ rootSlot → d.object? slot = some value →
    ∃ owner above, d.parent? slot = some owner ∧ owner < slot ∧ d.object? owner = some above ∧
      above.kind.mayHold value.kind

variable {d d' : Document} {slot parent : Nat} {value before above : DocumentObject}

theorem lt_size_of_object? (h : d.object? slot = some value) : slot < d.size := by
  refine Nat.lt_of_not_le fun hle => ?_
  rw [object?_eq_none_iff.2 hle] at h
  exact absurd h (by simp)

theorem lt_size_of_parent? {owner : Nat} (h : d.parent? slot = some owner) : slot < d.size := by
  obtain ⟨entry, hentry, -⟩ := Option.bind_eq_some_iff.1 h
  exact (Array.getElem?_eq_some_iff.1 hentry).1

theorem object?_of_lt_size (h : slot < d.size) : ∃ value, d.object? slot = some value := by
  cases hobject : d.object? slot with
  | some value => exact ⟨value, rfl⟩
  | none =>
    have := object?_eq_none_iff.1 hobject
    omega

theorem size_le_of_object? {d' : Document} (h : ∀ slot value, d.object? slot = some value →
    ∃ value', d'.object? slot = some value') : d.size ≤ d'.size := by
  refine Nat.le_of_not_lt fun hlt => ?_
  obtain ⟨value, hobject⟩ := object?_of_lt_size hlt
  obtain ⟨value', hobject'⟩ := h _ value hobject
  have := lt_size_of_object? hobject'
  omega

theorem kind?_eq_some_iff {kind : ObjectKind} :
    d.kind? slot = some kind ↔ ∃ value, d.object? slot = some value ∧ value.kind = kind :=
  Option.map_eq_some_iff

theorem kind?_of_object? (h : d.object? slot = some value) : d.kind? slot = some value.kind := by
  rw [kind?, h]
  rfl

theorem lt_size_of_kind? {kind : ObjectKind} (h : d.kind? slot = some kind) : slot < d.size := by
  obtain ⟨object, hobject, -⟩ := kind?_eq_some_iff.1 h
  exact lt_size_of_object? hobject

theorem object?_of_kind?_section (h : d.kind? slot = some .sectionBlock) :
    d.object? slot = some .sectionBlock := by
  obtain ⟨object, hobject, hkind⟩ := kind?_eq_some_iff.1 h
  cases object with
  | sectionBlock => exact hobject
  | _ => exact absurd hkind nofun

theorem object?_of_kind?_paragraph (h : d.kind? slot = some .paragraph) :
    ∃ value, d.object? slot = some (.paragraph value) := by
  obtain ⟨object, hobject, hkind⟩ := kind?_eq_some_iff.1 h
  cases object with
  | paragraph value => exact ⟨value, hobject⟩
  | _ => exact absurd hkind nofun

theorem object?_of_kind?_run (h : d.kind? slot = some .run) :
    ∃ value, d.object? slot = some (.run value) := by
  obtain ⟨object, hobject, hkind⟩ := kind?_eq_some_iff.1 h
  cases object with
  | run value => exact ⟨value, hobject⟩
  | _ => exact absurd hkind nofun

theorem WellFormed.size_pos (h : d.WellFormed) : 0 < d.size :=
  lt_size_of_object? h.root

theorem parent?_of_mem_children {child : Nat} (h : child ∈ d.children slot) :
    d.parent? child = some slot :=
  beq_iff_eq.1 (List.mem_filter.1 h).2

theorem kind?_of_mem_sections {id : SectionId} (h : id ∈ d.sections) :
    d.kind? id.slot = some .sectionBlock := by
  obtain ⟨slot, hslot, rfl⟩ := List.mem_map.1 h
  exact beq_iff_eq.1 (List.mem_filter.1 hslot).2

theorem WellFormed.ne_rootSlot_of_parent? (h : d.WellFormed) {owner : Nat}
    (hparent : d.parent? slot = some owner) : slot ≠ rootSlot := by
  rintro rfl
  rw [h.ownerless] at hparent
  exact absurd hparent nofun

/-- An object stands in an earlier one that may hold it. -/
theorem WellFormed.mayHold_of_parent? (h : d.WellFormed) {owner : Nat} {outer inner : ObjectKind}
    (hparent : d.parent? slot = some owner) (houter : d.kind? owner = some outer)
    (hinner : d.kind? slot = some inner) : owner < slot ∧ outer.mayHold inner := by
  have hslot := h.ne_rootSlot_of_parent? hparent
  obtain ⟨value, hobject, rfl⟩ := kind?_eq_some_iff.1 hinner
  obtain ⟨owner', above, howner, hlt, habove, hholds⟩ := h.owned slot value hslot hobject
  obtain rfl := Option.some.inj (hparent.symm.trans howner)
  rw [kind?_of_object? habove, Option.some.injEq] at houter
  exact ⟨hlt, houter ▸ hholds⟩

theorem WellFormed.lt_of_parent? (h : d.WellFormed) {owner : Nat}
    (hparent : d.parent? slot = some owner) : owner < slot := by
  have hslot := h.ne_rootSlot_of_parent? hparent
  obtain ⟨value, hobject⟩ := object?_of_lt_size (lt_size_of_parent? hparent)
  obtain ⟨owner', above, howner, hlt, -, -⟩ := h.owned slot value hslot hobject
  rw [Option.some.inj (hparent.symm.trans howner)]
  exact hlt

/-- An object is a child of its parent. -/
theorem WellFormed.mem_children (h : d.WellFormed) {owner : Nat} {outer inner : ObjectKind}
    (hparent : d.parent? slot = some owner) (houter : d.kind? owner = some outer)
    (hinner : d.kind? slot = some inner) : slot ∈ d.children owner := by
  have hlt := (h.mayHold_of_parent? hparent houter hinner).1
  have hsize := lt_size_of_parent? hparent
  refine List.mem_filter.2 ⟨?_, beq_iff_eq.2 hparent⟩
  rw [List.mem_range'_1]
  omega

/-- All but the root stand in something. -/
theorem WellFormed.exists_owner (h : d.WellFormed) {inner : ObjectKind}
    (hkind : d.kind? slot = some inner) (hne : inner ≠ .document) :
    ∃ owner outer, d.parent? slot = some owner ∧ owner < slot ∧ d.kind? owner = some outer ∧
      outer.mayHold inner := by
  obtain ⟨value, hobject, rfl⟩ := kind?_eq_some_iff.1 hkind
  have hslot : slot ≠ rootSlot := by
    rintro rfl
    rw [h.root] at hobject
    rw [← Option.some.inj hobject] at hne
    exact hne rfl
  obtain ⟨owner, above, howner, hlt, habove, hholds⟩ := h.owned slot value hslot hobject
  exact ⟨owner, above.kind, howner, hlt, kind?_of_object? habove, hholds⟩

/-- Paragraphs stand in sections. -/
theorem WellFormed.section_of_paragraph (h : d.WellFormed)
    (hkind : d.kind? slot = some .paragraph) :
    ∃ owner, d.parent? slot = some owner ∧ d.kind? owner = some .sectionBlock := by
  obtain ⟨owner, outer, howner, -, houter, hholds⟩ := h.exists_owner hkind (by decide)
  have hsection : outer = .sectionBlock := by
    revert hholds
    cases outer <;> decide
  rw [hsection] at houter
  exact ⟨owner, howner, houter⟩

theorem wellFormed_empty : empty.WellFormed where
  root := rfl
  ownerless := rfl
  owned := fun slot value hslot hobject => by
    have hlt : slot < 1 := lt_size_of_object? hobject
    exact absurd (by unfold rootSlot; omega) hslot

/-! ## The two ways to change a document -/

/-- One change: an object is added at the end of one that may hold it, or one is changed in place
    and keeps its kind. -/
inductive Step (d : Document) : Document → Prop where
  | added {parent : Nat} {above value : DocumentObject} (hparent : d.object? parent = some above)
      (hholds : above.kind.mayHold value.kind) : Step d (d.push parent value)
  | changed {slot : Nat} {before value : DocumentObject} (hslot : d.object? slot = some before)
      (hkind : value.kind = before.kind) : Step d (d.put slot value)

theorem object?_push_of_some {slot' : Nat} {value' : DocumentObject}
    (h : d.object? slot' = some value') : (d.push parent value).object? slot' = some value' := by
  rw [object?_push, if_neg, h]
  have := lt_size_of_object? h
  omega

theorem object?_put_self (h : d.object? slot = some before) :
    (d.put slot value).object? slot = some value := by
  rw [object?_put, if_pos rfl, h]
  rfl

theorem object?_put_of_ne {other : Nat} (h : other ≠ slot) :
    (d.put slot value).object? other = d.object? other := by
  rw [object?_put, if_neg h]

/-- Changing an object in place keeps all kinds where it keeps its own. -/
theorem kind?_put (hslot : d.object? slot = some before) (hkind : value.kind = before.kind)
    (other : Nat) : (d.put slot value).kind? other = d.kind? other := by
  by_cases h : other = slot
  · rw [h, kind?_of_object? (object?_put_self hslot), kind?_of_object? hslot, hkind]
  · rw [kind?, kind?, object?_put_of_ne h]

theorem WellFormed.push (h : d.WellFormed) (hparent : d.object? parent = some above)
    (hholds : above.kind.mayHold value.kind) : (d.push parent value).WellFormed where
  root := object?_push_of_some h.root
  ownerless := by
    have := h.size_pos
    rw [parent?_push, if_neg (by unfold rootSlot; omega)]
    exact h.ownerless
  owned := fun slot value' hslot hobject => by
    rw [object?_push] at hobject
    rw [parent?_push]
    by_cases hlast : slot = d.size
    · rw [if_pos hlast] at hobject ⊢
      have hlt := lt_size_of_object? hparent
      exact ⟨parent, above, rfl, by omega, object?_push_of_some hparent,
        Option.some.inj hobject ▸ hholds⟩
    · rw [if_neg hlast] at hobject ⊢
      obtain ⟨owner, above', howner, hlt, habove, hholds'⟩ := h.owned slot value' hslot hobject
      exact ⟨owner, above', howner, hlt, object?_push_of_some habove, hholds'⟩

theorem WellFormed.put (h : d.WellFormed) (hslot : d.object? slot = some before)
    (hkind : value.kind = before.kind) : (d.put slot value).WellFormed where
  root := by
    have hroot : (d.put slot value).kind? rootSlot = some .document := by
      rw [kind?_put hslot hkind, kind?_of_object? h.root]
      rfl
    obtain ⟨root, hobject, hdocument⟩ := kind?_eq_some_iff.1 hroot
    rw [hobject]
    cases root <;> first | rfl | exact absurd hdocument (by simp [DocumentObject.kind])
  ownerless := by
    rw [parent?_put]
    exact h.ownerless
  owned := fun other value' hother hobject => by
    have hkinds := kind?_of_object? hobject
    rw [kind?_put hslot hkind] at hkinds
    obtain ⟨value₀, hobject₀, hkind₀⟩ := kind?_eq_some_iff.1 hkinds
    obtain ⟨owner, above', howner, hlt, habove, hholds⟩ := h.owned other value₀ hother hobject₀
    have habove' := kind?_of_object? habove
    rw [← kind?_put hslot hkind] at habove'
    obtain ⟨above'', hobject', hkind'⟩ := kind?_eq_some_iff.1 habove'
    exact ⟨owner, above'', by rw [parent?_put, howner], hlt, hobject', by
      rw [hkind', ← hkind₀]
      exact hholds⟩

theorem WellFormed.step (h : d.WellFormed) (hstep : Step d d') : d'.WellFormed := by
  cases hstep with
  | added hparent hholds => exact h.push hparent hholds
  | changed hslot hkind => exact h.put hslot hkind

/-! ## When operations succeed -/

theorem addChild_eq_ok {kind : ObjectKind} {result : Nat × Document} :
    d.addChild kind slot value = .ok result ↔
      d.kind? slot = some kind ∧ result = (d.size, d.push slot value) := by
  unfold addChild
  cases hkind : d.kind? slot with
  | none => simp
  | some found =>
    by_cases h : found = kind
    · simp [h, eq_comm]
    · simp [h]

/-- Adding to a container of the kind that the handle says. -/
theorem addChild_of_kind? {kind : ObjectKind} (h : d.kind? slot = some kind) :
    d.addChild kind slot value = .ok (d.size, d.push slot value) :=
  addChild_eq_ok.2 ⟨h, rfl⟩

theorem read_eq_ok {kind : ObjectKind} {α : Type} {handle : Handle kind}
    {select : DocumentObject → Option α} {result : α} :
    d.read handle select = .ok result ↔
      ∃ object, d.object? handle.slot = some object ∧ select object = some result := by
  unfold read
  cases d.object? handle.slot with
  | none => simp
  | some object => cases hselect : select object <;> simp [hselect]

theorem paragraph_eq_ok {id : ParagraphId} {paragraph : Paragraph} :
    d.paragraph id = .ok paragraph ↔ d.object? id.slot = some (.paragraph paragraph) := by
  rw [Document.paragraph, read_eq_ok]
  constructor
  · rintro ⟨object, hobject, hselect⟩
    cases object <;> simp_all
  · intro h
    exact ⟨_, h, rfl⟩

theorem run_eq_ok {id : RunId} {run : TextRun} :
    d.run id = .ok run ↔ d.object? id.slot = some (.run run) := by
  rw [Document.run, read_eq_ok]
  constructor
  · rintro ⟨object, hobject, hselect⟩
    cases object <;> simp_all
  · intro h
    exact ⟨_, h, rfl⟩

theorem checkSection_eq_ok {id : SectionId} {result : Unit} :
    d.checkSection id = .ok result ↔ d.object? id.slot = some .sectionBlock := by
  rw [checkSection, read_eq_ok]
  constructor
  · rintro ⟨object, hobject, hselect⟩
    cases object <;> simp_all
  · intro h
    exact ⟨_, h, rfl⟩

theorem updateParagraph_eq_ok {id : ParagraphId} {f : Paragraph → Paragraph} :
    d.updateParagraph id f = .ok d' ↔
      ∃ paragraph, d.object? id.slot = some (.paragraph paragraph) ∧
        d' = d.put id.slot (.paragraph (f paragraph)) := by
  unfold updateParagraph
  cases hread : d.paragraph id with
  | error cause =>
    simp only [bind, Except.bind, reduceCtorEq, false_iff, not_exists, not_and]
    intro paragraph hobject
    rw [← paragraph_eq_ok, hread] at hobject
    exact absurd hobject (by simp)
  | ok paragraph =>
    rw [paragraph_eq_ok] at hread
    simp [bind, Except.bind, pure, Except.pure, hread, eq_comm]

theorem updateRun_eq_ok {id : RunId} {f : TextRun → TextRun} :
    d.updateRun id f = .ok d' ↔
      ∃ run, d.object? id.slot = some (.run run) ∧ d' = d.put id.slot (.run (f run)) := by
  unfold updateRun
  cases hread : d.run id with
  | error cause =>
    simp only [bind, Except.bind, reduceCtorEq, false_iff, not_exists, not_and]
    intro run hobject
    rw [← run_eq_ok, hread] at hobject
    exact absurd hobject (by simp)
  | ok run =>
    rw [run_eq_ok] at hread
    simp [bind, Except.bind, pure, Except.pure, hread, eq_comm]

/-! The adding operations are `addChild` with the slot made a handle, or left out. -/

theorem except_map_map {ε α β γ : Type} (x : Except ε α) (f : α → β) (g : β → γ) :
    (x.map f).map g = x.map fun value => g (f value) := by
  cases x <;> rfl

theorem addParagraph_eq (d : Document) (id : SectionId) :
    d.addParagraph id =
      (d.addChild .sectionBlock id.slot (.paragraph {})).map fun added => (⟨added.1⟩, added.2) := by
  unfold addParagraph
  cases d.addChild .sectionBlock id.slot (.paragraph {}) <;> rfl

theorem addText_eq (d : Document) (parent : InlineParent) (text : String) :
    d.addText parent text = (d.addChild parent.kind parent.slot (.text text)).map Prod.snd := by
  unfold addText
  cases d.addChild parent.kind parent.slot (.text text) <;> rfl

theorem addLineBreak_eq (d : Document) (parent : InlineParent) :
    d.addLineBreak parent = (d.addChild parent.kind parent.slot .lineBreak).map Prod.snd := by
  unfold addLineBreak
  cases d.addChild parent.kind parent.slot .lineBreak <;> rfl

theorem addRun_eq (d : Document) (parent : InlineParent) (format : TextFormat) :
    d.addRun parent format =
      (d.addChild parent.kind parent.slot (.run (.ofFormat format))).map fun added =>
        (⟨added.1⟩, added.2) := by
  unfold addRun
  cases d.addChild parent.kind parent.slot (.run (.ofFormat format)) <;> rfl

theorem addHyperlink_eq (d : Document) (parent : InlineParent) (link : Hyperlink) :
    d.addHyperlink parent link =
      (d.addChild parent.kind parent.slot (.hyperlink link)).map fun added =>
        (⟨added.1⟩, added.2) := by
  unfold addHyperlink
  cases d.addChild parent.kind parent.slot (.hyperlink link) <;> rfl

end Document

/-! ## Reachable documents -/

/-- The operations that change a document, with all they are given. -/
inductive Operation where
  | addSection
  | addParagraph (owner : SectionId)
  | updateParagraph (id : ParagraphId) (f : Paragraph → Paragraph)
  | setStyle (id : ParagraphId) (style : String)
  | addText (parent : InlineParent) (text : String)
  | addLineBreak (parent : InlineParent)
  | addRun (parent : InlineParent) (format : TextFormat)
  | updateRun (id : RunId) (f : TextRun → TextRun)
  | applyFormat (id : RunId) (format : TextFormat)
  | addHyperlink (parent : InlineParent) (link : Hyperlink)

/-- The document after an operation, if it succeeds. -/
def Operation.perform (d : Document) : Operation → Except DocumentError Document
  | addSection => .ok d.addSection.2
  | addParagraph owner => (d.addParagraph owner).map Prod.snd
  | updateParagraph id f => d.updateParagraph id f
  | setStyle id style => d.setStyle id style
  | addText parent text => d.addText parent text
  | addLineBreak parent => d.addLineBreak parent
  | addRun parent format => (d.addRun parent format).map Prod.snd
  | updateRun id f => d.updateRun id f
  | applyFormat id format => d.applyFormat id format
  | addHyperlink parent link => (d.addHyperlink parent link).map Prod.snd

/-- An inline object may stand in whatever an inline parent names. -/
theorem InlineParent.mayHold_kind (parent : InlineParent) {kind : ObjectKind}
    (h : kind.isInline) : parent.kind.mayHold kind := by
  cases parent <;> exact h

namespace Document

/-- The documents that operations make out of the empty one, whatever handles they are given. -/
inductive Reachable : Document → Prop where
  | empty : Reachable .empty
  | perform {d d' : Document} (operation : Operation) (h : Reachable d)
      (hperform : operation.perform d = .ok d') : Reachable d'

variable {d d' : Document} {slot : Nat} {value : DocumentObject}

/-- An operation that is `addChild`, whatever it makes of the slot, adds one object. -/
theorem step_of_addChild {kind : ObjectKind} {f : Nat × Document → Document}
    (h : (d.addChild kind slot value).map f = .ok d') (hf : ∀ added, f added = added.2)
    (hholds : kind.mayHold value.kind) : Step d d' := by
  cases hadd : d.addChild kind slot value with
  | error cause => rw [hadd] at h; exact absurd h (by simp [Except.map])
  | ok added =>
    obtain ⟨hkind, rfl⟩ := addChild_eq_ok.1 hadd
    obtain ⟨above, habove, rfl⟩ := kind?_eq_some_iff.1 hkind
    rw [hadd] at h
    obtain rfl := Except.ok.inj h
    rw [hf]
    exact .added habove hholds

theorem step_of_updateParagraph {id : ParagraphId} {f : Paragraph → Paragraph}
    (h : d.updateParagraph id f = .ok d') : Step d d' := by
  obtain ⟨paragraph, hobject, rfl⟩ := updateParagraph_eq_ok.1 h
  exact .changed hobject rfl

theorem step_of_updateRun {id : RunId} {f : TextRun → TextRun}
    (h : d.updateRun id f = .ok d') : Step d d' := by
  obtain ⟨run, hobject, rfl⟩ := updateRun_eq_ok.1 h
  exact .changed hobject rfl

/-- An operation that succeeds makes one change. -/
theorem step_of_perform (hd : d.WellFormed) {operation : Operation}
    (h : operation.perform d = .ok d') : Step d d' := by
  cases operation with
  | addSection =>
    obtain rfl := Except.ok.inj h
    exact .added hd.root rfl
  | addParagraph owner =>
    rw [Operation.perform, addParagraph_eq, except_map_map] at h
    exact step_of_addChild h (fun _ => rfl) rfl
  | updateParagraph id f => exact step_of_updateParagraph h
  | setStyle id style =>
    simp only [Operation.perform, Document.setStyle] at h
    split at h
    · exact absurd h (by simp)
    · exact step_of_updateParagraph h
  | addText parent text =>
    rw [Operation.perform, addText_eq] at h
    exact step_of_addChild h (fun _ => rfl) (parent.mayHold_kind (rfl : ObjectKind.text.isInline))
  | addLineBreak parent =>
    rw [Operation.perform, addLineBreak_eq] at h
    exact step_of_addChild h (fun _ => rfl)
      (parent.mayHold_kind (rfl : ObjectKind.lineBreak.isInline))
  | addRun parent format =>
    rw [Operation.perform, addRun_eq, except_map_map] at h
    exact step_of_addChild h (fun _ => rfl) (parent.mayHold_kind (rfl : ObjectKind.run.isInline))
  | updateRun id f => exact step_of_updateRun h
  | applyFormat id format => exact step_of_updateRun h
  | addHyperlink parent link =>
    rw [Operation.perform, addHyperlink_eq, except_map_map] at h
    exact step_of_addChild h (fun _ => rfl)
      (parent.mayHold_kind (rfl : ObjectKind.hyperlink.isInline))

theorem Reachable.wellFormed (h : d.Reachable) : d.WellFormed := by
  induction h with
  | empty => exact wellFormed_empty
  | perform operation _ hperform ih => exact ih.step (step_of_perform ih hperform)

end Document

end Galley
