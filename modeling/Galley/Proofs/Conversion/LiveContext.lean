import Galley.Conversion.Converter
import Galley.Proofs.Document.Growth

/-!
  Live contexts: those that stand in one section of the document they are used on.

  `Live d owner context` says that the context names an object of its kind, and that this object
  is the section `owner` or stands in it, at any depth (`StandsIn`). In a live context all that a
  handler asks for is there (`Live.nearestSection`). A context that a target resolves to is live
  (`live_of_resolve`), and stays so while the document keeps its shape (`Live.of_keepsShape`).
-/

namespace Galley

namespace Document

variable {d d' d'' : Document} {slot parent : Nat} {value before above : DocumentObject}

/-! ## Keeping the shape -/

/-- All objects keep their kind and their parent. -/
structure KeepsShape (d d' : Document) : Prop where
  kind?_eq : ∀ slot kind, d.kind? slot = some kind → d'.kind? slot = some kind
  parent?_eq : ∀ slot owner, d.parent? slot = some owner → d'.parent? slot = some owner

theorem KeepsShape.refl (d : Document) : KeepsShape d d :=
  ⟨fun _ _ h => h, fun _ _ h => h⟩

theorem KeepsShape.trans (h : KeepsShape d d') (h' : KeepsShape d' d'') : KeepsShape d d'' :=
  ⟨fun slot kind hkind => h'.kind?_eq slot kind (h.kind?_eq slot kind hkind),
    fun slot owner hparent => h'.parent?_eq slot owner (h.parent?_eq slot owner hparent)⟩

theorem KeepsShape.size_le (h : KeepsShape d d') : d.size ≤ d'.size := by
  refine size_le_of_object? fun slot value hobject => ?_
  have hkind := h.kind?_eq slot value.kind (kind?_of_object? hobject)
  obtain ⟨value', hobject', -⟩ := kind?_eq_some_iff.1 hkind
  exact ⟨value', hobject'⟩

theorem keepsShape_push (d : Document) (parent : Nat) (value : DocumentObject) :
    KeepsShape d (d.push parent value) where
  kind?_eq := fun slot kind hkind => by
    obtain ⟨value', hobject, rfl⟩ := kind?_eq_some_iff.1 hkind
    exact kind?_of_object? (object?_push_of_some hobject)
  parent?_eq := fun slot owner hparent => by
    have hlt := lt_size_of_parent? hparent
    rw [parent?_push, if_neg (by omega)]
    exact hparent

theorem keepsShape_put (hslot : d.object? slot = some before) (hkind : value.kind = before.kind) :
    KeepsShape d (d.put slot value) where
  kind?_eq := fun other kind h => by
    rw [kind?_put hslot hkind]
    exact h
  parent?_eq := fun other owner h => by
    rw [parent?_put]
    exact h

/-- All objects keep their kind and their parent, and all but runs what they carry. -/
structure Keeps (d d' : Document) : Prop extends KeepsShape d d' where
  object?_eq : ∀ slot value, d.object? slot = some value → value.kind ≠ .run →
    d'.object? slot = some value

theorem Keeps.refl (d : Document) : Keeps d d :=
  ⟨.refl d, fun _ _ h _ => h⟩

theorem Keeps.trans (h : Keeps d d') (h' : Keeps d' d'') : Keeps d d'' :=
  ⟨h.toKeepsShape.trans h'.toKeepsShape, fun slot value hobject hvalue =>
    h'.object?_eq slot value (h.object?_eq slot value hobject hvalue) hvalue⟩

theorem keeps_push (d : Document) (parent : Nat) (value : DocumentObject) :
    Keeps d (d.push parent value) :=
  ⟨keepsShape_push d parent value, fun _ _ h _ => object?_push_of_some h⟩

theorem keeps_pushAll (d : Document) (additions : List (Nat × DocumentObject)) :
    Keeps d (d.pushAll additions) := by
  induction additions generalizing d with
  | nil => exact .refl d
  | cons addition additions ih => exact (keeps_push d _ _).trans (ih _)

/-- A run may be changed. -/
theorem keeps_put_run {before value : TextRun} (hslot : d.object? slot = some (.run before)) :
    Keeps d (d.put slot (.run value)) := by
  refine ⟨keepsShape_put hslot rfl, fun other value' hobject hvalue => ?_⟩
  have hne : other ≠ slot := by
    rintro rfl
    rw [hslot] at hobject
    exact hvalue (Option.some.inj hobject ▸ rfl)
  rw [object?_put_of_ne hne, hobject]

/-! ## The paragraph around an object -/

/-- The paragraph that an object is or that owns it, at any depth. -/
def paragraphAt? (d : Document) (slot : Nat) : Option Nat :=
  (slot :: d.ancestors slot).find? fun above => d.kind? above == some .paragraph

theorem ancestors_of_parent? (hparent : d.parent? slot = some parent) (hlt : parent < slot) :
    d.ancestors slot = parent :: d.ancestors parent := by
  rw [ancestors, hparent]
  exact if_pos hlt

theorem paragraphAt?_of_paragraph (h : d.kind? slot = some .paragraph) :
    d.paragraphAt? slot = some slot := by
  rw [paragraphAt?, List.find?_cons, h, beq_self_eq_true]

theorem paragraphAt?_of_inline {kind : ObjectKind} (hkind : d.kind? slot = some kind)
    (hinline : kind.isInline) (hparent : d.parent? slot = some parent) (hlt : parent < slot) :
    d.paragraphAt? slot = d.paragraphAt? parent := by
  have hne : (d.kind? slot == some .paragraph) = false := by
    rw [hkind, beq_eq_false_iff_ne]
    intro heq
    rw [Option.some.inj heq] at hinline
    exact absurd hinline (by decide)
  rw [paragraphAt?, List.find?_cons, hne, ancestors_of_parent? hparent hlt]
  rfl

/-- Owners stay owners. -/
theorem KeepsShape.mem_ancestors (h : KeepsShape d d') {above : Nat}
    (habove : above ∈ d.ancestors slot) : above ∈ d'.ancestors slot := by
  induction slot using Nat.strongRecOn with
  | ind slot ih =>
    rw [ancestors] at habove
    split at habove
    · next owner howner =>
      split at habove
      · next hlt =>
        rw [ancestors_of_parent? (h.parent?_eq _ _ howner) hlt]
        rcases List.mem_cons.1 habove with rfl | habove
        · exact List.mem_cons_self
        · exact List.mem_cons_of_mem _ (ih owner hlt habove)
      · exact absurd habove List.not_mem_nil
    · exact absurd habove List.not_mem_nil

/-! ## Standing in a section -/

/-- The object in a slot is a paragraph of the owner, or inline content of one at any depth. -/
inductive StandsIn (d : Document) (owner : Nat) : Nat → Prop where
  | block {slot : Nat} (hkind : d.kind? slot = some .paragraph)
      (hparent : d.parent? slot = some owner) : StandsIn d owner slot
  | inside {slot parent : Nat} {kind : ObjectKind} (hkind : d.kind? slot = some kind)
      (hinline : kind.isInline) (hparent : d.parent? slot = some parent) (hlt : parent < slot)
      (hstands : StandsIn d owner parent) : StandsIn d owner slot

namespace StandsIn

variable {owner : Nat}

theorem of_keepsShape (h : d.StandsIn owner slot) (hkeeps : KeepsShape d d') :
    d'.StandsIn owner slot := by
  induction h with
  | block hkind hparent =>
    exact .block (hkeeps.kind?_eq _ _ hkind) (hkeeps.parent?_eq _ _ hparent)
  | inside hkind hinline hparent hlt _ ih =>
    exact .inside (hkeeps.kind?_eq _ _ hkind) hinline (hkeeps.parent?_eq _ _ hparent) hlt ih

theorem kind?_ne (h : d.StandsIn owner slot) : d.kind? slot ≠ some .sectionBlock := by
  cases h with
  | block hkind _ =>
    rw [hkind]
    decide
  | inside hkind hinline _ _ _ =>
    rw [hkind]
    intro heq
    rw [Option.some.inj heq] at hinline
    exact absurd hinline (by decide)

/-- A paragraph stands in its parent. -/
theorem parent?_of_paragraph (h : d.StandsIn owner slot) (hkind : d.kind? slot = some .paragraph) :
    d.parent? slot = some owner := by
  cases h with
  | block _ hparent => exact hparent
  | inside hkind' hinline _ _ _ =>
    rw [hkind, Option.some.injEq] at hkind'
    subst hkind'
    exact absurd hinline (by decide)

/-- The paragraph around an object that stands in a section is one of that section. -/
theorem exists_paragraph (h : d.StandsIn owner slot) :
    ∃ paragraph, d.paragraphAt? slot = some paragraph ∧ d.kind? paragraph = some .paragraph ∧
      d.parent? paragraph = some owner := by
  induction h with
  | @block slot hkind hparent => exact ⟨slot, paragraphAt?_of_paragraph hkind, hkind, hparent⟩
  | @inside slot parent kind hkind hinline hparent hlt _ ih =>
    rw [paragraphAt?_of_inline hkind hinline hparent hlt]
    exact ih

/-- It stays around the object. -/
theorem paragraphAt?_eq (h : d.StandsIn owner slot) (hkeeps : KeepsShape d d') :
    d'.paragraphAt? slot = d.paragraphAt? slot := by
  induction h with
  | @block slot hkind _ =>
    rw [paragraphAt?_of_paragraph hkind, paragraphAt?_of_paragraph (hkeeps.kind?_eq _ _ hkind)]
  | @inside slot parent kind hkind hinline hparent hlt _ ih =>
    rw [paragraphAt?_of_inline hkind hinline hparent hlt, ← ih]
    exact paragraphAt?_of_inline (hkeeps.kind?_eq _ _ hkind) hinline
      (hkeeps.parent?_eq _ _ hparent) hlt

end StandsIn

end Document

/-! ## Live contexts -/

/-- The context names an object of its kind, which is the section `owner` or stands in it. -/
structure Live (d : Document) (owner : SectionId) (context : Context) : Prop where
  isKind : d.kind? context.slot = some context.kind
  isSection : d.kind? owner.slot = some .sectionBlock
  stands : context = .inSection owner ∨ d.StandsIn owner.slot context.slot

namespace Live

variable {d d' : Document} {owner : SectionId} {context : Context}

theorem of_keepsShape (h : Live d owner context) (hkeeps : d.KeepsShape d') :
    Live d' owner context where
  isKind := hkeeps.kind?_eq _ _ h.isKind
  isSection := hkeeps.kind?_eq _ _ h.isSection
  stands := h.stands.imp id fun hstands => hstands.of_keepsShape hkeeps

theorem slot_lt (h : Live d owner context) : context.slot < d.size :=
  Document.lt_size_of_kind? h.isKind

/-- The only section that is live is the owner itself. -/
theorem eq_of_inSection {id : SectionId} (h : Live d owner (.inSection id)) : id = owner := by
  rcases h.stands with heq | hstands
  · exact Context.inSection.inj heq
  · exact absurd h.isKind hstands.kind?_ne

theorem standsIn (h : Live d owner context) (hcontext : context.kind ≠ .sectionBlock) :
    d.StandsIn owner.slot context.slot := by
  rcases h.stands with rfl | hstands
  · exact absurd rfl hcontext
  · exact hstands

theorem sectionOf {id : ParagraphId} (howner : d.kind? owner.slot = some .sectionBlock)
    (hkind : d.kind? id.slot = some .paragraph) (hparent : d.parent? id.slot = some owner.slot) :
    d.sectionOf id = .ok owner := by
  obtain ⟨value, hobject⟩ := Document.object?_of_kind?_paragraph hkind
  unfold Document.sectionOf
  rw [Document.paragraph_eq_ok.2 hobject, hparent, Option.filter_some, howner]
  rfl

theorem checkInlineParent {parent : InlineParent} (hkind : d.kind? parent.slot = some parent.kind) :
    d.checkInlineParent parent = .ok () := by
  obtain ⟨object, hobject, hparent⟩ := Document.kind?_eq_some_iff.1 hkind
  exact Document.read_eq_ok.2 ⟨object, hobject, if_pos hparent⟩

/-- The paragraph around a container of inline content owns it. -/
theorem paragraphOf_eq_ok {parent : InlineParent} {paragraph : Nat}
    (hkind : d.kind? parent.slot = some parent.kind)
    (h : d.paragraphAt? parent.slot = some paragraph) : d.paragraphOf parent = .ok ⟨paragraph⟩ := by
  unfold Document.paragraphOf
  rw [checkInlineParent hkind]
  cases parent with
  | paragraph id =>
    obtain rfl := Option.some.inj ((Document.paragraphAt?_of_paragraph hkind).symm.trans h)
    rfl
  | run id =>
    have hne : (d.kind? id.slot == some .paragraph) = false := by
      rw [show d.kind? id.slot = some .run from hkind]
      rfl
    rw [InlineParent.slot, Document.paragraphAt?, List.find?_cons, hne] at h
    simp only [bind, Except.bind, InlineParent.slot, h]
  | hyperlink id =>
    have hne : (d.kind? id.slot == some .paragraph) = false := by
      rw [show d.kind? id.slot = some .hyperlink from hkind]
      rfl
    rw [InlineParent.slot, Document.paragraphAt?, List.find?_cons, hne] at h
    simp only [bind, Except.bind, InlineParent.slot, h]

/-- The paragraph that owns a container of the section. -/
theorem exists_paragraphOf (parent : InlineParent)
    (hkind : d.kind? parent.slot = some parent.kind) (hstands : d.StandsIn owner.slot parent.slot) :
    ∃ id, d.paragraphOf parent = .ok id ∧ d.kind? id.slot = some .paragraph ∧
      d.parent? id.slot = some owner.slot := by
  obtain ⟨slot, hat, hslot, howner⟩ := hstands.exists_paragraph
  exact ⟨⟨slot⟩, paragraphOf_eq_ok hkind hat, hslot, howner⟩

/-- A paragraph that is live is one of the owner. -/
theorem parent?_of_inParagraph {id : ParagraphId} (h : Live d owner (.inParagraph id)) :
    d.parent? id.slot = some owner.slot :=
  (h.standsIn nofun).parent?_of_paragraph h.isKind

/-- Block content in a live context goes to the owner. -/
theorem nearestSection (h : Live d owner context) : d.nearestSection context = .ok owner := by
  cases context with
  | inSection id =>
    rw [Document.nearestSection, h.eq_of_inSection]
  | inParagraph id =>
    exact sectionOf h.isSection h.isKind h.parent?_of_inParagraph
  | inRun id =>
    obtain ⟨paragraph, hparagraph, hkind, hparent⟩ :=
      exists_paragraphOf (.run id) h.isKind (h.standsIn nofun)
    simp only [Document.nearestSection, hparagraph]
    exact sectionOf h.isSection hkind hparent
  | inHyperlink id =>
    obtain ⟨paragraph, hparagraph, hkind, hparent⟩ :=
      exists_paragraphOf (.hyperlink id) h.isKind (h.standsIn nofun)
    simp only [Document.nearestSection, hparagraph]
    exact sectionOf h.isSection hkind hparent

end Live

/-- The context that a target resolves to, where it does. -/
def Target.context : Target → Context
  | intoSection id => .inSection id
  | intoParagraph id => .inParagraph id

theorem Target.context_ne_inRun (target : Target) (id : RunId) : target.context ≠ .inRun id := by
  cases target <;> exact nofun

/-- The container that a target names stands in a section, if the document has it. -/
theorem live_of_resolve {d : Document} (hd : d.WellFormed) {target : Target} {context : Context}
    (h : d.resolve target = .ok context) :
    context = target.context ∧ ∃ owner, Live d owner context := by
  cases target with
  | intoSection id =>
    cases hcheck : d.checkSection id with
    | error cause =>
      simp only [Document.resolve, hcheck] at h
      exact absurd h (by simp [bind, Except.bind])
    | ok found =>
      simp only [Document.resolve, hcheck, bind, Except.bind, pure, Except.pure,
        Except.ok.injEq] at h
      subst h
      have hkind := Document.kind?_of_object? (Document.checkSection_eq_ok.1 hcheck)
      exact ⟨rfl, id, hkind, hkind, .inl rfl⟩
  | intoParagraph id =>
    cases hparagraph : d.paragraph id with
    | error cause =>
      simp only [Document.resolve, hparagraph] at h
      exact absurd h (by simp [bind, Except.bind])
    | ok value =>
      simp only [Document.resolve, hparagraph, bind, Except.bind, pure, Except.pure,
        Except.ok.injEq] at h
      subst h
      have hkind := Document.kind?_of_object? (Document.paragraph_eq_ok.1 hparagraph)
      obtain ⟨owner, howner, hsection⟩ := hd.section_of_paragraph hkind
      exact ⟨rfl, ⟨owner⟩, hkind, hsection, .inr (.block hkind howner)⟩

end Galley
