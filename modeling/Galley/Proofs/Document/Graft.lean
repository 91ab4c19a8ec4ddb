import Galley.Proofs.Document.Shown

/-!
  Inline content added as a whole.

  `graft` adds an inline object with all that is inside it at the end of a container, each object
  before what it holds. What was there stays, and the container shows what it showed before and
  then the content that was added (`inlineViews_graftAll`). `graftParagraphs` adds paragraphs with
  their content at the end of a section (`exists_paragraphs_graftParagraphs`).
-/

namespace Galley.Document

variable {d : Document} {parent slot : Nat}

mutual

/-- The document with an inline object and all that is inside it at the end of a container. -/
def graft (d : Document) (parent : Nat) : InlineView → Document
  | .text value => d.push parent (.text value)
  | .lineBreak => d.push parent .lineBreak
  | .run value content => graftAll (d.push parent (.run value)) d.size content
  | .hyperlink value content => graftAll (d.push parent (.hyperlink value)) d.size content

/-- The document with several inline objects at the end of a container, in order. -/
def graftAll (d : Document) (parent : Nat) : List InlineView → Document
  | [] => d
  | view :: rest => graftAll (graft d parent view) parent rest

end

theorem graftAll_append (d : Document) (parent : Nat) (views more : List InlineView) :
    d.graftAll parent (views ++ more) = (d.graftAll parent views).graftAll parent more := by
  induction views generalizing d with
  | nil => rw [List.nil_append, graftAll]
  | cons view views ih => rw [List.cons_append, graftAll, graftAll, ih]

/-! ## Induction over what is added -/

section Induction

variable {motive : Document → Prop}

mutual

theorem graft_induction
    (push : ∀ d parent value, value.kind.isInline → motive d → motive (d.push parent value))
    (d : Document) (parent : Nat) (view : InlineView) (h : motive d) :
    motive (d.graft parent view) :=
  match view with
  | .text value => push d parent (.text value) rfl h
  | .lineBreak => push d parent .lineBreak rfl h
  | .run value content =>
    graftAll_induction push _ d.size content (push d parent (.run value) rfl h)
  | .hyperlink value content =>
    graftAll_induction push _ d.size content (push d parent (.hyperlink value) rfl h)

/-- What holds of a document, and stays so when an inline object is added, holds after grafting. -/
theorem graftAll_induction
    (push : ∀ d parent value, value.kind.isInline → motive d → motive (d.push parent value))
    (d : Document) (parent : Nat) (views : List InlineView) (h : motive d) :
    motive (d.graftAll parent views) :=
  match views with
  | [] => h
  | view :: rest =>
    graftAll_induction push _ parent rest (graft_induction push d parent view h)

end

end Induction

/-- Grafting adds no paragraph to any section. -/
theorem paragraphs_graftAll {id : SectionId} {old : List ParagraphId} (parent : Nat)
    (views : List InlineView) (h : d.paragraphs id = .ok old) :
    (d.graftAll parent views).paragraphs id = .ok old := by
  refine graftAll_induction (motive := fun d' => d'.paragraphs id = .ok old) ?_ d parent views h
  intro d' parent value hvalue h
  refine paragraphs_push_other h fun heq => ?_
  rw [heq] at hvalue
  exact absurd hvalue (by decide)

mutual

theorem GrownFrom.graft {home : Nat → Prop} {d₀ d : Document} {parent : Nat}
    (h : GrownFrom home d₀ d) (hparent : home parent ∨ d₀.size ≤ parent) (view : InlineView) :
    GrownFrom home d₀ (d.graft parent view) :=
  match view with
  | .text _ => h.push hparent nofun
  | .lineBreak => h.push hparent nofun
  | .run value content =>
    have hrun : GrownFrom home d₀ (d.push parent (.run value)) := h.push hparent nofun
    hrun.graftAll (.inr h.size_le) content
  | .hyperlink value content =>
    have hlink : GrownFrom home d₀ (d.push parent (.hyperlink value)) := h.push hparent nofun
    hlink.graftAll (.inr h.size_le) content

/-- What is grafted stands in its container or in something new. -/
theorem GrownFrom.graftAll {home : Nat → Prop} {d₀ d : Document} {parent : Nat}
    (h : GrownFrom home d₀ d) (hparent : home parent ∨ d₀.size ≤ parent) (views : List InlineView) :
    GrownFrom home d₀ (d.graftAll parent views) :=
  match views with
  | [] => h
  | view :: rest => (h.graft hparent view).graftAll hparent rest

end

theorem grownFrom_graft (d : Document) (parent : Nat) (view : InlineView) :
    GrownFrom (· = parent) d (d.graft parent view) :=
  (GrownFrom.refl (· = parent) d).graft (.inl rfl) view

theorem grownFrom_graftAll (d : Document) (parent : Nat) (views : List InlineView) :
    GrownFrom (· = parent) d (d.graftAll parent views) :=
  (GrownFrom.refl (· = parent) d).graftAll (.inl rfl) views

/-! ## What containers show -/

/-- A new container shows nothing. -/
theorem inlineViews_push_self (d : Document) (parent : Nat) (value : DocumentObject) :
    (d.push parent value).inlineViews d.size = [] := by
  rw [inlineViews_eq_filterMap, children, size_push, Nat.sub_self]
  rfl

/-- Grafting an object adds one child, and what is inside it stands below that. -/
theorem children_graft (hslot : parent < d.size) (view : InlineView) :
    (d.graft parent view).children parent = d.children parent ++ [d.size] := by
  have hinside (value : DocumentObject) (content : List InlineView) :
      ((d.push parent value).graftAll d.size content).children parent =
        d.children parent ++ [d.size] := by
    have hgrown := grownFrom_graftAll (d.push parent value) d.size content
    rw [hgrown.children_of_not_home (by rw [size_push]; omega) (Nat.ne_of_lt hslot),
      children_push hslot, if_pos rfl]
  cases view with
  | text value => rw [graft, children_push hslot, if_pos rfl]
  | lineBreak => rw [graft, children_push hslot, if_pos rfl]
  | run value content => rw [graft, hinside]
  | hyperlink value content => rw [graft, hinside]

/-- The old children of a container show the same after something was grafted into it. -/
theorem inlineViewAt?_graft {child : Nat} (hchild : child ∈ d.children parent)
    (view : InlineView) : (d.graft parent view).inlineViewAt? child = d.inlineViewAt? child := by
  have hlt := lt_of_mem_children hchild
  have hgrown := grownFrom_graft d parent view
  refine inlineViewAt?_congr (hgrown.object?_of_lt hlt.2) fun value _ _ => ?_
  refine hgrown.inlineViews_of_not_home_from (fun inner value hless heq => ?_) hlt.2
    (Nat.ne_of_gt hlt.1)
  omega

/-- A container stays what it is while content is grafted into it. -/
theorem object?_push_graftAll (parent : Nat) (value : DocumentObject)
    (content : List InlineView) :
    ((d.push parent value).graftAll d.size content).object? d.size = some value :=
  (grownFrom_graftAll (d.push parent value) d.size content).object?_eq _ _ object?_push_self

mutual

theorem inlineViews_graft (d : Document) (parent : Nat) (view : InlineView)
    (hslot : parent < d.size) :
    (d.graft parent view).inlineViews parent = d.inlineViews parent ++ [view] := by
  have hview : (d.graft parent view).inlineViewAt? d.size = some view :=
    match view with
    | .text value => by rw [graft, inlineViewAt?, object?_push_self]
    | .lineBreak => by rw [graft, inlineViewAt?, object?_push_self]
    | .run value content => by
      have hcontent := inlineViews_graftAll (d.push parent (.run value)) d.size content
        (by rw [size_push]; omega)
      rw [inlineViews_push_self, List.nil_append] at hcontent
      rw [graft, inlineViewAt?, object?_push_graftAll]
      exact congrArg (fun inside => some (InlineView.run value inside)) hcontent
    | .hyperlink value content => by
      have hcontent := inlineViews_graftAll (d.push parent (.hyperlink value)) d.size content
        (by rw [size_push]; omega)
      rw [inlineViews_push_self, List.nil_append] at hcontent
      rw [graft, inlineViewAt?, object?_push_graftAll]
      exact congrArg (fun inside => some (InlineView.hyperlink value inside)) hcontent
  rw [inlineViews_eq_filterMap, inlineViews_eq_filterMap, children_graft hslot,
    List.filterMap_append]
  congr 1
  · exact List.filterMap_congr fun child hchild => inlineViewAt?_graft hchild view
  · rw [List.filterMap_cons_some hview, List.filterMap_nil]

/-- **A container shows what it showed before, and then what was grafted into it.** -/
theorem inlineViews_graftAll (d : Document) (parent : Nat) (views : List InlineView)
    (hslot : parent < d.size) :
    (d.graftAll parent views).inlineViews parent = d.inlineViews parent ++ views :=
  match views with
  | [] => (List.append_nil _).symm
  | view :: rest => by
    have hle := (grownFrom_graft d parent view).size_le
    rw [graftAll, inlineViews_graftAll (d.graft parent view) parent rest (by omega),
      inlineViews_graft d parent view hslot, List.append_assoc]
    rfl

end

/-! ## Paragraphs with content -/

/-- The document with new paragraphs at the end of a section, each with its content. -/
def graftParagraphs (d : Document) (owner : Nat) : List (List InlineView) → Document
  | [] => d
  | content :: rest =>
    ((d.push owner (.paragraph {})).graftAll d.size content).graftParagraphs owner rest

theorem graftParagraphs_append (d : Document) (owner : Nat)
    (contents more : List (List InlineView)) :
    d.graftParagraphs owner (contents ++ more) =
      (d.graftParagraphs owner contents).graftParagraphs owner more := by
  induction contents generalizing d with
  | nil => rfl
  | cons content contents ih => rw [List.cons_append, graftParagraphs, ih, graftParagraphs]

theorem GrownFrom.graftParagraphs {home : Nat → Prop} {d₀ d : Document} {owner : Nat}
    (h : GrownFrom home d₀ d) (howner : home owner) (contents : List (List InlineView)) :
    GrownFrom home d₀ (d.graftParagraphs owner contents) := by
  induction contents generalizing d with
  | nil => exact h
  | cons content contents ih =>
    have hparagraph : GrownFrom home d₀ (d.push owner (.paragraph {})) := h.push (.inl howner) nofun
    exact ih (hparagraph.graftAll (.inr h.size_le) content)

theorem grownFrom_graftParagraphs (d : Document) (owner : Nat) (contents : List (List InlineView)) :
    GrownFrom (· = owner) d (d.graftParagraphs owner contents) :=
  (GrownFrom.refl (· = owner) d).graftParagraphs rfl contents

/-- A paragraph that was grafted shows its content, also after others were. -/
theorem paragraphView_graftParagraphs {id : SectionId}
    (hid : d.object? id.slot = some .sectionBlock) (content : List InlineView)
    (later : List (List InlineView)) :
    (d.graftParagraphs id.slot (content :: later)).paragraphView ⟨d.size⟩ =
      .ok ⟨{}, content⟩ := by
  have hsize : d.size < (d.push id.slot (.paragraph {})).size := by
    rw [size_push]
    omega
  have hinside := grownFrom_graftAll (d.push id.slot (.paragraph {})) d.size content
  have hlater := grownFrom_graftParagraphs
    ((d.push id.slot (.paragraph {})).graftAll d.size content) id.slot later
  have hlt := Nat.lt_of_lt_of_le hsize hinside.size_le
  have hobject := hinside.object?_eq _ _ object?_push_self
  have hview := inlineViews_graftAll (d.push id.slot (.paragraph {})) d.size content hsize
  rw [inlineViews_push_self, List.nil_append] at hview
  have hsection : ∀ slot value, slot = id.slot →
      ((d.push id.slot (.paragraph {})).graftAll d.size content).object? slot = some value →
        ¬ value.kind.isInline := by
    rintro slot value rfl hvalue
    have hkept := hinside.object?_eq _ _ (object?_push_of_some hid)
    obtain rfl := Option.some.inj (hkept.symm.trans hvalue)
    decide
  have hne : d.size ≠ id.slot := Nat.ne_of_gt (lt_size_of_object? hid)
  have hparagraph : (d.graftParagraphs id.slot (content :: later)).paragraph ⟨d.size⟩ = .ok {} :=
    paragraph_eq_ok.2 (hlater.object?_eq _ _ hobject)
  rw [paragraphView_eq, hparagraph, graftParagraphs,
    hlater.inlineViews_of_not_home hsection hlt hne, hview]
  rfl

/-- **Grafted paragraphs are the last of their section**, and show the content that was given. -/
theorem exists_paragraphs_graftParagraphs {id : SectionId} {old : List ParagraphId}
    (h : d.paragraphs id = .ok old) (contents : List (List InlineView)) :
    ∃ added, (d.graftParagraphs id.slot contents).paragraphs id = .ok (old ++ added) ∧
      added.map (d.graftParagraphs id.slot contents).paragraphView =
        contents.map fun content => .ok ⟨{}, content⟩ := by
  induction contents generalizing d old with
  | nil =>
    refine ⟨[], ?_, rfl⟩
    rw [List.append_nil]
    exact h
  | cons content contents ih =>
    have hpush : (d.push id.slot (.paragraph {})).paragraphs id = .ok (old ++ [⟨d.size⟩]) :=
      paragraphs_push_paragraph h
    have hfirst := paragraphs_graftAll d.size content hpush
    obtain ⟨added, hadded, hviews⟩ := ih hfirst
    refine ⟨⟨d.size⟩ :: added, ?_, ?_⟩
    · rw [List.append_cons]
      exact hadded
    · rw [List.map_cons, List.map_cons,
        paragraphView_graftParagraphs (paragraphs_eq_ok.1 h).1 content contents]
      exact congrArg _ hviews

/-! ## What is created -/

section Created

variable {α : Type} {select : DocumentObject → Option α} {start : Nat}

mutual

theorem created_graft (d : Document) (parent : Nat) (view : InlineView) (h : start ≤ d.size) :
    (d.graft parent view).created select start =
      d.created select start ++ view.objects.filterMap select :=
  match view with
  | .text value => by
    rw [graft, created_push h, InlineView.objects, List.filterMap_cons]
    cases select (.text value) <;> rfl
  | .lineBreak => by
    rw [graft, created_push h, InlineView.objects, List.filterMap_cons]
    cases select .lineBreak <;> rfl
  | .run value content => by
    have hlt : start ≤ (d.push parent (.run value)).size := by
      rw [size_push]
      omega
    rw [graft, created_graftAll _ d.size content hlt, created_push h, InlineView.objects,
      List.filterMap_cons, List.append_assoc]
    cases select (.run value) <;> rfl
  | .hyperlink value content => by
    have hlt : start ≤ (d.push parent (.hyperlink value)).size := by
      rw [size_push]
      omega
    rw [graft, created_graftAll _ d.size content hlt, created_push h, InlineView.objects,
      List.filterMap_cons, List.append_assoc]
    cases select (.hyperlink value) <;> rfl

/-- Grafting creates the objects of what is grafted, in their order. -/
theorem created_graftAll (d : Document) (parent : Nat) (views : List InlineView)
    (h : start ≤ d.size) :
    (d.graftAll parent views).created select start =
      d.created select start ++ (InlineView.objectsAll views).filterMap select :=
  match views with
  | [] => by
    rw [graftAll, InlineView.objectsAll, List.filterMap_nil, List.append_nil]
  | view :: rest => by
    have hle := Nat.le_trans h (grownFrom_graft d parent view).size_le
    rw [graftAll, created_graftAll _ parent rest hle, created_graft d parent view h,
      InlineView.objectsAll, List.filterMap_append, List.append_assoc]

end

theorem created_graftParagraphs (hselect : select (.paragraph {}) = none) (owner : Nat)
    (contents : List (List InlineView)) (h : start ≤ d.size) :
    (d.graftParagraphs owner contents).created select start =
      d.created select start ++
        contents.flatMap fun content => (InlineView.objectsAll content).filterMap select := by
  induction contents generalizing d with
  | nil => rw [graftParagraphs, List.flatMap_nil, List.append_nil]
  | cons content contents ih =>
    have hle : start ≤ (d.push owner (.paragraph {})).size := by
      rw [size_push]
      omega
    have hlater := Nat.le_trans hle (grownFrom_graftAll _ d.size content).size_le
    rw [graftParagraphs, ih hlater, created_graftAll _ _ _ hle, created_push h, hselect,
      Option.toList_none, List.append_nil, List.append_assoc, List.flatMap_cons]

end Created

end Galley.Document
