import Mathlib.Data.List.Basic
import Galley.Document.View
import Galley.Proofs.Document.Shape

/-!
  Documents that only grow, and what of them stays as it was.

  `GrownFrom home d₀ d` says that `d` holds all that `d₀` held, unchanged, and that what is new
  stands in a container of `home` or in something new. Then the children of every other container
  are the same (`GrownFrom.children_of_not_home`), so its content reads the same
  (`GrownFrom.inlineViews_of_not_home`); a container of `home` has its old children first
  (`GrownFrom.children_eq`). `created` lists what is new in the order of creation.
-/

namespace Galley.Document

variable {d d₀ : Document} {slot parent start : Nat} {value before above : DocumentObject}

/-! ## Adding several objects -/

/-- The document with several more objects at the end, each given with the slot of its parent. -/
def pushAll (d : Document) (additions : List (Nat × DocumentObject)) : Document :=
  additions.foldl (fun d addition => d.push addition.1 addition.2) d

theorem pushAll_cons (d : Document) (addition : Nat × DocumentObject)
    (additions : List (Nat × DocumentObject)) :
    d.pushAll (addition :: additions) = (d.push addition.1 addition.2).pushAll additions := rfl

theorem pushAll_append (d : Document) (additions more : List (Nat × DocumentObject)) :
    d.pushAll (additions ++ more) = (d.pushAll additions).pushAll more :=
  List.foldl_append

theorem size_pushAll (d : Document) (additions : List (Nat × DocumentObject)) :
    (d.pushAll additions).size = d.size + additions.length := by
  induction additions generalizing d with
  | nil => rfl
  | cons addition additions ih =>
    rw [pushAll_cons, ih, size_push, List.length_cons]
    omega

theorem object?_pushAll_of_some (h : d.object? slot = some value)
    (additions : List (Nat × DocumentObject)) :
    (d.pushAll additions).object? slot = some value := by
  induction additions generalizing d with
  | nil => exact h
  | cons addition additions ih => exact ih (object?_push_of_some h)

/-- What is added stands in the slots after the old ones, in order. -/
theorem object?_pushAll_add (d : Document) (additions : List (Nat × DocumentObject)) (index : Nat) :
    (d.pushAll additions).object? (d.size + index) = additions[index]?.map Prod.snd := by
  induction additions generalizing d index with
  | nil => exact object?_eq_none_iff.2 (Nat.le_add_right _ _)
  | cons addition additions ih =>
    cases index with
    | zero =>
      have hfirst : (d.push addition.1 addition.2).object? d.size = some addition.2 :=
        object?_push_self
      exact object?_pushAll_of_some hfirst additions
    | succ index =>
      have hrest := ih (d.push addition.1 addition.2) index
      rw [size_push, Nat.add_right_comm] at hrest
      exact hrest

/-- An object that is changed right after it was added might have been added so. -/
theorem put_push (d : Document) (parent : Nat) (value value' : DocumentObject) :
    (d.push parent value).put d.size value' = d.push parent value' := by
  unfold push put size
  congr 1
  refine Array.ext_getElem? fun i => ?_
  rw [Array.getElem?_modify, Array.getElem?_push, Array.getElem?_push]
  by_cases h : i = d.entries.size
  · rw [if_pos h.symm, if_pos h, if_pos h]
    rfl
  · rw [if_neg (Ne.symm h), if_neg h, if_neg h]

/-- Changing an object that is there commutes with adding another. -/
theorem put_push_of_lt {value' : DocumentObject} (h : slot < d.size) :
    (d.push parent value).put slot value' = (d.put slot value').push parent value := by
  unfold push put
  congr 1
  refine Array.ext_getElem? fun i => ?_
  rw [Array.getElem?_modify, Array.getElem?_push, Array.getElem?_push, Array.getElem?_modify,
    Array.size_modify]
  by_cases hlast : i = d.entries.size
  · have hne : slot ≠ i := by
      rw [hlast]
      exact Nat.ne_of_lt h
    rw [if_neg hne, if_pos hlast, if_pos hlast]
  · rw [if_neg hlast, if_neg hlast]

/-- The children of an object from slot `start` on. -/
def newChildren (start : Nat) (d : Document) (slot : Nat) : List Nat :=
  (List.range' start (d.size - start)).filter fun child => d.parent? child == some slot

/-- The paragraphs from slot `start` on. -/
def newParagraphs (start : Nat) (d : Document) : List ParagraphId :=
  ((List.range' start (d.size - start)).filter fun slot =>
    d.kind? slot == some .paragraph).map Handle.mk

theorem le_of_mem_newChildren {child : Nat} (h : child ∈ d.newChildren start slot) :
    start ≤ child :=
  (List.mem_range'_1.1 (List.mem_filter.1 h).1).1

/-- An object that stands in a slot from `start` on has no children before. -/
theorem children_eq_newChildren (hd : d.WellFormed) (hle : start ≤ slot) (hlt : slot < d.size) :
    d.children slot = d.newChildren start slot := by
  have hsplit : List.range' start (d.size - start) =
      List.range' start (slot + 1 - start) ++ List.range' (slot + 1) (d.size - (slot + 1)) := by
    have hend : start + (slot + 1 - start) = slot + 1 := by omega
    have hlength : d.size - start = slot + 1 - start + (d.size - (slot + 1)) := by omega
    rw [hlength, ← List.range'_append_1, hend]
  have hnone : (List.range' start (slot + 1 - start)).filter
      (fun child => d.parent? child == some slot) = [] := by
    refine List.filter_eq_nil_iff.2 fun child hchild hparent => ?_
    rw [beq_iff_eq] at hparent
    have hbefore := hd.lt_of_parent? hparent
    rw [List.mem_range'_1] at hchild
    omega
  rw [newChildren, hsplit, List.filter_append, hnone]
  rfl

/-! ## Growth -/

/-- Nothing that was there has changed; what is new stands in a container of `home` or in
    something new, and is no section. -/
structure GrownFrom (home : Nat → Prop) (d₀ d : Document) : Prop where
  object?_eq : ∀ slot value, d₀.object? slot = some value → d.object? slot = some value
  parent?_eq : ∀ slot < d₀.size, d.parent? slot = d₀.parent? slot
  parent?_new : ∀ slot, d₀.size ≤ slot → slot < d.size →
    ∃ owner, d.parent? slot = some owner ∧ (home owner ∨ d₀.size ≤ owner)
  kind?_new : ∀ slot, d₀.size ≤ slot → d.kind? slot ≠ some .sectionBlock

namespace GrownFrom

variable {home : Nat → Prop}

theorem refl (home : Nat → Prop) (d : Document) : GrownFrom home d d where
  object?_eq := fun _ _ h => h
  parent?_eq := fun _ _ => rfl
  parent?_new := fun slot hle hlt => absurd hlt (by omega)
  kind?_new := fun slot hle => by
    rw [kind?, object?_eq_none_iff.2 hle]
    simp

theorem size_le (h : GrownFrom home d₀ d) : d₀.size ≤ d.size :=
  size_le_of_object? fun slot value hobject => ⟨value, h.object?_eq slot value hobject⟩

theorem object?_of_lt (h : GrownFrom home d₀ d) (hslot : slot < d₀.size) :
    d.object? slot = d₀.object? slot := by
  obtain ⟨value, hobject⟩ := object?_of_lt_size hslot
  rw [h.object?_eq slot value hobject, hobject]

theorem kind?_of_lt (h : GrownFrom home d₀ d) (hslot : slot < d₀.size) :
    d.kind? slot = d₀.kind? slot := by
  rw [kind?, kind?, h.object?_of_lt hslot]

theorem push (h : GrownFrom home d₀ d) (hparent : home parent ∨ d₀.size ≤ parent)
    (hvalue : value.kind ≠ .sectionBlock) : GrownFrom home d₀ (d.push parent value) where
  object?_eq := fun slot value' hobject => object?_push_of_some (h.object?_eq slot value' hobject)
  parent?_eq := fun slot hslot => by
    have := h.size_le
    rw [parent?_push, if_neg (by omega)]
    exact h.parent?_eq slot hslot
  parent?_new := fun slot hle hlt => by
    rw [size_push] at hlt
    rw [parent?_push]
    by_cases hlast : slot = d.size
    · rw [if_pos hlast]
      exact ⟨parent, rfl, hparent⟩
    · rw [if_neg hlast]
      exact h.parent?_new slot hle (by omega)
  kind?_new := fun slot hle => by
    rw [kind?, object?_push]
    by_cases hlast : slot = d.size
    · rw [if_pos hlast]
      simpa using hvalue
    · rw [if_neg hlast]
      exact h.kind?_new slot hle

theorem pushAll (h : GrownFrom home d₀ d) {additions : List (Nat × DocumentObject)}
    (hadditions : ∀ addition ∈ additions, (home addition.1 ∨ d₀.size ≤ addition.1) ∧
      addition.2.kind ≠ .sectionBlock) : GrownFrom home d₀ (d.pushAll additions) := by
  induction additions generalizing d with
  | nil => exact h
  | cons addition additions ih =>
    obtain ⟨hparent, hvalue⟩ := hadditions addition List.mem_cons_self
    exact ih (h.push hparent hvalue) fun other hother =>
      hadditions other (List.mem_cons_of_mem _ hother)

/-- Objects that are new may still be changed. -/
theorem put (h : GrownFrom home d₀ d) (hle : d₀.size ≤ slot) (hslot : d.object? slot = some before)
    (hkind : value.kind = before.kind) : GrownFrom home d₀ (d.put slot value) where
  object?_eq := fun other value' hobject => by
    have hlt := lt_size_of_object? hobject
    rw [object?_put_of_ne (by omega)]
    exact h.object?_eq other value' hobject
  parent?_eq := fun other hother => by
    rw [parent?_put]
    exact h.parent?_eq other hother
  parent?_new := fun other hle' hlt => by
    rw [size_put] at hlt
    rw [parent?_put]
    exact h.parent?_new other hle' hlt
  kind?_new := fun other hle' => by
    rw [kind?_put hslot hkind]
    exact h.kind?_new other hle'

/-! ## Children -/

/-- The old children come first; after them the new objects that name the slot as parent. -/
theorem children_eq (h : GrownFrom home d₀ d) (hslot : slot < d₀.size) :
    d.children slot = d₀.children slot ++
      (List.range' d₀.size (d.size - d₀.size)).filter
        fun child => d.parent? child == some slot := by
  have hle := h.size_le
  have hsplit : List.range' (slot + 1) (d.size - (slot + 1)) =
      List.range' (slot + 1) (d₀.size - (slot + 1)) ++
        List.range' d₀.size (d.size - d₀.size) := by
    have hstart : slot + 1 + (d₀.size - (slot + 1)) = d₀.size := by omega
    have hlength : d.size - (slot + 1) = d₀.size - (slot + 1) + (d.size - d₀.size) := by omega
    rw [hlength, ← List.range'_append_1, hstart]
  rw [children, children, hsplit, List.filter_append]
  congr 1
  refine List.filter_congr fun child hchild => ?_
  rw [List.mem_range'_1] at hchild
  rw [h.parent?_eq child (by omega)]

/-- A container that is not of `home` has no new children. -/
theorem children_of_not_home (h : GrownFrom home d₀ d) (hslot : slot < d₀.size)
    (hhome : ¬ home slot) : d.children slot = d₀.children slot := by
  rw [h.children_eq hslot, List.append_right_eq_self, List.filter_eq_nil_iff]
  intro child hchild hparent
  rw [List.mem_range'_1] at hchild
  obtain ⟨owner, howner, hcase⟩ := h.parent?_new child hchild.1 (by omega)
  rw [howner, beq_iff_eq, Option.some.injEq] at hparent
  subst hparent
  rcases hcase with hcase | hcase
  · exact hhome hcase
  · omega

end GrownFrom

/-! ## Content -/

/-- The view of the inline object in a slot, if there is one. -/
def inlineViewAt? (d : Document) (slot : Nat) : Option InlineView :=
  match d.object? slot with
  | some (.text value) => some (.text value)
  | some .lineBreak => some .lineBreak
  | some (.run value) => some (.run value (d.inlineViews slot))
  | some (.hyperlink value) => some (.hyperlink value (d.inlineViews slot))
  | _ => none

theorem inlineViews_eq_filterMap (d : Document) (slot : Nat) :
    d.inlineViews slot = (d.children slot).filterMap d.inlineViewAt? := by
  rw [inlineViews]
  conv_rhs => rw [← List.attach_map_subtype_val (d.children slot), List.filterMap_map]
  refine List.filterMap_congr fun child _ => ?_
  rfl

theorem inlineViewAt?_congr (hobject : d.object? slot = d₀.object? slot)
    (hinside : ∀ value, d₀.object? slot = some value → value.kind.isInline →
      d.inlineViews slot = d₀.inlineViews slot) : d.inlineViewAt? slot = d₀.inlineViewAt? slot := by
  unfold inlineViewAt?
  rw [hobject]
  cases h : d₀.object? slot with
  | none => rfl
  | some value =>
    cases value with
    | run value => simp only [hinside _ h rfl]
    | hyperlink value => simp only [hinside _ h rfl]
    | _ => rfl

theorem paragraphs_eq_ok {id : SectionId} {paragraphs : List ParagraphId} :
    d.paragraphs id = .ok paragraphs ↔ d.object? id.slot = some .sectionBlock ∧
      paragraphs = ((d.children id.slot).filter
        fun slot => d.kind? slot == some .paragraph).map Handle.mk := by
  unfold Document.paragraphs
  cases hcheck : d.checkSection id with
  | error cause =>
    simp only [bind, Except.bind, reduceCtorEq, false_iff, not_and]
    intro hobject
    have hok : d.checkSection id = .ok () := checkSection_eq_ok.2 hobject
    rw [hcheck] at hok
    exact absurd hok (by simp)
  | ok found =>
    simp [bind, Except.bind, pure, Except.pure, checkSection_eq_ok.1 hcheck, eq_comm]

theorem kind?_push_of_lt (h : slot < d.size) : (d.push parent value).kind? slot = d.kind? slot := by
  rw [kind?, kind?, object?_push, if_neg (by omega)]

/-- A new paragraph is the last one of its section. -/
theorem paragraphs_push_paragraph {id : SectionId} {value : Paragraph} {old : List ParagraphId}
    (h : d.paragraphs id = .ok old) :
    (d.push id.slot (.paragraph value)).paragraphs id = .ok (old ++ [⟨d.size⟩]) := by
  obtain ⟨hid, rfl⟩ := paragraphs_eq_ok.1 h
  refine paragraphs_eq_ok.2 ⟨object?_push_of_some hid, ?_⟩
  have hlast : (d.push id.slot (.paragraph value)).kind? d.size = some .paragraph :=
    kind?_of_object? object?_push_self
  rw [children_push (lt_size_of_object? hid), if_pos rfl, List.filter_append, List.map_append,
    List.filter_singleton, hlast]
  congr 2
  exact List.filter_congr fun slot hslot => by rw [kind?_push_of_lt (lt_of_mem_children hslot).2]

/-- Other objects change no section's paragraphs. -/
theorem paragraphs_push_other {id : SectionId} {old : List ParagraphId}
    (h : d.paragraphs id = .ok old) (hvalue : value.kind ≠ .paragraph) :
    (d.push parent value).paragraphs id = .ok old := by
  obtain ⟨hid, rfl⟩ := paragraphs_eq_ok.1 h
  refine paragraphs_eq_ok.2 ⟨object?_push_of_some hid, ?_⟩
  have hlast : ((d.push parent value).kind? d.size == some .paragraph) = false := by
    rw [kind?_of_object? object?_push_self, beq_eq_false_iff_ne]
    exact fun heq => hvalue (Option.some.inj heq)
  have hnew : ((if parent = id.slot then [d.size] else []).filter
      fun slot => (d.push parent value).kind? slot == some .paragraph) = [] := by
    split
    · rw [List.filter_singleton, hlast]
      rfl
    · rfl
  rw [children_push (lt_size_of_object? hid), List.filter_append, hnew, List.append_nil]
  congr 1
  exact List.filter_congr fun slot hslot => by rw [kind?_push_of_lt (lt_of_mem_children hslot).2]

theorem paragraphView_eq (d : Document) (id : ParagraphId) :
    d.paragraphView id = (d.paragraph id).map fun value => ⟨value, d.inlineViews id.slot⟩ := by
  unfold paragraphView
  cases d.paragraph id <;> rfl

namespace GrownFrom

variable {home : Nat → Prop}

/-- The content of a container is the same if neither it nor a later inline object is of `home`. -/
theorem inlineViews_of_not_home_from (h : GrownFrom home d₀ d)
    (hinline : ∀ inner value, slot < inner → home inner → d₀.object? inner = some value →
      ¬ value.kind.isInline)
    (hslot : slot < d₀.size) (hhome : ¬ home slot) : d.inlineViews slot = d₀.inlineViews slot := by
  induction slot using d₀.children_induction with
  | step slot ih =>
    rw [inlineViews_eq_filterMap, inlineViews_eq_filterMap, h.children_of_not_home hslot hhome]
    refine List.filterMap_congr fun child hchild => ?_
    have hlt := lt_of_mem_children hchild
    refine inlineViewAt?_congr (h.object?_of_lt hlt.2) fun value hobject hvalue => ?_
    refine ih child hchild (fun inner value hless => ?_) hlt.2
      fun hhome' => hinline child value hlt.1 hhome' hobject hvalue
    exact hinline inner value (Nat.lt_trans hlt.1 hless)

/-- The content of a container is the same if neither it nor an inline object is of `home`. -/
theorem inlineViews_of_not_home (h : GrownFrom home d₀ d)
    (hinline : ∀ slot value, home slot → d₀.object? slot = some value → ¬ value.kind.isInline)
    (hslot : slot < d₀.size) (hhome : ¬ home slot) : d.inlineViews slot = d₀.inlineViews slot :=
  h.inlineViews_of_not_home_from (fun inner value _ => hinline inner value) hslot hhome

/-- The content of any container that was there has its old part first. -/
theorem inlineViews_eq_append (h : GrownFrom home d₀ d)
    (hinline : ∀ slot value, home slot → d₀.object? slot = some value → ¬ value.kind.isInline)
    (hslot : slot < d₀.size) : d.inlineViews slot =
      d₀.inlineViews slot ++ (d.newChildren d₀.size slot).filterMap d.inlineViewAt? := by
  rw [inlineViews_eq_filterMap, inlineViews_eq_filterMap, h.children_eq hslot,
    List.filterMap_append]
  refine congrArg (· ++ _) (List.filterMap_congr fun child hchild => ?_)
  have hlt := (lt_of_mem_children hchild).2
  refine inlineViewAt?_congr (h.object?_of_lt hlt) fun value hobject hvalue => ?_
  exact h.inlineViews_of_not_home hinline hlt fun hhome =>
    hinline child value hhome hobject hvalue

theorem inlineViews_append (h : GrownFrom home d₀ d)
    (hinline : ∀ slot value, home slot → d₀.object? slot = some value → ¬ value.kind.isInline)
    (hslot : slot < d₀.size) : ∃ more, d.inlineViews slot = d₀.inlineViews slot ++ more :=
  ⟨_, h.inlineViews_eq_append hinline hslot⟩

/-- Sections are only ever added by name. -/
theorem sections_eq (h : GrownFrom home d₀ d) (hsize : rootSlot < d₀.size)
    (hroot : ¬ home rootSlot) : d.sections = d₀.sections := by
  rw [sections, sections, h.children_of_not_home hsize hroot]
  congr 1
  refine List.filter_congr fun slot hslot => ?_
  rw [h.kind?_of_lt (lt_of_mem_children hslot).2]

/-- A section shows the same if neither it nor one of its paragraphs is of `home`. -/
theorem view_getElem?_of_not_home (h : GrownFrom home d₀ d)
    (hinline : ∀ slot value, home slot → d₀.object? slot = some value → ¬ value.kind.isInline)
    (hsections : d.sections = d₀.sections) {index : Nat} {id : SectionId}
    (hid : d₀.sections[index]? = some id) (hsection : ¬ home id.slot)
    (hparagraphs : ∀ slot ∈ d₀.children id.slot, ¬ home slot) :
    d.view[index]? = d₀.view[index]? := by
  have hlt : id.slot < d₀.size := by
    obtain ⟨slot, hslot, rfl⟩ := List.mem_map.1 (List.mem_of_getElem? hid)
    exact (lt_of_mem_children (List.mem_filter.1 hslot).1).2
  rw [view, view, List.getElem?_map, List.getElem?_map, hsections, hid, Option.map_some,
    Option.map_some, h.children_of_not_home hlt hsection]
  congr 2
  refine List.filterMap_congr fun slot hslot => ?_
  have hlt' := (lt_of_mem_children hslot).2
  rw [paragraphViewAt?, paragraphViewAt?, h.object?_of_lt hlt',
    h.inlineViews_of_not_home hinline hlt' (hparagraphs slot hslot)]

/-- New paragraphs all stand in the one section of `home`. -/
theorem parent?_of_new_paragraph (h : GrownFrom home d₀ d) (hd : d.WellFormed) {id : SectionId}
    (hsection : ∀ slot, home slot → d₀.kind? slot = some .sectionBlock → slot = id.slot)
    (hle : d₀.size ≤ slot) (hkind : d.kind? slot = some .paragraph) :
    d.parent? slot = some id.slot := by
  obtain ⟨owner, howner, hblock⟩ := hd.section_of_paragraph hkind
  obtain ⟨owner', howner', hhome⟩ := h.parent?_new slot hle (lt_size_of_parent? howner)
  obtain rfl := Option.some.inj (howner.symm.trans howner')
  have hold : owner < d₀.size := Nat.lt_of_not_le fun hnew => h.kind?_new owner hnew hblock
  rcases hhome with hhome | hnew
  · rw [howner, hsection owner hhome (by rw [← h.kind?_of_lt hold, hblock])]
  · omega

/-- The paragraphs of the section of `home`: the old ones, then all that are new. -/
theorem paragraphs_append (h : GrownFrom home d₀ d) (hd : d.WellFormed) {id : SectionId}
    (hsection : ∀ slot, home slot → d₀.kind? slot = some .sectionBlock → slot = id.slot)
    {old : List ParagraphId} (hold : d₀.paragraphs id = .ok old) :
    d.paragraphs id = .ok (old ++ d.newParagraphs d₀.size) := by
  obtain ⟨hid, rfl⟩ := paragraphs_eq_ok.1 hold
  refine paragraphs_eq_ok.2 ⟨h.object?_eq _ _ hid, ?_⟩
  rw [h.children_eq (lt_size_of_object? hid), List.filter_append, List.filter_filter,
    List.map_append, newParagraphs]
  congr 2
  · refine List.filter_congr fun slot hslot => ?_
    rw [h.kind?_of_lt (lt_of_mem_children hslot).2]
  · refine List.filter_congr fun slot hslot => ?_
    rw [List.mem_range'_1] at hslot
    cases hkind : d.kind? slot == some .paragraph with
    | false => rfl
    | true =>
      rw [h.parent?_of_new_paragraph hd hsection hslot.1 (beq_iff_eq.1 hkind), beq_self_eq_true,
        Bool.true_and]

end GrownFrom

/-! ## What is new -/

/-- What `select` takes from the objects from slot `start` on, in the order of their creation. -/
def created {α : Type} (select : DocumentObject → Option α) (start : Nat) (d : Document) : List α :=
  (List.range' start (d.size - start)).filterMap fun slot => (d.object? slot).bind select

section Created

variable {α : Type} {select : DocumentObject → Option α}

theorem created_self (d : Document) : d.created select d.size = [] := by
  rw [created, Nat.sub_self]
  rfl

theorem created_push (h : start ≤ d.size) :
    (d.push parent value).created select start =
      d.created select start ++ (select value).toList := by
  have hlength : d.size + 1 - start = d.size - start + 1 := by omega
  have hlast : start + 1 * (d.size - start) = d.size := by omega
  rw [created, created, size_push, hlength, List.range'_concat, hlast, List.filterMap_append]
  congr 1
  · refine List.filterMap_congr fun slot hslot => ?_
    rw [List.mem_range'_1] at hslot
    rw [object?_push, if_neg (by omega)]
  · rw [List.filterMap_cons, object?_push, if_pos rfl, Option.bind_some]
    cases select value <;> rfl

theorem created_pushAll (h : start ≤ d.size) (additions : List (Nat × DocumentObject)) :
    (d.pushAll additions).created select start =
      d.created select start ++ additions.filterMap fun addition => select addition.2 := by
  induction additions generalizing d with
  | nil => rw [List.filterMap_nil, List.append_nil]; rfl
  | cons addition additions ih =>
    rw [pushAll_cons, ih (by rw [size_push]; omega), created_push h, List.append_assoc,
      List.filterMap_cons]
    cases select addition.2 <;> rfl

/-- A change that `select` does not see. -/
theorem created_put (hslot : d.object? slot = some before) (hvalue : select value = select before) :
    (d.put slot value).created select start = d.created select start := by
  rw [created, created, size_put]
  refine List.filterMap_congr fun other _ => ?_
  by_cases h : other = slot
  · rw [h, object?_put_self hslot, hslot, Option.bind_some, Option.bind_some, hvalue]
  · rw [object?_put_of_ne h]

end Created

end Galley.Document
