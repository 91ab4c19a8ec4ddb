import Galley.Proofs.Document.Growth

/-!
  Two documents that grow alike.

  What is added to one document may be added to another as well, in other slots. A `Move` says
  which slots of the other stand for those of the first: the new ones in their order, and some old
  ones (`home`) that new objects may stand in. `Alike move d e` says that the new objects of `d`
  are those of `e`, moved. It is kept by adding an object to both and by changing one in both
  (`Alike.push`, `Alike.put`), and then all that is new reads the same (`Alike.inlineViews_eq`),
  however different the documents were before.
-/

namespace Galley.Document

/-- Slots of another document for the new ones, from `start` on, and for those of `home`. -/
structure Move (home : Nat → Prop) (start start' : Nat) where
  image : Nat → Nat
  new : ∀ index, image (start + index) = start' + index
  old : ∀ slot, home slot → image slot < start'
  injective : ∀ slot other, home slot → home other → image slot = image other → slot = other

namespace Move

variable {home : Nat → Prop} {start start' slot other : Nat} (move : Move home start start')

theorem image_of_le (h : start ≤ slot) : move.image slot = start' + (slot - start) := by
  have hnew := move.new (slot - start)
  rw [Nat.add_sub_cancel' h] at hnew
  exact hnew

theorem le_image (h : start ≤ slot) : start' ≤ move.image slot := by
  rw [move.image_of_le h]
  exact Nat.le_add_right _ _

theorem image_add (h : start ≤ slot) (index : Nat) :
    move.image (slot + index) = move.image slot + index := by
  rw [move.image_of_le h, move.image_of_le (Nat.le_trans h (Nat.le_add_right _ _))]
  omega

/-- No two slots that the move is about go to one. -/
theorem eq_of_image_eq (hslot : home slot ∨ start ≤ slot) (hother : home other ∨ start ≤ other)
    (h : move.image slot = move.image other) : slot = other := by
  rcases hslot with hslot | hslot <;> rcases hother with hother | hother
  · exact move.injective slot other hslot hother h
  · have := move.old slot hslot
    have := move.le_image hother
    omega
  · have := move.old other hother
    have := move.le_image hslot
    omega
  · rw [move.image_of_le hslot, move.image_of_le hother] at h
    omega

/-- New slots keep their order. -/
theorem map_image_range' (length : Nat) :
    (List.range' start length).map move.image = List.range' start' length := by
  rw [List.range'_eq_map_range, List.range'_eq_map_range, List.map_map]
  exact List.map_congr_left fun index _ => move.new index

end Move

variable {home : Nat → Prop} {start start' slot parent : Nat} {d d₀ e e₀ : Document}
  {value : DocumentObject}

/-- What is new in `d` is what is new in `e`, in moved slots. -/
structure Alike (move : Move home start start') (d e : Document) : Prop where
  le : start ≤ d.size
  size_eq : e.size = move.image d.size
  object?_eq : ∀ slot, start ≤ slot → e.object? (move.image slot) = d.object? slot
  parent?_eq : ∀ slot, start ≤ slot → e.parent? (move.image slot) = (d.parent? slot).map move.image

namespace Alike

variable {move : Move home start start'}

/-- Nothing is new in two documents yet. -/
theorem refl (move : Move home d.size e.size) : Alike move d e where
  le := Nat.le_refl _
  size_eq := (move.new 0).symm
  object?_eq := fun slot hslot => by
    rw [object?_eq_none_iff.2 hslot, object?_eq_none_iff.2 (move.le_image hslot)]
  parent?_eq := fun slot hslot => by
    have hnone (d : Document) (slot : Nat) (h : d.size ≤ slot) : d.parent? slot = none := by
      refine Option.eq_none_iff_forall_not_mem.2 fun owner howner => ?_
      have := lt_size_of_parent? howner
      omega
    rw [hnone d slot hslot, hnone e _ (move.le_image hslot)]
    rfl

theorem image_eq_size_iff (h : Alike move d e) (hslot : start ≤ slot) :
    move.image slot = e.size ↔ slot = d.size := by
  rw [h.size_eq]
  exact ⟨move.eq_of_image_eq (.inr hslot) (.inr h.le), congrArg move.image⟩

/-- The same object is added to both. -/
theorem push (h : Alike move d e) (parent : Nat) (value : DocumentObject) :
    Alike move (d.push parent value) (e.push (move.image parent) value) where
  le := by
    rw [size_push]
    exact Nat.le_succ_of_le h.le
  size_eq := by
    rw [size_push, size_push, h.size_eq, move.image_add h.le]
  object?_eq := fun slot hslot => by
    rw [object?_push, object?_push, h.object?_eq slot hslot]
    exact if_congr (h.image_eq_size_iff hslot) rfl rfl
  parent?_eq := fun slot hslot => by
    rw [parent?_push, parent?_push, h.parent?_eq slot hslot, apply_ite (Option.map move.image)]
    exact if_congr (h.image_eq_size_iff hslot) rfl rfl

theorem pushAll (h : Alike move d e) (additions : List (Nat × DocumentObject)) :
    Alike move (d.pushAll additions)
      (e.pushAll (additions.map fun addition => (move.image addition.1, addition.2))) := by
  induction additions generalizing d e with
  | nil => exact h
  | cons addition additions ih => exact ih (h.push addition.1 addition.2)

/-- A new object is changed in both. -/
theorem put (h : Alike move d e) (hslot : start ≤ slot) (value : DocumentObject) :
    Alike move (d.put slot value) (e.put (move.image slot) value) where
  le := by
    rw [size_put]
    exact h.le
  size_eq := by
    rw [size_put, size_put]
    exact h.size_eq
  object?_eq := fun other hother => by
    rw [object?_put, object?_put, h.object?_eq other hother]
    exact if_congr ⟨move.eq_of_image_eq (.inr hother) (.inr hslot), congrArg move.image⟩ rfl rfl
  parent?_eq := fun other hother => by
    rw [parent?_put, parent?_put]
    exact h.parent?_eq other hother

end Alike

/-! ## What new objects show -/

namespace Alike

variable {move : Move home start start'}

/-- The new children of an object and of the one that stands for it. -/
theorem newChildren_eq (h : Alike move d e)
    (hparents : ∀ child owner, start ≤ child → d.parent? child = some owner →
      home owner ∨ start ≤ owner)
    (hslot : home slot ∨ start ≤ slot) :
    e.newChildren start' (move.image slot) = (d.newChildren start slot).map move.image := by
  have hsize : e.size - start' = d.size - start := by
    rw [h.size_eq, move.image_of_le h.le]
    omega
  rw [newChildren, newChildren, hsize, ← move.map_image_range', List.filter_map]
  refine congrArg _ (List.filter_congr fun child hchild => ?_)
  have hle := (List.mem_range'_1.1 hchild).1
  rw [Function.comp_apply, h.parent?_eq child hle]
  cases hparent : d.parent? child with
  | none => rfl
  | some owner =>
    have hiff : move.image owner = move.image slot ↔ owner = slot :=
      ⟨move.eq_of_image_eq (hparents child owner hle hparent) hslot, congrArg move.image⟩
    simp [hiff]

theorem image_lt_size (h : Alike move d e) (hle : start ≤ slot) (hlt : slot < d.size) :
    move.image slot < e.size := by
  rw [h.size_eq, move.image_of_le hle, move.image_of_le h.le]
  omega

/-- A new inline object shows the same, if its content does. -/
theorem inlineViewAt?_eq (h : Alike move d e) (hslot : start ≤ slot)
    (hinside : e.inlineViews (move.image slot) = d.inlineViews slot) :
    e.inlineViewAt? (move.image slot) = d.inlineViewAt? slot := by
  unfold inlineViewAt?
  rw [h.object?_eq slot hslot, hinside]

theorem kind?_eq (h : Alike move d e) (hslot : start ≤ slot) :
    e.kind? (move.image slot) = d.kind? slot := by
  rw [kind?, kind?, h.object?_eq slot hslot]

theorem newParagraphs_eq (h : Alike move d e) : e.newParagraphs start' =
    (d.newParagraphs start).map fun id => ⟨move.image id.slot⟩ := by
  have hsize : e.size - start' = d.size - start := by
    rw [h.size_eq, move.image_of_le h.le]
    omega
  have hkinds : (List.range' start (d.size - start)).filter
      ((fun slot => e.kind? slot == some .paragraph) ∘ move.image) =
        (List.range' start (d.size - start)).filter
          fun slot => d.kind? slot == some .paragraph := by
    refine List.filter_congr fun slot hslot => ?_
    rw [Function.comp_apply, h.kind?_eq (List.mem_range'_1.1 hslot).1]
  rw [newParagraphs, newParagraphs, hsize, ← move.map_image_range', List.filter_map, hkinds,
    List.map_map, List.map_map]
  rfl

variable (hd : d.WellFormed) (he : e.WellFormed)
  (hparents : ∀ child owner, start ≤ child → d.parent? child = some owner →
    home owner ∨ start ≤ owner)

include hd he hparents

/-- The content of a new object, at any depth. -/
theorem inlineViews_eq (h : Alike move d e) (hle : start ≤ slot) (hlt : slot < d.size) :
    e.inlineViews (move.image slot) = d.inlineViews slot := by
  induction slot using d.children_induction with
  | step slot ih =>
    have hchildren := children_eq_newChildren he (move.le_image hle) (h.image_lt_size hle hlt)
    rw [inlineViews_eq_filterMap, inlineViews_eq_filterMap, hchildren,
      h.newChildren_eq hparents (.inr hle), ← children_eq_newChildren hd hle hlt,
      List.filterMap_map]
    refine List.filterMap_congr fun child hchild => ?_
    have hlater := lt_of_mem_children hchild
    refine h.inlineViewAt?_eq (by omega) ?_
    exact ih child hchild (by omega) hlater.2

/-- What is new in an object and in the one that stands for it. -/
theorem newContent_eq (h : Alike move d e) (hslot : home slot ∨ start ≤ slot) :
    (e.newChildren start' (move.image slot)).filterMap e.inlineViewAt? =
      (d.newChildren start slot).filterMap d.inlineViewAt? := by
  rw [h.newChildren_eq hparents hslot, List.filterMap_map]
  refine List.filterMap_congr fun child hchild => ?_
  have hle := le_of_mem_newChildren hchild
  have hlt := lt_size_of_parent? (beq_iff_eq.1 (List.mem_filter.1 hchild).2)
  exact h.inlineViewAt?_eq hle (h.inlineViews_eq hd he hparents hle hlt)

/-- The new paragraphs read the same, one by one. -/
theorem map_paragraphView_eq (h : Alike move d e) :
    (e.newParagraphs start').map e.paragraphView =
      (d.newParagraphs start).map d.paragraphView := by
  rw [h.newParagraphs_eq, List.map_map]
  refine List.map_congr_left fun id hid => ?_
  obtain ⟨slot, hslot, rfl⟩ := List.mem_map.1 hid
  obtain ⟨hle, hlt⟩ := List.mem_range'_1.1 (List.mem_filter.1 hslot).1
  rw [Function.comp_apply, paragraphView_eq, paragraphView_eq, Document.paragraph,
    Document.paragraph, read, read, h.object?_eq slot hle,
    h.inlineViews_eq hd he hparents hle (by omega)]

end Alike

end Galley.Document
