import Galley.Document.Basic

/-!
What the two ways to change a document, adding an object at the end and changing one in place, do
to the objects, their parents and their children.
-/

namespace Galley.Document

variable {d : Document} {parent slot other : Nat} {value : DocumentObject}

@[simp]
theorem size_push : (d.push parent value).size = d.size + 1 :=
  Array.size_push ..

@[simp]
theorem size_put : (d.put slot value).size = d.size :=
  Array.size_modify ..

theorem object?_push :
    (d.push parent value).object? slot = if slot = d.size then some value else d.object? slot := by
  simp only [object?, push, Array.getElem?_push, size]
  by_cases h : slot = d.entries.size <;> simp [h]

theorem parent?_push :
    (d.push parent value).parent? slot = if slot = d.size then some parent else d.parent? slot := by
  simp only [parent?, push, Array.getElem?_push, size]
  by_cases h : slot = d.entries.size <;> simp [h]

theorem object?_push_self : (d.push parent value).object? d.size = some value :=
  object?_push.trans (if_pos rfl)

theorem parent?_push_self : (d.push parent value).parent? d.size = some parent :=
  parent?_push.trans (if_pos rfl)

theorem object?_eq_none_iff : d.object? slot = none ↔ d.size ≤ slot := by
  simp [object?, size]

theorem object?_put :
    (d.put slot value).object? other =
      if other = slot then (d.object? other).map fun _ => value else d.object? other := by
  simp only [object?, put, Array.getElem?_modify, eq_comm (a := slot)]
  split
  · cases d.entries[other]? <;> rfl
  · rfl

@[simp]
theorem parent?_put : (d.put slot value).parent? other = d.parent? other := by
  simp only [parent?, put, Array.getElem?_modify]
  split
  · cases d.entries[other]? <;> rfl
  · rfl

@[simp]
theorem children_put : (d.put slot value).children other = d.children other := by
  simp only [children, size_put, parent?_put]

/-- Induction from the children of an object, which stand in later slots, to the object. -/
theorem children_induction (d : Document) {motive : Nat → Prop}
    (step : ∀ slot, (∀ child ∈ d.children slot, motive child) → motive slot) (slot : Nat) :
    motive slot :=
  step slot fun child _ => children_induction d step child
termination_by d.size - slot
decreasing_by
  have := lt_of_mem_children ‹child ∈ d.children slot›
  omega

/-- A new object is the last child of its parent, and of no other. -/
theorem children_push (hslot : slot < d.size) :
    (d.push parent value).children slot =
      d.children slot ++ if parent = slot then [d.size] else [] := by
  have hlen : d.size + 1 - (slot + 1) = d.size - (slot + 1) + 1 := by omega
  have hlast : slot + 1 + 1 * (d.size - (slot + 1)) = d.size := by omega
  simp only [children, size_push, hlen, List.range'_concat, hlast, List.filter_append,
    List.filter_cons, List.filter_nil]
  congr 1
  · refine List.filter_congr fun child hchild => ?_
    rw [List.mem_range'_1] at hchild
    rw [parent?_push, if_neg (by omega)]
  · rw [parent?_push, if_pos rfl]
    by_cases h : parent = slot <;> simp [h]

end Galley.Document
