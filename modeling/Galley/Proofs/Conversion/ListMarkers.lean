import Mathlib.Combinatorics.Enumerative.DyckWord
import Galley.Conversion.ListItem
import Galley.Proofs.Markup.DocumentOrder

/-!
  The markers of lists, as brackets along the markup.

  An item says from its siblings alone whether its list begins or ends with it, and the end marker
  comes before what is inside the last item. Still the markers of any tree are balanced
  (`balanced_descendants`): along siblings the walk is inside a list where there is an item both
  before and ahead, and what is left then closes exactly one bracket (`Closing`).
  `ofLocation_of_getElem?` gives an item's position from its index among the items.
-/

namespace Galley

open DyckStep

/-! ## Bracket words -/

/-- All brackets of the word are matched. -/
def Balanced (word : List DyckStep) : Prop :=
  ∃ dyck : DyckWord, dyck.toList = word

/-- The word closes one bracket that was opened before it, and all others are matched. -/
def Closing (word : List DyckStep) : Prop :=
  ∃ inner outer : DyckWord, inner.toList ++ D :: outer.toList = word

variable {word word' : List DyckStep}

theorem balanced_nil : Balanced [] :=
  ⟨0, rfl⟩

theorem Balanced.append (h : Balanced word) (h' : Balanced word') : Balanced (word ++ word') := by
  obtain ⟨dyck, rfl⟩ := h
  obtain ⟨dyck', rfl⟩ := h'
  exact ⟨dyck + dyck', rfl⟩

theorem Balanced.append_closing (h : Balanced word) (h' : Closing word') :
    Closing (word ++ word') := by
  obtain ⟨dyck, rfl⟩ := h
  obtain ⟨inner, outer, rfl⟩ := h'
  exact ⟨dyck + inner, outer, List.append_assoc _ _ _⟩

theorem Balanced.closing (h : Balanced word) : Closing (D :: word) := by
  obtain ⟨dyck, rfl⟩ := h
  exact ⟨0, dyck, rfl⟩

/-- Opening a bracket before a word that closes one. -/
theorem Closing.balanced (h : Closing word) : Balanced (U :: word) := by
  obtain ⟨inner, outer, rfl⟩ := h
  refine ⟨inner.nest + outer, ?_⟩
  show U :: (inner.toList ++ [D]) ++ outer.toList = _
  rw [List.cons_append, List.append_assoc]
  rfl

/-! ## Markers along the markup -/

/-- Whether a node is a list item. -/
def Node.isItem (node : Node) : Bool := node.isElement "li"

/-- The brackets that a place adds: one where its list begins with it, one where it ends. -/
def Location.markers (place : Location) : List DyckStep :=
  if place.node.isItem then
    (if (ItemPosition.ofLocation place).isFirst then [U] else []) ++
      (if (ItemPosition.ofLocation place).isLast then [D] else [])
  else []

section Siblings

variable {label : Label} {crumbs : List Crumb} {before after : List Node} {node : Node}

theorem markers_of_not_isItem {place : Location} (h : place.node.isItem = false) :
    place.markers = [] := by
  rw [Location.markers, h]
  rfl

/-- The brackets of an item: it begins its list if there is no item before it, and ends it if there
    is none after it. -/
theorem markers_of_isItem (h : node.isItem = true) :
    (⟨node, ⟨label, before, after⟩ :: crumbs⟩ : Location).markers =
      (if before.any Node.isItem then [] else [U]) ++
        (if after.any Node.isItem then [] else [D]) := by
  have hitem : node.isElement "li" = true := h
  have hbefore : (before.any fun node => node.isElement "li") = before.any Node.isItem := rfl
  have hafter : (after.any fun node => node.isElement "li") = after.any Node.isItem := rfl
  rw [Location.markers, if_pos h]
  simp only [ItemPosition.ofLocation, hitem, Bool.true_and, hbefore, hafter]
  cases before.any Node.isItem <;> cases after.any Node.isItem <;> rfl

end Siblings

mutual

theorem balanced_below (crumbs : List Crumb) (node : Node) :
    Balanced ((Location.below crumbs node).flatMap Location.markers) :=
  match node with
  | .text _ => balanced_nil
  | .comment _ => balanced_nil
  | .branch label nodes => by
    have hsiblings := balanced_belowAll label crumbs [] nodes
    rw [List.any_nil, Bool.false_and, if_neg Bool.false_ne_true] at hsiblings
    exact hsiblings

/-- Along siblings the brackets are balanced, but for one that is open where there are items both
    before these siblings and among them. -/
theorem balanced_belowAll (label : Label) (crumbs : List Crumb) (before nodes : List Node) :
    if before.any Node.isItem && nodes.any Node.isItem then
      Closing ((Location.belowAll label crumbs before nodes).flatMap Location.markers)
    else Balanced ((Location.belowAll label crumbs before nodes).flatMap Location.markers) :=
  match nodes with
  | [] => by
    rw [List.any_nil, Bool.and_false, if_neg Bool.false_ne_true]
    exact balanced_nil
  | node :: after => by
    have hinside := balanced_below (⟨label, before, after⟩ :: crumbs) node
    have hrest := balanced_belowAll label crumbs (node :: before) after
    rw [Location.belowAll, List.flatMap_cons, List.flatMap_append]
    rw [List.any_cons] at hrest ⊢
    cases hitem : node.isItem with
    | false =>
      rw [markers_of_not_isItem hitem, List.nil_append, Bool.false_or]
      rw [hitem, Bool.false_or] at hrest
      split
      · next hopen =>
        rw [if_pos hopen] at hrest
        exact hinside.append_closing hrest
      · next hopen =>
        rw [if_neg hopen] at hrest
        exact hinside.append hrest
    | true =>
      rw [markers_of_isItem hitem, Bool.true_or, Bool.and_true]
      rw [hitem, Bool.true_or, Bool.true_and] at hrest
      cases hafter : after.any Node.isItem with
      | true =>
        rw [hafter, if_pos rfl] at hrest
        have hopen := hinside.append_closing hrest
        cases before.any Node.isItem with
        | false => exact hopen.balanced
        | true => exact hopen
      | false =>
        rw [hafter, if_neg Bool.false_ne_true] at hrest
        have hclose := (hinside.append hrest).closing
        cases before.any Node.isItem with
        | false => exact hclose.balanced
        | true => exact hclose

end

theorem balanced_descendants (root : Location) :
    Balanced (root.descendants.flatMap Location.markers) :=
  balanced_below root.crumbs root.node

/-! ## Positions of items -/

/-- The items among the children of a place. -/
def Location.items (place : Location) : List Location :=
  place.children.filter fun child => child.node.isItem

theorem Location.parent?_of_mem_items {list item : Location} (h : item ∈ list.items) :
    item.parent? = some list :=
  parent?_of_mem_children (List.mem_filter.1 h).1

theorem Location.mem_items_iff {list place : Location} (hparent : place.parent? = some list) :
    place ∈ list.items ↔ place.node.isItem := by
  rw [items, List.mem_filter, and_iff_right (mem_children_of_parent? hparent)]

theorem Location.map_node_siblings (label : Label) (crumbs : List Crumb)
    (before nodes : List Node) :
    (siblings label crumbs before nodes).map Location.node = nodes := by
  induction nodes generalizing before with
  | nil => rfl
  | cons node after ih => rw [siblings, List.map_cons, ih]

theorem Location.map_node_children (place : Location) :
    place.children.map Location.node = place.node.children := by
  obtain ⟨node, crumbs⟩ := place
  cases node with
  | branch label nodes => exact map_node_siblings label crumbs [] nodes
  | _ => rfl

/-- The items are the `li` nodes among the children, one for each, in their order. -/
theorem Location.map_node_items (place : Location) :
    place.items.map Location.node = place.node.children.filter Node.isItem := by
  rw [← place.map_node_children, List.filter_map]
  rfl

theorem Location.length_items (place : Location) :
    place.items.length = place.node.children.countP Node.isItem := by
  rw [List.countP_eq_length_filter, ← place.map_node_items, List.length_map]

/-- An item stands after as many items as its index says, and before the others. -/
theorem crumbs_of_getElem?_siblings {label : Label} {crumbs : List Crumb}
    {before nodes : List Node} {index : Nat} {item : Location}
    (h : ((Location.siblings label crumbs before nodes).filter
      fun child => child.node.isItem)[index]? = some item) :
    ∃ node before' after', item = ⟨node, ⟨label, before', after'⟩ :: crumbs⟩ ∧
      node.isItem = true ∧
      before'.countP Node.isItem = before.countP Node.isItem + index ∧
      index + 1 + after'.countP Node.isItem = nodes.countP Node.isItem := by
  induction nodes generalizing before index with
  | nil => exact absurd h (by simp [Location.siblings])
  | cons node after ih =>
    rw [Location.siblings, List.filter_cons] at h
    by_cases hitem : node.isItem = true
    · rw [if_pos hitem] at h
      rw [List.countP_cons, if_pos hitem]
      cases index with
      | zero =>
        rw [List.getElem?_cons_zero, Option.some.injEq] at h
        exact ⟨node, before, after, h.symm, hitem, rfl, by omega⟩
      | succ index =>
        rw [List.getElem?_cons_succ] at h
        obtain ⟨node', before', after', rfl, hnode, hbefore, hafter⟩ := ih h
        rw [List.countP_cons, if_pos hitem] at hbefore
        exact ⟨node', before', after', rfl, hnode, by omega, by omega⟩
    · rw [if_neg hitem] at h
      obtain ⟨node', before', after', rfl, hnode, hbefore, hafter⟩ := ih h
      rw [List.countP_cons, if_neg hitem] at hbefore
      rw [List.countP_cons, if_neg hitem]
      exact ⟨node', before', after', rfl, hnode, hbefore, hafter⟩

theorem not_any_eq_decide_countP (nodes : List Node) :
    (!nodes.any fun node => node.isElement "li") = decide (nodes.countP Node.isItem = 0) := by
  have hany : (nodes.any fun node => node.isElement "li") = nodes.any Node.isItem := rfl
  rw [hany]
  cases h : nodes.any Node.isItem with
  | false =>
    rw [List.any_eq_false] at h
    rw [decide_eq_true (List.countP_eq_zero.2 h)]
    rfl
  | true =>
    rw [List.any_eq_true] at h
    obtain ⟨node, hnode, hitem⟩ := h
    refine (decide_eq_false fun hzero => ?_).symm
    exact List.countP_eq_zero.1 hzero node hnode hitem

/-- An item finds itself first or last by its index among the items of its parent. -/
theorem ofLocation_of_getElem? {parent item : Location} {index : Nat}
    (h : parent.items[index]? = some item) :
    ItemPosition.ofLocation item =
      { kind := if parent.node.isElement "ol" then .ordered else .unordered
        isFirst := index = 0
        isLast := index + 1 = parent.items.length } := by
  obtain ⟨node, crumbs⟩ := parent
  cases node with
  | text content => exact absurd h (by simp [Location.items, Location.children])
  | comment content => exact absurd h (by simp [Location.items, Location.children])
  | branch label nodes =>
    have hlength : (Location.items ⟨.branch label nodes, crumbs⟩).length =
        nodes.countP Node.isItem :=
      Location.length_items _
    obtain ⟨node, before, after, rfl, hitem, hbefore, hafter⟩ := crumbs_of_getElem?_siblings h
    have hli : node.isElement "li" = true := hitem
    have hfirst : before.countP Node.isItem = index := by
      rw [hbefore, List.countP_nil, Nat.zero_add]
    have hlast : after.countP Node.isItem = 0 ↔ index + 1 = nodes.countP Node.isItem := by
      omega
    rw [hlength]
    simp only [ItemPosition.ofLocation, hli, Bool.true_and, not_any_eq_decide_countP, hfirst,
      hlast]
    rfl

end Galley
