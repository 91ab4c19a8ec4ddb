import Galley.Proofs.Conversion.AnyContext
import Galley.Proofs.Conversion.Lists

/-!
  Where items stand in their lists, under whatever tags items are converted.

  A place sees from the siblings around it whether it begins or ends its list. That is what a
  search through the items of its owner finds, which takes one item, reads the others to their end
  and compares both ends with the place by identity (`ofLocation_eq_search`); equal siblings are
  different places, as their addresses differ. Since the items of a list are all different, the
  ends are those at the first and the last index (`head?_items_eq_some_iff`,
  `getLast?_items_eq_some_iff`).

  A place that is no `li` is never among the items, so the handler of list items puts no marker
  around it (`runOn_listItem_of_not_isItem`). Whatever tags have this handler, the markers that an
  insertion makes are those of `li` elements (`insertInto_markers`).
-/

namespace Galley

open DyckStep

/-! ## Items of a list -/

namespace Location

theorem nodup_items (list : Location) : list.items.Nodup :=
  list.nodup_descendants.sublist list.items_sublist_descendants

/-- Two children of one place are at different addresses, also where they look alike. -/
theorem address_eq_iff {list place other : Location} (hplace : place.parent? = some list)
    (hother : other.parent? = some list) : place.address = other.address ↔ place = other :=
  ⟨eq_of_address_eq (mem_descendants_of_parent? hplace) (mem_descendants_of_parent? hother),
    congrArg address⟩

section Index

variable {list item : Location} {index : Nat}

theorem getElem?_items_eq_iff (h : list.items[index]? = some item) {other : Nat} :
    list.items[other]? = some item ↔ other = index := by
  constructor
  · intro hother
    obtain ⟨hlt, -⟩ := List.getElem?_eq_some_iff.1 hother
    exact (List.getElem?_inj hlt list.nodup_items).1 (hother.trans h.symm)
  · rintro rfl
    exact h

theorem head?_items_eq_some_iff (h : list.items[index]? = some item) :
    list.items.head? = some item ↔ index = 0 := by
  rw [List.head?_eq_getElem?, getElem?_items_eq_iff h, eq_comm]

theorem getLast?_items_eq_some_iff (h : list.items[index]? = some item) :
    list.items.getLast? = some item ↔ index + 1 = list.items.length := by
  obtain ⟨hlt, -⟩ := List.getElem?_eq_some_iff.1 h
  rw [List.getLast?_eq_getElem?, getElem?_items_eq_iff h]
  omega

end Index

end Location

/-! ## The search for a position -/

/-- The position of a place by a search through the items of its owner. One item is taken and the
    others are read to their end; where there are no others, the one that was taken is the last.
    Both ends are compared with the place by identity, that is by the address. -/
def ItemPosition.search (list place : Location) : ItemPosition :=
  let first := list.items.head?
  let last := list.items.tail.getLast?.or first
  { kind := if list.node.isElement "ol" then .ordered else .unordered
    isFirst := first.map Location.address = some place.address
    isLast := last.map Location.address = some place.address }

/-- One element taken and the others read to their end come to the last of all. -/
theorem getLast?_tail_or_head? {α : Type} (values : List α) :
    values.tail.getLast?.or values.head? = values.getLast? := by
  cases values with
  | nil => rfl
  | cons first rest =>
    rw [List.getLast?_cons, List.tail_cons, List.head?_cons]
    cases rest.getLast? <;> rfl

section Search

variable {list place : Location}

/-- An item that was met is the place if the addresses agree. -/
theorem map_address_eq_some_iff (hparent : place.parent? = some list) {met? : Option Location}
    (hmet : ∀ item ∈ met?, item ∈ list.items) :
    met?.map Location.address = some place.address ↔ met? = some place := by
  cases met? with
  | none => exact iff_of_false nofun nofun
  | some item =>
    have hitem := Location.parent?_of_mem_items (hmet item rfl)
    rw [Option.map_some, Option.some.injEq, Option.some.injEq]
    exact Location.address_eq_iff hitem hparent

theorem isFirst_search_iff (hparent : place.parent? = some list) :
    (ItemPosition.search list place).isFirst = true ↔ list.items.head? = some place := by
  rw [ItemPosition.search, decide_eq_true_eq]
  exact map_address_eq_some_iff hparent fun _ h => List.mem_of_mem_head? h

theorem isLast_search_iff (hparent : place.parent? = some list) :
    (ItemPosition.search list place).isLast = true ↔ list.items.getLast? = some place := by
  rw [ItemPosition.search, decide_eq_true_eq, getLast?_tail_or_head?]
  exact map_address_eq_some_iff hparent fun _ h => List.mem_of_mem_getLast? h

theorem kind_ofLocation (hparent : place.parent? = some list) :
    (ItemPosition.ofLocation place).kind =
      if list.node.isElement "ol" then .ordered else .unordered := by
  obtain ⟨node, _ | ⟨crumb, crumbs⟩⟩ := place
  · exact absurd hparent nofun
  · obtain rfl := Option.some.inj hparent
    rfl

/-- A place that is no item neither begins nor ends the list it stands in. -/
theorem ends_of_not_isItem (hparent : place.parent? = some list)
    (hitem : ¬ place.node.isElement "li") :
    (ItemPosition.ofLocation place).isFirst = false ∧
      (ItemPosition.ofLocation place).isLast = false := by
  obtain ⟨node, _ | ⟨crumb, crumbs⟩⟩ := place
  · exact absurd hparent nofun
  · have hli : node.isElement "li" = false := Bool.eq_false_iff.2 hitem
    simp only [ItemPosition.ofLocation, hli, Bool.false_and, and_self]

/-- An item begins or ends its list by its index. -/
theorem ends_of_getElem? {index : Nat} (hindex : list.items[index]? = some place) :
    ((ItemPosition.ofLocation place).isFirst = true ↔ index = 0) ∧
      ((ItemPosition.ofLocation place).isLast = true ↔ index + 1 = list.items.length) := by
  rw [ofLocation_of_getElem? hindex, decide_eq_true_eq, decide_eq_true_eq]
  exact ⟨.rfl, .rfl⟩

/-- A place begins its list if it is the first of the items, and ends it if it is the last. -/
theorem ends_iff (hparent : place.parent? = some list) :
    ((ItemPosition.ofLocation place).isFirst = true ↔ list.items.head? = some place) ∧
      ((ItemPosition.ofLocation place).isLast = true ↔ list.items.getLast? = some place) := by
  by_cases hitem : place.node.isElement "li"
  · obtain ⟨index, hindex⟩ :=
      List.mem_iff_getElem?.1 ((Location.mem_items_iff hparent).2 hitem)
    rw [Location.head?_items_eq_some_iff hindex, Location.getLast?_items_eq_some_iff hindex]
    exact ends_of_getElem? hindex
  · have hmem : place ∉ list.items := fun h => hitem ((Location.mem_items_iff hparent).1 h)
    obtain ⟨hfirst, hlast⟩ := ends_of_not_isItem hparent hitem
    rw [hfirst, hlast]
    exact ⟨iff_of_false nofun fun h => hmem (List.mem_of_mem_head? h),
      iff_of_false nofun fun h => hmem (List.mem_of_mem_getLast? h)⟩

/-- **What a place sees around it is what a search through its owner's items finds.** -/
theorem ofLocation_eq_search (hparent : place.parent? = some list) :
    ItemPosition.ofLocation place = .search list place := by
  obtain ⟨hfirst, hlast⟩ := ends_iff hparent
  rw [← isFirst_search_iff hparent, ← Bool.eq_iff_iff] at hfirst
  rw [← isLast_search_iff hparent, ← Bool.eq_iff_iff] at hlast
  calc ItemPosition.ofLocation place
      = ⟨(ItemPosition.ofLocation place).kind, (ItemPosition.ofLocation place).isFirst,
          (ItemPosition.ofLocation place).isLast⟩ := rfl
    _ = .search list place := by rw [kind_ofLocation hparent, hfirst, hlast]; rfl

end Search

/-! ## List items under other tags -/

section OtherTags

variable {list place : Location} {context : Context} {d : Document}

/-- The contexts that a list item can be put in: sections and paragraphs that are there. -/
def Document.TakesItem (d : Document) (context : Context) : Prop :=
  d.kind? context.slot = some context.kind ∧
    (context.kind = .sectionBlock ∨ context.kind = .paragraph)

/-- A list item where it can be put: its paragraphs, at the end of the section. -/
theorem runOn_listItem_of_takesItem (place : Location) (hd : d.Reachable)
    (htakes : d.TakesItem context) :
    ∃ owner, d.nearestSection context = .ok owner ∧
      (Handler.listItem place context).runOn d =
        Effect.perform owner context d (.ok (Role.itemEffect (.ofLocation place))) := by
  obtain ⟨hkind, hcontext⟩ := htakes
  obtain ⟨owner, hlive⟩ := hd.wellFormed.exists_live hkind
  refine ⟨owner, hlive.nearestSection, (runOn_listItem hlive).trans ?_⟩
  cases context with
  | inSection id | inParagraph id => rfl
  | inRun id | inHyperlink id => exact absurd hcontext (by simp [Context.kind])

/-- Elsewhere a list item fails and does nothing. -/
theorem runOn_listItem_of_not_takesItem (place : Location) (hd : d.Reachable)
    (htakes : ¬ d.TakesItem context) :
    ∃ cause, (Handler.listItem place context).runOn d = (.error cause, d) := by
  by_cases hkind : d.kind? context.slot = some context.kind
  · obtain ⟨owner, hlive⟩ := hd.wellFormed.exists_live hkind
    cases context with
    | inSection id => exact absurd ⟨hkind, .inl rfl⟩ htakes
    | inParagraph id => exact absurd ⟨hkind, .inr rfl⟩ htakes
    | inRun id | inHyperlink id => exact ⟨_, runOn_listItem hlive⟩
  · obtain ⟨cause, hrefused⟩ := Document.exists_refuses context.handle hkind
    have hfails : (Handler.listItem place context).runOn d = _ :=
      runOn_listItem_of_refused hrefused
    cases context with
    | inSection id | inParagraph id | inRun id | inHyperlink id => exact ⟨_, hfails⟩

/-- **A list item that is no `li` gets no marker.** Where it can be put it adds one paragraph, that
    of an item which goes on with its list. -/
theorem runOn_listItem_of_not_isItem (hparent : place.parent? = some list)
    (hitem : ¬ place.node.isElement "li") (context : Context) (hd : d.Reachable) :
    (d.TakesItem context → ∃ owner, d.nearestSection context = .ok owner ∧
      (Handler.listItem place context).runOn d =
        (.ok (.inParagraph ⟨d.size⟩), d.push owner.slot (.paragraph
          (itemParagraph ⟨(ItemPosition.ofLocation place).kind, false, false⟩)))) ∧
    (¬ d.TakesItem context →
      ∃ cause, (Handler.listItem place context).runOn d = (.error cause, d)) := by
  refine ⟨fun htakes => ?_, runOn_listItem_of_not_takesItem place hd⟩
  obtain ⟨owner, howner, hrun⟩ := runOn_listItem_of_takesItem place hd htakes
  obtain ⟨hfirst, hlast⟩ := ends_of_not_isItem hparent hitem
  refine ⟨owner, howner, hrun.trans ?_⟩
  rw [Role.itemEffect, itemParagraph, hfirst, hlast]
  rfl

theorem created_marker?_of_not_isItem (hparent : place.parent? = some list)
    (hitem : ¬ place.node.isElement "li") (context : Context) (hd : d.Reachable) :
    ((Handler.listItem place context).runOn d).2.created DocumentObject.marker? d.size = [] := by
  obtain ⟨htakes, hother⟩ := runOn_listItem_of_not_isItem hparent hitem context hd
  by_cases h : d.TakesItem context
  · obtain ⟨owner, -, hrun⟩ := htakes h
    rw [hrun, Document.created_push (Nat.le_refl _), Document.created_self]
    exact congrArg Option.toList (marker?_item _)
  · obtain ⟨cause, hrun⟩ := hother h
    rw [hrun, Document.created_self]

end OtherTags

/-! ## Markers of an insertion -/

/-- The brackets around a place, where the handler of its key is that of list items. -/
def Location.itemBrackets (roles : TagKey → Option Role) (place : Location) : List DyckStep :=
  if place.node.role? roles = some .listItem then (ItemPosition.ofLocation place).brackets else []

/-- Below a root only an `li` has brackets around it. -/
theorem itemBrackets_of_mem_descendants {roles : TagKey → Option Role} {root place : Location}
    (hplace : place ∈ root.descendants) :
    place.itemBrackets roles =
      if roles (.element "li") = some .listItem then place.markers else [] := by
  rw [Location.itemBrackets]
  by_cases hitem : place.node.isElement "li"
  · have hrole : place.node.role? roles = roles (.element "li") := by
      rw [Node.role?, isElement_iff_key?.1 hitem, Option.bind_some]
    have hmarkers : place.markers = (ItemPosition.ofLocation place).brackets := if_pos hitem
    rw [hrole, hmarkers]
  · obtain ⟨list, hparent, -⟩ := Location.parent?_of_mem_descendants hplace
    obtain ⟨hfirst, hlast⟩ := ends_of_not_isItem hparent hitem
    have hbrackets : (ItemPosition.ofLocation place).brackets = [] := by
      rw [ItemPosition.brackets, hfirst, hlast]
      rfl
    rw [hbrackets, markers_of_not_isItem (Bool.eq_false_iff.2 hitem), ite_self, ite_self]

theorem flatMap_itemBrackets (roles : TagKey → Option Role) (root : Location) :
    root.descendants.flatMap (Location.itemBrackets roles) =
      if roles (.element "li") = some .listItem then root.descendants.flatMap Location.markers
      else [] := by
  rw [List.flatMap_congr fun place hplace => itemBrackets_of_mem_descendants hplace]
  split
  · rfl
  · exact List.flatMap_eq_nil_iff.2 fun _ _ => rfl

theorem brackets_of_call {roles : TagKey → Option Role} (place : Location) (role : Role)
    (context : Context) (effect : Effect) (hrole : place.node.role? roles = some role)
    (heffect : role.effect place context = .ok effect) :
    (effect.objects context).filterMap DocumentObject.marker? = place.itemBrackets roles := by
  rw [filterMap_marker?_objects, brackets_of_effect heffect, Location.itemBrackets, hrole]
  exact if_congr Option.some_inj.symm rfl rfl

/-- **The markers of an insertion are those of `li` elements**, whatever tags have the usual
    handlers: all of them in the order of the markup where it succeeds and `li` has the handler of
    list items, a first part where it fails, and none where `li` has another handler or none. -/
theorem insertInto_markers {conversion : Conversion} {roles : TagKey → Option Role}
    (hassembled : conversion.converter.registry.Assembled roles) {d d' : Document}
    (hd : d.Reachable) {into : Target} {outcome : Except ConvertError Unit}
    (hinsert : (conversion.insertInto into).runOn d = (outcome, d')) :
    let word := if roles (.element "li") = some .listItem
      then conversion.markup.descendants.flatMap Location.markers else []
    (outcome = .ok () → d'.created DocumentObject.marker? d.size = word) ∧
      d'.created DocumentObject.marker? d.size <+: word := by
  intro word
  have hword : _ = word := flatMap_itemBrackets roles conversion.markup
  cases hresolve : d.resolve into with
  | error cause =>
    rw [Conversion.insertInto, Edit.runOn_bind, Edit.runOn_query, hresolve] at hinsert
    obtain ⟨rfl, rfl⟩ := Prod.mk.inj hinsert
    rw [Document.created_self]
    exact ⟨fun hok => absurd hok (by simp), List.nil_prefix⟩
  | ok context =>
    rw [← hword]
    refine insertInto_created hassembled hd.wellFormed hresolve hinsert (fun _ _ => rfl)
      brackets_of_call fun place hrole => ?_
    exact if_neg (hrole ▸ (Option.some_ne_none _).symm)

/-- **An item's position is its place among the items of its list.**

    The items of a list are the `li` nodes among its children. A place that stands in it has the
    position that a search through the items finds, and its kind from the list. An item has one
    index, by which it begins or ends the list; items that look alike have different ones. A place
    that is no `li` neither begins nor ends the list. There the handler of list items adds one
    paragraph and no marker, or fails and adds nothing. So with usual handlers under any tags, all
    markers of an insertion are those of `li` elements, if `li` has the handler of list items. -/
theorem position_among_items :
    (∀ list place : Location, place.parent? = some list →
      let position := ItemPosition.ofLocation place
      list.items.map Location.node = list.node.children.filter Node.isItem ∧
      position = .search list place ∧
      (position.kind = .ordered ↔ list.node.isElement "ol") ∧
      (place.node.isElement "li" → ∃ index < list.items.length,
        (∀ other, list.items[other]? = some place ↔ other = index) ∧
        (position.isFirst ↔ index = 0) ∧
        (position.isLast ↔ index = list.items.length - 1)) ∧
      (¬ place.node.isElement "li" →
        position.isFirst = false ∧ position.isLast = false ∧
        ∀ (d : Document) (context : Context), d.Reachable →
          ((Handler.listItem place context).runOn d).2.created DocumentObject.marker? d.size =
              [] ∧
            (d.TakesItem context → ∃ owner, d.nearestSection context = .ok owner ∧
              (Handler.listItem place context).runOn d =
                (.ok (.inParagraph ⟨d.size⟩), d.push owner.slot (.paragraph
                  { style := some position.kind.style
                    listInfo := some ⟨position.kind.listType, true⟩ }))) ∧
            (¬ d.TakesItem context →
              ∃ cause, (Handler.listItem place context).runOn d = (.error cause, d)))) ∧
    ∀ (conversion : Conversion) (roles : TagKey → Option Role),
      conversion.converter.registry.Assembled roles →
      ∀ (d d' : Document) (into : Target) (outcome : Except ConvertError Unit), d.Reachable →
        (conversion.insertInto into).runOn d = (outcome, d') →
        let word := if roles (.element "li") = some .listItem
          then conversion.markup.descendants.flatMap Location.markers else []
        (outcome = .ok () → d'.created DocumentObject.marker? d.size = word) ∧
          d'.created DocumentObject.marker? d.size <+: word := by
  refine ⟨fun list place hparent => ?_, fun conversion roles hassembled d d' into outcome hd =>
    insertInto_markers hassembled hd⟩
  refine ⟨list.map_node_items, ofLocation_eq_search hparent, ?_, fun hitem => ?_,
    fun hitem => ?_⟩
  · rw [kind_ofLocation hparent]
    cases list.node.isElement "ol" <;> simp
  · obtain ⟨index, hindex⟩ :=
      List.mem_iff_getElem?.1 ((Location.mem_items_iff hparent).2 hitem)
    obtain ⟨hlt, -⟩ := List.getElem?_eq_some_iff.1 hindex
    obtain ⟨hfirst, hlast⟩ := ends_of_getElem? hindex
    refine ⟨index, hlt, fun other => Location.getElem?_items_eq_iff hindex, hfirst,
      hlast.trans ?_⟩
    omega
  · obtain ⟨hfirst, hlast⟩ := ends_of_not_isItem hparent hitem
    refine ⟨hfirst, hlast, fun d context hd => ⟨?_, ?_⟩⟩
    · exact created_marker?_of_not_isItem hparent hitem context hd
    · exact runOn_listItem_of_not_isItem hparent hitem context hd

/-- Two items that look alike, with a text between them: the first begins the list and the second
    ends it. The `dd` after them is converted as a list item too, and has no marker. -/
theorem position_among_items_alike :
    let d : Document := Document.empty.push 0 .sectionBlock
    let item : Node := .branch (.element "li" []) []
    let other : Node := .branch (.element "dd" []) []
    let nodes : List Node := [item, .text "x", item, other]
    let root : Location := ⟨.branch .fragment [.branch (.element "ol" []) nodes], []⟩
    let list : Location := ⟨.branch (.element "ol" []) nodes, [⟨.fragment, [], []⟩]⟩
    let first : Location := ⟨item, ⟨.element "ol" [], [], [.text "x", item, other]⟩ :: list.crumbs⟩
    let last : Location := ⟨item, ⟨.element "ol" [], [.text "x", item], [other]⟩ :: list.crumbs⟩
    let registry := (Registry.withDefaults {}).insert (.element "dd") Role.listItem.handler
    let inserted := (Conversion.insertInto ⟨⟨registry, {}⟩, root⟩ (.intoSection ⟨1⟩)).runOn d
    first.parent? = some list ∧ last.parent? = some list ∧ first.node = last.node ∧
      ItemPosition.ofLocation first = .search list first ∧
      ItemPosition.ofLocation last = .search list last ∧
      ItemPosition.ofLocation first = ⟨.ordered, true, false⟩ ∧
      ItemPosition.ofLocation last = ⟨.ordered, false, true⟩ ∧
      d.Reachable ∧ inserted.1 = .ok () ∧
      inserted.2.created DocumentObject.marker? d.size = [U, D] := by
  intro d item other nodes root list first last registry inserted
  have hreachable : d.Reachable := .perform .addSection .empty rfl
  have hassembled := (assembled_withDefaults {}).insert (.element "dd") .listItem
  have hok : inserted.1 = .ok () := by decide +kernel
  obtain ⟨hpositions, hmarkers⟩ := position_among_items
  obtain ⟨-, hfirst, -⟩ := hpositions list first rfl
  obtain ⟨-, hlast, -⟩ := hpositions list last rfl
  have hroles : (if TagKey.element "li" = .element "dd" then some Role.listItem
      else usualRole? {} (.element "li")) = some .listItem := by decide +kernel
  have hword : root.descendants.flatMap Location.markers = [U, D] := rfl
  obtain ⟨hall, -⟩ := hmarkers ⟨⟨registry, {}⟩, root⟩ _ hassembled d inserted.2 (.intoSection ⟨1⟩)
    inserted.1 hreachable Prod.mk.eta.symm
  rw [if_pos hroles, hword] at hall
  exact ⟨rfl, rfl, rfl, hfirst, hlast, rfl, rfl, hreachable, hok, hall hok⟩

end Galley
