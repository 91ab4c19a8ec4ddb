import Mathlib.Data.List.Nodup
import Galley.Proofs.Conversion.ExistingContent
import Galley.Proofs.Conversion.ListMarkers
import Galley.Proofs.Conversion.UsualRoles

/-!
  The paragraphs of lists that the usual converter makes.

  `itemGroup` is what one list item adds to its section: its own paragraph, after a start marker
  where it is the first of its siblings and before an end marker where it is the last. By
  `insertInto_lists` the new paragraphs of an insertion are groups of this form, one for each item
  in document order, and others that are no part of lists; and the markers among them are balanced.
-/

namespace Galley

open DyckStep

def DocumentObject.paragraph? : DocumentObject → Option Paragraph
  | .paragraph value => some value
  | _ => none

theorem map_paragraph_filter (d : Document) (slots : List Nat) :
    ((slots.filter fun slot => d.kind? slot == some .paragraph).map Handle.mk).map d.paragraph =
      (slots.filterMap fun slot => (d.object? slot).bind DocumentObject.paragraph?).map
        Except.ok := by
  induction slots with
  | nil => rfl
  | cons slot slots ih =>
    rw [List.filter_cons, List.filterMap_cons]
    cases hobject : d.object? slot with
    | none =>
      rw [Document.kind?, hobject]
      exact ih
    | some object =>
      rw [Document.kind?_of_object? hobject]
      cases object with
      | paragraph value =>
        have hread : d.paragraph ⟨slot⟩ = .ok value := Document.paragraph_eq_ok.2 hobject
        exact congrArg₂ List.cons hread ih
      | _ => exact ih

/-- The bracket that a marker paragraph stands for. -/
def Paragraph.marker? (paragraph : Paragraph) : Option DyckStep :=
  if paragraph.style = some "ListStart" then some U
  else if paragraph.style = some "ListEnd" then some D
  else none

/-- The bracket that a document object stands for. -/
def DocumentObject.marker? (object : DocumentObject) : Option DyckStep :=
  object.paragraph?.bind Paragraph.marker?

theorem created_marker? (start : Nat) (d : Document) :
    d.created DocumentObject.marker? start =
      (d.created DocumentObject.paragraph? start).filterMap Paragraph.marker? := by
  unfold Document.created
  rw [List.filterMap_filterMap]
  refine List.filterMap_congr fun slot _ => ?_
  cases d.object? slot <;> rfl

/-- What the item at an index adds, of a list with `count` items. -/
def itemGroup (ordered : Bool) (index count : Nat) : List Paragraph :=
  (if index = 0 then [styled "ListStart"] else []) ++
    { style := some (if ordered then "OrderedList" else "UnorderedList")
      listInfo := some ⟨if ordered then .numberList1 else .bulletList1, index ≠ 0⟩ } ::
    (if index + 1 = count then [styled "ListEnd"] else [])

/-! ## What calls add -/

/-- The paragraphs that a call adds. -/
def Effect.paragraphs (effect : Effect) (context : Context) : List Paragraph :=
  (effect.objects context).filterMap DocumentObject.paragraph?

theorem paragraphs_blocks (before after : List Paragraph) (value : Paragraph) (context : Context) :
    (Effect.blocks before value after).paragraphs context = before ++ value :: after := by
  rw [Effect.paragraphs, Effect.objects, List.filterMap_map]
  exact List.filterMap_some

/-- Only paragraphs are markers. -/
theorem filterMap_marker?_objects (effect : Effect) (context : Context) :
    (effect.objects context).filterMap DocumentObject.marker? =
      (effect.paragraphs context).filterMap Paragraph.marker? := by
  rw [Effect.paragraphs, List.filterMap_filterMap]
  rfl

/-- No part of a list: neither a marker nor an item. -/
def Paragraph.Plain (paragraph : Paragraph) : Prop :=
  paragraph.marker? = none ∧ paragraph.listInfo = none

theorem plain_of_style {paragraph : Paragraph} (hstart : paragraph.style ≠ some "ListStart")
    (hend : paragraph.style ≠ some "ListEnd") (hinfo : paragraph.listInfo = none) :
    paragraph.Plain := by
  refine ⟨?_, hinfo⟩
  rw [Paragraph.marker?, if_neg hstart, if_neg hend]

/-- Whether a call adds block content. -/
def Effect.addsBlocks : Effect → Bool
  | blocks _ _ _ => true
  | _ => false

/-- Without block content a call only ever begins a paragraph that carries nothing, and that in a
    section. -/
theorem paragraphs_of_not_addsBlocks {effect : Effect} (h : effect.addsBlocks = false)
    (context : Context) :
    effect.paragraphs context = [] ∨
      context.kind = .sectionBlock ∧ effect.paragraphs context = [{}] := by
  cases effect with
  | nothing => exact .inl rfl
  | flag format => exact .inl rfl
  | blocks before value after => exact absurd h nofun
  | content value =>
    cases context with
    | inSection id =>
      refine .inr ⟨rfl, ?_⟩
      cases value <;> rfl
    | _ =>
      refine .inl ?_
      cases value <;> rfl

/-- The paragraphs of an item: its own, between the markers where its list begins and ends. -/
def itemBlocks (position : ItemPosition) : List Paragraph :=
  (if position.isFirst then [styled listStartStyle] else []) ++
    itemParagraph position :: (if position.isLast then [styled listEndStyle] else [])

/-- The brackets around an item: one where its list begins, one where it ends. -/
def ItemPosition.brackets (position : ItemPosition) : List DyckStep :=
  (if position.isFirst then [U] else []) ++ (if position.isLast then [D] else [])

/-- The block paragraphs that a usual handler makes of a place. -/
def Role.blocks (place : Location) : Role → List Paragraph
  | heading =>
    let level := (place.node.name?.getD "").toList.dropWhile fun c => !c.isDigit
    [styled ("Heading" ++ String.ofList level)]
  | paragraph => [{ alignment := (place.node.attr? "style").bind textAlignment }]
  | horizontalRule => [styled "HorizontalRule"]
  | listItem => itemBlocks (.ofLocation place)
  | _ => []

section Calls

variable {place : Location} {context : Context} {effect : Effect} {role : Role}

/-- No heading is a marker. -/
theorem heading_ne_marker (level : String) :
    "Heading" ++ level ≠ "ListStart" ∧ "Heading" ++ level ≠ "ListEnd" := by
  constructor <;>
  · intro h
    have hfirst := congrArg (fun text => text.toList.head?) h
    simp at hfirst

theorem effect_of_listItem (h : Role.listItem.effect place context = .ok effect) :
    effect = Role.itemEffect (.ofLocation place) := by
  cases Role.does_of_effect h with
  | listItem => rfl

/-- A call adds the block paragraphs of its handler, or it begins a paragraph that carries nothing
    in a section. -/
theorem paragraphs_of_effect (h : role.effect place context = .ok effect) :
    effect.paragraphs context = role.blocks place ∨
      context.kind = .sectionBlock ∧ role.blocks place = [] ∧ effect.paragraphs context = [{}] := by
  have hinline (hblocks : role.blocks place = []) (hadds : effect.addsBlocks = false) :
      effect.paragraphs context = role.blocks place ∨
        context.kind = .sectionBlock ∧ role.blocks place = [] ∧
          effect.paragraphs context = [{}] := by
    rw [hblocks]
    exact (paragraphs_of_not_addsBlocks hadds context).imp id fun h => ⟨h.1, rfl, h.2⟩
  cases Role.does_of_effect h with
  | heading | paragraph | horizontalRule | listItem => exact .inl (paragraphs_blocks _ _ _ _)
  | _ => exact hinline rfl rfl

/-- Only the handler of list items makes parts of lists. -/
theorem plain_of_effect (h : role.effect place context = .ok effect) (hrole : role ≠ .listItem) :
    ∀ paragraph ∈ effect.paragraphs context, paragraph.Plain := by
  have hblocks : ∀ paragraph ∈ role.blocks place, paragraph.Plain := by
    cases role with
    | heading =>
      refine List.forall_mem_singleton.2 (plain_of_style (fun heq => ?_) (fun heq => ?_) rfl)
      · exact (heading_ne_marker _).1 (Option.some.inj heq)
      · exact (heading_ne_marker _).2 (Option.some.inj heq)
    | paragraph => exact List.forall_mem_singleton.2 ⟨rfl, rfl⟩
    | horizontalRule => exact List.forall_mem_singleton.2 ⟨by decide, rfl⟩
    | listItem => exact absurd rfl hrole
    | _ => exact fun _ h => absurd h List.not_mem_nil
  rcases paragraphs_of_effect h with heq | ⟨-, -, heq⟩
  · rw [heq]
    exact hblocks
  · rw [heq]
    exact List.forall_mem_singleton.2 ⟨rfl, rfl⟩

/-- A list item adds the paragraphs that its position calls for. -/
theorem paragraphs_of_listItem (h : Role.listItem.effect place context = .ok effect) :
    effect.paragraphs context = itemBlocks (.ofLocation place) := by
  rw [effect_of_listItem h, Role.itemEffect, paragraphs_blocks, itemBlocks]

theorem marker?_item (position : ItemPosition) : (itemParagraph position).marker? = none := by
  unfold itemParagraph
  cases position.kind <;> rfl

/-- The markers that a call adds are the brackets of its place, if it is for a list item. -/
theorem brackets_of_effect (heffect : role.effect place context = .ok effect) :
    (effect.paragraphs context).filterMap Paragraph.marker? =
      if role = .listItem then (ItemPosition.ofLocation place).brackets else [] := by
  by_cases hitem : role = .listItem
  · subst hitem
    rw [paragraphs_of_listItem heffect, if_pos rfl, itemBlocks, List.filterMap_append,
      List.filterMap_cons_none (marker?_item _), ItemPosition.brackets]
    cases (ItemPosition.ofLocation place).isFirst <;>
      cases (ItemPosition.ofLocation place).isLast <;> rfl
  · rw [if_neg hitem, List.filterMap_eq_nil_iff]
    exact fun paragraph hparagraph => (plain_of_effect heffect hitem paragraph hparagraph).1

/-- The markers that a call of the usual handlers adds are those of its place. -/
theorem markers_of_effect {settings : ConversionSettings}
    (hrole : place.node.role? (usualRole? settings) = some role)
    (heffect : role.effect place context = .ok effect) :
    (effect.paragraphs context).filterMap Paragraph.marker? = place.markers := by
  have hitem : role = .listItem ↔ place.node.isItem = true := by
    rw [Node.isItem, ← role?_eq_listItem, hrole, Option.some.injEq]
  rw [brackets_of_effect heffect, Location.markers]
  exact if_congr hitem rfl rfl

theorem markers_of_call {settings : ConversionSettings}
    (hrole : place.node.role? (usualRole? settings) = some role)
    (heffect : role.effect place context = .ok effect) :
    (effect.objects context).filterMap DocumentObject.marker? = place.markers := by
  rw [filterMap_marker?_objects, markers_of_effect hrole heffect]

/-- The paragraphs of an item, by its index among the items of its parent. -/
theorem paragraphs_of_item {parent : Location} {index : Nat}
    (hplace : parent.items[index]? = some place)
    (heffect : Role.listItem.effect place context = .ok effect) :
    effect.paragraphs context =
      itemGroup (parent.node.isElement "ol") index parent.items.length := by
  rw [paragraphs_of_listItem heffect, ofLocation_of_getElem? hplace]
  unfold itemBlocks itemGroup itemParagraph
  cases parent.node.isElement "ol" <;>
    simp [ListKind.style, ListKind.listType, listStartStyle, listEndStyle]

end Calls

/-! ## Groups along the markup -/

/-- What entries of a list of keys give, as a function of the key. -/
theorem exists_flatMap_eq {α β γ : Type} (key : γ → α) (part : γ → List β) {keys : List α}
    (hnodup : keys.Nodup) {entries : List γ} (hentries : (entries.map key).Sublist keys) :
    ∃ group : α → List β, keys.flatMap group = entries.flatMap part ∧
      (∀ entry ∈ entries, group (key entry) = part entry) ∧
      (∀ other, other ∉ entries.map key → group other = []) := by
  classical
  induction keys generalizing entries with
  | nil =>
    have hnil : entries = [] := List.map_eq_nil_iff.1 (List.eq_nil_of_sublist_nil hentries)
    subst hnil
    exact ⟨fun _ => [], rfl, fun _ h => absurd h List.not_mem_nil, fun _ _ => rfl⟩
  | cons first keys ih =>
    rw [List.nodup_cons] at hnodup
    obtain ⟨hfresh, hnodup⟩ := hnodup
    rcases List.sublist_cons_iff.1 hentries with hskip | ⟨rest, heq, hrest⟩
    · obtain ⟨group, hflat, hin, hout⟩ := ih hnodup hskip
      refine ⟨group, ?_, hin, hout⟩
      have hfirst : group first = [] := hout first fun h => hfresh (hskip.subset h)
      rw [List.flatMap_cons, hfirst, List.nil_append, hflat]
    · cases entries with
      | nil => exact absurd heq (by simp)
      | cons entry entries =>
        rw [List.map_cons, List.cons.injEq] at heq
        obtain ⟨hkey, rfl⟩ := heq
        obtain ⟨group, hflat, hin, hout⟩ := ih hnodup hrest
        have hother {other : α} (h : other ∈ keys) : other ≠ first := by
          rintro rfl
          exact hfresh h
        refine ⟨fun other => if other = first then part entry else group other, ?_, ?_, ?_⟩
        · rw [List.flatMap_cons, List.flatMap_cons, if_pos rfl, ← hflat]
          refine congrArg _ (List.flatMap_congr fun other h => ?_)
          rw [if_neg (hother h)]
        · intro other h
          rcases List.mem_cons.1 h with rfl | h
          · exact if_pos hkey
          · have hne := hother (hrest.subset (List.mem_map.2 ⟨other, h, rfl⟩))
            exact (if_neg hne).trans (hin other h)
        · intro other h
          rw [List.map_cons, List.mem_cons, not_or, hkey] at h
          exact (if_neg h.1).trans (hout other h.2)

theorem handled_sublist (registry : Registry) (places : List Location) :
    ((registry.handled places).map Prod.fst).Sublist places := by
  induction places with
  | nil => exact List.nil_sublist _
  | cons place places ih =>
    cases hhandler : registry.handler? place.node with
    | none =>
      rw [handled_cons_of_none places hhandler]
      exact ih.cons place
    | some handler =>
      rw [handled_cons_of_some places hhandler, List.map_cons]
      exact ih.cons_cons place

theorem Location.items_sublist_descendants (parent : Location) :
    parent.items.Sublist parent.descendants :=
  List.filter_sublist.trans parent.children_sublist_descendants

/-- The items of a node come in the order of the markup. -/
theorem items_sublist {root parent : Location} (h : parent ∈ root :: root.descendants) :
    parent.items.Sublist root.descendants := by
  have hitems := parent.items_sublist_descendants
  rcases List.mem_cons.1 h with rfl | h
  · exact hitems
  · exact hitems.trans (Location.descendants_sublist h)

/-- A run of calls for all places that have a handler adds a group for each item, and besides only
    paragraphs that are no part of lists. -/
theorem Run.exists_groups {settings : ConversionSettings} {root : Location} {owner : SectionId}
    {target : Context} {d d' : Document} {calls : List Call}
    (hrun : Run (usualRole? settings) owner target d calls d')
    (hcalls : calls.map Call.place =
      ((Registry.withDefaults settings).handled root.descendants).map Prod.fst) :
    ∃ group : Location → List Paragraph,
      d'.created DocumentObject.paragraph? d.size = root.descendants.flatMap group ∧
      (∀ parent ∈ root :: root.descendants, ∀ (index : Nat) item,
        parent.items[index]? = some item →
          group item = itemGroup (parent.node.isElement "ol") index parent.items.length) ∧
      (∀ place, ¬ place.node.isElement "li" → ∀ paragraph ∈ group place, paragraph.Plain) := by
  have hcreated : d'.created DocumentObject.paragraph? d.size =
      calls.flatMap fun call => call.effect.paragraphs call.context :=
    hrun.created fun _ _ => rfl
  obtain ⟨group, hflat, hin, hout⟩ := exists_flatMap_eq Call.place
    (fun call => call.effect.paragraphs call.context) root.nodup_descendants
    (hcalls ▸ handled_sublist _ _)
  refine ⟨group, hcreated.trans hflat.symm, ?_, ?_⟩
  · intro parent hparent index item hitem
    have hmem := List.mem_of_getElem? hitem
    have hrole : item.node.role? (usualRole? settings) = some .listItem :=
      role?_eq_listItem.2 (List.mem_filter.1 hmem).2
    -- Every item has a handler, so there is a call for it.
    have hhandled : item ∈
        ((Registry.withDefaults settings).handled root.descendants).map Prod.fst := by
      refine List.mem_map.2 ⟨(item, Role.listItem.handler), mem_handled.2 ⟨?_, ?_⟩, rfl⟩
      · exact (items_sublist hparent).subset hmem
      · rw [(assembled_withDefaults settings).handler?, hrole]
        rfl
    rw [← hcalls] at hhandled
    obtain ⟨call, hcall, rfl⟩ := List.mem_map.1 hhandled
    obtain ⟨hrole', heffect⟩ := hrun.of_mem call hcall
    rw [← Option.some.inj (hrole.symm.trans hrole')] at heffect
    rw [hin call hcall, paragraphs_of_item hitem heffect]
  · intro place hplace paragraph hparagraph
    by_cases hmem : place ∈ calls.map Call.place
    · obtain ⟨call, hcall, rfl⟩ := List.mem_map.1 hmem
      obtain ⟨hrole, heffect⟩ := hrun.of_mem call hcall
      rw [hin call hcall] at hparagraph
      refine plain_of_effect heffect (fun hitem => hplace ?_) paragraph hparagraph
      exact role?_eq_listItem.1 (hitem ▸ hrole)
    · rw [hout place hmem] at hparagraph
      exact absurd hparagraph List.not_mem_nil

/-- Every item below the root is one of the items of its parent. -/
theorem exists_items {root place : Location} (h : place ∈ root.descendants)
    (hitem : place.node.isElement "li") :
    ∃ parent ∈ root :: root.descendants, ∃ index : Nat, parent.items[index]? = some place := by
  obtain ⟨parent, hparent, hmem⟩ := Location.parent?_of_mem_descendants h
  have hplace : place ∈ parent.items := (Location.mem_items_iff hparent).2 hitem
  obtain ⟨index, hindex⟩ := List.mem_iff_getElem?.1 hplace
  exact ⟨parent, List.mem_cons.2 hmem, index, hindex⟩

/-- **Lists are bracketed, item by item.**

    The new paragraphs all stand after the old ones in the section of the target. Where the
    insertion succeeds they are, place by place in the order of the markup, a group for each item
    (`itemGroup`, by the item's index among the items of its parent) and paragraphs that are no
    part of lists for all other places; and their markers are balanced. Where it fails, the markers
    are a first part of balanced ones. -/
theorem insertInto_lists {settings : ConversionSettings} {root : Location} {d d' : Document}
    (hd : d.Reachable) {target : Target} {context : Context}
    (hresolve : d.resolve target = .ok context) {outcome : Except ConvertError Unit}
    (hinsert : (Conversion.insertInto ⟨.ofSettings settings, root⟩ target).runOn d =
      (outcome, d')) :
    ∃ owner old added,
      d.nearestSection context = .ok owner ∧
      d.paragraphs owner = .ok old ∧
      d'.paragraphs owner = .ok (old ++ added) ∧
      added.map d'.paragraph =
        (d'.created DocumentObject.paragraph? d.size).map Except.ok ∧
      (outcome = .ok () → ∃ group : Location → List Paragraph,
        d'.created DocumentObject.paragraph? d.size = root.descendants.flatMap group ∧
        (∀ parent ∈ root :: root.descendants, parent.items.Sublist root.descendants) ∧
        (∀ place ∈ root.descendants, place.node.isElement "li" →
          ∃ parent ∈ root :: root.descendants, ∃ index : Nat,
            parent.items[index]? = some place) ∧
        (∀ parent ∈ root :: root.descendants, ∀ (index : Nat) item,
          parent.items[index]? = some item →
            group item = itemGroup (parent.node.isElement "ol") index parent.items.length) ∧
        (∀ place, ¬ place.node.isElement "li" → ∀ paragraph ∈ group place, paragraph.Plain)) ∧
      (outcome = .ok () → Balanced
        ((d'.created DocumentObject.paragraph? d.size).filterMap Paragraph.marker?)) ∧
      (∃ word, Balanced word ∧
        (d'.created DocumentObject.paragraph? d.size).filterMap Paragraph.marker? <+: word) := by
  have hwell := hd.wellFormed
  have hassembled := assembled_withDefaults settings
  have hnoItem : ∀ place : Location, place.node.role? (usualRole? settings) = none →
      place.markers = [] := by
    intro place hnone
    refine markers_of_not_isItem (Bool.eq_false_iff.2 fun h => ?_)
    rw [role?_eq_listItem.2 h] at hnone
    exact absurd hnone nofun
  obtain ⟨hmarkers, hmarkersPrefix⟩ := insertInto_created hassembled hwell hresolve hinsert
    (fun _ _ => rfl) (fun _ _ _ _ => markers_of_call) hnoItem
  rw [created_marker?] at hmarkers hmarkersPrefix
  obtain ⟨owner, calls, hlive, hrun, -, hall⟩ :=
    insertInto_run hassembled hwell hresolve hinsert
  obtain ⟨rfl, -⟩ := live_of_resolve hwell hresolve
  obtain ⟨old, hold, hnew⟩ := hrun.paragraphs_append hlive hd
  refine ⟨owner, old, _, hlive.nearestSection, hold, hnew, map_paragraph_filter _ _, ?_, ?_,
    _, balanced_descendants root, hmarkersPrefix⟩
  · intro hok
    obtain ⟨group, hcreated, hitems, hothers⟩ := hrun.exists_groups (hall hok)
    exact ⟨group, hcreated, fun _ => items_sublist, fun _ => exists_items, hitems, hothers⟩
  · intro hok
    rw [hmarkers hok]
    exact balanced_descendants root

/-- A list inside the first of two items: its group, and with it its markers, stands between the
    groups of the outer list. -/
theorem insertInto_lists_nested :
    let d : Document := Document.empty.push 0 .sectionBlock
    let inner : Node := .branch (.element "ol" []) [.branch (.element "li" []) []]
    let root : Location :=
      ⟨.branch .fragment
        [.branch (.element "ul" [])
          [.branch (.element "li" []) [inner], .branch (.element "li" []) []]], []⟩
    let groups := itemGroup false 0 2 ++ itemGroup true 0 1 ++ itemGroup false 1 2
    ∃ d', d.Reachable ∧
      (Conversion.insertInto ⟨.ofSettings {}, root⟩ (.intoSection ⟨1⟩)).runOn d = (.ok (), d') ∧
      d'.created DocumentObject.paragraph? d.size = groups ∧
      groups.filterMap Paragraph.marker? = [U, U, D, D] ∧
      Balanced [U, U, D, D] := by
  intro d inner root groups
  have hreachable : d.Reachable := .perform .addSection .empty rfl
  have hinsert :
      (Conversion.insertInto ⟨.ofSettings {}, root⟩ (.intoSection ⟨1⟩)).runOn d =
        (.ok (), d.pushAll (groups.map fun value => (1, .paragraph value))) := by
    decide +kernel
  have hgroups : (d.pushAll (groups.map fun value => (1, .paragraph value))).created
      DocumentObject.paragraph? d.size = groups := by
    decide +kernel
  have hmarkers : groups.filterMap Paragraph.marker? = [U, U, D, D] := by
    decide +kernel
  obtain ⟨owner, old, added, -, -, -, -, -, hbalanced, -⟩ :=
    insertInto_lists hreachable rfl hinsert
  rw [hgroups, hmarkers] at hbalanced
  exact ⟨_, hreachable, hinsert, hgroups, hmarkers, hbalanced rfl⟩

end Galley
