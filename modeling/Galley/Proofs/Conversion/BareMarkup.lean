import Galley.Proofs.Conversion.UsualRoles

/-!
  What of a markup tree the usual handlers look at.

  `Node.bare` takes away the rest: all attributes but the one that the element's handler asks for,
  what comments say, and the names of elements that have no handler and are no lists. Handlers ask
  for siblings, owners, names, attributes and for the texts inside a node, and each of these
  questions has one answer at a place and at the bare place. So a handler is the same edit at both
  (`Role.handler_bare`), and by recursion over the tree so is a walk (`walkInside_bare`). Trees that
  are bare alike are converted alike, into any document (`insertInto_of_bare_eq`).
-/

namespace Galley

/-! ## Bare trees -/

/-- The attribute that the handler of a tag asks for. -/
def askedAttribute? : String → Option String
  | "p" => some "style"
  | "div" => some "style"
  | "a" => some "href"
  | "span" => some "class"
  | _ => none

/-- A name that some handler can tell from others: it has a usual handler or is that of a list. -/
def nameMatters (name : String) : Bool :=
  ((Registry.withDefaults {}).find? (.element name)).isSome || name == "ul" || name == "ol"

/-- A label with its name, if that matters, and with the attribute that is asked for. All other
    names become empty. -/
def Label.bare : Label → Label
  | .fragment => .fragment
  | .element name attributes =>
    if nameMatters name then
      .element name (attributes.filter fun given => askedAttribute? name == some given.name)
    else .element "" []

namespace Node

mutual

/-- A tree of the same shape without what no usual handler looks at. -/
def bare : Node → Node
  | text content => text content
  | comment _ => comment ""
  | branch label nodes => branch label.bare (bareAll nodes)

def bareAll : List Node → List Node
  | [] => []
  | node :: rest => bare node :: bareAll rest

end

theorem bareAll_eq_map (nodes : List Node) : bareAll nodes = nodes.map bare := by
  induction nodes with
  | nil => rfl
  | cons node rest ih => rw [bareAll, List.map_cons, ih]

end Node

def Crumb.bare (crumb : Crumb) : Crumb :=
  ⟨crumb.label.bare, crumb.before.map Node.bare, crumb.after.map Node.bare⟩

/-- A place in the bare tree. -/
def Location.bare (place : Location) : Location :=
  ⟨place.node.bare, place.crumbs.map Crumb.bare⟩

/-! ## What is asked of a node -/

theorem isSome_usualRole? (settings : ConversionSettings) (key : TagKey) :
    (usualRole? settings key).isSome = (usualRole? {} key).isSome := by
  simp only [usualRole?, roleIn?, Option.isSome_map, List.isSome_find?]
  rfl

theorem nameMatters_eq (name : String) : nameMatters name =
    ((usualRole? {} (.element name)).isSome || name == "ul" || name == "ol") := by
  rw [nameMatters, assembled_withDefaults {}, Option.isSome_map]

theorem nameMatters_of_role {settings : ConversionSettings} {name : String} {role : Role}
    (h : usualRole? settings (.element name) = some role) : nameMatters name := by
  have hsome : (usualRole? {} (.element name)).isSome := by
    rw [← isSome_usualRole? settings, h]
    rfl
  rw [nameMatters_eq, hsome]
  rfl

/-- The names that handlers ask for, of their own nodes or of others. -/
theorem nameMatters_of_asked : ∀ name ∈ ["span", "br", "li", "ul", "ol"], nameMatters name := by
  simp only [nameMatters_eq]
  decide

/-- A name that does not matter has no handler. -/
theorem usualRole?_of_not_nameMatters {settings : ConversionSettings} {name : String}
    (h : ¬ nameMatters name) : usualRole? settings (.element name) = none := by
  cases hrole : usualRole? settings (.element name) with
  | none => rfl
  | some role => exact absurd (nameMatters_of_role hrole) h

theorem Label.bare_of_nameMatters {name : String} (h : nameMatters name)
    (attributes : List Attribute) :
    (Label.element name attributes).bare =
      .element name (attributes.filter fun given => askedAttribute? name == some given.name) :=
  if_pos h

theorem Label.bare_of_not_nameMatters {name : String} (h : ¬ nameMatters name)
    (attributes : List Attribute) : (Label.element name attributes).bare = .element "" [] :=
  if_neg h

theorem not_nameMatters_empty : ¬ nameMatters "" := by
  rw [nameMatters_eq]
  decide

/-- Whether a label has a name that matters can still be told. -/
theorem Label.name?_bare_beq (label : Label) {name : String} (h : nameMatters name) :
    (label.bare.name? == some name) = (label.name? == some name) := by
  cases label with
  | fragment => rfl
  | element other attributes =>
    by_cases hother : nameMatters other
    · rw [bare_of_nameMatters hother]
      rfl
    · have hne : "" ≠ name := fun heq => not_nameMatters_empty (heq ▸ h)
      have hne' : other ≠ name := fun heq => hother (heq ▸ h)
      rw [bare_of_not_nameMatters hother]
      simp [name?, hne, hne']

namespace Node

theorem isElement_bare (node : Node) {name : String} (h : nameMatters name) :
    node.bare.isElement name = node.isElement name := by
  cases node with
  | text content => rfl
  | comment content => rfl
  | branch label nodes => exact label.name?_bare_beq h

theorem text?_bare (node : Node) : node.bare.text? = node.text? := by
  cases node <;> rfl

mutual

theorem innerText_bare (node : Node) : node.bare.innerText = node.innerText :=
  match node with
  | .text _ => rfl
  | .comment _ => rfl
  | .branch _ nodes => innerTexts_bareAll nodes

theorem innerTexts_bareAll (nodes : List Node) : innerTexts (bareAll nodes) = innerTexts nodes :=
  match nodes with
  | [] => rfl
  | node :: rest => by
    rw [bareAll, innerTexts, innerTexts, innerText_bare node, innerTexts_bareAll rest]

end

theorem isSpacer_bare (node : Node) : node.bare.isSpacer = node.isSpacer := by
  rw [isSpacer, isSpacer, node.isElement_bare (nameMatters_of_asked "span" (by decide)),
    node.innerText_bare]

end Node

/-! Nodes that have handlers keep more: their name, and the attribute that is asked for. -/

section Handled

variable {settings : ConversionSettings} {node : Node} {role : Role}

theorem role?_bare (node : Node) :
    node.bare.role? (usualRole? settings) = node.role? (usualRole? settings) := by
  cases node with
  | text content => rfl
  | comment content => rfl
  | branch label nodes =>
    cases label with
    | fragment => rfl
    | element name attributes =>
      by_cases hname : nameMatters name
      · rw [Node.bare, Label.bare_of_nameMatters hname]
        rfl
      · have hempty := @usualRole?_of_not_nameMatters settings _ not_nameMatters_empty
        have hnone := @usualRole?_of_not_nameMatters settings _ hname
        rw [Node.bare, Label.bare_of_not_nameMatters hname]
        exact hempty.trans hnone.symm

theorem handler?_bare (node : Node) :
    (Registry.withDefaults settings).handler? node.bare =
      (Registry.withDefaults settings).handler? node := by
  rw [(assembled_withDefaults settings).handler?, (assembled_withDefaults settings).handler?,
    role?_bare]

/-- A node with a handler is a text, or an element that keeps its name and the attribute that is
    asked for. -/
theorem text_or_element_of_role? (h : node.role? (usualRole? settings) = some role) :
    (∃ content, node = .text content) ∨ ∃ name attributes nodes,
      node = .branch (.element name attributes) nodes ∧
      node.bare = .branch (.element name
        (attributes.filter fun given => askedAttribute? name == some given.name))
          (Node.bareAll nodes) := by
  cases node with
  | text content => exact .inl ⟨content, rfl⟩
  | comment content => exact absurd h nofun
  | branch label nodes =>
    cases label with
    | fragment => exact absurd h nofun
    | element name attributes =>
      refine .inr ⟨name, attributes, nodes, rfl, ?_⟩
      rw [Node.bare, Label.bare_of_nameMatters (nameMatters_of_role h)]

theorem name?_bare (h : node.role? (usualRole? settings) = some role) :
    node.bare.name? = node.name? := by
  rcases text_or_element_of_role? h with ⟨content, rfl⟩ | ⟨name, attributes, nodes, rfl, hbare⟩
  · rfl
  · rw [hbare]
    rfl

theorem key?_bare (h : node.role? (usualRole? settings) = some role) :
    node.bare.key? = node.key? := by
  rcases text_or_element_of_role? h with ⟨content, rfl⟩ | ⟨name, attributes, nodes, rfl, hbare⟩
  · rfl
  · rw [hbare]
    rfl

/-- The attribute that a handler asks for. -/
def Role.asked? : Role → Option String
  | paragraph => some "style"
  | hyperlink => some "href"
  | span _ => some "class"
  | _ => none

/-- A handler that asks for an attribute is that of a tag for which it is asked. -/
theorem exists_tag_of_asked? {key : TagKey} (h : (key, role) ∈ usualRoles settings)
    {asked : String} (hasked : role.asked? = some asked) :
    ∃ tag, key = .element tag ∧ askedAttribute? tag = some asked := by
  have htable : (usualRoles settings).map (fun entry => entry.2.asked?) =
      (usualRoles settings).map fun entry => match entry.1 with
        | .element tag => askedAttribute? tag
        | .text => none :=
    rfl
  have hkey := List.map_inj_left.1 htable _ h
  rw [hasked] at hkey
  cases key with
  | text => cases hkey
  | element tag => exact ⟨tag, rfl, hkey.symm⟩

/-- A handler finds what it found in the attribute that it asks for. -/
theorem attr?_bare (h : node.role? (usualRole? settings) = some role) {asked : String}
    (hasked : role.asked? = some asked) :
    node.bare.attr? asked = node.attr? asked := by
  obtain ⟨key, hkey, hmem⟩ := mem_usualRoles_of_role? h
  obtain ⟨tag, rfl, htag⟩ := exists_tag_of_asked? hmem hasked
  rcases text_or_element_of_role? h with ⟨content, rfl⟩ | ⟨name, attributes, nodes, rfl, hbare⟩
  · rfl
  · obtain rfl : name = tag := TagKey.element.inj (Option.some.inj hkey)
    rw [hbare, Node.attr?, Node.attr?, List.find?_filter]
    congr 2
    funext given
    rw [htag]
    by_cases hgiven : given.name = asked
    · simp [hgiven]
    · simp [hgiven, Ne.symm hgiven]

end Handled

/-! ## What is asked of a place -/

namespace Location

variable (place : Location)

theorem parent?_bare : place.bare.parent? = place.parent?.map bare := by
  obtain ⟨node, _ | ⟨crumb, crumbs⟩⟩ := place
  · rfl
  · simp only [parent?, bare, Crumb.bare, Crumb.fill, List.map_cons, Option.map_some, Node.bare,
      Node.bareAll_eq_map, List.map_append, List.map_reverse]

theorem nextSibling?_bare : place.bare.nextSibling? = place.nextSibling?.map bare := by
  obtain ⟨node, _ | ⟨⟨label, before, _ | ⟨next, after⟩⟩, crumbs⟩⟩ := place <;> rfl

theorem itemPosition_bare : ItemPosition.ofLocation place.bare = .ofLocation place := by
  have hitem : nameMatters "li" := nameMatters_of_asked "li" (by decide)
  have hany (nodes : List Node) : (nodes.map Node.bare).any (fun node => node.isElement "li") =
      nodes.any fun node => node.isElement "li" := by
    rw [List.any_map]
    congr 1
    funext node
    exact node.isElement_bare hitem
  obtain ⟨node, _ | ⟨crumb, crumbs⟩⟩ := place
  · rfl
  · have hordered : (crumb.label.bare.name? == some "ol") = (crumb.label.name? == some "ol") :=
      crumb.label.name?_bare_beq (nameMatters_of_asked "ol" (by decide))
    simp only [ItemPosition.ofLocation, bare, Crumb.bare, List.map_cons, hordered, hany,
      node.isElement_bare hitem]

end Location

/-! ## Handlers and walks -/

section Walk

variable {settings : ConversionSettings}

theorem unexpectedContext_bare {place : Location} {role : Role}
    (h : place.node.role? (usualRole? settings) = some role)
    (expected : Expectation) (context : Context) :
    unexpectedContext place.bare expected context = unexpectedContext place expected context := by
  have hkey : place.bare.node.key? = place.node.key? := key?_bare h
  rw [unexpectedContext, unexpectedContext, hkey]

/-- **A usual handler does the same at a place of the bare tree.** -/
theorem Role.handler_bare (role : Role) (place : Location)
    (h : place.node.role? (usualRole? settings) = some role) (context : Context) :
    role.handler place.bare context = role.handler place context := by
  cases role with
  | heading =>
    have hname : place.bare.node.name? = place.node.name? := name?_bare h
    simp only [handler, Handler.heading, hname, unexpectedContext_bare h]
  | paragraph =>
    have hstyle : place.bare.node.attr? "style" = place.node.attr? "style" := attr?_bare h rfl
    simp only [handler, Handler.paragraph, hstyle]
  | formattedText format => rfl
  | hyperlink =>
    have hhref : place.bare.node.attr? "href" = place.node.attr? "href" := attr?_bare h rfl
    simp only [handler, Handler.hyperlink, hhref]
  | span reserved =>
    have hclass : place.bare.node.attr? "class" = place.node.attr? "class" := attr?_bare h rfl
    have hspacer : place.bare.node.isSpacer = place.node.isSpacer := place.node.isSpacer_bare
    simp only [handler, Handler.span, Handler.spanStyle, hclass, hspacer]
  | horizontalRule => rfl
  | lineBreak =>
    have hlist (next : Location) :
        (next.bare.node.isElement "ul" || next.bare.node.isElement "ol") =
          (next.node.isElement "ul" || next.node.isElement "ol") := by
      rw [Location.bare, next.node.isElement_bare (nameMatters_of_asked "ul" (by decide)),
        next.node.isElement_bare (nameMatters_of_asked "ol" (by decide))]
    have hbreak (next : Location) : next.bare.node.isElement "br" = next.node.isElement "br" :=
      next.node.isElement_bare (nameMatters_of_asked "br" (by decide))
    simp only [handler, Handler.lineBreak, place.nextSibling?_bare]
    cases place.nextSibling? with
    | none => rfl
    | some next => simp only [Option.map_some, hlist, hbreak]
  | text =>
    have htext : place.bare.node.text? = place.node.text? := place.node.text?_bare
    have hspacer : (place.bare.parent?.map fun parent => parent.node.isSpacer) =
        place.parent?.map fun parent => parent.node.isSpacer := by
      rw [place.parent?_bare, Option.map_map]
      congr 1
      funext owner
      exact owner.node.isSpacer_bare
    unfold handler Handler.text
    simp only [htext, hspacer]
  | listItem =>
    simp only [handler, Handler.listItem, place.itemPosition_bare, unexpectedContext_bare h]

theorem Cursor.contextAfter_bare (cursor : Cursor) (before : List Node) :
    cursor.contextAfter (before.map Node.bare).head? = cursor.contextAfter before.head? := by
  cases before with
  | nil => rfl
  | cons previous before => cases previous <;> rfl

variable (settings) (limit : Nat)

mutual

/-- **The walk over the bare tree is the walk over the tree.** -/
theorem walkInside_bare (depth : Nat) (crumbs : List Crumb) (context : Context) (node : Node) :
    walkInside (.withDefaults settings) limit depth (crumbs.map Crumb.bare) context node.bare =
      walkInside (.withDefaults settings) limit depth crumbs context node :=
  match node with
  | .text _ => rfl
  | .comment _ => rfl
  | .branch label nodes => by
    rw [Node.bare, walkInside, walkInside, Node.bareAll_eq_map, List.isEmpty_map,
      ← List.map_nil, walkSiblings_bare depth label crumbs [] ⟨context, none⟩ nodes]
    rfl

theorem walkSiblings_bare (depth : Nat) (label : Label) (crumbs : List Crumb) (before : List Node)
    (cursor : Cursor) (nodes : List Node) :
    walkSiblings (.withDefaults settings) limit depth label.bare (crumbs.map Crumb.bare)
        (before.map Node.bare) cursor (nodes.map Node.bare) =
      walkSiblings (.withDefaults settings) limit depth label crumbs before cursor nodes :=
  match nodes with
  | [] => rfl
  | node :: after => by
    have hinside (context : Context) :=
      walkInside_bare (depth + 1) (⟨label, before, after⟩ :: crumbs) context node
    have hrest (cursor : Cursor) :=
      walkSiblings_bare depth label crumbs (node :: before) cursor after
    rw [List.map_cons] at hrest
    rw [List.map_cons, walkSiblings, walkSiblings, handler?_bare]
    cases hhandler : (Registry.withDefaults settings).handler? node with
    | none =>
      dsimp only
      rw [← hrest, ← hinside]
      rfl
    | some handler =>
      rw [(assembled_withDefaults settings).handler?] at hhandler
      obtain ⟨role, hrole, rfl⟩ := Option.map_eq_some_iff.1 hhandler
      have hcall (context : Context) :
          role.handler ⟨node.bare, ⟨label.bare, before.map Node.bare, after.map Node.bare⟩ ::
            crumbs.map Crumb.bare⟩ context =
          role.handler ⟨node, ⟨label, before, after⟩ :: crumbs⟩ context :=
        role.handler_bare ⟨node, ⟨label, before, after⟩ :: crumbs⟩ hrole context
      dsimp only
      rw [cursor.contextAfter_bare, hcall]
      refine congrArg _ (funext fun result => ?_)
      rw [← hrest, ← hinside]
      rfl

end

end Walk

theorem insertInto_bare (settings : ConversionSettings) (markup : Location) (target : Target) :
    Conversion.insertInto ⟨.ofSettings settings, markup.bare⟩ target =
      Conversion.insertInto ⟨.ofSettings settings, markup⟩ target := by
  have hwalk (context : Context) :
      walk (.withDefaults settings) settings.maxDepth context markup.bare =
        walk (.withDefaults settings) settings.maxDepth context markup :=
    walkInside_bare settings settings.maxDepth 0 markup.crumbs context markup.node
  unfold Conversion.insertInto Converter.ofSettings
  dsimp only
  refine congrArg _ (funext fun context => ?_)
  rw [hwalk]

/-- **What no usual handler looks at does not influence a conversion.** Trees that are bare alike
    give the same outcome, also when it is a failure, and the same document. -/
theorem insertInto_of_bare_eq {settings : ConversionSettings} {markup markup' : Location}
    (h : markup.bare = markup'.bare) (d : Document) (target : Target) :
    (Conversion.insertInto ⟨.ofSettings settings, markup⟩ target).runOn d =
      (Conversion.insertInto ⟨.ofSettings settings, markup'⟩ target).runOn d := by
  rw [← insertInto_bare settings markup target, h, insertInto_bare settings markup' target]

/-- A list item with other remarks around it, in other names that have no handler, and with
    attributes that its handler does not ask for. -/
theorem insertInto_of_bare_eq_item :
    let d : Document := Document.empty.push 0 .sectionBlock
    let item (tag remark : String) (attributes : List Attribute) : Location :=
      ⟨.branch .fragment [.branch (.element tag attributes) [.comment remark,
        .branch (.element "ol" attributes) [.branch (.element "li" attributes)
          [.comment remark, .branch (.element "em" attributes) [.text "x"]]]]], []⟩
    let first := item "main" "one" [⟨"class", "a"⟩, ⟨"style", "text-align: center"⟩]
    let second := item "center" "" []
    ∃ d', first.bare = second.bare ∧ d'.object? 6 = some (.text "x") ∧
      (Conversion.insertInto ⟨.ofSettings {}, first⟩ (.intoSection ⟨1⟩)).runOn d = (.ok (), d') ∧
      (Conversion.insertInto ⟨.ofSettings {}, second⟩ (.intoSection ⟨1⟩)).runOn d =
        (.ok (), d') := by
  intro d item first second
  have hlabel : ∀ name ∈ ["ol", "li", "em"],
      (Label.element name [⟨"class", "a"⟩, ⟨"style", "text-align: center"⟩]).bare =
        (Label.element name []).bare := by
    decide +kernel
  have hmain : (Label.element "main" [⟨"class", "a"⟩, ⟨"style", "text-align: center"⟩]).bare =
      (Label.element "center" []).bare := by
    decide +kernel
  have hbare : first.bare = second.bare := by
    simp only [first, second, item, Location.bare, Node.bare, Node.bareAll, hmain,
      hlabel "ol" (by decide), hlabel "li" (by decide), hlabel "em" (by decide)]
  have hsecond : (Conversion.insertInto ⟨.ofSettings {}, second⟩ (.intoSection ⟨1⟩)).runOn d =
      (.ok (), ((((d.push 1 (.paragraph { style := some "ListStart" })).push 1
        (.paragraph { style := some "OrderedList", listInfo := some ⟨.numberList1, false⟩ })).push 1
          (.paragraph { style := some "ListEnd" })).push 3 (.run { italic := some true })).push 5
            (.text "x")) := by
    decide +kernel
  exact ⟨_, hbare, rfl, (insertInto_of_bare_eq hbare d _).trans hsecond, hsecond⟩

end Galley
