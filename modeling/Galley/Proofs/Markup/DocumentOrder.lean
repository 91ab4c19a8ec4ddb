import Mathlib.Data.List.Basic
import Galley.Markup.Location

/-!
  The places below a place, in document order, and the addresses that name them.

  `descendants` lists the places below a place, each before what is inside it
  (`descendants_eq_flatMap`). An address counts the siblings before a place and before each of
  its owners, the outermost first, so that document order is the lexicographic order of
  addresses: the addresses along `descendants` strictly increase (`pairwise_descendants`). Hence
  no place is listed twice, and two places of one tree with one address are one place.
-/

namespace Galley.Location

/-! ## Descendants -/

mutual

/-- The places below a node, given the node's owners. -/
def below (crumbs : List Crumb) : Node → List Location
  | .branch label nodes => belowAll label crumbs [] nodes
  | _ => []

/-- The places of a run of siblings and of all that is inside them, given the siblings before
    them (the nearest first). -/
def belowAll (label : Label) (crumbs : List Crumb) (before : List Node) :
    List Node → List Location
  | [] => []
  | node :: after =>
    ⟨node, ⟨label, before, after⟩ :: crumbs⟩ ::
      (below (⟨label, before, after⟩ :: crumbs) node ++
        belowAll label crumbs (node :: before) after)

end

/-- The places below a place in document order. -/
def descendants (place : Location) : List Location :=
  below place.crumbs place.node

theorem belowAll_eq_flatMap (label : Label) (crumbs : List Crumb) (before nodes : List Node) :
    belowAll label crumbs before nodes =
      (siblings label crumbs before nodes).flatMap fun child => child :: child.descendants := by
  induction nodes generalizing before with
  | nil => rfl
  | cons node after ih =>
    rw [belowAll, siblings, List.flatMap_cons, ih]
    rfl

/-- Each child is listed before what is inside it, and all that before the next child. -/
theorem descendants_eq_flatMap (place : Location) :
    place.descendants = place.children.flatMap fun child => child :: child.descendants := by
  obtain ⟨node, crumbs⟩ := place
  cases node with
  | branch label nodes => exact belowAll_eq_flatMap label crumbs [] nodes
  | text content => rfl
  | comment content => rfl

mutual

theorem parent?_of_mem_below (crumbs : List Crumb) (node : Node) :
    ∀ place ∈ below crumbs node, ∃ owner, place.parent? = some owner ∧
      (owner = ⟨node, crumbs⟩ ∨ owner ∈ below crumbs node) :=
  match node with
  | .text _ => fun _ h => absurd h List.not_mem_nil
  | .comment _ => fun _ h => absurd h List.not_mem_nil
  | .branch label nodes => parent?_of_mem_belowAll label crumbs [] nodes

theorem parent?_of_mem_belowAll (label : Label) (crumbs : List Crumb) (before nodes : List Node) :
    ∀ place ∈ belowAll label crumbs before nodes, ∃ owner, place.parent? = some owner ∧
      (owner = ⟨.branch label (before.reverse ++ nodes), crumbs⟩ ∨
        owner ∈ belowAll label crumbs before nodes) :=
  match nodes with
  | [] => fun _ h => absurd h List.not_mem_nil
  | node :: after => fun place h => by
    simp only [belowAll, List.mem_cons, List.mem_append] at h ⊢
    rcases h with rfl | h | h
    · exact ⟨_, rfl, .inl rfl⟩
    · obtain ⟨owner, hparent, rfl | howner⟩ := parent?_of_mem_below _ node place h
      · exact ⟨_, hparent, .inr (.inl rfl)⟩
      · exact ⟨owner, hparent, .inr (.inr (.inl howner))⟩
    · obtain ⟨owner, hparent, rfl | howner⟩ :=
        parent?_of_mem_belowAll label crumbs (node :: before) after place h
      · exact ⟨_, hparent, .inl (by simp only [List.reverse_cons, List.append_assoc,
          List.cons_append, List.nil_append])⟩
      · exact ⟨owner, hparent, .inr (.inr (.inr howner))⟩

end

/-- The owner of a place below the root is the root or below it. -/
theorem parent?_of_mem_descendants {root place : Location} (h : place ∈ root.descendants) :
    ∃ owner, place.parent? = some owner ∧ (owner = root ∨ owner ∈ root.descendants) :=
  parent?_of_mem_below root.crumbs root.node place h

mutual

theorem infix_below (crumbs : List Crumb) (node : Node) :
    ∀ place ∈ below crumbs node, place :: place.descendants <:+: below crumbs node :=
  match node with
  | .text _ => fun _ h => absurd h List.not_mem_nil
  | .comment _ => fun _ h => absurd h List.not_mem_nil
  | .branch label nodes => infix_belowAll label crumbs [] nodes

theorem infix_belowAll (label : Label) (crumbs : List Crumb) (before nodes : List Node) :
    ∀ place ∈ belowAll label crumbs before nodes,
      place :: place.descendants <:+: belowAll label crumbs before nodes :=
  match nodes with
  | [] => fun _ h => absurd h List.not_mem_nil
  | node :: after => fun place h => by
    rw [belowAll, List.mem_cons, List.mem_append] at h
    rw [belowAll]
    rcases h with rfl | h | h
    · exact (List.prefix_append (_ :: _) _).isInfix
    · exact ((infix_below _ node place h).trans (List.prefix_append _ _).isInfix).trans
        (List.suffix_cons _ _).isInfix
    · exact ((infix_belowAll label crumbs (node :: before) after place h).trans
        (List.suffix_append _ _).isInfix).trans (List.suffix_cons _ _).isInfix

end

/-- A place below the root comes right before all that is below it. -/
theorem exists_descendants_eq {root place : Location} (h : place ∈ root.descendants) :
    ∃ done rest, root.descendants = done ++ place :: (place.descendants ++ rest) := by
  obtain ⟨done, rest, heq⟩ := infix_below root.crumbs root.node place h
  refine ⟨done, rest, ?_⟩
  rw [descendants, ← heq, List.append_assoc]
  rfl

/-- What is below a place below the root is below the root, in the same order. -/
theorem descendants_sublist {root place : Location} (h : place ∈ root.descendants) :
    place.descendants.Sublist root.descendants :=
  (List.sublist_cons_self _ _).trans (infix_below root.crumbs root.node place h).sublist

theorem children_sublist_descendants (place : Location) :
    place.children.Sublist place.descendants := by
  rw [descendants_eq_flatMap]
  induction place.children with
  | nil => exact List.nil_sublist _
  | cons child rest ih =>
    rw [List.flatMap_cons]
    exact (ih.trans (List.sublist_append_right _ _)).cons_cons child

theorem mem_siblings (label : Label) (crumbs : List Crumb) (done before after : List Node)
    (node : Node) : ⟨node, ⟨label, done.reverse ++ before, after⟩ :: crumbs⟩ ∈
      siblings label crumbs before (done ++ node :: after) := by
  induction done generalizing before with
  | nil => exact List.mem_cons_self
  | cons first done ih =>
    rw [List.cons_append, siblings, List.reverse_cons, List.append_assoc]
    exact List.mem_cons_of_mem _ (ih (first :: before))

/-- A place is a child of its owner. -/
theorem mem_children_of_parent? {place owner : Location} (h : place.parent? = some owner) :
    place ∈ owner.children := by
  obtain ⟨node, _ | ⟨⟨label, before, after⟩, crumbs⟩⟩ := place
  · exact absurd h (by simp [parent?])
  · obtain rfl := Option.some.inj h
    have hmem := mem_siblings label crumbs before.reverse [] after node
    rw [List.reverse_reverse, List.append_nil] at hmem
    exact hmem

/-- What stands in a place is below it. -/
theorem mem_descendants_of_parent? {place owner : Location} (h : place.parent? = some owner) :
    place ∈ owner.descendants :=
  (children_sublist_descendants owner).subset (mem_children_of_parent? h)

/-- Of two places with one owner both are below a root or none is. -/
theorem mem_descendants_of_parent?_eq {root place other : Location} (hplace : place ∈ root.descendants)
    (h : other.parent? = place.parent?) : other ∈ root.descendants := by
  obtain ⟨owner, hparent, howner⟩ := parent?_of_mem_descendants hplace
  have hother := mem_descendants_of_parent? (h.trans hparent)
  rcases howner with rfl | howner
  · exact hother
  · exact (descendants_sublist howner).subset hother

/-- Siblings have one owner. -/
theorem parent?_of_previousSibling? {place sibling : Location}
    (h : place.previousSibling? = some sibling) : sibling.parent? = place.parent? := by
  obtain ⟨node, _ | ⟨⟨label, _ | ⟨previous, before⟩, after⟩, crumbs⟩⟩ := place
  · exact absurd h (by simp [previousSibling?])
  · exact absurd h (by simp [previousSibling?])
  · obtain rfl := Option.some.inj h
    simp only [parent?, Crumb.fill, List.reverse_cons, List.append_assoc, List.cons_append,
      List.nil_append]

mutual

theorem after_previousSibling_below (crumbs : List Crumb) (node : Node) :
    ∀ place ∈ below crumbs node, ∀ sibling, place.previousSibling? = some sibling →
      ∃ done rest, below crumbs node = done ++ sibling :: (sibling.descendants ++ place :: rest) :=
  match node with
  | .text _ => fun _ h => absurd h List.not_mem_nil
  | .comment _ => fun _ h => absurd h List.not_mem_nil
  | .branch label nodes => fun place hplace sibling hsibling => by
    rcases after_previousSibling_belowAll label crumbs [] nodes place hplace sibling hsibling with
      ⟨first, after, -, rfl⟩ | hbelow
    · exact absurd hsibling (by simp [previousSibling?])
    · exact hbelow

/-- Along a run of siblings and all inside them, each place but the first of the run follows its
    previous sibling, if it has one, and all inside that. -/
theorem after_previousSibling_belowAll (label : Label) (crumbs : List Crumb)
    (before nodes : List Node) : ∀ place ∈ belowAll label crumbs before nodes,
      ∀ sibling, place.previousSibling? = some sibling →
      (∃ first after, nodes = first :: after ∧
        place = ⟨first, ⟨label, before, after⟩ :: crumbs⟩) ∨
      ∃ done rest, belowAll label crumbs before nodes =
        done ++ sibling :: (sibling.descendants ++ place :: rest) :=
  match nodes with
  | [] => fun _ h => absurd h List.not_mem_nil
  | node :: after => fun place hplace sibling hsibling => by
    rw [belowAll, List.mem_cons, List.mem_append] at hplace
    rw [belowAll]
    rcases hplace with rfl | hplace | hplace
    · exact .inl ⟨node, after, rfl, rfl⟩
    · obtain ⟨done, rest, heq⟩ := after_previousSibling_below _ node place hplace sibling hsibling
      refine .inr ⟨⟨node, ⟨label, before, after⟩ :: crumbs⟩ :: done,
        rest ++ belowAll label crumbs (node :: before) after, ?_⟩
      rw [heq]
      simp only [List.append_assoc, List.cons_append]
    · rcases after_previousSibling_belowAll label crumbs (node :: before) after place hplace sibling
          hsibling with ⟨next, later, rfl, rfl⟩ | ⟨done, rest, heq⟩
      · obtain rfl := Option.some.inj hsibling
        exact .inr ⟨[], _, rfl⟩
      · refine .inr ⟨⟨node, ⟨label, before, after⟩ :: crumbs⟩ ::
          (below (⟨label, before, after⟩ :: crumbs) node ++ done), rest, ?_⟩
        rw [heq]
        simp only [List.append_assoc, List.cons_append]

end

/-- In document order a place comes right after its previous sibling and all inside that. -/
theorem descendants_eq_of_previousSibling? {root place sibling : Location}
    (hplace : place ∈ root.descendants) (h : place.previousSibling? = some sibling) :
    ∃ done rest,
      root.descendants = done ++ sibling :: (sibling.descendants ++ place :: rest) :=
  after_previousSibling_below root.crumbs root.node place hplace sibling h

/-! ## Addresses -/

/-- The address of the owners that `crumbs` stand for. -/
def addressOf (crumbs : List Crumb) : List Nat :=
  (crumbs.map fun crumb => crumb.before.length).reverse

/-- The number of siblings before the place and before each of its owners, the outermost first. -/
def address (place : Location) : List Nat := addressOf place.crumbs

theorem addressOf_cons (crumb : Crumb) (crumbs : List Crumb) :
    addressOf (crumb :: crumbs) = addressOf crumbs ++ [crumb.before.length] := by
  simp only [addressOf, List.map_cons, List.reverse_cons]

theorem length_addressOf (crumbs : List Crumb) : (addressOf crumbs).length = crumbs.length := by
  simp only [addressOf, List.length_reverse, List.length_map]

theorem lt_append_cons (common : List Nat) (index : Nat) (rest : List Nat) :
    common < common ++ index :: rest := by
  have hlonger : common ++ [] < common ++ index :: rest :=
    List.append_left_lt (List.nil_lt_cons index rest)
  rwa [List.append_nil] at hlonger

/-- An address under the sibling at index `i` comes before one under a later sibling. -/
theorem append_cons_lt_append_cons (common rest rest' : List Nat) {i j : Nat} (h : i < j) :
    common ++ i :: rest < common ++ j :: rest' :=
  List.append_left_lt (List.Lex.rel h)

mutual

theorem address_of_mem_below (crumbs : List Crumb) (node : Node) :
    ∀ place ∈ below crumbs node, ∃ index rest, place.address = addressOf crumbs ++ index :: rest :=
  match node with
  | .text _ => fun _ h => absurd h List.not_mem_nil
  | .comment _ => fun _ h => absurd h List.not_mem_nil
  | .branch label nodes => fun place h => by
    obtain ⟨index, rest, -, haddress⟩ := address_of_mem_belowAll label crumbs [] nodes place h
    exact ⟨index, rest, haddress⟩

/-- The addresses of a run of siblings and of all inside them extend that of their owner by an
    index that counts at least the siblings before the run. -/
theorem address_of_mem_belowAll (label : Label) (crumbs : List Crumb) (before nodes : List Node) :
    ∀ place ∈ belowAll label crumbs before nodes,
      ∃ index rest, before.length ≤ index ∧ place.address = addressOf crumbs ++ index :: rest :=
  match nodes with
  | [] => fun _ h => absurd h List.not_mem_nil
  | node :: after => fun place h => by
    rw [belowAll, List.mem_cons, List.mem_append] at h
    rcases h with rfl | h | h
    · exact ⟨before.length, [], Nat.le_refl _, addressOf_cons _ _⟩
    · obtain ⟨index, rest, haddress⟩ := address_of_mem_below _ node place h
      rw [addressOf_cons, List.append_assoc] at haddress
      exact ⟨before.length, index :: rest, Nat.le_refl _, haddress⟩
    · obtain ⟨index, rest, hle, haddress⟩ :=
        address_of_mem_belowAll label crumbs (node :: before) after place h
      rw [List.length_cons] at hle
      exact ⟨index, rest, by omega, haddress⟩

end

/-- A place comes before all that is inside it. -/
theorem address_lt_of_mem_descendants {place inner : Location} (h : inner ∈ place.descendants) :
    place.address < inner.address := by
  obtain ⟨index, rest, haddress⟩ := address_of_mem_below _ _ inner h
  rw [haddress]
  exact lt_append_cons _ _ _

mutual

theorem pairwise_below (crumbs : List Crumb) (node : Node) :
    (below crumbs node).Pairwise fun place later => place.address < later.address :=
  match node with
  | .text _ => .nil
  | .comment _ => .nil
  | .branch label nodes => pairwise_belowAll label crumbs [] nodes

theorem pairwise_belowAll (label : Label) (crumbs : List Crumb) (before nodes : List Node) :
    (belowAll label crumbs before nodes).Pairwise fun place later =>
      place.address < later.address :=
  match nodes with
  | [] => .nil
  | node :: after => by
    -- The first sibling's own address ends in its index; inside it addresses go on from there.
    have hinside : ∀ place ∈ below (⟨label, before, after⟩ :: crumbs) node,
        ∃ rest, place.address = addressOf crumbs ++ before.length :: rest := by
      intro place h
      obtain ⟨index, rest, haddress⟩ := address_of_mem_below _ node place h
      rw [addressOf_cons, List.append_assoc] at haddress
      exact ⟨index :: rest, haddress⟩
    rw [belowAll, List.pairwise_cons, List.pairwise_append]
    refine ⟨?_, pairwise_below _ node, pairwise_belowAll label crumbs (node :: before) after, ?_⟩
    · intro later h
      rcases List.mem_append.1 h with h | h
      · have hinner : later ∈ descendants ⟨node, ⟨label, before, after⟩ :: crumbs⟩ := h
        exact address_lt_of_mem_descendants hinner
      · obtain ⟨index, rest, hle, haddress⟩ := address_of_mem_belowAll _ _ _ _ later h
        rw [haddress, address, addressOf_cons]
        exact append_cons_lt_append_cons _ _ _ hle
    · intro place hplace later hlater
      obtain ⟨rest, haddress⟩ := hinside place hplace
      obtain ⟨index, rest', hle, haddress'⟩ := address_of_mem_belowAll _ _ _ _ later hlater
      rw [haddress, haddress']
      exact append_cons_lt_append_cons _ _ _ hle

end

/-- Along the descendants of a place the addresses strictly increase. -/
theorem pairwise_descendants (place : Location) :
    place.descendants.Pairwise fun inner later => inner.address < later.address :=
  pairwise_below place.crumbs place.node

theorem nodup_descendants (root : Location) : root.descendants.Nodup := by
  refine root.pairwise_descendants.imp fun {place later} hlt heq => ?_
  rw [heq] at hlt
  exact List.lt_irrefl _ hlt

/-- Two places below the root with one address are one place. -/
theorem eq_of_address_eq {root place other : Location} (hplace : place ∈ root.descendants)
    (hother : other ∈ root.descendants) (h : place.address = other.address) : place = other := by
  have hpairwise := root.pairwise_descendants
  obtain ⟨before, after, hsplit⟩ := List.append_of_mem hplace
  rw [hsplit, List.pairwise_append, List.pairwise_cons] at hpairwise
  rw [hsplit, List.mem_append, List.mem_cons] at hother
  rcases hother with hother | rfl | hother
  · have hlt := hpairwise.2.2 other hother place List.mem_cons_self
    exact absurd hlt (h ▸ List.lt_irrefl _)
  · rfl
  · have hlt := hpairwise.2.1.1 other hother
    exact absurd hlt (h ▸ List.lt_irrefl _)

/-- A place comes once, so it splits the places below the root in one way. -/
theorem descendants_split_unique {root place : Location}
    {before after before' after' : List Location}
    (h : root.descendants = before ++ place :: after)
    (h' : root.descendants = before' ++ place :: after') : before = before' ∧ after = after' := by
  have hnodup := root.nodup_descendants
  rw [h, List.nodup_append, List.nodup_cons] at hnodup
  obtain ⟨-, ⟨hafter, -⟩, hdisjoint⟩ := hnodup
  have hbefore : place ∉ before := fun hmem => hdisjoint place hmem place List.mem_cons_self rfl
  obtain ⟨hfirst, -, hrest⟩ :=
    (List.append_cons_inj_of_notMem hbefore hafter).1 (h.symm.trans h')
  exact ⟨hfirst, hrest⟩

/-! ## Levels -/

/-- How far a place is below the root; the children of the root are at level 1. -/
def levelUnder (root place : Location) : Nat := place.crumbs.length - root.crumbs.length

/-- No node below the root that has children is deeper than `limit`. -/
def FitsDepth (root : Location) (limit : Nat) : Prop :=
  ∀ place ∈ root.descendants, place.node.hasChildren → root.levelUnder place ≤ limit

theorem length_crumbs_lt_of_mem_descendants {root place : Location}
    (h : place ∈ root.descendants) : root.crumbs.length < place.crumbs.length := by
  obtain ⟨index, rest, haddress⟩ := address_of_mem_below _ _ place h
  have hlength := congrArg List.length haddress
  rw [address, List.length_append, length_addressOf, length_addressOf, List.length_cons] at hlength
  omega

theorem hasChildren_of_parent? {place owner : Location} (h : place.parent? = some owner) :
    owner.node.hasChildren ∧ place.crumbs.length = owner.crumbs.length + 1 := by
  obtain ⟨node, _ | ⟨crumb, crumbs⟩⟩ := place
  · exact absurd h (by simp [parent?])
  · obtain rfl := Option.some.inj h
    refine ⟨?_, rfl⟩
    simp [Crumb.fill, Node.hasChildren, Node.children]

/-- Where the markup fits, no place is more than one level below the limit. -/
theorem FitsDepth.level_le {root : Location} {limit : Nat} (h : root.FitsDepth limit) :
    ∀ place ∈ root.descendants, root.levelUnder place ≤ limit + 1 := by
  intro place hplace
  obtain ⟨owner, hparent, howner⟩ := parent?_of_mem_descendants hplace
  obtain ⟨hchildren, hlength⟩ := hasChildren_of_parent? hparent
  rcases howner with rfl | howner
  · unfold levelUnder
    omega
  · have := h owner howner hchildren
    have := length_crumbs_lt_of_mem_descendants howner
    unfold levelUnder at *
    omega

theorem exists_mem_children {place : Location} (h : place.node.hasChildren) :
    ∃ child, child ∈ place.children := by
  obtain ⟨node, crumbs⟩ := place
  cases node with
  | branch label nodes =>
    cases nodes with
    | nil => exact absurd h Bool.false_ne_true
    | cons node after => exact ⟨_, List.mem_cons_self⟩
  | text content => exact absurd h Bool.false_ne_true
  | comment content => exact absurd h Bool.false_ne_true

/-- The markup fits exactly where no place is more than one level below the limit. -/
theorem fitsDepth_iff {root : Location} {limit : Nat} : root.FitsDepth limit ↔
    ∀ place ∈ root.descendants, root.levelUnder place ≤ limit + 1 := by
  refine ⟨FitsDepth.level_le, fun h place hplace hchildren => ?_⟩
  obtain ⟨child, hchild⟩ := exists_mem_children hchildren
  have hinside := (children_sublist_descendants place).subset hchild
  have hlevel := h child ((descendants_sublist hplace).subset hinside)
  have hlength := (hasChildren_of_parent? (parent?_of_mem_children hchild)).2
  have hbelow := length_crumbs_lt_of_mem_descendants hplace
  unfold levelUnder at *
  omega

/-! ## Owners -/

/-- The owners that crumbs stand for around a node. -/
def ownersFrom (node : Node) : List Crumb → List Location
  | [] => []
  | crumb :: crumbs => ⟨crumb.fill node, crumbs⟩ :: ownersFrom (crumb.fill node) crumbs

/-- The owners of a place, the nearest first. -/
def owners (place : Location) : List Location := ownersFrom place.node place.crumbs

/-- The owners of a place that are below the root, the nearest first. -/
def ownersUnder (root place : Location) : List Location :=
  place.owners.takeWhile fun owner => root.crumbs.length < owner.crumbs.length

theorem owners_of_parent? {place owner : Location} (h : place.parent? = some owner) :
    place.owners = owner :: owner.owners := by
  obtain ⟨node, _ | ⟨crumb, crumbs⟩⟩ := place
  · exact absurd h (by simp [parent?])
  · obtain rfl := Option.some.inj h
    rfl

/-- Right below the root there are no owners. -/
theorem ownersUnder_of_root {root place : Location} (h : place.parent? = some root) :
    root.ownersUnder place = [] := by
  rw [ownersUnder, owners_of_parent? h, List.takeWhile_cons_of_neg (by simp)]

theorem ownersUnder_of_parent? {root place owner : Location} (h : place.parent? = some owner)
    (howner : owner ∈ root.descendants) :
    root.ownersUnder place = owner :: root.ownersUnder owner := by
  rw [ownersUnder, owners_of_parent? h, List.takeWhile_cons_of_pos]
  · rfl
  · exact decide_eq_true (length_crumbs_lt_of_mem_descendants howner)

theorem ownersUnder_of_previousSibling? {root place sibling owner : Location}
    (h : place.previousSibling? = some sibling) (hparent : place.parent? = some owner) :
    root.ownersUnder place = root.ownersUnder sibling := by
  have hsibling := (parent?_of_previousSibling? h).trans hparent
  rw [ownersUnder, ownersUnder, owners_of_parent? hparent, owners_of_parent? hsibling]

/-- What holds of the children of a place, and of whatever stands in a place below it that it holds
    of, holds of all that is below it. -/
theorem descendants_induction {root : Location}
    {motive : ∀ place, place ∈ root.descendants → Prop}
    (child : ∀ place h, place.parent? = some root → motive place h)
    (inside : ∀ place h owner howner, place.parent? = some owner → motive owner howner →
      motive place h)
    {place : Location} (h : place ∈ root.descendants) : motive place h := by
  induction hlength : place.crumbs.length using Nat.strongRecOn generalizing place with
  | ind length ih =>
    obtain ⟨owner, hparent, howner⟩ := parent?_of_mem_descendants h
    have hlonger := (hasChildren_of_parent? hparent).2
    rcases howner with rfl | howner
    · exact child place h hparent
    · exact inside place h owner howner hparent (ih _ (by omega) howner rfl)

/-- The owners below the root are below the root. -/
theorem mem_descendants_of_mem_ownersUnder {root place owner : Location}
    (h : place ∈ root.descendants) (howner : owner ∈ root.ownersUnder place) :
    owner ∈ root.descendants := by
  induction h using descendants_induction with
  | child place h hparent =>
    rw [ownersUnder_of_root hparent] at howner
    exact absurd howner List.not_mem_nil
  | inside place h parent hbelow hparent ih =>
    rw [ownersUnder_of_parent? hparent hbelow] at howner
    rcases List.mem_cons.1 howner with rfl | howner
    · exact hbelow
    · exact ih howner

/-- The owners of a place, split at one of them. -/
theorem ownersUnder_append {root outer place : Location} (houter : outer ∈ root.descendants)
    (hplace : place ∈ outer.descendants) :
    root.ownersUnder place = outer.ownersUnder place ++ outer :: root.ownersUnder outer := by
  induction hplace using descendants_induction with
  | child place hplace hparent =>
    rw [ownersUnder_of_root hparent, ownersUnder_of_parent? hparent houter, List.nil_append]
  | inside place hplace parent hbelow hparent ih =>
    have hroot := (descendants_sublist houter).subset hbelow
    rw [ownersUnder_of_parent? hparent hbelow, ownersUnder_of_parent? hparent hroot, ih,
      List.cons_append]

end Galley.Location
