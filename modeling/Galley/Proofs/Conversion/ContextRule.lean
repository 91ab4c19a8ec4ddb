import Galley.Conversion.Registry
import Galley.Proofs.Markup.DocumentOrder

/-!
  The context in force at a place, read off the markup and what handlers gave so far.

  `inForce` says it without a walk. The first child of the root stands in the target, the first
  child of a handled node in what that node's handler gave, and the first child of any other
  node in what is in force at that node. A later sibling stands in what is in force at the one
  before it, except for `continued`: where it has a handler and comes right after a text, and
  the nearest earlier sibling with a handler gave a paragraph, that paragraph is in force from
  there on. `inForce_append` says which answers the rule does not look at: those of places that
  do not come before.
-/

namespace Galley

/-- What handlers gave, each with the place it was called for, the latest first. -/
abbrev Answers := List (Location × Context)

/-- What the handler gave that was called for a place. -/
def answerAt? (answers : Answers) (place : Location) : Option Context :=
  (answers.find? fun answer => answer.1.address = place.address).map Prod.snd

/-- Whether the key of a node has a handler. -/
def Registry.handles (registry : Registry) (node : Node) : Bool :=
  (registry.handler? node).isSome

theorem Registry.handles_of_none {registry : Registry} {node : Node}
    (h : registry.handler? node = none) : registry.handles node = false := by
  rw [handles, h]
  rfl

theorem Registry.handles_of_some {registry : Registry} {node : Node} {handler : Handler}
    (h : registry.handler? node = some handler) : registry.handles node = true := by
  rw [handles, h]
  rfl

namespace Location

/-- The siblings before a gap, the nearest first, given those after it. -/
def earlierFrom (label : Label) (crumbs : List Crumb) : List Node → List Node → List Location
  | [], _ => []
  | node :: before, after =>
    ⟨node, ⟨label, before, after⟩ :: crumbs⟩ :: earlierFrom label crumbs before (node :: after)

/-- The earlier siblings of a place, the nearest first. -/
def earlier (place : Location) : List Location :=
  match place.crumbs with
  | [] => []
  | crumb :: crumbs => earlierFrom crumb.label crumbs crumb.before (place.node :: crumb.after)

/-- The number of siblings before a place. -/
def index (place : Location) : Nat :=
  match place.crumbs with
  | [] => 0
  | crumb :: _ => crumb.before.length

theorem head?_earlier (place : Location) : place.earlier.head? = place.previousSibling? := by
  obtain ⟨node, _ | ⟨⟨label, _ | ⟨previous, before⟩, after⟩, crumbs⟩⟩ := place <;> rfl

/-- Going back from a place: to its previous sibling, or from a first child to its owner. -/
def back (place : Location) : Nat × Nat := (place.crumbs.length, place.index)

theorem back_lt_of_previousSibling? {place sibling : Location}
    (h : place.previousSibling? = some sibling) :
    Prod.Lex (· < ·) (· < ·) sibling.back place.back := by
  obtain ⟨node, _ | ⟨⟨label, _ | ⟨previous, before⟩, after⟩, crumbs⟩⟩ := place
  · exact absurd h (by simp [previousSibling?])
  · exact absurd h (by simp [previousSibling?])
  · obtain rfl := Option.some.inj h
    exact Prod.Lex.right _ (Nat.lt_succ_self _)

theorem back_lt_of_parent? {place owner : Location} (h : place.parent? = some owner) :
    Prod.Lex (· < ·) (· < ·) owner.back place.back := by
  obtain ⟨node, _ | ⟨crumb, crumbs⟩⟩ := place
  · exact absurd h (by simp [parent?])
  · obtain rfl := Option.some.inj h
    exact Prod.Lex.left _ _ (Nat.lt_succ_self _)

/-- What holds at a place without an owner, and at every other place if it holds one step back,
    holds everywhere. -/
theorem back_induction {motive : Location → Prop}
    (top : ∀ place, place.previousSibling? = none → place.parent? = none → motive place)
    (first : ∀ place owner, place.previousSibling? = none → place.parent? = some owner →
      motive owner → motive place)
    (later : ∀ place sibling, place.previousSibling? = some sibling → motive sibling →
      motive place)
    (place : Location) : motive place := by
  cases hprevious : place.previousSibling? with
  | none =>
    cases hparent : place.parent? with
    | none => exact top place hprevious hparent
    | some owner =>
      exact first place owner hprevious hparent (back_induction top first later owner)
  | some sibling =>
    exact later place sibling hprevious (back_induction top first later sibling)
termination_by place.back
decreasing_by
  · exact back_lt_of_parent? hparent
  · exact back_lt_of_previousSibling? hprevious

theorem address_of_mem_earlierFrom {label : Label} {crumbs : List Crumb} {before after : List Node}
    {place : Location} (h : place ∈ earlierFrom label crumbs before after) :
    ∃ index < before.length, place.address = addressOf crumbs ++ [index] := by
  induction before generalizing after with
  | nil => exact absurd h List.not_mem_nil
  | cons node before ih =>
    rw [earlierFrom, List.mem_cons] at h
    rcases h with rfl | h
    · exact ⟨before.length, Nat.lt_succ_self _, addressOf_cons _ _⟩
    · obtain ⟨index, hlt, haddress⟩ := ih h
      exact ⟨index, Nat.lt_succ_of_lt hlt, haddress⟩

theorem address_lt_of_mem_earlier {place sibling : Location} (h : sibling ∈ place.earlier) :
    sibling.address < place.address := by
  obtain ⟨node, _ | ⟨crumb, crumbs⟩⟩ := place
  · exact absurd h List.not_mem_nil
  · obtain ⟨index, hlt, haddress⟩ := address_of_mem_earlierFrom h
    rw [haddress, address, addressOf_cons]
    exact append_cons_lt_append_cons _ _ _ hlt

theorem address_lt_of_previousSibling? {place sibling : Location}
    (h : place.previousSibling? = some sibling) : sibling.address < place.address := by
  rw [← head?_earlier] at h
  exact address_lt_of_mem_earlier (List.mem_of_mem_head? h)

theorem address_lt_of_parent? {place owner : Location} (h : place.parent? = some owner) :
    owner.address < place.address := by
  obtain ⟨node, _ | ⟨crumb, crumbs⟩⟩ := place
  · exact absurd h (by simp [parent?])
  · obtain rfl := Option.some.inj h
    rw [address, address, addressOf_cons]
    exact lt_append_cons _ _ _

end Location

section Rule

variable (registry : Registry) (target : Context) (root : Location) (answers : Answers)

/-- What the nearest earlier sibling gave that has a handler. -/
def nearestAnswer? (place : Location) : Option Context :=
  (place.earlier.find? fun sibling => registry.handles sibling.node).bind (answerAt? answers)

/-- The paragraph that a place goes on with, if it does: it has a handler and comes right after a
    text, and the nearest earlier sibling with a handler gave that paragraph. -/
def continued? (place : Location) : Option Context :=
  if registry.handles place.node ∧ place.previousSibling?.any (fun sibling => sibling.node.isText)
  then
    match nearestAnswer? registry answers place with
    | some (.inParagraph id) => some (.inParagraph id)
    | _ => none
  else none

/-- The context in force at a place. -/
def inForce (place : Location) : Context :=
  match _hprevious : place.previousSibling? with
  | some sibling => (continued? registry answers place).getD (inForce sibling)
  | none =>
    match _hparent : place.parent? with
    | none => target
    | some owner =>
      if owner.address = root.address then target
      else if registry.handles owner.node then (answerAt? answers owner).getD target
      else inForce owner
termination_by place.back
decreasing_by
  · exact Location.back_lt_of_previousSibling? (by assumption)
  · exact Location.back_lt_of_parent? (by assumption)

/-- The context that the children of a node start with. -/
def startInside (owner : Location) : Context :=
  if owner.address = root.address then target
  else if registry.handles owner.node then (answerAt? answers owner).getD target
  else inForce registry target root answers owner

variable {registry target root answers}

theorem inForce_of_previousSibling? {place sibling : Location}
    (h : place.previousSibling? = some sibling) :
    inForce registry target root answers place =
      (continued? registry answers place).getD (inForce registry target root answers sibling) := by
  rw [inForce]
  split
  · next other hother =>
    rw [h] at hother
    rw [Option.some.inj hother]
  · next hnone => rw [h] at hnone; exact absurd hnone (by simp)

theorem inForce_of_first {place owner : Location} (h : place.previousSibling? = none)
    (hparent : place.parent? = some owner) :
    inForce registry target root answers place =
      startInside registry target root answers owner := by
  rw [inForce]
  split
  · next other hother => rw [h] at hother; exact absurd hother (by simp)
  · split
    · next hnone => rw [hparent] at hnone; exact absurd hnone (by simp)
    · next other hother =>
      rw [hparent] at hother
      rw [← Option.some.inj hother]
      rfl

theorem inForce_of_top {place : Location} (h : place.previousSibling? = none)
    (hparent : place.parent? = none) : inForce registry target root answers place = target := by
  rw [inForce]
  split
  · next other hother => rw [h] at hother; exact absurd hother (by simp)
  · split
    · rfl
    · next other hother => rw [hparent] at hother; exact absurd hother (by simp)

/-- An answer for the place itself is found first. -/
theorem answerAt?_cons_self (place : Location) (context : Context) :
    answerAt? ((place, context) :: answers) place = some context := by
  simp only [answerAt?, List.find?_cons, decide_true, Option.map_some]

/-- Answers for other places are passed over. -/
theorem answerAt?_append {news : Answers} {place : Location}
    (h : ∀ answer ∈ news, answer.1.address ≠ place.address) :
    answerAt? (news ++ answers) place = answerAt? answers place := by
  have hnone : news.find? (fun answer => answer.1.address = place.address) = none := by
    rw [List.find?_eq_none]
    intro answer hanswer
    rw [decide_eq_true_eq]
    exact h answer hanswer
  rw [answerAt?, answerAt?, List.find?_append, hnone, Option.none_or]

theorem nearestAnswer?_append {news : Answers} {place : Location}
    (h : ∀ answer ∈ news, ¬ answer.1.address < place.address) :
    nearestAnswer? registry (news ++ answers) place = nearestAnswer? registry answers place := by
  unfold nearestAnswer?
  cases hfind : place.earlier.find? fun sibling => registry.handles sibling.node with
  | none => rfl
  | some sibling =>
    have hlt := Location.address_lt_of_mem_earlier (List.mem_of_find?_eq_some hfind)
    exact answerAt?_append fun answer hanswer heq => h answer hanswer (heq ▸ hlt)

/-- The rule looks at no answer for a place that does not come before. -/
theorem inForce_append {news : Answers} {place : Location}
    (h : ∀ answer ∈ news, ¬ answer.1.address < place.address) :
    inForce registry target root (news ++ answers) place =
      inForce registry target root answers place := by
  -- Going back leads to smaller addresses, which keeps the hypothesis.
  have hback : ∀ {place other : Location}, other.address < place.address →
      (∀ answer ∈ news, ¬ answer.1.address < place.address) →
      ∀ answer ∈ news, ¬ answer.1.address < other.address :=
    fun hlt h answer hanswer hless => h answer hanswer (List.lt_trans hless hlt)
  induction place using Location.back_induction with
  | top place hprevious hparent =>
    rw [inForce_of_top hprevious hparent, inForce_of_top hprevious hparent]
  | first place owner hprevious hparent ih =>
    have hlt := Location.address_lt_of_parent? hparent
    have hanswer : answerAt? (news ++ answers) owner = answerAt? answers owner :=
      answerAt?_append fun answer hmem heq => h answer hmem (heq ▸ hlt)
    rw [inForce_of_first hprevious hparent, inForce_of_first hprevious hparent, startInside,
      startInside, hanswer, ih (hback hlt h)]
  | later place sibling hprevious ih =>
    have hlt := Location.address_lt_of_previousSibling? hprevious
    rw [inForce_of_previousSibling? hprevious, inForce_of_previousSibling? hprevious,
      ih (hback hlt h), continued?, continued?, nearestAnswer?_append h]

theorem mem_of_answerAt? {place : Location} {context : Context}
    (h : answerAt? answers place = some context) : ∃ other, (other, context) ∈ answers := by
  obtain ⟨⟨other, given⟩, hfind, rfl⟩ := Option.map_eq_some_iff.1 h
  exact ⟨other, List.mem_of_find?_eq_some hfind⟩

theorem mem_of_continued? {place : Location} {context : Context}
    (h : continued? registry answers place = some context) :
    ∃ other, (other, context) ∈ answers := by
  unfold continued? at h
  split at h
  · split at h
    · next id hid =>
      rw [← Option.some.inj h]
      obtain ⟨sibling, -, hanswer⟩ := Option.bind_eq_some_iff.1 hid
      exact mem_of_answerAt? hanswer
    · exact absurd h (by simp)
  · exact absurd h (by simp)

/-- The rule only ever gives the target or an answer. -/
theorem inForce_mem (place : Location) :
    inForce registry target root answers place = target ∨
      ∃ other, (other, inForce registry target root answers place) ∈ answers := by
  induction place using Location.back_induction with
  | top place hprevious hparent => exact .inl (inForce_of_top hprevious hparent)
  | first place owner hprevious hparent ih =>
    rw [inForce_of_first hprevious hparent, startInside]
    split
    · exact .inl rfl
    · split
      · cases hanswer : answerAt? answers owner with
        | none => exact .inl rfl
        | some context => exact .inr (mem_of_answerAt? hanswer)
      · exact ih
  | later place sibling hprevious ih =>
    rw [inForce_of_previousSibling? hprevious]
    cases hcontinued : continued? registry answers place with
    | some context => exact .inr (mem_of_continued? hcontinued)
    | none => exact ih

end Rule

end Galley
