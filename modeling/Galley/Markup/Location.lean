import Galley.Markup.Node

/-!
A node together with its place in the tree, so that siblings and owners can be asked for. A
location keeps, for each owner from the inside out, the owner's label and the siblings to either
side; filling the focus back in gives the owner (`parent?`).
-/

namespace Galley

/-- An owner with a gap where the focus was taken out. -/
structure Crumb where
  label : Label
  /-- The siblings before the gap, the nearest first. -/
  before : List Node
  /-- The siblings after the gap, the nearest first. -/
  after : List Node
  deriving Repr

/-- The owner with its gap filled. -/
def Crumb.fill (crumb : Crumb) (node : Node) : Node :=
  .branch crumb.label (crumb.before.reverse ++ node :: crumb.after)

/-- A node and all that surrounds it. -/
structure Location where
  node : Node
  /-- The owners, the nearest first. -/
  crumbs : List Crumb
  deriving Repr

namespace Location

def parent? (place : Location) : Option Location :=
  match place.crumbs with
  | [] => none
  | crumb :: crumbs => some ⟨crumb.fill place.node, crumbs⟩

def previousSibling? (place : Location) : Option Location :=
  match place.crumbs with
  | [] => none
  | crumb :: crumbs =>
    match crumb.before with
    | [] => none
    | node :: before => some ⟨node, ⟨crumb.label, before, place.node :: crumb.after⟩ :: crumbs⟩

def nextSibling? (place : Location) : Option Location :=
  match place.crumbs with
  | [] => none
  | crumb :: crumbs =>
    match crumb.after with
    | [] => none
    | node :: after => some ⟨node, ⟨crumb.label, place.node :: crumb.before, after⟩ :: crumbs⟩

/-- The locations of a run of siblings, given those before them (the nearest first). -/
def siblings (label : Label) (crumbs : List Crumb) : List Node → List Node → List Location
  | _, [] => []
  | before, node :: after =>
    ⟨node, ⟨label, before, after⟩ :: crumbs⟩ :: siblings label crumbs (node :: before) after

/-- The children in order, each with its place. -/
def children (place : Location) : List Location :=
  match place.node with
  | .branch label nodes => siblings label place.crumbs [] nodes
  | _ => []

theorem parent?_of_mem_siblings {label : Label} {crumbs : List Crumb} {before nodes : List Node}
    {place : Location} (h : place ∈ siblings label crumbs before nodes) :
    place.parent? = some ⟨.branch label (before.reverse ++ nodes), crumbs⟩ := by
  induction nodes generalizing before with
  | nil => simp [siblings] at h
  | cons node after ih =>
    rw [siblings, List.mem_cons] at h
    rcases h with rfl | h
    · rfl
    · simpa using ih h

/-- A child's parent is the node it was taken from. -/
theorem parent?_of_mem_children {place child : Location} (h : child ∈ place.children) :
    child.parent? = some place := by
  obtain ⟨node, crumbs⟩ := place
  cases node with
  | branch label nodes => simpa using parent?_of_mem_siblings h
  | _ => simp [children] at h

/-- The child at an index. -/
def child? (place : Location) (index : Nat) : Option Location :=
  place.children[index]?

end Location

end Galley
