import Galley.Html.ElementName
import Galley.Markup.Node

/-!
The tree under construction. Nodes are numbered in order of creation and may be moved; text that
is added next to text joins it. When all is built, `GrowingTree.toNode` reads the tree off.
-/

namespace Galley.Html

/-- What a node is. -/
inductive NodeContent where
  | element (name : ElementName) (attributes : List Attribute)
  | text (content : String)
  | comment (content : String)
  | fragment

/-- A node with its links. -/
structure LinkedNode where
  content : NodeContent
  parent : Option Nat
  children : List Nat

structure GrowingTree where
  nodes : Array LinkedNode

namespace GrowingTree

def empty : GrowingTree := ⟨#[]⟩

def parent? (tree : GrowingTree) (id : Nat) : Option Nat :=
  tree.nodes[id]?.bind LinkedNode.parent

def children (tree : GrowingTree) (id : Nat) : List Nat :=
  (tree.nodes[id]?.map LinkedNode.children).getD []

def isText (tree : GrowingTree) (id : Nat) : Bool :=
  match tree.nodes[id]?.map LinkedNode.content with
  | some (.text _) => true
  | _ => false

/-- Adds a node that stands nowhere yet. -/
def create (tree : GrowingTree) (content : NodeContent) : Nat × GrowingTree :=
  (tree.nodes.size, ⟨tree.nodes.push ⟨content, none, []⟩⟩)

def setParent (tree : GrowingTree) (id : Nat) (parent : Option Nat) : GrowingTree :=
  ⟨tree.nodes.modify id fun node => { node with parent := parent }⟩

def modifyChildren (tree : GrowingTree) (id : Nat) (f : List Nat → List Nat) : GrowingTree :=
  ⟨tree.nodes.modify id fun node => { node with children := f node.children }⟩

/-- Adds text at the end of a text node. -/
def extendText (tree : GrowingTree) (id : Nat) (text : String) : GrowingTree :=
  ⟨tree.nodes.modify id fun node =>
    match node.content with
    | .text content => { node with content := .text (content ++ text) }
    | _ => node⟩

/-- Takes a node out of its parent. -/
def detach (tree : GrowingTree) (id : Nat) : GrowingTree :=
  match tree.parent? id with
  | some parent => (tree.modifyChildren parent fun ids => ids.erase id).setParent id none
  | none => tree

/-- Moves a node to the end of a parent's children. -/
def append (tree : GrowingTree) (parent id : Nat) : GrowingTree :=
  ((tree.detach id).modifyChildren parent fun ids => ids ++ [id]).setParent id (some parent)

/-- Adds text at the end of a parent's children, to a text that is last there. -/
def appendText (tree : GrowingTree) (parent : Nat) (text : String) : GrowingTree :=
  match (tree.children parent).getLast? with
  | some last =>
    if tree.isText last then tree.extendText last text
    else
      let (id, tree) := tree.create (.text text)
      tree.append parent id
  | none =>
    let (id, tree) := tree.create (.text text)
    tree.append parent id

/-- A list with `item` right before `mark`. -/
def insertBeforeIn (item mark : Nat) : List Nat → List Nat
  | [] => []
  | id :: rest => if id = mark then item :: id :: rest else id :: insertBeforeIn item mark rest

/-- What stands right before `mark`. -/
def itemBefore? (mark : Nat) : List Nat → Option Nat
  | first :: second :: rest =>
    if second = mark then some first else itemBefore? mark (second :: rest)
  | _ => none

/-- Moves a node to right before a sibling that has a parent. -/
def insertBefore (tree : GrowingTree) (sibling id : Nat) : GrowingTree :=
  let tree := tree.detach id
  match tree.parent? sibling with
  | some parent =>
    (tree.modifyChildren parent (insertBeforeIn id sibling)).setParent id (some parent)
  | none => tree

/-- Adds text right before a sibling that has a parent, to a text that stands there. -/
def insertTextBefore (tree : GrowingTree) (sibling : Nat) (text : String) : GrowingTree :=
  let before := (tree.parent? sibling).bind fun parent =>
    itemBefore? sibling (tree.children parent)
  match before with
  | some id =>
    if tree.isText id then tree.extendText id text
    else
      let (id, tree) := tree.create (.text text)
      tree.insertBefore sibling id
  | none =>
    let (id, tree) := tree.create (.text text)
    tree.insertBefore sibling id

/-- Moves all children of a node to the end of another's. -/
def moveChildren (tree : GrowingTree) (source target : Nat) : GrowingTree :=
  (tree.children source).foldl (fun tree id => tree.append target id) tree

/-- Gives an element the attributes that it does not have yet. -/
def addMissingAttributes (tree : GrowingTree) (id : Nat) (attributes : List Attribute) :
    GrowingTree :=
  ⟨tree.nodes.modify id fun node =>
    match node.content with
    | .element name own =>
      let missing := attributes.filter fun given => own.all fun had => had.name != given.name
      { node with content := .element name (own ++ missing) }
    | _ => node⟩

/-- The markup below a node, read `fuel` levels deep. -/
def readNode (tree : GrowingTree) : (fuel : Nat) → Nat → Option Node
  | 0, _ => none
  | fuel + 1, id =>
    tree.nodes[id]?.map fun node =>
      match node.content with
      | .text content => .text content
      | .comment content => .comment content
      | .fragment => .branch .fragment (node.children.filterMap (tree.readNode fuel))
      | .element name attributes =>
        .branch (.element name.name attributes) (node.children.filterMap (tree.readNode fuel))

/-- The markup below a node. A tree is nowhere deeper than it has nodes. -/
def toNode (tree : GrowingTree) (id : Nat) : Node :=
  (tree.readNode tree.nodes.size id).getD (.branch .fragment [])

end GrowingTree

end Galley.Html
