/-!
Parsed markup as a tree. Texts and comments are leaves; a branch has a label, which is an element's
name and attributes, or nothing for a fragment that only holds other nodes.
-/

namespace Galley

structure Attribute where
  name : String
  value : String
  deriving DecidableEq, Repr

/-- What a branch of the tree is. -/
inductive Label where
  | element (name : String) (attributes : List Attribute)
  /-- Holds nodes without being an element: the content of a template, or the whole markup. -/
  | fragment
  deriving DecidableEq, Repr

/-- A node of the markup tree. -/
inductive Node where
  | text (content : String)
  | comment (content : String)
  | branch (label : Label) (children : List Node)
  deriving Repr

/-- An element's name. -/
def Label.name? : Label → Option String
  | .element name _ => some name
  | .fragment => none

namespace Node

/-- An element's name; other nodes have none. -/
def name? : Node → Option String
  | branch label _ => label.name?
  | _ => none

def isElement (node : Node) (name : String) : Bool :=
  node.name? == some name

def isText : Node → Bool
  | text _ => true
  | _ => false

/-- The content of a text node. -/
def text? : Node → Option String
  | text content => some content
  | _ => none

/-- An element's attribute by its exact name; of two with one name the first counts. -/
def attr? (node : Node) (name : String) : Option String :=
  match node with
  | branch (.element _ attributes) _ =>
    (attributes.find? fun given => given.name == name).map Attribute.value
  | _ => none

def children : Node → List Node
  | branch _ nodes => nodes
  | _ => []

def hasChildren (node : Node) : Bool :=
  !node.children.isEmpty

mutual

/-- The content of every text node at or below a node, in order. -/
def innerText : Node → String
  | text content => content
  | comment _ => ""
  | branch _ nodes => innerTexts nodes

/-- The inner texts of a list of nodes, one after the other. -/
def innerTexts : List Node → String
  | [] => ""
  | node :: rest => innerText node ++ innerTexts rest

end

end Node

end Galley
