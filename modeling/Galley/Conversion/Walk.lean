import Galley.Conversion.Registry

/-!
The walk over a markup tree. Nodes are visited in order, each before what is inside it; a node
whose key has a handler is given to it. Content that follows loose text stays in the paragraph
that the text went into.
-/

namespace Galley

/-- What one sibling hands on to the next. -/
structure Cursor where
  /-- The context in force. -/
  current : Context
  /-- What the handler of the last handled sibling gave. -/
  previous : Option Context

/-- The context a handler is called with: after a text, the paragraph of the last handled sibling
if it gave one. -/
def Cursor.contextAfter (cursor : Cursor) (sibling? : Option Node) : Context :=
  match sibling?, cursor.previous with
  | some (.text _), some (.inParagraph id) => .inParagraph id
  | _, _ => cursor.current

mutual

/-- Walks what is inside a node, at the given depth, and gives the number of handled nodes. -/
def walkInside (registry : Registry) (limit depth : Nat) (crumbs : List Crumb) (context : Context) :
    Node → Edit Nat
  | .branch label nodes =>
    if nodes.isEmpty then return 0
    else if limit < depth then throw (.tooDeep limit)
    else walkSiblings registry limit depth label crumbs [] ⟨context, none⟩ nodes
  | _ => return 0

/-- Walks siblings from the first to the last, given those before them (the nearest first). -/
def walkSiblings (registry : Registry) (limit depth : Nat) (label : Label) (crumbs : List Crumb)
    (before : List Node) (cursor : Cursor) : List Node → Edit Nat
  | [] => return 0
  | node :: after => do
    let place : Location := ⟨node, ⟨label, before, after⟩ :: crumbs⟩
    match registry.handler? node with
    | none =>
      let inside ← walkInside registry limit (depth + 1) place.crumbs cursor.current node
      let rest ← walkSiblings registry limit depth label crumbs (node :: before) cursor after
      return inside + rest
    | some handler =>
      let context := cursor.contextAfter before.head?
      let result ← handler place context
      let inside ← walkInside registry limit (depth + 1) place.crumbs result node
      let rest ←
        walkSiblings registry limit depth label crumbs (node :: before) ⟨context, some result⟩ after
      return 1 + inside + rest

end

/-- Converts the children of a node and gives the number of handled nodes. -/
def walk (registry : Registry) (limit : Nat) (target : Context) (root : Location) : Edit Nat :=
  walkInside registry limit 0 root.crumbs target root.node

end Galley
