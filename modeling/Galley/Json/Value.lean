/-!
JSON values. Objects keep their members in order, repeated names included, and a number keeps its
spelling. A string whose escapes name half of a surrogate pair stands for no text: its content is
`none`, and the same holds for the name of a member.
-/

namespace Galley

/-- A JSON value. -/
inductive Json where
  | null
  | bool (value : Bool)
  | number (spelling : String)
  | string (content : Option String)
  | array (items : List Json)
  | object (members : List (Option String × Json))
  deriving Repr, Inhabited

namespace Json

/-- A string with text as its content. -/
def text (content : String) : Json := string (some content)

/-- A natural number in decimal. -/
def natural (n : Nat) : Json := number (toString n)

/-- An object from names and values. -/
def record (members : List (String × Json)) : Json :=
  object (members.map fun member => (some member.1, member.2))

/-- A value that may be missing, with `null` in its place. -/
def ofOption {α : Type} (encode : α → Json) : Option α → Json
  | some value => encode value
  | none => null

/-- The number that a numeral without sign, point and exponent stands for. -/
def natural? : Json → Option Nat
  | number spelling =>
    if spelling.toList.all Char.isDigit then
      some (spelling.toList.foldl (fun n c => 10 * n + (c.toNat - '0'.toNat)) 0)
    else none
  | _ => none

/-- The content of a string that stands for a text. -/
def text? : Json → Option String
  | string content => content
  | _ => none

/-- The value of the first member with a name. -/
def member? (value : Json) (name : String) : Option Json :=
  match value with
  | object members => (members.find? fun member => member.1 == some name).map Prod.snd
  | _ => none

end Json

end Galley
