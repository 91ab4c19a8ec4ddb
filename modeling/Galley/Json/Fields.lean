import Galley.Json.Value

/-!
Reading a record with known fields. It is written as an object, in any order and among members
that are not known, or as an array that gives the fields in their order and may end early.
-/

namespace Galley.Json

/-- The value of a member that may stand at most once: `none` if it stands more often, and
`some none` if it is missing. -/
def uniqueMember? (name : String) (members : List (Option String × Json)) :
    Option (Option Json) :=
  match members.filter fun member => member.1 == some name with
  | [] => some none
  | [member] => some (some member.2)
  | _ => none

/-- The values of known fields, in the order of their names. Every member's name has to be a
text. -/
def fields? (names : List String) : Json → Option (List (Option Json))
  | object members =>
    if members.all fun member => member.1.isSome then
      names.mapM fun name => uniqueMember? name members
    else none
  | array items =>
    if items.length ≤ names.length then
      some (items.map some ++ List.replicate (names.length - items.length) none)
    else none
  | _ => none

/-- A natural number that fits into 64 bits. -/
def word64? (value : Json) : Option Nat :=
  value.natural?.filter fun n => n < UInt64.size

/-- A text, or `null` for none. -/
def optionalText? : Json → Option (Option String)
  | null => some none
  | value => value.text?.map some

/-- A field's value, or its default where the field is missing. -/
def orDefault {α : Type} (decode : Json → Option α) (default : α) : Option Json → Option α
  | some value => decode value
  | none => some default

end Galley.Json
