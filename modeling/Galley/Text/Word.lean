/-!
Looking for a word in a text, without regard to the case of ASCII letters.
-/

namespace Galley.Text

/-- Equal up to the case of ASCII letters. -/
def equalsIgnoringCase (c d : Char) : Bool :=
  c.toLower == d.toLower

/-- The rest of a text after `word`, where the text begins with it in any case. -/
def dropWord? : (word : List Char) → List Char → Option (List Char)
  | [], rest => some rest
  | _ :: _, [] => none
  | w :: word, c :: rest => if equalsIgnoringCase w c then dropWord? word rest else none

/-- What follows the leftmost occurrence of `word` in any case. -/
def afterWord? (word : List Char) : List Char → Option (List Char)
  | [] => dropWord? word []
  | c :: rest =>
    match dropWord? word (c :: rest) with
    | some after => some after
    | none => afterWord? word rest

end Galley.Text
