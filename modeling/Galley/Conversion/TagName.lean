import Galley.Conversion.Error
import Galley.Text.Blank

/-!
Reading a tag key from text. Blanks around it do not count, nor does the case of an element name.
-/

namespace Galley

/-- The characters an element name may have: ASCII letters and digits, `-`, `_` and `:`. -/
def isTagNameChar (c : Char) : Bool :=
  c.isAlphanum || c == '-' || c == '_' || c == ':'

/-- The key that a text names. -/
def TagKey.ofString (text : String) : Except ConvertError TagKey :=
  let name := Text.trim text.toList
  if name = TagKey.textSpelling.toList then .ok .text
  else if name = [] then .error (.invalidTag "" .empty)
  else if name.all isTagNameChar then .ok (.element (String.ofList (name.map Char.toLower)))
  else .error (.invalidTag (String.ofList name) .forbiddenCharacter)

end Galley
