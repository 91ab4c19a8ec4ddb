import Galley.Document.Object
import Galley.Text.Blank
import Galley.Text.Word

/-!
The alignment that an inline style declares. Of several `text-align` declarations the leftmost
counts, whatever stands around it.
-/

namespace Galley

/-- The word a declaration begins with. -/
def textAlignWord : List Char := "text-align:".toList

/-- The value after a declaration's colon: up to the next semicolon, without blanks around it and
in lower case. -/
def declaredValue (after : List Char) : List Char :=
  (Text.trim (after.takeWhile (· != ';'))).map Char.toLower

/-- The alignment that a keyword stands for. -/
def Alignment.ofKeyword? (word : List Char) : Option Alignment :=
  [Alignment.left, .center, .right, .justify].find? fun alignment =>
    alignment.keyword.toList == word

/-- The alignment that a style text declares, if its leftmost declaration has one of the four
values. -/
def textAlignment (style : String) : Option Alignment :=
  (Text.afterWord? textAlignWord style.toList).bind fun after =>
    Alignment.ofKeyword? (declaredValue after)

end Galley
