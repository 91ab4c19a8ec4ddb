import Galley.Html.Token
import Galley.Text.Word

/-!
Whether a `meta` element declares the encoding of the source: by an attribute of its own, or by
the parameter of a content type. The encoding need not be one that exists.
-/

namespace Galley.Html

/-- The parameter of a content type that names the encoding. -/
def charsetWord : List Char := "charset".toList

/-- What follows the equals sign after the leftmost `charset` that has one. -/
def charsetValue? : List Char → Option (List Char)
  | [] => none
  | c :: rest =>
    match (Text.dropWord? charsetWord (c :: rest)).map fun after => after.dropWhile isSpace with
    | some ('=' :: value) => some (value.dropWhile isSpace)
    | _ => charsetValue? rest

/-- A content type names an encoding, which may be empty if something follows. A quoted name has to
be closed. -/
def namesEncoding (contentType : List Char) : Bool :=
  match charsetValue? contentType with
  | none => false
  | some [] => false
  | some (c :: rest) => if c = '"' ∨ c = '\'' then rest.contains c else true

/-- The value of an attribute. -/
def Tag.attribute? (tag : Tag) (name : String) : Option String :=
  (tag.attributes.find? fun given => given.name == name).map Attribute.value

/-- The element of a `meta` tag declares an encoding. -/
def Tag.declaresEncoding (tag : Tag) : Bool :=
  (tag.attribute? "charset").isSome ||
    ((tag.attribute? "http-equiv").any fun value => value.toLower == "content-type") &&
      (tag.attribute? "content").any fun value => namesEncoding value.toList

end Galley.Html
