import Galley.Json.Value

/-!
Writing JSON, on one line or with an indent of two spaces for each level. Strings escape quotes,
backslashes and control characters, and leave all else as it is.
-/

namespace Galley.Json

/-- The digit for a number below sixteen, in lower case. -/
def hexChar (n : Nat) : Char :=
  if n < 10 then Char.ofNat ('0'.toNat + n) else Char.ofNat ('a'.toNat + (n - 10))

/-- A character as it stands in a string. -/
def escapeChar (c : Char) : List Char :=
  if c = '"' then ['\\', '"']
  else if c = '\\' then ['\\', '\\']
  else if c = '\x08' then ['\\', 'b']
  else if c = '\t' then ['\\', 't']
  else if c = '\n' then ['\\', 'n']
  else if c = '\x0c' then ['\\', 'f']
  else if c = '\r' then ['\\', 'r']
  else if c.toNat < 0x20 then
    ['\\', 'u', '0', '0', hexChar (c.toNat / 16), hexChar (c.toNat % 16)]
  else [c]

/-- A string in quotes. One that stands for no text is written as half of a surrogate pair. -/
def writeString : Option String → String
  | some content => "\"" ++ String.ofList (content.toList.flatMap escapeChar) ++ "\""
  | none => "\"\\ud800\""

/-- A value that holds no others. -/
def writeLeaf : Json → String
  | null => "null"
  | bool true => "true"
  | bool false => "false"
  | number spelling => spelling
  | string content => writeString content
  | array _ => "[]"
  | object _ => "\x7b\x7d"

mutual

/-- A value on one line. -/
def compact : Json → String
  | array items => "[" ++ String.intercalate "," (compactItems items) ++ "]"
  | object members => "\x7b" ++ String.intercalate "," (compactMembers members) ++ "\x7d"
  | leaf => writeLeaf leaf

def compactItems : List Json → List String
  | [] => []
  | item :: rest => compact item :: compactItems rest

def compactMembers : List (Option String × Json) → List String
  | [] => []
  | (name, value) :: rest => (writeString name ++ ":" ++ compact value) :: compactMembers rest

end

/-- A line break and the indent of a level. -/
def newLine (level : Nat) : String :=
  "\n" ++ String.ofList (List.replicate (2 * level) ' ')

/-- Items between brackets, each on a line of its own. -/
def writeBlock (level : Nat) (opening closing : String) (items : List String) : String :=
  opening ++ newLine (level + 1) ++ String.intercalate ("," ++ newLine (level + 1)) items ++
    newLine level ++ closing

mutual

/-- A value over several lines, at a level of indent. -/
def prettyAt (level : Nat) : Json → String
  | array (item :: rest) => writeBlock level "[" "]" (prettyItems (level + 1) (item :: rest))
  | object (member :: rest) =>
    writeBlock level "\x7b" "\x7d" (prettyMembers (level + 1) (member :: rest))
  | leaf => writeLeaf leaf

def prettyItems (level : Nat) : List Json → List String
  | [] => []
  | item :: rest => prettyAt level item :: prettyItems level rest

def prettyMembers (level : Nat) : List (Option String × Json) → List String
  | [] => []
  | (name, value) :: rest =>
    (writeString name ++ ": " ++ prettyAt level value) :: prettyMembers level rest

end

/-- A value over several lines. -/
def pretty (value : Json) : String := prettyAt 0 value

end Galley.Json
