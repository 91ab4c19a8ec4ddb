import Galley.Html.Construction.Rules
import Galley.Html.Lexer

/-!
Parsing a markup source as the content of a body. Every source has a tree: what is wrong in it is
mended by the rules of tree construction.
-/

namespace Galley.Html

/-- A source being read: the lexer's state and what has been built. -/
structure Reading where
  state : LexState
  construction : Construction

namespace Reading

def start : Reading := ⟨.text, .start⟩

/-- The mark that tells the order of bytes in a source, and is no part of its text. -/
def byteOrderMark : Char := '\ufeff'

/-- Reads one more character. A byte order mark is dropped where reading begins or goes on. -/
def step (reading : Reading) (c : Char) : Reading :=
  let built := reading.construction
  let going := if built.resumed then { built with resumed := false } else built
  if built.resumed ∧ c = byteOrderMark then { reading with construction := going }
  else
    let around : Surroundings := ⟨built.textMode, built.currentIsForeign⟩
    let (state, tokens) := Lexer.step around reading.state c
    ⟨state, tokens.foldl Construction.add going⟩

/-- What has been built where the source ends. -/
def finish (reading : Reading) : Construction :=
  ((Lexer.finish reading.state).foldl Construction.add reading.construction).add .endOfSource

end Reading

/-- A text with line feeds alone as line ends. -/
def normalizeLines : List Char → List Char
  | [] => []
  | '\r' :: '\n' :: rest => '\n' :: normalizeLines rest
  | '\r' :: rest => '\n' :: normalizeLines rest
  | c :: rest => c :: normalizeLines rest

/-- The tree of a source: a root element whose children are the top-level nodes. -/
def parseFragment (source : String) : Node :=
  let built := ((normalizeLines source.toList).foldl Reading.step .start).finish
  built.tree.toNode Construction.root

end Galley.Html
