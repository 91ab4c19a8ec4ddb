import Galley.Html.Reference.Names
import Galley.Html.Token

/-!
Character references, read one character at a time. `Reference.step` tells whether more is needed,
and at the end which characters a reference stands for; a text that is no reference stands for
itself. The longest name that fits is taken, with or without its semicolon.
-/

namespace Galley.Html

/-! ### Names -/

/-- What remains of a name to be read, and its value. -/
structure Candidate where
  remaining : List Char
  value : List Char

/-- The value of a digit in a numeral to base ten or sixteen. -/
def digit? (base : Nat) (c : Char) : Option Nat :=
  let value :=
    if c.isDigit then some (c.toNat - '0'.toNat)
    else if 'a' ≤ c ∧ c ≤ 'f' then some (c.toNat - 'a'.toNat + 10)
    else if 'A' ≤ c ∧ c ≤ 'F' then some (c.toNat - 'A'.toNat + 10)
    else none
  value.filter fun n => n < base

/-- The parts of a text between separators. -/
def splitAt (isSeparator : Char → Bool) (cs : List Char) : List (List Char) :=
  cs.foldr
    (fun c parts =>
      if isSeparator c then [] :: parts
      else
        match parts with
        | [] => [[c]]
        | part :: rest => (c :: part) :: rest)
    [[]]

/-- An entry of the table: a name, and the code points of its value. -/
def Candidate.ofEntry? (entry : List Char) : Option Candidate :=
  match splitAt (· == '=') entry with
  | [name, codes] =>
    some ⟨name, (splitAt (· == '+') codes).map fun code =>
      Char.ofNat (code.foldl (fun n c => 16 * n + (digit? 16 c).getD 0) 0)⟩
  | _ => none

/-- All names with their values. -/
def referenceNames : List Candidate :=
  (splitAt (fun c => c == ' ' || c == '\n') referenceTable.toList).filterMap Candidate.ofEntry?

/-- The candidates that go on with a character, after it. -/
def advance (c : Char) (candidates : List Candidate) : List Candidate :=
  candidates.filterMap fun candidate =>
    match candidate.remaining with
    | d :: rest => if d = c then some ⟨rest, candidate.value⟩ else none
    | [] => none

/-- The value of the name that is complete. -/
def completed? (candidates : List Candidate) : Option (List Char) :=
  (candidates.find? fun candidate => candidate.remaining.isEmpty).map Candidate.value

/-! ### Numbers -/

/-- What the numbers from 0x80 to 0x9F stand for in old markup; zero where they keep their
meaning. -/
def legacyCodes : List Nat :=
  [ 0x20AC, 0, 0x201A, 0x0192, 0x201E, 0x2026, 0x2020, 0x2021,
    0x02C6, 0x2030, 0x0160, 0x2039, 0x0152, 0, 0x017D, 0,
    0, 0x2018, 0x2019, 0x201C, 0x201D, 0x2022, 0x2013, 0x2014,
    0x02DC, 0x2122, 0x0161, 0x203A, 0x0153, 0, 0x017E, 0x0178 ]

/-- The character that a number names. -/
def charOfNumber (n : Nat) : Char :=
  if n = 0 ∨ (0xD800 ≤ n ∧ n ≤ 0xDFFF) ∨ 0x10FFFF < n then replacement
  else if 0x80 ≤ n ∧ n ≤ 0x9F then
    match legacyCodes[n - 0x80]? with
    | some (code + 1) => Char.ofNat (code + 1)
    | _ => Char.ofNat n
  else Char.ofNat n

/-! ### Reading -/

/-- The best name so far: its value, how much of the text it takes, and whether it has its
semicolon. -/
structure NameMatch where
  value : List Char
  length : Nat
  terminated : Bool

/-- How far a reference has been read after its ampersand. -/
inductive Reference where
  | start
  /-- Reading a name: what was read, the last first, and the names that may still come. -/
  | name (seen : List Char) (candidates : List Candidate) (best : Option NameMatch)
  | numberSign
  /-- After `#x` in its spelling. -/
  | hexSign (x : Char)
  | number (base : Nat) (value : Nat)

/-- What one more character does to a reference. -/
inductive ReferenceStep where
  | more (reference : Reference)
  /-- Ended with the character read, standing for `chars`. -/
  | done (chars : List Char)
  /-- Ended before the character read, standing for `chars`. -/
  | doneBefore (chars : List Char) (slip : Bool)

namespace Reference

/-- The characters that a name stands for, given the character after what was read. In an
attribute, a name without semicolon before a letter, a digit or `=` stands for itself. -/
def resolveName (inAttribute : Bool) (seen : List Char) (best : Option NameMatch)
    (next : Option Char) : List Char :=
  let text := seen.reverse
  let verbatim := '&' :: text
  match best with
  | none => verbatim
  | some found =>
    let rest := text.drop found.length
    let after := rest.head?.or next
    let keepsText := match after with
      | some c => c == '=' || c.isAlphanum
      | none => false
    if inAttribute && !found.terminated && keepsText then verbatim else found.value ++ rest

/-- The largest number worth telling apart: all above stand for the same. -/
def capNumber (n : Nat) : Nat := min n 0x110000

/-- One more character of a name. -/
def stepName (inAttribute : Bool) (seen : List Char) (candidates : List Candidate)
    (best : Option NameMatch) (c : Char) : ReferenceStep :=
  match advance c candidates with
  | [] => .doneBefore (resolveName inAttribute seen best (some c)) false
  | going =>
    match completed? going with
    | some value =>
      if c = ';' then .done value
      else .more (.name (c :: seen) going (some ⟨value, seen.length + 1, false⟩))
    | none => .more (.name (c :: seen) going best)

/-- One more character of a reference. -/
def step (inAttribute : Bool) (reference : Reference) (c : Char) : ReferenceStep :=
  match reference with
  | .start =>
    if c.isAlphanum then stepName inAttribute [] referenceNames none c
    else if c = '#' then .more .numberSign
    else .doneBefore ['&'] false
  | .name seen candidates best => stepName inAttribute seen candidates best c
  | .numberSign =>
    if c = 'x' ∨ c = 'X' then .more (.hexSign c)
    else
      match digit? 10 c with
      | some n => .more (.number 10 n)
      | none => .doneBefore ['&', '#'] true
  | .hexSign x =>
    match digit? 16 c with
    | some n => .more (.number 16 n)
    | none => .doneBefore ['&', '#', x] true
  | .number base value =>
    match digit? base c with
    | some n => .more (.number base (capNumber (base * value + n)))
    | none =>
      if c = ';' then .done [charOfNumber value] else .doneBefore [charOfNumber value] true

/-- The characters that a reference stands for where the source ends. -/
def finish (inAttribute : Bool) : Reference → List Char
  | .start => ['&']
  | .name seen _ best => resolveName inAttribute seen best none
  | .numberSign => ['&', '#']
  | .hexSign x => ['&', '#', x]
  | .number _ value => [charOfNumber value]

end Reference

end Galley.Html
