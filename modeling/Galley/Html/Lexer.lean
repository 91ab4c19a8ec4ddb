import Galley.Html.Reference

/-!
The lexer: it reads a source one character at a time, and each character gives the next state and
the tokens that are complete. How text is read depends on the tree built so far and is handed in
with each character, as a `Surroundings`.
-/

namespace Galley.Html

/-- What the tree built so far says about the text that comes. -/
structure Surroundings where
  mode : TextMode
  /-- The innermost open element is foreign, where character data sections count. -/
  foreign : Bool

/-- A tag that is being read. Texts are kept the last character first. -/
structure PartialTag where
  closing : Bool
  name : List Char
  /-- The complete attributes, the last first. -/
  attributes : List Attribute := []
  attributeName : List Char := []
  attributeValue : List Char := []

namespace PartialTag

/-- Completes the attribute being read. A repeated name is dropped. -/
def finishAttribute (tag : PartialTag) : PartialTag :=
  let name := String.ofList tag.attributeName.reverse
  let attributes :=
    if tag.attributeName.isEmpty || tag.attributes.any fun given => given.name == name then
      tag.attributes
    else ⟨name, String.ofList tag.attributeValue.reverse⟩ :: tag.attributes
  { tag with attributes := attributes, attributeName := [], attributeValue := [] }

/-- Completes the attribute being read, and begins the next with a character of its name. -/
def startAttribute (tag : PartialTag) (c : Char) : PartialTag :=
  { tag.finishAttribute with attributeName := [c] }

/-- The token of a complete tag. -/
def toToken (tag : PartialTag) (selfClosing : Bool) : Token :=
  let tag := tag.finishAttribute
  let complete : Tag :=
    ⟨String.ofList tag.name.reverse, tag.attributes.reverse, selfClosing⟩
  if tag.closing then .endTag complete else .startTag complete

def pushName (tag : PartialTag) (c : Char) : PartialTag :=
  { tag with name := (unlessNull c).toLower :: tag.name }

def pushAttributeName (tag : PartialTag) (c : Char) : PartialTag :=
  { tag with attributeName := (unlessNull c).toLower :: tag.attributeName }

def pushAttributeValue (tag : PartialTag) (c : Char) : PartialTag :=
  { tag with attributeValue := unlessNull c :: tag.attributeValue }

end PartialTag

/-- What surrounds an attribute value. -/
inductive Quotes where
  | double
  | single
  | none
  deriving DecidableEq

/-- How a comment goes on. -/
inductive CommentPart where
  /-- Just opened. -/
  | start
  | startDash
  | inside
  | dash
  | dashDash
  | dashDashBang

/-- Text in which a raw end tag may stand: that of the mode, or the hidden text of a script. -/
inductive RawText where
  | ofMode
  | hidden

/-- Where a reference stands. -/
inductive ReferenceHolder where
  | text
  | attribute (tag : PartialTag) (quotes : Quotes)

/-- What is being read. Texts in a state are kept the last character first. -/
inductive LexState where
  | text
  | reference (holder : ReferenceHolder) (reference : Reference)
  | tagOpen
  | endTagOpen
  | tagName (tag : PartialTag)
  | beforeAttribute (tag : PartialTag)
  | attributeName (tag : PartialTag)
  | afterAttributeName (tag : PartialTag)
  | beforeAttributeValue (tag : PartialTag)
  | attributeValue (tag : PartialTag) (quotes : Quotes)
  | afterAttributeValue (tag : PartialTag)
  | selfClosing (tag : PartialTag)
  /-- A less-than sign in raw text. -/
  | rawLess (within : RawText)
  | rawEndTagOpen (within : RawText)
  /-- An end tag in raw text, and how its name is spelled. -/
  | rawEndTagName (within : RawText) (tag : PartialTag) (spelling : List Char)
  /-- After `<!` and so many dashes, fewer than two, at the front of a script's hidden text. -/
  | hidingStart (dashes : Nat)
  /-- Hidden text of a script, after so many dashes (two standing for more). Text is doubly hidden
  after a start tag of a script in it. -/
  | hidden (double : Bool) (dashes : Nat)
  /-- The name of a start tag in hidden text. -/
  | hiddenTagName (name : List Char)
  | doublyHiddenLess
  /-- The name of an end tag in doubly hidden text. -/
  | doublyHiddenEndTagName (name : List Char)
  /-- After `<!`, with what was read since. -/
  | declaration (seen : List Char)
  | bogusComment (content : List Char)
  | comment (content : List Char) (part : CommentPart)
  | doctype
  /-- A character data section after so many closing brackets. -/
  | characterData (brackets : Nat)

/-- The next state and the tokens that are complete. -/
abbrev Lexed := LexState × List Token

namespace Lexer

/-- Characters as tokens. -/
def chars (cs : List Char) : List Token := cs.map Token.char

/-- With further tokens in front. -/
def after (tokens : List Token) (lexed : Lexed) : Lexed :=
  (lexed.1, tokens ++ lexed.2)

/-- The next state without any token. -/
def go (state : LexState) : Lexed := (state, [])

def commentToken (content : List Char) : Token :=
  .comment (String.ofList content.reverse)

/-! ### Text -/

/-- A character of text. -/
def stepText (mode : TextMode) (c : Char) : Lexed :=
  match mode with
  | .data =>
    if c = '&' then go (.reference .text .start)
    else if c = '<' then go .tagOpen
    else (.text, [.char c])
  | .escapable _ =>
    if c = '&' then go (.reference .text .start)
    else if c = '<' then go (.rawLess .ofMode)
    else (.text, [.char (unlessNull c)])
  | .plain => (.text, [.char (unlessNull c)])
  | _ => if c = '<' then go (.rawLess .ofMode) else (.text, [.char (unlessNull c)])

/-- A character of a script's hidden text. -/
def stepHidden (double : Bool) (dashes : Nat) (c : Char) : Lexed :=
  if c = '-' then (.hidden double (min 2 (dashes + 1)), [.char c])
  else if c = '<' then
    if double then (.doublyHiddenLess, [.char c]) else go (.rawLess .hidden)
  else if c = '>' ∧ dashes = 2 then (.text, [.char c])
  else (.hidden double 0, [.char (unlessNull c)])

/-- A character where an end tag was looked for in raw text and not found. -/
def stepRaw (mode : TextMode) (within : RawText) (c : Char) : Lexed :=
  match within with
  | .ofMode => stepText mode c
  | .hidden => stepHidden false 0 c

/-- Ends a tag name in hidden text. -/
def endsName (c : Char) : Bool :=
  isSpace c || c == '/' || c == '>'

/-- A character of the name of a start tag in hidden text. After `script` all is doubly hidden. -/
def stepHiddenTagName (name : List Char) (c : Char) : Lexed :=
  if endsName c then (.hidden (name.reverse == "script".toList) 0, [.char c])
  else if c.isAlpha then (.hiddenTagName (c.toLower :: name), [.char c])
  else stepHidden false 0 c

/-- A character of the name of an end tag in doubly hidden text. -/
def stepDoublyHiddenEndTagName (name : List Char) (c : Char) : Lexed :=
  if endsName c then (.hidden (name.reverse != "script".toList) 0, [.char c])
  else if c.isAlpha then (.doublyHiddenEndTagName (c.toLower :: name), [.char c])
  else stepHidden true 0 c

/-- A character after a less-than sign in raw text. -/
def stepRawLess (mode : TextMode) (within : RawText) (c : Char) : Lexed :=
  if c = '/' then go (.rawEndTagOpen within)
  else
    match within, mode with
    | .ofMode, .script =>
      if c = '!' then (.hidingStart 0, chars ['<', '!'])
      else after (chars ['<']) (stepText mode c)
    | .hidden, _ =>
      if c.isAlpha then after (chars ['<']) (stepHiddenTagName [] c)
      else after (chars ['<']) (stepHidden false 0 c)
    | .ofMode, _ => after (chars ['<']) (stepText mode c)

/-- A character after `<!` and some dashes in a script. Two dashes hide what follows. -/
def stepHidingStart (mode : TextMode) (dashes : Nat) (c : Char) : Lexed :=
  if c = '-' then
    if dashes = 0 then (.hidingStart 1, [.char c]) else (.hidden false 2, [.char c])
  else stepText mode c

/-! ### Tags -/

/-- A character before an attribute. -/
def stepBeforeAttribute (tag : PartialTag) (c : Char) : Lexed :=
  if isSpace c then go (.beforeAttribute tag)
  else if c = '/' then go (.selfClosing tag)
  else if c = '>' then (.text, [tag.toToken false])
  else go (.attributeName (tag.startAttribute (unlessNull c).toLower))

/-- A character of a tag name. -/
def stepTagName (tag : PartialTag) (c : Char) : Lexed :=
  if isSpace c then go (.beforeAttribute tag)
  else if c = '/' then go (.selfClosing tag)
  else if c = '>' then (.text, [tag.toToken false])
  else go (.tagName (tag.pushName c))

/-- A character of an attribute name. -/
def stepAttributeName (tag : PartialTag) (c : Char) : Lexed :=
  if isSpace c then go (.afterAttributeName tag)
  else if c = '/' then go (.selfClosing tag)
  else if c = '=' then go (.beforeAttributeValue tag)
  else if c = '>' then (.text, [tag.toToken false])
  else go (.attributeName (tag.pushAttributeName c))

/-- A character after an attribute name and white space. -/
def stepAfterAttributeName (tag : PartialTag) (c : Char) : Lexed :=
  if isSpace c then go (.afterAttributeName tag)
  else if c = '/' then go (.selfClosing tag)
  else if c = '=' then go (.beforeAttributeValue tag)
  else if c = '>' then (.text, [tag.toToken false])
  else go (.attributeName (tag.startAttribute (unlessNull c).toLower))

/-- A character of an attribute value. -/
def stepAttributeValue (tag : PartialTag) (quotes : Quotes) (c : Char) : Lexed :=
  let unquoted := quotes = .none
  if c = '&' then go (.reference (.attribute tag quotes) .start)
  else if (quotes = .double ∧ c = '"') ∨ (quotes = .single ∧ c = '\'') then
    go (.afterAttributeValue tag)
  else if unquoted ∧ isSpace c then go (.beforeAttribute tag)
  else if unquoted ∧ c = '>' then (.text, [tag.toToken false])
  else go (.attributeValue (tag.pushAttributeValue c) quotes)

/-- A character after the equals sign of an attribute. -/
def stepBeforeAttributeValue (tag : PartialTag) (c : Char) : Lexed :=
  if isSpace c then go (.beforeAttributeValue tag)
  else if c = '"' then go (.attributeValue tag .double)
  else if c = '\'' then go (.attributeValue tag .single)
  else if c = '>' then (.text, [tag.toToken false])
  else stepAttributeValue tag .none c

/-- A character after a quoted attribute value. -/
def stepAfterAttributeValue (tag : PartialTag) (c : Char) : Lexed :=
  stepBeforeAttribute tag c

/-- A character after a slash in a tag. -/
def stepSelfClosing (tag : PartialTag) (c : Char) : Lexed :=
  if c = '>' then (.text, [tag.toToken true]) else stepBeforeAttribute tag c

/-- A character after the slash of an end tag in raw text. -/
def stepRawEndTagOpen (mode : TextMode) (within : RawText) (c : Char) : Lexed :=
  if c.isAlpha then
    go (.rawEndTagName within (({ closing := true, name := [] } : PartialTag).pushName c) [c])
  else after (chars ['<', '/']) (stepRaw mode within c)

/-- A character of the name of an end tag in raw text. Only the end tag of the element that the
text belongs to counts. -/
def stepRawEndTagName (mode : TextMode) (within : RawText) (tag : PartialTag)
    (spelling : List Char) (c : Char) : Lexed :=
  if mode.closing? = some (String.ofList tag.name.reverse) ∧ endsName c then stepTagName tag c
  else if c.isAlpha then go (.rawEndTagName within (tag.pushName c) (c :: spelling))
  else after (chars ('<' :: '/' :: spelling.reverse)) (stepRaw mode within c)

/-! ### Comments and declarations -/

/-- A character of a comment that ends at the next greater-than sign. -/
def stepBogusComment (content : List Char) (c : Char) : Lexed :=
  if c = '>' then (.text, [commentToken content])
  else go (.bogusComment (unlessNull c :: content))

/-- A character of a comment. -/
def stepComment (content : List Char) (part : CommentPart) (c : Char) : Lexed :=
  let inside (content : List Char) : Lexed :=
    if c = '-' then go (.comment content .dash)
    else go (.comment (unlessNull c :: content) .inside)
  match part with
  | .start =>
    if c = '-' then go (.comment content .startDash)
    else if c = '>' then (.text, [commentToken content])
    else inside content
  | .startDash =>
    if c = '-' then go (.comment content .dashDash)
    else if c = '>' then (.text, [commentToken content])
    else inside ('-' :: content)
  | .inside => inside content
  | .dash => if c = '-' then go (.comment content .dashDash) else inside ('-' :: content)
  | .dashDash =>
    if c = '>' then (.text, [commentToken content])
    else if c = '!' then go (.comment content .dashDashBang)
    else if c = '-' then go (.comment ('-' :: content) .dashDash)
    else inside ('-' :: '-' :: content)
  | .dashDashBang =>
    if c = '-' then go (.comment ('!' :: '-' :: '-' :: content) .dash)
    else if c = '>' then (.text, [commentToken content])
    else inside ('!' :: '-' :: '-' :: content)

/-- A character after `<!`. Two dashes open a comment, a certain word a document type and, in
foreign content, another word a character data section; all else is a bogus comment. -/
def stepDeclaration (foreign : Bool) (seen : List Char) (c : Char) : Lexed :=
  let text := (c :: seen).reverse
  let dashes := "--".toList
  let doctype := "doctype".toList
  let characterData := "[CDATA[".toList
  if text = dashes then go (.comment [] .start)
  else if text.map Char.toLower = doctype then go .doctype
  else if foreign && text == characterData then go (.characterData 0)
  else if text.isPrefixOf dashes || (text.map Char.toLower).isPrefixOf doctype ||
      (foreign && text.isPrefixOf characterData) then
    go (.declaration (c :: seen))
  else stepBogusComment seen c

/-- A character of a character data section. -/
def stepCharacterData (brackets : Nat) (c : Char) : Lexed :=
  if c = ']' then
    if brackets = 2 then (.characterData 2, [.char ']']) else go (.characterData (brackets + 1))
  else if c = '>' ∧ brackets = 2 then go .text
  else (.characterData 0, chars (List.replicate brackets ']' ++ [c]))

/-- A character after a less-than sign. -/
def stepTagOpen (mode : TextMode) (c : Char) : Lexed :=
  if c = '!' then go (.declaration [])
  else if c = '/' then go .endTagOpen
  else if c = '?' then stepBogusComment [] c
  else if c.isAlpha then go (.tagName (({ closing := false, name := [] } : PartialTag).pushName c))
  else after (chars ['<']) (stepText mode c)

/-- A character after `</`. -/
def stepEndTagOpen (c : Char) : Lexed :=
  if c.isAlpha then go (.tagName (({ closing := true, name := [] } : PartialTag).pushName c))
  else if c = '>' then (.text, [.slip])
  else stepBogusComment [] c

/-! ### References -/

/-- The characters of a reference, put where it stands. -/
def placeReference (holder : ReferenceHolder) (cs : List Char) (slip : Bool) : Lexed :=
  match holder with
  | .text => (.text, (if slip then [Token.slip] else []) ++ chars cs)
  | .attribute tag quotes =>
    go (.attributeValue (cs.foldl PartialTag.pushAttributeValue tag) quotes)

/-- Whether a reference stands in an attribute. -/
def ReferenceHolder.isAttribute : ReferenceHolder → Bool
  | .text => false
  | .attribute _ _ => true

/-- A character of a reference. -/
def stepReference (mode : TextMode) (holder : ReferenceHolder) (reference : Reference) (c : Char) :
    Lexed :=
  match reference.step (ReferenceHolder.isAttribute holder) c with
  | .more reference => go (.reference holder reference)
  | .done cs => placeReference holder cs false
  | .doneBefore cs slip =>
    match placeReference holder cs slip with
    | (.attributeValue tag quotes, tokens) => after tokens (stepAttributeValue tag quotes c)
    | (_, tokens) => after tokens (stepText mode c)

/-! ### All states -/

/-- Reads one character. -/
def step (around : Surroundings) (state : LexState) (c : Char) : Lexed :=
  match state with
  | .text => stepText around.mode c
  | .reference holder reference => stepReference around.mode holder reference c
  | .tagOpen => stepTagOpen around.mode c
  | .endTagOpen => stepEndTagOpen c
  | .tagName tag => stepTagName tag c
  | .beforeAttribute tag => stepBeforeAttribute tag c
  | .attributeName tag => stepAttributeName tag c
  | .afterAttributeName tag => stepAfterAttributeName tag c
  | .beforeAttributeValue tag => stepBeforeAttributeValue tag c
  | .attributeValue tag quotes => stepAttributeValue tag quotes c
  | .afterAttributeValue tag => stepAfterAttributeValue tag c
  | .selfClosing tag => stepSelfClosing tag c
  | .rawLess within => stepRawLess around.mode within c
  | .rawEndTagOpen within => stepRawEndTagOpen around.mode within c
  | .rawEndTagName within tag spelling => stepRawEndTagName around.mode within tag spelling c
  | .hidingStart dashes => stepHidingStart around.mode dashes c
  | .hidden double dashes => stepHidden double dashes c
  | .hiddenTagName name => stepHiddenTagName name c
  | .doublyHiddenLess =>
    if c = '/' then (.doublyHiddenEndTagName [], [.char c]) else stepHidden true 0 c
  | .doublyHiddenEndTagName name => stepDoublyHiddenEndTagName name c
  | .declaration seen => stepDeclaration around.foreign seen c
  | .bogusComment content => stepBogusComment content c
  | .comment content part => stepComment content part c
  | .doctype => if c = '>' then (.text, [.doctype]) else go .doctype
  | .characterData brackets => stepCharacterData brackets c

/-- The tokens that are left where the source ends. A tag that is not complete is dropped. -/
def finish (state : LexState) : List Token :=
  match state with
  | .reference .text reference => .slip :: chars (reference.finish false)
  | .tagOpen => chars ['<']
  | .endTagOpen => chars ['<', '/']
  | .rawLess _ => chars ['<']
  | .rawEndTagOpen _ => chars ['<', '/']
  | .rawEndTagName _ _ spelling => chars ('<' :: '/' :: spelling.reverse)
  | .declaration seen => [commentToken seen]
  | .bogusComment content => [commentToken content]
  | .comment content _ => [commentToken content]
  | .doctype => [.doctype]
  | .characterData brackets => chars (List.replicate brackets ']')
  | _ => []

end Lexer

end Galley.Html
