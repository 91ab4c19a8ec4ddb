import Galley.Html.Construction.Formatting

/-!
Graphics and mathematics in markup: the spelling of their names, and the rules for tags inside
them. A tag that can only be meant for the markup language leads out again.
-/

namespace Galley.Html

/-- Names of graphics elements that are not all in lower case. -/
def svgElementNames : List String :=
  [ "altGlyph", "altGlyphDef", "altGlyphItem", "animateColor", "animateMotion",
    "animateTransform", "clipPath", "feBlend", "feColorMatrix", "feComponentTransfer",
    "feComposite", "feConvolveMatrix", "feDiffuseLighting", "feDisplacementMap",
    "feDistantLight", "feDropShadow", "feFlood", "feFuncA", "feFuncB", "feFuncG", "feFuncR",
    "feGaussianBlur", "feImage", "feMerge", "feMergeNode", "feMorphology", "feOffset",
    "fePointLight", "feSpecularLighting", "feSpotLight", "feTile", "feTurbulence",
    "foreignObject", "glyphRef", "linearGradient", "radialGradient", "textPath" ]

/-- Names of graphics attributes that are not all in lower case. -/
def svgAttributeNames : List String :=
  [ "attributeName", "attributeType", "baseFrequency", "baseProfile", "calcMode",
    "clipPathUnits", "diffuseConstant", "edgeMode", "filterUnits", "glyphRef",
    "gradientTransform", "gradientUnits", "kernelMatrix", "kernelUnitLength", "keyPoints",
    "keySplines", "keyTimes", "lengthAdjust", "limitingConeAngle", "markerHeight",
    "markerUnits", "markerWidth", "maskContentUnits", "maskUnits", "numOctaves", "pathLength",
    "patternContentUnits", "patternTransform", "patternUnits", "pointsAtX", "pointsAtY",
    "pointsAtZ", "preserveAlpha", "preserveAspectRatio", "primitiveUnits", "refX", "refY",
    "repeatCount", "repeatDur", "requiredExtensions", "requiredFeatures", "specularConstant",
    "specularExponent", "spreadMethod", "startOffset", "stdDeviation", "stitchTiles",
    "surfaceScale", "systemLanguage", "tableValues", "targetX", "targetY", "textLength",
    "viewBox", "viewTarget", "xChannelSelector", "yChannelSelector", "zoomAndPan" ]

/-- Names of attributes that belong to a vocabulary of their own in foreign content. -/
def namespacedAttributeNames : List String :=
  [ "xlink:actuate", "xlink:arcrole", "xlink:href", "xlink:role", "xlink:show", "xlink:title",
    "xlink:type", "xml:lang", "xml:space", "xmlns", "xmlns:xlink" ]

/-- The spelling in a list that a name in lower case stands for, or else the name itself. -/
def respell (spellings : List String) (name : String) : String :=
  (spellings.find? fun spelling => spelling.toLower == name).getD name

/-- Attributes as they are kept in a foreign element. Those of another vocabulary are left out,
since nobody asks for them. -/
def foreignAttributes (vocabulary : Vocabulary) (attributes : List Attribute) : List Attribute :=
  let spellings :=
    match vocabulary with
    | .svg => svgAttributeNames
    | .math => ["definitionURL"]
    | .html => []
  (attributes.filter fun given => !namespacedAttributeNames.contains given.name).map fun given =>
    { given with name := respell spellings given.name }

namespace Construction

/-- Adds a foreign element, open unless its tag closes itself. -/
def insertForeign (c : Construction) (vocabulary : Vocabulary) (name : String) (tag : Tag) :
    Construction :=
  let attributes := foreignAttributes vocabulary tag.attributes
  if tag.selfClosing then (c.insertClosed ⟨vocabulary, name⟩ attributes).2
  else (c.insertOpen ⟨vocabulary, name⟩ attributes).2

/-- A start tag that leads from markup into foreign content. -/
def enterForeign (c : Construction) (vocabulary : Vocabulary) (tag : Tag) : Construction :=
  c.reopenFormatting.insertForeign vocabulary tag.name tag

/-- The innermost open element, which is foreign only above the root. -/
def currentIsForeign (c : Construction) : Bool :=
  c.current.vocabulary ≠ .html

/-- A start tag that the rules for foreign content leave to the rules for markup. -/
def isMarkupStart (element : ElementName) (name : String) : Bool :=
  (element.isMathTextPoint && !(["mglyph", "malignmark"].contains name)) ||
    element.isSvgMarkupPoint ||
    (element = ⟨.math, "annotation-xml"⟩ && name == "svg")

/-- A token that the rules for foreign content apply to. -/
def isForeign (c : Construction) (token : Token) : Bool :=
  c.currentIsForeign &&
    match token with
    | .char _ => !(c.current.isMathTextPoint || c.current.isSvgMarkupPoint)
    | .startTag tag => !isMarkupStart c.current tag.name
    | .endOfSource => false
    | _ => true

/-- Start tags that foreign content cannot hold. -/
def markupOnlyNames : List String :=
  [ "b", "big", "blockquote", "body", "br", "center", "code", "dd", "div", "dl", "dt", "em",
    "embed", "h1", "h2", "h3", "h4", "h5", "h6", "head", "hr", "i", "img", "li", "listing",
    "menu", "meta", "nobr", "ol", "p", "pre", "ruby", "s", "small", "span", "strong", "strike",
    "sub", "sup", "table", "tt", "u", "ul", "var" ]

/-- A start tag that leads out of foreign content. -/
def leavesForeign (tag : Tag) : Bool :=
  markupOnlyNames.contains tag.name ||
    (tag.name == "font" &&
      tag.attributes.any fun given => ["color", "face", "size"].contains given.name)

/-- Closes foreign elements up to a place where markup may stand. -/
def leaveForeign (c : Construction) : Construction :=
  c.popWhile fun element =>
    element.vocabulary ≠ .html && !element.isMathTextPoint && !element.isSvgMarkupPoint

/-- A start tag of a foreign element. -/
def startForeign (c : Construction) (tag : Tag) : Construction :=
  let vocabulary := c.current.vocabulary
  let name := if vocabulary = .svg then respell svgElementNames tag.name else tag.name
  c.insertForeign vocabulary name tag

/-- What an end tag does in foreign content: it closes the innermost foreign element of its name,
in any case, or is left to the rules for markup at the first element of markup. The root is never
closed. -/
inductive ForeignEnd where
  | closes (stack : List OpenElement)
  | isMarkup
  | ignored

/-- Looks for the element that an end tag closes, from the inside out. -/
def foreignEnd (name : String) (innermost : Bool) : List OpenElement → ForeignEnd
  | [] => .ignored
  | [_] => .ignored
  | element :: rest =>
    if !innermost && element.name.vocabulary = .html then .isMarkup
    else if element.name.name.toLower == name then .closes rest
    else foreignEnd name false rest

end Construction

end Galley.Html
