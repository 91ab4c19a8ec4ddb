import Galley.Document.Error
import Galley.Document.Handle

/-!
The document: a table of objects in order of creation, each with the slot of its parent. Objects
are only ever added at the end, so the children of an object are the later entries that name it
as parent, in order. An operation that fails returns no document: the caller keeps the one it had.
-/

namespace Galley

/-- An object and the slot of its parent; only the root has none. -/
structure Entry where
  value : DocumentObject
  parent : Option Nat
  deriving DecidableEq, Repr

/-- Sections that own paragraphs that own inline content, stored slot by slot. -/
structure Document where
  entries : Array Entry
  deriving DecidableEq, Repr

namespace Document

/-- The slot of the tree root. -/
def rootSlot : Nat := 0

/-- A document with its root and nothing else. -/
def empty : Document := ⟨#[⟨.document, none⟩]⟩

/-- The number of slots in use. -/
def size (d : Document) : Nat := d.entries.size

/-- The object in a slot. -/
def object? (d : Document) (slot : Nat) : Option DocumentObject :=
  d.entries[slot]?.map Entry.value

/-- The slot of an object's parent. -/
def parent? (d : Document) (slot : Nat) : Option Nat :=
  d.entries[slot]?.bind Entry.parent

/-- The kind of the object in a slot. -/
def kind? (d : Document) (slot : Nat) : Option ObjectKind :=
  (d.object? slot).map DocumentObject.kind

/-- The children of an object: the later entries that name it as parent. -/
def children (d : Document) (slot : Nat) : List Nat :=
  (List.range' (slot + 1) (d.size - (slot + 1))).filter fun child => d.parent? child == some slot

theorem lt_of_mem_children {d : Document} {slot child : Nat} (h : child ∈ d.children slot) :
    slot < child ∧ child < d.size := by
  simp only [children, List.mem_filter, List.mem_range'_1] at h
  omega

/-- The owners of an object, the nearest first. Each stands in an earlier slot than what it owns. -/
def ancestors (d : Document) (slot : Nat) : List Nat :=
  match d.parent? slot with
  | some parent => if parent < slot then parent :: d.ancestors parent else []
  | none => []
termination_by slot

/-- The document with one more object at the end. -/
def push (d : Document) (parent : Nat) (value : DocumentObject) : Document :=
  ⟨d.entries.push ⟨value, some parent⟩⟩

/-- The document with the object in one slot changed. -/
def put (d : Document) (slot : Nat) (value : DocumentObject) : Document :=
  ⟨d.entries.modify slot fun entry => { entry with value := value }⟩

/-- What `select` takes from the object that `handle` names. The object is of the handle's kind
where `select` takes something. -/
def read {kind : ObjectKind} {α : Type} (d : Document) (handle : Handle kind)
    (select : DocumentObject → Option α) : Except DocumentError α :=
  match d.object? handle.slot with
  | none => .error (.missing kind)
  | some object =>
    match select object with
    | some value => .ok value
    | none => .error (.kindMismatch kind object.kind)

/-- Adds an object at the end of the container in `slot`, which has to be of kind `kind`. -/
def addChild (d : Document) (kind : ObjectKind) (slot : Nat) (value : DocumentObject) :
    Except DocumentError (Nat × Document) :=
  match d.kind? slot with
  | none => .error (.missing kind)
  | some found =>
    if found = kind then .ok (d.size, d.push slot value) else .error (.kindMismatch kind found)

/-! ### Sections -/

/-- Adds an empty section at the end of the document. -/
def addSection (d : Document) : SectionId × Document :=
  (⟨d.size⟩, d.push rootSlot .sectionBlock)

/-- The sections in document order. -/
def sections (d : Document) : List SectionId :=
  ((d.children rootSlot).filter fun slot => d.kind? slot == some .sectionBlock).map Handle.mk

/-- Succeeds where `id` names a section. -/
def checkSection (d : Document) (id : SectionId) : Except DocumentError Unit :=
  d.read id fun
    | .sectionBlock => some ()
    | _ => none

/-! ### Paragraphs -/

/-- The paragraphs of a section in document order. -/
def paragraphs (d : Document) (id : SectionId) : Except DocumentError (List ParagraphId) := do
  d.checkSection id
  return ((d.children id.slot).filter fun slot => d.kind? slot == some .paragraph).map Handle.mk

/-- Adds an unstyled paragraph at the end of a section. -/
def addParagraph (d : Document) (id : SectionId) :
    Except DocumentError (ParagraphId × Document) := do
  let (slot, d) ← d.addChild .sectionBlock id.slot (.paragraph {})
  return (⟨slot⟩, d)

def paragraph (d : Document) (id : ParagraphId) : Except DocumentError Paragraph :=
  d.read id fun
    | .paragraph value => some value
    | _ => none

def updateParagraph (d : Document) (id : ParagraphId) (f : Paragraph → Paragraph) :
    Except DocumentError Document := do
  let value ← d.paragraph id
  return d.put id.slot (.paragraph (f value))

/-- Names the paragraph's style. An empty name is refused before the handle is looked at. -/
def setStyle (d : Document) (id : ParagraphId) (style : String) : Except DocumentError Document :=
  if style = "" then .error .emptyStyle
  else d.updateParagraph id fun value => { value with style := some style }

/-- The section that owns a paragraph. -/
def sectionOf (d : Document) (id : ParagraphId) : Except DocumentError SectionId := do
  let _ ← d.paragraph id
  match (d.parent? id.slot).filter fun slot => d.kind? slot == some .sectionBlock with
  | some slot => .ok ⟨slot⟩
  | none => .error (.detached .paragraph .sectionBlock)

/-! ### Inline content -/

/-- Succeeds where `parent` names an object of its kind. -/
def checkInlineParent (d : Document) (parent : InlineParent) : Except DocumentError Unit :=
  d.read (⟨parent.slot⟩ : Handle parent.kind) fun object =>
    if object.kind = parent.kind then some () else none

/-- The paragraph that owns an inline parent, at any depth. A paragraph owns itself. -/
def paragraphOf (d : Document) (parent : InlineParent) : Except DocumentError ParagraphId := do
  d.checkInlineParent parent
  match parent with
  | .paragraph id => .ok id
  | _ =>
    match (d.ancestors parent.slot).find? fun slot => d.kind? slot == some .paragraph with
    | some slot => .ok ⟨slot⟩
    | none => .error (.detached parent.kind .paragraph)

def addText (d : Document) (parent : InlineParent) (text : String) :
    Except DocumentError Document := do
  let (_, d) ← d.addChild parent.kind parent.slot (.text text)
  return d

def addLineBreak (d : Document) (parent : InlineParent) : Except DocumentError Document := do
  let (_, d) ← d.addChild parent.kind parent.slot .lineBreak
  return d

/-- Adds a run with one format flag set. -/
def addRun (d : Document) (parent : InlineParent) (format : TextFormat) :
    Except DocumentError (RunId × Document) := do
  let (slot, d) ← d.addChild parent.kind parent.slot (.run (TextRun.ofFormat format))
  return (⟨slot⟩, d)

def run (d : Document) (id : RunId) : Except DocumentError TextRun :=
  d.read id fun
    | .run value => some value
    | _ => none

def updateRun (d : Document) (id : RunId) (f : TextRun → TextRun) :
    Except DocumentError Document := do
  let value ← d.run id
  return d.put id.slot (.run (f value))

/-- Sets a format flag on a run that exists. -/
def applyFormat (d : Document) (id : RunId) (format : TextFormat) : Except DocumentError Document :=
  d.updateRun id fun value => value.apply format

/-- Adds a link to any inline parent, so a link may stand inside a run. -/
def addHyperlink (d : Document) (parent : InlineParent) (link : Hyperlink) :
    Except DocumentError (LinkId × Document) := do
  let (slot, d) ← d.addChild parent.kind parent.slot (.hyperlink link)
  return (⟨slot⟩, d)

def hyperlink (d : Document) (id : LinkId) : Except DocumentError Hyperlink :=
  d.read id fun
    | .hyperlink value => some value
    | _ => none

end Document

end Galley
