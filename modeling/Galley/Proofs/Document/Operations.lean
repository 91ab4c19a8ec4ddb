import Galley.Proofs.Document.Owners

/-!
  What operations do to a document: why they fail, and what they touch where they do not.

  A document refuses a handle whose slot is beyond its table or holds an object of another kind
  (`Refuses`). An operation fails exactly where its handle is refused, or where it is to set an
  empty style (`perform_eq_error_iff`), and a question exactly where its handle is
  (`WellFormed.answer_eq_error_iff`). Where an operation succeeds it makes one `Change`: one object
  is added as the last child of its parent, or the value of one is altered
  (`between_of_outcome`). So a handle keeps naming its object along any sequence of operations
  (`names_performAll`, by induction over the sequence).
-/

namespace Galley

/-- A handle with the kind that it says its object has. -/
abbrev AnyHandle := (kind : ObjectKind) × Handle kind

def InlineParent.handle (parent : InlineParent) : AnyHandle :=
  ⟨parent.kind, ⟨parent.slot⟩⟩

/-! ## What operations are given and give -/

/-- The handle that an operation is given. Only a new section needs none. -/
def Operation.handle? : Operation → Option AnyHandle
  | addSection => none
  | addParagraph owner => some ⟨_, owner⟩
  | updateParagraph id _ | setStyle id _ => some ⟨_, id⟩
  | addText parent _ | addLineBreak parent | addRun parent _ | addHyperlink parent _ =>
    some parent.handle
  | updateRun id _ | applyFormat id _ => some ⟨_, id⟩

/-- The handle that a question is about. -/
def Question.handle? {α : Type} : Question α → Option AnyHandle
  | sections | view => none
  | checkSection id | paragraphs id => some ⟨_, id⟩
  | paragraph id | sectionOf id | paragraphView id => some ⟨_, id⟩
  | paragraphOf parent => some parent.handle
  | run id => some ⟨_, id⟩
  | hyperlink id => some ⟨_, id⟩

/-- Whether an operation is to set a style without a name. -/
def Operation.namesNoStyle : Operation → Bool
  | setStyle _ style => style = ""
  | _ => false

/-- What an operation gives: the handle of the object that it adds, if it gives one out, and the
    document afterwards. -/
def Operation.outcome (d : Document) :
    Operation → Except DocumentError (Option AnyHandle × Document)
  | addSection => .ok (some ⟨_, d.addSection.1⟩, d.addSection.2)
  | addParagraph owner => (d.addParagraph owner).map fun added => (some ⟨_, added.1⟩, added.2)
  | addRun parent format => (d.addRun parent format).map fun added => (some ⟨_, added.1⟩, added.2)
  | addHyperlink parent link =>
    (d.addHyperlink parent link).map fun added => (some ⟨_, added.1⟩, added.2)
  | operation => (operation.perform d).map fun d' => (none, d')

/-- An operation as an edit, which keeps the document where it fails. -/
def Operation.edit (operation : Operation) : Edit (Option AnyHandle) :=
  Edit.perform operation.outcome

/-- The document after several operations, of which some may fail. -/
def Document.performAll (d : Document) (operations : List Operation) : Document :=
  operations.foldl (fun d operation => (operation.edit.runOn d).2) d

/-! ## What they change -/

def DocumentObject.mapParagraph (f : Paragraph → Paragraph) : DocumentObject → DocumentObject
  | .paragraph value => .paragraph (f value)
  | object => object

def DocumentObject.mapRun (f : TextRun → TextRun) : DocumentObject → DocumentObject
  | .run value => .run (f value)
  | object => object

/-- A change of one object: a new one in a parent, or another value for the one in a slot. -/
inductive Change where
  | add (parent : Nat) (value : DocumentObject)
  | alter (slot : Nat) (f : DocumentObject → DocumentObject)

/-- The slot whose value a change alters. -/
def Change.altered? : Change → Option Nat
  | add _ _ => none
  | alter slot _ => some slot

/-- The change that an operation stands for. -/
def Operation.change : Operation → Change
  | addSection => .add Document.rootSlot .sectionBlock
  | addParagraph owner => .add owner.slot (.paragraph {})
  | updateParagraph id f => .alter id.slot (.mapParagraph f)
  | setStyle id style =>
    .alter id.slot (.mapParagraph fun value => { value with style := some style })
  | addText parent text => .add parent.slot (.text text)
  | addLineBreak parent => .add parent.slot .lineBreak
  | addRun parent format => .add parent.slot (.run (.ofFormat format))
  | updateRun id f => .alter id.slot (.mapRun f)
  | applyFormat id format => .alter id.slot (.mapRun fun value => value.apply format)
  | addHyperlink parent link => .add parent.slot (.hyperlink link)

namespace Document

variable {d d' : Document} {cause : DocumentError}

/-- Why a document refuses a handle. The error names the kind that the handle says. -/
inductive Refuses (d : Document) (handle : AnyHandle) : DocumentError → Prop where
  | missing (hslot : d.size ≤ handle.2.slot) : Refuses d handle (.missing handle.1)
  | mismatch {found : ObjectKind} (hfound : d.kind? handle.2.slot = some found)
      (hne : found ≠ handle.1) : Refuses d handle (.kindMismatch handle.1 found)

/-- One object more, in the next slot and as the last child of its parent. -/
structure Added (d : Document) (parent : Nat) (value : DocumentObject) (d' : Document) :
    Prop where
  size : d'.size = d.size + 1
  object? : d'.object? d.size = some value
  parent? : d'.parent? d.size = some parent
  children : d'.children parent = d.children parent ++ [d.size]
  object?_eq : ∀ slot < d.size, d'.object? slot = d.object? slot
  parent?_eq : ∀ slot < d.size, d'.parent? slot = d.parent? slot
  children_eq : ∀ slot, slot ≠ parent → d'.children slot = d.children slot

/-- Another value of the same kind in one slot. -/
structure Altered (d : Document) (slot : Nat) (f : DocumentObject → DocumentObject)
    (d' : Document) : Prop where
  size : d'.size = d.size
  object? : ∃ before, d.object? slot = some before ∧ d'.object? slot = some (f before) ∧
    (f before).kind = before.kind
  object?_eq : ∀ other, other ≠ slot → d'.object? other = d.object? other
  parent?_eq : ∀ other, d'.parent? other = d.parent? other
  children_eq : ∀ other, d'.children other = d.children other

/-! ## Refused handles -/

theorem refuses_of_none {handle : AnyHandle} (h : d.kind? handle.2.slot = none) :
    d.Refuses handle cause ↔ cause = .missing handle.1 := by
  constructor
  · intro hrefuses
    cases hrefuses with
    | missing _ => rfl
    | mismatch hfound _ => exact absurd (h.symm.trans hfound) nofun
  · rintro rfl
    exact .missing (object?_eq_none_iff.1 (Option.map_eq_none_iff.1 h))

theorem refuses_of_some {handle : AnyHandle} {found : ObjectKind}
    (h : d.kind? handle.2.slot = some found) :
    d.Refuses handle cause ↔ found ≠ handle.1 ∧ cause = .kindMismatch handle.1 found := by
  constructor
  · intro hrefuses
    cases hrefuses with
    | missing hslot => exact absurd (lt_size_of_kind? h) (Nat.not_lt.2 hslot)
    | mismatch hfound hne =>
      obtain rfl := Option.some.inj (h.symm.trans hfound)
      exact ⟨hne, rfl⟩
  · rintro ⟨hne, rfl⟩
    exact .mismatch h hne

/-- A handle that names an object of its kind is not refused. -/
theorem not_refuses {handle : AnyHandle} (h : d.kind? handle.2.slot = some handle.1) :
    ¬ d.Refuses handle cause := by
  rw [refuses_of_some h]
  exact fun hrefuses => hrefuses.1 rfl

theorem addChild_eq_error_iff {kind : ObjectKind} {slot : Nat} {value : DocumentObject} :
    d.addChild kind slot value = .error cause ↔ d.Refuses ⟨kind, ⟨slot⟩⟩ cause := by
  unfold addChild
  cases hkind : d.kind? slot with
  | none =>
    rw [refuses_of_none hkind, Except.error.injEq, eq_comm]
  | some found =>
    rw [refuses_of_some hkind]
    by_cases h : found = kind
    · simp [h]
    · simp [h, eq_comm]

/-- Reading an object fails where the handle is refused, if what is read is there for all objects
    of the handle's kind and for no other. -/
theorem read_eq_error_iff {kind : ObjectKind} {α : Type} {handle : Handle kind}
    {select : DocumentObject → Option α}
    (hselect : ∀ object, (select object).isSome ↔ object.kind = kind) :
    d.read handle select = .error cause ↔ d.Refuses ⟨kind, handle⟩ cause := by
  unfold read
  cases hobject : d.object? handle.slot with
  | none =>
    have hkind : d.kind? handle.slot = none := by rw [kind?, hobject]; rfl
    rw [refuses_of_none hkind, Except.error.injEq, eq_comm]
  | some object =>
    have hkind := kind?_of_object? hobject
    rw [refuses_of_some hkind, ne_eq, ← hselect object]
    cases hread : select object with
    | none => simp [hread, eq_comm]
    | some value => simp [hread]

theorem map_eq_error_iff {α β : Type} {x : Except DocumentError α} {f : α → β} :
    x.map f = .error cause ↔ x = .error cause := by
  constructor
  · exact error_of_map
  · rintro rfl
    rfl

/-- What only fails in its first part fails where that does. -/
theorem bind_eq_error_iff {α β : Type} {x : Except DocumentError α}
    {next : α → Except DocumentError β}
    (hnext : ∀ value, x = .ok value → ∃ result, next value = .ok result) :
    (x >>= next) = .error cause ↔ x = .error cause := by
  constructor
  · intro h
    rcases error_of_bind h with herror | ⟨value, hok, herror⟩
    · exact herror
    · obtain ⟨result, hresult⟩ := hnext value hok
      exact absurd (hresult.symm.trans herror) nofun
  · rintro rfl
    rfl

theorem checkSection_eq_error_iff {id : SectionId} :
    d.checkSection id = .error cause ↔ d.Refuses ⟨_, id⟩ cause :=
  read_eq_error_iff fun object => by cases object <;> simp [DocumentObject.kind]

theorem paragraph_eq_error_iff {id : ParagraphId} :
    d.paragraph id = .error cause ↔ d.Refuses ⟨_, id⟩ cause :=
  read_eq_error_iff fun object => by cases object <;> simp [DocumentObject.kind]

theorem run_eq_error_iff {id : RunId} : d.run id = .error cause ↔ d.Refuses ⟨_, id⟩ cause :=
  read_eq_error_iff fun object => by cases object <;> simp [DocumentObject.kind]

theorem hyperlink_eq_error_iff {id : LinkId} :
    d.hyperlink id = .error cause ↔ d.Refuses ⟨_, id⟩ cause :=
  read_eq_error_iff fun object => by cases object <;> simp [DocumentObject.kind]

theorem checkInlineParent_eq_error_iff {parent : InlineParent} :
    d.checkInlineParent parent = .error cause ↔ d.Refuses parent.handle cause :=
  read_eq_error_iff fun object => by
    by_cases h : object.kind = parent.kind <;> simp [h]

theorem updateParagraph_eq_error_iff {id : ParagraphId} {f : Paragraph → Paragraph} :
    d.updateParagraph id f = .error cause ↔ d.Refuses ⟨_, id⟩ cause :=
  (bind_eq_error_iff fun _ _ => ⟨_, rfl⟩).trans paragraph_eq_error_iff

theorem updateRun_eq_error_iff {id : RunId} {f : TextRun → TextRun} :
    d.updateRun id f = .error cause ↔ d.Refuses ⟨_, id⟩ cause :=
  (bind_eq_error_iff fun _ _ => ⟨_, rfl⟩).trans run_eq_error_iff

/-- The handle that an operation or a question is given is the one that is refused. -/
theorem exists_refuses_iff {handle : AnyHandle} :
    (∃ given, some handle = some given ∧ d.Refuses given cause) ↔ d.Refuses handle cause := by
  simp

/-- **When operations fail**: a style without a name is refused before the handle is looked at, and
    otherwise the handle decides. -/
theorem perform_eq_error_iff {operation : Operation} :
    operation.perform d = .error cause ↔
      if operation.namesNoStyle then cause = .emptyStyle
      else ∃ handle, operation.handle? = some handle ∧ d.Refuses handle cause := by
  cases operation with
  | addSection => simp [Operation.perform, Operation.handle?, Operation.namesNoStyle]
  | addParagraph owner =>
    rw [Operation.perform, addParagraph_eq, map_eq_error_iff, map_eq_error_iff,
      addChild_eq_error_iff]
    exact exists_refuses_iff.symm
  | updateParagraph id f => exact updateParagraph_eq_error_iff.trans exists_refuses_iff.symm
  | setStyle id style =>
    rw [Operation.perform, Document.setStyle, Operation.namesNoStyle]
    by_cases h : style = ""
    · simp [h, eq_comm]
    · rw [if_neg h, if_neg (by simpa using h)]
      exact updateParagraph_eq_error_iff.trans exists_refuses_iff.symm
  | addText parent text =>
    rw [Operation.perform, addText_eq, map_eq_error_iff, addChild_eq_error_iff]
    exact exists_refuses_iff.symm
  | addLineBreak parent =>
    rw [Operation.perform, addLineBreak_eq, map_eq_error_iff, addChild_eq_error_iff]
    exact exists_refuses_iff.symm
  | addRun parent format =>
    rw [Operation.perform, addRun_eq, map_eq_error_iff, map_eq_error_iff, addChild_eq_error_iff]
    exact exists_refuses_iff.symm
  | updateRun id f => exact updateRun_eq_error_iff.trans exists_refuses_iff.symm
  | applyFormat id format => exact updateRun_eq_error_iff.trans exists_refuses_iff.symm
  | addHyperlink parent link =>
    rw [Operation.perform, addHyperlink_eq, map_eq_error_iff, map_eq_error_iff,
      addChild_eq_error_iff]
    exact exists_refuses_iff.symm

namespace WellFormed

theorem sectionOf_eq_error_iff (h : d.WellFormed) {id : ParagraphId} :
    d.sectionOf id = .error cause ↔ d.Refuses ⟨_, id⟩ cause := by
  refine (bind_eq_error_iff fun value hread => ?_).trans paragraph_eq_error_iff
  obtain ⟨owner, -, hok, -⟩ :=
    h.ownersFound.sectionOf id (kind?_of_object? (paragraph_eq_ok.1 hread))
  rw [sectionOf, hread] at hok
  exact ⟨owner, hok⟩

theorem paragraphOf_eq_error_iff (h : d.WellFormed) {parent : InlineParent} :
    d.paragraphOf parent = .error cause ↔ d.Refuses parent.handle cause := by
  refine (bind_eq_error_iff fun found hread => ?_).trans checkInlineParent_eq_error_iff
  obtain ⟨object, hobject, hselect⟩ := read_eq_ok.1 hread
  have hparent : object.kind = parent.kind := (Option.ite_none_right_eq_some.1 hselect).1
  obtain ⟨id, hok, -⟩ := h.ownersFound.paragraphOf parent (hparent ▸ kind?_of_object? hobject)
  unfold paragraphOf at hok
  rw [hread] at hok
  exact ⟨id, hok⟩

/-- **When questions fail**: in a well-formed document only the handle decides. -/
theorem answer_eq_error_iff (h : d.WellFormed) {α : Type} {question : Question α} :
    question.answer d = .error cause ↔
      ∃ handle, question.handle? = some handle ∧ d.Refuses handle cause := by
  cases question with
  | sections => simp [Question.answer, Question.handle?]
  | checkSection id => exact checkSection_eq_error_iff.trans exists_refuses_iff.symm
  | paragraphs id =>
    exact (bind_eq_error_iff fun _ _ => ⟨_, rfl⟩).trans
      (checkSection_eq_error_iff.trans exists_refuses_iff.symm)
  | paragraph id => exact paragraph_eq_error_iff.trans exists_refuses_iff.symm
  | sectionOf id => exact h.sectionOf_eq_error_iff.trans exists_refuses_iff.symm
  | paragraphOf parent => exact h.paragraphOf_eq_error_iff.trans exists_refuses_iff.symm
  | run id => exact run_eq_error_iff.trans exists_refuses_iff.symm
  | hyperlink id => exact hyperlink_eq_error_iff.trans exists_refuses_iff.symm
  | view => simp [Question.answer, Question.handle?]
  | paragraphView id =>
    rw [Question.answer, paragraphView_eq, map_eq_error_iff, paragraph_eq_error_iff]
    exact exists_refuses_iff.symm

end WellFormed

end Document

/-! ## What is touched -/

/-- The second document is the first with the change made, and all else is as it was. -/
def Change.Between (d d' : Document) : Change → Prop
  | add parent value => d.Added parent value d'
  | alter slot f => d.Altered slot f d'

namespace Document

variable {d d' : Document} {cause : DocumentError}

theorem children_eq_nil {slot : Nat} (h : d.size ≤ slot + 1) : d.children slot = [] := by
  refine List.eq_nil_iff_forall_not_mem.2 fun child hchild => ?_
  have hlt := lt_of_mem_children hchild
  omega

theorem added_push {parent : Nat} (hparent : parent < d.size) (value : DocumentObject) :
    d.Added parent value (d.push parent value) where
  size := size_push
  object? := object?_push_self
  parent? := parent?_push_self
  children := by rw [children_push hparent, if_pos rfl]
  object?_eq := fun slot hslot => by rw [object?_push, if_neg (Nat.ne_of_lt hslot)]
  parent?_eq := fun slot hslot => by rw [parent?_push, if_neg (Nat.ne_of_lt hslot)]
  children_eq := fun slot hslot => by
    by_cases hlt : slot < d.size
    · rw [children_push hlt, if_neg (Ne.symm hslot), List.append_nil]
    · rw [children_eq_nil (by rw [size_push]; omega), children_eq_nil (by omega)]

theorem altered_put {slot : Nat} {before : DocumentObject} {f : DocumentObject → DocumentObject}
    (hslot : d.object? slot = some before) (hkind : (f before).kind = before.kind) :
    d.Altered slot f (d.put slot (f before)) where
  size := size_put
  object? := ⟨before, hslot, object?_put_self hslot, hkind⟩
  object?_eq := fun _ => object?_put_of_ne
  parent?_eq := fun _ => parent?_put
  children_eq := fun _ => children_put

theorem between_of_updateParagraph {id : ParagraphId} {f : Paragraph → Paragraph}
    (h : d.updateParagraph id f = .ok d') :
    (Change.alter id.slot (.mapParagraph f)).Between d d' := by
  obtain ⟨value, hobject, rfl⟩ := updateParagraph_eq_ok.1 h
  exact altered_put hobject rfl

theorem between_of_updateRun {id : RunId} {f : TextRun → TextRun}
    (h : d.updateRun id f = .ok d') : (Change.alter id.slot (.mapRun f)).Between d d' := by
  obtain ⟨value, hobject, rfl⟩ := updateRun_eq_ok.1 h
  exact altered_put hobject rfl

/-- An operation that is `addChild` adds one object, and the handle it gives out names that. -/
theorem between_of_addChild {kind : ObjectKind} {slot : Nat} {value : DocumentObject}
    {give : Nat × Document → Option AnyHandle × Document} {minted : Option AnyHandle}
    (h : (d.addChild kind slot value).map give = .ok (minted, d'))
    (hgive : ∀ added, (give added).2 = added.2)
    (hhandle : ∀ added handle, (give added).1 = some handle → handle = ⟨value.kind, ⟨added.1⟩⟩) :
    (Change.add slot value).Between d d' ∧ ∀ handle, minted = some handle →
      handle.2.slot = d.size ∧ d'.kind? handle.2.slot = some handle.1 := by
  cases hadd : d.addChild kind slot value with
  | error cause =>
    rw [hadd] at h
    exact absurd h nofun
  | ok added =>
    obtain ⟨hkind, rfl⟩ := addChild_eq_ok.1 hadd
    rw [hadd] at h
    obtain ⟨hminted, hdocument⟩ := Prod.mk.inj (Except.ok.inj h)
    obtain rfl := (hgive _).symm.trans hdocument
    refine ⟨added_push (lt_size_of_kind? hkind) value, ?_⟩
    rintro handle rfl
    obtain rfl := hhandle _ handle hminted
    exact ⟨rfl, kind?_of_object? object?_push_self⟩

/-- An operation that gives out no handle. -/
theorem eq_ok_of_map_none {x : Except DocumentError Document} {minted : Option AnyHandle}
    (h : x.map (fun d' => ((none : Option AnyHandle), d')) = .ok (minted, d')) :
    x = .ok d' ∧ minted = none := by
  cases x with
  | error cause => exact absurd h nofun
  | ok other =>
    obtain ⟨rfl, rfl⟩ := Prod.mk.inj (Except.ok.inj h)
    exact ⟨rfl, rfl⟩

/-- **What operations change**: where one succeeds it makes its change, and the handle that it gives
    out names the new object. -/
theorem between_of_outcome (hd : d.WellFormed) {operation : Operation}
    {minted : Option AnyHandle} (h : operation.outcome d = .ok (minted, d')) :
    operation.change.Between d d' ∧ ∀ handle, minted = some handle →
      handle.2.slot = d.size ∧ d'.kind? handle.2.slot = some handle.1 := by
  have hnone : ∀ handle : AnyHandle, none = some handle →
      handle.2.slot = d.size ∧ d'.kind? handle.2.slot = some handle.1 :=
    fun handle hhandle => absurd hhandle.symm (Option.some_ne_none handle)
  cases operation with
  | addSection =>
    obtain ⟨rfl, rfl⟩ := Prod.mk.inj (Except.ok.inj h)
    refine ⟨added_push hd.size_pos .sectionBlock, fun handle hhandle => ?_⟩
    obtain rfl := Option.some.inj hhandle
    exact ⟨rfl, kind?_of_object? object?_push_self⟩
  | addParagraph owner =>
    rw [Operation.outcome, addParagraph_eq, except_map_map] at h
    exact between_of_addChild h (fun _ => rfl) fun _ _ heq => (Option.some.inj heq).symm
  | addRun parent format =>
    rw [Operation.outcome, addRun_eq, except_map_map] at h
    exact between_of_addChild h (fun _ => rfl) fun _ _ heq => (Option.some.inj heq).symm
  | addHyperlink parent link =>
    rw [Operation.outcome, addHyperlink_eq, except_map_map] at h
    exact between_of_addChild h (fun _ => rfl) fun _ _ heq => (Option.some.inj heq).symm
  | addText parent text =>
    have hadd : (d.addText parent text).map (fun d' => (none, d')) = .ok (minted, d') := h
    rw [addText_eq, except_map_map] at hadd
    exact between_of_addChild hadd (fun _ => rfl) fun _ handle heq =>
      absurd heq.symm (Option.some_ne_none handle)
  | addLineBreak parent =>
    have hadd : (d.addLineBreak parent).map (fun d' => (none, d')) = .ok (minted, d') := h
    rw [addLineBreak_eq, except_map_map] at hadd
    exact between_of_addChild hadd (fun _ => rfl) fun _ handle heq =>
      absurd heq.symm (Option.some_ne_none handle)
  | updateParagraph id f =>
    obtain ⟨hperform, rfl⟩ := eq_ok_of_map_none h
    exact ⟨between_of_updateParagraph hperform, hnone⟩
  | setStyle id style =>
    obtain ⟨hperform, rfl⟩ := eq_ok_of_map_none h
    simp only [Operation.perform, Document.setStyle] at hperform
    split at hperform
    · cases hperform
    · exact ⟨between_of_updateParagraph hperform, hnone⟩
  | updateRun id f =>
    obtain ⟨hperform, rfl⟩ := eq_ok_of_map_none h
    exact ⟨between_of_updateRun hperform, hnone⟩
  | applyFormat id format =>
    obtain ⟨hperform, rfl⟩ := eq_ok_of_map_none h
    exact ⟨between_of_updateRun hperform, hnone⟩

/-! ## What handles name afterwards -/

/-- An outcome is what performing the operation gives, with a handle besides. -/
theorem outcome_map_snd (d : Document) (operation : Operation) :
    (operation.outcome d).map Prod.snd = operation.perform d := by
  have hnone (x : Except DocumentError Document) :
      (x.map fun d' => ((none : Option AnyHandle), d')).map Prod.snd = x := by
    cases x <;> rfl
  cases operation with
  | addSection => rfl
  | addParagraph owner => exact except_map_map _ _ _
  | addRun parent format => exact except_map_map _ _ _
  | addHyperlink parent link => exact except_map_map _ _ _
  | _ => exact hnone _

theorem runOn_edit_of_error {operation : Operation} (h : operation.outcome d = .error cause) :
    operation.edit.runOn d = (.error (.document cause), d) := by
  rw [Operation.edit, Edit.runOn_perform, h]

theorem runOn_edit_of_ok {operation : Operation} {minted : Option AnyHandle}
    (h : operation.outcome d = .ok (minted, d')) : operation.edit.runOn d = (.ok minted, d') := by
  rw [Operation.edit, Edit.runOn_perform, h]

/-- A handle still names the object that it named in an earlier document: one of its kind, with the
    parent it had and after the same siblings, and no operation refuses it. -/
structure Names (d : Document) (handle : AnyHandle) (d' : Document) : Prop where
  kind?_eq : d'.kind? handle.2.slot = some handle.1
  parent?_eq : d'.parent? handle.2.slot = d.parent? handle.2.slot
  children_prefix : ∀ owner, d.children owner <+: d'.children owner
  accepted : ∀ cause, ¬ d'.Refuses handle cause

theorem Names.refl {handle : AnyHandle} (h : d.kind? handle.2.slot = some handle.1) :
    d.Names handle d :=
  ⟨h, rfl, fun _ => List.prefix_rfl, fun _ => not_refuses h⟩

theorem Names.trans {d'' : Document} {handle : AnyHandle} (h : d.Names handle d')
    (h' : d'.Names handle d'') : d.Names handle d'' :=
  ⟨h'.kind?_eq, h'.parent?_eq.trans h.parent?_eq,
    fun owner => (h.children_prefix owner).trans (h'.children_prefix owner), h'.accepted⟩

/-- One change keeps what a handle names, and also its value if it alters another object. -/
theorem names_of_between {change : Change} (h : change.Between d d') {handle : AnyHandle}
    (hkind : d.kind? handle.2.slot = some handle.1) :
    d.Names handle d' ∧ (change.altered? ≠ some handle.2.slot →
      d'.object? handle.2.slot = d.object? handle.2.slot) := by
  have hlt := lt_size_of_kind? hkind
  cases change with
  | add parent value =>
    have hobject := h.object?_eq _ hlt
    have hkind' : d'.kind? handle.2.slot = some handle.1 := by rw [kind?, hobject]; exact hkind
    refine ⟨⟨hkind', h.parent?_eq _ hlt, fun owner => ?_, fun _ => not_refuses hkind'⟩,
      fun _ => hobject⟩
    by_cases howner : owner = parent
    · rw [howner, h.children]
      exact List.prefix_append _ _
    · exact h.children_eq owner howner ▸ List.prefix_rfl
  | alter slot f =>
    have hother (hne : handle.2.slot ≠ slot) := h.object?_eq _ hne
    have hkind' : d'.kind? handle.2.slot = some handle.1 := by
      by_cases hslot : handle.2.slot = slot
      · obtain ⟨before, hbefore, hafter, hsame⟩ := h.object?
        rw [hslot, kind?_of_object? hbefore] at hkind
        rw [hslot, kind?_of_object? hafter, hsame, hkind]
      · rw [kind?, hother hslot]
        exact hkind
    refine ⟨⟨hkind', h.parent?_eq _, fun owner => ?_, fun _ => not_refuses hkind'⟩, fun hne => ?_⟩
    · exact h.children_eq owner ▸ List.prefix_rfl
    · exact hother fun heq => hne (congrArg some heq.symm)

/-- An operation keeps what a handle names, whether it fails or not. -/
theorem names_of_edit (hd : d.WellFormed) (operation : Operation) {handle : AnyHandle}
    (hkind : d.kind? handle.2.slot = some handle.1) :
    d.Names handle (operation.edit.runOn d).2 ∧
      (operation.change.altered? ≠ some handle.2.slot →
        (operation.edit.runOn d).2.object? handle.2.slot = d.object? handle.2.slot) := by
  cases hresult : operation.outcome d with
  | error cause =>
    rw [runOn_edit_of_error hresult]
    exact ⟨.refl hkind, fun _ => rfl⟩
  | ok result =>
    obtain ⟨minted, d'⟩ := result
    rw [runOn_edit_of_ok hresult]
    exact names_of_between (between_of_outcome hd hresult).1 hkind

theorem Reachable.edit (hd : d.Reachable) (operation : Operation) :
    (operation.edit.runOn d).2.Reachable := by
  have hperform := outcome_map_snd d operation
  cases hresult : operation.outcome d with
  | error cause =>
    rw [runOn_edit_of_error hresult]
    exact hd
  | ok result =>
    obtain ⟨minted, d'⟩ := result
    rw [hresult] at hperform
    rw [runOn_edit_of_ok hresult]
    exact .perform operation hd hperform.symm

/-- **A handle keeps naming its object** along any sequence of operations, and the object keeps its
    value while none alters it. -/
theorem names_performAll (hd : d.Reachable) (operations : List Operation) {handle : AnyHandle}
    (hkind : d.kind? handle.2.slot = some handle.1) :
    d.Names handle (d.performAll operations) ∧
      ((∀ operation ∈ operations, operation.change.altered? ≠ some handle.2.slot) →
        (d.performAll operations).object? handle.2.slot = d.object? handle.2.slot) := by
  induction operations generalizing d with
  | nil => exact ⟨.refl hkind, fun _ => rfl⟩
  | cons operation operations ih =>
    obtain ⟨hnames, hvalue⟩ := names_of_edit hd.wellFormed operation hkind
    obtain ⟨hlater, hvalues⟩ := ih (hd.edit operation) hnames.kind?_eq
    refine ⟨hnames.trans hlater, fun hothers => ?_⟩
    have hrest := hvalues fun other hother => hothers other (List.mem_cons_of_mem _ hother)
    exact hrest.trans (hvalue (hothers operation List.mem_cons_self))

/-- **Every operation fails exactly when it should, and touches one object where it does not.**

    In a reachable document an operation fails exactly where it is to set a style without a name or,
    if not so, where its handle is refused; a question where its handle is. What fails leaves the
    document as it was. What succeeds makes one change (`Change.Between`), and a handle that it
    gives out is for the next slot and names the new object, whatever operations follow. -/
theorem operations_check_handles {d : Document} (hd : d.Reachable) :
    (∀ (operation : Operation) cause, operation.outcome d = .error cause ↔
      if operation.namesNoStyle then cause = .emptyStyle
      else ∃ handle, operation.handle? = some handle ∧ d.Refuses handle cause) ∧
    (∀ (α : Type) (question : Question α) cause, question.answer d = .error cause ↔
      ∃ handle, question.handle? = some handle ∧ d.Refuses handle cause) ∧
    (∀ (operation : Operation) cause, operation.outcome d = .error cause →
      operation.edit.runOn d = (.error (.document cause), d)) ∧
    ∀ (operation : Operation) minted d', operation.outcome d = .ok (minted, d') →
      operation.change.Between d d' ∧
      ∀ handle, minted = some handle → handle.2.slot = d.size ∧
        ∀ operations, d'.Names handle (d'.performAll operations) ∧
          ((∀ later ∈ operations, later.change.altered? ≠ some handle.2.slot) →
            (d'.performAll operations).object? handle.2.slot = d'.object? handle.2.slot) := by
  refine ⟨fun operation cause => ?_, fun α question cause => hd.wellFormed.answer_eq_error_iff,
    fun operation cause => runOn_edit_of_error, fun operation minted d' hresult => ?_⟩
  · rw [← perform_eq_error_iff, ← outcome_map_snd]
    exact map_eq_error_iff.symm
  · obtain ⟨hbetween, hminted⟩ := between_of_outcome hd.wellFormed hresult
    have hedit := hd.edit operation
    rw [runOn_edit_of_ok hresult] at hedit
    refine ⟨hbetween, fun handle hhandle => ?_⟩
    obtain ⟨hslot, hkind⟩ := hminted handle hhandle
    exact ⟨hslot, fun operations => names_performAll hedit operations hkind⟩

/-- A run gets its handle, is altered and stays where it is, while a handle of another kind, one
    from a larger document and a style without a name are refused. -/
theorem operations_check_handles_run :
    let d : Document := (Document.empty.push 0 .sectionBlock).push 1 (.paragraph {})
    let d' := d.push 2 (.run { bold := some true })
    let run : AnyHandle := ⟨.run, ⟨3⟩⟩
    let later : List Operation :=
      [.addText (.run ⟨3⟩) "x", .setStyle ⟨9⟩ "", .applyFormat ⟨3⟩ .italic, .addText (.run ⟨2⟩) "y"]
    d.Reachable ∧
      Operation.outcome d (.addText (.run ⟨2⟩) "y") = .error (.kindMismatch .run .paragraph) ∧
      Operation.outcome d (.addText (.run ⟨7⟩) "y") = .error (.missing .run) ∧
      Operation.outcome d (.setStyle ⟨7⟩ "") = .error .emptyStyle ∧
      Operation.outcome d (.addRun (.paragraph ⟨2⟩) .bold) = .ok (some run, d') ∧
      d.Added 2 (.run { bold := some true }) d' ∧
      d'.Names run (d'.performAll later) ∧
      (d'.performAll later).object? 3 = some (.run { bold := some true, italic := some true }) := by
  intro d d' run later
  have hreachable : d.Reachable :=
    .perform (.addParagraph ⟨1⟩) (.perform .addSection .empty rfl) rfl
  obtain ⟨hfails, -, -, hchanges⟩ := operations_check_handles hreachable
  have hmismatch := (hfails (.addText (.run ⟨2⟩) "y") (.kindMismatch .run .paragraph)).2
    ⟨_, rfl, .mismatch rfl (by decide)⟩
  have hmissing := (hfails (.addText (.run ⟨7⟩) "y") (.missing .run)).2
    ⟨_, rfl, .missing (by decide)⟩
  have hstyle := (hfails (.setStyle ⟨7⟩ "") .emptyStyle).2 rfl
  have hrun : Operation.outcome d (.addRun (.paragraph ⟨2⟩) .bold) = .ok (some run, d') := rfl
  obtain ⟨hadded, hminted⟩ := hchanges _ _ _ hrun
  obtain ⟨-, hnames⟩ := hminted run rfl
  exact ⟨hreachable, hmismatch, hmissing, hstyle, hrun, hadded, (hnames later).1, rfl⟩

end Document

end Galley
