import Galley.Proofs.Conversion.NearestBlock
import Galley.Proofs.Document.Graft

/-!
  What inline markup adds to a paragraph, said by recursion over the markup.

  `Node.rendered` says it without a walk: which inline objects a node stands for, and which flags it
  sets on the run around it. Links, spans and formatting elements outside runs hold what is inside
  them; inside a run a formatting element only sets its flag, and like every other node lets its
  content stand where it stands itself. The walk adds exactly that (`walkSiblings_eq_insert`): it
  sets flags on runs that are already there, and since that commutes with adding objects, it is as
  if each run had been added with all its flags.
-/

namespace Galley

/-! ## What markup stands for -/

/-- The flag that a formatting element sets. -/
def Node.format? (node : Node) : Option TextFormat :=
  if node.isElement "strong" || node.isElement "bold" then some .bold
  else if node.isElement "i" || node.isElement "em" then some .italic
  else if node.isElement "u" then some .underline
  else none

/-- Inline content, and the flags that it sets on the run that it stands in. -/
structure Rendered where
  flags : List TextFormat
  content : List InlineView

def Rendered.append (first second : Rendered) : Rendered :=
  ⟨first.flags ++ second.flags, first.content ++ second.content⟩

mutual

/-- What a node adds: `inRun` says whether the container around it is a run, `inSpacer` whether its
    parent is a spacer, and `next?` is the sibling after it. -/
def Node.rendered (reserved : Option String) (inRun inSpacer : Bool) (next? : Option Node) :
    Node → Rendered
  | .text content =>
    ⟨[], if hasContent (visibleText content) && !inSpacer then [.text (visibleText content)]
      else []⟩
  | .comment _ => ⟨[], []⟩
  | .branch label nodes =>
    let node : Node := .branch label nodes
    if node.isElement "a" then
      let inside := renderedAll reserved false false nodes
      ⟨[], [.hyperlink ⟨(node.attr? "href").getD "", .web⟩ inside.content]⟩
    else if node.isElement "span" && !node.isSpacer then
      let inside := renderedAll reserved true false nodes
      let style := (node.attr? "class").filter fun name => name != "" && some name != reserved
      ⟨[], [.run (inside.flags.foldl .apply { underline := some false, style := style })
        inside.content]⟩
    else
      match node.format? with
      | some format =>
        let inside := renderedAll reserved true false nodes
        if inRun then ⟨format :: inside.flags, inside.content⟩
        else ⟨[], [.run (inside.flags.foldl .apply (.ofFormat format)) inside.content]⟩
      | none =>
        let inside := renderedAll reserved inRun node.isSpacer nodes
        let breaks := node.isElement "br" &&
          next?.any fun next => !next.isElement "ul" && !next.isElement "ol"
        if breaks then ⟨inside.flags, .lineBreak :: inside.content⟩ else inside

/-- What a run of siblings adds, one after the other. -/
def Node.renderedAll (reserved : Option String) (inRun inSpacer : Bool) : List Node → Rendered
  | [] => ⟨[], []⟩
  | node :: after =>
    (Node.rendered reserved inRun inSpacer after.head? node).append
      (renderedAll reserved inRun inSpacer after)

end

/-! ## Adding it to a document -/

namespace Effect

variable {d : Document} {context : Context} {format : TextFormat}

theorem flagged_of_not_run (h : context.kind ≠ .run) (format : TextFormat) (d : Document) :
    flagged context format d = d := by
  cases context with
  | inRun id => exact absurd rfl h
  | _ => rfl

theorem flagged_of_object? (id : RunId) {value : TextRun}
    (h : d.object? id.slot = some (.run value)) (format : TextFormat) :
    flagged (.inRun id) format d = d.put id.slot (.run (value.apply format)) :=
  applyTo_flag h ⟨0⟩ format

theorem size_flagged (context : Context) (format : TextFormat) (d : Document) :
    (flagged context format d).size = d.size := by
  unfold flagged
  split
  · exact Document.size_put
  · rfl

theorem flagged_push (h : context.slot < d.size) (parent : Nat) (value : DocumentObject) :
    flagged context format (d.push parent value) =
      (flagged context format d).push parent value := by
  cases context with
  | inRun id =>
    have hne : id.slot ≠ d.size := Nat.ne_of_lt h
    have hsame : (d.push parent value).object? id.slot = d.object? id.slot := by
      rw [Document.object?_push, if_neg hne]
    unfold flagged
    dsimp only [Context.slot]
    rw [hsame]
    split
    · next heq _ =>
      obtain rfl := Context.inRun.inj heq
      exact Document.put_push_of_lt h
    · rfl
  | _ => rfl

mutual

theorem flagged_graft (context : Context) (format : TextFormat) (d : Document) (parent : Nat)
    (view : InlineView) (h : context.slot < d.size) :
    flagged context format (d.graft parent view) = (flagged context format d).graft parent view :=
  match view with
  | .text value => flagged_push h parent (.text value)
  | .lineBreak => flagged_push h parent .lineBreak
  | .run value inside => by
    have hlt : context.slot < (d.push parent (.run value)).size := by
      rw [Document.size_push]
      omega
    rw [Document.graft, flagged_graftAll context format _ d.size inside hlt, flagged_push h,
      Document.graft, size_flagged]
  | .hyperlink value inside => by
    have hlt : context.slot < (d.push parent (.hyperlink value)).size := by
      rw [Document.size_push]
      omega
    rw [Document.graft, flagged_graftAll context format _ d.size inside hlt, flagged_push h,
      Document.graft, size_flagged]

/-- Setting a flag on a run that is there commutes with grafting. -/
theorem flagged_graftAll (context : Context) (format : TextFormat) (d : Document) (parent : Nat)
    (views : List InlineView) (h : context.slot < d.size) :
    flagged context format (d.graftAll parent views) =
      (flagged context format d).graftAll parent views :=
  match views with
  | [] => rfl
  | view :: rest => by
    have hle := (Document.grownFrom_graft d parent view).size_le
    rw [Document.graftAll, flagged_graftAll context format _ parent rest (by omega),
      flagged_graft context format d parent view h, Document.graftAll]

end

end Effect

/-- The document with several flags set on the run that is open. -/
def flagAll (context : Context) (flags : List TextFormat) (d : Document) : Document :=
  flags.foldl (fun d format => Effect.flagged context format d) d

section FlagAll

variable {d : Document} {context : Context} {flags : List TextFormat}

theorem flagAll_of_not_run (h : context.kind ≠ .run) (flags : List TextFormat) (d : Document) :
    flagAll context flags d = d := by
  induction flags generalizing d with
  | nil => rfl
  | cons format flags ih =>
    have hfirst := Effect.flagged_of_not_run h format d
    rw [flagAll, List.foldl_cons, hfirst]
    exact ih d

theorem size_flagAll (context : Context) (flags : List TextFormat) (d : Document) :
    (flagAll context flags d).size = d.size := by
  induction flags generalizing d with
  | nil => rfl
  | cons format flags ih => exact (ih _).trans (Effect.size_flagged context format d)

theorem flagAll_graftAll (h : context.slot < d.size) (parent : Nat) (views : List InlineView) :
    flagAll context flags (d.graftAll parent views) =
      (flagAll context flags d).graftAll parent views := by
  induction flags generalizing d with
  | nil => rfl
  | cons format flags ih =>
    rw [flagAll, flagAll, List.foldl_cons, List.foldl_cons, Effect.flagged_graftAll _ _ _ _ _ h]
    exact ih (by rwa [Effect.size_flagged])

/-- A run that was just added might have been added with its flags. -/
theorem flagAll_push_run (flags : List TextFormat) (d : Document) (parent : Nat)
    (value : TextRun) :
    flagAll (.inRun ⟨d.size⟩) flags (d.push parent (.run value)) =
      d.push parent (.run (flags.foldl .apply value)) := by
  induction flags generalizing value with
  | nil => rfl
  | cons format flags ih =>
    have hlast : (d.push parent (.run value)).object? d.size = some (.run value) :=
      Document.object?_push_self
    have hfirst := Effect.flagged_of_object? ⟨d.size⟩ hlast format
    rw [Document.put_push] at hfirst
    rw [flagAll, List.foldl_cons, hfirst]
    exact ih (value.apply format)

end FlagAll

/-- The document with inline content added in a context, and its flags set on the run there. -/
def Rendered.insert (context : Context) (rendered : Rendered) (d : Document) : Document :=
  (flagAll context rendered.flags d).graftAll context.slot rendered.content

section Insert

variable {d : Document} {context : Context} {owner : SectionId}

theorem insert_append (h : context.slot < d.size) (first second : Rendered) :
    (first.append second).insert context d = second.insert context (first.insert context d) := by
  have hlt : context.slot < (flagAll context first.flags d).size := by rwa [size_flagAll]
  unfold Rendered.insert Rendered.append
  rw [flagAll_graftAll hlt, Document.graftAll_append]
  congr 2
  exact List.foldl_append

/-- Content that goes into a run that was just added, or into a link. -/
theorem insert_inRun (inside : Rendered) (context : Context) (d : Document) (value : TextRun) :
    inside.insert (.inRun ⟨d.size⟩) (d.push context.slot (.run value)) =
      (Rendered.mk [] [.run (inside.flags.foldl .apply value) inside.content]).insert
        context d := by
  rw [Rendered.insert, flagAll_push_run]
  rfl

theorem insert_inHyperlink (inside : Rendered) (context : Context) (d : Document)
    (value : Hyperlink) :
    inside.insert (.inHyperlink ⟨d.size⟩) (d.push context.slot (.hyperlink value)) =
      (Rendered.mk [] [.hyperlink value inside.content]).insert context d := by
  have hkind : (Context.inHyperlink ⟨d.size⟩).kind ≠ .run := nofun
  rw [Rendered.insert, flagAll_of_not_run hkind]
  rfl

/-- A paragraph takes no flags. -/
theorem insert_inParagraph (rendered : Rendered) (id : ParagraphId) (d : Document) :
    rendered.insert (.inParagraph id) d = d.graftAll id.slot rendered.content := by
  have hkind : (Context.inParagraph id).kind ≠ .run := nofun
  rw [Rendered.insert, flagAll_of_not_run hkind]
  rfl

theorem insert_cons (h : context.slot < d.size) (view : InlineView) (inside : Rendered) :
    (Rendered.mk inside.flags (view :: inside.content)).insert context d =
      inside.insert context (d.graft context.slot view) := by
  have happend := insert_append h ⟨[], [view]⟩ inside
  exact happend

/-- A context stays live while content is added in it. -/
theorem Live.insert (h : Live d owner context) (rendered : Rendered) :
    Live (rendered.insert context d) owner context := by
  have hflags (flags : List TextFormat) : Live (flagAll context flags d) owner context := by
    induction flags generalizing d with
    | nil => exact h
    | cons format flags ih => exact ih (h.of_keepsShape (h.keepsShape (.flag format)))
  exact Document.graftAll_induction (motive := fun d' => Live d' owner context)
    (fun d' parent value _ hlive => hlive.of_keepsShape (Document.keepsShape_push d' parent value))
    _ _ _ (hflags rendered.flags)

end Insert

/-! ## What calls add -/

def Context.isRun : Context → Bool
  | inRun _ => true
  | _ => false

section Calls

variable {settings : ConversionSettings} {node : Node} {role : Role}

/-- What kind of inline element a node is can be told from its role. -/
theorem elements_of_role? (h : node.role? (usualRole? settings) = some role) :
    (node.isElement "a" ↔ role = .hyperlink) ∧
      (node.isElement "span" ↔ ∃ reserved, role = .span reserved) ∧
      (∀ reserved, role = .span reserved → reserved = settings.reservedSpanClass) ∧
      (node.isElement "br" ↔ role = .lineBreak) ∧
      ∀ format, node.format? = some format ↔ role = .formattedText format := by
  have htable : ∀ entry ∈ usualRoles settings,
      (entry.1 = .element "a" ↔ entry.2 = .hyperlink) ∧
      (entry.1 = .element "span" ↔ ∃ reserved, entry.2 = .span reserved) ∧
      (∀ reserved, entry.2 = .span reserved → reserved = settings.reservedSpanClass) ∧
      (entry.1 = .element "br" ↔ entry.2 = .lineBreak) := by
    simp [usualRoles]
  have hformats : ∀ entry ∈ usualRoles settings, ∀ format,
      (if entry.1 = .element "strong" ∨ entry.1 = .element "bold" then some .bold
        else if entry.1 = .element "i" ∨ entry.1 = .element "em" then some .italic
        else if entry.1 = .element "u" then some .underline
        else none) = some format ↔ entry.2 = .formattedText format := by
    simp [usualRoles]
  obtain ⟨key, hkey, hentry⟩ := mem_usualRoles_of_role? h
  obtain ⟨hlink, hspan, hreserved, hbreak⟩ := htable _ hentry
  simp only [Node.format?, Bool.or_eq_true, isElement_iff_key?, hkey, Option.some.injEq]
  exact ⟨hlink, hspan, hreserved, hbreak, hformats _ hentry⟩

/-- A node without a handler is no inline element. -/
theorem elements_of_role?_none (h : node.role? (usualRole? settings) = none) :
    ¬ node.isElement "a" ∧ ¬ node.isElement "span" ∧ ¬ node.isElement "br" ∧
      node.format? = none := by
  have hnone (tag : String) (hsome : (usualRole? settings (.element tag)).isSome) :
      ¬ node.isElement tag := by
    intro heq
    rw [Node.role?, isElement_iff_key?.1 heq, Option.bind_some] at h
    rw [h] at hsome
    exact absurd hsome Bool.false_ne_true
  refine ⟨hnone _ rfl, hnone _ rfl, hnone _ rfl, ?_⟩
  simp [Node.format?, hnone "strong" rfl, hnone "bold" rfl, hnone "i" rfl, hnone "em" rfl,
    hnone "u" rfl]

/-- A node that is no link, span or formatting element passes on what is inside it, after its line
    break if it is one. -/
theorem rendered_of_plain (reserved : Option String) (inRun inSpacer : Bool)
    (next? : Option Node) {label : Label} {nodes : List Node}
    (hlink : ¬ (Node.branch label nodes).isElement "a")
    (hspan : (Node.branch label nodes).isElement "span" → (Node.branch label nodes).isSpacer)
    (hformat : (Node.branch label nodes).format? = none) :
    Node.rendered reserved inRun inSpacer next? (.branch label nodes) =
      let inside := Node.renderedAll reserved inRun (Node.branch label nodes).isSpacer nodes
      if (Node.branch label nodes).isElement "br" &&
          next?.any fun next => !next.isElement "ul" && !next.isElement "ol" then
        ⟨inside.flags, .lineBreak :: inside.content⟩
      else inside := by
  have hcontainer : ¬ ((Node.branch label nodes).isElement "span" &&
      !(Node.branch label nodes).isSpacer) = true := by
    rw [Bool.and_eq_true, Bool.not_eq_true']
    exact fun h => absurd (hspan h.1) (by rw [h.2]; exact Bool.false_ne_true)
  rw [Node.rendered]
  dsimp only
  rw [if_neg hlink, if_neg hcontainer, hformat]

section Step

variable {d : Document} {owner : SectionId} {context : Context}

theorem applyTo_content_of_kind_ne (h : context.kind ≠ .sectionBlock) (value : Inline) :
    Effect.applyTo owner context d (.content value) = d.push context.slot value.object := by
  cases context with
  | inSection id => exact absurd rfl h
  | _ => exact applyTo_content owner _ d value

theorem openings_of_kind_ne (h : context.kind ≠ .sectionBlock) : context.openings = 0 := by
  cases context with
  | inSection id => exact absurd rfl h
  | _ => rfl

theorem isSpacer_of_not_span (h : ¬ node.isElement "span") : node.isSpacer = false := by
  rw [Node.isSpacer, Bool.eq_false_iff.2 h, Bool.false_and]

/-- What a call gives and leaves, and what is then added for what is inside the node, comes to what
    the node stands for. -/
structure Renders (settings : ConversionSettings) (node : Node) (inSpacer : Bool)
    (next? : Option Node) (context given : Context) (d left : Document) : Prop where
  inParagraph : given.kind ≠ .sectionBlock
  ofText : node.isText → given = context
  insert_eq : (Node.renderedAll settings.reservedSpanClass given.isRun node.isSpacer
      node.children).insert given left =
    (node.rendered settings.reservedSpanClass context.isRun inSpacer next?).insert context d

theorem renders_text (hcontext : context.kind ≠ .sectionBlock) {label : Label}
    {crumbs : List Crumb} {before after : List Node} {content : String} :
    ∃ effect, Role.text.effect ⟨.text content, ⟨label, before, after⟩ :: crumbs⟩ context =
        .ok effect ∧
      Renders settings (.text content)
        (Node.branch label (before.reverse ++ .text content :: after)).isSpacer after.head? context
        (effect.result context d.size) d (effect.applyTo owner context d) := by
  have hcontributes : (Location.mk (.text content)
      (⟨label, before, after⟩ :: crumbs)).contributedText? =
        if hasContent (visibleText content) &&
            !(Node.branch label (before.reverse ++ .text content :: after)).isSpacer then
          some (visibleText content)
        else none := rfl
  have hresult := afterContent_of_kind_ne d.size hcontext
  rw [Role.effect, contribution?_eq_contributedText? rfl, hcontributes]
  cases hadds : hasContent (visibleText content) &&
      !(Node.branch label (before.reverse ++ .text content :: after)).isSpacer with
  | false =>
    refine ⟨.nothing, rfl, hcontext, fun _ => rfl, ?_⟩
    rw [Node.rendered, hadds]
    rfl
  | true =>
    refine ⟨.content (.text (visibleText content)), rfl, ?_, fun _ => hresult, ?_⟩
    · rw [Effect.result, hresult]
      exact hcontext
    · rw [Effect.result, hresult, applyTo_content_of_kind_ne hcontext, Node.rendered, hadds]
      rfl

variable {inSpacer : Bool} {next? : Option Node}

/-- A run that a call begins holds what is inside the node, and takes its flags. -/
theorem renders_run (hcontext : context.kind ≠ .sectionBlock) (htext : ¬ node.isText)
    (hspacer : node.isSpacer = false) {value : TextRun}
    (hrendered : node.rendered settings.reservedSpanClass context.isRun inSpacer next? =
      let inside := Node.renderedAll settings.reservedSpanClass true false node.children
      ⟨[], [.run (inside.flags.foldl .apply value) inside.content]⟩) :
    Renders settings node inSpacer next? context
      ((Effect.content (.run value)).result context d.size) d
      (Effect.applyTo owner context d (.content (.run value))) := by
  refine ⟨nofun, fun h => absurd h htext, ?_⟩
  rw [Effect.result, openings_of_kind_ne hcontext, applyTo_content_of_kind_ne hcontext, hspacer,
    hrendered]
  exact insert_inRun _ context d value

theorem renders_link (hcontext : context.kind ≠ .sectionBlock) {label : Label} {nodes : List Node}
    (hlink : (Node.branch label nodes).isElement "a")
    (hspan : ¬ (Node.branch label nodes).isElement "span") :
    let value : Inline :=
      .hyperlink ⟨((Node.branch label nodes).attr? "href").getD "", .web⟩
    Renders settings (.branch label nodes) inSpacer next? context
      ((Effect.content value).result context d.size) d
      (Effect.applyTo owner context d (.content value)) := by
  refine ⟨nofun, nofun, ?_⟩
  rw [Effect.result, openings_of_kind_ne hcontext, applyTo_content_of_kind_ne hcontext,
    isSpacer_of_not_span hspan, Node.rendered]
  dsimp only
  rw [if_pos hlink]
  exact insert_inHyperlink _ context d _

/-- Outside sections a line break adds its object where what follows is neither the end nor a
    list. -/
theorem lineBreakEffect_of_kind_ne (hcontext : context.kind ≠ .sectionBlock) (node : Node)
    (outer : Label) (crumbs : List Crumb) (before after : List Node) :
    Role.lineBreakEffect ⟨node, ⟨outer, before, after⟩ :: crumbs⟩ context =
      if after.head?.any fun next => !next.isElement "ul" && !next.isElement "ol" then
        .content .lineBreak
      else .nothing := by
  cases after with
  | nil => rfl
  | cons next rest =>
    have hany : ((next :: rest).head?.any fun next =>
        !next.isElement "ul" && !next.isElement "ol") =
          !(next.isElement "ul" || next.isElement "ol") := (Bool.not_or _ _).symm
    rw [hany]
    unfold Role.lineBreakEffect
    dsimp only [Location.nextSibling?]
    by_cases hlist : (next.isElement "ul" || next.isElement "ol") = true
    · rw [if_pos hlist, hlist]
      rfl
    · rw [if_neg hlist, Bool.eq_false_iff.2 hlist]
      cases context with
      | inSection id => exact absurd rfl hcontext
      | _ => rfl

theorem renders_lineBreak (hlive : Live d owner context) (hcontext : context.kind ≠ .sectionBlock)
    {label outer : Label} {nodes before after : List Node} {crumbs : List Crumb}
    (hbreak : (Node.branch label nodes).isElement "br")
    (hlink : ¬ (Node.branch label nodes).isElement "a")
    (hspan : ¬ (Node.branch label nodes).isElement "span")
    (hformat : (Node.branch label nodes).format? = none) :
    let effect := Role.lineBreakEffect ⟨.branch label nodes, ⟨outer, before, after⟩ :: crumbs⟩
      context
    Renders settings (.branch label nodes) inSpacer after.head? context
      (effect.result context d.size) d (effect.applyTo owner context d) := by
  intro effect
  have hplain := rendered_of_plain settings.reservedSpanClass context.isRun inSpacer after.head?
    hlink (fun h => absurd h hspan) hformat
  have hresult := afterContent_of_kind_ne d.size hcontext
  have heffect :=
    lineBreakEffect_of_kind_ne hcontext (.branch label nodes) outer crumbs before after
  change effect = _ at heffect
  rw [hbreak, Bool.true_and] at hplain
  cases hbreaks : after.head?.any fun next => !next.isElement "ul" && !next.isElement "ol" with
  | false =>
    rw [hbreaks] at heffect hplain
    rw [heffect]
    refine ⟨hcontext, nofun, ?_⟩
    rw [hplain]
    rfl
  | true =>
    rw [hbreaks] at heffect hplain
    rw [heffect]
    change Renders settings _ inSpacer _ context (context.afterContent d.size) d _
    rw [hresult, if_pos rfl, applyTo_content_of_kind_ne hcontext]
    refine ⟨hcontext, nofun, ?_⟩
    rw [hplain]
    exact (insert_cons hlive.slot_lt .lineBreak _).symm

/-- A formatting element inside a run sets its flag there, and what is inside it goes on there. -/
theorem renders_flag {id : RunId} {label : Label} {nodes : List Node} {format : TextFormat}
    (hlink : ¬ (Node.branch label nodes).isElement "a")
    (hspan : ¬ (Node.branch label nodes).isElement "span")
    (hformat : (Node.branch label nodes).format? = some format) :
    Renders settings (.branch label nodes) inSpacer next? (.inRun id) (.inRun id) d
      (Effect.applyTo owner (.inRun id) d (.flag format)) := by
  refine ⟨nofun, nofun, ?_⟩
  rw [Node.rendered, isSpacer_of_not_span hspan]
  dsimp only
  rw [if_neg hlink, if_neg (by rw [Bool.eq_false_iff.2 hspan]; exact Bool.false_ne_true), hformat]
  rfl

/-- **Each call, with what is inside its node, adds what the node stands for.** -/
theorem exists_effect_renders (hlive : Live d owner context)
    (hcontext : context.kind ≠ .sectionBlock)
    (hrole : node.role? (usualRole? settings) = some role) (hblock : ¬ role.makesBlock)
    (label : Label) (crumbs : List Crumb) (before after : List Node) :
    ∃ effect, role.effect ⟨node, ⟨label, before, after⟩ :: crumbs⟩ context = .ok effect ∧
      Renders settings node (Node.branch label (before.reverse ++ node :: after)).isSpacer
        after.head? context (effect.result context d.size) d (effect.applyTo owner context d) := by
  cases node with
  | text content =>
    obtain rfl := Option.some.inj ((role?_eq_text.2 rfl).symm.trans hrole)
    exact renders_text hcontext
  | comment content => exact absurd hrole nofun
  | branch inner nodes =>
    obtain ⟨hlink, hspan, hreserved, hbreak, hformat⟩ := elements_of_role? hrole
    have hnotText : ¬ (Node.branch inner nodes).isText := Bool.false_ne_true
    have hnotLink (hne : role ≠ .hyperlink) : ¬ (Node.branch inner nodes).isElement "a" :=
      fun h => hne (hlink.1 h)
    have hnotSpan (hne : ∀ reserved, role ≠ .span reserved) :
        ¬ (Node.branch inner nodes).isElement "span" :=
      fun h => (hspan.1 h).elim hne
    have hnoFormat (hne : ∀ format, role ≠ .formattedText format) :
        (Node.branch inner nodes).format? = none :=
      Option.eq_none_iff_forall_ne_some.2 fun format h => hne format ((hformat format).1 h)
    cases role with
    | formattedText format =>
      have hcontainer : ((Node.branch inner nodes).isElement "span" &&
          !(Node.branch inner nodes).isSpacer) = false := by
        rw [Bool.eq_false_iff.2 (hnotSpan nofun), Bool.false_and]
      have hrun (hnotRun : context.isRun = false) (inSpacer : Bool) :
          Renders settings (.branch inner nodes) inSpacer after.head? context
            ((Effect.content (.run (.ofFormat format))).result context d.size) d
            (Effect.applyTo owner context d (.content (.run (.ofFormat format)))) := by
        refine renders_run hcontext hnotText (isSpacer_of_not_span (hnotSpan nofun)) ?_
        rw [Node.rendered]
        dsimp only
        rw [if_neg (hnotLink nofun), hcontainer, (hformat format).2 rfl, hnotRun]
        rfl
      cases context with
      | inSection id => exact absurd rfl hcontext
      | inRun id =>
        exact ⟨.flag format, rfl,
          renders_flag (hnotLink nofun) (hnotSpan nofun) ((hformat format).2 rfl)⟩
      | inParagraph id => exact ⟨_, rfl, hrun rfl _⟩
      | inHyperlink id => exact ⟨_, rfl, hrun rfl _⟩
    | hyperlink => exact ⟨_, rfl, renders_link hcontext (hlink.2 rfl) (hnotSpan nofun)⟩
    | span reserved =>
      obtain rfl := hreserved reserved rfl
      have hnotBreak : ¬ (Node.branch inner nodes).isElement "br" := fun h => nomatch hbreak.1 h
      cases hspacer : (Node.branch inner nodes).isSpacer with
      | true =>
        refine ⟨.nothing, if_pos hspacer, hcontext, nofun, ?_⟩
        rw [rendered_of_plain _ _ _ _ (hnotLink nofun) (fun _ => hspacer) (hnoFormat nofun),
          Bool.eq_false_iff.2 hnotBreak]
        rfl
      | false =>
        refine ⟨_, if_neg (by rw [hspacer]; exact Bool.false_ne_true),
          renders_run hcontext hnotText hspacer ?_⟩
        rw [Node.rendered]
        dsimp only
        rw [if_neg (hnotLink nofun), hspan.2 ⟨_, rfl⟩, hspacer]
        rfl
    | lineBreak =>
      exact ⟨_, rfl, renders_lineBreak hlive hcontext (hbreak.2 rfl) (hnotLink nofun)
        (hnotSpan nofun) (hnoFormat nofun)⟩
    | text => exact absurd (role?_eq_text.1 hrole) Bool.false_ne_true
    | _ => exact absurd rfl hblock

/-- A node without a handler passes on what is inside it. -/
theorem rendered_of_role?_none (h : node.role? (usualRole? settings) = none)
    (reserved : Option String) (inRun : Bool) :
    node.rendered reserved inRun inSpacer next? =
      Node.renderedAll reserved inRun node.isSpacer node.children := by
  cases node with
  | text content =>
    have htext : (Node.text content).role? (usualRole? settings) = some .text := role?_eq_text.2 rfl
    exact absurd (htext.symm.trans h) nofun
  | comment content => rfl
  | branch inner nodes =>
    obtain ⟨hlink, hspan, hbreak, hformat⟩ := elements_of_role?_none h
    rw [rendered_of_plain _ _ _ _ hlink (fun heq => absurd heq hspan) hformat,
      Bool.eq_false_iff.2 hbreak]
    rfl

end Step

end Calls

/-! ## The walk adds what the markup stands for -/

/-- The place is no block, and has no children if it is too deep. -/
def Location.FitsInline (base limit : Nat) (place : Location) : Prop :=
  ¬ place.node.isBlock ∧ (place.node.hasChildren → place.crumbs.length ≤ base + limit)

/-- A cursor that holds one context, also from a text before it, calls handlers with that. -/
theorem contextAfter_eq {cursor : Cursor} {context : Context} {before : List Node}
    (hcurrent : cursor.current = context)
    (hprevious : ∀ content, before.head? = some (.text content) →
      cursor.previous = some context) : cursor.contextAfter before.head? = context := by
  unfold Cursor.contextAfter
  split
  · next content id htext hgiven =>
    exact Option.some.inj (hgiven.symm.trans (hprevious content htext))
  · exact hcurrent

/-- The first of some siblings and what is inside it fit, and so do the others. -/
theorem fitsInline_cons {base limit depth : Nat} {label : Label} {crumbs : List Crumb}
    {before after : List Node} {node : Node} (hdepth : crumbs.length = base + depth)
    (hfits : ∀ place ∈ Location.belowAll label crumbs before (node :: after),
      place.FitsInline base limit) :
    (⟨label, before, after⟩ :: crumbs).length = base + (depth + 1) ∧ ¬ node.isBlock ∧
      (node.hasChildren → depth + 1 ≤ limit) ∧
      (∀ place ∈ Location.below (⟨label, before, after⟩ :: crumbs) node,
        place.FitsInline base limit) ∧
      (∀ place ∈ Location.belowAll label crumbs (node :: before) after,
        place.FitsInline base limit) := by
  have hlength : (⟨label, before, after⟩ :: crumbs).length = base + (depth + 1) := by
    rw [List.length_cons, hdepth, Nat.add_assoc]
  obtain ⟨hblock, hdeep⟩ := hfits _ List.mem_cons_self
  refine ⟨hlength, hblock, fun h => ?_, fun place hplace => ?_, fun place hplace => ?_⟩
  · have hle : (⟨label, before, after⟩ :: crumbs).length ≤ base + limit := hdeep h
    omega
  · exact hfits place (List.mem_cons_of_mem _ (List.mem_append_left _ hplace))
  · exact hfits place (List.mem_cons_of_mem _ (List.mem_append_right _ hplace))

/-- The parent of some siblings is the same, whichever of them comes next. -/
theorem isSpacer_reverse_cons {label : Label} {before after : List Node} {node : Node}
    {inSpacer : Bool}
    (h : (Node.branch label (before.reverse ++ node :: after)).isSpacer = inSpacer) :
    (Node.branch label ((node :: before).reverse ++ after)).isSpacer = inSpacer := by
  rw [List.reverse_cons, List.append_assoc]
  exact h

section Cons

variable {registry : Registry} {limit depth : Nat} {label : Label} {crumbs : List Crumb}
  {before after : List Node} {cursor : Cursor} {node : Node} {d d₁ d₂ d₃ : Document} {n m : Nat}

/-- A walk over siblings whose first is not handled: what is inside it, and the others. -/
theorem runOn_walkSiblings_of_none (hnone : registry.handler? node = none)
    (hinside : (walkInside registry limit (depth + 1) (⟨label, before, after⟩ :: crumbs)
      cursor.current node).runOn d = (.ok n, d₁))
    (hrest : (walkSiblings registry limit depth label crumbs (node :: before) cursor after).runOn
      d₁ = (.ok m, d₂)) :
    (walkSiblings registry limit depth label crumbs before cursor (node :: after)).runOn d =
      (.ok (n + m), d₂) := by
  rw [walkSiblings, hnone]
  dsimp only
  rw [Edit.runOn_bind, hinside]
  dsimp only
  rw [Edit.runOn_bind, hrest]
  rfl

/-- A walk over siblings whose first is handled: the call, what is inside it, and the others. -/
theorem runOn_walkSiblings_of_some {handler : Handler} {context given : Context}
    (hsome : registry.handler? node = some handler)
    (hcontext : cursor.contextAfter before.head? = context)
    (hcall : (handler ⟨node, ⟨label, before, after⟩ :: crumbs⟩ context).runOn d = (.ok given, d₁))
    (hinside : (walkInside registry limit (depth + 1) (⟨label, before, after⟩ :: crumbs) given
      node).runOn d₁ = (.ok n, d₂))
    (hrest : (walkSiblings registry limit depth label crumbs (node :: before)
      ⟨context, some given⟩ after).runOn d₂ = (.ok m, d₃)) :
    (walkSiblings registry limit depth label crumbs before cursor (node :: after)).runOn d =
      (.ok (1 + n + m), d₃) := by
  rw [walkSiblings, hsome]
  dsimp only
  rw [hcontext, Edit.runOn_bind, hcall]
  dsimp only
  rw [Edit.runOn_bind, hinside]
  dsimp only
  rw [Edit.runOn_bind, hrest]
  rfl

end Cons

section Walk

variable {settings : ConversionSettings} {base limit : Nat} {owner : SectionId}

mutual

theorem walkInside_eq_insert (crumbs : List Crumb) (depth : Nat) (node : Node) (d : Document)
    (context : Context) (hlive : Live d owner context) (hcontext : context.kind ≠ .sectionBlock)
    (hdepth : crumbs.length = base + depth) (hself : node.hasChildren → depth ≤ limit)
    (hfits : ∀ place ∈ Location.below crumbs node, place.FitsInline base limit) :
    ∃ count, (walkInside (.withDefaults settings) limit depth crumbs context node).runOn d =
      (.ok count, (Node.renderedAll settings.reservedSpanClass context.isRun node.isSpacer
        node.children).insert context d) :=
  match node with
  | .text _ => ⟨0, rfl⟩
  | .comment _ => ⟨0, rfl⟩
  | .branch label nodes => by
    rw [walkInside]
    by_cases hnodes : nodes = []
    · rw [hnodes]
      exact ⟨0, rfl⟩
    · have hlimit : depth ≤ limit := hself (by simpa [Node.hasChildren, Node.children] using hnodes)
      rw [if_neg (by rwa [List.isEmpty_iff]), if_neg (by omega)]
      exact walkSiblings_eq_insert label crumbs [] ⟨context, none⟩ depth nodes d _ context hlive
        hcontext hdepth rfl rfl nofun hfits

/-- **Along siblings the walk adds what they stand for**, in the one context that is in force for
    them all: that of the cursor, which a text before them has given too. -/
theorem walkSiblings_eq_insert (label : Label) (crumbs : List Crumb) (before : List Node)
    (cursor : Cursor) (depth : Nat) (nodes : List Node) (d : Document) (inSpacer : Bool)
    (context : Context) (hlive : Live d owner context) (hcontext : context.kind ≠ .sectionBlock)
    (hdepth : crumbs.length = base + depth)
    (hspacer : (Node.branch label (before.reverse ++ nodes)).isSpacer = inSpacer)
    (hcurrent : cursor.current = context)
    (hprevious : ∀ content, before.head? = some (.text content) → cursor.previous = some context)
    (hfits : ∀ place ∈ Location.belowAll label crumbs before nodes, place.FitsInline base limit) :
    ∃ count, (walkSiblings (.withDefaults settings) limit depth label crumbs before cursor
      nodes).runOn d =
        (.ok count, (Node.renderedAll settings.reservedSpanClass context.isRun inSpacer
          nodes).insert context d) :=
  match nodes with
  | [] => ⟨0, rfl⟩
  | node :: after => by
    obtain ⟨hlength, hblock, hself, hinside, hafter⟩ := fitsInline_cons hdepth hfits
    have hspacer' := isSpacer_reverse_cons hspacer
    rw [Node.renderedAll, insert_append hlive.slot_lt]
    cases hrole : node.role? (usualRole? settings) with
    | none =>
      have hpasses : ∀ content, (node :: before).head? = some (.text content) →
          cursor.previous = some context := by
        intro content heq
        obtain rfl := Option.some.inj heq
        exact absurd (hrole.symm.trans (role?_eq_text.2 rfl)) nofun
      obtain ⟨n, hin⟩ := walkInside_eq_insert _ (depth + 1) node d context hlive hcontext hlength
        hself hinside
      rw [← rendered_of_role?_none hrole, ← hcurrent] at hin
      obtain ⟨m, hrest⟩ := walkSiblings_eq_insert label crumbs (node :: before) cursor depth after _
        inSpacer context (hlive.insert _) hcontext hdepth hspacer' hcurrent hpasses hafter
      rw [← hcurrent] at hrest ⊢
      exact ⟨n + m, runOn_walkSiblings_of_none
        ((assembled_withDefaults settings).handler?_of_none hrole) hin hrest⟩
    | some role =>
      have hnotBlock : ¬ role.makesBlock := fun h => hblock ((isBlock_iff_of_role? hrole).2 h)
      obtain ⟨effect, heffect, hgiven, htext, hinsert⟩ :=
        exists_effect_renders hlive hcontext hrole hnotBlock label crumbs before after
      rw [hspacer] at hinsert
      have hnext : ∀ content, (node :: before).head? = some (.text content) →
          some (effect.result context d.size) = some context := by
        intro content heq
        obtain rfl := Option.some.inj heq
        exact congrArg some (htext rfl)
      have hcall : (role.handler ⟨node, ⟨label, before, after⟩ :: crumbs⟩ context).runOn d =
          (.ok (effect.result context d.size), effect.applyTo owner context d) := by
        rw [role.runOn_handler hlive, heffect]
        rfl
      obtain ⟨n, hin⟩ := walkInside_eq_insert _ (depth + 1) node _ _ (hlive.result effect) hgiven
        hlength hself hinside
      rw [hinsert] at hin
      obtain ⟨m, hrest⟩ := walkSiblings_eq_insert label crumbs (node :: before)
        ⟨context, some (effect.result context d.size)⟩ depth after _ inSpacer context
        (hlive.insert _) hcontext hdepth hspacer' rfl hnext hafter
      exact ⟨1 + n + m, runOn_walkSiblings_of_some
        ((assembled_withDefaults settings).handler?_of_some hrole)
        (contextAfter_eq hcurrent hprevious) hcall hin hrest⟩

end

end Walk

end Galley
