import Galley.Proofs.Conversion.UsualRoles
import Galley.Proofs.Document.Shown

/-!
  No text and no link of the markup is lost, doubled or altered by the usual converter.

  `Location.contributedText?` and `Node.link?` say, without a walk, which text and which link a
  place of the markup stands for. An insertion that succeeds creates these texts and links in the
  order of the markup, one that fails a first part of them, and all that it creates is shown
  (`insertInto_texts_and_links`).
-/

namespace Galley

def DocumentObject.text? : DocumentObject → Option String
  | .text value => some value
  | _ => none

def DocumentObject.hyperlink? : DocumentObject → Option Hyperlink
  | .hyperlink value => some value
  | _ => none

/-! ## What places stand for -/

/-- Whether a text has more than white space in it. A no-break space is more. -/
def hasContent (text : String) : Bool :=
  text.toList.any fun c => c == noBreakSpace || !Text.isBlank c

/-- The text that a place stands for: that of a text node, without its line ends, if it has content
    and is not what a spacer holds. -/
def Location.contributedText? (place : Location) : Option String :=
  match place.node with
  | .text content =>
    if hasContent (visibleText content) && !place.parent?.any (fun owner => owner.node.isSpacer)
    then some (visibleText content)
    else none
  | _ => none

/-- The link that a node stands for: one for each `a` element. -/
def Node.link? (node : Node) : Option Hyperlink :=
  if node.isElement "a" then some ⟨(node.attr? "href").getD "", .web⟩ else none

/-- The handler of texts adds what the place stands for. -/
theorem contribution?_eq_contributedText? {place : Location} (h : place.node.isText) :
    Role.contribution? place = place.contributedText? := by
  obtain ⟨node, crumbs⟩ := place
  cases node with
  | comment content => exact absurd h Bool.false_ne_true
  | branch label nodes => exact absurd h Bool.false_ne_true
  | text content =>
    have hblank :
        (visibleText content).toList.all isVoidBlank = !hasContent (visibleText content) := by
      unfold hasContent
      rw [List.not_any_eq_all_not]
      congr 1
      funext c
      rw [isVoidBlank, Bool.not_or, Bool.not_not, Bool.and_comm]
      rfl
    have hspacer (owner? : Option Location) :
        (owner?.map fun owner => owner.node.isSpacer).getD false =
          owner?.any fun owner => owner.node.isSpacer := by
      cases owner? <;> rfl
    unfold Role.contribution? Location.contributedText?
    simp only [Node.text?, Option.getD_some, hspacer, hblank]
    cases hasContent (visibleText content) <;>
      cases (Location.mk (.text content) crumbs).parent?.any fun owner => owner.node.isSpacer <;>
        rfl

/-! ## What calls add -/

/-- The inline object that a call adds. -/
def Effect.inline? : Effect → Option Inline
  | .content value => some value
  | _ => none

/-- Where `select` passes over paragraphs, it takes what it takes from the inline object. -/
theorem filterMap_objects {α : Type} {select : DocumentObject → Option α}
    (hselect : ∀ value, select (.paragraph value) = none) (effect : Effect) (context : Context) :
    (effect.objects context).filterMap select =
      (effect.inline?.bind fun value => select value.object).toList := by
  cases effect with
  | nothing => rfl
  | flag format => rfl
  | blocks before value after =>
    rw [Effect.objects, List.filterMap_map]
    exact List.filterMap_eq_nil_iff.2 fun paragraph _ => hselect paragraph
  | content value =>
    cases context with
    | inSection id =>
      rw [Effect.objects, List.filterMap_cons_none (hselect {})]
      cases hvalue : select value.object <;> simp [Effect.inline?, hvalue]
    | _ => cases hvalue : select value.object <;> simp [Effect.objects, Effect.inline?, hvalue]

section Calls

variable {settings : ConversionSettings} {place : Location} {context : Context} {effect : Effect}

/-- Only the handler of texts adds a text, and only that of links a link. -/
theorem inline?_of_effect {role : Role} (h : role.effect place context = .ok effect) :
    (effect.inline?.bind fun value => value.object.text?) =
        (if role = .text then Role.contribution? place else none) ∧
      (effect.inline?.bind fun value => value.object.hyperlink?) =
        (if role = .hyperlink then some ⟨(place.node.attr? "href").getD "", .web⟩ else none) := by
  cases Role.does_of_effect h with
  | noText _ hadded =>
    rw [if_pos rfl, hadded]
    exact ⟨rfl, rfl⟩
  | text _ hadded =>
    rw [if_pos rfl, hadded]
    exact ⟨rfl, rfl⟩
  | _ => exact ⟨rfl, rfl⟩

theorem contributedText?_of_not_isText (h : ¬ place.node.isText) :
    place.contributedText? = none := by
  obtain ⟨node, crumbs⟩ := place
  cases node with
  | text content => exact absurd rfl h
  | _ => rfl

/-- The text that a call adds is that of its place. -/
theorem texts_of_call {role : Role}
    (hrole : place.node.role? (usualRole? settings) = some role)
    (heffect : role.effect place context = .ok effect) :
    (effect.objects context).filterMap DocumentObject.text? = place.contributedText?.toList := by
  rw [filterMap_objects (fun _ => rfl), (inline?_of_effect heffect).1]
  by_cases htext : role = .text
  · rw [if_pos htext, contribution?_eq_contributedText? (role?_eq_text.1 (htext ▸ hrole))]
  · have hnode : ¬ place.node.isText := fun h => htext
      (Option.some.inj (hrole.symm.trans (role?_eq_text.2 h)))
    rw [if_neg htext, contributedText?_of_not_isText hnode]

/-- The link that a call adds is that of its node. -/
theorem links_of_call {role : Role}
    (hrole : place.node.role? (usualRole? settings) = some role)
    (heffect : role.effect place context = .ok effect) :
    (effect.objects context).filterMap DocumentObject.hyperlink? = place.node.link?.toList := by
  rw [filterMap_objects (fun _ => rfl), (inline?_of_effect heffect).2, Node.link?]
  by_cases hlink : role = .hyperlink
  · rw [if_pos hlink, if_pos (role?_eq_hyperlink.1 (hlink ▸ hrole))]
  · have hnode : ¬ place.node.isElement "a" := fun h => hlink
      (Option.some.inj (hrole.symm.trans (role?_eq_hyperlink.2 h)))
    rw [if_neg hlink, if_neg hnode]

end Calls

/-- **No text and no link is lost, doubled or altered.**

    An insertion by the usual converter that succeeds creates, in this order, the texts that the
    places of the markup stand for and one link for each `a` element; one that fails creates a
    first part of each. A view of the document holds the objects of the shown slots, and every
    slot that is new is one of them. -/
theorem insertInto_texts_and_links {settings : ConversionSettings} {root : Location}
    {d d' : Document} (hd : d.Reachable) {target : Target} {context : Context}
    (hresolve : d.resolve target = .ok context) {outcome : Except ConvertError Unit}
    (hinsert : (Conversion.insertInto ⟨.ofSettings settings, root⟩ target).runOn d =
      (outcome, d')) :
    (outcome = .ok () →
        d'.created DocumentObject.text? d.size =
            root.descendants.filterMap Location.contributedText? ∧
          d'.created DocumentObject.hyperlink? d.size =
            root.descendants.filterMap fun place => place.node.link?) ∧
      d'.created DocumentObject.text? d.size <+:
        root.descendants.filterMap Location.contributedText? ∧
      d'.created DocumentObject.hyperlink? d.size <+:
        (root.descendants.filterMap fun place => place.node.link?) ∧
      d'.view.flatMap SectionView.objects = d'.shownSlots.filterMap d'.object? ∧
      (∀ slot, d.size ≤ slot → slot < d'.size → slot ∈ d'.shownSlots) := by
  have hwell := hd.wellFormed
  have hassembled := assembled_withDefaults settings
  have hnoText : ∀ place : Location, place.node.role? (usualRole? settings) = none →
      place.contributedText?.toList = [] := by
    intro place hnone
    have hnode : ¬ place.node.isText := fun h => by
      rw [role?_eq_text.2 h] at hnone
      exact absurd hnone nofun
    rw [contributedText?_of_not_isText hnode, Option.toList_none]
  have hnoLink : ∀ place : Location, place.node.role? (usualRole? settings) = none →
      place.node.link?.toList = [] := by
    intro place hnone
    have hnode : ¬ place.node.isElement "a" := fun h => by
      rw [role?_eq_hyperlink.2 h] at hnone
      exact absurd hnone nofun
    rw [Node.link?, if_neg hnode, Option.toList_none]
  obtain ⟨htexts, htextsPrefix⟩ := insertInto_created hassembled hwell hresolve hinsert
    (fun _ _ => rfl) (fun _ _ _ _ => texts_of_call) hnoText
  obtain ⟨hlinks, hlinksPrefix⟩ := insertInto_created hassembled hwell hresolve hinsert
    (fun _ _ => rfl) (fun _ _ _ _ => links_of_call) hnoLink
  rw [← List.filterMap_eq_flatMap_toList] at htexts htextsPrefix hlinks hlinksPrefix
  obtain ⟨owner, calls, -, hrun, -, -⟩ := insertInto_run hassembled hwell hresolve hinsert
  refine ⟨fun h => ⟨htexts h, hlinks h⟩, htextsPrefix, hlinksPrefix, d'.objects_view, ?_⟩
  intro slot hle hlt
  have hpos := hwell.size_pos
  have hroot : slot ≠ Document.rootSlot := by
    unfold Document.rootSlot
    omega
  exact (hrun.reachable hd).wellFormed.mem_shownSlots hroot hlt

/-- A text that loses its line feed, a link around another one, and a spacer and a blank text that
    add nothing. -/
theorem insertInto_texts_and_links_spacer :
    let d : Document := Document.empty.push 0 .sectionBlock
    let root : Location :=
      ⟨.branch .fragment
        [.text "x\n", .branch (.element "a" [⟨"href", "u"⟩]) [.text "y"],
          .branch (.element "span" []) [.text "\u00a0"], .text " "], []⟩
    ∃ d', d.Reachable ∧
      (Conversion.insertInto ⟨.ofSettings {}, root⟩ (.intoSection ⟨1⟩)).runOn d = (.ok (), d') ∧
      d'.created DocumentObject.text? d.size = ["x", "y"] ∧
      d'.created DocumentObject.hyperlink? d.size = [⟨"u", .web⟩] := by
  intro d root
  have hreachable : d.Reachable := .perform .addSection .empty rfl
  have hinsert :
      (Conversion.insertInto ⟨.ofSettings {}, root⟩ (.intoSection ⟨1⟩)).runOn d =
        (.ok (), (((d.push 1 (.paragraph {})).push 2 (.text "x")).push 2
          (.hyperlink ⟨"u", .web⟩)).push 4 (.text "y")) := by
    decide +kernel
  have htexts : root.descendants.filterMap Location.contributedText? = ["x", "y"] := by
    decide +kernel
  have hlinks : (root.descendants.filterMap fun place => place.node.link?) = [⟨"u", .web⟩] := by
    decide +kernel
  obtain ⟨hcreated, -⟩ := insertInto_texts_and_links hreachable rfl hinsert
  rw [htexts, hlinks] at hcreated
  exact ⟨_, hreachable, hinsert, hcreated rfl⟩

end Galley
