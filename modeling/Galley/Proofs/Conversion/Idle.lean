import Galley.Proofs.Conversion.Continuation

/-!
  Places that leave a document alone.

  A place is idle in a context on a document if its handler, if it has one, gives the context back
  and leaves the document as it is. Where a call gave its context back and all that is inside its
  place is idle in that context, the walk goes through it all in that one context
  (`inForce_inside`) and the document stays as it is (`visit_of_idle`), whatever the handlers are.

  The usual handlers only add objects and set flags of runs, so what one call does no other undoes:
  the documents along a walk go up in the order `Document.Under`. A walk that gets through and
  leaves the document it found has therefore met idle places only (`idle_of_visit`).
-/

namespace Galley

/-- The handler of a place, if there is one, gives the context back and leaves the document. -/
def Registry.Idle (registry : Registry) (context : Context) (d : Document) (place : Location) :
    Prop :=
  ∀ handler, registry.handler? place.node = some handler →
    (handler place context).runOn d = (.ok context, d)

/-- The answer for each place of a list that has a handler is `context`. -/
def Settled (registry : Registry) (answers : Answers) (context : Context)
    (places : List Location) : Prop :=
  ∀ place ∈ places, registry.handles place.node → answerAt? answers place = some context

section Inside

variable {registry : Registry} {limit : Nat} {target context : Context} {root : Location}
  {place inner : Location} {answers : Answers} {places : List Location} {d : Document}

theorem answerAt?_cons (place other : Location) (given : Context) :
    answerAt? ((place, given) :: answers) other =
      if place.address = other.address then some given else answerAt? answers other := by
  rw [answerAt?, List.find?_cons]
  dsimp only
  by_cases heq : place.address = other.address
  · rw [decide_eq_true heq, if_pos heq]
    rfl
  · rw [decide_eq_false heq, if_neg heq]
    rfl

theorem Settled.call (h : Settled registry answers context places) (place : Location) :
    Settled registry ((place, context) :: answers) context (places ++ [place]) := by
  intro other hother hhandles
  rw [answerAt?_cons]
  by_cases heq : place.address = other.address
  · rw [if_pos heq]
  · rw [if_neg heq]
    rcases List.mem_append.1 hother with hmem | hmem
    · exact h other hmem hhandles
    · exact absurd (congrArg Location.address (List.mem_singleton.1 hmem).symm) heq

theorem Settled.pass (h : Settled registry answers context places)
    (hnone : registry.handler? place.node = none) :
    Settled registry answers context (places ++ [place]) := by
  intro other hother hhandles
  rcases List.mem_append.1 hother with hmem | hmem
  · exact h other hmem hhandles
  · rw [List.mem_singleton.1 hmem, Registry.handles_of_none hnone] at hhandles
    exact absurd hhandles Bool.false_ne_true

/-- Inside a place that gave its context, and where all before it did, that context is in force. -/
theorem inForce_inside (hplace : root.crumbs.length < place.crumbs.length)
    (hhandles : registry.handles place.node) (hinner : inner ∈ place.descendants)
    (hsettled : ∀ other, other = place ∨ other ∈ place.descendants →
      other.address < inner.address → registry.handles other.node →
      answerAt? answers other = some context) :
    inForce registry target root answers inner = context := by
  induction inner using Location.back_induction with
  | top inner hprevious hparent =>
    obtain ⟨owner, howner, -⟩ := Location.parent?_of_mem_descendants hinner
    rw [hparent] at howner
    exact absurd howner nofun
  | first inner owner hprevious hparent ih =>
    have hlt := Location.address_lt_of_parent? hparent
    obtain ⟨owner', howner, hat⟩ := Location.parent?_of_mem_descendants hinner
    obtain rfl := Option.some.inj (hparent.symm.trans howner)
    have hdeeper : root.crumbs.length < owner.crumbs.length := by
      rcases hat with rfl | hat
      · exact hplace
      · exact Nat.lt_trans hplace (Location.length_crumbs_lt_of_mem_descendants hat)
    rw [inForce_of_first hprevious hparent, startInside, if_neg (address_ne_of_lt hdeeper)]
    by_cases howned : registry.handles owner.node
    · rw [if_pos howned, hsettled owner hat hlt howned]
      rfl
    · rw [if_neg howned]
      rcases hat with rfl | hat
      · exact absurd hhandles howned
      · exact ih hat fun other hother hless =>
          hsettled other hother (List.lt_trans hless hlt)
  | later inner sibling hprevious ih =>
    have hlt := Location.address_lt_of_previousSibling? hprevious
    have hsibling := mem_descendants_of_previousSibling? hinner hprevious
    have hbefore := ih hsibling fun other hother hless =>
      hsettled other hother (List.lt_trans hless hlt)
    rw [inForce_of_previousSibling? hprevious, hbefore]
    have hnearest : ∀ given, nearestAnswer? registry answers inner = some given →
        given = context := by
      intro given hgiven
      obtain ⟨earlier, hfind, hanswer⟩ := Option.bind_eq_some_iff.1 hgiven
      have hearlier := List.mem_of_find?_eq_some hfind
      have hhandled := List.find?_some hfind
      have hmem := Location.mem_descendants_of_parent?_eq hinner
        (Location.parent?_of_mem_earlier (List.mem_cons_of_mem inner hearlier))
      rw [hsettled earlier (.inr hmem) (Location.address_lt_of_mem_earlier hearlier)
        hhandled] at hanswer
      exact (Option.some.inj hanswer).symm
    rw [continued?]
    split
    · cases hanswer : nearestAnswer? registry answers inner with
      | none => rfl
      | some given =>
        obtain rfl := hnearest given hanswer
        cases given <;> rfl
    · rfl

/-- Where a walk is inside a place, the context in force at the next place is the one that all
    before it gave. -/
theorem inForce_next (hplace : root.crumbs.length < place.crumbs.length)
    (hhandles : registry.handles place.node) {done rest : List Location}
    (hsplit : place.descendants = done ++ inner :: rest)
    (hsettled : Settled registry answers context (place :: done)) :
    inForce registry target root answers inner = context := by
  have hinner : inner ∈ place.descendants := by
    rw [hsplit]
    exact List.mem_append_right _ List.mem_cons_self
  refine inForce_inside hplace hhandles hinner fun other hother hlt hhandled => ?_
  rcases hother with rfl | hother
  · exact hsettled other List.mem_cons_self hhandled
  · exact hsettled other (List.mem_cons_of_mem _ (Reaches.mem_of_lt hsplit hother hlt)) hhandled

/-- **A walk over idle places leaves the document**, however it ends. -/
theorem visit_of_idle (hplace : root.crumbs.length < place.crumbs.length)
    (hhandles : registry.handles place.node) {done rest : List Location}
    (hsplit : place.descendants = done ++ rest)
    (hsettled : Settled registry answers context (place :: done))
    (hidle : ∀ inner ∈ rest, registry.Idle context d inner) :
    ((visit registry limit target root answers rest).runOn d).2 = d := by
  induction rest generalizing done answers with
  | nil => rfl
  | cons inner rest ih =>
    have hcontext : inForce registry target root answers inner = context :=
      inForce_next hplace hhandles hsplit hsettled
    have hsplit' : place.descendants = (done ++ [inner]) ++ rest := by
      rw [hsplit, List.append_assoc]
      rfl
    have hrest : ∀ other ∈ rest, registry.Idle context d other :=
      fun other hother => hidle other (List.mem_cons_of_mem _ hother)
    by_cases hlevel : root.levelUnder inner ≤ limit + 1
    · cases hhandler : registry.handler? inner.node with
      | none =>
        rw [visit_cons_of_none rest hlevel hhandler]
        exact ih hsplit' (hsettled.pass hhandler) hrest
      | some handler =>
        have hcall := hidle inner List.mem_cons_self handler hhandler
        rw [visit_cons_of_some rest hlevel hhandler, callInForce, bind_assoc, Edit.runOn_bind]
        dsimp only
        rw [hcontext, hcall]
        exact ih hsplit' (hsettled.call inner) hrest
    · rw [visit_cons_of_tooDeep rest hlevel]
      rfl

end Inside

/-! ## What calls do not undo -/

/-- The formats that turn a flag on. -/
def TextFormat.isOn : TextFormat → Bool
  | .bold | .italic | .underline => true
  | .notBold | .notItalic | .noUnderline => false

namespace TextRun

theorem apply_self (value : TextRun) (format : TextFormat) :
    (value.apply format).apply format = value.apply format := by
  cases format <;> rfl

/-- Turning flags on in one order or the other. -/
theorem apply_comm (value : TextRun) {format other : TextFormat} (hformat : format.isOn)
    (hother : other.isOn) :
    (value.apply format).apply other = (value.apply other).apply format := by
  cases format <;> cases other <;>
    first | rfl | exact absurd hformat Bool.false_ne_true | exact absurd hother Bool.false_ne_true

end TextRun

namespace Document

variable {d d' d'' : Document} {slot parent : Nat} {value : DocumentObject}

/-- All objects stay, and runs keep the flags that are on. -/
structure Under (d d' : Document) : Prop where
  size_le : d.size ≤ d'.size
  flags : ∀ slot value, d.object? slot = some (.run value) →
    ∃ value', d'.object? slot = some (.run value') ∧
      ∀ format : TextFormat, format.isOn → value.apply format = value →
        value'.apply format = value'

theorem Under.refl (d : Document) : d.Under d :=
  ⟨Nat.le_refl _, fun _ value h => ⟨value, h, fun _ _ hon => hon⟩⟩

theorem Under.trans (h : d.Under d') (h' : d'.Under d'') : d.Under d'' := by
  refine ⟨Nat.le_trans h.size_le h'.size_le, fun slot value hobject => ?_⟩
  obtain ⟨value', hobject', hflags⟩ := h.flags slot value hobject
  obtain ⟨value'', hobject'', hflags'⟩ := h'.flags slot value' hobject'
  exact ⟨value'', hobject'', fun format hon hset =>
    hflags' format hon (hflags format hon hset)⟩

theorem under_pushAll (d : Document) (additions : List (Nat × DocumentObject)) :
    d.Under (d.pushAll additions) := by
  refine ⟨?_, fun slot value hobject => ⟨value, object?_pushAll_of_some hobject _, ?_⟩⟩
  · rw [size_pushAll]
    exact Nat.le_add_right _ _
  · exact fun _ _ hset => hset

theorem under_put_run {run : TextRun} {format : TextFormat} (hon : format.isOn)
    (hslot : d.object? slot = some (.run run)) :
    d.Under (d.put slot (.run (run.apply format))) := by
  refine ⟨Nat.le_of_eq size_put.symm, fun other value hobject => ?_⟩
  by_cases heq : other = slot
  · obtain rfl := heq
    obtain rfl : run = value := DocumentObject.run.inj (Option.some.inj (hslot.symm.trans hobject))
    refine ⟨run.apply format, object?_put_self hslot, fun other hother hset => ?_⟩
    rw [run.apply_comm hon hother, hset]
  · exact ⟨value, (object?_put_of_ne heq).trans hobject, fun _ _ hset => hset⟩

/-- Putting back what is there. -/
theorem put_self (h : d.object? slot = some value) : d.put slot value = d := by
  obtain ⟨entries⟩ := d
  unfold put
  congr 1
  refine Array.ext_getElem? fun i => ?_
  rw [Array.getElem?_modify]
  split
  · next heq =>
    obtain ⟨entry, hentry, rfl⟩ := Option.map_eq_some_iff.1 h
    rw [← heq, hentry]
    rfl
  · rfl

end Document

/-! ## What calls of usual handlers do not undo -/

section Usual

variable {settings : ConversionSettings} {limit : Nat} {owner : SectionId}
  {target context : Context} {root place inner : Location} {d₀ d d' : Document}
  {answers : Answers} {places : List Location} {effect : Effect} {role : Role}

/-- A call of a usual handler that sets a flag turns it on. -/
theorem isOn_of_flag {format : TextFormat}
    (hrole : place.node.role? (usualRole? settings) = some role)
    (h : role.effect place context = .ok (.flag format)) : format.isOn := by
  obtain rfl : role = .formattedText format := by
    cases Role.does_of_effect h with
    | flag => rfl
  obtain ⟨key, -, hentry⟩ := mem_usualRoles_of_role? hrole
  simp only [usualRoles, List.mem_cons, Prod.mk.injEq, reduceCtorEq, and_false, false_or,
    Role.formattedText.injEq, List.not_mem_nil, or_false] at hentry
  rcases hentry with ⟨-, rfl⟩ | ⟨-, rfl⟩ | ⟨-, rfl⟩ | ⟨-, rfl⟩ | ⟨-, rfl⟩ <;> rfl

theorem Live.under (h : Live d owner context)
    (hon : ∀ format, effect = .flag format → format.isOn) :
    d.Under (effect.applyTo owner context d) := by
  cases effect with
  | flag format =>
    cases context with
    | inRun id =>
      obtain ⟨value, hobject⟩ := Document.object?_of_kind?_run h.isKind
      rw [applyTo_flag hobject]
      exact Document.under_put_run (hon format rfl) hobject
    | _ => exact .refl d
  | _ => exact Document.under_pushAll d _

/-- A call whose document is nothing more than what it found has done nothing. -/
theorem Live.idle_of_under (h : Live d owner context)
    (hon : ∀ format, effect = .flag format → format.isOn)
    (hback : (effect.applyTo owner context d).Under d) :
    effect.applyTo owner context d = d ∧ effect.result context d.size = context := by
  have hadds : ∀ additions, (d.pushAll additions).Under d → additions = [] := by
    intro additions hunder
    have hle := hunder.size_le
    rw [Document.size_pushAll] at hle
    exact List.length_eq_zero_iff.1 (Nat.le_zero.1 (Nat.le_of_add_le_add_left hle))
  cases effect with
  | nothing => exact ⟨rfl, rfl⟩
  | flag format =>
    cases context with
    | inRun id =>
      obtain ⟨value, hobject⟩ := Document.object?_of_kind?_run h.isKind
      rw [applyTo_flag hobject] at hback ⊢
      obtain ⟨value', hobject', hflags⟩ :=
        hback.flags id.slot _ (Document.object?_put_self hobject)
      obtain rfl : value = value' :=
        DocumentObject.run.inj (Option.some.inj (hobject.symm.trans hobject'))
      rw [hflags format (hon format rfl) (value.apply_self format)]
      exact ⟨Document.put_self hobject, rfl⟩
    | _ => exact ⟨rfl, rfl⟩
  | blocks before value after =>
    have hnil := hadds _ hback
    rw [Effect.additions, List.map_eq_nil_iff] at hnil
    exact absurd hnil (List.append_ne_nil_of_right_ne_nil _ (List.cons_ne_nil _ _))
  | content value =>
    have hnil := hadds _ hback
    rw [Effect.additions] at hnil
    exact absurd hnil (List.append_ne_nil_of_right_ne_nil _ (List.cons_ne_nil _ _))

/-- However a walk goes on, what it leaves is above what it found. -/
theorem Progress.under_of_visit (hlive : Live d₀ owner target) {rest : List Location}
    {outcome : Except ConvertError Answers}
    (hpast : Progress (.withDefaults settings) (usualRole? settings) target root owner d₀ places
      answers d)
    (hvisit : (visit (.withDefaults settings) limit target root answers rest).runOn d =
      (outcome, d')) : d.Under d' := by
  have hassembled := assembled_withDefaults settings
  induction rest generalizing places answers d with
  | nil =>
    obtain ⟨-, rfl⟩ := Prod.mk.inj hvisit
    exact .refl d
  | cons place rest ih =>
    by_cases hlevel : root.levelUnder place ≤ limit + 1
    · cases hrole : place.node.role? (usualRole? settings) with
      | none =>
        rw [visit_cons_of_none rest hlevel (hassembled.handler?_of_none hrole)] at hvisit
        exact ih (hpast.pass place hrole) hvisit
      | some role =>
        have hcontext := (hpast.usable hlive place).live
        rw [runOn_visit_cons hassembled hrole hcontext hlevel] at hvisit
        cases heffect : role.effect place (inForce (.withDefaults settings) target root answers
            place) with
        | error cause =>
          rw [heffect] at hvisit
          obtain ⟨-, rfl⟩ := Prod.mk.inj hvisit
          exact .refl d
        | ok effect =>
          rw [heffect] at hvisit
          have hon : ∀ format, effect = .flag format → format.isOn :=
            fun format heq => isOn_of_flag hrole (heq ▸ heffect)
          exact (hcontext.under hon).trans (ih (hpast.call place hrole heffect) hvisit)
    · rw [visit_cons_of_tooDeep rest hlevel] at hvisit
      obtain ⟨-, rfl⟩ := Prod.mk.inj hvisit
      exact .refl d

/-- **A walk that gets through and leaves the document has met idle places only.** -/
theorem Progress.idle_of_visit (hlive : Live d₀ owner target)
    (hplace : root.crumbs.length < place.crumbs.length)
    (hhandles : (Registry.withDefaults settings).handles place.node) {done rest : List Location}
    (hsplit : place.descendants = done ++ rest)
    (hsettled : Settled (.withDefaults settings) answers context (place :: done))
    (hpast : Progress (.withDefaults settings) (usualRole? settings) target root owner d₀ places
      answers d) {answers' : Answers}
    (hvisit : (visit (.withDefaults settings) limit target root answers rest).runOn d =
      (.ok answers', d)) :
    ∀ inner ∈ rest, (Registry.withDefaults settings).Idle context d inner := by
  have hassembled := assembled_withDefaults settings
  induction rest generalizing done places answers with
  | nil => exact fun inner hinner => absurd hinner List.not_mem_nil
  | cons inner rest ih =>
    have hgiven : inForce (.withDefaults settings) target root answers inner = context :=
      inForce_next hplace hhandles hsplit hsettled
    have hsplit' : place.descendants = (done ++ [inner]) ++ rest := by
      rw [hsplit, List.append_assoc]
      rfl
    have hlevel : root.levelUnder inner ≤ limit + 1 := by
      by_contra hdeep
      rw [visit_cons_of_tooDeep rest hdeep] at hvisit
      exact absurd (Prod.mk.inj hvisit).1 nofun
    cases hrole : inner.node.role? (usualRole? settings) with
    | none =>
      have hnone := hassembled.handler?_of_none hrole
      rw [visit_cons_of_none rest hlevel hnone] at hvisit
      have hrest := ih hsplit' (hsettled.pass hnone) (hpast.pass inner hrole) hvisit
      refine List.forall_mem_cons.2 ⟨fun handler hhandler => ?_, hrest⟩
      exact absurd (hnone.symm.trans hhandler) nofun
    | some role =>
      have hcontext := (hpast.usable hlive inner).live
      rw [runOn_visit_cons hassembled hrole hcontext hlevel] at hvisit
      rw [hgiven] at hcontext hvisit
      cases heffect : role.effect inner context with
      | error cause =>
        rw [heffect] at hvisit
        exact absurd (Prod.mk.inj hvisit).1 nofun
      | ok effect =>
        rw [heffect] at hvisit
        have hpast' := hpast.call inner hrole (hgiven.symm ▸ heffect)
        rw [hgiven] at hpast'
        have hon : ∀ format, effect = .flag format → format.isOn :=
          fun format heq => isOn_of_flag hrole (heq ▸ heffect)
        obtain ⟨hsame, hresult⟩ :=
          hcontext.idle_of_under hon (hpast'.under_of_visit hlive hvisit)
        rw [hsame, hresult] at hpast'
        dsimp only at hvisit
        rw [hsame, hresult] at hvisit
        have hrest := ih hsplit' (hsettled.call inner) hpast' hvisit
        refine List.forall_mem_cons.2 ⟨fun handler hhandler => ?_, hrest⟩
        obtain rfl := Option.some.inj
          ((hassembled.handler?_of_some hrole).symm.trans hhandler)
        rw [role.runOn_handler hcontext, heffect, Effect.perform, hsame, hresult]

end Usual

end Galley
