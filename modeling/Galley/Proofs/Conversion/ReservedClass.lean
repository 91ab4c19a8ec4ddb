import Galley.Proofs.Conversion.NearestBlock
import Galley.Proofs.Conversion.OutlineOfMarkup

/-!
  The reserved class of spans has a say in the styles of runs and in nothing else.

  Two converters that differ in it alone are run side by side. Without the styles of what is new
  (`Document.unstyled`) their documents are one: a call does the same up to styles under either
  role (`Role.effect_unreserved`), what it does to a document commutes with taking the styles away
  (`Effect.applyTo_unstyled`), and so both visits end alike (`visit_unstyled`). What either run puts
  in as a style is read off one run alone: each new run has the style of the place that it was added
  for (`spanStyles_of_insertInto`). Both were added for the same place (`AddedFor.of_reserved`),
  so that their styles differ just where the class of a span is reserved by one of the two.
-/

namespace Galley

/-! ## Documents without styles -/

/-- An object without the style of a run. -/
def DocumentObject.unstyled : DocumentObject → DocumentObject
  | run value => run { value with style := none }
  | object => object

theorem DocumentObject.kind_unstyled (object : DocumentObject) :
    object.unstyled.kind = object.kind := by
  cases object <;> rfl

theorem DocumentObject.unstyled_apply (value : TextRun) (format : TextFormat) :
    (run (value.apply format)).unstyled =
      run (TextRun.apply { value with style := none } format) := by
  cases format <;> rfl

namespace Document

/-- The document without the styles of the runs from slot `start` on. -/
def unstyled (start : Nat) (d : Document) : Document :=
  ⟨d.entries.mapIdx fun slot entry =>
    if start ≤ slot then { entry with value := entry.value.unstyled } else entry⟩

variable {start slot parent : Nat} {d e : Document} {value : DocumentObject}

theorem size_unstyled (start : Nat) (d : Document) : (d.unstyled start).size = d.size :=
  Array.size_mapIdx

theorem object?_unstyled : (d.unstyled start).object? slot =
    if start ≤ slot then (d.object? slot).map DocumentObject.unstyled else d.object? slot := by
  simp only [object?, unstyled, Array.getElem?_mapIdx, Option.map_map]
  split <;> rfl

theorem parent?_unstyled : (d.unstyled start).parent? slot = d.parent? slot := by
  simp only [parent?, unstyled, Array.getElem?_mapIdx, Option.bind_map]
  congr 1
  funext entry
  dsimp only [Function.comp]
  split <;> rfl

theorem kind?_unstyled : (d.unstyled start).kind? slot = d.kind? slot := by
  rw [kind?, kind?, object?_unstyled]
  split
  · cases d.object? slot with
    | none => rfl
    | some object => exact congrArg some object.kind_unstyled
  · rfl

/-- Documents with the same objects under the same owners are the same. -/
theorem eq_of_object?_of_parent? (hobject : ∀ slot, d.object? slot = e.object? slot)
    (hparent : ∀ slot, d.parent? slot = e.parent? slot) : d = e := by
  refine congrArg Document.mk (Array.ext_getElem? fun slot => ?_)
  have hvalue := hobject slot
  have howner := hparent slot
  rw [object?, object?] at hvalue
  rw [parent?, parent?] at howner
  cases hd : d.entries[slot]? with
  | none =>
    cases he : e.entries[slot]? with
    | none => rfl
    | some entry =>
      rw [hd, he] at hvalue
      cases hvalue
  | some entry =>
    cases he : e.entries[slot]? with
    | none =>
      rw [hd, he] at hvalue
      cases hvalue
    | some entry' =>
      rw [hd, he] at hvalue howner
      obtain ⟨value, owner⟩ := entry
      obtain ⟨value', owner'⟩ := entry'
      obtain rfl : value = value' := Option.some.inj hvalue
      obtain rfl : owner = owner' := howner
      rfl

theorem unstyled_push (h : start ≤ d.size) :
    (d.push parent value).unstyled start = (d.unstyled start).push parent value.unstyled := by
  refine eq_of_object?_of_parent? (fun slot => ?_) fun slot => ?_
  · rw [object?_unstyled, object?_push, object?_push, size_unstyled, object?_unstyled]
    by_cases hslot : slot = d.size
    · rw [if_pos hslot, if_pos hslot, if_pos (hslot ▸ h)]
      rfl
    · rw [if_neg hslot, if_neg hslot]
  · rw [parent?_unstyled, parent?_push, parent?_push, size_unstyled, parent?_unstyled]

theorem unstyled_pushAll (h : start ≤ d.size) (additions : List (Nat × DocumentObject)) :
    (d.pushAll additions).unstyled start =
      (d.unstyled start).pushAll
        (additions.map fun addition => (addition.1, addition.2.unstyled)) := by
  induction additions generalizing d with
  | nil => rfl
  | cons addition additions ih =>
    rw [pushAll_cons, List.map_cons, pushAll_cons, ← unstyled_push h]
    refine ih ?_
    rw [size_push]
    omega

theorem unstyled_put (h : start ≤ slot) :
    (d.put slot value).unstyled start = (d.unstyled start).put slot value.unstyled := by
  refine eq_of_object?_of_parent? (fun other => ?_) fun other => ?_
  · rw [object?_unstyled, object?_put, object?_put, object?_unstyled]
    by_cases hother : other = slot
    · rw [if_pos hother, if_pos hother, hother, if_pos h, if_pos h, Option.map_map, Option.map_map]
      rfl
    · rw [if_neg hother, if_neg hother]
  · rw [parent?_unstyled, parent?_put, parent?_put, parent?_unstyled]

/-! Documents that are the same without styles have the same shape. -/

theorem size_eq_of_unstyled (h : d.unstyled start = e.unstyled start) : d.size = e.size := by
  rw [← size_unstyled start d, h, size_unstyled]

theorem keepsShape_of_unstyled (h : d.unstyled start = e.unstyled start) : d.KeepsShape e where
  kind?_eq := fun slot kind hkind => by
    rw [← kind?_unstyled, ← h, kind?_unstyled, hkind]
  parent?_eq := fun slot owner hparent => by
    rw [← parent?_unstyled, ← h, parent?_unstyled, hparent]

end Document

/-! ## Calls without styles -/

def Inline.unstyled : Inline → Inline
  | run value => run { value with style := none }
  | inline => inline

namespace Effect

/-- An effect without the style of a run that is added. -/
def unstyled : Effect → Effect
  | content value => content value.unstyled
  | effect => effect

variable {context : Context} {owner : SectionId}

theorem result_unstyled (effect : Effect) (next : Nat) :
    effect.unstyled.result context next = effect.result context next := by
  cases effect with
  | content value => cases value <;> rfl
  | _ => rfl

theorem additions_unstyled (effect : Effect) (next : Nat) :
    effect.unstyled.additions owner context next =
      (effect.additions owner context next).map fun addition =>
        (addition.1, addition.2.unstyled) := by
  cases effect with
  | nothing => rfl
  | flag format => rfl
  | blocks before value after =>
    have hsame : (blocks before value after).unstyled = blocks before value after := rfl
    rw [hsame, additions, List.map_map]
    rfl
  | content value => cases context <;> cases value <;> rfl

/-- What a call does commutes with taking the styles away, where the run that is open is new. -/
theorem applyTo_unstyled {start : Nat} {d : Document} (hlive : Live d owner context)
    (hstart : start ≤ d.size) (hrun : ∀ id, context = .inRun id → start ≤ id.slot)
    (effect : Effect) :
    (effect.applyTo owner context d).unstyled start =
      effect.unstyled.applyTo owner context (d.unstyled start) := by
  have hpush : (d.pushAll (effect.additions owner context d.size)).unstyled start =
      (d.unstyled start).pushAll
        (effect.unstyled.additions owner context (d.unstyled start).size) := by
    rw [Document.unstyled_pushAll hstart, Document.size_unstyled, additions_unstyled]
  cases effect with
  | flag format =>
    cases context with
    | inRun id =>
      obtain ⟨value, hobject⟩ : ∃ value, d.object? id.slot = some (.run value) :=
        Document.object?_of_kind?_run hlive.isKind
      have hle : start ≤ id.slot := hrun id rfl
      have hunstyled : (d.unstyled start).object? id.slot =
          some (.run { value with style := none }) := by
        rw [Document.object?_unstyled, if_pos hle, hobject]
        rfl
      have hsame : (flag format).unstyled = flag format := rfl
      rw [hsame, applyTo_flag hobject, applyTo_flag hunstyled, Document.unstyled_put hle,
        DocumentObject.unstyled_apply]
    | _ => exact hpush
  | _ => exact hpush

end Effect

/-- A role that reserves no class. -/
def Role.unreserved : Role → Role
  | span _ => span none
  | role => role

/-- What a class is reserved for makes no difference but in styles. -/
theorem Role.effect_unreserved (role : Role) (place : Location) (context : Context) :
    (role.unreserved.effect place context).map Effect.unstyled =
      (role.effect place context).map Effect.unstyled := by
  cases role with
  | span reserved =>
    unfold unreserved effect
    dsimp only
    split <;> rfl
  | _ => rfl

theorem roleIn?_map (f : Role → Role) (entries : List (TagKey × Role)) (key : TagKey) :
    roleIn? (entries.map fun entry => (entry.1, f entry.2)) key = (roleIn? entries key).map f := by
  rw [roleIn?, roleIn?, List.find?_map, Option.map_map, Option.map_map]
  rfl

section Registries

variable (settings settings' : ConversionSettings)

/-- The tables of two converters differ in what they reserve alone. -/
theorem usualRole?_unreserved (key : TagKey) :
    (usualRole? settings key).map Role.unreserved =
      (usualRole? settings' key).map Role.unreserved := by
  rw [usualRole?, usualRole?, ← roleIn?_map, ← roleIn?_map]
  rfl

theorem role?_unreserved (node : Node) :
    (node.role? (usualRole? settings)).map Role.unreserved =
      (node.role? (usualRole? settings')).map Role.unreserved := by
  unfold Node.role?
  cases node.key? with
  | none => rfl
  | some key => exact usualRole?_unreserved settings settings' key

theorem handles_withDefaults (node : Node) :
    (Registry.withDefaults settings).handles node =
      (Registry.withDefaults settings').handles node := by
  have hroles := congrArg Option.isSome (role?_unreserved settings settings' node)
  rw [Option.isSome_map, Option.isSome_map] at hroles
  rw [Registry.handles, Registry.handles, (assembled_withDefaults settings).handler?,
    (assembled_withDefaults settings').handler?, Option.isSome_map, Option.isSome_map, hroles]

end Registries

/-- The context in force depends on a registry by which nodes it handles. -/
theorem inForce_congr {registry registry' : Registry} {target : Context} {root : Location}
    {answers : Answers} (h : ∀ node, registry.handles node = registry'.handles node)
    (place : Location) :
    inForce registry target root answers place = inForce registry' target root answers place := by
  have hhandles : registry.handles = registry'.handles := funext h
  have hnearest (place : Location) :
      nearestAnswer? registry answers place = nearestAnswer? registry' answers place := by
    rw [nearestAnswer?, nearestAnswer?, hhandles]
  induction place using Location.back_induction with
  | top place hprevious hparent =>
    rw [inForce_of_top hprevious hparent, inForce_of_top hprevious hparent]
  | first place owner hprevious hparent ih =>
    rw [inForce_of_first hprevious hparent, inForce_of_first hprevious hparent, startInside,
      startInside, hhandles, ih]
  | later place sibling hprevious ih =>
    rw [inForce_of_previousSibling? hprevious, inForce_of_previousSibling? hprevious, continued?,
      continued?, hhandles, hnearest, ih]

/-! ## Two visits -/

section Visit

variable {settings settings' : ConversionSettings} {limit : Nat} {owner : SectionId}
  {target : Context} {root : Location} {d₀ d e : Document} {place : Location} {answers : Answers}

theorem Live.of_unstyled {start : Nat} {context : Context} (h : Live d owner context)
    (heq : d.unstyled start = e.unstyled start) : Live e owner context :=
  h.of_keepsShape (Document.keepsShape_of_unstyled heq)

/-- Two converters have handlers for the same nodes, which fail alike and do the same but for
    styles. -/
theorem exists_role_of_reserved {node : Node} {role : Role}
    (hrole : node.role? (usualRole? settings) = some role) (settings' : ConversionSettings) :
    ∃ role', node.role? (usualRole? settings') = some role' ∧ ∀ place context,
      (∀ cause, role.effect place context = .error cause →
        role'.effect place context = .error cause) ∧
      ∀ effect, role.effect place context = .ok effect →
        ∃ effect', role'.effect place context = .ok effect' ∧
          effect'.unstyled = effect.unstyled := by
  have hroles := role?_unreserved settings' settings node
  rw [hrole] at hroles
  obtain ⟨role', hrole', hunreserved⟩ := Option.map_eq_some_iff.1 hroles
  refine ⟨role', hrole', fun place context => ?_⟩
  have hsame : (role'.effect place context).map Effect.unstyled =
      (role.effect place context).map Effect.unstyled := by
    rw [← role'.effect_unreserved, hunreserved, role.effect_unreserved]
  cases heffect' : role'.effect place context with
  | error cause' =>
    rw [heffect'] at hsame
    refine ⟨fun cause hcause => ?_, fun effect heffect => ?_⟩
    · rw [hcause] at hsame
      exact congrArg Except.error (Except.error.inj hsame)
    · rw [heffect] at hsame
      exact absurd hsame nofun
  | ok effect' =>
    rw [heffect'] at hsame
    refine ⟨fun cause hcause => ?_, fun effect heffect => ⟨effect', rfl, ?_⟩⟩
    · rw [hcause] at hsame
      exact absurd hsame nofun
    · rw [heffect] at hsame
      exact Except.ok.inj hsame

/-- A call in documents that are the same without styles, with effects that are. -/
theorem unstyled_applyTo_eq {start : Nat} {context : Context} (hlive : Live d owner context)
    (hstart : start ≤ d.size) (hrun : ∀ id, context = .inRun id → start ≤ id.slot)
    (h : d.unstyled start = e.unstyled start) {effect effect' : Effect}
    (heffect : effect'.unstyled = effect.unstyled) :
    (effect.applyTo owner context d).unstyled start =
      (effect'.applyTo owner context e).unstyled start := by
  have hlive' := hlive.of_unstyled h
  have hstart' : start ≤ e.size := Document.size_eq_of_unstyled h ▸ hstart
  rw [effect'.applyTo_unstyled hlive' hstart' hrun, heffect, ← h,
    ← effect.applyTo_unstyled hlive hstart hrun]

/-- **Two converters that reserve different classes visit alike.** They end in the same way, and
    without the styles of what is new they leave the same document. -/
theorem visit_unstyled (hlive : Live d₀ owner target) (htarget : ∀ id, target ≠ .inRun id)
    (settings' : ConversionSettings) {places : List Location} (rest : List Location)
    (hpast : Progress (.withDefaults settings) (usualRole? settings) target root owner d₀ places
      answers d)
    (h : d.unstyled d₀.size = e.unstyled d₀.size) :
    ∃ outcome d' e',
      (visit (.withDefaults settings) limit target root answers rest).runOn d = (outcome, d') ∧
      (visit (.withDefaults settings') limit target root answers rest).runOn e = (outcome, e') ∧
      d'.unstyled d₀.size = e'.unstyled d₀.size := by
  have hassembled := assembled_withDefaults settings
  have hassembled' := assembled_withDefaults settings'
  -- Both have the same answers, since what a call gives does not depend on styles.
  induction rest generalizing places answers d e with
  | nil => exact ⟨_, d, e, rfl, rfl, h⟩
  | cons place rest ih =>
    by_cases hlevel : root.levelUnder place ≤ limit + 1
    · cases hrole : place.node.role? (usualRole? settings) with
      | none =>
        have hroles := role?_unreserved settings settings' place.node
        rw [hrole] at hroles
        have hrole' := Option.map_eq_none_iff.1 hroles.symm
        rw [visit_cons_of_none rest hlevel (hassembled.handler?_of_none hrole),
          visit_cons_of_none rest hlevel (hassembled'.handler?_of_none hrole')]
        exact ih (hpast.pass place hrole) h
      | some role =>
        obtain ⟨role', hrole', heffects⟩ := exists_role_of_reserved hrole settings'
        have husable := hpast.usable hlive place
        have hsame := @inForce_congr _ _ target root answers
          (handles_withDefaults settings' settings) place
        have hlive' := husable.live.of_unstyled h
        rw [← hsame] at hlive'
        obtain ⟨herror, hok⟩ :=
          heffects place (inForce (.withDefaults settings) target root answers place)
        rw [runOn_visit_cons hassembled hrole husable.live hlevel,
          runOn_visit_cons hassembled' hrole' hlive' hlevel, hsame]
        cases heffect : role.effect place
            (inForce (.withDefaults settings) target root answers place) with
        | error cause =>
          rw [herror cause heffect]
          exact ⟨_, d, e, rfl, rfl, h⟩
        | ok effect =>
          obtain ⟨effect', heffect', halike⟩ := hok effect heffect
          rw [heffect']
          dsimp only
          rw [← effect'.result_unstyled, halike, effect.result_unstyled,
            ← Document.size_eq_of_unstyled h]
          refine ih (hpast.call place hrole heffect) ?_
          refine unstyled_applyTo_eq husable.live (hpast.keepsShape hlive).size_le ?_ h halike
          intro id hid
          rw [hid] at husable
          exact husable.size_le_of_inRun htarget
    · rw [visit_cons_of_tooDeep rest hlevel, visit_cons_of_tooDeep rest hlevel]
      exact ⟨_, d, e, rfl, rfl, h⟩

/-- What is added for a place is added for it whatever class is reserved. -/
theorem AddedFor.of_reserved (hlive : Live d₀ owner target) (htarget : ∀ id, target ≠ .inRun id)
    {slot : Nat} (h : AddedFor (.withDefaults settings) limit target root d₀ place slot)
    (settings' : ConversionSettings) :
    AddedFor (.withDefaults settings') limit target root d₀ place slot := by
  obtain ⟨answers, d, role, effect, hreach, hrole, heffect⟩ := h.exists_effect hlive
  have hadded := (addedFor_iff hlive hreach hrole heffect).1 h
  obtain ⟨role', hrole', heffects⟩ := exists_role_of_reserved hrole settings'
  obtain ⟨effect', heffect', halike⟩ := (heffects place _).2 effect heffect
  obtain ⟨done, hpast⟩ := hreach.exists_progress (assembled_withDefaults settings) hlive
  have husable := hpast.usable hlive place
  have hle := (hpast.keepsShape hlive).size_le
  have hrun (id : RunId) (hid : inForce (.withDefaults settings) target root answers place =
      .inRun id) : d₀.size ≤ id.slot := by
    rw [hid] at husable
    exact husable.size_le_of_inRun htarget
  obtain ⟨before, after, hsplit, hlevel, hvisit⟩ := hreach
  obtain ⟨outcome, d', e, hfirst, hsecond, hunstyled⟩ :=
    @visit_unstyled settings limit _ _ root _ _ _ _ hlive htarget settings' _ before .start rfl
  obtain ⟨rfl, rfl⟩ := Prod.mk.inj (hvisit.symm.trans hfirst)
  have hreach' : Reaches (.withDefaults settings') limit target root d₀ place answers e :=
    ⟨before, after, hsplit, hlevel, hsecond⟩
  have hsizes := Document.size_eq_of_unstyled
    (unstyled_applyTo_eq husable.live hle hrun hunstyled halike)
  rw [inForce_congr (handles_withDefaults settings settings')] at heffect' hsizes hadded
  refine (addedFor_iff hlive hreach' hrole' heffect').2 ?_
  rw [← hsizes, ← Document.size_eq_of_unstyled hunstyled]
  exact hadded

end Visit

/-! ## The styles of new runs -/

section Styles

variable {settings : ConversionSettings} {limit : Nat} {owner : SectionId} {target : Context}
  {root : Location} {d₀ d : Document} {place : Location} {answers : Answers} {role : Role}
  {effect : Effect} {context : Context} {value : TextRun} {slot : Nat}

/-- A run that a call adds has the style that its place gives. -/
theorem style_of_mem_objects (hrole : place.node.role? (usualRole? settings) = some role)
    (heffect : role.effect place context = .ok effect)
    (hmem : DocumentObject.run value ∈ effect.objects context) :
    value.style = place.spanStyle? settings.reservedSpanClass := by
  rw [effect.objects_eq, List.mem_append] at hmem
  rcases hmem with hmem | hmem
  · obtain ⟨paragraph, -, heq⟩ := List.mem_map.1 hmem
    exact absurd heq nofun
  · obtain ⟨inline, hinline, hobject⟩ := Option.map_eq_some_iff.1 (Option.mem_toList.1 hmem)
    rw [← style?_of_call hrole heffect, hinline, Option.bind_some, hobject]
    rfl

namespace Live

/-- What stands in a new slot after a call is an object of its effect. -/
theorem mem_objects_of_applyTo (h : Live d owner context) (effect : Effect)
    {object : DocumentObject} (hslot : d.size ≤ slot)
    (hobject : (effect.applyTo owner context d).object? slot = some object) :
    object ∈ effect.objects context := by
  rcases h.applyTo_cases effect with ⟨id, before, format, -, -, -, heq⟩ | heq
  · rw [heq] at hobject
    have hlt := Document.lt_size_of_object? hobject
    rw [Document.size_put] at hlt
    exact absurd hlt (Nat.not_lt.2 hslot)
  · obtain ⟨index, rfl⟩ := Nat.exists_eq_add_of_le hslot
    rw [heq, Document.object?_pushAll_add] at hobject
    obtain ⟨addition, haddition, rfl⟩ := Option.map_eq_some_iff.1 hobject
    rw [← effect.additions_map_snd owner context d.size]
    exact List.mem_map.2 ⟨addition, List.mem_of_getElem? haddition, rfl⟩

/-- A run that was there before a call keeps its style. -/
theorem exists_run_of_applyTo (h : Live d owner context) (effect : Effect) (hslot : slot < d.size)
    (hobject : (effect.applyTo owner context d).object? slot = some (.run value)) :
    ∃ before : TextRun, d.object? slot = some (.run before) ∧ before.style = value.style := by
  rcases h.applyTo_cases effect with ⟨id, before, format, -, hbefore, -, heq⟩ | heq
  · rw [heq] at hobject
    by_cases hid : slot = id.slot
    · rw [hid, Document.object?_put, if_pos rfl, hbefore] at hobject
      obtain rfl := DocumentObject.run.inj (Option.some.inj hobject)
      exact ⟨before, hid ▸ hbefore, (before.style_apply format).symm⟩
    · rw [Document.object?_put_of_ne hid] at hobject
      exact ⟨value, hobject, rfl⟩
  · obtain ⟨before, hbefore⟩ := Document.object?_of_lt_size hslot
    rw [heq, Document.object?_pushAll_of_some hbefore] at hobject
    exact ⟨value, hbefore.trans hobject, rfl⟩

end Live

/-- Every new run has the style that the place gives which it was added for. -/
def SpanStyles (settings : ConversionSettings) (limit : Nat) (target : Context) (root : Location)
    (d₀ d : Document) : Prop :=
  ∀ slot value, d₀.size ≤ slot → d.object? slot = some (.run value) →
    ∃ place, AddedFor (.withDefaults settings) limit target root d₀ place slot ∧
      value.style = place.spanStyle? settings.reservedSpanClass

theorem SpanStyles.call (h : SpanStyles settings limit target root d₀ d)
    (hlive : Live d₀ owner target)
    (hreach : Reaches (.withDefaults settings) limit target root d₀ place answers d)
    (hrole : place.node.role? (usualRole? settings) = some role)
    (heffect : role.effect place (inForce (.withDefaults settings) target root answers place) =
      .ok effect) :
    SpanStyles settings limit target root d₀ (effect.applyTo owner
      (inForce (.withDefaults settings) target root answers place) d) := by
  intro slot value hle hobject
  have hcontext := hreach.live (assembled_withDefaults settings) hlive place
  by_cases hslot : slot < d.size
  · obtain ⟨before, hbefore, hstyle⟩ := hcontext.exists_run_of_applyTo effect hslot hobject
    rw [← hstyle]
    exact h slot before hle hbefore
  · have hnew := Nat.not_lt.1 hslot
    refine ⟨place, ?_, ?_⟩
    · exact (addedFor_iff hlive hreach hrole heffect).2
        ⟨hnew, Document.lt_size_of_object? hobject⟩
    · exact style_of_mem_objects hrole heffect (hcontext.mem_objects_of_applyTo effect hnew hobject)

end Styles

theorem Handler.spanStyle_of_empty {node : Node} (h : (node.attr? "class").getD "" = "")
    (reserved : Option String) : spanStyle node reserved = none := by
  unfold spanStyle
  cases hclass : node.attr? "class" with
  | none => rfl
  | some name =>
    rw [hclass] at h
    obtain rfl : name = "" := h
    rfl

theorem Handler.spanStyle_of_class {node : Node} {name : String}
    (hclass : node.attr? "class" = some name) (hname : name ≠ "") (reserved : Option String) :
    spanStyle node reserved = if reserved = some name then none else some name := by
  rw [spanStyle, hclass, Option.filter_some]
  by_cases hreserved : reserved = some name
  · simp [hreserved]
  · simp [hreserved, hname, Ne.symm hreserved]

/-- The styles that a place gives under two reserved classes differ where it is a span whose class
    is one of the two. -/
theorem Location.spanStyle?_ne {place : Location} {reserved reserved' : Option String}
    (h : place.spanStyle? reserved ≠ place.spanStyle? reserved') :
    place.node.isElement "span" ∧ ∃ name, place.node.attr? "class" = some name ∧ name ≠ "" ∧
      ((reserved = some name ∧ place.spanStyle? reserved = none ∧
          place.spanStyle? reserved' = some name) ∨
        (reserved' = some name ∧ place.spanStyle? reserved' = none ∧
          place.spanStyle? reserved = some name)) := by
  unfold spanStyle? at h ⊢
  split at h
  · next hspan =>
    rw [if_pos hspan, if_pos hspan]
    refine ⟨(Bool.and_eq_true_iff.1 hspan).1, ?_⟩
    by_cases hempty : (place.node.attr? "class").getD "" = ""
    · rw [Handler.spanStyle_of_empty hempty, Handler.spanStyle_of_empty hempty] at h
      exact absurd rfl h
    · obtain ⟨name, hclass⟩ : ∃ name, place.node.attr? "class" = some name := by
        refine Option.ne_none_iff_exists'.1 fun hnone => hempty ?_
        rw [hnone]
        rfl
      have hname : name ≠ "" := fun heq => hempty (by rw [hclass]; exact heq)
      rw [Handler.spanStyle_of_class hclass hname, Handler.spanStyle_of_class hclass hname] at h ⊢
      refine ⟨name, hclass, hname, ?_⟩
      by_cases hreserved : reserved = some name
      · by_cases hreserved' : reserved' = some name
        · exact absurd (by rw [if_pos hreserved, if_pos hreserved']) h
        · exact .inl ⟨hreserved, if_pos hreserved, if_neg hreserved'⟩
      · by_cases hreserved' : reserved' = some name
        · exact .inr ⟨hreserved', if_pos hreserved', if_neg hreserved⟩
        · exact absurd (by rw [if_neg hreserved, if_neg hreserved']) h
  · exact absurd rfl h

/-! ## Two insertions -/

/-- The styles of the runs that an insertion adds are those of the places that they were added for,
    however it ends. -/
theorem spanStyles_of_insertInto {settings : ConversionSettings} {root : Location}
    {d d' : Document} {owner : SectionId} {target : Target}
    (hlive : Live d owner target.context) (hresolve : d.resolve target = .ok target.context)
    {outcome : Except ConvertError Unit}
    (hinsert : (Conversion.insertInto ⟨.ofSettings settings, root⟩ target).runOn d =
      (outcome, d')) : SpanStyles settings settings.maxDepth target.context root d d' := by
  have hnone : SpanStyles settings settings.maxDepth target.context root d d := by
    intro slot value hle hobject
    exact absurd (Document.lt_size_of_object? hobject) (Nat.not_lt.2 hle)
  have hlast : ((visit (.withDefaults settings) settings.maxDepth target.context root []
      root.descendants).runOn d).2 = d' := by
    rw [← Edit.runOn_map_snd fun _ => ()]
    exact congrArg Prod.snd ((runOn_insertInto hresolve).symm.trans hinsert)
  have hsplit : root.descendants = [] ++ root.descendants := rfl
  refine holds_of_visit (assembled_withDefaults settings) hlive ?_ hsplit rfl hnone
    (Prod.ext rfl hlast)
  exact fun _ _ _ _ _ hreach hrole heffect h => h.call hlive hreach hrole heffect

/-- **The reserved class of spans has a say in the styles of runs alone.**

    Two converters with the usual handlers that differ in it end alike on any markup, and without
    the styles of the runs that they add they leave the same document. A run whose style is not the
    same in both is new, and was added by both for a span whose class is reserved by one of them:
    this one gives it no style, and the other the class as it stands. -/
theorem insertInto_reserved_class {settings settings' : ConversionSettings}
    (hdepth : settings.maxDepth = settings'.maxDepth) (root : Location) {d : Document}
    (hd : d.Reachable) (target : Target) :
    let first := (Conversion.insertInto ⟨.ofSettings settings, root⟩ target).runOn d
    let second := (Conversion.insertInto ⟨.ofSettings settings', root⟩ target).runOn d
    let added (settings : ConversionSettings) :=
      AddedFor (.withDefaults settings) settings.maxDepth target.context root d
    first.1 = second.1 ∧ first.2.unstyled d.size = second.2.unstyled d.size ∧
      ∀ slot value value', first.2.object? slot = some (.run value) →
        second.2.object? slot = some (.run value') → value.style ≠ value'.style →
        d.size ≤ slot ∧ ∃ place ∈ root.descendants, ∃ name,
          added settings place slot ∧ added settings' place slot ∧
          place.node.isElement "span" ∧ place.node.attr? "class" = some name ∧ name ≠ "" ∧
          ((settings.reservedSpanClass = some name ∧ value.style = none ∧
              value'.style = some name) ∨
            (settings'.reservedSpanClass = some name ∧ value'.style = none ∧
              value.style = some name)) := by
  intro first second added
  cases hresolve : d.resolve target with
  | error cause =>
    have hfirst : first = (.error (.document cause), d) := runOn_insertInto_of_refused hresolve
    have hsecond : second = (.error (.document cause), d) := runOn_insertInto_of_refused hresolve
    rw [hfirst, hsecond]
    refine ⟨rfl, rfl, fun slot value value' hobject hobject' hne => absurd ?_ hne⟩
    rw [DocumentObject.run.inj (Option.some.inj (hobject.symm.trans hobject'))]
  | ok context =>
    obtain ⟨rfl, owner, hlive⟩ := live_of_resolve hd.wellFormed hresolve
    have htarget := target.context_ne_inRun
    obtain ⟨outcome, d', e', hvisit, hvisit', hunstyled⟩ :
        ∃ outcome d' e', (visit (.withDefaults settings) settings.maxDepth target.context root []
            root.descendants).runOn d = (outcome, d') ∧
          (visit (.withDefaults settings') settings.maxDepth target.context root []
            root.descendants).runOn d = (outcome, e') ∧
          d'.unstyled d.size = e'.unstyled d.size :=
      visit_unstyled hlive htarget settings' root.descendants .start rfl
    have hfirst : first = (outcome.map fun _ => (), d') := by
      refine (runOn_insertInto hresolve).trans ((Edit.runOn_map _ _ _).trans ?_)
      dsimp only [Converter.ofSettings]
      rw [hvisit]
      cases outcome <;> rfl
    have hsecond : second = (outcome.map fun _ => (), e') := by
      refine (runOn_insertInto hresolve).trans ((Edit.runOn_map _ _ _).trans ?_)
      dsimp only [Converter.ofSettings]
      rw [← hdepth, hvisit']
      cases outcome <;> rfl
    have hstyles := spanStyles_of_insertInto hlive hresolve hfirst
    have hstyles' := spanStyles_of_insertInto hlive hresolve hsecond
    rw [hfirst, hsecond]
    refine ⟨rfl, hunstyled, fun slot value value' hobject hobject' hne => ?_⟩
    -- What was there has its style in both.
    have hnew : d.size ≤ slot := by
      by_contra hold
      have hsame := congrArg (Document.object? · slot) hunstyled
      simp only [Document.object?_unstyled, if_neg hold] at hsame
      rw [hobject, hobject'] at hsame
      exact hne (congrArg TextRun.style (DocumentObject.run.inj (Option.some.inj hsame)))
    obtain ⟨place, hadded, hstyle⟩ := hstyles slot value hnew hobject
    obtain ⟨other, hadded', hstyle'⟩ := hstyles' slot value' hnew hobject'
    have hboth := hadded.of_reserved hlive htarget settings'
    rw [hdepth] at hboth
    obtain rfl := hboth.unique hlive hadded'
    rw [hstyle, hstyle'] at hne ⊢
    obtain ⟨hspan, name, hclass, hname, hreserved⟩ := Location.spanStyle?_ne hne
    obtain ⟨answers, middle, role, effect, hreach, -, -⟩ := hadded.exists_effect hlive
    exact ⟨hnew, place, hreach.mem_descendants, name, hadded, hboth, hspan, hclass, hname,
      hreserved⟩

/-- A span whose class only the first converter reserves, with bold text in it. -/
theorem insertInto_reserved_class_span :
    let root : Location := ⟨.branch .fragment [.branch (.element "span" [⟨"class", "note"⟩])
      [.branch (.element "strong" []) [.text "x"]]], []⟩
    let d : Document := Document.empty.push 0 .sectionBlock
    let first := (Conversion.insertInto ⟨.ofSettings { reservedSpanClass := some "note" }, root⟩
      (.intoSection ⟨1⟩)).runOn d
    let second := (Conversion.insertInto ⟨.ofSettings {}, root⟩ (.intoSection ⟨1⟩)).runOn d
    first.1 = second.1 ∧ first.2.unstyled 2 = second.2.unstyled 2 ∧
      first.2.object? 3 = some (.run { bold := some true, underline := some false }) ∧
      second.2.object? 3 =
        some (.run { bold := some true, underline := some false, style := some "note" }) ∧
      ∃ place ∈ root.descendants,
        AddedFor (.withDefaults {}) 512 (.inSection ⟨1⟩) root d place 3 ∧
          place.node.attr? "class" = some "note" := by
  intro root d first second
  have hreachable : d.Reachable := .perform .addSection .empty rfl
  have hfirst : first.2.object? 3 =
      some (.run { bold := some true, underline := some false }) := by decide +kernel
  have hsecond : second.2.object? 3 =
      some (.run { bold := some true, underline := some false, style := some "note" }) := by
    decide +kernel
  obtain ⟨hend, hunstyled, hstyles⟩ := @insertInto_reserved_class
    { reservedSpanClass := some "note" } {} rfl root d hreachable (.intoSection ⟨1⟩)
  obtain ⟨-, place, hplace, name, -, hadded, -, hclass, -, hreserved⟩ :=
    hstyles 3 _ _ hfirst hsecond (by decide)
  have hname : some "note" = some name := by
    rcases hreserved with ⟨hname, -⟩ | ⟨-, hunset, -⟩
    · exact hname
    · exact absurd hunset nofun
  rw [← hname] at hclass
  exact ⟨hend, hunstyled, hfirst, hsecond, place, hplace, hadded, hclass⟩

end Galley
