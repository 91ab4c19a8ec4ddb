import Mathlib.Data.List.Infix
import Galley.Proofs.Conversion.Run
import Galley.Proofs.Conversion.WalkOrder

/-!
  How far a walk has come, for registries that hold nothing but the usual handlers.

  `Progress` says which places a visit has passed, what it was given for them and which document
  that left, call by call in the contexts that the rule gives. Every visit makes progress until it
  ends or is refused (`visit_progress`), so what holds along a progress holds of a walk wherever
  it stops; and it keeps all objects but the flags of runs. The calls are a run
  (`Progress.exists_run`): every insertion leaves the document of a run of calls for a first part
  of the places that have a handler, and for all of them if it succeeds (`insertInto_run`). So
  insertions lead from reachable documents to reachable ones (`Reachable.insertInto`).
-/

namespace Galley

/-! ## Registries of usual handlers -/

/-- The registry holds nothing but usual handlers, under the keys that `roles` says. -/
def Registry.Assembled (registry : Registry) (roles : TagKey → Option Role) : Prop :=
  ∀ key, registry.find? key = (roles key).map Role.handler

theorem Registry.Assembled.empty : Registry.empty.Assembled fun _ => none :=
  fun _ => rfl

theorem Registry.Assembled.insert {registry : Registry} {roles : TagKey → Option Role}
    (h : registry.Assembled roles) (key : TagKey) (role : Role) :
    (registry.insert key role.handler).Assembled fun other =>
      if other = key then some role else roles other := by
  intro other
  rw [Registry.find?_insert]
  dsimp only
  by_cases heq : other = key
  · rw [if_pos heq, if_pos heq]
    rfl
  · rw [if_neg heq, if_neg heq]
    exact h other

section Walk

variable {registry : Registry} {roles : TagKey → Option Role} {limit : Nat} {owner : SectionId}
  {target : Context} {root : Location}

theorem Registry.Assembled.handler? (h : registry.Assembled roles) (node : Node) :
    registry.handler? node = (node.role? roles).map Role.handler := by
  unfold Registry.handler? Node.role?
  cases node.key? with
  | none => rfl
  | some key => exact h key

theorem Registry.Assembled.handler?_of_some (h : registry.Assembled roles) {node : Node}
    {role : Role} (hrole : node.role? roles = some role) :
    registry.handler? node = some role.handler := by
  rw [h.handler?, hrole]
  rfl

theorem Registry.Assembled.handler?_of_none (h : registry.Assembled roles) {node : Node}
    (hrole : node.role? roles = none) : registry.handler? node = none := by
  rw [h.handler?, hrole]
  rfl

/-- A visit that comes to a place with a usual handler does what the effect of the call says, and
    goes on with what the call gives. -/
theorem runOn_visit_cons (hassembled : registry.Assembled roles) {place : Location} {role : Role}
    (hrole : place.node.role? roles = some role) {answers : Answers} {d : Document}
    (hlive : Live d owner (inForce registry target root answers place))
    (hlevel : root.levelUnder place ≤ limit + 1) (rest : List Location) :
    (visit registry limit target root answers (place :: rest)).runOn d =
      match role.effect place (inForce registry target root answers place) with
      | .ok effect =>
        (visit registry limit target root ((place, effect.result
          (inForce registry target root answers place) d.size) :: answers) rest).runOn
            (effect.applyTo owner (inForce registry target root answers place) d)
      | .error cause => (.error cause, d) := by
  rw [visit_cons_of_some rest hlevel (hassembled.handler?_of_some hrole), callInForce, bind_assoc,
    Edit.runOn_bind]
  dsimp only
  rw [role.runOn_handler hlive]
  cases role.effect place (inForce registry target root answers place) <;> rfl

/-- The contexts a call can be given: live ones that are the target or name something new. -/
structure Usable (owner : SectionId) (target : Context) (d₀ d : Document) (context : Context) :
    Prop where
  live : Live d owner context
  site : context = target ∨ d₀.size ≤ context.slot

theorem Usable.keep {d₀ d : Document} {context other : Context}
    (h : Usable owner target d₀ d other) (hlive : Live d owner context) (effect : Effect) :
    Usable owner target d₀ (effect.applyTo owner context d) other :=
  ⟨h.live.of_keepsShape (hlive.keepsShape effect), h.site⟩

theorem Usable.result {d₀ d : Document} {context : Context}
    (h : Usable owner target d₀ d context) (hle : d₀.size ≤ d.size) (effect : Effect) :
    Usable owner target d₀ (effect.applyTo owner context d) (effect.result context d.size) := by
  refine ⟨h.live.result effect, ?_⟩
  rcases effect.result_eq_or_le context d.size with heq | hnew
  · rw [heq]
    exact h.site
  · exact .inr (Nat.le_trans hle hnew)

/-- A run that is open is new, if the target is none. -/
theorem Usable.size_le_of_inRun {d₀ d : Document} {id : RunId}
    (h : Usable owner target d₀ d (.inRun id)) (htarget : ∀ id, target ≠ .inRun id) :
    d₀.size ≤ id.slot :=
  h.site.resolve_left fun heq => htarget id heq.symm

/-- The context in force is the target or an answer. -/
theorem usable_inForce {d₀ d : Document} {answers : Answers}
    (htarget : Usable owner target d₀ d target)
    (hanswers : ∀ answer ∈ answers, Usable owner target d₀ d answer.2) (place : Location) :
    Usable owner target d₀ d (inForce registry target root answers place) := by
  have hmem := @inForce_mem registry target root answers place
  rcases hmem with heq | ⟨other, hmem⟩
  · rw [heq]
    exact htarget
  · exact hanswers _ hmem

/-! ## Progress -/

/-- How far a visit from `d₀` has come: the places it has passed, what it was given for those that
    have a handler, the latest first, and the document that its calls leave. -/
inductive Progress (registry : Registry) (roles : TagKey → Option Role) (target : Context)
    (root : Location) (owner : SectionId) (d₀ : Document) :
    List Location → Answers → Document → Prop where
  | start : Progress registry roles target root owner d₀ [] [] d₀
  | pass {places : List Location} {answers : Answers} {d : Document} (place : Location)
      (hpast : Progress registry roles target root owner d₀ places answers d)
      (hrole : place.node.role? roles = none) :
      Progress registry roles target root owner d₀ (places ++ [place]) answers d
  | call {places : List Location} {answers : Answers} {d : Document} {role : Role}
      {effect : Effect} (place : Location)
      (hpast : Progress registry roles target root owner d₀ places answers d)
      (hrole : place.node.role? roles = some role)
      (heffect : role.effect place (inForce registry target root answers place) = .ok effect) :
      Progress registry roles target root owner d₀ (places ++ [place])
        ((place, effect.result (inForce registry target root answers place) d.size) :: answers)
        (effect.applyTo owner (inForce registry target root answers place) d)

namespace Progress

variable {d₀ d : Document} {places : List Location} {answers : Answers}

/-- All objects keep their place, and all contexts that were given are still usable. -/
theorem invariant (hlive : Live d₀ owner target)
    (h : Progress registry roles target root owner d₀ places answers d) :
    d₀.KeepsShape d ∧ Usable owner target d₀ d target ∧
      ∀ answer ∈ answers, Usable owner target d₀ d answer.2 := by
  induction h with
  | start => exact ⟨.refl d₀, ⟨hlive, .inl rfl⟩, fun _ h => absurd h List.not_mem_nil⟩
  | pass place _ _ ih => exact ih
  | @call places answers d role effect place _ _ _ ih =>
    obtain ⟨hkeeps, htarget, hanswers⟩ := ih
    have husable : Usable owner target d₀ d (inForce registry target root answers place) :=
      usable_inForce htarget hanswers place
    refine ⟨hkeeps.trans (husable.live.keepsShape effect), htarget.keep husable.live effect, ?_⟩
    intro answer hanswer
    rcases List.mem_cons.1 hanswer with rfl | hanswer
    · exact husable.result hkeeps.size_le effect
    · exact (hanswers answer hanswer).keep husable.live effect

theorem keepsShape (hlive : Live d₀ owner target)
    (h : Progress registry roles target root owner d₀ places answers d) : d₀.KeepsShape d :=
  (h.invariant hlive).1

/-- Whatever place comes next, the context in force there can be given to a call. -/
theorem usable (hlive : Live d₀ owner target)
    (h : Progress registry roles target root owner d₀ places answers d) (place : Location) :
    Usable owner target d₀ d (inForce registry target root answers place) :=
  usable_inForce (h.invariant hlive).2.1 (h.invariant hlive).2.2 place

/-- The calls of a progress are a run, for the places that have a handler. -/
theorem exists_run (hassembled : registry.Assembled roles) (hlive : Live d₀ owner target)
    (h : Progress registry roles target root owner d₀ places answers d) :
    ∃ calls, Run roles owner target d₀ calls d ∧
      calls.map Call.place = (registry.handled places).map Prod.fst := by
  induction h with
  | start => exact ⟨[], .start, rfl⟩
  | pass place _ hrole ih =>
    obtain ⟨calls, hrun, hplaces⟩ := ih
    have hnone := hassembled.handler?_of_none hrole
    refine ⟨calls, hrun, ?_⟩
    rw [handled_append, handled_cons_of_none [] hnone, List.map_append, hplaces]
    exact (List.append_nil _).symm
  | @call places answers d role effect place hpast hrole heffect ih =>
    obtain ⟨calls, hrun, hplaces⟩ := ih
    have husable := hpast.usable hlive place
    have hsome := hassembled.handler?_of_some hrole
    refine ⟨_, hrun.call ⟨place, role, _, effect⟩ husable.live husable.site hrole heffect, ?_⟩
    rw [handled_append, handled_cons_of_some [] hsome, List.map_append, List.map_append, hplaces]
    rfl

end Progress

/-- A visit makes progress until it ends, or is refused at a place that is too deep or whose
    handler cannot work in the context in force. -/
theorem visit_progress (hassembled : registry.Assembled roles) {d₀ : Document}
    (hlive : Live d₀ owner target) {places rest : List Location} {answers : Answers}
    {d d' : Document} {outcome : Except ConvertError Answers}
    (hpast : Progress registry roles target root owner d₀ places answers d)
    (hvisit : (visit registry limit target root answers rest).runOn d = (outcome, d')) :
    ∃ done answers', Progress registry roles target root owner d₀ (places ++ done) answers' d' ∧
      d.Keeps d' ∧
      (∀ given, outcome = .ok given → done = rest ∧ given = answers') ∧
      (∀ cause, outcome = .error cause → ∃ place later, rest = done ++ place :: later ∧
        (cause = .tooDeep limit ∨ ∃ role, place.node.role? roles = some role ∧
          role.effect place (inForce registry target root answers' place) = .error cause)) := by
  induction rest generalizing places answers d with
  | nil =>
    obtain ⟨rfl, rfl⟩ := Prod.mk.inj hvisit
    refine ⟨[], answers, ?_, .refl d, fun given h => ⟨rfl, (Except.ok.inj h).symm⟩, nofun⟩
    rw [List.append_nil]
    exact hpast
  | cons place rest ih =>
    have hstop : Progress registry roles target root owner d₀ (places ++ []) answers d := by
      rw [List.append_nil]
      exact hpast
    by_cases hlevel : root.levelUnder place ≤ limit + 1
    · cases hrole : place.node.role? roles with
      | none =>
        rw [visit_cons_of_none rest hlevel (hassembled.handler?_of_none hrole)] at hvisit
        obtain ⟨done, answers', hmore, hkeeps, hok, herror⟩ := ih (hpast.pass place hrole) hvisit
        rw [← List.append_cons] at hmore
        refine ⟨place :: done, answers', hmore, hkeeps, fun given h => ?_, fun cause h => ?_⟩
        · rw [(hok given h).1]
          exact ⟨rfl, (hok given h).2⟩
        · obtain ⟨next, later, rfl, hcause⟩ := herror cause h
          exact ⟨next, later, rfl, hcause⟩
      | some role =>
        have hcontext := (hpast.usable hlive place).live
        rw [runOn_visit_cons hassembled hrole hcontext hlevel] at hvisit
        cases heffect : role.effect place (inForce registry target root answers place) with
        | error cause =>
          rw [heffect] at hvisit
          obtain ⟨rfl, rfl⟩ := Prod.mk.inj hvisit
          refine ⟨[], answers, hstop, .refl d, nofun, fun cause' h => ⟨place, rest, rfl, .inr ?_⟩⟩
          rw [← Except.error.inj h]
          exact ⟨role, hrole, heffect⟩
        | ok effect =>
          rw [heffect] at hvisit
          obtain ⟨done, answers', hmore, hkeeps, hok, herror⟩ :=
            ih (hpast.call place hrole heffect) hvisit
          rw [← List.append_cons] at hmore
          refine ⟨place :: done, answers', hmore, (hcontext.keeps effect).trans hkeeps,
            fun given h => ?_, fun cause h => ?_⟩
          · rw [(hok given h).1]
            exact ⟨rfl, (hok given h).2⟩
          · obtain ⟨next, later, rfl, hcause⟩ := herror cause h
            exact ⟨next, later, rfl, hcause⟩
    · rw [visit_cons_of_tooDeep rest hlevel] at hvisit
      obtain ⟨rfl, rfl⟩ := Prod.mk.inj hvisit
      exact ⟨[], answers, hstop, .refl d, nofun, fun cause h =>
        ⟨place, rest, rfl, .inl (Except.error.inj h).symm⟩⟩

/-- An insertion into a target that resolves visits the places below the root. -/
theorem runOn_insertInto {conversion : Conversion} {d : Document} {into : Target}
    (hresolve : d.resolve into = .ok target) :
    (conversion.insertInto into).runOn d =
      ((fun _ => ()) <$> visit conversion.converter.registry conversion.converter.settings.maxDepth
        target conversion.markup [] conversion.markup.descendants).runOn d := by
  rw [Conversion.insertInto, Edit.runOn_bind, Edit.runOn_query, hresolve]
  dsimp only
  rw [walk_eq_visit, Edit.runOn_bind, Edit.runOn_map, Edit.runOn_map]
  cases (visit conversion.converter.registry conversion.converter.settings.maxDepth target
    conversion.markup [] conversion.markup.descendants).runOn d with
  | mk outcome d' => cases outcome <;> rfl

/-- **An insertion makes progress** until all places below the root are passed, or it is refused
    at one of them. -/
theorem insertInto_progress {conversion : Conversion}
    (hassembled : conversion.converter.registry.Assembled roles) {d d' : Document}
    (hd : d.WellFormed) {into : Target} (hresolve : d.resolve into = .ok target)
    {outcome : Except ConvertError Unit}
    (hinsert : (conversion.insertInto into).runOn d = (outcome, d')) :
    ∃ owner done answers, Live d owner target ∧
      Progress conversion.converter.registry roles target conversion.markup owner d done answers
        d' ∧
      done <+: conversion.markup.descendants ∧
      (outcome = .ok () → done = conversion.markup.descendants) ∧
      (∀ cause, outcome = .error cause → cause = .tooDeep conversion.converter.settings.maxDepth ∨
        ∃ place ∈ conversion.markup.descendants, ∃ role, place.node.role? roles = some role ∧
          role.effect place (inForce conversion.converter.registry target conversion.markup answers
            place) = .error cause) := by
  obtain ⟨rfl, owner, hlive⟩ := live_of_resolve hd hresolve
  rw [runOn_insertInto hresolve, Edit.runOn_map] at hinsert
  cases hvisit : (visit conversion.converter.registry conversion.converter.settings.maxDepth
      into.context conversion.markup [] conversion.markup.descendants).runOn d with
  | mk outcome' d'' =>
    obtain ⟨done, answers, hpast, -, hok, herror⟩ :=
      visit_progress hassembled hlive .start hvisit
    rw [hvisit] at hinsert
    cases outcome' with
    | ok given =>
      obtain ⟨rfl, rfl⟩ := Prod.mk.inj hinsert
      obtain ⟨rfl, rfl⟩ := hok given rfl
      exact ⟨owner, _, _, hlive, hpast, List.prefix_rfl, fun _ => rfl, nofun⟩
    | error cause =>
      obtain ⟨rfl, rfl⟩ := Prod.mk.inj hinsert
      obtain ⟨place, later, hsplit, hcause⟩ := herror cause rfl
      refine ⟨owner, done, answers, hlive, hpast, ⟨place :: later, hsplit.symm⟩, nofun, ?_⟩
      intro cause' h
      rw [← Except.error.inj h]
      rcases hcause with hdeep | hrefused
      · exact .inl hdeep
      · refine .inr ⟨place, ?_, hrefused⟩
        rw [hsplit]
        exact List.mem_append_right _ List.mem_cons_self

/-- An insertion into a target that resolves is a run of calls. -/
theorem insertInto_run {conversion : Conversion}
    (hassembled : conversion.converter.registry.Assembled roles) {d d' : Document}
    (hd : d.WellFormed) {into : Target} (hresolve : d.resolve into = .ok target)
    {outcome : Except ConvertError Unit}
    (hinsert : (conversion.insertInto into).runOn d = (outcome, d')) :
    ∃ owner calls, Live d owner into.context ∧ Run roles owner into.context d calls d' ∧
      calls.map Call.place <+:
        (conversion.converter.registry.handled conversion.markup.descendants).map Prod.fst ∧
      (outcome = .ok () → calls.map Call.place =
        (conversion.converter.registry.handled conversion.markup.descendants).map Prod.fst) := by
  obtain ⟨owner, done, answers, hlive, hpast, hdone, hall, -⟩ :=
    insertInto_progress hassembled hd hresolve hinsert
  obtain ⟨rfl, -⟩ := live_of_resolve hd hresolve
  obtain ⟨calls, hrun, hplaces⟩ := hpast.exists_run hassembled hlive
  refine ⟨owner, calls, hlive, hrun, ?_, fun h => by rw [hplaces, hall h]⟩
  rw [hplaces]
  exact (hdone.filterMap _).map _

/-- An insertion leads from reachable documents to reachable ones, so that others may follow. -/
theorem Document.Reachable.insertInto {conversion : Conversion}
    (hassembled : conversion.converter.registry.Assembled roles) {d d' : Document}
    (hd : d.Reachable) {into : Target} {outcome : Except ConvertError Unit}
    (hinsert : (conversion.insertInto into).runOn d = (outcome, d')) : d'.Reachable := by
  cases hresolve : d.resolve into with
  | error cause =>
    rw [Conversion.insertInto, Edit.runOn_bind, Edit.runOn_query, hresolve] at hinsert
    obtain ⟨-, rfl⟩ := Prod.mk.inj hinsert
    exact hd
  | ok context =>
    obtain ⟨owner, calls, -, hrun, -, -⟩ :=
      insertInto_run hassembled hd.wellFormed hresolve hinsert
    exact hrun.reachable hd

/-! What an insertion creates is read off the markup where each call's part is. -/

/-- Places without a handler have no part in what is read off the places. -/
theorem flatMap_handled (hassembled : registry.Assembled roles) {α : Type}
    {part : Location → List α}
    (hother : ∀ place, place.node.role? roles = none → part place = []) (places : List Location) :
    ((registry.handled places).map Prod.fst).flatMap part = places.flatMap part := by
  induction places with
  | nil => rfl
  | cons place places ih =>
    rw [List.flatMap_cons]
    cases hrole : place.node.role? roles with
    | none =>
      rw [handled_cons_of_none places (hassembled.handler?_of_none hrole), hother place hrole, ih]
      rfl
    | some role =>
      rw [handled_cons_of_some places (hassembled.handler?_of_some hrole), List.map_cons,
        List.flatMap_cons, ih]

/-- What calls for all places with a handler give, read off the places. -/
theorem flatMap_calls (hassembled : registry.Assembled roles) {α : Type} {calls : List Call}
    {places : List Location}
    (hcalls : calls.map Call.place = (registry.handled places).map Prod.fst)
    {each : Call → List α} {part : Location → List α}
    (hcall : ∀ call ∈ calls, each call = part call.place)
    (hother : ∀ place, place.node.role? roles = none → part place = []) :
    calls.flatMap each = places.flatMap part := by
  rw [List.flatMap_congr hcall, ← flatMap_handled hassembled hother, ← hcalls, List.flatMap_map]

/-- Where what a call creates depends on its place alone, an insertion creates the parts of a
    first part of the places below the root, and of all of them if it succeeds. -/
theorem insertInto_created {conversion : Conversion}
    (hassembled : conversion.converter.registry.Assembled roles) {d d' : Document}
    (hd : d.WellFormed) {into : Target} (hresolve : d.resolve into = .ok target)
    {outcome : Except ConvertError Unit}
    (hinsert : (conversion.insertInto into).runOn d = (outcome, d')) {α : Type}
    {select : DocumentObject → Option α}
    (hselect : ∀ value format, select (.run (TextRun.apply value format)) = select (.run value))
    {part : Location → List α}
    (hcall : ∀ place role context effect, place.node.role? roles = some role →
      role.effect place context = .ok effect →
      (effect.objects context).filterMap select = part place)
    (hother : ∀ place, place.node.role? roles = none → part place = []) :
    (outcome = .ok () →
        d'.created select d.size = conversion.markup.descendants.flatMap part) ∧
      d'.created select d.size <+: conversion.markup.descendants.flatMap part := by
  obtain ⟨owner, calls, -, hrun, hprefix, hall⟩ := insertInto_run hassembled hd hresolve hinsert
  have hcreated : d'.created select d.size = (calls.map Call.place).flatMap part := by
    rw [hrun.created hselect, List.flatMap_map]
    refine List.flatMap_congr fun call hmem => ?_
    obtain ⟨hrole, heffect⟩ := hrun.of_mem call hmem
    exact hcall _ _ _ _ hrole heffect
  rw [hcreated, ← flatMap_handled hassembled hother conversion.markup.descendants]
  exact ⟨fun h => by rw [hall h], hprefix.flatMap part⟩

end Walk

end Galley
