import Mathlib.Data.List.Basic
import Galley.Proofs.Conversion.Progress

/-!
  The places that a walk comes to, and the calls it has made before it does.

  `Reaches` says with which answers and on which document a walk comes to a place. It has then
  come to every earlier place too (`Reaches.of_lt`), and called the handler there if there is one
  (`Reaches.exists_call`): what that call gave still stands in the answers, and the rule gives the
  same context for it as it did then. What each of these calls keeps is there wherever a walk ends
  (`holds_of_visit`).
-/

namespace Galley

/-- A walk from `d₀` comes to a place below the root, which is not too deep: for the places before
    it in document order it was given `answers`, and its calls for them leave `d`. -/
def Reaches (registry : Registry) (limit : Nat) (target : Context) (root : Location)
    (d₀ : Document) (place : Location) (answers : Answers) (d : Document) : Prop :=
  ∃ before after, root.descendants = before ++ place :: after ∧
    root.levelUnder place ≤ limit + 1 ∧
    (visit registry limit target root [] before).runOn d₀ = (.ok answers, d)

section Reaches

variable {registry : Registry} {roles : TagKey → Option Role} {limit : Nat} {owner : SectionId}
  {target : Context} {root : Location} {d₀ d : Document} {place other : Location}
  {answers : Answers}

/-- From a place that it comes to, a walk goes on with the handler there, in the context in
    force, or passes through. -/
theorem runOn_walk_of_reaches (h : Reaches registry limit target root d₀ place answers d) :
    ∃ after, (walk registry limit target root).runOn d₀ =
      ((fun _ => (registry.handled root.descendants).length) <$>
        match registry.handler? place.node with
        | none => visit registry limit target root answers after
        | some handler => do
          let result ← handler place (inForce registry target root answers place)
          visit registry limit target root ((place, result) :: answers) after).runOn d := by
  obtain ⟨before, after, hsplit, hlevel, hvisit⟩ := h
  refine ⟨after, ?_⟩
  rw [walk_eq_visit, Edit.runOn_map, Edit.runOn_map, hsplit, visit_append, Edit.runOn_bind, hvisit]
  dsimp only
  rw [visit, if_pos hlevel]
  cases registry.handler? place.node with
  | none => rfl
  | some handler =>
    dsimp only [callInForce]
    rw [bind_assoc]
    rfl

namespace Reaches

theorem mem_descendants (h : Reaches registry limit target root d₀ place answers d) :
    place ∈ root.descendants := by
  obtain ⟨before, after, hsplit, -, -⟩ := h
  rw [hsplit]
  exact List.mem_append_right _ List.mem_cons_self

theorem level_le (h : Reaches registry limit target root d₀ place answers d) :
    root.levelUnder place ≤ limit + 1 := by
  obtain ⟨-, -, -, hlevel, -⟩ := h
  exact hlevel

theorem exists_progress (hassembled : registry.Assembled roles) (hlive : Live d₀ owner target)
    (h : Reaches registry limit target root d₀ place answers d) :
    ∃ done, Progress registry roles target root owner d₀ done answers d := by
  obtain ⟨before, after, -, -, hvisit⟩ := h
  obtain ⟨done, answers', hpast, -, hok, -⟩ := visit_progress hassembled hlive .start hvisit
  obtain ⟨rfl, rfl⟩ := hok answers rfl
  exact ⟨_, hpast⟩

/-- A context in force on the way names something that is there. -/
theorem live (hassembled : registry.Assembled roles) (hlive : Live d₀ owner target)
    (h : Reaches registry limit target root d₀ place answers d) (other : Location) :
    Live d owner (inForce registry target root answers other) := by
  obtain ⟨done, hpast⟩ := h.exists_progress hassembled hlive
  exact (hpast.usable hlive other).live

/-- What was there stays. -/
theorem keepsShape (hassembled : registry.Assembled roles) (hlive : Live d₀ owner target)
    (h : Reaches registry limit target root d₀ place answers d) : d₀.KeepsShape d := by
  obtain ⟨done, hpast⟩ := h.exists_progress hassembled hlive
  exact hpast.keepsShape hlive

/-- The places before one that is reached are those that come before it. -/
theorem mem_of_lt {before after : List Location}
    (hsplit : root.descendants = before ++ place :: after) (hother : other ∈ root.descendants)
    (hlt : other.address < place.address) : other ∈ before := by
  have hpairwise := root.pairwise_descendants
  rw [hsplit, List.pairwise_append, List.pairwise_cons] at hpairwise
  rw [hsplit, List.mem_append, List.mem_cons] at hother
  rcases hother with hother | rfl | hother
  · exact hother
  · exact absurd hlt (List.lt_irrefl _)
  · exact absurd (List.lt_trans hlt (hpairwise.2.1.1 other hother)) (List.lt_irrefl _)

/-- A visit that succeeds has come to each of its places, and went on from there. -/
theorem of_visit {before later after : List Location}
    (hsplit : root.descendants = before ++ place :: after)
    (hvisit : (visit registry limit target root [] (before ++ place :: later)).runOn d₀ =
      (.ok answers, d)) :
    ∃ earlier d₁, Reaches registry limit target root d₀ place earlier d₁ ∧
      (visit registry limit target root earlier (place :: later)).runOn d₁ = (.ok answers, d) := by
  rw [visit_append] at hvisit
  obtain ⟨earlier, d₁, hbefore, hrest⟩ := Edit.runOn_bind_ok hvisit
  refine ⟨earlier, d₁, ⟨before, after, hsplit, ?_, hbefore⟩, hrest⟩
  rw [visit] at hrest
  split at hrest
  · assumption
  · exact absurd (congrArg Prod.fst hrest) (by simp)

/-- A walk that comes to a place has come to every earlier one, and went on from there. The rule
    gives the same context for it as it did then. -/
theorem of_lt (h : Reaches registry limit target root d₀ place answers d)
    (hother : other ∈ root.descendants) (hlt : other.address < place.address) :
    ∃ earlier d₁ later, Reaches registry limit target root d₀ other earlier d₁ ∧
      (visit registry limit target root earlier (other :: later)).runOn d₁ = (.ok answers, d) ∧
      (∀ next ∈ later, other.address < next.address) ∧
      inForce registry target root earlier other = inForce registry target root answers other := by
  obtain ⟨before, after, hsplit, -, hvisit⟩ := h
  obtain ⟨done, later, rfl⟩ := List.append_of_mem (mem_of_lt hsplit hother hlt)
  rw [List.append_assoc, List.cons_append] at hsplit
  obtain ⟨earlier, d₁, hreach, hrest⟩ := of_visit hsplit hvisit
  have hpairwise := root.pairwise_descendants
  rw [hsplit, List.pairwise_append, List.pairwise_cons] at hpairwise
  have hlater : ∀ next ∈ later, other.address < next.address := fun next hnext =>
    hpairwise.2.1.1 next (List.mem_append_left _ hnext)
  refine ⟨earlier, d₁, later, hreach, hrest, hlater, ?_⟩
  obtain ⟨news, rfl, hnews⟩ := mem_of_answers_of_visit hrest
  refine (inForce_append fun answer hanswer hless => ?_).symm
  rcases List.mem_cons.1 (hnews answer hanswer) with heq | hnext
  · exact List.lt_irrefl _ (heq ▸ hless)
  · exact List.lt_irrefl _ (List.lt_trans hless (hlater _ hnext))

/-- What a visit leaves keeps what a walk found where the visit began. -/
theorem keeps_of_visit (hassembled : registry.Assembled roles) (hlive : Live d₀ owner target)
    (h : Reaches registry limit target root d₀ place answers d) {places : List Location}
    {outcome : Except ConvertError Answers} {d' : Document}
    (hvisit : (visit registry limit target root answers places).runOn d = (outcome, d')) :
    d.Keeps d' := by
  obtain ⟨done, hpast⟩ := h.exists_progress hassembled hlive
  obtain ⟨-, -, -, hkeeps, -, -⟩ := visit_progress hassembled hlive hpast hvisit
  exact hkeeps

/-- A visit that goes on from a place whose handler can work keeps what its call leaves. -/
theorem keeps_of_visit_cons (hassembled : registry.Assembled roles) (hlive : Live d₀ owner target)
    (h : Reaches registry limit target root d₀ place answers d) {role : Role} {effect : Effect}
    (hrole : place.node.role? roles = some role)
    (heffect : role.effect place (inForce registry target root answers place) = .ok effect)
    {later : List Location} {outcome : Except ConvertError Answers} {d' : Document}
    (hvisit : (visit registry limit target root answers (place :: later)).runOn d =
      (outcome, d')) :
    (visit registry limit target root ((place, effect.result
        (inForce registry target root answers place) d.size) :: answers) later).runOn
          (effect.applyTo owner (inForce registry target root answers place) d) = (outcome, d') ∧
      (effect.applyTo owner (inForce registry target root answers place) d).Keeps d' := by
  have hcontext := h.live hassembled hlive place
  obtain ⟨before, after, -, hlevel, hbefore⟩ := h
  rw [runOn_visit_cons hassembled hrole hcontext hlevel, heffect] at hvisit
  obtain ⟨done, answers', hpast, -, hok, -⟩ := visit_progress hassembled hlive .start hbefore
  obtain ⟨rfl, rfl⟩ := hok answers rfl
  obtain ⟨-, -, -, hkeeps, -, -⟩ :=
    visit_progress hassembled hlive (hpast.call place hrole heffect) hvisit
  exact ⟨hvisit, hkeeps⟩

/-- The call for an earlier place: its effect, what it gave, and that both can still be read off
    the answers. -/
theorem exists_call (hassembled : registry.Assembled roles) (hlive : Live d₀ owner target)
    (h : Reaches registry limit target root d₀ place answers d)
    (hother : other ∈ root.descendants) (hlt : other.address < place.address) {role : Role}
    (hrole : other.node.role? roles = some role) :
    ∃ earlier d₁ effect, Reaches registry limit target root d₀ other earlier d₁ ∧
      inForce registry target root earlier other = inForce registry target root answers other ∧
      role.effect other (inForce registry target root answers other) = .ok effect ∧
      answerAt? answers other =
        some (effect.result (inForce registry target root answers other) d₁.size) ∧
      (effect.applyTo owner (inForce registry target root answers other) d₁).Keeps d := by
  obtain ⟨earlier, d₁, later, hreach, hvisit, hlater, hsame⟩ := h.of_lt hother hlt
  cases heffect : role.effect other (inForce registry target root earlier other) with
  | error cause =>
    have hcontext := hreach.live hassembled hlive other
    rw [runOn_visit_cons hassembled hrole hcontext hreach.level_le, heffect] at hvisit
    exact absurd (congrArg Prod.fst hvisit) nofun
  | ok effect =>
    obtain ⟨hrest, hkeeps⟩ :=
      hreach.keeps_of_visit_cons hassembled hlive hrole heffect hvisit
    obtain ⟨news, rfl, hnews⟩ := mem_of_answers_of_visit hrest
    refine ⟨earlier, d₁, effect, hreach, hsame, hsame ▸ heffect, ?_, hsame ▸ hkeeps⟩
    rw [← hsame, answerAt?_append, answerAt?_cons_self]
    intro answer hanswer heq
    have hless := hlater _ (hnews answer hanswer)
    rw [heq] at hless
    exact List.lt_irrefl _ hless

/-- What is inside an earlier place starts with what its call gave, or with what is in force at a
    place without a handler. -/
theorem startInside_cases (hassembled : registry.Assembled roles) (hlive : Live d₀ owner target)
    (h : Reaches registry limit target root d₀ place answers d)
    (hother : other ∈ root.descendants) (hlt : other.address < place.address) :
    ∃ earlier d₁, Reaches registry limit target root d₀ other earlier d₁ ∧
      ((other.node.role? roles = none ∧
          startInside registry target root answers other =
            inForce registry target root earlier other ∧ d₁.Keeps d) ∨
        ∃ role effect, other.node.role? roles = some role ∧
          role.effect other (inForce registry target root earlier other) = .ok effect ∧
          startInside registry target root answers other =
            effect.result (inForce registry target root earlier other) d₁.size ∧
          (effect.applyTo owner (inForce registry target root earlier other) d₁).Keeps d) := by
  have hdeeper := Location.length_crumbs_lt_of_mem_descendants hother
  cases hrole : other.node.role? roles with
  | some role =>
    obtain ⟨earlier, d₁, effect, hreach, hsame, heffect, hanswer, hkeeps⟩ :=
      h.exists_call hassembled hlive hother hlt hrole
    have hhandles := Registry.handles_of_some (hassembled.handler?_of_some hrole)
    rw [← hsame] at heffect hanswer hkeeps
    refine ⟨earlier, d₁, hreach, .inr ⟨role, effect, rfl, heffect, ?_, hkeeps⟩⟩
    rw [startInside, if_neg (address_ne_of_lt hdeeper), if_pos hhandles, hanswer]
    rfl
  | none =>
    obtain ⟨earlier, d₁, later, hreach, hvisit, -, hsame⟩ := h.of_lt hother hlt
    have hhandler := hassembled.handler?_of_none hrole
    have hkeeps := hreach.keeps_of_visit hassembled hlive hvisit
    refine ⟨earlier, d₁, hreach, .inl ⟨rfl, ?_, hkeeps⟩⟩
    rw [startInside_of_not_handled answers hdeeper hhandler, hsame,
      inForce_of_not_handled hhandler]

/-- A walk comes to a place in one way. -/
theorem unique {answers' : Answers} {d' : Document}
    (h : Reaches registry limit target root d₀ place answers d)
    (h' : Reaches registry limit target root d₀ place answers' d') :
    answers = answers' ∧ d = d' := by
  obtain ⟨before, after, hsplit, -, hvisit⟩ := h
  obtain ⟨before', after', hsplit', -, hvisit'⟩ := h'
  obtain ⟨rfl, -⟩ := Location.descendants_split_unique hsplit hsplit'
  obtain ⟨hanswers, rfl⟩ := Prod.mk.inj (hvisit.symm.trans hvisit')
  exact ⟨Except.ok.inj hanswers, rfl⟩

/-- Right after a sibling with nothing inside it a walk comes to the next one. -/
theorem of_previousSibling? {sibling : Location} {earlier : Answers} {d₁ : Document}
    (h : Reaches registry limit target root d₀ place answers d)
    (hsibling : Reaches registry limit target root d₀ sibling earlier d₁)
    (hprevious : place.previousSibling? = some sibling) (hinside : sibling.descendants = []) :
    (visit registry limit target root earlier [sibling]).runOn d₁ = (.ok answers, d) := by
  obtain ⟨done, rest, hadjacent⟩ :=
    Location.descendants_eq_of_previousSibling? h.mem_descendants hprevious
  rw [hinside, List.nil_append] at hadjacent
  obtain ⟨before, after, hsplit, -, hvisit⟩ := h
  obtain ⟨before', after', hsplit', -, hvisit'⟩ := hsibling
  obtain ⟨rfl, rfl⟩ := Location.descendants_split_unique hsplit' hadjacent
  rw [List.append_cons] at hadjacent
  obtain ⟨rfl, rfl⟩ := Location.descendants_split_unique hsplit hadjacent
  rw [visit_append, Edit.runOn_bind, hvisit'] at hvisit
  exact hvisit

end Reaches

/-- What each call on the way keeps is there wherever a visit ends. -/
theorem holds_of_visit (hassembled : registry.Assembled roles) (hlive : Live d₀ owner target)
    {holds : Document → Prop}
    (hcall : ∀ place answers d role effect,
      Reaches registry limit target root d₀ place answers d → place.node.role? roles = some role →
      role.effect place (inForce registry target root answers place) = .ok effect → holds d →
      holds (effect.applyTo owner (inForce registry target root answers place) d))
    {before rest : List Location} (hsplit : root.descendants = before ++ rest)
    (hbefore : (visit registry limit target root [] before).runOn d₀ = (.ok answers, d))
    (h : holds d) {outcome : Except ConvertError Answers} {d' : Document}
    (hvisit : (visit registry limit target root answers rest).runOn d = (outcome, d')) :
    holds d' := by
  induction rest generalizing before answers d with
  | nil =>
    obtain ⟨-, rfl⟩ := Prod.mk.inj hvisit
    exact h
  | cons place rest ih =>
    have hmore : root.descendants = (before ++ [place]) ++ rest := by
      rw [← List.append_cons, hsplit]
    have hnext : (visit registry limit target root [] (before ++ [place])).runOn d₀ =
        (visit registry limit target root answers [place]).runOn d := by
      rw [visit_append, Edit.runOn_bind, hbefore]
    by_cases hlevel : root.levelUnder place ≤ limit + 1
    · cases hrole : place.node.role? roles with
      | none =>
        have hnone := hassembled.handler?_of_none hrole
        rw [visit_cons_of_none rest hlevel hnone] at hvisit
        rw [visit_cons_of_none [] hlevel hnone] at hnext
        exact ih hmore hnext h hvisit
      | some role =>
        have hreach : Reaches registry limit target root d₀ place answers d :=
          ⟨before, rest, hsplit, hlevel, hbefore⟩
        have hcontext := hreach.live hassembled hlive place
        rw [runOn_visit_cons hassembled hrole hcontext hlevel] at hvisit hnext
        cases heffect : role.effect place (inForce registry target root answers place) with
        | error cause =>
          rw [heffect] at hvisit
          obtain ⟨-, rfl⟩ := Prod.mk.inj hvisit
          exact h
        | ok effect =>
          rw [heffect] at hvisit hnext
          exact ih hmore hnext (hcall place answers d role effect hreach hrole heffect h) hvisit
    · rw [visit_cons_of_tooDeep rest hlevel] at hvisit
      obtain ⟨-, rfl⟩ := Prod.mk.inj hvisit
      exact h

/-- An insertion that succeeds comes to every place below the root. -/
theorem exists_reaches {conversion : Conversion} {into : Target} {d' : Document}
    (hresolve : d₀.resolve into = .ok target)
    (hinsert : (conversion.insertInto into).runOn d₀ = (.ok (), d'))
    (hplace : place ∈ conversion.markup.descendants) :
    ∃ answers d, Reaches conversion.converter.registry conversion.converter.settings.maxDepth target
      conversion.markup d₀ place answers d := by
  rw [runOn_insertInto hresolve, Edit.runOn_map] at hinsert
  obtain ⟨before, after, hsplit⟩ := List.append_of_mem hplace
  split at hinsert
  · next given d₁ hvisit =>
    rw [hsplit] at hvisit
    obtain ⟨answers, d, hreach, -⟩ := Reaches.of_visit hsplit hvisit
    exact ⟨answers, d, hreach⟩
  · exact absurd (congrArg Prod.fst hinsert) nofun

/-- From a place that is reached an insertion goes on with the visit of what follows. -/
theorem runOn_insertInto_of_reaches {conversion : Conversion} {into : Target}
    (hresolve : d₀.resolve into = .ok target)
    (h : Reaches conversion.converter.registry conversion.converter.settings.maxDepth target
      conversion.markup d₀ place answers d) :
    ∃ after, (conversion.insertInto into).runOn d₀ =
      ((fun _ => ()) <$> visit conversion.converter.registry
        conversion.converter.settings.maxDepth target conversion.markup answers
          (place :: after)).runOn d := by
  obtain ⟨before, after, hsplit, hlevel, hvisit⟩ := h
  refine ⟨after, ?_⟩
  rw [runOn_insertInto hresolve, hsplit, visit_append, Edit.runOn_map, Edit.runOn_bind, hvisit,
    Edit.runOn_map]

/-- A handler that fails at a place that is reached ends the insertion with its failure. -/
theorem runOn_insertInto_of_fails {conversion : Conversion} {into : Target} {handler : Handler}
    {cause : ConvertError} {d' : Document} (hresolve : d₀.resolve into = .ok target)
    (h : Reaches conversion.converter.registry conversion.converter.settings.maxDepth target
      conversion.markup d₀ place answers d)
    (hhandler : conversion.converter.registry.handler? place.node = some handler)
    (hfails : (handler place (inForce conversion.converter.registry target conversion.markup answers
      place)).runOn d = (.error cause, d')) :
    (conversion.insertInto into).runOn d₀ = (.error cause, d') := by
  obtain ⟨after, hinsert⟩ := runOn_insertInto_of_reaches hresolve h
  rw [hinsert, Edit.runOn_map, visit, if_pos h.level_le, hhandler]
  dsimp only [callInForce]
  rw [bind_assoc, Edit.runOn_bind, hfails]

/-- What an insertion leaves keeps what its calls have left, whether it succeeds or not. -/
theorem keeps_of_insertInto {conversion : Conversion} {into : Target}
    (hassembled : conversion.converter.registry.Assembled roles)
    (hlive : Live d₀ owner target) (hresolve : d₀.resolve into = .ok target)
    (h : Reaches conversion.converter.registry conversion.converter.settings.maxDepth target
      conversion.markup d₀ place answers d) {role : Role} {effect : Effect}
    (hrole : place.node.role? roles = some role)
    (heffect : role.effect place (inForce conversion.converter.registry target conversion.markup
      answers place) = .ok effect) {outcome : Except ConvertError Unit} {d' : Document}
    (hinsert : (conversion.insertInto into).runOn d₀ = (outcome, d')) :
    (effect.applyTo owner (inForce conversion.converter.registry target conversion.markup answers
      place) d).Keeps d' := by
  obtain ⟨after, heq⟩ := runOn_insertInto_of_reaches hresolve h
  rw [heq, Edit.runOn_map] at hinsert
  cases hvisit : (visit conversion.converter.registry conversion.converter.settings.maxDepth target
      conversion.markup answers (place :: after)).runOn d with
  | mk outcome' d'' =>
    obtain ⟨-, hkeeps⟩ := h.keeps_of_visit_cons hassembled hlive hrole heffect hvisit
    rw [hvisit] at hinsert
    cases outcome' with
    | ok given => exact (Prod.mk.inj hinsert).2 ▸ hkeeps
    | error cause => exact (Prod.mk.inj hinsert).2 ▸ hkeeps

end Reaches

end Galley
