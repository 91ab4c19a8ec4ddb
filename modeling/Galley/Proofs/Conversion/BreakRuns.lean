import Galley.Proofs.Conversion.Continuation

/-!
  Line breaks in a row.

  A run of `br` elements is called in one context from its first to its last: none of them follows a
  text inside the run, so that nothing is continued there, and none has anything inside it. Before
  its last break a run adds nothing to a section and one break each to a container
  (`lineBreakEffect_of_break_next`); the last one adds a break exactly if something other than a
  list follows (`lineBreakEffect_of_last`). By induction over the run a section gets one break for
  all of it, or none (`exists_breaksLeft`).
-/

namespace Galley

namespace Location

theorem previousSibling?_of_nextSibling? {place next : Location}
    (h : place.nextSibling? = some next) : next.previousSibling? = some place := by
  obtain ⟨node, _ | ⟨⟨label, before, _ | ⟨later, after⟩⟩, crumbs⟩⟩ := place
  · exact absurd h (by simp [nextSibling?])
  · exact absurd h (by simp [nextSibling?])
  · obtain rfl := Option.some.inj h
    rfl

theorem mem_descendants_of_nextSibling? {root place next : Location}
    (hplace : place ∈ root.descendants) (h : place.nextSibling? = some next) :
    next ∈ root.descendants :=
  mem_descendants_of_parent?_eq hplace
    (parent?_of_previousSibling? (previousSibling?_of_nextSibling? h)).symm

theorem levelUnder_of_nextSibling? (root : Location) {place next : Location}
    (h : place.nextSibling? = some next) : root.levelUnder next = root.levelUnder place := by
  obtain ⟨node, _ | ⟨⟨label, before, _ | ⟨later, after⟩⟩, crumbs⟩⟩ := place
  · exact absurd h (by simp [nextSibling?])
  · exact absurd h (by simp [nextSibling?])
  · obtain rfl := Option.some.inj h
    rfl

theorem descendants_of_not_hasChildren {place : Location} (h : ¬ place.node.hasChildren) :
    place.descendants = [] := by
  obtain ⟨node, crumbs⟩ := place
  cases node with
  | text content => rfl
  | comment content => rfl
  | branch label nodes =>
    cases nodes with
    | nil => rfl
    | cons node after => exact absurd rfl h

/-- Siblings that directly follow one another, all of them `br` elements with nothing inside them,
    and no further one right after the last. -/
structure IsBreakRun (run : List Location) : Prop where
  breaks : ∀ place ∈ run, place.node.isElement "br" ∧ ¬ place.node.hasChildren
  consecutive : run.IsChain fun place next => place.nextSibling? = some next
  ends : ∀ last ∈ run.getLast?, ∀ next ∈ last.nextSibling?, ¬ next.node.isElement "br"

theorem IsBreakRun.tail {place next : Location} {run : List Location}
    (h : IsBreakRun (place :: next :: run)) : IsBreakRun (next :: run) where
  breaks := fun other hother => h.breaks other (List.mem_cons_of_mem _ hother)
  consecutive := (List.isChain_cons_cons.1 h.consecutive).2
  ends := h.ends

/-- Whether a sibling follows that is no list. -/
def beforeContent (place : Location) : Bool :=
  place.nextSibling?.any fun next => !(next.node.isElement "ul" || next.node.isElement "ol")

end Location

/-! ## What one break adds -/

section Effect

variable {place next : Location} {context : Context}

/-- A break before another one adds nothing to a section, and itself to any container. -/
theorem lineBreakEffect_of_break_next (hnext : place.nextSibling? = some next)
    (hbreak : next.node.isElement "br") :
    Role.lineBreakEffect place context =
      if context.kind = .sectionBlock then .nothing else .content .lineBreak := by
  have hname : next.node.name? = some "br" := beq_iff_eq.1 hbreak
  have hlist : (next.node.isElement "ul" || next.node.isElement "ol") = false := by
    simp [Node.isElement, hname]
  unfold Role.lineBreakEffect
  rw [hnext]
  dsimp only
  rw [hlist, hbreak]
  cases context <;> rfl

/-- The last break of a run adds itself exactly if something other than a list follows. -/
theorem lineBreakEffect_of_last (hlast : ∀ next ∈ place.nextSibling?, ¬ next.node.isElement "br") :
    Role.lineBreakEffect place context =
      if place.beforeContent then .content .lineBreak else .nothing := by
  unfold Role.lineBreakEffect Location.beforeContent
  cases hnext : place.nextSibling? with
  | none => rfl
  | some next =>
    have hbreak : next.node.isElement "br" = false := Bool.eq_false_iff.2 (hlast next hnext)
    rw [Option.any_some]
    dsimp only
    rw [hbreak]
    cases next.node.isElement "ul" || next.node.isElement "ol" with
    | true => rfl
    | false => cases context <;> rfl

end Effect

/-! ## From one break to the next -/

section Run

variable {settings : ConversionSettings} {limit : Nat} {owner : SectionId} {target : Context}
  {root : Location} {d₀ d : Document} {place next : Location} {answers : Answers}

/-- After a place with nothing inside it comes its next sibling. -/
theorem exists_eq_nextSibling {done after : List Location}
    (hsplit : root.descendants = done ++ place :: after) (hinside : place.descendants = [])
    (hnext : place.nextSibling? = some next) : ∃ rest, after = next :: rest := by
  have hplace : place ∈ root.descendants := by
    rw [hsplit]
    exact List.mem_append_right _ List.mem_cons_self
  obtain ⟨done', rest, hadjacent⟩ := Location.descendants_eq_of_previousSibling?
    (Location.mem_descendants_of_nextSibling? hplace hnext)
    (Location.previousSibling?_of_nextSibling? hnext)
  rw [hinside, List.nil_append] at hadjacent
  exact ⟨rest, (Location.descendants_split_unique hsplit hadjacent).2⟩

/-- What stands right after a node that is no text is called in the same context. -/
theorem inForce_nextSibling {registry : Registry} (hnext : place.nextSibling? = some next)
    (htext : ¬ place.node.isText) (result : Context) :
    inForce registry target root ((place, result) :: answers) next =
      inForce registry target root answers place := by
  have hprevious := Location.previousSibling?_of_nextSibling? hnext
  have hsame : inForce registry target root ([(place, result)] ++ answers) place =
      inForce registry target root answers place := by
    refine inForce_append fun answer hanswer hlt => ?_
    rw [List.mem_singleton.1 hanswer] at hlt
    exact List.lt_irrefl _ hlt
  rw [inForce_of_previousSibling? hprevious, continued?_of_not_isText hprevious htext]
  exact hsame

/-- The document that `count` breaks in a row leave, all called in one context; `last` tells whether
    the last of them stands before something other than a list. -/
def breaksLeft (context : Context) (d : Document) (count : Nat) (last : Bool) : Document :=
  match context with
  | .inSection id =>
    if last then (d.push id.slot (.paragraph {})).push d.size .lineBreak else d
  | _ => d.pushAll (List.replicate (if last then count else count - 1) (context.slot, .lineBreak))

theorem breaksLeft_of_kind_ne {context : Context} (h : context.kind ≠ .sectionBlock) (d : Document)
    (count : Nat) (last : Bool) :
    breaksLeft context d count last =
      d.pushAll (List.replicate (if last then count else count - 1) (context.slot, .lineBreak)) := by
  cases context with
  | inSection id => exact absurd rfl h
  | _ => rfl

theorem applyTo_lineBreak_of_last {context : Context} (hlive : Live d owner context)
    (last : Bool) :
    Effect.applyTo owner context d (if last then .content .lineBreak else .nothing) =
      breaksLeft context d 1 last := by
  cases last with
  | false => cases context <;> rfl
  | true =>
    cases context with
    | inSection id =>
      obtain rfl := hlive.eq_of_inSection
      rfl
    | _ => rfl

/-- A first break and those after it. -/
theorem breaksLeft_succ {context : Context} (hlive : Live d owner context) (count : Nat)
    (last : Bool) :
    breaksLeft context (Effect.applyTo owner context d
        (if context.kind = .sectionBlock then .nothing else .content .lineBreak)) (count + 1) last =
      breaksLeft context d (count + 2) last := by
  cases context with
  | inSection id => rfl
  | _ => cases last <;> rfl

/-- A visit that comes to a break goes on with what its effect leaves. -/
theorem runOn_visit_lineBreak (hlive : Live d owner (inForce (.withDefaults settings) target root
      answers place))
    (hbreak : place.node.isElement "br") (hlevel : root.levelUnder place ≤ limit + 1) :
    ∃ result, ∀ rest,
      (visit (.withDefaults settings) limit target root answers (place :: rest)).runOn d =
        (visit (.withDefaults settings) limit target root ((place, result) :: answers) rest).runOn
          ((Role.lineBreakEffect place (inForce (.withDefaults settings) target root answers
            place)).applyTo owner (inForce (.withDefaults settings) target root answers place) d) :=
  ⟨_, fun rest => runOn_visit_cons (assembled_withDefaults settings)
    (role?_eq_lineBreak.2 hbreak) hlive hlevel rest⟩

/-- A run of breaks is called in one context from its first to its last, and leaves what
    `breaksLeft` says. -/
theorem exists_visit_breaks (hlive : Live d₀ owner target) {first last : Location}
    {run done after : List Location} (hrun : Location.IsBreakRun (first :: run))
    (hlast : (first :: run).getLast? = some last)
    (hsplit : root.descendants = done ++ first :: after)
    (hlevel : root.levelUnder first ≤ limit + 1)
    (hvisit : (visit (.withDefaults settings) limit target root [] done).runOn d₀ =
      (.ok answers, d)) :
    (∀ place ∈ first :: run, ∃ earlier before,
      Reaches (.withDefaults settings) limit target root d₀ place earlier before ∧
        inForce (.withDefaults settings) target root earlier place =
          inForce (.withDefaults settings) target root answers first) ∧
    ∃ rest answers', after = run ++ rest ∧
      (visit (.withDefaults settings) limit target root answers (first :: run)).runOn d =
        (.ok answers', breaksLeft (inForce (.withDefaults settings) target root answers first) d
          (run.length + 1) last.beforeContent) := by
  have hassembled := assembled_withDefaults settings
  induction run generalizing first answers d done after with
  | nil =>
    have hreach : Reaches (.withDefaults settings) limit target root d₀ first answers d :=
      ⟨done, after, hsplit, hlevel, hvisit⟩
    have hcontext := hreach.live hassembled hlive first
    obtain ⟨hbreak, -⟩ := hrun.breaks first List.mem_cons_self
    obtain ⟨result, hcall⟩ := runOn_visit_lineBreak hcontext hbreak hlevel
    rw [lineBreakEffect_of_last (hrun.ends first rfl), applyTo_lineBreak_of_last hcontext] at hcall
    obtain rfl : first = last := Option.some.inj hlast
    constructor
    · intro place hplace
      rw [List.mem_singleton.1 hplace]
      exact ⟨answers, d, hreach, rfl⟩
    · exact ⟨after, (first, result) :: answers, rfl, hcall []⟩
  | cons next run ih =>
    have hreach : Reaches (.withDefaults settings) limit target root d₀ first answers d :=
      ⟨done, after, hsplit, hlevel, hvisit⟩
    have hcontext := hreach.live hassembled hlive first
    obtain ⟨hbreak, hinside⟩ := hrun.breaks first List.mem_cons_self
    obtain ⟨hbreak', -⟩ := hrun.breaks next (List.mem_cons_of_mem _ List.mem_cons_self)
    have hnext := (List.isChain_cons_cons.1 hrun.consecutive).1
    obtain ⟨result, hcall⟩ := runOn_visit_lineBreak hcontext hbreak hlevel
    rw [lineBreakEffect_of_break_next hnext hbreak'] at hcall
    generalize hd₁ : Effect.applyTo owner _ d _ = d₁ at hcall
    obtain ⟨after, rfl⟩ := exists_eq_nextSibling hsplit
      (Location.descendants_of_not_hasChildren hinside) hnext
    -- The walk comes to the next break, and calls it in the same context.
    have hsplit' : root.descendants = (done ++ [first]) ++ next :: after := by
      rw [hsplit, List.append_assoc]
      rfl
    have hlevel' : root.levelUnder next ≤ limit + 1 := by
      rw [Location.levelUnder_of_nextSibling? root hnext]
      exact hlevel
    have hvisit' :
        (visit (.withDefaults settings) limit target root [] (done ++ [first])).runOn d₀ =
        (.ok ((first, result) :: answers), d₁) := by
      rw [visit_append, Edit.runOn_bind, hvisit]
      exact hcall []
    have htext : ¬ first.node.isText := fun htext => by
      rw [isText_iff_key?, isElement_iff_key?.1 hbreak] at htext
      exact absurd htext nofun
    obtain ⟨hcalls, rest, answers', rfl, hrest⟩ := ih hrun.tail hlast hsplit' hlevel' hvisit'
    rw [inForce_nextSibling hnext htext] at hcalls hrest
    have hsucc := breaksLeft_succ hcontext run.length last.beforeContent
    rw [hd₁] at hsucc
    rw [hsucc] at hrest
    constructor
    · intro place hplace
      rcases List.mem_cons.1 hplace with rfl | hplace
      · exact ⟨answers, d, hreach, rfl⟩
      · exact hcalls place hplace
    · exact ⟨rest, answers', rfl, (hcall (next :: run)).trans hrest⟩

/-- **Breaks in a row collapse in a section and nowhere else.** Where a walk with the usual handlers
    comes to the first of a run of breaks, it calls all of them in the context of the first. In a
    section they leave one new paragraph at its end that holds one break, if something other than a
    list follows the run, and nothing otherwise; in a paragraph, a run of text or a link as many
    breaks at its end as the run has, or one less. -/
theorem breaks_in_a_row {settings : ConversionSettings} {root : Location} {d : Document}
    (hd : d.Reachable) {target : Target} {context : Context}
    (hresolve : d.resolve target = .ok context) {run : List Location} {first last : Location}
    (hrun : Location.IsBreakRun run) (hfirst : run.head? = some first)
    (hlast : run.getLast? = some last) {answers : Answers} {middle : Document}
    (hreach : Reaches (.withDefaults settings) settings.maxDepth context root d first answers
      middle) :
    let registry := Registry.withDefaults settings
    let given := inForce registry context root answers first
    (∀ place ∈ run, ∃ earlier before,
      Reaches registry settings.maxDepth context root d place earlier before ∧
        registry.handler? place.node = some Handler.lineBreak ∧
        inForce registry context root earlier place = given) ∧
    ∃ done rest answers' final, root.descendants = done ++ (run ++ rest) ∧
      (visit registry settings.maxDepth context root [] done).runOn d = (.ok answers, middle) ∧
      (visit registry settings.maxDepth context root answers run).runOn middle =
        (.ok answers', final) ∧
      (walk registry settings.maxDepth context root).runOn d =
        ((fun _ => (registry.handled root.descendants).length) <$>
          visit registry settings.maxDepth context root answers' rest).runOn final ∧
      (∀ id, given = .inSection id → final =
        if last.beforeContent then
          (middle.push id.slot (.paragraph {})).push middle.size .lineBreak
        else middle) ∧
      (given.kind ≠ .sectionBlock → final =
        middle.pushAll (List.replicate (if last.beforeContent then run.length else run.length - 1)
          (given.slot, .lineBreak))) := by
  intro registry given
  obtain ⟨rfl, owner, hlive⟩ := live_of_resolve hd.wellFormed hresolve
  obtain ⟨run, rfl⟩ := List.head?_eq_some_iff.1 hfirst
  obtain ⟨done, after, hsplit, hlevel, hvisit⟩ := hreach
  obtain ⟨hcalls, rest, answers', rfl, hbreaks⟩ :=
    exists_visit_breaks hlive hrun hlast hsplit hlevel hvisit
  generalize hfinal : breaksLeft _ middle _ _ = final at hbreaks
  refine ⟨fun place hplace => ?_, done, rest, answers', final, hsplit, hvisit, hbreaks, ?_,
    fun id hid => ?_, fun hkind => ?_⟩
  · obtain ⟨earlier, before, hplace', hsame⟩ := hcalls place hplace
    have hhandler := (assembled_withDefaults settings).handler?_of_some
      (role?_eq_lineBreak.2 (hrun.breaks place hplace).1)
    exact ⟨earlier, before, hplace', hhandler, hsame⟩
  · have hwhole : (visit registry settings.maxDepth target.context root [] root.descendants).runOn
        d = (visit registry settings.maxDepth target.context root answers' rest).runOn final := by
      rw [hsplit, ← List.cons_append, visit_append, Edit.runOn_bind, hvisit]
      dsimp only
      rw [visit_append, Edit.runOn_bind, hbreaks]
    rw [walk_eq_visit, Edit.runOn_map, Edit.runOn_map, hwhole]
  · rw [← hfinal, show inForce _ _ _ _ first = .inSection id from hid]
    rfl
  · rw [← hfinal]
    exact breaksLeft_of_kind_ne hkind _ _ _

/-- Two breaks at the end of a paragraph, of which it gets one. -/
theorem breaks_in_a_row_two :
    let d : Document := (Document.empty.push 0 .sectionBlock).push 1 (.paragraph {})
    let br : Node := .branch (.element "br" []) []
    let root : Location := ⟨.branch .fragment [br, br], []⟩
    let first : Location := ⟨br, [⟨.fragment, [], [br]⟩]⟩
    let last : Location := ⟨br, [⟨.fragment, [br], []⟩]⟩
    d.Reachable ∧ d.resolve (.intoParagraph ⟨2⟩) = .ok (.inParagraph ⟨2⟩) ∧
      Location.IsBreakRun [first, last] ∧
      Reaches (.withDefaults {}) 512 (.inParagraph ⟨2⟩) root d first [] d ∧
      ∃ answers, (visit (.withDefaults {}) 512 (.inParagraph ⟨2⟩) root [] [first, last]).runOn d =
        (.ok answers, d.push 2 .lineBreak) := by
  intro d br root first last
  have hreachable : d.Reachable :=
    .perform (.addParagraph ⟨1⟩) (.perform .addSection .empty rfl) rfl
  have hrun : Location.IsBreakRun [first, last] := by
    refine ⟨?_, ?_, ?_⟩
    · intro place hplace
      rcases List.mem_pair.1 hplace with rfl | rfl <;> exact ⟨rfl, Bool.false_ne_true⟩
    · exact List.isChain_cons_cons.2 ⟨rfl, .singleton _⟩
    · intro place hplace next hnext
      obtain rfl := Option.some.inj hplace
      exact absurd hnext nofun
  have hreach : Reaches (.withDefaults {}) 512 (.inParagraph ⟨2⟩) root d first [] d :=
    ⟨[], _, rfl, by decide, rfl⟩
  have hgiven : inForce (.withDefaults {}) (.inParagraph ⟨2⟩) root [] first = .inParagraph ⟨2⟩ := by
    rw [inForce_of_first rfl rfl]
    exact if_pos rfl
  have hresolve : d.resolve (.intoParagraph ⟨2⟩) = .ok (.inParagraph ⟨2⟩) := rfl
  obtain ⟨-, done, rest, answers, final, -, -, hvisit, -, -, hfinal⟩ :=
    breaks_in_a_row hreachable hresolve hrun rfl rfl hreach
  rw [hgiven] at hfinal
  exact ⟨hreachable, hresolve, hrun, hreach, answers, hvisit.trans (congrArg _ (hfinal nofun))⟩

end Run

end Galley
