import Galley.Conversion.Walk
import Galley.Proofs.Conversion.ContextRule

/-!
  The walk over a tree as a visit of its places in document order.

  `visit` goes through a list of places: it gives each place that has a handler to it, in the
  context that `inForce` reads off the answers so far, and stops at the first failure or at a
  place that is too deep. `walk_eq_visit` says that the recursive walk, which hands a cursor
  from sibling to sibling, is the visit of the root's descendants. The induction carries the
  agreement of the cursor with the rule (`Agrees`) from each sibling to the next.
-/

namespace Galley

namespace Edit

variable {α β : Type}

theorem ext {edit edit' : Edit α} (h : ∀ d, edit.runOn d = edit'.runOn d) : edit = edit' :=
  funext h

/-- What comes after an edit only matters for the values that the edit can give. -/
theorem bind_congr {edit : Edit α} {next next' : α → Edit β}
    (h : ∀ d value d', edit.runOn d = (.ok value, d') → next value = next' value) :
    edit >>= next = edit >>= next' := by
  refine ext fun d => ?_
  rw [runOn_bind, runOn_bind]
  split
  · next value d' heq => rw [h d value d' heq]
  · rfl

/-- Two counted edits in a row, where the second count does not depend on what the first gave. -/
theorem bind_counts {first : Edit α} {second : α → Edit β} {rest : Edit Nat} {n m : Nat}
    (f : Nat → Nat → Nat)
    (h : ∀ d value d', first.runOn d = (.ok value, d') → rest = (fun _ => m) <$> second value) :
    (do let i ← (fun _ => n) <$> first; let j ← rest; return f i j) =
      (fun _ => f n m) <$> (first >>= second) := by
  simp only [map_eq_pure_bind, bind_assoc, pure_bind]
  refine bind_congr fun d value d' hfirst => ?_
  rw [h d value d' hfirst]
  simp only [map_eq_pure_bind, bind_assoc, pure_bind]

/-- A sequence succeeds where both of its parts do. -/
theorem runOn_bind_ok {edit : Edit α} {next : α → Edit β} {d d' : Document} {value : β}
    (h : (edit >>= next).runOn d = (.ok value, d')) :
    ∃ first middle, edit.runOn d = (.ok first, middle) ∧
      (next first).runOn middle = (.ok value, d') := by
  rw [runOn_bind] at h
  split at h
  · next first middle heq => exact ⟨first, middle, heq, h⟩
  · next cause middle heq => exact absurd (congrArg Prod.fst h) (by simp)

/-- A fold that fails has stopped at its first step that fails, on the document that the steps
    before left. -/
theorem runOn_foldlM_error {step : α → β → Edit α} {steps : List β} {start : α}
    {d d' : Document} {cause : ConvertError}
    (h : (steps.foldlM step start).runOn d = (.error cause, d')) :
    ∃ done failing rest value middle, steps = done ++ failing :: rest ∧
      (done.foldlM step start).runOn d = (.ok value, middle) ∧
      (step value failing).runOn middle = (.error cause, d') := by
  induction steps generalizing start d with
  | nil => exact absurd (congrArg Prod.fst h) (by simp)
  | cons first steps ih =>
    rw [List.foldlM_cons, runOn_bind] at h
    split at h
    · next value middle hfirst =>
      obtain ⟨done, failing, rest, value', middle', rfl, hdone, hfailing⟩ := ih h
      refine ⟨first :: done, failing, rest, value', middle', rfl, ?_, hfailing⟩
      rw [List.foldlM_cons, runOn_bind, hfirst]
      exact hdone
    · next cause' middle hfirst =>
      refine ⟨[], first, steps, start, d, rfl, rfl, ?_⟩
      rw [hfirst]
      exact h

theorem runOn_map (f : α → β) (edit : Edit α) (d : Document) :
    (f <$> edit).runOn d =
      match edit.runOn d with
      | (.ok value, d') => (.ok (f value), d')
      | (.error cause, d') => (.error cause, d') := by
  rw [map_eq_pure_bind, runOn_bind]
  rfl

/-- What is made of the value changes nothing in the document. -/
theorem runOn_map_snd (f : α → β) (edit : Edit α) (d : Document) :
    ((f <$> edit).runOn d).2 = (edit.runOn d).2 := by
  rw [runOn_map]
  rcases edit.runOn d with ⟨_ | _, _⟩ <;> rfl

theorem runOn_map_error (f : α → β) {edit : Edit α} {d : Document} {cause : ConvertError} :
    ((f <$> edit).runOn d).1 = .error cause ↔ (edit.runOn d).1 = .error cause := by
  rw [runOn_map]
  rcases edit.runOn d with ⟨_ | _, _⟩ <;> simp

end Edit

/-! ## Visiting places one after the other -/

/-- The places of a list that have a handler, each with its handler. -/
def Registry.handled (registry : Registry) (places : List Location) :
    List (Location × Handler) :=
  places.filterMap fun place => (registry.handler? place.node).map fun handler => (place, handler)

section Visit

variable (registry : Registry) (limit : Nat) (target : Context) (root : Location)

/-- Calls a handler for a place in the context in force there, and notes what it gave. -/
def callInForce (answers : Answers) (entry : Location × Handler) : Edit Answers := do
  let context ← entry.2 entry.1 (inForce registry target root answers entry.1)
  return (entry.1, context) :: answers

/-- Visits places in the order of the list. -/
def visit (answers : Answers) : List Location → Edit Answers
  | [] => return answers
  | place :: rest =>
    if root.levelUnder place ≤ limit + 1 then
      match registry.handler? place.node with
      | none => visit answers rest
      | some handler => do
        let answers ← callInForce registry target root answers (place, handler)
        visit answers rest
    else throw (.tooDeep limit)

variable {registry limit target root}

theorem handled_append (places rest : List Location) :
    registry.handled (places ++ rest) = registry.handled places ++ registry.handled rest :=
  List.filterMap_append

theorem handled_cons_of_none {place : Location} (places : List Location)
    (h : registry.handler? place.node = none) :
    registry.handled (place :: places) = registry.handled places := by
  rw [Registry.handled, List.filterMap_cons_none (by rw [h]; rfl)]
  rfl

theorem handled_cons_of_some {place : Location} {handler : Handler} (places : List Location)
    (h : registry.handler? place.node = some handler) :
    registry.handled (place :: places) = (place, handler) :: registry.handled places := by
  rw [Registry.handled, List.filterMap_cons_some (by rw [h]; rfl)]
  rfl

/-- A place without a handler is passed. -/
theorem visit_cons_of_none {answers : Answers} {place : Location} (places : List Location)
    (hlevel : root.levelUnder place ≤ limit + 1) (hnone : registry.handler? place.node = none) :
    visit registry limit target root answers (place :: places) =
      visit registry limit target root answers places := by
  rw [visit, if_pos hlevel, hnone]

/-- A place with one is given to it first. -/
theorem visit_cons_of_some {answers : Answers} {place : Location} {handler : Handler}
    (places : List Location) (hlevel : root.levelUnder place ≤ limit + 1)
    (hsome : registry.handler? place.node = some handler) :
    visit registry limit target root answers (place :: places) =
      callInForce registry target root answers (place, handler) >>= fun answers =>
        visit registry limit target root answers places := by
  rw [visit, if_pos hlevel, hsome]

theorem visit_cons_of_tooDeep {answers : Answers} {place : Location} (places : List Location)
    (hlevel : ¬ root.levelUnder place ≤ limit + 1) :
    visit registry limit target root answers (place :: places) = throw (.tooDeep limit) := by
  rw [visit, if_neg hlevel]

theorem visit_append (answers : Answers) (places rest : List Location) :
    visit registry limit target root answers (places ++ rest) =
      visit registry limit target root answers places >>= fun answers =>
        visit registry limit target root answers rest := by
  induction places generalizing answers with
  | nil => rw [List.nil_append, visit, pure_bind]
  | cons place places ih =>
    rw [List.cons_append, visit, visit]
    split
    · split
      · exact ih answers
      · rw [bind_assoc]
        exact congrArg _ (funext ih)
    · rfl

/-- Where no place is too deep, visiting is calling the handled places one after the other. -/
theorem visit_eq_foldlM {places : List Location}
    (h : ∀ place ∈ places, root.levelUnder place ≤ limit + 1) (answers : Answers) :
    visit registry limit target root answers places =
      (registry.handled places).foldlM (callInForce registry target root) answers := by
  induction places generalizing answers with
  | nil => rfl
  | cons place places ih =>
    have ih := ih fun other hother => h other (List.mem_cons_of_mem _ hother)
    rw [visit, if_pos (h place List.mem_cons_self)]
    split
    · next hnone => rw [handled_cons_of_none places hnone, ih]
    · next handler hsome =>
      rw [handled_cons_of_some places hsome, List.foldlM_cons]
      exact congrArg _ (funext ih)

/-- A visit that succeeds met no place that is too deep. -/
theorem runOn_foldlM_of_visit {answers answers' : Answers} {places : List Location}
    {d d' : Document}
    (h : (visit registry limit target root answers places).runOn d = (.ok answers', d')) :
    ((registry.handled places).foldlM (callInForce registry target root) answers).runOn d =
      (.ok answers', d') := by
  induction places generalizing answers d with
  | nil => exact h
  | cons place places ih =>
    rw [visit] at h
    split at h
    · split at h
      · next hnone =>
        rw [handled_cons_of_none places hnone]
        exact ih h
      · next handler hsome =>
        obtain ⟨middle, d₁, hcall, hrest⟩ := Edit.runOn_bind_ok h
        rw [handled_cons_of_some places hsome, List.foldlM_cons, Edit.runOn_bind, hcall]
        exact ih hrest
    · exact absurd (congrArg Prod.fst h) (by simp)

/-- Calls one after the other add one answer each, in their order. -/
theorem answers_of_foldlM {entries : List (Location × Handler)} {answers answers' : Answers}
    {d d' : Document}
    (h : (entries.foldlM (callInForce registry target root) answers).runOn d =
      (.ok answers', d')) :
    ∃ news, answers' = news ++ answers ∧ news.reverse.map Prod.fst = entries.map Prod.fst := by
  induction entries generalizing answers d with
  | nil =>
    simp only [List.foldlM_nil, Edit.runOn_pure, Prod.mk.injEq, Except.ok.injEq] at h
    exact ⟨[], h.1.symm, rfl⟩
  | cons entry entries ih =>
    rw [List.foldlM_cons] at h
    obtain ⟨middle, d₁, hcall, hrest⟩ := Edit.runOn_bind_ok h
    obtain ⟨context, d₂, -, hpure⟩ := Edit.runOn_bind_ok hcall
    simp only [Edit.runOn_pure, Prod.mk.injEq, Except.ok.injEq] at hpure
    obtain ⟨news, rfl, hplaces⟩ := ih hrest
    refine ⟨news ++ [(entry.1, context)], ?_, ?_⟩
    · rw [← hpure.1, List.append_assoc]
      rfl
    · rw [List.reverse_append, List.map_append, hplaces]
      rfl

/-- The answers that a visit adds are for places of its list. -/
theorem mem_of_answers_of_visit {answers answers' : Answers} {places : List Location}
    {d d' : Document}
    (h : (visit registry limit target root answers places).runOn d = (.ok answers', d')) :
    ∃ news, answers' = news ++ answers ∧ ∀ answer ∈ news, answer.1 ∈ places := by
  obtain ⟨news, hnews, hplaces⟩ := answers_of_foldlM (runOn_foldlM_of_visit h)
  refine ⟨news, hnews, fun answer hanswer => ?_⟩
  have hmem : answer.1 ∈ (registry.handled places).map Prod.fst := by
    rw [← hplaces]
    exact List.mem_map.2 ⟨answer, List.mem_reverse.2 hanswer, rfl⟩
  obtain ⟨entry, hentry, heq⟩ := List.mem_map.1 hmem
  obtain ⟨place, hplace, hhandler⟩ := List.mem_filterMap.1 hentry
  obtain ⟨handler, -, rfl⟩ := Option.map_eq_some_iff.1 hhandler
  rw [← heq]
  exact hplace

/-! ## The walk is a visit -/

/-- The context in force before a place, apart from what the place itself may go on with. -/
def standing (registry : Registry) (target : Context) (root : Location) (answers : Answers)
    (place : Location) : Context :=
  match place.previousSibling?, place.parent? with
  | some sibling, _ => inForce registry target root answers sibling
  | none, some owner => startInside registry target root answers owner
  | none, none => target

theorem inForce_eq_getD (answers : Answers) (place : Location) :
    inForce registry target root answers place =
      (continued? registry answers place).getD (standing registry target root answers place) := by
  have hfirst (h : place.previousSibling? = none) : continued? registry answers place = none := by
    rw [continued?, h, if_neg (by simp)]
  cases hprevious : place.previousSibling? with
  | some sibling => rw [inForce_of_previousSibling? hprevious, standing, hprevious]
  | none =>
    cases hparent : place.parent? with
    | some owner =>
      rw [inForce_of_first hprevious hparent, hfirst hprevious, standing, hprevious, hparent]
      rfl
    | none =>
      rw [inForce_of_top hprevious hparent, hfirst hprevious, standing, hprevious, hparent]
      rfl

/-- A node without a handler stands in what was in force before it. -/
theorem inForce_of_not_handled {place : Location} (h : registry.handler? place.node = none)
    (answers : Answers) :
    inForce registry target root answers place = standing registry target root answers place := by
  rw [inForce_eq_getD, continued?, if_neg (by simp [Registry.handles_of_none h])]
  rfl

/-- A cursor holds at a place what the rule reads off the answers. -/
structure Agrees (registry : Registry) (target : Context) (root : Location) (answers : Answers)
    (place : Location) (cursor : Cursor) : Prop where
  current : standing registry target root answers place = cursor.current
  previous : nearestAnswer? registry answers place = cursor.previous

/-- Where the cursor agrees, the walk calls the handler in the context in force. -/
theorem Agrees.contextAfter {answers : Answers} {label : Label} {crumbs : List Crumb}
    {before after : List Node} {node : Node} {handler : Handler} {cursor : Cursor}
    (h : Agrees registry target root answers ⟨node, ⟨label, before, after⟩ :: crumbs⟩ cursor)
    (hhandler : registry.handler? node = some handler) :
    cursor.contextAfter before.head? =
      inForce registry target root answers ⟨node, ⟨label, before, after⟩ :: crumbs⟩ := by
  rw [inForce_eq_getD, h.current, continued?, h.previous]
  have hhandles := Registry.handles_of_some hhandler
  cases before with
  | nil => simp [Cursor.contextAfter, Location.previousSibling?]
  | cons previous before =>
    cases previous with
    | text content =>
      rw [if_pos ⟨hhandles, rfl⟩]
      unfold Cursor.contextAfter
      rcases cursor.previous with _ | _ | _ | _ | _ <;> rfl
    | comment content => rw [if_neg (by simp [Location.previousSibling?, Node.isText])]; rfl
    | branch label nodes => rw [if_neg (by simp [Location.previousSibling?, Node.isText])]; rfl

theorem address_ne_of_lt {place : Location} (h : root.crumbs.length < place.crumbs.length) :
    place.address ≠ root.address := by
  intro heq
  have hlength := congrArg List.length heq
  rw [Location.address, Location.address, Location.length_addressOf,
    Location.length_addressOf] at hlength
  omega

/-- A place below the root that has a handler starts what is inside it with its answer. -/
theorem startInside_of_handled {place : Location} {handler : Handler} (answers : Answers)
    (result : Context) (h : root.crumbs.length < place.crumbs.length)
    (hsome : registry.handler? place.node = some handler) :
    startInside registry target root ((place, result) :: answers) place = result := by
  rw [startInside, if_neg (address_ne_of_lt h), if_pos (Registry.handles_of_some hsome),
    answerAt?_cons_self]
  rfl

/-- A place below the root that has none starts it with what stands before the place. -/
theorem startInside_of_not_handled {place : Location} (answers : Answers)
    (h : root.crumbs.length < place.crumbs.length)
    (hnone : registry.handler? place.node = none) :
    startInside registry target root answers place =
      standing registry target root answers place := by
  have hhandles : ¬ registry.handles place.node = true := by
    rw [Registry.handles_of_none hnone]
    exact Bool.false_ne_true
  rw [startInside, if_neg (address_ne_of_lt h), if_neg hhandles, inForce_of_not_handled hnone]

section Siblings

variable {answers news : Answers} {label : Label} {crumbs : List Crumb}
  {before after : List Node} {node next : Node} {cursor : Cursor}

/-- Answers for a place and for what is inside it do not change what is in force there. -/
theorem inForce_append_inside {place : Location}
    (h : ∀ answer ∈ news, answer.1 = place ∨ answer.1 ∈ place.descendants) :
    inForce registry target root (news ++ answers) place =
      inForce registry target root answers place := by
  refine inForce_append fun answer hanswer hlt => ?_
  rcases h answer hanswer with heq | hinside
  · exact List.lt_irrefl _ (heq ▸ hlt)
  · exact List.lt_irrefl _ (List.lt_trans hlt (Location.address_lt_of_mem_descendants hinside))

/-- A node without a handler, and all that was called inside it, leave the cursor right for the
    next sibling. -/
theorem Agrees.next_of_not_handled
    (h : Agrees registry target root answers ⟨node, ⟨label, before, next :: after⟩ :: crumbs⟩
      cursor)
    (hnone : registry.handler? node = none)
    (hnews : ∀ answer ∈ news,
      answer.1 ∈ Location.descendants ⟨node, ⟨label, before, next :: after⟩ :: crumbs⟩) :
    Agrees registry target root (news ++ answers) ⟨next, ⟨label, node :: before, after⟩ :: crumbs⟩
      cursor := by
  have hlater : ∀ answer ∈ news, ¬ answer.1.address <
      (⟨node, ⟨label, before, next :: after⟩ :: crumbs⟩ : Location).address := by
    intro answer hanswer hlt
    exact List.lt_irrefl _ (List.lt_trans hlt
      (Location.address_lt_of_mem_descendants (hnews answer hanswer)))
  constructor
  · calc inForce registry target root (news ++ answers) _
        = inForce registry target root answers _ :=
          inForce_append_inside fun answer hanswer => .inr (hnews answer hanswer)
      _ = standing registry target root answers _ := inForce_of_not_handled hnone answers
      _ = cursor.current := h.current
  · have hskip : nearestAnswer? registry (news ++ answers)
        ⟨next, ⟨label, node :: before, after⟩ :: crumbs⟩ =
          nearestAnswer? registry (news ++ answers)
            ⟨node, ⟨label, before, next :: after⟩ :: crumbs⟩ := by
      have hhandles := Registry.handles_of_none hnone
      unfold nearestAnswer?
      simp only [Location.earlier, Location.earlierFrom, List.find?_cons, hhandles]
    rw [hskip, nearestAnswer?_append hlater, h.previous]

/-- A node with a handler leaves the context it was called in and what it gave. -/
theorem Agrees.next_of_handled {handler : Handler} (result : Context)
    (hsome : registry.handler? node = some handler)
    (hnews : ∀ answer ∈ news,
      answer.1 ∈ Location.descendants ⟨node, ⟨label, before, next :: after⟩ :: crumbs⟩) :
    Agrees registry target root
      (news ++ (⟨node, ⟨label, before, next :: after⟩ :: crumbs⟩, result) :: answers)
      ⟨next, ⟨label, node :: before, after⟩ :: crumbs⟩
      ⟨inForce registry target root answers ⟨node, ⟨label, before, next :: after⟩ :: crumbs⟩,
        some result⟩ := by
  constructor
  · rw [List.append_cons]
    refine inForce_append_inside fun answer hanswer => ?_
    rcases List.mem_append.1 hanswer with hanswer | hanswer
    · exact .inr (hnews answer hanswer)
    · exact .inl (congrArg Prod.fst (List.mem_singleton.1 hanswer))
  · have hhandles := Registry.handles_of_some hsome
    unfold nearestAnswer?
    simp only [Location.earlier, Location.earlierFrom, List.find?_cons, hhandles,
      Option.bind_some]
    rw [answerAt?_append, answerAt?_cons_self]
    intro answer hanswer heq
    have hlt := Location.address_lt_of_mem_descendants (hnews answer hanswer)
    exact List.lt_irrefl _ (heq ▸ hlt)

end Siblings

/-- Siblings one level too deep stop a visit at once. -/
theorem visit_belowAll_of_tooDeep {answers : Answers} {label : Label} {crumbs : List Crumb}
    {nodes : List Node} (hnodes : nodes ≠ [])
    (hdeep : ¬ crumbs.length + 1 - root.crumbs.length ≤ limit + 1) :
    visit registry limit target root answers (Location.belowAll label crumbs [] nodes) =
      throw (.tooDeep limit) := by
  cases nodes with
  | nil => exact absurd rfl hnodes
  | cons node after =>
    rw [Location.belowAll, visit]
    exact if_neg hdeep

mutual

theorem walkInside_eq_visit (crumbs : List Crumb) (context : Context) (depth : Nat) (node : Node)
    (answers : Answers) (hdepth : crumbs.length = root.crumbs.length + depth)
    (hstart : startInside registry target root answers ⟨node, crumbs⟩ = context) :
    walkInside registry limit depth crumbs context node =
      (fun _ => (registry.handled (Location.below crumbs node)).length) <$>
        visit registry limit target root answers (Location.below crumbs node) :=
  match node with
  | .text _ => rfl
  | .comment _ => rfl
  | .branch label nodes => by
    rw [walkInside, Location.below]
    by_cases hnodes : nodes = []
    · rw [hnodes]
      rfl
    · rw [if_neg (by rwa [List.isEmpty_iff])]
      by_cases hlimit : limit < depth
      · rw [if_pos hlimit, visit_belowAll_of_tooDeep hnodes (by omega)]
        rfl
      · rw [if_neg hlimit]
        refine walkSiblings_eq_visit label crumbs [] ⟨context, none⟩ depth nodes answers hdepth
          (by omega) fun first after heq => ⟨?_, rfl⟩
        rw [heq] at hstart
        exact hstart

/-- The walk along siblings, from a cursor that agrees with the rule at the first of them, is the
    visit of these siblings and of all inside them. -/
theorem walkSiblings_eq_visit (label : Label) (crumbs : List Crumb) (before : List Node)
    (cursor : Cursor) (depth : Nat) (nodes : List Node) (answers : Answers)
    (hdepth : crumbs.length = root.crumbs.length + depth) (hlimit : depth ≤ limit)
    (hagrees : ∀ node after, nodes = node :: after →
      Agrees registry target root answers ⟨node, ⟨label, before, after⟩ :: crumbs⟩ cursor) :
    walkSiblings registry limit depth label crumbs before cursor nodes =
      (fun _ => (registry.handled (Location.belowAll label crumbs before nodes)).length) <$>
        visit registry limit target root answers (Location.belowAll label crumbs before nodes) :=
  match nodes with
  | [] => rfl
  | node :: after => by
    have hagree := hagrees node after rfl
    have hlength :
        (⟨label, before, after⟩ :: crumbs).length = root.crumbs.length + (depth + 1) := by
      rw [List.length_cons, hdepth, Nat.add_assoc]
    have hlevel : root.levelUnder ⟨node, ⟨label, before, after⟩ :: crumbs⟩ ≤ limit + 1 := by
      rw [Location.levelUnder, hlength]
      omega
    have hbelow : root.crumbs.length < (⟨label, before, after⟩ :: crumbs).length := by
      omega
    rw [walkSiblings, Location.belowAll, visit, if_pos hlevel]
    cases hhandler : registry.handler? node with
    | none =>
      have hstart : startInside registry target root answers
          ⟨node, ⟨label, before, after⟩ :: crumbs⟩ = cursor.current :=
        (startInside_of_not_handled answers hbelow hhandler).trans hagree.current
      have hinside := walkInside_eq_visit _ cursor.current (depth + 1) node answers hlength hstart
      rw [handled_cons_of_none _ hhandler, handled_append, List.length_append, visit_append]
      dsimp only
      rw [hinside]
      refine Edit.bind_counts (fun i j => i + j) fun d answers' d' hvisit => ?_
      obtain ⟨news, rfl, hnews⟩ := mem_of_answers_of_visit hvisit
      refine walkSiblings_eq_visit label crumbs (node :: before) cursor depth after _ hdepth hlimit
        fun next rest heq => ?_
      subst heq
      exact hagree.next_of_not_handled hhandler hnews
    | some handler =>
      have hcount (n m : Nat) : n + m + 1 = 1 + n + m := by omega
      rw [handled_cons_of_some _ hhandler, handled_append, List.length_cons, List.length_append,
        hcount]
      dsimp only [callInForce]
      rw [hagree.contextAfter hhandler, bind_assoc, map_bind]
      refine congrArg _ (funext fun result => ?_)
      have hinside := walkInside_eq_visit _ result (depth + 1) node _ hlength
        (startInside_of_handled answers result hbelow hhandler)
      rw [pure_bind, visit_append, hinside]
      refine Edit.bind_counts (fun i j => 1 + i + j) fun d answers' d' hvisit => ?_
      obtain ⟨news, rfl, hnews⟩ := mem_of_answers_of_visit hvisit
      refine walkSiblings_eq_visit label crumbs (node :: before) _ depth after _ hdepth hlimit
        fun next rest heq => ?_
      subst heq
      exact Agrees.next_of_handled result hhandler hnews

end

/-- A walk is the visit of the places below the root in document order, and counts those that
    have a handler. -/
theorem walk_eq_visit (registry : Registry) (limit : Nat) (target : Context) (root : Location) :
    walk registry limit target root =
      (fun _ => (registry.handled root.descendants).length) <$>
        visit registry limit target root [] root.descendants :=
  walkInside_eq_visit root.crumbs target 0 root.node [] rfl (if_pos rfl)

theorem places_of_foldlM {entries : List (Location × Handler)} {answers : Answers}
    {d d' : Document}
    (h : (entries.foldlM (callInForce registry target root) []).runOn d = (.ok answers, d')) :
    answers.reverse.map Prod.fst = entries.map Prod.fst := by
  obtain ⟨news, rfl, hplaces⟩ := answers_of_foldlM h
  rw [List.append_nil]
  exact hplaces

theorem runOn_callInForce_error {answers : Answers} {entry : Location × Handler} {d d' : Document}
    {cause : ConvertError}
    (h : (callInForce registry target root answers entry).runOn d = (.error cause, d')) :
    (entry.2 entry.1 (inForce registry target root answers entry.1)).runOn d =
      (.error cause, d') := by
  rw [callInForce, Edit.runOn_bind] at h
  split at h
  · exact absurd (congrArg Prod.fst h) (by simp)
  · next cause' middle hhandler =>
    obtain ⟨hcause, rfl⟩ := Prod.mk.inj h
    rw [hhandler, Except.error.inj hcause]

theorem mem_handled {places : List Location} {place : Location} {handler : Handler} :
    (place, handler) ∈ registry.handled places ↔
      place ∈ places ∧ registry.handler? place.node = some handler := by
  simp only [Registry.handled, List.mem_filterMap, Option.map_eq_some_iff, Prod.mk.injEq]
  constructor
  · rintro ⟨other, hother, handler', hhandler, rfl, rfl⟩
    exact ⟨hother, hhandler⟩
  · rintro ⟨hplace, hhandler⟩
    exact ⟨place, hplace, handler, hhandler, rfl, rfl⟩

theorem pairwise_handled_descendants (root : Location) :
    (registry.handled root.descendants).Pairwise fun entry later =>
      entry.1.address < later.1.address := by
  refine List.Pairwise.filterMap _ (fun place later hlt entry hentry entry' hentry' => ?_)
    root.pairwise_descendants
  obtain ⟨handler, -, rfl⟩ := Option.map_eq_some_iff.1 hentry
  obtain ⟨handler', -, rfl⟩ := Option.map_eq_some_iff.1 hentry'
  exact hlt

/-- **A walk calls the handlers in document order, each in the context that the rule gives.**

    Where the markup fits the limit, the walk is the calls for the places below the root that
    have a handler (and for no others), one after the other in document order and hence each
    once; the context of a call is `inForce` of the calls made before it, which have one answer
    each. A walk that succeeds counts the calls. One that fails did so in one of the calls, and
    leaves the document as that call left it. -/
theorem walk_eq_calls_in_document_order (registry : Registry) (limit : Nat) (target : Context)
    (root : Location) (hfits : root.FitsDepth limit) :
    walk registry limit target root =
        List.length <$>
          (registry.handled root.descendants).foldlM (callInForce registry target root) [] ∧
      (∀ place handler, (place, handler) ∈ registry.handled root.descendants ↔
        place ∈ root.descendants ∧ registry.handler? place.node = some handler) ∧
      ((registry.handled root.descendants).Pairwise fun entry later =>
        entry.1.address < later.1.address) ∧
      (∀ done, done <+: registry.handled root.descendants → ∀ d answers d',
        (done.foldlM (callInForce registry target root) []).runOn d = (.ok answers, d') →
        answers.reverse.map Prod.fst = done.map Prod.fst) ∧
      (∀ d count d', (walk registry limit target root).runOn d = (.ok count, d') →
        count = (registry.handled root.descendants).length) ∧
      (∀ d cause d', (walk registry limit target root).runOn d = (.error cause, d') →
        ∃ done place handler rest answers middle,
          registry.handled root.descendants = done ++ (place, handler) :: rest ∧
          (done.foldlM (callInForce registry target root) []).runOn d = (.ok answers, middle) ∧
          (handler place (inForce registry target root answers place)).runOn middle =
            (.error cause, d')) := by
  have hvisit : visit registry limit target root [] root.descendants =
      (registry.handled root.descendants).foldlM (callInForce registry target root) [] :=
    visit_eq_foldlM hfits.level_le []
  have hwalk : walk registry limit target root =
      List.length <$>
        (registry.handled root.descendants).foldlM (callInForce registry target root) [] := by
    rw [walk_eq_visit, hvisit, map_eq_pure_bind, map_eq_pure_bind]
    refine Edit.bind_congr fun d answers d' hanswers => ?_
    have hlength := congrArg List.length (places_of_foldlM hanswers)
    rw [List.length_map, List.length_map, List.length_reverse] at hlength
    rw [hlength]
  refine ⟨hwalk, fun place handler => mem_handled, pairwise_handled_descendants root,
    fun done _ d answers d' hdone => places_of_foldlM hdone, fun d count d' hcount => ?_,
    fun d cause d' herror => ?_⟩
  · rw [walk_eq_visit, Edit.runOn_map] at hcount
    split at hcount
    · exact (Except.ok.inj (congrArg Prod.fst hcount)).symm
    · exact absurd (congrArg Prod.fst hcount) (by simp)
  · rw [hwalk, Edit.runOn_map] at herror
    split at herror
    · exact absurd (congrArg Prod.fst herror) (by simp)
    · next cause' middle hfold =>
      obtain ⟨hcause, rfl⟩ := Prod.mk.inj herror
      rw [Except.error.inj hcause] at hfold
      obtain ⟨done, ⟨place, handler⟩, rest, answers, middle', hsplit, hdone, hcall⟩ :=
        Edit.runOn_foldlM_error hfold
      exact ⟨done, place, handler, rest, answers, middle', hsplit, hdone,
        runOn_callInForce_error hcall⟩

/-- A walk over `a<b>c</b>` with handlers for texts and for `b`, at the least limit that the
    markup fits: three calls, the last of them two levels down. -/
theorem walk_eq_calls_in_document_order_nested :
    let root : Location :=
      ⟨.branch (.element "html" []) [.text "a", .branch (.element "b" []) [.text "c"]], []⟩
    let registry := (Registry.empty.insert .text fun _ _ => return .inParagraph ⟨2⟩).insert
      (.element "b") fun _ context => return context
    root.FitsDepth 1 ∧
      walk registry 1 (.inSection ⟨1⟩) root =
        List.length <$>
          (registry.handled root.descendants).foldlM
            (callInForce registry (.inSection ⟨1⟩) root) [] ∧
      ∀ d count d', (walk registry 1 (.inSection ⟨1⟩) root).runOn d = (.ok count, d') →
        count = 3 := by
  intro root registry
  have hfits : root.FitsDepth 1 := by
    unfold Location.FitsDepth
    decide
  obtain ⟨hwalk, -, -, -, hcount, -⟩ :=
    walk_eq_calls_in_document_order registry 1 (.inSection ⟨1⟩) root hfits
  exact ⟨hfits, hwalk, hcount⟩

end Visit

end Galley
