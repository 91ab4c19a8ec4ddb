import Galley.Proofs.Conversion.UsualRoles

/-!
  The limit on how deep markup may be nested.

  Where no handler fails, a walk ends well exactly if the markup fits the limit, and else it ends
  with `tooDeep` (`walk_of_neverFails`). A visit under a larger limit does the same as one under a
  smaller, as far as this comes (`visit_of_le`): either both end alike, or the smaller limit cuts
  its visit off where the other goes on. As a visit keeps all objects but the flags of runs
  (`visit_progress`), what is there at the cut is there at the end.
-/

namespace Galley

/-- The handlers of the registry never fail, whatever they are given. -/
def Registry.NeverFails (registry : Registry) : Prop :=
  ∀ node handler, registry.handler? node = some handler → ∀ place context d,
    ∃ result d', (handler place context).runOn d = (.ok result, d')

section Walk

variable {registry : Registry} {limit limit' : Nat} {target : Context} {root : Location}

/-! ## Handlers that never fail -/

theorem runOn_callInForce_ok {answers : Answers} {entry : Location × Handler} {d d' : Document}
    {result : Context}
    (h : (entry.2 entry.1 (inForce registry target root answers entry.1)).runOn d =
      (.ok result, d')) :
    (callInForce registry target root answers entry).runOn d =
      (.ok ((entry.1, result) :: answers), d') := by
  rw [callInForce, Edit.runOn_bind, h]
  rfl

/-- A visit stops at the first place that is too deep, and at nothing else. -/
theorem visit_of_neverFails (h : registry.NeverFails) (places : List Location)
    (answers : Answers) (d : Document) :
    ((∀ place ∈ places, root.levelUnder place ≤ limit + 1) → ∃ answers' d',
      (visit registry limit target root answers places).runOn d = (.ok answers', d')) ∧
    ((¬ ∀ place ∈ places, root.levelUnder place ≤ limit + 1) → ∃ d',
      (visit registry limit target root answers places).runOn d =
        (.error (.tooDeep limit), d')) := by
  induction places generalizing answers d with
  | nil => exact ⟨fun _ => ⟨answers, d, rfl⟩, fun hdeep => absurd (List.forall_mem_nil _) hdeep⟩
  | cons place places ih =>
    rw [List.forall_mem_cons]
    by_cases hlevel : root.levelUnder place ≤ limit + 1
    · simp only [hlevel, true_and]
      cases hhandler : registry.handler? place.node with
      | none =>
        rw [visit_cons_of_none places hlevel hhandler]
        exact ih answers d
      | some handler =>
        obtain ⟨result, d', hresult⟩ := h place.node handler hhandler place
          (inForce registry target root answers place) d
        have hcall : (callInForce registry target root answers (place, handler)).runOn d =
            (.ok ((place, result) :: answers), d') :=
          runOn_callInForce_ok hresult
        rw [visit_cons_of_some places hlevel hhandler, Edit.runOn_bind, hcall]
        exact ih _ d'
    · rw [visit_cons_of_tooDeep places hlevel]
      exact ⟨fun hall => absurd hall.1 hlevel, fun _ => ⟨d, rfl⟩⟩

/-- A walk whose handlers never fail ends well exactly if the markup fits the limit. -/
theorem walk_of_neverFails (h : registry.NeverFails) (d : Document) :
    (root.FitsDepth limit → ∃ count d', (walk registry limit target root).runOn d =
      (.ok count, d')) ∧
    (¬ root.FitsDepth limit → ∃ d', (walk registry limit target root).runOn d =
      (.error (.tooDeep limit), d')) := by
  obtain ⟨hfits, hdeep⟩ :=
    @visit_of_neverFails registry limit target root h root.descendants [] d
  rw [Location.fitsDepth_iff, walk_eq_visit, Edit.runOn_map]
  constructor
  · intro hlevels
    obtain ⟨answers, d', hvisit⟩ := hfits hlevels
    rw [hvisit]
    exact ⟨_, d', rfl⟩
  · intro hlevels
    obtain ⟨d', hvisit⟩ := hdeep hlevels
    rw [hvisit]
    exact ⟨d', rfl⟩

/-! ## Two limits -/

/-- Under a larger limit a visit does the same, or the same up to where the smaller limit cuts. -/
theorem visit_of_le (hle : limit ≤ limit') (places : List Location) (answers : Answers)
    (d : Document) :
    (visit registry limit' target root answers places).runOn d =
        (visit registry limit target root answers places).runOn d ∨
      ∃ done later answers' middle, places = done ++ later ∧
        (visit registry limit' target root answers done).runOn d = (.ok answers', middle) ∧
        (visit registry limit target root answers places).runOn d =
          (.error (.tooDeep limit), middle) := by
  induction places generalizing answers d with
  | nil => exact .inl rfl
  | cons place places ih =>
    by_cases hlevel : root.levelUnder place ≤ limit + 1
    · have hlevel' : root.levelUnder place ≤ limit' + 1 := by omega
      cases hhandler : registry.handler? place.node with
      | none =>
        rw [visit_cons_of_none places hlevel hhandler, visit_cons_of_none places hlevel' hhandler]
        refine (ih answers d).imp_right ?_
        rintro ⟨done, later, answers', middle, rfl, hdone, hcut⟩
        refine ⟨place :: done, later, answers', middle, rfl, ?_, hcut⟩
        rw [visit_cons_of_none done hlevel' hhandler]
        exact hdone
      | some handler =>
        rw [visit_cons_of_some places hlevel hhandler, visit_cons_of_some places hlevel' hhandler,
          Edit.runOn_bind, Edit.runOn_bind]
        cases hcall : (callInForce registry target root answers (place, handler)).runOn d with
        | mk outcome d₁ =>
          cases outcome with
          | error cause => exact .inl rfl
          | ok answers₁ =>
            refine (ih answers₁ d₁).imp_right ?_
            rintro ⟨done, later, answers', middle, rfl, hdone, hcut⟩
            refine ⟨place :: done, later, answers', middle, rfl, ?_, hcut⟩
            rw [visit_cons_of_some done hlevel' hhandler, Edit.runOn_bind, hcall]
            exact hdone
    · rw [visit_cons_of_tooDeep places hlevel]
      exact .inr ⟨[], place :: places, answers, d, rfl, rfl, rfl⟩

variable {roles : TagKey → Option Role} {owner : SectionId}

/-- What a visit has left where the smaller limit cuts it off, the larger one keeps. -/
theorem keeps_of_visit_of_le (hassembled : registry.Assembled roles) {d₀ : Document}
    (hlive : Live d₀ owner target) (hle : limit ≤ limit') (places : List Location) :
    (visit registry limit' target root [] places).runOn d₀ =
        (visit registry limit target root [] places).runOn d₀ ∨
      ((visit registry limit target root [] places).runOn d₀).1 = .error (.tooDeep limit) ∧
        ((visit registry limit target root [] places).runOn d₀).2.Keeps
          ((visit registry limit' target root [] places).runOn d₀).2 := by
  refine (visit_of_le hle places [] d₀).imp_right ?_
  rintro ⟨done, later, answers, middle, rfl, hdone, hcut⟩
  obtain ⟨_, _, hpast, -, hall, -⟩ := visit_progress hassembled hlive .start hdone
  obtain ⟨rfl, rfl⟩ := hall answers rfl
  rcases hlater : (visit registry limit' target root answers later).runOn middle with ⟨outcome, d⟩
  obtain ⟨-, -, -, hkeeps, -, -⟩ := visit_progress hassembled hlive hpast hlater
  rw [hcut, visit_append, Edit.runOn_bind, hdone]
  dsimp only
  rw [hlater]
  exact ⟨rfl, hkeeps⟩

/-- The same for insertions. -/
theorem keeps_of_insertInto_of_le (hassembled : registry.Assembled roles)
    {settings : ConversionSettings} (hle : settings.maxDepth ≤ limit') (markup : Location)
    {d : Document} (hd : d.WellFormed) (into : Target) :
    let short := (Conversion.insertInto ⟨⟨registry, settings⟩, markup⟩ into).runOn d
    let long := (Conversion.insertInto ⟨⟨registry, { settings with maxDepth := limit' }⟩, markup⟩
      into).runOn d
    long = short ∨ short.1 = .error (.tooDeep settings.maxDepth) ∧ short.2.Keeps long.2 := by
  intro short long
  cases hresolve : d.resolve into with
  | error cause =>
    left
    simp only [short, long, Conversion.insertInto, Edit.runOn_bind, Edit.runOn_query, hresolve]
  | ok target =>
    obtain ⟨-, owner, hlive⟩ := live_of_resolve hd hresolve
    simp only [short, long, runOn_insertInto hresolve]
    obtain heq | ⟨hcut, hkeeps⟩ :=
      @keeps_of_visit_of_le _ _ _ _ markup _ _ hassembled d hlive hle markup.descendants
    · left
      rw [Edit.runOn_map, Edit.runOn_map, heq]
    · right
      rw [Edit.runOn_map_error, Edit.runOn_map_snd, Edit.runOn_map_snd]
      exact ⟨hcut, hkeeps⟩

end Walk

theorem Document.KeepsShape.parent?_of_lt {d d' : Document} (h : d.KeepsShape d')
    (hd : d.WellFormed) (hd' : d'.WellFormed) {slot : Nat} (hslot : slot < d.size) :
    d'.parent? slot = d.parent? slot := by
  by_cases hroot : slot = Document.rootSlot
  · rw [hroot, hd.ownerless, hd'.ownerless]
  · obtain ⟨value, hobject⟩ := Document.object?_of_lt_size hslot
    obtain ⟨owner, above, howner, -, -, -⟩ := hd.owned slot value hroot hobject
    rw [howner, h.parent?_eq slot owner howner]

/-- **The limit is exact, and all it does is to cut.**

    With handlers that never fail, a walk ends well where every node that has children is at a
    level within the limit, and else with `tooDeep`. With the usual handlers, an insertion under a
    larger limit does the same as one under a smaller, unless this ends with `tooDeep`; then all
    that it has left is there with the larger limit too, in the same place and, but for the flags
    of runs, with the same value. -/
theorem depth_limit_cuts :
    (∀ registry : Registry, registry.NeverFails → ∀ limit target root d,
      (root.FitsDepth limit → ∃ count d',
        (walk registry limit target root).runOn d = (.ok count, d')) ∧
      (¬ root.FitsDepth limit → ∃ d',
        (walk registry limit target root).runOn d = (.error (.tooDeep limit), d'))) ∧
    ∀ (settings : ConversionSettings) limit', settings.maxDepth ≤ limit' →
      ∀ markup (d : Document) into, d.Reachable →
        let short := (Conversion.insertInto ⟨.ofSettings settings, markup⟩ into).runOn d
        let long := (Conversion.insertInto
          ⟨.ofSettings { settings with maxDepth := limit' }, markup⟩ into).runOn d
        (short.1 ≠ .error (.tooDeep settings.maxDepth) → long = short) ∧
        (short.1 = .error (.tooDeep settings.maxDepth) →
          ∀ slot value, short.2.object? slot = some value →
            long.2.parent? slot = short.2.parent? slot ∧
            ∃ value', long.2.object? slot = some value' ∧ value'.kind = value.kind ∧
              (value.kind ≠ .run → value' = value)) := by
  refine ⟨fun registry h limit target root d => walk_of_neverFails h d, ?_⟩
  intro settings limit' hle markup d into hd short long
  have hassembled := assembled_withDefaults settings
  have hcases : long = short ∨
      short.1 = .error (.tooDeep settings.maxDepth) ∧ short.2.Keeps long.2 :=
    keeps_of_insertInto_of_le hassembled hle markup hd.wellFormed into
  have hkept : short.2.Keeps long.2 := by
    rcases hcases with heq | ⟨-, hkeeps⟩
    · rw [heq]
      exact .refl _
    · exact hkeeps
  refine ⟨fun hcut => hcases.resolve_right fun h => hcut h.1, fun _ slot value hobject => ?_⟩
  have hreachable (conversion : Conversion)
      (h : conversion.converter.registry.Assembled (usualRole? settings)) :
      ((conversion.insertInto into).runOn d).2.Reachable := hd.insertInto h rfl
  have hshort := hreachable ⟨.ofSettings settings, markup⟩ hassembled
  have hlong := hreachable ⟨.ofSettings { settings with maxDepth := limit' }, markup⟩ hassembled
  refine ⟨hkept.parent?_of_lt hshort.wellFormed hlong.wellFormed
    (Document.lt_size_of_object? hobject), ?_⟩
  have hkind := hkept.kind?_eq slot value.kind (Document.kind?_of_object? hobject)
  obtain ⟨value', hobject', hvalue'⟩ := Document.kind?_eq_some_iff.1 hkind
  refine ⟨value', hobject', hvalue', fun hne => ?_⟩
  exact Option.some.inj (hobject'.symm.trans (hkept.object?_eq slot value hobject hne))

/-- A tree one level too deep for a handler that does nothing, and formats of which the innermost is
    cut off. -/
theorem depth_limit_cuts_formats :
    let registry := Registry.empty.insert .text fun _ context => return context
    let nested : Location := ⟨.branch .fragment [.branch (.element "b" []) [.text "x"]], []⟩
    let underlined : Node := .branch (.element "u" []) [.text "x"]
    let formats : Location := ⟨.branch .fragment
      [.branch (.element "strong" []) [.branch (.element "em" []) [underlined]]], []⟩
    let d := Document.empty.push 0 .sectionBlock
    let short := (Conversion.insertInto ⟨.ofSettings { maxDepth := 1 }, formats⟩
      (.intoSection ⟨1⟩)).runOn d
    let long := (Conversion.insertInto ⟨.ofSettings { maxDepth := 3 }, formats⟩
      (.intoSection ⟨1⟩)).runOn d
    registry.NeverFails ∧ ¬ nested.FitsDepth 0 ∧
      (∃ d', (walk registry 0 (.inSection ⟨1⟩) nested).runOn d = (.error (.tooDeep 0), d')) ∧
      d.Reachable ∧ short.1 = .error (.tooDeep 1) ∧
      short.2.object? 3 = some (.run { bold := some true, italic := some true }) ∧
      ∃ value, long.2.object? 3 = some value ∧ value.kind = .run := by
  intro registry nested underlined formats d short long
  have hnever : registry.NeverFails := by
    intro node handler hhandler place context d
    obtain ⟨key, -, hfind⟩ := Option.bind_eq_some_iff.1 hhandler
    rw [Registry.find?_insert] at hfind
    split at hfind
    · rw [← Option.some.inj hfind]
      exact ⟨context, d, rfl⟩
    · exact absurd hfind nofun
  have hdeep : ¬ nested.FitsDepth 0 := by
    unfold Location.FitsDepth
    decide
  have hreachable : d.Reachable := .perform .addSection .empty rfl
  have hcut : short.1 = .error (.tooDeep 1) := by decide +kernel
  have hobject : short.2.object? 3 = some (.run { bold := some true, italic := some true }) := by
    decide +kernel
  obtain ⟨hwalk, hlimits⟩ := depth_limit_cuts
  have hkept := (hlimits { maxDepth := 1 } 3 (by decide) formats d (.intoSection ⟨1⟩) hreachable).2
    hcut 3 _ hobject
  obtain ⟨-, value, hvalue, hkind, -⟩ := hkept
  exact ⟨hnever, hdeep, (hwalk registry hnever 0 _ nested d).2 hdeep, hreachable, hcut, hobject,
    value, hvalue, hkind⟩

end Galley
