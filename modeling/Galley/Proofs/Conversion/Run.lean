import Galley.Proofs.Conversion.Effect

/-!
  Runs of calls, for registries that hold nothing but the usual handlers.

  A `Run` is a list of calls that succeeded, one after the other, and the document they leave.
  What one call keeps is said once, for its effect (`Live.keeps`, `Live.result`,
  `Live.reachable`); `Run.grownFrom` and `Run.created` follow by induction over the run.
-/

namespace Galley

/-! ## What one call keeps -/

namespace Effect

/-- The objects that are added, without their places. -/
def objects (context : Context) : Effect → List DocumentObject
  | nothing => []
  | flag _ => []
  | blocks before value after => (before ++ value :: after).map .paragraph
  | content value =>
    match context with
    | .inSection _ => [.paragraph {}, value.object]
    | _ => [value.object]

theorem additions_map_snd (owner : SectionId) (context : Context) (next : Nat) (effect : Effect) :
    (effect.additions owner context next).map Prod.snd = effect.objects context := by
  cases effect with
  | nothing => rfl
  | flag format => rfl
  | blocks before value after =>
    rw [additions, objects, List.map_map]
    rfl
  | content value => cases context <;> rfl

/-- New objects are paragraphs of the section or inline objects. -/
theorem parent_of_mem_additions {owner : SectionId} {context : Context} {next : Nat}
    {effect : Effect} {addition : Nat × DocumentObject}
    (h : addition ∈ effect.additions owner context next) :
    (addition.1 = owner.slot ∧ ∃ value, addition.2 = .paragraph value) ∨
      (addition.1 = (context.container next).slot ∧ addition.2.kind.isInline) := by
  cases effect with
  | nothing => exact absurd h List.not_mem_nil
  | flag format => exact absurd h List.not_mem_nil
  | blocks before value after =>
    obtain ⟨paragraph, -, rfl⟩ := List.mem_map.1 h
    exact .inl ⟨rfl, paragraph, rfl⟩
  | content value =>
    rw [additions, List.mem_append, List.mem_singleton] at h
    rcases h with h | rfl
    · cases context with
      | inSection id =>
        rw [List.mem_singleton.1 h]
        exact .inl ⟨rfl, {}, rfl⟩
      | _ => exact absurd h List.not_mem_nil
    · exact .inr ⟨rfl, value.isInline_kind⟩

/-- A call gives the context it was given, or one that names something new. -/
theorem result_eq_or_le (context : Context) (next : Nat) (effect : Effect) :
    effect.result context next = context ∨ next ≤ (effect.result context next).slot := by
  cases effect with
  | nothing => exact .inl rfl
  | flag format => exact .inl rfl
  | blocks before value after => exact .inr (Nat.le_add_right _ _)
  | content value =>
    cases value with
    | run value => exact .inr (Nat.le_add_right _ _)
    | hyperlink value => exact .inr (Nat.le_add_right _ _)
    | _ =>
      cases context with
      | inSection id => exact .inr (Nat.le_refl _)
      | _ => exact .inl rfl

end Effect

namespace Live

variable {d : Document} {owner : SectionId} {context : Context}

/-- What a call does to the document: it changes the run that is open, or it only adds. -/
theorem applyTo_cases (h : Live d owner context) (effect : Effect) :
    (∃ id value format, context = .inRun id ∧ d.object? id.slot = some (.run value) ∧
        effect.objects context = [] ∧
        effect.applyTo owner context d = d.put id.slot (.run (value.apply format))) ∨
      effect.applyTo owner context d = d.pushAll (effect.additions owner context d.size) := by
  cases effect with
  | flag format =>
    cases context with
    | inRun id =>
      obtain ⟨value, hobject⟩ := Document.object?_of_kind?_run h.isKind
      exact .inl ⟨id, value, format, rfl, hobject, rfl, applyTo_flag hobject owner format⟩
    | _ => exact .inr rfl
  | _ => exact .inr rfl

theorem keeps (h : Live d owner context) (effect : Effect) :
    d.Keeps (effect.applyTo owner context d) := by
  rcases h.applyTo_cases effect with ⟨id, value, format, -, hobject, -, heq⟩ | heq
  · rw [heq]
    exact Document.keeps_put_run hobject
  · rw [heq]
    exact Document.keeps_pushAll d _

theorem keepsShape (h : Live d owner context) (effect : Effect) :
    d.KeepsShape (effect.applyTo owner context d) :=
  (h.keeps effect).toKeepsShape

/-! What a call gives is live in the document that it leaves. -/

/-- A paragraph that was just added to the section. -/
theorem of_push_paragraph (h : d.kind? owner.slot = some .sectionBlock) (value : Paragraph) :
    Live (d.push owner.slot (.paragraph value)) owner (.inParagraph ⟨d.size⟩) := by
  have hkind : (d.push owner.slot (.paragraph value)).kind? d.size = some .paragraph :=
    Document.kind?_of_object? Document.object?_push_self
  have hparent : (d.push owner.slot (.paragraph value)).parent? d.size = some owner.slot :=
    Document.parent?_push_self
  exact ⟨hkind, kind?_push_section h, .inr (.block hkind hparent)⟩

/-- An inline container that was just added where inline content goes. -/
theorem of_push_inline (h : Live d owner context) (hcontext : context.kind ≠ .sectionBlock)
    (value : DocumentObject) (inner : Context) (hslot : inner.slot = d.size)
    (hkind : value.kind = inner.kind) (hinline : inner.kind.isInline) :
    Live (d.push context.slot value) owner inner := by
  have hinner : (d.push context.slot value).kind? d.size = some inner.kind := by
    rw [← hkind]
    exact Document.kind?_of_object? Document.object?_push_self
  have hparent : (d.push context.slot value).parent? d.size = some context.slot :=
    Document.parent?_push_self
  have houter : (d.push context.slot value).StandsIn owner.slot context.slot :=
    (h.standsIn hcontext).of_keepsShape (Document.keepsShape_push d _ _)
  rw [← hslot] at hinner hparent
  have hlt : context.slot < inner.slot := hslot ▸ h.slot_lt
  exact ⟨hinner, kind?_push_section h.isSection, .inr (.inside hinner hinline hparent hlt houter)⟩

theorem slot_afterContent (next : Nat) (context : Context) :
    (context.afterContent next).slot = (context.container next).slot := by
  cases context <;> rfl

theorem kind_afterContent (next : Nat) (context : Context) :
    (context.afterContent next).kind ≠ .sectionBlock := by
  cases context <;> exact nofun

/-- The container that inline content goes into is live, also where it was just made. -/
theorem opened (h : Live d owner context) :
    Live (opened owner context d) owner (context.afterContent d.size) := by
  cases context with
  | inSection id => exact of_push_paragraph h.isSection {}
  | inParagraph id => exact h
  | inRun id => exact h
  | inHyperlink id => exact h

theorem result (h : Live d owner context) (effect : Effect) :
    Live (effect.applyTo owner context d) owner (effect.result context d.size) := by
  cases effect with
  | nothing => exact h
  | flag format => exact h.of_keepsShape (h.keepsShape (.flag format))
  | blocks before value after =>
    have hbefore := Document.keeps_pushAll d
      (before.map fun paragraph => (owner.slot, .paragraph paragraph))
    have hlive := of_push_paragraph (hbefore.kind?_eq _ _ h.isSection) value
    rw [Document.size_pushAll, List.length_map] at hlive
    rw [applyTo_blocks]
    exact hlive.of_keepsShape ((Document.keeps_pushAll _ _).toKeepsShape)
  | content value =>
    have hafter : Live (Effect.applyTo owner context d (.content value)) owner
        (context.afterContent d.size) := by
      rw [applyTo_content]
      exact h.opened.of_keepsShape (Document.keepsShape_push _ _ _)
    have hinner := h.opened.of_push_inline (kind_afterContent d.size context) value.object
    rw [slot_afterContent, size_opened, ← applyTo_content] at hinner
    cases value with
    | run value => exact hinner (.inRun _) rfl rfl rfl
    | hyperlink value => exact hinner (.inHyperlink _) rfl rfl rfl
    | text text => exact hafter
    | lineBreak => exact hafter

/-- What a call leaves can be made by operations. -/
theorem reachable (h : Live d owner context) (hd : d.Reachable) (effect : Effect) :
    (effect.applyTo owner context d).Reachable := by
  cases effect with
  | nothing => exact hd
  | flag format =>
    cases context with
    | inRun id =>
      obtain ⟨value, hobject⟩ := Document.object?_of_kind?_run h.isKind
      have happly : (Operation.applyFormat id format).perform d =
          .ok (d.put id.slot (.run (value.apply format))) :=
        Document.updateRun_eq_ok.2 ⟨value, hobject, rfl⟩
      rw [applyTo_flag hobject]
      exact .perform _ hd happly
    | _ => exact hd
  | blocks before value after =>
    exact hd.push_paragraphs h.isSection (before ++ value :: after)
  | content value =>
    have hopened : (Galley.opened owner context d).Reachable := by
      cases context with
      | inSection id => exact hd.push_paragraph h.isSection {}
      | _ => exact hd
    rw [applyTo_content]
    exact hopened.push_inline h.kind?_container value

end Live

/-- A call adds the objects of its effect; `select` sees no flag. -/
theorem created_applyTo {d : Document} {owner : SectionId} {context : Context}
    (h : Live d owner context) {α : Type} {select : DocumentObject → Option α}
    (hselect : ∀ value format, select (.run (TextRun.apply value format)) = select (.run value))
    {start : Nat} (hstart : start ≤ d.size) (effect : Effect) :
    (effect.applyTo owner context d).created select start =
      d.created select start ++ (effect.objects context).filterMap select := by
  rcases h.applyTo_cases effect with ⟨id, value, format, -, hobject, hobjects, heq⟩ | heq
  · rw [heq, hobjects, List.filterMap_nil, List.append_nil]
    exact Document.created_put hobject (hselect _ _)
  · rw [heq, Document.created_pushAll hstart, ← effect.additions_map_snd owner context d.size,
      List.filterMap_map]
    rfl

/-! ## Runs -/

/-- A call that succeeded: the place it was for, the handler by its role, the context it was given
    and what it did. -/
structure Call where
  place : Location
  role : Role
  context : Context
  effect : Effect

/-- The role of the handler that a node's key has. -/
def Node.role? (roles : TagKey → Option Role) (node : Node) : Option Role :=
  node.key?.bind roles

/-- Calls one after the other, from `d₀` on. Each is given the target or something new. -/
inductive Run (roles : TagKey → Option Role) (owner : SectionId) (target : Context)
    (d₀ : Document) : List Call → Document → Prop where
  | start : Run roles owner target d₀ [] d₀
  | call {calls : List Call} {d : Document} (call : Call)
      (hrun : Run roles owner target d₀ calls d) (hlive : Live d owner call.context)
      (hsite : call.context = target ∨ d₀.size ≤ call.context.slot)
      (hrole : call.place.node.role? roles = some call.role)
      (heffect : call.role.effect call.place call.context = .ok call.effect) :
      Run roles owner target d₀ (calls ++ [call]) (call.effect.applyTo owner call.context d)

namespace Run

variable {roles : TagKey → Option Role} {owner : SectionId} {target : Context} {d₀ d : Document}
  {calls : List Call}

theorem keepsShape (h : Run roles owner target d₀ calls d) : d₀.KeepsShape d := by
  induction h with
  | start => exact .refl d₀
  | call call _ hlive _ _ _ ih => exact ih.trans (hlive.keepsShape call.effect)

theorem reachable (h : Run roles owner target d₀ calls d) (hd : d₀.Reachable) : d.Reachable := by
  induction h with
  | start => exact hd
  | call call _ hlive _ _ _ ih => exact hlive.reachable ih call.effect

/-- Where new objects may stand besides in new ones: the section, and the target. -/
def home (owner : SectionId) (target : Context) (slot : Nat) : Prop :=
  slot = owner.slot ∨ slot = target.slot

/-- A run only adds, to the section, to the target and to what is new. -/
theorem grownFrom (h : Run roles owner target d₀ calls d) (htarget : ∀ id, target ≠ .inRun id) :
    Document.GrownFrom (home owner target) d₀ d := by
  induction h with
  | start => exact .refl _ d₀
  | @call calls d call hrun hlive hsite _ _ ih =>
    rcases hlive.applyTo_cases call.effect with ⟨id, value, format, hid, hobject, -, heq⟩ | heq
    · rw [heq]
      refine ih.put ?_ hobject rfl
      rw [hid] at hsite
      exact hsite.resolve_left fun heq => htarget id heq.symm
    · rw [heq]
      refine ih.pushAll fun addition haddition => ?_
      rcases Effect.parent_of_mem_additions haddition with
        ⟨hparent, value, hvalue⟩ | ⟨hparent, hinline⟩
      · rw [hparent, hvalue]
        exact ⟨.inl (.inl rfl), nofun⟩
      · rw [hparent]
        refine ⟨?_, fun hkind => absurd (hkind ▸ hinline) (by decide)⟩
        rcases call.context.slot_container d.size with hslot | hslot
        · rw [hslot]
          exact .inr ih.size_le
        · rw [hslot]
          exact hsite.imp (fun heq => .inr (congrArg Context.slot heq)) id

/-- What a run leaves is what it found and what its calls add, in their order. -/
theorem created_from (h : Run roles owner target d₀ calls d) {α : Type}
    {select : DocumentObject → Option α}
    (hselect : ∀ value format, select (.run (TextRun.apply value format)) = select (.run value))
    {start : Nat} (hstart : start ≤ d₀.size) :
    d.created select start = d₀.created select start ++
      calls.flatMap fun call => (call.effect.objects call.context).filterMap select := by
  induction h with
  | start => exact (List.append_nil _).symm
  | call call hrun hlive _ _ _ ih =>
    have hle := hrun.keepsShape.size_le
    rw [created_applyTo hlive hselect (Nat.le_trans hstart hle), ih, List.flatMap_append,
      List.flatMap_singleton, List.append_assoc]

/-- What a run has made is what its calls add, in their order. -/
theorem created (h : Run roles owner target d₀ calls d) {α : Type}
    {select : DocumentObject → Option α}
    (hselect : ∀ value format, select (.run (TextRun.apply value format)) = select (.run value)) :
    d.created select d₀.size =
      calls.flatMap fun call => (call.effect.objects call.context).filterMap select := by
  rw [h.created_from hselect (Nat.le_refl _), Document.created_self, List.nil_append]

/-- Each call of a run has the role of its node's key, and the effect that goes with it. -/
theorem of_mem (h : Run roles owner target d₀ calls d) :
    ∀ call ∈ calls, call.place.node.role? roles = some call.role ∧
      call.role.effect call.place call.context = .ok call.effect := by
  induction h with
  | start => exact fun call hcall => absurd hcall List.not_mem_nil
  | call call _ _ _ hrole heffect ih =>
    intro other hother
    rcases List.mem_append.1 hother with hother | hother
    · exact ih other hother
    · rw [List.mem_singleton.1 hother]
      exact ⟨hrole, heffect⟩

end Run

end Galley
