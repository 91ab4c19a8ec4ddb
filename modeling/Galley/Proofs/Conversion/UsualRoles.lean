import Galley.Proofs.Conversion.Progress

/-!
  The roles of the usual tags.

  `usualRoles` is the table that the registry of the usual handlers is assembled from
  (`assembled_withDefaults`). A role that the table has for one key only says what a node is
  (`role?_eq_some_iff`). There are five such roles: those of texts, links, list items, line breaks
  and spans.
-/

namespace Galley

/-- The usual tags and the roles of their handlers. -/
def usualRoles (settings : ConversionSettings) : List (TagKey × Role) :=
  [ (.element "h1", .heading), (.element "h2", .heading), (.element "h3", .heading),
    (.element "h4", .heading), (.element "h5", .heading), (.element "h6", .heading),
    (.element "p", .paragraph), (.element "div", .paragraph),
    (.element "hr", .horizontalRule), (.element "li", .listItem),
    (.element "strong", .formattedText .bold), (.element "bold", .formattedText .bold),
    (.element "i", .formattedText .italic), (.element "em", .formattedText .italic),
    (.element "u", .formattedText .underline),
    (.element "a", .hyperlink), (.element "span", .span settings.reservedSpanClass),
    (.element "br", .lineBreak), (.text, .text) ]

/-- The role that a table gives a key. -/
def roleIn? (entries : List (TagKey × Role)) (key : TagKey) : Option Role :=
  (entries.find? fun entry => entry.1 = key).map Prod.snd

/-- The role of the usual handler of a key. -/
def usualRole? (settings : ConversionSettings) : TagKey → Option Role :=
  roleIn? (usualRoles settings)

/-- A role that a table gives a key stands in the table under that key. -/
theorem mem_of_roleIn? {entries : List (TagKey × Role)} {key : TagKey} {role : Role}
    (h : roleIn? entries key = some role) : (key, role) ∈ entries := by
  obtain ⟨entry, hentry, rfl⟩ := Option.map_eq_some_iff.1 h
  have hkey := List.find?_some hentry
  rw [decide_eq_true_eq] at hkey
  rw [← hkey]
  exact List.mem_of_find?_eq_some hentry

theorem defaultHandlers_eq_map (settings : ConversionSettings) :
    defaultHandlers settings =
      (usualRoles settings).map fun entry => (entry.1, entry.2.handler) := rfl

theorem nodup_usualRoles (settings : ConversionSettings) :
    ((usualRoles settings).map Prod.fst).Nodup := by
  show List.Nodup [TagKey.element "h1", .element "h2", .element "h3", .element "h4",
    .element "h5", .element "h6", .element "p", .element "div", .element "hr", .element "li",
    .element "strong", .element "bold", .element "i", .element "em", .element "u", .element "a",
    .element "span", .element "br", .text]
  decide

/-- Inserting the entries of a table one after the other assembles a registry with its roles,
    where no key comes twice. -/
theorem Registry.Assembled.foldl_insert {entries : List (TagKey × Role)} {registry : Registry}
    {roles : TagKey → Option Role} (h : registry.Assembled roles)
    (hentries : (entries.map Prod.fst).Nodup) :
    ((entries.map fun entry => (entry.1, entry.2.handler)).foldl
      (fun registry entry => registry.insert entry.1 entry.2) registry).Assembled
        fun key => (roleIn? entries key).or (roles key) := by
  induction entries generalizing registry roles with
  | nil => exact h
  | cons entry rest ih =>
    rw [List.map_cons, List.nodup_cons] at hentries
    obtain ⟨hfresh, hrest⟩ := hentries
    have hlater := ih (h.insert entry.1 entry.2) hrest
    intro key
    rw [List.map_cons, List.foldl_cons, hlater key]
    by_cases hkey : key = entry.1
    · have hnone : roleIn? rest key = none := by
        rw [roleIn?, Option.map_eq_none_iff, List.find?_eq_none]
        intro other hother heq
        rw [decide_eq_true_eq] at heq
        exact hfresh (hkey ▸ heq ▸ List.mem_map.2 ⟨other, hother, rfl⟩)
      dsimp only
      rw [hnone, if_pos hkey, roleIn?, List.find?_cons, decide_eq_true hkey.symm]
      rfl
    · dsimp only
      rw [if_neg hkey, roleIn?, roleIn?, List.find?_cons, decide_eq_false (Ne.symm hkey)]

theorem assembled_withDefaults (settings : ConversionSettings) :
    (Registry.withDefaults settings).Assembled (usualRole? settings) := by
  have hassembled := Registry.Assembled.empty.foldl_insert (nodup_usualRoles settings)
  intro key
  rw [Registry.withDefaults, defaultHandlers_eq_map, hassembled key]
  dsimp only
  rw [Option.or_none, usualRole?]

section Roles

variable {settings : ConversionSettings} {node : Node} {key : TagKey} {role : Role}

/-- A role that the table has for one key only. -/
theorem usualRole?_eq_some_iff {tag : TagKey}
    (hrole : usualRole? settings tag = some role)
    (honly : ∀ entry ∈ usualRoles settings, entry.2 = role → entry.1 = tag) :
    usualRole? settings key = some role ↔ key = tag := by
  constructor
  · intro h
    exact honly (key, role) (mem_of_roleIn? h) rfl
  · rintro rfl
    exact hrole

/-- A role that a node has is one that the table gives its key. -/
theorem mem_usualRoles_of_role? (h : node.role? (usualRole? settings) = some role) :
    ∃ key, node.key? = some key ∧ (key, role) ∈ usualRoles settings := by
  obtain ⟨key, hkey, hrole⟩ := Option.bind_eq_some_iff.1 h
  exact ⟨key, hkey, mem_of_roleIn? hrole⟩

theorem isText_iff_key? : node.isText ↔ node.key? = some .text := by
  cases node with
  | text content => exact iff_of_true rfl rfl
  | comment content => exact iff_of_false nofun nofun
  | branch label nodes => cases label <;> exact iff_of_false nofun nofun

theorem isElement_iff_key? {name : String} :
    node.isElement name ↔ node.key? = some (.element name) := by
  cases node with
  | text content => exact iff_of_false nofun nofun
  | comment content => exact iff_of_false nofun nofun
  | branch label nodes =>
    cases label with
    | fragment => exact iff_of_false nofun nofun
    | element other attributes =>
      simp [Node.isElement, Node.name?, Label.name?, Node.key?]

/-- The nodes of a role that the table has for one key only. -/
theorem role?_eq_some_iff {tag : TagKey} (hrole : usualRole? settings tag = some role)
    (honly : ∀ entry ∈ usualRoles settings, entry.2 = role → entry.1 = tag) :
    node.role? (usualRole? settings) = some role ↔ node.key? = some tag := by
  simp only [Node.role?, Option.bind_eq_some_iff, usualRole?_eq_some_iff hrole honly,
    exists_eq_right]

/-- The nodes of a role that the table has for one element only. -/
theorem role?_eq_some_iff_isElement {name : String}
    (hrole : usualRole? settings (.element name) = some role)
    (honly : ∀ entry ∈ usualRoles settings, entry.2 = role → entry.1 = .element name) :
    node.role? (usualRole? settings) = some role ↔ node.isElement name := by
  rw [role?_eq_some_iff hrole honly, isElement_iff_key?]

theorem role?_eq_text : node.role? (usualRole? settings) = some .text ↔ node.isText :=
  (role?_eq_some_iff rfl (by simp [usualRoles])).trans isText_iff_key?.symm

theorem role?_eq_hyperlink :
    node.role? (usualRole? settings) = some .hyperlink ↔ node.isElement "a" :=
  role?_eq_some_iff_isElement rfl (by simp [usualRoles])

theorem role?_eq_listItem :
    node.role? (usualRole? settings) = some .listItem ↔ node.isElement "li" :=
  role?_eq_some_iff_isElement rfl (by simp [usualRoles])

theorem role?_eq_lineBreak :
    node.role? (usualRole? settings) = some .lineBreak ↔ node.isElement "br" :=
  role?_eq_some_iff_isElement rfl (by simp [usualRoles])

theorem role?_eq_span : node.role? (usualRole? settings) = some (.span settings.reservedSpanClass) ↔
    node.isElement "span" :=
  role?_eq_some_iff_isElement rfl (by simp [usualRoles])

end Roles

end Galley
