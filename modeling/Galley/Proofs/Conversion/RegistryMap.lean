import Mathlib.Data.Finmap
import Galley.Proofs.Conversion.UsualRoles
import Galley.Proofs.Text.Search

/-!
  The registry as a finite map on canonical keys.

  A key is canonical when its spelling names it. Every key that a text names is
  (`canonical_of_ofString`), and so are the usual ones, so each entry of a registry that updates
  make can be addressed by its spelling. What an update answers, and what it makes of the registry,
  is what it answers for the finite map of the entries and makes of it (`perform_eq_onMap`); along a
  sequence of updates registry and map stay together (`toFinmap_updateAll`).
-/

namespace Galley

/-! ## The texts that name a key -/

section TagNameCharacters

variable {c : Char}

theorem toNat_lt_of_isTagNameChar (h : isTagNameChar c) : c.toNat < 128 := by
  simp only [isTagNameChar, Bool.or_eq_true, beq_iff_eq] at h
  rcases h with ((h | rfl) | rfl) | rfl
  · have hbound (last : Char) (hlast : last.toNat < 128) (hle : c.val ≤ last.val) :
        c.toNat < 128 :=
      Nat.lt_of_le_of_lt (UInt32.le_iff_toNat_le.1 hle) hlast
    rcases Bool.or_eq_true_iff.1 h with halpha | hdigit
    · rcases Bool.or_eq_true_iff.1 halpha with hupper | hlower
      · exact hbound 'Z' (by decide) (of_decide_eq_true hupper).2
      · have hrange := Bool.and_eq_true_iff.1 hlower
        exact hbound 'z' (by decide) (of_decide_eq_true hrange.2)
    · have hrange := Bool.and_eq_true_iff.1 hdigit
      exact hbound '9' (by decide) (of_decide_eq_true hrange.2)
  all_goals decide

theorem ascii_tagNameChar : ∀ n < 128, isTagNameChar (Char.ofNat n) →
    Text.isBlank (Char.ofNat n) = false ∧ isTagNameChar (Char.ofNat n).toLower := by
  decide

/-- What trimming and lower-casing do to a character of a tag name. -/
theorem tagNameChar_facts (h : isTagNameChar c) :
    Text.isBlank c = false ∧ isTagNameChar c.toLower := by
  have hfacts := ascii_tagNameChar c.toNat (toNat_lt_of_isTagNameChar h)
  rw [Char.ofNat_toNat] at hfacts
  exact hfacts h

end TagNameCharacters

/-- An element name in the form that parsed markup has it: without the blanks around it, and in
    lower case as far as ASCII goes. -/
def elementName (tag : String) : String :=
  String.ofList ((Text.trim tag.toList).map Char.toLower)

namespace TagKey

variable {tag name : String} {key : TagKey}

theorem ofString_eq_text_iff :
    ofString tag = .ok .text ↔ Text.trim tag.toList = textSpelling.toList := by
  unfold ofString
  dsimp only
  split_ifs with htext <;> simp [htext]

theorem ofString_eq_element_iff :
    ofString tag = .ok (.element name) ↔
      Text.trim tag.toList ≠ [] ∧ (Text.trim tag.toList).all isTagNameChar ∧
        name = elementName tag := by
  unfold ofString
  dsimp only
  split_ifs with htext hempty hall
  · refine iff_of_false nofun fun h => ?_
    rw [htext] at h
    exact absurd h.2.1 (by decide)
  · exact iff_of_false nofun fun h => h.1 hempty
  · refine ⟨fun h => ⟨hempty, hall, ?_⟩, fun h => ?_⟩
    · injection h with h
      injection h with h
      exact h.symm
    · rw [h.2.2, elementName]
  · exact iff_of_false nofun fun h => hall h.2.1

/-- A text that names no key is rejected as a tag, and the error shows it without the blanks around
    it. -/
theorem ofString_eq_error {cause : ConvertError} (h : ofString tag = .error cause) :
    ∃ fault, cause = .invalidTag (String.ofList (Text.trim tag.toList)) fault := by
  unfold ofString at h
  dsimp only at h
  split_ifs at h with htext hempty hall
  · injection h with h
    rw [hempty, ← h]
    exact ⟨.empty, rfl⟩
  · injection h with h
    exact ⟨.forbiddenCharacter, h.symm⟩

/-- A key that its own spelling names. -/
def Canonical (key : TagKey) : Prop :=
  ofString key.spelling = .ok key

instance : Decidable key.Canonical :=
  match h : ofString key.spelling with
  | .ok other => decidable_of_iff (other = key) (by rw [Canonical, h, Except.ok.injEq])
  | .error cause => .isFalse (by rw [Canonical, h]; exact nofun)

/-- Reading a key twice changes nothing: what a text names, its spelling names too. -/
theorem canonical_of_ofString (h : ofString tag = .ok key) : key.Canonical := by
  cases key with
  | text => decide
  | element name =>
    obtain ⟨hne, hall, rfl⟩ := ofString_eq_element_iff.1 h
    have hchars := fun c hc => tagNameChar_facts (List.all_eq_true.1 hall c hc)
    have hlower : (elementName tag).toList = (Text.trim tag.toList).map Char.toLower :=
      String.toList_ofList
    have htrim : Text.trim (elementName tag).toList = (Text.trim tag.toList).map Char.toLower := by
      rw [hlower]
      refine Text.trim_eq_self fun c hc => ?_
      obtain ⟨upper, hupper, rfl⟩ := List.mem_map.1 hc
      exact (tagNameChar_facts (hchars upper hupper).2).1
    show ofString (elementName tag) = .ok (.element (elementName tag))
    rw [ofString_eq_element_iff, htrim]
    refine ⟨mt List.map_eq_nil_iff.1 hne, ?_, ?_⟩
    · rw [List.all_map, List.all_eq_true]
      exact fun c hc => (hchars c hc).2
    · have hagain : (Text.trim tag.toList).map (Char.toLower ∘ Char.toLower) =
          (Text.trim tag.toList).map Char.toLower :=
        List.map_congr_left fun c _ => Char.toLower_toLower_eq_toLower c
      show _ = String.ofList ((Text.trim (elementName tag).toList).map Char.toLower)
      rw [htrim, List.map_map, hagain, elementName]

end TagKey

/-! ## Entries as a finite map -/

/-- Handlers by key, without an order of the entries. -/
abbrev TagMap := Finmap fun _ : TagKey => Handler

namespace Registry

/-- The finite map that the entries of a registry make up. -/
def toFinmap (registry : Registry) : TagMap :=
  (registry.entries.map Prod.toSigma).toFinmap

section Entries

variable {registry : Registry} {key : TagKey} {handler : Handler}

theorem lookup_toFinmap : registry.toFinmap.lookup key = registry.find? key := by
  rw [toFinmap, Finmap.dlookup_list_toFinmap, find?]
  induction registry.entries with
  | nil => rfl
  | cons entry rest ih =>
    obtain ⟨other, handler⟩ := entry
    by_cases h : other = key
    · subst h
      rw [List.find?_cons, decide_eq_true rfl]
      exact List.dlookup_cons_eq (rest.map Prod.toSigma) other handler
    · rw [List.find?_cons, decide_eq_false h, List.map_cons,
        List.dlookup_cons_ne _ _ (Ne.symm h), ih]

theorem mem_keys_iff : key ∈ registry.keys ↔ (registry.find? key).isSome := by
  rw [keys, find?, Option.isSome_map, List.find?_isSome, List.mem_map]
  simp only [decide_eq_true_eq]

theorem mem_toFinmap : key ∈ registry.toFinmap ↔ key ∈ registry.keys := by
  rw [← Finmap.lookup_isSome, lookup_toFinmap, mem_keys_iff]

theorem toFinmap_insert :
    (registry.insert key handler).toFinmap = registry.toFinmap.insert key handler := by
  refine Finmap.ext_lookup fun other => ?_
  rw [lookup_toFinmap, find?_insert]
  by_cases h : other = key
  · rw [if_pos h, h, Finmap.lookup_insert]
  · rw [if_neg h, Finmap.lookup_insert_of_ne _ h, lookup_toFinmap]

theorem toFinmap_erase : (registry.erase key).toFinmap = registry.toFinmap.erase key := by
  refine Finmap.ext_lookup fun other => ?_
  rw [lookup_toFinmap, find?_erase]
  by_cases h : other = key
  · rw [if_pos h, h, Finmap.lookup_erase]
  · rw [if_neg h, Finmap.lookup_erase_ne h, lookup_toFinmap]

theorem pairwise_keys : registry.keys.Pairwise TagKey.Before :=
  List.pairwise_map.2 registry.sorted

theorem nodup_keys : registry.keys.Nodup := by
  refine registry.pairwise_keys.imp ?_
  rintro key _ h rfl
  exact TagKey.Before.irrefl key h

theorem card_keys_toFinmap : registry.toFinmap.keys.card = registry.size := by
  have hkeys : registry.toFinmap.keys = registry.keys.toFinset := by
    ext key
    rw [Finmap.mem_keys, mem_toFinmap, List.mem_toFinset]
  rw [hkeys, List.toFinset_card_of_nodup nodup_keys, keys, List.length_map, size]

/-- No key comes before that of text nodes. -/
theorem head?_keys (h : .text ∈ registry.keys) : registry.keys.head? = some .text := by
  have hsorted := registry.pairwise_keys
  cases hkeys : registry.keys with
  | nil => exact absurd (hkeys ▸ h) List.not_mem_nil
  | cons first rest =>
    rw [hkeys] at h hsorted
    rcases List.mem_cons.1 h with h | h
    · rw [h, List.head?_cons]
    · have hbefore := (List.pairwise_cons.1 hsorted).1 .text h
      cases first <;> exact hbefore.elim

end Entries

/-! ## Updates -/

/-- An update by the text of a tag. -/
inductive Update where
  | register (tag : String) (handler : Handler)
  | replace (tag : String) (handler : Handler)
  | remove (tag : String)

def Update.tag : Update → String
  | register tag _ => tag
  | replace tag _ => tag
  | remove tag => tag

/-- The handler that an update takes out, and the registry that it makes. -/
def perform (registry : Registry) : Update → Except ConvertError (Option Handler × Registry)
  | .register tag handler => (registry.register tag handler).map fun later => (none, later)
  | .replace tag handler => registry.replace tag handler
  | .remove tag => registry.remove tag

/-- The registry that is there after an update, whether it succeeds or not. -/
def after (registry : Registry) (update : Update) : Registry :=
  match registry.perform update with
  | .ok (_, later) => later
  | .error _ => registry

/-- The registry after a sequence of updates. -/
def updateAll (registry : Registry) (updates : List Update) : Registry :=
  updates.foldl after registry

/-- What an update of the entry under a key does to a finite map. -/
def Update.onEntry (map : TagMap) (key : TagKey) :
    Update → Except ConvertError (Option Handler × TagMap)
  | register _ handler =>
    if key ∈ map then .error (.duplicateHandler key) else .ok (none, map.insert key handler)
  | replace _ handler => .ok (map.lookup key, map.insert key handler)
  | remove _ => .ok (map.lookup key, map.erase key)

/-- What an update does to a finite map: its tag is read first. -/
def Update.onMap (map : TagMap) (update : Update) : Except ConvertError (Option Handler × TagMap) :=
  TagKey.ofString update.tag >>= fun key => update.onEntry map key

/-- The finite map that is there after an update, whether it succeeds or not. -/
def Update.mapAfter (map : TagMap) (update : Update) : TagMap :=
  match update.onMap map with
  | .ok (_, later) => later
  | .error _ => map

section Updates

variable {registry : Registry} {update : Update} {tag : String} {key : TagKey}
variable {handler : Handler} {cause : ConvertError}

/-- On an update whose tag names a key, the registry acts as the finite map of its entries. -/
theorem perform_eq_onMap :
    (registry.perform update).map (Prod.map id toFinmap) = update.onMap registry.toFinmap := by
  cases update with
  | register tag handler =>
    simp only [perform, register, Update.onMap, Update.tag]
    cases TagKey.ofString tag with
    | error cause => rfl
    | ok key =>
      by_cases h : key ∈ registry.toFinmap
      · have hfind : (registry.find? key).isSome := mem_keys_iff.1 (mem_toFinmap.1 h)
        simp only [bind, Except.bind, Update.onEntry, if_pos h, if_pos hfind]
        rfl
      · have hfind : ¬ (registry.find? key).isSome :=
          fun hfind => h (mem_toFinmap.2 (mem_keys_iff.2 hfind))
        simp only [bind, Except.bind, Update.onEntry, if_neg h, if_neg hfind]
        rw [← toFinmap_insert]
        rfl
  | replace tag handler =>
    simp only [perform, replace, Update.onMap, Update.tag]
    cases TagKey.ofString tag with
    | error cause => rfl
    | ok key =>
      simp only [bind, Except.bind, Update.onEntry]
      rw [lookup_toFinmap, ← toFinmap_insert]
      rfl
  | remove tag =>
    simp only [perform, remove, Update.onMap, Update.tag]
    cases TagKey.ofString tag with
    | error cause => rfl
    | ok key =>
      simp only [bind, Except.bind, Update.onEntry]
      rw [lookup_toFinmap, ← toFinmap_erase]
      rfl

theorem toFinmap_after :
    (registry.after update).toFinmap = update.mapAfter registry.toFinmap := by
  rw [after, Update.mapAfter, ← perform_eq_onMap]
  cases registry.perform update <;> rfl

theorem toFinmap_updateAll {updates : List Update} :
    (registry.updateAll updates).toFinmap = updates.foldl Update.mapAfter registry.toFinmap := by
  induction updates generalizing registry with
  | nil => rfl
  | cons update rest ih =>
    rw [updateAll, List.foldl_cons, List.foldl_cons, ← toFinmap_after]
    exact ih

/-- An update that fails leaves the registry as it is. -/
theorem after_of_error (h : registry.perform update = .error cause) :
    registry.after update = registry := by
  rw [after, h]

/-! ### Canonical registries -/

/-- Each key is named by its own spelling. -/
def Canonical (registry : Registry) : Prop :=
  ∀ key ∈ registry.keys, key.Canonical

theorem Canonical.insert (h : registry.Canonical) (hkey : key.Canonical) :
    (registry.insert key handler).Canonical := by
  intro other hother
  rw [mem_keys_iff, find?_insert] at hother
  by_cases heq : other = key
  · rw [heq]
    exact hkey
  · rw [if_neg heq] at hother
    exact h other (mem_keys_iff.2 hother)

theorem Canonical.erase (h : registry.Canonical) : (registry.erase key).Canonical := by
  intro other hother
  rw [mem_keys_iff, find?_erase] at hother
  by_cases heq : other = key
  · rw [if_pos heq] at hother
    exact absurd hother Bool.false_ne_true
  · rw [if_neg heq] at hother
    exact h other (mem_keys_iff.2 hother)

theorem Canonical.foldl_insert {entries : List (TagKey × Handler)} (h : registry.Canonical)
    (hentries : ∀ key ∈ entries.map Prod.fst, key.Canonical) :
    (entries.foldl (fun registry entry => registry.insert entry.1 entry.2) registry).Canonical := by
  induction entries generalizing registry with
  | nil => exact h
  | cons entry rest ih =>
    rw [List.map_cons, List.forall_mem_cons] at hentries
    exact ih (h.insert hentries.1) hentries.2

theorem canonical_empty : Registry.empty.Canonical :=
  fun _ h => absurd h List.not_mem_nil

/-- The usual keys are written as a text names them. -/
theorem canonical_withDefaults (settings : ConversionSettings) :
    (withDefaults settings).Canonical := by
  refine canonical_empty.foldl_insert ?_
  show ∀ key ∈ [TagKey.element "h1", .element "h2", .element "h3", .element "h4",
    .element "h5", .element "h6", .element "p", .element "div", .element "hr", .element "li",
    .element "strong", .element "bold", .element "i", .element "em", .element "u", .element "a",
    .element "span", .element "br", .text], key.Canonical
  decide

/-- An update stores a handler under no key but one that a text names. -/
theorem Canonical.after (h : registry.Canonical) : (registry.after update).Canonical := by
  unfold Registry.after perform
  cases update with
  | register tag handler =>
    simp only [register]
    cases htag : TagKey.ofString tag with
    | error cause => exact h
    | ok key =>
      simp only [bind, Except.bind]
      by_cases hfind : (registry.find? key).isSome
      · rw [if_pos hfind]
        exact h
      · rw [if_neg hfind]
        exact h.insert (TagKey.canonical_of_ofString htag)
  | replace tag handler =>
    simp only [replace]
    cases htag : TagKey.ofString tag with
    | error cause => exact h
    | ok key => exact h.insert (TagKey.canonical_of_ofString htag)
  | remove tag =>
    simp only [remove]
    cases TagKey.ofString tag with
    | error cause => exact h
    | ok key => exact h.erase

theorem Canonical.updateAll {updates : List Update} (h : registry.Canonical) :
    (registry.updateAll updates).Canonical := by
  induction updates generalizing registry with
  | nil => exact h
  | cons update rest ih => exact ih h.after

end Updates

/-! ## What updates lead to -/

/-- The registries that updates start from. -/
inductive Origin where
  | empty
  | usual (settings : ConversionSettings)

namespace Origin

def registry : Origin → Registry
  | empty => .empty
  | usual settings => .withDefaults settings

def map : Origin → TagMap
  | empty => ∅
  | usual settings =>
    (defaultHandlers settings).foldl (fun map entry => map.insert entry.1 entry.2) ∅

theorem canonical_registry (origin : Origin) : origin.registry.Canonical :=
  match origin with
  | empty => canonical_empty
  | usual settings => canonical_withDefaults settings

theorem toFinmap_registry (origin : Origin) : origin.registry.toFinmap = origin.map := by
  have hempty : Registry.empty.toFinmap = ∅ := Finmap.toFinmap_nil
  cases origin with
  | empty => exact hempty
  | usual settings =>
    rw [registry, map, withDefaults, ← hempty]
    exact (List.foldl_hom toFinmap fun _ _ => toFinmap_insert.symm).symm

end Origin

/-- That a registry is a finite map on canonical keys, in everything that can be asked of it. -/
structure IsMap (registry : Registry) (map : TagMap) : Prop where
  toFinmap_eq : registry.toFinmap = map
  /-- An update answers as it does on the map, and makes the map that it makes there. -/
  perform_eq : ∀ update, (registry.perform update).map (Prod.map id toFinmap) = update.onMap map
  duplicate_iff : ∀ tag handler key,
    registry.register tag handler = .error (.duplicateHandler key) ↔
      TagKey.ofString tag = .ok key ∧ key ∈ map
  replaced : ∀ tag handler key, TagKey.ofString tag = .ok key →
    ∃ later, registry.replace tag handler = .ok (map.lookup key, later)
  removed : ∀ tag key, TagKey.ofString tag = .ok key →
    ∃ later, registry.remove tag = .ok (map.lookup key, later)
  unchanged : ∀ update cause, registry.perform update = .error cause →
    registry.after update = registry
  contains_iff : ∀ tag, registry.contains tag ↔ ∃ key, TagKey.ofString tag = .ok key ∧ key ∈ map
  mem_keys : ∀ key, key ∈ registry.keys ↔ key ∈ map
  keys_sorted : registry.keys.Pairwise TagKey.Before
  text_first : .text ∈ map → registry.keys.head? = some .text
  keys_length : registry.keys.length = registry.size ∧ registry.size = map.keys.card
  /-- A listed key can be read back, and its entry taken out by its spelling. -/
  addressed : ∀ key ∈ registry.keys, TagKey.ofString key.spelling = .ok key ∧
    ∃ handler later, registry.remove key.spelling = .ok (some handler, later) ∧
      registry.find? key = some handler ∧ later.toFinmap = map.erase key
  /-- The handler under a tag other than that of texts is given the elements of its name. -/
  element_handler : ∀ tag, registry.contains tag →
    Text.trim tag.toList ≠ TagKey.textSpelling.toList →
    ∃ handler, map.lookup (.element (elementName tag)) = some handler ∧
      ∀ node : Node, node.isElement (elementName tag) → registry.handler? node = some handler
  text_handler : ∀ node : Node, node.isText → registry.handler? node = map.lookup .text
  /-- A node that is given a handler is a text, or its name is in the form that keys have. -/
  handled : ∀ (node : Node) (handler : Handler), registry.handler? node = some handler →
    node.isText ∨ ∃ name, node.isElement name ∧ TagKey.ofString name = .ok (.element name) ∧
      map.lookup (.element name) = some handler

section Updates

variable {registry : Registry} {tag : String} {key : TagKey} {handler : Handler}

theorem register_eq_duplicateHandler_iff :
    registry.register tag handler = .error (.duplicateHandler key) ↔
      TagKey.ofString tag = .ok key ∧ key ∈ registry.toFinmap := by
  unfold register
  cases htag : TagKey.ofString tag with
  | error cause =>
    obtain ⟨fault, rfl⟩ := TagKey.ofString_eq_error htag
    exact iff_of_false (by rintro ⟨⟩) fun h => nomatch h.1
  | ok read =>
    simp only [bind, Except.bind, mem_toFinmap, mem_keys_iff, Except.ok.injEq]
    split_ifs with hfind
    · constructor
      · intro h
        injection h with h
        injection h with h
        exact ⟨h, h ▸ hfind⟩
      · rintro ⟨rfl, -⟩
        rfl
    · refine iff_of_false nofun ?_
      rintro ⟨rfl, h⟩
      exact hfind h

theorem replace_of_ofString (h : TagKey.ofString tag = .ok key) :
    registry.replace tag handler = .ok (registry.find? key, registry.insert key handler) := by
  rw [replace, h]
  rfl

theorem remove_of_ofString (h : TagKey.ofString tag = .ok key) :
    registry.remove tag = .ok (registry.find? key, registry.erase key) := by
  rw [remove, h]
  rfl

theorem contains_iff_mem_keys :
    registry.contains tag ↔ ∃ key, TagKey.ofString tag = .ok key ∧ key ∈ registry.keys := by
  unfold contains
  cases TagKey.ofString tag with
  | error cause => exact iff_of_false Bool.false_ne_true fun ⟨_, h, _⟩ => nomatch h
  | ok read =>
    dsimp only
    rw [← mem_keys_iff]
    exact ⟨fun h => ⟨read, rfl, h⟩, by rintro ⟨key, ⟨⟩, h⟩; exact h⟩

end Updates

theorem handler?_of_key? {registry : Registry} {node : Node} {key : TagKey}
    (h : node.key? = some key) : registry.handler? node = registry.find? key := by
  rw [handler?, h, Option.bind_some]

theorem Canonical.isMap {registry : Registry} (h : registry.Canonical) :
    registry.IsMap registry.toFinmap where
  toFinmap_eq := rfl
  perform_eq _ := perform_eq_onMap
  duplicate_iff _ _ _ := register_eq_duplicateHandler_iff
  replaced _ handler key hkey :=
    ⟨registry.insert key handler, lookup_toFinmap ▸ replace_of_ofString hkey⟩
  removed _ key hkey := ⟨registry.erase key, lookup_toFinmap ▸ remove_of_ofString hkey⟩
  unchanged _ _ := after_of_error
  contains_iff _ := by simp only [contains_iff_mem_keys, mem_toFinmap]
  mem_keys _ := mem_toFinmap.symm
  keys_sorted := pairwise_keys
  text_first htext := head?_keys (mem_toFinmap.1 htext)
  keys_length := ⟨List.length_map _, card_keys_toFinmap.symm⟩
  addressed key hkey := by
    obtain ⟨handler, hfind⟩ := Option.isSome_iff_exists.1 (mem_keys_iff.1 hkey)
    refine ⟨h key hkey, handler, registry.erase key, ?_, hfind, toFinmap_erase⟩
    rw [remove_of_ofString (h key hkey), hfind]
  element_handler tag hcontains htext := by
    obtain ⟨key, htag, hkey⟩ := contains_iff_mem_keys.1 hcontains
    cases key with
    | text => exact absurd (TagKey.ofString_eq_text_iff.1 htag) htext
    | element name =>
      obtain ⟨-, -, rfl⟩ := TagKey.ofString_eq_element_iff.1 htag
      obtain ⟨handler, hfind⟩ := Option.isSome_iff_exists.1 (mem_keys_iff.1 hkey)
      refine ⟨handler, lookup_toFinmap.trans hfind, fun node hnode => ?_⟩
      rw [handler?_of_key? (isElement_iff_key?.1 hnode), hfind]
  text_handler node hnode := by
    rw [handler?_of_key? (isText_iff_key?.1 hnode), lookup_toFinmap]
  handled node handler hhandler := by
    obtain ⟨key, hkey, hfind⟩ := Option.bind_eq_some_iff.1 hhandler
    cases key with
    | text => exact .inl (isText_iff_key?.2 hkey)
    | element name =>
      have hlisted : .element name ∈ registry.keys := mem_keys_iff.2 (by rw [hfind]; rfl)
      have hcanonical := h _ hlisted
      rw [TagKey.Canonical, TagKey.spelling] at hcanonical
      exact .inr ⟨name, isElement_iff_key?.2 hkey, hcanonical, lookup_toFinmap.trans hfind⟩

/-- **A registry is a finite map on canonical keys.** A text names the key of texts when it is
    `#text` without the blanks around it, and the key of the elements of a name when that is
    made of tag name characters; all other texts are rejected. Whatever updates a registry has
    seen, it is the finite map that the same updates make. -/
theorem registry_is_finite_map :
    (∀ tag, TagKey.ofString tag = .ok .text ↔
      Text.trim tag.toList = TagKey.textSpelling.toList) ∧
    (∀ tag name, TagKey.ofString tag = .ok (.element name) ↔
      Text.trim tag.toList ≠ [] ∧ (Text.trim tag.toList).all isTagNameChar ∧
        name = elementName tag) ∧
    (∀ tag, (∃ key, TagKey.ofString tag = .ok key) ∨ ∃ fault, TagKey.ofString tag =
      .error (.invalidTag (String.ofList (Text.trim tag.toList)) fault)) ∧
    ∀ (origin : Origin) (updates : List Update),
      (origin.registry.updateAll updates).IsMap
        (updates.foldl Update.mapAfter origin.map) := by
  refine ⟨fun _ => TagKey.ofString_eq_text_iff, fun _ _ => TagKey.ofString_eq_element_iff,
    fun tag => ?_, fun origin updates => ?_⟩
  · cases htag : TagKey.ofString tag with
    | ok key => exact .inl ⟨key, rfl⟩
    | error cause =>
      obtain ⟨fault, rfl⟩ := TagKey.ofString_eq_error htag
      exact .inr ⟨fault, rfl⟩
  · rw [← origin.toFinmap_registry, ← toFinmap_updateAll]
    exact origin.canonical_registry.updateAll.isMap

/-- Tags in capitals and between blanks take out and add the entries of the spelled keys; one that
    names no key adds nothing. -/
theorem registry_is_finite_map_custom_tag :
    let updates : List Update := [.remove " LI ", .register "X-Item" Handler.paragraph,
      .replace "<p>" Handler.heading]
    let registry := (Origin.usual {}).registry.updateAll updates
    registry.IsMap (updates.foldl Update.mapAfter (Origin.usual {}).map) ∧
      registry.contains "x-item" ∧ ¬ registry.contains "li" ∧ registry.size = 19 :=
  ⟨registry_is_finite_map.2.2.2 (.usual {}) _, by decide +kernel, by decide +kernel,
    by decide +kernel⟩

end Registry

end Galley
