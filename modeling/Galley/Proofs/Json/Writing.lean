import Mathlib.Tactic.SplitIfs
import Galley.Json.Writer
import Galley.Proofs.Json.Numerals

/-!
  What the writer puts out belongs to the grammar, for every value that the grammar has a text for.
-/

namespace Galley.Json

/-! ## Strings -/

theorem hexNumber?_hexChar : ∀ n < 32,
    hexNumber? '0' '0' (hexChar (n / 16)) (hexChar (n % 16)) = some n := by
  decide

theorem spellsText_escapeChar {content cs : List Char} (c : Char) (h : SpellsText content cs) :
    SpellsText (c :: content) (escapeChar c ++ cs) := by
  unfold escapeChar
  split_ifs with hquote hescape hbackspace htab hline hfeed hreturn hcontrol
  · exact .short (by rw [hquote]; rfl) h
  · exact .short (by rw [hescape]; rfl) h
  · exact .short (by rw [hbackspace]; rfl) h
  · exact .short (by rw [htab]; rfl) h
  · exact .short (by rw [hline]; rfl) h
  · exact .short (by rw [hfeed]; rfl) h
  · exact .short (by rw [hreturn]; rfl) h
  · have hcode := SpellsText.code (hexNumber?_hexChar c.toNat hcontrol)
      (by simp [isHighSurrogate]; omega) (by simp [isLowSurrogate]; omega) h
    rwa [Char.ofNat_toNat] at hcode
  · exact .plain (Nat.not_lt.mp hcontrol) hquote hescape h

theorem spellsText_escape (content : List Char) :
    SpellsText content (content.flatMap escapeChar) := by
  induction content with
  | nil => exact .nil
  | cons c content ih => exact spellsText_escapeChar c ih

theorem toList_writeString (content : String) : (writeString (some content)).toList =
    '"' :: (content.toList.flatMap escapeChar ++ ['"']) := by
  simp [writeString]

/-! ## Lists of values -/

theorem compactItems_eq_map (items : List Json) : compactItems items = items.map compact := by
  induction items with
  | nil => rfl
  | cons item items ih => rw [compactItems, ih, List.map_cons]

theorem compactMembers_eq_map (members : List (Option String × Json)) : compactMembers members =
    members.map fun member => writeString member.1 ++ ":" ++ compact member.2 := by
  induction members with
  | nil => rfl
  | cons member members ih => rw [compactMembers, ih, List.map_cons]

theorem prettyItems_eq_map (level : Nat) (items : List Json) :
    prettyItems level items = items.map (prettyAt level) := by
  induction items with
  | nil => rfl
  | cons item items ih => rw [prettyItems, ih, List.map_cons]

theorem prettyMembers_eq_map (level : Nat) (members : List (Option String × Json)) :
    prettyMembers level members =
      members.map fun member => writeString member.1 ++ ": " ++ prettyAt level member.2 := by
  induction members with
  | nil => rfl
  | cons member members ih => rw [prettyMembers, ih, List.map_cons]

section Join

variable {write : Json → String} {comma : String} {ws ws' : List Char}

/-- Items that are each written right may be joined by a comma with blanks after it. -/
theorem spellsItems_join (hcomma : comma.toList = ',' :: ws) (hblank : Blank ws)
    (hblank' : Blank ws') {items : List Json} (hne : items ≠ [])
    (hitems : ∀ item ∈ items, Spells item (write item).toList) :
    SpellsItems items ((String.intercalate comma (items.map write)).toList ++ ws') := by
  induction items with
  | nil => exact absurd rfl hne
  | cons item items ih =>
    have hitem := hitems item (by simp)
    cases items with
    | nil => simpa using SpellsItems.last hitem hblank'
    | cons next items =>
      have hrest := ih (by simp) fun other hmem => hitems other (by simp [hmem])
      simpa [String.intercalate_cons_cons, hcomma] using
        SpellsItems.more hitem blank_nil hblank hrest

theorem spellsMember_write (name : String) {value : Json} {colon : String} {gap : List Char}
    (hcolon : colon.toList = ':' :: gap) (hgap : Blank gap)
    (hvalue : Spells value (write value).toList) :
    SpellsMember (name, value) (writeString (some name) ++ colon ++ write value).toList := by
  have hmember := SpellsMember.mk (spellsText_escape name.toList) blank_nil hgap hvalue
  simpa [toList_writeString, hcolon] using hmember

theorem spellsMembers_join {writeMember : String × Json → String}
    (hcomma : comma.toList = ',' :: ws) (hblank : Blank ws)
    (hblank' : Blank ws') {members : List (String × Json)} (hne : members ≠ [])
    (hmembers : ∀ member ∈ members, SpellsMember member (writeMember member).toList) :
    SpellsMembers members
      ((String.intercalate comma (members.map writeMember)).toList ++ ws') := by
  induction members with
  | nil => exact absurd rfl hne
  | cons member members ih =>
    have hmember := hmembers member (by simp)
    cases members with
    | nil => simpa using SpellsMembers.last hmember hblank'
    | cons next members =>
      have hrest := ih (by simp) fun other hmem => hmembers other (by simp [hmem])
      simpa [String.intercalate_cons_cons, hcomma] using
        SpellsMembers.more hmember blank_nil hblank hrest

end Join

/-! ## Values -/

theorem spells_writeString (content : String) :
    Spells (.text content) (writeString (some content)).toList := by
  have htext := Spells.string (spellsText_escape content.toList)
  rwa [String.ofList_toList, ← toList_writeString] at htext

/-- Every value on one line belongs to the grammar. -/
theorem spells_compact {value : Json} (h : Writable value) : Spells value value.compact.toList := by
  induction h with
  | null => exact .null
  | bool value =>
    cases value with
    | false => exact .false
    | true => exact .true
  | number hnumeral => simpa [compact, writeLeaf] using Spells.number hnumeral
  | text content => exact spells_writeString content
  | @array items hitems ih =>
    by_cases hne : items = []
    · subst hne
      exact .emptyArray blank_nil
    · have hjoin := spellsItems_join (rfl : ",".toList = [',']) blank_nil blank_nil hne ih
      simpa [compact, compactItems_eq_map] using Spells.array blank_nil hjoin
  | @record members hmembers ih =>
    by_cases hne : members = []
    · subst hne
      exact .emptyObject blank_nil
    · have hjoin := spellsMembers_join (rfl : ",".toList = [',']) blank_nil blank_nil hne
        fun member hmem => spellsMember_write member.1 (rfl : ":".toList = [':']) blank_nil
          (ih member hmem)
      simpa [compact, record, compactMembers_eq_map, Function.comp_def] using
        Spells.object blank_nil hjoin

theorem blank_newLine (level : Nat) : Blank (newLine level).toList := by
  simp [newLine, Blank, isBlank]

theorem toList_comma_newLine (level : Nat) :
    ("," ++ newLine level).toList = ',' :: (newLine level).toList := by
  simp

/-- Every value over several lines belongs to the grammar. -/
theorem spells_prettyAt {value : Json} (h : Writable value) (level : Nat) :
    Spells value (prettyAt level value).toList := by
  induction h generalizing level with
  | null => simpa [prettyAt, writeLeaf] using Spells.null
  | bool value =>
    cases value with
    | false => simpa [prettyAt, writeLeaf] using Spells.false
    | true => simpa [prettyAt, writeLeaf] using Spells.true
  | number hnumeral => simpa [prettyAt, writeLeaf] using Spells.number hnumeral
  | text content => simpa [prettyAt, writeLeaf, Json.text] using spells_writeString content
  | @array items hitems ih =>
    cases items with
    | nil => simpa [prettyAt, writeLeaf] using Spells.emptyArray blank_nil
    | cons item items =>
      have hline := blank_newLine (level + 1)
      have hjoin := spellsItems_join (toList_comma_newLine (level + 1)) hline
        (blank_newLine level) (List.cons_ne_nil item items) fun other hmem =>
          ih other hmem (level + 1)
      simpa [prettyAt, writeBlock, prettyItems_eq_map] using Spells.array hline hjoin
  | @record members hmembers ih =>
    cases members with
    | nil => simpa [prettyAt, record, writeLeaf] using Spells.emptyObject blank_nil
    | cons member members =>
      have hline := blank_newLine (level + 1)
      have hcolon : ": ".toList = [':', ' '] := rfl
      have hgap : Blank [' '] := by simp [Blank, isBlank]
      have hjoin := spellsMembers_join (toList_comma_newLine (level + 1)) hline
        (blank_newLine level) (List.cons_ne_nil member members) fun other hmem =>
          spellsMember_write other.1 hcolon hgap (ih other hmem (level + 1))
      simpa [prettyAt, record, writeBlock, prettyMembers_eq_map, Function.comp_def] using
        Spells.object hline hjoin

theorem isText_compact {value : Json} (h : Writable value) : IsText value value.compact :=
  ⟨[], _, [], blank_nil, spells_compact h, blank_nil, by simp⟩

theorem isText_pretty {value : Json} (h : Writable value) : IsText value value.pretty :=
  ⟨[], _, [], blank_nil, spells_prettyAt h 0, blank_nil, by simp [pretty]⟩

end Galley.Json
