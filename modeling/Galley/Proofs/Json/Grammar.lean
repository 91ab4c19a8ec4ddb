import Galley.Json.Reader

/-!
  The grammar of JSON, as a relation between values and the texts that spell them.

  A value has many spellings: blanks may stand around tokens, and a character of a string may be
  escaped or not. `Spells` has one rule for each form of value. The strings of the grammar all stand
  for texts, so that escapes of surrogates only come in pairs. What has a text is `Writable`.
-/

namespace Galley.Json

/-- Blanks, as many as there are. -/
def Blank (cs : List Char) : Prop := ∀ c ∈ cs, isBlank c

theorem blank_nil : Blank [] := by
  simp [Blank]

/-! ## Strings -/

/-- The characters of a text and a way to write them between quotes. -/
inductive SpellsText : List Char → List Char → Prop
  | nil : SpellsText [] []
  | plain {c : Char} {content cs : List Char} (hcontrol : 0x20 ≤ c.toNat) (hquote : c ≠ '"')
      (hescape : c ≠ '\\') (hrest : SpellsText content cs) : SpellsText (c :: content) (c :: cs)
  | short {letter c : Char} {content cs : List Char} (hletter : simpleEscape? letter = some c)
      (hrest : SpellsText content cs) : SpellsText (c :: content) ('\\' :: letter :: cs)
  | code {a b c d : Char} {code : Nat} {content cs : List Char}
      (hcode : hexNumber? a b c d = some code) (hhigh : ¬ isHighSurrogate code)
      (hlow : ¬ isLowSurrogate code) (hrest : SpellsText content cs) :
      SpellsText (Char.ofNat code :: content) ('\\' :: 'u' :: a :: b :: c :: d :: cs)
  | pair {a b c d a' b' c' d' : Char} {high low : Nat} {content cs : List Char}
      (hcode : hexNumber? a b c d = some high) (hhigh : isHighSurrogate high)
      (hcode' : hexNumber? a' b' c' d' = some low) (hlow : isLowSurrogate low)
      (hrest : SpellsText content cs) :
      SpellsText (Char.ofNat (0x10000 + (high - 0xD800) * 0x400 + (low - 0xDC00)) :: content)
        ('\\' :: 'u' :: a :: b :: c :: d :: '\\' :: 'u' :: a' :: b' :: c' :: d' :: cs)

/-! ## Numbers -/

/-- One digit or more. -/
def Digits (cs : List Char) : Prop := cs ≠ [] ∧ ∀ c ∈ cs, c.isDigit

inductive Fraction : List Char → Prop
  | none : Fraction []
  | some {digits : List Char} (hdigits : Digits digits) : Fraction ('.' :: digits)

inductive Exponent : List Char → Prop
  | none : Exponent []
  | unsigned {e : Char} {digits : List Char} (hletter : e = 'e' ∨ e = 'E')
      (hdigits : Digits digits) : Exponent (e :: digits)
  | signed {e sign : Char} {digits : List Char} (hletter : e = 'e' ∨ e = 'E')
      (hsign : sign = '+' ∨ sign = '-') (hdigits : Digits digits) : Exponent (e :: sign :: digits)

/-- A number without its sign. A zero in front is the only digit there. -/
inductive Unsigned : List Char → Prop
  | mk {whole fraction exponent : List Char} (hwhole : Digits whole)
      (hzero : whole = ['0'] ∨ whole.head? ≠ some '0') (hfraction : Fraction fraction)
      (hexponent : Exponent exponent) : Unsigned (whole ++ (fraction ++ exponent))

inductive Numeral : List Char → Prop
  | positive {cs : List Char} (hnumber : Unsigned cs) : Numeral cs
  | negative {cs : List Char} (hnumber : Unsigned cs) : Numeral ('-' :: cs)

/-! ## Values -/

mutual

/-- A value and a way to write it, without blanks around it. -/
inductive Spells : Json → List Char → Prop
  | null : Spells .null ['n', 'u', 'l', 'l']
  | true : Spells (.bool true) ['t', 'r', 'u', 'e']
  | false : Spells (.bool false) ['f', 'a', 'l', 's', 'e']
  | number {cs : List Char} (hnumeral : Numeral cs) : Spells (.number (String.ofList cs)) cs
  | string {content cs : List Char} (htext : SpellsText content cs) :
      Spells (.text (String.ofList content)) ('"' :: (cs ++ ['"']))
  | emptyArray {ws : List Char} (hblank : Blank ws) : Spells (.array []) ('[' :: (ws ++ [']']))
  | array {ws : List Char} {items : List Json} {cs : List Char} (hblank : Blank ws)
      (hitems : SpellsItems items cs) : Spells (.array items) ('[' :: (ws ++ (cs ++ [']'])))
  | emptyObject {ws : List Char} (hblank : Blank ws) : Spells (.record []) ('{' :: (ws ++ ['}']))
  | object {ws : List Char} {members : List (String × Json)} {cs : List Char} (hblank : Blank ws)
      (hmembers : SpellsMembers members cs) :
      Spells (.record members) ('{' :: (ws ++ (cs ++ ['}'])))

/-- The items of an array, one or more. -/
inductive SpellsItems : List Json → List Char → Prop
  | last {item : Json} {cs ws : List Char} (hitem : Spells item cs) (hblank : Blank ws) :
      SpellsItems [item] (cs ++ ws)
  | more {item : Json} {items : List Json} {cs ws ws' cs' : List Char} (hitem : Spells item cs)
      (hblank : Blank ws) (hblank' : Blank ws') (hitems : SpellsItems items cs') :
      SpellsItems (item :: items) (cs ++ (ws ++ ',' :: (ws' ++ cs')))

/-- A member of an object: its name, and its value after a colon. -/
inductive SpellsMember : String × Json → List Char → Prop
  | mk {name ns ws ws' : List Char} {value : Json} {cs : List Char} (hname : SpellsText name ns)
      (hblank : Blank ws) (hblank' : Blank ws') (hvalue : Spells value cs) :
      SpellsMember (String.ofList name, value) ('"' :: (ns ++ '"' :: (ws ++ ':' :: (ws' ++ cs))))

/-- The members of an object, one or more. -/
inductive SpellsMembers : List (String × Json) → List Char → Prop
  | last {member : String × Json} {cs ws : List Char} (hmember : SpellsMember member cs)
      (hblank : Blank ws) : SpellsMembers [member] (cs ++ ws)
  | more {member : String × Json} {members : List (String × Json)} {cs ws ws' cs' : List Char}
      (hmember : SpellsMember member cs) (hblank : Blank ws) (hblank' : Blank ws')
      (hmembers : SpellsMembers members cs') :
      SpellsMembers (member :: members) (cs ++ (ws ++ ',' :: (ws' ++ cs')))

end

/-- A whole text that spells a value, with blanks around it. -/
def IsText (value : Json) (text : String) : Prop :=
  ∃ ws cs ws', Blank ws ∧ Spells value cs ∧ Blank ws' ∧ text.toList = ws ++ (cs ++ ws')

/-! ## The values that have a text -/

/-- Values whose strings and names stand for texts and whose numbers are numerals. -/
inductive Writable : Json → Prop
  | null : Writable .null
  | bool (value : Bool) : Writable (.bool value)
  | number {cs : List Char} (hnumeral : Numeral cs) : Writable (.number (String.ofList cs))
  | text (content : String) : Writable (.text content)
  | array {items : List Json} (hitems : ∀ item ∈ items, Writable item) : Writable (.array items)
  | record {members : List (String × Json)} (hmembers : ∀ member ∈ members, Writable member.2) :
      Writable (.record members)

-- By the length of the text. The last item alone is as long as the items are.
mutual

theorem Spells.writable {value : Json} {cs : List Char} (h : Spells value cs) :
    Writable value := by
  cases h with
  | null => exact .null
  | true => exact .bool true
  | false => exact .bool false
  | number hnumeral => exact .number hnumeral
  | string htext => exact .text _
  | emptyArray hblank => exact .array (by simp)
  | emptyObject hblank => exact .record (by simp)
  | array hblank hitems => exact .array hitems.writable
  | object hblank hmembers => exact .record hmembers.writable
termination_by 2 * cs.length

theorem SpellsItems.writable {items : List Json} {cs : List Char} (h : SpellsItems items cs) :
    ∀ item ∈ items, Writable item := by
  cases h with
  | last hitem hblank => exact List.forall_mem_singleton.2 hitem.writable
  | more hitem hblank hblank' hitems =>
    exact List.forall_mem_cons.2 ⟨hitem.writable, hitems.writable⟩
termination_by 2 * cs.length + 1

theorem SpellsMembers.writable {members : List (String × Json)} {cs : List Char}
    (h : SpellsMembers members cs) : ∀ member ∈ members, Writable member.2 := by
  cases h with
  | last hmember hblank =>
    obtain ⟨_, _, _, hvalue⟩ := hmember
    exact List.forall_mem_singleton.2 hvalue.writable
  | more hmember hblank hblank' hmembers =>
    obtain ⟨_, _, _, hvalue⟩ := hmember
    exact List.forall_mem_cons.2 ⟨hvalue.writable, hmembers.writable⟩
termination_by 2 * cs.length + 1

end

end Galley.Json
