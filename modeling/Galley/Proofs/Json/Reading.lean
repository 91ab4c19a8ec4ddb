import Galley.Proofs.Json.Grammar

/-!
  The reader takes every text of the grammar for the value it spells.

  Each part of the reader is followed on a part of the grammar with anything after it that may
  follow there. Only a number needs to know what follows: it is read as far as it goes.
-/

namespace Galley.Json

/-! ## Blanks -/

theorem skipBlanks_append {ws : List Char} (hblank : Blank ws) (cs : List Char) :
    skipBlanks (ws ++ cs) = skipBlanks cs :=
  List.dropWhile_append_of_pos hblank

theorem skipBlanks_eq_nil {ws : List Char} (hblank : Blank ws) : skipBlanks ws = [] := by
  simpa [skipBlanks] using skipBlanks_append hblank []

theorem skipBlanks_cons {c : Char} (hblank : ¬ isBlank c) (cs : List Char) :
    skipBlanks (c :: cs) = c :: cs :=
  List.dropWhile_cons_of_neg hblank

/-- The next token after blanks. -/
theorem skipBlanks_token {ws : List Char} (hblank : Blank ws) {c : Char} (hc : ¬ isBlank c)
    (cs : List Char) : skipBlanks (ws ++ c :: cs) = c :: cs := by
  rw [skipBlanks_append hblank, skipBlanks_cons hc]

theorem readValue_blanks {ws : List Char} (hblank : Blank ws) (fuel : Nat) (cs : List Char) :
    readValue fuel (ws ++ cs) = readValue fuel cs := by
  cases fuel with
  | zero => rfl
  | succ fuel => simp only [readValue, skipBlanks_append hblank]

theorem readMembers_blanks {ws : List Char} (hblank : Blank ws) (fuel : Nat) (cs : List Char) :
    readMembers fuel (ws ++ cs) = readMembers fuel cs := by
  cases fuel with
  | zero => rfl
  | succ fuel => simp only [readMembers, skipBlanks_append hblank]

theorem readItems_blanks {ws : List Char} (hblank : Blank ws) (fuel : Nat) (cs : List Char) :
    readItems fuel (ws ++ cs) = readItems fuel cs := by
  cases fuel with
  | zero => rfl
  | succ fuel => simp only [readItems, readValue_blanks hblank]

/-! ## Strings -/

/-- Outside surrogates every code is a character by itself. -/
theorem textOfCodes?_cons {code : Nat} (hhigh : ¬ isHighSurrogate code)
    (hlow : ¬ isLowSurrogate code) (codes : List Nat) :
    textOfCodes? (code :: codes) = (textOfCodes? codes).map (Char.ofNat code :: ·) := by
  cases codes with
  | nil => simp [textOfCodes?, hhigh, hlow]
  | cons next codes =>
    rw [textOfCodes?, Option.map_eq_bind]
    simp only [hhigh, hlow]
    rfl

theorem textOfCodes?_pair {high low : Nat} (hhigh : isHighSurrogate high)
    (hlow : isLowSurrogate low) (codes : List Nat) :
    textOfCodes? (high :: low :: codes) = (textOfCodes? codes).map
      (Char.ofNat (0x10000 + (high - 0xD800) * 0x400 + (low - 0xDC00)) :: ·) := by
  rw [textOfCodes?, Option.map_eq_bind]
  simp only [hhigh, hlow]
  rfl

theorem not_isHighSurrogate_toNat (c : Char) : ¬ isHighSurrogate c.toNat := by
  have hvalid : c.toNat < 0xD800 ∨ 0xDFFF < c.toNat ∧ c.toNat < 0x110000 := c.valid
  simp only [isHighSurrogate, Bool.and_eq_true, decide_eq_true_eq]
  omega

theorem not_isLowSurrogate_toNat (c : Char) : ¬ isLowSurrogate c.toNat := by
  have hvalid : c.toNat < 0xD800 ∨ 0xDFFF < c.toNat ∧ c.toNat < 0x110000 := c.valid
  simp only [isLowSurrogate, Bool.and_eq_true, decide_eq_true_eq]
  omega

theorem textOfCodes?_toNat_cons (c : Char) (codes : List Nat) :
    textOfCodes? (c.toNat :: codes) = (textOfCodes? codes).map (c :: ·) := by
  rw [textOfCodes?_cons (not_isHighSurrogate_toNat c) (not_isLowSurrogate_toNat c),
    Char.ofNat_toNat]

theorem readCodes_of_spellsText {content cs : List Char} (h : SpellsText content cs)
    (rest : List Char) : ∃ codes, readCodes (cs ++ '"' :: rest) = some (codes, rest) ∧
      textOfCodes? codes = some content := by
  induction h with
  | nil => exact ⟨[], by simp [readCodes], rfl⟩
  | @plain c content cs hcontrol hquote hescape hrest ih =>
    obtain ⟨codes, hread, htext⟩ := ih
    refine ⟨c.toNat :: codes, ?_, by rw [textOfCodes?_toNat_cons, htext]; rfl⟩
    have hlarge : ¬ c.toNat < 0x20 := Nat.not_lt.mpr hcontrol
    simp [readCodes, hescape, hlarge, hread]
  | @short letter c content cs hletter hrest ih =>
    obtain ⟨codes, hread, htext⟩ := ih
    refine ⟨c.toNat :: codes, ?_, by rw [textOfCodes?_toNat_cons, htext]; rfl⟩
    have hcode : letter ≠ 'u' := by
      rintro rfl
      simp [simpleEscape?] at hletter
    simp [readCodes, hcode, hletter, hread]
  | @code a b c d code content cs hcode hhigh hlow hrest ih =>
    obtain ⟨codes, hread, htext⟩ := ih
    refine ⟨code :: codes, ?_, by rw [textOfCodes?_cons hhigh hlow, htext]; rfl⟩
    simp [readCodes, hcode, hread]
  | @pair a b c d a' b' c' d' high low content cs hcode hhigh hcode' hlow hrest ih =>
    obtain ⟨codes, hread, htext⟩ := ih
    refine ⟨high :: low :: codes, ?_, by rw [textOfCodes?_pair hhigh hlow, htext]; rfl⟩
    simp [readCodes, hcode, hcode', hread]

theorem readString_of_spellsText {content cs : List Char} (h : SpellsText content cs)
    (rest : List Char) :
    readString (cs ++ '"' :: rest) = some (some (String.ofList content), rest) := by
  obtain ⟨codes, hread, htext⟩ := readCodes_of_spellsText h rest
  simp [readString, hread, htext]

/-! ## Numbers -/

/-- A text that does not continue a row of digits. -/
def EndsDigits (rest : List Char) : Prop := ∀ c ∈ rest.head?, ¬ c.isDigit

/-- A text that does not continue what stands before an exponent. -/
def EndsFraction (rest : List Char) : Prop := ∀ c ∈ rest.head?, ¬ c.isDigit ∧ c ≠ '.'

/-- A text that does not continue a number. -/
def EndsNumber (rest : List Char) : Prop :=
  ∀ c ∈ rest.head?, ¬ c.isDigit ∧ c ≠ '.' ∧ c ≠ 'e' ∧ c ≠ 'E'

theorem EndsNumber.endsDigits {rest : List Char} (h : EndsNumber rest) : EndsDigits rest :=
  fun c hc => (h c hc).1

theorem Exponent.endsFraction {cs rest : List Char} (h : Exponent cs) (hrest : EndsNumber rest) :
    EndsFraction (cs ++ rest) := by
  cases h with
  | none => exact fun c hc => ⟨(hrest c hc).1, (hrest c hc).2.1⟩
  | unsigned hletter hdigits => rcases hletter with rfl | rfl <;> simp [EndsFraction]
  | signed hletter hsign hdigits => rcases hletter with rfl | rfl <;> simp [EndsFraction]

theorem Fraction.endsDigits {cs rest : List Char} (h : Fraction cs) (hrest : EndsFraction rest) :
    EndsDigits (cs ++ rest) := by
  cases h with
  | none => exact fun c hc => (hrest c hc).1
  | some hdigits => simp [EndsDigits]

theorem readDigits_of_digits {cs rest : List Char} (h : Digits cs) (hrest : EndsDigits rest) :
    readDigits (cs ++ rest) = some (cs, rest) := by
  have hkept : rest.takeWhile Char.isDigit = [] ∧ rest.dropWhile Char.isDigit = rest := by
    cases rest with
    | nil => exact ⟨rfl, rfl⟩
    | cons c rest =>
      have hc : ¬ c.isDigit := hrest c rfl
      exact ⟨List.takeWhile_cons_of_neg hc, List.dropWhile_cons_of_neg hc⟩
  rw [readDigits, List.takeWhile_append_of_pos h.2, List.dropWhile_append_of_pos h.2, hkept.1,
    hkept.2]
  simp [h.1]

theorem readFraction_of_fraction {cs rest : List Char} (h : Fraction cs)
    (hrest : EndsFraction rest) : readFraction (cs ++ rest) = some (cs, rest) := by
  cases h with
  | none =>
    cases rest with
    | nil => rfl
    | cons c rest =>
      have hc : c ≠ '.' := (hrest c rfl).2
      simp [readFraction, hc]
  | some hdigits =>
    simp [readFraction, readDigits_of_digits hdigits fun c hc => (hrest c hc).1]

theorem Digits.exists_cons {cs : List Char} (h : Digits cs) :
    ∃ c tail, cs = c :: tail ∧ c.isDigit := by
  obtain ⟨c, tail, rfl⟩ := List.exists_cons_of_ne_nil h.1
  exact ⟨c, tail, rfl, h.2 c (by simp)⟩

theorem readExponent_of_exponent {cs rest : List Char} (h : Exponent cs)
    (hrest : EndsNumber rest) : readExponent (cs ++ rest) = some (cs, rest) := by
  cases h with
  | none =>
    rcases rest with _ | ⟨c, _ | ⟨c', rest⟩⟩
    · rfl
    all_goals
      have hc : c ≠ 'e' ∧ c ≠ 'E' := (hrest c rfl).2.2
      simp [readExponent, hc]
  | @unsigned e digits hletter hdigits =>
    have hread := readDigits_of_digits hdigits hrest.endsDigits
    obtain ⟨c, tail, rfl, hc⟩ := hdigits.exists_cons
    -- a digit is no sign
    have hsign : ¬ (c = '+' ∨ c = '-') := by
      rintro (rfl | rfl) <;> simp [Char.isDigit] at hc
    rw [List.cons_append] at hread
    simp [readExponent, hletter, hsign, hread]
  | signed hletter hsign hdigits =>
    simp [readExponent, hletter, hsign, readDigits_of_digits hdigits hrest.endsDigits]

theorem readUnsigned_of_unsigned {cs rest : List Char} (h : Unsigned cs)
    (hrest : EndsNumber rest) : readUnsigned (cs ++ rest) = some (cs, rest) := by
  obtain @⟨whole, fraction, exponent, hwhole, hzero, hfraction, hexponent⟩ := h
  have hends := hexponent.endsFraction hrest
  have hlong : ¬ (whole.length > 1 ∧ whole.head? = some '0') := by
    rintro ⟨hlength, hhead⟩
    rcases hzero with rfl | hzero
    · simp at hlength
    · exact hzero hhead
  simp only [readUnsigned, List.append_assoc,
    readDigits_of_digits hwhole (hfraction.endsDigits hends), Option.bind_eq_bind,
    Option.bind_some, readFraction_of_fraction hfraction hends,
    readExponent_of_exponent hexponent hrest]
  simp [hlong]

theorem Unsigned.exists_cons {cs : List Char} (h : Unsigned cs) :
    ∃ c tail, cs = c :: tail ∧ c.isDigit := by
  obtain ⟨hwhole, -, -, -⟩ := h
  obtain ⟨c, tail, rfl, hc⟩ := hwhole.exists_cons
  exact ⟨c, _, rfl, hc⟩

theorem Numeral.exists_cons {cs : List Char} (h : Numeral cs) :
    ∃ c tail, cs = c :: tail ∧ (c = '-' ∨ c.isDigit) := by
  cases h with
  | positive hnumber =>
    obtain ⟨c, tail, rfl, hc⟩ := hnumber.exists_cons
    exact ⟨c, tail, rfl, .inr hc⟩
  | negative hnumber => exact ⟨'-', _, rfl, .inl rfl⟩

theorem readNumber_of_numeral {cs rest : List Char} (h : Numeral cs) (hrest : EndsNumber rest) :
    readNumber (cs ++ rest) = some (String.ofList cs, rest) := by
  cases h with
  | positive hnumber =>
    have hread := readUnsigned_of_unsigned hnumber hrest
    obtain ⟨c, tail, rfl, hc⟩ := hnumber.exists_cons
    have hsign : c ≠ '-' := by
      rintro rfl
      simp [Char.isDigit] at hc
    rw [List.cons_append] at hread
    simp [readNumber, hsign, hread]
  | negative hnumber => simp [readNumber, readUnsigned_of_unsigned hnumber hrest]

/-! ## Values -/

theorem readWord_of_numeral {cs rest : List Char} (h : Numeral cs) (hrest : EndsNumber rest) :
    readWord (cs ++ rest) = some (.number (String.ofList cs), rest) := by
  have hread := readNumber_of_numeral h hrest
  obtain ⟨c, tail, rfl, hc⟩ := h.exists_cons
  have hword : 'n' ≠ c ∧ 't' ≠ c ∧ 'f' ≠ c := by
    refine ⟨?_, ?_, ?_⟩ <;> rintro rfl <;> simp [Char.isDigit] at hc
  rw [List.cons_append] at hread
  simp [readWord, dropWord?, hword, hread]

theorem EndsNumber.of_cons {c : Char} {rest : List Char} (hdigit : ¬ c.isDigit) (hpoint : c ≠ '.')
    (hletter : c ≠ 'e' ∧ c ≠ 'E') : EndsNumber (c :: rest) := by
  rintro _ ⟨⟩
  exact ⟨hdigit, hpoint, hletter⟩

theorem EndsNumber.blanks {ws rest : List Char} (hblank : Blank ws) (hrest : EndsNumber rest) :
    EndsNumber (ws ++ rest) := by
  cases ws with
  | nil => exact hrest
  | cons c ws =>
    have hc : isBlank c := hblank c (by simp)
    refine .of_cons ?_ ?_ ⟨?_, ?_⟩
    · intro hdigit
      simp only [isBlank, Bool.or_eq_true, beq_iff_eq] at hc
      rcases hc with ((rfl | rfl) | rfl) | rfl <;> simp [Char.isDigit] at hdigit
    all_goals
      rintro rfl
      simp [isBlank] at hc

/-- How the text of a value may begin. -/
def BeginsValue (c : Char) : Prop :=
  c = '"' ∨ c = '[' ∨ c = '{' ∨ c = 'n' ∨ c = 't' ∨ c = 'f' ∨ c = '-' ∨ c.isDigit

theorem BeginsValue.not_isBlank {c : Char} (h : BeginsValue c) : ¬ isBlank c := by
  intro hblank
  simp only [isBlank, Bool.or_eq_true, beq_iff_eq] at hblank
  rcases hblank with ((rfl | rfl) | rfl) | rfl <;> simp [BeginsValue, Char.isDigit] at h

theorem BeginsValue.ne_closing {c : Char} (h : BeginsValue c) : c ≠ ']' := by
  rintro rfl
  simp [BeginsValue, Char.isDigit] at h

theorem Spells.exists_cons {value : Json} {cs : List Char} (h : Spells value cs) :
    ∃ c tail, cs = c :: tail ∧ BeginsValue c := by
  cases h with
  | number hnumeral =>
    obtain ⟨c, tail, rfl, hc⟩ := hnumeral.exists_cons
    exact ⟨c, tail, rfl, by simp [BeginsValue, hc]⟩
  | _ => exact ⟨_, _, rfl, by simp [BeginsValue]⟩

theorem SpellsItems.exists_cons {items : List Json} {cs : List Char} (h : SpellsItems items cs) :
    ∃ c tail, cs = c :: tail ∧ BeginsValue c := by
  cases h with
  | last hitem _ | more hitem _ _ _ =>
    obtain ⟨c, tail, rfl, hc⟩ := hitem.exists_cons
    exact ⟨c, _, rfl, hc⟩

theorem SpellsMembers.exists_cons {members : List (String × Json)} {cs : List Char}
    (h : SpellsMembers members cs) : ∃ tail, cs = '"' :: tail := by
  cases h with
  | last hmember _ | more hmember _ _ _ =>
    obtain ⟨_, _, _, _⟩ := hmember
    exact ⟨_, rfl⟩

/-! ### What one call reads -/

theorem readValue_number {cs rest : List Char} (h : Numeral cs) (hrest : EndsNumber rest)
    (fuel : Nat) : readValue (fuel + 1) (cs ++ rest) = some (.number (String.ofList cs), rest) := by
  have hread := readWord_of_numeral h hrest
  obtain ⟨c, tail, rfl, hc⟩ := h.exists_cons
  have hblank : ¬ isBlank c := BeginsValue.not_isBlank (by simp [BeginsValue, hc])
  have hother : c ≠ '"' ∧ c ≠ '[' ∧ c ≠ '{' := by
    refine ⟨?_, ?_, ?_⟩ <;> rintro rfl <;> simp [Char.isDigit] at hc
  rw [List.cons_append] at hread
  simp [readValue, skipBlanks_cons hblank, hother, hread]

theorem readValue_emptyArray {ws : List Char} (hblank : Blank ws) (fuel : Nat) (rest : List Char) :
    readValue (fuel + 1) ('[' :: (ws ++ ']' :: rest)) = some (.array [], rest) := by
  have hskip := skipBlanks_token hblank (by decide : ¬ isBlank ']') rest
  simp [readValue, skipBlanks_cons, isBlank, hskip]

theorem readValue_emptyObject {ws : List Char} (hblank : Blank ws) (fuel : Nat)
    (rest : List Char) :
    readValue (fuel + 1) ('{' :: (ws ++ '}' :: rest)) = some (.object [], rest) := by
  have hskip := skipBlanks_token hblank (by decide : ¬ isBlank '}') rest
  simp [readValue, skipBlanks_cons, isBlank, hskip]

theorem readValue_array {ws cs rest : List Char} {c : Char} {items : List Json} {fuel : Nat}
    (hblank : Blank ws) (hc : BeginsValue c)
    (hitems : readItems fuel (c :: cs) = some (items, rest)) :
    readValue (fuel + 1) ('[' :: (ws ++ c :: cs)) = some (.array items, rest) := by
  have hskip := skipBlanks_token hblank hc.not_isBlank cs
  simp [readValue, skipBlanks_cons, isBlank, hskip, hc.ne_closing, hitems]

theorem readValue_object {ws cs rest : List Char} {members : List (Option String × Json)}
    {fuel : Nat} (hblank : Blank ws)
    (hmembers : readMembers fuel ('"' :: cs) = some (members, rest)) :
    readValue (fuel + 1) ('{' :: (ws ++ '"' :: cs)) = some (.object members, rest) := by
  have hskip := skipBlanks_token hblank (by decide : ¬ isBlank '"') cs
  simp [readValue, skipBlanks_cons, isBlank, hskip, hmembers]

theorem readItems_last {cs ws rest : List Char} {item : Json} {fuel : Nat} (hblank : Blank ws)
    (hitem : readValue fuel cs = some (item, ws ++ ']' :: rest)) :
    readItems (fuel + 1) cs = some ([item], rest) := by
  have hskip := skipBlanks_token hblank (by decide : ¬ isBlank ']') rest
  simp [readItems, hitem, hskip]

theorem readItems_more {cs ws ws' cs' rest : List Char} {item : Json} {items : List Json}
    {fuel : Nat} (hblank : Blank ws) (hblank' : Blank ws')
    (hitem : readValue fuel cs = some (item, ws ++ ',' :: (ws' ++ cs')))
    (hitems : readItems fuel cs' = some (items, rest)) :
    readItems (fuel + 1) cs = some (item :: items, rest) := by
  have hskip := skipBlanks_token hblank (by decide : ¬ isBlank ',') (ws' ++ cs')
  simp [readItems, hitem, hskip, readItems_blanks hblank', hitems]

section Members

variable {name ns ws ws' cs after rest : List Char} {value : Json} {fuel : Nat}

theorem readMembers_last (hname : SpellsText name ns) (hblank : Blank ws) (hblank' : Blank ws')
    (hvalue : readValue fuel cs = some (value, after)) (hend : skipBlanks after = '}' :: rest) :
    readMembers (fuel + 1) ('"' :: (ns ++ '"' :: (ws ++ ':' :: (ws' ++ cs)))) =
      some ([(some (String.ofList name), value)], rest) := by
  have hcolon := skipBlanks_token hblank (by decide : ¬ isBlank ':') (ws' ++ cs)
  simp [readMembers, skipBlanks_cons, isBlank, readString_of_spellsText hname, hcolon,
    readValue_blanks hblank', hvalue, hend]

theorem readMembers_more {members : List (Option String × Json)} {cs' : List Char}
    (hname : SpellsText name ns) (hblank : Blank ws) (hblank' : Blank ws')
    (hvalue : readValue fuel cs = some (value, after)) (hcomma : skipBlanks after = ',' :: cs')
    (hmembers : readMembers fuel cs' = some (members, rest)) :
    readMembers (fuel + 1) ('"' :: (ns ++ '"' :: (ws ++ ':' :: (ws' ++ cs)))) =
      some ((some (String.ofList name), value) :: members, rest) := by
  have hcolon := skipBlanks_token hblank (by decide : ¬ isBlank ':') (ws' ++ cs)
  simp [readMembers, skipBlanks_cons, isBlank, readString_of_spellsText hname, hcolon,
    readValue_blanks hblank', hvalue, hcomma, hmembers]

end Members

/-! ### The whole of a text -/

/-- What may follow a value, and blanks after it. -/
theorem endsNumber_token {ws : List Char} (hblank : Blank ws) {c : Char}
    (hc : c = ',' ∨ c = ']' ∨ c = '}') (rest : List Char) : EndsNumber (ws ++ c :: rest) := by
  refine .blanks hblank ?_
  rcases hc with rfl | rfl | rfl <;> exact .of_cons (by decide) (by decide) (by decide)

mutual

theorem readValue_of_spells {value : Json} {cs rest : List Char} (h : Spells value cs)
    (hrest : EndsNumber rest) (fuel : Nat) (hfuel : 2 * cs.length ≤ fuel) :
    readValue fuel (cs ++ rest) = some (value, rest) := by
  obtain ⟨fuel, rfl⟩ : ∃ less, fuel = less + 1 := by
    obtain ⟨c, tail, rfl, -⟩ := h.exists_cons
    exact ⟨fuel - 1, by rw [List.length_cons] at hfuel; omega⟩
  cases h with
  | null => simp [readValue, skipBlanks_cons, isBlank, readWord, dropWord?]
  | true => simp [readValue, skipBlanks_cons, isBlank, readWord, dropWord?]
  | false => simp [readValue, skipBlanks_cons, isBlank, readWord, dropWord?]
  | number hnumeral => exact readValue_number hnumeral hrest fuel
  | string htext =>
    simp [readValue, skipBlanks_cons, isBlank, readString_of_spellsText htext, text]
  | emptyArray hblank => simpa using readValue_emptyArray hblank fuel rest
  | emptyObject hblank => simpa [record] using readValue_emptyObject hblank fuel rest
  | @array ws items cs hblank hitems =>
    simp only [List.length_cons, List.length_append] at hfuel
    have hread : readItems fuel (cs ++ ']' :: rest) = some (items, rest) :=
      readItems_of_spells hitems rest fuel (by omega)
    obtain ⟨c, tail, rfl, hc⟩ := hitems.exists_cons
    simpa using readValue_array hblank hc hread
  | @object ws members cs hblank hmembers =>
    simp only [List.length_cons, List.length_append] at hfuel
    have hread := readMembers_of_spells hmembers rest fuel (by omega)
    obtain ⟨tail, rfl⟩ := hmembers.exists_cons
    simpa [record] using readValue_object hblank hread
termination_by fuel

theorem readItems_of_spells {items : List Json} {cs : List Char} (h : SpellsItems items cs)
    (rest : List Char) (fuel : Nat) (hfuel : 2 * cs.length + 1 ≤ fuel) :
    readItems fuel (cs ++ ']' :: rest) = some (items, rest) := by
  obtain ⟨fuel, rfl⟩ : ∃ less, fuel = less + 1 := ⟨fuel - 1, by omega⟩
  cases h with
  | @last item cs ws hitem hblank =>
    simp only [List.length_append] at hfuel
    have hread := readValue_of_spells hitem
      (endsNumber_token hblank (.inr (.inl rfl)) rest) fuel (by omega)
    rw [List.append_assoc]
    exact readItems_last hblank hread
  | @more item items cs ws ws' cs' hitem hblank hblank' hitems =>
    simp only [List.length_append, List.length_cons] at hfuel
    have hread := readValue_of_spells hitem
      (endsNumber_token hblank (.inl rfl) (ws' ++ (cs' ++ ']' :: rest))) fuel (by omega)
    simp only [List.append_assoc, List.cons_append]
    exact readItems_more hblank hblank' hread (readItems_of_spells hitems rest fuel (by omega))
termination_by fuel

theorem readMembers_of_spells {members : List (String × Json)} {cs : List Char}
    (h : SpellsMembers members cs) (rest : List Char) (fuel : Nat)
    (hfuel : 2 * cs.length + 1 ≤ fuel) :
    readMembers fuel (cs ++ '}' :: rest) =
      some (members.map fun member => (some member.1, member.2), rest) := by
  obtain ⟨fuel, rfl⟩ : ∃ less, fuel = less + 1 := ⟨fuel - 1, by omega⟩
  cases h with
  | @last _ _ ws hmember hblank =>
    obtain @⟨name, ns, ws₁, ws₂, value, cs, hname, hblank₁, hblank₂, hvalue⟩ := hmember
    simp only [List.length_append, List.length_cons] at hfuel
    have hread := readValue_of_spells hvalue
      (endsNumber_token hblank (.inr (.inr rfl)) rest) fuel (by omega)
    have hend := skipBlanks_token hblank (by decide : ¬ isBlank '}') rest
    simpa using readMembers_last hname hblank₁ hblank₂ hread hend
  | @more _ members _ ws ws' cs' hmember hblank hblank' hmembers =>
    obtain @⟨name, ns, ws₁, ws₂, value, cs, hname, hblank₁, hblank₂, hvalue⟩ := hmember
    simp only [List.length_append, List.length_cons] at hfuel
    have hread := readValue_of_spells hvalue
      (endsNumber_token hblank (.inl rfl) (ws' ++ (cs' ++ '}' :: rest))) fuel (by omega)
    have hcomma := skipBlanks_token hblank (by decide : ¬ isBlank ',')
      (ws' ++ (cs' ++ '}' :: rest))
    have hmore := readMembers_of_spells hmembers rest fuel (by omega)
    rw [← readMembers_blanks hblank'] at hmore
    simpa using readMembers_more hname hblank₁ hblank₂ hread hcomma hmore
termination_by fuel

end

/-- The reader takes a text for the value that it spells. -/
theorem read_of_isText {value : Json} {text : String} (h : IsText value text) :
    read text = some value := by
  obtain ⟨ws, cs, ws', hblank, hspells, hblank', htext⟩ := h
  have hends : EndsNumber (ws' ++ []) := .blanks hblank' (by simp [EndsNumber])
  rw [List.append_nil] at hends
  have hfuel : 2 * cs.length ≤ 2 * text.toList.length + 2 := by
    simp only [htext, List.length_append]
    omega
  have hread := readValue_of_spells hspells hends _ hfuel
  rw [← readValue_blanks hblank, ← htext] at hread
  simp [read, hread, skipBlanks_eq_nil hblank']

end Galley.Json
