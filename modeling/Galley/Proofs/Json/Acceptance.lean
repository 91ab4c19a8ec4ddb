import Galley.Proofs.Json.Reading

/-!
  The reader reads the texts of the grammar and no others.

  A text that is read spells the value it is read as, if all strings and names in that value stand
  for texts. Each part of the reader takes from the front of a text what its part of the grammar
  describes, and leaves the rest (`Takes`).
-/

namespace Galley.Json

theorem exists_blank (cs : List Char) : ∃ ws, Blank ws ∧ cs = ws ++ skipBlanks cs :=
  ⟨cs.takeWhile isBlank, List.all_eq_true.1 List.all_takeWhile,
    List.takeWhile_append_dropWhile.symm⟩

/-! ## Strings -/

/-- One code of a string and a way to write it. -/
inductive SpellsCode : Nat → List Char → Prop
  | plain {c : Char} (hcontrol : 0x20 ≤ c.toNat) (hquote : c ≠ '"') (hescape : c ≠ '\\') :
      SpellsCode c.toNat [c]
  | short {letter c : Char} (hletter : simpleEscape? letter = some c) :
      SpellsCode c.toNat ['\\', letter]
  | code {a b c d : Char} {code : Nat} (hcode : hexNumber? a b c d = some code) :
      SpellsCode code ['\\', 'u', a, b, c, d]

theorem readCodes_cases {cs rest : List Char} {codes : List Nat}
    (h : readCodes cs = some (codes, rest)) :
    (codes = [] ∧ cs = '"' :: rest) ∨
      ∃ code more written tail, codes = code :: more ∧ cs = written ++ tail ∧
        SpellsCode code written ∧ readCodes tail = some (more, rest) := by
  unfold readCodes at h
  split at h
  · cases h
  · cases h
    exact .inl ⟨rfl, rfl⟩
  · next a b c d tail =>
    obtain ⟨code, hcode, h⟩ := Option.bind_eq_some_iff.1 h
    obtain ⟨⟨more, after⟩, hread, h⟩ := Option.bind_eq_some_iff.1 h
    cases h
    exact .inr ⟨code, more, _, tail, rfl, rfl, .code hcode, hread⟩
  · next letter tail _ =>
    obtain ⟨c, hletter, h⟩ := Option.bind_eq_some_iff.1 h
    obtain ⟨⟨more, after⟩, hread, h⟩ := Option.bind_eq_some_iff.1 h
    cases h
    exact .inr ⟨c.toNat, more, _, tail, rfl, rfl, .short hletter, hread⟩
  · next c tail hquote _ _ =>
    split at h
    · cases h
    · next hplain =>
      obtain ⟨⟨more, after⟩, hread, h⟩ := Option.bind_eq_some_iff.1 h
      cases h
      rw [not_or] at hplain
      exact .inr ⟨c.toNat, more, [c], tail, rfl, rfl,
        .plain (Nat.not_lt.1 hplain.1) hquote hplain.2, hread⟩

/-- A text of codes is made of characters and pairs of surrogates. -/
theorem textOfCodes?_cases {code : Nat} {codes : List Nat} {content : List Char}
    (h : textOfCodes? (code :: codes) = some content) :
    (¬ isHighSurrogate code ∧ ¬ isLowSurrogate code ∧
      ∃ more, content = Char.ofNat code :: more ∧ textOfCodes? codes = some more) ∨
    (isHighSurrogate code ∧ ∃ low codes', codes = low :: codes' ∧ isLowSurrogate low ∧
      ∃ more, content =
          Char.ofNat (0x10000 + (code - 0xD800) * 0x400 + (low - 0xDC00)) :: more ∧
        textOfCodes? codes' = some more) := by
  by_cases hhigh : isHighSurrogate code
  · rcases codes with _ | ⟨low, codes'⟩
    · simp [textOfCodes?, hhigh] at h
    · by_cases hlow : isLowSurrogate low
      · rw [textOfCodes?_pair hhigh hlow, Option.map_eq_some_iff] at h
        obtain ⟨more, hmore, rfl⟩ := h
        exact .inr ⟨hhigh, low, codes', rfl, hlow, more, rfl, hmore⟩
      · simp [textOfCodes?, hhigh, hlow] at h
  · by_cases hlow : isLowSurrogate code
    · rcases codes with _ | ⟨next, codes'⟩ <;> simp [textOfCodes?, hhigh, hlow] at h
    · rw [textOfCodes?_cons hhigh hlow, Option.map_eq_some_iff] at h
      obtain ⟨more, hmore, rfl⟩ := h
      exact .inl ⟨hhigh, hlow, more, rfl, hmore⟩

/-- Only escapes by number stand for surrogates. -/
theorem SpellsCode.eq_code {code : Nat} {written : List Char} (h : SpellsCode code written)
    (hsurrogate : isHighSurrogate code ∨ isLowSurrogate code) :
    ∃ a b c d, written = ['\\', 'u', a, b, c, d] ∧ hexNumber? a b c d = some code := by
  cases h with
  | @plain c | @short _ c _ =>
    rcases hsurrogate with hhigh | hlow
    · exact absurd hhigh (not_isHighSurrogate_toNat c)
    · exact absurd hlow (not_isLowSurrogate_toNat c)
  | @code a b c d _ hcode => exact ⟨a, b, c, d, rfl, hcode⟩

theorem SpellsCode.spellsText {code : Nat} {written content cs : List Char}
    (h : SpellsCode code written) (hhigh : ¬ isHighSurrogate code) (hlow : ¬ isLowSurrogate code)
    (hrest : SpellsText content cs) : SpellsText (Char.ofNat code :: content) (written ++ cs) := by
  cases h with
  | @plain c hcontrol hquote hescape =>
    rw [Char.ofNat_toNat]
    exact .plain hcontrol hquote hescape hrest
  | short hletter =>
    rw [Char.ofNat_toNat]
    exact .short hletter hrest
  | code hcode => exact .code hcode hhigh hlow hrest

theorem spellsText_of_readCodes {cs rest content : List Char} {codes : List Nat}
    (h : readCodes cs = some (codes, rest)) (htext : textOfCodes? codes = some content) :
    ∃ body, cs = body ++ '"' :: rest ∧ SpellsText content body := by
  induction hlength : codes.length using Nat.strongRecOn generalizing codes cs content with
  | ind length ih =>
    rcases readCodes_cases h with ⟨rfl, rfl⟩ | ⟨code, more, written, tail, rfl, rfl, hcode, htail⟩
    · cases htext
      exact ⟨[], rfl, .nil⟩
    rw [List.length_cons] at hlength
    rcases textOfCodes?_cases htext with ⟨hhigh, hlow, content, rfl, hmore⟩ |
      ⟨hhigh, low, more, rfl, hlow, content, rfl, hmore⟩
    · obtain ⟨body, rfl, hbody⟩ := ih more.length (by omega) htail hmore rfl
      exact ⟨written ++ body, by simp, hcode.spellsText hhigh hlow hbody⟩
    · obtain ⟨a, b, c, d, rfl, hfirst⟩ := hcode.eq_code (.inl hhigh)
      -- A high surrogate is followed by the escape of a low one.
      rcases readCodes_cases htail with ⟨hnil, -⟩ | ⟨_, _, written, tail, heq, rfl, hcode', hafter⟩
      · cases hnil
      · cases heq
        obtain ⟨a', b', c', d', rfl, hsecond⟩ := hcode'.eq_code (.inr hlow)
        rw [List.length_cons] at hlength
        obtain ⟨body, rfl, hbody⟩ := ih more.length (by omega) hafter hmore rfl
        exact ⟨_, rfl, .pair hfirst hhigh hsecond hlow hbody⟩

theorem spellsText_of_readString {cs rest : List Char} {content : String}
    (h : readString cs = some (some content, rest)) :
    ∃ body, cs = body ++ '"' :: rest ∧ SpellsText content.toList body := by
  obtain ⟨⟨codes, after⟩, hread, h⟩ := Option.bind_eq_some_iff.1 h
  obtain ⟨htext, rfl⟩ := Prod.mk.inj (Option.some.inj h)
  obtain ⟨chars, hchars, rfl⟩ := Option.map_eq_some_iff.1 htext
  rw [String.toList_ofList]
  exact spellsText_of_readCodes hread hchars

/-! ## Numbers -/

theorem digits_of_readDigits {cs digits rest : List Char}
    (h : readDigits cs = some (digits, rest)) : Digits digits ∧ cs = digits ++ rest := by
  rw [readDigits] at h
  split at h
  · cases h
  · next hne =>
    cases h
    exact ⟨⟨fun hnil => hne (by simp [hnil]), List.all_eq_true.1 List.all_takeWhile⟩,
      List.takeWhile_append_dropWhile.symm⟩

theorem fraction_of_readFraction {cs fraction rest : List Char}
    (h : readFraction cs = some (fraction, rest)) : Fraction fraction ∧ cs = fraction ++ rest := by
  unfold readFraction at h
  split at h
  · obtain ⟨⟨digits, after⟩, hread, h⟩ := Option.bind_eq_some_iff.1 h
    cases h
    obtain ⟨hdigits, rfl⟩ := digits_of_readDigits hread
    exact ⟨.some hdigits, rfl⟩
  · cases h
    exact ⟨.none, rfl⟩

theorem exponent_of_readExponent {cs exponent rest : List Char}
    (h : readExponent cs = some (exponent, rest)) : Exponent exponent ∧ cs = exponent ++ rest := by
  unfold readExponent at h
  split at h
  · split at h
    · next hletter =>
      split at h
      · next hsign =>
        obtain ⟨⟨digits, after⟩, hread, h⟩ := Option.bind_eq_some_iff.1 h
        cases h
        obtain ⟨hdigits, rfl⟩ := digits_of_readDigits hread
        exact ⟨.signed hletter hsign hdigits, rfl⟩
      · obtain ⟨⟨digits, after⟩, hread, h⟩ := Option.bind_eq_some_iff.1 h
        cases h
        obtain ⟨hdigits, hcs⟩ := digits_of_readDigits hread
        exact ⟨.unsigned hletter hdigits, by rw [hcs]; rfl⟩
    · cases h
      exact ⟨.none, rfl⟩
  · split at h
    · cases h
    · cases h
      exact ⟨.none, rfl⟩
  · cases h
    exact ⟨.none, rfl⟩

theorem unsigned_of_readUnsigned {cs number rest : List Char}
    (h : readUnsigned cs = some (number, rest)) : Unsigned number ∧ cs = number ++ rest := by
  obtain ⟨⟨whole, afterWhole⟩, hwhole, h⟩ := Option.bind_eq_some_iff.1 h
  dsimp only at h
  split at h
  · cases h
  · next hzero =>
    obtain ⟨⟨fraction, afterFraction⟩, hfraction, h⟩ := Option.bind_eq_some_iff.1 h
    obtain ⟨⟨exponent, after⟩, hexponent, h⟩ := Option.bind_eq_some_iff.1 h
    cases h
    obtain ⟨hdigits, rfl⟩ := digits_of_readDigits hwhole
    obtain ⟨hpoint, rfl⟩ := fraction_of_readFraction hfraction
    obtain ⟨hletter, rfl⟩ := exponent_of_readExponent hexponent
    have hfront : whole = ['0'] ∨ whole.head? ≠ some '0' := by
      obtain ⟨c, tail, rfl, -⟩ := hdigits.exists_cons
      cases tail with
      | nil => by_cases hc : c = '0' <;> simp [hc]
      | cons => exact .inr (by simpa using hzero)
    rw [List.append_assoc]
    exact ⟨.mk hdigits hfront hpoint hletter, by simp⟩

theorem numeral_of_readNumber {cs rest : List Char} {spelling : String}
    (h : readNumber cs = some (spelling, rest)) :
    ∃ body, cs = body ++ rest ∧ Numeral body ∧ spelling = String.ofList body := by
  unfold readNumber at h
  split at h
  · obtain ⟨⟨number, after⟩, hread, h⟩ := Option.bind_eq_some_iff.1 h
    cases h
    obtain ⟨hnumber, rfl⟩ := unsigned_of_readUnsigned hread
    exact ⟨_, rfl, .negative hnumber, rfl⟩
  · obtain ⟨⟨number, after⟩, hread, h⟩ := Option.bind_eq_some_iff.1 h
    cases h
    obtain ⟨hnumber, rfl⟩ := unsigned_of_readUnsigned hread
    exact ⟨_, rfl, .positive hnumber, rfl⟩

/-! ## Values -/

theorem eq_append_of_dropWord? {word cs rest : List Char} (h : dropWord? word cs = some rest) :
    cs = word ++ rest := by
  induction word generalizing cs with
  | nil => exact Option.some.inj h
  | cons w word ih =>
    cases cs with
    | nil => cases h
    | cons c cs =>
      rw [dropWord?] at h
      split at h
      · next hc => rw [hc, ih h, List.cons_append]
      · cases h

theorem spells_of_readWord {cs rest : List Char} {value : Json}
    (h : readWord cs = some (value, rest)) : ∃ body, cs = body ++ rest ∧ Spells value body := by
  unfold readWord at h
  split at h
  · next hword =>
    cases h
    exact ⟨_, eq_append_of_dropWord? hword, .null⟩
  · next hword _ =>
    cases h
    exact ⟨_, eq_append_of_dropWord? hword, .true⟩
  · next hword _ _ =>
    cases h
    exact ⟨_, eq_append_of_dropWord? hword, .false⟩
  · obtain ⟨⟨spelling, after⟩, hread, h⟩ := Option.map_eq_some_iff.1 h
    cases h
    obtain ⟨body, rfl, hnumeral, rfl⟩ := numeral_of_readNumber hread
    exact ⟨body, rfl, .number hnumeral⟩

/-- Blanks and a part that `SpellsIt` describes stand at the front of a text, before the rest. -/
def Takes (SpellsIt : List Char → Prop) (cs rest : List Char) : Prop :=
  ∃ ws body, Blank ws ∧ SpellsIt body ∧ cs = ws ++ (body ++ rest)

theorem Takes.of_skipBlanks {SpellsIt : List Char → Prop} {cs rest : List Char}
    (h : Takes SpellsIt (skipBlanks cs) rest) : Takes SpellsIt cs rest := by
  obtain ⟨ws, hblank, hcs⟩ := exists_blank cs
  obtain ⟨ws', body, hblank', hspells, hbody⟩ := h
  refine ⟨ws ++ ws', body, List.forall_mem_append.2 ⟨hblank, hblank'⟩, hspells, ?_⟩
  rw [List.append_assoc, ← hbody]
  exact hcs

theorem spellsMember_of_read {name : String} {value : Json}
    {tail afterName afterColon rest : List Char}
    (hname : readString tail = some (some name, afterName))
    (hcolon : skipBlanks afterName = ':' :: afterColon)
    (hvalue : Takes (Spells value) afterColon rest) :
    ∃ body, SpellsMember (name, value) body ∧ '"' :: tail = body ++ rest := by
  obtain ⟨chars, rfl, htext⟩ := spellsText_of_readString hname
  obtain ⟨ws, hblank, hafter⟩ := exists_blank afterName
  obtain ⟨ws', body, hblank', hspells, rfl⟩ := hvalue
  have hmember := SpellsMember.mk htext hblank hblank' hspells
  rw [String.ofList_toList] at hmember
  exact ⟨_, hmember, by rw [hafter, hcolon]; simp⟩

mutual

theorem takes_of_readValue {fuel : Nat} {cs rest : List Char} {value : Json}
    (h : readValue fuel cs = some (value, rest)) (hvalue : Writable value) :
    Takes (Spells value) cs rest := by
  cases fuel with
  | zero => cases h
  | succ fuel =>
    refine .of_skipBlanks ?_
    rw [readValue] at h
    generalize skipBlanks cs = front at h
    split at h
    · next tail =>
      obtain ⟨⟨content, after⟩, hread, h⟩ := Option.map_eq_some_iff.1 h
      cases h
      cases hvalue with
      | text content =>
        obtain ⟨body, rfl, htext⟩ := spellsText_of_readString hread
        have hspells := Spells.string htext
        rw [String.ofList_toList] at hspells
        exact ⟨[], _, blank_nil, hspells, by simp⟩
    · next tail =>
      split at h
      · next after hafter =>
        cases h
        obtain ⟨ws, hblank, htail⟩ := exists_blank tail
        exact ⟨[], _, blank_nil, .emptyArray hblank, by rw [htail, hafter]; simp⟩
      · obtain ⟨⟨items, after⟩, hread, h⟩ := Option.map_eq_some_iff.1 h
        cases h
        cases hvalue with
        | array hitems =>
          obtain ⟨ws, body, hblank, hspells, rfl⟩ := (takes_of_readItems hread hitems).of_skipBlanks
          exact ⟨[], _, blank_nil, .array hblank hspells, by simp⟩
    · next tail =>
      split at h
      · next after hafter =>
        cases h
        obtain ⟨ws, hblank, htail⟩ := exists_blank tail
        exact ⟨[], _, blank_nil, .emptyObject hblank, by rw [htail, hafter]; simp⟩
      · obtain ⟨⟨members, after⟩, hread, h⟩ := Option.map_eq_some_iff.1 h
        cases h
        cases hvalue with
        | record hmembers =>
          obtain ⟨ws, body, hblank, hspells, rfl⟩ :=
            (takes_of_readMembers hread hmembers).of_skipBlanks
          exact ⟨[], _, blank_nil, .object hblank hspells, by simp⟩
    · obtain ⟨body, rfl, hspells⟩ := spells_of_readWord h
      exact ⟨[], body, blank_nil, hspells, rfl⟩
termination_by fuel

theorem takes_of_readItems {fuel : Nat} {cs rest : List Char} {items : List Json}
    (h : readItems fuel cs = some (items, rest)) (hitems : ∀ item ∈ items, Writable item) :
    Takes (SpellsItems items) cs (']' :: rest) := by
  cases fuel with
  | zero => cases h
  | succ fuel =>
    rw [readItems] at h
    obtain ⟨⟨item, after⟩, hread, h⟩ := Option.bind_eq_some_iff.1 h
    dsimp only at h
    obtain ⟨ws', hblank', hafter⟩ := exists_blank after
    split at h
    · next tail htail =>
      cases h
      obtain ⟨ws, body, hblank, hspells, rfl⟩ := takes_of_readValue hread (hitems item (by simp))
      exact ⟨ws, _, hblank, .last hspells hblank', by rw [hafter, htail]; simp⟩
    · next tail htail =>
      obtain ⟨⟨more, after'⟩, hmore, h⟩ := Option.bind_eq_some_iff.1 h
      cases h
      rw [List.forall_mem_cons] at hitems
      obtain ⟨ws, body, hblank, hspells, rfl⟩ := takes_of_readValue hread hitems.1
      obtain ⟨ws'', body', hblank'', hspells', rfl⟩ := takes_of_readItems hmore hitems.2
      exact ⟨ws, _, hblank, .more hspells hblank' hblank'' hspells', by rw [hafter, htail]; simp⟩
    · cases h
termination_by fuel

theorem takes_of_readMembers {fuel : Nat} {cs rest : List Char} {members : List (String × Json)}
    (h : readMembers fuel cs =
      some (members.map fun member => (some member.1, member.2), rest))
    (hmembers : ∀ member ∈ members, Writable member.2) :
    Takes (SpellsMembers members) cs ('}' :: rest) := by
  cases fuel with
  | zero => cases h
  | succ fuel =>
    refine .of_skipBlanks ?_
    rw [readMembers] at h
    generalize skipBlanks cs = front at h
    split at h
    · next tail =>
      obtain ⟨⟨name, afterName⟩, hname, h⟩ := Option.bind_eq_some_iff.1 h
      dsimp only at h
      split at h
      · next afterColon hcolon =>
        obtain ⟨⟨value, after⟩, hread, h⟩ := Option.bind_eq_some_iff.1 h
        dsimp only at h
        obtain ⟨ws, hblank, hafter⟩ := exists_blank after
        split at h
        · next afterLast hlast =>
          rcases members with _ | ⟨⟨name, value⟩, _ | ⟨next, members⟩⟩ <;> cases h
          have hvalue := takes_of_readValue hread (hmembers _ List.mem_cons_self)
          obtain ⟨body, hspells, hbody⟩ := spellsMember_of_read hname hcolon hvalue
          exact ⟨[], _, blank_nil, .last hspells hblank, by rw [hbody, hafter, hlast]; simp⟩
        · next afterComma hcomma =>
          obtain ⟨⟨more, after'⟩, hmore, h⟩ := Option.bind_eq_some_iff.1 h
          rcases members with _ | ⟨⟨name, value⟩, members⟩ <;> cases h
          rw [List.forall_mem_cons] at hmembers
          have hvalue := takes_of_readValue hread hmembers.1
          obtain ⟨body, hspells, hbody⟩ := spellsMember_of_read hname hcolon hvalue
          obtain ⟨ws', body', hblank', hspells', rfl⟩ := takes_of_readMembers hmore hmembers.2
          exact ⟨[], _, blank_nil, .more hspells hblank hblank' hspells',
            by rw [hbody, hafter, hcomma]; simp⟩
        · cases h
      · cases h
    · cases h
termination_by fuel

end

/-- A text that is read spells what it is read as. -/
theorem isText_of_read {text : String} {value : Json} (h : read text = some value)
    (hvalue : Writable value) : IsText value text := by
  rw [read] at h
  split at h
  · next rest hread =>
    split at h
    · next hend =>
      cases h
      obtain ⟨ws, body, hblank, hspells, htext⟩ := takes_of_readValue hread hvalue
      obtain ⟨ws', hblank', hrest⟩ := exists_blank rest
      rw [List.isEmpty_iff.1 hend, List.append_nil] at hrest
      subst hrest
      exact ⟨ws, body, rest, hblank, hspells, hblank', htext⟩
    · cases h
  · cases h

/-- **The reader reads the texts of the grammar and no others**, apart from those with a string or
    a name that stands for no text. -/
theorem isText_iff {text : String} {value : Json} :
    IsText value text ↔ read text = some value ∧ Writable value := by
  constructor
  · intro h
    obtain ⟨_, _, _, _, hspells, _, _⟩ := id h
    exact ⟨read_of_isText h, hspells.writable⟩
  · exact fun ⟨hread, hvalue⟩ => isText_of_read hread hvalue

end Galley.Json
