import Galley.Markup.Alignment
import Galley.Proofs.Text.Search

/-!
  The alignment that a style declares.

  `LeftmostValue` is what counts of a style: what stands after the leftmost `text-align:` in any
  case, up to the semicolon that ends it. Such a value decides the alignment
  (`textAlignment_of_leftmostValue`), and without one there is none
  (`leftmostValue_of_textAlignment`). The main result, `textAlignment_reads`, adds which changes of
  a style leave its alignment as it is.
-/

namespace Galley

open Text

/-- The value of the leftmost `text-align` declaration in a style: what stands between the colon and
    the next semicolon, or the end. -/
def LeftmostValue (style value : List Char) : Prop :=
  ∃ before found rest, Leftmost textAlignWord before found (value ++ rest) ∧
    style = before ++ found ++ (value ++ rest) ∧ ';' ∉ value ∧ ∀ c ∈ rest.head?, c = ';'

theorem Alignment.ofKeyword?_eq_some_iff {word : List Char} {a : Alignment} :
    Alignment.ofKeyword? word = some a ↔ word = a.keyword.toList := by
  constructor
  · intro h
    unfold Alignment.ofKeyword? at h
    have heq := List.find?_some h
    exact (beq_iff_eq.1 heq).symm
  · rintro rfl
    cases a <;> decide

/-! ## Reading the leftmost value -/

theorem takeWhile_semicolon {value rest : List Char} (hvalue : ';' ∉ value)
    (hrest : ∀ c ∈ rest.head?, c = ';') : (value ++ rest).takeWhile (· != ';') = value := by
  have hstop : rest.takeWhile (· != ';') = [] := by
    cases rest with
    | nil => rfl
    | cons c rest =>
      obtain rfl := hrest c rfl
      rfl
  rw [List.takeWhile_append_of_pos, hstop, List.append_nil]
  intro c hc
  have hne : c ≠ ';' := fun heq => hvalue (heq ▸ hc)
  simpa using hne

/-- What the search finds is, up to a semicolon, the leftmost value. -/
theorem leftmostValue_of_afterWord? {style : List Char} (after : List Char)
    (h : afterWord? textAlignWord style = some after) :
    LeftmostValue style (after.takeWhile (· != ';')) := by
  obtain ⟨before, found, hleftmost, hstyle⟩ := afterWord?_eq_some_iff.1 h
  refine ⟨before, found, after.dropWhile (· != ';'), ?_, ?_, ?_, ?_⟩
  · rwa [List.takeWhile_append_dropWhile]
  · rwa [List.takeWhile_append_dropWhile]
  · intro hmem
    simpa using List.mem_takeWhile_imp hmem
  · intro c hc
    have hnot := List.head?_dropWhile_not (· != ';') after
    rw [Option.mem_def.1 hc] at hnot
    simpa using hnot

/-- **The leftmost value decides.** -/
theorem textAlignment_of_leftmostValue {style : String} {value : List Char}
    (h : LeftmostValue style.toList value) :
    textAlignment style = Alignment.ofKeyword? ((trim value).map Char.toLower) := by
  obtain ⟨before, found, rest, hleftmost, hstyle, hvalue, hrest⟩ := h
  have hafter : afterWord? textAlignWord style.toList = some (value ++ rest) :=
    afterWord?_eq_some_iff.2 ⟨before, found, hleftmost, hstyle⟩
  rw [textAlignment, hafter, Option.bind_some, declaredValue, takeWhile_semicolon hvalue hrest]

/-- A style that declares an alignment has a leftmost value. -/
theorem leftmostValue_of_textAlignment {style : String} {a : Alignment}
    (h : textAlignment style = some a) : ∃ value, LeftmostValue style.toList value := by
  obtain ⟨after, hafter, -⟩ := Option.bind_eq_some_iff.1 h
  exact ⟨_, leftmostValue_of_afterWord? after hafter⟩

theorem textAlignment_eq_some_iff {style : String} {a : Alignment} :
    textAlignment style = some a ↔ ∃ value word, LeftmostValue style.toList value ∧
      Trimmed value word ∧ word.map Char.toLower = a.keyword.toList := by
  constructor
  · intro h
    obtain ⟨value, hvalue⟩ := leftmostValue_of_textAlignment h
    rw [textAlignment_of_leftmostValue hvalue] at h
    exact ⟨value, trim value, hvalue, trimmed_trim value, Alignment.ofKeyword?_eq_some_iff.1 h⟩
  · rintro ⟨value, word, hvalue, hword, hkeyword⟩
    rw [textAlignment_of_leftmostValue hvalue, hword.trim_eq]
    exact Alignment.ofKeyword?_eq_some_iff.2 hkeyword

/-- A leftmost value that is no keyword leaves a style without an alignment, whatever follows. -/
theorem textAlignment_eq_none {style : String} {value : List Char}
    (hvalue : LeftmostValue style.toList value)
    (hnone : ∀ word (a : Alignment), Trimmed value word →
      word.map Char.toLower ≠ a.keyword.toList) : textAlignment style = none := by
  rw [textAlignment_of_leftmostValue hvalue, Option.eq_none_iff_forall_ne_some]
  intro a h
  exact hnone _ a (trimmed_trim value) (Alignment.ofKeyword?_eq_some_iff.1 h)

/-! ## Changes that do not matter -/

theorem declaredValue_map_toLower (after : List Char) :
    declaredValue (after.map Char.toLower) = declaredValue after := by
  have hstop : (fun c => c != ';') ∘ Char.toLower = (fun c => c != ';') := by
    funext c
    rw [Function.comp_apply, Bool.eq_iff_iff, bne_iff_ne, bne_iff_ne, Ne, toLower_eq_semicolon_iff]
  unfold declaredValue
  rw [List.takeWhile_map, hstop, trim_map_toLower, List.map_map]
  exact List.map_congr_left fun c _ => Char.toLower_toLower_eq_toLower c

/-- The alignment does not depend on the case of any letter of a style. -/
theorem textAlignment_congr {style other : String} (h : SameLetters other.toList style.toList) :
    textAlignment other = textAlignment style := by
  have hlower (s : String) : textAlignment s =
      (afterWord? textAlignWord (s.toList.map Char.toLower)).bind fun after =>
        Alignment.ofKeyword? (declaredValue after) := by
    rw [textAlignment, afterWord?_map_toLower]
    cases afterWord? textAlignWord s.toList with
    | none => rfl
    | some after =>
      rw [Option.map_some, Option.bind_some, Option.bind_some, declaredValue_map_toLower]
  rw [hlower other, hlower style, h]

/-- What follows the semicolon of the leftmost declaration does not matter. -/
theorem textAlignment_change_rest {style other : String} {before found value rest more : List Char}
    (hleftmost : Leftmost textAlignWord before found (value ++ ';' :: rest)) (hvalue : ';' ∉ value)
    (hstyle : style.toList = before ++ found ++ (value ++ ';' :: rest))
    (hother : other.toList = before ++ found ++ (value ++ ';' :: more)) :
    textAlignment other = textAlignment style := by
  have hends (tail : List Char) : ∀ c ∈ (';' :: tail).head?, c = ';' :=
    fun c hc => (Option.mem_some.1 hc).symm
  have hread : LeftmostValue style.toList value :=
    ⟨before, found, ';' :: rest, hleftmost, hstyle, hvalue, hends rest⟩
  have hreadOther : LeftmostValue other.toList value :=
    ⟨before, found, ';' :: more, hleftmost.change_after _, hother, hvalue, hends more⟩
  rw [textAlignment_of_leftmostValue hread, textAlignment_of_leftmostValue hreadOther]

/-- A text in front in which no declaration begins does not matter. -/
theorem textAlignment_append {front style : String}
    (h : ∀ before found after, (front ++ style).toList = before ++ found ++ after →
      SameLetters found textAlignWord → front.toList.length ≤ before.length) :
    textAlignment (front ++ style) = textAlignment style := by
  rw [String.toList_append] at h
  rw [textAlignment, String.toList_append, afterWord?_append h]
  rfl

/-- **How a style declares an alignment.** The leftmost `text-align:`, in any case of its letters,
    has one of the four words as its value, up to the next semicolon and without the blanks around
    it. The case of letters, what follows that semicolon and a text in front without a declaration
    make no difference; and after a leftmost value that is none of the words no later declaration
    counts. -/
theorem textAlignment_reads (style : String) :
    (∀ a, textAlignment style = some a ↔ ∃ value word, LeftmostValue style.toList value ∧
      Trimmed value word ∧ word.map Char.toLower = a.keyword.toList) ∧
    (∀ other : String, SameLetters other.toList style.toList →
      textAlignment other = textAlignment style) ∧
    (∀ before found value rest more (other : String),
      Leftmost textAlignWord before found (value ++ ';' :: rest) → ';' ∉ value →
      style.toList = before ++ found ++ (value ++ ';' :: rest) →
      other.toList = before ++ found ++ (value ++ ';' :: more) →
      textAlignment other = textAlignment style) ∧
    (∀ front : String,
      (∀ before found after, (front ++ style).toList = before ++ found ++ after →
        SameLetters found textAlignWord → front.toList.length ≤ before.length) →
      textAlignment (front ++ style) = textAlignment style) ∧
    (∀ value, LeftmostValue style.toList value →
      (∀ word (a : Alignment), Trimmed value word → word.map Char.toLower ≠ a.keyword.toList) →
      textAlignment style = none) := by
  refine ⟨fun a => textAlignment_eq_some_iff, fun other hsame => textAlignment_congr hsame, ?_,
    fun front hfront => textAlignment_append hfront,
    fun value hvalue hnone => textAlignment_eq_none hvalue hnone⟩
  intro before found value rest more other hleftmost hvalue hstyle hother
  exact textAlignment_change_rest hleftmost hvalue hstyle hother

theorem textAlignment_reads_declarations :
    textAlignment "Text-Align: CENTER" = textAlignment "text-align: center" ∧
      textAlignment "text-align: left; color: red" =
        textAlignment "text-align: left; text-align: right" ∧
      textAlignment ("color: red; " ++ "text-align: left") = textAlignment "text-align: left" ∧
      textAlignment "text-align: middle; text-align: left" = none ∧
      textAlignment "text-align: left" = some .left ∧
      textAlignment "color: red; TEXT-ALIGN: Center; text-align: left" = some .center ∧
      textAlignment "text-align:right;" = some .right ∧
      textAlignment "Text-Align:\t justify ; width: 1em" = some .justify := by
  refine ⟨(textAlignment_reads "text-align: center").2.1 _ (by unfold SameLetters; decide),
    (textAlignment_reads "text-align: left; text-align: right").2.2.1 [] textAlignWord
      " left".toList " text-align: right".toList " color: red".toList _
      ⟨rfl, fun _ _ _ _ _ => Nat.zero_le _⟩ (by decide) (by decide) (by decide),
    (textAlignment_reads "text-align: left").2.2.2.1 "color: red; " ?_,
    (textAlignment_reads "text-align: middle; text-align: left").2.2.2.2 _
      (leftmostValue_of_afterWord? " middle; text-align: left".toList (by decide)) ?_,
    ((textAlignment_reads "text-align: left").1 .left).2
      ⟨_, "left".toList, leftmostValue_of_afterWord? " left".toList (by decide), ?_, by decide⟩,
    ((textAlignment_reads "color: red; TEXT-ALIGN: Center; text-align: left").1 .center).2
      ⟨_, "Center".toList, leftmostValue_of_afterWord? " Center; text-align: left".toList
        (by decide), ?_, by decide⟩,
    ((textAlignment_reads "text-align:right;").1 .right).2
      ⟨_, "right".toList, leftmostValue_of_afterWord? "right;".toList (by decide), ?_, by decide⟩,
    ((textAlignment_reads "Text-Align:\t justify ; width: 1em").1 .justify).2
      ⟨_, "justify".toList, leftmostValue_of_afterWord? "\t justify ; width: 1em".toList
        (by decide), ?_, by decide⟩⟩
  · intro before found after htext hsame
    have hsearch : afterWord? textAlignWord ("color: red; " ++ "text-align: left").toList =
        some " left".toList := by decide
    obtain ⟨before', found', hleftmost, htext'⟩ := afterWord?_eq_some_iff.1 hsearch
    have hle := hleftmost.first before found after (htext.symm.trans htext') hsame
    have hlength := congrArg List.length htext'
    rw [List.length_append, List.length_append, hleftmost.same.length_eq] at hlength
    have hbefore : before'.length = "color: red; ".toList.length :=
      Nat.add_right_cancel (Nat.add_right_cancel hlength.symm)
    rwa [← hbefore]
  · intro word a hword
    rw [← hword.trim_eq]
    cases a <;> decide
  all_goals exact trim_eq_iff.1 (by decide)

end Galley
