import Mathlib
import Galley.Text.Blank
import Galley.Text.Word

/-!
  Searching a text for a word, and trimming it.

  `Leftmost` says which occurrence of a word counts, whatever the case of its letters: no other
  begins before it. The search finds just that one (`afterWord?_eq_some_iff`, by induction along the
  text), and neither what follows it (`Leftmost.change_after`) nor the case of the text
  (`afterWord?_map_toLower`) makes a difference. `Trimmed` says what is left of a text without the
  blanks at its ends, and that is what trimming gives (`trim_eq_iff`).
-/

namespace Galley.Text

/-! ## The case of letters -/

/-- Two texts are the same but for the case of ASCII letters. -/
def SameLetters (cs ds : List Char) : Prop :=
  cs.map Char.toLower = ds.map Char.toLower

theorem toLower_cases (c : Char) :
    c.toLower = c ∨ (65 ≤ c.toNat ∧ c.toNat ≤ 90) ∧ c.toLower.toNat = c.toNat + 32 := by
  by_cases hupper : c.isUpper
  · have hbounds : 65 ≤ c.toNat ∧ c.toNat ≤ 90 := by
      simpa [Char.isUpper, UInt32.le_iff_toNat_le] using hupper
    have hvalid : (c.toNat + 32).isValidChar := .inl (by omega)
    refine .inr ⟨hbounds, ?_⟩
    rw [Char.toLower_eq_of_isUpper hupper, Char.toNat_ofNat, if_pos hvalid]
  · exact .inl (Char.toLower_eq_of_not_isUpper hupper)

theorem isBlank_toLower (c : Char) : isBlank c.toLower = isBlank c := by
  rcases toLower_cases c with h | ⟨hupper, hlower⟩
  · rw [h]
  · unfold isBlank
    rw [hlower, Bool.eq_iff_iff]
    simp
    omega

theorem toLower_eq_semicolon_iff (c : Char) : c.toLower = ';' ↔ c = ';' := by
  rcases toLower_cases c with h | ⟨hupper, hlower⟩
  · rw [h]
  · constructor
    · intro heq
      rw [heq] at hlower
      have : (';').toNat = 59 := rfl
      omega
    · rintro rfl
      have : (';').toNat = 59 := rfl
      omega

theorem SameLetters.length_eq {cs ds : List Char} (h : SameLetters cs ds) :
    cs.length = ds.length := by
  have hlength := congrArg List.length h
  rwa [List.length_map, List.length_map] at hlength

/-! ## The leftmost occurrence of a word -/

/-- In the text `before ++ found ++ after` the word is found as `found`, and nowhere further to the
    left. -/
structure Leftmost (word before found after : List Char) : Prop where
  same : SameLetters found word
  first : ∀ before' found' after', before' ++ found' ++ after' = before ++ found ++ after →
    SameLetters found' word → before.length ≤ before'.length

variable {word text before found after : List Char} {c : Char}

theorem dropWord?_eq_some_iff :
    dropWord? word text = some after ↔ ∃ found, SameLetters found word ∧ text = found ++ after := by
  induction word generalizing text with
  | nil =>
    rw [dropWord?, Option.some.injEq]
    constructor
    · rintro rfl
      exact ⟨[], rfl, rfl⟩
    · rintro ⟨found, hsame, rfl⟩
      rw [List.length_eq_zero_iff.1 hsame.length_eq, List.nil_append]
  | cons w word ih =>
    cases text with
    | nil =>
      refine iff_of_false nofun ?_
      rintro ⟨found, hsame, htext⟩
      rw [(List.append_eq_nil_iff.1 htext.symm).1] at hsame
      exact absurd hsame.length_eq nofun
    | cons c rest =>
      rw [dropWord?, equalsIgnoringCase]
      constructor
      · intro h
        split at h
        · next heq =>
          obtain ⟨found, hsame, rfl⟩ := ih.1 h
          refine ⟨c :: found, ?_, rfl⟩
          rw [SameLetters, List.map_cons, List.map_cons, hsame, ← beq_iff_eq.1 heq]
        · exact absurd h nofun
      · rintro ⟨found, hsame, htext⟩
        cases found with
        | nil => exact absurd hsame.length_eq nofun
        | cons f found =>
          obtain ⟨rfl, rfl⟩ := List.cons.inj htext
          obtain ⟨hfirst, hrest⟩ := List.cons.inj hsame
          rw [if_pos (beq_iff_eq.2 hfirst.symm)]
          exact ih.2 ⟨found, hrest, rfl⟩

theorem dropWord?_eq_none_iff :
    dropWord? word text = none ↔
      ∀ found after, text = found ++ after → ¬ SameLetters found word := by
  rw [Option.eq_none_iff_forall_not_mem]
  constructor
  · intro h found after htext hsame
    exact h after (dropWord?_eq_some_iff.2 ⟨found, hsame, htext⟩)
  · intro h after hafter
    obtain ⟨found, hsame, htext⟩ := dropWord?_eq_some_iff.1 hafter
    exact h found after htext hsame

/-- One more character in front, where the word does not begin. -/
theorem leftmost_cons_iff (hnone : dropWord? word (c :: (before ++ found ++ after)) = none) :
    Leftmost word (c :: before) found after ↔ Leftmost word before found after := by
  constructor
  · intro h
    refine ⟨h.same, fun before' found' after' htext hsame => ?_⟩
    have hle := h.first (c :: before') found' after' (by simpa using htext) hsame
    simpa using hle
  · intro h
    refine ⟨h.same, fun before' found' after' htext hsame => ?_⟩
    cases before' with
    | nil =>
      have hbegins : c :: (before ++ found ++ after) = found' ++ after' := by
        simpa using htext.symm
      exact absurd hsame (dropWord?_eq_none_iff.1 hnone found' after' hbegins)
    | cons c' before' =>
      have hrest : before' ++ found' ++ after' = before ++ found ++ after := by
        simpa using (List.cons.inj htext).2
      simpa using h.first before' found' after' hrest hsame

/-- **The search finds the leftmost occurrence.** -/
theorem afterWord?_eq_some_iff : afterWord? word text = some after ↔
    ∃ before found, Leftmost word before found after ∧ text = before ++ found ++ after := by
  induction text with
  | nil =>
    rw [afterWord?, dropWord?_eq_some_iff]
    constructor
    · rintro ⟨found, hsame, htext⟩
      exact ⟨[], found, ⟨hsame, fun _ _ _ _ _ => Nat.zero_le _⟩, htext⟩
    · rintro ⟨before, found, hleftmost, htext⟩
      have hbefore := (List.append_eq_nil_iff.1 (List.append_eq_nil_iff.1 htext.symm).1).1
      rw [hbefore] at htext
      exact ⟨found, hleftmost.same, htext⟩
  | cons c rest ih =>
    rw [afterWord?]
    cases hdrop : dropWord? word (c :: rest) with
    | some after' =>
      obtain ⟨found', hsame', htext'⟩ := dropWord?_eq_some_iff.1 hdrop
      rw [Option.some.injEq]
      constructor
      · rintro rfl
        exact ⟨[], found', ⟨hsame', fun _ _ _ _ _ => Nat.zero_le _⟩, htext'⟩
      · rintro ⟨before, found, hleftmost, htext⟩
        have hle := hleftmost.first [] found' after' (htext'.symm.trans htext) hsame'
        obtain rfl := List.length_eq_zero_iff.1 (Nat.le_zero.1 hle)
        have hagain := dropWord?_eq_some_iff.2 ⟨found, hleftmost.same, htext⟩
        exact Option.some.inj (hdrop.symm.trans hagain)
    | none =>
      rw [ih]
      constructor
      · rintro ⟨before, found, hleftmost, rfl⟩
        exact ⟨c :: before, found, (leftmost_cons_iff hdrop).2 hleftmost, rfl⟩
      · rintro ⟨before, found, hleftmost, htext⟩
        cases before with
        | nil => exact absurd hleftmost.same (dropWord?_eq_none_iff.1 hdrop found after htext)
        | cons c' before =>
          obtain ⟨rfl, rfl⟩ := List.cons.inj htext
          exact ⟨before, found, (leftmost_cons_iff hdrop).1 hleftmost, rfl⟩

/-- What follows the occurrence does not matter for where it is. -/
theorem Leftmost.change_after (h : Leftmost word before found after) (other : List Char) :
    Leftmost word before found other := by
  refine ⟨h.same, fun before' found' after' htext hsame => Nat.le_of_not_lt fun hlt => ?_⟩
  have hlength := hsame.length_eq.trans h.same.length_eq.symm
  -- An occurrence that begins further to the left ends before this one does.
  have hprefix : before' ++ found' <+: before ++ found := by
    refine List.prefix_of_prefix_length_le (htext ▸ List.prefix_append _ _)
      (List.prefix_append _ other) ?_
    rw [List.length_append, List.length_append]
    omega
  obtain ⟨more, hmore⟩ := hprefix
  have hle := h.first before' found' (more ++ after)
    (by rw [← List.append_assoc, hmore]) hsame
  omega

/-- The search does not stop in a text in front where no occurrence begins. -/
theorem afterWord?_append {front : List Char}
    (h : ∀ before found after, front ++ text = before ++ found ++ after → SameLetters found word →
      front.length ≤ before.length) : afterWord? word (front ++ text) = afterWord? word text := by
  induction front with
  | nil => rfl
  | cons c front ih =>
    have hnone : dropWord? word (c :: (front ++ text)) = none := by
      rw [dropWord?_eq_none_iff]
      intro found after htext hsame
      exact absurd (h [] found after htext hsame) (by simp)
    rw [List.cons_append, afterWord?, hnone]
    refine ih fun before found after htext hsame => ?_
    have hle := h (c :: before) found after (by rw [List.cons_append, htext]; rfl) hsame
    simpa using hle

/-! ## The case of the text that is searched -/

theorem dropWord?_map_toLower (word text : List Char) :
    dropWord? word (text.map Char.toLower) =
      (dropWord? word text).map (List.map Char.toLower) := by
  induction word generalizing text with
  | nil => rfl
  | cons w word ih =>
    cases text with
    | nil => rfl
    | cons c rest =>
      rw [List.map_cons, dropWord?, dropWord?, equalsIgnoringCase, equalsIgnoringCase,
        Char.toLower_toLower_eq_toLower]
      split
      · exact ih rest
      · rfl

theorem afterWord?_map_toLower (word text : List Char) :
    afterWord? word (text.map Char.toLower) =
      (afterWord? word text).map (List.map Char.toLower) := by
  induction text with
  | nil => exact dropWord?_map_toLower word []
  | cons c rest ih =>
    have hdrop := dropWord?_map_toLower word (c :: rest)
    rw [List.map_cons] at hdrop
    rw [List.map_cons, afterWord?, afterWord?, hdrop]
    cases dropWord? word (c :: rest) with
    | some after => rfl
    | none => exact ih

/-! ## Trimming -/

/-- The second text is the first without the blanks at both ends. -/
structure Trimmed (text core : List Char) : Prop where
  split : ∃ left right, text = left ++ core ++ right ∧ left.all isBlank ∧ right.all isBlank
  head : ∀ c ∈ core.head?, ¬ isBlank c
  last : ∀ c ∈ core.getLast?, ¬ isBlank c

/-- Blanks in front are dropped, up to the first character that is none. -/
theorem dropWhile_isBlank_append {left core : List Char} (hleft : left.all isBlank)
    (hcore : ∀ c ∈ core.head?, ¬ isBlank c) : (left ++ core).dropWhile isBlank = core := by
  rw [List.dropWhile_append_of_pos (List.all_eq_true.1 hleft)]
  cases core with
  | nil => rfl
  | cons c core => rw [List.dropWhile_cons_of_neg (hcore c rfl)]

theorem trimEnd_append {core right : List Char} (hright : right.all isBlank)
    (hcore : ∀ c ∈ core.getLast?, ¬ isBlank c) : trimEnd (core ++ right) = core := by
  unfold trimEnd
  rw [List.reverse_append, dropWhile_isBlank_append (by simpa using hright)
    (by simpa using hcore), List.reverse_reverse]

theorem Trimmed.trim_eq {text core : List Char} (h : Trimmed text core) : trim text = core := by
  obtain ⟨left, right, rfl, hleft, hright⟩ := h.split
  unfold trim
  rw [List.append_assoc]
  cases core with
  | nil =>
    have hall : (left ++ right).dropWhile isBlank = [] := by
      rw [List.dropWhile_eq_nil_iff]
      intro c hc
      rcases List.mem_append.1 hc with hc | hc
      · exact List.all_eq_true.1 hleft c hc
      · exact List.all_eq_true.1 hright c hc
    rw [List.nil_append, hall]
    rfl
  | cons c core =>
    have hhead : ∀ d ∈ (c :: core ++ right).head?, ¬ isBlank d := fun d hd => h.head d hd
    rw [dropWhile_isBlank_append hleft hhead]
    exact trimEnd_append hright h.last

theorem trimmed_trim (text : List Char) : Trimmed text (trim text) := by
  have hends (cs : List Char) : ∀ c ∈ (cs.dropWhile isBlank).head?, ¬ isBlank c := by
    intro c hc
    have hnot := List.head?_dropWhile_not isBlank cs
    rw [Option.mem_def.1 hc] at hnot
    simpa using hnot
  have hsplit (cs : List Char) :
      ∃ blanks, cs = blanks ++ cs.dropWhile isBlank ∧ blanks.all isBlank :=
    ⟨cs.takeWhile isBlank, List.takeWhile_append_dropWhile.symm,
      List.all_eq_true.2 fun c hc => List.mem_takeWhile_imp hc⟩
  obtain ⟨left, hfront, hleft⟩ := hsplit text
  obtain ⟨right, hback, hright⟩ := hsplit (text.dropWhile isBlank).reverse
  have hmiddle : text.dropWhile isBlank = trim text ++ right.reverse := by
    rw [← List.reverse_reverse (text.dropWhile isBlank), hback, List.reverse_append]
    rfl
  refine ⟨⟨left, right.reverse, ?_, hleft, by simpa using hright⟩, ?_, ?_⟩
  · rw [List.append_assoc, ← hmiddle]
    exact hfront
  · intro c hc
    refine hends text c ?_
    rw [hmiddle, List.head?_append, Option.mem_def.1 hc]
    rfl
  · intro c hc
    unfold trim trimEnd at hc
    rw [List.getLast?_reverse] at hc
    exact hends _ c hc

/-- **Trimming takes the blanks at both ends and nothing else.** -/
theorem trim_eq_iff {text core : List Char} : trim text = core ↔ Trimmed text core := by
  constructor
  · rintro rfl
    exact trimmed_trim text
  · exact Trimmed.trim_eq

theorem trim_eq_self {cs : List Char} (h : ∀ c ∈ cs, isBlank c = false) : trim cs = cs := by
  refine trim_eq_iff.2 ⟨⟨[], [], by simp, rfl, rfl⟩, ?_, ?_⟩
  · intro c hc
    rw [h c (List.mem_of_mem_head? hc)]
    exact Bool.false_ne_true
  · intro c hc
    rw [h c (List.mem_of_mem_getLast? hc)]
    exact Bool.false_ne_true

theorem trim_map_toLower (text : List Char) :
    trim (text.map Char.toLower) = (trim text).map Char.toLower := by
  have hdrop (cs : List Char) : (cs.map Char.toLower).dropWhile isBlank =
      (cs.dropWhile isBlank).map Char.toLower := by
    rw [List.dropWhile_map]
    congr 2
    funext c
    exact isBlank_toLower c
  unfold trim trimEnd
  rw [hdrop, ← List.map_reverse, hdrop, List.map_reverse]

end Galley.Text
