import Galley.Text.Quoted

/-!
  Reading back what was written.

  `ReadsBack` says that something written in front of a text can be told from the text: nothing else
  that begins the same text is written so. It passes from items to lists of them
  (`readsBack_flatMap`) and to parts that may be left out (`readsBack_optional`). A quoted character
  reads back whatever follows it (`readsBack_quoteChar`), and so no two texts have the same quoted
  form (`quote_injective`), and no line ends inside one (`lineFeed_notMem_quote`).
-/

namespace Galley.Text

section ReadsBack

variable {α β : Type}

/-- What is written for `a` can be taken off the front of a text, given that what comes after it is
    as `Next` says. -/
def ReadsBack (write : α → List β) (Next : List β → Prop) (a : α) : Prop :=
  ∀ b rest rest', Next rest → Next rest' → write a ++ rest = write b ++ rest' →
    a = b ∧ rest = rest'

variable {write : α → List β} {Next Stop : List β → Prop}

/-- Where no written form begins another, none needs a particular rest. -/
theorem readsBack_of_prefixFree (h : ∀ a b, write a <+: write b → a = b) (a : α) :
    ReadsBack write (fun _ => True) a := by
  intro b rest rest' _ _ heq
  have hfirst : write a <+: write b ++ rest' := heq ▸ List.prefix_append _ _
  have hsecond : write b <+: write b ++ rest' := List.prefix_append _ _
  have hab : a = b := by
    rcases List.prefix_or_prefix_of_prefix hfirst hsecond with hle | hle
    · exact h a b hle
    · exact (h b a hle).symm
  subst hab
  exact ⟨rfl, List.append_cancel_left heq⟩

/-- Items one after the other, up to a rest that cannot be an item. -/
theorem readsBack_flatMap {as : List α} (hitems : ∀ a ∈ as, ReadsBack write Next a)
    (hnext : ∀ a rest, Next (write a ++ rest)) (hstop : ∀ rest, Stop rest → Next rest)
    (hgoes : ∀ a rest, ¬ Stop (write a ++ rest)) : ReadsBack (List.flatMap write) Stop as := by
  have hrest (as : List α) {rest : List β} (h : Stop rest) : Next (as.flatMap write ++ rest) := by
    cases as with
    | nil => exact hstop rest h
    | cons a as =>
      rw [List.flatMap_cons, List.append_assoc]
      exact hnext a _
  intro bs
  induction as generalizing bs with
  | nil =>
    intro rest rest' hleft _ heq
    cases bs with
    | nil => exact ⟨rfl, heq⟩
    | cons b bs =>
      have heq' : rest = write b ++ (bs.flatMap write ++ rest') := by
        simpa using heq
      exact absurd (heq' ▸ hleft) (hgoes b _)
  | cons a as ih =>
    intro rest rest' hleft hright heq
    cases bs with
    | nil =>
      have heq' : write a ++ (as.flatMap write ++ rest) = rest' := by
        simpa using heq
      exact absurd (heq' ▸ hright) (hgoes a _)
    | cons b bs =>
      rw [List.flatMap_cons, List.flatMap_cons, List.append_assoc, List.append_assoc] at heq
      obtain ⟨rfl, htail⟩ :=
        hitems a List.mem_cons_self b _ _ (hrest as hleft) (hrest bs hright) heq
      obtain ⟨rfl, rfl⟩ :=
        ih (fun a ha => hitems a (List.mem_cons_of_mem _ ha)) bs rest rest' hleft hright htail
      exact ⟨rfl, rfl⟩

/-- A part that may be left out, before a rest that cannot be the part. -/
theorem readsBack_optional {write : Option α → List β} (hnone : write none = [])
    (hsome : ∀ a, ReadsBack (fun a => write (some a)) Next a)
    (hstop : ∀ rest, Stop rest → Next rest) (hgoes : ∀ a rest, ¬ Stop (write (some a) ++ rest))
    (value : Option α) : ReadsBack write Stop value := by
  intro other rest rest' hleft hright heq
  cases value with
  | none =>
    cases other with
    | none =>
      rw [hnone] at heq
      exact ⟨rfl, heq⟩
    | some b =>
      rw [hnone, List.nil_append] at heq
      exact absurd (heq ▸ hleft) (hgoes b rest')
  | some a =>
    cases other with
    | none =>
      rw [hnone, List.nil_append] at heq
      exact absurd (heq ▸ hright) (hgoes a rest)
    | some b =>
      obtain ⟨rfl, hrest⟩ := hsome a b rest rest' (hstop _ hleft) (hstop _ hright) heq
      exact ⟨rfl, hrest⟩

/-- The first occurrence of `mark` ends what stands in front of it. -/
theorem eq_of_append_mark_eq {mark : β} {xs ys rest rest' : List β} (hxs : mark ∉ xs)
    (hys : mark ∉ ys) (h : xs ++ mark :: rest = ys ++ mark :: rest') : xs = ys ∧ rest = rest' := by
  induction xs generalizing ys with
  | nil =>
    cases ys with
    | nil => exact ⟨rfl, (List.cons.inj h).2⟩
    | cons y ys => exact absurd ((List.cons.inj h).1 ▸ List.mem_cons_self) hys
  | cons x xs ih =>
    cases ys with
    | nil => exact absurd ((List.cons.inj h).1 ▸ List.mem_cons_self) hxs
    | cons y ys =>
      obtain ⟨rfl, htail⟩ := List.cons.inj h
      obtain ⟨rfl, hrest⟩ := ih (fun hmem => hxs (List.mem_cons_of_mem _ hmem))
        (fun hmem => hys (List.mem_cons_of_mem _ hmem)) htail
      exact ⟨rfl, hrest⟩

end ReadsBack

/-! ## Code points -/

variable {n m : Nat} {c : Char}

theorem hexDigits_of_lt (h : n < 16) : hexDigits n = [n.digitChar] :=
  Nat.toDigits_of_lt_base h

theorem hexDigits_of_le (h : 16 ≤ n) :
    hexDigits n = hexDigits (n / 16) ++ [(n % 16).digitChar] :=
  Nat.toDigits_of_base_le (by decide) h

theorem digitChar_injective : ∀ k < 16, ∀ l < 16, k.digitChar = l.digitChar → k = l := by
  decide

theorem mem_hexDigits (h : c ∈ hexDigits n) : ∃ k < 16, c = k.digitChar := by
  induction n using Nat.strongRecOn with
  | ind n ih =>
    rcases Nat.lt_or_ge n 16 with hlt | hge
    · rw [hexDigits_of_lt hlt] at h
      exact ⟨n, hlt, List.mem_singleton.1 h⟩
    · rw [hexDigits_of_le hge] at h
      rcases List.mem_append.1 h with h | h
      · exact ih (n / 16) (by omega) h
      · exact ⟨n % 16, by omega, List.mem_singleton.1 h⟩

theorem hexDigits_injective (h : hexDigits m = hexDigits n) : m = n := by
  -- One digit is not as long as two.
  have hlong {k l : Nat} (hk : k < 16) (hl : 16 ≤ l) : hexDigits k ≠ hexDigits l := by
    intro heq
    rw [hexDigits_of_lt hk, hexDigits_of_le hl] at heq
    have hlength := congrArg List.length heq
    rw [List.length_append, List.length_singleton, List.length_singleton] at hlength
    exact Nat.toDigits_ne_nil (List.length_eq_zero_iff.1 (Nat.add_right_cancel hlength.symm))
  induction m using Nat.strongRecOn generalizing n with
  | ind m ih =>
    rcases Nat.lt_or_ge m 16 with hm | hm <;> rcases Nat.lt_or_ge n 16 with hn | hn
    · rw [hexDigits_of_lt hm, hexDigits_of_lt hn] at h
      exact digitChar_injective m hm n hn (List.head_eq_of_cons_eq h)
    · exact absurd h (hlong hm hn)
    · exact absurd h.symm (hlong hn hm)
    · rw [hexDigits_of_le hm, hexDigits_of_le hn] at h
      obtain ⟨hfront, hlast⟩ := List.append_inj' h rfl
      have hdiv := ih (m / 16) (by omega) hfront
      have hmod := digitChar_injective _ (Nat.mod_lt m (by decide)) _ (Nat.mod_lt n (by decide))
        (List.head_eq_of_cons_eq hlast)
      omega

/-! ## Quoted characters and texts -/

/-- The characters with a short escape, each with the character that stands after the backslash. -/
def shortEscapes : List (Char × Char) :=
  [('"', '"'), ('\\', '\\'), ('\t', 't'), ('\n', 'n'), ('\r', 'r'), ('\x00', '0')]

theorem shortEscapes_injective : ∀ p ∈ shortEscapes, ∀ q ∈ shortEscapes, p.2 = q.2 → p.1 = q.1 := by
  decide

/-- No short escape looks like the start of a code point. -/
theorem shortEscapes_ne_u : ∀ p ∈ shortEscapes, p.2 ≠ 'u' := by
  decide

theorem quoteChar_of_mem : ∀ p ∈ shortEscapes, quoteChar p.1 = ['\\', p.2] := by
  decide

theorem quoteChar_of_notMem (h : c ∉ shortEscapes.map Prod.fst) :
    quoteChar c =
      if isHidden c then ['\\', 'u', '{'] ++ hexDigits c.toNat ++ ['}'] else [c] := by
  simp only [shortEscapes, List.map_cons, List.map_nil, List.mem_cons, List.not_mem_nil,
    or_false, not_or] at h
  obtain ⟨hquote, hback, htab, hline, hreturn, hnull⟩ := h
  rw [quoteChar, if_neg hquote, if_neg hback, if_neg htab, if_neg hline, if_neg hreturn,
    if_neg hnull]

theorem quoteChar_cases (c : Char) :
    (∃ code, (c, code) ∈ shortEscapes ∧ quoteChar c = ['\\', code]) ∨
    quoteChar c = '\\' :: 'u' :: '{' :: (hexDigits c.toNat ++ ['}']) ∨
    quoteChar c = [c] ∧ c ∉ shortEscapes.map Prod.fst := by
  by_cases hmem : c ∈ shortEscapes.map Prod.fst
  · obtain ⟨p, hp, rfl⟩ := List.mem_map.1 hmem
    exact .inl ⟨p.2, hp, quoteChar_of_mem p hp⟩
  · rw [quoteChar_of_notMem hmem]
    split
    · exact .inr (.inl rfl)
    · exact .inr (.inr ⟨rfl, hmem⟩)

/-- **A quoted character can be told from any text it begins.** -/
theorem readsBack_quoteChar (c : Char) : ReadsBack quoteChar (fun _ => True) c := by
  intro d rest rest' _ _ h
  have hplain {c : Char} (hc : c ∉ shortEscapes.map Prod.fst) : '\\' ≠ c := by
    rintro rfl
    exact hc (by decide)
  -- Each side is a short escape, a code point or the character itself. Only alike sides agree, and
  -- of these a code point alone needs its end to be found.
  rcases quoteChar_cases c with ⟨code, hcode, heq⟩ | heq | ⟨heq, hc⟩ <;>
    rcases quoteChar_cases d with ⟨code', hcode', heq'⟩ | heq' | ⟨heq', hd⟩ <;>
    rw [heq, heq'] at h
  · obtain ⟨hsame, rfl⟩ := List.cons.inj (List.cons.inj h).2
    exact ⟨shortEscapes_injective _ hcode _ hcode' hsame, rfl⟩
  · exact absurd (List.cons.inj (List.cons.inj h).2).1 (shortEscapes_ne_u _ hcode)
  · exact absurd (List.cons.inj h).1 (hplain hd)
  · exact absurd (List.cons.inj (List.cons.inj h).2).1.symm (shortEscapes_ne_u _ hcode')
  · have hclose (n : Nat) : '}' ∉ hexDigits n := by
      intro hmem
      obtain ⟨k, -, hdigit⟩ := mem_hexDigits hmem
      exact Nat.digitChar_ne '}' (by decide) hdigit.symm
    have hdigits : hexDigits c.toNat ++ '}' :: rest = hexDigits d.toNat ++ '}' :: rest' := by
      simpa using h
    obtain ⟨hcode, rfl⟩ := eq_of_append_mark_eq (hclose _) (hclose _) hdigits
    exact ⟨Char.toNat_inj.1 (hexDigits_injective hcode), rfl⟩
  · exact absurd (List.cons.inj h).1 (hplain hd)
  · exact absurd (List.cons.inj h).1.symm (hplain hc)
  · exact absurd (List.cons.inj h).1.symm (hplain hc)
  · exact ⟨(List.cons.inj h).1, (List.cons.inj h).2⟩

/-- No quoted character begins with a quote. -/
theorem head?_quoteChar_append (c : Char) (rest : List Char) :
    (quoteChar c ++ rest).head? ≠ some '"' := by
  rcases quoteChar_cases c with ⟨code, -, heq⟩ | heq | ⟨heq, hc⟩ <;> rw [heq]
  · exact nofun
  · exact nofun
  · rintro h
    obtain rfl := Option.some.inj h
    exact hc (by decide)

/-- **No two texts have the same quoted form.** -/
theorem quote_injective : Function.Injective quote := by
  intro s t h
  have hchars := (List.cons.inj (String.ofList_injective h)).2
  have hread : ReadsBack (List.flatMap quoteChar) (fun rest => rest.head? = some '"') s.toList :=
    readsBack_flatMap (fun c _ => readsBack_quoteChar c) (fun _ _ => trivial) (fun _ _ => trivial)
      head?_quoteChar_append
  exact String.toList_injective (hread t.toList ['"'] ['"'] rfl rfl hchars).1

theorem lineFeed_notMem_quoteChar (c : Char) : '\n' ∉ quoteChar c := by
  rcases quoteChar_cases c with ⟨code, hcode, heq⟩ | heq | ⟨heq, hc⟩ <;> rw [heq]
  · have hcodes : ∀ p ∈ shortEscapes, '\n' ∉ ['\\', p.2] := by decide
    exact hcodes _ hcode
  · intro hmem
    have hdigits : '\n' ∈ hexDigits c.toNat := by simpa using hmem
    obtain ⟨k, -, hdigit⟩ := mem_hexDigits hdigits
    exact Nat.digitChar_ne '\n' (by decide) hdigit.symm
  · intro hmem
    obtain rfl := List.mem_singleton.1 hmem
    exact hc (by decide)

/-- A line never breaks inside a quoted text. -/
theorem lineFeed_notMem_quote (s : String) : '\n' ∉ (quote s).toList := by
  unfold quote
  rw [String.toList_ofList]
  intro hmem
  have hinside : ∃ c ∈ s.toList, '\n' ∈ quoteChar c := by simpa using hmem
  obtain ⟨c, -, hc⟩ := hinside
  exact lineFeed_notMem_quoteChar c hc

/-! ## Lines -/

/-- Lines that hold no line feed can be told from their text. -/
theorem lines_eq_of_join_eq {lines lines' : List String}
    (h : ∀ line ∈ lines, '\n' ∉ line.toList) (h' : ∀ line ∈ lines', '\n' ∉ line.toList)
    (heq : String.join (lines.map fun line => line ++ "\n") =
      String.join (lines'.map fun line => line ++ "\n")) : lines = lines' := by
  have hcons (line : String) (lines : List String) :
      (String.join ((line :: lines).map fun line => line ++ "\n")).toList =
        line.toList ++ '\n' :: (String.join (lines.map fun line => line ++ "\n")).toList := by
    simp
  induction lines generalizing lines' with
  | nil =>
    cases lines' with
    | nil => rfl
    | cons line' lines' =>
      have hchars := congrArg String.toList heq
      rw [hcons] at hchars
      exact absurd hchars (by simp)
  | cons line lines ih =>
    cases lines' with
    | nil =>
      have hchars := congrArg String.toList heq
      rw [hcons] at hchars
      exact absurd hchars (by simp)
    | cons line' lines' =>
      have hchars := congrArg String.toList heq
      rw [hcons, hcons] at hchars
      obtain ⟨hline, hrest⟩ := eq_of_append_mark_eq (h line List.mem_cons_self)
        (h' line' List.mem_cons_self) hchars
      rw [String.toList_injective hline]
      congr 1
      exact ih (fun line hline => h line (List.mem_cons_of_mem _ hline))
        (fun line hline => h' line (List.mem_cons_of_mem _ hline)) (String.toList_injective hrest)

end Galley.Text
